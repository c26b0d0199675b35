import HurriCache.TableEffects

/-!
# Replacing the topology

An update that returns leaves exactly the topology it was given: the last
peer that lists a partition has its route, the listed targets are the
registered ones, and only clients of targets that came or went are created or
shut down. An update that throws has stored the shard count and kept the
clients created before the one that failed.
-/

set_option autoImplicit false

namespace HurriCache.TopologyReplacement
open HurriCache.ClientTypes HurriCache.CallOutcomes HurriCache.TopologyTable
open HurriCache.TopologyTable.RoutingTable HurriCache.TableEffects

variable (createFails : Text → Option CallException)

section Creating

def missing (table : RoutingTable) (targets : List Text) : List Text :=
  targets.filter (fun t => (table.getRouteByTarget t).isNone)

theorem mem_missing (table : RoutingTable) (targets : List Text) (target : Text) :
    target ∈ missing table targets ↔ target ∈ targets ∧ table.getRouteByTarget target = none := by
  rw [missing, List.mem_filter, Option.isNone_iff_eq_none]

theorem missing_cons_known (table : RoutingTable) (target : Text) (targets : List Text)
    (client : Client) (h : table.getRouteByTarget target = some client) :
    missing table (target::targets) = missing table targets := by
  rw [missing, List.filter_cons_of_neg (by rw [h]; exact Bool.false_ne_true)]
  rfl

theorem missing_cons_unknown (table : RoutingTable) (target : Text) (targets : List Text)
    (h : table.getRouteByTarget target = none) :
    missing table (target::targets) = target::missing table targets := by
  rw [missing, List.filter_cons_of_pos (by rw [h]; rfl)]
  rfl

theorem mem_missing_register (table : RoutingTable) (first : Text) (targets : List Text)
    (target : Text) :
    target ∈ missing (table.register first) targets ↔
      target ∈ missing table targets ∧ target ≠ first := by
  rw [mem_missing, mem_missing]
  by_cases he : target = first
  · subst he
    simp [register_known]
  · have hsame : (table.register first).getRouteByTarget target = table.getRouteByTarget target :=
      AList.lookup_insert_ne he
    simp [hsame, he]

theorem createMissing_unlisted (table : RoutingTable) (targets : List Text) (target : Text)
    (h : target ∉ targets) :
    (createMissing createFails table targets).2.getRouteByTarget target =
        table.getRouteByTarget target ∧
      (createMissing createFails table targets).2.created target = table.created target := by
  induction targets generalizing table with
  | nil => exact ⟨rfl,rfl⟩
  | cons first targets ih =>
    rw [List.mem_cons, not_or] at h
    obtain ⟨hne,hrest⟩ := h
    unfold createMissing
    split
    · exact ih table hrest
    · split
      · exact ⟨rfl,rfl⟩
      · obtain ⟨hl,hc⟩ := ih (table.register first) hrest
        exact ⟨hl.trans (AList.lookup_insert_ne hne),hc.trans (Function.update_of_ne hne _ _)⟩

theorem createMissing_returns_iff (table : RoutingTable) (targets : List Text) :
    (createMissing createFails table targets).1 = none ↔
      ∀ target ∈ missing table targets, createFails target = none := by
  induction targets generalizing table with
  | nil =>
    constructor
    · intro _ target ht
      cases ht
    · intro _
      rfl
  | cons first targets ih =>
    unfold createMissing
    split
    next client hl =>
      rw [missing_cons_known table first targets client hl]
      exact ih table
    next hn =>
      rw [missing_cons_unknown table first targets hn, List.forall_mem_cons]
      split
      next e hf => simp [hf]
      next hf =>
        rw [ih (table.register first)]
        constructor
        · intro h
          refine ⟨hf,fun target ht => ?_⟩
          by_cases he : target = first
          · rw [he, hf]
          · exact h target ((mem_missing_register table first targets target).mpr ⟨ht,he⟩)
        · intro h target ht
          exact h.2 target ((mem_missing_register table first targets target).mp ht).1

theorem createMissing_first (table : RoutingTable) (targets : List Text) (target : Text)
    (rest : List Text) (h : missing table targets = target::rest) :
    (createFails target ≠ none → (createMissing createFails table targets).2 = table) ∧
    (createFails target = none → ∃ client,
      (createMissing createFails table targets).2.getRouteByTarget target = some client) := by
  induction targets with
  | nil => cases h
  | cons first targets ih =>
    unfold createMissing
    split
    next client hl =>
      rw [missing_cons_known table first targets client hl] at h
      exact ih h
    next hn =>
      rw [missing_cons_unknown table first targets hn] at h
      cases h
      split
      next e hf => exact ⟨fun _ => rfl,fun hnone => by rw [hf] at hnone; cases hnone⟩
      next hf =>
        refine ⟨fun hsome => absurd hf hsome,fun _ => ⟨table.createClient target,?_⟩⟩
        exact grows_known _ _ (createMissing_grows createFails (table.register target) targets)
          target _ (register_known table target)

end Creating

section Routes

def Lists (peer : PeerRouting) (shard : Int32) (role : NodeRole) : Prop :=
  role = peer.role ∧ shard ∈ peer.partitionIds.map UInt32.toInt32

theorem addRoutes_unlisted (table : RoutingTable) (peer : PeerRouting) (shard : Int32)
    (role : NodeRole) (h : ¬ Lists peer shard role) :
    (addRoutes table peer).getRoute shard role = table.getRoute shard role := by
  rw [addRoutes_getRoute]
  split
  · rfl
  · exact if_neg h

theorem foldl_addRoutes_unlisted (table : RoutingTable) (peers : List PeerRouting)
    (shard : Int32) (role : NodeRole) (h : ∀ peer ∈ peers, ¬ Lists peer shard role) :
    (peers.foldl addRoutes table).getRoute shard role = table.getRoute shard role := by
  induction peers generalizing table with
  | nil => rfl
  | cons peer peers ih =>
    rw [List.foldl_cons, ih (addRoutes table peer) (fun p hp => h p (List.mem_cons_of_mem _ hp))]
    exact addRoutes_unlisted table peer shard role (h peer List.mem_cons_self)

theorem foldl_addRoutes_last (table : RoutingTable) (front back : List PeerRouting)
    (peer : PeerRouting) (shard : Int32) (role : NodeRole) (client : Client)
    (hclient : table.getRouteByTarget peer.target = some client) (hpeer : Lists peer shard role)
    (hback : ∀ other ∈ back, ¬ Lists other shard role) :
    ((front++peer::back).foldl addRoutes table).getRoute shard role = some client := by
  have hkept : (front.foldl addRoutes table).getRouteByTarget peer.target = some client := by
    rw [getRouteByTarget, (foldl_addRoutes_clients table front).1]
    exact hclient
  rw [List.foldl_append, List.foldl_cons, foldl_addRoutes_unlisted _ back shard role hback,
    addRoutes_getRoute, hkept]
  exact if_pos hpeer

theorem foldl_addRoutes_base (table : RoutingTable) (peers : List PeerRouting) :
    { peers.foldl addRoutes table with routing_table := table.routing_table } = table := by
  have hclients := foldl_addRoutes_clients table peers
  have hshards := addRoutes_max_shards table peers
  cases hfold : peers.foldl addRoutes table with
  | mk max_shards routing_table routing_table_target created =>
    rw [hfold] at hclients hshards
    obtain ⟨htargets,hcreated⟩ := hclients
    cases table
    simp_all

end Routes

section Returning

variable (table : RoutingTable) (max_shards : Int32) (peers : List PeerRouting)

def cleared (mid : RoutingTable) : RoutingTable :=
  { mid.removeOld (mid.oldTargets (newTargets peers)) with routing_table := ∅ }

theorem cleared_lookup (mid : RoutingTable) (target : Text) :
    (cleared peers mid).getRouteByTarget target =
      if target ∈ newTargets peers then mid.getRouteByTarget target else none :=
  removed_lookup mid (newTargets peers) target

theorem update_returned
    (h : (updateFromCoordinator createFails table max_shards peers).thrown = none) :
    let mid := afterCreation createFails table max_shards peers
    (createMissing createFails { table with max_shards := max_shards }
        (newTargets peers)).1 = none ∧
      updateFromCoordinator createFails table max_shards peers =
        ⟨peers.foldl addRoutes (cleared peers mid),
          (mid.oldTargets (newTargets peers)).filterMap mid.getRouteByTarget,none⟩ := by
  unfold updateFromCoordinator at h ⊢
  unfold afterCreation
  rcases hm : createMissing createFails { table with max_shards := max_shards }
    (newTargets peers) with ⟨thrown,mid⟩
  simp only [hm] at h ⊢
  cases thrown with
  | some e => cases h
  | none => exact ⟨rfl,rfl⟩

theorem afterCreation_unlisted (target : Text) (h : target ∉ newTargets peers) :
    (afterCreation createFails table max_shards peers).getRouteByTarget target =
        table.getRouteByTarget target ∧
      (afterCreation createFails table max_shards peers).created target = table.created target :=
  createMissing_unlisted createFails { table with max_shards := max_shards } (newTargets peers)
    target h

/-- What an update is to leave of a table. -/
structure Replaced (update : Update) : Prop where
  max_shards : update.table.max_shards = max_shards
  routed : ∀ shard role front peer back, peers = front++peer::back → Lists peer shard role →
    (∀ other ∈ back, ¬ Lists other shard role) → ∃ client,
      update.table.getRouteByTarget peer.target = some client ∧
      update.table.getRoute shard role = some client
  unrouted : ∀ shard role, (∀ peer ∈ peers, ¬ Lists peer shard role) →
    update.table.getRoute shard role = none
  registered : ∀ target, (∃ client, update.table.getRouteByTarget target = some client) ↔
    ∃ peer ∈ peers, peer.target = target
  kept : ∀ target client, table.getRouteByTarget target = some client →
    (∃ peer ∈ peers, peer.target = target) →
    update.table.getRouteByTarget target = some client
  created : ∀ target, table.getRouteByTarget target = none →
    (∃ peer ∈ peers, peer.target = target) →
    update.table.getRouteByTarget target = some (table.createClient target) ∧
      update.table.created target = table.created target+1
  uncreated : ∀ target, (∃ client, table.getRouteByTarget target = some client) ∨
    (¬ ∃ peer ∈ peers, peer.target = target) →
    update.table.created target = table.created target
  removed : ∃ targets : List Text, targets.Nodup ∧
    (∀ target, target ∈ targets ↔ (∃ client, table.getRouteByTarget target = some client) ∧
      ¬ ∃ peer ∈ peers, peer.target = target) ∧
    update.removed_clients.map some = targets.map table.getRouteByTarget

structure Through (mid : RoutingTable) (update : Update) : Prop where
  grows : Grows table mid
  known : ∀ target ∈ newTargets peers, ∃ client, mid.getRouteByTarget target = some client
  unlisted : ∀ target, target ∉ newTargets peers →
    mid.getRouteByTarget target = table.getRouteByTarget target ∧
      mid.created target = table.created target
  lookup : ∀ target, update.table.getRouteByTarget target =
    if target ∈ newTargets peers then mid.getRouteByTarget target else none
  counts : update.table.created = mid.created
  removed : update.removed_clients =
    (mid.oldTargets (newTargets peers)).filterMap mid.getRouteByTarget

theorem update_through
    (h : (updateFromCoordinator createFails table max_shards peers).thrown = none) :
    Through table peers (afterCreation createFails table max_shards peers)
      (updateFromCoordinator createFails table max_shards peers) := by
  obtain ⟨hmissing,heq⟩ := update_returned createFails table max_shards peers h
  rw [heq]
  refine ⟨afterCreation_grows createFails table max_shards peers,
    createMissing_known createFails _ _ hmissing,
    afterCreation_unlisted createFails table max_shards peers,?_,
    (foldl_addRoutes_clients _ peers).2,rfl⟩
  intro target
  rw [← cleared_lookup, getRouteByTarget, (foldl_addRoutes_clients _ peers).1, getRouteByTarget]

section Clients

variable {table peers} {mid : RoutingTable} {update : Update}

theorem through_registered (hthrough : Through table peers mid update) (target : Text) :
    (∃ client, update.table.getRouteByTarget target = some client) ↔
      ∃ peer ∈ peers, peer.target = target := by
  rw [hthrough.lookup, ← mem_newTargets]
  constructor
  · rintro ⟨client,hc⟩
    by_contra hnot
    rw [if_neg hnot] at hc
    cases hc
  · intro hnew
    rw [if_pos hnew]
    exact hthrough.known target hnew

theorem through_kept (hthrough : Through table peers mid update) (target : Text)
    (client : Client) (hold : table.getRouteByTarget target = some client)
    (hlisted : ∃ peer ∈ peers, peer.target = target) :
    update.table.getRouteByTarget target = some client := by
  rw [hthrough.lookup, if_pos ((mem_newTargets peers target).mpr hlisted)]
  exact grows_known table mid hthrough.grows target client hold

theorem through_created (hthrough : Through table peers mid update) (target : Text)
    (hold : table.getRouteByTarget target = none)
    (hlisted : ∃ peer ∈ peers, peer.target = target) :
    update.table.getRouteByTarget target = some (table.createClient target) ∧
      update.table.created target = table.created target+1 := by
  have hnew := (mem_newTargets peers target).mpr hlisted
  obtain ⟨client,hc⟩ := hthrough.known target hnew
  rw [hthrough.lookup, if_pos hnew, hthrough.counts]
  rcases hthrough.grows.clients target with ⟨hsame,_⟩ | ⟨_,hmade⟩
  · rw [hsame, hold] at hc
    cases hc
  · exact hmade

theorem through_uncreated (hthrough : Through table peers mid update) (target : Text)
    (hcase : (∃ client, table.getRouteByTarget target = some client) ∨
      ¬ ∃ peer ∈ peers, peer.target = target) :
    update.table.created target = table.created target := by
  rw [hthrough.counts]
  rcases hcase with ⟨client,hc⟩ | hnot
  · rcases hthrough.grows.clients target with ⟨_,hsame⟩ | ⟨hnone,_⟩
    · exact hsame
    · rw [hc] at hnone
      cases hnone
  · exact (hthrough.unlisted target (mt (mem_newTargets peers target).mp hnot)).2

theorem filterMap_known (lookup : Text → Option Client) (targets : List Text)
    (h : ∀ target ∈ targets, ∃ client, lookup target = some client) :
    (targets.filterMap lookup).map some = targets.map lookup := by
  induction targets with
  | nil => rfl
  | cons target targets ih =>
    obtain ⟨client,hc⟩ := h target List.mem_cons_self
    rw [List.filterMap_cons_some hc, List.map_cons, List.map_cons, hc,
      ih (fun t ht => h t (List.mem_cons_of_mem _ ht))]

theorem through_removed (hthrough : Through table peers mid update) :
    ∃ targets : List Text, targets.Nodup ∧
      (∀ target, target ∈ targets ↔ (∃ client, table.getRouteByTarget target = some client) ∧
        ¬ ∃ peer ∈ peers, peer.target = target) ∧
      update.removed_clients.map some = targets.map table.getRouteByTarget := by
  refine ⟨mid.oldTargets (newTargets peers),oldTargets_nodup mid _,?_,?_⟩
  · intro target
    rw [mem_oldTargets, ← mem_newTargets]
    refine and_congr_left (fun hnot => ?_)
    rw [(hthrough.unlisted target hnot).1]
  · have hold : ∀ target ∈ mid.oldTargets (newTargets peers),
        mid.getRouteByTarget target = table.getRouteByTarget target :=
      fun target ht => (hthrough.unlisted target ((mem_oldTargets mid _ target).mp ht).2).1
    rw [hthrough.removed,
      filterMap_known _ _ (fun target ht => ((mem_oldTargets mid _ target).mp ht).1)]
    exact List.map_congr_left hold

end Clients

theorem update_routed
    (h : (updateFromCoordinator createFails table max_shards peers).thrown = none)
    (shard : Int32) (role : NodeRole) (front back : List PeerRouting) (peer : PeerRouting)
    (hsplit : peers = front++peer::back) (hpeer : Lists peer shard role)
    (hback : ∀ other ∈ back, ¬ Lists other shard role) : ∃ client,
    (updateFromCoordinator createFails table max_shards peers).table.getRouteByTarget
        peer.target = some client ∧
      (updateFromCoordinator createFails table max_shards peers).table.getRoute shard role =
        some client := by
  have hthrough := update_through createFails table max_shards peers h
  have hnew : peer.target ∈ newTargets peers :=
    (mem_newTargets peers _).mpr ⟨peer,by simp [hsplit],rfl⟩
  obtain ⟨client,hc⟩ := hthrough.known peer.target hnew
  refine ⟨client,by rw [hthrough.lookup, if_pos hnew, hc],?_⟩
  have hstart := cleared_lookup peers (afterCreation createFails table max_shards peers)
    peer.target
  rw [if_pos hnew, hc] at hstart
  obtain ⟨_,heq⟩ := update_returned createFails table max_shards peers h
  rw [heq]
  have hlast := foldl_addRoutes_last _ front back peer shard role client hstart hpeer hback
  rwa [← hsplit] at hlast

theorem update_unrouted
    (h : (updateFromCoordinator createFails table max_shards peers).thrown = none)
    (shard : Int32) (role : NodeRole) (hnone : ∀ peer ∈ peers, ¬ Lists peer shard role) :
    (updateFromCoordinator createFails table max_shards peers).table.getRoute shard role =
      none := by
  obtain ⟨_,heq⟩ := update_returned createFails table max_shards peers h
  rw [heq]
  exact foldl_addRoutes_unlisted _ peers shard role hnone

theorem update_replaced
    (h : (updateFromCoordinator createFails table max_shards peers).thrown = none) :
    Replaced table max_shards peers
      (updateFromCoordinator createFails table max_shards peers) where
  max_shards := updateFromCoordinator_max_shards createFails table max_shards peers
  routed := fun shard role front peer back =>
    update_routed createFails table max_shards peers h shard role front back peer
  unrouted := update_unrouted createFails table max_shards peers h
  registered := through_registered (update_through createFails table max_shards peers h)
  kept := through_kept (update_through createFails table max_shards peers h)
  created := through_created (update_through createFails table max_shards peers h)
  uncreated := through_uncreated (update_through createFails table max_shards peers h)
  removed := through_removed (update_through createFails table max_shards peers h)

end Returning

section Again

theorem createMissing_all_known (table : RoutingTable) (targets : List Text)
    (h : ∀ target ∈ targets, ∃ client, table.getRouteByTarget target = some client) :
    createMissing createFails table targets = (none,table) := by
  induction targets with
  | nil => rfl
  | cons target targets ih =>
    obtain ⟨client,hc⟩ := h target List.mem_cons_self
    rw [getRouteByTarget] at hc
    rw [createMissing, hc]
    exact ih (fun t ht => h t (List.mem_cons_of_mem _ ht))

theorem oldTargets_all_listed (table : RoutingTable) (new_targets : List Text)
    (h : ∀ target client, table.getRouteByTarget target = some client → target ∈ new_targets) :
    table.oldTargets new_targets = [] := by
  rw [List.eq_nil_iff_forall_not_mem]
  intro target ht
  obtain ⟨⟨client,hc⟩,hnot⟩ := (mem_oldTargets table new_targets target).mp ht
  exact hnot (h target client hc)

theorem update_settled (base : RoutingTable) (max_shards : Int32) (peers : List PeerRouting)
    (hroutes : base.routing_table = ∅) (hshards : base.max_shards = max_shards)
    (hlisted : ∀ target, (∃ client, base.getRouteByTarget target = some client) ↔
      ∃ peer ∈ peers, peer.target = target) :
    updateFromCoordinator createFails (peers.foldl addRoutes base) max_shards peers =
      ⟨peers.foldl addRoutes base,[],none⟩ := by
  have hlookup : ∀ target, (peers.foldl addRoutes base).getRouteByTarget target =
      base.getRouteByTarget target := by
    intro target
    rw [getRouteByTarget, (foldl_addRoutes_clients base peers).1, getRouteByTarget]
  have hsame : { peers.foldl addRoutes base with max_shards := max_shards } =
      peers.foldl addRoutes base := by
    rw [← hshards, ← addRoutes_max_shards base peers]
  have hcreate := createMissing_all_known createFails (peers.foldl addRoutes base)
    (newTargets peers) (fun target ht => by
      rw [hlookup]
      exact (hlisted target).mpr ((mem_newTargets peers target).mp ht))
  have hold := oldTargets_all_listed (peers.foldl addRoutes base) (newTargets peers)
    (fun target client hc => by
      rw [hlookup] at hc
      exact (mem_newTargets peers target).mpr ((hlisted target).mp ⟨client,hc⟩))
  have hbase : { peers.foldl addRoutes base with routing_table := ∅ } = base := by
    rw [← hroutes, foldl_addRoutes_base]
  simp only [updateFromCoordinator, hsame, hcreate, hold, removeOld, List.foldl_nil, hbase,
    List.filterMap_nil]

theorem update_again (again : Text → Option CallException) (table : RoutingTable)
    (max_shards : Int32) (peers : List PeerRouting)
    (h : (updateFromCoordinator createFails table max_shards peers).thrown = none) :
    updateFromCoordinator again
        (updateFromCoordinator createFails table max_shards peers).table max_shards peers =
      ⟨(updateFromCoordinator createFails table max_shards peers).table,[],none⟩ := by
  have hreplaced := update_replaced createFails table max_shards peers h
  obtain ⟨_,heq⟩ := update_returned createFails table max_shards peers h
  have hregistered := hreplaced.registered
  have hshards := hreplaced.max_shards
  rw [heq] at hregistered hshards ⊢
  refine update_settled again _ max_shards peers rfl ?_ (fun target => ?_)
  · exact (addRoutes_max_shards _ peers).symm.trans hshards
  · rw [← hregistered, getRouteByTarget, getRouteByTarget, (foldl_addRoutes_clients _ peers).1]

theorem replacement_exact (table : RoutingTable) (max_shards : Int32) (peers : List PeerRouting)
    (h : (updateFromCoordinator createFails table max_shards peers).thrown = none) :
    Replaced table max_shards peers (updateFromCoordinator createFails table max_shards peers) ∧
      ∀ again : Text → Option CallException,
        updateFromCoordinator again
            (updateFromCoordinator createFails table max_shards peers).table max_shards peers =
          ⟨(updateFromCoordinator createFails table max_shards peers).table,[],none⟩ :=
  ⟨update_replaced createFails table max_shards peers h,
    fun again => update_again createFails again table max_shards peers h⟩

def twoTargets : List PeerRouting :=
  [⟨['a'],.MASTER,[0,1]⟩,⟨['b'],.MASTER,[1]⟩,⟨['a'],.BACKUP,[1]⟩]

def earlierTable : RoutingTable :=
  (updateFromCoordinator (fun _ => none) {} 1
    [⟨['b'],.MASTER,[0]⟩,⟨['c'],.BACKUP,[0]⟩]).table

theorem replacement_exact_two :
    let update := updateFromCoordinator (fun _ => none) earlierTable 2 twoTargets
    update.removed_clients = [⟨['c'],0⟩] ∧ Replaced earlierTable 2 twoTargets update ∧
      ∀ again : Text → Option CallException,
        updateFromCoordinator again update.table 2 twoTargets = ⟨update.table,[],none⟩ :=
  ⟨by decide,replacement_exact (fun _ => none) earlierTable 2 twoTargets (by decide)⟩

end Again

section Failed

variable (table : RoutingTable) (max_shards : Int32) (peers : List PeerRouting)

structure Unchanged (before after : RoutingTable) : Prop where
  max_shards : after.max_shards = before.max_shards
  routes : ∀ shard role, after.getRoute shard role = before.getRoute shard role
  targets : ∀ target, after.getRouteByTarget target = before.getRouteByTarget target

theorem update_thrown :
    ((updateFromCoordinator createFails table max_shards peers).thrown = none ↔
      ∀ target ∈ missing table (newTargets peers), createFails target = none) ∧
    ((updateFromCoordinator createFails table max_shards peers).thrown ≠ none →
      (updateFromCoordinator createFails table max_shards peers).table =
        afterCreation createFails table max_shards peers) := by
  have hreturns := createMissing_returns_iff createFails { table with max_shards := max_shards }
    (newTargets peers)
  unfold updateFromCoordinator afterCreation
  rcases hm : createMissing createFails { table with max_shards := max_shards }
    (newTargets peers) with ⟨thrown,mid⟩
  rw [hm] at hreturns
  simp only [hm]
  cases thrown with
  | some e =>
    refine ⟨⟨fun h => ?_,fun h => ?_⟩,fun _ => rfl⟩
    · cases h
    · cases hreturns.mpr h
  | none => exact ⟨⟨fun _ => hreturns.mp rfl,fun _ => rfl⟩,fun h => absurd rfl h⟩

/-- A failed update is one that changes nothing only where the shard count
is the old one and it is the very first new client that cannot be created. -/
theorem failed_update_unchanged_iff :
    ((updateFromCoordinator createFails table max_shards peers).thrown ≠ none →
      Unchanged table (updateFromCoordinator createFails table max_shards peers).table) ↔
    (∀ target ∈ missing table (newTargets peers), createFails target = none) ∨
      (max_shards = table.max_shards ∧ ∃ target rest,
        missing table (newTargets peers) = target::rest ∧ createFails target ≠ none) := by
  obtain ⟨hreturns,hthrown⟩ := update_thrown createFails table max_shards peers
  have hshards := updateFromCoordinator_max_shards createFails table max_shards peers
  constructor
  · intro h
    by_cases hnone : (updateFromCoordinator createFails table max_shards peers).thrown = none
    · exact Or.inl (hreturns.mp hnone)
    right
    have hsame := h hnone
    refine ⟨hshards.symm.trans hsame.max_shards,?_⟩
    cases hmissing : missing table (newTargets peers) with
    | nil =>
      rw [hreturns, hmissing] at hnone
      exact absurd (fun target ht => by cases ht) hnone
    | cons target rest =>
      refine ⟨target,rest,rfl,fun hfine => ?_⟩
      obtain ⟨client,hc⟩ := (createMissing_first createFails
        { table with max_shards := max_shards } (newTargets peers) target rest hmissing).2 hfine
      have hold : table.getRouteByTarget target = none :=
        ((mem_missing table (newTargets peers) target).mp (by rw [hmissing]; simp)).2
      rw [← hsame.targets target, hthrown hnone, afterCreation, hc] at hold
      cases hold
  · rintro (hfine | ⟨hcount,target,rest,hmissing,hfails⟩) hsome
    · exact absurd (hreturns.mpr hfine) hsome
    · have hkept := (createMissing_first createFails { table with max_shards := max_shards }
        (newTargets peers) target rest hmissing).1 hfails
      rw [hthrown hsome, afterCreation, hkept]
      exact ⟨hcount,fun _ _ => rfl,fun _ => rfl⟩

/-- The second of two new clients cannot be created: the first stays behind,
and so does the new shard count. -/
theorem failed_update_half_applied :
    let failing : Text → Option CallException :=
      fun target => if target = ['b'] then some (.other ['t']) else none
    let update := updateFromCoordinator failing {} 2 twoTargets
    update.thrown = some (.other ['t']) ∧ update.table.max_shards = 2 ∧
      update.table.getRouteByTarget ['a'] = some ⟨['a'],0⟩ ∧
      update.table.getRoute 0 .MASTER = none ∧ ¬ Unchanged {} update.table := by
  refine ⟨by decide,by decide,by decide,by decide,fun h => ?_⟩
  exact absurd h.max_shards (by decide)

end Failed

end HurriCache.TopologyReplacement
