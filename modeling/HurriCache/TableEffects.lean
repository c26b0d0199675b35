import HurriCache.TopologyTable
import Mathlib.Data.List.Dedup

/-!
# What the table operations do

Each critical section is described by its effect on the lookups: which
clients it registers, which it takes out, and which routes it leaves. The
order of the targets and the loops inside do not show in these descriptions.
-/

set_option autoImplicit false

namespace HurriCache.TableEffects
open HurriCache.ClientTypes HurriCache.CallOutcomes HurriCache.TopologyTable
open HurriCache.TopologyTable.RoutingTable

/-- Every target keeps its client or, having had none, gets a new one. -/
structure Grows (before after : RoutingTable) : Prop where
  routes : after.routing_table = before.routing_table
  clients : ∀ target,
    (after.getRouteByTarget target = before.getRouteByTarget target ∧
      after.created target = before.created target) ∨
    (before.getRouteByTarget target = none ∧
      after.getRouteByTarget target = some (before.createClient target) ∧
      after.created target = before.created target+1)

theorem grows_refl (table : RoutingTable) : Grows table table :=
  ⟨rfl,fun _ => Or.inl ⟨rfl,rfl⟩⟩

theorem grows_trans (a b c : RoutingTable) (hab : Grows a b) (hbc : Grows b c) : Grows a c := by
  refine ⟨hbc.routes.trans hab.routes,fun target => ?_⟩
  rcases hab.clients target with ⟨hl,hc⟩ | ⟨hn,hl,hc⟩
  · rcases hbc.clients target with ⟨hl',hc'⟩ | ⟨hn',hl',hc'⟩
    · exact Or.inl ⟨hl'.trans hl,hc'.trans hc⟩
    · refine Or.inr ⟨hl ▸ hn',?_,by rw [hc', hc]⟩
      rw [hl', createClient, createClient, hc]
  · rcases hbc.clients target with ⟨hl',hc'⟩ | ⟨hn',_,_⟩
    · exact Or.inr ⟨hn,hl'.trans hl,hc'.trans hc⟩
    · rw [hl] at hn'
      cases hn'

theorem grows_known (before after : RoutingTable) (h : Grows before after) (target : Text)
    (client : Client) (hl : before.getRouteByTarget target = some client) :
    after.getRouteByTarget target = some client := by
  rcases h.clients target with ⟨hs,_⟩ | ⟨hn,_,_⟩
  · rw [hs, hl]
  · rw [hl] at hn
    cases hn

def OwnTargets (table : RoutingTable) : Prop :=
  ∀ target client, table.getRouteByTarget target = some client → client.target = target

theorem grows_own (before after : RoutingTable) (h : Grows before after)
    (hown : OwnTargets before) : OwnTargets after := by
  intro target client hl
  rcases h.clients target with ⟨hs,_⟩ | ⟨_,hs,_⟩
  · exact hown target client (hs ▸ hl)
  · rw [hs] at hl
    cases hl
    rfl

theorem register_grows (table : RoutingTable) (target : Text)
    (h : table.getRouteByTarget target = none) : Grows table (table.register target) := by
  refine ⟨rfl,fun other => ?_⟩
  by_cases ho : other = target
  · subst ho
    exact Or.inr ⟨h,AList.lookup_insert _,Function.update_self _ _ _⟩
  · exact Or.inl ⟨AList.lookup_insert_ne ho,Function.update_of_ne ho _ _⟩

theorem register_known (table : RoutingTable) (target : Text) :
    (table.register target).getRouteByTarget target = some (table.createClient target) :=
  AList.lookup_insert _

section Creating

variable (createFails : Text → Option CallException)

theorem createMissing_grows (table : RoutingTable) (targets : List Text) :
    Grows table (createMissing createFails table targets).2 := by
  induction targets generalizing table with
  | nil => exact grows_refl table
  | cons target targets ih =>
    unfold createMissing
    split
    · exact ih table
    next hn =>
      split
      · exact grows_refl table
      · exact grows_trans table _ _ (register_grows table target hn) (ih (table.register target))

theorem createMissing_known (table : RoutingTable) (targets : List Text)
    (h : (createMissing createFails table targets).1 = none) :
    ∀ target ∈ targets, ∃ client,
      (createMissing createFails table targets).2.getRouteByTarget target = some client := by
  induction targets generalizing table with
  | nil =>
    intro target ht
    cases ht
  | cons first targets ih =>
    intro target ht
    unfold createMissing at h ⊢
    split at h
    next client hl =>
      cases List.mem_cons.mp ht with
      | inl he =>
        subst he
        exact ⟨client,grows_known _ _ (createMissing_grows createFails table targets) target client
          hl⟩
      | inr hrest => exact ih table h target hrest
    next hn =>
      split at h
      · cases h
      next hf =>
        cases List.mem_cons.mp ht with
        | inl he =>
          subst he
          exact ⟨_,grows_known _ _ (createMissing_grows createFails (table.register target) targets)
            target _ (register_known table target)⟩
        | inr hrest => exact ih (table.register first) h target hrest

theorem getOrCreateByTarget_grows (table : RoutingTable) (target : Text) :
    Grows table (getOrCreateByTarget createFails table target).2 := by
  unfold getOrCreateByTarget
  split
  · exact grows_refl table
  next hn =>
    split
    · exact grows_refl table
    · exact register_grows table target hn

theorem getOrCreateByTarget_known (table : RoutingTable) (target : Text) (client : Client)
    (h : (getOrCreateByTarget createFails table target).1 = .ok client) :
    (getOrCreateByTarget createFails table target).2.getRouteByTarget target = some client := by
  unfold getOrCreateByTarget at h ⊢
  split at h
  next found hl =>
    cases h
    exact hl
  next hn =>
    split at h
    · cases h
    · cases h
      exact register_known table target

end Creating

section Removing

theorem lookup_foldl_erase (clients : AList (fun _ : Text => Client)) (targets : List Text)
    (target : Text) :
    (targets.foldl (fun m t => m.erase t) clients).lookup target =
      if target ∈ targets then none else clients.lookup target := by
  induction targets generalizing clients with
  | nil => simp
  | cons t ts ih =>
    rw [List.foldl_cons, ih]
    by_cases hmem : target ∈ ts
    · simp [hmem]
    · by_cases he : target = t
      · subst he
        simp [hmem]
      · simp [hmem, he, AList.lookup_erase_ne he]

theorem removeOld_lookup (table : RoutingTable) (targets : List Text) (target : Text) :
    (table.removeOld targets).getRouteByTarget target =
      if target ∈ targets then none else table.getRouteByTarget target :=
  lookup_foldl_erase table.routing_table_target targets target

theorem mem_newTargets (peers : List PeerRouting) (target : Text) :
    target ∈ newTargets peers ↔ ∃ peer ∈ peers, peer.target = target := by
  simp [newTargets]

theorem mem_oldTargets (table : RoutingTable) (new_targets : List Text) (target : Text) :
    target ∈ table.oldTargets new_targets ↔
      (∃ client, table.getRouteByTarget target = some client) ∧ target ∉ new_targets := by
  rw [oldTargets, List.mem_filter, List.mem_insertionSort, ← AList.mem_keys,
    ← AList.lookup_isSome, Option.isSome_iff_exists]
  simp [getRouteByTarget]

theorem oldTargets_nodup (table : RoutingTable) (new_targets : List Text) :
    (table.oldTargets new_targets).Nodup :=
  List.Nodup.filter _ ((List.perm_insertionSort _ _).nodup_iff.mpr
    (AList.keys_nodup table.routing_table_target))

theorem removed_lookup (table : RoutingTable) (new_targets : List Text) (target : Text) :
    (table.removeOld (table.oldTargets new_targets)).getRouteByTarget target =
      if target ∈ new_targets then table.getRouteByTarget target else none := by
  rw [removeOld_lookup]
  by_cases hn : target ∈ new_targets
  · simp [mem_oldTargets, hn]
  · cases hl : table.getRouteByTarget target with
    | none => simp [mem_oldTargets, hl]
    | some client => simp [mem_oldTargets, hn, hl]

theorem count_filterMap_lookup (lookup : Text → Option Client)
    (hown : ∀ t c, lookup t = some c → c.target = t) (targets : List Text)
    (hnodup : targets.Nodup) (client : Client) :
    (targets.filterMap lookup).count client =
      if client.target ∈ targets ∧ lookup client.target = some client then 1 else 0 := by
  induction targets with
  | nil => simp
  | cons t ts ih =>
    obtain ⟨hnot,hrest⟩ := List.nodup_cons.mp hnodup
    have hcount := ih hrest
    by_cases he : client.target = t
    · subst he
      cases hl : lookup client.target with
      | none => simp [hl, hcount]
      | some c =>
        by_cases hc : c = client
        · subst hc
          simp [hl, hcount, hnot]
        · simp [hl, hcount, hc, hnot]
    · have hne : lookup t ≠ some client := fun hl => he (hown t client hl)
      cases hl : lookup t with
      | none => simp [hl, hcount, he]
      | some c =>
        have hc : c ≠ client := fun h => hne (h ▸ hl)
        simp [hl, hcount, he, hc]

end Removing

section Routes

theorem addRoutes_clients (table : RoutingTable) (peer : PeerRouting) :
    (addRoutes table peer).routing_table_target = table.routing_table_target ∧
      (addRoutes table peer).created = table.created := by
  unfold addRoutes
  split <;> exact ⟨rfl,rfl⟩

theorem foldl_addRoutes_clients (table : RoutingTable) (peers : List PeerRouting) :
    (peers.foldl addRoutes table).routing_table_target = table.routing_table_target ∧
      (peers.foldl addRoutes table).created = table.created := by
  induction peers generalizing table with
  | nil => exact ⟨rfl,rfl⟩
  | cons peer peers ih =>
    have h := ih (addRoutes table peer)
    have ha := addRoutes_clients table peer
    exact ⟨h.1.trans ha.1,h.2.trans ha.2⟩

def Routed (table : RoutingTable) : Prop :=
  ∀ shard role client, table.getRoute shard role = some client →
    ∃ target, table.getRouteByTarget target = some client

theorem lookup_insertRoutes (routes : AList (fun _ : NodeRole × Int32 => Client))
    (role : NodeRole) (partitions : List UInt32) (client : Client) (key : NodeRole × Int32) :
    (partitions.foldl (fun routes p => routes.insert (role,p.toInt32) client) routes).lookup key =
      if key.1 = role ∧ key.2 ∈ partitions.map UInt32.toInt32 then some client
      else routes.lookup key := by
  induction partitions generalizing routes with
  | nil => simp
  | cons p ps ih =>
    rw [List.foldl_cons, ih]
    by_cases hmem : key.1 = role ∧ key.2 ∈ ps.map UInt32.toInt32
    · rw [if_pos hmem, if_pos ⟨hmem.1,List.mem_cons_of_mem _ hmem.2⟩]
    · rw [if_neg hmem]
      by_cases hk : key = (role,p.toInt32)
      · subst hk
        simp
      · rw [AList.lookup_insert_ne hk, if_neg]
        rintro ⟨hr,hp⟩
        cases List.mem_cons.mp hp with
        | inl he => exact hk (Prod.ext hr he)
        | inr hrest => exact hmem ⟨hr,hrest⟩

theorem addRoutes_getRoute (table : RoutingTable) (peer : PeerRouting) (shard : Int32)
    (role : NodeRole) :
    (addRoutes table peer).getRoute shard role =
      match table.getRouteByTarget peer.target with
      | none => table.getRoute shard role
      | some client =>
        if role = peer.role ∧ shard ∈ peer.partitionIds.map UInt32.toInt32 then some client
        else table.getRoute shard role := by
  cases hl : table.routing_table_target.lookup peer.target with
  | none => simp only [addRoutes, getRouteByTarget, hl]
  | some client =>
    simp only [addRoutes, getRouteByTarget, hl]
    exact lookup_insertRoutes table.routing_table peer.role peer.partitionIds client (role,shard)

theorem addRoutes_routed (table : RoutingTable) (peer : PeerRouting) (h : Routed table) :
    Routed (addRoutes table peer) := by
  intro shard role client hr
  have hsame : ∀ target, (addRoutes table peer).getRouteByTarget target =
      table.getRouteByTarget target := by
    intro target
    rw [getRouteByTarget, (addRoutes_clients table peer).1, getRouteByTarget]
  rw [addRoutes_getRoute] at hr
  split at hr
  next hn =>
    obtain ⟨target,ht⟩ := h shard role client hr
    exact ⟨target,(hsame target).trans ht⟩
  next found hl =>
    split at hr
    · cases hr
      exact ⟨peer.target,(hsame _).trans hl⟩
    · obtain ⟨target,ht⟩ := h shard role client hr
      exact ⟨target,(hsame target).trans ht⟩

theorem foldl_addRoutes_routed (table : RoutingTable) (peers : List PeerRouting)
    (h : Routed table) : Routed (peers.foldl addRoutes table) := by
  induction peers generalizing table with
  | nil => exact h
  | cons peer peers ih => exact ih (addRoutes table peer) (addRoutes_routed table peer h)

theorem foldl_addRoutes_keeps (table : RoutingTable) (peers : List PeerRouting) (shard : Int32)
    (role : NodeRole) (h : ∃ client, table.getRoute shard role = some client) :
    ∃ client, (peers.foldl addRoutes table).getRoute shard role = some client := by
  induction peers generalizing table with
  | nil => exact h
  | cons peer peers ih =>
    refine ih (addRoutes table peer) ?_
    rw [addRoutes_getRoute]
    split
    · exact h
    · split
      · exact ⟨_,rfl⟩
      · exact h

/-- A peer with a client gives all its partitions a route. -/
theorem foldl_addRoutes_live (table : RoutingTable) (peers : List PeerRouting)
    (peer : PeerRouting) (hpeer : peer ∈ peers)
    (hclient : ∃ client, table.getRouteByTarget peer.target = some client) (shard : Int32)
    (hshard : shard ∈ peer.partitionIds.map UInt32.toInt32) :
    ∃ client, (peers.foldl addRoutes table).getRoute shard peer.role = some client := by
  induction peers generalizing table with
  | nil => cases hpeer
  | cons first peers ih =>
    rw [List.foldl_cons]
    cases List.mem_cons.mp hpeer with
    | inl he =>
      subst he
      obtain ⟨client,hc⟩ := hclient
      refine foldl_addRoutes_keeps (addRoutes table peer) peers shard peer.role ⟨client,?_⟩
      rw [addRoutes_getRoute, hc]
      exact if_pos ⟨rfl,hshard⟩
    | inr hrest =>
      refine ih (addRoutes table first) hrest ?_
      rw [getRouteByTarget, (addRoutes_clients table first).1]
      exact hclient

end Routes

section Updates

variable (createFails : Text → Option CallException) (table : RoutingTable)
  (max_shards : Int32) (peers : List PeerRouting)

def afterCreation : RoutingTable :=
  (createMissing createFails { table with max_shards := max_shards } (newTargets peers)).2

theorem afterCreation_grows : Grows table (afterCreation createFails table max_shards peers) := by
  have h := createMissing_grows createFails { table with max_shards := max_shards }
    (newTargets peers)
  exact ⟨h.routes,h.clients⟩

theorem update_cases :
    (∃ e, updateFromCoordinator createFails table max_shards peers =
      ⟨afterCreation createFails table max_shards peers,[],some e⟩) ∨
    ((updateFromCoordinator createFails table max_shards peers).thrown = none ∧
      (∀ target, (updateFromCoordinator createFails table max_shards peers).table.getRouteByTarget
          target = if target ∈ newTargets peers then
            (afterCreation createFails table max_shards peers).getRouteByTarget target else none) ∧
      (updateFromCoordinator createFails table max_shards peers).table.created =
        (afterCreation createFails table max_shards peers).created ∧
      (updateFromCoordinator createFails table max_shards peers).removed_clients =
        ((afterCreation createFails table max_shards peers).oldTargets (newTargets peers)).filterMap
          (afterCreation createFails table max_shards peers).getRouteByTarget ∧
      Routed (updateFromCoordinator createFails table max_shards peers).table ∧
      ∀ peer ∈ peers, ∀ shard ∈ peer.partitionIds.map UInt32.toInt32, ∃ client,
        (updateFromCoordinator createFails table max_shards peers).table.getRoute shard peer.role =
          some client) := by
  have hknown := createMissing_known createFails { table with max_shards := max_shards }
    (newTargets peers)
  unfold updateFromCoordinator afterCreation
  rcases hm : createMissing createFails { table with max_shards := max_shards }
    (newTargets peers) with ⟨thrown,mid⟩
  rw [hm] at hknown
  simp only [hm]
  cases thrown with
  | some e => exact Or.inl ⟨e,rfl⟩
  | none =>
    right
    have hclients := foldl_addRoutes_clients
      { mid.removeOld (mid.oldTargets (newTargets peers)) with routing_table := ∅ } peers
    have hlookup : ∀ target, (peers.foldl addRoutes
        { mid.removeOld (mid.oldTargets (newTargets peers)) with
          routing_table := ∅ }).getRouteByTarget target =
        if target ∈ newTargets peers then mid.getRouteByTarget target else none := by
      intro target
      rw [← removed_lookup, getRouteByTarget, hclients.1, getRouteByTarget]
    refine ⟨rfl,hlookup,hclients.2,rfl,?_,?_⟩
    · apply foldl_addRoutes_routed
      intro shard role client hr
      cases hr
    · intro peer hpeer shard hshard
      refine foldl_addRoutes_live _ peers peer hpeer ?_ shard hshard
      have hnew : peer.target ∈ newTargets peers := (mem_newTargets peers _).mpr ⟨peer,hpeer,rfl⟩
      obtain ⟨client,hc⟩ := hknown rfl peer.target hnew
      refine ⟨client,?_⟩
      show (mid.removeOld _).getRouteByTarget peer.target = some client
      rw [removed_lookup, if_pos hnew]
      exact hc

theorem update_own (h : OwnTargets table) :
    OwnTargets (updateFromCoordinator createFails table max_shards peers).table := by
  have hcreated := grows_own _ _ (afterCreation_grows createFails table max_shards peers) h
  rcases update_cases createFails table max_shards peers with ⟨e,he⟩ | ⟨_,hlookup,_⟩
  · rw [he]
    exact hcreated
  · intro target client hl
    rw [hlookup] at hl
    split at hl
    · exact hcreated target client hl
    · cases hl

end Updates

end HurriCache.TableEffects
