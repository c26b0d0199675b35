import HurriCache.TableEffects
import HurriCache.PartialRun

/-!
# Where the clients of the table are

Callers of the table step through critical sections in any order. What an
update or a shutdown takes out of the table waits in its caller until it is
shut down, one client at a time. A client that was ever created is in the
table, in one such queue or shut down, and a lookup finds only the first kind.
-/

set_option autoImplicit false

namespace HurriCache.ClientAccounting
open HurriCache.ClientTypes HurriCache.CallOutcomes HurriCache.TopologyTable
open HurriCache.TableEffects HurriCache.PartialRun

inductive CallerPc where
  | idle
  | creating (target : Text)
  | retiring (clients : List Client)

def CallerPc.queue : CallerPc → List Client
  | .retiring clients => clients
  | _ => []

/-- The critical sections, and the shutdown of one queued client.
`getOrCreateByTarget` is two sections when its first lookup finds nothing. -/
inductive Section where
  | updateFromCoordinator (max_shards : Int32) (peer_routings : List PeerRouting)
      (createFails : Text → Option CallException)
  | getRoute (shard : Int32) (role : NodeRole)
  | getRouteByTarget (target : Text)
  | getOrCreateByTarget (target : Text)
  | createClient (createFails : Text → Option CallException)
  | shutdown
  | retire

structure Entered where
  table : RoutingTable
  pc : CallerPc
  shut : List Client := []
  result : SharedClient := none

def enter (table : RoutingTable) : CallerPc → Section → Option Entered
  | .idle, .updateFromCoordinator max_shards peer_routings createFails =>
    let update := table.updateFromCoordinator createFails max_shards peer_routings
    some { table := update.table, pc := .retiring update.removed_clients }
  | .idle, .getRoute shard role =>
    some { table := table, pc := .idle, result := table.getRoute shard role }
  | .idle, .getRouteByTarget target =>
    some { table := table, pc := .idle, result := table.getRouteByTarget target }
  | .idle, .getOrCreateByTarget target =>
    match table.getRouteByTarget target with
    | some client => some { table := table, pc := .idle, result := some client }
    | none => some { table := table, pc := .creating target }
  | .creating target, .createClient createFails =>
    let made := table.getOrCreateByTarget createFails target
    some { table := made.2, pc := .idle, result := made.1.toOption }
  | .idle, .shutdown =>
    let cleared := table.shutdown
    some { table := cleared.2, pc := .retiring cleared.1 }
  | .retiring (client::clients), .retire =>
    some { table := table, pc := .retiring clients, shut := [client] }
  | .retiring [], .retire => some { table := table, pc := .idle }
  | _, _ => none

structure State where
  table : RoutingTable := {}
  callers : List CallerPc := []
  shut_down : List Client := []

inductive Action where
  | arrive
  | caller (w : ℕ) (entry : Section)

def step (s : State) : Action → Option State
  | .arrive => some { s with callers := s.callers++[.idle] }
  | .caller w entry => do
    let pc ← s.callers[w]?
    let entered ← enter s.table pc entry
    some {
      table := entered.table
      callers := s.callers.set w entered.pc
      shut_down := s.shut_down++entered.shut }

def returned (s : State) (w : ℕ) (entry : Section) : SharedClient :=
  (s.callers[w]?.bind (fun pc => enter s.table pc entry)).bind (·.result)

section Balance

def inTable (table : RoutingTable) (client : Client) : ℕ :=
  if table.getRouteByTarget client.target = some client then 1 else 0

def wasCreated (table : RoutingTable) (client : Client) : ℕ :=
  if client.generation < table.created client.target then 1 else 0

/-- A client that was created is in the table or counted as gone, once. -/
structure Balanced (table : RoutingTable) (gone : Client → ℕ) : Prop where
  own : OwnTargets table
  once : ∀ client, inTable table client+gone client = wasCreated table client
  routed : Routed table

theorem balanced_congr (table : RoutingTable) (gone gone' : Client → ℕ)
    (h : ∀ client, gone' client = gone client) (hb : Balanced table gone) :
    Balanced table gone' :=
  ⟨hb.own,fun client => by rw [h client]; exact hb.once client,hb.routed⟩

theorem grows_balanced (before after : RoutingTable) (gone : Client → ℕ)
    (h : Grows before after) (hb : Balanced before gone) : Balanced after gone := by
  refine ⟨grows_own before after h hb.own,?_,?_⟩
  · intro client
    have honce := hb.once client
    rcases h.clients client.target with ⟨hs,hc⟩ | ⟨hn,hs,hc⟩
    · rw [inTable, wasCreated, hs, hc]
      exact honce
    · have hsame : some (before.createClient client.target) = some client ↔
          client.generation = before.created client.target := by
        obtain ⟨target,generation⟩ := client
        simp [RoutingTable.createClient, eq_comm]
      simp only [inTable, wasCreated, hn, hs, hc, hsame, reduceCtorEq, if_false] at honce ⊢
      split at honce
      · rw [if_neg (by omega), if_pos (by omega)]
        exact honce
      · by_cases he : client.generation = before.created client.target
        · rw [if_pos he, if_pos (by omega)]
          omega
        · rw [if_neg he, if_neg (by omega)]
          exact honce
  · intro shard role client hr
    rw [RoutingTable.getRoute, h.routes] at hr
    obtain ⟨target,ht⟩ := hb.routed shard role client hr
    exact ⟨target,grows_known before after h target client ht⟩

theorem removed_balanced (before after : RoutingTable) (gone : Client → ℕ)
    (targets : List Text) (hnodup : targets.Nodup)
    (hlookup : ∀ target, after.getRouteByTarget target =
      if target ∈ targets then none else before.getRouteByTarget target)
    (hcreated : after.created = before.created) (hrouted : Routed after)
    (hb : Balanced before gone) :
    Balanced after (fun client =>
      gone client+(targets.filterMap before.getRouteByTarget).count client) := by
  refine ⟨?_,?_,hrouted⟩
  · intro target client hl
    rw [hlookup] at hl
    split at hl
    · cases hl
    · exact hb.own target client hl
  · intro client
    have honce := hb.once client
    have hcount := count_filterMap_lookup before.getRouteByTarget hb.own targets hnodup client
    simp only [inTable, wasCreated, hlookup, hcreated] at honce ⊢
    rw [hcount]
    by_cases hmem : client.target ∈ targets
    · simp only [hmem, if_true, true_and, reduceCtorEq, if_false]
      omega
    · simp only [hmem, if_false, false_and]
      exact honce

variable (createFails : Text → Option CallException)

theorem update_balanced (table : RoutingTable) (gone : Client → ℕ) (max_shards : Int32)
    (peers : List PeerRouting) (hb : Balanced table gone) :
    Balanced (table.updateFromCoordinator createFails max_shards peers).table (fun client =>
      gone client+((table.updateFromCoordinator createFails max_shards
        peers).removed_clients).count client) := by
  have hcreated := grows_balanced table _ gone
    (afterCreation_grows createFails table max_shards peers) hb
  rcases update_cases createFails table max_shards peers with
    ⟨e,he⟩ | ⟨_,hlookup,hsame,hremoved,hrouted,_⟩
  · rw [he]
    exact balanced_congr _ gone _ (fun _ => rfl) hcreated
  · rw [hremoved]
    refine removed_balanced _ _ gone _ (oldTargets_nodup _ _) ?_ hsame hrouted hcreated
    intro target
    rw [hlookup]
    by_cases hn : target ∈ RoutingTable.newTargets peers
    · simp [mem_oldTargets, hn]
    · cases hl : (afterCreation createFails table max_shards peers).getRouteByTarget target with
      | none => simp [hn]
      | some client => simp [mem_oldTargets, hn, hl]

theorem shutdown_balanced (table : RoutingTable) (gone : Client → ℕ)
    (hb : Balanced table gone) :
    Balanced table.shutdown.2 (fun client => gone client+table.shutdown.1.count client) := by
  refine removed_balanced table table.shutdown.2 gone
    (table.routing_table_target.keys.insertionSort (· ≤ ·))
    ((List.perm_insertionSort _ _).nodup_iff.mpr (AList.keys_nodup _)) ?_ rfl ?_ hb
  · intro target
    have hmem : target ∈ table.routing_table_target.keys.insertionSort (· ≤ ·) ↔
        target ∈ table.routing_table_target := by
      rw [List.mem_insertionSort, ← AList.mem_keys]
    by_cases hin : target ∈ table.routing_table_target
    · rw [if_pos (hmem.mpr hin)]
      rfl
    · rw [if_neg (fun h => hin (hmem.mp h))]
      exact (AList.lookup_eq_none.mpr hin).symm
  · intro shard role client hr
    cases hr

theorem enter_balanced (table : RoutingTable) (pc : CallerPc) (entry : Section)
    (entered : Entered) (gone gone' : Client → ℕ) (hb : Balanced table gone)
    (h : enter table pc entry = some entered)
    (hgone : ∀ client, gone' client+pc.queue.count client =
      gone client+entered.pc.queue.count client+entered.shut.count client) :
    Balanced entered.table gone' ∧
      ∀ client, entered.result = some client →
        entered.table.getRouteByTarget client.target = some client := by
  have hfound : ∀ target client, table.getRouteByTarget target = some client →
      table.getRouteByTarget client.target = some client := by
    intro target client hl
    rw [hb.own target client hl]
    exact hl
  unfold enter at h
  split at h
  next max_shards peers createFails =>
    cases h
    exact ⟨balanced_congr _ _ _ (by simpa [CallerPc.queue] using hgone)
      (update_balanced createFails table gone max_shards peers hb),fun client hr => nomatch hr⟩
  next shard role =>
    cases h
    refine ⟨balanced_congr _ gone _ (by simpa [CallerPc.queue] using hgone) hb,fun client hr => ?_⟩
    obtain ⟨target,ht⟩ := hb.routed shard role client hr
    exact hfound target client ht
  next target =>
    cases h
    exact ⟨balanced_congr _ gone _ (by simpa [CallerPc.queue] using hgone) hb,
      fun client hr => hfound target client hr⟩
  next target =>
    split at h
    next client hl =>
      cases h
      refine ⟨balanced_congr _ gone _ (by simpa [CallerPc.queue] using hgone) hb,fun c hr => ?_⟩
      cases hr
      exact hfound target client hl
    next hn =>
      cases h
      exact ⟨balanced_congr _ gone _ (by simpa [CallerPc.queue] using hgone) hb,
        fun client hr => nomatch hr⟩
  next target createFails =>
    cases h
    have hmade := grows_balanced _ _ gone
      (getOrCreateByTarget_grows createFails table target) hb
    refine ⟨balanced_congr _ gone _ (by simpa [CallerPc.queue] using hgone) hmade,
      fun client hr => ?_⟩
    have hok : (table.getOrCreateByTarget createFails target).1 = .ok client := by
      revert hr
      cases (table.getOrCreateByTarget createFails target).1 with
      | error e => exact fun hr => nomatch hr
      | ok c => exact fun hr => congrArg Except.ok (Option.some.inj hr)
    have hknown := getOrCreateByTarget_known createFails table target client hok
    rw [hmade.own target client hknown]
    exact hknown
  next =>
    cases h
    exact ⟨balanced_congr _ _ _ (by simpa [CallerPc.queue] using hgone)
      (shutdown_balanced table gone hb),fun client hr => nomatch hr⟩
  next client clients =>
    cases h
    refine ⟨balanced_congr _ gone _ (fun c => ?_) hb,fun c hr => nomatch hr⟩
    have hc := hgone c
    simp only [CallerPc.queue, List.count_cons, List.count_nil] at hc
    omega
  next =>
    cases h
    exact ⟨balanced_congr _ gone _ (by simpa [CallerPc.queue] using hgone) hb,
      fun client hr => nomatch hr⟩
  next => cases h

end Balance

section Runs

def queued (s : State) : List Client := s.callers.flatMap CallerPc.queue

def gone (s : State) (client : Client) : ℕ :=
  (queued s).count client+s.shut_down.count client

theorem count_flatMap_set {A B : Type} [DecidableEq B] (f : A → List B) (l : List A) (w : ℕ)
    (old new : A) (b : B) (h : l[w]? = some old) :
    ((l.set w new).flatMap f).count b+(f old).count b =
      (l.flatMap f).count b+(f new).count b := by
  induction l generalizing w with
  | nil => cases h
  | cons a as ih =>
    cases w with
    | zero =>
      cases h
      simp only [List.set_cons_zero, List.flatMap_cons, List.count_append]
      omega
    | succ w =>
      have hrest := ih w h
      simp only [List.set_cons_succ, List.flatMap_cons, List.count_append]
      omega

theorem initial_balanced : Balanced ({} : State).table (gone {}) where
  own := by
    intro target client hl
    cases hl
  once := fun client => rfl
  routed := by
    intro shard role client hr
    cases hr

theorem step_balanced (s t : State) (a : Action) (hs : Balanced s.table (gone s))
    (h : step s a = some t) :
    Balanced t.table (gone t) ∧
      ∀ w entry client, a = .caller w entry → returned s w entry = some client →
        t.table.getRouteByTarget client.target = some client := by
  cases a with
  | arrive =>
    cases h
    refine ⟨balanced_congr _ (gone s) _ (fun client => ?_) hs,fun w entry client ha => nomatch ha⟩
    simp [gone, queued, CallerPc.queue]
  | caller w entry =>
    simp only [step, bind, Option.bind_eq_some_iff] at h
    obtain ⟨pc,hw,entered,he,ht⟩ := h
    cases ht
    have hentered := enter_balanced s.table pc entry entered (gone s)
      (gone ⟨entered.table,s.callers.set w entered.pc,s.shut_down++entered.shut⟩) hs he (by
        intro client
        have hcount := count_flatMap_set CallerPc.queue s.callers w pc entered.pc client hw
        simp only [gone, queued, List.count_append]
        omega)
    refine ⟨hentered.1,fun w' entry' client ha hr => ?_⟩
    cases ha
    simp only [returned, hw, he, Option.bind_some] at hr
    exact hentered.2 client hr

theorem reachable_balanced (actions : List Action) (s : State)
    (hrun : run step {} actions = some s) : Balanced s.table (gone s) :=
  history_invariant step (fun _ => True) (fun _ s => Balanced s.table (gone s))
    (fun _ u a t _ hu h => (step_balanced u t a hu h).1) {} s actions (fun _ _ => trivial)
    initial_balanced hrun

theorem gone_of_registered (s : State) (hs : Balanced s.table (gone s)) (client : Client)
    (hl : s.table.getRouteByTarget client.target = some client) : gone s client = 0 := by
  have honce := hs.once client
  have hle : wasCreated s.table client ≤ 1 := by
    rw [wasCreated]
    split <;> omega
  rw [inTable, if_pos hl] at honce
  omega

end Runs

inductive Place where
  | registered | queued | shutDown
  deriving DecidableEq

def InPlace (s : State) (client : Client) : Place → Prop
  | .registered => ∃ target, s.table.getRouteByTarget target = some client
  | .queued => client ∈ queued s
  | .shutDown => client ∈ s.shut_down

theorem place_unique (s : State) (hs : Balanced s.table (gone s)) (client : Client)
    (hc : client.generation < s.table.created client.target) :
    ∃! place, InPlace s client place := by
  have honce := hs.once client
  rw [wasCreated, if_pos hc, inTable, gone] at honce
  have hreg : (∃ target, s.table.getRouteByTarget target = some client) ↔
      s.table.getRouteByTarget client.target = some client :=
    ⟨fun ⟨target,ht⟩ => hs.own target client ht ▸ ht,fun h => ⟨_,h⟩⟩
  by_cases hin : s.table.getRouteByTarget client.target = some client
  · rw [if_pos hin] at honce
    refine ⟨.registered,hreg.mpr hin,?_⟩
    intro place hp
    cases place with
    | registered => rfl
    | queued => exact absurd (List.count_pos_iff.mpr hp) (by omega)
    | shutDown => exact absurd (List.count_pos_iff.mpr hp) (by omega)
  · rw [if_neg hin] at honce
    by_cases hq : client ∈ queued s
    · have hqueue := List.count_pos_iff.mpr hq
      refine ⟨.queued,hq,?_⟩
      intro place hp
      cases place with
      | registered => exact absurd (hreg.mp hp) hin
      | queued => rfl
      | shutDown => exact absurd (List.count_pos_iff.mpr hp) (by omega)
    · have hzero := List.count_eq_zero.mpr hq
      refine ⟨.shutDown,List.count_pos_iff.mp (by omega),?_⟩
      intro place hp
      cases place with
      | registered => exact absurd (hreg.mp hp) hin
      | queued => exact absurd hp hq
      | shutDown => rfl

/-- Over every interleaving each client is in one place and there once, the
routes lead to registered clients, and a lookup returns neither a queued
client nor one that is shut down. -/
theorem clients_accounted (actions : List Action) (s : State)
    (hrun : run step {} actions = some s) :
    (∀ client, client.generation < s.table.created client.target →
      ∃! place, InPlace s client place) ∧
    (∀ target client, s.table.getRouteByTarget target = some client →
      target = client.target) ∧
    (∀ client, (queued s).count client ≤ 1 ∧ s.shut_down.count client ≤ 1) ∧
    (∀ shard role client, s.table.getRoute shard role = some client →
      s.table.getRouteByTarget client.target = some client) ∧
    ∀ w entry client t, returned s w entry = some client →
      step s (.caller w entry) = some t → client ∉ queued t ∧ client ∉ t.shut_down := by
  have hs := reachable_balanced actions s hrun
  refine ⟨place_unique s hs,fun target client hl => (hs.own target client hl).symm,?_,?_,?_⟩
  · intro client
    have honce := hs.once client
    have hle : wasCreated s.table client ≤ 1 := by
      rw [wasCreated]
      split <;> omega
    rw [gone] at honce
    omega
  · intro shard role client hr
    obtain ⟨target,ht⟩ := hs.routed shard role client hr
    exact hs.own target client ht ▸ ht
  · intro w entry client t hr ht
    obtain ⟨hb,hknown⟩ := step_balanced s t (.caller w entry) hs ht
    have hgone := gone_of_registered t hb client (hknown w entry client rfl hr)
    rw [gone] at hgone
    exact ⟨List.count_eq_zero.mp (by omega),List.count_eq_zero.mp (by omega)⟩

def twoCallers : List Action :=
  [.arrive,.arrive,
    .caller 0 (.updateFromCoordinator 1 [⟨['a'],.MASTER,[0]⟩] (fun _ => none)),.caller 0 .retire,
    .caller 1 (.getOrCreateByTarget ['b']),.caller 1 (.createClient (fun _ => none)),
    .caller 0 (.updateFromCoordinator 1 [⟨['b'],.MASTER,[0]⟩] (fun _ => none)),.caller 0 .retire,
    .caller 1 .shutdown]

theorem clients_accounted_two_callers :
    ∃ s, run step {} twoCallers = some s ∧ s.shut_down = [⟨['a'],0⟩] ∧ queued s = [⟨['b'],0⟩] ∧
      (∀ client, client.generation < s.table.created client.target →
        ∃! place, InPlace s client place) ∧
      (∀ target client, s.table.getRouteByTarget target = some client →
        target = client.target) ∧
      (∀ client, (queued s).count client ≤ 1 ∧ s.shut_down.count client ≤ 1) ∧
      (∀ shard role client, s.table.getRoute shard role = some client →
        s.table.getRouteByTarget client.target = some client) ∧
      ∀ w entry client t, returned s w entry = some client →
        step s (.caller w entry) = some t → client ∉ queued t ∧ client ∉ t.shut_down :=
  ⟨_,rfl,rfl,rfl,clients_accounted twoCallers _ rfl⟩

end HurriCache.ClientAccounting
