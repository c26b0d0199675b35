import HurriCache.CoordinatorStream
import HurriCache.ShardSelection

/-!
# One run of `refreshRouting`

The shared members of the smart client and the program points of a refresh.
Each step is one access to shared state: an atomic member, the table under its
lock, or the shutdown of one client that the update took out of the table.
Sleeping between two coordinators has no effect of its own. The atomics make
every interleaving of such steps possible.
-/

set_option autoImplicit false

namespace HurriCache.RefreshMachine
open HurriCache.ClientTypes HurriCache.CallOutcomes HurriCache.StreamCall
open HurriCache.TopologyTable HurriCache.CoordinatorStream HurriCache.ShardSelection

/-- `shut_down` lists the clients on which `shutdown` has been called. -/
structure Shared where
  routing_table : RoutingTable := {}
  is_ready : Bool := false
  is_updating : Bool := false
  shutdown_requested : Bool := false
  coordinator_shutdown : Bool := false
  random_counter : UInt32 := 0
  active_coordinator_index : Int32 := 0
  mode_override : Option Mode := none
  shut_down : List Client := []

inductive RefreshPc where
  | checking
  | locking
  | reading
  | fetching (base : Int32) (attempt : ℕ)
  | waiting (base : Int32) (attempt : ℕ) (stream : TopologyStream)
  | updating (base : Int32) (attempt : ℕ) (routing_data : CoordinatorRoutingInfo)
  | retiring (base : Int32) (attempt : ℕ) (removed_clients : List Client)
  | indexing (base : Int32) (attempt : ℕ)
  | readying
  | releasing
  | done

def RefreshPc.isDone : RefreshPc → Bool
  | .done => true
  | _ => false

def RefreshPc.inFlight : RefreshPc → Bool
  | .waiting _ _ stream => stream.call.promise.isEmpty
  | _ => false

def coordinatorIndex (coordinators : List Text) (base : Int32) (attempt : ℕ) : Int32 :=
  (base+Int32.ofNat attempt) % Int32.ofNat coordinators.length

def refreshStep (coordinators : List Text) (createFails : Text → Option CallException)
    (shared : Shared) : RefreshPc → Option (Shared × RefreshPc)
  | .checking =>
    if shared.shutdown_requested || coordinators.isEmpty then some (shared,.done)
    else some (shared,.locking)
  | .locking =>
    if shared.is_updating then some (shared,.done)
    else some ({ shared with is_updating := true },.reading)
  | .reading => some (shared,.fetching shared.active_coordinator_index 0)
  | .fetching base attempt =>
    if attempt < coordinators.length then
      match provideGlobalRoutingInfo shared.coordinator_shutdown with
      | .ok call => some (shared,.waiting base attempt ⟨call,[]⟩)
      | .error _ => some (shared,.fetching base (attempt+1))
    else some (shared,.releasing)
  | .waiting base attempt stream =>
    match stream.call.promise with
    | [] => none
    | .ok routing_data::_ => some (shared,.updating base attempt routing_data)
    | .error _::_ => some (shared,.fetching base (attempt+1))
  | .updating base attempt routing_data =>
    let update := shared.routing_table.updateFromCoordinator createFails routing_data.max_shards
      (routing_data.peer_routings.map peerMessage)
    let shared := { shared with routing_table := update.table }
    match update.thrown with
    | some _ => some (shared,.fetching base (attempt+1))
    | none => some (shared,.retiring base attempt update.removed_clients)
  | .retiring base attempt (client::clients) =>
    some ({ shared with shut_down := shared.shut_down++[client] },.retiring base attempt clients)
  | .retiring base attempt [] => some (shared,.indexing base attempt)
  | .indexing base attempt =>
    some ({ shared with active_coordinator_index := coordinatorIndex coordinators base attempt },
      .readying)
  | .readying => some ({ shared with is_ready := true },.releasing)
  | .releasing => some ({ shared with is_updating := false },.done)
  | .done => none

def refreshReceive (event : Event RoutingInfoData) : RefreshPc → Option RefreshPc
  | .waiting base attempt stream => (stream.receive event).map (.waiting base attempt)
  | _ => none

def TopologyKnown : RefreshPc → Prop
  | .waiting _ _ stream => Assembling stream ∧
      ∀ info, .ok info ∈ stream.call.promise → info.max_shards ≠ 0
  | .updating _ _ routing_data => routing_data.max_shards ≠ 0
  | _ => True

/-- The stream may end here: a chunk with a number of shards has been sent,
or the status is not OK. -/
def informativeEvent (event : Event RoutingInfoData) : RefreshPc → Bool
  | .waiting _ _ stream =>
    match event with
    | .finished status _ => !status.ok || stream.sent.any (fun c => c.max_shards != 0)
    | _ => true
  | _ => true

def applied (createFails : Text → Option CallException) (shared : Shared)
    (routing_data : CoordinatorRoutingInfo) : RoutingTable.Update :=
  shared.routing_table.updateFromCoordinator createFails routing_data.max_shards
    (routing_data.peer_routings.map peerMessage)

inductive RefreshStep (coordinators : List Text) (createFails : Text → Option CallException)
    (shared : Shared) : RefreshPc → Shared → RefreshPc → Prop where
  | skip (h : (shared.shutdown_requested || coordinators.isEmpty) = true) :
    RefreshStep coordinators createFails shared .checking shared .done
  | check (h : (shared.shutdown_requested || coordinators.isEmpty) = false) :
    RefreshStep coordinators createFails shared .checking shared .locking
  | busy (h : shared.is_updating = true) :
    RefreshStep coordinators createFails shared .locking shared .done
  | lock (h : shared.is_updating = false) :
    RefreshStep coordinators createFails shared .locking { shared with is_updating := true }
      .reading
  | read :
    RefreshStep coordinators createFails shared .reading shared
      (.fetching shared.active_coordinator_index 0)
  | fetch (base : Int32) (attempt : ℕ) (call : RoutingStreamCallData)
      (h : attempt < coordinators.length)
      (hc : provideGlobalRoutingInfo shared.coordinator_shutdown = .ok call) :
    RefreshStep coordinators createFails shared (.fetching base attempt) shared
      (.waiting base attempt ⟨call,[]⟩)
  | refuse (base : Int32) (attempt : ℕ) (e : CallException) (h : attempt < coordinators.length)
      (hc : provideGlobalRoutingInfo shared.coordinator_shutdown = .error e) :
    RefreshStep coordinators createFails shared (.fetching base attempt) shared
      (.fetching base (attempt+1))
  | giveUp (base : Int32) (attempt : ℕ) (h : coordinators.length ≤ attempt) :
    RefreshStep coordinators createFails shared (.fetching base attempt) shared .releasing
  | receive (base : Int32) (attempt : ℕ) (stream : TopologyStream)
      (routing_data : CoordinatorRoutingInfo) (rest : List (Outcome CoordinatorRoutingInfo))
      (h : stream.call.promise = .ok routing_data::rest) :
    RefreshStep coordinators createFails shared (.waiting base attempt stream) shared
      (.updating base attempt routing_data)
  | lose (base : Int32) (attempt : ℕ) (stream : TopologyStream) (e : CallException)
      (rest : List (Outcome CoordinatorRoutingInfo)) (h : stream.call.promise = .error e::rest) :
    RefreshStep coordinators createFails shared (.waiting base attempt stream) shared
      (.fetching base (attempt+1))
  | updateThrows (base : Int32) (attempt : ℕ) (routing_data : CoordinatorRoutingInfo)
      (e : CallException) (h : (applied createFails shared routing_data).thrown = some e) :
    RefreshStep coordinators createFails shared (.updating base attempt routing_data)
      { shared with routing_table := (applied createFails shared routing_data).table }
      (.fetching base (attempt+1))
  | update (base : Int32) (attempt : ℕ) (routing_data : CoordinatorRoutingInfo)
      (h : (applied createFails shared routing_data).thrown = none) :
    RefreshStep coordinators createFails shared (.updating base attempt routing_data)
      { shared with routing_table := (applied createFails shared routing_data).table }
      (.retiring base attempt (applied createFails shared routing_data).removed_clients)
  | retire (base : Int32) (attempt : ℕ) (client : Client) (clients : List Client) :
    RefreshStep coordinators createFails shared (.retiring base attempt (client::clients))
      { shared with shut_down := shared.shut_down++[client] } (.retiring base attempt clients)
  | retired (base : Int32) (attempt : ℕ) :
    RefreshStep coordinators createFails shared (.retiring base attempt []) shared
      (.indexing base attempt)
  | index (base : Int32) (attempt : ℕ) :
    RefreshStep coordinators createFails shared (.indexing base attempt)
      { shared with active_coordinator_index := coordinatorIndex coordinators base attempt }
      .readying
  | ready :
    RefreshStep coordinators createFails shared .readying { shared with is_ready := true }
      .releasing
  | release :
    RefreshStep coordinators createFails shared .releasing { shared with is_updating := false }
      .done

theorem refreshStep_iff (coordinators : List Text) (createFails : Text → Option CallException)
    (shared next : Shared) (pc pc' : RefreshPc) :
    refreshStep coordinators createFails shared pc = some (next,pc') ↔
      RefreshStep coordinators createFails shared pc next pc' := by
  constructor
  · intro h
    cases pc with
    | checking =>
      simp only [refreshStep] at h
      split at h
      next hs =>
        cases h
        exact .skip hs
      next hs =>
        cases h
        exact .check (Bool.eq_false_of_not_eq_true hs)
    | locking =>
      simp only [refreshStep] at h
      split at h
      next hu =>
        cases h
        exact .busy hu
      next hu =>
        cases h
        exact .lock (Bool.eq_false_of_not_eq_true hu)
    | reading =>
      cases h
      exact .read
    | fetching base attempt =>
      simp only [refreshStep] at h
      split at h
      next hlt =>
        split at h
        next call hc =>
          cases h
          exact .fetch base attempt call hlt hc
        next e hc =>
          cases h
          exact .refuse base attempt e hlt hc
      next hlt =>
        cases h
        exact .giveUp base attempt (Nat.not_lt.mp hlt)
    | waiting base attempt stream =>
      simp only [refreshStep] at h
      split at h
      next => cases h
      next routing_data rest hp =>
        cases h
        exact .receive base attempt stream routing_data rest hp
      next e rest hp =>
        cases h
        exact .lose base attempt stream e rest hp
    | updating base attempt routing_data =>
      simp only [refreshStep] at h
      split at h
      next e ht =>
        cases h
        exact .updateThrows base attempt routing_data e ht
      next ht =>
        cases h
        exact .update base attempt routing_data ht
    | retiring base attempt clients =>
      cases clients with
      | nil =>
        cases h
        exact .retired base attempt
      | cons client clients =>
        cases h
        exact .retire base attempt client clients
    | indexing base attempt =>
      cases h
      exact .index base attempt
    | readying =>
      cases h
      exact .ready
    | releasing =>
      cases h
      exact .release
    | done => cases h
  · intro h
    cases h with
    | read | retire | retired | index | ready | release => rfl
    | skip h | check h | busy h | lock h => simp [refreshStep, h]
    | fetch base attempt call h hc | refuse base attempt e h hc => simp [refreshStep, h, hc]
    | giveUp base attempt h => simp [refreshStep, Nat.not_lt.mpr h]
    | receive base attempt stream routing_data rest h => simp [refreshStep, h]
    | lose base attempt stream e rest h => simp [refreshStep, h]
    | updateThrows base attempt routing_data e h =>
      rw [applied] at h
      simp [refreshStep, applied, h]
    | update base attempt routing_data h =>
      rw [applied] at h
      simp [refreshStep, applied, h]

theorem provide_assembling (shutdown : Bool) (call : RoutingStreamCallData)
    (h : provideGlobalRoutingInfo shutdown = .ok call) :
    Assembling ⟨call,[]⟩ ∧ call.promise = [] := by
  cases shutdown with
  | true => cases h
  | false =>
    cases h
    exact ⟨started_assembling _ rfl,rfl⟩

theorem refreshStep_known (coordinators : List Text)
    (createFails : Text → Option CallException) (shared next : Shared) (pc pc' : RefreshPc)
    (hpc : TopologyKnown pc) (hs : shared.routing_table.max_shards ≠ 0)
    (h : refreshStep coordinators createFails shared pc = some (next,pc')) :
    TopologyKnown pc' ∧ next.routing_table.max_shards ≠ 0 := by
  cases (refreshStep_iff _ _ _ _ _ _).mp h with
  | fetch base attempt call h hc =>
    obtain ⟨hassembling,hpromise⟩ := provide_assembling _ call hc
    refine ⟨⟨hassembling,?_⟩,hs⟩
    intro info hinfo
    rw [hpromise] at hinfo
    cases hinfo
  | receive base attempt stream routing_data rest hp =>
    exact ⟨hpc.2 routing_data (by rw [hp]; exact List.mem_cons_self),hs⟩
  | updateThrows base attempt routing_data | update base attempt routing_data =>
    have htable := RoutingTable.updateFromCoordinator_max_shards createFails shared.routing_table
      routing_data.max_shards (routing_data.peer_routings.map peerMessage)
    exact ⟨trivial,fun hzero => hpc (htable.symm.trans hzero)⟩
  | _ => exact ⟨trivial,hs⟩

theorem refreshReceive_known (event : Event RoutingInfoData) (pc pc' : RefreshPc)
    (hpc : TopologyKnown pc) (hinf : informativeEvent event pc = true)
    (h : refreshReceive event pc = some pc') : TopologyKnown pc' := by
  cases pc with
  | waiting base attempt stream =>
    obtain ⟨t,ht,rfl⟩ := Option.map_eq_some_iff.mp h
    refine ⟨receive_assembling stream t event hpc.1 ht,?_⟩
    intro info hinfo
    cases receive_promise stream t event hpc.1 ht info hinfo with
    | inl hold => exact hpc.2 info hold
    | inr hnew =>
      obtain ⟨status,trailers,rfl,hok,rfl⟩ := hnew
      apply (topologyOf_max_shards_ne_zero stream.sent).mpr
      simpa [informativeEvent, hok] using hinf
  | _ => cases h

end HurriCache.RefreshMachine
