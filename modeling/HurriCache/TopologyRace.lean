import HurriCache.ExecuteMachine
import HurriCache.PartialRun
import HurriCache.TableEffects

/-!
# One call among topology updates

A worker of `execute` steps between the critical sections of any number of
topology updates. What an update removes is shut down later, one client a
step. A client looks at its flag before it takes a call and not again: every
operation that the call then starts on the queue stops the process if the
queue is shut down. Beside the state stand the tables that complete updates
published, what the call has read so far and how many steps it has taken.
-/

set_option autoImplicit false

namespace HurriCache.TopologyRace
open HurriCache.ClientTypes HurriCache.CallOutcomes HurriCache.StreamCall
open HurriCache.TopologyTable HurriCache.ShardSelection HurriCache.AttemptGuard
open HurriCache.RefreshMachine HurriCache.ExecuteMachine HurriCache.TableEffects

structure Call where
  hint : Option KeyHint
  configured_mode : Mode := .MASTER_THAN_BACKUP
  stream : Bool := false

structure Reads where
  max_shards : Option Int32 := none
  shard : Option Int32 := none
  master : Option SharedClient := none
  backup : Option SharedClient := none

section Machine

variable {T : Type}

def Reads.observe (reads : Reads) : ExecutePc T → Reads
  | .choosingShard max_shards => { reads with max_shards := some max_shards }
  | .readingMaster shard => { reads with shard := some shard }
  | .readingBackup _ master => { reads with master := some master }
  | .selectingMode _ backup => { reads with backup := some backup }
  | _ => reads

/-- The operation that comes next on the client's queue. A unary call starts
with its `Finish`. A stream goes on reading until there is nothing more to
read or its accumulator throws. -/
def nextOperation (stream ok : Bool) : Option Operation → Option Operation
  | none => some (if stream then .StartCall else .Finish)
  | some .StartCall | some .Read => some (if ok then .Read else .Finish)
  | some .Finish => none

/-- `reader` is the operation that the awaited call has outstanding, and `whole`
tells that the latest update was not cut short. -/
structure State (T : Type) where
  shared : Shared := {}
  pc : ExecutePc T := .waitingReady
  reader : Option Operation := none
  reads : Reads := {}
  taken : ℕ := 0
  retiring : List (List Client) := []
  published : List RoutingTable := []
  whole : Bool := false
  fault : Option Fault := none

inductive Action (T : Type) where
  | update (max_shards : Int32) (peer_routings : List PeerRouting)
      (createFails : Text → Option CallException)
  | retire (u : ℕ)
  | ready
  | execute (master_first : Bool) (failures : Failures)
  | operate (ok : Bool)
  | reply (outcome : Outcome T)

def updated (s : State T) (update : RoutingTable.Update) : State T :=
  { s with
    shared := { s.shared with routing_table := update.table }
    retiring := s.retiring++[update.removed_clients]
    published := if update.thrown.isNone then s.published++[update.table] else s.published
    whole := update.thrown.isNone }

def moved (s : State T) : Except Fault (Moved T) → State T
  | .error f => { s with fault := some f }
  | .ok m => { s with
    shared := m.shared
    pc := m.pc
    reads := s.reads.observe m.pc
    taken := s.taken+1 }

def act (call : Call) (s : State T) : Action T → Option (State T)
  | .update max_shards peer_routings createFails =>
    some (updated s
      (s.shared.routing_table.updateFromCoordinator createFails max_shards peer_routings))
  | .retire u =>
    match s.retiring[u]? with
    | some (client::clients) => some { s with
        shared := { s.shared with shut_down := s.shared.shut_down++[client] }
        retiring := s.retiring.set u clients }
    | _ => none
  | .ready =>
    -- a refresh gets here only after its update
    if s.published.isEmpty then none
    else some { s with shared := { s.shared with is_ready := true } }
  | .execute master_first failures =>
    (executeStep call.configured_mode call.hint master_first failures s.shared s.pc).map (moved s)
  | .operate ok =>
    match s.pc with
    | .awaiting current _ =>
      (nextOperation call.stream ok s.reader).map (fun operation =>
        if current ∈ s.shared.shut_down then { s with fault := some .workAfterShutdown }
        else { s with reader := some operation })
    | _ => none
  | .reply outcome =>
    -- only `Finish` brings a result
    if s.reader = some .Finish then
      (executeReply outcome s.pc).map
        (fun pc => { s with pc := pc, reader := none, taken := s.taken+1 })
    else none

def step (call : Call) (s : State T) (a : Action T) : Option (State T) :=
  if s.fault.isSome then none else act call s a

theorem operate_cases (call : Call) (s t : State T) (ok : Bool)
    (h : act call s (.operate ok) = some t) :
    t = { s with fault := some .workAfterShutdown } ∨
      ∃ operation, t = { s with reader := some operation } := by
  simp only [act] at h
  split at h
  · obtain ⟨operation,_,ht⟩ := Option.map_eq_some_iff.mp h
    split at ht
    · exact Or.inl ht.symm
    · exact Or.inr ⟨operation,ht.symm⟩
  · cases h

theorem reply_cases (call : Call) (s t : State T) (outcome : Outcome T)
    (h : act call s (.reply outcome) = some t) :
    ∃ pc, executeReply outcome s.pc = some pc ∧
      t = { s with pc := pc, reader := none, taken := s.taken+1 } := by
  simp only [act] at h
  split at h
  · obtain ⟨pc,hp,ht⟩ := Option.map_eq_some_iff.mp h
    exact ⟨pc,hp,ht.symm⟩
  · cases h

def start (mode_override : Option Mode) (random_counter : UInt32) : State T :=
  { shared := { mode_override := mode_override, random_counter := random_counter } }

end Machine

theorem findNamed_routes (createFails : Text → Option CallException) (table : RoutingTable)
    (target : Text) (current : SharedClient) :
    (findNamed createFails table target current).2.routing_table = table.routing_table := by
  unfold findNamed
  split
  · exact (getOrCreateByTarget_grows createFails table target).routes
  · rfl

end HurriCache.TopologyRace
