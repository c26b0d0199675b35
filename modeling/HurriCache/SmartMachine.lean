import HurriCache.ExecuteMachine
import HurriCache.PartialRun

/-!
# The smart client as a concurrent machine

Any number of workers and refreshes and one thread in `shutdown` step in any
order. The first refresh is the one of the periodic thread, which starts over
until it is asked to stop. Coordinators complete stream operations, nodes
reply to attempts and threads may fail to start. An attempt under way is one
step here, whatever operations it starts on the queue of its client. A fault is
an action of the process as a whole, after which nothing more happens.
-/

set_option autoImplicit false

namespace HurriCache.SmartMachine
open HurriCache.ClientTypes HurriCache.CallOutcomes HurriCache.StreamCall
open HurriCache.TopologyTable HurriCache.CoordinatorStream HurriCache.ShardSelection
open HurriCache.AttemptGuard HurriCache.RefreshMachine HurriCache.ExecuteMachine

structure Config where
  coordinators : List Text
  configured_mode : Mode := .MASTER_THAN_BACKUP

structure Execution (T : Type) where
  hint : Option KeyHint
  pc : ExecutePc T

/-- The program points of the thread that runs `shutdown`. A second call
returns at once. -/
inductive ShutdownPc where
  | idle
  | joining
  | unreadying
  | closingCoordinator
  | drainingStreams
  | clearing
  | retiring (clients : List Client)
  | returned
  deriving DecidableEq

structure State (T : Type) where
  shared : Shared := {}
  refreshers : List RefreshPc := [.done]
  executions : List (Execution T) := []
  shutdown : ShutdownPc := .idle
  fault : Option Fault := none

inductive Action (T : Type) where
  | call (hint : Option KeyHint)
  | tick
  | refresh (w : ℕ) (createFails : Text → Option CallException)
  | stream (w : ℕ) (event : Event RoutingInfoData)
  | execute (x : ℕ) (master_first : Bool) (failures : Failures)
  | timeout (x : ℕ)
  | reply (x : ℕ) (outcome : Outcome T)
  | setMode (mode : Option Mode)
  | shutdown

section Step

variable {T : Type}

def periodicDone (refreshers : List RefreshPc) : Bool :=
  match refreshers with
  | [] => true
  | pc::_ => pc.isDone

def shutdownStep (shared : Shared) (refreshers : List RefreshPc) :
    ShutdownPc → Option (Shared × ShutdownPc)
  | .idle => some ({ shared with shutdown_requested := true },.joining)
  | .joining => if periodicDone refreshers then some (shared,.unreadying) else none
  | .unreadying => some ({ shared with is_ready := false },.closingCoordinator)
  | .closingCoordinator => some ({ shared with coordinator_shutdown := true },.drainingStreams)
  | .drainingStreams =>
    if refreshers.any RefreshPc.inFlight then none else some (shared,.clearing)
  | .clearing =>
    let cleared := shared.routing_table.shutdown
    some ({ shared with routing_table := cleared.2 },.retiring cleared.1)
  | .retiring (client::clients) =>
    some ({ shared with shut_down := shared.shut_down++[client] },.retiring clients)
  | .retiring [] => some (shared,.returned)
  | .returned => none

def State.setRefresher (s : State T) (w : ℕ) (pc : RefreshPc) : State T :=
  { s with refreshers := s.refreshers.set w pc }

def State.setExecution (s : State T) (x : ℕ) (e : Execution T) : State T :=
  { s with executions := s.executions.set x e }

def afterExecute (s : State T) (x : ℕ) (e : Execution T) :
    Except Fault (Moved T) → State T
  | .error f => { s with fault := some f }
  | .ok moved =>
    let s := s.setExecution x ⟨e.hint,moved.pc⟩
    { s with
      shared := moved.shared
      refreshers := if moved.refresh then s.refreshers++[.checking] else s.refreshers }

def act (config : Config) (s : State T) : Action T → Option (State T)
  | .call hint => some { s with executions := s.executions++[⟨hint,.waitingReady⟩] }
  | .tick =>
    if s.shutdown = .idle ∧ periodicDone s.refreshers then some (s.setRefresher 0 .checking)
    else none
  | .refresh w createFails => do
    let pc ← s.refreshers[w]?
    let (shared,pc) ← refreshStep config.coordinators createFails s.shared pc
    some { s.setRefresher w pc with shared := shared }
  | .stream w event => do
    let pc ← s.refreshers[w]?
    let pc ← refreshReceive event pc
    some (s.setRefresher w pc)
  | .execute x master_first failures => do
    let e ← s.executions[x]?
    let r ← executeStep config.configured_mode e.hint master_first failures s.shared e.pc
    some (afterExecute s x e r)
  | .timeout x => do
    let e ← s.executions[x]?
    let pc ← executeTimeout s.shared e.pc
    some (s.setExecution x ⟨e.hint,pc⟩)
  | .reply x outcome => do
    let e ← s.executions[x]?
    let pc ← executeReply outcome e.pc
    some (s.setExecution x ⟨e.hint,pc⟩)
  | .setMode mode => some { s with shared := { s.shared with mode_override := mode } }
  | .shutdown => do
    let (shared,pc) ← shutdownStep s.shared s.refreshers s.shutdown
    some { s with shared := shared, shutdown := pc }

def step (config : Config) (s : State T) (a : Action T) : Option (State T) :=
  if s.fault.isSome then none else act config s a

end Step

end HurriCache.SmartMachine
