import HurriCache.NodeCalls
import HurriCache.PartialRun

/-!
# The life of a node's client

Callers, the thread of the completion queue and threads in `shutdown` step in
any order. A caller checks the flag once, reads the stub without owning it,
prepares its call with it and starts an operation. `shutdown` raises the flag
before it drops the stub and shuts the queue, so a caller between its check and
its start finds neither as it left them.
-/

set_option autoImplicit false

namespace HurriCache.NodeLifecycle
open HurriCache.ClientTypes HurriCache.CallOutcomes HurriCache.StreamCall
open HurriCache.CompletionQueue HurriCache.NodeCalls HurriCache.PartialRun

inductive LifecycleFault where
  | nullStub
  | danglingStub
  | breach (breach : Breach)
  deriving DecidableEq, Repr

inductive SendPc (Response R Chunk S : Type) where
  | checking (sending : Sending Response R Chunk S)
  | readingStub (sending : Sending Response R Chunk S)
  | preparing (sending : Sending Response R Chunk S) (stub : Bool)
  | starting (sending : Sending Response R Chunk S)
  | sent (tag : ℕ)
  | refused (e : CallException)

/-- The program points of `shutdown`. Only the thread that raises the flag
goes on. -/
inductive ShutdownPc where
  | exchanging
  | resettingStub
  | closingQueue
  | joining
  | returned (won : Bool)
  deriving DecidableEq

structure State (Response R Chunk S : Type) where
  shutdown_called : Bool := false
  asyncStub : Bool := true
  served : Served (CallData Response R Chunk S) := {}
  serving : Bool := true
  callers : List (SendPc Response R Chunk S) := []
  closers : List ShutdownPc := []
  fault : Option LifecycleFault := none

inductive Action (Response R Chunk S : Type) where
  | call (sending : Sending Response R Chunk S)
  | send (x : ℕ)
  | deliver (tag : ℕ) (event : CallEvent Response Chunk)
  | drain
  | shutdown
  | close (y : ℕ)

section Step

variable {Response R Chunk S : Type} [Inhabited Response] [Inhabited Chunk] [Inhabited S]

def sendStep (s : State Response R Chunk S) : SendPc Response R Chunk S →
    Option (Except LifecycleFault (State Response R Chunk S × SendPc Response R Chunk S))
  | .checking sending =>
    if s.shutdown_called then some (.ok (s,.refused (.other "Client is shut down".toList)))
    else some (.ok (s,.readingStub sending))
  | .readingStub sending => some (.ok (s,.preparing sending s.asyncStub))
  | .preparing sending stub =>
    if !stub then some (.error .nullStub)
    else if !s.asyncStub then some (.error .danglingStub)
    else some (.ok (s,.starting sending))
  | .starting sending =>
    match s.served.create sending.object with
    | .error b => some (.error (.breach b))
    | .ok served => some (.ok ({ s with served := served },.sent s.served.objects.length))
  | .sent _ => none
  | .refused _ => none

def closeStep (s : State Response R Chunk S) : ShutdownPc →
    Option (State Response R Chunk S × ShutdownPc)
  | .exchanging =>
    if s.shutdown_called then some (s,.returned false)
    else some ({ s with shutdown_called := true },.resettingStub)
  | .resettingStub => some ({ s with asyncStub := false },.closingQueue)
  | .closingQueue => some ({ s with served := s.served.close },.joining)
  | .joining => if s.serving then none else some (s,.returned true)
  | .returned _ => none

def afterSend (s : State Response R Chunk S) (x : ℕ) :
    Except LifecycleFault (State Response R Chunk S × SendPc Response R Chunk S) →
      State Response R Chunk S
  | .error f => { s with fault := some f }
  | .ok (t,pc) => { t with callers := t.callers.set x pc }

def afterDeliver (s : State Response R Chunk S) :
    Except Breach (Served (CallData Response R Chunk S)) → State Response R Chunk S
  | .error b => { s with fault := some (.breach b) }
  | .ok served => { s with served := served }

def act (s : State Response R Chunk S) : Action Response R Chunk S →
    Option (State Response R Chunk S)
  | .call sending => some { s with callers := s.callers++[.checking sending] }
  | .send x => do
    let pc ← s.callers[x]?
    let r ← sendStep s pc
    some (afterSend s x r)
  | .deliver tag event =>
    if s.serving then
      (s.served.deliver (callKind Response R Chunk S) tag event).map (afterDeliver s)
    else none
  | .drain => if s.serving && s.served.queue.drained then some { s with serving := false } else none
  | .shutdown => some { s with closers := s.closers++[.exchanging] }
  | .close y => do
    let pc ← s.closers[y]?
    let (t,pc) ← closeStep s pc
    some { t with closers := t.closers.set y pc }

def step (s : State Response R Chunk S) (a : Action Response R Chunk S) :
    Option (State Response R Chunk S) :=
  if s.fault.isSome then none else act s a

/-- The steps of a client, with all that each one checks. -/
inductive Step (s : State Response R Chunk S) : Action Response R Chunk S →
    State Response R Chunk S → Prop where
  | call (sending : Sending Response R Chunk S) :
    Step s (.call sending) { s with callers := s.callers++[.checking sending] }
  | refuse (x : ℕ) (sending : Sending Response R Chunk S)
      (hx : s.callers[x]? = some (.checking sending)) (h : s.shutdown_called = true) :
    Step s (.send x) { s with
      callers := s.callers.set x (.refused (.other "Client is shut down".toList)) }
  | check (x : ℕ) (sending : Sending Response R Chunk S)
      (hx : s.callers[x]? = some (.checking sending)) (h : s.shutdown_called = false) :
    Step s (.send x) { s with callers := s.callers.set x (.readingStub sending) }
  | readStub (x : ℕ) (sending : Sending Response R Chunk S)
      (hx : s.callers[x]? = some (.readingStub sending)) :
    Step s (.send x) { s with callers := s.callers.set x (.preparing sending s.asyncStub) }
  | nullStub (x : ℕ) (sending : Sending Response R Chunk S)
      (hx : s.callers[x]? = some (.preparing sending false)) :
    Step s (.send x) { s with fault := some .nullStub }
  | danglingStub (x : ℕ) (sending : Sending Response R Chunk S)
      (hx : s.callers[x]? = some (.preparing sending true)) (h : s.asyncStub = false) :
    Step s (.send x) { s with fault := some .danglingStub }
  | prepare (x : ℕ) (sending : Sending Response R Chunk S)
      (hx : s.callers[x]? = some (.preparing sending true)) (h : s.asyncStub = true) :
    Step s (.send x) { s with callers := s.callers.set x (.starting sending) }
  | lateStart (x : ℕ) (sending : Sending Response R Chunk S)
      (hx : s.callers[x]? = some (.starting sending)) (h : s.served.queue.shutdown = true) :
    Step s (.send x) { s with fault := some (.breach .workAfterShutdown) }
  | start (x : ℕ) (sending : Sending Response R Chunk S)
      (served : Served (CallData Response R Chunk S))
      (hx : s.callers[x]? = some (.starting sending))
      (h : s.served.create sending.object = .ok served) :
    Step s (.send x) { s with
      served := served
      callers := s.callers.set x (.sent s.served.objects.length) }
  | deliver (tag : ℕ) (event : CallEvent Response Chunk)
      (r : Except Breach (Served (CallData Response R Chunk S))) (hserving : s.serving = true)
      (h : s.served.deliver (callKind Response R Chunk S) tag event = some r) :
    Step s (.deliver tag event) (afterDeliver s r)
  | drain (hserving : s.serving = true) (h : s.served.queue.drained = true) :
    Step s .drain { s with serving := false }
  | shutdown : Step s .shutdown { s with closers := s.closers++[.exchanging] }
  | lose (y : ℕ) (hy : s.closers[y]? = some .exchanging) (h : s.shutdown_called = true) :
    Step s (.close y) { s with closers := s.closers.set y (.returned false) }
  | win (y : ℕ) (hy : s.closers[y]? = some .exchanging) (h : s.shutdown_called = false) :
    Step s (.close y) { s with shutdown_called := true, closers := s.closers.set y .resettingStub }
  | resetStub (y : ℕ) (hy : s.closers[y]? = some .resettingStub) :
    Step s (.close y) { s with asyncStub := false, closers := s.closers.set y .closingQueue }
  | closeQueue (y : ℕ) (hy : s.closers[y]? = some .closingQueue) :
    Step s (.close y) { s with served := s.served.close, closers := s.closers.set y .joining }
  | join (y : ℕ) (hy : s.closers[y]? = some .joining) (h : s.serving = false) :
    Step s (.close y) { s with closers := s.closers.set y (.returned true) }

theorem send_cases (s : State Response R Chunk S) (x : ℕ) (pc : SendPc Response R Chunk S)
    (r : Except LifecycleFault (State Response R Chunk S × SendPc Response R Chunk S))
    (hx : s.callers[x]? = some pc) (h : sendStep s pc = some r) :
    Step s (.send x) (afterSend s x r) := by
  cases pc with
  | checking sending =>
    simp only [sendStep] at h
    split at h
    next hd =>
      cases h
      exact .refuse x sending hx hd
    next hd =>
      cases h
      exact .check x sending hx (by simpa using hd)
  | readingStub sending =>
    cases h
    exact .readStub x sending hx
  | preparing sending stub =>
    cases stub with
    | false =>
      cases h
      exact .nullStub x sending hx
    | true =>
      simp only [sendStep, Bool.not_true, Bool.false_eq_true, if_false] at h
      split at h
      next hstub =>
        cases h
        exact .danglingStub x sending hx (by simpa using hstub)
      next hstub =>
        cases h
        exact .prepare x sending hx (by simpa using hstub)
  | starting sending =>
    simp only [sendStep] at h
    split at h
    next b hb =>
      cases h
      obtain ⟨hq,rfl⟩ := (create_error s.served sending.object b).mp hb
      exact .lateStart x sending hx hq
    next served hs =>
      cases h
      exact .start x sending served hx hs
  | sent tag => cases h
  | refused e => cases h

theorem close_cases (s t : State Response R Chunk S) (y : ℕ) (pc pc' : ShutdownPc)
    (hy : s.closers[y]? = some pc) (h : closeStep s pc = some (t,pc')) :
    Step s (.close y) { t with closers := t.closers.set y pc' } := by
  cases pc with
  | exchanging =>
    simp only [closeStep] at h
    split at h
    next hd =>
      cases h
      exact .lose y hy hd
    next hd =>
      cases h
      exact .win y hy (by simpa using hd)
  | resettingStub =>
    cases h
    exact .resetStub y hy
  | closingQueue =>
    cases h
    exact .closeQueue y hy
  | joining =>
    simp only [closeStep] at h
    split at h
    · cases h
    next hserving =>
      cases h
      exact .join y hy (by simpa using hserving)
  | returned won => cases h

theorem step_cases (s t : State Response R Chunk S) (a : Action Response R Chunk S)
    (h : step s a = some t) : s.fault = none ∧ Step s a t := by
  unfold step at h
  split at h
  · cases h
  next hf =>
    refine ⟨by simpa using hf,?_⟩
    cases a with
    | call sending =>
      cases h
      exact .call sending
    | send x =>
      obtain ⟨pc,hx,h⟩ := Option.bind_eq_some_iff.mp h
      obtain ⟨r,hr,h⟩ := Option.bind_eq_some_iff.mp h
      cases h
      exact send_cases s x pc r hx hr
    | deliver tag event =>
      simp only [act] at h
      split at h
      next hserving =>
        obtain ⟨r,hr,rfl⟩ := Option.map_eq_some_iff.mp h
        exact .deliver tag event r hserving hr
      next => cases h
    | drain =>
      simp only [act] at h
      split at h
      next hd =>
        cases h
        rw [Bool.and_eq_true] at hd
        exact .drain hd.1 hd.2
      next => cases h
    | shutdown =>
      cases h
      exact .shutdown
    | close y =>
      obtain ⟨pc,hy,h⟩ := Option.bind_eq_some_iff.mp h
      obtain ⟨⟨u,pc'⟩,hu,h⟩ := Option.bind_eq_some_iff.mp h
      cases h
      exact close_cases s u y pc pc' hy hu

end Step

end HurriCache.NodeLifecycle
