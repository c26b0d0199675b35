import HurriCache.CompletionQueue
import HurriCache.CoordinatorStream
import HurriCache.PartialRun

/-!
# The life of the coordinator client

Refreshes ask for topologies, the thread of the completion queue completes
their streams and threads in `shutdown` step in any order. The stub of the
coordinator that was asked last is kept for the next call and shared with the
calls that use it. A channel goes by its number among those created so far.
-/

set_option autoImplicit false

namespace HurriCache.CoordinatorLifecycle
open HurriCache.ClientTypes HurriCache.CallOutcomes HurriCache.CompletionQueue
open HurriCache.StreamCall hiding completion proceed
open HurriCache.CoordinatorStream HurriCache.PartialRun

structure RoutingCall where
  stub : ℕ
  call : RoutingStreamCallData

def newCall (stub : ℕ) : RoutingCall := ⟨stub,{ reader := some .StartCall }⟩

theorem newCall_call (stub : ℕ) : provideGlobalRoutingInfo false = .ok (newCall stub).call := rfl

def RoutingCall.receive (c : RoutingCall) (event : Event RoutingInfoData) : Option RoutingCall :=
  (completion c.call event).map (fun call => { c with call := call })

theorem proceed_alternates (ok : Bool) (call : RoutingStreamCallData)
    (hr : call.reader = none) (hd : call.deleted = false) :
    (proceed ok call).reader.isSome = !(proceed ok call).deleted := by
  unfold proceed
  cases call.state with
  | STARTED => cases ok <;> simp [hd]
  | READING => cases ok <;> simp [hd]
  | FINISHING => cases hok : call.status.ok <;> simp [hr]

theorem completion_alternates (call next : RoutingStreamCallData) (event : Event RoutingInfoData)
    (hd : call.deleted = false) (h : completion call event = some next) :
    next.reader.isSome = !next.deleted := by
  unfold completion at h
  split at h <;> first
    | cases h; exact proceed_alternates _ _ rfl hd
    | cases h

def callKind : ObjectKind RoutingCall (Event RoutingInfoData) where
  waits := fun c => c.call.reader.isSome
  deleted := fun c => c.call.deleted
  completes := RoutingCall.receive
  alternates := by
    intro c event c' hd h
    obtain ⟨next,hnext,rfl⟩ := Option.map_eq_some_iff.mp h
    exact completion_alternates c.call next event hd hnext

inductive FetchPc where
  | checking (target : Text)
  | ensuring (target : Text)
  | starting (target : Text) (stub : ℕ)
  | sent (target : Text) (tag : ℕ)
  | refused (e : CallException)

def FetchPc.tag? : FetchPc → Option ℕ
  | .sent _ tag => some tag
  | _ => none

/-- The program points of `shutdown`. Only the thread that raises the flag
goes on. -/
inductive ShutdownPc where
  | exchanging
  | resetting
  | closingQueue
  | joining
  | returned (won : Bool)
  deriving DecidableEq

structure State where
  shutdown : Bool := false
  channels : List Text := []
  stub : Option ℕ := none
  active_target : Text := []
  served : Served RoutingCall := {}
  serving : Bool := true
  callers : List FetchPc := []
  closers : List ShutdownPc := []
  fault : Option Breach := none

inductive Action where
  | call (target : Text)
  | fetch (x : ℕ)
  | deliver (tag : ℕ) (event : Event RoutingInfoData)
  | drain
  | shutdown
  | close (y : ℕ)

def State.getActiveTarget (s : State) : Text := s.active_target

/-- A channel to the target and a stub on it take the place of the old ones. -/
def State.newStub (s : State) (target : Text) : State :=
  { s with
    channels := s.channels++[target]
    stub := some s.channels.length
    active_target := target }

/-- The whole function runs under `channel_mutex_`. -/
def State.ensureStub (s : State) (target : Text) : State × ℕ :=
  match s.stub with
  | some stub =>
    if s.active_target = target then (s,stub) else (s.newStub target,s.channels.length)
  | none => (s.newStub target,s.channels.length)

def fetchStep (s : State) : FetchPc → Option (Except Breach (State × FetchPc))
  | .checking target =>
    match provideGlobalRoutingInfo s.shutdown with
    | .error e => some (.ok (s,.refused e))
    | .ok _ => some (.ok (s,.ensuring target))
  | .ensuring target =>
    let ensured := s.ensureStub target
    some (.ok (ensured.1,.starting target ensured.2))
  | .starting target stub =>
    match s.served.create (newCall stub) with
    | .error b => some (.error b)
    | .ok served => some (.ok ({ s with served := served },.sent target s.served.objects.length))
  | .sent _ _ => none
  | .refused _ => none

def closeStep (s : State) : ShutdownPc → Option (State × ShutdownPc)
  | .exchanging =>
    if s.shutdown then some (s,.returned false) else some ({ s with shutdown := true },.resetting)
  | .resetting => some ({ s with stub := none, active_target := [] },.closingQueue)
  | .closingQueue => some ({ s with served := s.served.close },.joining)
  | .joining => if s.serving then none else some (s,.returned true)
  | .returned _ => none

def afterFetch (s : State) (x : ℕ) : Except Breach (State × FetchPc) → State
  | .error b => { s with fault := some b }
  | .ok (t,pc) => { t with callers := t.callers.set x pc }

def afterDeliver (s : State) : Except Breach (Served RoutingCall) → State
  | .error b => { s with fault := some b }
  | .ok served => { s with served := served }

def act (s : State) : Action → Option State
  | .call target => some { s with callers := s.callers++[.checking target] }
  | .fetch x => do
    let pc ← s.callers[x]?
    let r ← fetchStep s pc
    some (afterFetch s x r)
  | .deliver tag event =>
    if s.serving then (s.served.deliver callKind tag event).map (afterDeliver s) else none
  | .drain => if s.serving && s.served.queue.drained then some { s with serving := false } else none
  | .shutdown => some { s with closers := s.closers++[.exchanging] }
  | .close y => do
    let pc ← s.closers[y]?
    let (t,pc) ← closeStep s pc
    some { t with closers := t.closers.set y pc }

def step (s : State) (a : Action) : Option State :=
  if s.fault.isSome then none else act s a

inductive Step (s : State) : Action → State → Prop where
  | call (target : Text) :
    Step s (.call target) { s with callers := s.callers++[.checking target] }
  | refuse (x : ℕ) (target : Text) (hx : s.callers[x]? = some (.checking target))
      (h : s.shutdown = true) :
    Step s (.fetch x) { s with
      callers := s.callers.set x (.refused (.other "CoordinatorClient is shut down".toList)) }
  | check (x : ℕ) (target : Text) (hx : s.callers[x]? = some (.checking target))
      (h : s.shutdown = false) :
    Step s (.fetch x) { s with callers := s.callers.set x (.ensuring target) }
  | reuse (x : ℕ) (target : Text) (stub : ℕ) (hx : s.callers[x]? = some (.ensuring target))
      (hstub : s.stub = some stub) (h : s.active_target = target) :
    Step s (.fetch x) { s with callers := s.callers.set x (.starting target stub) }
  | connect (x : ℕ) (target : Text) (hx : s.callers[x]? = some (.ensuring target))
      (h : ∀ stub, s.stub = some stub → s.active_target ≠ target) :
    Step s (.fetch x) { s.newStub target with
      callers := s.callers.set x (.starting target s.channels.length) }
  | lateStart (x : ℕ) (target : Text) (stub : ℕ)
      (hx : s.callers[x]? = some (.starting target stub)) (h : s.served.queue.shutdown = true) :
    Step s (.fetch x) { s with fault := some .workAfterShutdown }
  | start (x : ℕ) (target : Text) (stub : ℕ) (served : Served RoutingCall)
      (hx : s.callers[x]? = some (.starting target stub))
      (h : s.served.create (newCall stub) = .ok served) :
    Step s (.fetch x) { s with
      served := served
      callers := s.callers.set x (.sent target s.served.objects.length) }
  | deliver (tag : ℕ) (event : Event RoutingInfoData) (r : Except Breach (Served RoutingCall))
      (hserving : s.serving = true) (h : s.served.deliver callKind tag event = some r) :
    Step s (.deliver tag event) (afterDeliver s r)
  | drain (hserving : s.serving = true) (h : s.served.queue.drained = true) :
    Step s .drain { s with serving := false }
  | shutdown : Step s .shutdown { s with closers := s.closers++[.exchanging] }
  | lose (y : ℕ) (hy : s.closers[y]? = some .exchanging) (h : s.shutdown = true) :
    Step s (.close y) { s with closers := s.closers.set y (.returned false) }
  | win (y : ℕ) (hy : s.closers[y]? = some .exchanging) (h : s.shutdown = false) :
    Step s (.close y) { s with shutdown := true, closers := s.closers.set y .resetting }
  | reset (y : ℕ) (hy : s.closers[y]? = some .resetting) :
    Step s (.close y) { s with
      stub := none
      active_target := []
      closers := s.closers.set y .closingQueue }
  | closeQueue (y : ℕ) (hy : s.closers[y]? = some .closingQueue) :
    Step s (.close y) { s with served := s.served.close, closers := s.closers.set y .joining }
  | join (y : ℕ) (hy : s.closers[y]? = some .joining) (h : s.serving = false) :
    Step s (.close y) { s with closers := s.closers.set y (.returned true) }

theorem ensure_cases (s : State) (x : ℕ) (target : Text)
    (hx : s.callers[x]? = some (.ensuring target)) :
    Step s (.fetch x) (afterFetch s x
      (.ok ((s.ensureStub target).1,.starting target (s.ensureStub target).2))) := by
  unfold State.ensureStub
  cases hstub : s.stub with
  | none => exact .connect x target hx (fun stub h => by rw [hstub] at h; cases h)
  | some stub =>
    by_cases htarget : s.active_target = target
    · simp only [if_pos htarget]
      exact .reuse x target stub hx hstub htarget
    · simp only [if_neg htarget]
      exact .connect x target hx (fun _ _ => htarget)

theorem fetch_cases (s : State) (x : ℕ) (pc : FetchPc) (r : Except Breach (State × FetchPc))
    (hx : s.callers[x]? = some pc) (h : fetchStep s pc = some r) :
    Step s (.fetch x) (afterFetch s x r) := by
  cases pc with
  | checking target =>
    cases hd : s.shutdown with
    | true =>
      rw [fetchStep, hd] at h
      cases h
      exact .refuse x target hx hd
    | false =>
      rw [fetchStep, hd] at h
      cases h
      exact .check x target hx hd
  | ensuring target =>
    cases h
    exact ensure_cases s x target hx
  | starting target stub =>
    simp only [fetchStep] at h
    split at h
    next b hb =>
      cases h
      obtain ⟨hq,rfl⟩ := (create_error s.served (newCall stub) b).mp hb
      exact .lateStart x target stub hx hq
    next served hs =>
      cases h
      exact .start x target stub served hx hs
  | sent target tag => cases h
  | refused e => cases h

theorem close_cases (s t : State) (y : ℕ) (pc pc' : ShutdownPc) (hy : s.closers[y]? = some pc)
    (h : closeStep s pc = some (t,pc')) :
    Step s (.close y) { t with closers := t.closers.set y pc' } := by
  cases pc with
  | exchanging =>
    simp only [closeStep] at h
    split at h
    next hd =>
      cases h
      exact .lose y hy hd
    next hd =>
      cases h
      exact .win y hy (by simpa using hd)
  | resetting =>
    cases h
    exact .reset y hy
  | closingQueue =>
    cases h
    exact .closeQueue y hy
  | joining =>
    simp only [closeStep] at h
    split at h
    · cases h
    next hserving =>
      cases h
      exact .join y hy (by simpa using hserving)
  | returned won => cases h

theorem step_cases (s t : State) (a : Action) (h : step s a = some t) :
    s.fault = none ∧ Step s a t := by
  unfold step at h
  split at h
  · cases h
  next hf =>
    refine ⟨by simpa using hf,?_⟩
    cases a with
    | call target =>
      cases h
      exact .call target
    | fetch x =>
      obtain ⟨pc,hx,h⟩ := Option.bind_eq_some_iff.mp h
      obtain ⟨r,hr,h⟩ := Option.bind_eq_some_iff.mp h
      cases h
      exact fetch_cases s x pc r hx hr
    | deliver tag event =>
      simp only [act] at h
      split at h
      next hserving =>
        obtain ⟨r,hr,rfl⟩ := Option.map_eq_some_iff.mp h
        exact .deliver tag event r hserving hr
      next => cases h
    | drain =>
      simp only [act] at h
      split at h
      next hd =>
        cases h
        rw [Bool.and_eq_true] at hd
        exact .drain hd.1 hd.2
      next => cases h
    | shutdown =>
      cases h
      exact .shutdown
    | close y =>
      obtain ⟨pc,hy,h⟩ := Option.bind_eq_some_iff.mp h
      obtain ⟨⟨u,pc'⟩,hu,h⟩ := Option.bind_eq_some_iff.mp h
      cases h
      exact close_cases s u y pc pc' hy hu

end HurriCache.CoordinatorLifecycle
