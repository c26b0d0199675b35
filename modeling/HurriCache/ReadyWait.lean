import HurriCache.Monitor
import HurriCache.PartialRun

/-!
# Waiting for the first topology

`waitReady` with the mutex and the condition variable that it shares with the
refreshes and the shutdown of a smart client, one access to a shared member at
a time. Whether an update of the topology succeeds is a choice of the
environment, and so are spurious wake-ups and timeouts.
-/

set_option autoImplicit false

namespace HurriCache.ReadyWait
open HurriCache.Monitor

inductive WaitResult where
  | ready
  | shutDown
  | bootTimeout

/-- `timed_out` says that `wait_for` tests its predicate for the last time. -/
inductive WaitPc where
  | checking
  | locking (timed_out : Bool)
  | testingReady (timed_out : Bool)
  | testingShutdown (timed_out : Bool)
  | blocking
  | blocked
  | rechecking (timed_out : Bool)
  | throwing (timed_out : Bool)
  | returned (result : WaitResult)

inductive RefreshPc where
  | looping
  | updating
  | locking
  | storing
  | unlocking
  | notifying
  | ended

inductive ClosePc where
  | requesting
  | stopping
  | joining
  | locking
  | storing
  | unlocking
  | notifying
  | ended

/-- The refresh thread of the client is the periodic one. -/
inductive Thread where
  | waiter (pc : WaitPc)
  | refresher (periodic : Bool) (pc : RefreshPc)
  | closer (pc : ClosePc)

structure Shared where
  is_ready : Bool := false
  shutdown_requested : Bool := false
  stop_requested : Bool := false
  holder : Option ℕ := none

structure State where
  shared : Shared := {}
  threads : List Thread := [Thread.refresher true .looping]

section Steps

def waitStep (i : ℕ) (s : Shared) : WaitPc → Option (Shared × WaitPc)
  | .checking =>
    if s.is_ready then some (s,.returned .ready) else some (s,.locking false)
  | .locking timed_out =>
    if s.holder.isSome then none else some ({ s with holder := some i },.testingReady timed_out)
  | .testingReady timed_out =>
    if s.is_ready then some (s,.rechecking timed_out) else some (s,.testingShutdown timed_out)
  | .testingShutdown timed_out =>
    if s.shutdown_requested then some (s,.rechecking timed_out)
    else if timed_out then some (s,.rechecking true)
    else some (s,.blocking)
  -- the mutex is released and the thread blocks in one step
  | .blocking => some ({ s with holder := none },.blocked)
  | .blocked => none
  | .rechecking timed_out =>
    if s.is_ready then some ({ s with holder := none },.returned .ready)
    else some (s,.throwing timed_out)
  | .throwing _ =>
    some ({ s with holder := none },
      .returned (if s.shutdown_requested then .shutDown else .bootTimeout))
  | .returned _ => none

def afterRefresh (periodic : Bool) : RefreshPc :=
  if periodic then .looping else .ended

def refreshStep (i : ℕ) (periodic installed : Bool) (s : Shared) :
    RefreshPc → Option (Shared × RefreshPc)
  | .looping => if s.stop_requested then some (s,.ended) else some (s,.updating)
  | .updating => some (s,if installed then .locking else afterRefresh periodic)
  | .locking => if s.holder.isSome then none else some ({ s with holder := some i },.storing)
  | .storing => some ({ s with is_ready := true },.unlocking)
  | .unlocking => some ({ s with holder := none },.notifying)
  | .notifying => some (s,afterRefresh periodic)
  | .ended => none

/-- `shutdown` joins the periodic thread before it locks the mutex. -/
def closeStep (i : ℕ) (joinable : Bool) (s : Shared) : ClosePc → Option (Shared × ClosePc)
  | .requesting =>
    if s.shutdown_requested then some (s,.ended)
    else some ({ s with shutdown_requested := true },.stopping)
  | .stopping => some ({ s with stop_requested := true },.joining)
  | .joining => if joinable then some (s,.locking) else none
  | .locking => if s.holder.isSome then none else some ({ s with holder := some i },.storing)
  | .storing => some ({ s with is_ready := false },.unlocking)
  | .unlocking => some ({ s with holder := none },.notifying)
  | .notifying => some (s,.ended)
  | .ended => none

def periodicEnded (threads : List Thread) : Bool :=
  match threads with
  | .refresher true .ended::_ => true
  | _ => false

def threadStep (i : ℕ) (choice : Bool) (s : State) : Thread → Option (Shared × Thread)
  | .waiter pc => (waitStep i s.shared pc).map (fun r => (r.1,.waiter r.2))
  | .refresher periodic pc =>
    (refreshStep i periodic choice s.shared pc).map (fun r => (r.1,.refresher periodic r.2))
  | .closer pc =>
    (closeStep i (periodicEnded s.threads) s.shared pc).map (fun r => (r.1,.closer r.2))

def WaitPc.phase : WaitPc → Phase
  | .testingReady _ => .inside
  | .testingShutdown _ => .inside
  | .rechecking _ => .inside
  | .throwing _ => .inside
  | .blocking => .refused
  | .blocked => .blocked
  | _ => .away

def RefreshPc.phase : RefreshPc → Phase
  | .storing => .publishing
  | .unlocking => .publishing
  | .notifying => .notifying
  | _ => .away

def ClosePc.phase : ClosePc → Phase
  | .stopping => .announcing
  | .joining => .announcing
  | .locking => .announcing
  | .storing => .publishing
  | .unlocking => .publishing
  | .notifying => .notifying
  | _ => .away

def Thread.phase : Thread → Phase
  | .waiter pc => pc.phase
  | .refresher _ pc => pc.phase
  | .closer pc => pc.phase

def awaken (timed_out : Bool) : Thread → Thread
  | .waiter .blocked => .waiter (.locking timed_out)
  | t => t

def notifies (t : Thread) : Bool :=
  match t.phase with
  | .notifying => true
  | _ => false

inductive Action where
  | step (i : ℕ) (choice : Bool)
  | wake (i : ℕ) (timed_out : Bool)
  | execute
  | refresh
  | close

def after (threads : List Thread) (i : ℕ) (t t' : Thread) : List Thread :=
  (if notifies t then threads.map (awaken false) else threads).set i t'

def act (s : State) : Action → Option State
  | .step i choice => do
    let t ← s.threads[i]?
    let (shared,t') ← threadStep i choice s t
    some ⟨shared,after s.threads i t t'⟩
  | .wake i timed_out =>
    match s.threads[i]? with
    | some (.waiter .blocked) =>
      some { s with threads := s.threads.set i (.waiter (.locking timed_out)) }
    | _ => none
  | .execute => some { s with threads := s.threads++[.waiter .checking] }
  | .refresh => some { s with threads := s.threads++[.refresher false .updating] }
  | .close => some { s with threads := s.threads++[.closer .requesting] }

end Steps

def phaseOf (threads : List Thread) (i : ℕ) : Phase := (threads[i]?.map Thread.phase).getD .away

def Shared.awaited (s : Shared) : Prop := s.is_ready = true ∨ s.shutdown_requested = true

inductive Stepped (i : ℕ) (s : State) : Thread → Shared → Thread → Prop where
  | sawReady (h : s.shared.is_ready = true) :
    Stepped i s (.waiter .checking) s.shared (.waiter (.returned .ready))
  | sawUnready (h : s.shared.is_ready = false) :
    Stepped i s (.waiter .checking) s.shared (.waiter (.locking false))
  | lockWait (timed_out : Bool) (h : s.shared.holder = none) :
    Stepped i s (.waiter (.locking timed_out)) { s.shared with holder := some i }
      (.waiter (.testingReady timed_out))
  | testReady (timed_out : Bool) (h : s.shared.is_ready = true) :
    Stepped i s (.waiter (.testingReady timed_out)) s.shared (.waiter (.rechecking timed_out))
  | testUnready (timed_out : Bool) (h : s.shared.is_ready = false) :
    Stepped i s (.waiter (.testingReady timed_out)) s.shared
      (.waiter (.testingShutdown timed_out))
  | testShutdown (timed_out : Bool) (h : s.shared.shutdown_requested = true) :
    Stepped i s (.waiter (.testingShutdown timed_out)) s.shared
      (.waiter (.rechecking timed_out))
  | giveUp (h : s.shared.shutdown_requested = false) :
    Stepped i s (.waiter (.testingShutdown true)) s.shared (.waiter (.rechecking true))
  | refuse (h : s.shared.shutdown_requested = false) :
    Stepped i s (.waiter (.testingShutdown false)) s.shared (.waiter .blocking)
  | block :
    Stepped i s (.waiter .blocking) { s.shared with holder := none } (.waiter .blocked)
  | recheckReady (timed_out : Bool) (h : s.shared.is_ready = true) :
    Stepped i s (.waiter (.rechecking timed_out)) { s.shared with holder := none }
      (.waiter (.returned .ready))
  | recheckUnready (timed_out : Bool) (h : s.shared.is_ready = false) :
    Stepped i s (.waiter (.rechecking timed_out)) s.shared (.waiter (.throwing timed_out))
  | throwShutDown (timed_out : Bool) (h : s.shared.shutdown_requested = true) :
    Stepped i s (.waiter (.throwing timed_out)) { s.shared with holder := none }
      (.waiter (.returned .shutDown))
  | throwTimeout (timed_out : Bool) (h : s.shared.shutdown_requested = false) :
    Stepped i s (.waiter (.throwing timed_out)) { s.shared with holder := none }
      (.waiter (.returned .bootTimeout))
  | loop (periodic : Bool) (h : s.shared.stop_requested = false) :
    Stepped i s (.refresher periodic .looping) s.shared (.refresher periodic .updating)
  | stop (periodic : Bool) (h : s.shared.stop_requested = true) :
    Stepped i s (.refresher periodic .looping) s.shared (.refresher periodic .ended)
  | install (periodic : Bool) :
    Stepped i s (.refresher periodic .updating) s.shared (.refresher periodic .locking)
  | fail (periodic : Bool) :
    Stepped i s (.refresher periodic .updating) s.shared
      (.refresher periodic (afterRefresh periodic))
  | lockRefresh (periodic : Bool) (h : s.shared.holder = none) :
    Stepped i s (.refresher periodic .locking) { s.shared with holder := some i }
      (.refresher periodic .storing)
  | storeReady (periodic : Bool) :
    Stepped i s (.refresher periodic .storing) { s.shared with is_ready := true }
      (.refresher periodic .unlocking)
  | unlockRefresh (periodic : Bool) :
    Stepped i s (.refresher periodic .unlocking) { s.shared with holder := none }
      (.refresher periodic .notifying)
  | notifyRefresh (periodic : Bool) :
    Stepped i s (.refresher periodic .notifying) s.shared
      (.refresher periodic (afterRefresh periodic))
  | requestAgain (h : s.shared.shutdown_requested = true) :
    Stepped i s (.closer .requesting) s.shared (.closer .ended)
  | request (h : s.shared.shutdown_requested = false) :
    Stepped i s (.closer .requesting) { s.shared with shutdown_requested := true }
      (.closer .stopping)
  | requestStop :
    Stepped i s (.closer .stopping) { s.shared with stop_requested := true } (.closer .joining)
  | join (h : periodicEnded s.threads = true) :
    Stepped i s (.closer .joining) s.shared (.closer .locking)
  | lockClose (h : s.shared.holder = none) :
    Stepped i s (.closer .locking) { s.shared with holder := some i } (.closer .storing)
  | storeUnready :
    Stepped i s (.closer .storing) { s.shared with is_ready := false } (.closer .unlocking)
  | unlockClose :
    Stepped i s (.closer .unlocking) { s.shared with holder := none } (.closer .notifying)
  | notifyClose :
    Stepped i s (.closer .notifying) s.shared (.closer .ended)

section Lemmas

variable {i : ℕ} {choice : Bool} {s : State} {t t' : Thread} {shared : Shared}

theorem waitStep_cases {pc pc' : WaitPc} (h : waitStep i s.shared pc = some (shared,pc')) :
    Stepped i s (.waiter pc) shared (.waiter pc') := by
  cases pc with
  | checking =>
    by_cases hr : s.shared.is_ready = true
    · rw [waitStep, if_pos hr] at h
      cases h
      exact .sawReady hr
    · rw [waitStep, if_neg hr] at h
      cases h
      exact .sawUnready (by simpa using hr)
  | locking timed_out =>
    by_cases hh : s.shared.holder.isSome = true
    · rw [waitStep, if_pos hh] at h
      cases h
    · rw [waitStep, if_neg hh] at h
      cases h
      exact .lockWait timed_out (by simpa using hh)
  | testingReady timed_out =>
    by_cases hr : s.shared.is_ready = true
    · rw [waitStep, if_pos hr] at h
      cases h
      exact .testReady timed_out hr
    · rw [waitStep, if_neg hr] at h
      cases h
      exact .testUnready timed_out (by simpa using hr)
  | testingShutdown timed_out =>
    by_cases hd : s.shared.shutdown_requested = true
    · rw [waitStep, if_pos hd] at h
      cases h
      exact .testShutdown timed_out hd
    · rw [waitStep, if_neg hd] at h
      cases timed_out <;> cases h
      · exact .refuse (by simpa using hd)
      · exact .giveUp (by simpa using hd)
  | blocking =>
    cases h
    exact .block
  | blocked => cases h
  | rechecking timed_out =>
    by_cases hr : s.shared.is_ready = true
    · rw [waitStep, if_pos hr] at h
      cases h
      exact .recheckReady timed_out hr
    · rw [waitStep, if_neg hr] at h
      cases h
      exact .recheckUnready timed_out (by simpa using hr)
  | throwing timed_out =>
    by_cases hd : s.shared.shutdown_requested = true
    · rw [waitStep, if_pos hd] at h
      cases h
      exact .throwShutDown timed_out hd
    · rw [waitStep, if_neg hd] at h
      cases h
      exact .throwTimeout timed_out (by simpa using hd)
  | returned result => cases h

theorem refreshStep_cases {periodic : Bool} {pc pc' : RefreshPc}
    (h : refreshStep i periodic choice s.shared pc = some (shared,pc')) :
    Stepped i s (.refresher periodic pc) shared (.refresher periodic pc') := by
  cases pc with
  | looping =>
    by_cases hs : s.shared.stop_requested = true
    · rw [refreshStep, if_pos hs] at h
      cases h
      exact .stop periodic hs
    · rw [refreshStep, if_neg hs] at h
      cases h
      exact .loop periodic (by simpa using hs)
  | updating =>
    cases choice <;> cases h
    · exact .fail periodic
    · exact .install periodic
  | locking =>
    by_cases hh : s.shared.holder.isSome = true
    · rw [refreshStep, if_pos hh] at h
      cases h
    · rw [refreshStep, if_neg hh] at h
      cases h
      exact .lockRefresh periodic (by simpa using hh)
  | storing =>
    cases h
    exact .storeReady periodic
  | unlocking =>
    cases h
    exact .unlockRefresh periodic
  | notifying =>
    cases h
    exact .notifyRefresh periodic
  | ended => cases h

theorem closeStep_cases {pc pc' : ClosePc}
    (h : closeStep i (periodicEnded s.threads) s.shared pc = some (shared,pc')) :
    Stepped i s (.closer pc) shared (.closer pc') := by
  cases pc with
  | requesting =>
    by_cases hd : s.shared.shutdown_requested = true
    · rw [closeStep, if_pos hd] at h
      cases h
      exact .requestAgain hd
    · rw [closeStep, if_neg hd] at h
      cases h
      exact .request (by simpa using hd)
  | stopping =>
    cases h
    exact .requestStop
  | joining =>
    by_cases hj : periodicEnded s.threads = true
    · rw [closeStep, if_pos hj] at h
      cases h
      exact .join hj
    · rw [closeStep, if_neg hj] at h
      cases h
  | locking =>
    by_cases hh : s.shared.holder.isSome = true
    · rw [closeStep, if_pos hh] at h
      cases h
    · rw [closeStep, if_neg hh] at h
      cases h
      exact .lockClose (by simpa using hh)
  | storing =>
    cases h
    exact .storeUnready
  | unlocking =>
    cases h
    exact .unlockClose
  | notifying =>
    cases h
    exact .notifyClose
  | ended => cases h

theorem threadStep_cases (h : threadStep i choice s t = some (shared,t')) :
    Stepped i s t shared t' := by
  cases t with
  | waiter pc =>
    obtain ⟨⟨sh,pc'⟩,hstep,he⟩ := Option.map_eq_some_iff.mp h
    cases he
    exact waitStep_cases hstep
  | refresher periodic pc =>
    obtain ⟨⟨sh,pc'⟩,hstep,he⟩ := Option.map_eq_some_iff.mp h
    cases he
    exact refreshStep_cases hstep
  | closer pc =>
    obtain ⟨⟨sh,pc'⟩,hstep,he⟩ := Option.map_eq_some_iff.mp h
    cases he
    exact closeStep_cases hstep

@[simp] theorem afterRefresh_phase (periodic : Bool) : (afterRefresh periodic).phase = .away := by
  cases periodic <;> rfl

theorem Stepped.holder (h : Stepped i s t shared t')
    (hi : t.phase.holds = true → s.shared.holder = some i) :
    shared.holder = if t'.phase.holds then some i else
      if t.phase.holds then none else s.shared.holder := by
  cases h with
  | fail periodic => cases periodic <;> rfl
  | notifyRefresh periodic => cases periodic <;> rfl
  | _ => simp_all [Thread.phase, WaitPc.phase, RefreshPc.phase, ClosePc.phase, Phase.holds]

theorem Stepped.frame (h : Stepped i s t shared t') :
    (t.phase ≠ .publishing → shared.is_ready = s.shared.is_ready) ∧
    (s.shared.shutdown_requested = true → shared.shutdown_requested = true) ∧
    (s.shared.stop_requested = true → shared.stop_requested = true) := by
  cases h <;> simp_all [Thread.phase, RefreshPc.phase, ClosePc.phase]

/-- What a step does around the condition variable, when a thread that tests
`shutdown_requested_` has seen that the client is not ready. -/
theorem Stepped.move {free : Prop} (h : Stepped i s t shared t')
    (hf : ∀ b, t = .waiter (.testingShutdown b) → s.shared.is_ready = false)
    (hfree : s.shared.holder = none → free) :
    (notifies t = true ∧ t.phase = .notifying ∧ t'.phase = .away ∧ shared = s.shared) ∨
      (notifies t = false ∧ Move s.shared.awaited shared.awaited free t.phase t'.phase) := by
  cases h with
  | sawReady _ => exact Or.inr ⟨rfl,.stay _ id⟩
  | sawUnready _ => exact Or.inr ⟨rfl,.stay _ id⟩
  | lockWait _ h => exact Or.inr ⟨rfl,.enter (hfree h) id⟩
  | testReady _ _ => exact Or.inr ⟨rfl,.stay _ id⟩
  | testUnready _ _ => exact Or.inr ⟨rfl,.stay _ id⟩
  | testShutdown _ _ => exact Or.inr ⟨rfl,.stay _ id⟩
  | giveUp _ => exact Or.inr ⟨rfl,.stay _ id⟩
  | refuse h =>
    refine Or.inr ⟨rfl,.refuse ?_⟩
    rintro (hr | hd)
    · rw [hf false rfl] at hr
      cases hr
    · rw [h] at hd
      cases hd
  | block => exact Or.inr ⟨rfl,.block id⟩
  | recheckReady _ _ => exact Or.inr ⟨rfl,.leave id⟩
  | recheckUnready _ _ => exact Or.inr ⟨rfl,.stay _ id⟩
  | throwShutDown _ _ => exact Or.inr ⟨rfl,.leave id⟩
  | throwTimeout _ _ => exact Or.inr ⟨rfl,.leave id⟩
  | loop _ _ => exact Or.inr ⟨rfl,.stay _ id⟩
  | stop _ _ => exact Or.inr ⟨rfl,.stay _ id⟩
  | install _ => exact Or.inr ⟨rfl,.stay _ id⟩
  | fail periodic =>
    have haway := afterRefresh_phase periodic
    exact Or.inr ⟨rfl,by rw [Thread.phase, Thread.phase, haway]; exact .stay _ id⟩
  | lockRefresh _ h => exact Or.inr ⟨rfl,.seize (hfree h) id⟩
  | storeReady _ => exact Or.inr ⟨rfl,.publish⟩
  | unlockRefresh _ => exact Or.inr ⟨rfl,.release id⟩
  | notifyRefresh periodic => exact Or.inl ⟨rfl,rfl,afterRefresh_phase periodic,rfl⟩
  | requestAgain _ => exact Or.inr ⟨rfl,.stay _ id⟩
  | request _ => exact Or.inr ⟨rfl,.announce⟩
  | requestStop => exact Or.inr ⟨rfl,.stay _ id⟩
  | join _ => exact Or.inr ⟨rfl,.stay _ id⟩
  | lockClose h => exact Or.inr ⟨rfl,.follow (hfree h) id⟩
  | storeUnready => exact Or.inr ⟨rfl,.publish⟩
  | unlockClose => exact Or.inr ⟨rfl,.release id⟩
  | notifyClose => exact Or.inl ⟨rfl,rfl,rfl,rfl⟩

end Lemmas

end HurriCache.ReadyWait
