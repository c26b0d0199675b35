import HurriCache.CoordinatorLifecycle
import Mathlib.Data.List.Chain

/-!
# The channel to the active coordinator

The cached stub is the last one made and leads to the active target; there is
no active target without a stub. Until the flag is raised a new channel is made
only for a change of the target. After `shutdown` has reset it the stub stays
gone, unless a caller had passed its check of the flag and not yet asked for
its stub as the flag was raised.
-/

set_option autoImplicit false

namespace HurriCache.CoordinatorChannels
open HurriCache.ClientTypes HurriCache.CoordinatorLifecycle HurriCache.PartialRun

def ShutdownPc.past : ShutdownPc → Bool
  | .closingQueue | .joining | .returned true => true
  | _ => false

structure Connected (s : State) : Prop where
  cached : ∀ stub, s.stub = some stub →
    s.channels.getLast? = some s.active_target ∧ stub+1 = s.channels.length
  idle : s.stub = none → s.active_target = []
  changes : s.shutdown = false → s.channels.IsChain (· ≠ ·)
  first : s.shutdown = false → s.stub = none → s.channels = []
  closers : s.shutdown = false → ∀ pc ∈ s.closers, pc = .exchanging

theorem initial_connected : Connected {} where
  cached := fun _ h => by cases h
  idle := fun _ => rfl
  changes := fun _ => List.IsChain.nil
  first := fun _ _ => rfl
  closers := fun _ _ h => absurd h List.not_mem_nil

theorem connected_same (s t : State) (hchannels : t.channels = s.channels)
    (hstub : t.stub = s.stub) (htarget : t.active_target = s.active_target)
    (hshutdown : t.shutdown = s.shutdown) (hclosers : t.closers = s.closers)
    (h : Connected s) : Connected t := by
  refine ⟨?_,?_,?_,?_,?_⟩
  · rw [hstub, hchannels, htarget]
    exact h.cached
  · rw [hstub, htarget]
    exact h.idle
  · rw [hshutdown, hchannels]
    exact h.changes
  · rw [hshutdown, hstub, hchannels]
    exact h.first
  · rw [hshutdown, hclosers]
    exact h.closers

theorem connected_raised (s t : State) (hshutdown : t.shutdown = true)
    (hchannels : t.channels = s.channels)
    (hstub : t.stub = none ∧ t.active_target = [] ∨
      t.stub = s.stub ∧ t.active_target = s.active_target)
    (h : Connected s) : Connected t := by
  refine ⟨?_,?_,fun hd => ?_,fun hd => ?_,fun hd => ?_⟩
  · intro stub ht
    rcases hstub with ⟨hnone,_⟩ | ⟨hs,htarget⟩
    · rw [hnone] at ht
      cases ht
    · rw [hchannels, htarget]
      exact h.cached stub (hs ▸ ht)
  · intro ht
    rcases hstub with ⟨_,hempty⟩ | ⟨hs,htarget⟩
    · exact hempty
    · rw [htarget]
      exact h.idle (hs ▸ ht)
  all_goals
    rw [hshutdown] at hd
    cases hd

theorem connected_connect (s : State) (target : Text)
    (hnew : ∀ stub, s.stub = some stub → s.active_target ≠ target) (h : Connected s) :
    Connected (s.newStub target) := by
  refine ⟨?_,fun hs => ?_,fun hd => ?_,fun _ hs => ?_,h.closers⟩
  · intro stub hs
    cases hs
    exact ⟨List.getLast?_concat,by simp [State.newStub]⟩
  · cases hs
  · refine List.isChain_append.mpr ⟨h.changes hd,List.isChain_singleton target,?_⟩
    intro last hlast new hmem
    have hnew' : new = target := by simpa [eq_comm] using hmem
    cases hstub : s.stub with
    | none =>
      rw [h.first hd hstub] at hlast
      cases hlast
    | some stub =>
      have hcached := (h.cached stub hstub).1
      rw [hcached] at hlast
      rw [hnew', ← Option.some.inj hlast]
      exact hnew stub hstub
  · cases hs

theorem raised_of_past (s : State) (y : ℕ) (pc : ShutdownPc) (hy : s.closers[y]? = some pc)
    (hpc : pc ≠ .exchanging) (h : Connected s) : s.shutdown = true := by
  by_contra hnot
  exact hpc (h.closers (by simpa using hnot) pc (List.mem_of_getElem? hy))

theorem step_connected (s t : State) (a : Action) (hs : Connected s) (h : step s a = some t) :
    Connected t := by
  obtain ⟨_,hstep⟩ := step_cases s t a h
  cases hstep with
  | call | refuse | check | reuse | lateStart | start | drain =>
    exact connected_same s _ rfl rfl rfl rfl rfl hs
  | connect x target _ hnew =>
    exact connected_same (s.newStub target) _ rfl rfl rfl rfl rfl
      (connected_connect s target hnew hs)
  | deliver tag event r _ _ => cases r <;> exact connected_same s _ rfl rfl rfl rfl rfl hs
  | shutdown =>
    refine ⟨hs.cached,hs.idle,hs.changes,hs.first,fun hd pc hpc => ?_⟩
    cases List.mem_append.mp hpc with
    | inl hold => exact hs.closers hd pc hold
    | inr hnew => exact List.mem_singleton.mp hnew
  | lose _ _ hd => exact connected_raised s _ hd rfl (Or.inr ⟨rfl,rfl⟩) hs
  | win => exact connected_raised s _ rfl rfl (Or.inr ⟨rfl,rfl⟩) hs
  | reset y hy =>
    exact connected_raised s _ (raised_of_past s y _ hy (by simp) hs) rfl (Or.inl ⟨rfl,rfl⟩) hs
  | closeQueue y hy | join y hy =>
    exact connected_raised s _ (raised_of_past s y _ hy (by simp) hs) rfl (Or.inr ⟨rfl,rfl⟩) hs

theorem run_connected (as : List Action) (s t : State) (hs : Connected s)
    (h : run step s as = some t) : Connected t :=
  run_invariant_of_meets step (fun _ _ => true) Connected
    (fun u a v _ hu hv => step_connected u v a hu hv) s t as (meets_true step s as) hs h

/-- No caller is about to ask for its stub, and where a thread is past the
reset the stub is gone. -/
structure Disconnecting (s : State) : Prop where
  raised : s.shutdown = true
  callers : ∀ target, .ensuring target ∉ s.callers
  gone : ∀ pc ∈ s.closers, ShutdownPc.past pc = true → s.stub = none

theorem callers_set (callers : List FetchPc) (x : ℕ) (pc : FetchPc)
    (hpc : ∀ target, pc ≠ .ensuring target) (h : ∀ target, .ensuring target ∉ callers) :
    ∀ target, .ensuring target ∉ callers.set x pc := by
  intro target hmem
  cases List.mem_or_eq_of_mem_set hmem with
  | inl hold => exact h target hold
  | inr he => exact hpc target he.symm

theorem gone_set (s : State) (y : ℕ) (pc pc' : ShutdownPc) (hy : s.closers[y]? = some pc)
    (hpast : ShutdownPc.past pc' = true → ShutdownPc.past pc = true)
    (h : ∀ pc ∈ s.closers, ShutdownPc.past pc = true → s.stub = none) :
    ∀ p ∈ s.closers.set y pc', ShutdownPc.past p = true → s.stub = none := by
  intro p hp hpp
  cases List.mem_or_eq_of_mem_set hp with
  | inl hold => exact h p hold hpp
  | inr he => exact h pc (List.mem_of_getElem? hy) (hpast (he ▸ hpp))

theorem step_disconnecting (s t : State) (a : Action) (hs : Disconnecting s)
    (h : step s a = some t) : Disconnecting t := by
  obtain ⟨_,hstep⟩ := step_cases s t a h
  have hensuring : ∀ (x : ℕ) (target : Text), s.callers[x]? ≠ some (.ensuring target) :=
    fun x target hx => hs.callers target (List.mem_of_getElem? hx)
  cases hstep with
  | call target =>
    refine ⟨hs.raised,fun other hmem => ?_,hs.gone⟩
    cases List.mem_append.mp hmem with
    | inl hold => exact hs.callers other hold
    | inr hnew => cases List.mem_singleton.mp hnew
  | refuse x _ _ _ | start x _ _ _ _ _ =>
    exact ⟨hs.raised,callers_set s.callers x _ (by simp) hs.callers,hs.gone⟩
  | check _ _ _ hd => exact absurd (hs.raised.symm.trans hd) (by simp)
  | reuse x target _ hx | connect x target hx => exact absurd hx (hensuring x target)
  | lateStart | drain => exact ⟨hs.raised,hs.callers,hs.gone⟩
  | deliver tag event r _ _ => cases r <;> exact ⟨hs.raised,hs.callers,hs.gone⟩
  | shutdown =>
    refine ⟨hs.raised,hs.callers,fun pc hpc hpast => ?_⟩
    cases List.mem_append.mp hpc with
    | inl hold => exact hs.gone pc hold hpast
    | inr hnew =>
      rw [List.mem_singleton.mp hnew] at hpast
      cases hpast
  | lose y hy =>
    exact ⟨hs.raised,hs.callers,gone_set s y _ _ hy (by simp [ShutdownPc.past]) hs.gone⟩
  | win _ _ hd => exact absurd (hs.raised.symm.trans hd) (by simp)
  | reset => exact ⟨hs.raised,hs.callers,fun _ _ _ => rfl⟩
  | closeQueue y hy => exact ⟨hs.raised,hs.callers,gone_set s y _ _ hy (fun _ => rfl) hs.gone⟩
  | join y hy => exact ⟨hs.raised,hs.callers,gone_set s y _ _ hy (fun _ => rfl) hs.gone⟩

theorem step_close (s t : State) (y : ℕ) (pc pc' : ShutdownPc) (hfault : s.fault = none)
    (hy : s.closers[y]? = some pc) (h : closeStep s pc = some (t,pc')) :
    step s (.close y) = some { t with closers := t.closers.set y pc' } := by
  rw [step, if_neg (by simp [hfault]), act, hy]
  simp [h]

theorem revives (s : State) (x y : ℕ) (target : Text) (hfault : s.fault = none)
    (hshutdown : s.shutdown = false) (hy : s.closers[y]? = some .exchanging)
    (hx : s.callers[x]? = some (.ensuring target)) :
    ∃ t, run step s [.close y,.close y,.fetch x] = some t ∧
      t.closers[y]? = some .closingQueue ∧ t.stub ≠ none := by
  obtain ⟨hlt,_⟩ := List.getElem?_eq_some_iff.mp hy
  let raised : State := { s with shutdown := true, closers := s.closers.set y .resetting }
  let reset : State := { raised with
    stub := none
    active_target := []
    closers := raised.closers.set y .closingQueue }
  have hraise : step s (.close y) = some raised :=
    step_close s { s with shutdown := true } y _ _ hfault hy
      (by simp only [closeStep, hshutdown]; rfl)
  have hreset : step raised (.close y) = some reset :=
    step_close raised { raised with stub := none, active_target := [] } y .resetting .closingQueue
      hfault (List.getElem?_set_self hlt) rfl
  have hfetch : step reset (.fetch x) = some (afterFetch reset x
      (.ok (reset.newStub target,.starting target reset.channels.length))) := by
    rw [step, if_neg (by simp [reset, raised, hfault]), act, show reset.callers[x]? = _ from hx]
    rfl
  refine ⟨_,by rw [run_step step s _ _ _ hraise, run_step step raised _ _ _ hreset,
    run_step step reset _ _ _ hfetch, run],?_,by simp [afterFetch, State.newStub]⟩
  exact List.getElem?_set_self (by simpa [raised] using hlt)

/-- The stub that is kept, and what the end of the client makes of it. -/
theorem channel_follows (actions : List Action) (s : State)
    (hrun : run step {} actions = some s) :
    (∀ stub, s.stub = some stub →
        s.channels.getLast? = some s.getActiveTarget ∧ stub+1 = s.channels.length) ∧
      (s.stub = none → s.getActiveTarget = []) ∧
      (s.shutdown = false → s.channels.IsChain (· ≠ ·)) ∧
      ∀ y, s.fault = none → s.shutdown = false → s.closers[y]? = some .exchanging →
        ((∀ bs t, run step s (.close y::bs) = some t →
            (∃ pc, t.closers[y]? = some pc ∧ ShutdownPc.past pc = true) → t.stub = none) ↔
          ∀ target, .ensuring target ∉ s.callers) := by
  have hs := run_connected actions {} s initial_connected hrun
  refine ⟨hs.cached,hs.idle,hs.changes,fun y hfault hshutdown hy => ⟨?_,?_⟩⟩
  · intro hgone target hmem
    obtain ⟨x,hx⟩ := List.mem_iff_getElem?.mp hmem
    obtain ⟨t,ht,hpast,hstub⟩ := revives s x y target hfault hshutdown hy hx
    exact hstub (hgone _ t ht ⟨_,hpast,rfl⟩)
  · intro hcallers bs t ht hpast
    obtain ⟨u,hu,ht⟩ := (run_cons_eq_some step s t _ bs).mp ht
    have hfirst : Disconnecting u := by
      obtain ⟨_,hstep⟩ := step_cases s u _ hu
      cases hstep with
      | lose _ _ hd => exact absurd (hshutdown.symm.trans hd) (by simp)
      | win _ hw _ =>
        refine ⟨rfl,hcallers,fun pc hpc hp => ?_⟩
        cases List.mem_or_eq_of_mem_set hpc with
        | inl hold =>
          rw [hs.closers hshutdown pc hold] at hp
          cases hp
        | inr he =>
          rw [he] at hp
          cases hp
      | reset _ hr => exact absurd (hy.symm.trans hr) (by simp)
      | closeQueue _ hr => exact absurd (hy.symm.trans hr) (by simp)
      | join _ hr _ => exact absurd (hy.symm.trans hr) (by simp)
    have hlast := run_invariant_of_meets step (fun _ _ => true) Disconnecting
      (fun v a w _ hv hw => step_disconnecting v w a hv hw) u t bs (meets_true step u bs) hfirst ht
    obtain ⟨pc,hpc,hp⟩ := hpast
    exact hlast.gone pc (List.mem_of_getElem? hpc) hp

def oneFetch : List Action := [.call ['a'],.fetch 0,.fetch 0,.shutdown]

theorem channel_follows_fetch : ∃ s, run step {} oneFetch = some s ∧
    s.channels.getLast? = some s.getActiveTarget ∧
    ∀ bs t, run step s (.close 0::bs) = some t →
      (∃ pc, t.closers[0]? = some pc ∧ ShutdownPc.past pc = true) → t.stub = none := by
  refine ⟨_,rfl,?_⟩
  obtain ⟨hcached,_,_,hgone⟩ := channel_follows oneFetch _ rfl
  refine ⟨(hcached 0 rfl).1,(hgone 0 rfl rfl rfl).mpr (fun target hmem => ?_)⟩
  cases List.mem_singleton.mp hmem

end HurriCache.CoordinatorChannels
