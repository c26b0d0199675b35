import HurriCache.ReadyWait

/-!
# No wake-up is lost

A call that waits for the first topology is woken by the refresh that
installs it and by the shutdown, in any interleaving and for any number of
calls, refreshes and shutdowns. The shutdown flag is stored outside the mutex,
but before the shutdown locks it, which is what a blocked call needs.
-/

set_option autoImplicit false

namespace HurriCache.ReadyWakeups
open HurriCache.Monitor HurriCache.ReadyWait

def Fits (s : Shared) : Thread → Prop
  | .waiter (.testingShutdown _) => s.is_ready = false
  | .waiter (.rechecking false) => s.awaited
  | .waiter (.throwing false) => s.shutdown_requested = true
  | .waiter (.returned .shutDown) => s.shutdown_requested = true
  | .refresher periodic .ended => periodic = true → s.stop_requested = true
  | .closer pc => pc ≠ .requesting → s.shutdown_requested = true
  | _ => True

structure Consistent (s : State) : Prop where
  covered : Covered s.shared.awaited (phaseOf s.threads)
  holder : ∀ i, (phaseOf s.threads i).holds = true ↔ s.shared.holder = some i
  fits : ∀ t ∈ s.threads, Fits s.shared t
  stopped : s.shared.stop_requested = true → s.shared.shutdown_requested = true
  periodic : ∃ pc threads, s.threads = .refresher true pc::threads

theorem start_consistent : Consistent {} where
  covered := {
    exclusive := fun i j hi _ => by
      cases i <;> cases hi
    refused := fun hp => by rcases hp with hp | hp <;> cases hp
    blocked := fun hp => by rcases hp with hp | hp <;> cases hp }
  holder := fun i => by
    refine ⟨fun hi => ?_,nofun⟩
    cases i <;> cases hi
  fits := by
    intro t ht
    obtain rfl := List.mem_singleton.mp ht
    trivial
  stopped := nofun
  periodic := ⟨_,_,rfl⟩

section Phases

variable (threads : List Thread) (i j : ℕ)

theorem phaseOf_get (t : Thread) (h : threads[i]? = some t) : phaseOf threads i = t.phase := by
  rw [phaseOf, h]
  rfl

theorem phaseOf_set (t t' : Thread) (h : threads[i]? = some t) :
    phaseOf (threads.set i t') i = t'.phase ∧
      ∀ j, j ≠ i → phaseOf (threads.set i t') j = phaseOf threads j := by
  obtain ⟨hi,-⟩ := List.getElem?_eq_some_iff.mp h
  refine ⟨by simp [phaseOf, hi],fun j hj => ?_⟩
  rw [phaseOf, List.getElem?_set_ne (Ne.symm hj)]
  rfl

theorem awaken_phase (timed_out : Bool) (t : Thread) :
    (awaken timed_out t).phase = t.phase.afterNotify := by
  cases t with
  | waiter pc => cases pc <;> rfl
  | refresher periodic pc => cases pc <;> rfl
  | closer pc => cases pc <;> rfl

theorem phaseOf_awaken (timed_out : Bool) :
    phaseOf (threads.map (awaken timed_out)) j = (phaseOf threads j).afterNotify := by
  rw [phaseOf, phaseOf, List.getElem?_map]
  cases threads[j]? with
  | none => rfl
  | some t => exact awaken_phase timed_out t

theorem phaseOf_append (t : Thread) (h : t.phase = .away) :
    phaseOf (threads++[t]) = phaseOf threads := by
  ext j
  by_cases hj : j < threads.length
  · rw [phaseOf, List.getElem?_append_left hj]
    rfl
  · have hnone : threads[j]? = none := List.getElem?_eq_none (by omega)
    rw [phaseOf, phaseOf, List.getElem?_append_right (by omega), hnone]
    cases j-threads.length with
    | zero => exact h
    | succ k => rfl

end Phases

section After

variable {threads : List Thread} {i : ℕ} {t t' : Thread}

theorem after_quiet (h : notifies t = false) : after threads i t t' = threads.set i t' := by
  rw [after, if_neg (by simp [h])]

theorem after_notifies (h : notifies t = true) :
    after threads i t t' = (threads.map (awaken false)).set i t' := by
  rw [after, if_pos h]

theorem after_self (h : threads[i]? = some t) : (after threads i t t')[i]? = some t' := by
  have hlt : i < threads.length := (List.getElem?_eq_some_iff.mp h).1
  rw [after, List.getElem?_set_self]
  split
  · simpa using hlt
  · exact hlt

theorem after_other {j : ℕ} {u : Thread} (hji : j ≠ i) (hj : (after threads i t t')[j]? = some u) :
    ∃ w, threads[j]? = some w ∧ (u = awaken false w ∨ u = w) := by
  rw [after, List.getElem?_set_ne (Ne.symm hji)] at hj
  by_cases hn : notifies t = true
  · rw [if_pos hn, List.getElem?_map] at hj
    obtain ⟨w,hw,rfl⟩ := Option.map_eq_some_iff.mp hj
    exact ⟨w,hw,Or.inl rfl⟩
  · rw [if_neg hn] at hj
    exact ⟨u,hj,Or.inr rfl⟩

theorem phaseOf_after (h : threads[i]? = some t) : phaseOf (after threads i t t') i = t'.phase :=
  phaseOf_get _ i t' (after_self h)

theorem afterNotify_holds (x : Phase) : x.afterNotify.holds = x.holds := by
  cases x <;> rfl

theorem holds_after (h : threads[i]? = some t) (j : ℕ) (hj : j ≠ i) :
    (phaseOf (after threads i t t') j).holds = (phaseOf threads j).holds := by
  cases hn : notifies t with
  | true =>
    have hset := phaseOf_set (threads.map (awaken false)) i (awaken false t) t'
      (by rw [List.getElem?_map, h]; rfl)
    rw [after_notifies hn, hset.2 j hj, phaseOf_awaken, afterNotify_holds]
  | false => rw [after_quiet hn, (phaseOf_set threads i t t' h).2 j hj]

end After

section Facts

variable {i : ℕ} {s : State} {t t' : Thread} {shared : Shared}

theorem stepped_fits (h : Stepped i s t shared t') (hf : Fits s.shared t) :
    Fits shared t' := by
  cases h with
  | testReady b h => cases b with
    | false => exact Or.inl h
    | true => trivial
  | testUnready _ h => exact h
  | testShutdown b h => cases b with
    | false => exact Or.inr h
    | true => trivial
  | recheckUnready b h => cases b with
    | false =>
      rcases hf with hr | hd
      · rw [h] at hr
        cases hr
      · exact hd
    | true => trivial
  | throwShutDown _ h => exact h
  | stop periodic h => exact fun _ => h
  | fail periodic => cases periodic with
    | false => exact nofun
    | true => trivial
  | notifyRefresh periodic => cases periodic with
    | false => exact nofun
    | true => trivial
  | requestAgain h => exact fun _ => h
  | request _ => exact fun _ => rfl
  | requestStop => exact fun _ => hf (by rintro ⟨⟩)
  | join _ => exact fun _ => hf (by rintro ⟨⟩)
  | lockClose _ => exact fun _ => hf (by rintro ⟨⟩)
  | storeUnready => exact fun _ => hf (by rintro ⟨⟩)
  | unlockClose => exact fun _ => hf (by rintro ⟨⟩)
  | notifyClose => exact fun _ => hf (by rintro ⟨⟩)
  | _ => trivial

theorem stepped_stopped (h : Stepped i s t shared t') (hf : Fits s.shared t)
    (hs : s.shared.stop_requested = true → s.shared.shutdown_requested = true) :
    shared.stop_requested = true → shared.shutdown_requested = true := by
  cases h with
  | request _ => exact fun _ => rfl
  | requestStop => exact fun _ => hf (by rintro ⟨⟩)
  | _ => exact hs

theorem fits_other (u : Thread) (hf : Fits s.shared u)
    (hr : u.phase.holds = true → shared.is_ready = s.shared.is_ready)
    (hd : s.shared.shutdown_requested = true → shared.shutdown_requested = true)
    (hs : s.shared.stop_requested = true → shared.stop_requested = true) : Fits shared u := by
  cases u with
  | waiter pc => cases pc with
    | testingShutdown b => exact (hr rfl).trans hf
    | rechecking b => cases b with
      | false => exact hf.imp (fun h => (hr rfl).trans h) hd
      | true => trivial
    | throwing b => cases b with
      | false => exact hd hf
      | true => trivial
    | returned r => cases r with
      | shutDown => exact hd hf
      | _ => trivial
    | _ => trivial
  | refresher periodic pc => cases pc with
    | ended => exact fun hp => hs (hf hp)
    | _ => trivial
  | closer pc => exact fun h => hd (hf h)

theorem awaken_fits (timed_out : Bool) (u : Thread) (hf : Fits shared u) :
    Fits shared (awaken timed_out u) := by
  cases u with
  | waiter pc => cases pc <;> exact hf
  | refresher periodic pc => exact hf
  | closer pc => exact hf

theorem stepped_periodic {pc : RefreshPc}
    (h : Stepped i s (.refresher true pc) shared t') : ∃ pc', t' = .refresher true pc' := by
  cases h <;> exact ⟨_,rfl⟩

end Facts

section Preservation

variable {i : ℕ} {s : State} {t t' : Thread} {shared : Shared}

theorem covered_step (hc : Consistent s) (ht : s.threads[i]? = some t)
    (h : Stepped i s t shared t') :
    Covered shared.awaited (phaseOf (after s.threads i t t')) := by
  have hi := phaseOf_get s.threads i t ht
  have hfits : ∀ b, t = .waiter (.testingShutdown b) → s.shared.is_ready = false := by
    rintro b rfl
    exact hc.fits _ (List.mem_of_getElem? ht)
  have hfree : s.shared.holder = none → Free (phaseOf s.threads) := by
    intro hnone j
    have hj := hc.holder j
    rw [hnone] at hj
    exact Bool.eq_false_iff.mpr (fun h => nomatch hj.mp h)
  rcases h.move hfits hfree with ⟨hn,hphase,haway,rfl⟩ | ⟨hn,hmove⟩
  · rw [after_notifies hn]
    have hset := phaseOf_set (s.threads.map (awaken false)) i (awaken false t) t'
      (by rw [List.getElem?_map, ht]; rfl)
    refine notify_covered hc.covered id (hi.trans hphase) (hset.1.trans haway) (fun j hj => ?_)
    rw [hset.2 j hj, phaseOf_awaken]
  · rw [after_quiet hn]
    have hset := phaseOf_set s.threads i t t' ht
    refine move_covered (i := i) hc.covered hset.2 ?_
    rw [hi, hset.1]
    exact hmove

theorem holder_step (hc : Consistent s) (ht : s.threads[i]? = some t)
    (h : Stepped i s t shared t') (j : ℕ) :
    (phaseOf (after s.threads i t t') j).holds = true ↔ shared.holder = some j := by
  have hi := hc.holder i
  rw [phaseOf_get s.threads i t ht] at hi
  have hown : phaseOf (after s.threads i t t') i = t'.phase := phaseOf_after ht
  rw [h.holder hi.mp]
  by_cases hj : j = i
  · subst hj
    rw [hown]
    by_cases h' : t'.phase.holds = true
    · simp [h']
    · by_cases h0 : t.phase.holds = true
      · simp [h', h0]
      · have hnot : s.shared.holder ≠ some j := fun hh => h0 (hi.mpr hh)
        simp [h', h0, hnot]
  · rw [holds_after ht j hj, hc.holder j]
    -- the mutex does not go from one thread to another in one step
    by_cases h' : t'.phase.holds = true
    · have hfree : s.shared.holder ≠ some j := by
        intro hh
        by_cases h0 : t.phase.holds = true
        · rw [hi.mp h0] at hh
          exact hj (Option.some.inj hh).symm
        · have hcov := covered_step hc ht h
          have hjh : (phaseOf (after s.threads i t t') j).holds = true := by
            rw [holds_after ht j hj]
            exact (hc.holder j).mpr hh
          exact hj (hcov.exclusive j i hjh (by rw [hown]; exact h'))
      simp [h', hfree, Ne.symm hj]
    · by_cases h0 : t.phase.holds = true
      · simp [h', h0, hi.mp h0, Ne.symm hj]
      · simp [h', h0]

theorem fits_step (hc : Consistent s) (ht : s.threads[i]? = some t)
    (h : Stepped i s t shared t') (u : Thread)
    (hu : u ∈ after s.threads i t t') :
    Fits shared u := by
  obtain ⟨j,hj⟩ := List.mem_iff_getElem?.mp hu
  by_cases hji : j = i
  · subst hji
    rw [after_self ht] at hj
    cases hj
    exact stepped_fits h (hc.fits t (List.mem_of_getElem? ht))
  · obtain ⟨w,hw,hwu⟩ := after_other hji hj
    have hkept : Fits shared w := by
      refine fits_other w (hc.fits w (List.mem_of_getElem? hw)) (fun hholds => ?_) h.frame.2.1
        h.frame.2.2
      apply h.frame.1
      intro hp
      -- the thread that stores holds the mutex itself
      have hi := phaseOf_get s.threads i t ht
      have hwj := phaseOf_get s.threads j w hw
      exact hji (hc.covered.exclusive j i (by rw [hwj]; exact hholds) (by rw [hi, hp]; rfl))
    rcases hwu with rfl | rfl
    · exact awaken_fits false w hkept
    · exact hkept

theorem periodic_step (hc : Consistent s) (ht : s.threads[i]? = some t)
    (h : Stepped i s t shared t') :
    ∃ pc threads, after s.threads i t t' = .refresher true pc::threads := by
  obtain ⟨pc,threads,hthreads⟩ := hc.periodic
  have hhead : ∃ rest, (if notifies t then s.threads.map (awaken false) else s.threads) =
      .refresher true pc::rest := by
    rw [hthreads]
    split
    · exact ⟨_,rfl⟩
    · exact ⟨_,rfl⟩
  obtain ⟨rest,hrest⟩ := hhead
  rw [after, hrest]
  cases i with
  | zero =>
    rw [hthreads] at ht
    cases ht
    obtain ⟨pc',rfl⟩ := stepped_periodic h
    exact ⟨pc',rest,rfl⟩
  | succ k => exact ⟨pc,rest.set k t',rfl⟩

theorem step_consistent (hc : Consistent s) (ht : s.threads[i]? = some t)
    (h : Stepped i s t shared t') :
    Consistent ⟨shared,after s.threads i t t'⟩ where
  covered := covered_step hc ht h
  holder := holder_step hc ht h
  fits := fits_step hc ht h
  stopped := stepped_stopped h (hc.fits t (List.mem_of_getElem? ht)) hc.stopped
  periodic := periodic_step hc ht h

theorem wake_consistent (hc : Consistent s) (ht : s.threads[i]? = some (.waiter .blocked))
    (timed_out : Bool) :
    Consistent { s with threads := s.threads.set i (.waiter (.locking timed_out)) } := by
  have hi := phaseOf_get s.threads i _ ht
  have hset := phaseOf_set s.threads i _ (.waiter (.locking timed_out)) ht
  refine ⟨?_,fun j => ?_,fun u hu => ?_,hc.stopped,?_⟩
  · refine move_covered (i := i) hc.covered hset.2 ?_
    rw [hi, hset.1]
    exact .wake id
  · by_cases hj : j = i
    · subst hj
      rw [hset.1]
      have hbefore := hc.holder j
      rw [hi] at hbefore
      exact hbefore
    · rw [hset.2 j hj]
      exact hc.holder j
  · rcases List.mem_or_eq_of_mem_set hu with hmem | rfl
    · exact hc.fits u hmem
    · trivial
  · obtain ⟨pc,threads,hthreads⟩ := hc.periodic
    cases i with
    | zero =>
      rw [hthreads] at ht
      cases ht
    | succ k => exact ⟨pc,threads.set k _,by rw [hthreads]; rfl⟩

theorem spawn_consistent (hc : Consistent s) (hp : t.phase = .away) (hf : Fits s.shared t) :
    Consistent { s with threads := s.threads++[t] } where
  covered := by
    rw [phaseOf_append s.threads t hp]
    exact hc.covered
  holder := by
    rw [phaseOf_append s.threads t hp]
    exact hc.holder
  fits := by
    intro u hu
    rcases List.mem_append.mp hu with hmem | hnew
    · exact hc.fits u hmem
    · obtain rfl := List.mem_singleton.mp hnew
      exact hf
  stopped := hc.stopped
  periodic := by
    obtain ⟨pc,threads,hthreads⟩ := hc.periodic
    exact ⟨pc,threads++[t],by rw [hthreads]; rfl⟩

theorem act_step {i : ℕ} {choice : Bool} {s s' : State}
    (h : act s (.step i choice) = some s') : ∃ t shared t', s.threads[i]? = some t ∧
      threadStep i choice s t = some (shared,t') ∧ s' = ⟨shared,after s.threads i t t'⟩ := by
  obtain ⟨t,ht,h⟩ := Option.bind_eq_some_iff.mp h
  obtain ⟨⟨shared,t'⟩,hstep,h⟩ := Option.bind_eq_some_iff.mp h
  cases h
  exact ⟨t,shared,t',ht,hstep,rfl⟩

theorem act_wake {i : ℕ} {timed_out : Bool} {s s' : State}
    (h : act s (.wake i timed_out) = some s') : s.threads[i]? = some (.waiter .blocked) ∧
      s' = { s with threads := s.threads.set i (.waiter (.locking timed_out)) } := by
  rw [act] at h
  split at h
  next ht =>
    cases h
    exact ⟨ht,rfl⟩
  next => cases h

theorem act_consistent (s s' : State) (a : Action) (hc : Consistent s) (h : act s a = some s') :
    Consistent s' := by
  cases a with
  | step i choice =>
    obtain ⟨t,shared,t',ht,hstep,rfl⟩ := act_step h
    exact step_consistent hc ht (threadStep_cases hstep)
  | wake i timed_out =>
    obtain ⟨ht,rfl⟩ := act_wake h
    exact wake_consistent hc ht timed_out
  | execute =>
    cases h
    exact spawn_consistent hc rfl trivial
  | refresh =>
    cases h
    exact spawn_consistent hc rfl trivial
  | close =>
    cases h
    exact spawn_consistent hc rfl (fun hne => absurd rfl hne)

theorem run_consistent (as : List Action) (s : State)
    (h : PartialRun.run act {} as = some s) : Consistent s :=
  PartialRun.run_invariant_of_meets act (fun _ _ => true) Consistent
    (fun s a t _ hc hs => act_consistent s t a hc hs) {} s as
    (PartialRun.meets_true act {} as) start_consistent h

end Preservation

section Timeouts

/-- The thread tests its predicate for the last time, or has failed to. -/
def late : Thread → Bool
  | .waiter (.locking true) => true
  | .waiter (.testingReady true) => true
  | .waiter (.testingShutdown true) => true
  | .waiter (.rechecking true) => true
  | .waiter (.throwing true) => true
  | .waiter (.returned .bootTimeout) => true
  | _ => false

theorem stepped_late {i : ℕ} {s : State} {t t' : Thread} {shared : Shared}
    (h : Stepped i s t shared t') (hf : Fits s.shared t) (hl : late t' = true) :
    late t = true := by
  cases h with
  | lockWait b _ => cases b <;> exact hl
  | testReady b _ => cases b <;> exact hl
  | testUnready b _ => cases b <;> exact hl
  | testShutdown b _ => cases b <;> exact hl
  | giveUp _ => rfl
  | recheckUnready b _ => cases b <;> exact hl
  | throwTimeout b h => cases b with
    | false =>
      have hd : s.shared.shutdown_requested = true := hf
      rw [h] at hd
      cases hd
    | true => rfl
  | _ => cases hl

def Timed (as : List Action) (s : State) : Prop :=
  ∀ i t, s.threads[i]? = some t → late t = true → .wake i true ∈ as

theorem awaken_late (t : Thread) : late (awaken false t) = late t := by
  cases t with
  | waiter pc => cases pc <;> rfl
  | refresher periodic pc => rfl
  | closer pc => rfl

theorem act_timed (as : List Action) (s s' : State) (a : Action) (hc : Consistent s)
    (ht : Timed as s) (h : act s a = some s') : Timed (as++[a]) s' := by
  intro j u hu hl
  cases a with
  | step i choice =>
    obtain ⟨t,shared,t',hi,hstep,rfl⟩ := act_step h
    by_cases hji : j = i
    · subst hji
      rw [after_self hi] at hu
      cases hu
      have hbefore := stepped_late (threadStep_cases hstep) (hc.fits t (List.mem_of_getElem? hi)) hl
      exact List.mem_append_left _ (ht j t hi hbefore)
    · obtain ⟨w,hw,hwu⟩ := after_other hji hu
      have hlw : late w = true := by
        rcases hwu with rfl | rfl
        · rwa [awaken_late] at hl
        · exact hl
      exact List.mem_append_left _ (ht j w hw hlw)
  | wake i timed_out =>
    obtain ⟨hi,rfl⟩ := act_wake h
    by_cases hji : j = i
    · subst hji
      rw [List.getElem?_set_self (List.getElem?_eq_some_iff.mp hi).1] at hu
      cases hu
      cases timed_out with
      | false => cases hl
      | true => exact List.mem_append_right _ (List.mem_singleton_self _)
    · rw [List.getElem?_set_ne (Ne.symm hji)] at hu
      exact List.mem_append_left _ (ht j u hu hl)
  | execute | refresh | close =>
    cases h
    rcases Nat.lt_or_ge j s.threads.length with hlt | hge
    · rw [List.getElem?_append_left hlt] at hu
      exact List.mem_append_left _ (ht j u hu hl)
    · rw [List.getElem?_append_right hge] at hu
      obtain rfl := List.mem_singleton.mp (List.mem_of_getElem? hu)
      cases hl

theorem run_timed (as : List Action) (s : State) (h : PartialRun.run act {} as = some s) :
    Timed as s := by
  have hboth := PartialRun.history_invariant act (fun _ => True)
    (fun as s => Consistent s ∧ Timed as s)
    (fun as s a t _ hp hs => ⟨act_consistent s t a hp.1 hs,act_timed as s t a hp.1 hp.2 hs⟩)
    {} s as (fun _ _ => trivial)
    ⟨start_consistent,by
      intro i t ht hl
      cases i with
      | zero =>
        cases ht
        cases hl
      | succ k => cases ht⟩ h
  exact hboth.2

end Timeouts

/-- Whoever is blocked although the client is ready or shut down will be
notified. A wait ends with the shutdown or with the timeout only after it. -/
theorem no_wakeup_lost (as : List Action) (s : State)
    (h : PartialRun.run act {} as = some s) (i : ℕ) (pc : WaitPc)
    (hi : s.threads[i]? = some (.waiter pc)) :
    (pc = .blocked → s.shared.awaited →
      ∃ (j : ℕ) (t : Thread), s.threads[j]? = some t ∧ t.phase.pending = true) ∧
    (pc = .returned .shutDown → s.shared.shutdown_requested = true) ∧
    (pc = .returned .bootTimeout → .wake i true ∈ as) := by
  have hc := run_consistent as s h
  refine ⟨?_,?_,?_⟩
  · rintro rfl hp
    obtain ⟨j,hj⟩ := hc.covered.blocked hp i (phaseOf_get s.threads i _ hi)
    rw [phaseOf] at hj
    cases ht : s.threads[j]? with
    | none =>
      rw [ht] at hj
      cases hj
    | some t =>
      rw [ht] at hj
      exact ⟨j,t,ht,hj⟩
  · rintro rfl
    exact hc.fits _ (List.mem_of_getElem? hi)
  · rintro rfl
    exact run_timed as s h i _ hi rfl

def times (n : ℕ) (a : Action) : List Action := List.replicate n a

def blockedCall : List Action :=
  [.execute]++times 5 (.step 1 true)++[.close,.step 2 true]

theorem no_wakeup_lost_blocked : ∃ s : State, PartialRun.run act {} blockedCall = some s ∧
    s.threads[1]? = some (.waiter .blocked) ∧ s.shared.awaited ∧
    ∃ (j : ℕ) (t : Thread), s.threads[j]? = some t ∧ t.phase.pending = true := by
  obtain ⟨s,hs,hi,hp⟩ : ∃ s : State, PartialRun.run act {} blockedCall = some s ∧
      s.threads[1]? = some (.waiter .blocked) ∧ s.shared.awaited := ⟨_,rfl,rfl,Or.inr rfl⟩
  exact ⟨s,hs,hi,hp,(no_wakeup_lost blockedCall s hs 1 .blocked hi).1 rfl hp⟩

section Rest

def finished : Thread → Bool
  | .waiter (.returned _) => true
  | .refresher _ .ended => true
  | .closer .ended => true
  | _ => false

/-- No thread can go on by itself. -/
def AtRest (s : State) : Prop := ∀ i choice, act s (.step i choice) = none

variable {s : State}

theorem rest_threadStep (hr : AtRest s) (i : ℕ) (t : Thread) (hi : s.threads[i]? = some t)
    (choice : Bool) : threadStep i choice s t = none := by
  have h := hr i choice
  simp only [act, hi, Option.bind_eq_bind, Option.bind_some, Option.bind_eq_none_iff] at h
  cases hstep : threadStep i choice s t with
  | none => rfl
  | some r => cases h r hstep

theorem holder_steps (i : ℕ) (t : Thread) (h : t.phase.holds = true) :
    threadStep i true s t ≠ none := by
  cases t with
  | waiter pc =>
    cases pc with
    | testingReady timed_out | testingShutdown timed_out | rechecking timed_out =>
      simp only [threadStep, waitStep]
      split_ifs <;> simp
    | blocking | throwing timed_out => simp [threadStep, waitStep]
    | _ => cases h
  | refresher periodic pc =>
    cases pc with
    | storing | unlocking => simp [threadStep, refreshStep]
    | _ => cases h
  | closer pc =>
    cases pc with
    | storing | unlocking => simp [threadStep, closeStep]
    | _ => cases h

theorem rest_free (hc : Consistent s) (hr : AtRest s) : s.shared.holder = none := by
  cases hh : s.shared.holder with
  | none => rfl
  | some i =>
    have hi := (hc.holder i).mpr hh
    rw [phaseOf] at hi
    cases ht : s.threads[i]? with
    | none =>
      rw [ht] at hi
      cases hi
    | some t =>
      rw [ht] at hi
      exact absurd (rest_threadStep hr i t ht true) (holder_steps i t hi)

theorem rest_refresher (hc : Consistent s) (hr : AtRest s) (i : ℕ) (periodic : Bool)
    (pc : RefreshPc) (hi : s.threads[i]? = some (.refresher periodic pc)) : pc = .ended := by
  have hstep := rest_threadStep hr i _ hi true
  have hfree := rest_free hc hr
  cases pc with
  | ended => rfl
  | looping =>
    simp only [threadStep, refreshStep] at hstep
    split_ifs at hstep <;> cases hstep
  | locking => simp [threadStep, refreshStep, hfree] at hstep
  | _ => simp [threadStep, refreshStep] at hstep

theorem rest_joined (hc : Consistent s) (hr : AtRest s) : periodicEnded s.threads = true ∧
    s.shared.shutdown_requested = true := by
  obtain ⟨pc,threads,hthreads⟩ := hc.periodic
  obtain rfl := rest_refresher hc hr 0 true pc (by rw [hthreads]; rfl)
  refine ⟨by rw [hthreads]; rfl,hc.stopped ?_⟩
  exact hc.fits (.refresher true .ended) (by rw [hthreads]; exact List.mem_cons_self) rfl

theorem rest_closer (hc : Consistent s) (hr : AtRest s) (i : ℕ) (pc : ClosePc)
    (hi : s.threads[i]? = some (.closer pc)) : pc = .ended := by
  have hstep := rest_threadStep hr i _ hi true
  have hfree := rest_free hc hr
  have hjoined := (rest_joined hc hr).1
  cases pc with
  | ended => rfl
  | requesting =>
    simp only [threadStep, closeStep] at hstep
    split_ifs at hstep <;> cases hstep
  | joining => simp [threadStep, closeStep, hjoined] at hstep
  | locking => simp [threadStep, closeStep, hfree] at hstep
  | _ => simp [threadStep, closeStep] at hstep

theorem rest_pending (hc : Consistent s) (hr : AtRest s) (j : ℕ) :
    (phaseOf s.threads j).pending = false := by
  rw [phaseOf]
  cases ht : s.threads[j]? with
  | none => rfl
  | some t =>
    cases t with
    | waiter pc => cases pc <;> rfl
    | refresher periodic pc =>
      obtain rfl := rest_refresher hc hr j periodic pc ht
      rfl
    | closer pc =>
      obtain rfl := rest_closer hc hr j pc ht
      rfl

end Rest

/-- The threads never wait for each other in a circle: a client comes to rest
only when its shutdown is complete and all waits have returned. -/
theorem rest_is_finished (as : List Action) (s : State)
    (h : PartialRun.run act {} as = some s) (hr : AtRest s) :
    s.shared.shutdown_requested = true ∧ ∀ t ∈ s.threads, finished t = true := by
  have hc := run_consistent as s h
  have hd := (rest_joined hc hr).2
  refine ⟨hd,fun t ht => ?_⟩
  obtain ⟨i,hi⟩ := List.mem_iff_getElem?.mp ht
  cases t with
  | refresher periodic pc =>
    obtain rfl := rest_refresher hc hr i periodic pc hi
    rfl
  | closer pc =>
    obtain rfl := rest_closer hc hr i pc hi
    rfl
  | waiter pc =>
    have hstep := rest_threadStep hr i _ hi true
    have hfree := rest_free hc hr
    cases pc with
    | returned result => rfl
    | blocked =>
      -- the shutdown is requested, so that somebody would still have to notify
      obtain ⟨j,hj⟩ := hc.covered.blocked (Or.inr hd) i (phaseOf_get s.threads i _ hi)
      rw [rest_pending hc hr j] at hj
      cases hj
    | checking =>
      simp only [threadStep, waitStep] at hstep
      split_ifs at hstep <;> cases hstep
    | locking timed_out => simp [threadStep, waitStep, hfree] at hstep
    | _ =>
      exact absurd hstep (holder_steps i _ rfl)

def closedClient : List Action :=
  blockedCall++[.step 2 true,.step 0 true]++times 5 (.step 2 true)++times 5 (.step 1 true)

theorem rest_is_finished_closed : ∃ s, PartialRun.run act {} closedClient = some s ∧ AtRest s ∧
    s.shared.shutdown_requested = true ∧ ∀ t ∈ s.threads, finished t = true := by
  obtain ⟨s,hs,hr⟩ : ∃ s, PartialRun.run act {} closedClient = some s ∧ AtRest s := by
    refine ⟨_,rfl,fun i choice => ?_⟩
    match i with
    | 0 => rfl
    | 1 => rfl
    | 2 => rfl
    | k+3 => rfl
  exact ⟨s,hs,hr,rest_is_finished closedClient s hs hr⟩

end HurriCache.ReadyWakeups
