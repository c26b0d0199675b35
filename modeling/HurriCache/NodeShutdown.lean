import HurriCache.NodeLifecycle

/-!
# Calls across the shutdown of a node's client

No completion finds a deleted call object, each promise is fulfilled once, and
once `shutdown` has returned to the thread that raised the flag every call is
complete. The queue may still be asked for work after its shutdown, and the
stub may be gone: this happens on some schedule exactly when a caller is past
its check or a stream is before its last operation as the flag is raised.
-/

set_option autoImplicit false

namespace HurriCache.NodeShutdown
open HurriCache.CallOutcomes HurriCache.CompletionQueue HurriCache.NodeCalls
open HurriCache.NodeLifecycle HurriCache.PartialRun

section Machine

variable {Response R Chunk S : Type}

def Untouched (s : State Response R Chunk S) : Prop :=
  s.asyncStub = true ∧ s.served.queue.shutdown = false ∧ ∀ pc ∈ s.closers, pc = .exchanging

def SendPc.tag? : SendPc Response R Chunk S → Option ℕ
  | .sent tag => some tag
  | _ => none

structure Consistent (s : State Response R Chunk S) : Prop where
  accounted : Accounted (callKind Response R Chunk S) s.served
  sound : ∀ c ∈ s.served.objects, Sound c
  untouched : s.shutdown_called = false → Untouched s
  ended : s.serving = false → s.served.queue.drained = true
  joined : .returned true ∈ s.closers → s.serving = false
  tagged : Tagged SendPc.tag? s.callers s.served.objects.length
  clean : s.fault ≠ some (.breach .deletedObject)

theorem initial_consistent : Consistent ({} : State Response R Chunk S) where
  accounted := empty_accounted _
  sound := fun _ h => absurd h List.not_mem_nil
  untouched := fun _ => ⟨rfl,rfl,fun _ h => absurd h List.not_mem_nil⟩
  ended := fun h => by cases h
  joined := fun h => absurd h List.not_mem_nil
  tagged := tagged_nil _ _
  clean := by simp

theorem drained_shutdown (queue : Queue) (h : queue.drained = true) : queue.shutdown = true := by
  rw [Queue.drained, Bool.and_eq_true] at h
  exact h.1

theorem consistent_move (s : State Response R Chunk S) (x : ℕ) (pc : SendPc Response R Chunk S)
    (hpc : SendPc.tag? pc = none) (h : Consistent s) :
    Consistent { s with callers := s.callers.set x pc } :=
  ⟨h.accounted,h.sound,h.untouched,h.ended,h.joined,
    tagged_move _ s.callers _ x pc hpc h.tagged,h.clean⟩

theorem consistent_call (s : State Response R Chunk S) (sending : Sending Response R Chunk S)
    (h : Consistent s) : Consistent { s with callers := s.callers++[.checking sending] } :=
  ⟨h.accounted,h.sound,h.untouched,h.ended,h.joined,
    tagged_append _ s.callers _ _ rfl h.tagged,h.clean⟩

theorem consistent_fault (s : State Response R Chunk S) (f : LifecycleFault)
    (hf : f ≠ .breach .deletedObject) (h : Consistent s) :
    Consistent { s with fault := some f } :=
  ⟨h.accounted,h.sound,h.untouched,h.ended,h.joined,h.tagged,
    fun he => hf (Option.some.inj he)⟩

theorem consistent_deliver (s : State Response R Chunk S) (tag : ℕ)
    (event : CallEvent Response Chunk) (r : Except Breach (Served (CallData Response R Chunk S)))
    (hserving : s.serving = true)
    (hr : s.served.deliver (callKind Response R Chunk S) tag event = some r)
    (h : Consistent s) : Consistent (afterDeliver s r) := by
  obtain ⟨c,c',_,_,_,_,hres⟩ := deliver_cases _ s.served tag event r h.accounted hr
  cases r with
  | error b =>
    obtain ⟨_,_,rfl⟩ := (resume_error _ s.served tag c' b).mp hres.symm
    exact ⟨h.accounted,h.sound,h.untouched,h.ended,h.joined,h.tagged,by simp [afterDeliver]⟩
  | ok served =>
    obtain ⟨hobjects,hq,_⟩ := resume_ok _ s.served served tag c' hres.symm
    refine ⟨deliver_accounted _ s.served served tag event h.accounted hr,
      deliver_forall _ Sound s.served served tag event h.accounted
        (fun c c' hd hs hc => completes_sound c c' event hd hs hc) h.sound hr,?_,?_,h.joined,?_,
      h.clean⟩
    · intro hcalled
      obtain ⟨hstub,hopen,hclosers⟩ := h.untouched hcalled
      exact ⟨hstub,hq.trans hopen,hclosers⟩
    · intro hended
      exact absurd (hserving.symm.trans hended) (by simp)
    · have hlen : served.objects.length = s.served.objects.length := by
        rw [hobjects, List.length_set]
      exact hlen ▸ h.tagged

theorem consistent_close (s t : State Response R Chunk S) (y : ℕ) (pc : ShutdownPc)
    (hcalled : t.shutdown_called = true) (hserved : t.served = s.served ∨ t.served = s.served.close)
    (hserving : t.serving = s.serving) (hcallers : t.callers = s.callers)
    (hclosers : t.closers = s.closers.set y pc) (hfault : t.fault = s.fault)
    (hpc : pc = .returned true → s.serving = false) (h : Consistent s) : Consistent t := by
  have hobjects : t.served.objects = s.served.objects := by
    rcases hserved with he | he
    · rw [he]
    · rw [he]
      rfl
  refine ⟨?_,?_,?_,?_,?_,?_,?_⟩
  · rcases hserved with he | he
    · exact he ▸ h.accounted
    · exact he ▸ close_accounted _ s.served h.accounted
  · rw [hobjects]
    exact h.sound
  · intro hnot
    rw [hcalled] at hnot
    cases hnot
  · intro hended
    have hd := h.ended (hserving ▸ hended)
    rcases hserved with he | he
    · exact he ▸ hd
    · rw [Queue.drained, Bool.and_eq_true] at hd
      simp [he, Served.close, Queue.drained, List.isEmpty_iff.mp hd.2]
  · intro hmem
    rw [hclosers] at hmem
    rw [hserving]
    cases List.mem_or_eq_of_mem_set hmem with
    | inl hold => exact h.joined hold
    | inr he => exact hpc he.symm
  · rw [hobjects, hcallers]
    exact h.tagged
  · rw [hfault]
    exact h.clean

theorem called_of_past (s : State Response R Chunk S) (y : ℕ) (pc : ShutdownPc)
    (hy : s.closers[y]? = some pc) (hpc : pc ≠ .exchanging) (h : Consistent s) :
    s.shutdown_called = true := by
  by_contra hnot
  exact hpc ((h.untouched (by simpa using hnot)).2.2 pc (List.mem_of_getElem? hy))

variable [Inhabited Response] [Inhabited Chunk] [Inhabited S]

theorem consistent_start (s : State Response R Chunk S) (x : ℕ)
    (sending : Sending Response R Chunk S) (served : Served (CallData Response R Chunk S))
    (hs : s.served.create sending.object = .ok served) (h : Consistent s) :
    Consistent { s with
      served := served
      callers := s.callers.set x (.sent s.served.objects.length) } := by
  obtain ⟨hw,hd,_⟩ := object_fresh sending
  obtain ⟨hopen,hserved⟩ := create_ok s.served served sending.object hs
  have hlen : served.objects.length = s.served.objects.length+1 := by simp [hserved]
  refine ⟨create_accounted _ s.served served sending.object h.accounted hw hd hs,
    create_forall Sound s.served served sending.object h.sound (object_sound sending) hs,
    ?_,?_,h.joined,?_,h.clean⟩
  · intro hcalled
    obtain ⟨hstub,hq,hclosers⟩ := h.untouched hcalled
    exact ⟨hstub,by rw [hserved]; exact hq,hclosers⟩
  · intro hserving
    rw [drained_shutdown _ (h.ended hserving)] at hopen
    cases hopen
  · rw [hlen]
    exact tagged_start _ s.callers _ x _ rfl h.tagged

theorem step_consistent (s t : State Response R Chunk S) (a : Action Response R Chunk S)
    (hs : Consistent s) (h : step s a = some t) : Consistent t := by
  obtain ⟨_,hstep⟩ := step_cases s t a h
  cases hstep with
  | call sending => exact consistent_call s sending hs
  | refuse x sending hx hd => exact consistent_move s x _ rfl hs
  | check x sending hx hd => exact consistent_move s x _ rfl hs
  | readStub x sending hx => exact consistent_move s x _ rfl hs
  | nullStub x sending hx => exact consistent_fault s _ (by simp) hs
  | danglingStub x sending hx hstub => exact consistent_fault s _ (by simp) hs
  | prepare x sending hx hstub => exact consistent_move s x _ rfl hs
  | lateStart x sending hx hq => exact consistent_fault s _ (by simp) hs
  | start x sending served hx hc => exact consistent_start s x sending served hc hs
  | deliver tag event r hserving hr => exact consistent_deliver s tag event r hserving hr hs
  | drain hserving hd =>
    refine ⟨hs.accounted,hs.sound,hs.untouched,fun _ => hd,fun _ => rfl,hs.tagged,hs.clean⟩
  | shutdown =>
    refine ⟨hs.accounted,hs.sound,?_,hs.ended,?_,hs.tagged,hs.clean⟩
    · intro hcalled
      obtain ⟨hstub,hq,hclosers⟩ := hs.untouched hcalled
      refine ⟨hstub,hq,fun pc hpc => ?_⟩
      cases List.mem_append.mp hpc with
      | inl hold => exact hclosers pc hold
      | inr hnew => exact List.mem_singleton.mp hnew
    · intro hmem
      cases List.mem_append.mp hmem with
      | inl hold => exact hs.joined hold
      | inr hnew => cases List.mem_singleton.mp hnew
  | lose y hy hd =>
    exact consistent_close s _ y _ hd (Or.inl rfl) rfl rfl rfl rfl (by simp) hs
  | win y hy hd =>
    exact consistent_close s _ y _ rfl (Or.inl rfl) rfl rfl rfl rfl (by simp) hs
  | resetStub y hy =>
    have hd := called_of_past s y _ hy (by simp) hs
    exact consistent_close s _ y _ hd (Or.inl rfl) rfl rfl rfl rfl (by simp) hs
  | closeQueue y hy =>
    have hd := called_of_past s y _ hy (by simp) hs
    exact consistent_close s _ y _ hd (Or.inr rfl) rfl rfl rfl rfl (by simp) hs
  | join y hy hserving =>
    have hd := called_of_past s y _ hy (by simp) hs
    exact consistent_close s _ y _ hd (Or.inl rfl) rfl rfl rfl rfl (fun _ => hserving) hs

theorem run_consistent (as : List (Action Response R Chunk S)) (s t : State Response R Chunk S)
    (hs : Consistent s) (h : run step s as = some t) : Consistent t :=
  run_invariant_of_meets step (fun _ _ => true) Consistent
    (fun u a v _ hu hv => step_consistent u v a hu hv) s t as (meets_true step s as) hs h

/-- Every call is complete once the thread that raised the flag has returned
from `shutdown`. -/
theorem calls_complete (as : List (Action Response R Chunk S)) (s : State Response R Chunk S)
    (hrun : run step {} as = some s) :
    s.fault ≠ some (.breach .deletedObject) ∧
      (∀ c ∈ s.served.objects, c.fulfilments = if c.deleted then 1 else 0) ∧
      (∀ (x tag : ℕ), s.callers[x]? = some (.sent tag) → ∃ c, s.served.objects[tag]? = some c ∧
        (∀ y, s.callers[y]? = some (.sent tag) → y = x) ∧
        (.returned true ∈ s.closers → c.fulfilments = 1)) := by
  have h := run_consistent as {} s initial_consistent hrun
  refine ⟨h.clean,fun c hc => (h.sound c hc).promised,?_⟩
  intro x tag hx
  have hlt := h.tagged.known x _ tag hx rfl
  refine ⟨s.served.objects[tag],List.getElem?_eq_getElem hlt,
    fun y hy => h.tagged.once y x _ _ tag hy hx rfl rfl,?_⟩
  intro hreturned
  have hmem := List.getElem_mem hlt
  have hdrained := h.ended (h.joined hreturned)
  have hdeleted := drained_deleted _ s.served h.accounted hdrained _ hmem
  rw [(h.sound _ hmem).promised]
  exact if_pos hdeleted

end Machine

def oneCall : List (Action ℕ ℕ ℕ ℕ) :=
  [.call (.rpc (.transformer (fun n => .ok n))),.send 0,.send 0,.send 0,.send 0,.shutdown,
    .close 0,.close 0,.close 0,.deliver 0 (.rpc ⟨true,5,Status.initial,[]⟩),.drain,.close 0]

theorem calls_complete_sample : ∃ s, run step {} oneCall = some s ∧
    ∃ c, s.served.objects[0]? = some c ∧ c.fulfilments = 1 := by
  have hlast : (run step {} oneCall).map (fun s => (s.callers[0]?,s.closers)) =
      some (some (.sent 0),[.returned true]) := rfl
  obtain ⟨s,hs,hpair⟩ := Option.map_eq_some_iff.mp hlast
  obtain ⟨hsent,hreturned⟩ := Prod.mk.inj hpair
  obtain ⟨_,_,h⟩ := calls_complete oneCall s hs
  obtain ⟨c,hc,_,hcomplete⟩ := h 0 0 hsent
  exact ⟨s,hs,c,hc,hcomplete (hreturned ▸ List.mem_singleton_self _)⟩

section Closing

variable {Response R Chunk S : Type} [Inhabited Response] [Inhabited Chunk] [Inhabited S]

def SendPc.entered : SendPc Response R Chunk S → Bool
  | .readingStub _ | .preparing _ _ | .starting _ => true
  | _ => false

/-- No caller is past its check, and every call waits for its last operation. -/
structure Quiet (s : State Response R Chunk S) : Prop where
  callers : ∀ pc ∈ s.callers, SendPc.entered pc = false
  calls : ∀ c ∈ s.served.objects, c.deleted = false → c.ending = true

structure Closing (s : State Response R Chunk S) : Prop where
  consistent : Consistent s
  called : s.shutdown_called = true
  quiet : Quiet s
  fault : s.fault = none

omit [Inhabited Response] [Inhabited Chunk] [Inhabited S] in
theorem closing_move (s : State Response R Chunk S) (x : ℕ) (pc : SendPc Response R Chunk S)
    (hpc : SendPc.entered pc = false) (h : Quiet s) :
    Quiet { s with callers := s.callers.set x pc } := by
  refine ⟨fun other ho => ?_,h.calls⟩
  cases List.mem_or_eq_of_mem_set ho with
  | inl hold => exact h.callers other hold
  | inr he => exact he ▸ hpc

omit [Inhabited Response] [Inhabited Chunk] [Inhabited S] in
theorem closing_deliver (s : State Response R Chunk S) (tag : ℕ)
    (event : CallEvent Response Chunk) (r : Except Breach (Served (CallData Response R Chunk S)))
    (hr : s.served.deliver (callKind Response R Chunk S) tag event = some r) (h : Closing s) :
    Quiet (afterDeliver s r) ∧ (afterDeliver s r).fault = none := by
  obtain ⟨c,c',_,hc,hd,hcomp,hres⟩ := deliver_cases _ s.served tag event r h.consistent.accounted hr
  have hend := h.quiet.calls c (List.mem_of_getElem? hc) hd
  have hdeleted : c'.deleted = true := ending_deletes c c' event hend hcomp
  have hwaits : c'.waits = false := by
    have := (callKind Response R Chunk S).alternates c event c' hd hcomp
    rw [show (callKind Response R Chunk S).deleted c' = true from hdeleted] at this
    exact this
  cases r with
  | error b =>
    obtain ⟨hw,_⟩ := (resume_error _ s.served tag c' b).mp hres.symm
    exact absurd (hwaits.symm.trans hw) (by simp)
  | ok served =>
    obtain ⟨hobjects,_⟩ := resume_ok _ s.served served tag c' hres.symm
    refine ⟨⟨h.quiet.callers,fun o ho hod => ?_⟩,h.fault⟩
    have hm : o ∈ s.served.objects.set tag c' := hobjects ▸ ho
    cases List.mem_or_eq_of_mem_set hm with
    | inl hold => exact h.quiet.calls o hold hod
    | inr he => exact absurd (hdeleted.symm.trans (he ▸ hod)) (by simp)

theorem step_closing (s t : State Response R Chunk S) (a : Action Response R Chunk S)
    (hs : Closing s) (h : step s a = some t) : Closing t := by
  have hconsistent := step_consistent s t a hs.consistent h
  obtain ⟨_,hstep⟩ := step_cases s t a h
  have hentered : ∀ (x : ℕ) (pc : SendPc Response R Chunk S), s.callers[x]? = some pc →
      SendPc.entered pc = false := fun x pc hx => hs.quiet.callers pc (List.mem_of_getElem? hx)
  cases hstep with
  | call sending =>
    refine ⟨hconsistent,hs.called,⟨fun pc hpc => ?_,hs.quiet.calls⟩,hs.fault⟩
    cases List.mem_append.mp hpc with
    | inl hold => exact hs.quiet.callers pc hold
    | inr hnew => exact List.mem_singleton.mp hnew ▸ rfl
  | refuse x sending hx hd =>
    exact ⟨hconsistent,hs.called,closing_move s x _ rfl hs.quiet,hs.fault⟩
  | check x sending hx hd => exact absurd (hs.called.symm.trans hd) (by simp)
  | readStub x sending hx => cases hentered x _ hx
  | nullStub x sending hx => cases hentered x _ hx
  | danglingStub x sending hx hstub => cases hentered x _ hx
  | prepare x sending hx hstub => cases hentered x _ hx
  | lateStart x sending hx hq => cases hentered x _ hx
  | start x sending served hx hc => cases hentered x _ hx
  | deliver tag event r hserving hr =>
    obtain ⟨hquiet,hfault⟩ := closing_deliver s tag event r hr hs
    refine ⟨hconsistent,?_,hquiet,hfault⟩
    cases r <;> exact hs.called
  | win y hy hd => exact absurd (hs.called.symm.trans hd) (by simp)
  | drain | shutdown | lose | resetStub | closeQueue | join =>
    exact ⟨hconsistent,hs.called,⟨hs.quiet.callers,hs.quiet.calls⟩,hs.fault⟩

theorem step_close (s t : State Response R Chunk S) (y : ℕ) (pc pc' : ShutdownPc)
    (hfault : s.fault = none) (hy : s.closers[y]? = some pc)
    (h : closeStep s pc = some (t,pc')) :
    step s (.close y) = some { t with closers := t.closers.set y pc' } := by
  rw [step, if_neg (by simp [hfault]), act, hy]
  simp [h]

theorem step_send (s : State Response R Chunk S) (x : ℕ) (pc : SendPc Response R Chunk S)
    (r : Except LifecycleFault (State Response R Chunk S × SendPc Response R Chunk S))
    (hfault : s.fault = none) (hx : s.callers[x]? = some pc) (h : sendStep s pc = some r) :
    step s (.send x) = some (afterSend s x r) := by
  rw [step, if_neg (by simp [hfault]), act, hx]
  simp [h]

theorem close_run (s : State Response R Chunk S) (y : ℕ) (hfault : s.fault = none)
    (hcalled : s.shutdown_called = false) (hy : s.closers[y]? = some .exchanging) :
    ∃ closers, run step s [.close y,.close y,.close y] = some { s with
      shutdown_called := true
      asyncStub := false
      served := s.served.close
      closers := closers } := by
  obtain ⟨hlt,_⟩ := List.getElem?_eq_some_iff.mp hy
  let raised : State Response R Chunk S :=
    { s with shutdown_called := true, closers := s.closers.set y .resettingStub }
  let reset : State Response R Chunk S :=
    { raised with asyncStub := false, closers := raised.closers.set y .closingQueue }
  have hraise : step s (.close y) = some raised :=
    step_close s { s with shutdown_called := true } y _ _ hfault hy
      (by simp only [closeStep, hcalled]; rfl)
  have hreset : step raised (.close y) = some reset :=
    step_close raised { raised with asyncStub := false } y .resettingStub .closingQueue hfault
      (List.getElem?_set_self hlt) rfl
  have hclose := step_close reset { reset with served := reset.served.close } y .closingQueue
    .joining hfault (List.getElem?_set_self (by simpa [raised] using hlt)) rfl
  rw [run_step step s _ _ _ hraise, run_step step raised _ _ _ hreset,
    run_step step reset _ _ _ hclose]
  exact ⟨_,rfl⟩

/-- A caller past its check breaks on a client that is shut down. -/
theorem entered_faults (s : State Response R Chunk S) (x : ℕ) (pc : SendPc Response R Chunk S)
    (hx : s.callers[x]? = some pc) (hpc : SendPc.entered pc = true) (hfault : s.fault = none)
    (hstub : s.asyncStub = false) (hq : s.served.queue.shutdown = true) :
    ∃ as t, run step s as = some t ∧ t.fault ≠ none := by
  obtain ⟨hlt,_⟩ := List.getElem?_eq_some_iff.mp hx
  cases pc with
  | readingStub sending =>
    have hread := step_send s x _ _ hfault hx rfl
    rw [hstub] at hread
    have hnull := step_send (afterSend s x (.ok (s,.preparing sending false))) x
      (.preparing sending false) (.error .nullStub) hfault (List.getElem?_set_self hlt) rfl
    exact ⟨[.send x,.send x],_,
      by rw [run_step step s _ _ _ hread, run_step step _ _ _ _ hnull, run],by simp [afterSend]⟩
  | preparing sending stub =>
    cases stub with
    | false =>
      have hnull := step_send s x _ (.error .nullStub) hfault hx rfl
      exact ⟨[.send x],_,by rw [run_step step s _ _ _ hnull, run],by simp [afterSend]⟩
    | true =>
      have hdangling := step_send s x _ (.error .danglingStub) hfault hx
        (by simp only [sendStep, hstub]; rfl)
      exact ⟨[.send x],_,by rw [run_step step s _ _ _ hdangling, run],by simp [afterSend]⟩
  | starting sending =>
    have hcreate := (create_error s.served sending.object .workAfterShutdown).mpr ⟨hq,rfl⟩
    have hlate := step_send s x _ (.error (.breach .workAfterShutdown)) hfault hx
      (by simp only [sendStep, hcreate])
    exact ⟨[.send x],_,by rw [run_step step s _ _ _ hlate, run],by simp [afterSend]⟩
  | checking sending => cases hpc
  | sent tag => cases hpc
  | refused e => cases hpc

theorem streaming_faults (s : State Response R Chunk S) (c : CallData Response R Chunk S)
    (hc : c ∈ s.served.objects) (hd : c.deleted = false) (hend : c.ending = false)
    (hs : Consistent s) (hserving : s.serving = true) (hfault : s.fault = none)
    (hq : s.served.queue.shutdown = true) : ∃ as t, run step s as = some t ∧ t.fault ≠ none := by
  obtain ⟨tag,htag⟩ := List.mem_iff_getElem?.mp hc
  have hmem := (hs.accounted.outstanding tag c htag).mpr hd
  have hwaits : c.waits = true := by
    have := hs.accounted.waits tag c htag
    rw [show (callKind Response R Chunk S).deleted c = false from hd] at this
    exact this
  obtain ⟨e,c',hcomp,hw⟩ := continues c (hs.sound c hc) hwaits hd hend
  have hresume : s.served.resume (callKind Response R Chunk S) tag c' =
      .error .workAfterShutdown := (resume_error _ s.served tag c' _).mpr ⟨hw,hq,rfl⟩
  have hdeliver : s.served.deliver (callKind Response R Chunk S) tag e =
      some (.error .workAfterShutdown) := by
    have hk : (callKind Response R Chunk S).completes c e = some c' := hcomp
    have hkd : (callKind Response R Chunk S).deleted c = false := hd
    simp [Served.deliver, hmem, htag, hkd, hk, hresume]
  refine ⟨[.deliver tag e],{ s with fault := some (.breach .workAfterShutdown) },?_,by simp⟩
  simp [run, step, act, hfault, hserving, hdeliver, afterDeliver]

/-- No schedule breaks a client that raises its flag now exactly when it is
quiet now. -/
theorem shutdown_safe_iff (as : List (Action Response R Chunk S)) (s : State Response R Chunk S)
    (hrun : run step {} as = some s) (hfault : s.fault = none)
    (hcalled : s.shutdown_called = false) (y : ℕ) (hy : s.closers[y]? = some .exchanging) :
    (∀ bs t, run step s (.close y::bs) = some t → t.fault = none) ↔ Quiet s := by
  have hs := run_consistent as {} s initial_consistent hrun
  constructor
  · intro hsafe
    obtain ⟨closers,hclose⟩ := close_run s y hfault hcalled hy
    let closed : State Response R Chunk S := { s with
      shutdown_called := true
      asyncStub := false
      served := s.served.close
      closers := closers }
    have hsafe' : ∀ bs t, run step closed bs = some t → t.fault = none := by
      intro bs t ht
      refine hsafe ([.close y,.close y]++bs) t ?_
      have happ := run_append step s [.close y,.close y,.close y] bs
      rw [hclose] at happ
      exact happ.trans ht
    have hclosing := run_consistent _ s _ hs hclose
    have hserving : s.serving = true := by
      by_contra hended
      have hd := drained_shutdown _ (hs.ended (by simpa using hended))
      rw [(hs.untouched hcalled).2.1] at hd
      cases hd
    refine ⟨fun pc hpc => ?_,fun c hc hd => ?_⟩
    · by_contra hentered
      obtain ⟨x,hx⟩ := List.mem_iff_getElem?.mp hpc
      obtain ⟨bs,t,ht,hbad⟩ := entered_faults closed x pc hx (by simpa using hentered) hfault rfl
        rfl
      exact hbad (hsafe' bs t ht)
    · by_contra hend
      obtain ⟨bs,t,ht,hbad⟩ := streaming_faults closed c hc hd (by simpa using hend) hclosing
        hserving hfault rfl
      exact hbad (hsafe' bs t ht)
  · intro hquiet bs t ht
    obtain ⟨u,hu,ht⟩ := (run_cons_eq_some step s t _ bs).mp ht
    have hfirst : Closing u := by
      obtain ⟨_,hstep⟩ := step_cases s u _ hu
      have hconsistent := step_consistent s u _ hs hu
      cases hstep with
      | lose _ _ hd => exact absurd (hcalled.symm.trans hd) (by simp)
      | win _ _ _ => exact ⟨hconsistent,rfl,⟨hquiet.callers,hquiet.calls⟩,hfault⟩
      | resetStub _ hr => exact absurd (hy.symm.trans hr) (by simp)
      | closeQueue _ hr => exact absurd (hy.symm.trans hr) (by simp)
      | join _ hr _ => exact absurd (hy.symm.trans hr) (by simp)
    exact (run_invariant_of_meets step (fun _ _ => true) Closing
      (fun v a w _ hv hw => step_closing v w a hv hw) u t bs (meets_true step u bs) hfirst ht).fault

end Closing

theorem shutdown_safe_sample : ∃ s, run step {} (oneCall.take 6) = some s ∧
    ∀ bs t, run step s (.close 0::bs) = some t → t.fault = none := by
  refine ⟨_,rfl,?_⟩
  refine (shutdown_safe_iff (oneCall.take 6) _ rfl rfl rfl 0 rfl).mpr ⟨?_,?_⟩
  · intro pc hpc
    rw [List.mem_singleton.mp hpc]
    rfl
  · intro c hc _
    rw [List.mem_singleton.mp hc]
    rfl

end HurriCache.NodeShutdown
