import HurriCache.CoordinatorLifecycle
import HurriCache.TopologyAssembly

/-!
# Topologies asked for at once

Each call runs on a channel to the coordinator that its caller named, though
the callers share one cached stub and may exchange it under each other. The
future of a call is told by the events under its own tag. Once the thread that
raised the flag has returned from `shutdown`, every call has its answer.
-/

set_option autoImplicit false

namespace HurriCache.TopologyCalls
open HurriCache.ClientTypes HurriCache.CallOutcomes HurriCache.CompletionQueue
open HurriCache.StreamCall hiding completion proceed State
open HurriCache.CoordinatorStream HurriCache.CoordinatorLifecycle HurriCache.TopologyAssembly
open HurriCache.PartialRun

theorem lifetime_run (b c : RoutingCall) (events : List (Event RoutingInfoData))
    (h : lifetime callKind b events = some c) :
    c.stub = b.stub ∧ run completion b.call events = some c.call := by
  induction events generalizing b with
  | nil =>
    cases h
    exact ⟨rfl,rfl⟩
  | cons event events ih =>
    obtain ⟨b',hb',hrest⟩ := Option.bind_eq_some_iff.mp h
    obtain ⟨next,hnext,rfl⟩ := Option.map_eq_some_iff.mp hb'
    obtain ⟨hstub,hrun⟩ := ih _ hrest
    exact ⟨hstub,(run_cons_eq_some _ _ _ _ _).mpr ⟨next,hnext,hrun⟩⟩

def deliveries (actions : List Action) : List (ℕ × Event RoutingInfoData) :=
  actions.filterMap (fun a =>
    match a with
    | .deliver tag event => some (tag,event)
    | _ => none)

/-- What a caller's program point tells about the channel of its call. -/
def Named (channels : List Text) (births : List RoutingCall) : FetchPc → Prop
  | .starting target stub => channels[stub]? = some target
  | .sent target tag => ∃ stub, births[tag]? = some (newCall stub) ∧ channels[stub]? = some target
  | _ => True

structure Traced (births : List RoutingCall) (actions : List Action) (s : State) : Prop where
  accounted : Accounted callKind s.served
  independent : Independent callKind births (deliveries actions) s.served
  cached : ∀ stub, s.stub = some stub → s.channels[stub]? = some s.active_target
  named : ∀ pc ∈ s.callers, Named s.channels births pc
  tagged : Tagged FetchPc.tag? s.callers s.served.objects.length
  ended : s.serving = false → s.served.queue.drained = true
  joined : .returned true ∈ s.closers → s.serving = false

theorem named_append (channels : List Text) (births : List RoutingCall) (new : List Text)
    (born : List RoutingCall) (pc : FetchPc) (h : Named channels births pc) :
    Named (channels++new) (births++born) pc := by
  have hkeep : ∀ {A : Type} (l r : List A) (n : ℕ) (a : A), l[n]? = some a →
      (l++r)[n]? = some a := by
    intro A l r n a hn
    obtain ⟨hlt,_⟩ := List.getElem?_eq_some_iff.mp hn
    rw [List.getElem?_append_left hlt, hn]
  cases pc with
  | starting target stub => exact hkeep _ _ _ _ h
  | sent target tag =>
    obtain ⟨stub,hb,hc⟩ := h
    exact ⟨stub,hkeep _ _ _ _ hb,hkeep _ _ _ _ hc⟩
  | checking | ensuring | refused => trivial

theorem named_set (channels : List Text) (births : List RoutingCall) (callers : List FetchPc)
    (x : ℕ) (pc : FetchPc) (hpc : Named channels births pc)
    (h : ∀ p ∈ callers, Named channels births p) :
    ∀ p ∈ callers.set x pc, Named channels births p := by
  intro p hp
  cases List.mem_or_eq_of_mem_set hp with
  | inl hold => exact h p hold
  | inr he => exact he ▸ hpc

section Steps

variable (births : List RoutingCall) (actions : List Action) (s : State)

theorem traced_move (x : ℕ) (pc : FetchPc) (htag : pc.tag? = none)
    (hpc : Named s.channels births pc) (h : Traced births actions s) :
    Traced births (actions++[.fetch x]) { s with callers := s.callers.set x pc } := by
  have hdel : deliveries (actions++[.fetch x]) = deliveries actions := by simp [deliveries]
  exact ⟨h.accounted,hdel ▸ h.independent,h.cached,named_set _ _ _ x pc hpc h.named,
    tagged_move _ _ _ x pc htag h.tagged,h.ended,h.joined⟩

theorem traced_call (target : Text) (h : Traced births actions s) :
    Traced births (actions++[.call target])
      { s with callers := s.callers++[.checking target] } := by
  have hdel : deliveries (actions++[.call target]) = deliveries actions := by simp [deliveries]
  refine ⟨h.accounted,hdel ▸ h.independent,h.cached,fun p hp => ?_,
    tagged_append _ _ _ _ rfl h.tagged,h.ended,h.joined⟩
  cases List.mem_append.mp hp with
  | inl hold => exact h.named p hold
  | inr hnew =>
    rw [List.mem_singleton.mp hnew]
    trivial

theorem traced_connect (x : ℕ) (target : Text) (h : Traced births actions s) :
    Traced births (actions++[.fetch x]) { s.newStub target with
      callers := s.callers.set x (.starting target s.channels.length) } := by
  have hdel : deliveries (actions++[.fetch x]) = deliveries actions := by simp [deliveries]
  have hnew : (s.channels++[target])[s.channels.length]? = some target :=
    List.getElem?_concat_length
  refine ⟨h.accounted,hdel ▸ h.independent,?_,?_,tagged_move _ _ _ x _ rfl h.tagged,
    h.ended,h.joined⟩
  · intro stub hstub
    cases hstub
    exact hnew
  · refine named_set _ _ _ x _ hnew (fun p hp => ?_)
    have hnamed := named_append s.channels births [target] [] p (h.named p hp)
    rw [List.append_nil] at hnamed
    exact hnamed

theorem traced_start (x : ℕ) (target : Text) (stub : ℕ) (served : Served RoutingCall)
    (hx : s.callers[x]? = some (.starting target stub))
    (hs : s.served.create (newCall stub) = .ok served) (h : Traced births actions s) :
    Traced (births++[newCall stub]) (actions++[.fetch x]) { s with
      served := served
      callers := s.callers.set x (.sent target s.served.objects.length) } := by
  have hdel : deliveries (actions++[.fetch x]) = deliveries actions := by simp [deliveries]
  obtain ⟨hopen,hserved⟩ := create_ok s.served served _ hs
  have hlen : served.objects.length = s.served.objects.length+1 := by simp [hserved]
  refine ⟨create_accounted _ s.served served _ h.accounted rfl rfl hs,?_,h.cached,?_,?_,?_,
    h.joined⟩
  · rw [hdel]
    exact create_independent _ births _ s.served served _ h.independent hs
  · refine named_set _ _ _ x _ ⟨stub,?_,h.named _ (List.mem_of_getElem? hx)⟩ (fun p hp => ?_)
    · rw [h.independent.1, List.getElem?_concat_length]
    · simpa using named_append s.channels births [] [newCall stub] p (h.named p hp)
  · rw [hlen]
    exact tagged_start _ _ _ x _ rfl h.tagged
  · intro hserving
    have hd := h.ended hserving
    rw [Queue.drained, hopen] at hd
    cases hd

theorem traced_deliver (tag : ℕ) (event : Event RoutingInfoData) (served : Served RoutingCall)
    (hserving : s.serving = true)
    (hs : s.served.deliver callKind tag event = some (.ok served)) (h : Traced births actions s) :
    Traced births (actions++[.deliver tag event]) { s with served := served } := by
  have hdel : deliveries (actions++[.deliver tag event]) = deliveries actions++[(tag,event)] := by
    simp [deliveries]
  obtain ⟨c,c',_,_,_,_,hr⟩ := deliver_cases _ s.served tag event _ h.accounted hs
  obtain ⟨hobjects,_,_⟩ := resume_ok _ s.served served tag c' hr.symm
  have hlen : served.objects.length = s.served.objects.length := by
    rw [hobjects, List.length_set]
  refine ⟨deliver_accounted _ s.served served tag event h.accounted hs,?_,h.cached,h.named,
    hlen ▸ h.tagged,fun hended => absurd (hserving.symm.trans hended) (by simp),h.joined⟩
  rw [hdel]
  exact deliver_independent _ births _ s.served served tag event h.accounted h.independent hs

theorem traced_close (t : State) (y : ℕ) (pc : ShutdownPc)
    (hchannels : t.channels = s.channels)
    (hstub : t.stub = none ∨ t.stub = s.stub ∧ t.active_target = s.active_target)
    (hserved : t.served = s.served ∨ t.served = s.served.close) (hserving : t.serving = s.serving)
    (hcallers : t.callers = s.callers) (hclosers : t.closers = s.closers.set y pc)
    (hpc : pc = .returned true → s.serving = false) (h : Traced births actions s) :
    Traced births (actions++[.close y]) t := by
  have hdel : deliveries (actions++[.close y]) = deliveries actions := by simp [deliveries]
  have hobjects : t.served.objects = s.served.objects := by
    rcases hserved with he | he
    · rw [he]
    · rw [he]
      rfl
  refine ⟨?_,?_,?_,?_,?_,?_,?_⟩
  · rcases hserved with he | he
    · exact he ▸ h.accounted
    · exact he ▸ close_accounted _ s.served h.accounted
  · rw [hdel]
    exact ⟨hobjects ▸ h.independent.1,h.independent.2.1,hobjects ▸ h.independent.2.2⟩
  · intro stub ht
    rcases hstub with hnone | ⟨hs,htarget⟩
    · rw [hnone] at ht
      cases ht
    · rw [hchannels, htarget]
      exact h.cached stub (hs ▸ ht)
  · rw [hchannels, hcallers]
    exact h.named
  · rw [hcallers, hobjects]
    exact h.tagged
  · intro hended
    have hd := h.ended (hserving ▸ hended)
    rcases hserved with he | he
    · exact he ▸ hd
    · rw [Queue.drained, Bool.and_eq_true] at hd
      simp [he, Served.close, Queue.drained, List.isEmpty_iff.mp hd.2]
  · intro hmem
    rw [hclosers] at hmem
    rw [hserving]
    cases List.mem_or_eq_of_mem_set hmem with
    | inl hold => exact h.joined hold
    | inr he => exact hpc he.symm

theorem step_traced (t : State) (a : Action) (hs : Traced births actions s)
    (h : step s a = some t) :
    t.fault ≠ some .deletedObject ∧
      (t.fault = none → ∃ births, Traced births (actions++[a]) t) := by
  obtain ⟨hfault,hstep⟩ := step_cases s t a h
  have hclean : s.fault ≠ some .deletedObject := by simp [hfault]
  cases hstep with
  | call target => exact ⟨hclean,fun _ => ⟨births,traced_call births actions s target hs⟩⟩
  | refuse x target hx hd | check x target hx hd =>
    exact ⟨hclean,fun _ => ⟨births,traced_move births actions s x _ rfl trivial hs⟩⟩
  | reuse x target stub hx hstub htarget =>
    have hnamed := hs.cached stub hstub
    rw [htarget] at hnamed
    exact ⟨hclean,fun _ => ⟨births,traced_move births actions s x _ rfl hnamed hs⟩⟩
  | connect x target hx _ =>
    exact ⟨hclean,fun _ => ⟨births,traced_connect births actions s x target hs⟩⟩
  | lateStart => exact ⟨by simp,fun hf => by cases hf⟩
  | start x target stub served hx hc =>
    exact ⟨hclean,fun _ => ⟨_,traced_start births actions s x target stub served hx hc hs⟩⟩
  | deliver tag event r hserving hr =>
    cases r with
    | error b =>
      obtain ⟨_,c',_,_,_,_,hres⟩ := deliver_cases _ s.served tag event _ hs.accounted hr
      obtain ⟨_,_,rfl⟩ := (resume_error _ s.served tag c' b).mp hres.symm
      exact ⟨by simp [afterDeliver],fun hf => by cases hf⟩
    | ok served =>
      exact ⟨hclean,
        fun _ => ⟨births,traced_deliver births actions s tag event served hserving hr hs⟩⟩
  | drain hserving hd =>
    have hdel : deliveries (actions++[.drain]) = deliveries actions := by simp [deliveries]
    exact ⟨hclean,fun _ => ⟨births,hs.accounted,hdel ▸ hs.independent,hs.cached,hs.named,
      hs.tagged,fun _ => hd,fun _ => rfl⟩⟩
  | shutdown =>
    have hdel : deliveries (actions++[.shutdown]) = deliveries actions := by simp [deliveries]
    refine ⟨hclean,fun _ => ⟨births,hs.accounted,hdel ▸ hs.independent,hs.cached,hs.named,
      hs.tagged,hs.ended,fun hmem => ?_⟩⟩
    cases List.mem_append.mp hmem with
    | inl hold => exact hs.joined hold
    | inr hnew => cases List.mem_singleton.mp hnew
  | lose y hy hd | win y hy hd =>
    exact ⟨hclean,fun _ => ⟨births,traced_close births actions s _ y _ rfl (Or.inr ⟨rfl,rfl⟩)
      (Or.inl rfl) rfl rfl rfl (by simp) hs⟩⟩
  | reset y hy =>
    exact ⟨hclean,fun _ => ⟨births,traced_close births actions s _ y _ rfl (Or.inl rfl)
      (Or.inl rfl) rfl rfl rfl (by simp) hs⟩⟩
  | closeQueue y hy =>
    exact ⟨hclean,fun _ => ⟨births,traced_close births actions s _ y _ rfl (Or.inr ⟨rfl,rfl⟩)
      (Or.inr rfl) rfl rfl rfl (by simp) hs⟩⟩
  | join y hy hserving =>
    exact ⟨hclean,fun _ => ⟨births,traced_close births actions s _ y _ rfl (Or.inr ⟨rfl,rfl⟩)
      (Or.inl rfl) rfl rfl rfl (fun _ => hserving) hs⟩⟩

end Steps

def TracedSoFar (actions : List Action) (s : State) : Prop :=
  s.fault ≠ some .deletedObject ∧ (s.fault = none → ∃ births, Traced births actions s)

theorem initial_traced : Traced [] [] {} where
  accounted := empty_accounted _
  independent := ⟨rfl,fun _ h => absurd h List.not_mem_nil,fun _ _ _ h => by cases h⟩
  cached := fun _ h => by cases h
  named := fun _ h => absurd h List.not_mem_nil
  tagged := tagged_nil _ _
  ended := fun h => by cases h
  joined := fun h => absurd h List.not_mem_nil

theorem run_traced (actions : List Action) (s : State) (h : run step {} actions = some s) :
    TracedSoFar actions s := by
  refine history_invariant step (fun _ => True) TracedSoFar (fun as u a v _ hu hv => ?_) {} s
    actions (fun _ _ => trivial) ⟨by simp,fun _ => ⟨[],initial_traced⟩⟩ h
  obtain ⟨births,hu⟩ := hu.2 (step_cases u v a hv).1
  exact step_traced births as u v a hu hv

/-- No completion finds a deleted call object. A call runs on a channel to the
target of its caller and is nobody else's, its future follows the events under
its tag, and after `shutdown` it has its answer. -/
theorem topology_calls (actions : List Action) (s : State)
    (hrun : run step {} actions = some s) :
    s.fault ≠ some .deletedObject ∧
      (s.fault = none → ∀ (x : ℕ) (target : Text) (tag : ℕ),
        s.callers[x]? = some (.sent target tag) →
        ∃ c, s.served.objects[tag]? = some c ∧ s.channels[c.stub]? = some target ∧
          (∀ y other, s.callers[y]? = some (.sent other tag) → y = x) ∧
          c.call.promise = (finals (eventsOf (deliveries actions) tag)).map
            (delivery (batches (eventsOf (deliveries actions) tag))) ∧
          c.call.promise.length ≤ 1 ∧
          (.returned true ∈ s.closers → c.call.promise.length = 1)) := by
  obtain ⟨hclean,htraced⟩ := run_traced actions s hrun
  refine ⟨hclean,fun hfault x target tag hx => ?_⟩
  obtain ⟨births,h⟩ := htraced hfault
  obtain ⟨stub,hbirth,hchannel⟩ := h.named _ (List.mem_of_getElem? hx)
  have hlt := h.tagged.known x _ tag hx rfl
  have hobject := List.getElem?_eq_getElem hlt
  obtain ⟨hstub,hlife⟩ := lifetime_run _ _ _ (h.independent.2.2 tag _ _ hbirth hobject)
  have hstanding := standing_run _ _ _ (newCall_call stub) hlife
  have hlength : s.served.objects[tag].call.promise.length =
      (finals (eventsOf (deliveries actions) tag)).length := by
    rw [hstanding.promise, List.length_map]
  refine ⟨_,hobject,?_,fun y other hy => h.tagged.once y x _ _ tag hy hx rfl rfl,
    hstanding.promise,?_,fun hreturned => ?_⟩
  · rw [hstub]
    exact hchannel
  · rw [hlength]
    by_cases hr : s.served.objects[tag].call.reader = none
    · exact le_of_eq (hstanding.ended hr).1
    · rw [(hstanding.waiting hr).1]
      exact Nat.zero_le 1
  · have hdeleted := drained_deleted _ s.served h.accounted (h.ended (h.joined hreturned)) _
      (List.getElem_mem hlt)
    rw [hlength]
    by_contra hnot
    have hr : s.served.objects[tag].call.reader ≠ none :=
      fun hr => hnot (hstanding.ended hr).1
    exact absurd (hdeleted.symm.trans (hstanding.waiting hr).2) (by simp)

def twoCoordinators : List Action :=
  [.call ['a'],.call ['b'],.fetch 0,.fetch 1,.fetch 0,.fetch 1,.fetch 1,.fetch 0,
    .deliver 0 (.started false),.deliver 1 (.started true),
    .deliver 1 (.read (some { max_shards := 8 })),.deliver 0 (.finished ⟨.UNAVAILABLE,[]⟩ []),
    .deliver 1 (.read none),.deliver 1 (.finished Status.initial []),.shutdown,.close 0,.close 0,
    .close 0,.drain,.close 0]

theorem topology_calls_two : ∃ s, run step {} twoCoordinators = some s ∧
    ∃ c, s.served.objects[1]? = some c ∧ s.channels[c.stub]? = some ['a'] ∧
      c.call.promise.length = 1 := by
  have hlast : (run step {} twoCoordinators).map
      (fun s => (s.fault,s.callers[0]?,s.closers)) =
        some (none,some (.sent ['a'] 1),[.returned true]) := rfl
  obtain ⟨s,hs,hview⟩ := Option.map_eq_some_iff.mp hlast
  obtain ⟨hfault,hview⟩ := Prod.mk.inj hview
  obtain ⟨hsent,hclosers⟩ := Prod.mk.inj hview
  obtain ⟨c,hc,hchannel,_,_,_,hreturned⟩ :=
    (topology_calls twoCoordinators s hs).2 hfault 0 ['a'] 1 hsent
  exact ⟨s,hs,c,hc,hchannel,hreturned (hclosers ▸ List.mem_singleton_self _)⟩

end HurriCache.TopologyCalls
