import HurriCache.NodeLifecycle

/-!
# A future depends on its own call alone

Calls share the stub, the queue and its thread. Still the call object that a
caller has sent is what its own request and the events under its own tag make
of it, in whatever order the threads step. A unary call fulfils its promise
with its one event; a streaming call runs through its events.
-/

set_option autoImplicit false

namespace HurriCache.NodeFutures
open HurriCache.CallOutcomes HurriCache.StreamCall HurriCache.CompletionQueue
open HurriCache.NodeCalls HurriCache.NodeLifecycle HurriCache.PartialRun

section Lifetimes

variable {Response R Chunk S : Type}

def replyOutcome (conversion : Conversion Response R) (event : RpcEvent Response) : Outcome R :=
  if event.ok && event.status.ok then conversion.outcome event.response
  else .error (statusException event.status event.trailers)

/-- The call object of a request after the events under its tag. -/
inductive Settled [Inhabited Response] [Inhabited Chunk] [Inhabited S] :
    Sending Response R Chunk S → List (CallEvent Response Chunk) →
      CallData Response R Chunk S → Prop where
  | rpc (conversion : Conversion Response R) (events : List (RpcEvent Response))
      (call : RpcCallData Response R) (hone : events.length ≤ 1)
      (hpromise : call.promise = events.map (replyOutcome conversion)) :
    Settled (.rpc conversion) (events.map .rpc) (.rpc call)
  | stream (acc : Accumulator S Chunk) (events : List (Event Chunk))
      (call last : StreamCallData Chunk S) (hsend : sendAsyncStreamRequest false = .ok call)
      (hrun : run (StreamCall.completion acc) call events = some last) :
    Settled (.stream acc) (events.map .stream) (.stream acc last)

theorem stream_lifetime (acc : Accumulator S Chunk) (call : StreamCallData Chunk S)
    (events : List (CallEvent Response Chunk)) (c : CallData Response R Chunk S)
    (h : lifetime (callKind Response R Chunk S) (.stream acc call) events = some c) :
    ∃ es last, events = es.map .stream ∧ c = .stream acc last ∧
      run (StreamCall.completion acc) call es = some last := by
  induction events generalizing call with
  | nil =>
    cases h
    exact ⟨[],call,rfl,rfl,rfl⟩
  | cons event events ih =>
    obtain ⟨c',hc',hrest⟩ := Option.bind_eq_some_iff.mp h
    cases event with
    | rpc event => cases hc'
    | stream event =>
      obtain ⟨next,hnext,rfl⟩ := Option.map_eq_some_iff.mp hc'
      obtain ⟨es,last,rfl,rfl,hrun⟩ := ih next hrest
      exact ⟨event::es,last,rfl,rfl,(run_cons_eq_some _ _ _ _ _).mpr ⟨next,hnext,hrun⟩⟩

theorem rpc_completes (call : RpcCallData Response R) (event : RpcEvent Response)
    (c : CallData Response R Chunk S)
    (h : (callKind Response R Chunk S).completes (.rpc call) (.rpc event) = some c) :
    ∃ next, call.completion event = some next ∧ c = .rpc next := by
  obtain ⟨next,hnext,rfl⟩ := Option.map_eq_some_iff.mp h
  exact ⟨next,hnext,rfl⟩

theorem rpc_finished (call : RpcCallData Response R) (events : List (CallEvent Response Chunk))
    (c : CallData Response R Chunk S) (hf : call.finishing = false)
    (h : lifetime (callKind Response R Chunk S) (.rpc call) events = some c) :
    events = [] ∧ c = .rpc call := by
  cases events with
  | nil =>
    cases h
    exact ⟨rfl,rfl⟩
  | cons event events =>
    obtain ⟨c',hc',_⟩ := Option.bind_eq_some_iff.mp h
    cases event with
    | rpc event =>
      obtain ⟨next,hnext,_⟩ := rpc_completes call event c' hc'
      rw [(rpc_completion call next event hnext).1] at hf
      cases hf
    | stream event => cases hc'

theorem lifetime_settled [Inhabited Response] [Inhabited Chunk] [Inhabited S]
    (sending : Sending Response R Chunk S) (events : List (CallEvent Response Chunk))
    (c : CallData Response R Chunk S)
    (h : lifetime (callKind Response R Chunk S) sending.object events = some c) :
    Settled sending events c := by
  cases sending with
  | stream acc =>
    obtain ⟨es,last,rfl,rfl,hrun⟩ := stream_lifetime acc _ events c h
    exact .stream acc es _ last rfl hrun
  | rpc conversion =>
    cases events with
    | nil =>
      cases h
      exact .rpc conversion [] _ (Nat.zero_le 1) rfl
    | cons event events =>
      obtain ⟨c',hc',hrest⟩ := Option.bind_eq_some_iff.mp h
      cases event with
      | stream event => cases hc'
      | rpc event =>
        obtain ⟨next,hnext,rfl⟩ := rpc_completes _ event c' hc'
        obtain ⟨_,hf,_,hpromise⟩ := rpc_completion _ next event hnext
        obtain ⟨rfl,rfl⟩ := rpc_finished next events c hf hrest
        exact .rpc conversion [event] next (Nat.le_refl 1) hpromise

end Lifetimes

section Histories

variable {Response R Chunk S : Type}

def requests (actions : List (Action Response R Chunk S)) : List (Sending Response R Chunk S) :=
  actions.filterMap (fun a =>
    match a with
    | .call sending => some sending
    | _ => none)

def deliveries (actions : List (Action Response R Chunk S)) :
    List (ℕ × CallEvent Response Chunk) :=
  actions.filterMap (fun a =>
    match a with
    | .deliver tag event => some (tag,event)
    | _ => none)

variable [Inhabited Response] [Inhabited Chunk] [Inhabited S]

def Remembers (births : List (CallData Response R Chunk S))
    (sending : Option (Sending Response R Chunk S)) : SendPc Response R Chunk S → Prop
  | .checking r | .readingStub r | .preparing r _ | .starting r => sending = some r
  | .sent tag => ∃ r, sending = some r ∧ births[tag]? = some r.object
  | .refused _ => True

structure Traced (births : List (CallData Response R Chunk S))
    (actions : List (Action Response R Chunk S)) (s : State Response R Chunk S) : Prop where
  accounted : Accounted (callKind Response R Chunk S) s.served
  independent : Independent (callKind Response R Chunk S) births (deliveries actions) s.served
  callers : s.callers.length = (requests actions).length
  remembers : ∀ (x : ℕ) (pc : SendPc Response R Chunk S), s.callers[x]? = some pc →
    Remembers births (requests actions)[x]? pc

theorem remembers_set (births : List (CallData Response R Chunk S))
    (sendings : List (Sending Response R Chunk S)) (callers : List (SendPc Response R Chunk S))
    (x : ℕ) (pc pc' : SendPc Response R Chunk S) (hx : callers[x]? = some pc)
    (hkeep : ∀ sending, Remembers births sending pc → Remembers births sending pc')
    (h : ∀ (z : ℕ) (p : SendPc Response R Chunk S), callers[z]? = some p →
      Remembers births sendings[z]? p) :
    ∀ (z : ℕ) (p : SendPc Response R Chunk S), (callers.set x pc')[z]? = some p →
      Remembers births sendings[z]? p := by
  intro z p hz
  rcases getElem?_set_new callers pc' p x z hz with ⟨_,hold⟩ | ⟨rfl,rfl⟩
  · exact h z p hold
  · exact hkeep _ (h z pc hx)

theorem remembers_birth (births : List (CallData Response R Chunk S))
    (c : CallData Response R Chunk S) (sending : Option (Sending Response R Chunk S))
    (pc : SendPc Response R Chunk S) (h : Remembers births sending pc) :
    Remembers (births++[c]) sending pc := by
  cases pc with
  | sent tag =>
    obtain ⟨r,hr,hb⟩ := h
    obtain ⟨hlt,_⟩ := List.getElem?_eq_some_iff.mp hb
    exact ⟨r,hr,by rw [List.getElem?_append_left hlt, hb]⟩
  | _ => exact h

theorem traced_move (births : List (CallData Response R Chunk S))
    (actions : List (Action Response R Chunk S)) (s : State Response R Chunk S) (x : ℕ)
    (pc pc' : SendPc Response R Chunk S) (hx : s.callers[x]? = some pc)
    (hkeep : ∀ sending, Remembers births sending pc → Remembers births sending pc')
    (h : Traced births actions s) :
    Traced births (actions++[.send x]) { s with callers := s.callers.set x pc' } := by
  have hreq : requests (actions++[.send x]) = requests actions := by simp [requests]
  have hdel : deliveries (actions++[.send x]) = deliveries actions := by simp [deliveries]
  refine ⟨h.accounted,by rw [hdel]; exact h.independent,?_,?_⟩
  · rw [hreq, List.length_set]
    exact h.callers
  · rw [hreq]
    exact remembers_set births _ s.callers x pc pc' hx hkeep h.remembers

theorem traced_same (births : List (CallData Response R Chunk S))
    (actions : List (Action Response R Chunk S)) (a : Action Response R Chunk S)
    (s t : State Response R Chunk S) (hreq : requests (actions++[a]) = requests actions)
    (hdel : deliveries (actions++[a]) = deliveries actions) (hcallers : t.callers = s.callers)
    (hobjects : t.served.objects = s.served.objects)
    (hqueue : t.served.queue.outstanding = s.served.queue.outstanding)
    (h : Traced births actions s) : Traced births (actions++[a]) t := by
  refine ⟨⟨?_,?_,?_,?_⟩,⟨?_,?_,?_⟩,?_,?_⟩
  · exact hqueue ▸ h.accounted.nodup
  · rw [hqueue, hobjects]
    exact h.accounted.known
  · rw [hobjects]
    exact h.accounted.waits
  · rw [hqueue, hobjects]
    exact h.accounted.outstanding
  · rw [hobjects]
    exact h.independent.1
  · rw [hdel]
    exact h.independent.2.1
  · rw [hdel, hobjects]
    exact h.independent.2.2
  · rw [hreq, hcallers]
    exact h.callers
  · rw [hreq, hcallers]
    exact h.remembers

theorem traced_call (births : List (CallData Response R Chunk S))
    (actions : List (Action Response R Chunk S)) (sending : Sending Response R Chunk S)
    (s : State Response R Chunk S) (h : Traced births actions s) :
    Traced births (actions++[.call sending])
      { s with callers := s.callers++[.checking sending] } := by
  have hreq : requests (actions++[.call sending]) = requests actions++[sending] := by
    simp [requests]
  have hdel : deliveries (actions++[.call sending]) = deliveries actions := by simp [deliveries]
  refine ⟨h.accounted,by rw [hdel]; exact h.independent,by simp [hreq, h.callers],?_⟩
  intro x pc hx
  rw [hreq]
  rcases getElem?_append_new s.callers _ pc x hx with hold | ⟨rfl,rfl⟩
  · obtain ⟨hlt,_⟩ := List.getElem?_eq_some_iff.mp hold
    rw [List.getElem?_append_left (h.callers ▸ hlt)]
    exact h.remembers x pc hold
  · show (requests actions++[sending])[s.callers.length]? = some sending
    rw [h.callers, List.getElem?_concat_length]

theorem traced_start (births : List (CallData Response R Chunk S))
    (actions : List (Action Response R Chunk S)) (s : State Response R Chunk S) (x : ℕ)
    (sending : Sending Response R Chunk S) (served : Served (CallData Response R Chunk S))
    (hx : s.callers[x]? = some (.starting sending))
    (hs : s.served.create sending.object = .ok served) (h : Traced births actions s) :
    Traced (births++[sending.object]) (actions++[.send x]) { s with
      served := served
      callers := s.callers.set x (.sent s.served.objects.length) } := by
  have hreq : requests (actions++[.send x]) = requests actions := by simp [requests]
  have hdel : deliveries (actions++[.send x]) = deliveries actions := by simp [deliveries]
  obtain ⟨hw,hd,_⟩ := object_fresh sending
  refine ⟨create_accounted _ s.served served _ h.accounted hw hd hs,?_,?_,?_⟩
  · rw [hdel]
    exact create_independent _ births _ s.served served _ h.independent hs
  · rw [hreq, List.length_set]
    exact h.callers
  · rw [hreq]
    intro z p hz
    rcases getElem?_set_new s.callers _ p x z hz with ⟨_,hold⟩ | ⟨rfl,rfl⟩
    · exact remembers_birth births _ _ p (h.remembers z p hold)
    · refine ⟨sending,h.remembers z _ hx,?_⟩
      rw [h.independent.1, List.getElem?_concat_length]

theorem traced_deliver (births : List (CallData Response R Chunk S))
    (actions : List (Action Response R Chunk S)) (s : State Response R Chunk S) (tag : ℕ)
    (event : CallEvent Response Chunk) (served : Served (CallData Response R Chunk S))
    (hs : s.served.deliver (callKind Response R Chunk S) tag event = some (.ok served))
    (h : Traced births actions s) :
    Traced births (actions++[.deliver tag event]) { s with served := served } := by
  have hreq : requests (actions++[.deliver tag event]) = requests actions := by simp [requests]
  have hdel : deliveries (actions++[.deliver tag event]) = deliveries actions++[(tag,event)] := by
    simp [deliveries]
  refine ⟨deliver_accounted _ s.served served tag event h.accounted hs,?_,
    by rw [hreq]; exact h.callers,by rw [hreq]; exact h.remembers⟩
  rw [hdel]
  exact deliver_independent _ births _ s.served served tag event h.accounted h.independent hs

/-- The trace holds as long as the process has not broken down. -/
def TracedSoFar (actions : List (Action Response R Chunk S)) (s : State Response R Chunk S) :
    Prop := s.fault = none → ∃ births, Traced births actions s

theorem step_traced (actions : List (Action Response R Chunk S)) (a : Action Response R Chunk S)
    (s t : State Response R Chunk S) (hs : TracedSoFar actions s) (h : step s a = some t) :
    TracedSoFar (actions++[a]) t := by
  obtain ⟨hfault,hstep⟩ := step_cases s t a h
  obtain ⟨births,hs⟩ := hs hfault
  cases hstep with
  | call sending => exact fun _ => ⟨births,traced_call births actions sending s hs⟩
  | refuse x sending hx =>
    exact fun _ => ⟨births,traced_move births actions s x _ _ hx (fun _ _ => trivial) hs⟩
  | check x sending hx | readStub x sending hx | prepare x sending hx =>
    exact fun _ => ⟨births,traced_move births actions s x _ _ hx (fun _ hk => hk) hs⟩
  | nullStub | danglingStub | lateStart => exact fun hf => absurd hf (by simp)
  | start x sending served hx hc =>
    exact fun _ => ⟨_,traced_start births actions s x sending served hx hc hs⟩
  | deliver tag event r hserving hr =>
    cases r with
    | error b => exact fun hf => absurd hf (by simp [afterDeliver])
    | ok served => exact fun _ => ⟨births,traced_deliver births actions s tag event served hr hs⟩
  | drain | shutdown | lose | win | resetStub | closeQueue | join =>
    refine fun _ => ⟨births,traced_same births actions _ s _ ?_ ?_ rfl rfl rfl hs⟩
    · simp [requests]
    · simp [deliveries]

/-- The future of a call that was sent follows its own request and the events
under its own tag, whatever else the client does. -/
theorem futures_follow (actions : List (Action Response R Chunk S)) (s : State Response R Chunk S)
    (hrun : run step {} actions = some s) (hfault : s.fault = none) (x tag : ℕ)
    (hx : s.callers[x]? = some (.sent tag)) :
    ∃ sending c, (requests actions)[x]? = some sending ∧ s.served.objects[tag]? = some c ∧
      Settled sending (eventsOf (deliveries actions) tag) c := by
  have hinitial : TracedSoFar ([] : List (Action Response R Chunk S)) {} := fun _ =>
    ⟨[],empty_accounted _,⟨rfl,fun _ h => absurd h List.not_mem_nil,
      fun _ _ _ h => Option.some_ne_none _ h.symm |>.elim⟩,rfl,
      fun _ _ h => Option.some_ne_none _ h.symm |>.elim⟩
  have htraced := history_invariant step (fun _ => True) TracedSoFar
    (fun as u a v _ hu hv => step_traced as a u v hu hv) {} s actions (fun _ _ => trivial) hinitial
    hrun
  obtain ⟨births,htraced⟩ := htraced hfault
  obtain ⟨sending,hsending,hbirth⟩ := htraced.remembers x _ hx
  obtain ⟨hlt,_⟩ := List.getElem?_eq_some_iff.mp hbirth
  rw [← htraced.independent.1] at hlt
  have hobject := List.getElem?_eq_getElem hlt
  exact ⟨sending,_,hsending,hobject,
    lifetime_settled sending _ _ (htraced.independent.2.2 tag _ _ hbirth hobject)⟩

end Histories

def twoCalls : List (Action ℕ ℕ ℕ ℕ) :=
  [.call (.rpc (.transformer (fun n => .ok n))),.call (.stream none),.send 0,.send 1,.send 1,
    .send 0,.send 0,.send 1,.send 1,.send 0,.deliver 0 (.stream (.started true)),
    .deliver 1 (.rpc ⟨true,5,Status.initial,[]⟩),.deliver 0 (.stream (.read none))]

theorem futures_follow_sample : ∃ s, run step {} twoCalls = some s ∧
    ∃ sending c, (requests twoCalls)[0]? = some sending ∧ s.served.objects[1]? = some c ∧
      Settled sending (eventsOf (deliveries twoCalls) 1) c :=
  ⟨_,rfl,futures_follow twoCalls _ rfl rfl 0 1 rfl⟩

end HurriCache.NodeFutures
