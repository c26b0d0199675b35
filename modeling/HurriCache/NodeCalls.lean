import HurriCache.CompletionQueue
import HurriCache.CoordinatorStream

/-!
# The call objects of a node's client

A unary call has one operation, its `Finish`. A streaming call goes on with
the operations of `StreamCallData`. Either kind is driven by the completion
queue, and both delete themselves once their promise is fulfilled.
-/

set_option autoImplicit false

namespace HurriCache.NodeCalls
open HurriCache.ClientTypes HurriCache.CallOutcomes HurriCache.StreamCall
open HurriCache.CoordinatorStream (operationOf)
open HurriCache.CompletionQueue

/-- How a response becomes a result. A response type that is the result type
needs no transformer. -/
inductive Conversion (Response R : Type) where
  | same (result : Response → R)
  | transformer (convert : Response → Outcome R)
  | missing

structure RpcCallData (Response R : Type) where
  promise : List (Outcome R) := []
  response : Response
  context : List (Text × Text) := []
  status : Status := Status.initial
  conversion : Conversion Response R
  finishing : Bool := false
  deleted : Bool := false

section Rpc

variable {Response R : Type}

/-- The exception of a transformer is caught and goes to the promise. -/
def Conversion.outcome (conversion : Conversion Response R) (response : Response) : Outcome R :=
  match conversion with
  | .same result => .ok (result response)
  | .transformer convert => convert response
  | .missing => .error (.other "Transformer not set for non-matching types".toList)

def RpcCallData.proceed (ok : Bool) (call : RpcCallData Response R) : RpcCallData Response R :=
  if ok && call.status.ok then
    { call with
      promise := call.promise++[call.conversion.outcome call.response]
      deleted := true }
  else { call with
    promise := call.promise++[.error (statusException call.status call.context)]
    deleted := true }

structure RpcEvent (Response : Type) where
  ok : Bool
  response : Response
  status : Status
  trailers : List (Text × Text)

def RpcCallData.completion (call : RpcCallData Response R) (event : RpcEvent Response) :
    Option (RpcCallData Response R) :=
  if call.finishing then
    some (RpcCallData.proceed event.ok { call with
      finishing := false
      response := event.response
      status := event.status
      context := event.trailers })
  else none

end Rpc

section Calls

variable {Response R Chunk S : Type}

inductive CallData (Response R Chunk S : Type) where
  | rpc (call : RpcCallData Response R)
  | stream (chunk_accumulator : Accumulator S Chunk) (call : StreamCallData Chunk S)

inductive CallEvent (Response Chunk : Type) where
  | rpc (event : RpcEvent Response)
  | stream (event : Event Chunk)

inductive Sending (Response R Chunk S : Type) where
  | rpc (conversion : Conversion Response R)
  | stream (chunk_accumulator : Accumulator S Chunk)

def Sending.object [Inhabited Response] [Inhabited Chunk] [Inhabited S] :
    Sending Response R Chunk S → CallData Response R Chunk S
  | .rpc conversion => .rpc { response := default, conversion := conversion, finishing := true }
  | .stream chunk_accumulator => .stream chunk_accumulator {
      reader := some .StartCall
      current_chunk := default
      accumulated_result := default }

namespace CallData

def waits : CallData Response R Chunk S → Bool
  | .rpc call => call.finishing
  | .stream _ call => call.reader.isSome

def deleted : CallData Response R Chunk S → Bool
  | .rpc call => call.deleted
  | .stream _ call => call.deleted

def fulfilments : CallData Response R Chunk S → ℕ
  | .rpc call => call.promise.length
  | .stream _ call => call.promise.length

def completes : CallData Response R Chunk S → CallEvent Response Chunk →
    Option (CallData Response R Chunk S)
  | .rpc call, .rpc event => (call.completion event).map .rpc
  | .stream acc call, .stream event => (StreamCall.completion acc call event).map (.stream acc)
  | _, _ => none

def ending : CallData Response R Chunk S → Bool
  | .rpc _ => true
  | .stream _ call => call.state == .FINISHING

end CallData

theorem proceed_alternates (acc : Accumulator S Chunk) (ok : Bool) (call : StreamCallData Chunk S)
    (hr : call.reader = none) (hd : call.deleted = false) :
    (proceed acc ok call).reader.isSome = !(proceed acc ok call).deleted := by
  unfold proceed
  cases call.state with
  | STARTED => cases ok <;> simp [hd]
  | READING =>
    cases ok with
    | false => simp [hd]
    | true =>
      cases acc with
      | none => simp [hd]
      | some accumulate =>
        cases ha : accumulate call.accumulated_result call.current_chunk <;> simp [ha, hd]
  | FINISHING => cases call.status.ok <;> simp [hr]

theorem stream_alternates (acc : Accumulator S Chunk) (call next : StreamCallData Chunk S)
    (event : Event Chunk) (hd : call.deleted = false)
    (h : StreamCall.completion acc call event = some next) :
    next.reader.isSome = !next.deleted := by
  rcases completion_cases acc call next event h with
    ⟨ok,_,_,rfl⟩ | ⟨chunk,_,_,rfl⟩ | ⟨_,_,rfl⟩ | ⟨status,trailers,_,_,rfl⟩
  all_goals exact proceed_alternates acc _ _ rfl hd

theorem rpc_completion (call next : RpcCallData Response R) (event : RpcEvent Response)
    (h : call.completion event = some next) :
    call.finishing = true ∧ next.finishing = false ∧ next.deleted = true ∧
      next.promise = call.promise++[if event.ok && event.status.ok then
        call.conversion.outcome event.response
      else .error (statusException event.status event.trailers)] := by
  unfold RpcCallData.completion at h
  split at h
  next hf =>
    cases h
    unfold RpcCallData.proceed
    refine ⟨hf,?_,?_,?_⟩ <;> split <;> rfl
  next => cases h

def callKind (Response R Chunk S : Type) :
    ObjectKind (CallData Response R Chunk S) (CallEvent Response Chunk) where
  waits := CallData.waits
  deleted := CallData.deleted
  completes := CallData.completes
  alternates := by
    intro c e c' hd h
    cases c with
    | rpc call =>
      cases e with
      | rpc event =>
        obtain ⟨next,hn,rfl⟩ := Option.map_eq_some_iff.mp h
        obtain ⟨_,hf,hdel,_⟩ := rpc_completion call next event hn
        simp [CallData.waits, CallData.deleted, hf, hdel]
      | stream event => cases h
    | stream acc call =>
      cases e with
      | rpc event => cases h
      | stream event =>
        obtain ⟨next,hn,rfl⟩ := Option.map_eq_some_iff.mp h
        exact stream_alternates acc call next event hd hn

theorem object_fresh [Inhabited Response] [Inhabited Chunk] [Inhabited S]
    (sending : Sending Response R Chunk S) :
    sending.object.waits = true ∧ sending.object.deleted = false ∧
      sending.object.fulfilments = 0 := by
  cases sending <;> exact ⟨rfl,rfl,rfl⟩

/-- The outstanding operation of a stream is the one of its state. -/
def CallData.matched : CallData Response R Chunk S → Prop
  | .rpc _ => True
  | .stream _ call => ∀ op, call.reader = some op → op = operationOf call.state

structure Sound (c : CallData Response R Chunk S) : Prop where
  promised : c.fulfilments = if c.deleted then 1 else 0
  matched : c.matched

theorem object_sound [Inhabited Response] [Inhabited Chunk] [Inhabited S]
    (sending : Sending Response R Chunk S) : Sound sending.object := by
  cases sending with
  | rpc conversion => exact ⟨rfl,trivial⟩
  | stream acc => exact ⟨rfl,fun op h => (Option.some.inj h).symm⟩

theorem proceed_matched (acc : Accumulator S Chunk) (ok : Bool) (call : StreamCallData Chunk S)
    (hr : call.reader = none) (op : Operation) (h : (proceed acc ok call).reader = some op) :
    op = operationOf (proceed acc ok call).state := by
  unfold proceed at h ⊢
  cases hs : call.state with
  | STARTED => cases ok <;> simpa [hs, operationOf, eq_comm] using h
  | READING =>
    cases ok with
    | false => simpa [hs, operationOf, eq_comm] using h
    | true =>
      cases acc with
      | none => simpa [hs, operationOf, eq_comm] using h
      | some accumulate =>
        cases ha : accumulate call.accumulated_result call.current_chunk <;>
          simpa [hs, ha, operationOf, eq_comm] using h
  | FINISHING => cases hok : call.status.ok <;> simp [hs, hok, hr] at h

theorem proceed_promised (acc : Accumulator S Chunk) (ok : Bool) (call : StreamCallData Chunk S)
    (hd : call.deleted = false) (hp : call.promise.length = 0) :
    (proceed acc ok call).promise.length = if (proceed acc ok call).deleted then 1 else 0 := by
  unfold proceed
  cases call.state with
  | STARTED => cases ok <;> simp [hd, hp]
  | READING =>
    cases ok with
    | false => simp [hd, hp]
    | true =>
      cases acc with
      | none => simp [hd, hp]
      | some accumulate =>
        cases ha : accumulate call.accumulated_result call.current_chunk <;> simp [ha, hd, hp]
  | FINISHING => cases call.status.ok <;> simp [hp]

theorem completes_sound (c c' : CallData Response R Chunk S) (e : CallEvent Response Chunk)
    (hd : c.deleted = false) (hp : Sound c) (h : c.completes e = some c') : Sound c' := by
  have hzero : c.fulfilments = 0 := by rw [hp.promised, hd]; rfl
  cases c with
  | rpc call =>
    cases e with
    | rpc event =>
      obtain ⟨next,hn,rfl⟩ := Option.map_eq_some_iff.mp h
      obtain ⟨_,_,hdel,hprom⟩ := rpc_completion call next event hn
      have hcall : call.promise.length = 0 := hzero
      refine ⟨?_,trivial⟩
      simp [CallData.fulfilments, CallData.deleted, hdel, hprom, hcall]
    | stream event => cases h
  | stream acc call =>
    cases e with
    | rpc event => cases h
    | stream event =>
      obtain ⟨next,hn,rfl⟩ := Option.map_eq_some_iff.mp h
      rcases completion_cases acc call next event hn with
        ⟨ok,_,_,rfl⟩ | ⟨chunk,_,_,rfl⟩ | ⟨_,_,rfl⟩ | ⟨status,trailers,_,_,rfl⟩
      all_goals exact ⟨proceed_promised acc _ _ hd hzero,proceed_matched acc _ _ rfl⟩

theorem ending_deletes (c c' : CallData Response R Chunk S) (e : CallEvent Response Chunk)
    (hend : c.ending = true) (h : c.completes e = some c') : c'.deleted = true := by
  cases c with
  | rpc call =>
    cases e with
    | rpc event =>
      obtain ⟨next,hn,rfl⟩ := Option.map_eq_some_iff.mp h
      exact (rpc_completion call next event hn).2.2.1
    | stream event => cases h
  | stream acc call =>
    cases e with
    | rpc event => cases h
    | stream event =>
      obtain ⟨next,hn,rfl⟩ := Option.map_eq_some_iff.mp h
      have hstate : call.state = .FINISHING := by simpa [CallData.ending] using hend
      rcases completion_cases acc call next event hn with
        ⟨ok,_,_,rfl⟩ | ⟨chunk,_,_,rfl⟩ | ⟨_,_,rfl⟩ | ⟨status,trailers,_,_,rfl⟩
      all_goals
        simp only [CallData.deleted, proceed, hstate]
        split <;> rfl

/-- A call before its last operation can always start another one. -/
theorem continues (c : CallData Response R Chunk S) (hs : Sound c) (hw : c.waits = true)
    (hd : c.deleted = false) (hend : c.ending = false) :
    ∃ e c', c.completes e = some c' ∧ c'.waits = true := by
  cases c with
  | rpc call => cases hend
  | stream acc call =>
    obtain ⟨op,hop⟩ := Option.isSome_iff_exists.mp hw
    have hmatch := hs.matched op hop
    cases hstate : call.state with
    | STARTED =>
      rw [hstate] at hmatch
      rw [hmatch] at hop
      refine ⟨.stream (.started false),.stream acc (proceed acc false { call with reader := none }),
        ?_,?_⟩
      · simp [CallData.completes, StreamCall.completion, hop, operationOf]
      · simp [CallData.waits, proceed, hstate]
    | READING =>
      rw [hstate] at hmatch
      rw [hmatch] at hop
      refine ⟨.stream (.read none),.stream acc (proceed acc false { call with reader := none }),
        ?_,?_⟩
      · simp [CallData.completes, StreamCall.completion, hop, operationOf]
      · simp [CallData.waits, proceed, hstate]
    | FINISHING => simp [CallData.ending, hstate] at hend

end Calls

end HurriCache.NodeCalls
