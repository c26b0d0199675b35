import HurriCache.CallOutcomes
import HurriCache.MessageDecoders

/-!
# Streaming calls

`StreamCallData` as the completion queue drives it. The reader has at most
one operation outstanding. Its completion writes the batch or the final
status into the call object and only then runs `Proceed`. The accumulator
works in place, so what it did before throwing stays in the result.
-/

set_option autoImplicit false

namespace HurriCache.StreamCall
open HurriCache.ClientTypes HurriCache.CallOutcomes
open HurriCache.PayloadCompression HurriCache.WireMessages HurriCache.MessageDecoders

inductive Operation where
  | StartCall | Read | Finish
  deriving DecidableEq, Repr

inductive State where
  | STARTED | READING | FINISHING
  deriving DecidableEq, Repr

/-- How a call of the accumulator ends, with the result it leaves behind. -/
inductive Accumulation (R : Type) where
  | done (result : R)
  | threw (result : R)

abbrev Accumulator (R Chunk : Type) := Option (R → Chunk → Accumulation R)

structure StreamCallData (Chunk R : Type) where
  promise : List (Outcome R) := []
  context : List (Text × Text) := []
  status : Status := Status.initial
  reader : Option Operation := none
  current_chunk : Chunk
  accumulated_result : R
  state : State := .STARTED
  deleted : Bool := false

def kRouteKey : Text := "x-fastcache-route".toList

def extractRouteTrailer (context : List (Text × Text)) : Text :=
  ((context.find? (fun entry => entry.1 == kRouteKey)).map (·.2)).getD []

def statusException (status : Status) (context : List (Text × Text)) : CallException :=
  .grpc status.error_code status.error_message (extractRouteTrailer context)

section Machine

variable {Chunk R : Type}

def proceed (chunk_accumulator : Accumulator R Chunk) (ok : Bool)
    (call : StreamCallData Chunk R) : StreamCallData Chunk R :=
  match call.state with
  | .STARTED =>
    if ok then { call with state := .READING, reader := some .Read }
    else { call with state := .FINISHING, reader := some .Finish }
  | .READING =>
    if ok then
      match chunk_accumulator with
      | none => { call with reader := some .Read }
      | some accumulate =>
        match accumulate call.accumulated_result call.current_chunk with
        | .done result => { call with accumulated_result := result, reader := some .Read }
        | .threw result => { call with
            accumulated_result := result
            state := .FINISHING
            status := ⟨.UNKNOWN,"Exception in chunk_accumulator".toList⟩
            reader := some .Finish }
    else { call with state := .FINISHING, reader := some .Finish }
  | .FINISHING =>
    if call.status.ok then
      { call with promise := call.promise++[.ok call.accumulated_result], deleted := true }
    else { call with
      promise := call.promise++[.error (statusException call.status call.context)]
      deleted := true }

inductive Event (Chunk : Type) where
  | started (ok : Bool)
  | read (chunk : Option Chunk)
  | finished (status : Status) (trailers : List (Text × Text))

/-- Only the outstanding operation completes, and `Finish` overwrites the
status object. -/
def completion (chunk_accumulator : Accumulator R Chunk) (call : StreamCallData Chunk R)
    (event : Event Chunk) : Option (StreamCallData Chunk R) :=
  let idle := { call with reader := none }
  match call.reader, event with
  | some .StartCall, .started ok => some (proceed chunk_accumulator ok idle)
  | some .Read, .read (some chunk) =>
    some (proceed chunk_accumulator true { idle with current_chunk := chunk })
  | some .Read, .read none => some (proceed chunk_accumulator false idle)
  | some .Finish, .finished status trailers =>
    some (proceed chunk_accumulator true { idle with status := status, context := trailers })
  | _, _ => none

def sendAsyncStreamRequest [Inhabited Chunk] [Inhabited R] (isShutdown : Bool) :
    Except CallException (StreamCallData Chunk R) :=
  if isShutdown then .error (.other "Client is shut down".toList)
  else .ok {
    reader := some .StartCall
    current_chunk := default
    accumulated_result := default }

def batches (events : List (Event Chunk)) : List Chunk :=
  events.filterMap (fun event =>
    match event with
    | .read chunk => chunk
    | _ => none)

@[simp] theorem batches_append (es fs : List (Event Chunk)) :
    batches (es++fs) = batches es++batches fs := by
  simp [batches]

@[simp] theorem batches_nil : batches ([] : List (Event Chunk)) = [] := rfl

@[simp] theorem batches_started (ok : Bool) :
    batches [(.started ok : Event Chunk)] = [] := rfl

@[simp] theorem batches_batch (chunk : Chunk) : batches [.read (some chunk)] = [chunk] := rfl

@[simp] theorem batches_eof : batches [(.read none : Event Chunk)] = [] := rfl

@[simp] theorem batches_finished (status : Status) (trailers : List (Text × Text)) :
    batches [(.finished status trailers : Event Chunk)] = [] := rfl

def foldBatches (chunk_accumulator : Accumulator R Chunk) (result : R) :
    List Chunk → Option R
  | [] => some result
  | chunk::rest =>
    match chunk_accumulator with
    | none => foldBatches chunk_accumulator result rest
    | some accumulate =>
      match accumulate result chunk with
      | .done next => foldBatches chunk_accumulator next rest
      | .threw _ => none

theorem foldBatches_append (acc : Accumulator R Chunk) (r : R) (cs ds : List Chunk) :
    foldBatches acc r (cs++ds) =
      (foldBatches acc r cs).bind (fun s => foldBatches acc s ds) := by
  induction cs generalizing r with
  | nil => rfl
  | cons c cs ih =>
    cases acc with
    | none => exact ih r
    | some accumulate =>
      cases h : accumulate r c with
      | done s => simpa [foldBatches, h] using ih s
      | threw s => simp [foldBatches, h]

theorem foldBatches_none_of_prefix (acc : Accumulator R Chunk) (r : R) (cs ds : List Chunk)
    (hp : cs <+: ds) (h : foldBatches acc r cs = none) : foldBatches acc r ds = none := by
  obtain ⟨rest,rfl⟩ := hp
  simp [foldBatches_append, h]

/-- Everything one completion can be. -/
theorem completion_cases (acc : Accumulator R Chunk) (call next : StreamCallData Chunk R)
    (event : Event Chunk) (h : completion acc call event = some next) :
    (∃ ok, call.reader = some .StartCall ∧ event = .started ok ∧
      next = proceed acc ok { call with reader := none }) ∨
    (∃ chunk, call.reader = some .Read ∧ event = .read (some chunk) ∧
      next = proceed acc true { call with reader := none, current_chunk := chunk }) ∨
    (call.reader = some .Read ∧ event = .read none ∧
      next = proceed acc false { call with reader := none }) ∨
    ∃ status trailers, call.reader = some .Finish ∧ event = .finished status trailers ∧
      next = proceed acc true
        { call with reader := none, status := status, context := trailers } := by
  unfold completion at h
  split at h
  next ok hr => exact Or.inl ⟨ok,hr,rfl,(Option.some.inj h).symm⟩
  next chunk hr => exact Or.inr (Or.inl ⟨chunk,hr,rfl,(Option.some.inj h).symm⟩)
  next hr => exact Or.inr (Or.inr (Or.inl ⟨hr,rfl,(Option.some.inj h).symm⟩))
  next status trailers hr =>
    exact Or.inr (Or.inr (Or.inr ⟨status,trailers,hr,rfl,(Option.some.inj h).symm⟩))
  next => cases h

end Machine

structure BatchValueResponse where
  value_unordered : List ValueMessage := []
  value_ordered : List OrderedValueMessage := []

instance : Inhabited BatchValueResponse := ⟨{}⟩

def pushAll {M E : Type} (decode : M → Option E) : List E → List M → Accumulation (List E)
  | result, [] => .done result
  | result, m::ms =>
    match decode m with
    | some v => pushAll decode (result++[v]) ms
    | none => .threw result

/-- A byte decoder allocates the stated raw size of a compressed payload. -/
def allocationFails (heap : ℕ) (type : Option ValueType) (info : Option CompressedInfo) : Bool :=
  type == some .BYTES && isCompressed info && decide (heap < (rawSizeOf info).toNat)

def streamList (lib : Libdeflate) (heap : ℕ) : Accumulator (List ValuePtr) BatchValueResponse :=
  some (fun result chunk => pushAll
    (fun m => if allocationFails heap (inferType m) m.compressionInfo then none
      else some (valueRequestToValue lib m)) result chunk.value_unordered)

def streamOrderedSet (lib : Libdeflate) (heap : ℕ) :
    Accumulator (List OrderedValuePtr) BatchValueResponse :=
  some (fun result chunk => pushAll
    (fun m => if allocationFails heap (some m.typeOrDefault) m.compressionInfo then none
      else some (valueRequestToOrderedValue lib m)) result chunk.value_ordered)

end HurriCache.StreamCall
