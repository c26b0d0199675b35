import HurriCache.InsertRequests
import HurriCache.OrderedEncoders
import HurriCache.SmartOperations

/-!
# Sizes of requests

The request of a method that carries elements, and its serialized size as the
size of the fields of its own and of the elements with their framing. Beside
it stand the sizes that the splitters take for the elements of the method.
-/

set_option autoImplicit false

namespace HurriCache.RequestSizes
open HurriCache.ClientTypes HurriCache.PayloadCompression HurriCache.WireMessages
open HurriCache.MessageBuilders HurriCache.StandaloneCalls HurriCache.OrderedEncoders
open HurriCache.InsertRequests HurriCache.ChunkSplitters HurriCache.SmartOperations

inductive InsertRequest where
  | create (r : CreateContainerRequest)
  | add (r : AddToRequest)
  | addToVal (r : AddToValRequest)

namespace InsertRequest

def byteSize : InsertRequest → ℕ
  | .create r => r.byteSize
  | .add r => r.byteSize
  | .addToVal r => r.byteSize

/-- The fields that are not repeated: the key, and the type, the lifetime, the
position or the pivot. -/
def head : InsertRequest → ℕ
  | .create r => lengthDelimited r.key.byteSize+implicitField r.type.number+
      optionalField uint64Field r.ttl
  | .add r => lengthDelimited r.key.byteSize+optionalField (fun t => varintField t.number) r.type+
      optionalField uint32Field r.pos
  | .addToVal r => lengthDelimited r.key.byteSize+(if r.isBefore then 2 else 0)+
      lengthDelimited r.pos.byteSize

def keySizes : InsertRequest → List ℕ
  | .create r => r.key_unordered.map KeyMessage.byteSize++
      r.key_ordered.map OrderedKeyMessage.byteSize
  | .add r => r.key_unordered.map KeyMessage.byteSize++
      r.key_ordered.map OrderedKeyMessage.byteSize
  | .addToVal _ => []

def valueSizes : InsertRequest → List ℕ
  | .create r => r.value_unordered.map ValueMessage.byteSize++
      r.value_ordered.map OrderedValueMessage.byteSize
  | .add r => r.value_unordered.map ValueMessage.byteSize++
      r.value_ordered.map OrderedValueMessage.byteSize
  | .addToVal r => r.value.map ValueMessage.byteSize

def bodies (r : InsertRequest) : List ℕ := r.keySizes++r.valueSizes

def elementCount (r : InsertRequest) : ℕ := r.valueSizes.length

def framing (r : InsertRequest) : ℕ := (r.bodies.map varintField).sum

theorem sum_lengthDelimited (l : List ℕ) :
    (l.map lengthDelimited).sum = (l.map varintField).sum+l.sum := by
  induction l with
  | nil => rfl
  | cons n ns ih =>
    simp only [List.map_cons, List.sum_cons, ih, lengthDelimited, varintField]
    omega

theorem repeatedField_eq {A : Type} (size : A → ℕ) (elements : List A) :
    repeatedField size elements = ((elements.map size).map lengthDelimited).sum := by
  rw [List.map_map]
  rfl

theorem byteSize_eq (r : InsertRequest) : r.byteSize = r.head+r.framing+r.bodies.sum := by
  have hsum := sum_lengthDelimited r.bodies
  rw [framing, Nat.add_assoc, ← hsum, bodies]
  cases r with
  | create r =>
    simp only [byteSize, CreateContainerRequest.byteSize, head, keySizes, valueSizes,
      repeatedField_eq, List.map_append, List.sum_append]
    omega
  | add r =>
    simp only [byteSize, AddToRequest.byteSize, head, keySizes, valueSizes, repeatedField_eq,
      List.map_append, List.sum_append]
    omega
  | addToVal r =>
    simp only [byteSize, AddToValRequest.byteSize, head, keySizes, valueSizes, repeatedField_eq,
      List.nil_append]

end InsertRequest

section Requests

variable (lib : Libdeflate)

/-- The keys of the map are dereferenced before anything is built. -/
def createOrderedMapRequestOf (key : Key) (hint : Option KeyHint)
    (initialValue : Option (List (OrderedKeyPtr × OrderedValuePtr))) (now ttl : Int64)
    (clientId : Int32) : Except Fault CreateContainerRequest := do
  let entries ← (initialValue.getD []).mapM (fun e => do .ok (← deref e.1,e.2))
  createOrderedMapRequest lib key hint (some entries) now ttl clientId

def insertRequest (threshold : Int32) (now : Int64) (call : StandaloneCall) :
    Except Fault (Option InsertRequest) :=
  let key := call.key
  let hint := call.hint
  let cid := call.clientId
  let create (r : Except Fault CreateContainerRequest) := r.map (fun r => some (.create r))
  let add (r : Except Fault AddToRequest) := r.map (fun r => some (.add r))
  let unordered (type : ContainerKind) (vs : Option (List ValuePtr)) (ttl : Int64) :=
    create (buildContainerRequest lib key hint cid type now ttl vs threshold)
  match call.method with
  | .createQueue vs ttl => unordered .QUEUE vs ttl
  | .createList vs ttl => unordered .LIST vs ttl
  | .createVector vs ttl => unordered .VECTOR vs ttl
  | .createSet vs ttl => unordered .SET vs ttl
  | .createOrderedSet vs ttl =>
    create (buildContainerRequestOrdered lib key hint cid .ORDERED_SET now ttl vs threshold)
  | .createMap es ttl => create (createMapRequest lib key hint cid es now ttl)
  | .createOrderedMap es ttl => create (createOrderedMapRequestOf lib key hint es now ttl cid)
  | .addElementUnordered data | .addElementToTail data | .addElementToHead data =>
    add (addRequest lib key hint cid data none)
  | .addElementToPosition data pos => add (addRequest lib key hint cid data (some pos))
  | .addElementToPositionBefore data pivot =>
    (addToValRequest lib key hint cid true data pivot).map (Option.map .addToVal)
  | .addElementToPositionAfter data pivot =>
    (addToValRequest lib key hint cid false data pivot).map (Option.map .addToVal)
  | .addElementWithWeight data => add (addElementWithWeightRequest lib key hint data cid)
  | .addElementHashMap keys values =>
    (addElementHashMapRequest lib key hint cid keys values).map (Option.map .add)
  | .addElementOrderedMap keys values =>
    (addElementOrderedMapRequest lib key hint cid keys values).map (Option.map .add)
  | _ => .ok none

/-- What the splitters take for the keys and the values of a method. -/
def estimatedSizes (clientId threshold : Int32) :
    Method → Except Fault (List UInt64 × List UInt64)
  | .createQueue vs _ | .createList vs _ | .createVector vs _ | .createSet vs _
  | .addElementUnordered vs | .addElementToTail vs | .addElementToHead vs
  | .addElementToPosition vs _ | .addElementToPositionBefore vs _
  | .addElementToPositionAfter vs _ => do
    .ok ([],← (vs.getD []).mapM (estimateValueSize lib clientId threshold))
  | .createOrderedSet vs _ | .addElementWithWeight vs => do
    .ok ([],← (vs.getD []).mapM (estimateOrderedValueSize lib clientId threshold))
  | .createMap es _ => do
    .ok (← (es.getD []).mapM (fun e => estimateKeySize lib clientId threshold e.1),
      ← (es.getD []).mapM (fun e => estimateValueSize lib clientId threshold e.2))
  | .createOrderedMap es _ => do
    .ok (← (es.getD []).mapM (fun e => estimateOrderedKeySize clientId e.1),
      ← (es.getD []).mapM (fun e => estimateOrderedValueSize lib clientId threshold e.2))
  | .addElementHashMap keys values => do
    .ok (← (keys.getD []).mapM (estimateKeySize lib clientId threshold),
      ← (values.getD []).mapM (estimateValueSize lib clientId threshold))
  | .addElementOrderedMap keys values => do
    .ok (← (keys.getD []).mapM (estimateOrderedValueSize lib clientId threshold),
      ← (values.getD []).mapM (estimateValueSize lib clientId threshold))
  | _ => .ok ([],[])

end Requests

end HurriCache.RequestSizes
