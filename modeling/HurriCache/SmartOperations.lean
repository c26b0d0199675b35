import HurriCache.ChunkSplitters
import HurriCache.StandaloneCalls

/-!
# The operations of the smart client

Every operation is the list of `execute` calls it makes. Most forward one
call; the inserting ones cut their data into chunks and the creating ones
send a first prefix and keep the rest for later. The chunk limit is an
argument, `maxRpcSize` in the source. An entry list stands for a pointer-keyed
map in its iteration order.
-/

set_option autoImplicit false

namespace HurriCache.SmartOperations
open HurriCache.ClientTypes HurriCache.KeyHashes HurriCache.PayloadCompression
open HurriCache.WireMessages HurriCache.MessageBuilders HurriCache.StandaloneCalls
open HurriCache.ChunkSplitters

structure SmartClient where
  default_ttl : Int64 := 0
  default_client_id : Int32 := 0
  compression_threshold : Int32 := 1024
  max_inbound_message_size : Int32 := 67108864

def SmartClient.effectiveClientId (client : SmartClient) (clientId : Int32) : Int32 :=
  if clientId ≠ 0 then clientId else client.default_client_id

def SmartClient.effectiveTtl (client : SmartClient) (ttl : Int64) : Int64 :=
  if 0 < ttl then ttl else client.default_ttl

def SmartClient.maxRpcSize (client : SmartClient) : Int64 :=
  let kBase : Int64 := 4*1024*1024
  let base := max kBase client.max_inbound_message_size.toInt64
  base-base/8

def resolveHint (key : Key) (hint : Option KeyHint) : Option KeyHint :=
  match hint with
  | some h => some h
  | none => calculateKeyHint key

inductive AddPlan where
  | immediate (result : UInt32)
  | pipeline (calls : List Dispatch)

/-- A creation and what `createWithRemainder` sends after its reply. -/
structure CreatePlan where
  create_future : Dispatch
  remainder : Option (KeyHint → List Dispatch)

inductive Plan where
  | forward (call : Dispatch)
  | add (plan : AddPlan)
  | create (plan : CreatePlan)

/-- The order in which a freshly filled pointer-keyed map is iterated. It
depends on the addresses of the keys and is only known to be a permutation. -/
structure AddressOrder where
  order : (E : Type) → List E → List E
  perm : ∀ (E : Type) (l : List E), (order E l).Perm l

def givenOrder : AddressOrder := ⟨fun _ l => l,fun _ l => List.Perm.refl l⟩

section Operations

variable (lib : Libdeflate) (client : SmartClient) (max_rpc_size : Int64)
  (key : Key) (hint : Option KeyHint) (clientId : Int32)

def dispatch (method : Method) : Dispatch :=
  let hint_copy := resolveHint key hint
  ⟨hint_copy,⟨key,hint_copy,client.effectiveClientId clientId,method⟩⟩

/-- A remainder call: routed and labelled with the hint of the create reply. -/
def dispatchRemainder (method : Method) (res_hint : KeyHint) : Dispatch :=
  ⟨some res_hint,⟨key,some res_hint,client.effectiveClientId clientId,method⟩⟩

def addBase : Except Fault UInt64 := do
  .ok ((← estimateKeySize lib (client.effectiveClientId clientId)
    client.compression_threshold (some key))+32)

theorem addBase_ok (h : KeyEncodable lib key client.compression_threshold) :
    ∃ base, addBase lib client key clientId = .ok base := by
  obtain ⟨m,hm⟩ := buildKeyProto_ok lib key none (client.effectiveClientId clientId)
    client.compression_threshold h
  exact ⟨_,by simp [addBase, estimateKeySize, hm, bind, Except.bind]; rfl⟩

section Additions

def addValues (data : Option (List ValuePtr)) (calls : List (List ValuePtr) → List Method) :
    Except Fault AddPlan :=
  match data with
  | none => .ok (.immediate 0)
  | some [] => .ok (.immediate 0)
  | some (v::vs) => do
    let base ← addBase lib client key clientId
    let chunks ← partitionValueChunks lib base (client.effectiveClientId clientId)
      client.compression_threshold max_rpc_size (copyValues (some (v::vs)))
    .ok (.pipeline ((calls chunks).map (dispatch client key hint clientId)))

def valueBlocks (base : UInt64) (values : List Value) : List (List Value) :=
  blocksOf (valueSize lib (client.effectiveClientId clientId) client.compression_threshold)
    base max_rpc_size values

theorem addValues_some (base : UInt64) (hb : addBase lib client key clientId = .ok base)
    (values : List Value) (hne : values ≠ []) (calls : List (List ValuePtr) → List Method) :
    addValues lib client max_rpc_size key hint clientId (some (values.map some)) calls =
      .ok (.pipeline ((calls ((valueBlocks lib client max_rpc_size clientId base values).map
        (List.map some))).map (dispatch client key hint clientId))) := by
  obtain ⟨v,vs,rfl⟩ := List.exists_cons_of_ne_nil hne
  have hp := partitionValueChunks_some lib base (client.effectiveClientId clientId)
    client.compression_threshold max_rpc_size (v::vs)
  simp only [List.map_cons] at hp ⊢
  simp only [addValues, hb, copyValues_eq, Option.getD_some, hp, bind, Except.bind, valueBlocks]

def addElementUnordered (data : Option (List ValuePtr)) : Except Fault AddPlan :=
  addValues lib client max_rpc_size key hint clientId data
    (fun chunks => chunks.map (fun chunk => .addElementUnordered (some chunk)))

def addElementToTail (data : Option (List ValuePtr)) : Except Fault AddPlan :=
  addValues lib client max_rpc_size key hint clientId data
    (fun chunks => chunks.map (fun chunk => .addElementToTail (some chunk)))

def addElementToHead (data : Option (List ValuePtr)) : Except Fault AddPlan :=
  addValues lib client max_rpc_size key hint clientId data
    (fun chunks => chunks.reverse.map (fun chunk => .addElementToHead (some chunk)))

def positionCalls (current_pos : UInt32) : List (List ValuePtr) → List Method
  | [] => []
  | chunk::chunks =>
    .addElementToPosition (some chunk) current_pos::
      positionCalls (current_pos+UInt32.ofNat chunk.length) chunks

def addElementToPosition (data : Option (List ValuePtr)) (pos : UInt32) : Except Fault AddPlan :=
  addValues lib client max_rpc_size key hint clientId data (positionCalls pos)

/-- Each chunk goes after its anchor and leaves its last element as the next. -/
def anchoredCalls (anchor : ValuePtr) : List (List ValuePtr) → List Method
  | [] => []
  | chunk::chunks =>
    .addElementToPositionAfter (some chunk) anchor::anchoredCalls (chunk.getLastD none) chunks

def beforeCalls (pivot : ValuePtr) : List (List ValuePtr) → List Method
  | [] => []
  | chunk::chunks =>
    .addElementToPositionBefore (some chunk) pivot::anchoredCalls (chunk.getLastD none) chunks

def addElementToPositionBefore (data : Option (List ValuePtr)) (pivot : ValuePtr) :
    Except Fault AddPlan :=
  addValues lib client max_rpc_size key hint clientId data (beforeCalls (copyValue pivot))

def addElementToPositionAfter (data : Option (List ValuePtr)) (pivot : ValuePtr) :
    Except Fault AddPlan :=
  addValues lib client max_rpc_size key hint clientId data (anchoredCalls (copyValue pivot))

def addElementWithWeight (data : Option (List OrderedValuePtr)) : Except Fault AddPlan :=
  match data with
  | none => .ok (.immediate 0)
  | some [] => .ok (.immediate 0)
  | some (v::vs) => do
    let base ← addBase lib client key clientId
    let chunks ← partitionOrderedValueChunks lib base (client.effectiveClientId clientId)
      client.compression_threshold max_rpc_size (copyOrderedValues (some (v::vs)))
    .ok (.pipeline (chunks.map
      (fun chunk => dispatch client key hint clientId (.addElementWithWeight (some chunk)))))

def zipValues {K : Type} : List K → List ValuePtr → List (K × ValuePtr)
  | [], _ => []
  | k::ks, [] => (k,none)::zipValues ks []
  | k::ks, v::vs => (k,v)::zipValues ks vs

def addElementHashMap (container_keys : Option (List KeyPtr))
    (container_values : Option (List ValuePtr)) : Except Fault AddPlan :=
  match container_keys with
  | none => .ok (.immediate 0)
  | some [] => .ok (.immediate 0)
  | some (k::ks) => do
    let entries ← copyMap (some (zipValues (k::ks) (container_values.getD [])))
    let base ← addBase lib client key clientId
    let chunks ← partitionMapChunks lib base (client.effectiveClientId clientId)
      client.compression_threshold max_rpc_size entries
    .ok (.pipeline (chunks.map (fun chunk => dispatch client key hint clientId
      (.addElementHashMap (some chunk.keys) (some chunk.values)))))

def addElementOrderedMap (container_keys : Option (List OrderedValuePtr))
    (container_values : Option (List ValuePtr)) : Except Fault AddPlan :=
  match container_keys with
  | none => .ok (.immediate 0)
  | some [] => .ok (.immediate 0)
  | some (k::ks) => do
    let entries := zipValues (copyOrderedValues (some (k::ks))) (copyValues container_values)
    let base ← addBase lib client key clientId
    let chunks ← partitionOrderedMapChunks lib base (client.effectiveClientId clientId)
      client.compression_threshold max_rpc_size entries
    .ok (.pipeline (chunks.map (fun chunk => dispatch client key hint clientId
      (.addElementOrderedMap (some chunk.keys) (some chunk.values)))))

end Additions

section Creations

variable (ttl : Int64)

inductive UnorderedType where
  | QUEUE | LIST | VECTOR | SET
  deriving DecidableEq, Repr

def UnorderedType.create (type : UnorderedType) (first : Option (List ValuePtr)) (ttl : Int64) :
    Method :=
  match type with
  | .QUEUE => .createQueue first ttl
  | .LIST => .createList first ttl
  | .VECTOR => .createVector first ttl
  | .SET => .createSet first ttl

def UnorderedType.remainder (type : UnorderedType) (chunk : List ValuePtr) : Method :=
  match type with
  | .SET => .addElementUnordered (some chunk)
  | _ => .addElementToTail (some chunk)

def firstPtr {A : Type} (first : List A) : Option (List A) :=
  if first.isEmpty then none else some first

def remainderCalls (methods : List Method) (res_hint : KeyHint) : List Dispatch :=
  methods.map (fun m => dispatchRemainder client key clientId m res_hint)

def createUnorderedContainerSmart (type : UnorderedType)
    (initialValue : Option (List ValuePtr)) : Except Fault CreatePlan := do
  let owned := copyValues initialValue
  let cid := client.effectiveClientId clientId
  let split ← firstChunkSplit (estimateValueSize lib cid client.compression_threshold) 128
    max_rpc_size owned
  let rest := owned.drop split
  let create_future := dispatch client key hint clientId
    (type.create (firstPtr (owned.take split)) (client.effectiveTtl ttl))
  if rest.isEmpty then .ok ⟨create_future,none⟩
  else
    let rest_chunks ← partitionValueChunks lib 0 cid client.compression_threshold
      max_rpc_size rest
    .ok ⟨create_future,some (remainderCalls client key clientId
      (rest_chunks.map type.remainder))⟩

def createOrderedSet (initialValue : Option (List OrderedValuePtr)) :
    Except Fault CreatePlan := do
  let owned := copyOrderedValues initialValue
  let cid := client.effectiveClientId clientId
  let split ← firstChunkSplit (estimateOrderedValueSize lib cid client.compression_threshold)
    128 max_rpc_size owned
  let rest := owned.drop split
  let create_future := dispatch client key hint clientId
    (.createOrderedSet (firstPtr (owned.take split)) (client.effectiveTtl ttl))
  if rest.isEmpty then .ok ⟨create_future,none⟩
  else
    let rest_chunks ← partitionOrderedValueChunks lib 0 cid client.compression_threshold
      max_rpc_size rest
    .ok ⟨create_future,some (remainderCalls client key clientId
      (rest_chunks.map (fun chunk => .addElementWithWeight (some chunk))))⟩

def mapEntrySize (cid : Int32) (e : KeyPtr × ValuePtr) : Except Fault UInt64 := do
  .ok ((← estimateKeySize lib cid client.compression_threshold e.1)+
    (← estimateValueSize lib cid client.compression_threshold e.2))

def createMap (addresses : AddressOrder) (initialValue : Option (List (KeyPtr × ValuePtr))) :
    Except Fault CreatePlan := do
  let entries ← copyMap initialValue
  let cid := client.effectiveClientId clientId
  let split ← firstChunkSplit (mapEntrySize lib client cid) 128 max_rpc_size entries
  let first_map := addresses.order _ (entries.take split)
  let rest := entries.drop split
  let create_future := dispatch client key hint clientId
    (.createMap (firstPtr first_map) (client.effectiveTtl ttl))
  if rest.isEmpty then .ok ⟨create_future,none⟩
  else
    let rest_chunks ← partitionMapChunks lib 0 cid client.compression_threshold
      max_rpc_size rest
    .ok ⟨create_future,some (remainderCalls client key clientId
      (rest_chunks.map (fun chunk => .addElementHashMap (some chunk.keys) (some chunk.values))))⟩

def orderedMapEntrySize (cid : Int32) (e : OrderedMapEntry) : Except Fault UInt64 := do
  .ok ((← estimateOrderedKeySize cid e.key)+
    (← estimateOrderedValueSize lib cid client.compression_threshold e.value))

def createOrderedMap (addresses : AddressOrder)
    (initialValue : Option (List (OrderedKeyPtr × OrderedValuePtr))) :
    Except Fault CreatePlan := do
  let entries ← copyOrderedMap initialValue
  let cid := client.effectiveClientId clientId
  let split ← firstChunkSplit (orderedMapEntrySize lib client cid) 128 max_rpc_size entries
  let first_map := addresses.order _ ((entries.take split).map (fun e => (e.key,e.value)))
  let rest := (entries.drop split).map (fun e => (e.key_as_value,e.value.map (·.elem)))
  let create_future := dispatch client key hint clientId
    (.createOrderedMap (firstPtr first_map) (client.effectiveTtl ttl))
  if rest.isEmpty then .ok ⟨create_future,none⟩
  else
    let rest_chunks ← partitionOrderedMapChunks lib 0 cid client.compression_threshold
      max_rpc_size rest
    .ok ⟨create_future,some (remainderCalls client key clientId
      (rest_chunks.map
        (fun chunk => .addElementOrderedMap (some chunk.keys) (some chunk.values))))⟩

end Creations

/-- The smart operation of the same name as a node's method. What is not cut
into chunks is forwarded, with the default lifetime in place of none. -/
def smartPlan (addresses : AddressOrder) (operation : Method) : Except Fault Plan :=
  let forward (m : Method) : Except Fault Plan :=
    .ok (.forward (dispatch client key hint clientId m))
  let add (p : Except Fault AddPlan) : Except Fault Plan := p.map .add
  let create (p : Except Fault CreatePlan) : Except Fault Plan := p.map .create
  match operation with
  | .createKeyValue value ttl => forward (.createKeyValue value (client.effectiveTtl ttl))
  | .updateKeyValue value ttl => forward (.updateKeyValue value (client.effectiveTtl ttl))
  | .atomicExchange value ttl => forward (.atomicExchange value (client.effectiveTtl ttl))
  | .atomicAdd delta ttl => forward (.atomicAdd delta (client.effectiveTtl ttl))
  | .atomicSub delta ttl => forward (.atomicSub delta (client.effectiveTtl ttl))
  | .atomicAddDouble delta ttl => forward (.atomicAddDouble delta (client.effectiveTtl ttl))
  | .atomicSubDouble delta ttl => forward (.atomicSubDouble delta (client.effectiveTtl ttl))
  | .atomicAnd mask ttl => forward (.atomicAnd mask (client.effectiveTtl ttl))
  | .atomicOr mask ttl => forward (.atomicOr mask (client.effectiveTtl ttl))
  | .atomicXor mask ttl => forward (.atomicXor mask (client.effectiveTtl ttl))
  | .atomicCompareAndSet expectedValue newValue ttl =>
    forward (.atomicCompareAndSet expectedValue newValue (client.effectiveTtl ttl))
  | .createQueue vs ttl => create (createUnorderedContainerSmart lib client max_rpc_size
      key hint clientId ttl .QUEUE vs)
  | .createList vs ttl => create (createUnorderedContainerSmart lib client max_rpc_size
      key hint clientId ttl .LIST vs)
  | .createVector vs ttl => create (createUnorderedContainerSmart lib client max_rpc_size
      key hint clientId ttl .VECTOR vs)
  | .createSet vs ttl => create (createUnorderedContainerSmart lib client max_rpc_size
      key hint clientId ttl .SET vs)
  | .createOrderedSet vs ttl =>
    create (createOrderedSet lib client max_rpc_size key hint clientId ttl vs)
  | .createMap es ttl =>
    create (createMap lib client max_rpc_size key hint clientId ttl addresses es)
  | .createOrderedMap es ttl =>
    create (createOrderedMap lib client max_rpc_size key hint clientId ttl addresses es)
  | .addElementUnordered data =>
    add (addElementUnordered lib client max_rpc_size key hint clientId data)
  | .addElementToTail data =>
    add (addElementToTail lib client max_rpc_size key hint clientId data)
  | .addElementToHead data =>
    add (addElementToHead lib client max_rpc_size key hint clientId data)
  | .addElementToPosition data pos =>
    add (addElementToPosition lib client max_rpc_size key hint clientId data pos)
  | .addElementToPositionBefore data pivot =>
    add (addElementToPositionBefore lib client max_rpc_size key hint clientId data pivot)
  | .addElementToPositionAfter data pivot =>
    add (addElementToPositionAfter lib client max_rpc_size key hint clientId data pivot)
  | .addElementWithWeight data =>
    add (addElementWithWeight lib client max_rpc_size key hint clientId data)
  | .addElementHashMap keys values =>
    add (addElementHashMap lib client max_rpc_size key hint clientId keys values)
  | .addElementOrderedMap keys values =>
    add (addElementOrderedMap lib client max_rpc_size key hint clientId keys values)
  | other => forward other

end Operations

end HurriCache.SmartOperations
