import HurriCache.MessageBuilders
import HurriCache.StandaloneCalls

/-!
# The requests that carry elements

What the creating and adding methods of one node put on the wire. The plain
and map elements of a request are encoded with the default threshold of the
builders, whatever the client is configured with; only the creations of
unordered containers and of ordered sets use the client's own. Keys of map
entries are sent raw.
-/

set_option autoImplicit false

namespace HurriCache.InsertRequests
open HurriCache.ClientTypes HurriCache.PayloadCompression HurriCache.WireMessages
open HurriCache.MessageBuilders HurriCache.StandaloneCalls

def mapKey (k : Key) : KeyMessage := { payload := some { payload := k.data, size := k.size } }

def orderedValueKey (ov : OrderedValue) : Except Fault OrderedKeyMessage := do
  let data ← ov.elem.dataMember
  .ok {
    payload := some { payload := data, size := UInt32.ofNat ov.elem.size }
    order := some ov.weight }

section Builders

variable (lib : Libdeflate) (key : Key) (hint : Option KeyHint) (clientId : Int32)

def plainElement (v : ValuePtr) : Except Fault ValueMessage := do
  .ok (buildValueProtoNoTtl lib (← deref v) clientId defaultThreshold)

/-- Null elements are skipped here and nowhere else. -/
def buildContainerRequest (type : ContainerKind) (now ttl : Int64)
    (values : Option (List ValuePtr)) (threshold : Int32) :
    Except Fault CreateContainerRequest := do
  let k ← buildKeyProto lib key (effectiveHint key hint) clientId threshold
  .ok {
    key := k
    type := type
    ttl := deadline now ttl
    value_unordered := ((values.getD []).filterMap id).map
      (fun v => buildValueProtoNoTtl lib v clientId threshold) }

def createMapRequest (initialValue : Option (List (KeyPtr × ValuePtr))) (now ttl : Int64) :
    Except Fault CreateContainerRequest := do
  let k ← buildKeyProto lib key hint clientId defaultThreshold
  let keys ← (initialValue.getD []).mapM (fun e => do .ok (mapKey (← deref e.1)))
  let values ← (initialValue.getD []).mapM (fun e => plainElement lib clientId e.2)
  .ok {
    key := k
    type := .MAP
    ttl := deadline now ttl
    key_unordered := keys
    value_unordered := values }

def addRequest (data : Option (List ValuePtr)) (pos : Option UInt32) :
    Except Fault AddToRequest := do
  let k ← buildKeyProto lib key hint clientId defaultThreshold
  let values ← (data.getD []).mapM (plainElement lib clientId)
  .ok { key := k, pos := pos, value_unordered := values }

/-- `addElementToPositionBefore` and `addElementToPositionAfter`. Without a
pivot nothing is sent. -/
def addToValRequest (isBefore : Bool) (data : Option (List ValuePtr)) (pivot : ValuePtr) :
    Except Fault (Option AddToValRequest) :=
  match pivot with
  | none => .ok none
  | some pivot => do
    let k ← buildKeyProto lib key hint clientId defaultThreshold
    let values ← (data.getD []).mapM (plainElement lib clientId)
    .ok (some {
      key := k
      isBefore := isBefore
      pos := buildValueProtoNoTtl lib pivot clientId defaultThreshold
      value := values })

/-- The two map additions. Keys and values of different number are refused
and nothing is sent. -/
def addEntriesRequest {K M : Type} (type : ContainerKind) (keyElement : K → Except Fault M)
    (withKeys : AddToRequest → List M → AddToRequest) (container_keys : Option (List K))
    (container_values : Option (List ValuePtr)) : Except Fault (Option AddToRequest) := do
  let k ← buildKeyProto lib key hint clientId defaultThreshold
  match container_keys, container_values with
  | some keys, some values =>
    if keys.length = values.length then do
      let ks ← keys.mapM keyElement
      let vs ← values.mapM (plainElement lib clientId)
      .ok (some (withKeys { key := k, type := some type, value_unordered := vs } ks))
    else .ok none
  | _, _ => .ok none

def addElementHashMapRequest (container_keys : Option (List KeyPtr))
    (container_values : Option (List ValuePtr)) : Except Fault (Option AddToRequest) :=
  addEntriesRequest lib key hint clientId .MAP (fun k => do .ok (mapKey (← deref k)))
    (fun r ks => { r with key_unordered := ks }) container_keys container_values

def addElementOrderedMapRequest (container_keys : Option (List OrderedValuePtr))
    (container_values : Option (List ValuePtr)) : Except Fault (Option AddToRequest) :=
  addEntriesRequest lib key hint clientId .ORDERED_MAP
    (fun k => do orderedValueKey (← deref k))
    (fun r ks => { r with key_ordered := ks }) container_keys container_values

end Builders

end HurriCache.InsertRequests
