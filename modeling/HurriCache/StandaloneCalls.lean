import HurriCache.WireMessages

/-!
# Calls on one node

The methods of `FastCacheStandaloneClient` with their arguments. Key, hint
and client id are common to all of them and are kept beside the method. The
timeout only sets a deadline and is left out.
-/

set_option autoImplicit false

namespace HurriCache.StandaloneCalls
open HurriCache.ClientTypes HurriCache.WireMessages

inductive Method where
  | setTtl (ttl : UInt64)
  | getTtl
  | getAndDeleteValue
  | createKeyValue (value : Value) (ttl : Int64)
  | getValue
  | updateKeyValue (value : Value) (ttl : Int64)
  | existKey
  | remove
  | createQueue (initialValue : Option (List ValuePtr)) (ttl : Int64)
  | createList (initialValue : Option (List ValuePtr)) (ttl : Int64)
  | createVector (initialValue : Option (List ValuePtr)) (ttl : Int64)
  | createSet (initialValue : Option (List ValuePtr)) (ttl : Int64)
  | createOrderedSet (initialValue : Option (List OrderedValuePtr)) (ttl : Int64)
  | createMap (initialValue : Option (List (KeyPtr × ValuePtr))) (ttl : Int64)
  | createOrderedMap (initialValue : Option (List (OrderedKeyPtr × OrderedValuePtr)))
      (ttl : Int64)
  | getElementWithWeight (pos : UInt64)
  | getAndRemoveElementWithWeight (pos : UInt64)
  | getSize
  | getAndRemoveFront
  | getHead
  | getTail
  | getElementAtPosition (pos : UInt64)
  | streamList
  | streamVector
  | streamSet
  | streamMap
  | streamOrderedSet
  | streamOrderedMap
  | streamElementInRangeUnordered (containerType : ContainerKind) (start stop : UInt64)
  | streamElementInRangeOrderedSet (startWeight endWeight : UInt64) (reverse : Bool)
  | streamElementInRangeOrderedMap (startWeight endWeight : UInt64) (reverse : Bool)
  | addElementUnordered (data : Option (List ValuePtr))
  | addElementWithWeight (data : Option (List OrderedValuePtr))
  | addElementToTail (data : Option (List ValuePtr))
  | addElementToHead (data : Option (List ValuePtr))
  | addElementToPosition (data : Option (List ValuePtr)) (pos : UInt32)
  | addElementToPositionBefore (data : Option (List ValuePtr)) (pivot : ValuePtr)
  | addElementToPositionAfter (data : Option (List ValuePtr)) (pivot : ValuePtr)
  | getAndRemoveTail
  | getAndRemoveElementAtPosition (pos : UInt64)
  | removeTail
  | removeHead
  | removeElementAtPosition (pos endPos : UInt64)
  | lockObject (type : LockType) (duration : Int64)
  | unlockObject
  | atomicExchange (value : Int64) (ttl : Int64)
  | atomicAdd (delta : Int64) (ttl : Int64)
  | atomicSub (delta : Int64) (ttl : Int64)
  | atomicAddDouble (delta : UInt64) (ttl : Int64)
  | atomicSubDouble (delta : UInt64) (ttl : Int64)
  | atomicAnd (mask : Int64) (ttl : Int64)
  | atomicOr (mask : Int64) (ttl : Int64)
  | atomicXor (mask : Int64) (ttl : Int64)
  | atomicCompareAndSet (expectedValue newValue : Int64) (ttl : Int64)
  | getContainerValue (elementKey : Key)
  | getAndRemoveContainerValue (elementKey : Key)
  | containsContainerKey (elementKey : Key)
  | updateContainerValue (elementKey : Key) (value : Value)
  | removeFromContainerByKey (elementKey : Key)
  | removeFromContainer (keys : Option (List KeyPtr)) (values : Option (List ValuePtr))
  | addElementHashMap (container_keys : Option (List KeyPtr))
      (container_values : Option (List ValuePtr))
  | addElementOrderedMap (container_keys : Option (List OrderedValuePtr))
      (container_values : Option (List ValuePtr))

structure StandaloneCall where
  key : Key
  hint : Option KeyHint
  clientId : Int32
  method : Method

/-- What one `execute` is given: the hint it routes by and the action. -/
structure Dispatch where
  hint : Option KeyHint
  action : StandaloneCall

end HurriCache.StandaloneCalls
