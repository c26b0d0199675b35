import HurriCache.StandaloneCalls

/-!
# Arguments in the caller's memory

An operation is called with references and pointers to objects that belong to
the caller. Reading an object that has been released is a wild pointer. The
operations that take no pointer beside key and hint have all their arguments
by value.
-/

set_option autoImplicit false

namespace HurriCache.CallerMemory
open HurriCache.ClientTypes HurriCache.StandaloneCalls

abbrev Addr := ℕ

/-- The live objects by address; vectors and maps hold pointers. A map is
listed in its iteration order. -/
structure Memory where
  keys : Addr → Option Key
  values : Addr → Option Value
  orderedKeys : Addr → Option OrderedKey
  orderedValues : Addr → Option OrderedValue
  hints : Addr → Option KeyHint
  vectors : Addr → Option (List (Option Addr))
  maps : Addr → Option (List (Option Addr × Option Addr))

section Reading

variable {A B : Type}

def load (store : Addr → Option A) (a : Addr) : Except Fault A :=
  match store a with
  | some object => .ok object
  | none => .error .wildPointer

def loadPtr (store : Addr → Option A) : Option Addr → Except Fault (Option A)
  | none => .ok none
  | some a => (load store a).map some

def loadVector (memory : Memory) (store : Addr → Option A) :
    Option Addr → Except Fault (Option (List (Option A)))
  | none => .ok none
  | some a => do
    let ptrs ← load memory.vectors a
    .ok (some (← ptrs.mapM (loadPtr store)))

def loadMap (memory : Memory) (keys : Addr → Option A) (values : Addr → Option B) :
    Option Addr → Except Fault (Option (List (Option A × Option B)))
  | none => .ok none
  | some a => do
    let entries ← load memory.maps a
    .ok (some (← entries.mapM (fun e => do .ok (← loadPtr keys e.1,← loadPtr values e.2))))

end Reading

def takesPointer : Method → Bool
  | .createKeyValue _ _ | .updateKeyValue _ _ | .createQueue _ _ | .createList _ _
  | .createVector _ _ | .createSet _ _ | .createOrderedSet _ _ | .createMap _ _
  | .createOrderedMap _ _ | .addElementUnordered _ | .addElementWithWeight _
  | .addElementToTail _ | .addElementToHead _ | .addElementToPosition _ _
  | .addElementToPositionBefore _ _ | .addElementToPositionAfter _ _ | .getContainerValue _
  | .getAndRemoveContainerValue _ | .containsContainerKey _ | .updateContainerValue _ _
  | .removeFromContainerByKey _ | .removeFromContainer _ _ | .addElementHashMap _ _
  | .addElementOrderedMap _ _ => true
  | _ => false

/-- An operation as it is called, with addresses in the place of objects. -/
inductive Operation where
  | byValue (method : Method) (h : takesPointer method = false)
  | createKeyValue (value : Addr) (ttl : Int64)
  | updateKeyValue (value : Addr) (ttl : Int64)
  | createQueue (initialValue : Option Addr) (ttl : Int64)
  | createList (initialValue : Option Addr) (ttl : Int64)
  | createVector (initialValue : Option Addr) (ttl : Int64)
  | createSet (initialValue : Option Addr) (ttl : Int64)
  | createOrderedSet (initialValue : Option Addr) (ttl : Int64)
  | createMap (initialValue : Option Addr) (ttl : Int64)
  | createOrderedMap (initialValue : Option Addr) (ttl : Int64)
  | addElementUnordered (data : Option Addr)
  | addElementWithWeight (data : Option Addr)
  | addElementToTail (data : Option Addr)
  | addElementToHead (data : Option Addr)
  | addElementToPosition (data : Option Addr) (pos : UInt32)
  | addElementToPositionBefore (data pivot : Option Addr)
  | addElementToPositionAfter (data pivot : Option Addr)
  | getContainerValue (elementKey : Addr)
  | getAndRemoveContainerValue (elementKey : Addr)
  | containsContainerKey (elementKey : Addr)
  | updateContainerValue (elementKey value : Addr)
  | removeFromContainerByKey (elementKey : Addr)
  | removeFromContainer (keys values : Option Addr)
  | addElementHashMap (container_keys container_values : Option Addr)
  | addElementOrderedMap (container_keys container_values : Option Addr)

def Operation.read (memory : Memory) : Operation → Except Fault Method
  | .byValue method _ => .ok method
  | .createKeyValue value ttl => do .ok (.createKeyValue (← load memory.values value) ttl)
  | .updateKeyValue value ttl => do .ok (.updateKeyValue (← load memory.values value) ttl)
  | .createQueue vs ttl => do .ok (.createQueue (← loadVector memory memory.values vs) ttl)
  | .createList vs ttl => do .ok (.createList (← loadVector memory memory.values vs) ttl)
  | .createVector vs ttl => do .ok (.createVector (← loadVector memory memory.values vs) ttl)
  | .createSet vs ttl => do .ok (.createSet (← loadVector memory memory.values vs) ttl)
  | .createOrderedSet vs ttl => do
    .ok (.createOrderedSet (← loadVector memory memory.orderedValues vs) ttl)
  | .createMap es ttl => do .ok (.createMap (← loadMap memory memory.keys memory.values es) ttl)
  | .createOrderedMap es ttl => do
    .ok (.createOrderedMap (← loadMap memory memory.orderedKeys memory.orderedValues es) ttl)
  | .addElementUnordered data => do
    .ok (.addElementUnordered (← loadVector memory memory.values data))
  | .addElementWithWeight data => do
    .ok (.addElementWithWeight (← loadVector memory memory.orderedValues data))
  | .addElementToTail data => do .ok (.addElementToTail (← loadVector memory memory.values data))
  | .addElementToHead data => do .ok (.addElementToHead (← loadVector memory memory.values data))
  | .addElementToPosition data pos => do
    .ok (.addElementToPosition (← loadVector memory memory.values data) pos)
  | .addElementToPositionBefore data pivot => do
    .ok (.addElementToPositionBefore (← loadVector memory memory.values data)
      (← loadPtr memory.values pivot))
  | .addElementToPositionAfter data pivot => do
    .ok (.addElementToPositionAfter (← loadVector memory memory.values data)
      (← loadPtr memory.values pivot))
  | .getContainerValue elementKey => do .ok (.getContainerValue (← load memory.keys elementKey))
  | .getAndRemoveContainerValue elementKey => do
    .ok (.getAndRemoveContainerValue (← load memory.keys elementKey))
  | .containsContainerKey elementKey => do
    .ok (.containsContainerKey (← load memory.keys elementKey))
  | .updateContainerValue elementKey value => do
    .ok (.updateContainerValue (← load memory.keys elementKey) (← load memory.values value))
  | .removeFromContainerByKey elementKey => do
    .ok (.removeFromContainerByKey (← load memory.keys elementKey))
  | .removeFromContainer keys values => do
    .ok (.removeFromContainer (← loadVector memory memory.keys keys)
      (← loadVector memory memory.values values))
  | .addElementHashMap keys values => do
    .ok (.addElementHashMap (← loadVector memory memory.keys keys)
      (← loadVector memory memory.values values))
  | .addElementOrderedMap keys values => do
    .ok (.addElementOrderedMap (← loadVector memory memory.orderedValues keys)
      (← loadVector memory memory.values values))

structure Call where
  key : Addr
  hint : Option Addr
  operation : Operation
  clientId : Int32

structure Contents where
  key : Key
  hint : Option KeyHint
  method : Method
  clientId : Int32

def Call.contents (memory : Memory) (call : Call) : Except Fault Contents := do
  .ok ⟨← load memory.keys call.key,← loadPtr memory.hints call.hint,
    ← call.operation.read memory,call.clientId⟩

end HurriCache.CallerMemory
