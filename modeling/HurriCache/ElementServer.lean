import HurriCache.ListServer
import Mathlib.Data.List.Perm.Basic

/-!
# A server for created containers

A create request builds a container from its elements and an add request
puts its elements in, one at a time. What a container does with one element
is left open, except that map entries under different key bytes do not
interfere. The elements are what the requests carry, whatever their wire
form.
-/

set_option autoImplicit false

namespace HurriCache.ElementServer
open HurriCache.ClientTypes HurriCache.StandaloneCalls HurriCache.ListServer

inductive Element where
  | value (v : Value)
  | weighted (v : OrderedValue)
  | entry (key : Key) (v : Value)
  | orderedEntry (key : OrderedKey) (v : Value)

def Element.keyBytes : Element → Option Bytes
  | .entry key _ => some key.data
  | .orderedEntry key _ => some key.elem.data
  | _ => none

def mapEntry : KeyPtr × ValuePtr → Option Element
  | (some k,some v) => some (.entry k v)
  | _ => none

def orderedMapEntry : OrderedKeyPtr × OrderedValuePtr → Option Element
  | (some k,some v) => some (.orderedEntry k v.elem)
  | _ => none

def revaluedEntry : OrderedValuePtr × ValuePtr → Option Element
  | (some ⟨weight,.bytes data⟩,some v) =>
    if h : data.length < 2^32 then some (.orderedEntry ⟨weight,⟨data,h⟩⟩ v) else none
  | _ => none

/-- Keys and values of one request, which the node pairs by position. -/
def pairs {K : Type} (entry : K × ValuePtr → Option Element) (keys : Option (List K))
    (values : Option (List ValuePtr)) : List Element :=
  match keys, values with
  | some ks, some vs => if ks.length = vs.length then (ks.zip vs).filterMap entry else []
  | _, _ => []

def elements : Method → List Element
  | .createQueue data _ => (block data).map .value
  | .createList data _ => (block data).map .value
  | .createVector data _ => (block data).map .value
  | .createSet data _ => (block data).map .value
  | .createOrderedSet data _ => (block data).map .weighted
  | .createMap data _ => (data.getD []).filterMap mapEntry
  | .createOrderedMap data _ => (data.getD []).filterMap orderedMapEntry
  | .addElementUnordered data => (block data).map .value
  | .addElementToTail data => (block data).map .value
  | .addElementWithWeight data => (block data).map .weighted
  | .addElementHashMap keys values => pairs mapEntry keys values
  | .addElementOrderedMap keys values => pairs revaluedEntry keys values
  | _ => []

def isCreate : Method → Bool
  | .createQueue _ _ => true
  | .createList _ _ => true
  | .createVector _ _ => true
  | .createSet _ _ => true
  | .createOrderedSet _ _ => true
  | .createMap _ _ => true
  | .createOrderedMap _ _ => true
  | _ => false

structure ContainerServer (C : Type) where
  empty : C
  insert : C → Element → C
  /-- Entries of a map under different keys do not interfere. -/
  commutes : ∀ c a b ka kb, a.keyBytes = some ka → b.keyBytes = some kb → ka ≠ kb →
    insert (insert c a) b = insert (insert c b) a

section Apply

variable {C : Type} (server : ContainerServer C)

def ContainerServer.insertAll (c : C) (es : List Element) : C := es.foldl server.insert c

def ContainerServer.apply (m : Method) (c : C) : C :=
  server.insertAll (if isCreate m then server.empty else c) (elements m)

def addReply (m : Method) : UInt32 := UInt32.ofNat (elements m).length

theorem insertAll_append (c : C) (es fs : List Element) :
    server.insertAll c (es++fs) = server.insertAll (server.insertAll c es) fs := by
  simp [ContainerServer.insertAll]

theorem insertAll_perm (es fs : List Element) (hp : es.Perm fs) (c : C)
    (hkey : ∀ e ∈ es, ∃ k, e.keyBytes = some k)
    (hinj : ∀ a ∈ es, ∀ b ∈ es, a.keyBytes = b.keyBytes → a = b) :
    server.insertAll c es = server.insertAll c fs := by
  apply hp.foldl_eq'
  intro a ha b hb z
  by_cases h : a.keyBytes = b.keyBytes
  · rw [hinj a ha b hb h]
  · obtain ⟨ka,hka⟩ := hkey a ha
    obtain ⟨kb,hkb⟩ := hkey b hb
    exact server.commutes z a b ka kb hka hkb (fun hk => h (by rw [hka, hkb, hk]))

end Apply

end HurriCache.ElementServer
