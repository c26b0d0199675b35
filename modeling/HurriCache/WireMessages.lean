import Mathlib.Data.List.Basic
import Mathlib.Data.Nat.Log
import HurriCache.ClientTypes

/-!
# The messages of `cache.proto`

A message is the record its generated accessors show: an `optional` field
is an `Option`, a plain scalar has its default, and reading an absent
sub-message reads the default instance. `ByteSizeLong` is computed from the
wire format; every field number here is below sixteen, so a tag is one byte.
-/

set_option autoImplicit false

namespace HurriCache.WireMessages
open HurriCache.ClientTypes

/-- A cord never holds an empty chunk, so the empty cord has no chunk. -/
structure Cord where
  chunks : List Bytes
  nonempty : ∀ c ∈ chunks, c ≠ []

def Cord.flatten (c : Cord) : Bytes := c.chunks.flatten

def Cord.size (c : Cord) : ℕ := (c.chunks.map List.length).sum

theorem Cord.size_eq (c : Cord) : c.size = c.flatten.length := by
  simp [Cord.size, Cord.flatten, List.length_flatten]

def Cord.empty : Cord := ⟨[], by simp⟩

def Cord.ofView (view : Bytes) : Cord :=
  if h : view = [] then Cord.empty else ⟨[view], by simpa using h⟩

@[simp] theorem Cord.flatten_empty : Cord.empty.flatten = [] := rfl

@[simp] theorem Cord.flatten_ofView (view : Bytes) : (Cord.ofView view).flatten = view := by
  unfold Cord.ofView
  split
  · simp_all
  · simp [Cord.flatten]

inductive PayloadData where
  | notSet
  | payload (c : Cord)
  | intPayload (i : Int64)
  | doublePayload (bits : UInt64)

structure BinaryPayload where
  data : PayloadData := .notSet
  size : UInt32 := 0

def BinaryPayload.payload (p : BinaryPayload) : Cord :=
  match p.data with
  | .payload c => c
  | _ => Cord.empty

def BinaryPayload.intpayload (p : BinaryPayload) : Int64 :=
  match p.data with
  | .intPayload i => i
  | _ => 0

def BinaryPayload.doublepayload (p : BinaryPayload) : UInt64 :=
  match p.data with
  | .doublePayload bits => bits
  | _ => 0

structure KeyBinaryPayload where
  payload : Bytes := []
  size : UInt32 := 0

structure KeyHintMessage where
  weak_hash : Option UInt32 := none
  strong_hash : Option UInt32 := none
  deriving DecidableEq, Repr

structure CompressedInfo where
  enabled : Bool := false
  rawSize : Option UInt32 := none
  deriving DecidableEq, Repr

structure KeyMessage where
  payload : Option KeyBinaryPayload := none
  compressionInfo : Option CompressedInfo := none
  keyHint : Option KeyHintMessage := none
  clientId : Option UInt32 := none

structure OrderedKeyMessage where
  payload : Option KeyBinaryPayload := none
  order : Option UInt64 := none
  compressionInfo : Option CompressedInfo := none
  keyHint : Option KeyHintMessage := none
  clientId : Option UInt32 := none

inductive LockType where
  | NO_LOCK | WRITE_LOCK | READ_LOCK | GLOBAL
  deriving DecidableEq, Repr

def LockType.number : LockType → ℕ
  | .NO_LOCK => 0
  | .WRITE_LOCK => 1
  | .READ_LOCK => 2
  | .GLOBAL => 3

structure LockInfo where
  type : LockType := .NO_LOCK
  lockedBy : Option UInt32 := none
  lockedTill : Option UInt64 := none

/-- The enumeration is open: a number outside the list is kept. -/
inductive ValueType where
  | AUTO | BYTES | INT | DOUBLE
  | unrecognized (number : UInt64) (outside : 3 < number.toNat)
  deriving DecidableEq, Repr

def ValueType.number : ValueType → ℕ
  | .AUTO => 0
  | .BYTES => 1
  | .INT => 2
  | .DOUBLE => 3
  | .unrecognized number _ => number.toNat

structure ValueMessage where
  value : Option BinaryPayload := none
  compressionInfo : Option CompressedInfo := none
  ttl : Option UInt64 := none
  lock_info : Option LockInfo := none
  value_type : Option ValueType := none

structure OrderedValueMessage where
  value : Option BinaryPayload := none
  order : Option UInt64 := none
  compressionInfo : Option CompressedInfo := none
  ttl : Option UInt64 := none
  lock_info : Option LockInfo := none
  value_type : Option ValueType := none

inductive ContainerKind where
  | UNDEFINED | VECTOR | LIST | QUEUE | SET | MAP | ORDERED_MAP | ORDERED_SET
  deriving DecidableEq, Repr

def ContainerKind.number : ContainerKind → ℕ
  | .UNDEFINED => 0
  | .VECTOR => 1
  | .LIST => 2
  | .QUEUE => 3
  | .SET => 4
  | .MAP => 5
  | .ORDERED_MAP => 6
  | .ORDERED_SET => 7

structure CreateContainerRequest where
  key : KeyMessage
  type : ContainerKind
  ttl : Option UInt64 := none
  key_unordered : List KeyMessage := []
  value_unordered : List ValueMessage := []
  key_ordered : List OrderedKeyMessage := []
  value_ordered : List OrderedValueMessage := []

structure AddToRequest where
  key : KeyMessage
  type : Option ContainerKind := none
  pos : Option UInt32 := none
  key_unordered : List KeyMessage := []
  value_unordered : List ValueMessage := []
  key_ordered : List OrderedKeyMessage := []
  value_ordered : List OrderedValueMessage := []

structure AddToValRequest where
  key : KeyMessage
  isBefore : Bool
  pos : ValueMessage
  value : List ValueMessage := []

def ValueMessage.payloadOrDefault (m : ValueMessage) : BinaryPayload := m.value.getD {}

def ValueMessage.typeOrDefault (m : ValueMessage) : ValueType := m.value_type.getD .AUTO

def OrderedValueMessage.payloadOrDefault (m : OrderedValueMessage) : BinaryPayload :=
  m.value.getD {}

def OrderedValueMessage.typeOrDefault (m : OrderedValueMessage) : ValueType :=
  m.value_type.getD .AUTO

section ByteSize

def varintSize (n : ℕ) : ℕ := n.log2/7+1

def varintField (n : ℕ) : ℕ := 1+varintSize n

/-- A scalar without explicit presence is left out when it is zero. -/
def implicitField (n : ℕ) : ℕ := if n = 0 then 0 else varintField n

def lengthDelimited (n : ℕ) : ℕ := 1+varintSize n+n

def optionalField {α : Type} (size : α → ℕ) : Option α → ℕ
  | none => 0
  | some a => size a

def PayloadData.byteSize : PayloadData → ℕ
  | .notSet => 0
  | .payload c => lengthDelimited c.size
  | .intPayload i => varintField i.toUInt64.toNat
  | .doublePayload _ => 9

def BinaryPayload.byteSize (p : BinaryPayload) : ℕ :=
  p.data.byteSize+implicitField p.size.toNat

def KeyBinaryPayload.byteSize (p : KeyBinaryPayload) : ℕ :=
  (if p.payload = [] then 0 else lengthDelimited p.payload.length)+implicitField p.size.toNat

def uint32Field (n : UInt32) : ℕ := varintField n.toNat
def uint64Field (n : UInt64) : ℕ := varintField n.toNat

def KeyHintMessage.byteSize (h : KeyHintMessage) : ℕ :=
  optionalField uint32Field h.weak_hash+optionalField uint32Field h.strong_hash

def CompressedInfo.byteSize (c : CompressedInfo) : ℕ :=
  (if c.enabled then 2 else 0)+optionalField uint32Field c.rawSize

def LockInfo.byteSize (l : LockInfo) : ℕ :=
  implicitField l.type.number+optionalField uint32Field l.lockedBy+
    optionalField uint64Field l.lockedTill

def submessage {α : Type} (size : α → ℕ) : Option α → ℕ :=
  optionalField (fun a => lengthDelimited (size a))

def KeyMessage.byteSize (m : KeyMessage) : ℕ :=
  submessage KeyBinaryPayload.byteSize m.payload+
    submessage CompressedInfo.byteSize m.compressionInfo+
    submessage KeyHintMessage.byteSize m.keyHint+optionalField uint32Field m.clientId

def OrderedKeyMessage.byteSize (m : OrderedKeyMessage) : ℕ :=
  submessage KeyBinaryPayload.byteSize m.payload+optionalField uint64Field m.order+
    submessage CompressedInfo.byteSize m.compressionInfo+
    submessage KeyHintMessage.byteSize m.keyHint+optionalField uint32Field m.clientId

def ValueMessage.byteSize (m : ValueMessage) : ℕ :=
  submessage BinaryPayload.byteSize m.value+
    submessage CompressedInfo.byteSize m.compressionInfo+optionalField uint64Field m.ttl+
    submessage LockInfo.byteSize m.lock_info+
    optionalField (fun t => varintField t.number) m.value_type

def OrderedValueMessage.byteSize (m : OrderedValueMessage) : ℕ :=
  submessage BinaryPayload.byteSize m.value+optionalField uint64Field m.order+
    submessage CompressedInfo.byteSize m.compressionInfo+optionalField uint64Field m.ttl+
    submessage LockInfo.byteSize m.lock_info+
    optionalField (fun t => varintField t.number) m.value_type

def repeatedField {α : Type} (size : α → ℕ) (elements : List α) : ℕ :=
  (elements.map (fun a => lengthDelimited (size a))).sum

def CreateContainerRequest.byteSize (r : CreateContainerRequest) : ℕ :=
  lengthDelimited r.key.byteSize+implicitField r.type.number+optionalField uint64Field r.ttl+
    repeatedField KeyMessage.byteSize r.key_unordered+
    repeatedField ValueMessage.byteSize r.value_unordered+
    repeatedField OrderedKeyMessage.byteSize r.key_ordered+
    repeatedField OrderedValueMessage.byteSize r.value_ordered

def AddToRequest.byteSize (r : AddToRequest) : ℕ :=
  lengthDelimited r.key.byteSize+optionalField (fun t => varintField t.number) r.type+
    optionalField uint32Field r.pos+
    repeatedField KeyMessage.byteSize r.key_unordered+
    repeatedField ValueMessage.byteSize r.value_unordered+
    repeatedField OrderedKeyMessage.byteSize r.key_ordered+
    repeatedField OrderedValueMessage.byteSize r.value_ordered

def AddToValRequest.byteSize (r : AddToValRequest) : ℕ :=
  lengthDelimited r.key.byteSize+(if r.isBefore then 2 else 0)+
    lengthDelimited r.pos.byteSize+repeatedField ValueMessage.byteSize r.value

end ByteSize

end HurriCache.WireMessages
