import Mathlib.Algebra.GroupWithZero.Nat
import Mathlib.Algebra.Group.Int.Defs
import Mathlib.Data.List.Basic

/-!
# The client's own value types

`types.hxx` as data. A pointer that the code may find null is an `Option`,
a byte buffer with its length is a list of bytes, and a double is the
64-bit pattern the client copies. Undefined behaviour is an explicit fault:
no later definition replaces it by a convenient value.
-/

set_option autoImplicit false

namespace HurriCache.ClientTypes

abbrev Bytes := List UInt8

/-- The content of a `std::string`. -/
abbrev Text := List Char

inductive Fault where
  | nullPointer
  | wildPointer
  | divisionByZero
  | workAfterShutdown
  | undefinedConversion
  deriving DecidableEq, Repr

def deref {α : Type} : Option α → Except Fault α
  | some a => .ok a
  | none => .error .nullPointer

@[simp] theorem deref_some {α : Type} (a : α) : deref (some a) = .ok a := rfl

@[simp] theorem deref_none {α : Type} :
    deref (none : Option α) = .error .nullPointer := rfl

theorem bind_eq_ok {ε α β : Type} {x : Except ε α} {f : α → Except ε β} {b : β}
    (h : (x >>= f) = .ok b) : ∃ a, x = .ok a ∧ f a = .ok b := by
  cases x with
  | error e => cases h
  | ok a => exact ⟨a,rfl,h⟩

theorem map_eq_ok {ε α β : Type} {x : Except ε α} {f : α → β} {b : β}
    (h : x.map f = .ok b) : ∃ a, x = .ok a ∧ f a = b := by
  cases x with
  | error e => cases h
  | ok a => exact ⟨a,rfl,Except.ok.inj h⟩

structure KeyHint where
  weak_hash : UInt32
  strong_hash : UInt32
  deriving DecidableEq, Repr

/-- `Key::size` is a `uint32_t`, so no longer key can be built. -/
structure Key where
  data : Bytes
  size_lt : data.length < 2^32
  deriving DecidableEq

def Key.size (k : Key) : UInt32 := UInt32.ofNat k.data.length

inductive Value where
  | int (int_value : Int64)
  | double (double_value : UInt64)
  | bytes (data : Bytes)
  deriving DecidableEq

def Value.size : Value → ℕ
  | .int _ => 8
  | .double _ => 8
  | .bytes data => data.length

/-- Reading the union through its `data` member. Under another tag the
eight bytes of the number are taken for an address. -/
def Value.dataMember : Value → Except Fault Bytes
  | .bytes data => .ok data
  | _ => .error .wildPointer

structure OrderedValue where
  weight : UInt64
  elem : Value
  deriving DecidableEq

structure OrderedKey where
  weight : UInt64
  elem : Key
  deriving DecidableEq

abbrev ValuePtr := Option Value
abbrev OrderedValuePtr := Option OrderedValue
abbrev KeyPtr := Option Key
abbrev OrderedKeyPtr := Option OrderedKey

end HurriCache.ClientTypes
