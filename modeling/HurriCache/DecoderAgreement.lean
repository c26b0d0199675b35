import HurriCache.MessageDecoders
import HurriCache.StoredGzip

/-!
# The two value decoders compared

An ordered message and the plain message with its payload, compression data
and declared type. Both decoders read a declared type alike; only the plain
one infers a missing type from the oneof case.
-/

set_option autoImplicit false

namespace HurriCache.DecoderAgreement
open HurriCache.ClientTypes HurriCache.PayloadCompression
open HurriCache.WireMessages HurriCache.MessageBuilders HurriCache.MessageDecoders
open HurriCache.StoredGzip

def plainMessage (m : OrderedValueMessage) : ValueMessage :=
  { value := m.value, compressionInfo := m.compressionInfo, value_type := m.value_type }

def Agree (lib : Libdeflate) (m : OrderedValueMessage) : Prop :=
  (valueRequestToOrderedValue lib m = none ↔ valueRequestToValue lib (plainMessage m) = none) ∧
  ∀ o, valueRequestToOrderedValue lib m = some o →
    valueRequestToValue lib (plainMessage m) = some o.elem ∧ o.weight = m.order.getD 0

/-- A compressed byte payload that does not decompress to its stated size. -/
def Undecodable (lib : Libdeflate) (m : OrderedValueMessage) : Prop :=
  ∃ c, m.payloadOrDefault.data = .payload c ∧ isCompressed m.compressionInfo = true ∧
    decompress lib c.flatten (UInt32.ofNat c.flatten.length) (rawSizeOf m.compressionInfo) = none

theorem agree_of_map (lib : Libdeflate) (m : OrderedValueMessage)
    (h : valueRequestToOrderedValue lib m =
      (valueRequestToValue lib (plainMessage m)).map (OrderedValue.mk (m.order.getD 0))) :
    Agree lib m := by
  constructor
  · rw [h]
    simp
  · intro o ho
    rw [h] at ho
    obtain ⟨v,hv,rfl⟩ := Option.map_eq_some_iff.mp ho
    exact ⟨hv,rfl⟩

theorem inferType_declared (m : OrderedValueMessage) (h : m.typeOrDefault ≠ .AUTO) :
    inferType (plainMessage m) = some m.typeOrDefault := by
  have ht : (plainMessage m).typeOrDefault = m.typeOrDefault := rfl
  unfold inferType
  rw [ht]
  cases ht' : m.typeOrDefault with
  | AUTO => exact absurd ht' h
  | BYTES => rfl
  | INT => rfl
  | DOUBLE => rfl
  | unrecognized number outside => rfl

theorem agree_declared (lib : Libdeflate) (m : OrderedValueMessage)
    (h : m.typeOrDefault ≠ .AUTO) : Agree lib m := by
  apply agree_of_map
  rw [valueRequestToOrderedValue_eq, valueRequestToValue_eq, inferType_declared m h]
  rfl

theorem ordered_auto_null (lib : Libdeflate) (m : OrderedValueMessage)
    (h : m.typeOrDefault = .AUTO) : valueRequestToOrderedValue lib m = none := by
  rw [valueRequestToOrderedValue_eq, h]
  rfl

/-- Without a declared type the ordered decoder returns null, so agreement
is the plain decoder returning null as well. -/
theorem agree_auto_iff (lib : Libdeflate) (m : OrderedValueMessage)
    (h : m.typeOrDefault = .AUTO) :
    Agree lib m ↔ valueRequestToValue lib (plainMessage m) = none := by
  have hn := ordered_auto_null lib m h
  simp [Agree, hn]

theorem plain_auto_null_iff (lib : Libdeflate) (m : OrderedValueMessage)
    (h : m.typeOrDefault = .AUTO) :
    valueRequestToValue lib (plainMessage m) = none ↔
      m.payloadOrDefault.data = .notSet ∨ Undecodable lib m := by
  have ht : (plainMessage m).typeOrDefault = .AUTO := h
  have hp : (plainMessage m).payloadOrDefault = m.payloadOrDefault := rfl
  have hi : (plainMessage m).compressionInfo = m.compressionInfo := rfl
  rw [valueRequestToValue_eq, hp, hi]
  unfold inferType Undecodable
  rw [ht, hp]
  cases hd : m.payloadOrDefault.data with
  | notSet => simp
  | intPayload i => simp [readTyped]
  | doublePayload bits => simp [readTyped]
  | payload c =>
    have hc : m.payloadOrDefault.payload = c := by simp [BinaryPayload.payload, hd]
    simp [readTyped, hc, readFlat_eq_none_iff]

/-- The decoders agree exactly when a type is declared, or there is nothing
to decode. -/
theorem decoders_agree_iff (lib : Libdeflate) (m : OrderedValueMessage) :
    Agree lib m ↔
      m.typeOrDefault ≠ .AUTO ∨ m.payloadOrDefault.data = .notSet ∨ Undecodable lib m := by
  by_cases h : m.typeOrDefault = .AUTO
  · rw [agree_auto_iff lib m h, plain_auto_null_iff lib m h]
    simp [h]
  · simp [h, agree_declared lib m h]

def untypedInteger : OrderedValueMessage :=
  { value := some { data := .intPayload 5 }, order := some 7 }

theorem untyped_integer_disagrees : ¬ Agree storedLibdeflate untypedInteger := by
  intro h
  have hp := h.1.mp rfl
  cases hp

end HurriCache.DecoderAgreement
