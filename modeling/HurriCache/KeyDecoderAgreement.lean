import HurriCache.KeyDecoders
import HurriCache.MessageDecoders

/-!
# The two key decoders compared

An ordered key message and the plain one with its payload, compression data
and hint. A payload that is there is read alike by both. A message without a
payload is a key to one of them only, and neither looks at the flag that the
value decoders obey.
-/

set_option autoImplicit false

namespace HurriCache.KeyDecoderAgreement
open HurriCache.ClientTypes HurriCache.PayloadCompression HurriCache.WireMessages
open HurriCache.MessageDecoders HurriCache.StoredGzip HurriCache.KeyDecoders

def plainKey (m : OrderedKeyMessage) : KeyMessage where
  payload := m.payload
  compressionInfo := m.compressionInfo
  keyHint := m.keyHint
  clientId := m.clientId

def KeysAgree (lib : Libdeflate) (m : OrderedKeyMessage) : Prop :=
  (keyRequestToOrderedKey lib m).map (fun r => (r.1.elem,r.2)) = keyRequestToKey lib (plainKey m)

def DisabledIsRaw (lib : Libdeflate) (m : OrderedKeyMessage) : Prop :=
  ∀ p info, m.payload = some p → p.size.toNat = p.payload.length →
    m.compressionInfo = some info → info.enabled = false →
    (∃ r, keyRequestToKey lib (plainKey m) = some r ∧ r.1.data = p.payload) ∧
    ∃ r, keyRequestToOrderedKey lib m = some r ∧ r.1.elem.data = p.payload

def FollowsRules (lib : Libdeflate) (m : OrderedKeyMessage) : Prop :=
  KeysAgree lib m ∧ DisabledIsRaw lib m

/-- An absent payload comes with compression data that do not decompress it,
and a payload under a lowered flag decompresses to itself. -/
def ReadAlike (lib : Libdeflate) (m : OrderedKeyMessage) : Prop :=
  match m.payload with
  | none => ∃ info, m.compressionInfo = some info ∧
      decompress lib [] 0 (info.rawSize.getD 0) = none
  | some p => p.size.toNat = p.payload.length → ∀ info, m.compressionInfo = some info →
      info.enabled = false → decompress lib p.payload p.size (info.rawSize.getD 0) = some p.payload

def valueLike (p : KeyBinaryPayload) (info : Option CompressedInfo) : ValueMessage where
  value := some { data := .payload (Cord.ofView p.payload), size := p.size }
  compressionInfo := info
  value_type := some .BYTES

def orderedValueLike (p : KeyBinaryPayload) (info : Option CompressedInfo) :
    OrderedValueMessage where
  value := some { data := .payload (Cord.ofView p.payload), size := p.size }
  compressionInfo := info
  value_type := some .BYTES

theorem values_disabled (lib : Libdeflate) (p : KeyBinaryPayload) (info : CompressedInfo)
    (h : info.enabled = false) :
    valueRequestToValue lib (valueLike p (some info)) = some (.bytes p.payload) ∧
    valueRequestToOrderedValue lib (orderedValueLike p (some info)) =
      some ⟨0,.bytes p.payload⟩ := by
  have hread : readFlat lib (some info) p.payload = some p.payload := by
    simp [readFlat, isCompressed, h]
  constructor
  · rw [valueRequestToValue_eq]
    simp [inferType, valueLike, ValueMessage.typeOrDefault, ValueMessage.payloadOrDefault,
      readTyped, BinaryPayload.payload, hread]
  · rw [valueRequestToOrderedValue_eq]
    simp [orderedValueLike, OrderedValueMessage.typeOrDefault,
      OrderedValueMessage.payloadOrDefault, readTyped, BinaryPayload.payload, hread]

section Decoders

variable (lib : Libdeflate) (m : OrderedKeyMessage)

theorem plain_absent (h : m.payload = none) : keyRequestToKey lib (plainKey m) = none := by
  simp [keyRequestToKey, plainKey, h]

theorem ordered_absent (h : m.payload = none) :
    keyRequestToOrderedKey lib m = (keyBytes lib m.compressionInfo {}).map
      (fun r => (⟨m.order.getD 0,newKey r.1 r.2⟩,hintOf m.keyHint)) := by
  simp [keyRequestToOrderedKey, h]

theorem plain_present (p : KeyBinaryPayload) (h : m.payload = some p) :
    keyRequestToKey lib (plainKey m) = if p.size.toNat ≠ p.payload.length then none
      else (keyBytes lib m.compressionInfo p).map
        (fun r => (newKey r.1 r.2,hintOf m.keyHint)) := by
  simp [keyRequestToKey, plainKey, h]

theorem ordered_present (p : KeyBinaryPayload) (h : m.payload = some p) :
    keyRequestToOrderedKey lib m = if p.size.toNat ≠ p.payload.length then none
      else (keyBytes lib m.compressionInfo p).map
        (fun r => (⟨m.order.getD 0,newKey r.1 r.2⟩,hintOf m.keyHint)) := by
  simp [keyRequestToOrderedKey, h]

theorem agree_present (p : KeyBinaryPayload) (h : m.payload = some p) : KeysAgree lib m := by
  rw [KeysAgree, ordered_present lib m p h, plain_present lib m p h]
  by_cases hsize : p.size.toNat = p.payload.length
  · simp [hsize, Function.comp_def]
  · simp [hsize]

theorem agree_absent_iff (h : m.payload = none) :
    KeysAgree lib m ↔ ∃ info, m.compressionInfo = some info ∧
      decompress lib [] 0 (info.rawSize.getD 0) = none := by
  rw [KeysAgree, ordered_absent lib m h, plain_absent lib m h]
  cases hinfo : m.compressionInfo with
  | none => simp [keyBytes]
  | some info => simp [keyBytes]

theorem newKey_decompressed (p : KeyBinaryPayload) (size : UInt32) (raw : Bytes)
    (h : decompress lib p.payload p.size size = some raw) : (newKey size raw).data = raw := by
  have hlen := decompress_length lib p.payload raw p.size size h
  exact List.take_of_length_le (le_of_eq hlen)

theorem disabled_iff (p : KeyBinaryPayload) (h : m.payload = some p) :
    DisabledIsRaw lib m ↔ (p.size.toNat = p.payload.length → ∀ info,
      m.compressionInfo = some info → info.enabled = false →
      decompress lib p.payload p.size (info.rawSize.getD 0) = some p.payload) := by
  have hplain := plain_present lib m p h
  have hordered := ordered_present lib m p h
  constructor
  · intro hraw hsize info hinfo hflag
    obtain ⟨⟨r,hr,hdata⟩,-⟩ := hraw p info h hsize hinfo hflag
    rw [hplain, hinfo, if_neg (not_not.mpr hsize)] at hr
    obtain ⟨⟨size,raw⟩,hbytes,rfl⟩ := Option.map_eq_some_iff.mp hr
    obtain ⟨out,hd,he⟩ := Option.map_eq_some_iff.mp hbytes
    cases he
    have hall := newKey_decompressed lib p _ raw hd
    rw [hd, ← hdata, hall]
  · intro hd q info hq hsize hinfo hflag
    rw [h] at hq
    cases hq
    have hraw := hd hsize info hinfo hflag
    have hall := newKey_decompressed lib p _ _ hraw
    rw [hplain, hordered, hinfo, if_neg (not_not.mpr hsize), if_neg (not_not.mpr hsize)]
    simp only [keyBytes, hraw, Option.map_some, Option.some.injEq]
    exact ⟨⟨_,rfl,hall⟩,⟨_,rfl,hall⟩⟩

/-- When the key decoders keep to the rules that the value decoders follow. -/
theorem follows_rules_iff :
    (FollowsRules lib m ↔ ReadAlike lib m) ∧
    ∀ p info, info.enabled = false →
      valueRequestToValue lib (valueLike p (some info)) = some (.bytes p.payload) ∧
      valueRequestToOrderedValue lib (orderedValueLike p (some info)) =
        some ⟨0,.bytes p.payload⟩ := by
  refine ⟨?_,fun p info h => values_disabled lib p info h⟩
  cases h : m.payload with
  | none =>
    have hvacuous : DisabledIsRaw lib m := by
      intro p info hp
      rw [h] at hp
      cases hp
    simp only [FollowsRules, ReadAlike, h, agree_absent_iff lib m h, hvacuous, and_true]
  | some p =>
    have hagree := agree_present lib m p h
    simp only [FollowsRules, ReadAlike, h, disabled_iff lib m p h, hagree, true_and]

end Decoders

def disabledKey : OrderedKeyMessage where
  payload := some { payload := [107], size := 1 }
  compressionInfo := some { enabled := false, rawSize := some 1 }

/-- The empty message is a key to one decoder, and the byte that is sent raw
is a key to none. -/
theorem rules_broken :
    ¬ FollowsRules storedLibdeflate {} ∧ ¬ FollowsRules storedLibdeflate disabledKey := by
  constructor
  · rintro ⟨hagree,-⟩
    cases hagree
  · rintro ⟨-,hraw⟩
    obtain ⟨⟨r,hr,-⟩,-⟩ := hraw _ _ rfl rfl rfl rfl
    cases hr

end HurriCache.KeyDecoderAgreement
