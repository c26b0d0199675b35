import HurriCache.ChunkSplitters
import HurriCache.WireSizes

/-!
# Sizes of element messages

The body of a message, its payload with the compression data, depends on the
threshold and on how many bytes the compressor makes; the rest does not. The
sizes of values and keys are written in terms of both. Nothing is assumed of
the compressor but the width of its lengths.
-/

set_option autoImplicit false

namespace HurriCache.ElementSizes
open HurriCache.ClientTypes HurriCache.PayloadCompression HurriCache.KeyHashes
open HurriCache.WireMessages HurriCache.WireSizes HurriCache.MessageBuilders
open HurriCache.ChunkSplitters

def Fits (lib : Libdeflate) : Prop := ∀ x, (lib.gzipCompress x).length < 2^32

def hintBytes (k : Key) : ℕ :=
  submessage KeyHintMessage.byteSize ((calculateKeyHint k).map hintMessage)

def clientIdBytes (clientId : Int32) : ℕ := varintField clientId.toUInt32.toNat

/-- No object is longer than `PTRDIFF_MAX`. -/
def inMemory : Value → Prop
  | .bytes data => data.length < 2^63
  | _ => True

section Bodies

/-- Payload and compression data, the part of a message that the threshold
decides on. -/
def bodySize (body : BinaryPayload × Option CompressedInfo) : ℕ :=
  submessage BinaryPayload.byteSize (some body.1)+submessage CompressedInfo.byteSize body.2

def rawSize (n : ℕ) : ℕ := lengthDelimited (lengthDelimited n+implicitField (n % 2^32))

def packedSize (c n : ℕ) : ℕ :=
  lengthDelimited (lengthDelimited c+implicitField c)+
    lengthDelimited (2+varintField (n % 2^32))

theorem cord_size_ofView (view : Bytes) : (Cord.ofView view).size = view.length := by
  rw [Cord.size_eq, Cord.flatten_ofView]

theorem bodySize_raw (data : Bytes) : bodySize (rawPayload data,none) = rawSize data.length := by
  simp [bodySize, submessage, optionalField, rawPayload, BinaryPayload.byteSize,
    PayloadData.byteSize, cord_size_ofView, rawSize]

theorem bodySize_packed (compressed : Bytes) (n : ℕ) (h : compressed.length < 2^32) :
    bodySize (compressedPayload compressed (UInt32.ofNat compressed.length),
      some (compressedInfo n)) = packedSize compressed.length n := by
  have hlen : (UInt32.ofNat compressed.length).toNat = compressed.length := by simpa using h
  simp [bodySize, submessage, optionalField, compressedPayload, compressedInfo,
    BinaryPayload.byteSize, PayloadData.byteSize, CompressedInfo.byteSize, cord_size_ofView,
    packedSize, hlen, uint32Field]

theorem packedSize_mono (c d n : ℕ) (h : c ≤ d) : packedSize c n ≤ packedSize d n := by
  have hpayload := lengthDelimited_mono (lengthDelimited c+implicitField c)
    (lengthDelimited d+implicitField d)
    (Nat.add_le_add (lengthDelimited_mono c d h) (implicitField_mono c d h))
  simp only [packedSize]
  omega

theorem info_size_le (n : ℕ) : lengthDelimited (2+varintField (n % 2^32)) ≤ 10 := by
  have hv := varintSize_five (n % 2^32) (by omega)
  rw [lengthDelimited_short _ (by simp only [varintField]; omega)]
  simp only [varintField]
  omega

theorem packedSize_one (n : ℕ) :
    packedSize 1 n = 7+lengthDelimited (2+varintField (n % 2^32)) := rfl

theorem raw_le_packed_one_iff (n slack : ℕ) (hn : 0 < n) (hs : slack ≤ 60) :
    rawSize n ≤ packedSize 1 n+slack ↔ n ≤ 7+slack := by
  have hinfo := info_size_le n
  rw [packedSize_one]
  by_cases hshort : n < 124
  · have hmod : n % 2^32 = n := Nat.mod_eq_of_lt (by omega)
    have hvar := varintSize_short n (by omega)
    have hraw : rawSize n = n+6 := by
      rw [rawSize, hmod, lengthDelimited_short n (by omega), implicitField_pos n (by omega), hvar,
        lengthDelimited_short _ (by omega)]
    have hfield : lengthDelimited (2+varintField (n % 2^32)) = 6 := by
      rw [hmod, varintField, hvar]
      rfl
    omega
  · have hraw := le_lengthDelimited (lengthDelimited n+implicitField (n % 2^32))
    have hpayload := le_lengthDelimited n
    simp only [rawSize]
    omega

theorem packed_max_le_raw_iff (n : ℕ) : packedSize (2^32-1) n ≤ rawSize n ↔ 2^32+9 ≤ n := by
  have hinfo : lengthDelimited (2+varintField (n % 2^32)) = 5+varintSize (n % 2^32) := by
    have hv := varintSize_five (n % 2^32) (by omega)
    rw [lengthDelimited_short _ (by simp only [varintField]; omega), varintField]
    omega
  have hpacked : packedSize (2^32-1) n = 2^32+22+varintSize (n % 2^32) := by
    have hpayload :
        lengthDelimited (lengthDelimited (2^32-1)+implicitField (2^32-1)) = 2^32+17 := by
      decide
    rw [packedSize, hpayload, hinfo]
    omega
  have hpos := varintSize_pos (n % 2^32)
  rw [hpacked, rawSize]
  by_cases hn : n < 2^32+9
  · have hlen := lengthDelimited_le_five n (by omega)
    have hfield : implicitField (n % 2^32) ≤ 1+varintSize (n % 2^32) := by
      unfold implicitField varintField
      split <;> omega
    have hfive := varintSize_five (n % 2^32) (by omega)
    have houter := lengthDelimited_le_five (lengthDelimited n+implicitField (n % 2^32)) (by omega)
    omega
  · have hlen := five_le_lengthDelimited n (by omega)
    have houter := five_le_lengthDelimited (lengthDelimited n+implicitField (n % 2^32)) (by omega)
    by_cases hz : n % 2^32 = 0
    · have hone : varintSize (n % 2^32) = 1 := by rw [hz]; rfl
      omega
    · rw [implicitField_pos _ hz] at houter ⊢
      omega

theorem rawPayload_bodySize (data : Bytes) :
    submessage BinaryPayload.byteSize (some (rawPayload data)) = rawSize data.length := by
  rw [← bodySize_raw]
  rfl

def rawKeySize (data : Bytes) : ℕ :=
  submessage KeyBinaryPayload.byteSize
    (some { payload := data, size := UInt32.ofNat data.length })

theorem rawKeySize_eq (data : Bytes) (h : data ≠ []) : rawKeySize data = rawSize data.length := by
  simp [rawKeySize, submessage, optionalField, KeyBinaryPayload.byteSize, h, rawSize]

end Bodies

section Built

def packedLength (lib : Libdeflate) (data : Bytes) : ℕ :=
  (lib.gzipCompress (data.take (UInt32.ofNat data.length).toNat)).length

def builtSize (threshold : Int32) (n c : ℕ) : ℕ :=
  if threshold64 threshold < n ∧ c ≠ 0 then packedSize c n else rawSize n

def constantLibdeflate (out : Bytes) : Libdeflate := ⟨fun _ => out,fun _ _ => none⟩

theorem forall_packedLength (data : Bytes) (P : ℕ → Prop) :
    (∀ lib, Fits lib → P (packedLength lib data)) ↔ ∀ c < 2^32, P c := by
  constructor
  · intro h c hc
    have hconst := h (constantLibdeflate (List.replicate c 0)) (fun _ => by
      rw [constantLibdeflate, List.length_replicate]
      exact hc)
    rwa [packedLength, constantLibdeflate, List.length_replicate] at hconst
  · intro h lib hlib
    exact h _ (hlib _)

theorem built_body (lib : Libdeflate) (hlib : Fits lib) (data : Bytes) (threshold : Int32) :
    bodySize (buildBytesPayload lib data threshold) =
      builtSize threshold data.length (packedLength lib data) := by
  let out := lib.gzipCompress (data.take (UInt32.ofNat data.length).toNat)
  have hout : out.length < 2^32 := hlib _
  unfold buildBytesPayload builtSize packedLength
  by_cases ht : threshold64 threshold < data.length
  · by_cases hempty : out = []
    · have hc : compress lib data (UInt32.ofNat data.length) = none := if_pos hempty
      rw [if_pos ht, hc, if_neg (fun h => h.2 (List.length_eq_zero_iff.mpr hempty))]
      exact bodySize_raw data
    · have hc : compress lib data (UInt32.ofNat data.length) =
          some (out,UInt32.ofNat out.length) := if_neg hempty
      have hpos : 0 < UInt32.ofNat out.length := by
        rw [UInt32.lt_iff_toNat_lt]
        have hlen : (UInt32.ofNat out.length).toNat = out.length := by simpa using hout
        rw [hlen]
        exact List.length_pos_iff.mpr hempty
      rw [if_pos ht, hc, if_pos ⟨ht,fun h => hempty (List.length_eq_zero_iff.mp h)⟩]
      simp only [hpos, if_true]
      exact bodySize_packed out data.length hout
  · rw [if_neg ht, if_neg (fun h => ht h.1)]
    exact bodySize_raw data

theorem rawSize_le (n : ℕ) (h : n < 2^63) : rawSize n ≤ n+28 := by
  have hinner := lengthDelimited_le n (by omega)
  have hfield := implicitField_le (n % 2^32) (by omega)
  have houter := lengthDelimited_le (lengthDelimited n+implicitField (n % 2^32)) (by omega)
  simp only [rawSize]
  omega

theorem packedSize_le (c n : ℕ) (hc : c < 2^32) : packedSize c n ≤ c+38 := by
  have hinner := lengthDelimited_le c (by omega)
  have hfield := implicitField_le c (by omega)
  have houter := lengthDelimited_le (lengthDelimited c+implicitField c) (by omega)
  have hinfo := info_size_le n
  simp only [packedSize]
  omega

theorem builtSize_le (threshold : Int32) (n c : ℕ) (hn : n < 2^63) (hc : c < 2^32) :
    builtSize threshold n c ≤ 2^63+2^33 := by
  have hraw := rawSize_le n hn
  have hpacked := packedSize_le c n hc
  unfold builtSize
  split <;> omega

theorem rawKeySize_le (data : Bytes) (h : data.length < 2^32) :
    rawKeySize data ≤ data.length+28 := by
  by_cases hd : data = []
  · subst hd
    decide
  · rw [rawKeySize_eq data hd]
    exact rawSize_le data.length (by omega)

end Built

section Messages

variable (lib : Libdeflate) (clientId threshold : Int32)

theorem ofNat_toNat (n : ℕ) (h : n < 2^64) : (UInt64.ofNat n).toNat = n := by simpa using h

def lockBytes : ℕ := submessage LockInfo.byteSize (some (lockInfo clientId))

theorem clientIdBytes_le : clientIdBytes clientId ≤ 6 :=
  varintField_uint32_le clientId.toUInt32

theorem lockBytes_le : lockBytes clientId ≤ 8 := by
  have hid := clientIdBytes_le clientId
  have hsize : (lockInfo clientId).byteSize = clientIdBytes clientId := by
    simp [lockInfo, LockInfo.byteSize, LockType.number, implicitField, optionalField, uint32Field,
      clientIdBytes]
  rw [lockBytes, submessage, optionalField, hsize, lengthDelimited_short _ (by omega)]
  omega

theorem bytes_size (data : Bytes) :
    (buildValueProtoNoTtl lib (.bytes data) clientId threshold).byteSize =
      bodySize (buildBytesPayload lib data threshold)+(lockBytes clientId+2) := by
  have htype : optionalField (fun t => varintField (ValueType.number t)) (some .BYTES) = 2 := by
    decide
  simp only [buildValueProtoNoTtl, buildValueProto, ValueMessage.byteSize, bodySize, htype,
    lockBytes]
  show _+_+0+_+2 = _
  omega

theorem number_size_le (v : Value) (h : ∀ data, v ≠ .bytes data) :
    (buildValueProtoNoTtl lib v clientId threshold).byteSize < 2^64 := by
  have hlock := lockBytes_le clientId
  cases v with
  | bytes data => exact absurd rfl (h data)
  | int i =>
    have hfield := varintField_uint64_le i.toUInt64
    have hsize : (buildValueProtoNoTtl lib (.int i) clientId threshold).byteSize =
        lengthDelimited (varintField i.toUInt64.toNat)+0+0+lockBytes clientId+2 := rfl
    rw [hsize, lengthDelimited_short _ (by omega)]
    omega
  | double bits =>
    have hsize : (buildValueProtoNoTtl lib (.double bits) clientId threshold).byteSize =
        lengthDelimited 9+0+0+lockBytes clientId+2 := rfl
    rw [hsize, lengthDelimited_short _ (by decide)]
    omega

theorem ordered_estimate (w : UInt64) (data : Bytes) :
    estimateOrderedValueSize lib clientId threshold (some ⟨w,.bytes data⟩) =
      .ok (UInt64.ofNat (bodySize (buildBytesPayload lib data threshold)+
        (varintField w.toNat+2))) := by
  have hsize : ∀ (p : BinaryPayload) (info : Option CompressedInfo),
      OrderedValueMessage.byteSize {
        value := some p
        order := some w
        compressionInfo := info
        value_type := some .BYTES } = bodySize (p,info)+(varintField w.toNat+2) := by
    intro p info
    simp only [OrderedValueMessage.byteSize, bodySize]
    show _+varintField w.toNat+_+0+0+2 = _
    omega
  exact congrArg (fun n => Except.ok (UInt64.ofNat n)) (hsize _ _)

theorem ordered_bound (hlib : Fits lib) (w : UInt64) (data : Bytes) (hmem : data.length < 2^63) :
    (UInt64.ofNat (bodySize (buildBytesPayload lib data threshold)+(varintField w.toNat+2))).toNat =
      builtSize threshold data.length (packedLength lib data)+(varintField w.toNat+2) := by
  have hbuilt := builtSize_le threshold data.length (packedLength lib data) hmem (hlib _)
  have hfield := varintField_uint64_le w
  rw [built_body lib hlib]
  exact ofNat_toNat _ (by omega)

theorem hintBytes_le (k : Key) : hintBytes k ≤ 14 := by
  unfold hintBytes
  cases calculateKeyHint k with
  | none => exact Nat.zero_le _
  | some h =>
    have hweak := varintField_uint32_le h.weak_hash
    have hstrong := varintField_uint32_le h.strong_hash
    show lengthDelimited (varintField h.weak_hash.toNat+varintField h.strong_hash.toNat) ≤ 14
    rw [lengthDelimited_short _ (by omega)]
    omega

theorem keyMessage_size_lt (m : KeyMessage)
    (h : ∀ p, m.payload = some p → p.payload.length < 2^32) : m.byteSize < 2^33 := by
  have hpayload : submessage KeyBinaryPayload.byteSize m.payload ≤ 2^32+40 := by
    rcases hp : m.payload with _ | p
    · exact Nat.zero_le _
    · have hlen := h p hp
      have hbytes := lengthDelimited_le p.payload.length (by omega)
      have hsize := implicitField_le p.size.toNat (by have := p.size.toNat_lt; omega)
      have hp : p.byteSize ≤ 2^32+17 := by
        unfold KeyBinaryPayload.byteSize
        split <;> omega
      have houter := lengthDelimited_le p.byteSize (by omega)
      show lengthDelimited p.byteSize ≤ _
      omega
  have hinfo : submessage CompressedInfo.byteSize m.compressionInfo ≤ 30 := by
    rcases m.compressionInfo with _ | c
    · exact Nat.zero_le _
    · have hc : c.byteSize ≤ 8 := by
        unfold CompressedInfo.byteSize
        rcases c.rawSize with _ | n
        · show _+0 ≤ 8
          split <;> omega
        · have hn := varintField_uint32_le n
          show _+varintField n.toNat ≤ 8
          split <;> omega
      have houter := lengthDelimited_le c.byteSize (by omega)
      show lengthDelimited c.byteSize ≤ _
      omega
  have hhint : submessage KeyHintMessage.byteSize m.keyHint ≤ 30 := by
    have hfield : ∀ n : Option UInt32, optionalField uint32Field n ≤ 6 := by
      rintro (_ | n)
      · exact Nat.zero_le _
      · exact varintField_uint32_le n
    rcases m.keyHint with _ | x
    · exact Nat.zero_le _
    · have hx : x.byteSize ≤ 12 := Nat.add_le_add (hfield x.weak_hash) (hfield x.strong_hash)
      have houter := lengthDelimited_le x.byteSize (by omega)
      show lengthDelimited x.byteSize ≤ _
      omega
  have hid : optionalField uint32Field m.clientId ≤ 6 := by
    rcases m.clientId with _ | n
    · exact Nat.zero_le _
    · exact varintField_uint32_le n
  unfold KeyMessage.byteSize
  omega

theorem buildKeyProto_size_lt (key : Key) (hint : Option KeyHint) (m : KeyMessage)
    (h : buildKeyProto lib key hint clientId threshold = .ok m) : m.byteSize < 2^33 := by
  apply keyMessage_size_lt
  intro p hp
  unfold buildKeyProto at h
  dsimp only at h
  split at h
  · split at h
    · cases h
    next compressed clen _ =>
      cases h
      cases hp
      have := clen.toNat_lt
      rw [List.length_take]
      omega
  · cases h
    cases hp
    exact key.size_lt

theorem key_estimate (lib : Libdeflate) (hlib : Fits lib) (k : Key) :
    estimateKeySize lib clientId threshold (some k) =
      if threshold.toUInt32.toNat < k.data.length then
        if packedLength lib k.data = 0 then .error .nullPointer
        else .ok (UInt64.ofNat (packedSize (packedLength lib k.data) k.data.length+
          (hintBytes k+clientIdBytes clientId)))
      else .ok (UInt64.ofNat (rawKeySize k.data+(hintBytes k+clientIdBytes clientId))) := by
  have hsize : k.size.toNat = k.data.length := by simpa [Key.size] using k.size_lt
  have hlt : threshold.toUInt32 < k.size ↔ threshold.toUInt32.toNat < k.data.length := by
    rw [UInt32.lt_iff_toNat_lt, hsize]
  let out := lib.gzipCompress (k.data.take (UInt32.ofNat k.data.length).toNat)
  have hout : (UInt32.ofNat out.length).toNat = out.length := by simpa using hlib _
  have hmod : k.data.length % 2^32 = k.data.length := Nat.mod_eq_of_lt k.size_lt
  simp only [estimateKeySize, deref_some, buildKeyProto, bind, Except.bind, hlt]
  by_cases ht : threshold.toUInt32.toNat < k.data.length
  · rw [if_pos ht, if_pos ht]
    by_cases hempty : out = []
    · have hc : compress lib k.data k.size = none := if_pos hempty
      rw [hc, if_pos (show packedLength lib k.data = 0 from List.length_eq_zero_iff.mpr hempty)]
    · have hc : compress lib k.data k.size = some (out,UInt32.ofNat out.length) := if_neg hempty
      have hne : packedLength lib k.data ≠ 0 := fun h => hempty (List.length_eq_zero_iff.mp h)
      rw [hc, if_neg hne]
      refine congrArg (fun n => Except.ok (UInt64.ofNat n)) ?_
      have hbody : submessage KeyBinaryPayload.byteSize (some
            { payload := out.take (UInt32.ofNat out.length).toNat,
              size := UInt32.ofNat out.length })+
          submessage CompressedInfo.byteSize (some { enabled := true, rawSize := some k.size }) =
          packedSize (packedLength lib k.data) k.data.length := by
        rw [hout, List.take_length]
        simp only [submessage, optionalField, KeyBinaryPayload.byteSize, if_neg hempty, hout,
          CompressedInfo.byteSize, uint32Field, hsize, packedSize, hmod]
        rfl
      rw [← hbody]
      simp only [KeyMessage.byteSize, effectiveHint]
      show _+_+hintBytes k+clientIdBytes clientId = _
      omega
  · rw [if_neg ht, if_neg ht]
    refine congrArg (fun n => Except.ok (UInt64.ofNat n)) ?_
    simp only [KeyMessage.byteSize, effectiveHint]
    show rawKeySize k.data+0+hintBytes k+clientIdBytes clientId = _
    omega

end Messages

end HurriCache.ElementSizes
