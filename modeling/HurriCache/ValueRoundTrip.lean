import HurriCache.MessageDecoders
import HurriCache.StoredGzip

/-!
# Reading a built value back

Whether a byte value is sent raw, compressed, or raw after a failed
compression, the decoder recovers its bytes. The declared type may be lost
on the way: the oneof case determines it.
-/

set_option autoImplicit false

namespace HurriCache.ValueRoundTrip
open HurriCache.ClientTypes HurriCache.PayloadCompression
open HurriCache.WireMessages HurriCache.MessageBuilders HurriCache.MessageDecoders
open HurriCache.StoredGzip

theorem rawPayload_read (lib : Libdeflate) (data : Bytes) :
    readFlat lib none (rawPayload data).payload.flatten = some data := by
  simp [readFlat, isCompressed, rawPayload, BinaryPayload.payload]

theorem compressedPayload_read (lib : Libdeflate) (hr : lib.RoundTrip) (data : Bytes)
    (h : data.length < 2^32) (hc : lib.gzipCompress data ≠ [])
    (hl : (lib.gzipCompress data).length < 2^32) :
    readFlat lib (some (compressedInfo data.length))
      (compressedPayload (lib.gzipCompress data)
        (UInt32.ofNat (lib.gzipCompress data).length)).payload.flatten = some data := by
  have ht := take_ofNat_length (lib.gzipCompress data) hl
  have hd := decompress_compressed lib hr data h hc hl
  simp only [readFlat, isCompressed, compressedInfo, rawSizeOf, compressedPayload,
    BinaryPayload.payload, Cord.flatten_ofView, ht]
  simpa using hd

theorem buildBytesPayload_cases (lib : Libdeflate) (data : Bytes) (threshold : Int32)
    (h : data.length < 2^32) :
    buildBytesPayload lib data threshold = (rawPayload data, none) ∨
    (threshold64 threshold < data.length ∧ lib.gzipCompress data ≠ [] ∧
      buildBytesPayload lib data threshold =
        (compressedPayload (lib.gzipCompress data)
          (UInt32.ofNat (lib.gzipCompress data).length),
          some (compressedInfo data.length))) := by
  unfold buildBytesPayload
  by_cases ht : threshold64 threshold < data.length
  · by_cases hc : lib.gzipCompress data = []
    · left
      rw [if_pos ht, (compress_eq_none_iff lib data h).mpr hc]
    · rw [if_pos ht, compress_of_ne lib data h hc]
      by_cases hp : 0 < UInt32.ofNat (lib.gzipCompress data).length
      · right
        exact ⟨ht,hc,by simp [hp]⟩
      · left
        simp [hp]
  · left
    rw [if_neg ht]

theorem built_bytes_read (lib : Libdeflate) (hr : lib.RoundTrip) (data : Bytes)
    (threshold : Int32) (h : data.length < 2^32)
    (hl : (lib.gzipCompress data).length < 2^32) :
    readFlat lib (buildBytesPayload lib data threshold).2
      (buildBytesPayload lib data threshold).1.payload.flatten = some data := by
  rcases buildBytesPayload_cases lib data threshold h with hb | ⟨-,hc,hb⟩
  · rw [hb]
    exact rawPayload_read lib data
  · rw [hb]
    exact compressedPayload_read lib hr data h hc hl

theorem buildBytesPayload_data (lib : Libdeflate) (data : Bytes) (threshold : Int32)
    (h : data.length < 2^32) :
    ∃ c, (buildBytesPayload lib data threshold).1.data = .payload c := by
  rcases buildBytesPayload_cases lib data threshold h with hb | ⟨-,-,hb⟩ <;> rw [hb]
  · exact ⟨_,rfl⟩
  · exact ⟨_,rfl⟩

def valueTypeOf : Value → ValueType
  | .int _ => .INT
  | .double _ => .DOUBLE
  | .bytes _ => .BYTES

theorem built_type (lib : Libdeflate) (v : Value) (hs : v.size < 2^32) (now ttl : Int64)
    (clientId threshold : Int32) :
    inferType (buildValueProto lib v now ttl clientId threshold) = some (valueTypeOf v) ∧
    inferType { buildValueProto lib v now ttl clientId threshold with value_type := none } =
      some (valueTypeOf v) := by
  cases v with
  | int i => exact ⟨rfl,rfl⟩
  | double bits => exact ⟨rfl,rfl⟩
  | bytes data =>
    obtain ⟨c,hd⟩ := buildBytesPayload_data lib data threshold hs
    refine ⟨rfl,?_⟩
    simp [inferType, buildValueProto, ValueMessage.typeOrDefault,
      ValueMessage.payloadOrDefault, hd, valueTypeOf]

theorem built_content (lib : Libdeflate) (hr : lib.RoundTrip) (v : Value)
    (hs : v.size < 2^32)
    (hl : ∀ data, v = .bytes data → (lib.gzipCompress data).length < 2^32)
    (now ttl : Int64) (clientId threshold : Int32) :
    readTyped lib (valueTypeOf v)
      (buildValueProto lib v now ttl clientId threshold).compressionInfo
      (buildValueProto lib v now ttl clientId threshold).payloadOrDefault = some v := by
  cases v with
  | int i => rfl
  | double bits => rfl
  | bytes data =>
    have hb := built_bytes_read lib hr data threshold hs (hl data rfl)
    simp [readTyped, valueTypeOf, buildValueProto, ValueMessage.payloadOrDefault, hb]

/-- The round trip at every type, content, lifetime, client and threshold,
with the declared type present and with it removed. -/
theorem value_wire_round_trip (lib : Libdeflate) (hr : lib.RoundTrip) (v : Value)
    (hs : v.size < 2^32)
    (hl : ∀ data, v = .bytes data → (lib.gzipCompress data).length < 2^32)
    (now ttl : Int64) (clientId threshold : Int32) :
    valueRequestToValue lib (buildValueProto lib v now ttl clientId threshold) = some v ∧
    valueRequestToValue lib
      { buildValueProto lib v now ttl clientId threshold with value_type := none } = some v := by
  have hc := built_content lib hr v hs hl now ttl clientId threshold
  obtain ⟨ht,hn⟩ := built_type lib v hs now ttl clientId threshold
  constructor
  · rw [valueRequestToValue_eq, ht]
    exact hc
  · rw [valueRequestToValue_eq, hn]
    exact hc

theorem value_wire_round_trip_stored :
    valueRequestToValue storedLibdeflate
      (buildValueProto storedLibdeflate (.bytes [104, 101, 108, 108, 111]) 0 0 7 2) =
        some (.bytes [104, 101, 108, 108, 111]) ∧
    valueRequestToValue storedLibdeflate
      { buildValueProto storedLibdeflate (.bytes [104, 101, 108, 108, 111]) 0 0 7 2 with
        value_type := none } = some (.bytes [104, 101, 108, 108, 111]) :=
  value_wire_round_trip storedLibdeflate stored_round_trip _ (by decide)
    (fun data _ => stored_length data) 0 0 7 2

end HurriCache.ValueRoundTrip
