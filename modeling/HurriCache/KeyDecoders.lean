import HurriCache.MessageBuilders
import HurriCache.StoredGzip

/-!
# The key decoders of `utils.cxx`

Both overloads of `keyRequestToKey` deliver a key and, through a pointer, the
hint of the message. They take the presence of compression data for
compression. The plain one insists on a payload, the ordered one reads an
absent payload as an empty one.
-/

set_option autoImplicit false

namespace HurriCache.KeyDecoders
open HurriCache.ClientTypes HurriCache.KeyHashes HurriCache.PayloadCompression
open HurriCache.WireMessages HurriCache.MessageBuilders HurriCache.StoredGzip

/-- The hashes that a message leaves out are `UINT32_MAX`. -/
def hintOf (keyHint : Option KeyHintMessage) : KeyHint where
  weak_hash := (keyHint.bind (·.weak_hash)).getD 0xFFFFFFFF
  strong_hash := (keyHint.bind (·.strong_hash)).getD 0xFFFFFFFF

def newKey (src_size : UInt32) (src_data : Bytes) : Key where
  data := src_data.take src_size.toNat
  size_lt := lt_of_le_of_lt (List.length_take_le _ _) src_size.toNat_lt

/-- The buffer and its size, from which both overloads make the key. -/
def keyBytes (lib : Libdeflate) (info : Option CompressedInfo) (p : KeyBinaryPayload) :
    Option (UInt32 × Bytes) :=
  match info with
  | some cInfo =>
    let size := cInfo.rawSize.getD 0
    (decompress lib p.payload p.size size).map (fun payload => (size,payload))
  | none => some (p.size,p.payload)

def keyRequestToKey (lib : Libdeflate) (request : KeyMessage) : Option (Key × KeyHint) :=
  match request.payload with
  | none => none
  | some p =>
    if p.size.toNat ≠ p.payload.length then none
    else (keyBytes lib request.compressionInfo p).map
      (fun r => (newKey r.1 r.2,hintOf request.keyHint))

def keyRequestToOrderedKey (lib : Libdeflate) (request : OrderedKeyMessage) :
    Option (OrderedKey × KeyHint) :=
  if request.payload.isSome && (request.payload.getD {}).size.toNat ≠
      (request.payload.getD {}).payload.length then none
  else (keyBytes lib request.compressionInfo (request.payload.getD {})).map
    (fun r => (⟨request.order.getD 0,newKey r.1 r.2⟩,hintOf request.keyHint))

theorem newKey_data (k : Key) : newKey k.size k.data = k := by
  cases k with
  | mk data size_lt => simp only [newKey, Key.size, take_ofNat_length data size_lt]

section RoundTrip

def expectedHint (key : Key) (hint : Option KeyHint) : KeyHint :=
  match hint with
  | some h => h
  | none =>
    if key.data = [] then ⟨0xFFFFFFFF,0xFFFFFFFF⟩
    else ⟨weekHash (some key.data),strongHash (some key.data)⟩

theorem hintOf_effective (key : Key) (hint : Option KeyHint) :
    hintOf ((effectiveHint key hint).map hintMessage) = expectedHint key hint := by
  cases hint with
  | some h => rfl
  | none =>
    by_cases hdata : key.data = []
    · simp [effectiveHint, calculateKeyHint, expectedHint, hdata, hintOf]
    · simp [effectiveHint, calculateKeyHint, expectedHint, hdata, hintOf, hintMessage]

theorem buildKeyProto_cases (lib : Libdeflate) (key : Key) (hint : Option KeyHint)
    (clientId threshold : Int32) (m : KeyMessage)
    (h : buildKeyProto lib key hint clientId threshold = .ok m) :
    m.keyHint = (effectiveHint key hint).map hintMessage ∧
    ((m.compressionInfo = none ∧ m.payload = some { payload := key.data, size := key.size }) ∨
      lib.gzipCompress key.data ≠ [] ∧
      m.compressionInfo = some { enabled := true, rawSize := some key.size } ∧
      m.payload = some {
        payload := (lib.gzipCompress key.data).take
          (UInt32.ofNat (lib.gzipCompress key.data).length).toNat
        size := UInt32.ofNat (lib.gzipCompress key.data).length }) := by
  unfold buildKeyProto at h
  by_cases ht : threshold.toUInt32 < key.size
  · rw [if_pos ht] at h
    by_cases hc : lib.gzipCompress key.data = []
    · rw [Key.size, (compress_eq_none_iff lib key.data key.size_lt).mpr hc] at h
      cases h
    · rw [Key.size, compress_of_ne lib key.data key.size_lt hc] at h
      cases h
      exact ⟨rfl,Or.inr ⟨hc,rfl,rfl⟩⟩
  · rw [if_neg ht] at h
    cases h
    exact ⟨rfl,Or.inl ⟨rfl,rfl⟩⟩

theorem keyRequestToKey_built (lib : Libdeflate) (hr : lib.RoundTrip) (key : Key)
    (hint : Option KeyHint) (clientId threshold : Int32)
    (hl : (lib.gzipCompress key.data).length < 2^32) (m : KeyMessage)
    (h : buildKeyProto lib key hint clientId threshold = .ok m) :
    keyRequestToKey lib m = some (key,expectedHint key hint) := by
  obtain ⟨hhint,⟨hinfo,hpayload⟩ | ⟨hc,hinfo,hpayload⟩⟩ :=
    buildKeyProto_cases lib key hint clientId threshold m h
  · have hsize : key.size.toNat = key.data.length := by
      simpa [Key.size] using key.size_lt
    simp only [keyRequestToKey, hpayload, hinfo, keyBytes, hsize, hhint, hintOf_effective,
      ne_eq, not_true_eq_false, if_false, Option.map_some, newKey_data]
  · have hsize : (UInt32.ofNat (lib.gzipCompress key.data).length).toNat =
        (lib.gzipCompress key.data).length := by simpa using hl
    have hd : decompress lib (lib.gzipCompress key.data)
        (UInt32.ofNat (lib.gzipCompress key.data).length) key.size = some key.data :=
      decompress_compressed lib hr key.data key.size_lt hc hl
    simp only [keyRequestToKey, hpayload, hinfo, keyBytes, hsize, List.take_length, hhint,
      hintOf_effective, ne_eq, not_true_eq_false, if_false, Option.getD_some, hd,
      Option.map_some, newKey_data]

end RoundTrip

/-- Every key, hint, client id and threshold: the message is built, it decodes
to the key with its hint, and every other message built for the key names the
same key. -/
theorem key_wire_round_trip (lib : Libdeflate) (hr : lib.RoundTrip) (key : Key)
    (hint : Option KeyHint) (clientId threshold : Int32)
    (hc : KeyEncodable lib key threshold) (hl : (lib.gzipCompress key.data).length < 2^32) :
    ∃ m, buildKeyProto lib key hint clientId threshold = .ok m ∧
      keyRequestToKey lib m = some (key,expectedHint key hint) ∧
      ∀ other_hint other_client other_threshold other,
        buildKeyProto lib key other_hint other_client other_threshold = .ok other →
        (keyRequestToKey lib other).map Prod.fst = (keyRequestToKey lib m).map Prod.fst := by
  obtain ⟨m,hm⟩ := buildKeyProto_ok lib key hint clientId threshold hc
  have hk := keyRequestToKey_built lib hr key hint clientId threshold hl m hm
  refine ⟨m,hm,hk,?_⟩
  intro other_hint other_client other_threshold other ho
  rw [hk, keyRequestToKey_built lib hr key other_hint other_client other_threshold hl other ho]
  rfl

theorem key_wire_round_trip_stored :
    ∃ m, buildKeyProto storedLibdeflate sampleKey none 7 0 = .ok m ∧
      keyRequestToKey storedLibdeflate m = some (sampleKey,expectedHint sampleKey none) ∧
      ∀ other_hint other_client other_threshold other,
        buildKeyProto storedLibdeflate sampleKey other_hint other_client other_threshold =
          .ok other →
        (keyRequestToKey storedLibdeflate other).map Prod.fst =
          (keyRequestToKey storedLibdeflate m).map Prod.fst :=
  key_wire_round_trip storedLibdeflate stored_round_trip sampleKey none 7 0
    (fun _ => by decide) (stored_length _)

end HurriCache.KeyDecoders
