import HurriCache.ValueRoundTrip

/-!
# Encoders of ordered elements

Three loops besides `buildValueProto` put an ordered value on the wire. None
of them looks at the tag of the value: each hands the `data` member of the
union and the size to a byte payload. They agree with `buildValueProto`
exactly on byte values that need no compression or can be compressed.
-/

set_option autoImplicit false

namespace HurriCache.OrderedEncoders
open HurriCache.ClientTypes HurriCache.PayloadCompression
open HurriCache.WireMessages HurriCache.MessageBuilders HurriCache.MessageDecoders
open HurriCache.ValueRoundTrip HurriCache.StoredGzip

/-- The loop body of `buildContainerRequestOrdered`. The compressor's result
is used unchecked. -/
def orderedElement (lib : Libdeflate) (threshold : Int32) (val : OrderedValue) :
    Except Fault OrderedValueMessage := do
  let data ← val.elem.dataMember
  if threshold64 threshold < val.elem.size then
    match compress lib data (UInt32.ofNat val.elem.size) with
    | none => .error .nullPointer
    | some (compressed, clen) => .ok {
        order := some val.weight
        value := some (compressedPayload compressed clen)
        compressionInfo := some (compressedInfo val.elem.size) }
  else .ok { order := some val.weight, value := some (rawPayload data) }

def weightedElement (ov : OrderedValue) : Except Fault OrderedValueMessage := do
  let data ← ov.elem.dataMember
  .ok { order := some ov.weight, value := some (rawPayload data) }

def orderedMapValue (ov : OrderedValue) : Except Fault ValueMessage := do
  let data ← ov.elem.dataMember
  .ok { value := some (rawPayload data) }

def orderedMapKey (ok : OrderedKey) : OrderedKeyMessage :=
  { payload := some { payload := ok.elem.data, size := ok.elem.size }, order := some ok.weight }

def buildContainerRequestOrdered (lib : Libdeflate) (key : Key) (hint : Option KeyHint)
    (clientId : Int32) (type : ContainerKind) (now ttl : Int64)
    (values : Option (List OrderedValuePtr)) (threshold : Int32) :
    Except Fault CreateContainerRequest := do
  let k ← buildKeyProto lib key (effectiveHint key hint) clientId threshold
  let elements ← (values.getD []).mapM (fun val => do orderedElement lib threshold (← deref val))
  .ok { key := k, type := type, ttl := deadline now ttl, value_ordered := elements }

def addElementWithWeightRequest (lib : Libdeflate) (key : Key) (hint : Option KeyHint)
    (data : Option (List OrderedValuePtr)) (clientId : Int32) : Except Fault AddToRequest := do
  let k ← buildKeyProto lib key hint clientId defaultThreshold
  let elements ← (data.getD []).mapM (fun ov => do weightedElement (← deref ov))
  .ok { key := k, value_ordered := elements }

def createOrderedMapRequest (lib : Libdeflate) (key : Key) (hint : Option KeyHint)
    (initialValue : Option (List (OrderedKey × OrderedValuePtr))) (now ttl : Int64)
    (clientId : Int32) : Except Fault CreateContainerRequest := do
  let k ← buildKeyProto lib key hint clientId defaultThreshold
  let values ← (initialValue.getD []).mapM (fun e => do orderedMapValue (← deref e.2))
  .ok {
    key := k
    type := .ORDERED_MAP
    ttl := deadline now ttl
    key_ordered := (initialValue.getD []).map (fun e => orderedMapKey e.1)
    value_unordered := values }

def logicalPayload (lib : Libdeflate) (info : Option CompressedInfo) (p : BinaryPayload) :
    Option Value :=
  match p.data with
  | .notSet => none
  | .intPayload i => some (.int i)
  | .doublePayload bits => some (.double bits)
  | .payload c => (readFlat lib info c.flatten).map .bytes

def builtLogical (lib : Libdeflate) (v : Value) (clientId threshold : Int32) : Option Value :=
  let m := buildValueProtoNoTtl lib v clientId threshold
  logicalPayload lib m.compressionInfo m.payloadOrDefault

def EncodersAgree (lib : Libdeflate) (ov : OrderedValue) (clientId threshold : Int32) : Prop :=
  (∃ m, orderedElement lib threshold ov = .ok m ∧
    logicalPayload lib m.compressionInfo m.payloadOrDefault =
      builtLogical lib ov.elem clientId threshold) ∧
  (∃ m, weightedElement ov = .ok m ∧
    logicalPayload lib m.compressionInfo m.payloadOrDefault =
      builtLogical lib ov.elem clientId threshold) ∧
  ∃ m, orderedMapValue ov = .ok m ∧
    logicalPayload lib m.compressionInfo m.payloadOrDefault =
      builtLogical lib ov.elem clientId threshold

/-- A byte value that is sent raw, or short enough for the 32-bit length of
the compressor and compressed by it. -/
def Encodable (lib : Libdeflate) (v : Value) (threshold : Int32) : Prop :=
  ∃ data, v = .bytes data ∧ (data.length ≤ threshold64 threshold ∨
    (data.length < 2^32 ∧ lib.gzipCompress data ≠ []))

theorem rawPayload_logical (lib : Libdeflate) (data : Bytes) :
    logicalPayload lib none (rawPayload data) = some (.bytes data) := by
  have h := rawPayload_read lib data
  simpa [logicalPayload, rawPayload, BinaryPayload.payload] using h

theorem compressedPayload_logical (lib : Libdeflate) (info : Option CompressedInfo)
    (compressed : Bytes) (clen : UInt32) :
    logicalPayload lib info (compressedPayload compressed clen) =
      (readFlat lib info (compressed.take clen.toNat)).map .bytes := by
  simp [logicalPayload, compressedPayload]

theorem built_bytes_logical (lib : Libdeflate) (hr : lib.RoundTrip) (data : Bytes)
    (clientId threshold : Int32) (h : data.length < 2^32)
    (hl : (lib.gzipCompress data).length < 2^32) :
    builtLogical lib (.bytes data) clientId threshold = some (.bytes data) := by
  obtain ⟨c,hd⟩ := buildBytesPayload_data lib data threshold h
  have hb := built_bytes_read lib hr data threshold h hl
  simp only [BinaryPayload.payload, hd] at hb
  simp [builtLogical, buildValueProtoNoTtl, buildValueProto, ValueMessage.payloadOrDefault,
    logicalPayload, hd, hb]

theorem built_raw_logical (lib : Libdeflate) (data : Bytes) (clientId threshold : Int32)
    (h : data.length ≤ threshold64 threshold) :
    builtLogical lib (.bytes data) clientId threshold = some (.bytes data) := by
  have hb : buildBytesPayload lib data threshold = (rawPayload data, none) :=
    if_neg (by omega)
  simp [builtLogical, buildValueProtoNoTtl, buildValueProto, ValueMessage.payloadOrDefault,
    hb, rawPayload_logical]

theorem weightedElement_logical (lib : Libdeflate) (ov : OrderedValue)
    (m : OrderedValueMessage) (data : Bytes) (he : ov.elem = .bytes data)
    (hm : weightedElement ov = .ok m) :
    logicalPayload lib m.compressionInfo m.payloadOrDefault = some (.bytes data) := by
  obtain ⟨w,e⟩ := ov
  cases he
  cases hm
  exact rawPayload_logical lib data

theorem orderedElement_compressed (lib : Libdeflate) (w : UInt64) (data : Bytes)
    (threshold : Int32) (ht : threshold64 threshold < data.length) :
    orderedElement lib threshold ⟨w,.bytes data⟩ =
      match compress lib data (UInt32.ofNat data.length) with
      | none => .error .nullPointer
      | some (compressed, clen) => .ok {
          order := some w
          value := some (compressedPayload compressed clen)
          compressionInfo := some (compressedInfo data.length) } := by
  change (if threshold64 threshold < data.length then _ else _) = _
  rw [if_pos ht]
  rfl

theorem agree_of_encodable (lib : Libdeflate) (hr : lib.RoundTrip) (ov : OrderedValue)
    (clientId threshold : Int32)
    (hl : ∀ data, ov.elem = .bytes data → (lib.gzipCompress data).length < 2^32)
    (h : Encodable lib ov.elem threshold) : EncodersAgree lib ov clientId threshold := by
  obtain ⟨data,he,hcase⟩ := h
  have hlen := hl data he
  obtain ⟨w,e⟩ := ov
  cases he
  have hraw := rawPayload_logical lib data
  by_cases ht : data.length ≤ threshold64 threshold
  · have hb := built_raw_logical lib data clientId threshold ht
    have ho : orderedElement lib threshold ⟨w,.bytes data⟩ =
        .ok { order := some w, value := some (rawPayload data) } := by
      change (if threshold64 threshold < data.length then _ else _) = _
      exact if_neg (by omega)
    exact ⟨⟨_,ho,hraw.trans hb.symm⟩,⟨_,rfl,hraw.trans hb.symm⟩,⟨_,rfl,hraw.trans hb.symm⟩⟩
  · obtain ⟨h32,hc⟩ := hcase.resolve_left ht
    have hb := built_bytes_logical lib hr data clientId threshold h32 hlen
    have ho := orderedElement_compressed lib w data threshold (by omega)
    rw [compress_of_ne lib data h32 hc] at ho
    have hread := compressedPayload_read lib hr data h32 hc hlen
    simp only [BinaryPayload.payload, compressedPayload, Cord.flatten_ofView] at hread
    refine ⟨⟨_,ho,?_⟩,⟨_,rfl,hraw.trans hb.symm⟩,⟨_,rfl,hraw.trans hb.symm⟩⟩
    rw [hb]
    change logicalPayload lib _ (compressedPayload _ _) = _
    rw [compressedPayload_logical, hread]
    rfl

/-- Past `2^32` bytes a compressed element decodes, if at all, to fewer
bytes than `addElementWithWeight` sends. -/
theorem encodable_of_agree (lib : Libdeflate) (ov : OrderedValue)
    (clientId threshold : Int32) (h : EncodersAgree lib ov clientId threshold) :
    Encodable lib ov.elem threshold := by
  obtain ⟨⟨m,hm,hml⟩,⟨m',hm',hml'⟩,-⟩ := h
  obtain ⟨w,e⟩ := ov
  cases e with
  | int i => cases hm
  | double bits => cases hm
  | bytes data =>
    refine ⟨data,rfl,?_⟩
    by_cases ht : data.length ≤ threshold64 threshold
    · exact Or.inl ht
    · right
      have hsame : logicalPayload lib m.compressionInfo m.payloadOrDefault =
          some (.bytes data) :=
        hml.trans (hml'.symm.trans (weightedElement_logical lib _ m' data rfl hm'))
      rw [orderedElement_compressed lib w data threshold (by omega)] at hm
      cases hc : compress lib data (UInt32.ofNat data.length) with
      | none =>
        rw [hc] at hm
        cases hm
      | some r =>
        rw [hc] at hm
        cases hm
        change logicalPayload lib _ (compressedPayload _ _) = _ at hsame
        rw [compressedPayload_logical] at hsame
        obtain ⟨raw,hraw,hd⟩ := Option.map_eq_some_iff.mp hsame
        cases hd
        have hlen := decompress_length lib _ _ _ _ hraw
        have h32 : data.length < 2^32 := by
          have hlt : (UInt32.ofNat data.length).toNat < 2^32 := (UInt32.ofNat data.length).toNat_lt
          simp only [rawSizeOf, compressedInfo, Option.bind_some, Option.getD_some] at hlen
          omega
        refine ⟨h32,fun hne => ?_⟩
        rw [(compress_eq_none_iff lib data h32).mpr hne] at hc
        cases hc

/-- The agreement of the four encoders, with its exact domain. -/
theorem encoders_agree_iff (lib : Libdeflate) (hr : lib.RoundTrip) (ov : OrderedValue)
    (clientId threshold : Int32)
    (hl : ∀ data, ov.elem = .bytes data → (lib.gzipCompress data).length < 2^32) :
    EncodersAgree lib ov clientId threshold ↔ Encodable lib ov.elem threshold :=
  ⟨encodable_of_agree lib ov clientId threshold,
    agree_of_encodable lib hr ov clientId threshold hl⟩

theorem encoders_agree_iff_stored :
    EncodersAgree storedLibdeflate ⟨3, .bytes [104, 105, 106]⟩ 7 2 ↔
      Encodable storedLibdeflate (.bytes [104, 105, 106]) 2 :=
  encoders_agree_iff storedLibdeflate stored_round_trip ⟨3, .bytes [104, 105, 106]⟩ 7 2
    (fun data _ => stored_length data)

/-- The integer 5 with weight 3: its bits are taken for an address. -/
theorem integer_element_faults :
    orderedElement storedLibdeflate 1024 ⟨3, .int 5⟩ = .error .wildPointer ∧
    ¬ EncodersAgree storedLibdeflate ⟨3, .int 5⟩ 7 1024 := by
  refine ⟨rfl,fun h => ?_⟩
  obtain ⟨⟨m,hm,-⟩,-⟩ := h
  cases hm

end HurriCache.OrderedEncoders
