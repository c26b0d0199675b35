import HurriCache.ElementSizes
import HurriCache.InsertRequests
import HurriCache.OrderedEncoders

/-!
# Estimates beside what is sent

The splitters rebuild an element with the threshold of the smart client. Some
senders use that threshold, some the default one and some do not compress at
all. With nothing assumed of the compressor but the width of its lengths, an
estimate may then be that of a single compressed byte, or what is sent may be
the output of a compressor that expands.
-/

set_option autoImplicit false

namespace HurriCache.EstimateCoverage
open HurriCache.ClientTypes HurriCache.PayloadCompression HurriCache.KeyHashes
open HurriCache.WireMessages HurriCache.WireSizes HurriCache.MessageBuilders
open HurriCache.OrderedEncoders HurriCache.InsertRequests HurriCache.ChunkSplitters
open HurriCache.ElementSizes

/-- An element and the call that puts it into a request. `addElement` is every
addition of plain values. -/
inductive Placement where
  | createUnordered (v : Value)
  | addElement (v : Value)
  | createOrderedSet (ov : OrderedValue)
  | addElementWithWeight (ov : OrderedValue)
  | createMapKey (k : Key)
  | createMapValue (v : Value)
  | createOrderedMapKey (k : OrderedKey)
  | createOrderedMapValue (ov : OrderedValue)
  | addElementHashMapKey (k : Key)
  | addElementHashMapValue (v : Value)
  | addElementOrderedMapKey (ov : OrderedValue)
  | addElementOrderedMapValue (v : Value)

section Sizes

variable (lib : Libdeflate) (clientId threshold : Int32)

/-- The bytes that the splitter of the call counts. The two map splitters
count 32 bytes with every key. -/
def Placement.estimate : Placement → Except Fault UInt64
  | .createUnordered v | .addElement v | .createMapValue v | .addElementHashMapValue v
  | .addElementOrderedMapValue v => estimateValueSize lib clientId threshold (some v)
  | .createOrderedSet ov | .addElementWithWeight ov | .createOrderedMapValue ov =>
    estimateOrderedValueSize lib clientId threshold (some ov)
  | .createMapKey k => estimateKeySize lib clientId threshold (some k)
  | .createOrderedMapKey k => estimateOrderedKeySize clientId (some k)
  | .addElementHashMapKey k => do .ok ((← estimateKeySize lib clientId threshold (some k))+32)
  | .addElementOrderedMapKey ov => do
    .ok ((← estimateOrderedValueSize lib clientId threshold (some ov))+32)

/-- The serialized size of the message in the request. A number under the
`data` member of an ordered value is a wild pointer. -/
def Placement.sent : Placement → Except Fault ℕ
  | .createUnordered v => .ok (buildValueProtoNoTtl lib v clientId threshold).byteSize
  | .addElement v | .createMapValue v | .addElementHashMapValue v
  | .addElementOrderedMapValue v =>
    .ok (buildValueProtoNoTtl lib v clientId defaultThreshold).byteSize
  | .createOrderedSet ov => do .ok (← orderedElement lib threshold ov).byteSize
  | .addElementWithWeight ov => do .ok (← weightedElement ov).byteSize
  | .createOrderedMapValue ov => do .ok (← orderedMapValue ov).byteSize
  | .createMapKey k | .addElementHashMapKey k => .ok (mapKey k).byteSize
  | .createOrderedMapKey k => .ok (orderedMapKey k).byteSize
  | .addElementOrderedMapKey ov => do .ok (← orderedValueKey ov).byteSize

end Sizes

def Covered (clientId threshold : Int32) (p : Placement) : Prop :=
  ∀ lib, Fits lib → ∀ n m, p.estimate lib clientId threshold = .ok n →
    p.sent lib clientId threshold = .ok m → m ≤ n.toNat

def plainCovered (threshold : Int32) : Value → Prop
  | .bytes data =>
    (1024 < data.length → data.length ≤ threshold64 threshold → 2^32+9 ≤ data.length) ∧
    (threshold64 threshold < data.length → data.length ≤ 1024 → data.length ≤ 7)
  | _ => True

def rawCovered (threshold : Int32) (slack : ℕ) : Value → Prop
  | .bytes data => threshold64 threshold < data.length → data.length ≤ 9+slack
  | _ => True

def keyCovered (clientId threshold : Int32) (slack : ℕ) (k : Key) : Prop :=
  threshold.toUInt32.toNat < k.data.length →
    k.data.length ≤ 7+hintBytes k+clientIdBytes clientId+slack

def Placement.coveredWhen (clientId threshold : Int32) : Placement → Prop
  | .createUnordered _ | .createOrderedSet _ | .createOrderedMapKey _ => True
  | .addElement v | .createMapValue v | .addElementHashMapValue v
  | .addElementOrderedMapValue v => plainCovered threshold v
  | .addElementWithWeight ov => rawCovered threshold 0 ov.elem
  | .createOrderedMapValue ov =>
    rawCovered threshold (varintField ov.weight.toNat) ov.elem
  | .addElementOrderedMapKey ov => rawCovered threshold 32 ov.elem
  | .createMapKey k => keyCovered clientId threshold 0 k
  | .addElementHashMapKey k => keyCovered clientId threshold 32 k

def Placement.inMemory : Placement → Prop
  | .createUnordered v | .addElement v | .createMapValue v | .addElementHashMapValue v
  | .addElementOrderedMapValue v => ElementSizes.inMemory v
  | .createOrderedSet ov | .addElementWithWeight ov | .createOrderedMapValue ov
  | .addElementOrderedMapKey ov => ElementSizes.inMemory ov.elem
  | _ => True

section Thresholds

theorem plain_sizes_iff (threshold : Int32) (data : Bytes) :
    (∀ c < 2^32, builtSize defaultThreshold data.length c ≤ builtSize threshold data.length c) ↔
      plainCovered threshold (.bytes data) := by
  have hdefault : threshold64 defaultThreshold = 1024 := by decide
  simp only [builtSize, hdefault, plainCovered]
  constructor
  · intro h
    constructor
    · intro hlong hraw
      have hmax := h (2^32-1) (by omega)
      rw [if_pos ⟨hlong,by omega⟩, if_neg (by omega)] at hmax
      exact (packed_max_le_raw_iff data.length).mp hmax
    · intro hpacked hshort
      have hone := h 1 (by omega)
      rw [if_neg (by omega), if_pos ⟨hpacked,by omega⟩] at hone
      exact (raw_le_packed_one_iff data.length 0 (by omega) (by omega)).mp hone
  · rintro ⟨hlong,hshort⟩ c hc
    by_cases hd : 1024 < data.length ∧ c ≠ 0
    · rw [if_pos hd]
      by_cases ht : threshold64 threshold < data.length
      · rw [if_pos ⟨ht,hd.2⟩]
      · rw [if_neg (fun h => ht h.1)]
        have hmax := (packed_max_le_raw_iff data.length).mpr (hlong hd.1 (by omega))
        exact le_trans (packedSize_mono c (2^32-1) _ (by omega)) hmax
    · rw [if_neg hd]
      by_cases ht : threshold64 threshold < data.length ∧ c ≠ 0
      · rw [if_pos ht]
        have hone := (raw_le_packed_one_iff data.length 0 (by omega) (by omega)).mpr
          (hshort ht.1 (by omega))
        exact le_trans hone (packedSize_mono 1 c _ (by omega))
      · rw [if_neg ht]

theorem raw_sizes_iff (threshold : Int32) (slack : ℕ) (data : Bytes) (hs : slack ≤ 58) :
    (∀ c < 2^32, rawSize data.length ≤ builtSize threshold data.length c+(2+slack)) ↔
      rawCovered threshold slack (.bytes data) := by
  simp only [builtSize, rawCovered]
  constructor
  · intro h ht
    have hone := h 1 (by omega)
    rw [if_pos ⟨ht,by omega⟩] at hone
    have := (raw_le_packed_one_iff data.length (2+slack) (by omega) (by omega)).mp hone
    omega
  · intro h c hc
    by_cases ht : threshold64 threshold < data.length ∧ c ≠ 0
    · rw [if_pos ht]
      have hlen := h ht.1
      have hone := (raw_le_packed_one_iff data.length (2+slack) (by omega) (by omega)).mpr
        (by omega)
      have := packedSize_mono 1 c data.length (by omega)
      omega
    · rw [if_neg ht]
      omega

end Thresholds

section Coverage

variable (clientId threshold : Int32)

theorem plain_covered_iff (v : Value) (hmem : inMemory v) :
    Covered clientId threshold (.addElement v) ↔ plainCovered threshold v := by
  cases hv : v with
  | bytes data =>
    subst hv
    rw [← plain_sizes_iff, ← forall_packedLength data]
    refine forall_congr' (fun lib => forall_congr' (fun hlib => ?_))
    have hbuilt := builtSize_le threshold data.length (packedLength lib data) hmem (hlib _)
    have hlock := lockBytes_le clientId
    have hsize : (UInt64.ofNat (buildValueProtoNoTtl lib (.bytes data) clientId
        threshold).byteSize).toNat =
        builtSize threshold data.length (packedLength lib data)+(lockBytes clientId+2) := by
      rw [bytes_size, built_body lib hlib]
      exact ofNat_toNat _ (by omega)
    have hsent : (buildValueProtoNoTtl lib (.bytes data) clientId defaultThreshold).byteSize =
        builtSize defaultThreshold data.length (packedLength lib data)+(lockBytes clientId+2) := by
      rw [bytes_size, built_body lib hlib]
    constructor
    · intro h
      have := h _ _ rfl rfl
      omega
    · rintro h n m hn hm
      cases hn
      cases hm
      rw [hsize, hsent]
      omega
  | int i =>
    refine ⟨fun _ => trivial,fun _ lib _ n m hn hm => ?_⟩
    cases hn
    cases hm
    have hlt := number_size_le lib clientId threshold (.int i) (fun data => nofun)
    exact le_of_eq (ofNat_toNat _ hlt).symm
  | double bits =>
    refine ⟨fun _ => trivial,fun _ lib _ n m hn hm => ?_⟩
    cases hn
    cases hm
    have hlt := number_size_le lib clientId threshold (.double bits) (fun data => nofun)
    exact le_of_eq (ofNat_toNat _ hlt).symm

theorem created_covered (v : Value) (hmem : inMemory v) :
    Covered clientId threshold (.createUnordered v) := by
  intro lib hlib n m hn hm
  cases hn
  cases hm
  refine le_of_eq (ofNat_toNat _ ?_).symm
  cases hv : v with
  | bytes data =>
    subst hv
    have hbuilt := builtSize_le threshold data.length (packedLength lib data) hmem (hlib _)
    have hlock := lockBytes_le clientId
    rw [bytes_size, built_body lib hlib]
    omega
  | int i => exact number_size_le lib clientId threshold (.int i) (fun data => nofun)
  | double bits => exact number_size_le lib clientId threshold (.double bits) (fun data => nofun)

def sentRaw (size : Bytes → ℕ) : Value → Except Fault ℕ
  | .bytes data => .ok (size data)
  | _ => .error .wildPointer

theorem raw_covered_iff (p : Placement) (ov : OrderedValue) (hmem : inMemory ov.elem)
    (size : Bytes → ℕ) (extra slack more : ℕ) (hs : slack ≤ 58) (hmore : more ≤ 32)
    (hestimate : ∀ lib e, estimateOrderedValueSize lib clientId threshold (some ov) = .ok e →
      p.estimate lib clientId threshold = .ok (e+UInt64.ofNat more))
    (hsent : ∀ lib, p.sent lib clientId threshold = sentRaw size ov.elem)
    (hsize : ∀ data, data ≠ [] → size data = rawSize data.length+extra)
    (hempty : size [] ≤ rawSize 0+extra)
    (hextra : varintField ov.weight.toNat+more = extra+slack) :
    Covered clientId threshold p ↔ rawCovered threshold slack ov.elem := by
  obtain ⟨w,v⟩ := ov
  cases v with
  | bytes data =>
    have hw : varintField w.toNat+more = extra+slack := hextra
    have hcovered : Covered clientId threshold p ↔ ∀ lib, Fits lib → size data ≤
        builtSize threshold data.length (packedLength lib data)+(varintField w.toNat+2)+more := by
      refine forall_congr' (fun lib => forall_congr' (fun hlib => ?_))
      have hbuilt := builtSize_le threshold data.length (packedLength lib data) hmem (hlib _)
      have hfield := varintField_uint64_le w
      have hsum : (UInt64.ofNat (bodySize (buildBytesPayload lib data threshold)+
          (varintField w.toNat+2))+UInt64.ofNat more).toNat =
          builtSize threshold data.length (packedLength lib data)+(varintField w.toNat+2)+more := by
        rw [UInt64.toNat_add, ordered_bound lib threshold hlib w data hmem,
          ofNat_toNat more (by omega), Nat.mod_eq_of_lt (by omega)]
      rw [hestimate lib _ (ordered_estimate lib clientId threshold w data), hsent lib, ← hsum]
      constructor
      · exact fun h => h _ _ rfl rfl
      · rintro h n m hn hm
        cases hn
        cases hm
        exact h
    rw [hcovered, forall_packedLength data (fun c => size data ≤
      builtSize threshold data.length c+(varintField w.toNat+2)+more)]
    by_cases hd : data = []
    · subst hd
      refine ⟨fun _ ht => absurd ht (by simp),fun _ c hc => ?_⟩
      have hzero : builtSize threshold ([] : Bytes).length c = rawSize 0 :=
        if_neg (fun h => absurd h.1 (by simp))
      rw [hzero]
      omega
    · rw [← raw_sizes_iff threshold slack data hs, hsize data hd]
      refine forall_congr' (fun c => forall_congr' (fun _ => ?_))
      omega
  | int i =>
    refine ⟨fun _ => trivial,fun _ lib _ n m _ hm => ?_⟩
    rw [hsent] at hm
    cases hm
  | double bits =>
    refine ⟨fun _ => trivial,fun _ lib _ n m _ hm => ?_⟩
    rw [hsent] at hm
    cases hm

theorem weighted_covered_iff (ov : OrderedValue) (hmem : inMemory ov.elem) :
    Covered clientId threshold (.addElementWithWeight ov) ↔ rawCovered threshold 0 ov.elem := by
  refine raw_covered_iff clientId threshold _ ov hmem
    (fun data => rawSize data.length+varintField ov.weight.toNat) (varintField ov.weight.toNat) 0 0
    (by omega) (by omega) ?_ ?_ (fun data _ => rfl) (le_refl _) rfl
  · intro lib e he
    exact he.trans (congrArg Except.ok (by simp))
  · intro lib
    obtain ⟨w,v⟩ := ov
    cases v with
    | bytes data =>
      refine congrArg Except.ok ?_
      simp only [OrderedValueMessage.byteSize, rawPayload_bodySize]
      rfl
    | _ => rfl

theorem orderedMapValue_covered_iff (ov : OrderedValue) (hmem : inMemory ov.elem) :
    Covered clientId threshold (.createOrderedMapValue ov) ↔
      rawCovered threshold (varintField ov.weight.toNat) ov.elem := by
  have hfield := varintField_uint64_le ov.weight
  refine raw_covered_iff clientId threshold _ ov hmem (fun data => rawSize data.length) 0
    (varintField ov.weight.toNat) 0 (by omega) (by omega) ?_ ?_ (fun data _ => rfl) (le_refl _)
    (by omega)
  · intro lib e he
    exact he.trans (congrArg Except.ok (by simp))
  · intro lib
    obtain ⟨w,v⟩ := ov
    cases v with
    | bytes data =>
      refine congrArg Except.ok ?_
      simp only [ValueMessage.byteSize, rawPayload_bodySize]
      rfl
    | _ => rfl

theorem orderedMapKey_covered_iff (ov : OrderedValue) (hmem : inMemory ov.elem) :
    Covered clientId threshold (.addElementOrderedMapKey ov) ↔ rawCovered threshold 32 ov.elem := by
  refine raw_covered_iff clientId threshold _ ov hmem
    (fun data => rawKeySize data+varintField ov.weight.toNat) (varintField ov.weight.toNat) 32 32
    (by omega) (by omega) ?_ ?_ ?_ ?_ rfl
  · intro lib e he
    simp only [Placement.estimate, he]
    rfl
  · intro lib
    obtain ⟨w,v⟩ := ov
    cases v <;> rfl
  · intro data hd
    rw [rawKeySize_eq data hd]
  · exact Nat.add_le_add_right (by decide) _

theorem orderedSet_covered (ov : OrderedValue) (hmem : inMemory ov.elem) :
    Covered clientId threshold (.createOrderedSet ov) := by
  intro lib hlib n m hn hm
  obtain ⟨element,helement,hm⟩ := bind_eq_ok hm
  cases hm
  obtain ⟨w,v⟩ := ov
  cases v with
  | int i => cases helement
  | double bits => cases helement
  | bytes data =>
    have he := ordered_estimate lib clientId threshold w data
    have hbound := ordered_bound lib threshold hlib w data hmem
    have hn' : Except.ok n = _ := hn.symm.trans he
    cases hn'
    rw [hbound]
    have hsize : element.byteSize =
        builtSize threshold data.length (packedLength lib data)+varintField w.toNat := by
      by_cases ht : threshold64 threshold < data.length
      · rw [orderedElement_compressed lib w data threshold ht] at helement
        let out := lib.gzipCompress (data.take (UInt32.ofNat data.length).toNat)
        by_cases hempty : out = []
        · have hc : compress lib data (UInt32.ofNat data.length) = none := if_pos hempty
          rw [hc] at helement
          cases helement
        · have hc : compress lib data (UInt32.ofNat data.length) =
              some (out,UInt32.ofNat out.length) := if_neg hempty
          have hpacked : builtSize threshold data.length (packedLength lib data) =
              packedSize out.length data.length :=
            if_pos ⟨ht,fun h => hempty (List.length_eq_zero_iff.mp h)⟩
          rw [hc] at helement
          cases helement
          rw [hpacked, ← bodySize_packed out data.length (hlib _)]
          simp only [OrderedValueMessage.byteSize, bodySize]
          show _+varintField w.toNat+_+0+0+0 = _
          omega
      · have hraw : orderedElement lib threshold ⟨w,.bytes data⟩ =
            .ok { order := some w, value := some (rawPayload data) } := if_neg ht
        rw [hraw] at helement
        cases helement
        rw [builtSize, if_neg (fun h => ht h.1)]
        simp only [OrderedValueMessage.byteSize, rawPayload_bodySize]
        rfl
    omega

theorem key_covered_iff (p : Placement) (k : Key) (more : ℕ) (hmore : more ≤ 32)
    (hestimate : ∀ lib, p.estimate lib clientId threshold =
      (estimateKeySize lib clientId threshold (some k)).map (· + UInt64.ofNat more))
    (hsent : ∀ lib, p.sent lib clientId threshold = .ok (rawKeySize k.data)) :
    Covered clientId threshold p ↔ keyCovered clientId threshold more k := by
  have hhint := hintBytes_le k
  have hid := clientIdBytes_le clientId
  have hraw := rawKeySize_le k.data k.size_lt
  have hlen := k.size_lt
  have hsum : ∀ x, x < 2^63 → (UInt64.ofNat x+UInt64.ofNat more).toNat = x+more := by
    intro x hx
    rw [UInt64.toNat_add, ofNat_toNat x (by omega), ofNat_toNat more (by omega),
      Nat.mod_eq_of_lt (by omega)]
  constructor
  · intro h ht
    have hne : k.data ≠ [] := by
      intro hempty
      rw [hempty] at ht
      exact absurd ht (Nat.not_lt_zero _)
    have hfits : Fits (constantLibdeflate [0]) := fun _ => by
      show 1 < 2^32
      omega
    have hone := h (constantLibdeflate [0]) hfits _ _ (by
      rw [hestimate, key_estimate clientId threshold _ hfits, if_pos ht]
      exact rfl) (hsent _)
    have hpacked := packedSize_le 1 k.data.length (by omega)
    rw [show packedLength (constantLibdeflate [0]) k.data = 1 from rfl, hsum _ (by omega),
      rawKeySize_eq k.data hne] at hone
    have := (raw_le_packed_one_iff k.data.length
      (hintBytes k+clientIdBytes clientId+more) (List.length_pos_iff.mpr hne) (by omega)).mp
      (by omega)
    omega
  · intro h lib hlib n m hn hm
    rw [hestimate, key_estimate clientId threshold lib hlib] at hn
    rw [hsent] at hm
    cases hm
    have hpacked := packedSize_le (packedLength lib k.data) k.data.length (hlib _)
    have hlib' : packedLength lib k.data < 2^32 := hlib _
    split at hn
    next ht =>
      split at hn
      · cases hn
      next hc =>
        cases hn
        have hne : k.data ≠ [] := by
          intro hempty
          rw [hempty] at ht
          exact absurd ht (Nat.not_lt_zero _)
        have hshort := h ht
        have hone := (raw_le_packed_one_iff k.data.length
          (hintBytes k+clientIdBytes clientId+more) (List.length_pos_iff.mpr hne) (by omega)).mpr
          (by omega)
        have hmono := packedSize_mono 1 (packedLength lib k.data) k.data.length (by omega)
        rw [hsum _ (by omega), rawKeySize_eq k.data hne]
        omega
    next ht =>
      cases hn
      rw [hsum _ (by omega)]
      omega

theorem orderedKey_covered (k : OrderedKey) :
    Covered clientId threshold (.createOrderedMapKey k) := by
  intro lib hlib n m hn hm
  cases hn
  cases hm
  have hraw := rawKeySize_le k.elem.data k.elem.size_lt
  have hlen := k.elem.size_lt
  have hfield := varintField_uint64_le k.weight
  have hid := clientIdBytes_le clientId
  show rawKeySize k.elem.data+varintField k.weight.toNat+0+0+0 ≤
    (UInt64.ofNat (rawKeySize k.elem.data+varintField k.weight.toNat+0+0+
      clientIdBytes clientId)).toNat
  rw [ofNat_toNat _ (by omega)]
  omega

end Coverage

/-- When the byte count of a splitter covers what is put into the request, for
every element, client id and threshold and whatever the compressor does. -/
theorem estimate_covers_iff (clientId threshold : Int32) (p : Placement) (hmem : p.inMemory) :
    Covered clientId threshold p ↔ p.coveredWhen clientId threshold := by
  cases p with
  | createUnordered v => exact iff_of_true (created_covered clientId threshold v hmem) trivial
  | addElement v => exact plain_covered_iff clientId threshold v hmem
  | createMapValue v => exact plain_covered_iff clientId threshold v hmem
  | addElementHashMapValue v => exact plain_covered_iff clientId threshold v hmem
  | addElementOrderedMapValue v => exact plain_covered_iff clientId threshold v hmem
  | createOrderedSet ov => exact iff_of_true (orderedSet_covered clientId threshold ov hmem) trivial
  | addElementWithWeight ov => exact weighted_covered_iff clientId threshold ov hmem
  | createOrderedMapValue ov => exact orderedMapValue_covered_iff clientId threshold ov hmem
  | addElementOrderedMapKey ov => exact orderedMapKey_covered_iff clientId threshold ov hmem
  | createOrderedMapKey k => exact iff_of_true (orderedKey_covered clientId threshold k) trivial
  | createMapKey k =>
    refine key_covered_iff clientId threshold _ k 0 (by omega) (fun lib => ?_) (fun lib => rfl)
    show estimateKeySize lib clientId threshold (some k) = _
    cases estimateKeySize lib clientId threshold (some k) with
    | error f => rfl
    | ok e => exact congrArg Except.ok (by simp)
  | addElementHashMapKey k =>
    refine key_covered_iff clientId threshold _ k 32 (by omega) (fun lib => ?_) (fun lib => rfl)
    show (do .ok ((← estimateKeySize lib clientId threshold (some k))+32)) = _
    cases estimateKeySize lib clientId threshold (some k) <;> rfl

theorem estimate_covers_iff_nine_bytes :
    Covered 7 4 (.addElementWithWeight ⟨3,.bytes (List.replicate 9 0)⟩) ↔
      (Placement.addElementWithWeight ⟨3,.bytes (List.replicate 9 0)⟩).coveredWhen 7 4 :=
  estimate_covers_iff 7 4 _ (by
    show (List.replicate 9 0).length < 2^63
    decide)

/-- Two thousand equal bytes under the default threshold: the estimate is of
compressed data and `addElementWithWeight` sends them raw. -/
theorem weighted_underestimated :
    ¬ Covered 7 1024 (.addElementWithWeight ⟨3,.bytes (List.replicate 2000 0)⟩) := by
  have hmem : inMemory (.bytes (List.replicate 2000 0)) := by
    show (List.replicate 2000 0).length < 2^63
    rw [List.length_replicate]
    omega
  rw [weighted_covered_iff 7 1024 _ hmem, rawCovered, List.length_replicate]
  decide

end HurriCache.EstimateCoverage
