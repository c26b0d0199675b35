import HurriCache.CreationPlans
import HurriCache.KeyDecoders
import HurriCache.KeyRouting
import HurriCache.ListCodec
import HurriCache.RequestSizes

/-!
# What a request with elements says

A node reads a request back: the key and its hint, the kind of container, the
position or the pivot and the elements. Keys and plain values are read by the
client's own decoders. Its decoder of ordered values wants a declared type,
which no builder of a request declares, so these are read by their oneof case.
Every request that a method of a node's client builds is read as the method
with these arguments, whatever the threshold, the compressor and the clock are.
-/

set_option autoImplicit false

namespace HurriCache.RequestDecoding
open HurriCache.ClientTypes HurriCache.PayloadCompression HurriCache.WireMessages
open HurriCache.MessageBuilders HurriCache.MessageDecoders HurriCache.ValueRoundTrip
open HurriCache.KeyDecoders HurriCache.StandaloneCalls HurriCache.OrderedEncoders
open HurriCache.InsertRequests HurriCache.RequestSizes HurriCache.ListServer
open HurriCache.ElementServer HurriCache.ListCodec HurriCache.KeyRouting
open HurriCache.StoredGzip

section Readers

variable (lib : Libdeflate)

def readValue (m : ValueMessage) : Option Value := valueRequestToValue lib m

/-- The payload by its oneof case, with its order. No declared type is asked for. -/
def readWeighted (m : OrderedValueMessage) : Option OrderedValue :=
  (logicalPayload lib m.compressionInfo m.payloadOrDefault).map
    (OrderedValue.mk (m.order.getD 0))

def readEntry (p : KeyMessage × ValueMessage) : Option Element :=
  match keyRequestToKey lib p.1, readValue lib p.2 with
  | some (key,_), some v => some (.entry key v)
  | _, _ => none

def readOrderedEntry (p : OrderedKeyMessage × ValueMessage) : Option Element :=
  match keyRequestToOrderedKey lib p.1, readValue lib p.2 with
  | some (key,_), some v => some (.orderedEntry key v)
  | _, _ => none

/-- The repeated fields, with keys and values paired by position. -/
def readElements (kind : Option ContainerKind) (key_unordered : List KeyMessage)
    (value_unordered : List ValueMessage) (key_ordered : List OrderedKeyMessage)
    (value_ordered : List OrderedValueMessage) : Option (List Element) :=
  match kind with
  | some .MAP =>
    if key_unordered.length = value_unordered.length then
      (key_unordered.zip value_unordered).mapM (readEntry lib)
    else none
  | some .ORDERED_MAP =>
    if key_ordered.length = value_unordered.length then
      (key_ordered.zip value_unordered).mapM (readOrderedEntry lib)
    else none
  | _ =>
    match value_unordered.mapM (fun m => (readValue lib m).map Element.value),
      value_ordered.mapM (fun m => (readWeighted lib m).map Element.weighted) with
    | some vs, some ws => some (vs++ws)
    | _, _ => none

/-- What a node learns from a request. -/
structure Reading where
  key : Key
  hint : KeyHint
  created : Bool
  kind : Option ContainerKind
  pos : Option UInt32
  pivot : Option (Bool × Value)
  elements : List Element

def read (r : InsertRequest) : Option Reading :=
  match r with
  | .create r =>
    match keyRequestToKey lib r.key, readElements lib (some r.type) r.key_unordered
      r.value_unordered r.key_ordered r.value_ordered with
    | some (key,hint), some es => some ⟨key,hint,true,some r.type,none,none,es⟩
    | _, _ => none
  | .add r =>
    match keyRequestToKey lib r.key, readElements lib r.type r.key_unordered r.value_unordered
      r.key_ordered r.value_ordered with
    | some (key,hint), some es => some ⟨key,hint,false,r.type,r.pos,none,es⟩
    | _, _ => none
  | .addToVal r =>
    match keyRequestToKey lib r.key, readValue lib r.pos,
      readElements lib none [] r.value [] [] with
    | some (key,hint), some pivot, some es =>
      some ⟨key,hint,false,none,none,some (r.isBefore,pivot),es⟩
    | _, _, _ => none

end Readers

section Expected

def carried : Method → List Element
  | .addElementToHead data | .addElementToPosition data _ | .addElementToPositionBefore data _
  | .addElementToPositionAfter data _ => (block data).map .value
  | m => elements m

def kindOf : Method → Option ContainerKind
  | .createQueue _ _ => some .QUEUE
  | .createList _ _ => some .LIST
  | .createVector _ _ => some .VECTOR
  | .createSet _ _ => some .SET
  | .createOrderedSet _ _ => some .ORDERED_SET
  | .createMap _ _ | .addElementHashMap _ _ => some .MAP
  | .createOrderedMap _ _ | .addElementOrderedMap _ _ => some .ORDERED_MAP
  | _ => none

def posOf : Method → Option UInt32
  | .addElementToPosition _ pos => some pos
  | _ => none

def pivotOf : Method → Option (Bool × Value)
  | .addElementToPositionBefore _ pivot => pivot.map (fun v => (true,v))
  | .addElementToPositionAfter _ pivot => pivot.map (fun v => (false,v))
  | _ => none

def said (call : StandaloneCall) : Reading where
  key := call.key
  hint := expectedHint call.key call.hint
  created := isCreate call.method
  kind := kindOf call.method
  pos := posOf call.method
  pivot := pivotOf call.method
  elements := carried call.method

variable (lib : Libdeflate)

structure Short (data : Bytes) : Prop where
  raw : data.length < 2^32
  compressed : (lib.gzipCompress data).length < 2^32

def ShortValue (v : Value) : Prop := ∀ data, v = .bytes data → Short lib data

def ShortMethod : Method → Prop
  | .createQueue vs _ | .createList vs _ | .createVector vs _ | .createSet vs _
  | .addElementUnordered vs | .addElementToTail vs | .addElementToHead vs
  | .addElementToPosition vs _ => ∀ v, some v ∈ vs.getD [] → ShortValue lib v
  | .addElementToPositionBefore vs pivot | .addElementToPositionAfter vs pivot =>
    (∀ v, some v ∈ vs.getD [] → ShortValue lib v) ∧ ∀ v, pivot = some v → ShortValue lib v
  | .createOrderedSet vs _ | .addElementWithWeight vs =>
    ∀ v, some v ∈ vs.getD [] → ShortValue lib v.elem
  | .createMap es _ => ∀ e ∈ es.getD [], ∀ v, e.2 = some v → ShortValue lib v
  | .createOrderedMap es _ => ∀ e ∈ es.getD [], ∀ v, e.2 = some v → ShortValue lib v.elem
  | .addElementHashMap _ vs => ∀ v, some v ∈ vs.getD [] → ShortValue lib v
  | .addElementOrderedMap ks vs => (∀ k, some k ∈ ks.getD [] → ShortValue lib k.elem) ∧
    ∀ v, some v ∈ vs.getD [] → ShortValue lib v
  | _ => True

end Expected

section Elements

variable (lib : Libdeflate) (hr : lib.RoundTrip)
include hr

theorem built_read (v : Value) (hv : ShortValue lib v) (clientId threshold : Int32) :
    readValue lib (buildValueProtoNoTtl lib v clientId threshold) = some v := by
  cases v with
  | int i => rfl
  | double bits => rfl
  | bytes data =>
    obtain ⟨hraw,hcompressed⟩ := hv data rfl
    rw [readValue, buildValueProtoNoTtl, valueRequestToValue_eq,
      (built_type lib (.bytes data) hraw 0 0 clientId threshold).1]
    exact built_content lib hr (.bytes data) hraw (fun _ h => by cases h; exact hcompressed) 0 0
      clientId threshold

theorem plainElement_read (clientId : Int32) (v : ValuePtr) (m : ValueMessage)
    (hv : ∀ x, v = some x → ShortValue lib x) (h : plainElement lib clientId v = .ok m) :
    ∃ x, v = some x ∧ readValue lib m = some x := by
  cases v with
  | none => cases h
  | some x =>
    cases h
    exact ⟨x,rfl,built_read lib hr x (hv x rfl) clientId defaultThreshold⟩

theorem orderedElement_read (threshold : Int32) (ov : OrderedValue) (m : OrderedValueMessage)
    (hv : ShortValue lib ov.elem) (h : orderedElement lib threshold ov = .ok m) :
    readWeighted lib m = some ov := by
  obtain ⟨w,e⟩ := ov
  cases e with
  | int i => cases h
  | double bits => cases h
  | bytes data =>
    obtain ⟨hraw,hcompressed⟩ := hv data rfl
    by_cases ht : data.length ≤ threshold64 threshold
    · have ho : orderedElement lib threshold ⟨w,.bytes data⟩ =
          .ok { order := some w, value := some (rawPayload data) } := by
        change (if threshold64 threshold < data.length then _ else _) = _
        exact if_neg (by omega)
      rw [ho] at h
      cases h
      simp only [readWeighted, OrderedValueMessage.payloadOrDefault, Option.getD_some,
        rawPayload_logical, Option.map_some]
    · rw [orderedElement_compressed lib w data threshold (by omega)] at h
      by_cases hc : lib.gzipCompress data = []
      · rw [(compress_eq_none_iff lib data hraw).mpr hc] at h
        cases h
      · rw [compress_of_ne lib data hraw hc] at h
        cases h
        have hread := compressedPayload_read lib hr data hraw hc hcompressed
        simp only [BinaryPayload.payload, compressedPayload, Cord.flatten_ofView] at hread
        simp only [readWeighted, OrderedValueMessage.payloadOrDefault, Option.getD_some,
          compressedPayload_logical, hread, Option.map_some]

omit hr in
theorem weightedElement_read (ov : OrderedValue) (m : OrderedValueMessage)
    (h : weightedElement ov = .ok m) : readWeighted lib m = some ov := by
  obtain ⟨w,e⟩ := ov
  cases e with
  | int i => cases h
  | double bits => cases h
  | bytes data =>
    cases h
    simp only [readWeighted, OrderedValueMessage.payloadOrDefault, Option.getD_some,
      rawPayload_logical, Option.map_some]

omit hr in
theorem orderedMapValue_read (ov : OrderedValue) (m : ValueMessage)
    (h : orderedMapValue ov = .ok m) : readValue lib m = some ov.elem := by
  obtain ⟨w,e⟩ := ov
  cases e with
  | int i => cases h
  | double bits => cases h
  | bytes data =>
    cases h
    have hraw := rawPayload_read lib data
    rw [readValue, valueRequestToValue_eq]
    exact congrArg (Option.map Value.bytes) hraw

omit hr in
theorem mapKey_read (k : Key) : ∃ hint, keyRequestToKey lib (mapKey k) = some (k,hint) := by
  have hsize : k.size.toNat = k.data.length := by simpa [Key.size] using k.size_lt
  refine ⟨hintOf none,?_⟩
  simp only [keyRequestToKey, mapKey, keyBytes, hsize, ne_eq, not_true_eq_false, if_false,
    Option.map_some, newKey_data]

omit hr in
theorem orderedMapKey_read (k : OrderedKey) :
    ∃ hint, keyRequestToOrderedKey lib (orderedMapKey k) = some (k,hint) := by
  have hsize : k.elem.size.toNat = k.elem.data.length := by
    simpa [Key.size] using k.elem.size_lt
  refine ⟨hintOf none,?_⟩
  simp [keyRequestToOrderedKey, orderedMapKey, keyBytes, hsize, newKey_data]

omit hr in
theorem orderedValueKey_read (ov : OrderedValue) (m : OrderedKeyMessage)
    (hv : ShortValue lib ov.elem) (h : orderedValueKey ov = .ok m) :
    ∃ data, ∃ hlt : data.length < 2^32, ov.elem = .bytes data ∧
      ∃ hint, keyRequestToOrderedKey lib m = some (⟨ov.weight,⟨data,hlt⟩⟩,hint) := by
  obtain ⟨w,e⟩ := ov
  cases e with
  | int i => cases h
  | double bits => cases h
  | bytes data =>
    cases h
    have hlt := (hv data rfl).raw
    exact ⟨data,hlt,rfl,orderedMapKey_read lib ⟨w,⟨data,hlt⟩⟩⟩

end Elements

section Blocks

variable (lib : Libdeflate) (hr : lib.RoundTrip)
include hr

theorem plainBlock_read (clientId : Int32) (data : Option (List ValuePtr))
    (ms : List ValueMessage) (hs : ∀ v, some v ∈ data.getD [] → ShortValue lib v)
    (h : (data.getD []).mapM (plainElement lib clientId) = .ok ms) :
    ms.mapM (fun m => (readValue lib m).map Element.value) =
      some ((block data).map .value) := by
  have hread := decode_encoded (plainElement lib clientId)
    (fun m => (readValue lib m).map Element.value) (fun v => v.map Element.value) (data.getD []) ms
    h (fun v hv m hm => by
      obtain ⟨x,rfl,hx⟩ := plainElement_read lib hr clientId v m
        (fun x hx => hs x (hx ▸ hv)) hm
      exact ⟨.value x,rfl,by rw [hx]; rfl⟩)
  rw [hread, block, List.reduceOption, List.map_filterMap]
  rfl

theorem createBlock_read (clientId threshold : Int32) (data : Option (List ValuePtr))
    (hs : ∀ v, some v ∈ data.getD [] → ShortValue lib v) :
    (((data.getD []).filterMap id).map
      (fun v => buildValueProtoNoTtl lib v clientId threshold)).mapM
        (fun m => (readValue lib m).map Element.value) = some ((block data).map .value) := by
  have hmem : ∀ v ∈ (data.getD []).filterMap id, ShortValue lib v := by
    intro v hv
    obtain ⟨o,ho,hov⟩ := List.mem_filterMap.mp hv
    exact hs v (hov ▸ ho)
  show _ = some (((data.getD []).filterMap id).map Element.value)
  generalize (data.getD []).filterMap id = vs at hmem
  induction vs with
  | nil => rfl
  | cons v vs ih =>
    have hv := built_read lib hr v (hmem v List.mem_cons_self) clientId threshold
    have hrest := ih (fun x hx => hmem x (List.mem_cons_of_mem v hx))
    rw [List.map_cons, List.mapM_cons, hv, hrest]
    rfl

omit hr in
theorem weightedBlock_read (encode : OrderedValue → Except Fault OrderedValueMessage)
    (data : Option (List OrderedValuePtr)) (ms : List OrderedValueMessage)
    (hread : ∀ v, some v ∈ data.getD [] → ∀ m, encode v = .ok m → readWeighted lib m = some v)
    (h : (data.getD []).mapM (fun val => do encode (← deref val)) = .ok ms) :
    ms.mapM (fun m => (readWeighted lib m).map Element.weighted) =
      some ((block data).map .weighted) := by
  have hdecode := decode_encoded (fun val => do encode (← deref val))
    (fun m => (readWeighted lib m).map Element.weighted) (fun v => v.map Element.weighted)
    (data.getD []) ms h (fun v hv m hm => by
      cases v with
      | none => cases hm
      | some x => exact ⟨.weighted x,rfl,by rw [hread x hv m hm]; rfl⟩)
  rw [hdecode, block, List.reduceOption, List.map_filterMap]
  rfl

end Blocks

section Requests

variable (lib : Libdeflate) (hr : lib.RoundTrip)
include hr

theorem key_read (key : Key) (hint : Option KeyHint) (clientId threshold : Int32)
    (hl : (lib.gzipCompress key.data).length < 2^32) (m : KeyMessage)
    (h : buildKeyProto lib key hint clientId threshold = .ok m ∨
      buildKeyProto lib key (effectiveHint key hint) clientId threshold = .ok m) :
    keyRequestToKey lib m = some (key,expectedHint key hint) := by
  rcases h with h | h
  · exact keyRequestToKey_built lib hr key hint clientId threshold hl m h
  · have hread := keyRequestToKey_built lib hr key _ clientId threshold hl m h
    rwa [← hintOf_effective, effectiveHint_idem, hintOf_effective] at hread

variable (key : Key) (hint : Option KeyHint) (clientId : Int32)
  (hl : (lib.gzipCompress key.data).length < 2^32)
include hl

theorem containerRequest_read (type : ContainerKind) (now ttl : Int64)
    (values : Option (List ValuePtr)) (threshold : Int32) (r : CreateContainerRequest)
    (hs : ∀ v, some v ∈ values.getD [] → ShortValue lib v)
    (hplain : type ≠ .MAP ∧ type ≠ .ORDERED_MAP)
    (h : buildContainerRequest lib key hint clientId type now ttl values threshold = .ok r) :
    read lib (.create r) = some ⟨key,expectedHint key hint,true,some type,none,none,
      (block values).map .value⟩ := by
  obtain ⟨k,hk,h⟩ := bind_eq_ok h
  cases h
  have hkey := key_read lib hr key hint clientId threshold hl k (Or.inr hk)
  have hblock := createBlock_read lib hr clientId threshold values hs
  have hread : readElements lib (some type) [] (((values.getD []).filterMap id).map
      (fun v => buildValueProtoNoTtl lib v clientId threshold)) [] [] =
      some ((block values).map .value) := by
    unfold readElements
    split
    next he => exact absurd (Option.some.inj he) hplain.1
    next he => exact absurd (Option.some.inj he) hplain.2
    next =>
      rw [hblock]
      simp
  simp only [read, hkey, hread]

theorem orderedSetRequest_read (now ttl : Int64) (values : Option (List OrderedValuePtr))
    (threshold : Int32) (r : CreateContainerRequest)
    (hs : ∀ v, some v ∈ values.getD [] → ShortValue lib v.elem)
    (h : buildContainerRequestOrdered lib key hint clientId .ORDERED_SET now ttl values threshold =
      .ok r) :
    read lib (.create r) = some ⟨key,expectedHint key hint,true,some .ORDERED_SET,none,none,
      (block values).map .weighted⟩ := by
  obtain ⟨k,hk,h⟩ := bind_eq_ok h
  obtain ⟨ms,hms,h⟩ := bind_eq_ok h
  cases h
  have hkey := key_read lib hr key hint clientId threshold hl k (Or.inr hk)
  have hblock := weightedBlock_read lib (orderedElement lib threshold) values ms
    (fun v hv m hm => orderedElement_read lib hr threshold v m (hs v hv) hm) hms
  simp [read, hkey, readElements, hblock]

theorem createMapRequest_read (es : Option (List (KeyPtr × ValuePtr))) (now ttl : Int64)
    (r : CreateContainerRequest)
    (hs : ∀ e ∈ es.getD [], ∀ v, e.2 = some v → ShortValue lib v)
    (h : createMapRequest lib key hint clientId es now ttl = .ok r) :
    read lib (.create r) = some ⟨key,expectedHint key hint,true,some .MAP,none,none,
      (es.getD []).filterMap mapEntry⟩ := by
  obtain ⟨k,hk,h⟩ := bind_eq_ok h
  obtain ⟨ks,hks,h⟩ := bind_eq_ok h
  obtain ⟨vs,hvs,h⟩ := bind_eq_ok h
  cases h
  have hkey := key_read lib hr key hint clientId defaultThreshold hl k (Or.inl hk)
  have hlen : ks.length = vs.length := by
    rw [length_encoded _ _ _ hks, length_encoded _ _ _ hvs]
  have hboth := both_encoded _ _ _ _ _ hks hvs
  have hread := decode_encoded _ (readEntry lib) mapEntry _ _ hboth (by
    intro e he p hp
    obtain ⟨hp1,hp2⟩ := both_ok _ _ e p hp
    obtain ⟨x,hx,hv⟩ := plainElement_read lib hr clientId e.2 p.2 (hs e he) hp2
    obtain ⟨ek,ev⟩ := e
    cases ek with
    | none => cases hp1
    | some ek =>
      have hp1' : Except.ok (mapKey ek) = Except.ok p.1 := hp1
      obtain ⟨hint',hk'⟩ := mapKey_read lib ek
      cases hx
      refine ⟨.entry ek x,rfl,?_⟩
      rw [readEntry, ← Except.ok.inj hp1', hk', hv])
  simp [read, hkey, readElements, hlen, hread]

omit hr hl in
theorem entries_of_deref (es : List (OrderedKeyPtr × OrderedValuePtr))
    (entries : List (OrderedKey × OrderedValuePtr))
    (h : es.mapM (fun e => do .ok (← deref e.1,e.2)) = .ok entries) :
    es = entries.map (fun e => (some e.1,e.2)) := by
  induction es generalizing entries with
  | nil =>
    cases h
    rfl
  | cons e es ih =>
    obtain ⟨entry,rest,hentry,hrest,rfl⟩ := mapM_cons_ok _ e es entries h
    obtain ⟨k,v⟩ := e
    cases k with
    | none => cases hentry
    | some k =>
      have he : entry = (k,v) := (Except.ok.inj hentry).symm
      rw [he, List.map_cons, ← ih rest hrest]

theorem createOrderedMapRequest_read (es : Option (List (OrderedKeyPtr × OrderedValuePtr)))
    (now ttl : Int64) (r : CreateContainerRequest)
    (h : createOrderedMapRequestOf lib key hint es now ttl clientId = .ok r) :
    read lib (.create r) = some ⟨key,expectedHint key hint,true,some .ORDERED_MAP,none,none,
      (es.getD []).filterMap orderedMapEntry⟩ := by
  obtain ⟨entries,hentries,h⟩ := bind_eq_ok h
  obtain ⟨k,hk,h⟩ := bind_eq_ok h
  obtain ⟨vs,hvs,h⟩ := bind_eq_ok h
  cases h
  have hkey := key_read lib hr key hint clientId defaultThreshold hl k (Or.inl hk)
  have hks := CreationPlans.mapM_ok (fun e : OrderedKey × OrderedValuePtr =>
    (.ok (orderedMapKey e.1) : Except Fault OrderedKeyMessage)) (fun e => orderedMapKey e.1)
    entries (fun _ _ => rfl)
  have hlen : entries.length = vs.length := (length_encoded _ _ _ hvs).symm
  have hboth := both_encoded _ _ _ _ _ hks hvs
  have hread := decode_encoded _ (readOrderedEntry lib)
    (fun e : OrderedKey × OrderedValuePtr => orderedMapEntry (some e.1,e.2)) _ _ hboth (by
      intro e _ p hp
      obtain ⟨hp1,hp2⟩ := both_ok _ _ e p hp
      obtain ⟨ek,ev⟩ := e
      cases ev with
      | none => cases hp2
      | some v =>
        obtain ⟨hint',hk'⟩ := orderedMapKey_read lib ek
        have hv := orderedMapValue_read lib v p.2 hp2
        refine ⟨.orderedEntry ek v.elem,rfl,?_⟩
        rw [readOrderedEntry, ← Except.ok.inj hp1, hk', hv])
  have hes := entries_of_deref (es.getD []) entries hentries
  rw [hes, List.filterMap_map]
  simp only [read, hkey, readElements, List.length_map, Option.getD_some]
  rw [if_pos hlen, hread]
  rfl

theorem addRequest_read (data : Option (List ValuePtr)) (pos : Option UInt32) (r : AddToRequest)
    (hs : ∀ v, some v ∈ data.getD [] → ShortValue lib v)
    (h : addRequest lib key hint clientId data pos = .ok r) :
    read lib (.add r) = some ⟨key,expectedHint key hint,false,none,pos,none,
      (block data).map .value⟩ := by
  obtain ⟨k,hk,h⟩ := bind_eq_ok h
  obtain ⟨vs,hvs,h⟩ := bind_eq_ok h
  cases h
  have hkey := key_read lib hr key hint clientId defaultThreshold hl k (Or.inl hk)
  have hblock := plainBlock_read lib hr clientId data vs hs hvs
  simp [read, hkey, readElements, hblock]

theorem weightRequest_read (data : Option (List OrderedValuePtr)) (r : AddToRequest)
    (h : addElementWithWeightRequest lib key hint data clientId = .ok r) :
    read lib (.add r) = some ⟨key,expectedHint key hint,false,none,none,none,
      (block data).map .weighted⟩ := by
  obtain ⟨k,hk,h⟩ := bind_eq_ok h
  obtain ⟨vs,hvs,h⟩ := bind_eq_ok h
  cases h
  have hkey := key_read lib hr key hint clientId defaultThreshold hl k (Or.inl hk)
  have hblock := weightedBlock_read lib weightedElement data vs
    (fun v _ m hm => weightedElement_read lib v m hm) hvs
  simp [read, hkey, readElements, hblock]

theorem pivotRequest_read (isBefore : Bool) (data : Option (List ValuePtr)) (pivot : ValuePtr)
    (r : AddToValRequest) (hs : ∀ v, some v ∈ data.getD [] → ShortValue lib v)
    (hp : ∀ v, pivot = some v → ShortValue lib v)
    (h : addToValRequest lib key hint clientId isBefore data pivot = .ok (some r)) :
    read lib (.addToVal r) = some ⟨key,expectedHint key hint,false,none,none,
      pivot.map (fun v => (isBefore,v)),(block data).map .value⟩ := by
  cases pivot with
  | none => cases h
  | some pivot =>
    obtain ⟨k,hk,h⟩ := bind_eq_ok h
    obtain ⟨vs,hvs,h⟩ := bind_eq_ok h
    cases h
    have hkey := key_read lib hr key hint clientId defaultThreshold hl k (Or.inl hk)
    have hblock := plainBlock_read lib hr clientId data vs hs hvs
    have hpivot := built_read lib hr pivot (hp pivot rfl) clientId defaultThreshold
    simp [read, hkey, readElements, hblock, hpivot]

omit hr hl in
theorem addEntries_ok {K M : Type} (type : ContainerKind) (keyElement : K → Except Fault M)
    (withKeys : AddToRequest → List M → AddToRequest) (keys : Option (List K))
    (values : Option (List ValuePtr)) (r : AddToRequest)
    (h : addEntriesRequest lib key hint clientId type keyElement withKeys keys values =
      .ok (some r)) :
    ∃ k ks vs km vm, buildKeyProto lib key hint clientId defaultThreshold = .ok k ∧
      keys = some ks ∧ values = some vs ∧ ks.length = vs.length ∧ ks.mapM keyElement = .ok km ∧
      vs.mapM (plainElement lib clientId) = .ok vm ∧
      r = withKeys { key := k, type := some type, value_unordered := vm } km := by
  obtain ⟨k,hk,h⟩ := bind_eq_ok h
  cases keys with
  | none => cases h
  | some ks =>
    cases values with
    | none => cases h
    | some vs =>
      dsimp only at h
      split at h
      next hlen =>
        obtain ⟨km,hkm,h⟩ := bind_eq_ok h
        obtain ⟨vm,hvm,h⟩ := bind_eq_ok h
        cases h
        exact ⟨k,ks,vs,km,vm,hk,rfl,rfl,hlen,hkm,hvm,rfl⟩
      next => cases h

theorem hashMapRequest_read (keys : Option (List KeyPtr)) (values : Option (List ValuePtr))
    (r : AddToRequest) (hs : ∀ v, some v ∈ values.getD [] → ShortValue lib v)
    (h : addElementHashMapRequest lib key hint clientId keys values = .ok (some r)) :
    read lib (.add r) = some ⟨key,expectedHint key hint,false,some .MAP,none,none,
      pairs mapEntry keys values⟩ := by
  obtain ⟨k,ks,vs,km,vm,hk,rfl,rfl,hlen,hkm,hvm,rfl⟩ :=
    addEntries_ok lib key hint clientId _ _ _ keys values r h
  have hkey := key_read lib hr key hint clientId defaultThreshold hl k (Or.inl hk)
  have hlen' : km.length = vm.length := by
    rw [length_encoded _ _ _ hkm, length_encoded _ _ _ hvm, hlen]
  have hread := decode_encoded _ (readEntry lib) mapEntry _ _
    (zip_encoded _ _ ks vs km vm hlen hkm hvm) (by
      intro e he p hp
      obtain ⟨hp1,hp2⟩ := both_ok _ _ e p hp
      obtain ⟨x,hx,hv⟩ := plainElement_read lib hr clientId e.2 p.2
        (fun v hv => hs v (hv ▸ (List.of_mem_zip he).2)) hp2
      obtain ⟨ek,ev⟩ := e
      cases ek with
      | none => cases hp1
      | some ek =>
        have hp1' : Except.ok (mapKey ek) = Except.ok p.1 := hp1
        obtain ⟨hint',hk'⟩ := mapKey_read lib ek
        cases hx
        refine ⟨.entry ek x,rfl,?_⟩
        rw [readEntry, ← Except.ok.inj hp1', hk', hv])
  simp only [read, hkey, readElements, hlen', if_true, hread, pairs, hlen]

theorem orderedMapAddRequest_read (keys : Option (List OrderedValuePtr))
    (values : Option (List ValuePtr)) (r : AddToRequest)
    (hk : ∀ k, some k ∈ keys.getD [] → ShortValue lib k.elem)
    (hs : ∀ v, some v ∈ values.getD [] → ShortValue lib v)
    (h : addElementOrderedMapRequest lib key hint clientId keys values = .ok (some r)) :
    read lib (.add r) = some ⟨key,expectedHint key hint,false,some .ORDERED_MAP,none,none,
      pairs revaluedEntry keys values⟩ := by
  obtain ⟨k,ks,vs,km,vm,hbuilt,rfl,rfl,hlen,hkm,hvm,rfl⟩ :=
    addEntries_ok lib key hint clientId _ _ _ keys values r h
  have hkey := key_read lib hr key hint clientId defaultThreshold hl k (Or.inl hbuilt)
  have hlen' : km.length = vm.length := by
    rw [length_encoded _ _ _ hkm, length_encoded _ _ _ hvm, hlen]
  have hread := decode_encoded _ (readOrderedEntry lib) revaluedEntry _ _
    (zip_encoded _ _ ks vs km vm hlen hkm hvm) (by
      intro e he p hp
      obtain ⟨hp1,hp2⟩ := both_ok _ _ e p hp
      obtain ⟨hk1,hv1⟩ := List.of_mem_zip he
      obtain ⟨x,hx,hv⟩ := plainElement_read lib hr clientId e.2 p.2
        (fun v hv => hs v (hv ▸ hv1)) hp2
      obtain ⟨ek,ev⟩ := e
      cases ek with
      | none => cases hp1
      | some ek =>
        obtain ⟨data,hlt,helem,hint',hk'⟩ := orderedValueKey_read lib ek p.1 (hk ek hk1) hp1
        obtain ⟨w,el⟩ := ek
        cases helem
        cases hx
        refine ⟨.orderedEntry ⟨w,⟨data,hlt⟩⟩ x,?_,?_⟩
        · rw [revaluedEntry, dif_pos hlt]
        · rw [readOrderedEntry, hk', hv])
  simp only [read, hkey, readElements, hlen', if_true, hread, pairs, hlen]

end Requests

theorem request_read (lib : Libdeflate) (hr : lib.RoundTrip) (threshold : Int32) (now : Int64)
    (call : StandaloneCall) (hkey : (lib.gzipCompress call.key.data).length < 2^32)
    (hshort : ShortMethod lib call.method) (r : InsertRequest)
    (h : insertRequest lib threshold now call = .ok (some r)) :
    read lib r = some (said call) := by
  obtain ⟨key,hint,cid,method⟩ := call
  cases method with
  | createQueue vs ttl | createList vs ttl | createVector vs ttl | createSet vs ttl =>
    obtain ⟨c,hc,he⟩ := map_eq_ok h
    cases he
    exact containerRequest_read lib hr key hint cid hkey _ now ttl vs threshold c hshort
      (by simp) hc
  | createOrderedSet vs ttl =>
    obtain ⟨c,hc,he⟩ := map_eq_ok h
    cases he
    exact orderedSetRequest_read lib hr key hint cid hkey now ttl vs threshold c hshort hc
  | createMap es ttl =>
    obtain ⟨c,hc,he⟩ := map_eq_ok h
    cases he
    exact createMapRequest_read lib hr key hint cid hkey es now ttl c hshort hc
  | createOrderedMap es ttl =>
    obtain ⟨c,hc,he⟩ := map_eq_ok h
    cases he
    exact createOrderedMapRequest_read lib hr key hint cid hkey es now ttl c hc
  | addElementUnordered data | addElementToTail data | addElementToHead data =>
    obtain ⟨a,ha,he⟩ := map_eq_ok h
    cases he
    exact addRequest_read lib hr key hint cid hkey data none a hshort ha
  | addElementToPosition data pos =>
    obtain ⟨a,ha,he⟩ := map_eq_ok h
    cases he
    exact addRequest_read lib hr key hint cid hkey data (some pos) a hshort ha
  | addElementToPositionBefore data pivot | addElementToPositionAfter data pivot =>
    obtain ⟨o,ho,he⟩ := map_eq_ok h
    cases o with
    | none => cases he
    | some a =>
      cases he
      exact pivotRequest_read lib hr key hint cid hkey _ data pivot a hshort.1 hshort.2 ho
  | addElementWithWeight data =>
    obtain ⟨a,ha,he⟩ := map_eq_ok h
    cases he
    exact weightRequest_read lib hr key hint cid hkey data a ha
  | addElementHashMap keys values =>
    obtain ⟨o,ho,he⟩ := map_eq_ok h
    cases o with
    | none => cases he
    | some a =>
      cases he
      exact hashMapRequest_read lib hr key hint cid hkey keys values a hshort ho
  | addElementOrderedMap keys values =>
    obtain ⟨o,ho,he⟩ := map_eq_ok h
    cases o with
    | none => cases he
    | some a =>
      cases he
      exact orderedMapAddRequest_read lib hr key hint cid hkey keys values a hshort.1 hshort.2 ho
  | _ => cases h

/-- A request is read as the call that built it, and every call that builds it
says the same, at any threshold and any time. -/
theorem request_says (lib : Libdeflate) (hr : lib.RoundTrip) (threshold : Int32) (now : Int64)
    (call : StandaloneCall) (hkey : (lib.gzipCompress call.key.data).length < 2^32)
    (hshort : ShortMethod lib call.method) (r : InsertRequest)
    (h : insertRequest lib threshold now call = .ok (some r)) :
    read lib r = some (said call) ∧
      ∀ (threshold' : Int32) (now' : Int64) (call' : StandaloneCall),
        (lib.gzipCompress call'.key.data).length < 2^32 → ShortMethod lib call'.method →
        insertRequest lib threshold' now' call' = .ok (some r) → said call' = said call := by
  have hread := request_read lib hr threshold now call hkey hshort r h
  refine ⟨hread,fun threshold' now' call' hkey' hshort' h' => ?_⟩
  have hread' := request_read lib hr threshold' now' call' hkey' hshort' r h'
  rw [hread] at hread'
  exact (Option.some.inj hread').symm

def mapAddition : StandaloneCall :=
  ⟨sampleKey,none,7,.addElementHashMap (some [some sampleKey]) (some [some (.bytes [1,2])])⟩

theorem short_stored (data : Bytes) (h : data.length < 2^32) : Short storedLibdeflate data :=
  ⟨h,stored_length data⟩

theorem request_says_addition :
    ∃ r, insertRequest storedLibdeflate defaultThreshold 0 mapAddition = .ok (some r) ∧
      read storedLibdeflate r = some (said mapAddition) ∧
      ∀ (threshold' : Int32) (now' : Int64) (call' : StandaloneCall),
        (storedLibdeflate.gzipCompress call'.key.data).length < 2^32 →
        ShortMethod storedLibdeflate call'.method →
        insertRequest storedLibdeflate threshold' now' call' = .ok (some r) →
        said call' = said mapAddition := by
  obtain ⟨r,hr⟩ : ∃ r, insertRequest storedLibdeflate defaultThreshold 0 mapAddition =
    .ok (some r) := ⟨_,rfl⟩
  have hshort : ShortMethod storedLibdeflate mapAddition.method := by
    intro v hv data he
    simp only [Option.getD_some, List.mem_singleton, Option.some.injEq] at hv
    cases hv
    cases he
    exact short_stored _ (by decide)
  exact ⟨r,hr, request_says storedLibdeflate stored_round_trip defaultThreshold 0 mapAddition
    (stored_length _) hshort r hr⟩

end HurriCache.RequestDecoding
