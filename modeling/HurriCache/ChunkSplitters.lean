import HurriCache.GreedyCut
import HurriCache.MessageBuilders
import Mathlib.Data.List.Zip

/-!
# Size estimates and chunk splitters

The anonymous-namespace half of `smart_client.cpp`: the deep copies, the
serialized size of one element and the greedy splitters. Sizes are `size_t`,
so sums are taken modulo `2^64`, and the limit is the `int64_t` argument cast
to it. An estimate of a null element is a fault.
-/

set_option autoImplicit false

namespace HurriCache.ChunkSplitters
open HurriCache.ClientTypes HurriCache.PayloadCompression
open HurriCache.WireMessages HurriCache.MessageBuilders HurriCache.GreedyCut

def copyValue : ValuePtr → ValuePtr
  | none => none
  | some (.int int_value) => some (.int int_value)
  | some (.double double_value) => some (.double double_value)
  | some (.bytes data) => if data = [] then some (.bytes []) else some (.bytes data)

def copyOrderedValue : OrderedValuePtr → OrderedValuePtr
  | none => none
  | some ⟨weight,.int int_value⟩ => some ⟨weight,.int int_value⟩
  | some ⟨weight,.double double_value⟩ => some ⟨weight,.double double_value⟩
  | some ⟨weight,.bytes data⟩ =>
    if data = [] then some ⟨weight,.bytes []⟩ else some ⟨weight,.bytes data⟩

@[simp] theorem copyValue_eq (v : ValuePtr) : copyValue v = v := by
  cases v with
  | none => rfl
  | some v =>
    cases v with
    | int i => rfl
    | double bits => rfl
    | bytes data => by_cases h : data = [] <;> simp [copyValue, h]

@[simp] theorem copyOrderedValue_eq (v : OrderedValuePtr) : copyOrderedValue v = v := by
  cases v with
  | none => rfl
  | some v =>
    obtain ⟨w,e⟩ := v
    cases e with
    | int i => rfl
    | double bits => rfl
    | bytes data => by_cases h : data = [] <;> simp [copyOrderedValue, h]

def copyValues (data : Option (List ValuePtr)) : List ValuePtr := (data.getD []).map copyValue

def copyOrderedValues (data : Option (List OrderedValuePtr)) : List OrderedValuePtr :=
  (data.getD []).map copyOrderedValue

@[simp] theorem copyValues_eq (data : Option (List ValuePtr)) : copyValues data = data.getD [] := by
  rw [copyValues, show copyValue = id from funext copyValue_eq, List.map_id]

@[simp] theorem copyOrderedValues_eq (data : Option (List OrderedValuePtr)) :
    copyOrderedValues data = data.getD [] := by
  rw [copyOrderedValues, show copyOrderedValue = id from funext copyOrderedValue_eq,
    List.map_id]

/-- The keys of the map are dereferenced, the values only copied. -/
def copyMap (data : Option (List (KeyPtr × ValuePtr))) :
    Except Fault (List (KeyPtr × ValuePtr)) :=
  (data.getD []).mapM (fun e => do .ok (some (← deref e.1), copyValue e.2))

structure OrderedMapEntry where
  key : OrderedKeyPtr
  value : OrderedValuePtr
  key_as_value : OrderedValuePtr

def copyOrderedMap (data : Option (List (OrderedKeyPtr × OrderedValuePtr))) :
    Except Fault (List OrderedMapEntry) :=
  (data.getD []).mapM (fun e => do
    let k ← deref e.1
    .ok ⟨some k,copyOrderedValue e.2,some ⟨k.weight,.bytes k.elem.data⟩⟩)

section Estimates

variable (lib : Libdeflate) (clientId threshold : Int32)

def estimateValueSize (v : ValuePtr) : Except Fault UInt64 := do
  let v ← deref v
  .ok (UInt64.ofNat (buildValueProtoNoTtl lib v clientId threshold).byteSize)

def estimateOrderedValueSize (v : OrderedValuePtr) : Except Fault UInt64 := do
  let v ← deref v
  let pv := buildValueProtoNoTtl lib v.elem clientId threshold
  let ov : OrderedValueMessage := {
    order := some v.weight
    value := some pv.payloadOrDefault
    compressionInfo := pv.compressionInfo
    value_type := pv.value_type }
  .ok (UInt64.ofNat ov.byteSize)

def estimateKeySize (k : KeyPtr) : Except Fault UInt64 := do
  let m ← buildKeyProto lib (← deref k) none clientId threshold
  .ok (UInt64.ofNat m.byteSize)

def estimateOrderedKeySize (k : OrderedKeyPtr) : Except Fault UInt64 := do
  let k ← deref k
  let ok : OrderedKeyMessage := {
    payload := some { payload := k.elem.data, size := k.elem.size }
    order := some k.weight
    clientId := some clientId.toUInt32 }
  .ok (UInt64.ofNat ok.byteSize)

/-- The pair estimate of the map splitters; an absent value adds nothing. -/
def pairSize (keySize : Except Fault UInt64) (v : ValuePtr) : Except Fault UInt64 := do
  let pair_size := (← keySize)+32
  match v with
  | none => .ok pair_size
  | some _ => .ok (pair_size+(← estimateValueSize lib clientId threshold v))

def mapPairSize (e : KeyPtr × ValuePtr) : Except Fault UInt64 :=
  pairSize lib clientId threshold (estimateKeySize lib clientId threshold e.1) e.2

def orderedMapPairSize (e : OrderedValuePtr × ValuePtr) : Except Fault UInt64 :=
  pairSize lib clientId threshold (estimateOrderedValueSize lib clientId threshold e.1) e.2

end Estimates

section Partition

variable {A C : Type}

structure ChunkShape (A C : Type) where
  empty : C
  isEmpty : C → Bool
  push_back : C → A → C

structure Splitting (C : Type) where
  chunks : List C
  current_size : UInt64
  current : C

def splitStep (shape : ChunkShape A C) (size : A → Except Fault UInt64)
    (base_size : UInt64) (max_rpc_size : Int64) (st : Splitting C) (v : A) :
    Except Fault (Splitting C) := do
  let elem ← size v
  let st := if !shape.isEmpty st.current && max_rpc_size.toUInt64 < st.current_size+elem then
    { chunks := st.chunks++[st.current], current_size := base_size, current := shape.empty }
    else st
  .ok { st with
    current := shape.push_back st.current v
    current_size := st.current_size+elem }

/-- The loop the four splitters share. -/
def partitionChunks (shape : ChunkShape A C) (size : A → Except Fault UInt64)
    (data : List A) (base_size : UInt64) (max_rpc_size : Int64) : Except Fault (List C) := do
  let st ← data.foldlM (splitStep shape size base_size max_rpc_size)
    { chunks := [], current_size := base_size, current := shape.empty }
  .ok (if shape.isEmpty st.current then st.chunks else st.chunks++[st.current])

def firstChunkSplit (size : A → Except Fault UInt64) (current_size : UInt64)
    (max_rpc_size : Int64) : List A → Except Fault ℕ
  | [] => .ok 0
  | item::items => do
    let elem ← size item
    if current_size+elem ≤ max_rpc_size.toUInt64 then
      .ok ((← firstChunkSplit size (current_size+elem) max_rpc_size items)+1)
    else .ok 0

end Partition

section Cutting

variable {A C : Type}

structure ChunkShape.Views (shape : ChunkShape A C) (view : List A → C) : Prop where
  empty : shape.empty = view []
  isEmpty : ∀ as, shape.isEmpty (view as) = as.isEmpty
  push_back : ∀ as a, shape.push_back (view as) a = view (as++[a])

def overflows (n : A → UInt64) (max_rpc_size : Int64) (s : UInt64) (a : A) : Bool :=
  max_rpc_size.toUInt64 < s+n a

def addSize (n : A → UInt64) (s : UInt64) (a : A) : UInt64 := s+n a

/-- The blocks a splitter forms when every element has a size. -/
def blocksOf (n : A → UInt64) (base_size : UInt64) (max_rpc_size : Int64) (data : List A) :
    List (List A) :=
  cut base_size (overflows n max_rpc_size) (addSize n) data

theorem partition_from (shape : ChunkShape A C) (view : List A → C) (hv : shape.Views view)
    (size : A → Except Fault UInt64) (n : A → UInt64) (base_size : UInt64)
    (max_rpc_size : Int64) (data : List A) (hn : ∀ v ∈ data, size v = .ok (n v))
    (chunks : List C) (s : UInt64) (current : List A) :
    (do
      let st ← data.foldlM (splitStep shape size base_size max_rpc_size)
        ⟨chunks,s,view current⟩
      .ok (if shape.isEmpty st.current then st.chunks else st.chunks++[st.current])) =
    (.ok (chunks++(cutFrom base_size (overflows n max_rpc_size) (addSize n)
      current s data).map view) : Except Fault (List C)) := by
  induction data generalizing chunks s current with
  | nil =>
    cases current with
    | nil => simp [cutFrom, hv.isEmpty, pure, Except.pure, bind, Except.bind]
    | cons c cs => simp [cutFrom, hv.isEmpty, pure, Except.pure, bind, Except.bind]
  | cons a as ih =>
    have ha : size a = .ok (n a) := hn a (by simp)
    have has : ∀ v ∈ as, size v = .ok (n v) := fun v h => hn v (by simp [h])
    have hstep : splitStep shape size base_size max_rpc_size ⟨chunks,s,view current⟩ a =
        .ok (if !current.isEmpty && overflows n max_rpc_size s a
          then ⟨chunks++[view current],addSize n base_size a,view [a]⟩
          else ⟨chunks,addSize n s a,view (current++[a])⟩) := by
      have hcond : (!shape.isEmpty (view current) &&
          decide (max_rpc_size.toUInt64 < s+n a)) =
          (!current.isEmpty && overflows n max_rpc_size s a) := by rw [hv.isEmpty]; rfl
      cases hb : (!current.isEmpty && overflows n max_rpc_size s a) with
      | true =>
        simp only [splitStep, ha, bind, Except.bind, hcond, hb, if_true, addSize, hv.empty,
          hv.push_back, List.nil_append]
      | false =>
        simp only [splitStep, ha, bind, Except.bind, hcond, hb, Bool.false_eq_true, if_false,
          addSize, hv.push_back]
    rw [List.foldlM_cons, hstep, cutFrom]
    split
    · simpa [bind, Except.bind] using ih has (chunks++[view current]) (addSize n base_size a) [a]
    · simpa [bind, Except.bind] using ih has chunks (addSize n s a) (current++[a])

theorem partitionChunks_eq (shape : ChunkShape A C) (view : List A → C)
    (hv : shape.Views view) (size : A → Except Fault UInt64) (n : A → UInt64)
    (base_size : UInt64) (max_rpc_size : Int64) (data : List A)
    (hn : ∀ v ∈ data, size v = .ok (n v)) :
    partitionChunks shape size data base_size max_rpc_size =
      .ok ((blocksOf n base_size max_rpc_size data).map view) := by
  have h := partition_from shape view hv size n base_size max_rpc_size data hn [] base_size []
  rw [partitionChunks, hv.empty]
  simpa [blocksOf, cut] using h

theorem splitStep_pushed (shape : ChunkShape A C)
    (hpush : ∀ c a, shape.isEmpty (shape.push_back c a) = false)
    (size : A → Except Fault UInt64) (base_size : UInt64) (max_rpc_size : Int64)
    (st next : Splitting C) (v : A)
    (h : splitStep shape size base_size max_rpc_size st v = .ok next) :
    shape.isEmpty next.current = false := by
  obtain ⟨elem,_,h⟩ := bind_eq_ok h
  cases h
  exact hpush _ v

theorem foldlM_pushed (shape : ChunkShape A C)
    (hpush : ∀ c a, shape.isEmpty (shape.push_back c a) = false)
    (size : A → Except Fault UInt64) (base_size : UInt64) (max_rpc_size : Int64)
    (st next : Splitting C) (v : A) (data : List A)
    (h : (v::data).foldlM (splitStep shape size base_size max_rpc_size) st = .ok next) :
    shape.isEmpty next.current = false := by
  induction data generalizing v st with
  | nil =>
    obtain ⟨mid,hmid,h⟩ := bind_eq_ok h
    cases h
    exact splitStep_pushed shape hpush size base_size max_rpc_size st _ v hmid
  | cons a as ih =>
    obtain ⟨mid,_,h⟩ := bind_eq_ok h
    exact ih mid a h

theorem partitionChunks_ne_nil (shape : ChunkShape A C)
    (hpush : ∀ c a, shape.isEmpty (shape.push_back c a) = false)
    (size : A → Except Fault UInt64) (base_size : UInt64) (max_rpc_size : Int64)
    (data : List A) (hdata : data ≠ []) (chunks : List C)
    (h : partitionChunks shape size data base_size max_rpc_size = .ok chunks) : chunks ≠ [] := by
  obtain ⟨v,vs,rfl⟩ := List.exists_cons_of_ne_nil hdata
  obtain ⟨st,hst,h⟩ := bind_eq_ok h
  have hlast := foldlM_pushed shape hpush size base_size max_rpc_size _ st v vs hst
  rw [hlast] at h
  cases h
  simp

theorem blocksOf_map {B : Type} (f : B → A) (n : A → UInt64) (base_size : UInt64)
    (max_rpc_size : Int64) (data : List B) :
    blocksOf n base_size max_rpc_size (data.map f) =
      (blocksOf (fun b => n (f b)) base_size max_rpc_size data).map (List.map f) :=
  cut_map base_size (overflows n max_rpc_size) (addSize n) f data

theorem blocksOf_flatten (n : A → UInt64) (base_size : UInt64) (max_rpc_size : Int64)
    (data : List A) : (blocksOf n base_size max_rpc_size data).flatten = data :=
  cut_flatten base_size (overflows n max_rpc_size) (addSize n) data

theorem blocksOf_ne_nil (n : A → UInt64) (base_size : UInt64) (max_rpc_size : Int64)
    (data : List A) : ∀ block ∈ blocksOf n base_size max_rpc_size data, block ≠ [] :=
  cut_ne_nil base_size (overflows n max_rpc_size) (addSize n) data

theorem firstChunkSplit_ok (size : A → Except Fault UInt64) (n : A → UInt64)
    (s : UInt64) (max_rpc_size : Int64) (items : List A)
    (hn : ∀ v ∈ items, size v = .ok (n v)) :
    ∃ i, i ≤ items.length ∧ firstChunkSplit size s max_rpc_size items = .ok i := by
  induction items generalizing s with
  | nil => exact ⟨0,le_refl 0,rfl⟩
  | cons a as ih =>
    have ha : size a = .ok (n a) := hn a (by simp)
    obtain ⟨i,hi,hsplit⟩ := ih (s+n a) (fun v h => hn v (by simp [h]))
    by_cases hfit : s+n a ≤ max_rpc_size.toUInt64
    · exact ⟨i+1,by simpa using hi,by simp [firstChunkSplit, ha, hfit, hsplit, bind, Except.bind]⟩
    · exact ⟨0,by simp,by simp [firstChunkSplit, ha, hfit, bind, Except.bind]⟩

end Cutting

def vectorShape (A : Type) : ChunkShape A (List A) where
  empty := []
  isEmpty := List.isEmpty
  push_back := fun current v => current++[v]

structure MapChunk (K : Type) where
  keys : List K
  values : List ValuePtr

/-- A null value is not pushed. -/
def mapShape (K : Type) : ChunkShape (K × ValuePtr) (MapChunk K) where
  empty := ⟨[],[]⟩
  isEmpty := fun c => c.keys.isEmpty
  push_back := fun c e =>
    ⟨c.keys++[e.1],match e.2 with
      | some v => c.values++[some v]
      | none => c.values⟩

theorem vectorShape_push (A : Type) (c : List A) (a : A) :
    (vectorShape A).isEmpty ((vectorShape A).push_back c a) = false := by
  simp [vectorShape]

theorem mapShape_push (K : Type) (c : MapChunk K) (a : K × ValuePtr) :
    (mapShape K).isEmpty ((mapShape K).push_back c a) = false := by
  simp [mapShape]

theorem vectorShape_views (A : Type) : (vectorShape A).Views id where
  empty := rfl
  isEmpty := fun _ => rfl
  push_back := fun _ _ => rfl

def mapChunk {K : Type} (entries : List (K × ValuePtr)) : MapChunk K :=
  ⟨entries.map (·.1),entries.filterMap (fun e => e.2.map some)⟩

theorem mapShape_views (K : Type) : (mapShape K).Views mapChunk where
  empty := rfl
  isEmpty := by
    intro as
    cases as <;> rfl
  push_back := by
    intro as a
    obtain ⟨k,v⟩ := a
    cases v <;> simp [mapShape, mapChunk]

section Splitters

variable (lib : Libdeflate) (base_size : UInt64) (clientId threshold : Int32)
  (max_rpc_size : Int64)

def partitionValueChunks (data : List ValuePtr) : Except Fault (List (List ValuePtr)) :=
  partitionChunks (vectorShape ValuePtr) (estimateValueSize lib clientId threshold) data
    base_size max_rpc_size

def partitionOrderedValueChunks (data : List OrderedValuePtr) :
    Except Fault (List (List OrderedValuePtr)) :=
  partitionChunks (vectorShape OrderedValuePtr)
    (estimateOrderedValueSize lib clientId threshold) data base_size max_rpc_size

def partitionMapChunks (entries : List (KeyPtr × ValuePtr)) :
    Except Fault (List (MapChunk KeyPtr)) :=
  partitionChunks (mapShape KeyPtr) (mapPairSize lib clientId threshold) entries
    base_size max_rpc_size

def partitionOrderedMapChunks (entries : List (OrderedValuePtr × ValuePtr)) :
    Except Fault (List (MapChunk OrderedValuePtr)) :=
  partitionChunks (mapShape OrderedValuePtr) (orderedMapPairSize lib clientId threshold)
    entries base_size max_rpc_size

end Splitters

def valueSize (lib : Libdeflate) (clientId threshold : Int32) (v : Value) : UInt64 :=
  UInt64.ofNat (buildValueProtoNoTtl lib v clientId threshold).byteSize

theorem estimateValueSize_some (lib : Libdeflate) (clientId threshold : Int32) (v : Value) :
    estimateValueSize lib clientId threshold (some v) = .ok (valueSize lib clientId threshold v) :=
  rfl

theorem raw_byteSize (lib : Libdeflate) (data : Bytes) (clientId threshold : Int32)
    (h : data.length ≤ threshold64 threshold) :
    (buildValueProtoNoTtl lib (.bytes data) clientId threshold).byteSize =
      lengthDelimited (lengthDelimited data.length+
        implicitField (UInt32.ofNat data.length).toNat)+
      lengthDelimited (lockInfo clientId).byteSize+2 := by
  have hb : buildBytesPayload lib data threshold = (rawPayload data,none) :=
    if_neg (by omega)
  have htype : varintField ValueType.BYTES.number = 2 := by decide
  simp [buildValueProtoNoTtl, buildValueProto, hb, rawPayload, ValueMessage.byteSize,
    submessage, optionalField, BinaryPayload.byteSize, PayloadData.byteSize, Cord.size_eq,
    deadline, htype]

theorem partition_some {A : Type} (size : Option A → Except Fault UInt64) (n : A → UInt64)
    (hn : ∀ a, size (some a) = .ok (n a)) (base_size : UInt64) (max_rpc_size : Int64)
    (data : List A) :
    partitionChunks (vectorShape (Option A)) size (data.map some) base_size max_rpc_size =
      .ok ((blocksOf n base_size max_rpc_size data).map (List.map some)) := by
  have h := partitionChunks_eq (vectorShape (Option A)) id (vectorShape_views (Option A)) size
    (fun a => (a.map n).getD 0) base_size max_rpc_size (data.map some) (by simp [hn])
  rw [h, blocksOf_map, List.map_id]
  rfl

theorem partitionValueChunks_some (lib : Libdeflate) (base_size : UInt64)
    (clientId threshold : Int32) (max_rpc_size : Int64) (values : List Value) :
    partitionValueChunks lib base_size clientId threshold max_rpc_size (values.map some) =
      .ok ((blocksOf (valueSize lib clientId threshold) base_size max_rpc_size values).map
        (List.map some)) :=
  partition_some _ _ (estimateValueSize_some lib clientId threshold) base_size max_rpc_size values

end HurriCache.ChunkSplitters
