import HurriCache.ChunkedCreation
import HurriCache.StoredGzip
import Mathlib.Data.List.Nodup
import Mathlib.Data.Option.Basic

/-!
# The creation calls of every kind

Each smart create call succeeds in building a plan, and the plan delivers the
elements of the input. What the plan then does on a server follows for all
kinds at once.
-/

set_option autoImplicit false

namespace HurriCache.CreationPlans
open HurriCache.ClientTypes HurriCache.PayloadCompression HurriCache.CallOutcomes
open HurriCache.MessageBuilders HurriCache.StandaloneCalls HurriCache.ChunkSplitters
open HurriCache.SmartOperations HurriCache.ListServer HurriCache.ElementServer
open HurriCache.ChunkedCreation HurriCache.StoredGzip

section Branches

variable (lib : Libdeflate) (client : SmartClient) (max_rpc_size : Int64) (key : Key)
  (hint : Option KeyHint) (clientId : Int32) (ttl : Int64)

theorem planOf_branch {X : Type} (first : Method) (restEmpty : Bool)
    (chunks : Except Fault (List X)) (methods : List X → List Method) (blocks : List X)
    (hc : chunks = .ok blocks) (he : restEmpty = (methods blocks).isEmpty) :
    (if restEmpty then .ok ⟨dispatch client key hint clientId first,none⟩
      else do
        let c ← chunks
        .ok ⟨dispatch client key hint clientId first,
          some (remainderCalls client key clientId (methods c))⟩ : Except Fault CreatePlan) =
      .ok (planOf client key hint clientId first (methods blocks)) := by
  subst hc he
  cases h : (methods blocks).isEmpty with
  | true => simp [planOf, h]
  | false => simp [planOf, h, bind, Except.bind]

theorem blocksOf_isEmpty {A : Type} (n : A → UInt64) (base_size : UInt64)
    (max_rpc_size : Int64) (data : List A) :
    data.isEmpty = (blocksOf n base_size max_rpc_size data).isEmpty := by
  have h := GreedyCut.cut_eq_nil_iff base_size (overflows n max_rpc_size) (addSize n) data
  cases hd : data.isEmpty with
  | true =>
    rw [List.isEmpty_iff] at hd
    rw [blocksOf, h.mpr hd]
    rfl
  | false =>
    symm
    rw [List.isEmpty_eq_false_iff] at hd ⊢
    exact fun hb => hd (h.mp hb)

@[simp] theorem firstPtr_getD {A : Type} (first : List A) : (firstPtr first).getD [] = first := by
  cases first <;> rfl

theorem mapM_ok {A B : Type} (f : A → Except Fault B) (g : A → B) (as : List A)
    (h : ∀ a ∈ as, f a = .ok (g a)) : as.mapM f = .ok (as.map g) := by
  induction as with
  | nil => rfl
  | cons a as ih =>
    have ha : f a = .ok (g a) := h a (by simp)
    have has := ih (fun b hb => h b (List.mem_cons_of_mem a hb))
    rw [List.mapM_cons, ha, has]
    rfl

def sizeOr {A : Type} (size : A → Except Fault UInt64) (a : A) : UInt64 :=
  match size a with
  | .ok n => n
  | .error _ => 0

theorem sizeOr_eq {A : Type} (size : A → Except Fault UInt64) (a : A)
    (h : ∃ n, size a = .ok n) : size a = .ok (sizeOr size a) := by
  obtain ⟨n,hn⟩ := h
  simp [sizeOr, hn]

theorem flatMap_elements {X Y : Type} (f : X → Element) (view : List X → Y)
    (toMethod : Y → Method) (h : ∀ b, elements (toMethod (view b)) = b.map f)
    (blocks : List (List X)) :
    ((blocks.map view).map toMethod).flatMap elements = blocks.flatten.map f := by
  rw [List.flatMap_map, List.flatMap_map, List.map_flatten, List.flatMap_def]
  simp [h]

theorem blocks_deliver {C X Y : Type} (server : ContainerServer C) (reply_hint : KeyHint)
    (first : Method) (view : List X → Y) (toMethod : Y → Method) (f : X → Element)
    (data : List X) (i : ℕ) (n : X → UInt64) (hcreate : isCreate first = true)
    (hadd : ∀ y, isCreate (toMethod y) = false)
    (hel : ∀ b, elements (toMethod (view b)) = b.map f)
    (hperm : (elements first).Perm ((data.take i).map f))
    (hsame : ∀ c, server.insertAll c (elements first) =
      server.insertAll c ((data.take i).map f)) :
    Delivers server (planOf client key hint clientId first
      (((blocksOf n 0 max_rpc_size (data.drop i)).map view).map toMethod)) reply_hint
      (data.map f) := by
  apply planOf_delivers client key hint clientId server first _ reply_hint (data.map f) i hcreate
  · intro m hm
    obtain ⟨y,-,rfl⟩ := List.mem_map.mp hm
    exact hadd y
  · simpa [List.map_take] using hperm
  · simpa [List.map_take] using hsame
  · rw [flatMap_elements f view toMethod hel, blocksOf_flatten, List.map_drop]

theorem blocks_branch {X Y : Type} (first : Method) (restEmpty : Bool)
    (chunks : Except Fault (List Y)) (view : List X → Y) (toMethod : Y → Method)
    (n : X → UInt64) (rest : List X)
    (hc : chunks = .ok ((blocksOf n 0 max_rpc_size rest).map view))
    (he : restEmpty = rest.isEmpty) :
    (if restEmpty then .ok ⟨dispatch client key hint clientId first,none⟩
      else do
        let c ← chunks
        .ok ⟨dispatch client key hint clientId first,
          some (remainderCalls client key clientId (c.map toMethod))⟩ : Except Fault CreatePlan) =
      .ok (planOf client key hint clientId first
        (((blocksOf n 0 max_rpc_size rest).map view).map toMethod)) := by
  apply planOf_branch client key hint clientId first restEmpty chunks
    (fun c => c.map toMethod) _ hc
  rw [he, blocksOf_isEmpty n 0 max_rpc_size rest]
  simp

theorem unordered_delivers (type : UnorderedType) (values : List Value) :
    ∃ plan, createUnorderedContainerSmart lib client max_rpc_size key hint clientId ttl type
        (some (values.map some)) = .ok plan ∧
      ∀ {C : Type} (server : ContainerServer C) (reply_hint : KeyHint),
        Delivers server plan reply_hint (values.map .value) := by
  obtain ⟨i,-,hsplit⟩ := firstChunkSplit_ok (estimateValueSize lib
    (client.effectiveClientId clientId) client.compression_threshold)
    (fun v => (v.map (valueSize lib (client.effectiveClientId clientId)
      client.compression_threshold)).getD 0) 128 max_rpc_size (values.map some)
    (by simp [estimateValueSize_some])
  have hbranch := blocks_branch client max_rpc_size key hint clientId
    (type.create (firstPtr ((values.take i).map some)) (client.effectiveTtl ttl))
    ((values.map some).drop i).isEmpty _ (List.map some) type.remainder _ (values.drop i)
    (partitionValueChunks_some lib 0 (client.effectiveClientId clientId)
      client.compression_threshold max_rpc_size (values.drop i))
    (by simp [← List.map_drop])
  have hfirst : elements (type.create (firstPtr ((values.take i).map some))
      (client.effectiveTtl ttl)) = (values.take i).map .value := by
    cases type <;> exact congrArg (List.map Element.value) (block_firstPtr _)
  refine ⟨_,Eq.trans ?_ hbranch,?_⟩
  · simp only [createUnorderedContainerSmart, copyValues_eq, Option.getD_some, hsplit, bind,
      Except.bind, List.map_take, List.map_drop]
  · intro C server reply_hint
    apply blocks_deliver client max_rpc_size key hint clientId server reply_hint
    · cases type <;> rfl
    · intro y
      cases type <;> rfl
    · intro b
      cases type <;> exact congrArg (List.map Element.value) (block_some b)
    · rw [hfirst]
    · intro c
      rw [hfirst]

def orderedValueSize (lib : Libdeflate) (clientId threshold : Int32) (v : OrderedValue) :
    UInt64 :=
  sizeOr (estimateOrderedValueSize lib clientId threshold) (some v)

theorem estimateOrderedValueSize_some (lib : Libdeflate) (clientId threshold : Int32)
    (v : OrderedValue) :
    estimateOrderedValueSize lib clientId threshold (some v) =
      .ok (orderedValueSize lib clientId threshold v) :=
  sizeOr_eq _ _ ⟨_,rfl⟩

theorem orderedSet_delivers (values : List OrderedValue) :
    ∃ plan, createOrderedSet lib client max_rpc_size key hint clientId ttl
        (some (values.map some)) = .ok plan ∧
      ∀ {C : Type} (server : ContainerServer C) (reply_hint : KeyHint),
        Delivers server plan reply_hint (values.map .weighted) := by
  obtain ⟨i,-,hsplit⟩ := firstChunkSplit_ok (estimateOrderedValueSize lib
    (client.effectiveClientId clientId) client.compression_threshold)
    (fun v => (v.map (orderedValueSize lib (client.effectiveClientId clientId)
      client.compression_threshold)).getD 0) 128 max_rpc_size (values.map some)
    (by simp [estimateOrderedValueSize_some])
  have hbranch := blocks_branch client max_rpc_size key hint clientId
    (.createOrderedSet (firstPtr ((values.take i).map some)) (client.effectiveTtl ttl))
    ((values.map some).drop i).isEmpty _ (List.map some)
    (fun chunk => .addElementWithWeight (some chunk)) _ (values.drop i)
    (partition_some _ _ (estimateOrderedValueSize_some lib (client.effectiveClientId clientId)
      client.compression_threshold) 0 max_rpc_size (values.drop i))
    (by simp [← List.map_drop])
  have hfirst : elements (.createOrderedSet (firstPtr ((values.take i).map some))
      (client.effectiveTtl ttl)) = (values.take i).map .weighted :=
    congrArg (List.map Element.weighted) (block_firstPtr _)
  refine ⟨_,Eq.trans ?_ hbranch,?_⟩
  · simp only [createOrderedSet, copyOrderedValues_eq, Option.getD_some, hsplit, bind,
      Except.bind, List.map_take, List.map_drop, partitionOrderedValueChunks]
  · intro C server reply_hint
    apply blocks_deliver client max_rpc_size key hint clientId server reply_hint
    · rfl
    · intro y
      rfl
    · intro b
      exact congrArg (List.map Element.weighted) (block_some b)
    · rw [hfirst]
    · intro c
      rw [hfirst]

theorem insertAll_distinct {C : Type} (server : ContainerServer C) (es fs : List Element)
    (hp : es.Perm fs) (hkeys : ∀ e ∈ fs, ∃ k, e.keyBytes = some k)
    (hnodup : (fs.map Element.keyBytes).Nodup) (c : C) :
    server.insertAll c es = server.insertAll c fs := by
  apply insertAll_perm server es fs hp c
  · intro e he
    exact hkeys e (hp.mem_iff.mp he)
  · intro a ha b hb hab
    exact List.inj_on_of_nodup_map hnodup (hp.mem_iff.mp ha) (hp.mem_iff.mp hb) hab

theorem insertAll_keyed {C X : Type} (server : ContainerServer C) (f : X → Element)
    (bytes : X → Bytes) (hkey : ∀ x, (f x).keyBytes = some (bytes x)) (data : List X) (i : ℕ)
    (hd : (data.map bytes).Nodup) (sent : List Element)
    (hperm : sent.Perm ((data.take i).map f)) (c : C) :
    server.insertAll c sent = server.insertAll c ((data.take i).map f) := by
  apply insertAll_distinct server _ _ hperm
  · intro e hm
    obtain ⟨x,-,rfl⟩ := List.mem_map.mp hm
    exact ⟨bytes x,hkey x⟩
  · have hnodup := (hd.sublist ((List.take_sublist i data).map bytes)).map
      (Option.some_injective Bytes)
    simpa [List.map_map, Function.comp_def, hkey] using hnodup

theorem copyMap_pointers (entries : List (Key × Value)) :
    copyMap (some (mapPointers entries)) = .ok (mapPointers entries) := by
  rw [copyMap, mapM_ok _ id]
  · simp
  · intro e he
    obtain ⟨a,-,rfl⟩ := List.mem_map.mp he
    simp [bind, Except.bind]

theorem pairSize_ok (cid threshold : Int32) (keySize : Except Fault UInt64)
    (hk : ∃ n, keySize = .ok n) (v : Value) :
    ∃ n, pairSize lib cid threshold keySize (some v) = .ok n := by
  obtain ⟨n,rfl⟩ := hk
  exact ⟨_,by simp [pairSize, estimateValueSize_some, bind, Except.bind]; rfl⟩

theorem estimateKeySize_ok (cid threshold : Int32) (k : Key)
    (hk : KeyEncodable lib k threshold) :
    ∃ n, estimateKeySize lib cid threshold (some k) = .ok n := by
  obtain ⟨m,hm⟩ := buildKeyProto_ok lib k none cid threshold hk
  exact ⟨_,by simp [estimateKeySize, hm, bind, Except.bind]; rfl⟩

theorem mapEntrySize_ok (cid : Int32) (k : Key) (v : Value)
    (hk : KeyEncodable lib k client.compression_threshold) :
    ∃ n, mapEntrySize lib client cid (some k,some v) = .ok n := by
  obtain ⟨n,hn⟩ := estimateKeySize_ok lib cid client.compression_threshold k hk
  exact ⟨_,by simp [mapEntrySize, hn, estimateValueSize_some, bind, Except.bind]; rfl⟩

theorem partition_entries {K X : Type} (size : K × ValuePtr → Except Fault UInt64)
    (pointers : X → K × ValuePtr) (data : List X) (rest : List (K × ValuePtr))
    (hrest : rest = data.map pointers) (hsize : ∀ x ∈ data, ∃ n, size (pointers x) = .ok n) :
    partitionChunks (mapShape K) size rest 0 max_rpc_size =
      .ok ((blocksOf (fun x => sizeOr size (pointers x)) 0 max_rpc_size data).map
        (fun b => mapChunk (b.map pointers))) := by
  subst hrest
  have h := partitionChunks_eq (mapShape K) mapChunk (mapShape_views K) size (sizeOr size) 0
    max_rpc_size (data.map pointers) (by
      intro e he
      obtain ⟨x,hx,rfl⟩ := List.mem_map.mp he
      exact sizeOr_eq size _ (hsize x hx))
  rw [h, blocksOf_map, List.map_map]
  rfl

theorem pairs_mapChunk {K X : Type} (entry : K × ValuePtr → Option Element)
    (pointers : X → K × ValuePtr) (f : X → Element)
    (hvalue : ∀ x, ∃ v, (pointers x).2 = some v)
    (hentry : ∀ x, entry (pointers x) = some (f x)) (b : List X) :
    pairs entry (some (mapChunk (b.map pointers)).keys)
      (some (mapChunk (b.map pointers)).values) = b.map f := by
  have hvalues : (mapChunk (b.map pointers)).values = b.map (fun x => (pointers x).2) := by
    induction b with
    | nil => rfl
    | cons x xs ih =>
      obtain ⟨v,hv⟩ := hvalue x
      simp only [mapChunk, List.map_cons] at ih ⊢
      rw [List.filterMap_cons, hv, ih]
      rfl
  have hkeys : (mapChunk (b.map pointers)).keys = b.map (fun x => (pointers x).1) := by
    simp [mapChunk]
  rw [hvalues, hkeys, pairs, if_pos (by simp), List.zip_map']
  rw [List.filterMap_map]
  have hf : (entry ∘ fun x => ((pointers x).1,(pointers x).2)) = fun x => some (f x) :=
    funext hentry
  rw [hf]
  exact congrFun List.filterMap_eq_map b

theorem map_delivers (addresses : AddressOrder) (entries : List (Key × Value))
    (hd : (entries.map (fun e => e.1.data)).Nodup)
    (he : ∀ e ∈ entries, KeyEncodable lib e.1 client.compression_threshold) :
    ∃ plan, createMap lib client max_rpc_size key hint clientId ttl addresses
        (some (mapPointers entries)) = .ok plan ∧
      ∀ {C : Type} (server : ContainerServer C) (reply_hint : KeyHint),
        Delivers server plan reply_hint (entries.map (fun e => .entry e.1 e.2)) := by
  obtain ⟨i,-,hsplit⟩ := firstChunkSplit_ok (mapEntrySize lib client
    (client.effectiveClientId clientId)) (sizeOr (mapEntrySize lib client
      (client.effectiveClientId clientId))) 128 max_rpc_size (mapPointers entries) (by
    intro e hm
    obtain ⟨a,ha,rfl⟩ := List.mem_map.mp hm
    exact sizeOr_eq _ _ (mapEntrySize_ok lib client _ a.1 a.2 (he a ha)))
  have hrest : (mapPointers entries).drop i =
      (entries.drop i).map (fun e => ((some e.1 : KeyPtr),(some e.2 : ValuePtr))) := by
    rw [mapPointers, List.map_drop]
  have hsizes : ∀ e ∈ entries.drop i, ∃ n, mapPairSize lib (client.effectiveClientId clientId)
      client.compression_threshold (some e.1,some e.2) = .ok n :=
    fun e hm => pairSize_ok lib _ _ _
      (estimateKeySize_ok lib _ _ e.1 (he e (List.mem_of_mem_drop hm))) e.2
  have hpart := partition_entries max_rpc_size _ _ (entries.drop i) _ hrest hsizes
  have hbranch := blocks_branch client max_rpc_size key hint clientId
    (.createMap (firstPtr (addresses.order _ ((mapPointers entries).take i)))
      (client.effectiveTtl ttl)) ((mapPointers entries).drop i).isEmpty _ _
    (fun chunk : MapChunk KeyPtr => .addElementHashMap (some chunk.keys) (some chunk.values)) _
    (entries.drop i) hpart (by rw [hrest, List.isEmpty_map])
  have hfirst : (elements (.createMap (firstPtr (addresses.order _
      ((mapPointers entries).take i))) (client.effectiveTtl ttl))).Perm
      ((entries.take i).map (fun e => .entry e.1 e.2)) := by
    have hp := (addresses.perm _ ((mapPointers entries).take i)).filterMap mapEntry
    have hm : ((mapPointers entries).take i).filterMap mapEntry =
        (entries.take i).map (fun e => .entry e.1 e.2) := by
      rw [mapPointers, ← List.map_take, List.filterMap_map]
      exact congrFun List.filterMap_eq_map _
    rw [hm] at hp
    simpa [elements] using hp
  refine ⟨_,Eq.trans ?_ hbranch,?_⟩
  · simp only [createMap, copyMap_pointers, hsplit, bind, Except.bind, partitionMapChunks]
  · intro C server reply_hint
    apply blocks_deliver client max_rpc_size key hint clientId server reply_hint
    · rfl
    · intro y
      rfl
    · intro b
      exact pairs_mapChunk mapEntry _ _ (fun x => ⟨x.2,rfl⟩) (fun x => rfl) b
    · exact hfirst
    · exact insertAll_keyed server _ _ (fun x => rfl) entries i hd _ hfirst

theorem copyOrderedMap_pointers (entries : List (OrderedKey × OrderedValue)) :
    copyOrderedMap (some (orderedMapPointers entries)) = .ok (entries.map (fun e =>
      ⟨some e.1,some e.2,some ⟨e.1.weight,.bytes e.1.elem.data⟩⟩)) := by
  rw [copyOrderedMap, orderedMapPointers, Option.getD_some, List.mapM_map]
  exact mapM_ok _ _ entries (fun e _ => by simp [bind, Except.bind])

theorem orderedMapEntrySize_ok (cid : Int32) (k : OrderedKey) (v : OrderedValue)
    (kv : OrderedValuePtr) :
    ∃ n, orderedMapEntrySize lib client cid ⟨some k,some v,kv⟩ = .ok n :=
  ⟨_,rfl⟩

theorem revaluedEntry_key (k : OrderedKey) (v : Value) :
    revaluedEntry (some ⟨k.weight,.bytes k.elem.data⟩,some v) = some (.orderedEntry k v) := by
  rw [revaluedEntry, dif_pos k.elem.size_lt]

theorem orderedMap_delivers (addresses : AddressOrder)
    (entries : List (OrderedKey × OrderedValue))
    (hd : (entries.map (fun e => e.1.elem.data)).Nodup) :
    ∃ plan, createOrderedMap lib client max_rpc_size key hint clientId ttl addresses
        (some (orderedMapPointers entries)) = .ok plan ∧
      ∀ {C : Type} (server : ContainerServer C) (reply_hint : KeyHint),
        Delivers server plan reply_hint
          (entries.map (fun e => .orderedEntry e.1 e.2.elem)) := by
  have hcopy := copyOrderedMap_pointers entries
  generalize hcopies : entries.map (fun e => (⟨some e.1,some e.2,
    some ⟨e.1.weight,.bytes e.1.elem.data⟩⟩ : OrderedMapEntry)) = copies at hcopy
  obtain ⟨i,-,hsplit⟩ := firstChunkSplit_ok (orderedMapEntrySize lib client
    (client.effectiveClientId clientId)) (sizeOr (orderedMapEntrySize lib client
      (client.effectiveClientId clientId))) 128 max_rpc_size copies (by
    intro e hm
    rw [← hcopies] at hm
    obtain ⟨a,-,rfl⟩ := List.mem_map.mp hm
    exact sizeOr_eq _ _ (orderedMapEntrySize_ok lib client _ a.1 a.2 _))
  have hrest : (copies.drop i).map (fun e => (e.key_as_value,e.value.map (·.elem))) =
      (entries.drop i).map (fun e => ((some ⟨e.1.weight,.bytes e.1.elem.data⟩ :
        OrderedValuePtr),(some e.2.elem : ValuePtr))) := by
    rw [← hcopies, ← List.map_drop, List.map_map]
    rfl
  have hpre : (copies.take i).map (fun e => (e.key,e.value)) =
      orderedMapPointers (entries.take i) := by
    rw [← hcopies, ← List.map_take, List.map_map]
    rfl
  have hsizes : ∀ e ∈ entries.drop i, ∃ n, orderedMapPairSize lib
      (client.effectiveClientId clientId) client.compression_threshold
      (some ⟨e.1.weight,.bytes e.1.elem.data⟩,some e.2.elem) = .ok n :=
    fun e _ => pairSize_ok lib _ _ _ ⟨_,estimateOrderedValueSize_some lib _ _ _⟩ e.2.elem
  have hpart := partition_entries max_rpc_size _ _ (entries.drop i) _ hrest hsizes
  have hbranch := blocks_branch client max_rpc_size key hint clientId
    (.createOrderedMap (firstPtr (addresses.order _
      ((copies.take i).map (fun e => (e.key,e.value))))) (client.effectiveTtl ttl))
    ((copies.drop i).map (fun e => (e.key_as_value,e.value.map (·.elem)))).isEmpty _ _
    (fun chunk : MapChunk OrderedValuePtr =>
      .addElementOrderedMap (some chunk.keys) (some chunk.values)) _
    (entries.drop i) hpart (by rw [hrest, List.isEmpty_map])
  have hfirst : (elements (.createOrderedMap (firstPtr (addresses.order _
      ((copies.take i).map (fun e => (e.key,e.value))))) (client.effectiveTtl ttl))).Perm
      ((entries.take i).map (fun e => .orderedEntry e.1 e.2.elem)) := by
    have hp := (addresses.perm _ ((copies.take i).map
      (fun e => (e.key,e.value)))).filterMap orderedMapEntry
    have hm : ((copies.take i).map (fun e => (e.key,e.value))).filterMap orderedMapEntry =
        (entries.take i).map (fun e => .orderedEntry e.1 e.2.elem) := by
      rw [hpre, orderedMapPointers, List.filterMap_map]
      exact congrFun List.filterMap_eq_map _
    rw [hm] at hp
    simpa [elements] using hp
  refine ⟨_,Eq.trans ?_ hbranch,?_⟩
  · simp only [createOrderedMap, hcopy, hsplit, bind, Except.bind, partitionOrderedMapChunks]
  · intro C server reply_hint
    apply blocks_deliver client max_rpc_size key hint clientId server reply_hint
    · rfl
    · intro y
      rfl
    · intro b
      exact pairs_mapChunk revaluedEntry _ _ (fun x => ⟨x.2.elem,rfl⟩)
        (fun x => revaluedEntry_key x.1 x.2.elem) b
    · exact hfirst
    · exact insertAll_keyed server _ _ (fun x => rfl) entries i hd _ hfirst

end Branches

theorem input_delivers (lib : Libdeflate) (client : SmartClient) (max_rpc_size : Int64)
    (key : Key) (hint : Option KeyHint) (clientId : Int32) (ttl : Int64)
    (addresses : AddressOrder) (input : CreateInput) (hd : input.DistinctKeys)
    (he : input.Encodable lib client.compression_threshold) :
    ∃ plan, input.operation lib client max_rpc_size key hint clientId ttl addresses = .ok plan ∧
      ∀ {C : Type} (server : ContainerServer C) (reply_hint : KeyHint),
        Delivers server plan reply_hint input.elementsOf := by
  cases input with
  | unordered type values =>
    exact unordered_delivers lib client max_rpc_size key hint clientId ttl type values
  | orderedSet values =>
    exact orderedSet_delivers lib client max_rpc_size key hint clientId ttl values
  | map entries =>
    exact map_delivers lib client max_rpc_size key hint clientId ttl addresses entries hd he
  | orderedMap entries =>
    exact orderedMap_delivers lib client max_rpc_size key hint clientId ttl addresses entries hd

theorem whole_apply {C : Type} (server : ContainerServer C) (input : CreateInput) (ttl : Int64)
    (c : C) :
    server.apply (input.whole ttl) c = server.insertAll server.empty input.elementsOf := by
  cases input with
  | unordered type values =>
    cases type <;> exact congrArg (server.insertAll server.empty)
      (congrArg (List.map Element.value) (block_some values))
  | orderedSet values =>
    exact congrArg (server.insertAll server.empty)
      (congrArg (List.map Element.weighted) (block_some values))
  | map entries =>
    have h : (mapPointers entries).filterMap mapEntry =
        entries.map (fun e => .entry e.1 e.2) := by
      rw [mapPointers, List.filterMap_map]
      exact congrFun List.filterMap_eq_map entries
    exact congrArg (server.insertAll server.empty) h
  | orderedMap entries =>
    have h : (orderedMapPointers entries).filterMap orderedMapEntry =
        entries.map (fun e => .orderedEntry e.1 e.2.elem) := by
      rw [orderedMapPointers, List.filterMap_map]
      exact congrFun List.filterMap_eq_map entries
    exact congrArg (server.insertAll server.empty) h

/-- Chunked creation refines one create request: success leaves its container,
and a failure leaves the elements of the requests before it. -/
theorem chunked_creation_refines {C : Type} (server : ContainerServer C) (lib : Libdeflate)
    (client : SmartClient) (max_rpc_size : Int64) (key : Key) (hint : Option KeyHint)
    (clientId : Int32) (ttl : Int64) (addresses : AddressOrder) (input : CreateInput)
    (fails : ℕ → Option CallException) (reply_hint : KeyHint) (hd : input.DistinctKeys)
    (he : input.Encodable lib client.compression_threshold) :
    ∃ plan, input.operation lib client max_rpc_size key hint clientId ttl addresses = .ok plan ∧
      ((∀ i < (planRequests plan reply_hint).length, fails i = none) →
        runServed server fails reply_hint plan = (.ok reply_hint,
          ⟨server.apply (input.whole (client.effectiveTtl ttl)) server.empty,
            planRequests plan reply_hint⟩)) ∧
      ∀ j < (planRequests plan reply_hint).length, ∀ e,
        (∀ i < j, fails i = none) → fails j = some e →
        ∃ n, runServed server fails reply_hint plan = (.error e,
            ⟨server.insertAll server.empty (input.elementsOf.take n),
              (planRequests plan reply_hint).take (j+1)⟩) ∧
          (((planRequests plan reply_hint).take j).flatMap
            (fun r => elements r.action.method)).Perm (input.elementsOf.take n) := by
  obtain ⟨plan,hop,hdel⟩ := input_delivers lib client max_rpc_size key hint clientId ttl addresses
    input hd he
  refine ⟨plan,hop,?_,?_⟩
  · intro hok
    rw [runServed_ok server fails reply_hint plan hok, whole_apply,
      delivered_all server plan reply_hint _ (hdel server reply_hint)]
  · intro j hj e hok hfail
    obtain ⟨n,happly,hperm⟩ := delivered_prefix server plan reply_hint _
      (hdel server reply_hint) j
    refine ⟨n,?_,hperm⟩
    rw [runServed_fail server fails reply_hint plan j hj e hok hfail, happly]

/-- A map under key bytes beside a list of the other elements. -/
def recordServer : ContainerServer (List Element × (Bytes → Option Element)) where
  empty := ([],fun _ => none)
  insert := fun c e =>
    match e.keyBytes with
    | some k => (c.1,fun b => if b = k then some e else c.2 b)
    | none => (c.1++[e],c.2)
  commutes := by
    intro c a b ka kb ha hb hne
    simp only [ha, hb]
    congr 1
    funext x
    by_cases hx : x = ka
    · simp [hx, hne]
    · simp [hx]

def failsThird (i : ℕ) : Option CallException := if i = 2 then some (.other []) else none

def secondKey : Key := ⟨[108],by decide⟩

def twoEntries : CreateInput := .map [(sampleKey,.int 1),(secondKey,.int 2)]

theorem twoEntries_distinct : twoEntries.DistinctKeys := by
  change [sampleKey.data,secondKey.data].Nodup
  decide

theorem twoEntries_encodable : twoEntries.Encodable storedLibdeflate defaultThreshold := by
  intro e he h
  rcases List.mem_cons.mp he with rfl | he
  · exact absurd h (by decide)
  · rw [List.mem_singleton.mp he] at h
    exact absurd h (by decide)

/-- The limit keeps the entries out of the create request and apart: a run of
three requests that succeeds and one whose last request fails. -/
theorem chunked_creation_refines_map :
    ∃ plan, twoEntries.operation storedLibdeflate {} 1 sampleKey none 7 0 givenOrder = .ok plan ∧
      runServed recordServer (fun _ => none) ⟨1,2⟩ plan = (.ok ⟨1,2⟩,
        ⟨recordServer.apply (twoEntries.whole (SmartClient.effectiveTtl {} 0)) recordServer.empty,
          planRequests plan ⟨1,2⟩⟩) ∧
      ∃ n, runServed recordServer failsThird ⟨1,2⟩ plan = (.error (.other []),
          ⟨recordServer.insertAll recordServer.empty (twoEntries.elementsOf.take n),
            (planRequests plan ⟨1,2⟩).take 3⟩) ∧
        (((planRequests plan ⟨1,2⟩).take 2).flatMap
          (fun r => elements r.action.method)).Perm (twoEntries.elementsOf.take n) := by
  have hall := fun fails => chunked_creation_refines recordServer storedLibdeflate {} 1 sampleKey
    none 7 0 givenOrder twoEntries fails ⟨1,2⟩ twoEntries_distinct twoEntries_encodable
  obtain ⟨plan,hop,hsucceeds,_⟩ := hall (fun _ => none)
  obtain ⟨other,hother,_,hfails⟩ := hall failsThird
  obtain rfl : other = plan := Except.ok.inj (hother.symm.trans hop)
  refine ⟨other,hop,hsucceeds (fun _ _ => rfl),?_⟩
  have hplan : other = planOf {} sampleKey none 7 (.createMap none 0)
      [.addElementHashMap (some [some sampleKey]) (some [some (.int 1)]),
        .addElementHashMap (some [some secondKey]) (some [some (.int 2)])] :=
    Except.ok.inj (hop.symm.trans rfl)
  refine hfails 2 (by rw [hplan]; decide) (.other []) (fun i hi => ?_) rfl
  exact if_neg (by omega)

end HurriCache.CreationPlans
