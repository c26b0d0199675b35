import HurriCache.NullEncoding
import HurriCache.SmartOperations

/-!
# Null elements in the plans

The smart client estimates elements before it sends anything, so a null in a
list never gets as far as a request. Only a map can hold a value that is not
looked at: an addition leaves absent values out, and a creation stops looking
at the first entry that its first request has no room for.
-/

set_option autoImplicit false

namespace HurriCache.NullPlans
open HurriCache.ClientTypes HurriCache.PayloadCompression HurriCache.StandaloneCalls
open HurriCache.ChunkSplitters HurriCache.SmartOperations HurriCache.CreationPlans
open HurriCache.ExceptGuard HurriCache.NullEstimates HurriCache.NullEncoding

section Branches

variable {A B C X : Type} (size : A → Except Fault UInt64) (p : A → Prop) (max_rpc_size : Int64)
  (shape : ChunkShape B C) (first : ℕ → X) (build : ℕ → List C → X)

theorem rest_guarded (sizeRest : B → Except Fault UInt64) (q : B → Prop) (rest : List B) (i : ℕ)
    (hsize : ∀ b ∈ rest, NullGuarded (q b) (sizeRest b)) :
    NullGuarded (∀ b ∈ rest, q b) (if rest.isEmpty then .ok (first i) else do
      let chunks ← partitionChunks shape sizeRest rest 0 max_rpc_size
      .ok (build i chunks)) := by
  by_cases hrest : rest = []
  · rw [hrest]
    exact (guarded_ok _ _).congr (by simp)
  · rw [if_neg (by simpa using hrest)]
    exact guarded_then _ (partition_guarded sizeRest q max_rpc_size shape 0 rest hsize)
      (fun _ _ => ⟨_,rfl⟩)

theorem values_guarded (shape : ChunkShape A C) (items : List A)
    (hsize : ∀ a, NullGuarded (p a) (size a)) :
    NullGuarded (∀ a ∈ items, p a) (do
      let i ← firstChunkSplit size 128 max_rpc_size items
      if (items.drop i).isEmpty then .ok (first i) else do
        let chunks ← partitionChunks shape size (items.drop i) 0 max_rpc_size
        .ok (build i chunks)) := by
  have hsplit := firstChunkSplit_guarded size p max_rpc_size 128 items (fun a _ => hsize a)
  have hrest : ∀ i, firstChunkSplit size 128 max_rpc_size items = .ok i →
      NullGuarded (∀ j, firstChunkSplit size 128 max_rpc_size items = .ok j →
        ∀ a ∈ items.drop j, p a) (if (items.drop i).isEmpty then .ok (first i) else do
          let chunks ← partitionChunks shape size (items.drop i) 0 max_rpc_size
          .ok (build i chunks)) := by
    intro i hi
    refine (rest_guarded max_rpc_size shape first build size p (items.drop i) i
      (fun a _ => hsize a)).congr ⟨?_,fun h => h i hi⟩
    intro h j hj
    cases hi.symm.trans hj
    exact h
  refine (guarded_bind _ hsplit hrest).congr ⟨?_,?_⟩
  · rintro ⟨hseen,hleft⟩ a ha
    obtain ⟨i,hi⟩ := hsplit.succeeds hseen
    rw [← List.take_append_drop i items] at ha
    rcases List.mem_append.mp ha with htake | hdrop
    · exact hseen a (examined_of_split size max_rpc_size 128 items i hi a htake)
    · exact hleft i hi a hdrop
  · intro h
    exact ⟨fun a ha => h a (examined_mem max_rpc_size _ 128 items a ha),
      fun i _ a ha => h a (List.mem_of_mem_drop ha)⟩

/-- A creation from entries estimates the values of those that it looks at for
its first request, and of the others only what is there. -/
theorem entries_guarded (items : List A) (sizeRest : B → Except Fault UInt64)
    (rest : ℕ → List B) (hsize : ∀ a ∈ items, NullGuarded (p a) (size a))
    (hrest : ∀ i, ∀ b ∈ rest i, ∃ n, sizeRest b = .ok n) :
    NullGuarded (∀ a, Examined (sizeOr size) max_rpc_size 128 items a → p a) (do
      let i ← firstChunkSplit size 128 max_rpc_size items
      if (rest i).isEmpty then .ok (first i) else do
        let chunks ← partitionChunks shape sizeRest (rest i) 0 max_rpc_size
        .ok (build i chunks)) := by
  have hsplit := firstChunkSplit_guarded size p max_rpc_size 128 items hsize
  refine guarded_then _ hsplit (fun i _ => ?_)
  refine (rest_guarded max_rpc_size shape first build sizeRest (fun _ => True) (rest i) i
    (fun b hb => ?_)).succeeds (fun _ _ => trivial)
  obtain ⟨n,hn⟩ := hrest i b hb
  rw [hn]
  exact guarded_ok _ n

end Branches

section Plans

variable (lib : Libdeflate) (client : SmartClient) (max_rpc_size : Int64)
  (key : Key) (hint : Option KeyHint) (clientId : Int32)

section Additions

theorem addValues_guarded (hc : Compresses lib) (data : Option (List ValuePtr))
    (calls : List (List ValuePtr) → List Method) :
    NullGuarded (∀ v ∈ data.getD [], v ≠ none)
      (addValues lib client max_rpc_size key hint clientId data calls) := by
  rcases data with _ | _ | ⟨v,vs⟩
  · exact (guarded_ok _ _).congr (by simp)
  · exact (guarded_ok _ _).congr (by simp)
  · rw [addValues, addBase_eq lib client key clientId hc, copyValues_eq]
    have hpartition := partition_guarded _ _ max_rpc_size (vectorShape ValuePtr)
      (baseOf lib client key clientId) (v::vs) (fun v _ => estimateValueSize_guarded lib
        (client.effectiveClientId clientId) client.compression_threshold v)
    exact guarded_after _ _ (guarded_then _ hpartition (fun _ _ => ⟨_,rfl⟩))

theorem addElementWithWeight_guarded (hc : Compresses lib)
    (data : Option (List OrderedValuePtr)) :
    NullGuarded (∀ v ∈ data.getD [], v ≠ none)
      (addElementWithWeight lib client max_rpc_size key hint clientId data) := by
  rcases data with _ | _ | ⟨v,vs⟩
  · exact (guarded_ok _ _).congr (by simp)
  · exact (guarded_ok _ _).congr (by simp)
  · rw [addElementWithWeight, addBase_eq lib client key clientId hc, copyOrderedValues_eq]
    have hpartition := partition_guarded _ _ max_rpc_size (vectorShape OrderedValuePtr)
      (baseOf lib client key clientId) (v::vs) (fun v _ => estimateOrderedValueSize_guarded lib
        (client.effectiveClientId clientId) client.compression_threshold v)
    exact guarded_after _ _ (guarded_then _ hpartition (fun _ _ => ⟨_,rfl⟩))

theorem addElementHashMap_guarded (hc : Compresses lib) (keys : Option (List KeyPtr))
    (values : Option (List ValuePtr)) :
    NullGuarded (∀ k ∈ keys.getD [], k ≠ none)
      (addElementHashMap lib client max_rpc_size key hint clientId keys values) := by
  rcases keys with _ | _ | ⟨k,ks⟩
  · exact (guarded_ok _ _).congr (by simp)
  · exact (guarded_ok _ _).congr (by simp)
  · have hcopy := copyMap_guarded (some (zipValues (k::ks) (values.getD [])))
    rw [addElementHashMap, addBase_eq lib client key clientId hc]
    refine (guarded_then _ hcopy (fun entries hentries => ?_)).congr
      (zipValues_forall (· ≠ none) (k::ks) (values.getD []))
    have hkeys := hcopy.ok_iff.mp ⟨entries,hentries⟩
    rw [copyMap_eq _ hkeys] at hentries
    cases hentries
    have hpartition := partition_guarded _ _ max_rpc_size (mapShape KeyPtr)
      (baseOf lib client key clientId) (zipValues (k::ks) (values.getD []))
      (fun e _ => mapPairSize_guarded lib (client.effectiveClientId clientId)
        client.compression_threshold hc e)
    exact (guarded_then _ hpartition (fun _ _ => ⟨_,rfl⟩)).succeeds hkeys

theorem addElementOrderedMap_guarded (hc : Compresses lib)
    (keys : Option (List OrderedValuePtr)) (values : Option (List ValuePtr)) :
    NullGuarded (∀ k ∈ keys.getD [], k ≠ none)
      (addElementOrderedMap lib client max_rpc_size key hint clientId keys values) := by
  rcases keys with _ | _ | ⟨k,ks⟩
  · exact (guarded_ok _ _).congr (by simp)
  · exact (guarded_ok _ _).congr (by simp)
  · rw [addElementOrderedMap, addBase_eq lib client key clientId hc, copyOrderedValues_eq,
      copyValues_eq]
    have hpartition := partition_guarded _ _ max_rpc_size (mapShape OrderedValuePtr)
      (baseOf lib client key clientId) (zipValues (k::ks) (values.getD []))
      (fun e _ => orderedMapPairSize_guarded lib (client.effectiveClientId clientId)
        client.compression_threshold e)
    exact (guarded_then _ hpartition (fun _ _ => ⟨_,rfl⟩)).congr
      (zipValues_forall (· ≠ none) (k::ks) (values.getD []))

end Additions

section Creations

variable (ttl : Int64)

theorem createUnordered_guarded (type : UnorderedType) (vs : Option (List ValuePtr)) :
    NullGuarded (∀ v ∈ vs.getD [], v ≠ none)
      (createUnorderedContainerSmart lib client max_rpc_size key hint clientId ttl type vs) := by
  rw [createUnorderedContainerSmart, copyValues_eq]
  exact values_guarded _ _ max_rpc_size _ _ (vectorShape ValuePtr) (vs.getD [])
    (estimateValueSize_guarded lib (client.effectiveClientId clientId)
      client.compression_threshold)

theorem createOrderedSet_guarded (vs : Option (List OrderedValuePtr)) :
    NullGuarded (∀ v ∈ vs.getD [], v ≠ none)
      (createOrderedSet lib client max_rpc_size key hint clientId ttl vs) := by
  rw [createOrderedSet, copyOrderedValues_eq]
  exact values_guarded _ _ max_rpc_size _ _ (vectorShape OrderedValuePtr) (vs.getD [])
    (estimateOrderedValueSize_guarded lib (client.effectiveClientId clientId)
      client.compression_threshold)

theorem mapEntrySize_guarded (hc : Compresses lib) (cid : Int32) (e : KeyPtr × ValuePtr) :
    NullGuarded (e.1 ≠ none ∧ e.2 ≠ none) (mapEntrySize lib client cid e) :=
  guarded_bind _ (estimateKeySize_guarded lib cid _ hc e.1) (fun _ _ =>
    guarded_then _ (estimateValueSize_guarded lib cid _ e.2) (fun _ _ => ⟨_,rfl⟩))

theorem orderedMapEntrySize_guarded (cid : Int32) (e : OrderedMapEntry) :
    NullGuarded (e.key ≠ none ∧ e.value ≠ none) (orderedMapEntrySize lib client cid e) :=
  guarded_bind _ (estimateOrderedKeySize_guarded cid e.key) (fun _ _ =>
    guarded_then _ (estimateOrderedValueSize_guarded lib cid _ e.value) (fun _ _ => ⟨_,rfl⟩))

theorem createMap_guarded (hc : Compresses lib) (addresses : AddressOrder)
    (es : Option (List (KeyPtr × ValuePtr))) :
    NullGuarded ((∀ e ∈ es.getD [], e.1 ≠ none) ∧
        ∀ e, Examined (sizeOr (mapEntrySize lib client (client.effectiveClientId clientId)))
          max_rpc_size 128 (es.getD []) e → e.2 ≠ none)
      (createMap lib client max_rpc_size key hint clientId ttl addresses es) := by
  have hcopy := copyMap_guarded es
  refine guarded_bind _ hcopy (fun entries hentries => ?_)
  have hkeys := hcopy.ok_iff.mp ⟨entries,hentries⟩
  rw [copyMap_eq es hkeys] at hentries
  cases hentries
  refine (entries_guarded _ _ max_rpc_size (mapShape KeyPtr) _ _ (es.getD []) _ (es.getD []).drop
    (fun e _ => mapEntrySize_guarded lib client hc (client.effectiveClientId clientId) e)
    (fun i e he => ?_)).congr ?_
  · exact (mapPairSize_guarded lib _ _ hc e).succeeds (hkeys e (List.mem_of_mem_drop he))
  · exact forall₂_congr (fun e he =>
      and_iff_right (hkeys e (examined_mem max_rpc_size _ 128 _ e he)))

def copiedEntry (e : OrderedKeyPtr × OrderedValuePtr) : OrderedMapEntry :=
  ⟨e.1,e.2,e.1.map (fun k => ⟨k.weight,.bytes k.elem.data⟩)⟩

theorem copyOrderedMap_eq (data : Option (List (OrderedKeyPtr × OrderedValuePtr)))
    (h : ∀ e ∈ data.getD [], e.1 ≠ none) :
    copyOrderedMap data = .ok ((data.getD []).map copiedEntry) := by
  rw [copyOrderedMap, mapM_ok _ copiedEntry]
  rintro ⟨k,v⟩ he
  obtain ⟨k,rfl⟩ := Option.ne_none_iff_exists'.mp (h _ he)
  simp [copiedEntry, bind, Except.bind]

def orderedEntrySize (e : OrderedKeyPtr × OrderedValuePtr) : UInt64 :=
  sizeOr (orderedMapEntrySize lib client (client.effectiveClientId clientId)) ⟨e.1,e.2,none⟩

theorem createOrderedMap_guarded (addresses : AddressOrder)
    (es : Option (List (OrderedKeyPtr × OrderedValuePtr))) :
    NullGuarded ((∀ e ∈ es.getD [], e.1 ≠ none) ∧
        ∀ e, Examined (orderedEntrySize lib client clientId) max_rpc_size 128 (es.getD []) e →
          e.2 ≠ none)
      (createOrderedMap lib client max_rpc_size key hint clientId ttl addresses es) := by
  have hcopy := copyOrderedMap_guarded es
  refine guarded_bind _ hcopy (fun entries hentries => ?_)
  have hkeys := hcopy.ok_iff.mp ⟨entries,hentries⟩
  rw [copyOrderedMap_eq es hkeys] at hentries
  cases hentries
  have hcopied := examined_map (fun e : OrderedMapEntry => e.key ≠ none ∧ e.value ≠ none)
    max_rpc_size copiedEntry
    (sizeOr (orderedMapEntrySize lib client (client.effectiveClientId clientId))) 128 (es.getD [])
  refine (entries_guarded _ _ max_rpc_size (mapShape OrderedValuePtr) _ _
    ((es.getD []).map copiedEntry) _
    (fun i => (((es.getD []).map copiedEntry).drop i).map
      (fun e => (e.key_as_value,e.value.map (·.elem))))
    (fun e _ => orderedMapEntrySize_guarded lib client (client.effectiveClientId clientId) e)
    (fun i b hb => ?_)).congr (hcopied.trans ?_)
  · obtain ⟨entry,hentry,rfl⟩ := List.mem_map.mp hb
    obtain ⟨e,he,rfl⟩ := List.mem_map.mp (List.mem_of_mem_drop hentry)
    obtain ⟨k,hk⟩ := Option.ne_none_iff_exists'.mp (hkeys e he)
    exact (orderedMapPairSize_guarded lib _ _ _).succeeds (by simp [copiedEntry, hk])
  · exact forall₂_congr (fun e he =>
      and_iff_right (hkeys e (examined_mem max_rpc_size _ 128 _ e he)))

end Creations

/-- No null where the operation looks: none among the keys and the elements of
lists, and no null value among the entries that a creation examines for its
first request. -/
def NullsUnseen : Method → Prop
  | .createMap es _ => (∀ e ∈ es.getD [], e.1 ≠ none) ∧
      ∀ e, Examined (sizeOr (mapEntrySize lib client (client.effectiveClientId clientId)))
        max_rpc_size 128 (es.getD []) e → e.2 ≠ none
  | .createOrderedMap es _ => (∀ e ∈ es.getD [], e.1 ≠ none) ∧
      ∀ e, Examined (orderedEntrySize lib client clientId) max_rpc_size 128 (es.getD []) e →
        e.2 ≠ none
  | .addElementHashMap keys _ => ∀ k ∈ keys.getD [], k ≠ none
  | .addElementOrderedMap keys _ => ∀ k ∈ keys.getD [], k ≠ none
  | m => NoNull m

theorem smartPlan_guarded (hc : Compresses lib) (addresses : AddressOrder) (operation : Method) :
    NullGuarded (NullsUnseen lib client max_rpc_size clientId operation)
      (smartPlan lib client max_rpc_size key hint clientId addresses operation) := by
  have hvalues := addValues_guarded lib client max_rpc_size key hint clientId hc
  have hunordered := createUnordered_guarded lib client max_rpc_size key hint clientId
  cases operation with
  | createQueue vs ttl => exact guarded_map _ _ (hunordered ttl .QUEUE vs)
  | createList vs ttl => exact guarded_map _ _ (hunordered ttl .LIST vs)
  | createVector vs ttl => exact guarded_map _ _ (hunordered ttl .VECTOR vs)
  | createSet vs ttl => exact guarded_map _ _ (hunordered ttl .SET vs)
  | createOrderedSet vs ttl =>
    exact guarded_map _ _
      (createOrderedSet_guarded lib client max_rpc_size key hint clientId ttl vs)
  | createMap es ttl =>
    exact guarded_map _ _
      (createMap_guarded lib client max_rpc_size key hint clientId ttl hc addresses es)
  | createOrderedMap es ttl =>
    exact guarded_map _ _
      (createOrderedMap_guarded lib client max_rpc_size key hint clientId ttl addresses es)
  | addElementUnordered data | addElementToTail data | addElementToHead data
  | addElementToPosition data _ | addElementToPositionBefore data _
  | addElementToPositionAfter data _ => exact guarded_map _ _ (hvalues data _)
  | addElementWithWeight data =>
    exact guarded_map _ _
      (addElementWithWeight_guarded lib client max_rpc_size key hint clientId hc data)
  | addElementHashMap keys values =>
    exact guarded_map _ _
      (addElementHashMap_guarded lib client max_rpc_size key hint clientId hc keys values)
  | addElementOrderedMap keys values =>
    exact guarded_map _ _
      (addElementOrderedMap_guarded lib client max_rpc_size key hint clientId hc keys values)
  | _ => exact guarded_ok _ _

end Plans

end HurriCache.NullPlans
