import HurriCache.SmartOperations

/-!
# What the smart operations plan

A plan is the call itself, the calls that an addition makes from its chunks, or
a creation and the calls made from the chunks of its rest. Each builder says
which, with the chunks that its splitter has cut.
-/

set_option autoImplicit false

namespace HurriCache.PlanShapes
open HurriCache.ClientTypes HurriCache.PayloadCompression HurriCache.StandaloneCalls
open HurriCache.ChunkSplitters HurriCache.SmartOperations

section Plans

variable (lib : Libdeflate) (client : SmartClient) (max_rpc_size : Int64)
  (key : Key) (hint : Option KeyHint) (clientId : Int32)

section Additions

/-- What an addition is: nothing, or a call for every method that its chunks
make. The chunks are cut behind the bytes reserved for the key. -/
inductive Added {A C : Type} (shape : ChunkShape A C) (size : A → Except Fault UInt64)
    (data : List A) (calls : List C → List Method) : AddPlan → Prop where
  | nothing : Added shape size data calls (.immediate 0)
  | chunked (base : UInt64) (chunks : List C) (hbase : addBase lib client key clientId = .ok base)
      (hchunks : partitionChunks shape size data base max_rpc_size = .ok chunks) :
    Added shape size data calls
      (.pipeline ((calls chunks).map (dispatch client key hint clientId)))

theorem added_map {A C : Type} (shape : ChunkShape A C) (size : A → Except Fault UInt64)
    (data : List A) (call : C → Method) (base : UInt64) (chunks : List C)
    (hbase : addBase lib client key clientId = .ok base)
    (hchunks : partitionChunks shape size data base max_rpc_size = .ok chunks) :
    Added lib client max_rpc_size key hint clientId shape size data (fun c => c.map call)
      (.pipeline (chunks.map (fun chunk => dispatch client key hint clientId (call chunk)))) := by
  have hadded : Added lib client max_rpc_size key hint clientId shape size data
      (fun c => c.map call)
      (.pipeline ((chunks.map call).map (dispatch client key hint clientId))) :=
    .chunked base chunks hbase hchunks
  rwa [List.map_map] at hadded

theorem addValues_added (data : Option (List ValuePtr))
    (calls : List (List ValuePtr) → List Method) (plan : AddPlan)
    (h : addValues lib client max_rpc_size key hint clientId data calls = .ok plan) :
    Added lib client max_rpc_size key hint clientId (vectorShape ValuePtr)
      (estimateValueSize lib (client.effectiveClientId clientId) client.compression_threshold)
      (copyValues data) calls plan := by
  unfold addValues at h
  split at h
  · cases h
    exact .nothing
  · cases h
    exact .nothing
  · obtain ⟨base,hbase,h⟩ := bind_eq_ok h
    obtain ⟨chunks,hchunks,h⟩ := bind_eq_ok h
    cases h
    exact .chunked base chunks hbase hchunks

theorem addElementWithWeight_added (data : Option (List OrderedValuePtr)) (plan : AddPlan)
    (h : addElementWithWeight lib client max_rpc_size key hint clientId data = .ok plan) :
    Added lib client max_rpc_size key hint clientId (vectorShape OrderedValuePtr)
      (estimateOrderedValueSize lib (client.effectiveClientId clientId)
        client.compression_threshold) (copyOrderedValues data)
      (fun c => c.map (fun chunk => .addElementWithWeight (some chunk))) plan := by
  unfold addElementWithWeight at h
  split at h
  · cases h
    exact .nothing
  · cases h
    exact .nothing
  · obtain ⟨base,hbase,h⟩ := bind_eq_ok h
    obtain ⟨chunks,hchunks,h⟩ := bind_eq_ok h
    cases h
    exact added_map lib client max_rpc_size key hint clientId _ _ _ _ base chunks hbase hchunks

theorem addElementHashMap_added (container_keys : Option (List KeyPtr))
    (container_values : Option (List ValuePtr)) (plan : AddPlan)
    (h : addElementHashMap lib client max_rpc_size key hint clientId container_keys
      container_values = .ok plan) :
    ∃ entries, Added lib client max_rpc_size key hint clientId (mapShape KeyPtr)
      (mapPairSize lib (client.effectiveClientId clientId) client.compression_threshold) entries
      (fun c => c.map (fun chunk => .addElementHashMap (some chunk.keys) (some chunk.values)))
      plan := by
  unfold addElementHashMap at h
  split at h
  · cases h
    exact ⟨[],.nothing⟩
  · cases h
    exact ⟨[],.nothing⟩
  · obtain ⟨entries,_,h⟩ := bind_eq_ok h
    obtain ⟨base,hbase,h⟩ := bind_eq_ok h
    obtain ⟨chunks,hchunks,h⟩ := bind_eq_ok h
    cases h
    exact ⟨entries,
      added_map lib client max_rpc_size key hint clientId _ _ _ _ base chunks hbase hchunks⟩

theorem addElementOrderedMap_added (container_keys : Option (List OrderedValuePtr))
    (container_values : Option (List ValuePtr)) (plan : AddPlan)
    (h : addElementOrderedMap lib client max_rpc_size key hint clientId container_keys
      container_values = .ok plan) :
    ∃ entries, Added lib client max_rpc_size key hint clientId (mapShape OrderedValuePtr)
      (orderedMapPairSize lib (client.effectiveClientId clientId) client.compression_threshold)
      entries
      (fun c => c.map (fun chunk => .addElementOrderedMap (some chunk.keys) (some chunk.values)))
      plan := by
  unfold addElementOrderedMap at h
  split at h
  · cases h
    exact ⟨[],.nothing⟩
  · cases h
    exact ⟨[],.nothing⟩
  · obtain ⟨base,hbase,h⟩ := bind_eq_ok h
    obtain ⟨chunks,hchunks,h⟩ := bind_eq_ok h
    cases h
    exact ⟨_,added_map lib client max_rpc_size key hint clientId _ _ _ _ base chunks hbase hchunks⟩

end Additions

section Creations

/-- What a creation is: one call, and for elements that did not go with it a
call for each chunk of the rest, of which there is at least one. -/
inductive Created {A C : Type} (shape : ChunkShape A C) (size : A → Except Fault UInt64)
    (rest : List A) (first : Method) (call : C → Method) : CreatePlan → Prop where
  | whole : Created shape size rest first call ⟨dispatch client key hint clientId first,none⟩
  | split (chunks : List C) (hne : chunks ≠ [])
      (hchunks : partitionChunks shape size rest 0 max_rpc_size = .ok chunks) :
    Created shape size rest first call ⟨dispatch client key hint clientId first,
      some (remainderCalls client key clientId (chunks.map call))⟩

theorem created_of_branch {A C : Type} (shape : ChunkShape A C)
    (hpush : ∀ c a, shape.isEmpty (shape.push_back c a) = false)
    (size : A → Except Fault UInt64) (rest : List A) (first : Method) (call : C → Method)
    (plan : CreatePlan)
    (h : (if rest.isEmpty then .ok ⟨dispatch client key hint clientId first,none⟩
      else partitionChunks shape size rest 0 max_rpc_size >>= fun chunks =>
        .ok ⟨dispatch client key hint clientId first,
          some (remainderCalls client key clientId (chunks.map call))⟩) = .ok plan) :
    Created client max_rpc_size key hint clientId shape size rest first call plan := by
  by_cases hrest : rest.isEmpty = true
  · rw [if_pos hrest] at h
    cases h
    exact .whole
  · rw [if_neg hrest] at h
    obtain ⟨chunks,hchunks,he⟩ := bind_eq_ok h
    cases he
    have hne := partitionChunks_ne_nil shape hpush size 0 max_rpc_size rest (by
      rintro rfl
      exact hrest rfl) chunks hchunks
    exact .split chunks hne hchunks

variable (ttl : Int64)

theorem createUnordered_created (type : UnorderedType) (initialValue : Option (List ValuePtr))
    (plan : CreatePlan)
    (h : createUnorderedContainerSmart lib client max_rpc_size key hint clientId ttl type
      initialValue = .ok plan) :
    ∃ split, firstChunkSplit (estimateValueSize lib (client.effectiveClientId clientId)
        client.compression_threshold) 128 max_rpc_size (copyValues initialValue) = .ok split ∧
      Created client max_rpc_size key hint clientId (vectorShape ValuePtr)
        (estimateValueSize lib (client.effectiveClientId clientId) client.compression_threshold)
        ((copyValues initialValue).drop split)
        (type.create (firstPtr ((copyValues initialValue).take split)) (client.effectiveTtl ttl))
        type.remainder plan := by
  obtain ⟨split,hsplit,h⟩ := bind_eq_ok h
  exact ⟨split,hsplit,
    created_of_branch client max_rpc_size key hint clientId _ (vectorShape_push _) _ _ _ _ plan h⟩

theorem createOrderedSet_created (initialValue : Option (List OrderedValuePtr)) (plan : CreatePlan)
    (h : createOrderedSet lib client max_rpc_size key hint clientId ttl initialValue = .ok plan) :
    ∃ split, firstChunkSplit (estimateOrderedValueSize lib (client.effectiveClientId clientId)
        client.compression_threshold) 128 max_rpc_size (copyOrderedValues initialValue) =
          .ok split ∧
      Created client max_rpc_size key hint clientId (vectorShape OrderedValuePtr)
        (estimateOrderedValueSize lib (client.effectiveClientId clientId)
          client.compression_threshold) ((copyOrderedValues initialValue).drop split)
        (.createOrderedSet (firstPtr ((copyOrderedValues initialValue).take split))
          (client.effectiveTtl ttl))
        (fun chunk => .addElementWithWeight (some chunk)) plan := by
  obtain ⟨split,hsplit,h⟩ := bind_eq_ok h
  exact ⟨split,hsplit,
    created_of_branch client max_rpc_size key hint clientId _ (vectorShape_push _) _ _ _ _ plan h⟩

theorem createMap_created (addresses : AddressOrder)
    (initialValue : Option (List (KeyPtr × ValuePtr))) (plan : CreatePlan)
    (h : createMap lib client max_rpc_size key hint clientId ttl addresses initialValue =
      .ok plan) :
    ∃ (entries : List (KeyPtr × ValuePtr)) (split : ℕ),
      firstChunkSplit (mapEntrySize lib client (client.effectiveClientId clientId)) 128
        max_rpc_size entries = .ok split ∧
      Created client max_rpc_size key hint clientId (mapShape KeyPtr)
        (mapPairSize lib (client.effectiveClientId clientId) client.compression_threshold)
        (entries.drop split)
        (.createMap (firstPtr (addresses.order _ (entries.take split))) (client.effectiveTtl ttl))
        (fun chunk => .addElementHashMap (some chunk.keys) (some chunk.values)) plan := by
  obtain ⟨entries,_,h⟩ := bind_eq_ok h
  obtain ⟨split,hsplit,h⟩ := bind_eq_ok h
  exact ⟨entries,split,hsplit,
    created_of_branch client max_rpc_size key hint clientId _ (mapShape_push _) _ _ _ _ plan h⟩

theorem createOrderedMap_created (addresses : AddressOrder)
    (initialValue : Option (List (OrderedKeyPtr × OrderedValuePtr))) (plan : CreatePlan)
    (h : createOrderedMap lib client max_rpc_size key hint clientId ttl addresses initialValue =
      .ok plan) :
    ∃ (entries : List OrderedMapEntry) (split : ℕ),
      firstChunkSplit (orderedMapEntrySize lib client (client.effectiveClientId clientId)) 128
        max_rpc_size entries = .ok split ∧
      Created client max_rpc_size key hint clientId (mapShape OrderedValuePtr)
        (orderedMapPairSize lib (client.effectiveClientId clientId) client.compression_threshold)
        ((entries.drop split).map (fun e => (e.key_as_value,e.value.map (·.elem))))
        (.createOrderedMap (firstPtr (addresses.order _ ((entries.take split).map
          (fun e => (e.key,e.value))))) (client.effectiveTtl ttl))
        (fun chunk => .addElementOrderedMap (some chunk.keys) (some chunk.values)) plan := by
  obtain ⟨entries,_,h⟩ := bind_eq_ok h
  obtain ⟨split,hsplit,h⟩ := bind_eq_ok h
  exact ⟨entries,split,hsplit,
    created_of_branch client max_rpc_size key hint clientId _ (mapShape_push _) _ _ _ _ plan h⟩

end Creations

inductive Planned : Plan → Prop where
  | forward (method : Method) : Planned (.forward (dispatch client key hint clientId method))
  | add {A C : Type} (shape : ChunkShape A C) (size : A → Except Fault UInt64) (data : List A)
      (calls : List C → List Method) (plan : AddPlan)
      (h : Added lib client max_rpc_size key hint clientId shape size data calls plan) :
    Planned (.add plan)
  | create {A C : Type} (shape : ChunkShape A C) (size : A → Except Fault UInt64) (rest : List A)
      (first : Method) (call : C → Method) (plan : CreatePlan)
      (h : Created client max_rpc_size key hint clientId shape size rest first call plan) :
    Planned (.create plan)

theorem smartPlan_planned (addresses : AddressOrder) (operation : Method) (plan : Plan)
    (h : smartPlan lib client max_rpc_size key hint clientId addresses operation = .ok plan) :
    Planned lib client max_rpc_size key hint clientId plan := by
  have hvalues : ∀ data calls, (addValues lib client max_rpc_size key hint clientId data
      calls).map Plan.add = .ok plan → Planned lib client max_rpc_size key hint clientId plan := by
    intro data calls hp
    obtain ⟨a,ha,rfl⟩ := map_eq_ok hp
    exact .add _ _ _ _ a
      (addValues_added lib client max_rpc_size key hint clientId data calls a ha)
  have hunordered : ∀ ttl type vs, (createUnorderedContainerSmart lib client max_rpc_size key hint
      clientId ttl type vs).map Plan.create = .ok plan →
      Planned lib client max_rpc_size key hint clientId plan := by
    intro ttl type vs hp
    obtain ⟨c,hc,rfl⟩ := map_eq_ok hp
    obtain ⟨_,_,hcreated⟩ := createUnordered_created lib client max_rpc_size key hint clientId ttl
      type vs c hc
    exact .create _ _ _ _ _ c hcreated
  cases operation with
  | createQueue vs ttl => exact hunordered ttl .QUEUE vs h
  | createList vs ttl => exact hunordered ttl .LIST vs h
  | createVector vs ttl => exact hunordered ttl .VECTOR vs h
  | createSet vs ttl => exact hunordered ttl .SET vs h
  | createOrderedSet vs ttl =>
    obtain ⟨c,hc,rfl⟩ := map_eq_ok h
    obtain ⟨_,_,hcreated⟩ := createOrderedSet_created lib client max_rpc_size key hint clientId ttl
      vs c hc
    exact .create _ _ _ _ _ c hcreated
  | createMap es ttl =>
    obtain ⟨c,hc,rfl⟩ := map_eq_ok h
    obtain ⟨_,_,_,hcreated⟩ := createMap_created lib client max_rpc_size key hint clientId ttl
      addresses es c hc
    exact .create _ _ _ _ _ c hcreated
  | createOrderedMap es ttl =>
    obtain ⟨c,hc,rfl⟩ := map_eq_ok h
    obtain ⟨_,_,_,hcreated⟩ := createOrderedMap_created lib client max_rpc_size key hint clientId
      ttl addresses es c hc
    exact .create _ _ _ _ _ c hcreated
  | addElementUnordered data => exact hvalues data _ h
  | addElementToTail data => exact hvalues data _ h
  | addElementToHead data => exact hvalues data _ h
  | addElementToPosition data pos => exact hvalues data _ h
  | addElementToPositionBefore data pivot => exact hvalues data _ h
  | addElementToPositionAfter data pivot => exact hvalues data _ h
  | addElementWithWeight data =>
    obtain ⟨a,ha,rfl⟩ := map_eq_ok h
    exact .add _ _ _ _ a
      (addElementWithWeight_added lib client max_rpc_size key hint clientId data a ha)
  | addElementHashMap keys values =>
    obtain ⟨a,ha,rfl⟩ := map_eq_ok h
    obtain ⟨_,hadded⟩ := addElementHashMap_added lib client max_rpc_size key hint clientId keys
      values a ha
    exact .add _ _ _ _ a hadded
  | addElementOrderedMap keys values =>
    obtain ⟨a,ha,rfl⟩ := map_eq_ok h
    obtain ⟨_,hadded⟩ := addElementOrderedMap_added lib client max_rpc_size key hint clientId keys
      values a ha
    exact .add _ _ _ _ a hadded
  | _ =>
    cases h
    exact .forward _

end Plans

end HurriCache.PlanShapes
