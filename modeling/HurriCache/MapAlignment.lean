import HurriCache.ChunkBounds
import HurriCache.InsertRequests

/-!
# Keys and values of map chunks

A map splitter pushes every key and leaves out null values, so behind a null
value the two lists of a chunk are out of step. The number of values then
falls short of the number of keys by the nulls of the chunk and never catches
up. The check for equal numbers, which a node's client makes before it sends,
lets through exactly the chunks without a null.
-/

set_option autoImplicit false

namespace HurriCache.MapAlignment
open HurriCache.ClientTypes HurriCache.PayloadCompression HurriCache.WireMessages
open HurriCache.MessageBuilders HurriCache.InsertRequests HurriCache.ChunkSplitters
open HurriCache.CreationPlans HurriCache.ChunkBounds

section Chunks

variable {K : Type}

def Passes (chunk : MapChunk K) : Prop := chunk.keys.length = chunk.values.length

def HasValue (e : K × ValuePtr) : Prop := e.2 ≠ none

theorem mapChunk_cons_some (k : K) (v : Value) (block : List (K × ValuePtr)) :
    mapChunk ((k,some v)::block) =
      ⟨k::(mapChunk block).keys,some v::(mapChunk block).values⟩ := by
  simp [mapChunk]

theorem mapChunk_cons_none (k : K) (block : List (K × ValuePtr)) :
    mapChunk ((k,none)::block) = ⟨k::(mapChunk block).keys,(mapChunk block).values⟩ := by
  simp [mapChunk]

theorem values_le_keys (block : List (K × ValuePtr)) :
    (mapChunk block).values.length ≤ (mapChunk block).keys.length := by
  simpa [mapChunk] using List.length_filterMap_le (fun e : K × ValuePtr => e.2.map some) block

theorem passes_iff (block : List (K × ValuePtr)) :
    Passes (mapChunk block) ↔ ∀ e ∈ block, HasValue e := by
  induction block with
  | nil => simp [Passes, mapChunk]
  | cons e block ih =>
    obtain ⟨k,v⟩ := e
    cases v with
    | some v =>
      rw [Passes, mapChunk_cons_some, List.length_cons, List.length_cons, Nat.add_right_cancel_iff,
        ← Passes, ih]
      simp [HasValue]
    | none =>
      have hle := values_le_keys block
      have hnot : ¬ Passes (mapChunk ((k,none)::block)) := by
        rw [Passes, mapChunk_cons_none]
        exact fun he => Nat.not_succ_le_self _ (le_of_eq_of_le he hle)
      simp [hnot, HasValue]

theorem zip_mapChunk (block : List (K × ValuePtr)) (h : ∀ e ∈ block, HasValue e) :
    (mapChunk block).keys.zip (mapChunk block).values = block := by
  induction block with
  | nil => rfl
  | cons e block ih =>
    obtain ⟨k,v⟩ := e
    cases v with
    | some v =>
      have hrest := ih (fun e he => h e (List.mem_cons_of_mem _ he))
      rw [mapChunk_cons_some, List.zip_cons_cons, hrest]
    | none => exact absurd rfl (h _ List.mem_cons_self)

theorem keys_mapChunk (block : List (K × ValuePtr)) : (mapChunk block).keys = block.map (·.1) :=
  rfl

/-- The keys of the chunks in order are those of the entries. A chunk that
passes pairs its keys with the values of the entries it was cut from, and
entries without a null are paired in full. -/
structure Aligned (entries : List (K × ValuePtr)) (chunks : List (MapChunk K)) : Prop where
  keys : chunks.flatMap (·.keys) = entries.map (·.1)
  paired : ∀ before c after, chunks = before++c::after → Passes c →
    (entries.drop (before.flatMap (·.keys)).length).take c.keys.length = c.keys.zip c.values
  whole : (∀ e ∈ entries, HasValue e) → (∀ c ∈ chunks, Passes c) ∧
    chunks.flatMap (fun c => c.keys.zip c.values) = entries

theorem keys_flatMap (blocks : List (List (K × ValuePtr))) :
    (blocks.map mapChunk).flatMap (·.keys) = blocks.flatten.map (·.1) := by
  rw [List.flatMap_map, List.map_flatten, List.flatMap_def]
  rfl

theorem blocks_aligned (blocks : List (List (K × ValuePtr))) :
    Aligned blocks.flatten (blocks.map mapChunk) where
  keys := keys_flatMap blocks
  paired := by
    intro before c after hsplit hpasses
    obtain ⟨front,rest,rfl,rfl,hrest⟩ := List.map_eq_append_iff.mp hsplit
    obtain ⟨block,back,rfl,rfl,rfl⟩ := List.map_eq_cons_iff.mp hrest
    have hlen : ((front.map mapChunk).flatMap (·.keys)).length = front.flatten.length := by
      rw [keys_flatMap, List.length_map]
    rw [hlen, List.flatten_append, List.drop_left, List.flatten_cons, keys_mapChunk,
      List.length_map, List.take_left, ← keys_mapChunk]
    exact (zip_mapChunk block ((passes_iff block).mp hpasses)).symm
  whole := by
    intro hfull
    have hblock : ∀ block ∈ blocks, ∀ e ∈ block, HasValue e :=
      fun block hb e he => hfull e (List.mem_flatten_of_mem hb he)
    constructor
    · intro c hc
      obtain ⟨block,hb,rfl⟩ := List.mem_map.mp hc
      exact (passes_iff block).mpr (hblock block hb)
    · induction blocks with
      | nil => rfl
      | cons block blocks ih =>
        have hrest := ih (fun e he => hfull e (by simp [he]))
          (fun b hb => hblock b (List.mem_cons_of_mem _ hb))
        rw [List.map_cons, List.flatMap_cons, hrest,
          zip_mapChunk block (hblock block List.mem_cons_self), List.flatten_cons]

theorem partition_aligned (size : K × ValuePtr → Except Fault UInt64) (base_size : UInt64)
    (max_rpc_size : Int64) (entries : List (K × ValuePtr)) (chunks : List (MapChunk K))
    (h : partitionChunks (mapShape K) size entries base_size max_rpc_size = .ok chunks) :
    Aligned entries chunks := by
  obtain ⟨last,hlast,_⟩ := bind_eq_ok h
  have hsized := foldlM_sized (mapShape K) size base_size max_rpc_size entries _ last hlast
  rw [partitionChunks_eq (mapShape K) mapChunk (mapShape_views K) size (sizeOr size) base_size
    max_rpc_size entries hsized] at h
  cases h
  have haligned := blocks_aligned (blocksOf (sizeOr size) base_size max_rpc_size entries)
  rwa [blocksOf_flatten] at haligned

end Chunks

theorem addEntries_refused_iff {K M : Type} (lib : Libdeflate) (key : Key) (hint : Option KeyHint)
    (clientId : Int32) (type : ContainerKind) (keyElement : K → Except Fault M)
    (withKeys : AddToRequest → List M → AddToRequest) (chunk : MapChunk K) (k : KeyMessage)
    (hk : buildKeyProto lib key hint clientId defaultThreshold = .ok k) :
    addEntriesRequest lib key hint clientId type keyElement withKeys (some chunk.keys)
      (some chunk.values) = .ok none ↔ ¬ Passes chunk := by
  rw [addEntriesRequest, hk, Passes]
  by_cases hlen : chunk.keys.length = chunk.values.length
  · have hsent : ¬ (do
        let ks ← chunk.keys.mapM keyElement
        let vs ← chunk.values.mapM (plainElement lib clientId)
        .ok (some (withKeys { key := k, type := some type, value_unordered := vs } ks)) :
        Except Fault (Option AddToRequest)) = .ok none := by
      intro h
      obtain ⟨ks,_,h⟩ := bind_eq_ok h
      obtain ⟨vs,_,h⟩ := bind_eq_ok h
      cases h
    simpa [bind, Except.bind, hlen] using hsent
  · simp [bind, Except.bind, hlen]

/-- Both map splitters, and every splitter of their kind. -/
theorem map_chunks_aligned :
    (∀ (lib : Libdeflate) (base_size : UInt64) (clientId threshold : Int32) (max_rpc_size : Int64)
      (entries : List (KeyPtr × ValuePtr)) (chunks : List (MapChunk KeyPtr)),
      partitionMapChunks lib base_size clientId threshold max_rpc_size entries = .ok chunks →
      Aligned entries chunks) ∧
    (∀ (lib : Libdeflate) (base_size : UInt64) (clientId threshold : Int32) (max_rpc_size : Int64)
      (entries : List (OrderedValuePtr × ValuePtr)) (chunks : List (MapChunk OrderedValuePtr)),
      partitionOrderedMapChunks lib base_size clientId threshold max_rpc_size entries =
        .ok chunks → Aligned entries chunks) ∧
    ∀ (K : Type) (size : K × ValuePtr → Except Fault UInt64) (base_size : UInt64)
      (max_rpc_size : Int64) (entries : List (K × ValuePtr)) (chunks : List (MapChunk K)),
      partitionChunks (mapShape K) size entries base_size max_rpc_size = .ok chunks →
      Aligned entries chunks :=
  ⟨fun _ _ _ _ _ entries chunks h => partition_aligned _ _ _ entries chunks h,
    fun _ _ _ _ _ entries chunks h => partition_aligned _ _ _ entries chunks h,
    fun _ size base_size max_rpc_size entries chunks h =>
      partition_aligned size base_size max_rpc_size entries chunks h⟩

theorem map_chunks_aligned_null :
    Aligned [(0,some (.int 1)),(1,some (.int 2)),(2,none),(3,some (.int 4))]
      [⟨[0,1],[some (.int 1),some (.int 2)]⟩,⟨[2,3],[some (.int 4)]⟩] :=
  map_chunks_aligned.2.2 ℕ (fun _ => .ok 10) 0 20 _ _ rfl

end HurriCache.MapAlignment
