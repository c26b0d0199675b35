import HurriCache.Deadlines
import HurriCache.MapAlignment

/-!
# Greedy splitting

As numbers, with no sum reaching `2^64`, a splitter forms non-empty chunks of
consecutive elements. A chunk of two or more is within the limit, and a chunk
followed by another could not have taken its first element. The first chunk of
an operation that opens with a plain request is cut the same way, except that
it may be empty.
-/

set_option autoImplicit false

namespace HurriCache.GreedySplitting
open HurriCache.ClientTypes HurriCache.PayloadCompression HurriCache.GreedyCut
open HurriCache.ChunkSplitters HurriCache.ChunkBounds HurriCache.MapAlignment HurriCache.Deadlines

section Counting

variable {A : Type} (n : A → UInt64)

theorem counted_both (front rest : List A) :
    counted n (front++rest) = counted n front+counted n rest := by
  rw [counted, List.map_append, List.sum_append]
  rfl

theorem counted_flatten_le (before mid after : List (List A)) :
    counted n mid.flatten ≤ counted n (before++(mid++after)).flatten := by
  rw [List.flatten_append, List.flatten_append, counted_both, counted_both]
  omega

theorem foldl_addSize (block : List A) (s : UInt64) (h : s.toNat+counted n block < 2^64) :
    (block.foldl (addSize n) s).toNat = s.toNat+counted n block := by
  induction block generalizing s with
  | nil => rfl
  | cons a rest ih =>
    rw [counted_cons] at h ⊢
    have hadd : (addSize n s a).toNat = s.toNat+(n a).toNat :=
      toNat_add_of_lt s (n a) (by omega)
    rw [List.foldl_cons, ih (addSize n s a) (by omega), hadd, Nat.add_assoc]

theorem overflows_iff (max_rpc_size : Int64) (s : UInt64) (block : List A) (a : A)
    (h : s.toNat+counted n block+(n a).toNat < 2^64) :
    overflows n max_rpc_size (block.foldl (addSize n) s) a = true ↔
      max_rpc_size.toUInt64.toNat < s.toNat+counted n block+(n a).toNat := by
  have hfold := foldl_addSize n block s (by omega)
  rw [overflows, decide_eq_true_iff, UInt64.lt_iff_toNat_lt,
    toNat_add_of_lt _ _ (by rw [hfold]; exact h), hfold]

end Counting

section Blocks

variable {A : Type} (n : A → UInt64) (base_size : UInt64) (max_rpc_size : Int64)

structure Greedy (data : List A) (blocks : List (List A)) : Prop where
  nonempty : ∀ block ∈ blocks, block ≠ []
  exact : blocks.flatten = data
  within : ∀ block ∈ blocks, 2 ≤ block.length →
    ((base_size.toNat+counted n block : ℕ) : ℤ) ≤ max_rpc_size.toInt
  maximal : ∀ before block a more after, blocks = before++block::(a::more)::after →
    max_rpc_size.toInt < ((base_size.toNat+counted n block+(n a).toNat : ℕ) : ℤ)

theorem blocksOf_greedy (data : List A) (hmax : 0 < max_rpc_size.toInt)
    (hsum : base_size.toNat+counted n data < 2^64) :
    Greedy n base_size max_rpc_size data (blocksOf n base_size max_rpc_size data) := by
  have hflat := blocksOf_flatten n base_size max_rpc_size data
  refine ⟨blocksOf_ne_nil n base_size max_rpc_size data,hflat,?_,?_⟩
  · intro block hblock hlen
    obtain ⟨before,after,hsplit⟩ := List.append_of_mem hblock
    have hle := counted_flatten_le n before [block] after
    rw [List.singleton_append, ← hsplit, hflat, List.flatten_singleton] at hle
    have hfit := cut_fitting _ _ _ data block hblock
    rcases List.eq_nil_or_concat block with rfl | ⟨front,a,rfl⟩
    · exact absurd hlen (by simp)
    rw [List.concat_eq_append] at hfit hle hlen ⊢
    have hne : front ≠ [] := by
      rintro rfl
      exact absurd hlen (by simp)
    rw [counted_append] at hle ⊢
    have hopen := mt (overflows_iff n max_rpc_size base_size front a (by omega)).mpr
      (Bool.eq_false_iff.mp (hfit front a [] rfl hne))
    rw [← toUInt64_toInt max_rpc_size (le_of_lt hmax)]
    omega
  · intro before block a more after hsplit
    have hle := counted_flatten_le n before [block,a::more] after
    rw [List.cons_append, List.singleton_append, ← hsplit, hflat, List.flatten_cons,
      List.flatten_singleton, counted_both, counted_cons] at hle
    have hclosed := cut_closed _ _ _ data block more a before after hsplit
    rw [overflows_iff n max_rpc_size base_size block a (by omega)] at hclosed
    rw [← toUInt64_toInt max_rpc_size (le_of_lt hmax)]
    omega

/-- The chunks hold the blocks of a greedy split, seen through `keys`. -/
def ExactSplit {C E : Type} (run : Except Fault (List C)) (view : List A → C)
    (keys : C → List E) (key : A → E) (data : List A) : Prop :=
  ∃ blocks, run = .ok (blocks.map view) ∧ Greedy n base_size max_rpc_size data blocks ∧
    (∀ block ∈ blocks, keys (view block) = block.map key) ∧
    (∀ chunk ∈ blocks.map view, keys chunk ≠ []) ∧
    (blocks.map view).flatMap keys = data.map key

theorem partition_exact {C E : Type} (shape : ChunkShape A C) (view : List A → C)
    (hv : shape.Views view) (keys : C → List E) (key : A → E)
    (hkeys : ∀ block, keys (view block) = block.map key) (size : A → Except Fault UInt64)
    (data : List A) (hsize : ∀ a ∈ data, size a = .ok (n a)) (hmax : 0 < max_rpc_size.toInt)
    (hsum : base_size.toNat+counted n data < 2^64) :
    ExactSplit n base_size max_rpc_size (partitionChunks shape size data base_size max_rpc_size)
      view keys key data := by
  have hgreedy := blocksOf_greedy n base_size max_rpc_size data hmax hsum
  refine ⟨_,partitionChunks_eq shape view hv size n base_size max_rpc_size data hsize,hgreedy,
    fun block _ => hkeys block,?_,?_⟩
  · intro chunk hchunk
    obtain ⟨block,hblock,rfl⟩ := List.mem_map.mp hchunk
    rw [hkeys]
    exact fun hnil => hgreedy.nonempty block hblock (List.map_eq_nil_iff.mp hnil)
  · rw [List.flatMap_map, funext hkeys, List.flatMap_def, ← List.map_flatten, hgreedy.exact]

structure SplitPoint (items : List A) (i : ℕ) : Prop where
  bound : i ≤ items.length
  within : ((base_size.toNat+counted n (items.take i) : ℕ) : ℤ) ≤ max_rpc_size.toInt
  maximal : ∀ a rest, items.drop i = a::rest →
    max_rpc_size.toInt < ((base_size.toNat+counted n (items.take i)+(n a).toNat : ℕ) : ℤ)

theorem splitPoint_cons (item : A) (items : List A) (i : ℕ)
    (hadd : (base_size+n item).toNat = base_size.toNat+(n item).toNat)
    (h : SplitPoint n (base_size+n item) max_rpc_size items i) :
    SplitPoint n base_size max_rpc_size (item::items) (i+1) := by
  obtain ⟨hbound,hwithin,hmaximal⟩ := h
  rw [hadd] at hwithin hmaximal
  refine ⟨Nat.succ_le_succ hbound,?_,fun a rest hdrop => ?_⟩
  · rw [List.take_succ_cons, counted_cons, ← Nat.add_assoc]
    exact hwithin
  · rw [List.take_succ_cons, counted_cons, ← Nat.add_assoc]
    exact hmaximal a rest hdrop

theorem firstChunkSplit_point (size : A → Except Fault UInt64) (items : List A)
    (hsize : ∀ a ∈ items, size a = .ok (n a))
    (hsum : base_size.toNat+counted n items < 2^64)
    (hbase : (base_size.toNat : ℤ) ≤ max_rpc_size.toInt) :
    ∃ i, firstChunkSplit size base_size max_rpc_size items = .ok i ∧
      SplitPoint n base_size max_rpc_size items i := by
  induction items generalizing base_size with
  | nil => exact ⟨0,rfl,le_refl 0,hbase,fun a rest h => by cases h⟩
  | cons item items ih =>
    have hitem := hsize item List.mem_cons_self
    have hrest := fun a ha => hsize a (List.mem_cons_of_mem item ha)
    rw [counted_cons] at hsum
    have hadd := toNat_add_of_lt base_size (n item) (by omega)
    have hlimit := toUInt64_toInt max_rpc_size (by omega)
    rw [firstChunkSplit, hitem]
    by_cases hfit : base_size+n item ≤ max_rpc_size.toUInt64
    · have hle := UInt64.le_iff_toNat_le.mp hfit
      rw [hadd] at hle
      obtain ⟨i,hi,hpoint⟩ := ih (base_size+n item) hrest (by omega) (by omega)
      refine ⟨i+1,?_,splitPoint_cons n base_size max_rpc_size item items i hadd hpoint⟩
      simp only [bind, Except.bind, if_pos hfit, hi]
    · have hlt := mt UInt64.le_iff_toNat_le.mpr hfit
      rw [hadd] at hlt
      refine ⟨0,by simp only [bind, Except.bind, if_neg hfit],Nat.zero_le _,hbase,?_⟩
      intro a rest hdrop
      cases hdrop
      rw [List.take_zero, ← hlimit]
      show ((_ : ℕ) : ℤ) < ((base_size.toNat+0+(n item).toNat : ℕ) : ℤ)
      omega

theorem splitPoint_le (items : List A) (i j : ℕ) (hi : SplitPoint n base_size max_rpc_size items i)
    (hj : SplitPoint n base_size max_rpc_size items j) : j ≤ i := by
  by_contra hlt
  have hlen := hj.bound
  obtain ⟨a,rest,hdrop⟩ := List.exists_cons_of_ne_nil
    (show items.drop i ≠ [] by rw [Ne, List.drop_eq_nil_iff]; omega)
  have hover := hi.maximal a rest hdrop
  have htake : items.take j = items.take i++a::(rest.take (j-i-1)) := by
    have hsplit : j = i+((j-i-1)+1) := by omega
    rw [hsplit, List.take_add, hdrop, List.take_succ_cons]
    congr 3
    omega
  have hwithin := hj.within
  rw [htake, counted_both, counted_cons] at hwithin
  omega

end Blocks

/-- The two vector splitters, the two map splitters, the loops they are made
of with any other size, and the single cut. -/
theorem splitting_exact (base_size : UInt64) (max_rpc_size : Int64)
    (hmax : 0 < max_rpc_size.toInt) :
    (∀ (lib : Libdeflate) (clientId threshold : Int32) (n : ValuePtr → UInt64)
      (data : List ValuePtr),
      (∀ v ∈ data, estimateValueSize lib clientId threshold v = .ok (n v)) →
      base_size.toNat+counted n data < 2^64 →
      ExactSplit n base_size max_rpc_size
        (partitionValueChunks lib base_size clientId threshold max_rpc_size data) id id id data) ∧
    (∀ (lib : Libdeflate) (clientId threshold : Int32) (n : OrderedValuePtr → UInt64)
      (data : List OrderedValuePtr),
      (∀ v ∈ data, estimateOrderedValueSize lib clientId threshold v = .ok (n v)) →
      base_size.toNat+counted n data < 2^64 →
      ExactSplit n base_size max_rpc_size
        (partitionOrderedValueChunks lib base_size clientId threshold max_rpc_size data)
        id id id data) ∧
    (∀ (lib : Libdeflate) (clientId threshold : Int32) (n : KeyPtr × ValuePtr → UInt64)
      (entries : List (KeyPtr × ValuePtr)),
      (∀ e ∈ entries, mapPairSize lib clientId threshold e = .ok (n e)) →
      base_size.toNat+counted n entries < 2^64 →
      ExactSplit n base_size max_rpc_size
        (partitionMapChunks lib base_size clientId threshold max_rpc_size entries)
        mapChunk (·.keys) (·.1) entries) ∧
    (∀ (lib : Libdeflate) (clientId threshold : Int32) (n : OrderedValuePtr × ValuePtr → UInt64)
      (entries : List (OrderedValuePtr × ValuePtr)),
      (∀ e ∈ entries, orderedMapPairSize lib clientId threshold e = .ok (n e)) →
      base_size.toNat+counted n entries < 2^64 →
      ExactSplit n base_size max_rpc_size
        (partitionOrderedMapChunks lib base_size clientId threshold max_rpc_size entries)
        mapChunk (·.keys) (·.1) entries) ∧
    (∀ (A : Type) (n : A → UInt64) (data : List A), base_size.toNat+counted n data < 2^64 →
      ExactSplit n base_size max_rpc_size
        (partitionChunks (vectorShape A) (fun v => .ok (n v)) data base_size max_rpc_size)
        id id id data) ∧
    (∀ (K : Type) (n : K × ValuePtr → UInt64) (entries : List (K × ValuePtr)),
      base_size.toNat+counted n entries < 2^64 →
      ExactSplit n base_size max_rpc_size
        (partitionChunks (mapShape K) (fun e => .ok (n e)) entries base_size max_rpc_size)
        mapChunk (·.keys) (·.1) entries) ∧
    ∀ (A : Type) (size : A → Except Fault UInt64) (n : A → UInt64) (items : List A),
      (∀ a ∈ items, size a = .ok (n a)) → base_size.toNat+counted n items < 2^64 →
      (base_size.toNat : ℤ) ≤ max_rpc_size.toInt →
      ∃ i, firstChunkSplit size base_size max_rpc_size items = .ok i ∧
        SplitPoint n base_size max_rpc_size items i ∧
        ∀ j, SplitPoint n base_size max_rpc_size items j → j = i := by
  have hvector := fun (A : Type) (n : A → UInt64) (size : A → Except Fault UInt64)
      (data : List A) (hsize : ∀ v ∈ data, size v = .ok (n v)) =>
    partition_exact n base_size max_rpc_size (vectorShape A) id (vectorShape_views A) id id
      (fun block => (List.map_id block).symm) size data hsize hmax
  have hmap := fun (K : Type) (n : K × ValuePtr → UInt64)
      (size : K × ValuePtr → Except Fault UInt64) (entries : List (K × ValuePtr))
      (hsize : ∀ e ∈ entries, size e = .ok (n e)) =>
    partition_exact n base_size max_rpc_size (mapShape K) mapChunk (mapShape_views K) (·.keys)
      (·.1) keys_mapChunk size entries hsize hmax
  refine ⟨fun _ _ _ n data hsize => hvector _ n _ data hsize,
    fun _ _ _ n data hsize => hvector _ n _ data hsize,
    fun _ _ _ n entries hsize => hmap _ n _ entries hsize,
    fun _ _ _ n entries hsize => hmap _ n _ entries hsize,
    fun _ n data => hvector _ n _ data (fun _ _ => rfl),
    fun _ n entries => hmap _ n _ entries (fun _ _ => rfl),?_⟩
  intro A size n items hsize hsum hbase
  obtain ⟨i,hi,hpoint⟩ := firstChunkSplit_point n base_size max_rpc_size size items hsize hsum hbase
  refine ⟨i,hi,hpoint,fun j hj => ?_⟩
  exact Nat.le_antisymm (splitPoint_le n base_size max_rpc_size items i j hpoint hj)
    (splitPoint_le n base_size max_rpc_size items j i hj hpoint)

theorem splitting_exact_tens :
    ExactSplit (fun _ => 10) 10 30
      (partitionChunks (vectorShape ℕ) (fun _ => .ok 10) [1,2,3] 10 30) id id id [1,2,3] ∧
    ∃ i, firstChunkSplit (fun _ => .ok 10) 10 30 [1,2,3] = .ok i ∧
      SplitPoint (fun _ => 10) 10 30 [1,2,3] i ∧
      ∀ j, SplitPoint (fun _ => 10) 10 30 [1,2,3] j → j = i :=
  ⟨(splitting_exact 10 30 (by decide)).2.2.2.2.1 ℕ (fun _ => 10) [1,2,3] (by decide),
    (splitting_exact 10 30 (by decide)).2.2.2.2.2.2 ℕ (fun _ => .ok 10) (fun _ => 10) [1,2,3]
      (fun _ _ => rfl) (by decide) (by decide)⟩

end HurriCache.GreedySplitting
