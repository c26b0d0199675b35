import HurriCache.CreationPlans
import Mathlib.Data.List.Induction

/-!
# What a chunk counts

A splitter lets an element into the open chunk while the `size_t` sum of what
it starts from and the sizes so far stays within the limit; the first element
is let in unseen. As long as the elements fit in memory together no sum wraps
around, and a chunk of two elements or more is within the limit as numbers.
-/

set_option autoImplicit false

namespace HurriCache.ChunkBounds
open HurriCache.ClientTypes HurriCache.GreedyCut HurriCache.ChunkSplitters
open HurriCache.CreationPlans

section Counting

variable {A : Type} (n : A → UInt64)

def counted (block : List A) : ℕ := (block.map (fun a => (n a).toNat)).sum

theorem counted_append (front : List A) (a : A) :
    counted n (front++[a]) = counted n front+(n a).toNat := by
  simp [counted, List.sum_append]

theorem counted_cons (a : A) (rest : List A) :
    counted n (a::rest) = (n a).toNat+counted n rest := by
  simp [counted]

theorem counted_le (w : A → ℕ) (block : List A) (hw : ∀ a ∈ block, (n a).toNat ≤ w a+32) :
    counted n block ≤ (block.map w).sum+32*block.length := by
  induction block with
  | nil => exact Nat.zero_le _
  | cons a rest ih =>
    have ha := hw a List.mem_cons_self
    have hrest := ih (fun b hb => hw b (List.mem_cons_of_mem a hb))
    rw [counted_cons, List.map_cons, List.sum_cons, List.length_cons]
    omega

theorem counted_eq (w : A → ℕ) (extra : ℕ) (block : List A)
    (hw : ∀ a ∈ block, w a < 2^63 → (n a).toNat = w a+extra) (hsum : (block.map w).sum < 2^63) :
    counted n block = (block.map w).sum+extra*block.length := by
  induction block with
  | nil => rfl
  | cons a rest ih =>
    rw [List.map_cons, List.sum_cons] at hsum
    have ha := hw a List.mem_cons_self (by omega)
    have hrest := ih (fun b hb => hw b (List.mem_cons_of_mem a hb)) (by omega)
    rw [counted_cons, List.map_cons, List.sum_cons, List.length_cons, ha, hrest, Nat.mul_add]
    omega

theorem toNat_add_of_lt (a b : UInt64) (h : a.toNat+b.toNat < 2^64) :
    (a+b).toNat = a.toNat+b.toNat := by
  rw [UInt64.toNat_add]
  exact Nat.mod_eq_of_lt h

/-- By induction from the end: the sum of all elements but the last is within
the limit, or there is at most one of them. -/
theorem fitting_counted (w : A → ℕ) (base_size : UInt64) (max_rpc_size : Int64)
    (hbase : base_size.toNat < 2^34) (hmax : max_rpc_size.toUInt64.toNat < 2^34)
    (block : List A) (hw : ∀ a ∈ block, (n a).toNat ≤ w a+32) (hsum : (block.map w).sum < 2^63)
    (hfit : Fitting base_size (overflows n max_rpc_size) (addSize n) block) :
    (block.foldl (addSize n) base_size).toNat = base_size.toNat+counted n block ∧
      (2 ≤ block.length → base_size.toNat+counted n block ≤ max_rpc_size.toUInt64.toNat) := by
  induction block using List.reverseRecOn with
  | nil => exact ⟨rfl,fun h => absurd h (by simp)⟩
  | append_singleton front a ih =>
    have hfront : ∀ b ∈ front, (n b).toNat ≤ w b+32 :=
      fun b hb => hw b (List.mem_append_left [a] hb)
    have ha := hw a (List.mem_append_right front (List.mem_singleton_self a))
    rw [List.map_append, List.sum_append, List.map_singleton, List.sum_singleton] at hsum
    have hprefix := fitting_left _ _ _ front [a] hfit
    rcases ih hfront (by omega) hprefix with ⟨hfold,hwithin⟩
    have hcount := counted_le n w front hfront
    have hlt : base_size.toNat+counted n front+(n a).toNat < 2^64 := by
      by_cases hlen : 2 ≤ front.length
      · have := hwithin hlen
        omega
      · omega
    have hstep : ((front++[a]).foldl (addSize n) base_size).toNat =
        base_size.toNat+counted n (front++[a]) := by
      rw [List.foldl_append, List.foldl_cons, List.foldl_nil, addSize,
        toNat_add_of_lt _ _ (by rw [hfold]; exact hlt), hfold, counted_append]
      omega
    refine ⟨hstep,fun hlen => ?_⟩
    have hne : front ≠ [] := by
      rintro rfl
      exact absurd hlen (by simp)
    have hopen := hfit front a [] rfl hne
    rw [List.foldl_append, List.foldl_cons, List.foldl_nil, addSize] at hstep
    rw [overflows, decide_eq_false_iff_not, UInt64.lt_iff_toNat_lt, hstep] at hopen
    omega

theorem cutFrom_whole (base_size : UInt64) (max_rpc_size : Int64) (current as : List A) (s : UInt64)
    (hroom : s.toNat+counted n as ≤ max_rpc_size.toUInt64.toNat) :
    cutFrom base_size (overflows n max_rpc_size) (addSize n) current s as =
      if (current++as).isEmpty then [] else [current++as] := by
  induction as generalizing current s with
  | nil => rw [cutFrom, List.append_nil]
  | cons a as ih =>
    rw [counted_cons] at hroom
    have hadd : (s+n a).toNat = s.toNat+(n a).toNat :=
      toNat_add_of_lt s (n a) (by have := max_rpc_size.toUInt64.toNat_lt; omega)
    have hopen : overflows n max_rpc_size s a = false := by
      rw [overflows, decide_eq_false_iff_not, UInt64.lt_iff_toNat_lt, hadd]
      omega
    rw [cutFrom, hopen, Bool.and_false, if_neg Bool.false_ne_true,
      ih (current++[a]) (addSize n s a) (by rw [addSize, hadd]; omega), List.append_assoc]
    rfl

theorem blocksOf_whole (base_size : UInt64) (max_rpc_size : Int64) (data : List A)
    (hdata : data ≠ []) (hroom : base_size.toNat+counted n data ≤ max_rpc_size.toUInt64.toNat) :
    blocksOf n base_size max_rpc_size data = [data] := by
  rw [blocksOf, cut, cutFrom_whole n base_size max_rpc_size [] data base_size hroom,
    List.nil_append, if_neg (by simpa using hdata)]

end Counting

section Chunks

variable {A C : Type} (shape : ChunkShape A C) (view : List A → C)
  (size : A → Except Fault UInt64) (base_size : UInt64) (max_rpc_size : Int64)

theorem foldlM_sized (data : List A) (st last : Splitting C)
    (h : data.foldlM (splitStep shape size base_size max_rpc_size) st = .ok last) :
    ∀ a ∈ data, size a = .ok (sizeOr size a) := by
  induction data generalizing st with
  | nil =>
    intro a ha
    cases ha
  | cons a as ih =>
    rcases bind_eq_ok h with ⟨mid,hmid,hrest⟩
    rcases bind_eq_ok hmid with ⟨elem,helem,_⟩
    intro b hb
    rcases List.mem_cons.mp hb with rfl | hmem
    · exact sizeOr_eq size b ⟨elem,helem⟩
    · exact ih mid hrest b hmem

theorem chunk_block (hv : shape.Views view) (data : List A) (chunks : List C)
    (h : partitionChunks shape size data base_size max_rpc_size = .ok chunks) :
    ∀ c ∈ chunks, ∃ block, c = view block ∧ (∀ a ∈ block, size a = .ok (sizeOr size a)) ∧
      Fitting base_size (overflows (sizeOr size) max_rpc_size) (addSize (sizeOr size)) block := by
  rcases bind_eq_ok h with ⟨last,hlast,_⟩
  have hsized := foldlM_sized shape size base_size max_rpc_size data _ last hlast
  rw [partitionChunks_eq shape view hv size (sizeOr size) base_size max_rpc_size data hsized] at h
  cases h
  intro c hc
  rcases List.mem_map.mp hc with ⟨block,hblock,rfl⟩
  refine ⟨block,rfl,fun a ha => hsized a ?_,cut_fitting _ _ _ data block hblock⟩
  rw [← blocksOf_flatten (sizeOr size) base_size max_rpc_size data]
  exact List.mem_flatten_of_mem hblock ha

end Chunks

section FirstChunk

variable {A : Type} (size : A → Except Fault UInt64) (max_rpc_size : Int64)

/-- The elements of the first chunk have sizes; the next need not. -/
theorem firstChunkSplit_sized (s : UInt64) (items : List A) (i : ℕ)
    (h : firstChunkSplit size s max_rpc_size items = .ok i) :
    ∀ a ∈ items.take i, size a = .ok (sizeOr size a) := by
  induction items generalizing s i with
  | nil =>
    intro a ha
    rw [List.take_nil] at ha
    cases ha
  | cons item items ih =>
    rcases bind_eq_ok h with ⟨elem,helem,hrest⟩
    split at hrest
    · rcases bind_eq_ok hrest with ⟨j,hj,he⟩
      cases he
      intro a ha
      rcases List.mem_cons.mp ha with rfl | hmem
      · exact sizeOr_eq size a ⟨elem,helem⟩
      · exact ih _ j hj a hmem
    · cases hrest
      intro a ha
      cases ha

theorem firstChunkSplit_counted (w : A → ℕ) (s : UInt64) (hs : s.toNat < 2^34)
    (hmax : max_rpc_size.toUInt64.toNat < 2^34) (items : List A) (i : ℕ)
    (h : firstChunkSplit size s max_rpc_size items = .ok i)
    (hw : ∀ a ∈ items.take i, (sizeOr size a).toNat ≤ w a+32)
    (hsum : ((items.take i).map w).sum < 2^63) :
    i = 0 ∨ s.toNat+counted (sizeOr size) (items.take i) ≤ max_rpc_size.toUInt64.toNat := by
  induction items generalizing s i with
  | nil =>
    cases h
    exact Or.inl rfl
  | cons item items ih =>
    rcases bind_eq_ok h with ⟨elem,helem,hrest⟩
    split at hrest
    next hle =>
      rcases bind_eq_ok hrest with ⟨j,hj,he⟩
      cases he
      right
      have hsize : sizeOr size item = elem := by simp [sizeOr, helem]
      have hitem := hw item List.mem_cons_self
      rw [List.take_succ_cons, List.map_cons, List.sum_cons] at hsum
      have hadd : (s+elem).toNat = s.toNat+elem.toNat :=
        toNat_add_of_lt s elem (by rw [hsize] at hitem; omega)
      rw [UInt64.le_iff_toNat_le, hadd] at hle
      rw [List.take_succ_cons, counted_cons, hsize]
      rcases ih (s+elem) (by omega) j hj (fun a ha => hw a (List.mem_cons_of_mem item ha))
        (by omega) with rfl | hwithin
      · show s.toNat+(elem.toNat+0) ≤ _
        omega
      · omega
    next =>
      cases hrest
      exact Or.inl rfl

end FirstChunk

end HurriCache.ChunkBounds
