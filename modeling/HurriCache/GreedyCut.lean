import Mathlib.Data.List.Basic

/-!
# Cutting a list into blocks

A greedy cutter walks over a list with an open block and a measure of it. It
closes the block when the next element no longer fits and opens a new one
with that element. Whatever decides the closing, the blocks are non-empty
and their concatenation is the list.
-/

set_option autoImplicit false

namespace HurriCache.GreedyCut

variable {A S : Type} (start : S) (closes : S → A → Bool) (advance : S → A → S)

def cutFrom (current : List A) (s : S) : List A → List (List A)
  | [] => if current.isEmpty then [] else [current]
  | a::as =>
    if !current.isEmpty && closes s a then current::cutFrom [a] (advance start a) as
    else cutFrom (current++[a]) (advance s a) as

def cut (as : List A) : List (List A) := cutFrom start closes advance [] start as

theorem cutFrom_flatten (current : List A) (s : S) (as : List A) :
    (cutFrom start closes advance current s as).flatten = current++as := by
  induction as generalizing current s with
  | nil =>
    cases current with
    | nil => rfl
    | cons c cs => simp [cutFrom]
  | cons a as ih =>
    rw [cutFrom]
    split
    · simp [ih]
    · simp [ih]

theorem cutFrom_ne_nil (current : List A) (s : S) (as : List A) :
    ∀ block ∈ cutFrom start closes advance current s as, block ≠ [] := by
  induction as generalizing current s with
  | nil =>
    intro block hb
    cases current with
    | nil => simp [cutFrom] at hb
    | cons c cs => simp_all [cutFrom]
  | cons a as ih =>
    intro block hb
    rw [cutFrom] at hb
    split at hb
    next hc =>
      rcases List.mem_cons.mp hb with rfl | hrest
      · intro hnil
        simp [hnil] at hc
      · exact ih [a] _ block hrest
    next => exact ih (current++[a]) _ block hb

theorem cut_flatten (as : List A) : (cut start closes advance as).flatten = as := by
  simpa [cut] using cutFrom_flatten start closes advance [] start as

theorem cut_ne_nil (as : List A) : ∀ block ∈ cut start closes advance as, block ≠ [] :=
  cutFrom_ne_nil start closes advance [] start as

theorem cut_eq_nil_iff (as : List A) : cut start closes advance as = [] ↔ as = [] := by
  constructor
  · intro h
    have hf := cut_flatten start closes advance as
    rw [h] at hf
    exact hf.symm
  · rintro rfl
    rfl

/-- No element of the block but the first closed it. -/
def Fitting (block : List A) : Prop :=
  ∀ b a rest, block = b++a::rest → b ≠ [] → closes (b.foldl advance start) a = false

theorem fitting_append (current : List A) (a : A)
    (hcurrent : Fitting start closes advance current)
    (ha : current ≠ [] → closes (current.foldl advance start) a = false) :
    Fitting start closes advance (current++[a]) := by
  intro b c rest h hb
  rcases List.eq_nil_or_concat rest with rfl | ⟨front,last,rfl⟩
  · obtain ⟨rfl,hac⟩ := List.append_inj' h rfl
    cases hac
    exact ha hb
  · rw [List.concat_eq_append, ← List.cons_append, ← List.append_assoc] at h
    exact hcurrent b c front (List.append_inj' h rfl).1 hb

theorem cutFrom_fitting (current as : List A) (hc : Fitting start closes advance current) :
    ∀ block ∈ cutFrom start closes advance current (current.foldl advance start) as,
      Fitting start closes advance block := by
  induction as generalizing current with
  | nil =>
    intro block hb
    cases current with
    | nil => simp [cutFrom] at hb
    | cons c cs =>
      cases List.mem_singleton.mp hb
      exact hc
  | cons a as ih =>
    intro block hb
    rw [cutFrom] at hb
    split at hb
    next =>
      rcases List.mem_cons.mp hb with rfl | hrest
      · exact hc
      · refine ih [a] ?_ block hrest
        exact fitting_append start closes advance [] a (fun b c rest h => by simp at h)
          (fun h => absurd rfl h)
    next hopen =>
      have ha : current ≠ [] → closes (current.foldl advance start) a = false := by
        intro hne
        simpa [hne] using hopen
      refine ih (current++[a]) (fitting_append start closes advance current a hc ha) block ?_
      rwa [List.foldl_append]

theorem cut_fitting (as : List A) :
    ∀ block ∈ cut start closes advance as, Fitting start closes advance block :=
  cutFrom_fitting start closes advance [] as (fun b a rest h => by simp at h)

theorem fitting_left (front rest : List A) (h : Fitting start closes advance (front++rest)) :
    Fitting start closes advance front := by
  intro b a more hsplit hb
  exact h b a (more++rest) (by rw [hsplit, List.append_assoc, List.cons_append]) hb

theorem cutFrom_through (current front rest : List A)
    (hfit : Fitting start closes advance (current++front)) :
    cutFrom start closes advance current (current.foldl advance start) (front++rest) =
      cutFrom start closes advance (current++front) ((current++front).foldl advance start)
        rest := by
  induction front generalizing current with
  | nil => rw [List.append_nil, List.nil_append]
  | cons a as ih =>
    have hopen : (!current.isEmpty && closes (current.foldl advance start) a) = false := by
      by_cases hne : current = []
      · rw [hne]
        rfl
      · rw [hfit current a as rfl hne, Bool.and_false]
    have hrest := ih (current++[a]) (by rwa [List.append_assoc])
    rw [List.cons_append, cutFrom, hopen, if_neg Bool.false_ne_true]
    rwa [List.foldl_append, List.append_assoc] at hrest

theorem cutFrom_head (current as : List A) (s : S) (hne : current ≠ []) :
    ∃ more blocks, cutFrom start closes advance current s as = (current++more)::blocks := by
  induction as generalizing current s with
  | nil =>
    refine ⟨[],[],?_⟩
    rw [cutFrom, if_neg (by simpa using hne), List.append_nil]
  | cons a as ih =>
    rw [cutFrom]
    split
    · exact ⟨[],_,by rw [List.append_nil]⟩
    · obtain ⟨more,blocks,h⟩ := ih (current++[a]) (advance s a) (by simp)
      exact ⟨a::more,blocks,by rw [h, List.append_assoc, List.singleton_append]⟩

theorem cutFrom_closed (current as block more : List A) (a : A) (before after : List (List A))
    (h : cutFrom start closes advance current (current.foldl advance start) as =
      before++block::(a::more)::after) : closes (block.foldl advance start) a = true := by
  induction as generalizing current before with
  | nil =>
    have hlen := congrArg List.length h
    rw [cutFrom] at hlen
    split at hlen
    · simp at hlen
    · simp only [List.length_append, List.length_cons, List.length_nil] at hlen
      omega
  | cons b bs ih =>
    rw [cutFrom] at h
    split at h
    next hclosed =>
      cases before with
      | nil =>
        obtain ⟨rest,blocks,hhead⟩ := cutFrom_head start closes advance [b] bs (advance start b)
          (List.cons_ne_nil b [])
        rw [hhead, List.nil_append, List.cons.injEq, List.cons.injEq] at h
        obtain ⟨rfl,hfirst,_⟩ := h
        cases hfirst
        rw [Bool.and_eq_true] at hclosed
        exact hclosed.2
      | cons first before =>
        rw [List.cons_append, List.cons.injEq] at h
        exact ih [b] before h.2
    next =>
      refine ih (current++[b]) before ?_
      rwa [List.foldl_append]

theorem cut_closed (as block more : List A) (a : A) (before after : List (List A))
    (h : cut start closes advance as = before++block::(a::more)::after) :
    closes (block.foldl advance start) a = true :=
  cutFrom_closed start closes advance [] as block more a before after h

theorem cut_head (front rest : List A) (hne : front ≠ [])
    (hfit : Fitting start closes advance front) :
    ∃ more blocks, cut start closes advance (front++rest) = (front++more)::blocks := by
  obtain ⟨more,blocks,h⟩ := cutFrom_head start closes advance front rest
    (front.foldl advance start) hne
  refine ⟨more,blocks,?_⟩
  rw [cut, ← h]
  exact cutFrom_through start closes advance [] front rest hfit

/-- The first block has an element of some kind exactly when one is reached
before an element closes the block. -/
theorem head_exists_iff (p : A → Prop) (as block : List A) (blocks : List (List A))
    (h : cut start closes advance as = block::blocks) :
    (∃ a ∈ block, p a) ↔ ∃ before a after, as = before++a::after ∧ p a ∧
      Fitting start closes advance (before++[a]) := by
  constructor
  · rintro ⟨a,ha,hp⟩
    obtain ⟨before,after,rfl⟩ := List.append_of_mem ha
    have hflat := cut_flatten start closes advance as
    have hfit := cut_fitting start closes advance as (before++a::after) (by rw [h]; simp)
    refine ⟨before,a,after++blocks.flatten,?_,hp,?_⟩
    · rw [← hflat, h, List.flatten_cons, List.append_assoc, List.cons_append]
    · refine fitting_left start closes advance (before++[a]) after ?_
      rwa [List.append_assoc, List.singleton_append]
  · rintro ⟨before,a,after,rfl,hp,hfit⟩
    obtain ⟨more,rest,hcut⟩ := cut_head start closes advance (before++[a]) after (by simp) hfit
    rw [List.append_assoc, List.singleton_append, h] at hcut
    cases hcut
    exact ⟨a,by simp,hp⟩

theorem cutFrom_map {B : Type} (f : B → A) (current : List B) (s : S) (bs : List B) :
    cutFrom start closes advance (current.map f) s (bs.map f) =
      (cutFrom start (fun s b => closes s (f b)) (fun s b => advance s (f b))
        current s bs).map (List.map f) := by
  induction bs generalizing current s with
  | nil =>
    cases current with
    | nil => rfl
    | cons c cs => rfl
  | cons b bs ih =>
    have hempty : (current.map f).isEmpty = current.isEmpty := by
      cases current <;> rfl
    simp only [List.map_cons, cutFrom, hempty]
    split
    · simpa using ih [b] (advance start (f b))
    · simpa using ih (current++[b]) (advance s (f b))

theorem cut_map {B : Type} (f : B → A) (bs : List B) :
    cut start closes advance (bs.map f) =
      (cut start (fun s b => closes s (f b)) (fun s b => advance s (f b)) bs).map
        (List.map f) := by
  simpa [cut] using cutFrom_map start closes advance f [] start bs

end HurriCache.GreedyCut
