import Mathlib.Data.List.Basic

/-!
# Folding a list in blocks

A loop may read a list in blocks of one width, keep its own register and
finish with narrower blocks. If reading a block is folding its elements into
what the register shows, no grouping of the elements shows in the result.
-/

set_option autoImplicit false

namespace HurriCache.BlockFold

variable {A R S : Type} (step : R → List A → R)

/-- The number of blocks is fixed before the loop starts. -/
def readBlocks (w : ℕ) : ℕ → List A → R → List A × R
  | 0, l, r => (l,r)
  | n+1, l, r => readBlocks w n (l.drop w) (step r (l.take w))

def readBlock (w : ℕ) (l : List A) (r : R) : List A × R :=
  if w ≤ l.length then (l.drop w,step r (l.take w)) else (l,r)

/-- The register shows the fold of what has been read. -/
def Folds (f : S → A → S) (shown : R → S) : Prop :=
  ∀ r block, shown (step r block) = block.foldl f (shown r)

section Fold

variable (f : S → A → S) (shown : R → S) (h : Folds step f shown)
include h

theorem fold_split (w : ℕ) (l : List A) (r : R) :
    (l.drop w).foldl f (shown (step r (l.take w))) = l.foldl f (shown r) := by
  rw [h, ← List.foldl_append, List.take_append_drop]

theorem readBlocks_fold (w n : ℕ) (l : List A) (r : R) :
    (readBlocks step w n l r).1.foldl f (shown (readBlocks step w n l r).2) =
      l.foldl f (shown r) := by
  induction n generalizing l r with
  | zero => rfl
  | succ n ih =>
    rw [readBlocks, ih]
    exact fold_split step f shown h w l r

theorem readBlock_fold (w : ℕ) (l : List A) (r : R) :
    (readBlock step w l r).1.foldl f (shown (readBlock step w l r).2) = l.foldl f (shown r) := by
  unfold readBlock
  by_cases hw : w ≤ l.length
  · rw [if_pos hw]
    exact fold_split step f shown h w l r
  · rw [if_neg hw]

theorem pieces_fold (pieces : List (List A)) (r : R) :
    shown (pieces.foldl step r) = pieces.flatten.foldl f (shown r) := by
  induction pieces generalizing r with
  | nil => rfl
  | cons piece pieces ih =>
    rw [List.foldl_cons, ih, h, List.flatten_cons, List.foldl_append]

end Fold

theorem readBlocks_length (w n : ℕ) (l : List A) (r : R) :
    (readBlocks step w n l r).1.length = l.length-w*n := by
  induction n generalizing l r with
  | zero => rfl
  | succ n ih =>
    rw [readBlocks, ih, List.length_drop, Nat.mul_succ]
    omega

theorem readBlocks_lt (w : ℕ) (hw : 0 < w) (l : List A) (r : R) :
    (readBlocks step w (l.length/w) l r).1.length < w := by
  have hdiv := Nat.div_add_mod l.length w
  have hmod := Nat.mod_lt l.length hw
  rw [readBlocks_length]
  omega

theorem readBlock_lt (w : ℕ) (l : List A) (r : R) (hl : l.length < 2*w) :
    (readBlock step w l r).1.length < w := by
  unfold readBlock
  by_cases hw : w ≤ l.length
  · rw [if_pos hw, List.length_drop]
    omega
  · rw [if_neg hw]
    exact Nat.not_le.mp hw

end HurriCache.BlockFold
