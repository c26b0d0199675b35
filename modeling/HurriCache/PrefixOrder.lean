import Mathlib.Data.List.Lex
import Mathlib.Order.Lattice

/-!
# Comparing lists over a common prefix

Two lists are compared element by element as far as both go. The first
difference decides, and between a list and a longer one that starts with it
the length does. This is the lexicographic order.
-/

set_option autoImplicit false

namespace HurriCache.PrefixOrder

variable {A : Type} [LinearOrder A]

/-- The sign of the first difference among the first `n` elements. -/
def comparePrefix : ℕ → List A → List A → ℤ
  | n+1, a::as, b::bs => if a = b then comparePrefix n as bs else if a < b then -1 else 1
  | _, _, _ => 0

theorem comparePrefix_eq_zero_iff (n : ℕ) (as bs : List A) (ha : n ≤ as.length)
    (hb : n ≤ bs.length) : comparePrefix n as bs = 0 ↔ as.take n = bs.take n := by
  induction n generalizing as bs with
  | zero => simp [comparePrefix]
  | succ n ih =>
    cases as with
    | nil => simp at ha
    | cons a as =>
      cases bs with
      | nil => simp at hb
      | cons b bs =>
        have hrest := ih as bs (Nat.le_of_succ_le_succ ha) (Nat.le_of_succ_le_succ hb)
        rw [comparePrefix]
        by_cases h : a = b
        · simp [h, hrest]
        · by_cases hlt : a < b
          · simp [h, hlt]
          · simp [h, hlt]

theorem comparePrefix_length (as bs : List A) (hlen : as.length = bs.length) :
    comparePrefix as.length as bs = 0 ↔ as = bs := by
  rw [comparePrefix_eq_zero_iff _ as bs le_rfl (le_of_eq hlen), List.take_length, hlen,
    List.take_length]

theorem lt_iff_comparePrefix (as bs : List A) :
    as < bs ↔ if comparePrefix (min as.length bs.length) as bs = 0 then as.length < bs.length
      else comparePrefix (min as.length bs.length) as bs < 0 := by
  induction as generalizing bs with
  | nil =>
    cases bs with
    | nil => simp [comparePrefix]
    | cons b bs => simp [comparePrefix]
  | cons a as ih =>
    cases bs with
    | nil => simp [comparePrefix]
    | cons b bs =>
      have hmin : min (a::as).length (b::bs).length = min as.length bs.length+1 := by
        simp only [List.length_cons]
        omega
      rw [hmin, List.cons_lt_cons_iff, comparePrefix]
      by_cases h : a = b
      · subst h
        simp [ih bs]
      · by_cases hlt : a < b
        · simp [h, hlt]
        · simp [h, hlt]

end HurriCache.PrefixOrder
