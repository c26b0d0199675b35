import HurriCache.ClientTypes
import HurriCache.PrefixOrder
import Mathlib.Data.Prod.Lex

/-!
# Order and equality of ordered keys

Keys compare as bytes over their common prefix and then by size. An ordered
key compares its weight first. Its equality is the one of the plain key that
it converts to, which does not see the weight.
-/

set_option autoImplicit false

namespace HurriCache.OrderedKeys
open HurriCache.ClientTypes HurriCache.PrefixOrder

def memcmp (a b : Bytes) (n : ℕ) : ℤ :=
  comparePrefix n (a.map UInt8.toNat) (b.map UInt8.toNat)

def keyLess (a b : Key) : Bool :=
  let cmp := memcmp a.data b.data (min a.size.toNat b.size.toNat)
  if cmp ≠ 0 then decide (cmp < 0) else decide (a.size < b.size)

def keyEq (lhs rhs : Key) : Bool :=
  lhs.size == rhs.size && memcmp lhs.data rhs.data lhs.size.toNat == 0

def orderedLess (a b : OrderedKey) : Bool :=
  if a.weight ≠ b.weight then decide (a.weight < b.weight) else keyLess a.elem b.elem

/-- `Ordered` declares no equality, so that of its base is found. -/
def orderedEq (lhs rhs : OrderedKey) : Bool := keyEq lhs.elem rhs.elem

section Keys

theorem key_size (k : Key) : k.size.toNat = k.data.length :=
  UInt32.toNat_ofNat_of_lt' k.size_lt

def byteValues (k : Key) : List ℕ := k.data.map UInt8.toNat

theorem byteValues_inj (a b : Key) : byteValues a = byteValues b ↔ a.data = b.data :=
  (List.map_injective_iff.mpr (fun _ _ h => UInt8.toNat_inj.mp h)).eq_iff

theorem keyLess_iff (a b : Key) : keyLess a b = true ↔ byteValues a < byteValues b := by
  have hlex := lt_iff_comparePrefix (byteValues a) (byteValues b)
  simp only [byteValues, List.length_map] at hlex
  rw [byteValues, byteValues, hlex]
  simp only [keyLess, memcmp, key_size, UInt32.lt_iff_toNat_lt]
  generalize comparePrefix (min a.data.length b.data.length) (a.data.map UInt8.toNat)
    (b.data.map UInt8.toNat) = cmp
  by_cases h : cmp = 0
  · rw [if_neg (not_not.mpr h), if_pos h, decide_eq_true_iff]
  · rw [if_pos h, if_neg h, decide_eq_true_iff]

theorem keyEq_iff (a b : Key) : keyEq a b = true ↔ a.data = b.data := by
  have hsize : a.size = b.size ↔ a.data.length = b.data.length := by
    rw [← UInt32.toNat_inj, key_size, key_size]
  rw [keyEq, Bool.and_eq_true, beq_iff_eq, beq_iff_eq, hsize, key_size, ← byteValues_inj]
  constructor
  · rintro ⟨hlen,hcmp⟩
    have hvalues : (byteValues a).length = (byteValues b).length := by
      simpa only [byteValues, List.length_map] using hlen
    refine (comparePrefix_length _ _ hvalues).mp ?_
    rw [byteValues, List.length_map]
    exact hcmp
  · intro h
    have hlen : (byteValues a).length = (byteValues b).length := congrArg List.length h
    have hcmp := (comparePrefix_length _ _ hlen).mpr h
    simp only [byteValues, List.length_map] at hlen hcmp
    exact ⟨hlen,hcmp⟩

end Keys

def rank (k : OrderedKey) : ℕ ×ₗ List ℕ := toLex (k.weight.toNat,byteValues k.elem)

theorem orderedLess_iff (a b : OrderedKey) : orderedLess a b = true ↔ rank a < rank b := by
  rw [rank, rank, Prod.Lex.toLex_lt_toLex, orderedLess]
  by_cases h : a.weight = b.weight
  · rw [if_neg (not_not.mpr h), keyLess_iff]
    simp [h]
  · have hne : a.weight.toNat ≠ b.weight.toNat := fun he => h (UInt64.toNat_inj.mp he)
    rw [if_pos h, decide_eq_true_iff, UInt64.lt_iff_toNat_lt]
    simp [hne]

theorem rank_eq_iff (a b : OrderedKey) :
    rank a = rank b ↔ a.weight = b.weight ∧ a.elem.data = b.elem.data := by
  rw [rank, rank, toLex_inj, Prod.mk.injEq, byteValues_inj, UInt64.toNat_inj]

def ExactlyOne (p q r : Prop) : Prop := (p ∧ ¬ q ∧ ¬ r) ∨ (¬ p ∧ q ∧ ¬ r) ∨ (¬ p ∧ ¬ q ∧ r)

structure Consistent (a b c : OrderedKey) : Prop where
  trichotomy : ExactlyOne (orderedLess a b = true) (orderedLess b a = true)
    (orderedEq a b = true)
  trans : orderedLess a b = true → orderedLess b c = true → orderedLess a c = true
  weights : orderedEq a b = true → a.weight = b.weight

theorem orderedLess_trans (a b c : OrderedKey) (hab : orderedLess a b = true)
    (hbc : orderedLess b c = true) : orderedLess a c = true :=
  (orderedLess_iff a c).mpr
    (lt_trans ((orderedLess_iff a b).mp hab) ((orderedLess_iff b c).mp hbc))

theorem orderedLess_trichotomy (a b : OrderedKey) :
    ExactlyOne (orderedLess a b = true) (orderedLess b a = true)
      (a.weight = b.weight ∧ a.elem.data = b.elem.data) := by
  rw [orderedLess_iff, orderedLess_iff, ← rank_eq_iff]
  rcases lt_trichotomy (rank a) (rank b) with h | h | h
  · exact Or.inl ⟨h,h.asymm,h.ne⟩
  · exact Or.inr (Or.inr ⟨h.not_lt,h.not_gt,h⟩)
  · exact Or.inr (Or.inl ⟨h.asymm,h,h.ne'⟩)

/-- Order and equality agree on a pair of keys unless they have equal bytes and
different weights. -/
theorem consistent_iff (a b c : OrderedKey) :
    Consistent a b c ↔ (a.elem.data = b.elem.data → a.weight = b.weight) := by
  have heq : orderedEq a b = true ↔ a.elem.data = b.elem.data := keyEq_iff a.elem b.elem
  constructor
  · intro h hdata
    exact h.weights (heq.mpr hdata)
  · intro h
    have hsame : orderedEq a b = true ↔ a.weight = b.weight ∧ a.elem.data = b.elem.data := by
      rw [heq]
      exact ⟨fun hdata => ⟨h hdata,hdata⟩,And.right⟩
    refine ⟨?_,orderedLess_trans a b c,fun he => h (heq.mp he)⟩
    rw [hsame]
    exact orderedLess_trichotomy a b

theorem weight_unseen :
    orderedLess ⟨1,⟨[],by decide⟩⟩ ⟨2,⟨[],by decide⟩⟩ = true ∧
      orderedEq ⟨1,⟨[],by decide⟩⟩ ⟨2,⟨[],by decide⟩⟩ = true ∧
      ¬ Consistent ⟨1,⟨[],by decide⟩⟩ ⟨2,⟨[],by decide⟩⟩ ⟨2,⟨[],by decide⟩⟩ := by
  refine ⟨by decide,by decide,fun h => ?_⟩
  exact absurd (h.weights (by decide)) (by decide)

end HurriCache.OrderedKeys
