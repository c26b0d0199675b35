import HurriCache.WireMessages

/-!
# How long a field is

Bounds on the length of a varint and of a length-delimited field. Both grow
with what they encode.
-/

set_option autoImplicit false

namespace HurriCache.WireSizes
open HurriCache.WireMessages

theorem varintSize_le_iff (n k : ℕ) (hk : 0 < k) : varintSize n ≤ k ↔ n < 2^(7*k) := by
  unfold varintSize
  by_cases hn : n = 0
  · subst hn
    simp only [Nat.log2_zero, Nat.zero_div, Nat.zero_add, Nat.two_pow_pos, iff_true]
    exact hk
  · have hdiv : n.log2/7 < k ↔ n.log2 < k*7 := Nat.div_lt_iff_lt_mul (by decide)
    rw [Nat.add_one_le_iff, hdiv, Nat.log2_lt hn, Nat.mul_comm]

theorem varintSize_pos (n : ℕ) : 1 ≤ varintSize n := Nat.le_add_left 1 _

theorem varintSize_mono (m n : ℕ) (h : m ≤ n) : varintSize m ≤ varintSize n :=
  (varintSize_le_iff m _ (varintSize_pos n)).mpr
    (lt_of_le_of_lt h ((varintSize_le_iff n _ (varintSize_pos n)).mp (le_refl _)))

theorem varintSize_short (n : ℕ) (h : n < 128) : varintSize n = 1 :=
  le_antisymm ((varintSize_le_iff n 1 (by decide)).mpr (by omega)) (varintSize_pos n)

theorem varintSize_five (n : ℕ) (h : n < 34359738368) : varintSize n ≤ 5 :=
  (varintSize_le_iff n 5 (by decide)).mpr (by omega)

theorem five_le_varintSize (n : ℕ) (h : 268435456 ≤ n) : 5 ≤ varintSize n := by
  by_contra hlt
  have := (varintSize_le_iff n 4 (by decide)).mp (by omega)
  omega

theorem varintSize_ten (n : ℕ) (h : n < 1180591620717411303424) : varintSize n ≤ 10 :=
  (varintSize_le_iff n 10 (by decide)).mpr (by omega)

theorem varintField_uint32_le (n : UInt32) : varintField n.toNat ≤ 6 := by
  have hlt := n.toNat_lt
  have := varintSize_five n.toNat (by omega)
  simp only [varintField]
  omega

theorem varintField_uint64_le (n : UInt64) : varintField n.toNat ≤ 11 := by
  have hlt := n.toNat_lt
  have := varintSize_ten n.toNat (by omega)
  simp only [varintField]
  omega

theorem lengthDelimited_mono (m n : ℕ) (h : m ≤ n) : lengthDelimited m ≤ lengthDelimited n := by
  have := varintSize_mono m n h
  simp only [lengthDelimited]
  omega

theorem lengthDelimited_short (n : ℕ) (h : n < 128) : lengthDelimited n = n+2 := by
  simp only [lengthDelimited, varintSize_short n h]
  omega

theorem le_lengthDelimited (n : ℕ) : n+2 ≤ lengthDelimited n := by
  have := varintSize_pos n
  simp only [lengthDelimited]
  omega

theorem lengthDelimited_le_five (n : ℕ) (h : n < 34359738368) : lengthDelimited n ≤ n+6 := by
  have := varintSize_five n h
  simp only [lengthDelimited]
  omega

theorem five_le_lengthDelimited (n : ℕ) (h : 268435456 ≤ n) : n+6 ≤ lengthDelimited n := by
  have := five_le_varintSize n h
  simp only [lengthDelimited]
  omega

theorem lengthDelimited_le (n : ℕ) (h : n < 1180591620717411303424) :
    lengthDelimited n ≤ n+11 := by
  have := varintSize_ten n h
  simp only [lengthDelimited]
  omega

theorem implicitField_le (n : ℕ) (h : n < 34359738368) : implicitField n ≤ 6 := by
  have := varintSize_five n h
  unfold implicitField varintField
  split <;> omega

theorem implicitField_pos (n : ℕ) (h : n ≠ 0) : implicitField n = 1+varintSize n := by
  rw [implicitField, if_neg h, varintField]

theorem implicitField_mono (m n : ℕ) (h : m ≤ n) : implicitField m ≤ implicitField n := by
  have := varintSize_mono m n h
  unfold implicitField varintField
  split <;> split <;> omega

end HurriCache.WireSizes
