import Mathlib.Tactic.Ring
import Mathlib.Tactic.Linarith
import Mathlib.Algebra.Order.Ring.Nat

/-!
# Products over two limbs

Two numbers below the square of a radix, multiplied by their limbs. The two
cross products and the carry of the low product are one sum, which fills the
middle of the product. The sum can exceed the square of the radix once, and a
register that keeps it modulo that square loses one unit of the third limb.
-/

set_option autoImplicit false

namespace HurriCache.LimbProduct

def crossSum (R v p : ℕ) : ℕ := v/R*(p%R)+v%R*(p/R)+v%R*(p%R)/R

theorem product_eq (R v p : ℕ) :
    v*p = v/R*(p/R)*(R*R)+crossSum R v p*R+v%R*(p%R)%R := by
  have hv : v%R+R*(v/R) = v := Nat.mod_add_div v R
  have hp : p%R+R*(p/R) = p := Nat.mod_add_div p R
  have hl : v%R*(p%R)%R+R*(v%R*(p%R)/R) = v%R*(p%R) := Nat.mod_add_div _ R
  calc
    v*p = (v%R+R*(v/R))*(p%R+R*(p/R)) := by rw [hv, hp]
    _ = v/R*(p/R)*(R*R)+(v/R*(p%R)+v%R*(p/R))*R+v%R*(p%R) := by ring
    _ = v/R*(p/R)*(R*R)+(v/R*(p%R)+v%R*(p/R))*R+
        (v%R*(p%R)%R+R*(v%R*(p%R)/R)) := by rw [hl]
    _ = v/R*(p/R)*(R*R)+crossSum R v p*R+v%R*(p%R)%R := by
      rw [crossSum]
      ring

theorem product_div (R v p : ℕ) (hR : 0 < R) :
    v*p/(R*R) = v/R*(p/R)+crossSum R v p/R := by
  have hlow : v%R*(p%R)%R < R := Nat.mod_lt _ hR
  have hmiddle : (crossSum R v p*R+v%R*(p%R)%R)/R = crossSum R v p := by
    rw [Nat.add_comm, Nat.add_mul_div_right _ _ hR, Nat.div_eq_of_lt hlow, Nat.zero_add]
  rw [product_eq R v p, Nat.add_assoc, Nat.add_comm, Nat.add_mul_div_right _ _ (Nat.mul_pos hR hR),
    ← Nat.div_div_eq_div_mul, hmiddle, Nat.add_comm]

theorem product_mod (R v p : ℕ) (hR : 0 < R) :
    v*p%(R*R) = crossSum R v p%R*R+v%R*(p%R)%R := by
  have hlow : v%R*(p%R)%R < R := Nat.mod_lt _ hR
  have hlt : crossSum R v p%R*R+v%R*(p%R)%R < R*R := by
    have hmod : crossSum R v p%R+1 ≤ R := Nat.mod_lt _ hR
    nlinarith [Nat.mul_le_mul_right R hmod]
  have hsplit : crossSum R v p = crossSum R v p%R+R*(crossSum R v p/R) :=
    (Nat.mod_add_div _ R).symm
  have hprod : v*p = crossSum R v p%R*R+v%R*(p%R)%R+
      (v/R*(p/R)+crossSum R v p/R)*(R*R) := by
    have h := product_eq R v p
    rw [h]
    nlinarith [congrArg (fun x => x*R) hsplit]
  rw [hprod, Nat.add_mul_mod_self_right, Nat.mod_eq_of_lt hlt]

theorem low_carry_le (R v p : ℕ) (hR : 0 < R) : v%R*(p%R)/R ≤ p%R := by
  apply Nat.div_le_of_le_mul
  exact Nat.mul_le_mul_right _ (Nat.le_of_lt (Nat.mod_lt v hR))

theorem crossSum_le (R v p : ℕ) (hR : 0 < R) (hv : v < R*R) :
    crossSum R v p ≤ R*(p/R+p%R) := by
  have hhigh : v/R+1 ≤ R := Nat.div_lt_of_lt_mul hv
  have hcarry : v%R*(p%R)/R ≤ p%R := low_carry_le R v p hR
  calc
    crossSum R v p ≤ v/R*(p%R)+R*(p/R)+p%R :=
      Nat.add_le_add (Nat.add_le_add_left
        (Nat.mul_le_mul_right _ (Nat.le_of_lt (Nat.mod_lt v hR))) _) hcarry
    _ = (v/R+1)*(p%R)+R*(p/R) := by ring
    _ ≤ R*(p%R)+R*(p/R) := Nat.add_le_add_right (Nat.mul_le_mul_right _ hhigh) _
    _ = R*(p/R+p%R) := by ring

theorem crossSum_lt_square (R v p : ℕ) (hR : 0 < R) (hv : v < R*R) (hp : p/R+p%R < R) :
    crossSum R v p < R*R :=
  lt_of_le_of_lt (crossSum_le R v p hR hv) (Nat.mul_lt_mul_of_pos_left hp hR)

theorem crossSum_lt (R v p : ℕ) (hR : 0 < R) (hv : v < R*R) (hp : p < R*R) :
    crossSum R v p < 2*(R*R) := by
  have hhigh : p/R < R := Nat.div_lt_of_lt_mul hp
  have hlow : p%R < R := Nat.mod_lt p hR
  calc
    crossSum R v p ≤ R*(p/R+p%R) := crossSum_le R v p hR hv
    _ < R*(2*R) := Nat.mul_lt_mul_of_pos_left (by omega) hR
    _ = 2*(R*R) := by ring

/-- The third limb from a register of two limbs, and what it lacks. -/
theorem wrapped_div (R s : ℕ) (hR : 0 < R) (hs : s < 2*(R*R)) :
    s%(R*R)/R+(if R*R ≤ s then R else 0) = s/R := by
  by_cases h : R*R ≤ s
  · have hmod : s%(R*R) = s-R*R := by
      rw [Nat.mod_eq_sub_mod h, Nat.mod_eq_of_lt (by omega)]
    have hsplit : s = s-R*R+R*R := by omega
    rw [if_pos h, hmod]
    conv_rhs => rw [hsplit, Nat.add_mul_div_right _ _ hR]
  · rw [if_neg h, Nat.mod_eq_of_lt (by omega), Nat.add_zero]

end HurriCache.LimbProduct
