import Mathlib.Data.Int.CardIntervalMod

/-!
# Counting residues of a counter

A counter hands out consecutive numbers that are reduced modulo a period and
then modulo a number of bins. In a stretch without the end of a period two bins
get the same up to one, and each end of a period may add one to that. A period
that the number of bins divides adds nothing; any other adds one each time.
-/

set_option autoImplicit false

namespace HurriCache.ResidueCounts

/-- How many of the numbers `start`, …, `start+k-1` fall into a bin. -/
def hits (period m start k a : ℕ) : ℕ := Nat.count (fun i => (start+i) % period % m = a) k

theorem hits_add (period m start k l a : ℕ) :
    hits period m start (k+l) a = hits period m start k a+hits period m (start+k) l a := by
  simp only [hits, Nat.count_add, Nat.add_assoc]

section Windows

variable (period : ℕ) {m a b : ℕ} (hm : 0 < m) (ha : a < m) (hb : b < m)

include hm ha in
theorem count_window (start k : ℕ) :
    k/m ≤ Nat.count (fun i => (start+i) % m = a) k ∧
      Nat.count (fun i => (start+i) % m = a) k ≤ k/m+1 := by
  have hcycle : start+(m-start % m) ≡ 0 [MOD m] := by
    have hlt := Nat.mod_lt start hm
    have hsplit := Nat.div_add_mod start m
    have he : start+(m-start % m) = m*(start/m)+m := by omega
    rw [he]
    exact (Nat.modEq_zero_iff_dvd).mpr (Dvd.dvd.add (Nat.dvd_mul_right m _) (Nat.dvd_refl m))
  have hp : ∀ i, (start+i) % m = a ↔ i ≡ a+(m-start % m) [MOD m] := by
    intro i
    have ham : a % m = a := Nat.mod_eq_of_lt ha
    have hback : start+(a+(m-start % m)) ≡ a [MOD m] := by
      have := hcycle.add_right a
      rwa [Nat.zero_add, Nat.add_assoc, Nat.add_comm (m-start % m) a] at this
    constructor
    · intro h
      have hi : start+i ≡ a [MOD m] := h.trans ham.symm
      exact Nat.ModEq.add_left_cancel' start (hi.trans hback.symm)
    · intro h
      exact Eq.trans ((h.add_left start).trans hback) ham
  have hcount := Nat.count_modEq_card k hm (a+(m-start % m))
  simp only [hp, hcount]
  split <;> omega

include hm ha hb in
theorem hits_within (start k : ℕ) (h : start % period+k ≤ period) :
    hits period m start k a ≤ hits period m start k b+1 := by
  have hsame : ∀ c, hits period m start k c =
      Nat.count (fun i => (start % period+i) % m = c) k := by
    intro c
    rw [hits, Nat.count_eq_card_filter_range, Nat.count_eq_card_filter_range]
    congr 1
    refine Finset.filter_congr (fun i hi => ?_)
    have hlt := Finset.mem_range.mp hi
    rw [← Nat.mod_add_mod, Nat.mod_eq_of_lt (show start % period+i < period by omega)]
  have hwa := (count_window hm ha (start % period) k).2
  have hwb := (count_window hm hb (start % period) k).1
  rw [hsame a, hsame b]
  omega

include hm ha hb in
theorem hits_spread (hperiod : 0 < period) (start k : ℕ) :
    hits period m start k a ≤
      hits period m start k b+1+((start+k)/period-start/period) := by
  induction k using Nat.strong_induction_on generalizing start with
  | _ k ih =>
    by_cases hwithin : start % period+k ≤ period
    · have := hits_within period hm ha hb start k hwithin
      omega
    · have hlt := Nat.mod_lt start hperiod
      have hsplit := Nat.div_add_mod start period
      let l := period-start % period
      have hk : k = l+(k-l) := by omega
      have hend : start+l = period*(start/period+1) := by
        rw [Nat.mul_add, Nat.mul_one]
        omega
      have hdiv : (start+l)/period = start/period+1 := by
        rw [hend, Nat.mul_div_cancel_left _ hperiod]
      have hfirst := hits_within period hm ha hb start l (by omega)
      have hrest := ih (k-l) (by omega) (start+l)
      have hmono : (start+l)/period ≤ (start+k)/period := Nat.div_le_div_right (by omega)
      rw [hdiv] at hrest hmono
      rw [show start+l+(k-l) = start+k by omega] at hrest
      rw [hk, hits_add, hits_add, ← hk]
      omega

include hm ha hb in
theorem hits_divides (hdvd : m ∣ period) (start k : ℕ) :
    hits period m start k a ≤ hits period m start k b+1 := by
  have hsame : ∀ c, hits period m start k c = Nat.count (fun i => (start+i) % m = c) k := by
    intro c
    simp only [hits, Nat.mod_mod_of_dvd _ hdvd]
  have hwa := (count_window hm ha start k).2
  have hwb := (count_window hm hb start k).1
  rw [hsame a, hsame b]
  omega

end Windows

section Drift

variable {m : ℕ} (period : ℕ) (hm : 0 < m) (hdvd : ¬ m ∣ period)

theorem hits_period (a : ℕ) (ha : a < m) (q : ℕ) :
    hits period m (period*q) period a = period/m+if a < period % m then 1 else 0 := by
  have hm : 0 < m := Nat.zero_lt_of_lt ha
  have hcount := Nat.count_modEq_card period hm a
  rw [Nat.mod_eq_of_lt ha] at hcount
  rw [← hcount, hits, Nat.count_eq_card_filter_range, Nat.count_eq_card_filter_range]
  congr 1
  refine Finset.filter_congr (fun i hi => ?_)
  rw [Nat.mul_add_mod, Nat.mod_eq_of_lt (Finset.mem_range.mp hi), Nat.ModEq, Nat.mod_eq_of_lt ha]

include hm hdvd in
theorem hits_periods (q : ℕ) :
    hits period m 0 (period*q) 0 = hits period m 0 (period*q) (m-1)+q := by
  have hpos : 0 < period % m := Nat.pos_of_ne_zero (fun h => hdvd (Nat.dvd_of_mod_eq_zero h))
  have hlt := Nat.mod_lt period hm
  induction q with
  | zero => simp [hits]
  | succ q ih =>
    have hfirst := hits_period period 0 hm q
    have hlast := hits_period period (m-1) (Nat.sub_lt hm Nat.one_pos) q
    rw [if_pos hpos] at hfirst
    rw [if_neg (by omega)] at hlast
    rw [Nat.mul_succ, hits_add, hits_add, Nat.zero_add, ih, hfirst, hlast]
    omega

include hm hdvd in
/-- From any start the bins come to differ by more than any bound. -/
theorem hits_drift (hperiod : 0 < period) (start n : ℕ) :
    ∃ k, hits period m start k (m-1)+n ≤ hits period m start k 0 := by
  obtain ⟨q,hq⟩ : ∃ q, q = start/period+n+1 := ⟨_,rfl⟩
  have hreach : start ≤ period*q := by
    have hsplit := Nat.div_add_mod start period
    have hlt := Nat.mod_lt start hperiod
    have hmul : period*q = period*(start/period)+period*(n+1) := by
      rw [hq, ← Nat.mul_add, Nat.add_assoc]
    have hone : period ≤ period*(n+1) := Nat.le_mul_of_pos_right period (Nat.succ_pos n)
    omega
  have hlast : m-1 < m := Nat.sub_lt hm Nat.one_pos
  have hall := hits_periods period hm hdvd q
  have hspread := hits_spread period hm hm hlast hperiod 0 start
  rw [← Nat.add_sub_cancel' hreach, hits_add, hits_add, Nat.zero_add] at hall
  rw [Nat.zero_add, Nat.zero_div, Nat.sub_zero] at hspread
  refine ⟨period*q-start,?_⟩
  generalize start/period = d at hspread hq
  omega

end Drift

end HurriCache.ResidueCounts
