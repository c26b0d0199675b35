import Mathlib.Data.Nat.Find

/-!
# Trying until something works

A loop gives its body a bounded number of rounds. The body says whether the
round it was given is the last. Where the failing rounds lead is told by a
sequence of states; the loop then ends behind the first round that does not
fail, or behind all of them.
-/

set_option autoImplicit false

namespace HurriCache.RetryLoop

variable {ε σ : Type} (body : ℕ → σ → Except ε (σ × Bool))

/-- `left` rounds from round `k` on. -/
def retry : ℕ → ℕ → σ → Except ε σ
  | 0, _, s => .ok s
  | left+1, k, s =>
    match body k s with
    | .error e => .error e
    | .ok (t,true) => .ok t
    | .ok (t,false) => retry left (k+1) t

variable (st : ℕ → σ)

theorem retry_fails (m left k : ℕ)
    (h : ∀ j, k ≤ j → j < k+m → body j (st j) = .ok (st (j+1),false)) :
    retry body (m+left) k (st k) = retry body left (k+m) (st (k+m)) := by
  induction m generalizing k with
  | zero => rw [Nat.zero_add, Nat.add_zero]
  | succ m ih =>
    rw [Nat.succ_add, retry, h k (le_refl k) (by omega)]
    show retry body (m+left) (k+1) (st (k+1)) = _
    rw [ih (k+1) (fun j hj hlt => h j (by omega) (by omega)), Nat.add_right_comm, Nat.add_assoc]

theorem retry_exhausted (n : ℕ) (h : ∀ j < n, body j (st j) = .ok (st (j+1),false)) :
    retry body n 0 (st 0) = .ok (st n) := by
  have hall := retry_fails body st n 0 0 (fun j _ hlt => h j (by omega))
  rwa [Nat.add_zero, Nat.zero_add, retry] at hall

theorem retry_reaches (n k : ℕ) (hk : k < n)
    (h : ∀ j < k, body j (st j) = .ok (st (j+1),false)) :
    retry body n 0 (st 0) = retry body ((n-k-1)+1) k (st k) := by
  have hprefix := retry_fails body st k ((n-k-1)+1) 0 (fun j _ hlt => h j (by omega))
  rwa [Nat.zero_add, show k+((n-k-1)+1) = n by omega] at hprefix

theorem retry_stops (n k : ℕ) (t : σ) (hk : k < n)
    (h : ∀ j < k, body j (st j) = .ok (st (j+1),false)) (hlast : body k (st k) = .ok (t,true)) :
    retry body n 0 (st 0) = .ok t := by
  rw [retry_reaches body st n k hk h, retry, hlast]

theorem retry_breaks (n k : ℕ) (e : ε) (hk : k < n)
    (h : ∀ j < k, body j (st j) = .ok (st (j+1),false)) (hlast : body k (st k) = .error e) :
    retry body n 0 (st 0) = .error e := by
  rw [retry_reaches body st n k hk h, retry, hlast]

theorem first_or_none (good : ℕ → Bool) (n : ℕ) :
    (∃ k < n, good k = true ∧ ∀ j < k, good j = false) ∨ ∀ j < n, good j = false := by
  by_cases h : ∃ k, k < n ∧ good k = true
  · left
    obtain ⟨hlt,hgood⟩ := Nat.find_spec h
    refine ⟨Nat.find h,hlt,hgood,fun j hj => ?_⟩
    have hmin := Nat.find_min h hj
    rw [not_and, Bool.not_eq_true] at hmin
    exact hmin (by omega)
  · right
    intro j hj
    by_contra hgood
    exact h ⟨j,hj,by simpa using hgood⟩

end HurriCache.RetryLoop
