import Mathlib.Data.List.Basic

/-!
# A flag as a lock

A thread that finds the flag down and raises it holds the lock until it lowers
the flag again. The flag is up exactly while there is a holder, and there is one
holder at most. Threads that do not hold the lock may come and move on.
-/

set_option autoImplicit false

namespace HurriCache.FlagLock

variable {P : Type} (holds : P → Bool)

structure Locked (flag : Bool) (threads : List P) : Prop where
  one : ∀ (w v : ℕ) (p q : P), threads[w]? = some p → threads[v]? = some q →
    holds p = true → holds q = true → w = v
  flag : flag = true ↔ ∃ p ∈ threads, holds p = true

variable {holds} {flag : Bool} {threads : List P}

theorem locked_nil : Locked holds false [] where
  one := fun _ _ _ _ h => by cases h
  flag := by simp

theorem locked_append (p : P) (hp : holds p = false) (h : Locked holds flag threads) :
    Locked holds flag (threads++[p]) := by
  have hold : ∀ (w : ℕ) (q : P), (threads++[p])[w]? = some q → holds q = true →
      threads[w]? = some q := by
    intro w q hw hq
    rw [List.getElem?_append] at hw
    split at hw
    · exact hw
    · have hmem := List.mem_singleton.mp (List.mem_of_getElem? hw)
      rw [hmem, hp] at hq
      cases hq
  refine ⟨fun w v q r hw hv hq hr => h.one w v q r (hold w q hw hq) (hold v r hv hr) hq hr,
    h.flag.trans ⟨?_,?_⟩⟩
  · rintro ⟨q,hq,hh⟩
    exact ⟨q,List.mem_append_left _ hq,hh⟩
  · rintro ⟨q,hq,hh⟩
    cases List.mem_append.mp hq with
    | inl hold => exact ⟨q,hold,hh⟩
    | inr hnew =>
      rw [List.mem_singleton.mp hnew, hp] at hh
      cases hh

theorem getElem?_moved (threads : List P) (x w : ℕ) (p q r : P) (hx : threads[x]? = some p)
    (h : (threads.set x q)[w]? = some r) : w ≠ x ∧ threads[w]? = some r ∨ w = x ∧ r = q := by
  by_cases hne : x = w
  · subst hne
    rw [List.getElem?_set_self (List.getElem?_eq_some_iff.mp hx).1] at h
    exact Or.inr ⟨rfl,(Option.some.inj h).symm⟩
  · rw [List.getElem?_set_ne hne] at h
    exact Or.inl ⟨fun he => hne he.symm,h⟩

theorem mem_moved (threads : List P) (x w : ℕ) (q r : P) (hne : w ≠ x)
    (hw : threads[w]? = some r) : r ∈ threads.set x q := by
  refine List.mem_iff_getElem?.mpr ⟨w,?_⟩
  rw [List.getElem?_set_ne (Ne.symm hne)]
  exact hw

theorem locked_move (x : ℕ) (p q : P) (hx : threads[x]? = some p) (hq : holds q = holds p)
    (h : Locked holds flag threads) : Locked holds flag (threads.set x q) := by
  obtain ⟨hlt,_⟩ := List.getElem?_eq_some_iff.mp hx
  have hback : ∀ (w : ℕ) (r : P), (threads.set x q)[w]? = some r → holds r = true →
      ∃ r', threads[w]? = some r' ∧ holds r' = true := by
    intro w r hw hr
    rcases getElem?_moved threads x w p q r hx hw with ⟨_,hold⟩ | ⟨rfl,rfl⟩
    · exact ⟨r,hold,hr⟩
    · exact ⟨p,hx,hq ▸ hr⟩
  refine ⟨fun w v r r' hw hv hr hr' => ?_,h.flag.trans ⟨?_,?_⟩⟩
  · obtain ⟨o,ho,hho⟩ := hback w r hw hr
    obtain ⟨o',ho',hho'⟩ := hback v r' hv hr'
    exact h.one w v o o' ho ho' hho hho'
  · rintro ⟨r,hr,hh⟩
    obtain ⟨w,hw⟩ := List.mem_iff_getElem?.mp hr
    by_cases hne : w = x
    · subst hne
      obtain rfl : r = p := Option.some.inj (hw.symm.trans hx)
      exact ⟨q,List.mem_of_getElem? (List.getElem?_set_self hlt),hq ▸ hh⟩
    · exact ⟨r,mem_moved threads x w q r hne hw,hh⟩
  · rintro ⟨r,hr,hh⟩
    obtain ⟨w,hw⟩ := List.mem_iff_getElem?.mp hr
    obtain ⟨o,ho,hho⟩ := hback w r hw hh
    exact ⟨o,List.mem_of_getElem? ho,hho⟩

theorem locked_acquire (x : ℕ) (p q : P) (hx : threads[x]? = some p) (hq : holds q = true)
    (h : Locked holds false threads) : Locked holds true (threads.set x q) := by
  have hnone : ∀ (w : ℕ) (r : P), (threads.set x q)[w]? = some r → holds r = true → w = x := by
    intro w r hw hr
    rcases getElem?_moved threads x w p q r hx hw with ⟨_,hold⟩ | ⟨hwx,_⟩
    · exact absurd (h.flag.mpr ⟨r,List.mem_of_getElem? hold,hr⟩) (by simp)
    · exact hwx
  refine ⟨fun w v r r' hw hv hr hr' => (hnone w r hw hr).trans (hnone v r' hv hr').symm,
    fun _ => ⟨q,?_,hq⟩,fun _ => rfl⟩
  exact List.mem_of_getElem? (List.getElem?_set_self (List.getElem?_eq_some_iff.mp hx).1)

theorem locked_release (x : ℕ) (p q : P) (hx : threads[x]? = some p) (hp : holds p = true)
    (hq : holds q = false) (h : Locked holds flag threads) :
    Locked holds false (threads.set x q) := by
  have hnone : ∀ (w : ℕ) (r : P), (threads.set x q)[w]? = some r → holds r ≠ true := by
    intro w r hw hr
    rcases getElem?_moved threads x w p q r hx hw with ⟨hne,hold⟩ | ⟨_,rfl⟩
    · exact hne (h.one w x r p hold hx hr hp)
    · rw [hq] at hr
      cases hr
  refine ⟨fun w v r r' hw _ hr _ => absurd hr (hnone w r hw),fun hf => (by cases hf),?_⟩
  rintro ⟨r,hr,hh⟩
  obtain ⟨w,hw⟩ := List.mem_iff_getElem?.mp hr
  exact absurd hh (hnone w r hw)

end HurriCache.FlagLock
