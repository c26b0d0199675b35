import Mathlib.Data.Set.Finite.Lattice
import Mathlib.Order.Preorder.Finite
import Mathlib.Logic.Relation

/-!
# Chains of a partial function

A partial function is iterated until it has no value. The chain from a point
ends exactly when it meets finitely many points and none of them lies on a
cycle; neither condition can be dropped over an infinite type.
-/

set_option autoImplicit false

namespace HurriCache.PartialOrbit
open Relation

variable {α : Type} (f : α → Option α)

def Follows (a b : α) : Prop := f a = some b

def walk : ℕ → α → Option α
  | 0, a => some a
  | n+1, a => (f a).bind (walk n)

def Ends (a : α) : Prop := ∃ n, walk f n a = none

theorem walk_add (m n : ℕ) (a : α) :
    walk f (m+n) a = (walk f m a).bind (walk f n) := by
  induction m generalizing a with
  | zero => rw [Nat.zero_add]; rfl
  | succ m ih =>
    rw [Nat.succ_add]
    cases h : f a with
    | none => simp [walk, h]
    | some b => simpa [walk, h] using ih b

theorem walk_none_mono (m n : ℕ) (a : α) (hmn : m ≤ n) (h : walk f m a = none) :
    walk f n a = none := by
  obtain ⟨k,rfl⟩ := Nat.exists_eq_add_of_le hmn
  rw [walk_add, h]
  rfl

theorem reach_of_walk (n : ℕ) (a b : α) (h : walk f n a = some b) :
    ReflTransGen (Follows f) a b := by
  induction n generalizing a with
  | zero =>
    cases h
    exact ReflTransGen.refl
  | succ n ih =>
    obtain ⟨c,hc,hw⟩ := Option.bind_eq_some_iff.mp h
    exact ReflTransGen.head hc (ih c hw)

theorem walk_of_reach (a b : α) (h : ReflTransGen (Follows f) a b) :
    ∃ n, walk f n a = some b := by
  induction h with
  | refl => exact ⟨0,rfl⟩
  | @tail b c _ hstep ih =>
    obtain ⟨n,hn⟩ := ih
    have hf : f b = some c := hstep
    refine ⟨n+1,?_⟩
    rw [walk_add, hn]
    simp [walk, hf]

theorem cycle_of_walk (n : ℕ) (a : α) (h : walk f (n+1) a = some a) :
    TransGen (Follows f) a a := by
  obtain ⟨b,hb,hw⟩ := Option.bind_eq_some_iff.mp h
  exact TransGen.head' hb (reach_of_walk f n b a hw)

theorem walk_of_cycle (a : α) (h : TransGen (Follows f) a a) :
    ∃ n, walk f (n+1) a = some a := by
  obtain ⟨b,hb,hr⟩ := TransGen.head'_iff.mp h
  obtain ⟨n,hn⟩ := walk_of_reach f b a hr
  refine ⟨n,?_⟩
  have hf : f a = some b := hb
  simpa [walk, hf] using hn

theorem walk_around (n k : ℕ) (a : α) (h : walk f (n+1) a = some a) :
    walk f (k*(n+1)) a = some a := by
  induction k with
  | zero => rw [Nat.zero_mul]; rfl
  | succ k ih => rw [Nat.succ_mul, walk_add, ih, Option.bind_some, h]

theorem not_ends_of_cycle (a b : α) (hr : ReflTransGen (Follows f) a b)
    (hc : TransGen (Follows f) b b) : ¬ Ends f a := by
  rintro ⟨m,hm⟩
  obtain ⟨i,hi⟩ := walk_of_reach f a b hr
  obtain ⟨n,hn⟩ := walk_of_cycle f b hc
  have haround : walk f (i+m*(n+1)) a = some b := by
    rw [walk_add, hi, Option.bind_some, walk_around f n m b hn]
  have hlong : m ≤ i+m*(n+1) :=
    le_trans (Nat.le_mul_of_pos_right m n.succ_pos) (Nat.le_add_left _ _)
  rw [walk_none_mono f m _ a hlong hm] at haround
  cases haround

theorem reachable_finite (a : α) (h : Ends f a) :
    {b | ReflTransGen (Follows f) a b}.Finite := by
  obtain ⟨m,hm⟩ := h
  have hsub : {b | ReflTransGen (Follows f) a b} ⊆
      ⋃ i ∈ {i | i < m}, {b | walk f i a = some b} := by
    intro b hb
    obtain ⟨i,hi⟩ := walk_of_reach f a b hb
    have him : i < m := by
      by_contra hge
      rw [walk_none_mono f m i a (by omega) hm] at hi
      cases hi
    simp only [Set.mem_iUnion]
    exact ⟨i,him,hi⟩
  refine Set.Finite.subset (Set.Finite.biUnion (Set.finite_lt_nat m) ?_) hsub
  intro i _
  refine Set.Subsingleton.finite ?_
  intro b hb c hc
  have hbc : some b = some c := Eq.trans (Eq.symm hb) hc
  exact Option.some.inj hbc

/-- A chain that goes on for ever repeats a point or meets infinitely many. -/
theorem ends_of_finite_acyclic (a : α) (hfin : {b | ReflTransGen (Follows f) a b}.Finite)
    (hacyc : ∀ b, ReflTransGen (Follows f) a b → ¬ TransGen (Follows f) b b) : Ends f a := by
  by_contra hends
  have hsome : ∀ n, ∃ b, walk f n a = some b := by
    intro n
    cases h : walk f n a with
    | none => exact absurd ⟨n,h⟩ hends
    | some b => exact ⟨b,rfl⟩
  choose g hg using hsome
  have hmem : ∀ n, g n ∈ {b | ReflTransGen (Follows f) a b} :=
    fun n => reach_of_walk f n a (g n) (hg n)
  obtain ⟨i,j,hij,heq⟩ := Set.Finite.exists_lt_map_eq_of_forall_mem hmem hfin
  have hcycle : walk f ((j-i-1)+1) (g i) = some (g i) := by
    have hw := walk_add f i (j-i) a
    rw [Nat.add_sub_cancel' hij.le, hg, hg, Option.bind_some] at hw
    rw [Nat.sub_add_cancel (by omega), ← hw, heq]
  exact hacyc (g i) (hmem i) (cycle_of_walk f _ _ hcycle)

theorem ends_iff (a : α) :
    Ends f a ↔ {b | ReflTransGen (Follows f) a b}.Finite ∧
      ∀ b, ReflTransGen (Follows f) a b → ¬ TransGen (Follows f) b b := by
  constructor
  · intro h
    exact ⟨reachable_finite f a h,fun b hr hc => not_ends_of_cycle f a b hr hc h⟩
  · rintro ⟨hfin,hacyc⟩
    exact ends_of_finite_acyclic f a hfin hacyc

end HurriCache.PartialOrbit
