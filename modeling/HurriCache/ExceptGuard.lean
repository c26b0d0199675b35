import Mathlib.Data.List.Basic

/-!
# Computations with one known fault

A computation is guarded by a condition when it succeeds under it and fails
with one fixed fault otherwise. Conditions of the parts of a computation add
up to a condition of the whole. A computation with other faults beside it
may still avoid that one.
-/

set_option autoImplicit false

namespace HurriCache.ExceptGuard

variable {E A B S : Type} (e : E)

structure Guarded (p : Prop) (x : Except E A) : Prop where
  succeeds : p → ∃ a, x = .ok a
  faults : ¬ p → x = .error e

def Avoids (x : Except E A) : Prop := x ≠ .error e

theorem Guarded.avoids_iff {e : E} {p : Prop} {x : Except E A} (h : Guarded e p x) :
    Avoids e x ↔ p := by
  constructor
  · intro havoids
    by_contra hp
    exact havoids (h.faults hp)
  · intro hp he
    obtain ⟨a,ha⟩ := h.succeeds hp
    rw [ha] at he
    cases he

theorem Guarded.ok_iff {e : E} {p : Prop} {x : Except E A} (h : Guarded e p x) :
    (∃ a, x = .ok a) ↔ p := by
  constructor
  · rintro ⟨a,ha⟩
    refine h.avoids_iff.mp (fun he => ?_)
    rw [ha] at he
    cases he
  · exact h.succeeds

theorem Guarded.congr {e : E} {p q : Prop} {x : Except E A} (h : Guarded e p x) (hpq : p ↔ q) :
    Guarded e q x :=
  ⟨fun hq => h.succeeds (hpq.mpr hq),fun hq => h.faults (fun hp => hq (hpq.mp hp))⟩

theorem guarded_ok (a : A) : Guarded e True (.ok a) :=
  ⟨fun _ => ⟨a,rfl⟩,fun h => absurd trivial h⟩

theorem guarded_bind {p q : Prop} {x : Except E A} {f : A → Except E B} (hx : Guarded e p x)
    (hf : ∀ a, x = .ok a → Guarded e q (f a)) : Guarded e (p ∧ q) (x >>= f) := by
  by_cases hp : p
  · obtain ⟨a,ha⟩ := hx.succeeds hp
    have hfa := hf a ha
    rw [ha]
    exact ⟨fun h => hfa.succeeds h.2,fun h => hfa.faults (fun hq => h ⟨hp,hq⟩)⟩
  · rw [hx.faults hp]
    exact ⟨fun h => absurd h.1 hp,fun _ => rfl⟩

theorem guarded_then {p : Prop} {x : Except E A} {f : A → Except E B} (hx : Guarded e p x)
    (hf : ∀ a, x = .ok a → ∃ b, f a = .ok b) : Guarded e p (x >>= f) := by
  have hrest : ∀ a, x = .ok a → Guarded e True (f a) := by
    intro a ha
    obtain ⟨b,hb⟩ := hf a ha
    rw [hb]
    exact guarded_ok e b
  exact (guarded_bind e hx hrest).congr (and_iff_left trivial)

theorem guarded_after {p : Prop} (a : A) {f : A → Except E B} (h : Guarded e p (f a)) :
    Guarded e p (Except.ok a >>= f) := h

theorem guarded_map {p : Prop} {x : Except E A} (f : A → B) (hx : Guarded e p x) :
    Guarded e p (x.map f) := by
  constructor
  · intro hp
    obtain ⟨a,ha⟩ := hx.succeeds hp
    exact ⟨f a,by rw [ha]; rfl⟩
  · intro hp
    rw [hx.faults hp]
    rfl

theorem guarded_ite (c : Prop) [Decidable c] {p : Prop} {x y : Except E A}
    (hx : c → Guarded e p x) (hy : Guarded e True y) :
    Guarded e (c → p) (if c then x else y) := by
  by_cases h : c
  · rw [if_pos h]
    exact (hx h).congr ⟨fun hp _ => hp,fun hp => hp h⟩
  · rw [if_neg h]
    exact hy.congr ⟨fun _ hc => absurd hc h,fun _ => trivial⟩

theorem guarded_foldlM (f : S → A → Except E S) (p : A → Prop) (as : List A) (s : S)
    (hf : ∀ s, ∀ a ∈ as, Guarded e (p a) (f s a)) :
    Guarded e (∀ a ∈ as, p a) (as.foldlM f s) := by
  induction as generalizing s with
  | nil => exact (guarded_ok e s).congr (by simp)
  | cons a as ih =>
    have hrest : ∀ next, f s a = .ok next → Guarded e (∀ b ∈ as, p b) (as.foldlM f next) :=
      fun next _ => ih next (fun s b hb => hf s b (List.mem_cons_of_mem a hb))
    rw [List.foldlM_cons]
    exact (guarded_bind e (hf s a List.mem_cons_self) hrest).congr List.forall_mem_cons.symm

theorem guarded_mapM (f : A → Except E B) (p : A → Prop) (as : List A)
    (hf : ∀ a ∈ as, Guarded e (p a) (f a)) : Guarded e (∀ a ∈ as, p a) (as.mapM f) := by
  induction as with
  | nil => exact (guarded_ok e []).congr (by simp)
  | cons a as ih =>
    have hrest := ih (fun b hb => hf b (List.mem_cons_of_mem a hb))
    rw [List.mapM_cons]
    refine (guarded_bind e (hf a List.mem_cons_self) (fun b _ => ?_)).congr
      List.forall_mem_cons.symm
    exact guarded_then e hrest (fun bs _ => ⟨b::bs,rfl⟩)

theorem avoids_ok (a : A) : Avoids e (.ok a : Except E A) := nofun

theorem avoids_bind {x : Except E A} {f : A → Except E B} (hx : Avoids e x)
    (hf : ∀ a, x = .ok a → Avoids e (f a)) : Avoids e (x >>= f) := by
  cases x with
  | error e' =>
    intro h
    exact hx (congrArg Except.error (Except.error.inj h))
  | ok a => exact hf a rfl

theorem avoids_map {x : Except E A} (f : A → B) (hx : Avoids e x) : Avoids e (x.map f) := by
  cases x with
  | error e' =>
    intro h
    exact hx (congrArg Except.error (Except.error.inj h))
  | ok a => exact avoids_ok e (f a)

theorem avoids_mapM (f : A → Except E B) (as : List A) (hf : ∀ a ∈ as, Avoids e (f a)) :
    Avoids e (as.mapM f) := by
  induction as with
  | nil => exact avoids_ok e []
  | cons a as ih =>
    have hrest := ih (fun b hb => hf b (List.mem_cons_of_mem a hb))
    rw [List.mapM_cons]
    refine avoids_bind e (hf a List.mem_cons_self) (fun b _ => ?_)
    exact avoids_bind e hrest (fun bs _ => avoids_ok e (b::bs))

theorem mem_of_mapM_ok (f : A → Except E B) (as : List A) (bs : List B)
    (h : as.mapM f = .ok bs) : ∀ b ∈ bs, ∃ a ∈ as, f a = .ok b := by
  induction as generalizing bs with
  | nil =>
    cases h
    intro b hb
    cases hb
  | cons a as ih =>
    rw [List.mapM_cons] at h
    cases ha : f a with
    | error e' =>
      rw [ha] at h
      cases h
    | ok first =>
      cases has : as.mapM f with
      | error e' =>
        rw [ha, has] at h
        cases h
      | ok rest =>
        rw [ha, has] at h
        cases h
        intro b hb
        rcases List.mem_cons.mp hb with rfl | hmem
        · exact ⟨a,List.mem_cons_self,ha⟩
        · obtain ⟨c,hc,hb⟩ := ih rest has b hmem
          exact ⟨c,List.mem_cons_of_mem a hc,hb⟩

end HurriCache.ExceptGuard
