import Mathlib.Data.List.Basic

/-!
# Runs of a partial step function

A machine that refuses some actions in some states is a function into
`Option`. A run applies a list of actions one after the other. Invariants
are proved for one step and carried over a run, with the actions taken so
far in view or without them.
-/

set_option autoImplicit false

namespace HurriCache.PartialRun

variable {σ α : Type} (step : σ → α → Option σ)

def run (s : σ) : List α → Option σ
  | [] => some s
  | a::as => (step s a).bind (fun t => run t as)

theorem run_cons_eq_some (s t : σ) (a : α) (as : List α) :
    run step s (a::as) = some t ↔ ∃ u, step s a = some u ∧ run step u as = some t := by
  simp [run, Option.bind_eq_some_iff]

theorem run_step (s t : σ) (a : α) (as : List α) (h : step s a = some t) :
    run step s (a::as) = run step t as := by
  rw [run, h]
  rfl

theorem run_append (s : σ) (as bs : List α) :
    run step s (as++bs) = (run step s as).bind (fun t => run step t bs) := by
  induction as generalizing s with
  | nil => rfl
  | cons a as ih =>
    rw [List.cons_append, run, run]
    cases step s a with
    | none => rfl
    | some t => exact ih t

section Conditions

variable (condition : σ → α → Bool)

/-- Every action of the list meets the condition in the state it is taken in,
as far as the run goes. -/
def meets (s : σ) : List α → Bool
  | [] => true
  | a::as => condition s a && (match step s a with
    | none => true
    | some t => meets t as)

theorem meets_true (s : σ) (as : List α) : meets step (fun _ _ => true) s as = true := by
  induction as generalizing s with
  | nil => rfl
  | cons a as ih =>
    rw [meets, Bool.true_and]
    cases step s a with
    | none => rfl
    | some t => exact ih t

theorem restricted_history (A : α → Prop) (P : List α → σ → Prop)
    (hstep : ∀ as s a t, A a → condition s a = true → P as s → step s a = some t →
      P (as++[a]) t)
    (pre as : List α) (s t : σ) (ha : ∀ a ∈ as, A a) (hm : meets step condition s as = true)
    (h0 : P pre s) (h : run step s as = some t) : P (pre++as) t := by
  induction as generalizing pre s with
  | nil =>
    cases h
    simpa using h0
  | cons a as ih =>
    obtain ⟨u,hu,hr⟩ := (run_cons_eq_some step s t a as).mp h
    rw [meets, hu, Bool.and_eq_true] at hm
    have hp := hstep pre s a u (ha a (by simp)) hm.1 h0 hu
    have hrest := ih (pre++[a]) u (fun b hb => ha b (by simp [hb])) hm.2 hp hr
    simpa using hrest

theorem history_of_meets (P : List α → σ → Prop)
    (hstep : ∀ as s a t, condition s a = true → P as s → step s a = some t → P (as++[a]) t)
    (pre as : List α) (s t : σ) (hm : meets step condition s as = true) (h0 : P pre s)
    (h : run step s as = some t) : P (pre++as) t :=
  restricted_history step condition (fun _ => True) P
    (fun as s a t _ hc hp hs => hstep as s a t hc hp hs) pre as s t (fun _ _ => trivial) hm h0 h

theorem run_invariant_of_meets (Inv : σ → Prop)
    (hstep : ∀ s a t, condition s a = true → Inv s → step s a = some t → Inv t)
    (s t : σ) (as : List α) (hm : meets step condition s as = true) (h0 : Inv s)
    (h : run step s as = some t) : Inv t :=
  history_of_meets step condition (fun _ => Inv) (fun _ => hstep) [] as s t hm h0 h

end Conditions

section Invariants

variable (A : α → Prop) (P : List α → σ → Prop)

theorem history_from (hstep : ∀ as s a t, A a → P as s → step s a = some t → P (as++[a]) t)
    (pre as : List α) (s t : σ) (ha : ∀ a ∈ as, A a) (h0 : P pre s)
    (h : run step s as = some t) : P (pre++as) t :=
  restricted_history step (fun _ _ => true) A P (fun as s a t hA _ => hstep as s a t hA) pre as
    s t ha (meets_true step s as) h0 h

theorem history_invariant
    (hstep : ∀ as s a t, A a → P as s → step s a = some t → P (as++[a]) t)
    (s t : σ) (as : List α) (ha : ∀ a ∈ as, A a) (h0 : P [] s)
    (h : run step s as = some t) : P as t :=
  history_from step A P hstep [] as s t ha h0 h

end Invariants

section Traces

variable {β : Type} (emit : σ → α → Option β)

def trace (s : σ) : List α → List β
  | [] => []
  | a::as =>
    match step s a with
    | none => []
    | some t => (emit s a).toList++trace t as

theorem trace_append (s t : σ) (as bs : List α) (h : run step s as = some t) :
    trace step emit s (as++bs) = trace step emit s as++trace step emit t bs := by
  induction as generalizing s with
  | nil =>
    cases h
    rfl
  | cons a as ih =>
    obtain ⟨u,hu,hr⟩ := (run_cons_eq_some step s t a as).mp h
    simp only [List.cons_append, trace, hu, ih u hr, List.append_assoc]

theorem trace_invariant (P : List β → σ → Prop)
    (hstep : ∀ log s a t, P log s → step s a = some t → P (log++(emit s a).toList) t)
    (log : List β) (s t : σ) (as : List α) (h0 : P log s) (h : run step s as = some t) :
    P (log++trace step emit s as) t := by
  induction as generalizing log s with
  | nil =>
    cases h
    simpa [trace] using h0
  | cons a as ih =>
    obtain ⟨u,hu,hr⟩ := (run_cons_eq_some step s t a as).mp h
    have hrest := ih _ u (hstep log s a u h0 hu) hr
    simpa [trace, hu] using hrest

end Traces

section Views

variable {ω : Type} (view : σ → ω) (hidden : α → Bool) (Inv : ω → Prop)

/-- Hidden actions leave the view as it is, and what the others do to it is
determined by it. -/
structure Hides : Prop where
  keeps : ∀ s a t, Inv (view s) → step s a = some t → Inv (view t)
  unseen : ∀ s a, hidden a = true → (step s a).map view = some (view s)
  determined : ∀ s t a, hidden a = false → Inv (view s) → view s = view t →
    (step s a).map view = (step t a).map view

theorem run_filter (h : Hides step view hidden Inv) (as : List α) (s t : σ) (hs : Inv (view s))
    (hst : view s = view t) :
    (run step s as).map view = (run step t (as.filter (fun a => !hidden a))).map view := by
  induction as generalizing s t with
  | nil => exact congrArg some hst
  | cons a as ih =>
    by_cases ha : hidden a = true
    · have hunseen := h.unseen s a ha
      rw [List.filter_cons_of_neg (by simp [ha])]
      rcases hstep : step s a with _ | u
      · rw [hstep] at hunseen
        cases hunseen
      · rw [hstep] at hunseen
        have hu : view u = view s := Option.some.inj hunseen
        rw [run, hstep]
        exact ih u t (h.keeps s a u hs hstep) (hu.trans hst)
    · have hsame := h.determined s t a (by simpa using ha) hs hst
      rw [List.filter_cons_of_pos (by simp [ha]), run, run]
      rcases hstep : step s a with _ | u
      · rw [hstep] at hsame
        rw [Option.map_eq_none_iff.mp hsame.symm]
        rfl
      · rw [hstep] at hsame
        rcases Option.map_eq_some_iff.mp hsame.symm with ⟨v,hv,huv⟩
        rw [hv]
        exact ih u v (h.keeps s a u hs hstep) huv.symm

theorem runs_agree (h : Hides step view hidden Inv) (s t : σ) (as bs : List α) (hs : Inv (view s))
    (hst : view s = view t)
    (hab : as.filter (fun a => !hidden a) = bs.filter (fun a => !hidden a)) :
    (run step s as).map view = (run step t bs).map view := by
  rw [run_filter step view hidden Inv h as s t hs hst, hab,
    run_filter step view hidden Inv h bs t t (hst ▸ hs) rfl]

end Views

end HurriCache.PartialRun
