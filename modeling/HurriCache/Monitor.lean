import Mathlib.Logic.Basic

/-!
# Threads around a condition variable

A thread waits on a condition variable until a predicate holds, which it tests
under a mutex before it blocks. Other threads make the predicate true, under
the mutex or before they lock it, and notify afterwards. What matters of a
thread is its phase. As long as the predicate holds, somebody still is to
notify whoever is blocked: no wake-up is lost.
-/

set_option autoImplicit false

namespace HurriCache.Monitor

/-- `inside` and `refused` hold the mutex before and after a test that failed.
`announcing` has changed the state or will, and has yet to lock the mutex,
`publishing` holds it and `notifying` has released it again. -/
inductive Phase where
  | away
  | inside
  | refused
  | blocked
  | announcing
  | publishing
  | notifying

namespace Phase

def holds : Phase → Bool
  | .inside => true
  | .refused => true
  | .publishing => true
  | _ => false

def pending : Phase → Bool
  | .announcing => true
  | .publishing => true
  | .notifying => true
  | _ => false

def afterNotify : Phase → Phase
  | .blocked => .away
  | x => x

end Phase

/-- What one thread may do to its phase, when the predicate `p` becomes `p'`.
`free` says that nobody holds the mutex. -/
inductive Move (p p' free : Prop) : Phase → Phase → Prop where
  | stay (x : Phase) (hp : p' → p) : Move p p' free x x
  | enter (hf : free) (hp : p' → p) : Move p p' free .away .inside
  | leave (hp : p' → p) : Move p p' free .inside .away
  | refuse (hp : ¬p') : Move p p' free .inside .refused
  | block (hp : p' → p) : Move p p' free .refused .blocked
  | wake (hp : p' → p) : Move p p' free .blocked .away
  | announce : Move p p' free .away .announcing
  | seize (hf : free) (hp : p' → p) : Move p p' free .away .publishing
  | follow (hf : free) (hp : p' → p) : Move p p' free .announcing .publishing
  | publish : Move p p' free .publishing .publishing
  | release (hp : p' → p) : Move p p' free .publishing .notifying

section Threads

variable {ι : Type} (p p' : Prop) (phase phase' : ι → Phase)

/-- One holder of the mutex at most. A thread that is about to block although
the predicate holds is waited for, and one that is blocked will be notified. -/
structure Covered : Prop where
  exclusive : ∀ i j, (phase i).holds = true → (phase j).holds = true → i = j
  refused : p → ∀ i, phase i = .refused → ∃ j, phase j = .announcing
  blocked : p → ∀ i, phase i = .blocked → ∃ j, (phase j).pending = true

def Free : Prop := ∀ j, (phase j).holds = false

def Others (i : ι) : Prop := ∀ j, j ≠ i → phase' j = phase j

variable {p p' phase phase'}

theorem Move.holds_from {free : Prop} {x y : Phase} (h : Move p p' free x y)
    (hy : y.holds = true) : x.holds = true ∨ free := by
  cases h with
  | enter hf _ => exact Or.inr hf
  | seize hf _ => exact Or.inr hf
  | follow hf _ => exact Or.inr hf
  | stay _ _ => exact Or.inl hy
  | refuse _ => exact Or.inl rfl
  | publish => exact Or.inl rfl
  | leave _ => cases hy
  | block _ => cases hy
  | wake _ => cases hy
  | announce => cases hy
  | release _ => cases hy

theorem Move.pending_of {free : Prop} {x y : Phase} (h : Move p p' free x y)
    (hx : x.pending = true) : y.pending = true := by
  cases h with
  | stay _ _ => exact hx
  | follow _ _ => rfl
  | publish => rfl
  | release _ => rfl
  | enter _ _ => cases hx
  | leave _ => cases hx
  | refuse _ => cases hx
  | block _ => cases hx
  | wake _ => cases hx
  | announce => cases hx
  | seize _ _ => cases hx

theorem Move.raises {free : Prop} {x y : Phase} (h : Move p p' free x y) (hp' : p') :
    p ∨ y = .announcing ∨ (x = .publishing ∧ y = .publishing) := by
  cases h with
  | announce => exact Or.inr (Or.inl rfl)
  | publish => exact Or.inr (Or.inr ⟨rfl,rfl⟩)
  | refuse hp => exact absurd hp' hp
  | stay _ hp => exact Or.inl (hp hp')
  | enter _ hp => exact Or.inl (hp hp')
  | leave hp => exact Or.inl (hp hp')
  | block hp => exact Or.inl (hp hp')
  | wake hp => exact Or.inl (hp hp')
  | seize _ hp => exact Or.inl (hp hp')
  | follow _ hp => exact Or.inl (hp hp')
  | release hp => exact Or.inl (hp hp')

theorem Move.refused_from {free : Prop} {x y : Phase} (h : Move p p' free x y) (hp' : p')
    (hy : y = .refused) : p ∧ x = .refused := by
  cases h with
  | stay _ hp => exact ⟨hp hp',hy⟩
  | refuse hp => exact absurd hp' hp
  | _ => cases hy

theorem Move.blocked_from {free : Prop} {x y : Phase} (h : Move p p' free x y) (hp' : p')
    (hy : y = .blocked) : p ∧ (x = .blocked ∨ x = .refused) := by
  cases h with
  | stay _ hp => exact ⟨hp hp',Or.inl hy⟩
  | block hp => exact ⟨hp hp',Or.inr rfl⟩
  | _ => cases hy

theorem Move.announcing_to {free : Prop} {x y : Phase} (h : Move p p' free x y)
    (hx : x = .announcing) : y = .announcing ∨ free := by
  cases h with
  | stay _ _ => exact Or.inl hx
  | follow hf _ => exact Or.inr hf
  | _ => cases hx

variable {i : ι} (h : Covered p phase) (ho : Others phase phase' i)
  (hm : Move p p' (Free phase) (phase i) (phase' i))
include h ho hm

theorem exclusive_move (j k : ι) (hj : (phase' j).holds = true) (hk : (phase' k).holds = true) :
    j = k := by
  have holder : ∀ l, (phase' l).holds = true → (phase l).holds = true ∨ (l = i ∧ Free phase) := by
    intro l hl
    by_cases hli : l = i
    · subst hli
      exact (hm.holds_from hl).imp_right (fun hf => ⟨rfl,hf⟩)
    · rw [ho l hli] at hl
      exact Or.inl hl
  rcases holder j hj with hj' | ⟨rfl,hf⟩
  · rcases holder k hk with hk' | ⟨rfl,hf⟩
    · exact h.exclusive j k hj' hk'
    · exact absurd hj' (by simp [hf j])
  · rcases holder k hk with hk' | ⟨rfl,-⟩
    · exact absurd hk' (by simp [hf k])
    · rfl

omit h in
theorem pending_move (hp : ∃ j, (phase j).pending = true) : ∃ j, (phase' j).pending = true := by
  obtain ⟨j,hj⟩ := hp
  refine ⟨j,?_⟩
  by_cases hji : j = i
  · subst hji
    exact hm.pending_of hj
  · rw [ho j hji]
    exact hj

omit h in
theorem announcing_move (k : ι) (hk : phase k = .refused)
    (hp : ∃ j, phase j = .announcing) : ∃ j, phase' j = .announcing := by
  obtain ⟨j,hj⟩ := hp
  refine ⟨j,?_⟩
  by_cases hji : j = i
  · subst hji
    rcases hm.announcing_to hj with ha | hf
    · exact ha
    · exact absurd (hf k) (by simp [hk, Phase.holds])
  · rw [ho j hji]
    exact hj

theorem refused_move (hp' : p') (k : ι) (hk : phase' k = .refused) :
    ∃ j, phase' j = .announcing := by
  have hback : phase k = .refused ∧ (p ∨ phase' i = .announcing) := by
    by_cases hki : k = i
    · subst hki
      obtain ⟨hp,hr⟩ := hm.refused_from hp' hk
      exact ⟨hr,Or.inl hp⟩
    · rw [ho k hki] at hk
      refine ⟨hk,?_⟩
      rcases hm.raises hp' with hp | ha | ⟨hx,-⟩
      · exact Or.inl hp
      · exact Or.inr ha
      · -- the mutex is not held twice
        exact absurd (h.exclusive k i (by simp [hk, Phase.holds]) (by simp [hx, Phase.holds])) hki
  obtain ⟨hr,hp | ha⟩ := hback
  · exact announcing_move ho hm k hr (h.refused hp k hr)
  · exact ⟨i,ha⟩

theorem blocked_move (hp' : p') (k : ι) (hk : phase' k = .blocked) :
    ∃ j, (phase' j).pending = true := by
  by_cases hki : k = i
  · subst hki
    obtain ⟨hp,hb | hr⟩ := hm.blocked_from hp' hk
    · exact pending_move ho hm (h.blocked hp k hb)
    · obtain ⟨j,hj⟩ := h.refused hp k hr
      exact pending_move ho hm ⟨j,by simp [hj, Phase.pending]⟩
  · rw [ho k hki] at hk
    rcases hm.raises hp' with hp | ha | ⟨-,hy⟩
    · exact pending_move ho hm (h.blocked hp k hk)
    · exact ⟨i,by simp [ha, Phase.pending]⟩
    · exact ⟨i,by simp [hy, Phase.pending]⟩

theorem move_covered : Covered p' phase' where
  exclusive := exclusive_move h ho hm
  refused := refused_move h ho hm
  blocked := blocked_move h ho hm

end Threads

section Notification

variable {ι : Type} {p p' : Prop} {phase phase' : ι → Phase} {i : ι}

theorem notify_covered (h : Covered p phase) (hp : p' → p) (hi : phase i = .notifying)
    (hi' : phase' i = .away) (ho : ∀ j, j ≠ i → phase' j = (phase j).afterNotify) :
    Covered p' phase' := by
  have hback : ∀ j x, phase' j = x → x ≠ .away → x ≠ .blocked ∧ phase j = x ∧ j ≠ i := by
    intro j x hj hx
    have hji : j ≠ i := by
      rintro rfl
      exact hx (hj.symm.trans hi')
    rw [ho j hji] at hj
    cases hphase : phase j with
    | blocked =>
      rw [hphase] at hj
      exact absurd hj.symm hx
    | _ =>
      rw [hphase] at hj
      exact ⟨by rw [← hj]; rintro ⟨⟩,hj,hji⟩
  have hholds : ∀ j, (phase' j).holds = true → (phase j).holds = true := by
    intro j hj
    obtain ⟨-,hsame,-⟩ := hback j _ rfl (by
      intro haway
      rw [haway] at hj
      cases hj)
    rw [hsame]
    exact hj
  refine ⟨fun j k hj hk => h.exclusive j k (hholds j hj) (hholds k hk),?_,?_⟩
  · intro hp' j hj
    obtain ⟨-,hr,-⟩ := hback j .refused hj (by rintro ⟨⟩)
    obtain ⟨k,hk⟩ := h.refused (hp hp') j hr
    have hki : k ≠ i := by
      rintro rfl
      rw [hi] at hk
      cases hk
    exact ⟨k,by rw [ho k hki, hk]; rfl⟩
  · intro _ j hj
    exact absurd rfl (hback j .blocked hj (by rintro ⟨⟩)).1

end Notification

end HurriCache.Monitor
