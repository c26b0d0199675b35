import Mathlib.Data.List.Nodup

/-!
# Objects served by a completion queue

A queue knows the tags of the operations that are outstanding on it. An object
goes by its tag and has at most one operation outstanding. A completion makes
the object start its next operation or delete itself. No work may be given to
a queue that is shut down, and no completion may find a deleted object: both
are breaches, not behaviours.
-/

set_option autoImplicit false

namespace HurriCache.CompletionQueue

inductive Breach where
  | workAfterShutdown
  | deletedObject
  deriving DecidableEq, Repr

structure Queue where
  outstanding : List ℕ := []
  shutdown : Bool := false
  deriving DecidableEq

def Queue.start (queue : Queue) (tag : ℕ) : Except Breach Queue :=
  if queue.shutdown then .error .workAfterShutdown
  else .ok { queue with outstanding := queue.outstanding++[tag] }

def Queue.finish (queue : Queue) (tag : ℕ) : Queue :=
  { queue with outstanding := queue.outstanding.erase tag }

/-- What `Next` reports when it stops to wait for events. -/
def Queue.drained (queue : Queue) : Bool := queue.shutdown && queue.outstanding.isEmpty

/-- Objects that complete operations by events. An object that is not deleted
waits for the operation it has started. -/
structure ObjectKind (C E : Type) where
  waits : C → Bool
  deleted : C → Bool
  completes : C → E → Option C
  alternates : ∀ c e c', deleted c = false → completes c e = some c' → waits c' = !deleted c'

structure Served (C : Type) where
  queue : Queue := {}
  objects : List C := []

section Operations

variable {C E : Type} (kind : ObjectKind C E)

def Served.create (s : Served C) (c : C) : Except Breach (Served C) :=
  (s.queue.start s.objects.length).map (fun queue => ⟨queue,s.objects++[c]⟩)

def Served.resume (s : Served C) (tag : ℕ) (c : C) : Except Breach (Served C) :=
  if kind.waits c then
    ((s.queue.finish tag).start tag).map (fun queue => ⟨queue,s.objects.set tag c⟩)
  else .ok ⟨s.queue.finish tag,s.objects.set tag c⟩

/-- One event of the queue. There is no result where no operation with that
tag can complete in that way. -/
def Served.deliver (s : Served C) (tag : ℕ) (event : E) : Option (Except Breach (Served C)) :=
  if tag ∈ s.queue.outstanding then
    match s.objects[tag]? with
    | none => some (.error .deletedObject)
    | some c =>
      if kind.deleted c then some (.error .deletedObject)
      else (kind.completes c event).map (s.resume kind tag)
  else none

def Served.close (s : Served C) : Served C :=
  { s with queue := { s.queue with shutdown := true } }

end Operations

section Accounting

variable {C E : Type} (kind : ObjectKind C E)

/-- The outstanding tags are those of the objects that are not deleted, each
one once. -/
structure Accounted (s : Served C) : Prop where
  nodup : s.queue.outstanding.Nodup
  known : ∀ tag ∈ s.queue.outstanding, tag < s.objects.length
  waits : ∀ (tag : ℕ) (c : C), s.objects[tag]? = some c → kind.waits c = !kind.deleted c
  outstanding : ∀ (tag : ℕ) (c : C), s.objects[tag]? = some c →
    (tag ∈ s.queue.outstanding ↔ kind.deleted c = false)

theorem empty_accounted : Accounted kind {} where
  nodup := List.nodup_nil
  known := fun _ h => absurd h List.not_mem_nil
  waits := fun _ _ h => by cases h
  outstanding := fun _ _ h => by cases h

theorem start_ok (queue next : Queue) (tag : ℕ) (h : queue.start tag = .ok next) :
    queue.shutdown = false ∧ next = { queue with outstanding := queue.outstanding++[tag] } := by
  unfold Queue.start at h
  split at h
  · cases h
  next hs =>
    cases h
    exact ⟨by simpa using hs,rfl⟩

theorem start_error (queue : Queue) (tag : ℕ) (b : Breach) :
    queue.start tag = .error b ↔ queue.shutdown = true ∧ b = .workAfterShutdown := by
  unfold Queue.start
  by_cases hs : queue.shutdown = true <;> simp [hs, eq_comm]

theorem create_ok (s t : Served C) (c : C) (h : s.create c = .ok t) :
    s.queue.shutdown = false ∧
      t = ⟨{ s.queue with outstanding := s.queue.outstanding++[s.objects.length] },
        s.objects++[c]⟩ := by
  unfold Served.create at h
  cases hq : s.queue.start s.objects.length with
  | error b =>
    rw [hq] at h
    cases h
  | ok queue =>
    rw [hq] at h
    cases h
    obtain ⟨hs,rfl⟩ := start_ok _ _ _ hq
    exact ⟨hs,rfl⟩

theorem create_error (s : Served C) (c : C) (b : Breach) :
    s.create c = .error b ↔ s.queue.shutdown = true ∧ b = .workAfterShutdown := by
  rw [← start_error s.queue s.objects.length b, Served.create]
  cases s.queue.start s.objects.length <;> simp [Except.map]

theorem getElem?_append_new {A : Type} (l : List A) (a b : A) (n : ℕ)
    (h : (l++[a])[n]? = some b) : l[n]? = some b ∨ n = l.length ∧ b = a := by
  by_cases hlt : n < l.length
  · rw [List.getElem?_append_left hlt] at h
    exact Or.inl h
  · rw [List.getElem?_append_right (Nat.le_of_not_lt hlt)] at h
    have hz : n-l.length = 0 := by
      obtain ⟨hb,_⟩ := List.getElem?_eq_some_iff.mp h
      simpa using hb
    rw [hz] at h
    exact Or.inr ⟨by omega,(Option.some.inj h).symm⟩

theorem getElem?_set_new {A : Type} (l : List A) (a b : A) (m n : ℕ)
    (h : (l.set m a)[n]? = some b) : n ≠ m ∧ l[n]? = some b ∨ n = m ∧ b = a := by
  by_cases hne : m = n
  · subst hne
    have hlt : m < l.length := by
      obtain ⟨hb,_⟩ := List.getElem?_eq_some_iff.mp h
      simpa using hb
    rw [List.getElem?_set_self hlt] at h
    exact Or.inr ⟨rfl,(Option.some.inj h).symm⟩
  · rw [List.getElem?_set_ne hne] at h
    exact Or.inl ⟨fun he => hne he.symm,h⟩

theorem create_accounted (s t : Served C) (c : C) (hs : Accounted kind s)
    (hw : kind.waits c = true) (hd : kind.deleted c = false) (h : s.create c = .ok t) :
    Accounted kind t := by
  obtain ⟨_,rfl⟩ := create_ok s t c h
  have hfresh : s.objects.length ∉ s.queue.outstanding :=
    fun hm => Nat.lt_irrefl _ (hs.known _ hm)
  refine ⟨?_,?_,?_,?_⟩
  · exact hs.nodup.append (List.nodup_singleton _)
      (List.disjoint_singleton.mpr hfresh)
  · intro tag ht
    rw [List.length_append, List.length_singleton]
    cases List.mem_append.mp ht with
    | inl hold => exact Nat.lt_succ_of_lt (hs.known tag hold)
    | inr hnew =>
      rw [List.mem_singleton.mp hnew]
      exact Nat.lt_succ_self _
  · intro tag c' hc
    rcases getElem?_append_new s.objects c c' tag hc with hold | ⟨_,rfl⟩
    · exact hs.waits tag c' hold
    · rw [hw, hd]
      rfl
  · intro tag c' hc
    rcases getElem?_append_new s.objects c c' tag hc with hold | ⟨rfl,rfl⟩
    · have hne : tag ≠ s.objects.length := by
        obtain ⟨hb,_⟩ := List.getElem?_eq_some_iff.mp hold
        omega
      simpa [hne] using hs.outstanding tag c' hold
    · simp [hd]

theorem deliver_cases (s : Served C) (tag : ℕ) (event : E) (r : Except Breach (Served C))
    (hs : Accounted kind s) (h : s.deliver kind tag event = some r) :
    ∃ c c', tag ∈ s.queue.outstanding ∧ s.objects[tag]? = some c ∧ kind.deleted c = false ∧
      kind.completes c event = some c' ∧ r = s.resume kind tag c' := by
  unfold Served.deliver at h
  split at h
  next hmem =>
    cases hc : s.objects[tag]? with
    | none =>
      have := List.getElem?_eq_none_iff.mp hc
      exact absurd (hs.known tag hmem) (Nat.not_lt.mpr this)
    | some c =>
      have hd := (hs.outstanding tag c hc).mp hmem
      simp only [hc, hd, Bool.false_eq_true, if_false] at h
      obtain ⟨c',hc',rfl⟩ := Option.map_eq_some_iff.mp h
      exact ⟨c,c',hmem,rfl,hd,hc',rfl⟩
  next => cases h

/-- An event breaks no rule but by asking a queue that is shut down for more. -/
theorem resume_error (s : Served C) (tag : ℕ) (c : C) (b : Breach) :
    s.resume kind tag c = .error b ↔
      kind.waits c = true ∧ s.queue.shutdown = true ∧ b = .workAfterShutdown := by
  unfold Served.resume
  by_cases hw : kind.waits c = true
  · simp only [hw, if_true, true_and]
    have hstart := start_error (s.queue.finish tag) tag b
    rw [show (s.queue.finish tag).shutdown = s.queue.shutdown from rfl] at hstart
    rw [← hstart]
    cases (s.queue.finish tag).start tag <;> simp [Except.map]
  · simp [hw]

theorem resume_ok (s t : Served C) (tag : ℕ) (c : C) (h : s.resume kind tag c = .ok t) :
    t.objects = s.objects.set tag c ∧ t.queue.shutdown = s.queue.shutdown ∧
      t.queue.outstanding = s.queue.outstanding.erase tag++
        (if kind.waits c then [tag] else []) := by
  unfold Served.resume at h
  split at h
  next hw =>
    cases hq : (s.queue.finish tag).start tag with
    | error b =>
      rw [hq] at h
      cases h
    | ok queue =>
      rw [hq] at h
      cases h
      obtain ⟨_,rfl⟩ := start_ok _ _ _ hq
      simp [hw, Queue.finish]
  next hw =>
    cases h
    simp [hw, Queue.finish]

theorem resume_accounted (s t : Served C) (tag : ℕ) (c : C) (hs : Accounted kind s)
    (hmem : tag ∈ s.queue.outstanding) (hc : kind.waits c = !kind.deleted c)
    (h : s.resume kind tag c = .ok t) : Accounted kind t := by
  obtain ⟨hobjects,_,hqueue⟩ := resume_ok kind s t tag c h
  have hgone : tag ∉ s.queue.outstanding.erase tag := hs.nodup.not_mem_erase
  have hother : ∀ other, other ≠ tag →
      (other ∈ t.queue.outstanding ↔ other ∈ s.queue.outstanding) := by
    intro other hne
    rw [hqueue, List.mem_append, List.mem_erase_of_ne hne]
    cases kind.waits c <;> simp [hne]
  have hget : ∀ other c', t.objects[other]? = some c' →
      other ≠ tag ∧ s.objects[other]? = some c' ∨ other = tag ∧ c' = c := by
    intro other c' hother
    rw [hobjects] at hother
    exact getElem?_set_new s.objects c c' tag other hother
  refine ⟨?_,?_,?_,?_⟩
  · rw [hqueue]
    cases kind.waits c with
    | false => simpa using hs.nodup.erase tag
    | true =>
      exact (hs.nodup.erase tag).append (List.nodup_singleton _)
        (List.disjoint_singleton.mpr hgone)
  · intro other ho
    rw [hobjects, List.length_set]
    by_cases hne : other = tag
    · exact hne ▸ hs.known tag hmem
    · exact hs.known other ((hother other hne).mp ho)
  · intro other c' ho
    rcases hget other c' ho with ⟨_,hold⟩ | ⟨_,rfl⟩
    · exact hs.waits other c' hold
    · exact hc
  · intro other c' ho
    rcases hget other c' ho with ⟨hne,hold⟩ | ⟨rfl,rfl⟩
    · rw [hother other hne]
      exact hs.outstanding other c' hold
    · rw [hqueue, List.mem_append]
      cases hd : kind.deleted c' <;> simp [hc, hd, hgone]

theorem deliver_accounted (s t : Served C) (tag : ℕ) (event : E) (hs : Accounted kind s)
    (h : s.deliver kind tag event = some (.ok t)) : Accounted kind t := by
  obtain ⟨c,c',hmem,hc,hd,hcomp,hr⟩ := deliver_cases kind s tag event _ hs h
  exact resume_accounted kind s t tag c' hs hmem (kind.alternates c event c' hd hcomp) hr.symm

theorem close_accounted (s : Served C) (hs : Accounted kind s) : Accounted kind s.close :=
  ⟨hs.nodup,hs.known,hs.waits,hs.outstanding⟩

theorem drained_deleted (s : Served C) (hs : Accounted kind s) (h : s.queue.drained = true)
    (c : C) (hc : c ∈ s.objects) : kind.deleted c = true := by
  obtain ⟨tag,htag⟩ := List.mem_iff_getElem?.mp hc
  have hempty : s.queue.outstanding = [] := by
    simp only [Queue.drained, Bool.and_eq_true, List.isEmpty_iff] at h
    exact h.2
  by_contra hd
  have hmem := (hs.outstanding tag c htag).mpr (by simpa using hd)
  rw [hempty] at hmem
  cases hmem

end Accounting

section Tags

variable {P : Type} (tagOf : P → Option ℕ)

structure Tagged (callers : List P) (n : ℕ) : Prop where
  known : ∀ (x : ℕ) (p : P) (tag : ℕ), callers[x]? = some p → tagOf p = some tag → tag < n
  once : ∀ (x y : ℕ) (p q : P) (tag : ℕ), callers[x]? = some p → callers[y]? = some q →
    tagOf p = some tag → tagOf q = some tag → x = y

theorem tagged_nil (n : ℕ) : Tagged tagOf [] n where
  known := fun _ _ _ h => by cases h
  once := fun _ _ _ _ _ h => by cases h

theorem tagged_append (callers : List P) (n : ℕ) (p : P) (hp : tagOf p = none)
    (h : Tagged tagOf callers n) : Tagged tagOf (callers++[p]) n := by
  have hold : ∀ (x : ℕ) (q : P) (tag : ℕ), (callers++[p])[x]? = some q → tagOf q = some tag →
      callers[x]? = some q := by
    intro x q tag hx hq
    rcases getElem?_append_new callers p q x hx with ho | ⟨_,rfl⟩
    · exact ho
    · rw [hp] at hq
      cases hq
  exact ⟨fun x q tag hx hq => h.known x q tag (hold x q tag hx hq) hq,
    fun x y q r tag hx hy hq hr =>
      h.once x y q r tag (hold x q tag hx hq) (hold y r tag hy hr) hq hr⟩

theorem tagged_move (callers : List P) (n x : ℕ) (p : P) (hp : tagOf p = none)
    (h : Tagged tagOf callers n) : Tagged tagOf (callers.set x p) n := by
  have hold : ∀ (z : ℕ) (q : P) (tag : ℕ), (callers.set x p)[z]? = some q →
      tagOf q = some tag → callers[z]? = some q := by
    intro z q tag hz hq
    rcases getElem?_set_new callers p q x z hz with ⟨_,ho⟩ | ⟨_,rfl⟩
    · exact ho
    · rw [hp] at hq
      cases hq
  exact ⟨fun z q tag hz hq => h.known z q tag (hold z q tag hz hq) hq,
    fun z w q r tag hz hw hq hr =>
      h.once z w q r tag (hold z q tag hz hq) (hold w r tag hw hr) hq hr⟩

theorem tagged_start (callers : List P) (n x : ℕ) (p : P) (hp : tagOf p = some n)
    (h : Tagged tagOf callers n) : Tagged tagOf (callers.set x p) (n+1) := by
  have hold : ∀ (z : ℕ) (q : P) (tag : ℕ), (callers.set x p)[z]? = some q →
      tagOf q = some tag → callers[z]? = some q ∧ tag < n ∨ z = x ∧ tag = n := by
    intro z q tag hz hq
    rcases getElem?_set_new callers p q x z hz with ⟨_,ho⟩ | ⟨rfl,rfl⟩
    · exact Or.inl ⟨ho,h.known z q tag ho hq⟩
    · exact Or.inr ⟨rfl,(Option.some.inj (hp.symm.trans hq)).symm⟩
  refine ⟨fun z q tag hz hq => ?_,fun z w q r tag hz hw hq hr => ?_⟩
  · rcases hold z q tag hz hq with ⟨_,hlt⟩ | ⟨_,rfl⟩
    · exact Nat.lt_succ_of_lt hlt
    · exact Nat.lt_succ_self _
  · rcases hold z q tag hz hq with ⟨hzo,hlt⟩ | ⟨rfl,rfl⟩
    · rcases hold w r tag hw hr with ⟨hwo,_⟩ | ⟨_,rfl⟩
      · exact h.once z w q r tag hzo hwo hq hr
      · exact absurd hlt (Nat.lt_irrefl _)
    · rcases hold w r tag hw hr with ⟨_,hlt⟩ | ⟨rfl,_⟩
      · exact absurd hlt (Nat.lt_irrefl _)
      · rfl

end Tags

section Properties

variable {C E : Type} (kind : ObjectKind C E) (P : C → Prop)

theorem create_forall (s t : Served C) (c : C) (hs : ∀ o ∈ s.objects, P o) (hc : P c)
    (h : s.create c = .ok t) : ∀ o ∈ t.objects, P o := by
  obtain ⟨_,rfl⟩ := create_ok s t c h
  intro o ho
  cases List.mem_append.mp ho with
  | inl hold => exact hs o hold
  | inr hnew => exact List.mem_singleton.mp hnew ▸ hc

theorem deliver_forall (s t : Served C) (tag : ℕ) (event : E) (hs : Accounted kind s)
    (hP : ∀ c c', kind.deleted c = false → P c → kind.completes c event = some c' → P c')
    (h0 : ∀ o ∈ s.objects, P o) (h : s.deliver kind tag event = some (.ok t)) :
    ∀ o ∈ t.objects, P o := by
  obtain ⟨c,c',_,hc,hd,hcomp,hr⟩ := deliver_cases kind s tag event _ hs h
  obtain ⟨hobjects,_,_⟩ := resume_ok kind s t tag c' hr.symm
  intro o ho
  rw [hobjects] at ho
  cases List.mem_or_eq_of_mem_set ho with
  | inl hold => exact h0 o hold
  | inr he => exact he ▸ hP c c' hd (h0 c (List.mem_of_getElem? hc)) hcomp

end Properties

section Independence

variable {C E : Type} (kind : ObjectKind C E)

def lifetime (c : C) : List E → Option C
  | [] => some c
  | event::events => (kind.completes c event).bind (fun c' => lifetime c' events)

theorem lifetime_append (c : C) (es fs : List E) :
    lifetime kind c (es++fs) = (lifetime kind c es).bind (fun c' => lifetime kind c' fs) := by
  induction es generalizing c with
  | nil => rfl
  | cons event events ih =>
    simp only [List.cons_append, lifetime]
    cases kind.completes c event with
    | none => rfl
    | some c' => exact ih c'

def eventsOf (history : List (ℕ × E)) (tag : ℕ) : List E :=
  (history.filter (fun entry => entry.1 == tag)).map (·.2)

theorem eventsOf_append (xs ys : List (ℕ × E)) (tag : ℕ) :
    eventsOf (xs++ys) tag = eventsOf xs tag++eventsOf ys tag := by
  simp [eventsOf]

def Independent (births : List C) (history : List (ℕ × E)) (s : Served C) : Prop :=
  s.objects.length = births.length ∧ (∀ entry ∈ history, entry.1 < births.length) ∧
    ∀ tag b c, births[tag]? = some b → s.objects[tag]? = some c →
      lifetime kind b (eventsOf history tag) = some c

theorem eventsOf_unknown (history : List (ℕ × E)) (n : ℕ)
    (h : ∀ entry ∈ history, entry.1 < n) : eventsOf history n = [] := by
  have hfilter : history.filter (fun entry => entry.1 == n) = [] := by
    rw [List.filter_eq_nil_iff]
    intro entry he
    simp [Nat.ne_of_lt (h entry he)]
  rw [eventsOf, hfilter]
  rfl

theorem create_independent (births : List C) (history : List (ℕ × E)) (s t : Served C) (c : C)
    (hs : Independent kind births history s) (h : s.create c = .ok t) :
    Independent kind (births++[c]) history t := by
  obtain ⟨hlen,hknown,hlife⟩ := hs
  obtain ⟨_,rfl⟩ := create_ok s t c h
  refine ⟨by simp [hlen],?_,?_⟩
  · intro entry he
    rw [List.length_append]
    exact Nat.lt_add_right _ (hknown entry he)
  · intro tag b o hb ho
    rcases getElem?_append_new births c b tag hb with hbold | ⟨rfl,rfl⟩
    · rcases getElem?_append_new s.objects c o tag ho with hoold | ⟨htag,_⟩
      · exact hlife tag b o hbold hoold
      · obtain ⟨hlt,_⟩ := List.getElem?_eq_some_iff.mp hbold
        omega
    · rcases getElem?_append_new s.objects b o births.length ho with hoold | ⟨_,rfl⟩
      · obtain ⟨hlt,_⟩ := List.getElem?_eq_some_iff.mp hoold
        omega
      · rw [eventsOf_unknown history births.length hknown]
        rfl

theorem deliver_independent (births : List C) (history : List (ℕ × E)) (s t : Served C)
    (tag : ℕ) (event : E) (ha : Accounted kind s) (hs : Independent kind births history s)
    (h : s.deliver kind tag event = some (.ok t)) :
    Independent kind births (history++[(tag,event)]) t := by
  obtain ⟨hlen,hknown,hlife⟩ := hs
  obtain ⟨c,c',hmem,hc,_,hcomp,hr⟩ := deliver_cases kind s tag event _ ha h
  obtain ⟨hobjects,_,_⟩ := resume_ok kind s t tag c' hr.symm
  have hlt := ha.known tag hmem
  refine ⟨by rw [hobjects, List.length_set, hlen],?_,?_⟩
  · intro entry he
    cases List.mem_append.mp he with
    | inl hold => exact hknown entry hold
    | inr hnew =>
      rw [List.mem_singleton.mp hnew]
      exact hlen ▸ hlt
  · intro other b o hb ho
    rw [hobjects] at ho
    rw [eventsOf_append]
    by_cases hne : tag = other
    · subst hne
      rw [List.getElem?_set_self hlt] at ho
      rw [lifetime_append, hlife tag b c hb hc]
      simp [eventsOf, lifetime, hcomp, Option.some.inj ho]
    · rw [List.getElem?_set_ne hne] at ho
      have hnone : eventsOf [(tag,event)] other = [] := by simp [eventsOf, hne]
      rw [hnone, List.append_nil]
      exact hlife other b o hb ho

end Independence

end HurriCache.CompletionQueue
