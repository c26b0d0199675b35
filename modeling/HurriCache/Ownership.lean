import Mathlib.Algebra.BigOperators.Group.List.Basic
import Mathlib.Algebra.GroupWithZero.Nat
import Mathlib.Data.List.Nodup
import Mathlib.Data.List.Perm.Basic

/-!
# Ownership of heap objects

A heap knows which addresses are allocated. An allocation always succeeds, and
a computation that deletes an address which is not allocated has no result. A
rule about a computation says what it takes over and what it hands on, beside
any addresses that somebody else owns. Loops that collect objects keep an
account of what they lose.
-/

set_option autoImplicit false

namespace HurriCache.Ownership

structure Heap where
  next : ℕ
  live : List ℕ
  nodup : live.Nodup
  below : ∀ a ∈ live, a < next

theorem Heap.fresh (h : Heap) : h.next ∉ h.live :=
  fun hmem => absurd (h.below _ hmem) (Nat.lt_irrefl _)

abbrev Mem : Type → Type := StateT Heap Option

def new : Mem ℕ := fun h => some (h.next,{
  next := h.next+1
  live := h.next::h.live
  nodup := List.nodup_cons.mpr ⟨h.fresh,h.nodup⟩
  below := fun a ha => by
    rcases List.mem_cons.mp ha with rfl | hmem
    · exact Nat.lt_succ_self _
    · exact Nat.lt_succ_of_lt (h.below a hmem) })

def delete (a : ℕ) : Mem Unit := fun h =>
  if a ∈ h.live then some ((),{ h with
    live := h.live.erase a
    nodup := h.nodup.erase a
    below := fun b hb => h.below b (List.mem_of_mem_erase hb) })
  else none

def deletePtr : Option ℕ → Mem Unit
  | some a => delete a
  | none => pure ()

section Rules

variable {A B : Type}

/-- From the addresses `pre` the computation gets to others that fit its
result. What else is allocated stays so. -/
def Turns (pre : List ℕ) (m : Mem A) (Q : A → List ℕ → Prop) : Prop :=
  ∀ (h : Heap) (rest : List ℕ), h.live.Perm (pre++rest) →
    ∃ a post h', m h = some (a,h') ∧ h'.live.Perm (post++rest) ∧ Q a post

variable {pre pre' : List ℕ} {m : Mem A} {f : A → Mem B} {Q R : A → List ℕ → Prop}
  {S : B → List ℕ → Prop}

theorem turns_pure (a : A) (h : Q a pre) : Turns pre (pure a) Q :=
  fun heap _ hp => ⟨a,pre,heap,rfl,hp,h⟩

theorem turns_bind (hm : Turns pre m Q) (hf : ∀ a post, Q a post → Turns post (f a) S) :
    Turns pre (m >>= f) S := by
  intro h rest hp
  obtain ⟨a,post,h',hrun,hp',hq⟩ := hm h rest hp
  obtain ⟨b,post',h'',hrun',hp'',hq'⟩ := hf a post hq h' rest hp'
  refine ⟨b,post',h'',?_,hp'',hq'⟩
  change (m h).bind (fun r => f r.1 r.2) = _
  rw [hrun]
  exact hrun'

theorem turns_weaken (hm : Turns pre m Q) (h : ∀ a post, Q a post → R a post) :
    Turns pre m R := by
  intro heap rest hp
  obtain ⟨a,post,h',hrun,hp',hq⟩ := hm heap rest hp
  exact ⟨a,post,h',hrun,hp',h a post hq⟩

theorem turns_perm (hp : pre.Perm pre') (hm : Turns pre m Q) : Turns pre' m Q :=
  fun h rest hlive => hm h rest (hlive.trans (hp.symm.append_right rest))

theorem turns_frame (frame : List ℕ) (hm : Turns pre m Q) :
    Turns (pre++frame) m (fun a post => ∃ own, post = own++frame ∧ Q a own) := by
  intro h rest hp
  obtain ⟨a,own,h',hrun,hp',hq⟩ := hm h (frame++rest) (by simpa using hp)
  exact ⟨a,own++frame,h',hrun,by simpa using hp',own,rfl,hq⟩

theorem turns_new : Turns [] new (fun a post => post = [a]) :=
  fun h _ hp => ⟨h.next,[h.next],_,rfl,hp.cons h.next,rfl⟩

theorem turns_delete (a : ℕ) : Turns [a] (delete a) (fun _ post => post = []) := by
  intro h rest hp
  have ha : a ∈ h.live := hp.mem_iff.mpr (by simp)
  refine ⟨(),[],_,if_pos ha,?_,rfl⟩
  have herase := hp.erase a
  rwa [List.singleton_append, List.erase_cons_head] at herase

theorem turns_deletePtr (p : Option ℕ) :
    Turns p.toList (deletePtr p) (fun _ post => post = []) := by
  cases p with
  | none => exact turns_pure () rfl
  | some a => exact turns_delete a

theorem turns_then (frame : List ℕ) (hm : Turns pre m Q)
    (hf : ∀ a own, Q a own → Turns (own++frame) (f a) S) : Turns (pre++frame) (m >>= f) S := by
  refine turns_bind (turns_frame frame hm) ?_
  rintro a post ⟨own,rfl,hq⟩
  exact hf a own hq

theorem turns_first (frame : List ℕ) (hm : Turns [] m Q)
    (hf : ∀ a own, Q a own → Turns (own++frame) (f a) S) : Turns frame (m >>= f) S :=
  turns_then frame hm hf

theorem turns_map (g : A → B) (hm : Turns pre m Q) (h : ∀ a post, Q a post → S (g a) post) :
    Turns pre (g <$> m) S :=
  turns_bind hm (fun a post hq => turns_pure (g a) (h a post hq))

end Rules

section Collections

variable {X E A : Type} (owned : E → List ℕ) (value : E → A)

/-- The computation makes objects with these values and loses so many addresses. -/
def Yields (pre : List ℕ) (m : Mem (List E)) (values : List A) (waste : ℕ) : Prop :=
  Turns pre m (fun es post => es.map value = values ∧
    ∃ lost : List ℕ, post.Perm (es.flatMap owned++lost) ∧ lost.length = waste)

def accumulate (step : X → Mem (List E)) (result : List E) (xs : List X) : Mem (List E) :=
  match xs with
  | [] => pure result
  | x::xs => do
    let es ← step x
    accumulate step (result++es) xs

def discard (free : E → Mem Unit) : List E → Mem Unit
  | [] => pure ()
  | e::es => do
    free e
    discard free es

variable {owned value}

theorem yields_accumulate (step : X → Mem (List E)) (read : X → List A) (waste : X → ℕ)
    (h : ∀ x, Yields owned value [] (step x) (read x) (waste x)) (xs : List X)
    (result : List E) (lost : List ℕ) :
    Yields owned value (result.flatMap owned++lost) (accumulate step result xs)
      (result.map value++xs.flatMap read) (lost.length+(xs.map waste).sum) := by
  induction xs generalizing result lost with
  | nil => exact turns_pure result ⟨by simp,lost,List.Perm.refl _,by simp⟩
  | cons x xs ih =>
    refine turns_first (result.flatMap owned++lost) (h x) ?_
    rintro es own ⟨hvalues,wasted,hperm,hlen⟩
    have hrest := ih (result++es) (lost++wasted)
    have hown : ((result++es).flatMap owned++(lost++wasted)).Perm
        (own++(result.flatMap owned++lost)) := by
      rw [List.flatMap_append]
      refine List.Perm.trans ?_ ((hperm.append_right _).symm)
      -- both sides hold the same four lists
      refine (List.perm_iff_count).mpr (fun a => ?_)
      simp only [List.count_append]
      omega
    refine turns_perm hown (turns_weaken hrest ?_)
    rintro rs post ⟨hmap,lost',hperm',hlen'⟩
    refine ⟨?_,lost',hperm',?_⟩
    · rw [hmap, List.map_append, hvalues, List.flatMap_cons, List.append_assoc]
    · rw [hlen', List.length_append, hlen, List.map_cons, List.sum_cons, Nat.add_assoc]

theorem turns_discard (free : E → Mem Unit)
    (h : ∀ e, Turns (owned e) (free e) (fun _ post => post = [])) (es : List E) :
    Turns (es.flatMap owned) (discard free es) (fun _ post => post = []) := by
  induction es with
  | nil => exact turns_pure () rfl
  | cons e es ih =>
    rw [List.flatMap_cons]
    refine turns_then _ (h e) ?_
    rintro _ own rfl
    exact ih

end Collections

end HurriCache.Ownership
