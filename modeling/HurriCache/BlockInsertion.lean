import Mathlib.Data.List.Basic

/-!
# Inserting blocks beside a value

A block goes before or after the first occurrence of a value. A chain inserts
one block after the other, each behind the last element of the one before.
It builds the concatenated block at every stage exactly when each new block
commutes with what separates its anchor's first occurrence from the point of
insertion.
-/

set_option autoImplicit false

namespace HurriCache.BlockInsertion

variable {α : Type} [DecidableEq α]

def insertBefore (p : α) (block : List α) : List α → List α
  | [] => []
  | a::as => if a = p then block++a::as else a::insertBefore p block as

def insertAfter (p : α) (block : List α) : List α → List α
  | [] => []
  | a::as => if a = p then a::(block++as) else a::insertAfter p block as

def beforeFirst (p : α) : List α → List α
  | [] => []
  | a::as => if a = p then [] else a::beforeFirst p as

def afterFirst (p : α) : List α → List α
  | [] => []
  | a::as => if a = p then as else afterFirst p as

theorem insertBefore_split (p : α) (block pre post : List α) (hp : p ∉ pre) :
    insertBefore p block (pre++p::post) = pre++(block++p::post) := by
  induction pre with
  | nil => simp [insertBefore]
  | cons a as ih =>
    have ha : a ≠ p := fun h => hp (by simp [h])
    have hrest := ih (fun h => hp (List.mem_cons_of_mem a h))
    simp [insertBefore, ha, hrest]

theorem insertAfter_split (p : α) (block pre post : List α) (hp : p ∉ pre) :
    insertAfter p block (pre++p::post) = pre++p::(block++post) := by
  induction pre with
  | nil => simp [insertAfter]
  | cons a as ih =>
    have ha : a ≠ p := fun h => hp (by simp [h])
    have hrest := ih (fun h => hp (List.mem_cons_of_mem a h))
    simp [insertAfter, ha, hrest]

theorem beforeFirst_split (p : α) (pre post : List α) (hp : p ∉ pre) :
    beforeFirst p (pre++p::post) = pre := by
  induction pre with
  | nil => simp [beforeFirst]
  | cons a as ih =>
    have ha : a ≠ p := fun h => hp (by simp [h])
    simp [beforeFirst, ha, ih (fun h => hp (List.mem_cons_of_mem a h))]

theorem afterFirst_split (p : α) (pre post : List α) (hp : p ∉ pre) :
    afterFirst p (pre++p::post) = post := by
  induction pre with
  | nil => simp [afterFirst]
  | cons a as ih =>
    have ha : a ≠ p := fun h => hp (by simp [h])
    simp [afterFirst, ha, ih (fun h => hp (List.mem_cons_of_mem a h))]

/-- One anchored insertion lands at the end of `front` exactly when the block
commutes with what follows the anchor there. -/
theorem insertAfter_exact_iff (p : α) (block front post : List α) (hp : p ∈ front) :
    insertAfter p block (front++post) = front++(block++post) ↔
      block++afterFirst p front = afterFirst p front++block := by
  obtain ⟨u,v,rfl,hu⟩ := List.eq_append_cons_of_mem hp
  have hl : insertAfter p block (u++p::v++post) = u++p::(block++(v++post)) := by
    have h := insertAfter_split p block u (v++post) hu
    simpa using h
  rw [hl, afterFirst_split p u v hu]
  constructor
  · intro h
    have h' : block++v++post = v++block++post := by simpa using h
    exact List.append_cancel_right h'
  · intro h
    have h' : block++(v++post) = v++(block++post) := by
      rw [← List.append_assoc, h, List.append_assoc]
    simp [h']

def insertChain (anchor : α) : List (List α) → List α → List α
  | [], c => c
  | b::bs, c => insertChain (b.getLastD anchor) bs (insertAfter anchor b c)

/-- Every block commutes with what follows its anchor. `front` ends with the
anchor of the first block. -/
def ChainSafe (anchor : α) (front : List α) : List (List α) → Prop
  | [] => True
  | b::bs => b++afterFirst anchor front = afterFirst anchor front++b ∧
      ChainSafe (b.getLastD anchor) (front++b) bs

omit [DecidableEq α] in
theorem getLastD_mem (b : List α) (hb : b ≠ []) (anchor : α) : b.getLastD anchor ∈ b := by
  have h : b.getLastD anchor = b.getLast hb := by
    simp [List.getLastD_eq_getLast?, List.getLast?_eq_getLast_of_ne_nil hb]
  rw [h]
  exact List.getLast_mem hb

omit [DecidableEq α] in
theorem getLastD_mem_append (anchor : α) (front b : List α) (hp : anchor ∈ front) :
    b.getLastD anchor ∈ front++b := by
  by_cases hb : b = []
  · simpa [hb] using hp
  · exact List.mem_append_right front (getLastD_mem b hb anchor)

theorem chain_exact_iff (anchor : α) (front post : List α) (blocks : List (List α))
    (hp : anchor ∈ front) :
    (∀ k ≤ blocks.length, insertChain anchor (blocks.take k) (front++post) =
      front++((blocks.take k).flatten++post)) ↔ ChainSafe anchor front blocks := by
  induction blocks generalizing anchor front with
  | nil => simp [insertChain, ChainSafe]
  | cons b bs ih =>
    have hmem := getLastD_mem_append anchor front b hp
    have hstep := insertAfter_exact_iff anchor b front post hp
    constructor
    · intro h
      have h1 : insertAfter anchor b (front++post) = front++(b++post) := by
        simpa [insertChain] using h 1 (by simp)
      refine ⟨hstep.mp h1,(ih (b.getLastD anchor) (front++b) hmem).mp ?_⟩
      intro k hk
      have hk1 := h (k+1) (by simpa using hk)
      rw [List.take_succ_cons, insertChain, h1] at hk1
      simpa using hk1
    · rintro ⟨hb,hbs⟩ k hk
      have h1 := hstep.mpr hb
      cases k with
      | zero => simp [insertChain]
      | succ k =>
        have hrest := (ih (b.getLastD anchor) (front++b) hmem).mpr hbs k (by simpa using hk)
        rw [List.take_succ_cons, insertChain, h1]
        simpa using hrest

/-- The end result alone may agree although a block was misplaced. -/
example : insertChain 1 [[2],[1]] [1,2,1,3] = [1,2,1]++([[2],[1]].flatten++[3]) ∧
    insertChain 1 [[2]] [1,2,1,3] ≠ [1,2,1]++([[2]].flatten++[3]) := by
  decide

end HurriCache.BlockInsertion
