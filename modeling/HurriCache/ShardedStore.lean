import Mathlib.Data.List.Basic
import Mathlib.Logic.Function.Basic

/-!
# One store and the same store in shards

A request acts on the entry of one key and answers from it. Many nodes, each
with a store of its own, look like one store through a function that gives
every key its owner, as long as each request goes to the owner of its key.
Then no other node ever gets an entry for the key.
-/

set_option autoImplicit false

namespace HurriCache.ShardedStore

variable {K N E R : Type} [DecidableEq K] [DecidableEq N]

abbrev Store (K E : Type) := K → Option E

abbrev Cluster (N K E : Type) := N → Store K E

/-- What a request makes of the entry of its key, with its answer. -/
abbrev Effect (E R : Type) := Option E → R × Option E

def Store.act (store : Store K E) (key : K) (effect : Effect E R) : R × Store K E :=
  ((effect (store key)).1,Function.update store key (effect (store key)).2)

def Cluster.act (cluster : Cluster N K E) (node : N) (key : K) (effect : Effect E R) :
    R × Cluster N K E :=
  (((cluster node).act key effect).1,
    Function.update cluster node ((cluster node).act key effect).2)

def view (owner : K → N) (cluster : Cluster N K E) : Store K E := fun key =>
  cluster (owner key) key

def Placed (owner : K → N) (cluster : Cluster N K E) : Prop :=
  ∀ node key, node ≠ owner key → cluster node key = none

variable (owner : K → N) (cluster : Cluster N K E) (key : K) (effect : Effect E R)

theorem act_answer :
    (cluster.act (owner key) key effect).1 = ((view owner cluster).act key effect).1 := rfl

theorem act_view :
    view owner (cluster.act (owner key) key effect).2 =
      ((view owner cluster).act key effect).2 := by
  ext1 other
  by_cases hkey : other = key
  · subst hkey
    simp [view, Cluster.act, Store.act]
  · by_cases howner : owner other = owner key
    · simp [view, Cluster.act, Store.act, hkey, howner]
    · simp [view, Cluster.act, Store.act, hkey, howner]

theorem act_placed (h : Placed owner cluster) :
    Placed owner (cluster.act (owner key) key effect).2 := by
  intro node other hne
  by_cases hnode : node = owner key
  · subst hnode
    have hkey : other ≠ key := fun he => hne (by rw [he])
    simpa [Cluster.act, Store.act, hkey] using h _ other hne
  · simpa [Cluster.act, hnode] using h node other hne

section Runs

variable {A : Type} (keyOf : A → K) (effectOf : A → Effect E R)

def Store.serve (store : Store K E) : List A → List R × Store K E
  | [] => ([],store)
  | a::as =>
    let first := store.act (keyOf a) (effectOf a)
    let rest := Store.serve first.2 as
    (first.1::rest.1,rest.2)

def Cluster.serve (cluster : Cluster N K E) : List A → List R × Cluster N K E
  | [] => ([],cluster)
  | a::as =>
    let first := cluster.act (owner (keyOf a)) (keyOf a) (effectOf a)
    let rest := Cluster.serve first.2 as
    (first.1::rest.1,rest.2)

/-- Over any run the cluster is the one store, and each key stays with its
owner. -/
theorem serve_view (as : List A) (hplaced : Placed owner cluster) :
    (cluster.serve owner keyOf effectOf as).1 =
        ((view owner cluster).serve keyOf effectOf as).1 ∧
      view owner (cluster.serve owner keyOf effectOf as).2 =
        ((view owner cluster).serve keyOf effectOf as).2 ∧
      Placed owner (cluster.serve owner keyOf effectOf as).2 := by
  induction as generalizing cluster with
  | nil => exact ⟨rfl,rfl,hplaced⟩
  | cons a as ih =>
    have hrest := ih _ (act_placed owner cluster (keyOf a) (effectOf a) hplaced)
    rw [act_view] at hrest
    obtain ⟨hanswers,hview,hlast⟩ := hrest
    refine ⟨?_,hview,hlast⟩
    rw [Cluster.serve, Store.serve, hanswers, act_answer]

end Runs

end HurriCache.ShardedStore
