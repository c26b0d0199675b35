import HurriCache.AttemptGuard
import HurriCache.PartialOrbit

/-!
# When redirects end

With one fixed reply for each target an attempt decides the next pair of
current and fallback client. The clients that the recursion creates on its way
show in no later resolution, so the pairs form the chain of one partial
function and the table can be held fixed. The guards compare a new client
with the one before it only, which breaks no longer cycle.
-/

set_option autoImplicit false

namespace HurriCache.RedirectTermination
open HurriCache.ClientTypes HurriCache.CallOutcomes HurriCache.TopologyTable
open HurriCache.AttemptGuard HurriCache.PartialOrbit
open Relation

section Chain

section Resolution

variable (createFails : Text → Option CallException) (table : RoutingTable)

def resolveNamed (target : Text) (current : SharedClient) : Except CallException SharedClient :=
  if isNamed target current then (table.resolve createFails target).map some else .ok none

def redirectHop (route : Redirect) (p : Client × SharedClient) :
    Option (Client × SharedClient) :=
  match resolveNamed createFails table route.master_target (some p.1) with
  | .error _ => none
  | .ok new_master =>
    match resolveNamed createFails table route.backup_target (some p.1) with
    | .error _ => none
    | .ok named => afterRedirect (some p.1) new_master
        (if isNamed route.backup_target (some p.1) then named else p.2)

/-- The clients made so far do not change what a target resolves to. -/
def SameResolution (s : GuardState) : Prop :=
  ∀ target, s.table.resolve createFails target = table.resolve createFails target

theorem findNamed_fst (s : GuardState) (hs : SameResolution createFails table s)
    (target : Text) (current : SharedClient) :
    (findNamed createFails s.table target current).1 =
      resolveNamed createFails table target current := by
  unfold findNamed resolveNamed
  split
  · rw [← hs target, ← RoutingTable.getOrCreateByTarget_fst]
  · rfl

theorem findNamed_same (s : GuardState) (hs : SameResolution createFails table s)
    (target : Text) (current : SharedClient) :
    SameResolution createFails table
      { s with table := (findNamed createFails s.table target current).2 } := by
  intro other
  unfold findNamed
  split
  · exact (RoutingTable.resolve_getOrCreateByTarget createFails s.table target other).trans
      (hs other)
  · exact hs other

end Resolution

variable {T : Type} (failures : Failures) (reply : Text → Outcome T) (table : RoutingTable)

def hop (p : Client × SharedClient) : Option (Client × SharedClient) :=
  match reply p.1.target with
  | .ok _ => none
  | .error e =>
    match redirectOf e with
    | some route => redirectHop failures.createFails table route p
    | none =>
      if isUnavailable e && failures.refreshFails.isNone then direct (some p.1) p.2 else none

theorem ofOption_next (e : CallException) (next : Option (Client × SharedClient)) :
    match next with
    | some q => Next.ofOption e next = .retry q.1 q.2
    | none => ∃ thrown, Next.ofOption e next = .rethrow thrown := by
  cases next with
  | none => exact ⟨e,rfl⟩
  | some q => rfl

theorem handle_hop (e : CallException) (current : Client) (fallback : SharedClient)
    (s : GuardState) (hs : SameResolution failures.createFails table s)
    (he : reply current.target = .error e) :
    ∃ t, SameResolution failures.createFails table t ∧
      match hop failures reply table (current,fallback) with
      | some q => handle failures e (some current) fallback s = (.retry q.1 q.2,t)
      | none => ∃ thrown, handle failures e (some current) fallback s = (.rethrow thrown,t) := by
  cases hroute : redirectOf e with
  | none =>
    cases hu : isUnavailable e with
    | true =>
      cases hstarts : failures.refreshFails with
      | some thrown => exact ⟨s,hs,by simp [hop, he, hroute, handle, hu, hstarts]⟩
      | none =>
        have hnext := ofOption_next e (direct (some current) fallback)
        exact ⟨{ s with refreshes := s.refreshes+1 },hs,by
          simpa [hop, he, hroute, handle, hu, hstarts] using hnext⟩
    | false => exact ⟨s,hs,by simp [hop, he, hroute, handle, hu]⟩
  | some route =>
    have hm := findNamed_fst failures.createFails table s hs route.master_target (some current)
    have hms := findNamed_same failures.createFails table s hs route.master_target (some current)
    have hb := findNamed_fst failures.createFails table _ hms route.backup_target (some current)
    have hbs := findNamed_same failures.createFails table _ hms route.backup_target (some current)
    cases hrm : resolveNamed failures.createFails table route.master_target (some current) with
    | error thrown =>
      rw [hrm] at hm
      exact ⟨_,hms,by simp [hop, he, hroute, redirectHop, hrm, handle, hm]⟩
    | ok new_master =>
      rw [hrm] at hm
      cases hrb : resolveNamed failures.createFails table route.backup_target (some current) with
      | error thrown =>
        rw [hrb] at hb
        exact ⟨_,hbs,by simp [hop, he, hroute, redirectHop, hrm, hrb, handle, hm, hb]⟩
      | ok named =>
        rw [hrb] at hb
        have hnext := ofOption_next e (afterRedirect (some current) new_master
          (if isNamed route.backup_target (some current) then named else fallback))
        exact ⟨_,hbs,by
          simpa [hop, he, hroute, redirectHop, hrm, hrb, handle, hm, hb] using hnext⟩

theorem attemptWithGuard_walk (n : ℕ) (current : Client) (fallback : SharedClient)
    (s : GuardState) (hs : SameResolution failures.createFails table s) :
    (∃ r, attemptWithGuard (fun _ => failures) (fun _ c => reply c.target) n (some current)
        fallback s = some r) ↔
      walk (hop failures reply table) n (current,fallback) = none := by
  induction n generalizing current fallback s with
  | zero => simp [attemptWithGuard, walk]
  | succ n ih =>
    cases hreply : reply current.target with
    | ok value => simp [attemptWithGuard, walk, hop, hreply]
    | error e =>
      obtain ⟨t,ht,hnext⟩ := handle_hop failures reply table e current fallback
        { s with attempts := s.attempts++[current] } hs hreply
      cases hh : hop failures reply table (current,fallback) with
      | none =>
        rw [hh] at hnext
        obtain ⟨thrown,hthrown⟩ := hnext
        simp [attemptWithGuard, walk, hreply, hthrown, hh]
      | some q =>
        rw [hh] at hnext
        simpa [attemptWithGuard, walk, hreply, hnext, hh] using ih q.1 q.2 t ht

theorem attemptWithGuard_ends (current : Client) (fallback : SharedClient) (s : GuardState) :
    (∃ n r, attemptWithGuard (fun _ => failures) (fun _ c => reply c.target) n (some current)
        fallback s = some r) ↔
      Ends (hop failures reply s.table) (current,fallback) := by
  constructor
  · rintro ⟨n,hr⟩
    exact ⟨n,(attemptWithGuard_walk failures reply s.table n current fallback s
      (fun _ => rfl)).mp hr⟩
  · rintro ⟨n,hn⟩
    exact ⟨n,(attemptWithGuard_walk failures reply s.table n current fallback s
      (fun _ => rfl)).mpr hn⟩

end Chain

/-- The recursion delivers an outcome exactly when finitely many pairs of
current and fallback client follow from the first one and none of them
follows from itself. -/
theorem redirects_end_iff {T : Type} (failures : Failures) (reply : Text → Outcome T)
    (current : Client) (fallback : SharedClient) (s : GuardState) :
    (∃ n outcome t, attemptWithGuard (fun _ => failures) (fun _ c => reply c.target) n
        (some current) fallback s = some (.ok outcome,t)) ↔
      {p | ReflTransGen (Follows (hop failures reply s.table)) (current,fallback) p}.Finite ∧
        ∀ p, ReflTransGen (Follows (hop failures reply s.table)) (current,fallback) p →
          ¬ TransGen (Follows (hop failures reply s.table)) p p := by
  rw [← ends_iff, ← attemptWithGuard_ends]
  constructor
  · rintro ⟨n,outcome,t,h⟩
    exact ⟨n,_,h⟩
  · rintro ⟨n,⟨r,t⟩,h⟩
    obtain ⟨outcome,rfl⟩ := attemptWithGuard_outcome _ _ n current fallback s t r h
    exact ⟨n,outcome,t,h⟩

def mutualReply (target : Text) : Outcome ℕ :=
  if target = ['a'] then .error (.grpc .FAILED_PRECONDITION [] ['b'])
  else if target = ['b'] then .error (.grpc .FAILED_PRECONDITION [] ['a'])
  else .ok 0

def knownNode : RoutingTable := RoutingTable.register {} ['a']

theorem mutual_redirect_never_ends :
    ¬ ∃ n outcome t, attemptWithGuard (fun _ => {}) (fun _ c => mutualReply c.target) n
      (knownNode.getRouteByTarget ['a']) none { table := knownNode } = some (.ok outcome,t) := by
  rintro ⟨n,outcome,t,h⟩
  have hends := (attemptWithGuard_ends {} mutualReply ⟨['a'],0⟩ none
    { table := knownNode }).mp ⟨n,_,h⟩
  have hab : Follows (hop {} mutualReply knownNode)
    (⟨['a'],0⟩,none) (⟨['b'],0⟩,none) := rfl
  have hba : Follows (hop {} mutualReply knownNode)
    (⟨['b'],0⟩,none) (⟨['a'],0⟩,none) := rfl
  exact not_ends_of_cycle _ _ _ ReflTransGen.refl (TransGen.head hab (TransGen.single hba)) hends

end HurriCache.RedirectTermination
