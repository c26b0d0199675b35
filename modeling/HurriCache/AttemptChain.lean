import HurriCache.ClientAccounting
import HurriCache.WorkerAttempts

/-!
# The chain of attempts of one call

Every attempt but the last failed with a redirect or an unavailable node, and
the next one goes to another client: a named target is not the target that
names it, and a fallback is compared with the client that failed. A retry on
the fallback uses it up, so only a redirect can bring the next one.
-/

set_option autoImplicit false

namespace HurriCache.AttemptChain
open HurriCache.ClientTypes HurriCache.CallOutcomes HurriCache.TopologyTable
open HurriCache.TableEffects HurriCache.ShardSelection HurriCache.AttemptGuard
open HurriCache.RefreshMachine HurriCache.ExecuteMachine HurriCache.WorkerAttempts
open HurriCache.PartialRun HurriCache.PartialOrbit
open Relation

section Chain

structure Attempt (T : Type) where
  client : Client
  outcome : Outcome T
  failures : Failures

variable {T : Type}

def Attempt.redirected (a : Attempt T) : Bool :=
  match a.outcome with
  | .ok _ => false
  | .error e => (redirectOf e).isSome

def Attempt.unavailable (a : Attempt T) : Bool :=
  match a.outcome with
  | .ok _ => false
  | .error e => isUnavailable e

def Attempt.refreshed (a : Attempt T) : Bool := a.unavailable && a.failures.refreshFails.isNone

/-- The exception of a creation that was tried. Its target is named and has been
left without a client. -/
def creationThrown (createFails : Text → Option CallException) (table : RoutingTable)
    (current : Client) (target : Text) : Option CallException :=
  if isNamed target (some current) && (table.getRouteByTarget target).isNone then
    createFails target
  else none

/-- The exception that leaves the catch block in place of the one it handles. -/
def replacement (failures : Failures) (table : RoutingTable) (current : Client)
    (e : CallException) : Option CallException :=
  match redirectOf e with
  | some route =>
    (creationThrown failures.createFails table current route.master_target).or
      (creationThrown failures.createFails table current route.backup_target)
  | none => if isUnavailable e then failures.refreshFails else none

def Attempt.delivered (a : Attempt T) (table : RoutingTable) : Outcome T :=
  match a.outcome with
  | .ok value => .ok value
  | .error e => .error ((replacement a.failures table a.client e).getD e)

structure Linked (a b : Attempt T) : Prop where
  retried : (a.redirected || a.refreshed) = true
  other : b.client ≠ a.client

/-- The law of a chain that starts with `spare` fallbacks, triggers so many
refreshes and leaves a table behind. -/
structure Lawful (table : RoutingTable) (log : List (Attempt T)) (spare refreshes : ℕ)
    (outcome : Outcome T) : Prop where
  linked : log.IsChain Linked
  delivered : ∃ last, log.getLast? = some last ∧ outcome = last.delivered table
  retries : log.dropLast.countP Attempt.unavailable ≤
    log.dropLast.countP Attempt.redirected+spare
  refreshes : refreshes = log.countP Attempt.refreshed

theorem lawful_single (table : RoutingTable) (a : Attempt T) (spare : ℕ) :
    Lawful table [a] spare (if a.refreshed then 1 else 0) (a.delivered table) where
  linked := List.isChain_singleton _
  delivered := ⟨a,rfl,rfl⟩
  retries := Nat.zero_le _
  refreshes := by rw [List.countP_singleton]

theorem lawful_cons (table : RoutingTable) (a b : Attempt T) (log : List (Attempt T))
    (spare spare' refreshes : ℕ) (outcome : Outcome T) (hlinked : Linked a b)
    (hspare : (if a.unavailable then 1 else 0)+spare' ≤ (if a.redirected then 1 else 0)+spare)
    (h : Lawful table (b::log) spare' refreshes outcome) :
    Lawful table (a::b::log) spare ((if a.refreshed then 1 else 0)+refreshes) outcome := by
  obtain ⟨last,hlast,hdelivered⟩ := h.delivered
  refine ⟨List.isChain_cons_cons.mpr ⟨hlinked,h.linked⟩,⟨last,?_,hdelivered⟩,?_,?_⟩
  · rw [List.getLast?_cons_cons, hlast]
  · have hretries := h.retries
    rw [List.dropLast_cons_cons, List.countP_cons, List.countP_cons]
    omega
  · rw [List.countP_cons, h.refreshes]
    omega

theorem redirectOf_not_unavailable (e : CallException) (route : Redirect)
    (h : redirectOf e = some route) : isUnavailable e = false := by
  cases e with
  | other what => cases h
  | grpc code statusMessage routeTrailer => cases code <;> first | rfl | cases h

section Lookups

variable (createFails : Text → Option CallException) (table : RoutingTable)

theorem findNamed_grows (target : Text) (current : SharedClient) :
    Grows table (findNamed createFails table target current).2 := by
  unfold findNamed
  split
  · exact getOrCreateByTarget_grows createFails table target
  · exact grows_refl table

theorem findNamed_known (target : Text) (current found : SharedClient)
    (hnamed : isNamed target current = true)
    (h : (findNamed createFails table target current).1 = .ok found) :
    ∃ client, found = some client ∧
      (findNamed createFails table target current).2.getRouteByTarget target = some client := by
  simp only [findNamed, hnamed, if_true] at h ⊢
  cases hr : (table.getOrCreateByTarget createFails target).1 with
  | error e =>
    rw [hr] at h
    cases h
  | ok client =>
    rw [hr] at h
    cases h
    exact ⟨client,rfl,getOrCreateByTarget_known createFails table target client hr⟩

theorem findNamed_named (target : Text) (current : SharedClient) (client : Client)
    (hown : OwnTargets table)
    (h : (findNamed createFails table target current).1 = .ok (some client)) :
    client.target = target ∧ isNamed target current = true := by
  by_cases hnamed : isNamed target current = true
  · obtain ⟨found,hfound,hknown⟩ := findNamed_known createFails table target _ _ hnamed h
    cases hfound
    exact ⟨grows_own _ _ (findNamed_grows createFails table target current) hown _ _ hknown,hnamed⟩
  · rw [Bool.not_eq_true] at hnamed
    simp [findNamed, hnamed] at h

theorem findNamed_other (target : Text) (current client : Client) (hown : OwnTargets table)
    (h : (findNamed createFails table target (some current)).1 = .ok (some client)) :
    client ≠ current := by
  obtain ⟨htarget,hnamed⟩ := findNamed_named createFails table target (some current) client hown h
  rintro rfl
  simp [isNamed, currentTarget, htarget] at hnamed

theorem creationThrown_of_error (target : Text) (current : Client) (thrown : CallException)
    (h : (findNamed createFails table target (some current)).1 = .error thrown) :
    creationThrown createFails (findNamed createFails table target (some current)).2 current
      target = some thrown := by
  unfold findNamed RoutingTable.getOrCreateByTarget at h ⊢
  split at h
  next hnamed =>
    split at h
    · cases h
    next hl =>
      split at h
      next e he =>
        cases h
        have hnone : table.getRouteByTarget target = none := hl
        simp [creationThrown, hnamed, he, hnone]
      next => cases h
  next => cases h

theorem creationThrown_of_ok (target : Text) (current : Client) (found : SharedClient)
    (after : RoutingTable)
    (hgrows : Grows (findNamed createFails table target (some current)).2 after)
    (h : (findNamed createFails table target (some current)).1 = .ok found) :
    creationThrown createFails after current target = none := by
  by_cases hnamed : isNamed target (some current) = true
  · obtain ⟨client,_,hknown⟩ := findNamed_known createFails table target _ found hnamed h
    simp [creationThrown, grows_known _ _ hgrows target client hknown]
  · simp [creationThrown, hnamed]

end Lookups

theorem direct_other (current : Client) (candidate : SharedClient) (client : Client)
    (fallback : SharedClient) (h : direct (some current) candidate = some (client,fallback)) :
    candidate = some client ∧ client ≠ current ∧ fallback = none := by
  unfold direct at h
  split at h
  · cases h
  · split at h
    · cases h
    next hne =>
      cases h
      exact ⟨rfl,fun he => hne (congrArg some he),rfl⟩

def Decision (failures : Failures) (table : RoutingTable) (e : CallException) (current : Client)
    (fallback : SharedClient) : Next → Prop
  | .rethrow thrown => thrown = (replacement failures table current e).getD e
  | .retry client left => client ≠ current ∧ ((redirectOf e).isSome = true ∨
      isUnavailable e = true ∧ failures.refreshFails = none ∧ fallback.isSome = true ∧ left = none)

theorem decision_redirect (failures : Failures) (table : RoutingTable) (e : CallException)
    (route : Redirect) (current : Client) (fallback new_master new_backup : SharedClient)
    (hroute : redirectOf e = some route)
    (hcreated : replacement failures table current e = none)
    (hmaster : ∀ client, new_master = some client → client ≠ current) :
    Decision failures table e current fallback
      (Next.ofOption e (afterRedirect (some current) new_master new_backup)) := by
  have hredirect : (redirectOf e).isSome = true := by rw [hroute]; rfl
  cases new_master with
  | some client => exact ⟨hmaster client rfl,Or.inl hredirect⟩
  | none =>
    cases hd : direct (some current) new_backup with
    | none =>
      simp only [afterRedirect, hd]
      exact (congrArg (·.getD e) hcreated).symm
    | some next =>
      simp only [afterRedirect, hd]
      exact ⟨(direct_other current new_backup next.1 next.2 hd).2.1,Or.inl hredirect⟩

theorem retry_linked (failures failures' : Failures) (table : RoutingTable) (e : CallException)
    (current client : Client) (fallback left : SharedClient) (outcome : Outcome T)
    (h : Decision failures table e current fallback (.retry client left)) :
    Linked ⟨current,.error e,failures⟩ ⟨client,outcome,failures'⟩ ∧
      (if isUnavailable e then 1 else 0)+(if left.isSome then 1 else 0) ≤
        (if (redirectOf e).isSome then 1 else 0)+(if fallback.isSome then 1 else 0) := by
  obtain ⟨hother,hr | ⟨hu,hs,hf,rfl⟩⟩ := h
  · obtain ⟨route,hroute⟩ := Option.isSome_iff_exists.mp hr
    refine ⟨⟨by simp [Attempt.redirected, hr],hother⟩,?_⟩
    rw [redirectOf_not_unavailable e route hroute, hr]
    simp only [reduceCtorEq, if_false, if_true]
    split <;> omega
  · exact ⟨⟨by simp [Attempt.refreshed, Attempt.unavailable, hu, hs],hother⟩,by simp [hu, hf]⟩

structure Handled (failures : Failures) (e : CallException) (current : Client)
    (fallback : SharedClient) (s : GuardState) (handled : Next × GuardState) : Prop where
  decision : Decision failures handled.2.table e current fallback handled.1
  own : OwnTargets handled.2.table
  attempts : handled.2.attempts = s.attempts
  refreshes : handled.2.refreshes =
    s.refreshes+(if isUnavailable e && failures.refreshFails.isNone then 1 else 0)

theorem handle_unrouted (failures : Failures) (e : CallException) (current : Client)
    (fallback : SharedClient) (s : GuardState) (hown : OwnTargets s.table)
    (hroute : redirectOf e = none) :
    Handled failures e current fallback s (handle failures e (some current) fallback s) := by
  by_cases hu : isUnavailable e = true
  · cases hs : failures.refreshFails with
    | some thrown =>
      simp only [handle, hroute, hu, hs, if_true]
      exact ⟨by simp [Decision, replacement, hroute, hu, hs],hown,rfl,by simp [hs]⟩
    | none =>
      simp only [handle, hroute, hu, hs, if_true]
      refine ⟨?_,hown,rfl,by simp [hu, hs]⟩
      cases hd : direct (some current) fallback with
      | none => simp [Next.ofOption, Decision, replacement, hroute, hu, hs]
      | some next =>
        obtain ⟨hfallback,hother,hleft⟩ := direct_other current fallback next.1 next.2 hd
        exact ⟨hother,Or.inr ⟨hu,hs,by rw [hfallback]; rfl,hleft⟩⟩
  · rw [Bool.not_eq_true] at hu
    simp only [handle, hroute, hu]
    exact ⟨by simp [Decision, replacement, hroute, hu],hown,rfl,by simp [hu]⟩

theorem handle_redirected (failures : Failures) (e : CallException) (current : Client)
    (fallback : SharedClient) (s : GuardState) (hown : OwnTargets s.table) (route : Redirect)
    (hroute : redirectOf e = some route) :
    Handled failures e current fallback s (handle failures e (some current) fallback s) := by
  have hu := redirectOf_not_unavailable e route hroute
  have hmgrows := findNamed_grows failures.createFails s.table route.master_target
    (some current)
  have hbgrows := findNamed_grows failures.createFails
    (findNamed failures.createFails s.table route.master_target (some current)).2
    route.backup_target (some current)
  have hmown := grows_own _ _ hmgrows hown
  simp only [handle, hroute]
  cases hm : (findNamed failures.createFails s.table route.master_target (some current)).1 with
  | error thrown =>
    have hthrown := creationThrown_of_error _ _ _ current thrown hm
    exact ⟨by simp [Decision, replacement, hroute, hthrown],hmown,rfl,by simp [hu]⟩
  | ok new_master =>
    have hcreated := creationThrown_of_ok _ _ _ current new_master _ hbgrows hm
    simp only
    cases hb : (findNamed failures.createFails
        (findNamed failures.createFails s.table route.master_target (some current)).2
        route.backup_target (some current)).1 with
    | error thrown =>
      have hthrown := creationThrown_of_error _ _ _ current thrown hb
      exact ⟨by simp [Decision, replacement, hroute, hcreated, hthrown],
        grows_own _ _ hbgrows hmown,rfl,by simp [hu]⟩
    | ok named =>
      have hcreated' := creationThrown_of_ok _ _ _ current named _ (grows_refl _) hb
      refine ⟨decision_redirect failures _ e route current fallback _ _ hroute ?_ ?_,
        grows_own _ _ hbgrows hmown,rfl,by simp [hu]⟩
      · simp [replacement, hroute, hcreated, hcreated']
      · rintro client rfl
        exact findNamed_other failures.createFails s.table route.master_target current client
          hown hm

theorem handle_spec (failures : Failures) (e : CallException) (current : Client)
    (fallback : SharedClient) (s : GuardState) (hown : OwnTargets s.table) :
    Handled failures e current fallback s (handle failures e (some current) fallback s) := by
  cases hroute : redirectOf e with
  | none => exact handle_unrouted failures e current fallback s hown hroute
  | some route => exact handle_redirected failures e current fallback s hown route hroute

variable (failures : List Client → Failures) (reply : List Client → Client → Outcome T)

def attemptRoutes (n : ℕ) (mode : Mode) (master_first : Bool) (table : RoutingTable)
    (shard : Int32) : Option (Except Fault (Outcome T) × GuardState) :=
  match firstAttempt mode master_first (table.getRoute shard .MASTER)
    (table.getRoute shard .BACKUP) with
  | none => some (.ok (.error
      (.other "No healthy endpoints available for shard allocation".toList)),{ table := table })
  | some (current,fallback) =>
    attemptWithGuard failures reply n current fallback { table := table }

def attemptsFrom (past : List Client) : List Client → List (Attempt T)
  | [] => []
  | client::clients =>
    ⟨client,reply past client,failures (past++[client])⟩::attemptsFrom (past++[client]) clients

theorem attempts_lawful (n : ℕ) (current : Client) (fallback : SharedClient) (s t : GuardState)
    (outcome : Outcome T) (hown : OwnTargets s.table)
    (h : attemptWithGuard failures reply n (some current) fallback s = some (.ok outcome,t)) :
    ∃ rest refreshes, t.attempts = s.attempts++current::rest ∧
      t.refreshes = s.refreshes+refreshes ∧
      Lawful t.table (attemptsFrom failures reply s.attempts (current::rest))
        (if fallback.isSome then 1 else 0) refreshes outcome := by
  induction n generalizing current fallback s with
  | zero => cases h
  | succ n ih =>
    simp only [attemptWithGuard] at h
    cases hreply : reply s.attempts current with
    | ok value =>
      rw [hreply] at h
      cases h
      refine ⟨[],0,rfl,rfl,?_⟩
      rw [attemptsFrom, hreply]
      exact lawful_single _ ⟨current,.ok value,failures (s.attempts++[current])⟩ _
    | error e =>
      rw [hreply] at h
      let here : Attempt T := ⟨current,.error e,failures (s.attempts++[current])⟩
      obtain ⟨hdecision,hown',hattempts,hrefreshes⟩ := handle_spec here.failures e current fallback
        { s with attempts := s.attempts++[current] } hown
      rcases hh : handle here.failures e (some current) fallback
        { s with attempts := s.attempts++[current] } with ⟨next,u⟩
      rw [hh] at hdecision hown' hattempts hrefreshes
      simp only [here] at hh
      simp only [hh] at h
      cases next with
      | rethrow thrown =>
        cases h
        have hthrown : thrown = (replacement here.failures t.table current e).getD e := hdecision
        refine ⟨[],if here.refreshed then 1 else 0,hattempts,hrefreshes,?_⟩
        rw [attemptsFrom, hreply, attemptsFrom, hthrown]
        exact lawful_single t.table here _
      | retry client left =>
        obtain ⟨rest,refreshes,hta,htr,hlaw⟩ := ih client left u hown' h
        obtain ⟨hlinked,hspare⟩ := retry_linked here.failures (failures (u.attempts++[client])) _ e
          current client fallback left (reply u.attempts client) hdecision
        have hcount : u.refreshes = s.refreshes+(if here.refreshed then 1 else 0) := hrefreshes
        refine ⟨client::rest,(if here.refreshed then 1 else 0)+refreshes,?_,?_,?_⟩
        · rw [hta, hattempts, List.append_assoc]
          rfl
        · rw [htr, hcount, Nat.add_assoc]
        · rw [attemptsFrom, hreply]
          rw [hattempts] at hlaw hlinked
          exact lawful_cons t.table here _ _ _ _ refreshes outcome hlinked hspare hlaw

theorem attemptRoutes_lawful (n : ℕ) (mode : Mode) (master_first : Bool) (table : RoutingTable)
    (shard : Int32) (r : Except Fault (Outcome T)) (t : GuardState) (hown : OwnTargets table)
    (hroute : ((table.getRoute shard .MASTER).isSome || (table.getRoute shard .BACKUP).isSome) =
      true)
    (h : attemptRoutes failures reply n mode master_first table shard = some (r,t)) :
    ∃ outcome, r = .ok outcome ∧ t.attempts ≠ [] ∧
      Lawful t.table (attemptsFrom failures reply [] t.attempts) 1 t.refreshes outcome := by
  unfold attemptRoutes at h
  split at h
  next hnone =>
    obtain ⟨hm,hb⟩ := (firstAttempt_eq_none _ _ _ _).mp hnone
    simp [hm, hb] at hroute
  next current fallback hfirst =>
    obtain ⟨client,rfl⟩ := firstAttempt_current _ _ _ _ _ _ hfirst
    obtain ⟨outcome,rfl⟩ := attemptWithGuard_outcome failures reply n client fallback _ t r h
    obtain ⟨rest,refreshes,hattempts,hrefreshes,hlaw⟩ := attempts_lawful failures reply n client
      fallback { table := table } t outcome hown h
    have ha : t.attempts = client::rest := hattempts
    have hr : t.refreshes = refreshes := hrefreshes.trans (Nat.zero_add _)
    refine ⟨outcome,rfl,by simp [ha],?_⟩
    rw [ha, hr]
    refine ⟨hlaw.linked,hlaw.delivered,le_trans hlaw.retries ?_,hlaw.refreshes⟩
    exact Nat.add_le_add_left (by split <;> omega) _

theorem attemptRoutes_absent (n : ℕ) (mode : Mode) (master_first : Bool) (table : RoutingTable)
    (shard : Int32) (hm : table.getRoute shard .MASTER = none)
    (hb : table.getRoute shard .BACKUP = none) :
    attemptRoutes failures reply n mode master_first table shard = some (.ok (.error
      (.other "No healthy endpoints available for shard allocation".toList)),
        { table := table }) := by
  rw [attemptRoutes, (firstAttempt_eq_none _ _ _ _).mpr ⟨hm,hb⟩]

theorem attemptRoutes_simulated (configured_mode : Mode) (hint : Option KeyHint)
    (master_first : Bool) (shared : Shared) (hopen : shared.shut_down = []) (n : ℕ)
    (shard : Int32) (t : GuardState) (outcome : Outcome T)
    (h : attemptRoutes failures reply n (effectiveMode shared.mode_override configured_mode)
      master_first shared.routing_table shard = some (.ok outcome,t)) :
    Reaches configured_mode hint master_first failures reply
      ⟨[],shared,.readingMaster shard,0⟩ (soloOf shared t (.finished outcome)) := by
  let master := shared.routing_table.getRoute shard .MASTER
  let backup := shared.routing_table.getRoute shard .BACKUP
  have hmaster : Follows (soloStep configured_mode hint master_first failures reply)
    ⟨[],shared,.readingMaster shard,0⟩ ⟨[],shared,.readingBackup shard master,0⟩ := rfl
  have hbackup : Follows (soloStep configured_mode hint master_first failures reply)
    ⟨[],shared,.readingBackup shard master,0⟩ ⟨[],shared,.selectingMode master backup,0⟩ := rfl
  refine ReflTransGen.head hmaster (ReflTransGen.head hbackup ?_)
  unfold attemptRoutes at h
  split at h
  next hnone =>
    cases h
    refine ReflTransGen.single ?_
    simp only [Follows, soloStep, executeStep, master, backup, hnone]
    rfl
  next current fallback hfirst =>
    obtain ⟨client,rfl⟩ := firstAttempt_current _ _ _ _ _ _ hfirst
    have hselect : Follows (soloStep configured_mode hint master_first failures reply)
        ⟨[],shared,.selectingMode master backup,0⟩
        (soloOf shared { table := shared.routing_table } (.sending (some client) fallback)) := by
      simp only [Follows, soloStep, executeStep, master, backup, hfirst]
      rfl
    exact ReflTransGen.head hselect (attempts_simulate configured_mode hint master_first
      failures reply shared hopen n client fallback _ t outcome h)

end Chain

/-- Over every table that can arise, mode, coin and outcomes of attempts: a
shard without a route fails with no attempt, and otherwise the attempts form a
lawful chain with one fallback to spare, whose last attempt decides the outcome
together with the threads that its catch block fails to start. -/
theorem attempt_chain_law {T : Type} (callers : List ClientAccounting.Action)
    (s : ClientAccounting.State) (hreach : run ClientAccounting.step {} callers = some s)
    (failures : List Client → Failures) (reply : List Client → Client → Outcome T) (n : ℕ)
    (mode : Mode) (master_first : Bool) (shard : Int32) (r : Except Fault (Outcome T))
    (t : GuardState)
    (h : attemptRoutes failures reply n mode master_first s.table shard = some (r,t)) :
    (s.table.getRoute shard .MASTER = none → s.table.getRoute shard .BACKUP = none →
      r = .ok (.error (.other "No healthy endpoints available for shard allocation".toList)) ∧
        t.attempts = [] ∧ t.refreshes = 0) ∧
    ((s.table.getRoute shard .MASTER).isSome || (s.table.getRoute shard .BACKUP).isSome →
      ∃ outcome, r = .ok outcome ∧ t.attempts ≠ [] ∧
        Lawful t.table (attemptsFrom failures reply [] t.attempts) 1 t.refreshes outcome) := by
  constructor
  · intro hm hb
    rw [attemptRoutes_absent failures reply n mode master_first s.table shard hm hb] at h
    cases h
    exact ⟨rfl,rfl,rfl⟩
  · intro hroute
    exact attemptRoutes_lawful failures reply n mode master_first s.table shard r t
      (ClientAccounting.reachable_balanced callers s hreach).own hroute h

def twoNodes : List ClientAccounting.Action :=
  [.arrive,.caller 0 (.updateFromCoordinator 1 [⟨['a'],.MASTER,[0]⟩,⟨['b'],.BACKUP,[0]⟩]
    (fun _ => none)),.caller 0 .retire]

def deadReply : Outcome ℕ := .error (.grpc .UNAVAILABLE [] [])

def redirectedReply (client : Client) : Outcome ℕ :=
  if client.target = ['a'] then .error (.grpc .FAILED_PRECONDITION [] ['c'])
  else if client.target = ['c'] then deadReply
  else .ok 7

theorem attempt_chain_law_three_attempts :
    ∃ s t, run ClientAccounting.step {} twoNodes = some s ∧
      attemptRoutes (fun _ => {}) (fun _ c => redirectedReply c) 3 .MASTER_THAN_BACKUP true s.table
        0 = some (.ok (.ok 7),t) ∧
      t.attempts = [⟨['a'],0⟩,⟨['c'],0⟩,⟨['b'],0⟩] ∧
      ∃ outcome, (.ok (.ok 7) : Except Fault (Outcome ℕ)) = .ok outcome ∧ t.attempts ≠ [] ∧
        Lawful t.table (attemptsFrom (fun _ => {}) (fun _ c => redirectedReply c) [] t.attempts) 1
          t.refreshes outcome :=
  ⟨_,_,rfl,rfl,rfl,(attempt_chain_law twoNodes _ rfl (fun _ => {})
    (fun _ c => redirectedReply c) 3 .MASTER_THAN_BACKUP true 0 _ _ rfl).2 rfl⟩

def noThread : Failures where
  createFails _ := some (.other "Resource unavailable".toList)
  refreshFails := some (.other "Resource unavailable".toList)

/-- The exception of a thread that does not start is delivered in place of the
one of the only attempt: for the client of the node that a redirect names, and
for the refresh after a node is unavailable, which is then not counted and
leaves the fallback untried. -/
theorem thread_failure_delivered :
    ∃ s t u, run ClientAccounting.step {} twoNodes = some s ∧
      attemptRoutes (fun _ => noThread) (fun _ c => redirectedReply c) 1 .MASTER_THAN_BACKUP true
        s.table 0 = some (.ok (.error (.other "Resource unavailable".toList)),t) ∧
      t.attempts = [⟨['a'],0⟩] ∧
      redirectedReply ⟨['a'],0⟩ = .error (.grpc .FAILED_PRECONDITION [] ['c']) ∧
      attemptRoutes (fun _ => noThread) (fun _ _ => deadReply) 1 .MASTER_THAN_BACKUP true s.table
          0 =
        some (.ok (.error (.other "Resource unavailable".toList)),u) ∧
      u.attempts = [⟨['a'],0⟩] ∧ deadReply = .error (.grpc .UNAVAILABLE [] []) ∧
      u.refreshes = 0 :=
  ⟨_,_,_,rfl,rfl,rfl,rfl,rfl,rfl,rfl,rfl⟩

end HurriCache.AttemptChain
