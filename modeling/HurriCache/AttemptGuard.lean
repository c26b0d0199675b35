import HurriCache.TopologyTable
import Mathlib.Data.List.DropRight

/-!
# Attempts, redirects and failover

`attemptWithGuard` makes one attempt and decides from its exception whether to
call itself again: a failed precondition with route data names a new master
and backup, an unavailable node is left for the fallback. The recursion has no
bound, so it is run with fuel. Replies, and threads that do not start, may
depend on the attempts before.
-/

set_option autoImplicit false

namespace HurriCache.AttemptGuard
open HurriCache.ClientTypes HurriCache.CallOutcomes HurriCache.TopologyTable

def isBlank (c : Char) : Bool := [' ', '\t', '\r', '\n'].contains c

def trimCopy (s : Text) : Text := (s.dropWhile isBlank).rdropWhile isBlank

structure Redirect where
  master_target : Text
  backup_target : Text
  deriving DecidableEq, Repr

def parseRoute (route_data : Text) : Redirect where
  master_target := trimCopy (route_data.takeWhile (· != ','))
  backup_target := trimCopy ((route_data.dropWhile (· != ',')).drop 1)

/-- The status message stands in for a missing trailer. -/
def redirectOf : CallException → Option Redirect
  | .grpc .FAILED_PRECONDITION status_message route_trailer =>
    let route_data := if route_trailer.isEmpty then status_message else route_trailer
    if (trimCopy route_data).isEmpty then none else some (parseRoute route_data)
  | _ => none

def isUnavailable : CallException → Bool
  | .grpc .UNAVAILABLE _ _ => true
  | _ => false

def currentTarget (current : SharedClient) : Text := (current.map (·.target)).getD []

def isNamed (target : Text) (current : SharedClient) : Bool :=
  !target.isEmpty && target != currentTarget current

def direct (current candidate : SharedClient) : Option (Client × SharedClient) :=
  match candidate with
  | none => none
  | some client => if some client = current then none else some (client,none)

def afterRedirect (current new_master new_backup : SharedClient) :
    Option (Client × SharedClient) :=
  match new_master with
  | some client => some (client,new_backup)
  | none => direct current new_backup

/-- What a call leaves behind: its attempts in order, the table with the
clients it made and the number of refreshes it triggered. -/
structure GuardState where
  table : RoutingTable
  attempts : List Client := []
  refreshes : ℕ := 0

inductive Next where
  | retry (current : Client) (fallback : SharedClient)
  | rethrow (e : CallException)

def Next.ofOption (e : CallException) : Option (Client × SharedClient) → Next
  | some (current,fallback) => .retry current fallback
  | none => .rethrow e

/-- The threads that do not start while an exception is handled: those of new
clients and that of a refresh. -/
structure Failures where
  createFails : Text → Option CallException := fun _ => none
  refreshFails : Option CallException := none

section Guard

def findNamed (createFails : Text → Option CallException) (table : RoutingTable)
    (target : Text) (current : SharedClient) : Except CallException SharedClient × RoutingTable :=
  if isNamed target current then
    let found := table.getOrCreateByTarget createFails target
    (found.1.map some,found.2)
  else (.ok none,table)

/-- The catch block. An exception of a client's creation or of the refresh
replaces the one that is being handled. -/
def handle (failures : Failures) (e : CallException) (current fallback : SharedClient)
    (s : GuardState) : Next × GuardState :=
  match redirectOf e with
  | some route =>
    let master := findNamed failures.createFails s.table route.master_target current
    let s := { s with table := master.2 }
    match master.1 with
    | .error thrown => (.rethrow thrown,s)
    | .ok new_master =>
      let backup := findNamed failures.createFails s.table route.backup_target current
      let s := { s with table := backup.2 }
      match backup.1 with
      | .error thrown => (.rethrow thrown,s)
      | .ok named =>
        let new_backup := if isNamed route.backup_target current then named else fallback
        (Next.ofOption e (afterRedirect current new_master new_backup),s)
  | none =>
    if isUnavailable e then
      match failures.refreshFails with
      | some thrown => (.rethrow thrown,s)
      | none => (Next.ofOption e (direct current fallback),{ s with refreshes := s.refreshes+1 })
    else (.rethrow e,s)

variable {T : Type} (failures : List Client → Failures)
  (reply : List Client → Client → Outcome T)

/-- No result means that the fuel ran out during the recursion. -/
def attemptWithGuard : ℕ → SharedClient → SharedClient → GuardState →
    Option (Except Fault (Outcome T) × GuardState)
  | 0, _, _, _ => none
  | _+1, none, _, s => some (.error .nullPointer,s)
  | n+1, some client, fallback, s =>
    let sent := { s with attempts := s.attempts++[client] }
    match reply s.attempts client with
    | .ok value => some (.ok (.ok value),sent)
    | .error e =>
      match handle (failures sent.attempts) e (some client) fallback sent with
      | (.rethrow thrown,s) => some (.ok (.error thrown),s)
      | (.retry current fallback,s) => attemptWithGuard n (some current) fallback s

theorem attemptWithGuard_outcome (n : ℕ) (current : Client) (fallback : SharedClient)
    (s t : GuardState) (r : Except Fault (Outcome T))
    (h : attemptWithGuard failures reply n (some current) fallback s = some (r,t)) :
    ∃ outcome, r = .ok outcome := by
  induction n generalizing current fallback s with
  | zero => cases h
  | succ n ih =>
    simp only [attemptWithGuard] at h
    split at h
    next value hv =>
      cases h
      exact ⟨.ok value,rfl⟩
    next e he =>
      split at h
      next thrown u hu =>
        cases h
        exact ⟨.error thrown,rfl⟩
      next c f u hu => exact ih c f u h

theorem attemptWithGuard_mono (m n : ℕ) (hmn : m ≤ n) (current fallback : SharedClient)
    (s : GuardState) (r : Except Fault (Outcome T) × GuardState)
    (h : attemptWithGuard failures reply m current fallback s = some r) :
    attemptWithGuard failures reply n current fallback s = some r := by
  induction m generalizing n current fallback s with
  | zero => cases h
  | succ m ih =>
    obtain ⟨k,rfl⟩ : ∃ k, n = k+1 := ⟨n-1,by omega⟩
    cases current with
    | none => exact h
    | some client =>
      simp only [attemptWithGuard] at h ⊢
      split at h
      next value hv => exact h
      next e he =>
        split at h
        next thrown u hu => exact h
        next c f u hu => exact ih k (by omega) (some c) f u h

end Guard

end HurriCache.AttemptGuard
