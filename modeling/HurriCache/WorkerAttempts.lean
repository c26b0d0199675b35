import HurriCache.ExecuteMachine
import HurriCache.PartialOrbit

/-!
# The worker simulates the recursion

A worker that is not interrupted, with replies given by the attempts made so
far, runs through the program points that `attemptWithGuard` stands for. The
two models of the attempts leave the same outcome, the same table, the same
attempts and the same number of refreshes.
-/

set_option autoImplicit false

namespace HurriCache.WorkerAttempts
open HurriCache.ClientTypes HurriCache.CallOutcomes HurriCache.TopologyTable
open HurriCache.ShardSelection HurriCache.AttemptGuard HurriCache.RefreshMachine
open HurriCache.ExecuteMachine HurriCache.PartialOrbit
open Relation

structure Solo (T : Type) where
  attempts : List Client
  shared : Shared
  pc : ExecutePc T
  refreshes : ℕ

section Simulation

variable {T : Type} (configured_mode : Mode) (hint : Option KeyHint) (master_first : Bool)
  (failures : List Client → Failures) (reply : List Client → Client → Outcome T)

def soloStep (w : Solo T) : Option (Solo T) :=
  match w.pc with
  | .awaiting current fallback =>
    (executeReply (reply w.attempts current) (.awaiting current fallback)).map
      (fun pc => { w with attempts := w.attempts++[current], pc := pc })
  | pc =>
    match executeStep configured_mode hint master_first (failures w.attempts) w.shared pc with
    | some (.ok moved) => some { w with
        shared := moved.shared
        pc := moved.pc
        refreshes := if moved.refresh then w.refreshes+1 else w.refreshes }
    | _ => none

def pointOf : Next → ExecutePc T
  | .retry current fallback => .sending (some current) fallback
  | .rethrow e => .finished (.error e)

theorem pointOf_ofOption (e : CallException) (next : Option (Client × SharedClient)) :
    (pointOf (Next.ofOption e next) : ExecutePc T) = attemptOrThrow e next := by
  cases next <;> rfl

def soloOf (shared : Shared) (s : GuardState) (pc : ExecutePc T) : Solo T :=
  ⟨s.attempts,{ shared with routing_table := s.table },pc,s.refreshes⟩

def Reaches (a b : Solo T) : Prop :=
  ReflTransGen (Follows (soloStep configured_mode hint master_first failures reply)) a b

theorem catching_step (shared : Shared) (e : CallException) (current : Client)
    (fallback : SharedClient) (s : GuardState) :
    soloStep configured_mode hint master_first failures reply
        (soloOf shared s (.catching e current fallback)) =
      some (match redirectOf e with
        | some route => soloOf shared s (.resolvingMaster route e current fallback)
        | none =>
          if isUnavailable e then
            match (failures s.attempts).refreshFails with
            | some thrown => soloOf shared s (.finished (.error thrown))
            | none => soloOf shared { s with refreshes := s.refreshes+1 }
                (attemptOrThrow e (direct (some current) fallback))
          else soloOf shared s (.finished (.error e))) := by
  cases hroute : redirectOf e with
  | some route => simp only [soloStep, soloOf, executeStep, hroute]; rfl
  | none =>
    cases hu : isUnavailable e with
    | false => simp only [soloStep, soloOf, executeStep, hroute, hu]; rfl
    | true =>
      simp only [soloStep, soloOf, executeStep, hroute, hu, if_true]
      cases (failures s.attempts).refreshFails <;> rfl

theorem master_step (shared : Shared) (route : Redirect) (e : CallException) (current : Client)
    (fallback : SharedClient) (s : GuardState) (found : Except CallException SharedClient)
    (table : RoutingTable)
    (h : findNamed (failures s.attempts).createFails s.table route.master_target (some current) =
      (found,table)) :
    soloStep configured_mode hint master_first failures reply
        (soloOf shared s (.resolvingMaster route e current fallback)) =
      some (soloOf shared { s with table := table }
        (match found with
          | .error thrown => .finished (.error thrown)
          | .ok new_master => .resolvingBackup route e current fallback new_master)) := by
  simp only [soloStep, soloOf, executeStep, h]
  cases found <;> rfl

theorem backup_step (shared : Shared) (route : Redirect) (e : CallException) (current : Client)
    (fallback new_master : SharedClient) (s : GuardState)
    (found : Except CallException SharedClient) (table : RoutingTable)
    (h : findNamed (failures s.attempts).createFails s.table route.backup_target (some current) =
      (found,table)) :
    soloStep configured_mode hint master_first failures reply
        (soloOf shared s (.resolvingBackup route e current fallback new_master)) =
      some (soloOf shared { s with table := table }
        (match found with
          | .error thrown => .finished (.error thrown)
          | .ok named => attemptOrThrow e (afterRedirect (some current) new_master
              (if isNamed route.backup_target (some current) then named else fallback)))) := by
  simp only [soloStep, soloOf, executeStep, h]
  cases found <;> rfl

theorem catching_simulates (shared : Shared) (e : CallException) (current : Client)
    (fallback : SharedClient) (s : GuardState) :
    Reaches configured_mode hint master_first failures reply
      (soloOf shared s (.catching e current fallback))
      (soloOf shared (handle (failures s.attempts) e (some current) fallback s).2
        (pointOf (handle (failures s.attempts) e (some current) fallback s).1)) := by
  have hcatch := catching_step configured_mode hint master_first failures reply shared e current
    fallback s
  cases hroute : redirectOf e with
  | none =>
    rw [hroute] at hcatch
    refine ReflTransGen.single (Eq.trans hcatch ?_)
    cases hu : isUnavailable e with
    | true =>
      simp only [handle, hroute, hu, if_true]
      cases (failures s.attempts).refreshFails with
      | some thrown => rfl
      | none => simp only [pointOf_ofOption]
    | false => simp [handle, hroute, hu, pointOf]
  | some route =>
    rw [hroute] at hcatch
    refine ReflTransGen.head hcatch ?_
    rcases hm : findNamed (failures s.attempts).createFails s.table route.master_target
      (some current) with ⟨thrown | new_master,table⟩
    · refine ReflTransGen.single (Eq.trans (master_step configured_mode hint master_first failures
        reply shared route e current fallback s _ table hm) ?_)
      simp only [handle, hroute, hm, pointOf]
    · refine ReflTransGen.head (master_step configured_mode hint master_first failures reply shared
        route e current fallback s _ table hm) ?_
      rcases hb : findNamed (failures s.attempts).createFails table route.backup_target
        (some current) with ⟨thrown | named,table'⟩
      all_goals
        refine ReflTransGen.single (Eq.trans (backup_step configured_mode hint master_first failures
          reply shared route e current fallback new_master _ _ table' hb) ?_)
        simp only [handle, hroute, hm, hb]
      · rfl
      · rw [pointOf_ofOption]

theorem attempt_reaches (shared : Shared) (hopen : shared.shut_down = []) (current : Client)
    (fallback : SharedClient) (s : GuardState) :
    Reaches configured_mode hint master_first failures reply
      (soloOf shared s (.sending (some current) fallback))
      (soloOf shared { s with attempts := s.attempts++[current] }
        (match reply s.attempts current with
          | .ok value => .finished (.ok value)
          | .error e => .catching e current fallback)) := by
  have hsend : soloStep configured_mode hint master_first failures reply
      (soloOf shared s (.sending (some current) fallback)) =
        some (soloOf shared s (.awaiting current fallback)) := by
    simp only [soloStep, soloOf, executeStep, hopen, List.not_mem_nil, if_false]
    rfl
  refine ReflTransGen.head hsend (ReflTransGen.single ?_)
  show soloStep configured_mode hint master_first failures reply
      (soloOf shared s (.awaiting current fallback)) = _
  simp only [soloStep, soloOf, executeReply]
  cases reply s.attempts current <;> rfl

/-- A result of the recursion is what the worker, left alone, ends with. -/
theorem attempts_simulate (shared : Shared) (hopen : shared.shut_down = []) (n : ℕ)
    (current : Client) (fallback : SharedClient) (s t : GuardState) (outcome : Outcome T)
    (h : attemptWithGuard failures reply n (some current) fallback s =
      some (.ok outcome,t)) :
    Reaches configured_mode hint master_first failures reply
      (soloOf shared s (.sending (some current) fallback))
      (soloOf shared t (.finished outcome)) := by
  induction n generalizing current fallback s with
  | zero => cases h
  | succ n ih =>
    have hattempt := attempt_reaches configured_mode hint master_first failures reply shared
      hopen current fallback s
    simp only [attemptWithGuard] at h
    cases hreply : reply s.attempts current with
    | ok value =>
      rw [hreply] at h hattempt
      cases h
      exact hattempt
    | error e =>
      rw [hreply] at h hattempt
      have hcatch := catching_simulates configured_mode hint master_first failures reply shared
        e current fallback { s with attempts := s.attempts++[current] }
      have hreach := ReflTransGen.trans hattempt hcatch
      cases hh : handle (failures (s.attempts++[current])) e (some current) fallback
          { s with attempts := s.attempts++[current] } with
      | mk next u =>
        rw [hh] at hreach
        simp only [hh] at h
        cases next with
        | rethrow thrown =>
          cases h
          exact hreach
        | retry c f => exact ReflTransGen.trans hreach (ih c f u h)

end Simulation

end HurriCache.WorkerAttempts
