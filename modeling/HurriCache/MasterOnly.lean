import HurriCache.AttemptChain
import HurriCache.TopologyRace

/-!
# Calls in master mode

In master mode a call starts without a fallback. A redirect may still bring
one: its second name is kept as the fallback of the next attempt, or gets the
next attempt itself when the first name is of no use. As long as no attempt
is made that way, every attempt goes to the master of the shard or to a node
that a redirect has named as master.
-/

set_option autoImplicit false

namespace HurriCache.MasterOnly
open HurriCache.ClientTypes HurriCache.CallOutcomes HurriCache.TopologyTable
open HurriCache.TableEffects HurriCache.ShardSelection HurriCache.AttemptGuard
open HurriCache.ExecuteMachine HurriCache.TopologyRace HurriCache.AttemptChain
open HurriCache.PartialRun

section Names

variable {T : Type}

def namedByReply : Action T → List Text
  | .reply (.error e) => ((redirectOf e).map (·.master_target)).toList
  | _ => []

def masterNames (actions : List (Action T)) : List Text := actions.flatMap namedByReply

theorem masterNames_append (actions : List (Action T)) (a : Action T) :
    masterNames (actions++[a]) = masterNames actions++namedByReply a := by
  simp [masterNames]

def AsMaster (names : List Text) (reads : Reads) (client : Client) : Prop :=
  ∀ master, reads.master = some (some master) → client = master ∨ client.target ∈ names

/-- The worker is about to send to a client for its second place: the fallback
of a node that is unavailable, or the backup of a redirect without a master. -/
def takesBackup (failures : Failures) (table : RoutingTable) : ExecutePc T → Bool
  | .catching e current fallback =>
    isUnavailable e && failures.refreshFails.isNone && (direct (some current) fallback).isSome
  | .resolvingBackup route _ current fallback none =>
    match (findNamed failures.createFails table route.backup_target (some current)).1 with
    | .error _ => false
    | .ok named => (direct (some current)
        (if isNamed route.backup_target (some current) then named else fallback)).isSome
  | _ => false

def leavesBackup (s : State T) : Action T → Bool
  | .execute _ failures => !takesBackup failures s.shared.routing_table s.pc
  | _ => true

end Names

section Invariant

variable {T : Type}

def OnMaster (names : List Text) (reads : Reads) : ExecutePc T → Prop
  | .readingBackup _ master => reads.master = some master
  | .selectingMode master _ => reads.master = some master
  | .sending current _ => ∀ client, current = some client → AsMaster names reads client
  | .awaiting current _ => AsMaster names reads current
  | .catching e _ _ => ∀ route, redirectOf e = some route → route.master_target ∈ names
  | .resolvingMaster route _ _ _ => route.master_target ∈ names
  | .resolvingBackup _ _ _ _ new_master =>
    ∀ client, new_master = some client → client.target ∈ names
  | _ => True

theorem onMaster_mono (names more : List Text) (reads : Reads) (pc : ExecutePc T)
    (h : OnMaster names reads pc) : OnMaster (names++more) reads pc := by
  have hled : ∀ client, AsMaster names reads client → AsMaster (names++more) reads client :=
    fun client hc master hm => (hc master hm).imp_right (List.mem_append_left more)
  cases pc with
  | readingBackup _ _ | selectingMode _ _ => exact h
  | sending current fallback => exact fun client hc => hled client (h client hc)
  | awaiting current fallback => exact hled current h
  | catching e current fallback => exact fun route hr => List.mem_append_left more (h route hr)
  | resolvingMaster route e current fallback => exact List.mem_append_left more h
  | resolvingBackup route e current fallback new_master =>
    exact fun client hc => List.mem_append_left more (h client hc)
  | _ => trivial

theorem firstAttempt_master (master_first : Bool) (master : Client) (backup : SharedClient) :
    firstAttempt .MASTER master_first (some master) backup = some (some master,none) := by
  cases backup <;> rfl

theorem executeStep_onMaster (configured_mode : Mode) (hint : Option KeyHint)
    (master_first : Bool) (failures : Failures) (shared : RefreshMachine.Shared)
    (pc : ExecutePc T) (m : Moved T) (names : List Text)
    (reads : Reads) (hown : OwnTargets shared.routing_table)
    (hmode : effectiveMode shared.mode_override configured_mode = .MASTER)
    (hpc : OnMaster names reads pc)
    (hbackup : takesBackup failures shared.routing_table pc = false)
    (h : ExecuteStep configured_mode hint master_first failures shared pc m) :
    OnMaster names (reads.observe m.pc) m.pc := by
  cases h with
  | wake | readShards | choose | noNode | giveUp | fail | refreshThrows | masterThrows
  | backupThrows =>
    trivial
  | readMaster shard => rfl
  | readBackup shard master => exact hpc
  | select master backup current fallback hf =>
    rintro client rfl first hfirst
    have hmaster : master = some first := Option.some.inj (Eq.trans (Eq.symm hpc) hfirst)
    rw [hmode, hmaster, firstAttempt_master] at hf
    cases hf
    exact Or.inl rfl
  | refuse current fallback hd => exact fun route hr => nomatch hr
  | send current fallback hd => exact hpc current rfl
  | redirect e current fallback route hr => exact hpc route hr
  | retry e current fallback hr hu hs =>
    simp only [takesBackup, hu, hs, Option.isNone_none, Bool.true_and, Option.isSome_eq_false_iff,
      Option.isNone_iff_eq_none] at hbackup
    rw [hbackup]
    trivial
  | masterFound route e current fallback new_master hm =>
    rintro client rfl
    rw [(findNamed_named failures.createFails _ _ _ client hown hm).1]
    exact hpc
  | backupFound route e current fallback new_master named hn =>
    cases new_master with
    | some client =>
      rintro c hc
      cases hc
      exact fun _ _ => Or.inr (hpc client rfl)
    | none =>
      simp only [takesBackup, hn, Option.isSome_eq_false_iff, Option.isNone_iff_eq_none] at hbackup
      rw [afterRedirect, hbackup]
      trivial

theorem executeStep_own (configured_mode : Mode) (hint : Option KeyHint) (master_first : Bool)
    (failures : Failures) (shared : RefreshMachine.Shared) (pc : ExecutePc T) (m : Moved T)
    (hown : OwnTargets shared.routing_table)
    (h : ExecuteStep configured_mode hint master_first failures shared pc m) :
    OwnTargets m.shared.routing_table ∧ m.shared.mode_override = shared.mode_override := by
  cases h with
  | masterThrows route e thrown current fallback hm
  | masterFound route e current fallback new_master hm =>
    have hgrows := findNamed_grows failures.createFails shared.routing_table route.master_target
      (some current)
    exact ⟨grows_own _ _ hgrows hown,rfl⟩
  | backupThrows route e thrown current fallback new_master hb
  | backupFound route e current fallback new_master named hb =>
    have hgrows := findNamed_grows failures.createFails shared.routing_table route.backup_target
      (some current)
    exact ⟨grows_own _ _ hgrows hown,rfl⟩
  | _ => exact ⟨hown,rfl⟩

variable (call : Call)

structure Mastered (actions : List (Action T)) (s : State T) : Prop where
  own : OwnTargets s.shared.routing_table
  mode : effectiveMode s.shared.mode_override call.configured_mode = .MASTER
  track : OnMaster (masterNames actions) s.reads s.pc

theorem executeReply_onMaster (outcome : Outcome T) (pc pc' : ExecutePc T) (names : List Text)
    (reads : Reads) (h : executeReply outcome pc = some pc') :
    OnMaster (names++namedByReply (.reply outcome)) reads pc' := by
  cases pc with
  | awaiting current fallback =>
    cases outcome with
    | ok value =>
      cases h
      trivial
    | error e =>
      cases h
      intro route hr
      refine List.mem_append_right names ?_
      rw [namedByReply, hr]
      exact List.mem_singleton_self _
  | _ => cases h

theorem step_mastered (actions : List (Action T)) (s t : State T) (a : Action T)
    (ha : leavesBackup s a = true) (hs : Mastered call actions s) (h : step call s a = some t) :
    Mastered call (actions++[a]) t := by
  unfold step at h
  split at h
  · cases h
  · have htrack := onMaster_mono (masterNames actions) (namedByReply a) s.reads s.pc hs.track
    rw [← masterNames_append] at htrack
    cases a with
    | update max_shards peer_routings createFails =>
      cases h
      exact ⟨update_own createFails _ max_shards peer_routings hs.own,hs.mode,htrack⟩
    | retire u =>
      simp only [act] at h
      split at h
      · cases h
        exact ⟨hs.own,hs.mode,htrack⟩
      · cases h
    | ready =>
      simp only [act] at h
      split at h
      · cases h
      · cases h
        exact ⟨hs.own,hs.mode,htrack⟩
    | execute master_first failures =>
      obtain ⟨r,hr,rfl⟩ := Option.map_eq_some_iff.mp h
      cases r with
      | error f => exact ⟨hs.own,hs.mode,htrack⟩
      | ok m =>
        have hstep := (executeStep_iff _ _ _ _ _ _ _).mp hr
        obtain ⟨hown,hmode⟩ := executeStep_own call.configured_mode call.hint master_first
          failures s.shared s.pc m hs.own hstep
        refine ⟨hown,?_,?_⟩
        · exact (congrArg (fun mode => effectiveMode mode call.configured_mode) hmode).trans hs.mode
        · exact executeStep_onMaster call.configured_mode call.hint master_first failures
            s.shared s.pc m _ s.reads hs.own hs.mode htrack (by simpa [leavesBackup] using ha) hstep
    | operate ok =>
      rcases operate_cases call s t ok h with rfl | ⟨operation,rfl⟩ <;>
        exact ⟨hs.own,hs.mode,htrack⟩
    | reply outcome =>
      obtain ⟨pc,hp,rfl⟩ := reply_cases call s t outcome h
      refine ⟨hs.own,hs.mode,?_⟩
      rw [masterNames_append]
      exact executeReply_onMaster outcome s.pc pc _ s.reads hp

theorem start_mastered (mode_override : Option Mode) (random_counter : UInt32)
    (hmode : effectiveMode mode_override call.configured_mode = .MASTER) :
    Mastered call [] (start mode_override random_counter : State T) where
  own := fun _ _ h => nomatch h
  mode := hmode
  track := trivial

end Invariant

/-- Over every order of updates, steps and replies in master mode: as long as
no step takes a backup, an attempt goes to the master that the call has read
or to a node that an earlier reply has named as master. -/
theorem attempts_on_masters {T : Type} (call : Call) (mode_override : Option Mode)
    (random_counter : UInt32) (actions : List (Action T)) (s : State T)
    (hmode : effectiveMode mode_override call.configured_mode = .MASTER)
    (hrun : run (step call) (start mode_override random_counter) actions = some s)
    (hleaves : meets (step call) leavesBackup (start mode_override random_counter) actions = true)
    (master : Client) (hmaster : s.reads.master = some (some master)) (client : Client)
    (fallback : SharedClient) (hpc : s.pc = .awaiting client fallback) :
    client = master ∨ client.target ∈ masterNames actions := by
  have hs := history_of_meets (step call) leavesBackup (Mastered call)
    (fun as u a t ha hu h => step_mastered call as u t a ha hu h) [] actions
    (start mode_override random_counter) s hleaves (start_mastered call mode_override
      random_counter hmode) hrun
  have htrack := hs.track
  rw [hpc, List.nil_append] at htrack
  exact htrack master hmaster

def masterCall : Call := { hint := some ⟨0,0⟩, configured_mode := .MASTER }

def work : Action ℕ := .execute true {}

def redirectedCall (route : Text) : List (Action ℕ) :=
  [.update 1 [⟨['a'],.MASTER,[0]⟩,⟨['b'],.BACKUP,[0]⟩] (fun _ => none),.ready,
    work,work,work,work,work,work,work,.operate true,
    .reply (.error (.grpc .FAILED_PRECONDITION [] route)),
    work,work,work,work]

theorem attempts_on_masters_redirected :
    ∃ s fallback, run (step masterCall) (start none 0) (redirectedCall ['c',',','b']) = some s ∧
      s.pc = .awaiting ⟨['c'],0⟩ fallback ∧
      ((⟨['c'],0⟩ : Client) = ⟨['a'],0⟩ ∨
        ['c'] ∈ masterNames (redirectedCall ['c',',','b'])) :=
  ⟨_,_,rfl,rfl,attempts_on_masters masterCall none 0 (redirectedCall ['c',',','b']) _ rfl rfl rfl
    ⟨['a'],0⟩ rfl ⟨['c'],0⟩ _ rfl⟩

/-- The second node is unavailable, and the third attempt goes to the backup. -/
def failedOver : List (Action ℕ) :=
  redirectedCall ['c',',','b']++[.operate true,.reply (.error (.grpc .UNAVAILABLE [] [])),work,work]

theorem backup_attempted :
    ∃ s, run (step masterCall) (start none 0) failedOver = some s ∧
      s.reads.master = some (some ⟨['a'],0⟩) ∧ s.reads.backup = some (some ⟨['b'],0⟩) ∧
      s.pc = .awaiting ⟨['b'],0⟩ none ∧
      ¬ ((⟨['b'],0⟩ : Client) = ⟨['a'],0⟩ ∨ ['b'] ∈ masterNames failedOver) :=
  ⟨_,rfl,rfl,rfl,rfl,by decide⟩

end HurriCache.MasterOnly
