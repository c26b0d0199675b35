import HurriCache.AttemptGuard
import HurriCache.RefreshMachine

/-!
# One worker of `execute`

The program points of a call, from waiting for the first topology to its
outcome. The recursion of the attempts is unrolled: a retry goes back to the
point before an attempt. An unavailable node starts a refresh on a thread of
its own. The only ways to stop the process are a zero divisor and a null client.
-/

set_option autoImplicit false

namespace HurriCache.ExecuteMachine
open HurriCache.ClientTypes HurriCache.CallOutcomes HurriCache.TopologyTable
open HurriCache.ShardSelection HurriCache.AttemptGuard HurriCache.RefreshMachine

inductive ExecutePc (T : Type) where
  | waitingReady
  | readingShards
  | choosingShard (max_shards : Int32)
  | readingMaster (shard : Int32)
  | readingBackup (shard : Int32) (master : SharedClient)
  | selectingMode (master backup : SharedClient)
  | sending (current fallback : SharedClient)
  | awaiting (current : Client) (fallback : SharedClient)
  | catching (e : CallException) (current : Client) (fallback : SharedClient)
  | resolvingMaster (route : Redirect) (e : CallException) (current : Client)
      (fallback : SharedClient)
  | resolvingBackup (route : Redirect) (e : CallException) (current : Client)
      (fallback new_master : SharedClient)
  | finished (outcome : Outcome T)

structure Moved (T : Type) where
  shared : Shared
  pc : ExecutePc T
  refresh : Bool := false

section Steps

variable {T : Type}

def attemptOrThrow (e : CallException) : Option (Client × SharedClient) → ExecutePc T
  | some (current,fallback) => .sending (some current) fallback
  | none => .finished (.error e)

/-- `waitReady` after a wake-up or after its timeout. -/
def waitReady (timed_out : Bool) (shared : Shared) : Option (ExecutePc T) :=
  if shared.is_ready then some .readingShards
  else if shared.shutdown_requested then
    some (.finished (.error (.other "SmartClient is shut down".toList)))
  else if timed_out then
    some (.finished (.error (.other "FastCacheClient boot timeout reached.".toList)))
  else none

/-- One step of a worker. A missing result is a worker that waits. -/
def executeStep (configured_mode : Mode) (hint : Option KeyHint) (master_first : Bool)
    (failures : Failures) (shared : Shared) : ExecutePc T → Option (Except Fault (Moved T))
  | .waitingReady => (waitReady false shared).map (fun pc => .ok ⟨shared,pc,false⟩)
  | .readingShards => some (.ok ⟨shared,.choosingShard shared.routing_table.max_shards,false⟩)
  | .choosingShard max_shards =>
    some ((selectShard hint max_shards shared.random_counter).map (fun r =>
      ⟨{ shared with random_counter := r.2 },.readingMaster r.1,false⟩))
  | .readingMaster shard =>
    some (.ok ⟨shared,.readingBackup shard (shared.routing_table.getRoute shard .MASTER),false⟩)
  | .readingBackup shard master =>
    some (.ok ⟨shared,.selectingMode master (shared.routing_table.getRoute shard .BACKUP),false⟩)
  | .selectingMode master backup =>
    match firstAttempt (effectiveMode shared.mode_override configured_mode) master_first
      master backup with
    | none => some (.ok ⟨shared,.finished (.error
        (.other "No healthy endpoints available for shard allocation".toList)),false⟩)
    | some (current,fallback) => some (.ok ⟨shared,.sending current fallback,false⟩)
  | .sending none _ => some (.error .nullPointer)
  | .sending (some current) fallback =>
    -- the node's client refuses new calls once it is shut down
    if current ∈ shared.shut_down then
      some (.ok ⟨shared,.catching (.other "Client is shut down".toList) current fallback,false⟩)
    else some (.ok ⟨shared,.awaiting current fallback,false⟩)
  | .awaiting _ _ => none
  | .catching e current fallback =>
    match redirectOf e with
    | some route => some (.ok ⟨shared,.resolvingMaster route e current fallback,false⟩)
    | none =>
      if isUnavailable e then
        match failures.refreshFails with
        | some thrown => some (.ok ⟨shared,.finished (.error thrown),false⟩)
        | none => some (.ok ⟨shared,attemptOrThrow e (direct (some current) fallback),true⟩)
      else some (.ok ⟨shared,.finished (.error e),false⟩)
  | .resolvingMaster route e current fallback =>
    let master := findNamed failures.createFails shared.routing_table route.master_target
      (some current)
    let shared := { shared with routing_table := master.2 }
    match master.1 with
    | .error thrown => some (.ok ⟨shared,.finished (.error thrown),false⟩)
    | .ok new_master =>
      some (.ok ⟨shared,.resolvingBackup route e current fallback new_master,false⟩)
  | .resolvingBackup route e current fallback new_master =>
    let backup := findNamed failures.createFails shared.routing_table route.backup_target
      (some current)
    let shared := { shared with routing_table := backup.2 }
    match backup.1 with
    | .error thrown => some (.ok ⟨shared,.finished (.error thrown),false⟩)
    | .ok named =>
      let new_backup := if isNamed route.backup_target (some current) then named else fallback
      some (.ok ⟨shared,attemptOrThrow e (afterRedirect (some current) new_master new_backup),
        false⟩)
  | .finished _ => none

def executeReply (outcome : Outcome T) : ExecutePc T → Option (ExecutePc T)
  | .awaiting current fallback =>
    match outcome with
    | .ok value => some (.finished (.ok value))
    | .error e => some (.catching e current fallback)
  | _ => none

def executeTimeout (shared : Shared) : ExecutePc T → Option (ExecutePc T)
  | .waitingReady => waitReady true shared
  | _ => none

def lookedUp (createFails : Text → Option CallException) (shared : Shared) (target : Text)
    (current : Client) : Shared :=
  { shared with
    routing_table := (findNamed createFails shared.routing_table target (some current)).2 }

/-- The steps that do not stop the process, with all that each one checks. -/
inductive ExecuteStep (configured_mode : Mode) (hint : Option KeyHint) (master_first : Bool)
    (failures : Failures) (shared : Shared) : ExecutePc T → Moved T → Prop where
  | wake (h : shared.is_ready = true) :
    ExecuteStep configured_mode hint master_first failures shared .waitingReady
      ⟨shared,.readingShards,false⟩
  | giveUp (h : shared.is_ready = false) (hd : shared.shutdown_requested = true) :
    ExecuteStep configured_mode hint master_first failures shared .waitingReady
      ⟨shared,.finished (.error (.other "SmartClient is shut down".toList)),false⟩
  | readShards :
    ExecuteStep configured_mode hint master_first failures shared .readingShards
      ⟨shared,.choosingShard shared.routing_table.max_shards,false⟩
  | choose (max_shards shard : Int32) (counter : UInt32)
      (h : selectShard hint max_shards shared.random_counter = .ok (shard,counter)) :
    ExecuteStep configured_mode hint master_first failures shared (.choosingShard max_shards)
      ⟨{ shared with random_counter := counter },.readingMaster shard,false⟩
  | readMaster (shard : Int32) :
    ExecuteStep configured_mode hint master_first failures shared (.readingMaster shard)
      ⟨shared,.readingBackup shard (shared.routing_table.getRoute shard .MASTER),false⟩
  | readBackup (shard : Int32) (master : SharedClient) :
    ExecuteStep configured_mode hint master_first failures shared (.readingBackup shard master)
      ⟨shared,.selectingMode master (shared.routing_table.getRoute shard .BACKUP),false⟩
  | noNode (master backup : SharedClient)
      (h : firstAttempt (effectiveMode shared.mode_override configured_mode) master_first master
        backup = none) :
    ExecuteStep configured_mode hint master_first failures shared (.selectingMode master backup)
      ⟨shared,.finished (.error
        (.other "No healthy endpoints available for shard allocation".toList)),false⟩
  | select (master backup current fallback : SharedClient)
      (h : firstAttempt (effectiveMode shared.mode_override configured_mode) master_first master
        backup = some (current,fallback)) :
    ExecuteStep configured_mode hint master_first failures shared (.selectingMode master backup)
      ⟨shared,.sending current fallback,false⟩
  | refuse (current : Client) (fallback : SharedClient) (h : current ∈ shared.shut_down) :
    ExecuteStep configured_mode hint master_first failures shared
      (.sending (some current) fallback)
      ⟨shared,.catching (.other "Client is shut down".toList) current fallback,false⟩
  | send (current : Client) (fallback : SharedClient) (h : current ∉ shared.shut_down) :
    ExecuteStep configured_mode hint master_first failures shared
      (.sending (some current) fallback) ⟨shared,.awaiting current fallback,false⟩
  | redirect (e : CallException) (current : Client) (fallback : SharedClient) (route : Redirect)
      (h : redirectOf e = some route) :
    ExecuteStep configured_mode hint master_first failures shared (.catching e current fallback)
      ⟨shared,.resolvingMaster route e current fallback,false⟩
  | retry (e : CallException) (current : Client) (fallback : SharedClient)
      (h : redirectOf e = none) (hu : isUnavailable e = true)
      (hstarts : failures.refreshFails = none) :
    ExecuteStep configured_mode hint master_first failures shared (.catching e current fallback)
      ⟨shared,attemptOrThrow e (direct (some current) fallback),true⟩
  | refreshThrows (e thrown : CallException) (current : Client) (fallback : SharedClient)
      (h : redirectOf e = none) (hu : isUnavailable e = true)
      (hstarts : failures.refreshFails = some thrown) :
    ExecuteStep configured_mode hint master_first failures shared (.catching e current fallback)
      ⟨shared,.finished (.error thrown),false⟩
  | fail (e : CallException) (current : Client) (fallback : SharedClient)
      (h : redirectOf e = none) (hu : isUnavailable e = false) :
    ExecuteStep configured_mode hint master_first failures shared (.catching e current fallback)
      ⟨shared,.finished (.error e),false⟩
  | masterThrows (route : Redirect) (e thrown : CallException) (current : Client)
      (fallback : SharedClient)
      (h : (findNamed failures.createFails shared.routing_table route.master_target
        (some current)).1 = .error thrown) :
    ExecuteStep configured_mode hint master_first failures shared
      (.resolvingMaster route e current fallback)
      ⟨lookedUp failures.createFails shared route.master_target current,
        .finished (.error thrown),false⟩
  | masterFound (route : Redirect) (e : CallException) (current : Client)
      (fallback new_master : SharedClient)
      (h : (findNamed failures.createFails shared.routing_table route.master_target
        (some current)).1 = .ok new_master) :
    ExecuteStep configured_mode hint master_first failures shared
      (.resolvingMaster route e current fallback)
      ⟨lookedUp failures.createFails shared route.master_target current,
        .resolvingBackup route e current fallback new_master,false⟩
  | backupThrows (route : Redirect) (e thrown : CallException) (current : Client)
      (fallback new_master : SharedClient)
      (h : (findNamed failures.createFails shared.routing_table route.backup_target
        (some current)).1 = .error thrown) :
    ExecuteStep configured_mode hint master_first failures shared
      (.resolvingBackup route e current fallback new_master)
      ⟨lookedUp failures.createFails shared route.backup_target current,
        .finished (.error thrown),false⟩
  | backupFound (route : Redirect) (e : CallException) (current : Client)
      (fallback new_master named : SharedClient)
      (h : (findNamed failures.createFails shared.routing_table route.backup_target
        (some current)).1 = .ok named) :
    ExecuteStep configured_mode hint master_first failures shared
      (.resolvingBackup route e current fallback new_master)
      ⟨lookedUp failures.createFails shared route.backup_target current,
        attemptOrThrow e (afterRedirect (some current) new_master
          (if isNamed route.backup_target (some current) then named else fallback)),false⟩

theorem executeStep_iff (configured_mode : Mode) (hint : Option KeyHint) (master_first : Bool)
    (failures : Failures) (shared : Shared) (pc : ExecutePc T) (m : Moved T) :
    executeStep configured_mode hint master_first failures shared pc = some (.ok m) ↔
      ExecuteStep configured_mode hint master_first failures shared pc m := by
  constructor
  · intro h
    cases pc with
    | waitingReady =>
      obtain ⟨pc,hw,he⟩ := Option.map_eq_some_iff.mp h
      cases he
      unfold waitReady at hw
      split at hw
      next hr =>
        cases hw
        exact .wake hr
      next hr =>
        split at hw
        next hd =>
          cases hw
          exact .giveUp (Bool.eq_false_of_not_eq_true hr) hd
        next => cases hw
    | readingShards =>
      cases h
      exact .readShards
    | choosingShard max_shards =>
      simp only [executeStep] at h
      cases hs : selectShard hint max_shards shared.random_counter with
      | error f =>
        rw [hs] at h
        cases h
      | ok r =>
        rw [hs] at h
        cases h
        exact .choose max_shards r.1 r.2 hs
    | readingMaster shard =>
      cases h
      exact .readMaster shard
    | readingBackup shard master =>
      cases h
      exact .readBackup shard master
    | selectingMode master backup =>
      simp only [executeStep] at h
      split at h
      next hf =>
        cases h
        exact .noNode master backup hf
      next current fallback hf =>
        cases h
        exact .select master backup current fallback hf
    | sending current fallback =>
      cases current with
      | none => cases h
      | some client =>
        simp only [executeStep] at h
        split at h
        next hd =>
          cases h
          exact .refuse client fallback hd
        next hd =>
          cases h
          exact .send client fallback hd
    | awaiting current fallback => cases h
    | catching e current fallback =>
      simp only [executeStep] at h
      split at h
      next route hr =>
        cases h
        exact .redirect e current fallback route hr
      next hr =>
        split at h
        next hu =>
          split at h
          next thrown ht =>
            cases h
            exact .refreshThrows e thrown current fallback hr hu ht
          next ht =>
            cases h
            exact .retry e current fallback hr hu ht
        next hu =>
          cases h
          exact .fail e current fallback hr (Bool.eq_false_of_not_eq_true hu)
    | resolvingMaster route e current fallback =>
      simp only [executeStep] at h
      split at h
      next thrown ht =>
        cases h
        exact .masterThrows route e thrown current fallback ht
      next new_master hm =>
        cases h
        exact .masterFound route e current fallback new_master hm
    | resolvingBackup route e current fallback new_master =>
      simp only [executeStep] at h
      split at h
      next thrown ht =>
        cases h
        exact .backupThrows route e thrown current fallback new_master ht
      next named hn =>
        cases h
        exact .backupFound route e current fallback new_master named hn
    | finished outcome => cases h
  · intro h
    cases h with
    | readShards | readMaster | readBackup => rfl
    | wake h => simp [executeStep, waitReady, h]
    | giveUp h hd => simp [executeStep, waitReady, h, hd]
    | choose max_shards shard counter h => simp [executeStep, h, Except.map]
    | noNode master backup h | select master backup current fallback h => simp [executeStep, h]
    | refuse current fallback h | send current fallback h => simp [executeStep, h]
    | redirect e current fallback route h => simp [executeStep, h]
    | fail e current fallback h hu => simp [executeStep, h, hu]
    | retry e current fallback h hu hs | refreshThrows e thrown current fallback h hu hs =>
      simp [executeStep, h, hu, hs]
    | masterThrows route e thrown current fallback h => simp [executeStep, h, lookedUp]
    | masterFound route e current fallback new_master h => simp [executeStep, h, lookedUp]
    | backupThrows route e thrown current fallback new_master h => simp [executeStep, h, lookedUp]
    | backupFound route e current fallback new_master named h => simp [executeStep, h, lookedUp]

def Sound : ExecutePc T → Prop
  | .choosingShard max_shards => max_shards ≠ 0
  | .sending current _ => ∃ client, current = some client
  | _ => True

theorem attemptOrThrow_sound (e : CallException) (next : Option (Client × SharedClient)) :
    Sound (attemptOrThrow e next : ExecutePc T) := by
  cases next with
  | none => trivial
  | some p => exact ⟨p.1,rfl⟩

theorem waitReady_sound (timed_out : Bool) (shared : Shared) (pc : ExecutePc T)
    (h : waitReady timed_out shared = some pc) : Sound pc := by
  unfold waitReady at h
  split at h
  · cases h
    trivial
  · split at h
    · cases h
      trivial
    · split at h
      · cases h
        trivial
      · cases h

theorem findNamed_max_shards (createFails : Text → Option CallException) (table : RoutingTable)
    (target : Text) (current : SharedClient) :
    (findNamed createFails table target current).2.max_shards = table.max_shards := by
  unfold findNamed
  split
  · exact RoutingTable.getOrCreateByTarget_max_shards createFails table target
  · rfl

theorem executeStep_sound (configured_mode : Mode) (hint : Option KeyHint) (master_first : Bool)
    (failures : Failures) (shared : Shared) (pc : ExecutePc T)
    (r : Except Fault (Moved T)) (hpc : Sound pc) (hs : shared.routing_table.max_shards ≠ 0)
    (h : executeStep configured_mode hint master_first failures shared pc = some r) :
    ∃ moved, r = .ok moved ∧ Sound moved.pc ∧
      moved.shared.routing_table.max_shards = shared.routing_table.max_shards := by
  cases pc with
  | waitingReady =>
    obtain ⟨pc,hw,rfl⟩ := Option.map_eq_some_iff.mp h
    exact ⟨_,rfl,waitReady_sound false shared pc hw,rfl⟩
  | readingShards =>
    cases h
    exact ⟨_,rfl,hs,rfl⟩
  | choosingShard max_shards =>
    obtain ⟨p,hp⟩ := (selectShard_ok_iff hint max_shards shared.random_counter).mpr hpc
    simp only [executeStep, hp] at h
    cases h
    exact ⟨_,rfl,trivial,rfl⟩
  | readingMaster shard =>
    cases h
    exact ⟨_,rfl,trivial,rfl⟩
  | readingBackup shard master =>
    cases h
    exact ⟨_,rfl,trivial,rfl⟩
  | selectingMode master backup =>
    simp only [executeStep] at h
    split at h
    next =>
      cases h
      exact ⟨_,rfl,trivial,rfl⟩
    next current fallback hf =>
      cases h
      exact ⟨_,rfl,firstAttempt_current _ _ _ _ _ _ hf,rfl⟩
  | sending current fallback =>
    obtain ⟨client,rfl⟩ := hpc
    simp only [executeStep] at h
    split at h <;> cases h <;> exact ⟨_,rfl,trivial,rfl⟩
  | awaiting current fallback => cases h
  | catching e current fallback =>
    simp only [executeStep] at h
    split at h
    next route hr =>
      cases h
      exact ⟨_,rfl,trivial,rfl⟩
    next hr =>
      split at h
      · split at h
        · cases h
          exact ⟨_,rfl,trivial,rfl⟩
        · cases h
          exact ⟨_,rfl,attemptOrThrow_sound e _,rfl⟩
      · cases h
        exact ⟨_,rfl,trivial,rfl⟩
  | resolvingMaster route e current fallback =>
    have hm := findNamed_max_shards failures.createFails shared.routing_table
      route.master_target (some current)
    simp only [executeStep] at h
    split at h <;> cases h <;> exact ⟨_,rfl,trivial,hm⟩
  | resolvingBackup route e current fallback new_master =>
    have hb := findNamed_max_shards failures.createFails shared.routing_table
      route.backup_target (some current)
    simp only [executeStep] at h
    split at h
    next thrown ht =>
      cases h
      exact ⟨_,rfl,trivial,hb⟩
    next named hn =>
      cases h
      exact ⟨_,rfl,attemptOrThrow_sound e _,hb⟩
  | finished outcome => cases h

theorem executeReply_sound (outcome : Outcome T) (pc pc' : ExecutePc T)
    (h : executeReply outcome pc = some pc') : Sound pc' := by
  cases pc with
  | awaiting current fallback =>
    cases outcome <;> cases h <;> trivial
  | _ => cases h

theorem executeTimeout_sound (shared : Shared) (pc pc' : ExecutePc T)
    (h : executeTimeout shared pc = some pc') : Sound pc' := by
  cases pc with
  | waitingReady => exact waitReady_sound true shared pc' h
  | _ => cases h

end Steps

end HurriCache.ExecuteMachine
