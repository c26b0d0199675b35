import HurriCache.TopologyRace

/-!
# One topology for one decision

The divisor and the two routes are read under three separate locks. When no
update comes between the first and the last of them, and the one before them
was complete, they are the reads of one published table.
-/

set_option autoImplicit false

namespace HurriCache.TopologySnapshot
open HurriCache.ClientTypes HurriCache.CallOutcomes HurriCache.TopologyTable
open HurriCache.ShardSelection HurriCache.AttemptGuard HurriCache.RefreshMachine
open HurriCache.ExecuteMachine HurriCache.TopologyRace HurriCache.PartialRun

def Chosen (call : Call) (max_shards shard : Int32) : Prop :=
  ∃ counter left, selectShard call.hint max_shards counter = .ok (shard,left)

structure DecidedBy (call : Call) (table : RoutingTable) (max_shards shard : Int32)
    (master backup : SharedClient) : Prop where
  divisor : max_shards = table.max_shards
  chosen : Chosen call max_shards shard
  master : master = table.getRoute shard .MASTER
  backup : backup = table.getRoute shard .BACKUP

section Invariant

variable {T : Type}

def OneSnapshot (call : Call) (s : State T) : Prop :=
  ∀ max_shards shard master backup,
    s.reads = ⟨some max_shards,some shard,some master,some backup⟩ →
    ∃ table ∈ s.published, DecidedBy call table max_shards shard master backup

def reading : ExecutePc T → Bool
  | .choosingShard _ | .readingMaster _ | .readingBackup _ _ => true
  | _ => false

/-- No update while the call reads, and none cut short before it starts to. -/
def undisturbed (s : State T) (a : Action T) : Bool :=
  match a with
  | .update _ _ _ => !reading s.pc
  | .execute _ _ =>
    match s.pc with
    | .readingShards => s.whole
    | _ => true
  | _ => true

structure Agrees (a b : RoutingTable) : Prop where
  divisor : a.max_shards = b.max_shards
  routes : a.routing_table = b.routing_table

theorem agrees_getRoute (a b : RoutingTable) (h : Agrees a b) (shard : Int32) (role : NodeRole) :
    a.getRoute shard role = b.getRoute shard role := by
  rw [RoutingTable.getRoute, h.routes, RoutingTable.getRoute]

/-- The reads made so far, at each point of the call. -/
def ReadsAt (call : Call) (s : State T) : Prop :=
  match s.pc with
  | .waitingReady | .readingShards => s.reads = {}
  | .choosingShard max_shards => ∃ table ∈ s.published, Agrees table s.shared.routing_table ∧
      max_shards = table.max_shards ∧ s.reads = ⟨some max_shards,none,none,none⟩
  | .readingMaster shard => ∃ table ∈ s.published, Agrees table s.shared.routing_table ∧
      Chosen call table.max_shards shard ∧
      s.reads = ⟨some table.max_shards,some shard,none,none⟩
  | .readingBackup shard master => ∃ table ∈ s.published, Agrees table s.shared.routing_table ∧
      Chosen call table.max_shards shard ∧ master = table.getRoute shard .MASTER ∧
      s.reads = ⟨some table.max_shards,some shard,some master,none⟩
  | _ => OneSnapshot call s

structure Consistent (call : Call) (s : State T) : Prop where
  whole : s.whole = true → ∃ table ∈ s.published, Agrees table s.shared.routing_table
  reads : ReadsAt call s

theorem oneSnapshot_of_readsAt (call : Call) (s : State T) (h : ReadsAt call s) :
    OneSnapshot call s := by
  intro max_shards shard master backup hr
  cases hpc : s.pc with
  | waitingReady =>
    simp only [ReadsAt, hpc] at h
    rw [h] at hr
    cases hr
  | readingShards =>
    simp only [ReadsAt, hpc] at h
    rw [h] at hr
    cases hr
  | choosingShard m =>
    simp only [ReadsAt, hpc] at h
    obtain ⟨table,_,_,_,he⟩ := h
    rw [he] at hr
    cases hr
  | readingMaster n =>
    simp only [ReadsAt, hpc] at h
    obtain ⟨table,_,_,_,he⟩ := h
    rw [he] at hr
    cases hr
  | readingBackup n c =>
    simp only [ReadsAt, hpc] at h
    obtain ⟨table,_,_,_,_,he⟩ := h
    rw [he] at hr
    cases hr
  | _ =>
    simp only [ReadsAt, hpc] at h
    exact h max_shards shard master backup hr

theorem start_consistent (call : Call) (mode_override : Option Mode) (random_counter : UInt32) :
    Consistent call (start mode_override random_counter : State T) where
  whole := fun h => nomatch h
  reads := rfl

theorem readsAt_mono (call : Call) (s t : State T) (hpc : t.pc = s.pc) (hr : t.reads = s.reads)
    (hp : ∀ table ∈ s.published, table ∈ t.published) (hnot : reading s.pc = false)
    (h : ReadsAt call s) : ReadsAt call t := by
  have hone : OneSnapshot call t := by
    intro max_shards shard master backup he
    obtain ⟨table,hmem,hd⟩ := oneSnapshot_of_readsAt call s h max_shards shard master backup
      (hr ▸ he)
    exact ⟨table,hp table hmem,hd⟩
  cases hpcs : s.pc with
  | waitingReady =>
    simp only [ReadsAt, hpcs] at h
    simp only [ReadsAt, hpc, hpcs, hr, h]
  | readingShards =>
    simp only [ReadsAt, hpcs] at h
    simp only [ReadsAt, hpc, hpcs, hr, h]
  | choosingShard m =>
    rw [hpcs] at hnot
    cases hnot
  | readingMaster n =>
    rw [hpcs] at hnot
    cases hnot
  | readingBackup n c =>
    rw [hpcs] at hnot
    cases hnot
  | _ =>
    simp only [ReadsAt, hpc, hpcs]
    exact hone

def decided : ExecutePc T → Bool
  | .sending _ _ | .awaiting _ _ | .catching _ _ _ | .resolvingMaster _ _ _ _
  | .resolvingBackup _ _ _ _ _ | .finished _ => true
  | _ => false

theorem observe_decided (reads : Reads) (pc : ExecutePc T) (h : decided pc = true) :
    reads.observe pc = reads := by
  cases pc <;> first | rfl | cases h

theorem readsAt_decided (call : Call) (s : State T) (h : decided s.pc = true)
    (ho : OneSnapshot call s) : ReadsAt call s := by
  cases hpc : s.pc <;> simp only [ReadsAt, hpc] <;> first | exact ho | (rw [hpc] at h; cases h)

theorem attemptOrThrow_decided (e : CallException) (next : Option (Client × SharedClient)) :
    decided (attemptOrThrow e next : ExecutePc T) = true := by
  cases next <;> rfl

theorem executeStep_decided (mode : Mode) (hint : Option KeyHint) (master_first : Bool)
    (failures : Failures) (shared : Shared) (pc : ExecutePc T)
    (m : Moved T) (hpc : decided pc = true ∨ ∃ master backup, pc = .selectingMode master backup)
    (h : executeStep mode hint master_first failures shared pc = some (.ok m)) :
    decided m.pc = true := by
  cases (executeStep_iff _ _ _ _ _ _ _).mp h with
  | wake | giveUp | readShards | choose | readMaster | readBackup => simp [decided] at hpc
  | retry e | backupFound _ e => exact attemptOrThrow_decided e _
  | _ => rfl

theorem findNamed_agrees (createFails : Text → Option CallException) (table : RoutingTable)
    (target : Text) (current : SharedClient) :
    Agrees table (findNamed createFails table target current).2 :=
  ⟨(findNamed_max_shards createFails table target current).symm,
    (findNamed_routes createFails table target current).symm⟩

theorem executeStep_agrees (mode : Mode) (hint : Option KeyHint) (master_first : Bool)
    (failures : Failures) (shared : Shared) (pc : ExecutePc T)
    (m : Moved T)
    (h : executeStep mode hint master_first failures shared pc = some (.ok m)) :
    Agrees shared.routing_table m.shared.routing_table := by
  cases (executeStep_iff _ _ _ _ _ _ _).mp h with
  | masterThrows route _ _ current | masterFound route _ current =>
    exact findNamed_agrees failures.createFails shared.routing_table route.master_target
      (some current)
  | backupThrows route _ _ current | backupFound route _ current =>
    exact findNamed_agrees failures.createFails shared.routing_table route.backup_target
      (some current)
  | _ => exact ⟨rfl,rfl⟩

theorem agrees_trans (a b c : RoutingTable) (hab : Agrees a b) (hbc : Agrees b c) : Agrees a c :=
  ⟨hab.divisor.trans hbc.divisor,hab.routes.trans hbc.routes⟩

theorem execute_readsAt (call : Call) (s : State T) (master_first : Bool)
    (failures : Failures) (m : Moved T) (hs : Consistent call s)
    (hwhole : s.pc = .readingShards → s.whole = true)
    (h : executeStep call.configured_mode call.hint master_first failures s.shared s.pc =
      some (.ok m)) :
    ReadsAt call (moved s (.ok m)) := by
  have hreads := hs.reads
  have hone := oneSnapshot_of_readsAt call s hs.reads
  have hdecided := executeStep_decided call.configured_mode call.hint master_first failures
    s.shared s.pc m
  have hstep := (executeStep_iff _ _ _ _ _ _ _).mp h
  generalize hpc : s.pc = pc at hstep
  simp only [ReadsAt, hpc] at hreads
  cases hstep with
  | wake hr => exact hreads
  | giveUp hr hd =>
    intro max_shards shard master backup he
    simp only [moved, Reads.observe, hreads] at he
    cases he
  | readShards =>
    obtain ⟨table,hmem,ha⟩ := hs.whole (hwhole hpc)
    exact ⟨table,hmem,ha,ha.divisor.symm,by simp [moved, Reads.observe, hreads]⟩
  | choose max_shards shard counter hsel =>
    obtain ⟨table,hmem,ha,hd,hr⟩ := hreads
    exact ⟨table,hmem,ha,⟨s.shared.random_counter,counter,by rw [← hd, hsel]⟩,by
      simp [moved, Reads.observe, hr, hd]⟩
  | readMaster shard =>
    obtain ⟨table,hmem,ha,hc,hr⟩ := hreads
    exact ⟨table,hmem,ha,hc,(agrees_getRoute _ _ ha shard .MASTER).symm,by
      simp [moved, Reads.observe, hr]⟩
  | readBackup shard master =>
    obtain ⟨table,hmem,ha,hc,hm,hr⟩ := hreads
    intro max_shards shard' master' backup' he
    simp only [moved, Reads.observe, hr, Reads.mk.injEq, Option.some.injEq] at he
    obtain ⟨rfl,rfl,rfl,rfl⟩ := he
    exact ⟨table,hmem,rfl,hc,hm,(agrees_getRoute _ _ ha shard .BACKUP).symm⟩
  | _ =>
    -- behind the decision nothing more is read
    have hlater := hdecided (by rw [hpc]; simp [decided]) h
    refine readsAt_decided call _ hlater ?_
    intro max_shards shard master backup he
    simp only [moved, observe_decided _ _ hlater] at he
    exact hone max_shards shard master backup he

theorem readsAt_of_agrees (call : Call) (s : State T) (shared : Shared) (h : ReadsAt call s)
    (ha : shared.routing_table = s.shared.routing_table) :
    ReadsAt call { s with shared := shared } := by
  cases hpc : s.pc <;> simp only [ReadsAt, hpc] at h ⊢ <;> first
    | (rw [ha]; exact h)
    | exact h

theorem act_consistent (call : Call) (s t : State T) (a : Action T)
    (hc : undisturbed s a = true) (hs : Consistent call s) (h : act call s a = some t) :
    Consistent call t := by
  cases a with
  | update max_shards peer_routings createFails =>
    cases h
    have hnot : reading s.pc = false := by simpa [undisturbed] using hc
    cases hthrown : (s.shared.routing_table.updateFromCoordinator createFails max_shards
        peer_routings).thrown with
    | none =>
      refine ⟨fun _ => ⟨_,?_,rfl,rfl⟩,readsAt_mono call s _ rfl rfl ?_ hnot hs.reads⟩
      · simp [updated, hthrown]
      · intro table hmem
        simp only [updated, hthrown, Option.isNone_none, if_true]
        exact List.mem_append_left _ hmem
    | some e =>
      refine ⟨fun hw => ?_,readsAt_mono call s _ rfl rfl ?_ hnot hs.reads⟩
      · simp [updated, hthrown] at hw
      · intro table hmem
        simpa [updated, hthrown] using hmem
  | retire u =>
    simp only [act] at h
    split at h
    · cases h
      exact ⟨hs.whole,readsAt_of_agrees call s _ hs.reads rfl⟩
    · cases h
  | ready =>
    simp only [act] at h
    split at h <;> cases h
    exact ⟨hs.whole,readsAt_of_agrees call s _ hs.reads rfl⟩
  | execute master_first failures =>
    obtain ⟨r,hr,rfl⟩ := Option.map_eq_some_iff.mp h
    cases r with
    | error f => exact ⟨hs.whole,hs.reads⟩
    | ok m =>
      refine ⟨fun hw => ?_,execute_readsAt call s master_first failures m hs ?_ hr⟩
      · obtain ⟨table,hmem,ha⟩ := hs.whole hw
        exact ⟨table,hmem,agrees_trans _ _ _ ha (executeStep_agrees _ _ _ _ _ _ m hr)⟩
      · intro hpc
        simpa [undisturbed, hpc] using hc
  | operate ok =>
    rcases operate_cases call s t ok h with rfl | ⟨operation,rfl⟩ <;> exact ⟨hs.whole,hs.reads⟩
  | reply outcome =>
    obtain ⟨pc,hp,rfl⟩ := reply_cases call s t outcome h
    refine ⟨hs.whole,readsAt_decided call _ ?_ (oneSnapshot_of_readsAt call s hs.reads)⟩
    cases hpc : s.pc with
    | awaiting current fallback =>
      rw [hpc] at hp
      cases outcome <;> cases hp <;> rfl
    | _ =>
      rw [hpc] at hp
      cases hp

theorem step_consistent (call : Call) (s t : State T) (a : Action T)
    (hc : undisturbed s a = true) (hs : Consistent call s) (h : step call s a = some t) :
    Consistent call t := by
  unfold step at h
  split at h
  · cases h
  · exact act_consistent call s t a hc hs h

end Invariant

/-- In every interleaving in which no update comes between the reads of the
call, and none before them was cut short, the call decides by one published
table. -/
theorem one_snapshot {T : Type} (call : Call) (mode_override : Option Mode)
    (random_counter : UInt32) (actions : List (Action T)) (s : State T)
    (hcond : meets (step call) undisturbed (start mode_override random_counter) actions = true)
    (hrun : run (step call) (start mode_override random_counter) actions = some s) :
    OneSnapshot call s :=
  oneSnapshot_of_readsAt call s (run_invariant_of_meets (step call) undisturbed (Consistent call)
    (fun u a t ha hu h => step_consistent call u t a ha hu h) _ s actions hcond
    (start_consistent call mode_override random_counter) hrun).reads

def oneShard : Action ℕ :=
  .update 1 [⟨['a'],.MASTER,[0]⟩,⟨['b'],.BACKUP,[0]⟩] (fun _ => none)

def twoShards : Action ℕ :=
  .update 2 [⟨['c'],.MASTER,[0]⟩,⟨['d'],.BACKUP,[0]⟩,⟨['a'],.MASTER,[1]⟩,⟨['b'],.BACKUP,[1]⟩]
    (fun _ => none)

def sampleCall : Call := { hint := some ⟨1,2⟩ }

def execute : Action ℕ := .execute true {}

theorem one_snapshot_before_resharding :
    ∃ s, run (step sampleCall) (start none 0)
        [oneShard,.ready,execute,execute,execute,execute,execute,twoShards] = some s ∧
      s.reads = ⟨some 1,some 0,some (some ⟨['a'],0⟩),some (some ⟨['b'],0⟩)⟩ ∧
      OneSnapshot sampleCall s :=
  ⟨_,rfl,rfl,one_snapshot sampleCall none 0
    [oneShard,.ready,execute,execute,execute,execute,execute,twoShards] _ rfl rfl⟩

/-- The resharding comes after the divisor is read: the key of the second
shard goes to the node of the first one. -/
theorem torn_decision :
    ∃ s, run (step sampleCall) (start none 0)
        [oneShard,.ready,execute,execute,twoShards,execute,execute,execute] = some s ∧
      ¬ OneSnapshot sampleCall s := by
  refine ⟨_,rfl,fun h => ?_⟩
  obtain ⟨table,hmem,hd⟩ := h 1 0 (some ⟨['c'],0⟩) (some ⟨['d'],0⟩) rfl
  rcases List.mem_cons.mp hmem with rfl | hrest
  · cases hd.master
  · cases List.mem_singleton.mp hrest
    cases hd.divisor

end HurriCache.TopologySnapshot
