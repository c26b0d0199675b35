import HurriCache.SmartMachine

/-!
# What holds after shutdown

`shutdown` joins the periodic thread only. A detached refresh that is past its
check may still store the ready flag, and it or a redirect may create a client.
With no such refresh as the flag is taken down, and no call that has a route as
the table is emptied, nothing later can do either: a refresh finds the request
at its check, and a call finds no route.
-/

set_option autoImplicit false

namespace HurriCache.ShutdownFinal
open HurriCache.ClientTypes HurriCache.CallOutcomes HurriCache.StreamCall
open HurriCache.TopologyTable HurriCache.CoordinatorStream HurriCache.ShardSelection
open HurriCache.AttemptGuard HurriCache.RefreshMachine HurriCache.ExecuteMachine
open HurriCache.SmartMachine HurriCache.PartialRun

def unreadied : ShutdownPc → Bool
  | .idle | .joining | .unreadying => false
  | _ => true

def cleared : ShutdownPc → Bool
  | .retiring _ | .returned => true
  | _ => false

/-- The refresh is past its check and has not yet set the flag. -/
def underWay : RefreshPc → Bool
  | .checking | .releasing | .done => false
  | _ => true

section Invariant

variable {T : Type}

def routed : ExecutePc T → Bool
  | .waitingReady | .readingShards | .choosingShard _ | .readingMaster _ | .finished _ => false
  | _ => true

/-- No refresh is under way as `shutdown` takes the flag down, and no call has
a route as it empties the table. -/
def settled (s : State T) (a : Action T) : Bool :=
  match a, s.shutdown with
  | .shutdown, .unreadying => !s.refreshers.any underWay
  | .shutdown, .clearing => !s.executions.any (fun e => routed e.pc)
  | _, _ => true

structure Emptied (created : Text → ℕ) (table : RoutingTable) : Prop where
  clients : table.routing_table_target = ∅
  routes : table.routing_table = ∅
  created : table.created = created

theorem emptied_getRoute (made : Text → ℕ) (table : RoutingTable) (h : Emptied made table)
    (shard : Int32) (role : NodeRole) : table.getRoute shard role = none := by
  rw [RoutingTable.getRoute, h.routes]
  rfl

theorem refreshStep_idle (coordinators : List Text) (createFails : Text → Option CallException)
    (shared next : Shared) (pc pc' : RefreshPc) (hpc : underWay pc = false)
    (hrequested : shared.shutdown_requested = true)
    (h : refreshStep coordinators createFails shared pc = some (next,pc')) :
    underWay pc' = false ∧ next.is_ready = shared.is_ready ∧
      next.routing_table = shared.routing_table := by
  cases (refreshStep_iff _ _ _ _ _ _).mp h with
  | skip | release => exact ⟨rfl,rfl,rfl⟩
  | check hc =>
    rw [hrequested, Bool.true_or] at hc
    cases hc
  | _ => cases hpc

theorem refreshStep_requested (coordinators : List Text)
    (createFails : Text → Option CallException) (shared next : Shared) (pc pc' : RefreshPc)
    (h : refreshStep coordinators createFails shared pc = some (next,pc')) :
    next.shutdown_requested = shared.shutdown_requested := by
  cases (refreshStep_iff _ _ _ _ _ _).mp h <;> rfl

theorem executeStep_flags (mode : Mode) (hint : Option KeyHint) (master_first : Bool)
    (failures : Failures) (shared : Shared) (pc : ExecutePc T) (m : Moved T)
    (h : executeStep mode hint master_first failures shared pc = some (.ok m)) :
    m.shared.is_ready = shared.is_ready ∧
      m.shared.shutdown_requested = shared.shutdown_requested := by
  cases (executeStep_iff _ _ _ _ _ _ _).mp h <;> exact ⟨rfl,rfl⟩

def Routeless : ExecutePc T → Prop
  | .readingBackup _ master => master = none
  | .selectingMode master backup => master = none ∧ backup = none
  | pc => routed pc = false

theorem routeless_of_not_routed (pc : ExecutePc T) (h : routed pc = false) : Routeless pc := by
  cases pc <;> first | exact h | cases h

theorem executeStep_routeless (mode : Mode) (hint : Option KeyHint) (master_first : Bool)
    (failures : Failures) (shared : Shared) (pc : ExecutePc T) (m : Moved T) (made : Text → ℕ)
    (hempty : Emptied made shared.routing_table) (hpc : Routeless pc)
    (h : executeStep mode hint master_first failures shared pc = some (.ok m)) :
    Routeless m.pc ∧ m.shared.routing_table = shared.routing_table := by
  cases (executeStep_iff _ _ _ _ _ _ _).mp h with
  | wake | giveUp | readShards | choose | noNode => exact ⟨rfl,rfl⟩
  | readMaster shard => exact ⟨emptied_getRoute made _ hempty shard .MASTER,rfl⟩
  | readBackup shard master => exact ⟨⟨hpc,emptied_getRoute made _ hempty shard .BACKUP⟩,rfl⟩
  | select master backup current fallback hf =>
    obtain ⟨hm,hb⟩ := hpc
    rw [(firstAttempt_eq_none _ _ _ _).mpr ⟨hm,hb⟩] at hf
    cases hf
  | _ => cases hpc

structure ShutSoFar (made : Text → ℕ) (s : State T) : Prop where
  requested : s.shutdown ≠ .idle → s.shared.shutdown_requested = true
  flag : unreadied s.shutdown = true → s.shared.is_ready = false
  refreshers : unreadied s.shutdown = true → ∀ pc ∈ s.refreshers, underWay pc = false
  table : cleared s.shutdown = true → Emptied made s.shared.routing_table
  executions : cleared s.shutdown = true → ∀ e ∈ s.executions, Routeless e.pc

theorem not_idle_of_unreadied (pc : ShutdownPc) (h : unreadied pc = true) : pc ≠ .idle := by
  rintro rfl
  cases h

theorem unreadied_of_cleared (pc : ShutdownPc) (h : cleared pc = true) : unreadied pc = true := by
  cases pc <;> first | rfl | cases h

theorem forall_mem_set {α : Type} (P : α → Prop) (l : List α) (i : ℕ) (a : α) (ha : P a)
    (h : ∀ b ∈ l, P b) : ∀ b ∈ l.set i a, P b := by
  intro b hb
  rcases List.mem_or_eq_of_mem_set hb with hold | rfl
  · exact h b hold
  · exact ha

theorem refresh_shuts (config : Config) (s : State T) (w : ℕ) (pc pc' : RefreshPc)
    (createFails : Text → Option CallException) (next : Shared) (made : Text → ℕ)
    (hw : s.refreshers[w]? = some pc)
    (hstep : refreshStep config.coordinators createFails s.shared pc = some (next,pc'))
    (hs : ShutSoFar made s) :
    ShutSoFar made { s.setRefresher w pc' with shared := next } := by
  have hmem : pc ∈ s.refreshers := List.mem_of_getElem? hw
  have hrequested := refreshStep_requested _ _ _ _ _ _ hstep
  have hidle : unreadied s.shutdown = true → underWay pc' = false ∧
      next.is_ready = s.shared.is_ready ∧ next.routing_table = s.shared.routing_table := fun hu =>
    refreshStep_idle _ _ _ _ _ _ (hs.refreshers hu pc hmem)
      (hs.requested (not_idle_of_unreadied _ hu)) hstep
  refine ⟨fun hi => hrequested.trans (hs.requested hi),?_,?_,?_,hs.executions⟩
  · intro hu
    exact (hidle hu).2.1.trans (hs.flag hu)
  · intro hu
    exact forall_mem_set _ _ w pc' (hidle hu).1 (hs.refreshers hu)
  · intro hc
    have hkept := (hidle (unreadied_of_cleared _ hc)).2.2
    show Emptied made next.routing_table
    exact hkept ▸ hs.table hc

theorem execute_shuts (config : Config) (s : State T) (x : ℕ) (e : Execution T)
    (master_first : Bool) (failures : Failures) (r : Except Fault (Moved T)) (made : Text → ℕ)
    (hx : s.executions[x]? = some e)
    (hstep : executeStep config.configured_mode e.hint master_first failures s.shared e.pc = some r)
    (hs : ShutSoFar made s) : ShutSoFar made (afterExecute s x e r) := by
  cases r with
  | error f => exact ⟨hs.requested,hs.flag,hs.refreshers,hs.table,hs.executions⟩
  | ok m =>
    obtain ⟨hready,hrequested⟩ := executeStep_flags _ _ _ _ _ _ m hstep
    have hrouteless : cleared s.shutdown = true →
        Routeless m.pc ∧ m.shared.routing_table = s.shared.routing_table := fun hc =>
      executeStep_routeless _ _ _ _ _ _ m made (hs.table hc)
        (hs.executions hc e (List.mem_of_getElem? hx)) hstep
    refine ⟨fun hi => hrequested.trans (hs.requested hi),fun hu => hready.trans (hs.flag hu),
      ?_,?_,?_⟩
    · intro hu pc hmem
      simp only [afterExecute, State.setExecution] at hmem
      split at hmem
      · rcases List.mem_append.mp hmem with hold | hnew
        · exact hs.refreshers hu pc hold
        · rw [List.mem_singleton.mp hnew]
          rfl
      · exact hs.refreshers hu pc hmem
    · intro hc
      show Emptied made m.shared.routing_table
      exact (hrouteless hc).2 ▸ hs.table hc
    · intro hc
      exact forall_mem_set _ _ x _ (hrouteless hc).1 (hs.executions hc)

theorem moved_shuts (s : State T) (x : ℕ) (e : Execution T) (pc : ExecutePc T) (made : Text → ℕ)
    (hx : s.executions[x]? = some e) (hpc : Routeless e.pc → Routeless pc)
    (hs : ShutSoFar made s) : ShutSoFar made (s.setExecution x ⟨e.hint,pc⟩) where
  requested := hs.requested
  flag := hs.flag
  refreshers := hs.refreshers
  table := hs.table
  executions hc := forall_mem_set _ _ x _ (hpc (hs.executions hc e (List.mem_of_getElem? hx)))
    (hs.executions hc)

theorem executeReply_routeless (outcome : Outcome T) (pc pc' : ExecutePc T)
    (h : executeReply outcome pc = some pc') (hpc : Routeless pc) : Routeless pc' := by
  cases pc with
  | awaiting current fallback => cases hpc
  | _ => cases h

theorem executeTimeout_routeless (shared : Shared) (pc pc' : ExecutePc T)
    (h : executeTimeout shared pc = some pc') : Routeless pc' := by
  cases pc with
  | waitingReady =>
    simp only [executeTimeout, waitReady] at h
    split at h
    · cases h
      rfl
    · split at h <;> cases h <;> rfl
  | _ => cases h

theorem refreshReceive_underWay (event : Event RoutingInfoData) (pc pc' : RefreshPc)
    (h : refreshReceive event pc = some pc') : underWay pc = true := by
  cases pc with
  | waiting base attempt stream => rfl
  | _ => cases h

theorem act_keeps (config : Config) (s t : State T) (a : Action T) (made : Text → ℕ)
    (hnot : a ≠ .shutdown) (hs : ShutSoFar made s) (h : act config s a = some t) :
    t.shutdown = s.shutdown ∧ ShutSoFar made t := by
  cases a with
  | call hint =>
    cases h
    refine ⟨rfl,hs.requested,hs.flag,hs.refreshers,hs.table,fun hc e he => ?_⟩
    rcases List.mem_append.mp he with hold | hnew
    · exact hs.executions hc e hold
    · rw [List.mem_singleton.mp hnew]
      rfl
  | tick =>
    simp only [act] at h
    split at h <;> cases h
    exact ⟨rfl,hs.requested,hs.flag,fun hu => forall_mem_set _ _ 0 _ rfl (hs.refreshers hu),
      hs.table,hs.executions⟩
  | refresh w createFails =>
    simp only [act, bind, Option.bind_eq_some_iff] at h
    obtain ⟨pc,hw,⟨next,pc'⟩,hstep,ht⟩ := h
    cases ht
    exact ⟨rfl,refresh_shuts config s w pc pc' createFails next made hw hstep hs⟩
  | stream w event =>
    simp only [act, bind, Option.bind_eq_some_iff] at h
    obtain ⟨pc,hw,pc',hr,ht⟩ := h
    cases ht
    refine ⟨rfl,hs.requested,hs.flag,fun hu => ?_,hs.table,hs.executions⟩
    have hidle := hs.refreshers hu pc (List.mem_of_getElem? hw)
    rw [refreshReceive_underWay event pc pc' hr] at hidle
    cases hidle
  | execute x master_first failures =>
    simp only [act, bind, Option.bind_eq_some_iff] at h
    obtain ⟨e,hx,r,hstep,ht⟩ := h
    cases ht
    refine ⟨?_,execute_shuts config s x e master_first failures r made hx hstep hs⟩
    cases r <;> rfl
  | timeout x =>
    simp only [act, bind, Option.bind_eq_some_iff] at h
    obtain ⟨e,hx,pc,hp,ht⟩ := h
    cases ht
    exact ⟨rfl,moved_shuts s x e pc made hx (fun _ => executeTimeout_routeless _ _ _ hp) hs⟩
  | reply x outcome =>
    simp only [act, bind, Option.bind_eq_some_iff] at h
    obtain ⟨e,hx,pc,hp,ht⟩ := h
    cases ht
    exact ⟨rfl,moved_shuts s x e pc made hx (executeReply_routeless outcome e.pc pc hp) hs⟩
  | setMode mode =>
    cases h
    exact ⟨rfl,hs.requested,hs.flag,hs.refreshers,hs.table,hs.executions⟩
  | shutdown => exact absurd rfl hnot

theorem shutdownStep_shuts (s : State T) (shared : Shared) (pc : ShutdownPc) (made : Text → ℕ)
    (hsettled : settled s .shutdown = true) (hs : ShutSoFar made s)
    (h : shutdownStep s.shared s.refreshers s.shutdown = some (shared,pc)) :
    ∃ made, ShutSoFar made { s with shared := shared, shutdown := pc } := by
  obtain ⟨hrequested,hflag,hrefreshers,htable,hexecutions⟩ := hs
  cases hpc : s.shutdown with
  | idle =>
    rw [hpc] at h
    cases h
    exact ⟨made,fun _ => rfl,by simp [unreadied],by simp [unreadied],by simp [cleared],
      by simp [cleared]⟩
  | joining =>
    rw [hpc, shutdownStep] at h
    rw [hpc] at hrequested
    split at h <;> cases h
    exact ⟨made,fun _ => hrequested (by simp),by simp [unreadied],by simp [unreadied],
      by simp [cleared],by simp [cleared]⟩
  | unreadying =>
    rw [hpc] at h hrequested
    cases h
    simp only [settled, hpc, Bool.not_eq_true', List.any_eq_false, Bool.not_eq_true] at hsettled
    exact ⟨made,fun _ => hrequested (by simp),fun _ => rfl,fun _ => hsettled,by simp [cleared],
      by simp [cleared]⟩
  | closingCoordinator =>
    rw [hpc] at h hrequested hflag hrefreshers
    cases h
    exact ⟨made,fun _ => hrequested (by simp),fun _ => hflag rfl,fun _ => hrefreshers rfl,
      by simp [cleared],by simp [cleared]⟩
  | drainingStreams =>
    rw [hpc, shutdownStep] at h
    rw [hpc] at hrequested hflag hrefreshers
    split at h <;> cases h
    exact ⟨made,fun _ => hrequested (by simp),fun _ => hflag rfl,fun _ => hrefreshers rfl,
      by simp [cleared],by simp [cleared]⟩
  | clearing =>
    rw [hpc] at h hrequested hflag hrefreshers
    cases h
    simp only [settled, hpc, Bool.not_eq_true', List.any_eq_false, Bool.not_eq_true] at hsettled
    exact ⟨s.shared.routing_table.created,fun _ => hrequested (by simp),fun _ => hflag rfl,
      fun _ => hrefreshers rfl,fun _ => ⟨rfl,rfl,rfl⟩,
      fun _ e he => routeless_of_not_routed e.pc (hsettled e he)⟩
  | retiring clients =>
    rw [hpc] at h hrequested hflag hrefreshers htable hexecutions
    cases clients <;> cases h <;>
      exact ⟨made,fun _ => hrequested (by simp),fun _ => hflag rfl,fun _ => hrefreshers rfl,
        fun _ => htable rfl,fun _ => hexecutions rfl⟩
  | returned =>
    rw [hpc] at h
    cases h

theorem step_shuts (config : Config) (s t : State T) (a : Action T) (ha : settled s a = true)
    (hs : ∃ made, ShutSoFar made s) (h : step config s a = some t) :
    ∃ made, ShutSoFar made t := by
  obtain ⟨made,hs⟩ := hs
  unfold step at h
  split at h
  · cases h
  · by_cases hshutdown : a = .shutdown
    · subst hshutdown
      simp only [act, bind, Option.bind_eq_some_iff] at h
      obtain ⟨⟨shared,pc⟩,hstep,ht⟩ := h
      cases ht
      exact shutdownStep_shuts s shared pc made ha hs hstep
    · exact ⟨made,(act_keeps config s t a made hshutdown hs h).2⟩

/-- Once `shutdown` has returned no step of any thread changes what it left. -/
theorem step_final (config : Config) (s t : State T) (a : Action T) (made : Text → ℕ)
    (hs : s.shutdown = .returned ∧ ShutSoFar made s) (h : step config s a = some t) :
    t.shutdown = .returned ∧ ShutSoFar made t := by
  obtain ⟨hreturned,hshut⟩ := hs
  unfold step at h
  split at h
  · cases h
  · have hnot : a ≠ .shutdown := by
      rintro rfl
      simp [act, hreturned, shutdownStep] at h
    obtain ⟨hpc,hkeep⟩ := act_keeps config s t a made hnot hshut h
    exact ⟨hpc.trans hreturned,hkeep⟩

end Invariant

/-- In every interleaving in which no refresh is under way as `shutdown` takes
the flag down, and no call has a route as it empties the table, the flag is down
and the table empty once `shutdown` has returned, and no later step of any
thread changes that. -/
theorem shutdown_final {T : Type} (config : Config) (actions : List (Action T)) (s : State T)
    (hsettled : meets (step config) settled {} actions = true)
    (hrun : run (step config) {} actions = some s) (hreturned : s.shutdown = .returned) :
    s.shared.is_ready = false ∧ s.shared.routing_table.routing_table_target = ∅ ∧
      s.shared.routing_table.routing_table = ∅ ∧
      ∀ later t, run (step config) s later = some t →
        t.shared.is_ready = false ∧ t.shared.routing_table.routing_table_target = ∅ ∧
          t.shared.routing_table.routing_table = ∅ ∧
          t.shared.routing_table.created = s.shared.routing_table.created := by
  obtain ⟨made,hshut⟩ := run_invariant_of_meets (step config) settled
    (fun u => ∃ made, ShutSoFar made u)
    (fun u a t ha hu h => step_shuts config u t a ha hu h) {} s actions hsettled
    ⟨fun _ => 0,by simp,by simp [unreadied],by simp [unreadied],by simp [cleared],
      by simp [cleared]⟩ hrun
  have hflag : s.shared.is_ready = false := hshut.flag (by rw [hreturned]; rfl)
  have htable : Emptied made s.shared.routing_table := hshut.table (by rw [hreturned]; rfl)
  refine ⟨hflag,htable.clients,htable.routes,fun later t hlater => ?_⟩
  obtain ⟨hr,hfinal⟩ := run_invariant_of_meets (step config) (fun _ _ => true)
    (fun u => u.shutdown = .returned ∧ ShutSoFar made u)
    (fun u a t _ hu h => step_final config u t a made hu h) s t later (meets_true _ s later)
    ⟨hreturned,hshut⟩ hlater
  have hemptied : Emptied made t.shared.routing_table := hfinal.table (by rw [hr]; rfl)
  exact ⟨hfinal.flag (by rw [hr]; rfl),hemptied.clients,hemptied.routes,
    hemptied.created.trans htable.created.symm⟩

def answered (w : ℕ) : List (Action ℕ) :=
  let topology : RoutingInfoData := {
    max_shards := 1
    peerRouting := [⟨['a'],.MASTER,[0]⟩] }
  [.stream w (.started true),.stream w (.read (some topology)),.stream w (.read none),
    .stream w (.finished Status.initial []),.refresh w (fun _ => none)]

def booted : List (Action ℕ) :=
  let refresh : Action ℕ := .refresh 0 (fun _ => none)
  [.tick,refresh,refresh,refresh,refresh]++answered 0++[refresh,refresh,refresh,refresh,refresh]

def called : List (Action ℕ) := .call none::List.replicate 7 (.execute 0 true {})

def closing (n : ℕ) : List (Action ℕ) := List.replicate n .shutdown

def coordinator : Config := { coordinators := [['c']] }

theorem shutdown_final_after_the_call :
    ∃ s, run (step coordinator) {} (booted++called++[.reply 0 (.ok 5)]++closing 8) = some s ∧
      s.shared.is_ready = false ∧ s.shared.routing_table.routing_table_target = ∅ ∧
      s.shared.routing_table.routing_table = ∅ ∧
      ∀ later t, run (step coordinator) s later = some t →
        t.shared.is_ready = false ∧ t.shared.routing_table.routing_table_target = ∅ ∧
          t.shared.routing_table.routing_table = ∅ ∧
          t.shared.routing_table.created = s.shared.routing_table.created :=
  ⟨_,rfl,shutdown_final coordinator (booted++called++[.reply 0 (.ok 5)]++closing 8) _ rfl rfl rfl⟩

def overtaken : List (Action ℕ) :=
  booted++called++[.reply 0 (.error (.grpc .UNAVAILABLE [] [])),.execute 0 true {}]++
    List.replicate 4 (.refresh 1 (fun _ => none))++answered 1++closing 8

def redirected : List (Action ℕ) :=
  booted++called++closing 6++[.reply 0 (.error (.grpc .FAILED_PRECONDITION [] ['b']))]++closing 2

/-- After `shutdown` has returned, the refresh makes a client for its node again
and sets the flag, and a redirect makes a client for the node it names. -/
theorem threads_outlive_shutdown :
    (∃ s t, run (step coordinator) {} overtaken = some s ∧ s.shutdown = .returned ∧
      s.shared.is_ready = false ∧ s.shared.routing_table.routing_table_target = ∅ ∧
      run (step coordinator) s (List.replicate 4 (.refresh 1 (fun _ => none))) = some t ∧
      t.shared.is_ready = true ∧
      t.shared.routing_table.getRouteByTarget ['a'] = some ⟨['a'],1⟩) ∧
    ∃ s t, run (step coordinator) {} redirected = some s ∧ s.shutdown = .returned ∧
      s.shared.routing_table.routing_table_target = ∅ ∧
      run (step coordinator) s [.execute 0 true {},.execute 0 true {}] = some t ∧
      t.shared.routing_table.getRouteByTarget ['b'] = some ⟨['b'],0⟩ :=
  ⟨⟨_,_,rfl,rfl,rfl,rfl,rfl,rfl,rfl⟩,_,_,rfl,rfl,rfl,rfl,rfl⟩

end HurriCache.ShutdownFinal
