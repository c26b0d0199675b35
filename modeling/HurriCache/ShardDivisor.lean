import HurriCache.SmartMachine

/-!
# The divisor of the shard

The number of shards goes from a chunk of a topology stream through the call
object, the refresh and the table to the worker that divides by it. It stays
positive over every interleaving as long as no stream that tells no number of
shards ends with OK. One such stream makes the next call divide by zero.
-/

set_option autoImplicit false

namespace HurriCache.ShardDivisor
open HurriCache.CallOutcomes HurriCache.CoordinatorStream HurriCache.ShardSelection
open HurriCache.RefreshMachine HurriCache.ExecuteMachine HurriCache.SmartMachine
open HurriCache.PartialRun

section Invariant

variable {T : Type}

/-- A coordinator ends a stream with OK only after a chunk with a positive
number of shards. -/
def informative (s : State T) (a : Action T) : Bool :=
  match a with
  | .stream w event =>
    match s.refreshers[w]? with
    | some pc => informativeEvent event pc
    | none => true
  | _ => true

structure DivisorKnown (s : State T) : Prop where
  table : s.shared.routing_table.max_shards ≠ 0
  refreshers : ∀ pc ∈ s.refreshers, TopologyKnown pc
  executions : ∀ e ∈ s.executions, Sound e.pc
  fault : s.fault = none

theorem initial_known : DivisorKnown ({} : State T) where
  table := by
    show (1024 : Int32) ≠ 0
    decide
  refreshers := by
    intro pc hpc
    cases List.mem_singleton.mp hpc
    trivial
  executions := by
    intro e he
    cases he
  fault := rfl

theorem setRefresher_known (s : State T) (w : ℕ) (pc : RefreshPc) (hs : DivisorKnown s)
    (hpc : TopologyKnown pc) : DivisorKnown (s.setRefresher w pc) where
  table := hs.table
  refreshers := by
    intro p hp
    cases List.mem_or_eq_of_mem_set hp with
    | inl hold => exact hs.refreshers p hold
    | inr hnew => exact hnew ▸ hpc
  executions := hs.executions
  fault := hs.fault

theorem setExecution_known (s : State T) (x : ℕ) (e : Execution T) (hs : DivisorKnown s)
    (he : Sound e.pc) : DivisorKnown (s.setExecution x e) where
  table := hs.table
  refreshers := hs.refreshers
  executions := by
    intro f hf
    cases List.mem_or_eq_of_mem_set hf with
    | inl hold => exact hs.executions f hold
    | inr hnew => exact hnew ▸ he
  fault := hs.fault

theorem shared_known (s : State T) (shared : Shared) (hs : DivisorKnown s)
    (h : shared.routing_table.max_shards ≠ 0) : DivisorKnown { s with shared := shared } :=
  ⟨h,hs.refreshers,hs.executions,hs.fault⟩

theorem shutdownStep_max_shards (shared next : Shared) (refreshers : List RefreshPc)
    (pc pc' : ShutdownPc) (h : shutdownStep shared refreshers pc = some (next,pc')) :
    next.routing_table.max_shards = shared.routing_table.max_shards := by
  cases pc with
  | joining =>
    simp only [shutdownStep] at h
    split at h <;> cases h
    rfl
  | drainingStreams =>
    simp only [shutdownStep] at h
    split at h <;> cases h
    rfl
  | retiring clients => cases clients <;> cases h <;> rfl
  | returned => cases h
  | _ =>
    cases h
    rfl

theorem afterExecute_known (s : State T) (x : ℕ) (e : Execution T) (moved : Moved T)
    (hs : DivisorKnown s) (hpc : Sound moved.pc)
    (htable : moved.shared.routing_table.max_shards = s.shared.routing_table.max_shards) :
    DivisorKnown (afterExecute s x e (.ok moved)) := by
  have hset := setExecution_known s x ⟨e.hint,moved.pc⟩ hs hpc
  refine ⟨?_,?_,hset.executions,hset.fault⟩
  · show moved.shared.routing_table.max_shards ≠ 0
    rw [htable]
    exact hs.table
  · intro pc hp
    cases hr : moved.refresh with
    | false =>
      simp only [afterExecute, hr] at hp
      exact hset.refreshers pc hp
    | true =>
      simp only [afterExecute, hr, if_true, List.mem_append] at hp
      cases hp with
      | inl hold => exact hset.refreshers pc hold
      | inr hnew =>
        cases List.mem_singleton.mp hnew
        trivial

theorem act_known (config : Config) (s t : State T) (a : Action T)
    (hinf : informative s a = true) (hs : DivisorKnown s) (h : act config s a = some t) :
    DivisorKnown t := by
  cases a with
  | call hint =>
    cases h
    refine ⟨hs.table,hs.refreshers,?_,hs.fault⟩
    intro e he
    cases List.mem_append.mp he with
    | inl hold => exact hs.executions e hold
    | inr hnew =>
      cases List.mem_singleton.mp hnew
      trivial
  | tick =>
    simp only [act] at h
    split at h <;> cases h
    exact setRefresher_known s 0 .checking hs trivial
  | refresh w createFails =>
    simp only [act, bind, Option.bind_eq_some_iff] at h
    obtain ⟨pc,hw,⟨shared,pc'⟩,hstep,ht⟩ := h
    cases ht
    have hknown := refreshStep_known _ _ _ _ _ _
      (hs.refreshers pc (List.mem_of_getElem? hw)) hs.table hstep
    exact shared_known _ shared (setRefresher_known s w pc' hs hknown.1) hknown.2
  | stream w event =>
    simp only [act, bind, Option.bind_eq_some_iff] at h
    obtain ⟨pc,hw,pc',hreceive,ht⟩ := h
    cases ht
    have hevent : informativeEvent event pc = true := by simpa [informative, hw] using hinf
    exact setRefresher_known s w pc' hs
      (refreshReceive_known event pc pc' (hs.refreshers pc (List.mem_of_getElem? hw)) hevent
        hreceive)
  | execute x master_first failures =>
    simp only [act, bind, Option.bind_eq_some_iff] at h
    obtain ⟨e,hx,r,hstep,ht⟩ := h
    cases ht
    obtain ⟨moved,rfl,hsound,htable⟩ := executeStep_sound _ _ _ _ _ _ r
      (hs.executions e (List.mem_of_getElem? hx)) hs.table hstep
    exact afterExecute_known s x e moved hs hsound htable
  | timeout x =>
    simp only [act, bind, Option.bind_eq_some_iff] at h
    obtain ⟨e,hx,pc,hstep,ht⟩ := h
    cases ht
    exact setExecution_known s x ⟨e.hint,pc⟩ hs (executeTimeout_sound _ _ pc hstep)
  | reply x outcome =>
    simp only [act, bind, Option.bind_eq_some_iff] at h
    obtain ⟨e,hx,pc,hstep,ht⟩ := h
    cases ht
    exact setExecution_known s x ⟨e.hint,pc⟩ hs (executeReply_sound _ _ pc hstep)
  | setMode mode =>
    cases h
    exact shared_known s _ hs hs.table
  | shutdown =>
    simp only [act, bind, Option.bind_eq_some_iff] at h
    obtain ⟨⟨shared,pc⟩,hstep,ht⟩ := h
    cases ht
    have htable := shutdownStep_max_shards _ _ _ _ _ hstep
    exact ⟨by rw [htable]; exact hs.table,hs.refreshers,hs.executions,hs.fault⟩

theorem step_known (config : Config) (s t : State T) (a : Action T)
    (hinf : informative s a = true) (hs : DivisorKnown s) (h : step config s a = some t) :
    DivisorKnown t := by
  unfold step at h
  split at h
  · cases h
  · exact act_known config s t a hinf hs h

end Invariant

/-- In every interleaving in which the coordinators end no uninformative
stream with OK, the divisor is positive and the process does not fail. -/
theorem divisor_positive {T : Type} (config : Config) (actions : List (Action T)) (s : State T)
    (hinf : meets (step config) informative {} actions = true)
    (hrun : run (step config) {} actions = some s) :
    (s.shared.is_ready = true → s.shared.routing_table.max_shards.toUInt32 ≠ 0) ∧
      (∀ e ∈ s.executions, ∀ max_shards, e.pc = .choosingShard max_shards →
        max_shards.toUInt32 ≠ 0) ∧
      s.fault = none := by
  have hs : DivisorKnown s := run_invariant_of_meets (step config) informative DivisorKnown
    (fun u a t ha hu h => step_known config u t a ha hu h) {} s actions hinf initial_known hrun
  refine ⟨fun _ => toUInt32_ne_zero _ hs.table,?_,hs.fault⟩
  intro e he max_shards hpc
  have hsound := hs.executions e he
  rw [hpc] at hsound
  exact toUInt32_ne_zero max_shards hsound

def firstCall (chunks : List RoutingInfoData) : List (Action ℕ) :=
  let refresh : Action ℕ := .refresh 0 (fun _ => none)
  let execute : Action ℕ := .execute 0 true {}
  [.tick,refresh,refresh,refresh,refresh,.stream 0 (.started true)]++
    chunks.map (fun chunk => .stream 0 (.read (some chunk)))++
    [.stream 0 (.read none),.stream 0 (.finished Status.initial []),
      refresh,refresh,refresh,refresh,refresh,.call none,execute,execute,execute]

def oneCoordinator : Config := { coordinators := [['c']] }

theorem divisor_positive_after_two_chunks :
    ∃ s, run (step oneCoordinator) {} (firstCall [{},{ max_shards := 8 }]) = some s ∧
      s.shared.is_ready = true ∧
      (s.shared.is_ready = true → s.shared.routing_table.max_shards.toUInt32 ≠ 0) ∧
      (∀ e ∈ s.executions, ∀ max_shards, e.pc = .choosingShard max_shards →
        max_shards.toUInt32 ≠ 0) ∧
      s.fault = none :=
  ⟨_,rfl,rfl,divisor_positive oneCoordinator (firstCall [{},{ max_shards := 8 }]) _ (by decide)
    rfl⟩

/-- A coordinator that ends its stream with OK and no chunk. -/
theorem empty_topology_divides_by_zero :
    ∃ s, run (step oneCoordinator) {} (firstCall []) = some s ∧ s.shared.is_ready = true ∧
      s.shared.routing_table.max_shards.toUInt32 = 0 ∧ s.fault = some .divisionByZero :=
  ⟨_,rfl,rfl,rfl,rfl⟩

end HurriCache.ShardDivisor
