import HurriCache.CoordinatorFailover
import HurriCache.FlagLock
import HurriCache.SmartMachine

/-!
# Refreshes one at a time

Any worker may start a refresh, and the periodic thread does. `is_updating_` is
a lock: one refresh at most is past its exchange, and the flag is up exactly
then. So nobody comes between the update of the table and the store of the
active index: when no refresh is between the two the index is that of the
coordinator whose topology was taken last.
-/

set_option autoImplicit false

namespace HurriCache.RefreshExclusion
open HurriCache.ClientTypes HurriCache.CallOutcomes HurriCache.CoordinatorStream
open HurriCache.AttemptGuard HurriCache.RefreshMachine HurriCache.ExecuteMachine
open HurriCache.SmartMachine HurriCache.CoordinatorFailover HurriCache.FlagLock
open HurriCache.PartialRun HurriCache.ShardSelection HurriCache.TopologyTable

def updating : RefreshPc → Bool
  | .checking | .locking | .done => false
  | _ => true

/-- The attempt whose topology is in the table but not yet the active one. -/
def adopting : RefreshPc → Option (Int32 × ℕ)
  | .retiring base attempt _ | .indexing base attempt => some (base,attempt)
  | _ => none

theorem adopting_updating (pc : RefreshPc) (h : adopting pc ≠ none) : updating pc = true := by
  cases pc <;> first
    | rfl
    | exact absurd rfl h

section Runs

variable {T : Type} (config : Config)

def adopted (s : State T) : Action T → Option Int32
  | .refresh w createFails =>
    match s.refreshers[w]? with
    | some (.updating base attempt routing_data) =>
      if (applied createFails s.shared routing_data).thrown.isNone then
        some (coordinatorIndex config.coordinators base attempt)
      else none
    | _ => none
  | _ => none

def adoptions : State T → List (Action T) → List Int32 := trace (step config) (adopted config)

def Bounded (n : ℕ) : RefreshPc → Prop
  | .fetching base _ => 0 ≤ base.toInt ∧ base.toInt < n
  | .waiting base attempt _ | .updating base attempt _ | .retiring base attempt _
  | .indexing base attempt => (0 ≤ base.toInt ∧ base.toInt < n) ∧ attempt < n
  | _ => True

structure Follows (taken : List Int32) (s : State T) : Prop where
  locked : Locked updating s.shared.is_updating s.refreshers
  adopting : ∀ pc ∈ s.refreshers, ∀ base attempt, adopting pc = some (base,attempt) →
    taken.getLast? = some (coordinatorIndex config.coordinators base attempt)
  settled : (∀ pc ∈ s.refreshers, RefreshExclusion.adopting pc = none) →
    s.shared.active_coordinator_index = taken.getLast?.getD 0
  readying : .readying ∈ s.refreshers → taken ≠ []
  ready : s.shared.is_ready = true → taken ≠ []
  bounded : config.coordinators ≠ [] → config.coordinators.length ≤ 2^30 →
    (0 ≤ s.shared.active_coordinator_index.toInt ∧
      s.shared.active_coordinator_index.toInt < config.coordinators.length) ∧
    ∀ pc ∈ s.refreshers, Bounded config.coordinators.length pc

theorem initial_follows : Follows config [] ({} : State T) where
  locked := locked_append RefreshPc.done rfl locked_nil
  adopting := fun pc hpc base attempt h => by
    rw [List.mem_singleton.mp hpc] at h
    cases h
  settled := fun _ => rfl
  readying := fun h => by cases List.mem_singleton.mp h
  ready := fun h => by cases h
  bounded := fun hne _ => by
    have hpos := List.length_pos_iff.mpr hne
    refine ⟨⟨le_refl _,?_⟩,fun pc hpc => ?_⟩
    · show (0 : ℤ) < config.coordinators.length
      omega
    · rw [List.mem_singleton.mp hpc]
      trivial

theorem index_bounded (coordinators : List Text) (base : Int32) (attempt : ℕ)
    (hsmall : coordinators.length ≤ 2^30) (hb : 0 ≤ base.toInt ∧ base.toInt < coordinators.length)
    (ha : attempt < coordinators.length) :
    0 ≤ (coordinatorIndex coordinators base attempt).toInt ∧
      (coordinatorIndex coordinators base attempt).toInt < coordinators.length := by
  have hrange : InRange coordinators base attempt := ⟨hb.1,hb.2,by omega,by omega⟩
  rw [coordinatorIndex_toInt attempt hrange]
  have := position_lt attempt hrange
  omega

variable {config} {taken : List Int32} {s t : State T} {w : ℕ} {pc pc' : RefreshPc}

theorem adopting_before (hw : s.refreshers[w]? = some pc) (had : adopting pc' = adopting pc)
    (h : ∀ p ∈ s.refreshers.set w pc', adopting p = none) :
    ∀ p ∈ s.refreshers, adopting p = none := by
  intro p hp
  obtain ⟨v,hv⟩ := List.mem_iff_getElem?.mp hp
  by_cases hne : v = w
  · subst hne
    obtain rfl : p = pc := Option.some.inj (hv.symm.trans hw)
    rw [← had]
    exact h pc' (List.mem_of_getElem? (List.getElem?_set_self (List.getElem?_eq_some_iff.mp hw).1))
  · exact h p (mem_moved s.refreshers w v pc' p hne hv)

theorem follows_move (hw : s.refreshers[w]? = some pc)
    (hrefreshers : t.refreshers = s.refreshers.set w pc')
    (hlocked : Locked updating t.shared.is_updating (s.refreshers.set w pc'))
    (hindex : t.shared.active_coordinator_index = s.shared.active_coordinator_index)
    (hready : t.shared.is_ready = true → s.shared.is_ready = true ∨ pc = .readying)
    (had : adopting pc' = adopting pc)
    (hreadying : pc' ≠ .readying)
    (hbounded : 0 ≤ s.shared.active_coordinator_index.toInt ∧
      s.shared.active_coordinator_index.toInt < config.coordinators.length →
      Bounded config.coordinators.length pc → Bounded config.coordinators.length pc')
    (h : Follows config taken s) : Follows config taken t := by
  have hpc := List.mem_of_getElem? hw
  refine ⟨?_,fun p hp base attempt hb => ?_,fun hnone => ?_,fun hp => ?_,fun hr => ?_,
    fun hne hsmall => ?_⟩
  · rw [hrefreshers]
    exact hlocked
  · rw [hrefreshers] at hp
    cases List.mem_or_eq_of_mem_set hp with
    | inl hold => exact h.adopting p hold base attempt hb
    | inr he => exact h.adopting pc hpc base attempt (by rw [← had, ← he]; exact hb)
  · rw [hindex]
    rw [hrefreshers] at hnone
    exact h.settled (adopting_before hw had hnone)
  · rw [hrefreshers] at hp
    cases List.mem_or_eq_of_mem_set hp with
    | inl hold => exact h.readying hold
    | inr he => exact absurd he.symm hreadying
  · rcases hready hr with hold | rfl
    · exact h.ready hold
    · exact h.readying hpc
  · obtain ⟨hi,hall⟩ := h.bounded hne hsmall
    rw [hindex]
    refine ⟨hi,fun p hp => ?_⟩
    rw [hrefreshers] at hp
    cases List.mem_or_eq_of_mem_set hp with
    | inl hold => exact hall p hold
    | inr he => exact he ▸ hbounded hi (hall pc hpc)

/-- While one refresh is past the exchange of the flag, no other has a topology
to adopt. -/
theorem adopting_alone (hw : s.refreshers[w]? = some pc) (hpc : updating pc = true)
    (h : Follows config taken s) (v : ℕ) (p : RefreshPc)
    (hv : (s.refreshers.set w pc')[v]? = some p) (hp : adopting p ≠ none) : p = pc' := by
  rcases getElem?_moved s.refreshers w v pc pc' p hw hv with ⟨hne,hold⟩ | ⟨_,he⟩
  · exact absurd (h.locked.one v w p pc hold hw (adopting_updating p hp) hpc) hne
  · exact he

theorem follows_adopt {base : Int32} {attempt : ℕ} {routing_data : CoordinatorRoutingInfo}
    {removed_clients : List Client}
    (hw : s.refreshers[w]? = some (.updating base attempt routing_data))
    (hrefreshers : t.refreshers = s.refreshers.set w (.retiring base attempt removed_clients))
    (hflag : t.shared.is_updating = s.shared.is_updating)
    (hindex : t.shared.active_coordinator_index = s.shared.active_coordinator_index)
    (h : Follows config taken s) :
    Follows config (taken++[coordinatorIndex config.coordinators base attempt]) t := by
  have hlt := (List.getElem?_eq_some_iff.mp hw).1
  refine ⟨?_,fun p hp b n hb => ?_,fun hnone => ?_,fun _ => by simp,fun _ => by simp,
    fun hne hsmall => ?_⟩
  · rw [hrefreshers, hflag]
    exact locked_move w _ _ hw rfl h.locked
  · rw [hrefreshers] at hp
    obtain ⟨v,hv⟩ := List.mem_iff_getElem?.mp hp
    obtain rfl := adopting_alone hw rfl h v p hv (by rw [hb]; simp)
    cases hb
    exact List.getLast?_concat
  · rw [hrefreshers] at hnone
    have := hnone _ (List.mem_of_getElem? (List.getElem?_set_self hlt))
    cases this
  · obtain ⟨hi,hall⟩ := h.bounded hne hsmall
    rw [hindex]
    refine ⟨hi,fun p hp => ?_⟩
    rw [hrefreshers] at hp
    cases List.mem_or_eq_of_mem_set hp with
    | inl hold => exact hall p hold
    | inr he =>
      have hb := hall _ (List.mem_of_getElem? hw)
      rw [he]
      exact hb

theorem follows_index {base : Int32} {attempt : ℕ}
    (hw : s.refreshers[w]? = some (.indexing base attempt))
    (hrefreshers : t.refreshers = s.refreshers.set w .readying)
    (hflag : t.shared.is_updating = s.shared.is_updating)
    (hindex : t.shared.active_coordinator_index =
      coordinatorIndex config.coordinators base attempt)
    (h : Follows config taken s) :
    Follows config taken t := by
  have hlast := h.adopting _ (List.mem_of_getElem? hw) base attempt rfl
  have htaken : taken ≠ [] := fun he => by
    rw [he] at hlast
    cases hlast
  refine ⟨?_,fun p hp b n hb => ?_,fun _ => ?_,fun _ => htaken,fun _ => htaken,
    fun hne hsmall => ?_⟩
  · rw [hrefreshers, hflag]
    exact locked_move w _ _ hw rfl h.locked
  · rw [hrefreshers] at hp
    obtain ⟨v,hv⟩ := List.mem_iff_getElem?.mp hp
    obtain rfl := adopting_alone hw rfl h v p hv (by rw [hb]; simp)
    cases hb
  · rw [hindex, hlast]
    rfl
  · obtain ⟨_,hall⟩ := h.bounded hne hsmall
    obtain ⟨hbase,hattempt⟩ := hall _ (List.mem_of_getElem? hw)
    rw [hindex]
    refine ⟨index_bounded _ base attempt hsmall hbase hattempt,fun p hp => ?_⟩
    rw [hrefreshers] at hp
    cases List.mem_or_eq_of_mem_set hp with
    | inl hold => exact hall p hold
    | inr he =>
      rw [he]
      trivial

theorem follows_append (s t : State T) (hrefreshers : t.refreshers = s.refreshers++[.checking])
    (hflag : t.shared.is_updating = s.shared.is_updating)
    (hindex : t.shared.active_coordinator_index = s.shared.active_coordinator_index)
    (hready : t.shared.is_ready = s.shared.is_ready) (h : Follows config taken s) :
    Follows config taken t := by
  have hcases : ∀ p ∈ t.refreshers, p ∈ s.refreshers ∨ p = .checking := by
    intro p hp
    rw [hrefreshers] at hp
    exact (List.mem_append.mp hp).imp id List.mem_singleton.mp
  refine ⟨?_,fun p hp base attempt hb => ?_,fun hnone => ?_,fun hp => ?_,fun hr => ?_,
    fun hne hsmall => ?_⟩
  · rw [hrefreshers, hflag]
    exact locked_append RefreshPc.checking rfl h.locked
  · rcases hcases p hp with hold | rfl
    · exact h.adopting p hold base attempt hb
    · cases hb
  · rw [hindex]
    rw [hrefreshers] at hnone
    exact h.settled (fun p hp => hnone p (List.mem_append_left _ hp))
  · rcases hcases _ hp with hold | hnew
    · exact h.readying hold
    · cases hnew
  · exact h.ready (hready ▸ hr)
  · obtain ⟨hi,hall⟩ := h.bounded hne hsmall
    rw [hindex]
    refine ⟨hi,fun p hp => ?_⟩
    rcases hcases p hp with hold | rfl
    · exact hall p hold
    · trivial

theorem follows_same (s t : State T) (hrefreshers : t.refreshers = s.refreshers)
    (hflag : t.shared.is_updating = s.shared.is_updating)
    (hindex : t.shared.active_coordinator_index = s.shared.active_coordinator_index)
    (hready : t.shared.is_ready = true → s.shared.is_ready = true) (h : Follows config taken s) :
    Follows config taken t := by
  refine ⟨?_,?_,?_,?_,fun hr => h.ready (hready hr),?_⟩
  · rw [hrefreshers, hflag]
    exact h.locked
  · rw [hrefreshers]
    exact h.adopting
  · rw [hrefreshers, hindex]
    exact h.settled
  · rw [hrefreshers]
    exact h.readying
  · rw [hrefreshers, hindex]
    exact h.bounded

theorem refresh_follows (createFails : Text → Option CallException) (next : Shared)
    (hw : s.refreshers[w]? = some pc)
    (hstep : RefreshStep config.coordinators createFails s.shared pc next pc')
    (h : Follows config taken s) :
    Follows config (taken++(adopted config s (.refresh w createFails)).toList)
      { s.setRefresher w pc' with shared := next } := by
  have hstay : ∀ u : State T, adopted config s (.refresh w createFails) = none →
      Follows config taken u →
      Follows config (taken++(adopted config s (.refresh w createFails)).toList) u := by
    intro u hnone hu
    rw [hnone]
    simpa using hu
  have hlocked := fun hupdating => locked_move w pc pc' hw hupdating h.locked
  cases hstep with
  | skip | check | busy | giveUp =>
    exact hstay _ (by simp [adopted, hw])
      (follows_move hw rfl (hlocked rfl) rfl Or.inl rfl (by simp) (fun _ _ => trivial) h)
  | lock hf =>
    rw [hf] at hlocked
    exact hstay _ (by simp [adopted, hw]) (follows_move hw rfl
      (locked_acquire w _ _ hw rfl (hf ▸ h.locked)) rfl Or.inl rfl (by simp)
      (fun _ _ => trivial) h)
  | read =>
    exact hstay _ (by simp [adopted, hw])
      (follows_move hw rfl (hlocked rfl) rfl Or.inl rfl (by simp) (fun hi _ => hi) h)
  | fetch base attempt call hlt =>
    exact hstay _ (by simp [adopted, hw])
      (follows_move hw rfl (hlocked rfl) rfl Or.inl rfl (by simp) (fun _ hb => ⟨hb,hlt⟩) h)
  | refuse | receive | retire | retired =>
    exact hstay _ (by simp [adopted, hw])
      (follows_move hw rfl (hlocked rfl) rfl Or.inl rfl (by simp) (fun _ hb => hb) h)
  | lose =>
    exact hstay _ (by simp [adopted, hw])
      (follows_move hw rfl (hlocked rfl) rfl Or.inl rfl (by simp) (fun _ hb => hb.1) h)
  | updateThrows base attempt routing_data e he =>
    exact hstay _ (by simp [adopted, hw, he])
      (follows_move hw rfl (hlocked rfl) rfl Or.inl rfl (by simp) (fun _ hb => hb.1) h)
  | update base attempt routing_data he =>
    have hadopted : adopted config s (.refresh w createFails) =
        some (coordinatorIndex config.coordinators base attempt) := by
      simp [adopted, hw, he]
    rw [hadopted]
    exact follows_adopt hw rfl rfl rfl h
  | index =>
    exact hstay _ (by simp [adopted, hw]) (follows_index hw rfl rfl rfl h)
  | ready =>
    exact hstay _ (by simp [adopted, hw]) (follows_move hw rfl (hlocked rfl) rfl
      (fun _ => Or.inr rfl) rfl (by simp) (fun _ _ => trivial) h)
  | release =>
    exact hstay _ (by simp [adopted, hw]) (follows_move hw rfl
      (locked_release w _ _ hw rfl rfl h.locked) rfl Or.inl rfl (by simp)
      (fun _ _ => trivial) h)

theorem executeStep_keeps (mode : Mode) (hint : Option KeyHint) (master_first : Bool)
    (failures : Failures) (shared : Shared) (e : ExecutePc T)
    (moved : Moved T)
    (h : executeStep mode hint master_first failures shared e = some (.ok moved)) :
    moved.shared.is_updating = shared.is_updating ∧
      moved.shared.active_coordinator_index = shared.active_coordinator_index ∧
      moved.shared.is_ready = shared.is_ready := by
  cases (executeStep_iff mode hint master_first failures shared e moved).mp h <;>
    exact ⟨rfl,rfl,rfl⟩

theorem shutdownStep_keeps (shared next : Shared) (refreshers : List RefreshPc)
    (pc pc' : ShutdownPc) (h : shutdownStep shared refreshers pc = some (next,pc')) :
    next.is_updating = shared.is_updating ∧
      next.active_coordinator_index = shared.active_coordinator_index ∧
      (next.is_ready = true → shared.is_ready = true) := by
  cases pc with
  | joining | drainingStreams =>
    simp only [shutdownStep] at h
    split at h
    all_goals cases h
    exact ⟨rfl,rfl,id⟩
  | retiring clients =>
    cases clients with
    | nil | cons => cases h; exact ⟨rfl,rfl,id⟩
  | idle | closingCoordinator | clearing => cases h; exact ⟨rfl,rfl,id⟩
  | unreadying =>
    cases h
    exact ⟨rfl,rfl,fun hr => (by cases hr)⟩
  | returned => cases h

theorem step_follows (taken : List Int32) (s t : State T) (a : Action T)
    (hs : Follows config taken s) (h : step config s a = some t) :
    Follows config (taken++(adopted config s a).toList) t := by
  unfold step at h
  split at h
  · cases h
  cases a with
  | refresh w createFails =>
    obtain ⟨pc,hw,h⟩ := Option.bind_eq_some_iff.mp h
    obtain ⟨⟨shared,pc'⟩,hr,h⟩ := Option.bind_eq_some_iff.mp h
    cases h
    exact refresh_follows createFails shared hw ((refreshStep_iff _ _ _ _ _ _).mp hr) hs
  | call hint | setMode mode =>
    cases h
    simp only [adopted, Option.toList_none, List.append_nil]
    exact follows_same s _ rfl rfl rfl id hs
  | tick =>
    simp only [adopted, Option.toList_none, List.append_nil]
    simp only [act] at h
    split at h
    next hidle =>
      cases h
      obtain ⟨_,hdone⟩ := hidle
      cases hrefreshers : s.refreshers with
      | nil => exact follows_same s _ (by simp [State.setRefresher, hrefreshers]) rfl rfl id hs
      | cons pc rest =>
        rw [hrefreshers] at hdone
        have hpc : pc = .done := by cases pc <;> simp_all [periodicDone, RefreshPc.isDone]
        have hw : s.refreshers[0]? = some .done := by rw [hrefreshers, hpc]; rfl
        exact follows_move hw rfl (locked_move 0 _ _ hw rfl hs.locked) rfl Or.inl rfl (by simp)
          (fun _ _ => trivial) hs
    next => cases h
  | stream w event =>
    simp only [adopted, Option.toList_none, List.append_nil]
    obtain ⟨pc,hw,h⟩ := Option.bind_eq_some_iff.mp h
    obtain ⟨pc',hr,h⟩ := Option.bind_eq_some_iff.mp h
    cases h
    cases pc with
    | waiting base attempt stream =>
      obtain ⟨next,_,rfl⟩ := Option.map_eq_some_iff.mp hr
      exact follows_move hw rfl (locked_move w _ _ hw rfl hs.locked) rfl Or.inl rfl (by simp)
        (fun _ hb => hb) hs
    | _ => cases hr
  | execute x master_first failures =>
    simp only [adopted, Option.toList_none, List.append_nil]
    obtain ⟨e,_,h⟩ := Option.bind_eq_some_iff.mp h
    obtain ⟨r,hr,h⟩ := Option.bind_eq_some_iff.mp h
    cases h
    cases r with
    | error f => exact follows_same s _ rfl rfl rfl id hs
    | ok moved =>
      obtain ⟨hflag,hindex,hready⟩ := executeStep_keeps _ _ _ _ _ _ _ hr
      cases hrefresh : moved.refresh with
      | true =>
        exact follows_append s _ (by simp [afterExecute, State.setExecution, hrefresh]) hflag hindex
          hready hs
      | false =>
        exact follows_same s _ (by simp [afterExecute, State.setExecution, hrefresh]) hflag hindex
          (fun hr => hready ▸ hr) hs
  | timeout x | reply x outcome =>
    simp only [adopted, Option.toList_none, List.append_nil]
    obtain ⟨e,_,h⟩ := Option.bind_eq_some_iff.mp h
    obtain ⟨pc,_,h⟩ := Option.bind_eq_some_iff.mp h
    cases h
    exact follows_same s _ rfl rfl rfl id hs
  | shutdown =>
    simp only [adopted, Option.toList_none, List.append_nil]
    obtain ⟨⟨shared,pc⟩,hp,h⟩ := Option.bind_eq_some_iff.mp h
    cases h
    obtain ⟨hflag,hindex,hready⟩ := shutdownStep_keeps _ _ _ _ _ hp
    exact follows_same s _ rfl hflag hindex hready hs

/-- Refreshes exclude each other, a ready client has taken a topology, and the
active index is that of the one taken last, in the list, unless a refresh is
about to store it. -/
theorem refreshes_exclude (config : Config) (actions : List (Action T)) (s : State T)
    (hrun : run (step config) {} actions = some s) :
    (∀ (w v : ℕ) (pc pc' : RefreshPc), s.refreshers[w]? = some pc → s.refreshers[v]? = some pc' →
        updating pc = true → updating pc' = true → w = v) ∧
      (s.shared.is_updating = true ↔ ∃ pc ∈ s.refreshers, updating pc = true) ∧
      ((∀ pc ∈ s.refreshers, adopting pc = none) →
        s.shared.active_coordinator_index = (adoptions config {} actions).getLast?.getD 0) ∧
      (s.shared.is_ready = true → adoptions config {} actions ≠ []) ∧
      (config.coordinators ≠ [] → config.coordinators.length ≤ 2^30 →
        0 ≤ s.shared.active_coordinator_index.toInt ∧
          s.shared.active_coordinator_index.toInt < config.coordinators.length) := by
  have h := trace_invariant (step config) (adopted config) (Follows config)
    (fun taken u a v hu hv => step_follows taken u v a hu hv) [] {} s actions
    (initial_follows config) hrun
  exact ⟨h.locked.one,h.locked.flag,h.settled,h.ready,fun hne hsmall => (h.bounded hne hsmall).1⟩

end Runs

def twoCoordinators : Config := { coordinators := [['a'],['b']] }

def secondAnswers : List (Action ℕ) :=
  let refresh : Action ℕ := .refresh 0 (fun _ => none)
  [.tick,refresh,refresh,refresh,refresh,.stream 0 (.started false),
    .stream 0 (.finished ⟨.UNAVAILABLE,[]⟩ []),refresh,refresh,.stream 0 (.started true),
    .stream 0 (.read (some { max_shards := 8 })),.stream 0 (.read none),
    .stream 0 (.finished Status.initial []),refresh,refresh,refresh,refresh,refresh]

theorem refreshes_exclude_second :
    ∃ s, run (step twoCoordinators) {} secondAnswers = some s ∧ s.shared.is_ready = true ∧
      s.shared.is_updating = true ∧ adoptions twoCoordinators {} secondAnswers = [1] ∧
      s.shared.active_coordinator_index =
        (adoptions twoCoordinators {} secondAnswers).getLast?.getD 0 ∧
      0 ≤ s.shared.active_coordinator_index.toInt ∧
      s.shared.active_coordinator_index.toInt < twoCoordinators.coordinators.length := by
  have hlast : (run (step twoCoordinators) {} secondAnswers).map
      (fun s => (s.shared.is_ready,s.shared.is_updating,s.refreshers)) =
        some (true,true,[.releasing]) := rfl
  obtain ⟨s,hs,hview⟩ := Option.map_eq_some_iff.mp hlast
  obtain ⟨hready,hview⟩ := Prod.mk.inj hview
  obtain ⟨hupdating,hrefreshers⟩ := Prod.mk.inj hview
  obtain ⟨_,_,hindex,_,hbounded⟩ := refreshes_exclude twoCoordinators secondAnswers s hs
  refine ⟨s,hs,hready,hupdating,rfl,hindex (fun pc hpc => ?_),hbounded (by decide) (by decide)⟩
  rw [hrefreshers] at hpc
  rw [List.mem_singleton.mp hpc]
  rfl

end HurriCache.RefreshExclusion
