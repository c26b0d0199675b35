import HurriCache.ExecuteMachine
import HurriCache.PartialRun
import HurriCache.SmartOperations
import HurriCache.StoredGzip

/-!
# How often an update is applied

A worker sends the same request with every attempt, and a node applies a
delivery at most once, before or after the client learns how it went. A
refused delivery is never applied. Only a connection that breaks leaves the
worker with a delivery that it repeats and that may yet be applied.
-/

set_option autoImplicit false

namespace HurriCache.FailoverDelivery
open HurriCache.ClientTypes HurriCache.CallOutcomes HurriCache.TopologyTable
open HurriCache.ShardSelection HurriCache.AttemptGuard HurriCache.RefreshMachine
open HurriCache.ExecuteMachine HurriCache.StandaloneCalls HurriCache.SmartOperations
open HurriCache.PartialRun HurriCache.StoredGzip

section Machine

variable {T : Type}

structure Delivery (T : Type) where
  client : Client
  request : StandaloneCall
  outcome : Option (Outcome T) := none
  applied : Bool := false

def Delivery.refused (d : Delivery T) : Bool :=
  match d.outcome with
  | some (.error (.grpc .FAILED_PRECONDITION _ _)) => true
  | _ => false

/-- The connection broke, and the node has applied the request. -/
def Delivery.broken (d : Delivery T) : Bool :=
  match d.outcome with
  | some (.error e) => d.applied && isUnavailable e
  | _ => false

structure State (T : Type) where
  shared : Shared := {}
  pc : ExecutePc T := .waitingReady
  earlier : List (Delivery T) := []
  latest : Option (Delivery T) := none
  fault : Option Fault := none

inductive Action (T : Type) where
  | environment (shared : Shared)
  | execute (master_first : Bool) (failures : Failures)
  | timeout
  | reply (outcome : Outcome T)
  | apply
  | applyEarlier (i : ℕ)

def State.deliveries (s : State T) : List (Delivery T) := s.earlier++s.latest.toList

def Delivery.apply (d : Delivery T) : Option (Delivery T) :=
  if d.applied || d.refused then none else some { d with applied := true }

/-- A node does not refuse what it has applied. -/
def Delivery.reply (d : Delivery T) (outcome : Outcome T) : Option (Delivery T) :=
  let answered := { d with outcome := some outcome }
  if d.applied && answered.refused then none else some answered

def moved (call : Dispatch) (s : State T) : Except Fault (Moved T) → State T
  | .error f => { s with fault := some f }
  | .ok m =>
    match m.pc with
    | .awaiting current _ => { s with
      shared := m.shared
      pc := m.pc
      earlier := s.deliveries
      latest := some { client := current, request := call.action } }
    | pc => { s with shared := m.shared, pc := pc }

def act (configured_mode : Mode) (call : Dispatch) (s : State T) : Action T → Option (State T)
  | .environment shared => some { s with shared := shared }
  | .execute master_first failures =>
    (executeStep configured_mode call.hint master_first failures s.shared s.pc).map
      (moved call s)
  | .timeout => (executeTimeout s.shared s.pc).map (fun pc => { s with pc := pc })
  | .reply outcome => do
    let pc ← executeReply outcome s.pc
    let latest ← s.latest
    let answered ← latest.reply outcome
    some { s with pc := pc, latest := some answered }
  | .apply => do
    let latest ← s.latest
    let applied ← latest.apply
    some { s with latest := some applied }
  | .applyEarlier i => do
    let d ← s.earlier[i]?
    let applied ← d.apply
    some { s with earlier := s.earlier.set i applied }

def step (configured_mode : Mode) (call : Dispatch) (s : State T) (a : Action T) :
    Option (State T) :=
  if s.fault.isSome then none else act configured_mode call s a

def start (shared : Shared) : State T := { shared := shared }

end Machine

section Invariant

variable {T : Type}

def Settled (d : Delivery T) : Prop :=
  ∃ e, d.outcome = some (.error e) ∧ ((redirectOf e).isSome || isUnavailable e) = true

def Honest (d : Delivery T) : Prop := d.applied = true → d.refused = false

/-- The exception at hand is the outcome of the latest delivery, unless the
client was shut down before it could send. -/
def FailedWith (e : CallException) (latest : Option (Delivery T)) : Prop :=
  ∀ d ∈ latest, d.outcome = some (.error e) ∨ Settled d

def LatestAt (latest : Option (Delivery T)) : ExecutePc T → Prop
  | .sending _ _ => ∀ d ∈ latest, Settled d
  | .awaiting _ _ | .finished _ => True
  | .catching e _ _ => FailedWith e latest
  | .resolvingMaster route e _ _ => redirectOf e = some route ∧ FailedWith e latest
  | .resolvingBackup route e _ _ _ => redirectOf e = some route ∧ FailedWith e latest
  | _ => latest = none

structure Followed (s : State T) : Prop where
  latest : LatestAt s.latest s.pc
  earlier : ∀ d ∈ s.earlier, Settled d
  honest : ∀ d ∈ s.deliveries, Honest d

theorem attemptOrThrow_latest (e : CallException) (next : Option (Client × SharedClient))
    (latest : Option (Delivery T)) (hretry : ((redirectOf e).isSome || isUnavailable e) = true)
    (h : FailedWith e latest) : LatestAt latest (attemptOrThrow e next) := by
  cases next with
  | none => trivial
  | some p =>
    intro d hd
    rcases h d hd with ho | hs
    · exact ⟨e,ho,hretry⟩
    · exact hs

theorem executeStep_latest (configured_mode : Mode) (hint : Option KeyHint)
    (master_first : Bool) (failures : Failures) (shared : Shared)
    (pc : ExecutePc T) (m : Moved T) (latest : Option (Delivery T)) (hl : LatestAt latest pc)
    (h : executeStep configured_mode hint master_first failures shared pc = some (.ok m)) :
    match m.pc with
    | .awaiting _ _ => ∀ d ∈ latest, Settled d
    | pc' => LatestAt latest pc' := by
  cases (executeStep_iff _ _ _ _ _ _ _).mp h with
  | wake | readShards | choose | readMaster | readBackup | send | masterFound => exact hl
  | giveUp | noNode | fail | refreshThrows | masterThrows | backupThrows => trivial
  | select master backup current fallback hf =>
    intro d hd
    rw [show latest = none from hl] at hd
    cases hd
  | refuse current fallback hd => exact fun d hmem => Or.inr (hl d hmem)
  | redirect e current fallback route hroute => exact ⟨hroute,hl⟩
  | retry e current fallback hroute hu =>
    cases direct (some current) fallback with
    | none => trivial
    | some p => exact attemptOrThrow_latest e (some p) latest (by simp [hu]) hl
  | backupFound route e current fallback new_master named hn =>
    obtain ⟨hroute,hfailed⟩ := hl
    cases afterRedirect (some current) new_master
        (if isNamed route.backup_target (some current) then named else fallback) with
    | none => trivial
    | some p => exact attemptOrThrow_latest e (some p) latest (by simp [hroute]) hfailed

theorem moved_followed (call : Dispatch) (s : State T) (m : Moved T) (hs : Followed s)
    (h : match m.pc with
      | .awaiting _ _ => ∀ d ∈ s.latest, Settled d
      | pc' => LatestAt s.latest pc') :
    Followed (moved call s (.ok m)) := by
  obtain ⟨shared,pc,refresh⟩ := m
  cases pc with
  | awaiting current fallback =>
    refine ⟨trivial,?_,?_⟩
    · intro d hd
      rcases List.mem_append.mp hd with hearlier | hlatest
      · exact hs.earlier d hearlier
      · exact h d (Option.mem_toList.mp hlatest)
    · intro d hd
      rcases List.mem_append.mp hd with hold | hnew
      · exact hs.honest d hold
      · cases Option.mem_toList.mp hnew
        exact fun ha => nomatch ha
  | _ => exact ⟨h,hs.earlier,hs.honest⟩

theorem apply_settled (d applied : Delivery T) (h : d.apply = some applied) :
    (Settled d → Settled applied) ∧ Honest applied ∧
      applied.outcome = d.outcome := by
  unfold Delivery.apply at h
  split at h <;> cases h
  next hfree =>
    simp only [Bool.or_eq_true, not_or, Bool.not_eq_true] at hfree
    exact ⟨fun hs => hs,fun _ => hfree.2,rfl⟩

theorem reply_honest (d answered : Delivery T) (outcome : Outcome T)
    (h : d.reply outcome = some answered) :
    Honest answered ∧ answered.outcome = some outcome := by
  simp only [Delivery.reply] at h
  split at h <;> cases h
  next hfree =>
    refine ⟨fun ha => ?_,rfl⟩
    simpa [show d.applied = true from ha] using hfree

theorem latestAt_congr (d d' : Delivery T) (pc : ExecutePc T)
    (houtcome : d'.outcome = d.outcome) (h : LatestAt (some d) pc) : LatestAt (some d') pc := by
  have hset : Settled d → Settled d' := by
    rintro ⟨e,he,hr⟩
    exact ⟨e,houtcome.trans he,hr⟩
  have hfail : ∀ e, FailedWith e (some d) → FailedWith e (some d') := by
    intro e hf c hc
    cases hc
    exact (hf d rfl).imp houtcome.trans hset
  cases pc with
  | sending current fallback =>
    intro c hc
    cases hc
    exact hset (h d rfl)
  | awaiting current fallback => trivial
  | finished outcome => trivial
  | catching e current fallback => exact hfail e h
  | resolvingMaster route e current fallback => exact ⟨h.1,hfail e h.2⟩
  | resolvingBackup route e current fallback new_master => exact ⟨h.1,hfail e h.2⟩
  | _ => cases h

theorem executeTimeout_latest (shared : Shared) (pc pc' : ExecutePc T)
    (latest : Option (Delivery T)) (hl : LatestAt latest pc)
    (h : executeTimeout shared pc = some pc') : LatestAt latest pc' := by
  cases pc with
  | waitingReady =>
    simp only [executeTimeout, waitReady] at h
    split at h
    · cases h
      exact hl
    · split at h <;> cases h <;> trivial
  | _ => cases h

theorem executeReply_latest (outcome : Outcome T) (pc pc' : ExecutePc T) (d : Delivery T)
    (hd : d.outcome = some outcome) (h : executeReply outcome pc = some pc') :
    LatestAt (some d) pc' := by
  cases pc with
  | awaiting current fallback =>
    cases outcome with
    | ok value =>
      cases h
      trivial
    | error e =>
      cases h
      intro c hc
      cases hc
      exact Or.inl hd
  | _ => cases h

theorem latest_followed (s : State T) (pc : ExecutePc T) (d : Delivery T) (hs : Followed s)
    (hl : LatestAt (some d) pc) (hd : Honest d) :
    Followed { s with pc := pc, latest := some d } := by
  refine ⟨hl,hs.earlier,?_⟩
  intro c hc
  rcases List.mem_append.mp hc with hearlier | hnew
  · exact hs.honest c (List.mem_append_left _ hearlier)
  · cases Option.mem_toList.mp hnew
    exact hd

theorem earlier_followed (s : State T) (i : ℕ) (d : Delivery T) (hs : Followed s)
    (hset : Settled d) (hd : Honest d) : Followed { s with earlier := s.earlier.set i d } := by
  refine ⟨hs.latest,?_,?_⟩
  · intro c hc
    rcases List.mem_or_eq_of_mem_set hc with hold | rfl
    · exact hs.earlier c hold
    · exact hset
  · intro c hc
    rcases List.mem_append.mp hc with hearlier | hlatest
    · rcases List.mem_or_eq_of_mem_set hearlier with hold | rfl
      · exact hs.honest c (List.mem_append_left _ hold)
      · exact hd
    · exact hs.honest c (List.mem_append_right _ hlatest)

theorem act_followed (configured_mode : Mode) (call : Dispatch) (s t : State T) (a : Action T)
    (hs : Followed s) (h : act configured_mode call s a = some t) : Followed t := by
  cases a with
  | environment shared =>
    cases h
    exact ⟨hs.latest,hs.earlier,hs.honest⟩
  | execute master_first failures =>
    obtain ⟨r,hr,rfl⟩ := Option.map_eq_some_iff.mp h
    cases r with
    | error f => exact ⟨hs.latest,hs.earlier,hs.honest⟩
    | ok m =>
      exact moved_followed call s m hs (executeStep_latest configured_mode call.hint master_first
        failures s.shared s.pc m s.latest hs.latest hr)
  | timeout =>
    obtain ⟨pc,hp,rfl⟩ := Option.map_eq_some_iff.mp h
    exact ⟨executeTimeout_latest s.shared s.pc pc s.latest hs.latest hp,hs.earlier,hs.honest⟩
  | reply outcome =>
    simp only [act, bind, Option.bind_eq_some_iff] at h
    obtain ⟨pc,hp,latest,hlatest,answered,hanswered,ht⟩ := h
    cases ht
    obtain ⟨hhonest,houtcome⟩ := reply_honest latest answered outcome hanswered
    exact latest_followed s pc answered hs
      (executeReply_latest outcome s.pc pc answered houtcome hp) hhonest
  | apply =>
    simp only [act, bind, Option.bind_eq_some_iff] at h
    obtain ⟨latest,hlatest,applied,happly,ht⟩ := h
    cases ht
    obtain ⟨_,hhonest,houtcome⟩ := apply_settled latest applied happly
    have hl := hs.latest
    rw [hlatest] at hl
    exact latest_followed s s.pc applied hs (latestAt_congr latest applied s.pc houtcome hl) hhonest
  | applyEarlier i =>
    simp only [act, bind, Option.bind_eq_some_iff] at h
    obtain ⟨d,hi,applied,happly,ht⟩ := h
    cases ht
    obtain ⟨hsettled,hhonest,_⟩ := apply_settled d applied happly
    exact earlier_followed s i applied hs (hsettled (hs.earlier d (List.mem_of_getElem? hi)))
      hhonest

theorem step_followed (configured_mode : Mode) (call : Dispatch) (s t : State T) (a : Action T)
    (hs : Followed s) (h : step configured_mode call s a = some t) : Followed t := by
  unfold step at h
  split at h
  · cases h
  · exact act_followed configured_mode call s t a hs h

theorem applied_eq_broken (d : Delivery T) (hs : Settled d) (hh : Honest d) :
    d.applied = d.broken := by
  obtain ⟨client,request,outcome,applied⟩ := d
  obtain ⟨e,he,hretry⟩ := hs
  have hout : outcome = some (.error e) := he
  subst hout
  cases applied with
  | false => rfl
  | true =>
    have hrefused := hh rfl
    cases hu : isUnavailable e with
    | true => simp [Delivery.broken, hu]
    | false =>
      rw [hu, Bool.or_false] at hretry
      cases e with
      | other what => cases hretry
      | grpc code statusMessage routeTrailer =>
        cases code <;> first | cases hretry | cases hrefused

end Invariant

/-- Over every order of events, mode and chain of redirects and failovers: a
request is applied once for every attempt that was followed by another one
although its node had applied it or yet does, the connection having broken,
and once more at most. -/
theorem applied_once_but_for_breaks {T : Type} (configured_mode : Mode) (call : Dispatch)
    (shared : Shared) (actions : List (Action T)) (s : State T)
    (hrun : run (step configured_mode call) (start shared) actions = some s) :
    (s.deliveries.countP (·.applied)) ≤ s.earlier.countP Delivery.broken+1 := by
  have hs : Followed s := history_invariant (step configured_mode call) (fun _ => True)
    (fun _ s => Followed s)
    (fun _ u a t _ hu h => step_followed configured_mode call u t a hu h) (start shared) s actions
    (fun _ _ => trivial) ⟨rfl,by simp [start],by simp [start, State.deliveries]⟩ hrun
  have hearlier : s.earlier.countP (·.applied) = s.earlier.countP Delivery.broken := by
    refine List.countP_congr (fun d hd => ?_)
    rw [applied_eq_broken d (hs.earlier d hd) (hs.honest d (List.mem_append_left _ hd))]
  have hlatest : s.latest.toList.countP (·.applied) ≤ 1 := by
    cases s.latest with
    | none => exact Nat.zero_le _
    | some d => exact List.countP_le_length
  rw [State.deliveries, List.countP_append, hearlier]
  omega

def twoNodes : Shared := {
  is_ready := true
  routing_table := (({} : RoutingTable).updateFromCoordinator (fun _ => none) 1
    [⟨['a'],.MASTER,[0]⟩,⟨['b'],.BACKUP,[0]⟩]).table }

def increment : Dispatch := dispatch {} sampleKey (some ⟨1,2⟩) 0 (.atomicAdd 1 0)

def steps (n : ℕ) : List (Action Int64) := List.replicate n (.execute true {})

def redirectedRun : List (Action Int64) :=
  steps 7++[.reply (.error (.grpc .FAILED_PRECONDITION [] ['c']))]++steps 4++[.apply,.reply (.ok 1)]

theorem applied_once_by_the_third_node :
    ∃ s, run (step .MASTER_THAN_BACKUP increment) (start twoNodes) redirectedRun = some s ∧
      s.deliveries.map (fun d => (d.client.target,d.applied)) = [(['a'],false),(['c'],true)] ∧
      s.deliveries.countP (·.applied) ≤ s.earlier.countP Delivery.broken+1 :=
  ⟨_,rfl,rfl,applied_once_but_for_breaks .MASTER_THAN_BACKUP increment twoNodes redirectedRun _ rfl⟩

/-- The master applies the increment before its connection breaks, and the
backup applies it again. -/
theorem increment_applied_twice :
    ∃ s, run (step .MASTER_THAN_BACKUP increment) (start twoNodes)
        (steps 7++[.apply,.reply (.error (.grpc .UNAVAILABLE [] []))]++steps 2++
          [.apply,.reply (.ok 2)]) = some s ∧
      s.deliveries.map (fun d => (d.client.target,d.applied)) = [(['a'],true),(['b'],true)] ∧
      s.deliveries.countP (·.applied) = 2 :=
  ⟨_,rfl,rfl,rfl⟩

end HurriCache.FailoverDelivery
