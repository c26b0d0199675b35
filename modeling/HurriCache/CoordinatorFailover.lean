import HurriCache.PartialRun
import HurriCache.RefreshMachine
import HurriCache.RetryLoop
import HurriCache.TopologyReplacement
import Mathlib.Data.List.GetD
import Mathlib.Data.Nat.ModEq
import Mathlib.Logic.Relation

/-!
# Failing over between coordinators

`refreshRouting` as one function of what each query returns and of which
client creations throw in each attempt. The positions it asks are 32-bit sums
of the active position and the number of the attempt, reduced modulo the
number of coordinators. As long as those sums do not overflow it goes once
round the list and stops at the first coordinator whose topology is taken.
-/

set_option autoImplicit false

namespace HurriCache.CoordinatorFailover
open HurriCache.ClientTypes HurriCache.CallOutcomes HurriCache.TopologyTable
open HurriCache.CoordinatorStream HurriCache.RefreshMachine HurriCache.RetryLoop
open HurriCache.TopologyReplacement HurriCache.StreamCall HurriCache.PartialRun
open Relation

structure Refreshed where
  shared : Shared
  queried : List Int32 := []

section Refresh

variable (coordinators : List Text) (fetch : ℕ → Text → Outcome CoordinatorRoutingInfo)
  (createFails : ℕ → Text → Option CallException)

/-- `coordinator_addresses_[idx]`, which checks nothing. -/
def coordinatorAddress (idx : Int32) : Except Fault Text :=
  if 0 ≤ idx.toInt then
    match coordinators[idx.toInt.toNat]? with
    | some address => .ok address
    | none => .error .wildPointer
  else .error .wildPointer

def refreshAttempt (base : Int32) (attempt : ℕ) (st : Refreshed) :
    Except Fault (Refreshed × Bool) := do
  if Int32.ofNat coordinators.length = 0 then .error .divisionByZero else
  let idx := coordinatorIndex coordinators base attempt
  let address ← coordinatorAddress coordinators idx
  let st := { st with queried := st.queried++[idx] }
  match fetch attempt address with
  | .error _ => .ok (st,false)
  | .ok routing_data =>
    let update := applied (createFails attempt) st.shared routing_data
    let shared := { st.shared with routing_table := update.table }
    match update.thrown with
    | some _ => .ok ({ st with shared := shared },false)
    | none =>
      let shared := { shared with
        shut_down := shared.shut_down++update.removed_clients
        active_coordinator_index := idx
        is_ready := true }
      .ok ({ st with shared := shared },true)

def refreshRouting (shared : Shared) : Except Fault Refreshed :=
  if shared.shutdown_requested || coordinators.isEmpty then .ok { shared := shared }
  else if shared.is_updating then .ok { shared := shared }
  else do
    let st ← retry (refreshAttempt coordinators fetch createFails shared.active_coordinator_index)
      coordinators.length 0 { shared := { shared with is_updating := true } }
    .ok { st with shared := { st.shared with is_updating := false } }

end Refresh

section Positions

variable (coordinators : List Text) (base : Int32)

/-- The active position is one of the list, and the sum of an attempt does not
overflow. -/
structure InRange (attempt : ℕ) : Prop where
  lower : 0 ≤ base.toInt
  upper : base.toInt < coordinators.length
  small : coordinators.length ≤ 2^31
  room : base.toInt+attempt < 2^31

structure Rotates : Prop where
  lower : 0 ≤ base.toInt
  upper : base.toInt < coordinators.length
  room : base.toInt+coordinators.length ≤ 2^31

theorem rotates_inRange (h : Rotates coordinators base) (attempt : ℕ)
    (hlt : attempt < coordinators.length) : InRange coordinators base attempt := by
  obtain ⟨hlower,hupper,hroom⟩ := h
  exact ⟨hlower,hupper,by omega,by omega⟩

def position (attempt : ℕ) : ℕ := (base.toInt.toNat+attempt) % coordinators.length

theorem length_toInt (h : coordinators.length ≤ 2^31) :
    (Int32.ofNat coordinators.length).toInt = coordinators.length ∨
      (Int32.ofNat coordinators.length).toInt = -coordinators.length := by
  have hsize : (Int32.size : ℤ) = 2^32 := rfl
  rw [Int32.toInt_ofNat', Int.bmod_def, hsize]
  split <;> omega

variable {coordinators base}

theorem coordinatorIndex_toInt (attempt : ℕ) (h : InRange coordinators base attempt) :
    (coordinatorIndex coordinators base attempt).toInt = position coordinators base attempt := by
  obtain ⟨hlower,hupper,hsmall,hroom⟩ := h
  have hattempt : (Int32.ofNat attempt).toInt = attempt :=
    Int32.toInt_ofNat_of_lt (by omega)
  have hsum : (base+Int32.ofNat attempt).toInt = base.toInt+attempt := by
    rw [Int32.toInt_add, hattempt, Int.bmod_def]
    split <;> omega
  have hmod : (base.toInt+attempt).tmod (Int32.ofNat coordinators.length).toInt =
      (base.toInt+attempt) % coordinators.length := by
    rcases length_toInt coordinators hsmall with he | he
    · rw [he, Int.tmod_eq_emod_of_nonneg (by omega)]
    · rw [he, Int.tmod_neg, Int.tmod_eq_emod_of_nonneg (by omega)]
  rw [coordinatorIndex, Int32.toInt_mod, hsum, hmod, position, Int.natCast_emod, Int.natCast_add,
    Int.toNat_of_nonneg hlower]

theorem position_lt (attempt : ℕ) (h : InRange coordinators base attempt) :
    position coordinators base attempt < coordinators.length :=
  Nat.mod_lt _ (by have := h.lower; have := h.upper; omega)

theorem position_injective (i j : ℕ) (hi : i < coordinators.length)
    (hj : j < coordinators.length)
    (h : position coordinators base i = position coordinators base j) : i = j := by
  have hmod : Nat.ModEq coordinators.length i j := Nat.ModEq.add_left_cancel' _ h
  exact Nat.ModEq.eq_of_lt_of_lt hmod hi hj

def addressOf (coordinators : List Text) (base : Int32) (attempt : ℕ) : Text :=
  coordinators.getD (position coordinators base attempt) []

theorem coordinatorAddress_eq (attempt : ℕ) (h : InRange coordinators base attempt) :
    coordinatorAddress coordinators (coordinatorIndex coordinators base attempt) =
      .ok (addressOf coordinators base attempt) := by
  have hpos := position_lt attempt h
  rw [coordinatorAddress, coordinatorIndex_toInt attempt h, if_pos (Int.natCast_nonneg _),
    Int.toNat_natCast, List.getElem?_eq_getElem hpos, addressOf, List.getD_eq_getElem _ _ hpos]

theorem length_ne_zero (attempt : ℕ) (h : InRange coordinators base attempt) :
    Int32.ofNat coordinators.length ≠ 0 := by
  intro hzero
  obtain ⟨hlower,hupper,hsmall,_⟩ := h
  have hcast : (Int32.ofNat coordinators.length).toInt = 0 := congrArg Int32.toInt hzero
  rcases length_toInt coordinators hsmall with he | he <;> omega

theorem queried_nodup (h : Rotates coordinators base) (m : ℕ) (hm : m ≤ coordinators.length) :
    ((List.range m).map (coordinatorIndex coordinators base)).Nodup := by
  refine List.Nodup.map_on (fun i hi j hj hij => ?_) List.nodup_range
  rw [List.mem_range] at hi hj
  have hint := congrArg Int32.toInt hij
  rw [coordinatorIndex_toInt i (rotates_inRange coordinators base h i (by omega)),
    coordinatorIndex_toInt j (rotates_inRange coordinators base h j (by omega)),
    Int.natCast_inj] at hint
  exact position_injective i j (by omega) (by omega) hint

theorem queried_positions (h : Rotates coordinators base) (m : ℕ)
    (hm : m ≤ coordinators.length) :
    ((List.range m).map (coordinatorIndex coordinators base)).map Int32.toInt =
      (List.range m).map (fun attempt => (position coordinators base attempt : ℤ)) := by
  rw [List.map_map]
  refine List.map_congr_left (fun attempt ha => ?_)
  exact coordinatorIndex_toInt attempt (rotates_inRange coordinators base h attempt
    (lt_of_lt_of_le (List.mem_range.mp ha) hm))

end Positions

section Attempts

variable (coordinators : List Text) (fetch : ℕ → Text → Outcome CoordinatorRoutingInfo)
  (createFails : ℕ → Text → Option CallException) (shared : Shared)

def succeeds (attempt : ℕ) : Bool :=
  match fetch attempt (addressOf coordinators shared.active_coordinator_index attempt) with
  | .error _ => false
  | .ok routing_data => (applied (createFails attempt) shared routing_data).thrown.isNone

/-- An update that throws changes nothing. -/
def FailingKeeps : Prop := ∀ attempt routing_data,
  fetch attempt (addressOf coordinators shared.active_coordinator_index attempt) =
    .ok routing_data →
  (applied (createFails attempt) shared routing_data).thrown ≠ none →
  (applied (createFails attempt) shared routing_data).table = shared.routing_table

def failed (attempts : ℕ) : Refreshed where
  shared := { shared with is_updating := true }
  queried := (List.range attempts).map
    (coordinatorIndex coordinators shared.active_coordinator_index)

def taken (attempt : ℕ) (routing_data : CoordinatorRoutingInfo) : Shared where
  __ := shared
  routing_table := (applied (createFails attempt) shared routing_data).table
  shut_down := shared.shut_down++
    (applied (createFails attempt) shared routing_data).removed_clients
  active_coordinator_index :=
    coordinatorIndex coordinators shared.active_coordinator_index attempt
  is_ready := true

variable {coordinators fetch createFails shared}

theorem queried_succ (attempts : ℕ) :
    (failed coordinators shared attempts).queried++
        [coordinatorIndex coordinators shared.active_coordinator_index attempts] =
      (failed coordinators shared (attempts+1)).queried := by
  rw [failed, failed, List.range_succ, List.map_append, List.map_singleton]

theorem attempt_fails (hkeeps : FailingKeeps coordinators fetch createFails shared)
    (attempt : ℕ) (hrange : InRange coordinators shared.active_coordinator_index attempt)
    (hfails : succeeds coordinators fetch createFails shared attempt = false) :
    refreshAttempt coordinators fetch createFails shared.active_coordinator_index attempt
        (failed coordinators shared attempt) =
      .ok (failed coordinators shared (attempt+1),false) := by
  have haddress := coordinatorAddress_eq attempt hrange
  have hlength := length_ne_zero attempt hrange
  unfold succeeds at hfails
  simp only [refreshAttempt, if_neg hlength, haddress, bind, Except.bind, queried_succ]
  split at hfails
  next e hfetch => rfl
  next routing_data hfetch =>
    have hthrown : (applied (createFails attempt) shared routing_data).thrown ≠ none :=
      fun hnone => by rw [hnone] at hfails; cases hfails
    have hsame : applied (createFails attempt) (failed coordinators shared attempt).shared
        routing_data = applied (createFails attempt) shared routing_data := rfl
    obtain ⟨e,he⟩ := Option.ne_none_iff_exists'.mp hthrown
    simp only [hsame, he, hkeeps attempt routing_data hfetch hthrown]
    rfl

theorem attempt_succeeds (attempt : ℕ)
    (hrange : InRange coordinators shared.active_coordinator_index attempt)
    (hsucceeds : succeeds coordinators fetch createFails shared attempt = true) :
    ∃ routing_data,
      fetch attempt (addressOf coordinators shared.active_coordinator_index attempt) =
        .ok routing_data ∧
      (applied (createFails attempt) shared routing_data).thrown = none ∧
      refreshAttempt coordinators fetch createFails shared.active_coordinator_index attempt
          (failed coordinators shared attempt) =
        .ok (⟨{ taken coordinators createFails shared attempt routing_data with
            is_updating := true },(failed coordinators shared (attempt+1)).queried⟩,true) := by
  have haddress := coordinatorAddress_eq attempt hrange
  have hlength := length_ne_zero attempt hrange
  unfold succeeds at hsucceeds
  split at hsucceeds
  · cases hsucceeds
  next routing_data hfetch =>
    have hnone := Option.isNone_iff_eq_none.mp hsucceeds
    have hsame : applied (createFails attempt) (failed coordinators shared attempt).shared
        routing_data = applied (createFails attempt) shared routing_data := rfl
    refine ⟨routing_data,hfetch,hnone,?_⟩
    simp only [refreshAttempt, if_neg hlength, haddress, bind, Except.bind, queried_succ, hfetch,
      hsame, hnone]
    rfl

end Attempts

section Outcome

variable (coordinators : List Text) (fetch : ℕ → Text → Outcome CoordinatorRoutingInfo)
  (createFails : ℕ → Text → Option CallException) (shared : Shared)

structure Enters : Prop where
  open_ : shared.shutdown_requested = false
  listed : coordinators ≠ []
  idle : shared.is_updating = false

theorem refreshRouting_enters (h : Enters coordinators shared) :
    refreshRouting coordinators fetch createFails shared =
      (retry (refreshAttempt coordinators fetch createFails shared.active_coordinator_index)
        coordinators.length 0 (failed coordinators shared 0)).map
      (fun st => { st with shared := { st.shared with is_updating := false } }) := by
  have hguard : (shared.shutdown_requested || coordinators.isEmpty) = false := by
    simpa [h.open_] using h.listed
  have hidle := h.idle
  rw [refreshRouting, if_neg (by rw [hguard]; exact Bool.false_ne_true),
    if_neg (by rw [hidle]; exact Bool.false_ne_true)]
  show Except.bind (retry _ _ 0 (failed coordinators shared 0)) _ = _
  cases retry _ coordinators.length 0 (failed coordinators shared 0) <;> rfl

theorem refreshRouting_ends (h : Enters coordinators shared)
    (hrotates : Rotates coordinators shared.active_coordinator_index)
    (hkeeps : FailingKeeps coordinators fetch createFails shared) :
    (∃ k routing_data, k < coordinators.length ∧
      (∀ j < k, succeeds coordinators fetch createFails shared j = false) ∧
      fetch k (addressOf coordinators shared.active_coordinator_index k) = .ok routing_data ∧
      (applied (createFails k) shared routing_data).thrown = none ∧
      refreshRouting coordinators fetch createFails shared =
        .ok ⟨taken coordinators createFails shared k routing_data,
          (failed coordinators shared (k+1)).queried⟩) ∨
    ((∀ j < coordinators.length, succeeds coordinators fetch createFails shared j = false) ∧
      refreshRouting coordinators fetch createFails shared =
        .ok ⟨shared,(failed coordinators shared coordinators.length).queried⟩) := by
  rw [refreshRouting_enters coordinators fetch createFails shared h]
  have hrange := rotates_inRange coordinators shared.active_coordinator_index hrotates
  rcases first_or_none (succeeds coordinators fetch createFails shared) coordinators.length with
    ⟨k,hk,hgood,hbad⟩ | hbad
  · left
    obtain ⟨routing_data,hfetch,hnone,hlast⟩ := attempt_succeeds k (hrange k hk) hgood
    refine ⟨k,routing_data,hk,hbad,hfetch,hnone,?_⟩
    rw [retry_stops _ (failed coordinators shared) _ k _ hk
      (fun j hj => attempt_fails hkeeps j (hrange j (by omega)) (hbad j hj)) hlast]
    have hflag : { taken coordinators createFails shared k routing_data with
        is_updating := false } = taken coordinators createFails shared k routing_data := by
      rw [taken, ← h.idle]
    rw [Except.map, hflag]
  · right
    refine ⟨hbad,?_⟩
    rw [retry_exhausted _ (failed coordinators shared) _
      (fun j hj => attempt_fails hkeeps j (hrange j hj) (hbad j hj)), Except.map]
    have hflag : { shared with is_updating := false } = shared := by rw [← h.idle]
    show Except.ok (⟨{ shared with is_updating := false },_⟩ : Refreshed) = _
    rw [hflag]

/-- Once round from the active coordinator, up to the first that is taken. -/
theorem failover_rotation (h : Enters coordinators shared)
    (hrotates : Rotates coordinators shared.active_coordinator_index)
    (hkeeps : FailingKeeps coordinators fetch createFails shared) :
    ∃ st, refreshRouting coordinators fetch createFails shared = .ok st ∧
      st.queried.Nodup ∧
      st.queried.map Int32.toInt = (List.range st.queried.length).map (fun attempt =>
        (position coordinators shared.active_coordinator_index attempt : ℤ)) ∧
      st.shared.is_updating = false ∧
      0 ≤ st.shared.active_coordinator_index.toInt ∧
      st.shared.active_coordinator_index.toInt < coordinators.length ∧
      ((∃ k routing_data, k < coordinators.length ∧ st.queried.length = k+1 ∧
          (∀ j < k, succeeds coordinators fetch createFails shared j = false) ∧
          fetch k (addressOf coordinators shared.active_coordinator_index k) =
            .ok routing_data ∧
          Replaced shared.routing_table routing_data.max_shards
            (routing_data.peer_routings.map peerMessage)
            (applied (createFails k) shared routing_data) ∧
          st.shared.routing_table = (applied (createFails k) shared routing_data).table ∧
          st.shared.active_coordinator_index.toInt =
            position coordinators shared.active_coordinator_index k ∧
          st.shared.is_ready = true) ∨
        ((∀ j < coordinators.length, succeeds coordinators fetch createFails shared j = false) ∧
          st.queried.length = coordinators.length ∧
          st.shared.routing_table = shared.routing_table ∧
          st.shared.active_coordinator_index = shared.active_coordinator_index ∧
          st.shared.is_ready = shared.is_ready)) := by
  have hlen : ∀ m, (failed coordinators shared m).queried.length = m := fun m => by simp [failed]
  rcases refreshRouting_ends coordinators fetch createFails shared h hrotates hkeeps with
    ⟨k,routing_data,hk,hbad,hfetch,hnone,hrun⟩ | ⟨hbad,hrun⟩
  · have hrange := rotates_inRange coordinators _ hrotates k hk
    have hindex := coordinatorIndex_toInt k hrange
    have hpos := position_lt k hrange
    refine ⟨_,hrun,queried_nodup hrotates (k+1) hk,?_,h.idle,?_,?_,Or.inl ?_⟩
    · rw [hlen]
      exact queried_positions hrotates (k+1) hk
    · rw [taken, hindex]
      exact Int.natCast_nonneg _
    · rw [taken, hindex]
      exact Int.ofNat_lt.mpr hpos
    · exact ⟨k,routing_data,hk,hlen (k+1),hbad,hfetch,
        update_replaced (createFails k) shared.routing_table _ _ hnone,rfl,hindex,rfl⟩
  · refine ⟨_,hrun,queried_nodup hrotates _ (le_refl _),?_,h.idle,hrotates.lower,hrotates.upper,
      Or.inr ⟨hbad,hlen _,rfl,rfl,rfl⟩⟩
    rw [hlen]
    exact queried_positions hrotates _ (le_refl _)

end Outcome

section Machine

variable (coordinators : List Text)

def Moves (x y : Shared × RefreshPc) : Prop :=
  (∃ createFails, refreshStep coordinators createFails x.1 x.2 = some y) ∨
    ∃ event, y.1 = x.1 ∧ refreshReceive event x.2 = some y.2

/-- What a query can return: a shut-down client answers itself, and otherwise
a stream ends with a topology or with a status that is not OK. -/
def Deliverable (closed : Bool) : Outcome CoordinatorRoutingInfo → Prop
  | .ok _ => closed = false
  | .error e =>
    if closed then e = .other "CoordinatorClient is shut down".toList
    else ∃ code message, code ≠ .OK ∧ e = .grpc code message []

variable {coordinators}

theorem moves_step (createFails : Text → Option CallException) (shared next : Shared)
    (pc pc' : RefreshPc) (h : RefreshStep coordinators createFails shared pc next pc') :
    Moves coordinators (shared,pc) (next,pc') :=
  Or.inl ⟨createFails,(refreshStep_iff _ _ _ _ _ _).mpr h⟩

theorem moves_receive (shared : Shared) (event : Event RoutingInfoData) (base : Int32)
    (attempt : ℕ) (stream next : TopologyStream) (h : stream.receive event = some next) :
    Moves coordinators (shared,.waiting base attempt stream)
      (shared,.waiting base attempt next) :=
  Or.inr ⟨event,rfl,by rw [refreshReceive, h]; rfl⟩

def wholeChunk (routing_data : CoordinatorRoutingInfo) : RoutingInfoData :=
  ⟨routing_data.max_shards.toUInt32,routing_data.peer_routings.map peerMessage⟩

theorem accumulate_wholeChunk (routing_data : CoordinatorRoutingInfo) :
    accumulate {} (wholeChunk routing_data) = routing_data := by
  have hshards : (accumulate {} (wholeChunk routing_data)).max_shards =
      routing_data.max_shards := by
    rw [accumulate, if_pos rfl]
    exact Int32.toInt32_toUInt32 _
  have hpeers : (accumulate {} (wholeChunk routing_data)).peer_routings =
      routing_data.peer_routings := by
    rw [accumulate, wholeChunk, List.nil_append, List.map_map]
    exact List.map_id _
  cases routing_data
  exact (CoordinatorRoutingInfo.mk.injEq _ _ _ _).mpr ⟨hshards,hpeers⟩

theorem moves_stream (shared : Shared) (base : Int32) (attempt : ℕ) (stream last : TopologyStream)
    (events : List (Event RoutingInfoData))
    (h : run TopologyStream.receive stream events = some last) :
    ReflTransGen (Moves coordinators) (shared,.waiting base attempt stream)
      (shared,.waiting base attempt last) := by
  induction events generalizing stream with
  | nil =>
    cases h
    exact ReflTransGen.refl
  | cons event events ih =>
    obtain ⟨next,hnext,hrest⟩ := (run_cons_eq_some _ _ _ _ _).mp h
    exact ReflTransGen.head (moves_receive shared event base attempt stream next hnext)
      (ih next hrest)

theorem stream_delivers (routing_data : CoordinatorRoutingInfo) :
    ∃ last, run TopologyStream.receive ⟨{ reader := some .StartCall },[]⟩
        [.started true,.read (some (wholeChunk routing_data)),.read none,
          .finished Status.initial []] = some last ∧ last.call.promise = [.ok routing_data] := by
  refine ⟨_,rfl,?_⟩
  show [Except.ok (accumulate {} (wholeChunk routing_data))] = _
  rw [accumulate_wholeChunk]

theorem stream_fails (code : StatusCode) (message : Text) (hcode : code ≠ .OK) :
    ∃ last, run TopologyStream.receive ⟨{ reader := some .StartCall },[]⟩
        [.started false,.finished ⟨code,message⟩ []] = some last ∧
      last.call.promise = [.error (.grpc code message [])] := by
  have hok : (⟨code,message⟩ : Status).ok = false := by
    simpa [Status.ok] using hcode
  refine ⟨_,rfl,?_⟩
  simp [CoordinatorStream.proceed, hok]

def afterQuery (base : Int32) (attempt : ℕ) : Outcome CoordinatorRoutingInfo → RefreshPc
  | .error _ => .fetching base (attempt+1)
  | .ok routing_data => .updating base attempt routing_data

theorem query_moves (shared : Shared) (base : Int32) (attempt : ℕ)
    (hlt : attempt < coordinators.length) (outcome : Outcome CoordinatorRoutingInfo)
    (h : Deliverable shared.coordinator_shutdown outcome) :
    ReflTransGen (Moves coordinators) (shared,.fetching base attempt)
      (shared,afterQuery base attempt outcome) := by
  have hstart : shared.coordinator_shutdown = false → Moves coordinators
      (shared,.fetching base attempt)
      (shared,.waiting base attempt ⟨{ reader := some .StartCall },[]⟩) := fun hclosed =>
    moves_step (fun _ => none) shared shared _ _
      (.fetch base attempt { reader := some .StartCall } hlt (by rw [hclosed]; rfl))
  cases outcome with
  | ok routing_data =>
    obtain ⟨last,hrun,hpromise⟩ := stream_delivers routing_data
    refine ReflTransGen.head (hstart h) (ReflTransGen.tail
      (moves_stream shared base attempt _ last _ hrun) ?_)
    exact moves_step (fun _ => none) shared shared _ _
      (.receive base attempt last routing_data [] hpromise)
  | error e =>
    rw [Deliverable] at h
    cases hclosed : shared.coordinator_shutdown with
    | true =>
      refine ReflTransGen.single (moves_step (fun _ => none) shared shared _ _
        (.refuse base attempt (.other "CoordinatorClient is shut down".toList) hlt ?_))
      rw [hclosed]
      rfl
    | false =>
      rw [hclosed, if_neg Bool.false_ne_true] at h
      obtain ⟨code,message,hcode,rfl⟩ := h
      obtain ⟨last,hrun,hpromise⟩ := stream_fails code message hcode
      refine ReflTransGen.head (hstart hclosed) (ReflTransGen.tail
        (moves_stream shared base attempt _ last _ hrun) ?_)
      exact moves_step (fun _ => none) shared shared _ _
        (.lose base attempt last (.grpc code message []) [] hpromise)

theorem retiring_moves (shared : Shared) (base : Int32) (attempt : ℕ) (clients : List Client) :
    ReflTransGen (Moves coordinators) (shared,.retiring base attempt clients)
      ({ shared with shut_down := shared.shut_down++clients },.indexing base attempt) := by
  induction clients generalizing shared with
  | nil =>
    rw [List.append_nil]
    exact ReflTransGen.single (moves_step (fun _ => none) shared shared _ _ (.retired base attempt))
  | cons client clients ih =>
    have hstep : Moves coordinators (shared,.retiring base attempt (client::clients)) _ :=
      moves_step (fun _ => none) shared _ _ _ (.retire base attempt client clients)
    have hrest := ih { shared with shut_down := shared.shut_down++[client] }
    rw [List.append_assoc, List.singleton_append] at hrest
    exact ReflTransGen.head hstep hrest

theorem taking_moves (createFails : Text → Option CallException) (shared : Shared)
    (base : Int32) (attempt : ℕ) (routing_data : CoordinatorRoutingInfo)
    (h : (applied createFails shared routing_data).thrown = none) :
    ReflTransGen (Moves coordinators) (shared,.updating base attempt routing_data)
      ({ shared with
          routing_table := (applied createFails shared routing_data).table
          shut_down := shared.shut_down++(applied createFails shared routing_data).removed_clients
          active_coordinator_index := coordinatorIndex coordinators base attempt
          is_ready := true },.releasing) := by
  have hupdate : Moves coordinators (shared,.updating base attempt routing_data) _ :=
    moves_step createFails shared _ _ _ (.update base attempt routing_data h)
  refine ReflTransGen.head hupdate (ReflTransGen.trans (retiring_moves _ base attempt _) ?_)
  refine ReflTransGen.head (moves_step createFails _ _ _ _ (.index base attempt)) ?_
  exact ReflTransGen.single (moves_step createFails _ _ _ _ .ready)

end Machine

section Simulation

variable {coordinators : List Text} {fetch : ℕ → Text → Outcome CoordinatorRoutingInfo}
  {createFails : ℕ → Text → Option CallException}

theorem refreshAttempt_cases (base : Int32) (attempt : ℕ) (st t : Refreshed) (last : Bool)
    (h : refreshAttempt coordinators fetch createFails base attempt st = .ok (t,last)) :
    ∃ address,
      (∃ e, fetch attempt address = .error e ∧ last = false ∧ t.shared = st.shared) ∨
      ∃ routing_data, fetch attempt address = .ok routing_data ∧
        ((∃ e, (applied (createFails attempt) st.shared routing_data).thrown = some e ∧
            last = false ∧ t.shared = { st.shared with
              routing_table := (applied (createFails attempt) st.shared routing_data).table }) ∨
          ((applied (createFails attempt) st.shared routing_data).thrown = none ∧
            last = true ∧ t.shared = { st.shared with
              routing_table := (applied (createFails attempt) st.shared routing_data).table
              shut_down := st.shared.shut_down++
                (applied (createFails attempt) st.shared routing_data).removed_clients
              active_coordinator_index := coordinatorIndex coordinators base attempt
              is_ready := true })) := by
  unfold refreshAttempt at h
  split at h
  · cases h
  obtain ⟨address,_,h⟩ := bind_eq_ok h
  refine ⟨address,?_⟩
  split at h
  next e hfetch =>
    cases h
    exact Or.inl ⟨e,hfetch,rfl,rfl⟩
  next routing_data hfetch =>
    refine Or.inr ⟨routing_data,hfetch,?_⟩
    dsimp only at h
    split at h
    next e he =>
      cases h
      exact Or.inl ⟨e,he,rfl,rfl⟩
    next hnone =>
      cases h
      exact Or.inr ⟨hnone,rfl,rfl⟩

theorem retry_moves (closed : Bool) (hdeliver : ∀ attempt address,
      Deliverable closed (fetch attempt address)) (base : Int32) (left attempt : ℕ)
    (st last : Refreshed) (hlength : attempt+left = coordinators.length)
    (hclosed : st.shared.coordinator_shutdown = closed)
    (h : retry (refreshAttempt coordinators fetch createFails base) left attempt st = .ok last) :
    ReflTransGen (Moves coordinators) (st.shared,.fetching base attempt)
      (last.shared,.releasing) := by
  induction left generalizing attempt st with
  | zero =>
    have hlast : coordinators.length ≤ attempt := by omega
    cases h
    exact ReflTransGen.single (moves_step (fun _ => none) _ _ _ _ (.giveUp base attempt hlast))
  | succ left ih =>
    have hlt : attempt < coordinators.length := by omega
    have hquery : ∀ address outcome, fetch attempt address = outcome →
        ReflTransGen (Moves coordinators) (st.shared,.fetching base attempt)
          (st.shared,afterQuery base attempt outcome) := by
      rintro address _ rfl
      exact query_moves st.shared base attempt hlt _ (hclosed ▸ hdeliver attempt address)
    rw [retry] at h
    split at h
    · cases h
    next t hbody =>
      cases h
      obtain ⟨address,⟨e,_,hfalse,_⟩ | ⟨routing_data,hfetch,⟨e,_,hfalse,_⟩ | ⟨hnone,_,ht⟩⟩⟩ :=
        refreshAttempt_cases base attempt st last true hbody
      · cases hfalse
      · cases hfalse
      · rw [ht]
        exact (hquery address _ hfetch).trans
          (taking_moves (createFails attempt) st.shared base attempt _ hnone)
    next t hbody =>
      obtain ⟨address,⟨e,hfetch,_,ht⟩ | ⟨routing_data,hfetch,⟨e,he,_,ht⟩ | ⟨_,htrue,_⟩⟩⟩ :=
        refreshAttempt_cases base attempt st t false hbody
      · have hrest := ih (attempt+1) t (by omega) (by rw [ht, hclosed]) h
        rw [ht] at hrest
        exact (hquery address _ hfetch).trans hrest
      · have hrest := ih (attempt+1) t (by omega) (by rw [ht, ← hclosed]) h
        rw [ht] at hrest
        have hthrows : Moves coordinators (st.shared,.updating base attempt routing_data) _ :=
          moves_step (createFails attempt) st.shared _ _ _
            (.updateThrows base attempt routing_data e he)
        exact (hquery address _ hfetch).trans (ReflTransGen.head hthrows hrest)
      · cases htrue

/-- A run of the function is a run of the machine that nothing interferes
with, if its queries return what queries can. -/
theorem refreshRouting_simulated (shared : Shared) (last : Refreshed)
    (hdeliver : ∀ attempt address,
      Deliverable shared.coordinator_shutdown (fetch attempt address))
    (h : refreshRouting coordinators fetch createFails shared = .ok last) :
    ReflTransGen (Moves coordinators) (shared,.checking) (last.shared,.done) := by
  unfold refreshRouting at h
  split at h
  next hskip =>
    cases h
    exact ReflTransGen.single (moves_step (fun _ => none) shared _ _ _ (.skip hskip))
  next hcheck =>
    have hchecked : Moves coordinators (shared,.checking) (shared,.locking) :=
      moves_step (fun _ => none) shared _ _ _ (.check (Bool.eq_false_of_not_eq_true hcheck))
    refine ReflTransGen.head hchecked ?_
    split at h
    next hbusy =>
      cases h
      exact ReflTransGen.single (moves_step (fun _ => none) shared _ _ _ (.busy hbusy))
    next hidle =>
      obtain ⟨st,hst,hlast⟩ := bind_eq_ok h
      cases hlast
      refine ReflTransGen.head (moves_step (fun _ => none) shared _ _ _
        (.lock (Bool.eq_false_of_not_eq_true hidle))) ?_
      refine ReflTransGen.head (moves_step (fun _ => none) _ _ _ _ .read) ?_
      refine ReflTransGen.tail (retry_moves shared.coordinator_shutdown hdeliver _ _ 0
        { shared := { shared with is_updating := true } } st (Nat.zero_add _) rfl hst) ?_
      exact moves_step (fun _ => none) st.shared _ _ _ .release

end Simulation

section Cases

def threeCoordinators : List Text := [['a'],['b'],['c']]

def secondUnreachable : ℕ → Text → Outcome CoordinatorRoutingInfo :=
  fun _ address =>
    if address = ['b'] then .error (.grpc .UNAVAILABLE [] []) else .ok { max_shards := 8 }

theorem failover_rotation_three :
    ∃ st, refreshRouting threeCoordinators secondUnreachable (fun _ _ => none)
        { active_coordinator_index := 1 } = .ok st ∧
      st.queried.Nodup ∧ st.queried.map Int32.toInt = [1,2] ∧
      st.shared.active_coordinator_index.toInt = 2 ∧ st.shared.is_ready = true := by
  have hkeeps : FailingKeeps threeCoordinators secondUnreachable (fun _ _ => none)
      { active_coordinator_index := 1 } := by
    intro attempt routing_data hfetch hthrown
    unfold secondUnreachable at hfetch
    split at hfetch
    · cases hfetch
    · cases hfetch
      exact absurd rfl hthrown
  obtain ⟨st,hrun,hnodup,_⟩ := failover_rotation threeCoordinators secondUnreachable
    (fun _ _ => none) { active_coordinator_index := 1 } ⟨rfl,by decide,rfl⟩
    ⟨by decide,by decide,by decide⟩ hkeeps
  refine ⟨st,hrun,hnodup,?_⟩
  cases hrun
  exact ⟨rfl,rfl,rfl⟩

def unreachable : ℕ → Text → Outcome CoordinatorRoutingInfo :=
  fun _ _ => .error (.grpc .UNAVAILABLE [] [])

/-- As many coordinators as an `int32_t` counts, the last active and all
unreachable: the sum of the third attempt overflows, and its remainder is negative. -/
theorem failover_overflows :
    let coordinators : List Text := List.replicate (2^31-1) ['a']
    let shared : Shared := { active_coordinator_index := 2^31-2 }
    Enters coordinators shared ∧ 0 ≤ shared.active_coordinator_index.toInt ∧
      shared.active_coordinator_index.toInt < coordinators.length ∧
      FailingKeeps coordinators unreachable (fun _ _ => none) shared ∧
      refreshRouting coordinators unreachable (fun _ _ => none) shared =
        .error .wildPointer := by
  intro coordinators shared
  have hlength : coordinators.length = 2^31-1 := List.length_replicate
  have hactive : shared.active_coordinator_index.toInt = 2^31-2 := by decide
  have henters : Enters coordinators shared := by
    refine ⟨rfl,fun hnil => ?_,rfl⟩
    rw [hnil] at hlength
    cases hlength
  have hkeeps : FailingKeeps coordinators unreachable (fun _ _ => none) shared := by
    intro attempt routing_data hfetch
    cases hfetch
  refine ⟨henters,by omega,by omega,hkeeps,?_⟩
  rw [refreshRouting_enters coordinators unreachable (fun _ _ => none) shared henters,
    retry_breaks _ (failed coordinators shared) _ 2 .wildPointer (by omega)
      (fun j hj => attempt_fails hkeeps j ⟨by omega,by omega,by omega,by omega⟩ rfl) ?_]
  · rfl
  · have hindex : (coordinatorIndex coordinators shared.active_coordinator_index 2).toInt =
        -1 := by
      rw [coordinatorIndex, hlength]
      decide
    have hcount : Int32.ofNat coordinators.length ≠ 0 := by
      rw [hlength]
      decide
    simp only [refreshAttempt, if_neg hcount, coordinatorAddress, hindex]
    rfl

end Cases

end HurriCache.CoordinatorFailover
