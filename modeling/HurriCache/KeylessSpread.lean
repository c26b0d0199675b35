import HurriCache.ResidueCounts
import HurriCache.SmartMachine

/-!
# Where requests without a key go

A call without a hint takes its shard from the counter that all workers share,
with its upper bit cleared. However the workers, the refreshes and a shutdown
interleave, the calls that read one number of shards are spread evenly up to one
call, and one more for each time the 31 bits run out. They stay even for ever
exactly when the number of shards divides their range.
-/

set_option autoImplicit false

namespace HurriCache.KeylessSpread
open HurriCache.ClientTypes HurriCache.CallOutcomes HurriCache.ShardSelection
open HurriCache.AttemptGuard HurriCache.RefreshMachine HurriCache.ExecuteMachine
open HurriCache.SmartMachine HurriCache.PartialRun HurriCache.ResidueCounts

section Draws

variable {T : Type}

def drawn (random_counter : UInt32) : Execution T → Option (Int32 × Int32)
  | ⟨none,.choosingShard max_shards⟩ =>
    match selectShard none max_shards random_counter with
    | .ok (shard,_) => some (max_shards,shard)
    | .error _ => none
  | _ => none

def draw (s : State T) : Action T → Option (Int32 × Int32)
  | .execute x _ _ => s.executions[x]?.bind (drawn s.shared.random_counter)
  | _ => none

def draws (config : Config) : State T → List (Action T) → List (Int32 × Int32) :=
  trace (step config) draw

def load (config : Config) (s : State T) (as : List (Action T)) (shard : Int32) : ℕ :=
  (draws config s as).countP (fun d => d.2 == shard)

def shardAt (max_shards : Int32) (random_counter : UInt32) : Int32 :=
  ((random_counter &&& 0x7fffffff) % max_shards.toUInt32).toInt32

theorem selectShard_none (max_shards : Int32) (random_counter : UInt32) (r : Int32 × UInt32)
    (h : selectShard none max_shards random_counter = .ok r) :
    max_shards ≠ 0 ∧ r = (shardAt max_shards random_counter,random_counter+1) := by
  have hne := (selectShard_ok_iff none max_shards random_counter).mp ⟨r,h⟩
  rw [selectShard, modShards_ok _ _ hne] at h
  exact ⟨hne,(Except.ok.inj h).symm⟩

theorem selectShard_some (hint : KeyHint) (max_shards : Int32) (random_counter : UInt32)
    (r : Int32 × UInt32) (h : selectShard (some hint) max_shards random_counter = .ok r) :
    r.2 = random_counter := by
  simp only [selectShard] at h
  cases hm : modShards hint.weak_hash max_shards with
  | error f =>
    rw [hm] at h
    cases h
  | ok shard =>
    rw [hm] at h
    cases h
    rfl

theorem drawn_other (random_counter : UInt32) (e : Execution T)
    (h : e.hint ≠ none ∨ ∀ max_shards, e.pc ≠ .choosingShard max_shards) :
    drawn random_counter e = none := by
  unfold drawn
  split
  next => rcases h with h | h <;> simp at h
  next => rfl

/-- A draw takes the shard of the counter and raises it by one. Without a draw
the counter stays. -/
def Advances (random_counter next : UInt32) : Option (Int32 × Int32) → Prop
  | none => next = random_counter
  | some d => d.1 ≠ 0 ∧ d.2 = shardAt d.1 random_counter ∧ next = random_counter+1

theorem executeStep_advances (mode : Mode) (e : Execution T) (master_first : Bool)
    (failures : Failures) (shared : Shared) (moved : Moved T)
    (h : executeStep mode e.hint master_first failures shared e.pc = some (.ok moved)) :
    Advances shared.random_counter moved.shared.random_counter
      (drawn shared.random_counter e) := by
  obtain ⟨hint,pc⟩ := e
  cases (executeStep_iff mode hint master_first failures shared pc moved).mp h with
  | choose max_shards shard counter hs =>
    cases hint with
    | none =>
      obtain ⟨hne,he⟩ := selectShard_none max_shards _ _ hs
      cases he
      simp only [drawn, hs]
      exact ⟨hne,rfl,rfl⟩
    | some hint =>
      rw [drawn_other _ _ (Or.inl (by simp))]
      exact selectShard_some hint max_shards _ _ hs
  | _ =>
    rw [drawn_other _ _ (Or.inr (by simp))]
    exact rfl

theorem refreshStep_counter (coordinators : List Text)
    (createFails : Text → Option CallException) (shared next : Shared) (pc pc' : RefreshPc)
    (h : refreshStep coordinators createFails shared pc = some (next,pc')) :
    next.random_counter = shared.random_counter := by
  cases (refreshStep_iff _ _ _ _ _ _).mp h <;> rfl

theorem shutdownStep_counter (shared next : Shared) (refreshers : List RefreshPc)
    (pc pc' : ShutdownPc) (h : shutdownStep shared refreshers pc = some (next,pc')) :
    next.random_counter = shared.random_counter := by
  cases pc with
  | joining | drainingStreams =>
    simp only [shutdownStep] at h
    split at h
    all_goals cases h
    rfl
  | retiring clients =>
    cases clients with
    | nil | cons => cases h; rfl
  | idle | unreadying | closingCoordinator | clearing => cases h; rfl
  | returned => cases h

theorem step_advances (config : Config) (s t : State T) (a : Action T)
    (h : step config s a = some t) (hfault : t.fault = none) :
    Advances s.shared.random_counter t.shared.random_counter (draw s a) := by
  unfold step at h
  split at h
  · cases h
  cases a with
  | execute x master_first failures =>
    obtain ⟨e,he,h⟩ := Option.bind_eq_some_iff.mp h
    obtain ⟨r,hr,h⟩ := Option.bind_eq_some_iff.mp h
    cases h
    have hdraw : draw s (.execute x master_first failures) =
        drawn s.shared.random_counter e := by
      rw [draw, he]
      rfl
    cases r with
    | error f => cases hfault
    | ok moved =>
      rw [hdraw]
      exact executeStep_advances config.configured_mode e master_first failures s.shared moved hr
  | call hint | setMode mode =>
    cases h
    exact rfl
  | tick =>
    simp only [act] at h
    split at h
    · cases h
      exact rfl
    · cases h
  | refresh w createFails =>
    obtain ⟨pc,_,h⟩ := Option.bind_eq_some_iff.mp h
    obtain ⟨⟨shared,pc'⟩,hr,h⟩ := Option.bind_eq_some_iff.mp h
    cases h
    exact refreshStep_counter _ _ _ _ _ _ hr
  | stream w event =>
    obtain ⟨pc,_,h⟩ := Option.bind_eq_some_iff.mp h
    obtain ⟨pc',_,h⟩ := Option.bind_eq_some_iff.mp h
    cases h
    exact rfl
  | timeout x | reply x outcome =>
    obtain ⟨e,_,h⟩ := Option.bind_eq_some_iff.mp h
    obtain ⟨pc,_,h⟩ := Option.bind_eq_some_iff.mp h
    cases h
    exact rfl
  | shutdown =>
    obtain ⟨⟨shared,pc⟩,hs,h⟩ := Option.bind_eq_some_iff.mp h
    cases h
    exact shutdownStep_counter _ _ _ _ _ hs

theorem draw_fault (config : Config) (s t : State T) (a : Action T) (d : Int32 × Int32)
    (h : step config s a = some t) (hd : draw s a = some d) : t.fault = none := by
  unfold step at h
  split at h
  · cases h
  next hfault =>
    cases a with
    | execute x master_first failures =>
      obtain ⟨e,he,hd⟩ := Option.bind_eq_some_iff.mp hd
      unfold drawn at hd
      split at hd
      next max_shards =>
        cases hs : selectShard none max_shards s.shared.random_counter with
        | error f =>
          rw [hs] at hd
          cases hd
        | ok r =>
          simp only [act, he, executeStep, hs, Option.bind_eq_bind, Option.bind_some] at h
          cases h
          simpa [Except.map, afterExecute, State.setExecution] using hfault
      next => cases hd
    | _ => cases hd

theorem draws_getElem (config : Config) (s : State T) (as : List (Action T)) (i : ℕ)
    (d : Int32 × Int32) (h : (draws config s as)[i]? = some d) :
    d.1 ≠ 0 ∧ d.2 = shardAt d.1 (s.shared.random_counter+UInt32.ofNat i) := by
  induction as generalizing s i with
  | nil => cases h
  | cons a as ih =>
    rw [draws, trace] at h
    cases hstep : step config s a with
    | none =>
      rw [hstep] at h
      cases h
    | some t =>
      simp only [hstep] at h
      cases hd : draw s a with
      | none =>
        rw [hd, Option.toList_none, List.nil_append] at h
        by_cases hfault : t.fault = none
        · have hadv := step_advances config s t a hstep hfault
          rw [hd] at hadv
          have hc : t.shared.random_counter = s.shared.random_counter := hadv
          rw [← hc]
          exact ih t i h
        · have hend : trace (step config) draw t as = [] := by
            cases as with
            | nil => rfl
            | cons b bs =>
              have hstop : step config t b = none := by
                rw [step, if_pos (by rwa [Option.isSome_iff_ne_none])]
              rw [trace, hstop]
          rw [hend] at h
          cases h
      | some e =>
        have hadv := step_advances config s t a hstep (draw_fault config s t a e hstep hd)
        rw [hd] at hadv
        obtain ⟨hne,hshard,hnext⟩ := hadv
        rw [hd, Option.toList_some, List.singleton_append] at h
        cases i with
        | zero =>
          cases h
          exact ⟨hne,by simpa using hshard⟩
        | succ i =>
          obtain ⟨hne',hshard'⟩ := ih t i h
          refine ⟨hne',?_⟩
          rw [hshard', hnext, UInt32.ofNat_add]
          congr 1
          rw [UInt32.add_assoc, UInt32.add_comm 1]
          rfl

/-- The counter without its upper bit, modulo the number of shards. -/
theorem shardAt_eq_iff (max_shards : Int32) (random_counter shard : UInt32) (i : ℕ) :
    shardAt max_shards (random_counter+UInt32.ofNat i) = shard.toInt32 ↔
      (random_counter.toNat+i) % 2^31 % max_shards.toUInt32.toNat = shard.toNat := by
  have hmask : ((random_counter+UInt32.ofNat i) &&& 0x7fffffff).toNat =
      (random_counter.toNat+i) % 2^31 := by
    rw [UInt32.toNat_and, UInt32.toNat_add, UInt32.toNat_ofNat']
    rw [show (0x7fffffff : UInt32).toNat = 2^31-1 from rfl, Nat.and_two_pow_sub_one_eq_mod]
    omega
  have hinj : Function.Injective UInt32.toInt32 :=
    fun a b h => by simpa using congrArg Int32.toUInt32 h
  rw [shardAt, hinj.eq_iff, ← UInt32.toNat_inj, UInt32.toNat_mod, hmask]

theorem load_eq_hits (config : Config) (s : State T) (as : List (Action T)) (max_shards : Int32)
    (hreads : ∀ d ∈ draws config s as, d.1 = max_shards) (shard : UInt32) :
    load config s as shard.toInt32 = hits (2^31) max_shards.toUInt32.toNat
      s.shared.random_counter.toNat (draws config s as).length shard.toNat := by
  have hshards : (draws config s as).map (·.2) = (List.range (draws config s as).length).map
      (fun i => shardAt max_shards (s.shared.random_counter+UInt32.ofNat i)) := by
    refine List.ext_getElem (by simp) (fun i hi _ => ?_)
    have hlt : i < (draws config s as).length := by simpa using hi
    have hget := draws_getElem config s as i _ (List.getElem?_eq_getElem hlt)
    simp [hget.2, hreads _ (List.getElem_mem hlt)]
  calc load config s as shard.toInt32
    _ = ((draws config s as).map (·.2)).countP (· == shard.toInt32) := by
      rw [List.countP_map]
      rfl
    _ = _ := by
      rw [hshards, List.countP_map, hits, Nat.count]
      refine List.countP_congr (fun i _ => ?_)
      simpa using shardAt_eq_iff max_shards s.shared.random_counter shard i

structure Ready (s : State T) (max_shards : Int32) : Prop where
  fault : s.fault = none
  is_ready : s.shared.is_ready = true
  max_shards : s.shared.routing_table.max_shards = max_shards

def keylessCall (x : ℕ) : List (Action T) :=
  let execute := Action.execute x true {}
  [.call none,execute,execute,execute]

def calling (s : State T) (shared : Shared) (pc : ExecutePc T) : State T :=
  { s with shared := shared, executions := s.executions++[⟨none,pc⟩] }

theorem step_calling (config : Config) (s : State T) (shared next : Shared) (pc pc' : ExecutePc T)
    (hfault : s.fault = none)
    (h : executeStep config.configured_mode none true {} shared pc =
      some (.ok ⟨next,pc',false⟩)) :
    step config (calling s shared pc) (.execute s.executions.length true {}) =
      some (calling s next pc') := by
  have hx : (calling s shared pc).executions[s.executions.length]? = some ⟨none,pc⟩ :=
    List.getElem?_concat_length
  rw [step, if_neg (by simp [calling, hfault]), act, hx]
  simp only [Option.bind_eq_bind, Option.bind_some]
  rw [show (calling s shared pc).shared = shared from rfl, h]
  simp [afterExecute, State.setExecution, calling]

theorem keylessCall_draws (config : Config) (s : State T) (max_shards : Int32)
    (hm : max_shards ≠ 0) (hs : Ready s max_shards) :
    ∃ t, run (step config) s (keylessCall s.executions.length) = some t ∧ Ready t max_shards ∧
      draws config s (keylessCall s.executions.length) =
        [(max_shards,shardAt max_shards s.shared.random_counter)] := by
  obtain ⟨hfault,hready,hshards⟩ := hs
  have hselect : selectShard none max_shards s.shared.random_counter =
      .ok (shardAt max_shards s.shared.random_counter,s.shared.random_counter+1) := by
    rw [selectShard, modShards_ok _ _ hm]
    rfl
  have hcall : step config s (.call none) = some (calling s s.shared .waitingReady) := by
    rw [step, if_neg (by simp [hfault])]
    rfl
  have hwake := step_calling config s s.shared s.shared .waitingReady .readingShards hfault
    (by simp [executeStep, waitReady, hready])
  have hread := step_calling config s s.shared s.shared .readingShards (.choosingShard max_shards)
    hfault (by rw [executeStep, hshards])
  have hchoose := step_calling config s s.shared
    { s.shared with random_counter := s.shared.random_counter+1 } (.choosingShard max_shards)
    (.readingMaster (shardAt max_shards s.shared.random_counter)) hfault
    (by rw [executeStep, hselect]; rfl)
  have hdraw : ∀ pc : ExecutePc T, draw (calling s s.shared pc)
      (.execute s.executions.length true {}) =
        drawn s.shared.random_counter ⟨none,pc⟩ := by
    intro pc
    rw [draw, show (calling s s.shared pc).executions[s.executions.length]? = _ from
      List.getElem?_concat_length]
    rfl
  refine ⟨calling s { s.shared with random_counter := s.shared.random_counter+1 }
    (.readingMaster (shardAt max_shards s.shared.random_counter)),?_,⟨hfault,hready,hshards⟩,?_⟩
  · simp only [keylessCall, run, hcall, hwake, hread, hchoose, Option.bind_some]
  · simp only [keylessCall, draws, trace, hcall, hwake, hread, hchoose, hdraw, drawn, hselect]
    rfl

theorem keyless_calls (config : Config) (max_shards : Int32) (hm : max_shards ≠ 0) (k : ℕ)
    (s : State T) (hs : Ready s max_shards) :
    ∃ as t, run (step config) s as = some t ∧ (draws config s as).length = k ∧
      ∀ d ∈ draws config s as, d.1 = max_shards := by
  induction k generalizing s with
  | zero => exact ⟨[],s,rfl,rfl,fun _ h => absurd h List.not_mem_nil⟩
  | succ k ih =>
    obtain ⟨u,hu,hready,hdraws⟩ := keylessCall_draws config s max_shards hm hs
    obtain ⟨as,t,ht,hlen,hreads⟩ := ih u hready
    refine ⟨keylessCall s.executions.length++as,t,by rw [run_append, hu]; exact ht,?_,?_⟩
    · rw [draws, trace_append _ _ s u _ as hu, ← draws, hdraws, List.length_append, hlen]
      exact Nat.add_comm 1 k
    · intro d hd
      rw [draws, trace_append _ _ s u _ as hu, ← draws, hdraws] at hd
      cases List.mem_append.mp hd with
      | inl hfirst => rw [List.mem_singleton.mp hfirst]
      | inr hrest => exact hreads d hrest

/-- Two shards differ by one call, and by one more for each time that 31 bits of
the counter ran out; they never differ by more than one call exactly when the
number of shards divides `2^31`. -/
theorem keyless_spread (config : Config) (s : State T) (max_shards : Int32)
    (hm : max_shards ≠ 0) (hs : Ready s max_shards) :
    (∀ as t, run (step config) s as = some t →
      (∀ d ∈ draws config s as, d.1 = max_shards) →
      ∀ a b : UInt32, a < max_shards.toUInt32 → b < max_shards.toUInt32 →
        load config s as a.toInt32 ≤ load config s as b.toInt32+1+
          ((s.shared.random_counter.toNat+(draws config s as).length)/2^31-
            s.shared.random_counter.toNat/2^31)) ∧
      ((∀ as t, run (step config) s as = some t →
        (∀ d ∈ draws config s as, d.1 = max_shards) →
        ∀ a b : UInt32, a < max_shards.toUInt32 → b < max_shards.toUInt32 →
          load config s as a.toInt32 ≤ load config s as b.toInt32+1) ↔
        max_shards.toUInt32.toNat ∣ 2^31) := by
  have hpos : 0 < max_shards.toUInt32.toNat :=
    Nat.pos_of_ne_zero (fun h => toUInt32_ne_zero max_shards hm (UInt32.toNat_inj.mp h))
  refine ⟨?_,?_,?_⟩
  · intro as _ _ hreads a b ha hb
    rw [load_eq_hits config s as max_shards hreads, load_eq_hits config s as max_shards hreads]
    exact hits_spread (2^31) hpos (UInt32.lt_iff_toNat_lt.mp ha) (UInt32.lt_iff_toNat_lt.mp hb)
      (Nat.two_pow_pos 31) _ _
  · intro heven
    by_contra hdvd
    obtain ⟨k,hk⟩ := hits_drift (2^31) hpos hdvd (Nat.two_pow_pos 31)
      s.shared.random_counter.toNat 2
    obtain ⟨as,t,hrun,hlen,hreads⟩ := keyless_calls config max_shards hm k s hs
    have hlast : (max_shards.toUInt32-1).toNat = max_shards.toUInt32.toNat-1 := by
      rw [UInt32.toNat_sub_of_le]
      · rfl
      · exact UInt32.le_iff_toNat_le.mpr hpos
    have hle := heven as t hrun hreads 0 (max_shards.toUInt32-1) (UInt32.lt_iff_toNat_lt.mpr hpos)
      (UInt32.lt_iff_toNat_lt.mpr (by rw [hlast]; exact Nat.sub_lt hpos Nat.one_pos))
    rw [load_eq_hits config s as max_shards hreads, load_eq_hits config s as max_shards hreads,
      hlen, hlast] at hle
    have hzero : (0 : UInt32).toNat = 0 := rfl
    rw [hzero] at hle
    omega
  · intro hdvd as _ _ hreads a b ha hb
    rw [load_eq_hits config s as max_shards hreads, load_eq_hits config s as max_shards hreads]
    exact hits_divides (2^31) hpos (UInt32.lt_iff_toNat_lt.mp ha) (UInt32.lt_iff_toNat_lt.mp hb)
      hdvd _ _

end Draws

theorem keyless_spread_default : ∃ s : State ℕ, Ready s 1024 ∧
    ∀ as t, run (step ⟨[],.MASTER⟩) s as = some t →
      (∀ d ∈ draws ⟨[],.MASTER⟩ s as, d.1 = 1024) →
      ∀ a b : UInt32, a < 1024 → b < 1024 →
        load ⟨[],.MASTER⟩ s as a.toInt32 ≤ load ⟨[],.MASTER⟩ s as b.toInt32+1 := by
  have hready : Ready ({ shared := { is_ready := true } } : State ℕ) 1024 := ⟨rfl,rfl,rfl⟩
  exact ⟨_,hready,(keyless_spread ⟨[],.MASTER⟩ _ 1024 (by decide) hready).2.mpr ⟨2^21,rfl⟩⟩

end HurriCache.KeylessSpread
