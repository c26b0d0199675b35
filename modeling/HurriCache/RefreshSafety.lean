import HurriCache.TopologyRace

/-!
# A call that nothing but refreshes can disturb

All topologies have the same number of shards and both routes for each of
them, and nodes answer OK. Eight steps, and the operations of a stream, then
bring a call to its value whatever updates come between, unless one has shut
down the client whose queue the call uses next. Before the send that is an
error which the failover does not know, and after it the queue stops the
process.
-/

set_option autoImplicit false

namespace HurriCache.RefreshSafety
open HurriCache.ClientTypes HurriCache.CallOutcomes HurriCache.StreamCall
open HurriCache.TopologyTable
open HurriCache.ShardSelection HurriCache.AttemptGuard HurriCache.RefreshMachine
open HurriCache.ExecuteMachine HurriCache.TableEffects HurriCache.TopologyRace
open HurriCache.PartialRun

section Invariant

variable {T : Type} (M : Int32)

structure Wired (table : RoutingTable) : Prop where
  divisor : table.max_shards = M
  master : ∀ n : UInt32, n < M.toUInt32 → ∃ client,
    table.getRoute n.toInt32 .MASTER = some client
  backup : ∀ n : UInt32, n < M.toUInt32 → ∃ client,
    table.getRoute n.toInt32 .BACKUP = some client

def InRange (shard : Int32) : Prop := ∃ n : UInt32, n < M.toUInt32 ∧ shard = n.toInt32

/-- How many steps have led here. -/
def stage : ExecutePc T → ℕ
  | .waitingReady => 0
  | .readingShards => 1
  | .choosingShard _ => 2
  | .readingMaster _ => 3
  | .readingBackup _ _ => 4
  | .selectingMode _ _ => 5
  | .sending _ _ => 6
  | .awaiting _ _ => 7
  | _ => 8

def OnTrack : ExecutePc T → Prop
  | .choosingShard max_shards => max_shards = M
  | .readingMaster shard => InRange M shard
  | .readingBackup shard master => InRange M shard ∧ ∃ client, master = some client
  | .selectingMode master backup =>
    (∃ client, master = some client) ∧ ∃ client, backup = some client
  | .sending current _ => ∃ client, current = some client
  | .catching _ _ _ | .resolvingMaster _ _ _ _ | .resolvingBackup _ _ _ _ _ => False
  | .finished outcome => ∃ value, outcome = .ok value
  | _ => True

structure Undisturbed (s : State T) : Prop where
  fault : s.fault = none
  running : s.shared.shutdown_requested = false
  wired : s.published ≠ [] → Wired M s.shared.routing_table
  ready : s.shared.is_ready = true → s.published ≠ []
  begun : s.pc ≠ .waitingReady → s.published ≠ []
  track : OnTrack M s.pc
  taken : s.taken = stage s.pc

theorem modShards_inRange (hM : M ≠ 0) (n : UInt32) :
    ∃ shard, modShards n M = .ok shard ∧ InRange M shard := by
  have hpos : 0 < M.toUInt32 := UInt32.pos_iff_ne_zero.mpr (toUInt32_ne_zero M hM)
  exact ⟨_,modShards_ok n M hM,_,UInt32.mod_lt n hpos,rfl⟩

theorem selectShard_inRange (hM : M ≠ 0) (hint : Option KeyHint) (counter : UInt32) :
    ∃ shard left, selectShard hint M counter = .ok (shard,left) ∧ InRange M shard := by
  cases hint with
  | some h =>
    obtain ⟨shard,hs,hr⟩ := modShards_inRange M hM h.weak_hash
    exact ⟨shard,counter,by rw [selectShard, hs]; rfl,hr⟩
  | none =>
    obtain ⟨shard,hs,hr⟩ := modShards_inRange M hM (counter &&& 0x7fffffff)
    exact ⟨shard,counter+1,by rw [selectShard, hs]; rfl,hr⟩

theorem firstAttempt_both (mode : Mode) (master_first : Bool) (master backup : Client) :
    ∃ current fallback, firstAttempt mode master_first (some master) (some backup) =
      some (some current,fallback) := by
  cases mode <;> cases master_first <;> exact ⟨_,_,rfl⟩

structure Advances (shared : Shared) (pc : ExecutePc T) (m : Moved T) : Prop where
  track : OnTrack M m.pc
  stage : stage m.pc = stage pc+1
  table : m.shared.routing_table = shared.routing_table
  ready : m.shared.is_ready = shared.is_ready
  running : m.shared.shutdown_requested = shared.shutdown_requested

theorem executeStep_advances (hM : M ≠ 0) (mode : Mode) (hint : Option KeyHint)
    (master_first : Bool) (failures : Failures) (shared : Shared)
    (pc : ExecutePc T) (hpc : OnTrack M pc)
    (hready : pc = .waitingReady → shared.is_ready = true)
    (hwired : pc ≠ .waitingReady → Wired M shared.routing_table)
    (hopen : ∀ client fallback, pc = .sending (some client) fallback → client ∉ shared.shut_down)
    (hstage : stage pc < 7) :
    ∃ m, executeStep mode hint master_first failures shared pc = some (.ok m) ∧
      Advances M shared pc m := by
  cases pc with
  | waitingReady =>
    exact ⟨_,(executeStep_iff _ _ _ _ _ _ _).mpr (.wake (hready rfl)),
      ⟨trivial,rfl,rfl,rfl,rfl⟩⟩
  | readingShards =>
    have hw := hwired (by simp)
    exact ⟨_,rfl,⟨hw.divisor,rfl,rfl,rfl,rfl⟩⟩
  | choosingShard max_shards =>
    have hd : max_shards = M := hpc
    subst hd
    obtain ⟨shard,left,hs,hr⟩ := selectShard_inRange max_shards hM hint shared.random_counter
    exact ⟨_,(executeStep_iff _ _ _ _ _ _ _).mpr (.choose max_shards shard left hs),
      ⟨hr,rfl,rfl,rfl,rfl⟩⟩
  | readingMaster shard =>
    obtain ⟨n,hn,rfl⟩ := hpc
    have hw := hwired (by simp)
    exact ⟨_,rfl,⟨⟨⟨n,hn,rfl⟩,hw.master n hn⟩,rfl,rfl,rfl,rfl⟩⟩
  | readingBackup shard master =>
    obtain ⟨⟨n,hn,rfl⟩,hm⟩ := hpc
    have hw := hwired (by simp)
    exact ⟨_,rfl,⟨⟨hm,hw.backup n hn⟩,rfl,rfl,rfl,rfl⟩⟩
  | selectingMode master backup =>
    obtain ⟨⟨m,rfl⟩,b,rfl⟩ := hpc
    obtain ⟨current,fallback,hf⟩ := firstAttempt_both (effectiveMode shared.mode_override mode)
      master_first m b
    exact ⟨_,(executeStep_iff _ _ _ _ _ _ _).mpr (.select _ _ (some current) fallback hf),
      ⟨⟨current,rfl⟩,rfl,rfl,rfl,rfl⟩⟩
  | sending current fallback =>
    obtain ⟨client,rfl⟩ := hpc
    have hsend := hopen client fallback rfl
    exact ⟨_,(executeStep_iff _ _ _ _ _ _ _).mpr (.send client fallback hsend),
      ⟨trivial,rfl,rfl,rfl,rfl⟩⟩
  | awaiting current fallback => exact absurd hstage (by simp [stage])
  | finished outcome => exact absurd hstage (by simp [stage])
  | catching e current fallback => exact hpc.elim
  | resolvingMaster route e current fallback => exact hpc.elim
  | resolvingBackup route e current fallback new_master => exact hpc.elim

/-- What an awaited call still does before its last operation is outstanding. -/
def remaining (stream : Bool) : Option Operation → List (Action T)
  | none => if stream then [.operate true,.operate true,.operate false] else [.operate true]
  | some .StartCall => [.operate true,.operate false]
  | some .Read => [.operate false]
  | some .Finish => []

end Invariant

def own : Action ℕ := .execute true {}

end HurriCache.RefreshSafety
