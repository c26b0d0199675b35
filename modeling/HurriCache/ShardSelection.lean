import HurriCache.TopologyTable

/-!
# What `execute` picks before its first attempt

The shard comes from the hint when there is one and else from a counter that
all calls share. The divisor is the table's number of shards, read as an
unsigned number. The mode decides between the two routes of the shard, and a
missing route decides against the mode.
-/

set_option autoImplicit false

namespace HurriCache.ShardSelection
open HurriCache.ClientTypes HurriCache.TopologyTable

inductive Mode where
  | MASTER | BACKUP | MASTER_THAN_BACKUP | LB_SMART
  deriving DecidableEq, Repr

/-- `mode_override_` with its negative value as none. -/
def effectiveMode (mode_override : Option Mode) (configured_mode : Mode) : Mode :=
  mode_override.getD configured_mode

def modShards (n : UInt32) (max_shards : Int32) : Except Fault Int32 :=
  if max_shards.toUInt32 = 0 then .error .divisionByZero
  else .ok (n % max_shards.toUInt32).toInt32

/-- The shard and the value left in `random_counter_`. -/
def selectShard (hint : Option KeyHint) (max_shards : Int32) (random_counter : UInt32) :
    Except Fault (Int32 × UInt32) :=
  match hint with
  | some h => (modShards h.weak_hash max_shards).map (fun shard => (shard,random_counter))
  | none => (modShards (random_counter &&& 0x7fffffff) max_shards).map
      (fun shard => (shard,random_counter+1))

/-- The current and the fallback client of the first attempt. The coin is
only thrown under `LB_SMART`. -/
def firstAttempt (mode : Mode) (master_first : Bool) (master backup : SharedClient) :
    Option (SharedClient × SharedClient) :=
  if master.isNone && backup.isNone then none
  else
    let mode := if master.isNone then .BACKUP else if backup.isNone then .MASTER else mode
    match mode with
    | .MASTER => some (master,none)
    | .BACKUP => some (backup,none)
    | .LB_SMART => if master_first then some (master,backup) else some (backup,master)
    | .MASTER_THAN_BACKUP => some (master,backup)

theorem firstAttempt_current (mode : Mode) (master_first : Bool)
    (master backup current fallback : SharedClient)
    (h : firstAttempt mode master_first master backup = some (current,fallback)) :
    ∃ client, current = some client := by
  cases master with
  | none =>
    cases backup with
    | none => cases h
    | some b =>
      cases h
      exact ⟨b,rfl⟩
  | some m =>
    cases backup with
    | none =>
      cases h
      exact ⟨m,rfl⟩
    | some b =>
      cases mode <;> cases master_first <;> cases h <;> exact ⟨_,rfl⟩

theorem firstAttempt_eq_none (mode : Mode) (master_first : Bool) (master backup : SharedClient) :
    firstAttempt mode master_first master backup = none ↔ master = none ∧ backup = none := by
  cases master <;> cases backup <;> cases mode <;> cases master_first <;> simp [firstAttempt]

theorem toUInt32_ne_zero (n : Int32) (h : n ≠ 0) : n.toUInt32 ≠ 0 := by
  intro h0
  exact h (by simpa using congrArg UInt32.toInt32 h0)

theorem modShards_ok (n : UInt32) (max_shards : Int32) (h : max_shards ≠ 0) :
    modShards n max_shards = .ok (n % max_shards.toUInt32).toInt32 := by
  rw [modShards, if_neg (toUInt32_ne_zero max_shards h)]

theorem selectShard_ok_iff (hint : Option KeyHint) (max_shards : Int32)
    (random_counter : UInt32) :
    (∃ r, selectShard hint max_shards random_counter = .ok r) ↔ max_shards ≠ 0 := by
  constructor
  · rintro ⟨r,hr⟩ rfl
    cases hint <;> cases hr
  · intro h
    cases hint with
    | none => exact ⟨_,by rw [selectShard, modShards_ok _ _ h]; rfl⟩
    | some k => exact ⟨_,by rw [selectShard, modShards_ok _ _ h]; rfl⟩

theorem selectShard_hint (h : KeyHint) (max_shards : Int32) (c₁ c₂ : UInt32) :
    (selectShard (some h) max_shards c₁).map Prod.fst =
      (selectShard (some h) max_shards c₂).map Prod.fst := by
  simp only [selectShard]
  cases modShards h.weak_hash max_shards <;> rfl

end HurriCache.ShardSelection
