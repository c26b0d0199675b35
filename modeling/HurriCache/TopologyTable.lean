import HurriCache.CallOutcomes
import Mathlib.Data.Char
import Mathlib.Data.List.AList
import Mathlib.Data.List.Lex
import Mathlib.Data.List.Sort

/-!
# The routing table

Clients are objects, so the client of a target comes with the number of
clients created for that target before it. Creating a client starts a thread
and may throw. Every method holds the table lock for its whole body and is one
step; the clients that an update or a shutdown takes out of the table are
returned, because they are shut down after the lock is released.
-/

set_option autoImplicit false

namespace HurriCache.TopologyTable
open HurriCache.ClientTypes HurriCache.CallOutcomes

/-- Proto3 enumerations are open. -/
inductive NodeRole where
  | UNDEFINED | MASTER | BACKUP
  | unrecognized (value : Int32)
  deriving DecidableEq, Repr

structure PeerRouting where
  target : Text
  role : NodeRole
  partitionIds : List UInt32
  deriving DecidableEq

/-- A `FastCacheStandaloneClient` by its identity. -/
structure Client where
  target : Text
  generation : ℕ
  deriving DecidableEq

abbrev SharedClient := Option Client

structure RoutingTable where
  max_shards : Int32 := 1024
  routing_table : AList (fun _ : NodeRole × Int32 => Client) := ∅
  routing_table_target : AList (fun _ : Text => Client) := ∅
  created : Text → ℕ := fun _ => 0

namespace RoutingTable

variable (createFails : Text → Option CallException)

def createClient (table : RoutingTable) (target : Text) : Client :=
  ⟨target,table.created target⟩

def register (table : RoutingTable) (target : Text) : RoutingTable :=
  { table with
    routing_table_target :=
      table.routing_table_target.insert target (table.createClient target)
    created := Function.update table.created target (table.created target+1) }

def newTargets (peer_routings : List PeerRouting) : List Text :=
  (peer_routings.map (·.target)).dedup.insertionSort (· ≤ ·)

def createMissing (table : RoutingTable) : List Text → Option CallException × RoutingTable
  | [] => (none,table)
  | target::targets =>
    match table.routing_table_target.lookup target with
    | some _ => createMissing table targets
    | none =>
      match createFails target with
      | some e => (some e,table)
      | none => createMissing (table.register target) targets

def oldTargets (table : RoutingTable) (new_targets : List Text) : List Text :=
  (table.routing_table_target.keys.insertionSort (· ≤ ·)).filter (· ∉ new_targets)

def removeOld (table : RoutingTable) (old_targets : List Text) : RoutingTable :=
  { table with
    routing_table_target :=
      old_targets.foldl (fun targets t => targets.erase t) table.routing_table_target }

def addRoutes (table : RoutingTable) (peer : PeerRouting) : RoutingTable :=
  match table.routing_table_target.lookup peer.target with
  | none => table
  | some client =>
    { table with
      routing_table := peer.partitionIds.foldl
        (fun routes partition_id => routes.insert (peer.role,partition_id.toInt32) client)
        table.routing_table }

/-- What an update leaves: a creation that throws ends it halfway. -/
structure Update where
  table : RoutingTable
  removed_clients : List Client
  thrown : Option CallException

def updateFromCoordinator (table : RoutingTable) (max_shards : Int32)
    (peer_routings : List PeerRouting) : Update :=
  let new_targets := newTargets peer_routings
  match createMissing createFails { table with max_shards := max_shards } new_targets with
  | (some e,table) => ⟨table,[],some e⟩
  | (none,table) =>
    let old_targets := table.oldTargets new_targets
    let removed_clients := old_targets.filterMap
      (fun t => table.routing_table_target.lookup t)
    let table := { table.removeOld old_targets with routing_table := ∅ }
    ⟨peer_routings.foldl addRoutes table,removed_clients,none⟩

def getRoute (table : RoutingTable) (shard : Int32) (role : NodeRole) : SharedClient :=
  table.routing_table.lookup (role,shard)

def getRouteByTarget (table : RoutingTable) (target : Text) : SharedClient :=
  table.routing_table_target.lookup target

def getOrCreateByTarget (table : RoutingTable) (target : Text) :
    Except CallException Client × RoutingTable :=
  match table.routing_table_target.lookup target with
  | some client => (.ok client,table)
  | none =>
    match createFails target with
    | some e => (.error e,table)
    | none => (.ok (table.createClient target),table.register target)

def shutdown (table : RoutingTable) : List Client × RoutingTable :=
  ((table.routing_table_target.keys.insertionSort (· ≤ ·)).filterMap
      (fun t => table.routing_table_target.lookup t),
    { table with routing_table := ∅, routing_table_target := ∅ })

def resolve (table : RoutingTable) (target : Text) : Except CallException Client :=
  match table.routing_table_target.lookup target with
  | some client => .ok client
  | none =>
    match createFails target with
    | some e => .error e
    | none => .ok (table.createClient target)

theorem getOrCreateByTarget_fst (table : RoutingTable) (target : Text) :
    (getOrCreateByTarget createFails table target).1 = resolve createFails table target := by
  unfold getOrCreateByTarget resolve
  split
  · rfl
  · split <;> rfl

/-- Creating the missing client of one target shows in no resolution. -/
theorem resolve_getOrCreateByTarget (table : RoutingTable) (target other : Text) :
    resolve createFails (getOrCreateByTarget createFails table target).2 other =
      resolve createFails table other := by
  cases hl : table.routing_table_target.lookup target with
  | some client => simp only [getOrCreateByTarget, hl]
  | none =>
    cases hf : createFails target with
    | some e => simp only [getOrCreateByTarget, hl, hf]
    | none =>
      simp only [getOrCreateByTarget, hl, hf]
      by_cases h : other = target
      · rw [h]
        simp only [resolve, register, AList.lookup_insert, hl, hf]
      · simp only [resolve, register, AList.lookup_insert_ne h, createClient,
          Function.update_of_ne h]

theorem createMissing_max_shards (table : RoutingTable) (targets : List Text) :
    (createMissing createFails table targets).2.max_shards = table.max_shards := by
  induction targets generalizing table with
  | nil => rfl
  | cons target targets ih =>
    unfold createMissing
    split
    · exact ih table
    · split
      · rfl
      · exact ih (table.register target)

theorem addRoutes_max_shards (table : RoutingTable) (peers : List PeerRouting) :
    (peers.foldl addRoutes table).max_shards = table.max_shards := by
  induction peers generalizing table with
  | nil => rfl
  | cons peer peers ih =>
    rw [List.foldl_cons, ih]
    unfold addRoutes
    split <;> rfl

@[simp] theorem updateFromCoordinator_max_shards (table : RoutingTable) (max_shards : Int32)
    (peer_routings : List PeerRouting) :
    (updateFromCoordinator createFails table max_shards peer_routings).table.max_shards =
      max_shards := by
  have h := createMissing_max_shards createFails { table with max_shards := max_shards }
    (newTargets peer_routings)
  simp only [updateFromCoordinator]
  split
  next e t hm => simpa only [hm] using h
  next t hm =>
    have ht : t.max_shards = max_shards := by simpa only [hm] using h
    rw [addRoutes_max_shards]
    exact ht

@[simp] theorem getOrCreateByTarget_max_shards (table : RoutingTable) (target : Text) :
    (getOrCreateByTarget createFails table target).2.max_shards = table.max_shards := by
  unfold getOrCreateByTarget
  split
  · rfl
  · split <;> rfl

end RoutingTable

end HurriCache.TopologyTable
