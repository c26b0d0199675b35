import HurriCache.NullPlans
import HurriCache.RequestBound

/-!
# Null elements in the inserting operations

What a plan sends has been estimated before, element by element, and so holds
no null. An inserting operation is safe where its plan can be built.
-/

set_option autoImplicit false

namespace HurriCache.NullSafety
open HurriCache.ClientTypes HurriCache.PayloadCompression HurriCache.StandaloneCalls
open HurriCache.InsertRequests HurriCache.ChunkSplitters HurriCache.SmartOperations
open HurriCache.ListServer HurriCache.ElementServer HurriCache.ChunkedCreation
open HurriCache.CreationPlans HurriCache.RequestSizes HurriCache.RequestBound
open HurriCache.ExceptGuard HurriCache.NullEstimates HurriCache.NullEncoding
open HurriCache.NullPlans HurriCache.StoredGzip

section Plans

variable (lib : Libdeflate) (client : SmartClient) (max_rpc_size : Int64)
  (key : Key) (hint : Option KeyHint) (clientId : Int32)

def PlanNoNull (plan : Plan) : Prop :=
  ∀ reply_hint, ∀ p ∈ startedRequests 0 reply_hint plan, NoNull p.2.action.method

theorem startedRequests_start (start other : ℕ) (reply_hint : KeyHint) (plan : Plan)
    (p : ℕ × Dispatch) (hp : p ∈ startedRequests start reply_hint plan) :
    ∃ q ∈ startedRequests other reply_hint plan, q.2 = p.2 := by
  cases plan with
  | forward call => exact ⟨p,hp,rfl⟩
  | create plan => exact ⟨p,hp,rfl⟩
  | add plan =>
    cases plan with
    | immediate n => cases hp
    | pipeline calls =>
      obtain ⟨call,hcall,rfl⟩ := List.mem_map.mp hp
      exact ⟨(other,call),List.mem_map.mpr ⟨call,hcall,rfl⟩,rfl⟩

theorem smartPlan_noNull (hc : Compresses lib) (addresses : AddressOrder) (operation : Method)
    (plan : Plan)
    (h : smartPlan lib client max_rpc_size key hint clientId addresses operation = .ok plan) :
    PlanNoNull plan := by
  intro reply_hint p hp
  obtain ⟨q,hq,hsame⟩ := startedRequests_start 0 (addStart lib client key clientId) reply_hint
    plan p hp
  have hmeasured := smartPlan_measured lib client max_rpc_size key hint clientId addresses
    operation plan h reply_hint q hq
  rw [← hsame]
  exact (estimatedSizes_guarded lib hc _ client.compression_threshold _).ok_iff.mp
    (measured_sized lib client max_rpc_size _ q.1 _ hmeasured.2)

variable (addresses : AddressOrder) (now : Int64)

def inserts : Method → Bool
  | .createQueue _ _ | .createList _ _ | .createVector _ _ | .createSet _ _
  | .createOrderedSet _ _ | .createMap _ _ | .createOrderedMap _ _ | .addElementUnordered _
  | .addElementToTail _ | .addElementToHead _ | .addElementToPosition _ _
  | .addElementToPositionBefore _ _ | .addElementToPositionAfter _ _ | .addElementWithWeight _
  | .addElementHashMap _ _ | .addElementOrderedMap _ _ => true
  | _ => false

def storedElements (vs : Option (List ValuePtr)) : List Element := (block vs).map .value

/-- Neither the plan nor the encoding of any of its requests dereferences a
null, and a creation of an unordered container stores the values that are there. -/
structure NullSafe (operation : Method) : Prop where
  plans : Avoids .nullPointer
    (smartPlan lib client max_rpc_size key hint clientId addresses operation)
  encodes : ∀ plan,
    smartPlan lib client max_rpc_size key hint clientId addresses operation = .ok plan →
    ∀ reply_hint, ∀ p ∈ startedRequests 0 reply_hint plan,
      Avoids .nullPointer (insertRequest lib client.compression_threshold now p.2.action)
  stores : ∀ (type : UnorderedType) (vs : Option (List ValuePtr)) (ttl : Int64),
    operation = type.create vs ttl → ∃ plan,
      smartPlan lib client max_rpc_size key hint clientId addresses operation =
        .ok (.create plan) ∧
      ∀ (C : Type) (server : ContainerServer C) (reply_hint : KeyHint),
        runServed server (fun _ => none) reply_hint plan = (.ok reply_hint,
          ⟨server.insertAll server.empty (storedElements vs),planRequests plan reply_hint⟩)

theorem smartPlan_unordered (type : UnorderedType) (vs : Option (List ValuePtr)) (ttl : Int64) :
    smartPlan lib client max_rpc_size key hint clientId addresses (type.create vs ttl) =
      (createUnorderedContainerSmart lib client max_rpc_size key hint clientId ttl type vs).map
        .create := by
  cases type <;> rfl

theorem values_of_noNull (vs : List ValuePtr) (h : ∀ v ∈ vs, v ≠ none) :
    ∃ values : List Value, vs = values.map some := by
  induction vs with
  | nil => exact ⟨[],rfl⟩
  | cons v vs ih =>
    obtain ⟨value,rfl⟩ := Option.ne_none_iff_exists'.mp (h v List.mem_cons_self)
    obtain ⟨values,rfl⟩ := ih (fun w hw => h w (List.mem_cons_of_mem _ hw))
    exact ⟨value::values,rfl⟩

theorem unordered_stored (type : UnorderedType) (vs : Option (List ValuePtr)) (ttl : Int64)
    (h : ∀ v ∈ vs.getD [], v ≠ none) :
    ∃ plan, createUnorderedContainerSmart lib client max_rpc_size key hint clientId ttl type vs =
        .ok plan ∧
      ∀ (C : Type) (server : ContainerServer C) (reply_hint : KeyHint),
        runServed server (fun _ => none) reply_hint plan = (.ok reply_hint,
          ⟨server.insertAll server.empty (storedElements vs),planRequests plan reply_hint⟩) := by
  obtain ⟨values,hvalues⟩ := values_of_noNull (vs.getD []) h
  obtain ⟨plan,hplan,hdelivers⟩ := unordered_delivers lib client max_rpc_size key hint clientId
    ttl type values
  refine ⟨plan,?_,fun C server reply_hint => ?_⟩
  · rw [← hplan, createUnorderedContainerSmart, createUnorderedContainerSmart, copyValues_eq,
      copyValues_eq, hvalues]
    rfl
  · have hstored : storedElements vs = values.map .value := by
      rw [storedElements, block, hvalues]
      exact congrArg (List.map Element.value) (block_some values)
    rw [hstored, ← delivered_all server plan reply_hint _ (hdelivers server reply_hint)]
    exact runServed_ok server _ reply_hint plan (fun _ _ => rfl)

/-- An inserting operation is safe with null elements exactly when it does not
come to look at one. -/
theorem null_safe_iff (hc : Compresses lib) (operation : Method)
    (hop : inserts operation = true) :
    NullSafe lib client max_rpc_size key hint clientId addresses now operation ↔
      NullsUnseen lib client max_rpc_size clientId operation := by
  have hguard := smartPlan_guarded lib client max_rpc_size key hint clientId hc addresses operation
  constructor
  · intro hsafe
    exact hguard.avoids_iff.mp hsafe.plans
  · intro hunseen
    refine ⟨hguard.avoids_iff.mpr hunseen,fun plan hplan reply_hint p hp => ?_,?_⟩
    · exact insertRequest_avoids lib hc client.compression_threshold now p.2.action
        (smartPlan_noNull lib client max_rpc_size key hint clientId hc addresses operation plan
          hplan reply_hint p hp)
    · rintro type vs ttl rfl
      have hvalues : ∀ v ∈ vs.getD [], v ≠ none := by
        cases type <;> exact hunseen
      obtain ⟨plan,hplan,hruns⟩ := unordered_stored lib client max_rpc_size key hint clientId type
        vs ttl hvalues
      refine ⟨plan,?_,hruns⟩
      rw [smartPlan_unordered, hplan]
      rfl

end Plans

theorem null_safe_iff_map :
    NullSafe memberLibdeflate {} 1 sampleKey none 7 givenOrder 0
        (.createMap (some [(some sampleKey,some (.int 1)),(some sampleKey,none)]) 0) ↔
      NullsUnseen memberLibdeflate {} 1 7
        (.createMap (some [(some sampleKey,some (.int 1)),(some sampleKey,none)]) 0) :=
  null_safe_iff memberLibdeflate {} 1 sampleKey none 7 givenOrder 0 memberLibdeflate_compresses
    (.createMap (some [(some sampleKey,some (.int 1)),(some sampleKey,none)]) 0) rfl

/-- A list with one null. A node's client creates the empty list. -/
theorem null_dereferenced :
    smartPlan memberLibdeflate {} 1000 sampleKey none 7 givenOrder (.createList (some [none]) 0) =
        .error .nullPointer ∧
      (buildContainerRequest memberLibdeflate sampleKey none 7 .LIST 0 0 (some [none]) 1024).map
        (·.value_unordered.length) = .ok 0 ∧
      ¬ NullSafe memberLibdeflate {} 1000 sampleKey none 7 givenOrder 0
        (.createList (some [none]) 0) := by
  have hfault : smartPlan memberLibdeflate {} 1000 sampleKey none 7 givenOrder
      (.createList (some [none]) 0) = .error .nullPointer := rfl
  exact ⟨hfault,rfl,fun h => h.plans hfault⟩

end HurriCache.NullSafety
