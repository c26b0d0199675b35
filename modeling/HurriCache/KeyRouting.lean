import HurriCache.ChunkedCreation
import HurriCache.PlanShapes
import HurriCache.ShardSelection
import HurriCache.StoredGzip

/-!
# Key, shard and wire hint

The hint of a call is resolved once. `execute` routes by it and the request
builders put it on the wire, computing it again only where it is missing.
For a non-empty key both uses see the hash pair of the raw bytes, whatever
the operation, the threshold and the counter. An empty key has no hint: its
calls are spread by the counter.
-/

set_option autoImplicit false

namespace HurriCache.KeyRouting
open HurriCache.ClientTypes HurriCache.KeyHashes HurriCache.PayloadCompression
open HurriCache.WireMessages HurriCache.MessageBuilders HurriCache.StandaloneCalls
open HurriCache.ChunkSplitters HurriCache.SmartOperations HurriCache.ChunkedCreation
open HurriCache.PlanShapes HurriCache.ShardSelection HurriCache.StoredGzip

structure GetRequest where
  key : KeyMessage

structure ContainerGetRequest where
  key : KeyMessage
  element_key : KeyMessage

structure KeyPositionRequest where
  key : KeyMessage
  pos : UInt64

section Requests

variable (lib : Libdeflate) (key : Key) (hint : Option KeyHint) (clientId : Int32)

def buildGetRequestProto (threshold : Int32) : Except Fault GetRequest := do
  .ok ⟨← buildKeyProto lib key (effectiveHint key hint) clientId threshold⟩

/-- The element key goes out uncompressed and without a hint. -/
def buildContainerGetRequestProto (elementKey : Key) : Except Fault ContainerGetRequest := do
  .ok ⟨← buildKeyProto lib key (effectiveHint key hint) clientId defaultThreshold,
    { payload := some { payload := elementKey.data, size := elementKey.size } }⟩

def buildPositionRequestProto (pos : UInt64) : Except Fault KeyPositionRequest := do
  .ok ⟨← buildKeyProto lib key (effectiveHint key hint) clientId defaultThreshold,pos⟩

end Requests

/-- The key field of the request that a method of a node's client sends, if it
sends one. The client's own threshold reaches only some of the builders. -/
def requestKey (lib : Libdeflate) (defaultCompressionThreshold : Int32) (call : StandaloneCall) :
    Except Fault (Option KeyMessage) :=
  let get := (buildGetRequestProto lib call.key call.hint call.clientId
    defaultCompressionThreshold).map (fun r => some r.key)
  let position (pos : UInt64) := (buildPositionRequestProto lib call.key call.hint call.clientId
    pos).map (fun r => some r.key)
  let containerGet (elementKey : Key) := (buildContainerGetRequestProto lib call.key call.hint
    call.clientId elementKey).map (fun r => some r.key)
  let container := (buildKeyProto lib call.key (effectiveHint call.key call.hint) call.clientId
    defaultCompressionThreshold).map some
  let plain := (buildKeyProto lib call.key call.hint call.clientId defaultThreshold).map some
  let sizesChecked (refused : Bool) := plain.map (fun m => if refused then none else m)
  match call.method with
  | .getTtl | .getAndDeleteValue | .getValue | .existKey | .remove | .getSize | .getHead
  | .getTail | .getAndRemoveFront | .getAndRemoveTail | .streamList | .streamVector | .streamSet
  | .streamMap | .streamOrderedSet | .streamOrderedMap | .removeHead | .removeTail => get
  | .createQueue _ _ | .createList _ _ | .createVector _ _ | .createSet _ _
  | .createOrderedSet _ _ => container
  | .getElementAtPosition pos | .getElementWithWeight pos
  | .getAndRemoveElementAtPosition pos | .getAndRemoveElementWithWeight pos => position pos
  | .getContainerValue elementKey | .getAndRemoveContainerValue elementKey
  | .containsContainerKey elementKey | .removeFromContainerByKey elementKey =>
    containerGet elementKey
  | .addElementToPositionBefore _ pivot | .addElementToPositionAfter _ pivot =>
    if pivot.isNone then .ok none else plain
  | .addElementHashMap container_keys container_values =>
    sizesChecked (container_keys.isNone || container_values.isNone ||
      container_keys.map List.length != container_values.map List.length)
  | .addElementOrderedMap container_keys container_values =>
    sizesChecked (container_keys.isNone || container_values.isNone ||
      container_keys.map List.length != container_values.map List.length)
  | _ => plain

section WireHint

variable (lib : Libdeflate)

theorem effectiveHint_idem (key : Key) (hint : Option KeyHint) :
    effectiveHint key (effectiveHint key hint) = effectiveHint key hint := by
  cases hint with
  | some h => rfl
  | none =>
    show effectiveHint key (calculateKeyHint key) = calculateKeyHint key
    cases hk : calculateKeyHint key with
    | some h => rfl
    | none => exact hk

theorem buildKeyProto_keyHint (key : Key) (hint : Option KeyHint) (clientId threshold : Int32)
    (m : KeyMessage) (h : buildKeyProto lib key hint clientId threshold = .ok m) :
    m.keyHint = (effectiveHint key hint).map hintMessage := by
  simp only [buildKeyProto] at h
  split at h
  · split at h
    · cases h
    · cases h
      rfl
  · cases h
    rfl

def CarriesHint (call : StandaloneCall) (sent : Except Fault (Option KeyMessage)) : Prop :=
  ∀ m, sent = .ok (some m) → m.keyHint = (effectiveHint call.key call.hint).map hintMessage

theorem plain_carries (call : StandaloneCall) (threshold : Int32) :
    CarriesHint call
      ((buildKeyProto lib call.key call.hint call.clientId threshold).map some) := by
  intro m h
  obtain ⟨k,hk,hm⟩ := map_eq_ok h
  rw [← Option.some.inj hm]
  exact buildKeyProto_keyHint lib _ _ _ _ k hk

theorem effective_carries (call : StandaloneCall) (threshold : Int32) (m : KeyMessage)
    (h : buildKeyProto lib call.key (effectiveHint call.key call.hint) call.clientId threshold =
      .ok m) :
    m.keyHint = (effectiveHint call.key call.hint).map hintMessage := by
  rw [buildKeyProto_keyHint lib _ _ _ _ m h, effectiveHint_idem]

theorem container_carries (call : StandaloneCall) (threshold : Int32) :
    CarriesHint call ((buildKeyProto lib call.key (effectiveHint call.key call.hint)
      call.clientId threshold).map some) := by
  intro m h
  obtain ⟨k,hk,hm⟩ := map_eq_ok h
  rw [← Option.some.inj hm]
  exact effective_carries lib call threshold k hk

theorem built_carries {R : Type} (call : StandaloneCall) (threshold : Int32)
    (build : KeyMessage → R) (keyOf : R → KeyMessage) (hkey : ∀ m, keyOf (build m) = m) :
    CarriesHint call ((buildKeyProto lib call.key (effectiveHint call.key call.hint)
      call.clientId threshold >>= fun m => .ok (build m)).map (fun r => some (keyOf r))) := by
  intro m h
  obtain ⟨r,hr,hm⟩ := map_eq_ok h
  obtain ⟨k,hk,hb⟩ := bind_eq_ok hr
  rw [← Except.ok.inj hb, hkey] at hm
  rw [← Option.some.inj hm]
  exact effective_carries lib call threshold k hk

theorem get_carries (call : StandaloneCall) (threshold : Int32) :
    CarriesHint call ((buildGetRequestProto lib call.key call.hint call.clientId threshold).map
      (fun r => some r.key)) :=
  built_carries lib call threshold GetRequest.mk GetRequest.key (fun _ => rfl)

theorem containerGet_carries (call : StandaloneCall) (elementKey : Key) :
    CarriesHint call ((buildContainerGetRequestProto lib call.key call.hint call.clientId
      elementKey).map (fun r => some r.key)) :=
  built_carries lib call defaultThreshold (fun m => ContainerGetRequest.mk m _)
    ContainerGetRequest.key (fun _ => rfl)

theorem position_carries (call : StandaloneCall) (pos : UInt64) :
    CarriesHint call ((buildPositionRequestProto lib call.key call.hint call.clientId pos).map
      (fun r => some r.key)) :=
  built_carries lib call defaultThreshold (fun m => KeyPositionRequest.mk m pos)
    KeyPositionRequest.key (fun _ => rfl)

theorem refusable_carries (call : StandaloneCall) (sent : Except Fault (Option KeyMessage))
    (refused : Bool) (h : CarriesHint call sent) :
    CarriesHint call (sent.map (fun m => if refused then none else m)) := by
  intro m hm
  obtain ⟨k,hk,he⟩ := map_eq_ok hm
  cases refused with
  | true => cases he
  | false =>
    have hs : k = some m := he
    exact h m (by rw [hk, hs])

theorem requestKey_carries (threshold : Int32) (call : StandaloneCall) :
    CarriesHint call (requestKey lib threshold call) := by
  have hplain := plain_carries lib call defaultThreshold
  have hrefuse := fun b => refusable_carries call _ b hplain
  have hpivot : ∀ b : Bool, CarriesHint call (if b then .ok none else
      (buildKeyProto lib call.key call.hint call.clientId defaultThreshold).map some) := by
    intro b m h
    cases b with
    | true => cases h
    | false => exact hplain m h
  unfold requestKey
  split <;> first
    | exact get_carries lib call threshold
    | exact container_carries lib call threshold
    | exact position_carries lib call _
    | exact containerGet_carries lib call _
    | exact hpivot _
    | exact hrefuse _
    | exact hplain

end WireHint

section Plans

variable (lib : Libdeflate) (client : SmartClient) (max_rpc_size : Int64)
  (key : Key) (hint : Option KeyHint) (clientId : Int32)

structure RoutedBy (hint : Option KeyHint) (request : Dispatch) : Prop where
  routed : request.hint = hint
  sent : request.action.hint = hint
  key : request.action.key = key

theorem dispatch_routed (method : Method) :
    RoutedBy key (resolveHint key hint) (dispatch client key hint clientId method) :=
  ⟨rfl,rfl,rfl⟩

/-- The requests of an operation. The remainder of a creation is the one for a
reply that repeats the hint of the create request. -/
def echoedRequests : Plan → List Dispatch
  | .forward call => [call]
  | .add (.immediate _) => []
  | .add (.pipeline calls) => calls
  | .create plan =>
    match plan.create_future.hint with
    | none => [plan.create_future]
    | some h => planRequests plan h

def PlanRouted (plan : Plan) : Prop :=
  ∀ r ∈ echoedRequests plan, RoutedBy key (resolveHint key hint) r

theorem added_routed {A C : Type} (shape : ChunkShape A C) (size : A → Except Fault UInt64)
    (data : List A) (calls : List C → List Method) (plan : AddPlan)
    (h : Added lib client max_rpc_size key hint clientId shape size data calls plan) :
    PlanRouted key hint (.add plan) := by
  intro r hr
  cases h with
  | nothing => cases hr
  | chunked base chunks hbase hchunks =>
    obtain ⟨m,_,rfl⟩ := List.mem_map.mp hr
    exact dispatch_routed client key hint clientId m

theorem forward_routed (method : Method) :
    PlanRouted key hint (.forward (dispatch client key hint clientId method)) := by
  intro r hr
  rw [List.mem_singleton.mp hr]
  exact dispatch_routed client key hint clientId method

theorem create_routed (method : Method) (rest : Option (List Method)) :
    PlanRouted key hint (.create ⟨dispatch client key hint clientId method,
      rest.map (fun methods => remainderCalls client key clientId methods)⟩) := by
  intro r hr
  have hcreate := dispatch_routed client key hint clientId method
  simp only [echoedRequests] at hr
  split at hr
  next => exact List.mem_singleton.mp hr ▸ hcreate
  next h hh =>
    cases List.mem_cons.mp hr with
    | inl he => exact he ▸ hcreate
    | inr hrest =>
      cases rest with
      | none => cases hrest
      | some methods =>
        obtain ⟨m,_,rfl⟩ := List.mem_map.mp hrest
        have hres : resolveHint key hint = some h := hh
        rw [hres]
        exact ⟨rfl,rfl,rfl⟩

theorem smartPlan_routed (addresses : AddressOrder) (operation : Method) (plan : Plan)
    (h : smartPlan lib client max_rpc_size key hint clientId addresses operation = .ok plan) :
    PlanRouted key hint plan := by
  cases smartPlan_planned lib client max_rpc_size key hint clientId addresses operation plan h with
  | forward method => exact forward_routed client key hint clientId method
  | add shape size data calls plan hadded =>
    exact added_routed lib client max_rpc_size key hint clientId shape size data calls plan hadded
  | create shape size rest first call plan hcreated =>
    cases hcreated with
    | whole => exact create_routed client key hint clientId first none
    | split chunks hne hchunks =>
      exact create_routed client key hint clientId first (some (chunks.map call))

end Plans

def keyHash (key : Key) : KeyHint := ⟨weekHash (some key.data),strongHash (some key.data)⟩

theorem request_of_key (lib : Libdeflate) (client : SmartClient) (max_rpc_size : Int64)
    (key : Key) (hkey : key.data ≠ []) (clientId : Int32) (addresses : AddressOrder)
    (operation : Method) (plan : Plan)
    (h : smartPlan lib client max_rpc_size key none clientId addresses operation = .ok plan)
    (r : Dispatch) (hr : r ∈ echoedRequests plan) :
    RoutedBy key (some (keyHash key)) r := by
  have hrouted := smartPlan_routed lib client max_rpc_size key none clientId addresses operation
    plan h r hr
  have hresolve : resolveHint key none = some (keyHash key) :=
    calculateKeyHint_of_nonempty key hkey
  rwa [hresolve] at hrouted

theorem wire_hint_of_routed (lib : Libdeflate) (threshold : Int32) (key : Key) (r : Dispatch)
    (hr : RoutedBy key (some (keyHash key)) r) (m : KeyMessage)
    (hm : requestKey lib threshold r.action = .ok (some m)) :
    m.keyHint = some (hintMessage (keyHash key)) := by
  have hc := requestKey_carries lib threshold r.action m hm
  rw [hr.sent] at hc
  exact hc

/-- A non-empty key decides the shard and the wire hint of every request for
it, and the shard is the weak hash on the wire modulo the number of shards. -/
theorem routing_follows_key (lib : Libdeflate) (client : SmartClient) (key : Key)
    (hkey : key.data ≠ []) (limit₁ limit₂ : Int64) (clientId₁ clientId₂ : Int32)
    (addresses₁ addresses₂ : AddressOrder) (operation₁ operation₂ : Method) (plan₁ plan₂ : Plan)
    (h₁ : smartPlan lib client limit₁ key none clientId₁ addresses₁ operation₁ = .ok plan₁)
    (h₂ : smartPlan lib client limit₂ key none clientId₂ addresses₂ operation₂ = .ok plan₂)
    (r₁ r₂ : Dispatch) (hr₁ : r₁ ∈ echoedRequests plan₁) (hr₂ : r₂ ∈ echoedRequests plan₂)
    (max_shards : Int32) (counter₁ counter₂ : UInt32) (threshold : Int32) :
    (selectShard r₁.hint max_shards counter₁).map Prod.fst =
        (selectShard r₂.hint max_shards counter₂).map Prod.fst ∧
      (∀ r ∈ [r₁,r₂], ∀ m, requestKey lib threshold r.action = .ok (some m) →
        m.keyHint = some ⟨some (weekHash (some key.data)),some (strongHash (some key.data))⟩) ∧
      (max_shards ≠ 0 → (selectShard r₁.hint max_shards counter₁).map Prod.fst =
        .ok (weekHash (some key.data) % max_shards.toUInt32).toInt32) := by
  have hroute₁ := request_of_key lib client limit₁ key hkey clientId₁ addresses₁ operation₁ plan₁
    h₁ r₁ hr₁
  have hroute₂ := request_of_key lib client limit₂ key hkey clientId₂ addresses₂ operation₂ plan₂
    h₂ r₂ hr₂
  refine ⟨?_,?_,?_⟩
  · rw [hroute₁.routed, hroute₂.routed]
    exact selectShard_hint (keyHash key) max_shards counter₁ counter₂
  · intro r hr m hm
    have hroute : RoutedBy key (some (keyHash key)) r := by
      cases List.mem_pair.mp hr with
      | inl he => exact he ▸ hroute₁
      | inr he => exact he ▸ hroute₂
    exact wire_hint_of_routed lib threshold key r hroute m hm
  · intro hmax
    rw [hroute₁.routed, selectShard, modShards_ok _ _ hmax]
    rfl

theorem routing_follows_key_sample :
    (selectShard (some (keyHash sampleKey)) 1024 0).map Prod.fst =
        (selectShard (some (keyHash sampleKey)) 1024 7).map Prod.fst ∧
      (∀ r ∈ [dispatch {} sampleKey none 0 (.createKeyValue (.int 1) 0),
          dispatch {} sampleKey none 5 .getValue],
        ∀ m, requestKey storedLibdeflate 1024 r.action = .ok (some m) → m.keyHint =
          some ⟨some (weekHash (some sampleKey.data)),some (strongHash (some sampleKey.data))⟩) ∧
      ((1024 : Int32) ≠ 0 → (selectShard (some (keyHash sampleKey)) 1024 0).map Prod.fst =
        .ok (weekHash (some sampleKey.data) % (1024 : Int32).toUInt32).toInt32) :=
  routing_follows_key storedLibdeflate {} sampleKey (List.cons_ne_nil _ _) 1 1 0 5 givenOrder
    givenOrder (.createKeyValue (.int 1) 0) .getValue
    (.forward (dispatch {} sampleKey none 0 (.createKeyValue (.int 1) 0)))
    (.forward (dispatch {} sampleKey none 5 .getValue)) rfl rfl _ _
    (List.mem_singleton_self _) (List.mem_singleton_self _) 1024 0 7 1024

def emptyKey : Key := ⟨[],by decide⟩

/-- The empty key goes by the counter and has no wire hint, and a remainder
request carries the hint of the create reply even when it holds none. -/
theorem empty_key_routed_by_counter :
    (∃ d, smartPlan storedLibdeflate {} 1 emptyKey none 0 givenOrder .existKey =
        .ok (.forward d) ∧
      (selectShard d.hint 1024 0).map Prod.fst ≠ (selectShard d.hint 1024 1).map Prod.fst ∧
      ∃ m, requestKey storedLibdeflate 1024 d.action = .ok (some m) ∧ m.keyHint = none) ∧
    ∃ plan, smartPlan storedLibdeflate {} 1 sampleKey none 0 givenOrder
        (.createList (some [some (.int 1)]) 0) = .ok (.create plan) ∧
      ∃ r ∈ planRequests plan ⟨0,0⟩, ∃ m,
        requestKey storedLibdeflate 1024 r.action = .ok (some m) ∧
        m.keyHint ≠ some (hintMessage (keyHash sampleKey)) := by
  refine ⟨⟨_,rfl,?_,_,rfl,rfl⟩,_,rfl,_,List.mem_cons_of_mem _ (List.mem_cons_self),_,rfl,?_⟩
  · decide +kernel
  · decide +kernel

end HurriCache.KeyRouting
