import HurriCache.StreamCall
import HurriCache.TopologyTable

/-!
# The topology stream

A coordinator answers with chunks of its routing information. The call object
keeps the first number of shards that is not zero and appends the peers. A
stream may end with OK before any chunk came; its topology is then the empty
one. What the coordinator has sent so far is kept beside the call object.
-/

set_option autoImplicit false

namespace HurriCache.CoordinatorStream
open HurriCache.ClientTypes HurriCache.CallOutcomes HurriCache.StreamCall
open HurriCache.TopologyTable

structure RoutingInfoData where
  max_shards : UInt32 := 0
  peerRouting : List PeerRouting := []

structure PeerInfo where
  target : Text
  role : NodeRole
  partition_ids : List UInt32

structure CoordinatorRoutingInfo where
  max_shards : Int32 := 0
  peer_routings : List PeerInfo := []

def peerInfo (peer : PeerRouting) : PeerInfo :=
  ⟨peer.target,peer.role,peer.partitionIds⟩

/-- The message that `refreshRouting` builds again from its copy. -/
def peerMessage (info : PeerInfo) : PeerRouting :=
  ⟨info.target,info.role,info.partition_ids⟩

structure RoutingStreamCallData where
  promise : List (Outcome CoordinatorRoutingInfo) := []
  status : Status := Status.initial
  reader : Option Operation := none
  current_chunk : RoutingInfoData := {}
  accumulated_result : Option CoordinatorRoutingInfo := none
  state : State := .STARTED
  deleted : Bool := false

/-- A zero counts as not yet known. -/
def accumulate (result : CoordinatorRoutingInfo) (chunk : RoutingInfoData) :
    CoordinatorRoutingInfo where
  max_shards := if result.max_shards = 0 then chunk.max_shards.toInt32 else result.max_shards
  peer_routings := result.peer_routings++chunk.peerRouting.map peerInfo

def proceed (ok : Bool) (call : RoutingStreamCallData) : RoutingStreamCallData :=
  match call.state with
  | .STARTED =>
    if ok then { call with state := .READING, reader := some .Read }
    else { call with state := .FINISHING, reader := some .Finish }
  | .READING =>
    if ok then { call with
      accumulated_result :=
        some (accumulate (call.accumulated_result.getD {}) call.current_chunk)
      reader := some .Read }
    else { call with state := .FINISHING, reader := some .Finish }
  | .FINISHING =>
    if call.status.ok then
      let result := call.accumulated_result.getD {}
      { call with
        accumulated_result := some result
        promise := call.promise++[.ok result]
        deleted := true }
    else { call with
      promise := call.promise++[.error (.grpc call.status.error_code call.status.error_message [])]
      deleted := true }

def completion (call : RoutingStreamCallData) (event : Event RoutingInfoData) :
    Option RoutingStreamCallData :=
  let idle := { call with reader := none }
  match call.reader, event with
  | some .StartCall, .started ok => some (proceed ok idle)
  | some .Read, .read (some chunk) => some (proceed true { idle with current_chunk := chunk })
  | some .Read, .read none => some (proceed false idle)
  | some .Finish, .finished status _ => some (proceed true { idle with status := status })
  | _, _ => none

def provideGlobalRoutingInfo (shutdown : Bool) : Except CallException RoutingStreamCallData :=
  if shutdown then .error (.other "CoordinatorClient is shut down".toList)
  else .ok { reader := some .StartCall }

structure TopologyStream where
  call : RoutingStreamCallData
  sent : List RoutingInfoData := []

def TopologyStream.receive (stream : TopologyStream) (event : Event RoutingInfoData) :
    Option TopologyStream :=
  (completion stream.call event).map (fun call => ⟨call,stream.sent++batches [event]⟩)

def topologyOf (chunks : List RoutingInfoData) : CoordinatorRoutingInfo :=
  chunks.foldl accumulate {}

theorem toInt32_ne_zero (n : UInt32) : n.toInt32 ≠ 0 ↔ n ≠ 0 := by
  constructor
  · intro h h0
    exact h (by rw [h0]; rfl)
  · intro h h0
    have hu : n.toInt32.toUInt32 = 0 := by rw [h0]; rfl
    exact h (by simpa using hu)

theorem foldl_max_shards_ne_zero (chunks : List RoutingInfoData)
    (result : CoordinatorRoutingInfo) :
    (chunks.foldl accumulate result).max_shards ≠ 0 ↔
      result.max_shards ≠ 0 ∨ ∃ c ∈ chunks, c.max_shards ≠ 0 := by
  induction chunks generalizing result with
  | nil => simp
  | cons chunk chunks ih =>
    rw [List.foldl_cons, ih]
    by_cases h : result.max_shards = 0
    · simp [accumulate, h, toInt32_ne_zero]
    · simp [accumulate, h]

theorem topologyOf_max_shards_ne_zero (chunks : List RoutingInfoData) :
    (topologyOf chunks).max_shards ≠ 0 ↔ ∃ c ∈ chunks, c.max_shards ≠ 0 := by
  rw [topologyOf, foldl_max_shards_ne_zero]
  simp

def operationOf : State → Operation
  | .STARTED => .StartCall
  | .READING => .Read
  | .FINISHING => .Finish

theorem operationOf_injective : Function.Injective operationOf := by
  intro a b h
  cases a <;> cases b <;> first | rfl | cases h

structure Assembling (stream : TopologyStream) : Prop where
  accumulated : stream.call.accumulated_result.getD {} = topologyOf stream.sent
  matched : ∀ op, stream.call.reader = some op → op = operationOf stream.call.state

theorem started_assembling (call : RoutingStreamCallData)
    (h : provideGlobalRoutingInfo false = .ok call) : Assembling ⟨call,[]⟩ := by
  cases h
  exact ⟨rfl,fun op ho => (Option.some.inj ho).symm⟩

theorem topologyOf_append (chunks : List RoutingInfoData) (chunk : RoutingInfoData) :
    topologyOf (chunks++[chunk]) = accumulate (topologyOf chunks) chunk := by
  simp [topologyOf]

theorem receive_cases (s t : TopologyStream) (event : Event RoutingInfoData)
    (hs : Assembling s) (h : s.receive event = some t) :
    (t.sent = s.sent ∧ t.call.accumulated_result = s.call.accumulated_result ∧
        t.call.promise = s.call.promise ∧
        ∀ op, t.call.reader = some op → op = operationOf t.call.state) ∨
      (∃ chunk, t = ⟨{ s.call with
          current_chunk := chunk
          accumulated_result :=
            some (accumulate (s.call.accumulated_result.getD {}) chunk)
          reader := some .Read },s.sent++[chunk]⟩ ∧ s.call.state = .READING) ∨
      ∃ status trailers, event = .finished status trailers ∧ t.sent = s.sent ∧
        t.call.reader = none ∧
        if status.ok then
          t.call.accumulated_result = some (s.call.accumulated_result.getD {}) ∧
            t.call.promise = s.call.promise++[.ok (s.call.accumulated_result.getD {})]
        else t.call.accumulated_result = s.call.accumulated_result ∧
          t.call.promise = s.call.promise++[.error (.grpc status.error_code
            status.error_message [])] := by
  obtain ⟨call,hcall,rfl⟩ := Option.map_eq_some_iff.mp h
  unfold completion at hcall
  split at hcall
  next ok hr =>
    have hstate : s.call.state = .STARTED := operationOf_injective (hs.matched _ hr).symm
    cases hcall
    left
    cases ok <;> simp [proceed, hstate, operationOf]
  next chunk hr =>
    have hstate : s.call.state = .READING := operationOf_injective (hs.matched _ hr).symm
    cases hcall
    right
    left
    exact ⟨chunk,by simp [proceed, hstate],hstate⟩
  next hr =>
    have hstate : s.call.state = .READING := operationOf_injective (hs.matched _ hr).symm
    cases hcall
    left
    simp [proceed, hstate, operationOf]
  next status trailers hr =>
    have hstate : s.call.state = .FINISHING := operationOf_injective (hs.matched _ hr).symm
    cases hcall
    right
    right
    refine ⟨status,trailers,rfl,by simp,?_,?_⟩
    · cases hok : status.ok <;> simp [proceed, hstate, hok]
    · cases hok : status.ok <;> simp [proceed, hstate, hok]
  next => cases hcall

theorem receive_assembling (s t : TopologyStream) (event : Event RoutingInfoData)
    (hs : Assembling s) (h : s.receive event = some t) : Assembling t := by
  rcases receive_cases s t event hs h with
    ⟨hsent,hacc,_,hm⟩ | ⟨chunk,rfl,hstate⟩ | ⟨status,trailers,_,hsent,hreader,hrest⟩
  · exact ⟨by rw [hacc, hsent, hs.accumulated],hm⟩
  · refine ⟨?_,?_⟩
    · simp [hs.accumulated, topologyOf_append]
    · intro op ho
      cases ho
      simp [operationOf, hstate]
  · refine ⟨?_,?_⟩
    · cases hok : status.ok with
      | true =>
        rw [hok, if_pos rfl] at hrest
        simp [hrest.1, hsent, hs.accumulated]
      | false =>
        rw [hok, if_neg (by simp)] at hrest
        rw [hrest.1, hsent, hs.accumulated]
    · intro op ho
      rw [hreader] at ho
      cases ho

/-- A topology reaches the future only with an OK status at the end, and it
is then the topology of all the chunks sent. -/
theorem receive_promise (s t : TopologyStream) (event : Event RoutingInfoData)
    (hs : Assembling s) (h : s.receive event = some t) (info : CoordinatorRoutingInfo)
    (hinfo : .ok info ∈ t.call.promise) :
    .ok info ∈ s.call.promise ∨ ∃ status trailers, event = .finished status trailers ∧
      status.ok = true ∧ info = topologyOf s.sent := by
  rcases receive_cases s t event hs h with
    ⟨_,_,hp,_⟩ | ⟨chunk,rfl,_⟩ | ⟨status,trailers,he,_,_,hrest⟩
  · exact Or.inl (hp ▸ hinfo)
  · exact Or.inl hinfo
  · cases hok : status.ok with
    | true =>
      rw [hok, if_pos rfl] at hrest
      rw [hrest.2, List.mem_append] at hinfo
      cases hinfo with
      | inl hold => exact Or.inl hold
      | inr hnew =>
        have hi := Except.ok.inj (List.mem_singleton.mp hnew)
        exact Or.inr ⟨status,trailers,he,hok,by rw [hi, hs.accumulated]⟩
    | false =>
      rw [hok, if_neg (by simp)] at hrest
      rw [hrest.2, List.mem_append] at hinfo
      cases hinfo with
      | inl hold => exact Or.inl hold
      | inr hnew => cases List.mem_singleton.mp hnew

end HurriCache.CoordinatorStream
