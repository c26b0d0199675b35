import HurriCache.CoordinatorStream
import HurriCache.PartialRun

/-!
# What a topology stream delivers

The future of a topology call is completed by the final status and by nothing
else. An `OK` status delivers the topology of all the chunks that were read:
their peers one after the other, and the first number of shards that is not
zero in the 32 bits it came in. Where the peers were cut into chunks does not
show. Any other status is delivered in place of what was read before it.
-/

set_option autoImplicit false

namespace HurriCache.TopologyAssembly
open HurriCache.ClientTypes HurriCache.CallOutcomes HurriCache.PartialRun
open HurriCache.StreamCall hiding completion proceed
open HurriCache.TopologyTable HurriCache.CoordinatorStream

section Events

variable {Chunk : Type}

def finals (events : List (Event Chunk)) : List Status :=
  events.filterMap (fun event =>
    match event with
    | .finished status _ => some status
    | _ => none)

@[simp] theorem finals_append (es fs : List (Event Chunk)) :
    finals (es++fs) = finals es++finals fs := by
  simp [finals]

@[simp] theorem finals_nil : finals ([] : List (Event Chunk)) = [] := rfl

@[simp] theorem finals_started (ok : Bool) : finals [(.started ok : Event Chunk)] = [] := rfl

@[simp] theorem finals_read (chunk : Option Chunk) :
    finals [(.read chunk : Event Chunk)] = [] := rfl

@[simp] theorem finals_finished (status : Status) (trailers : List (Text × Text)) :
    finals [(.finished status trailers : Event Chunk)] = [status] := rfl

end Events

section Topology

def firstShards (chunks : List RoutingInfoData) : UInt32 :=
  ((chunks.map RoutingInfoData.max_shards).find? (· ≠ 0)).getD 0

theorem firstShards_cons (chunk : RoutingInfoData) (chunks : List RoutingInfoData) :
    firstShards (chunk::chunks) =
      if chunk.max_shards = 0 then firstShards chunks else chunk.max_shards := by
  by_cases h : chunk.max_shards = 0 <;> simp [firstShards, h]

theorem foldl_accumulate_peers (chunks : List RoutingInfoData) (result : CoordinatorRoutingInfo) :
    (chunks.foldl accumulate result).peer_routings =
      result.peer_routings++(chunks.flatMap (·.peerRouting)).map peerInfo := by
  induction chunks generalizing result with
  | nil => simp
  | cons chunk chunks ih =>
    rw [List.foldl_cons, ih, List.flatMap_cons, List.map_append, ← List.append_assoc]
    rfl

theorem foldl_accumulate_shards (chunks : List RoutingInfoData) (result : CoordinatorRoutingInfo) :
    (chunks.foldl accumulate result).max_shards =
      if result.max_shards = 0 then (firstShards chunks).toInt32 else result.max_shards := by
  induction chunks generalizing result with
  | nil =>
    by_cases h : result.max_shards = 0
    · rw [if_pos h]
      exact h
    · rw [if_neg h]
      rfl
  | cons chunk chunks ih =>
    rw [List.foldl_cons, ih, firstShards_cons]
    by_cases h : result.max_shards = 0
    · have hstep : (accumulate result chunk).max_shards = chunk.max_shards.toInt32 := if_pos h
      rw [hstep, if_pos h]
      by_cases hc : chunk.max_shards = 0
      · rw [if_pos (by rw [hc]; rfl), if_pos hc]
      · rw [if_neg ((toInt32_ne_zero chunk.max_shards).mpr hc), if_neg hc]
    · have hstep : (accumulate result chunk).max_shards = result.max_shards := if_neg h
      rw [hstep, if_neg h, if_neg h]

theorem topologyOf_eq (chunks : List RoutingInfoData) :
    topologyOf chunks =
      ⟨(firstShards chunks).toInt32,(chunks.flatMap (·.peerRouting)).map peerInfo⟩ := by
  have hpeers := foldl_accumulate_peers chunks {}
  have hshards := foldl_accumulate_shards chunks {}
  rw [if_pos rfl] at hshards
  rw [List.nil_append] at hpeers
  rw [topologyOf, ← hshards, ← hpeers]

/-- The message that the table is given has the peers as they were sent. -/
theorem peerMessage_peerInfo (peers : List PeerRouting) :
    (peers.map peerInfo).map peerMessage = peers := by
  rw [List.map_map]
  exact List.map_id peers

end Topology

section Delivery

def delivery (chunks : List RoutingInfoData) (status : Status) : Outcome CoordinatorRoutingInfo :=
  if status.ok then .ok (topologyOf chunks)
  else .error (.grpc status.error_code status.error_message [])

structure Standing (events : List (Event RoutingInfoData)) (call : RoutingStreamCallData) :
    Prop where
  assembling : Assembling ⟨call,batches events⟩
  promise : call.promise = (finals events).map (delivery (batches events))
  waiting : call.reader ≠ none → finals events = [] ∧ call.deleted = false
  ended : call.reader = none → (finals events).length = 1 ∧ call.deleted = true

theorem standing_onwards (events : List (Event RoutingInfoData))
    (call next : RoutingStreamCallData) (event : Event RoutingInfoData)
    (hs : Standing events call) (hassembling : Assembling ⟨next,batches (events++[event])⟩)
    (hr : call.reader ≠ none) (hevent : finals [event] = [])
    (hpromise : next.promise = call.promise) (hdeleted : next.deleted = call.deleted)
    (hreader : next.reader ≠ none) : Standing (events++[event]) next := by
  obtain ⟨hnone,hopen⟩ := hs.waiting hr
  have hfinals : finals (events++[event]) = [] := by rw [finals_append, hnone, hevent]; rfl
  refine ⟨hassembling,?_,fun _ => ⟨hfinals,hdeleted.trans hopen⟩,fun h => absurd h hreader⟩
  rw [hpromise, hs.promise, hnone, hfinals]
  rfl

theorem standing_finished (events : List (Event RoutingInfoData))
    (call next : RoutingStreamCallData) (status : Status) (trailers : List (Text × Text))
    (hs : Standing events call)
    (hassembling : Assembling ⟨next,batches (events++[.finished status trailers])⟩)
    (hr : call.reader ≠ none)
    (hpromise : next.promise = call.promise++[delivery (batches events) status])
    (hdeleted : next.deleted = true) (hreader : next.reader = none) :
    Standing (events++[.finished status trailers]) next := by
  obtain ⟨hnone,_⟩ := hs.waiting hr
  have hfinals : finals (events++[.finished status trailers]) = [status] := by
    rw [finals_append, hnone, finals_finished]
    rfl
  have hbatches : batches (events++[.finished status trailers]) = batches events := by
    rw [batches_append]
    exact List.append_nil _
  refine ⟨hassembling,?_,fun h => absurd hreader h,fun _ => ⟨by rw [hfinals]; rfl,hdeleted⟩⟩
  rw [hpromise, hs.promise, hnone, hfinals, hbatches]
  rfl

theorem standing_step (events : List (Event RoutingInfoData)) (call next : RoutingStreamCallData)
    (event : Event RoutingInfoData) (hs : Standing events call)
    (h : completion call event = some next) : Standing (events++[event]) next := by
  have hassembling : Assembling ⟨next,batches (events++[event])⟩ := by
    refine receive_assembling ⟨call,batches events⟩ _ event hs.assembling ?_
    rw [TopologyStream.receive, h, batches_append]
    rfl
  have hstate := fun op (hr : call.reader = some op) => (hs.assembling.matched op hr).symm
  have hwaiting := fun op (hr : call.reader = some op) =>
    show call.reader ≠ none by rw [hr]; exact Option.some_ne_none op
  unfold completion at h
  split at h
  next ok hr =>
    have hstarted : call.state = .STARTED := operationOf_injective (hstate _ hr)
    cases h
    refine standing_onwards events call _ _ hs hassembling (hwaiting _ hr) rfl ?_ ?_ ?_
    all_goals cases ok <;> simp [proceed, hstarted]
  next chunk hr =>
    have hreading : call.state = .READING := operationOf_injective (hstate _ hr)
    cases h
    refine standing_onwards events call _ _ hs hassembling (hwaiting _ hr) rfl ?_ ?_ ?_
    all_goals simp [proceed, hreading]
  next hr =>
    have hreading : call.state = .READING := operationOf_injective (hstate _ hr)
    cases h
    refine standing_onwards events call _ _ hs hassembling (hwaiting _ hr) rfl ?_ ?_ ?_
    all_goals simp [proceed, hreading]
  next status trailers hr =>
    have hfinishing : call.state = .FINISHING := operationOf_injective (hstate _ hr)
    have hresult : call.accumulated_result.getD {} = topologyOf (batches events) :=
      hs.assembling.accumulated
    cases h
    refine standing_finished events call _ status trailers hs hassembling (hwaiting _ hr) ?_ ?_ ?_
    all_goals cases hok : status.ok <;> simp [proceed, hfinishing, hok, delivery, hresult]
  next => cases h

theorem standing_run (events : List (Event RoutingInfoData)) (call last : RoutingStreamCallData)
    (hstart : provideGlobalRoutingInfo false = .ok call)
    (hrun : run completion call events = some last) : Standing events last := by
  refine history_invariant completion (fun _ => True) Standing
    (fun es s event t _ hs h => standing_step es s t event hs h) call last events
    (fun _ _ => trivial) ?_ hrun
  have hassembling := started_assembling call hstart
  cases hstart
  exact ⟨hassembling,rfl,fun _ => ⟨rfl,rfl⟩,fun h => by cases h⟩

/-- Nothing is delivered before the final status and nothing behind it, and
what is delivered is told by the status and the chunks read, however the peers
were cut into them. -/
theorem topology_assembled (events : List (Event RoutingInfoData))
    (call last : RoutingStreamCallData) (hstart : provideGlobalRoutingInfo false = .ok call)
    (hrun : run completion call events = some last) :
    (finals events).length ≤ 1 ∧ (last.deleted = true ↔ (finals events).length = 1) ∧
      (last.deleted = false → last.reader ≠ none) ∧
      last.promise = (finals events).map (fun status =>
        if status.ok then
          .ok ⟨(firstShards (batches events)).toInt32,
            ((batches events).flatMap (·.peerRouting)).map peerInfo⟩
        else .error (.grpc status.error_code status.error_message [])) ∧
      (topologyOf (batches events)).peer_routings.map peerMessage =
        (batches events).flatMap (·.peerRouting) ∧
      ∀ chunks, firstShards chunks = firstShards (batches events) →
        chunks.flatMap (·.peerRouting) = (batches events).flatMap (·.peerRouting) →
        topologyOf chunks = topologyOf (batches events) := by
  have hs := standing_run events call last hstart hrun
  have hlength : (finals events).length ≤ 1 ∧
      (last.deleted = true ↔ (finals events).length = 1) ∧
      (last.deleted = false → last.reader ≠ none) := by
    by_cases hr : last.reader = none
    · obtain ⟨hone,hdeleted⟩ := hs.ended hr
      simp [hone, hdeleted]
    · obtain ⟨hnone,hopen⟩ := hs.waiting hr
      simp [hnone, hopen, hr]
  refine ⟨hlength.1,hlength.2.1,hlength.2.2,?_,?_,fun chunks hshards hpeers => ?_⟩
  · rw [hs.promise, ← topologyOf_eq]
    rfl
  · rw [topologyOf_eq]
    exact peerMessage_peerInfo _
  · rw [topologyOf_eq, topologyOf_eq, hshards, hpeers]

def twoChunks : List (Event RoutingInfoData) :=
  [.started true,.read (some { peerRouting := [⟨['a'],.MASTER,[0]⟩] }),
    .read (some { max_shards := 8, peerRouting := [⟨['b'],.BACKUP,[0]⟩] }),.read none,
    .finished Status.initial []]

theorem topology_assembled_two :
    ∃ call last, provideGlobalRoutingInfo false = .ok call ∧
      run completion call twoChunks = some last ∧ last.deleted = true ∧
      (last.promise = (finals twoChunks).map (fun status =>
        if status.ok then
          .ok ⟨(firstShards (batches twoChunks)).toInt32,
            ((batches twoChunks).flatMap (·.peerRouting)).map peerInfo⟩
        else .error (.grpc status.error_code status.error_message []))) :=
  ⟨_,_,rfl,rfl,rfl,(topology_assembled twoChunks _ _ rfl rfl).2.2.2.1⟩

end Delivery

end HurriCache.TopologyAssembly
