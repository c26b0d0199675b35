import HurriCache.ChunkedInsertion
import HurriCache.CreationPlans
import HurriCache.RequestDecoding

/-!
# Chunked operations over the wire

A node does what the requests say that it reads. Whatever the threshold, the
compressor and the clock of every call are, the requests of a creation that
is cut to the limit leave the container of one create request, and those of an
insertion into a list leave the list of one insertion.
-/

set_option autoImplicit false

namespace HurriCache.WireServer
open HurriCache.ClientTypes HurriCache.PayloadCompression HurriCache.StandaloneCalls
open HurriCache.SmartOperations HurriCache.CallPipelines HurriCache.BlockInsertion
open HurriCache.RequestSizes HurriCache.ListServer HurriCache.ElementServer
open HurriCache.ChunkedCreation HurriCache.ChunkedInsertion HurriCache.CreationPlans
open HurriCache.StoredGzip HurriCache.ChunkSplitters HurriCache.MessageBuilders
open HurriCache.RequestDecoding

inductive InsertRpc where
  | createContainer
  | addElement
  | addElementToTail
  | addElementToHead
  | addElementToPositionByValue

def rpcOf : Method → InsertRpc
  | .addElementToTail _ => .addElementToTail
  | .addElementToHead _ => .addElementToHead
  | .addElementToPositionBefore _ _ | .addElementToPositionAfter _ _ =>
    .addElementToPositionByValue
  | m => if isCreate m then .createContainer else .addElement

structure Wire where
  rpc : InsertRpc
  request : InsertRequest

section Arrival

variable (lib : Libdeflate)

/-- A call that was sent at some time, with sizes the wire can hold. -/
structure Sent (threshold : Int32) (call : StandaloneCall) (w : Wire) : Prop where
  rpc : w.rpc = rpcOf call.method
  built : ∃ now, insertRequest lib threshold now call = .ok (some w.request)
  key : (lib.gzipCompress call.key.data).length < 2^32
  short : ShortMethod lib call.method

variable {C : Type} (server : ContainerServer C)

def arriveElements (c : C) (w : Wire) : C :=
  match read lib w.request with
  | none => c
  | some reading =>
    match w.rpc, reading.pos with
    | .createContainer, _ => server.insertAll server.empty reading.elements
    | .addElement, none => server.insertAll c reading.elements
    | .addElementToTail, _ => server.insertAll c reading.elements
    | _, _ => c

def plainValue : Element → Option Value
  | .value v => some v
  | _ => none

def arriveList (c : List Value) (w : Wire) : List Value :=
  match read lib w.request with
  | none => c
  | some reading =>
    let values := reading.elements.filterMap plainValue
    match w.rpc, reading.pos, reading.pivot with
    | .addElementToTail, _, _ => c++values
    | .addElementToHead, _, _ => values++c
    | .addElement, some pos, _ => c.take pos.toNat++(values++c.drop pos.toNat)
    | .addElementToPositionByValue, _, some (true,pivot) => insertBefore pivot values c
    | .addElementToPositionByValue, _, some (false,pivot) => insertAfter pivot values c
    | _, _, _ => c

variable (hr : lib.RoundTrip)
include hr

theorem sent_read (threshold : Int32) (call : StandaloneCall) (w : Wire)
    (h : Sent lib threshold call w) : read lib w.request = some (said call) := by
  obtain ⟨now,hbuilt⟩ := h.built
  exact request_read lib hr threshold now call h.key h.short w.request hbuilt

theorem sent_elements (threshold : Int32) (call : StandaloneCall) (w : Wire)
    (h : Sent lib threshold call w) (c : C) :
    arriveElements lib server c w = server.apply call.method c := by
  rw [arriveElements, sent_read lib hr threshold call w h, h.rpc]
  obtain ⟨key,hint,cid,method⟩ := call
  cases method <;> rfl

omit hr in
theorem plain_values (vs : List Value) : (vs.map Element.value).filterMap plainValue = vs := by
  rw [List.filterMap_map]
  exact List.filterMap_some

theorem sent_list (threshold : Int32) (call : StandaloneCall) (w : Wire)
    (h : Sent lib threshold call w) (c : List Value) :
    arriveList lib c w = listApply call.method c := by
  rw [arriveList, sent_read lib hr threshold call w h, h.rpc]
  obtain ⟨key,hint,cid,method⟩ := call
  cases method with
  | addElementToTail data => exact congrArg (c++·) (plain_values (block data))
  | addElementToHead data => exact congrArg (·++c) (plain_values (block data))
  | addElementToPosition data pos =>
    exact congrArg (fun vs => c.take pos.toNat++(vs++c.drop pos.toNat)) (plain_values (block data))
  | addElementToPositionBefore data pivot =>
    cases pivot with
    | none => rfl
    | some p => exact congrArg (insertBefore p · c) (plain_values (block data))
  | addElementToPositionAfter data pivot =>
    cases pivot with
    | none => rfl
    | some p => exact congrArg (insertAfter p · c) (plain_values (block data))
  | _ => rfl

omit hr in
theorem arrivals {S : Type} (arrive : S → Wire → S) (apply : Method → S → S) (threshold : Int32)
    (h : ∀ call w, Sent lib threshold call w → ∀ s, arrive s w = apply call.method s)
    (requests : List Dispatch) (ws : List Wire)
    (hs : List.Forall₂ (fun r w => Sent lib threshold r.action w) requests ws) (s : S) :
    ws.foldl arrive s = applyAll apply requests s := by
  induction hs generalizing s with
  | nil => rfl
  | cons hsent _ ih =>
    rw [List.foldl_cons, h _ _ hsent, ih]
    rfl

end Arrival

/-- The messages of a chunked creation leave on a node what one create request
with all elements leaves, whatever was there before. -/
theorem creation_arrives {C : Type} (server : ContainerServer C) (lib : Libdeflate)
    (hr : lib.RoundTrip) (client : SmartClient) (max_rpc_size : Int64) (key : Key)
    (hint : Option KeyHint) (clientId : Int32) (ttl : Int64) (addresses : AddressOrder)
    (input : CreateInput) (reply_hint : KeyHint) (hd : input.DistinctKeys)
    (he : input.Encodable lib client.compression_threshold) :
    ∃ plan, input.operation lib client max_rpc_size key hint clientId ttl addresses = .ok plan ∧
      ∀ ws, List.Forall₂ (fun r w => Sent lib client.compression_threshold r.action w)
          (planRequests plan reply_hint) ws →
        ∀ c, ws.foldl (arriveElements lib server) c =
          server.apply (input.whole (client.effectiveTtl ttl)) c := by
  obtain ⟨plan,hop,hdel⟩ := input_delivers lib client max_rpc_size key hint clientId ttl addresses
    input hd he
  refine ⟨plan,hop,fun ws hs c => ?_⟩
  have hall := delivered_all server plan reply_hint _ (hdel server reply_hint)
  have hcreated := (hdel server reply_hint).created
  rw [arrivals lib (arriveElements lib server) server.apply _
    (sent_elements lib server hr _) _ ws hs, whole_apply, ← hall]
  -- the first request of a plan creates, so that nothing is left of the container before it
  simp [applyAll, planRequests, ContainerServer.apply, hcreated]

theorem sampleKey_sent (call : StandaloneCall) (hk : call.key = sampleKey)
    (hs : ShortMethod storedLibdeflate call.method)
    (h : ∃ r, insertRequest storedLibdeflate defaultThreshold 0 call = .ok (some r)) :
    ∃ w, Sent storedLibdeflate defaultThreshold call w := by
  obtain ⟨r,hr⟩ := h
  exact ⟨⟨rpcOf call.method,r⟩,rfl,⟨0,hr⟩,by rw [hk]; exact stored_length _,hs⟩

theorem sent_cons (r : Dispatch) (w : Wire) {requests : List Dispatch} {ws : List Wire}
    (h : Sent storedLibdeflate defaultThreshold r.action w)
    (hs : List.Forall₂ (fun r w => Sent storedLibdeflate defaultThreshold r.action w)
      requests ws) :
    List.Forall₂ (fun r w => Sent storedLibdeflate defaultThreshold r.action w)
      (r::requests) (w::ws) :=
  .cons h hs

theorem short_int (data : Option (List ValuePtr))
    (h : ∀ v, some v ∈ data.getD [] → ∃ i, v = .int i) (v : Value)
    (hv : some v ∈ data.getD []) : ShortValue storedLibdeflate v := by
  intro bytes hb
  obtain ⟨i,hi⟩ := h v hv
  rw [hi] at hb
  cases hb

theorem entry_sent (k : Key) (i : Int64)
    (h : ∃ r, insertRequest storedLibdeflate defaultThreshold 0 (dispatchRemainder {} sampleKey 7
      (.addElementHashMap (some [some k]) (some [some (.int i)])) ⟨1,2⟩).action = .ok (some r)) :
    ∃ w, Sent storedLibdeflate defaultThreshold (dispatchRemainder {} sampleKey 7
      (.addElementHashMap (some [some k]) (some [some (.int i)])) ⟨1,2⟩).action w :=
  sampleKey_sent _ rfl (short_int (some [some (.int i)]) (by simp)) h

theorem creation_arrives_map :
    ∃ plan, twoEntries.operation storedLibdeflate {} 1 sampleKey none 7 0 givenOrder = .ok plan ∧
      ∃ w₁ w₂ w₃, List.Forall₂ (fun r w => Sent storedLibdeflate defaultThreshold r.action w)
          (planRequests plan ⟨1,2⟩) [w₁,w₂,w₃] ∧
        ∀ c, [w₁,w₂,w₃].foldl (arriveElements storedLibdeflate recordServer) c =
          recordServer.apply (twoEntries.whole (SmartClient.effectiveTtl {} 0)) c := by
  obtain ⟨plan,hop,harrive⟩ := creation_arrives recordServer storedLibdeflate stored_round_trip {}
    1 sampleKey none 7 0 givenOrder twoEntries ⟨1,2⟩ twoEntries_distinct twoEntries_encodable
  have hplan : plan = planOf {} sampleKey none 7 (.createMap none 0)
      [.addElementHashMap (some [some sampleKey]) (some [some (.int 1)]),
        .addElementHashMap (some [some secondKey]) (some [some (.int 2)])] :=
    Except.ok.inj (hop.symm.trans rfl)
  subst hplan
  obtain ⟨w₁,h₁⟩ := sampleKey_sent (dispatch {} sampleKey none 7 (.createMap none 0)).action rfl
    (by
      intro e he
      cases he)
    ⟨_,rfl⟩
  obtain ⟨w₂,h₂⟩ := entry_sent sampleKey 1 ⟨_,rfl⟩
  obtain ⟨w₃,h₃⟩ := entry_sent secondKey 2 ⟨_,rfl⟩
  have hs := sent_cons _ w₁ h₁ (sent_cons _ w₂ h₂ (sent_cons _ w₃ h₃ .nil))
  exact ⟨_,hop,w₁,w₂,w₃,hs,harrive _ hs⟩

/-- The messages of a chunked insertion leave the list that one insertion leaves. -/
theorem insertion_arrives (lib : Libdeflate) (hr : lib.RoundTrip) (client : SmartClient)
    (max_rpc_size : Int64) (key : Key) (hint : Option KeyHint) (clientId : Int32)
    (insertion : Insertion) (values container : List Value)
    (hkey : KeyEncodable lib key client.compression_threshold) (hne : values ≠ [])
    (hw : insertion.Within container values) :
    ∃ requests, insertion.operation lib client max_rpc_size key hint clientId
        (some (values.map some)) = .ok (.pipeline requests) ∧
      ∀ ws, List.Forall₂ (fun r w => Sent lib client.compression_threshold r.action w)
          requests ws →
        ws.foldl (arriveList lib) container = listApply (insertion.whole values) container := by
  obtain ⟨base,hb⟩ := addBase_ok lib client key clientId hkey
  have hop := operation_some insertion lib client max_rpc_size key hint clientId base hb
    values hne
  have hf : (valueBlocks lib client max_rpc_size clientId base values).flatten = values :=
    blocksOf_flatten _ _ _ values
  refine ⟨_,hop,fun ws hs => ?_⟩
  rw [arrivals lib (arriveList lib) listApply _ (sent_list lib hr _) _ ws hs, applyAll_dispatch]
  exact insertion_apply insertion _ container values hf hw

theorem insertion_arrives_tail :
    ∃ requests, Insertion.tail.operation storedLibdeflate {} 1 sampleKey none 7
        (some ([.int 1,.int 2].map some)) = .ok (.pipeline requests) ∧
      ∃ w₁ w₂, List.Forall₂ (fun r w => Sent storedLibdeflate defaultThreshold r.action w)
          requests [w₁,w₂] ∧
        [w₁,w₂].foldl (arriveList storedLibdeflate) [.int 8] =
          listApply (Insertion.tail.whole [.int 1,.int 2]) [.int 8] := by
  obtain ⟨requests,hop,harrive⟩ := insertion_arrives storedLibdeflate stored_round_trip {} 1
    sampleKey none 7 .tail [.int 1,.int 2] [.int 8] (fun h => absurd h (by decide)) (by simp)
    trivial
  have hrequests : requests =
      [dispatch {} sampleKey none 7 (.addElementToTail (some [some (.int 1)])),
      dispatch {} sampleKey none 7 (.addElementToTail (some [some (.int 2)]))] :=
    AddPlan.pipeline.inj (Except.ok.inj (hop.symm.trans rfl))
  subst hrequests
  obtain ⟨w₁,h₁⟩ := sampleKey_sent (dispatch {} sampleKey none 7
    (.addElementToTail (some [some (.int 1)]))).action rfl
    (short_int (some [some (.int 1)]) (by simp)) ⟨_,rfl⟩
  obtain ⟨w₂,h₂⟩ := sampleKey_sent (dispatch {} sampleKey none 7
    (.addElementToTail (some [some (.int 2)]))).action rfl
    (short_int (some [some (.int 2)]) (by simp)) ⟨_,rfl⟩
  have hs := sent_cons _ w₁ h₁ (sent_cons _ w₂ h₂ .nil)
  exact ⟨_,hop,w₁,w₂,hs,harrive _ hs⟩

end HurriCache.WireServer
