import HurriCache.ListServer
import HurriCache.StoredGzip

/-!
# Tail, head and positional insertion in chunks

The forward, reversed and advancing orders each compose to the insertion of
the whole list, wherever the greedy splitter cuts it. A failing request ends
the pipeline with its error, after the requests before it were applied.
-/

set_option autoImplicit false

namespace HurriCache.ChunkedInsertion
open HurriCache.ClientTypes HurriCache.PayloadCompression HurriCache.CallOutcomes
open HurriCache.MessageBuilders HurriCache.StandaloneCalls HurriCache.ChunkSplitters
open HurriCache.SmartOperations HurriCache.CallPipelines HurriCache.ListServer
open HurriCache.StoredGzip

inductive Insertion where
  | tail
  | head
  | position (pos : UInt32)

def Insertion.calls : Insertion → List (List ValuePtr) → List Method
  | .tail, chunks => chunks.map (fun chunk => .addElementToTail (some chunk))
  | .head, chunks => chunks.reverse.map (fun chunk => .addElementToHead (some chunk))
  | .position pos, chunks => positionCalls pos chunks

def Insertion.operation (insertion : Insertion) (lib : Libdeflate) (client : SmartClient)
    (max_rpc_size : Int64) (key : Key) (hint : Option KeyHint) (clientId : Int32)
    (data : Option (List ValuePtr)) : Except Fault AddPlan :=
  match insertion with
  | .tail => addElementToTail lib client max_rpc_size key hint clientId data
  | .head => addElementToHead lib client max_rpc_size key hint clientId data
  | .position pos => addElementToPosition lib client max_rpc_size key hint clientId data pos

def Insertion.whole (insertion : Insertion) (values : List Value) : Method :=
  match insertion with
  | .tail => .addElementToTail (some (values.map some))
  | .head => .addElementToHead (some (values.map some))
  | .position pos => .addElementToPosition (some (values.map some)) pos

def Insertion.Within (insertion : Insertion) (container values : List Value) : Prop :=
  match insertion with
  | .position pos =>
    pos.toNat ≤ container.length ∧ container.length+values.length < 2^32
  | _ => True

theorem operation_some (insertion : Insertion) (lib : Libdeflate) (client : SmartClient)
    (max_rpc_size : Int64) (key : Key) (hint : Option KeyHint) (clientId : Int32)
    (base : UInt64) (hb : addBase lib client key clientId = .ok base)
    (values : List Value) (hne : values ≠ []) :
    insertion.operation lib client max_rpc_size key hint clientId (some (values.map some)) =
      .ok (.pipeline ((insertion.calls
        ((valueBlocks lib client max_rpc_size clientId base values).map
          (List.map some))).map (dispatch client key hint clientId))) := by
  have h := addValues_some lib client max_rpc_size key hint clientId base hb values hne
  cases insertion with
  | tail => exact h _
  | head => exact h _
  | position pos => exact h _

theorem tail_apply (blocks : List (List Value)) (c : List Value) :
    applyMethods (Insertion.tail.calls (blocks.map (List.map some))) c = c++blocks.flatten := by
  induction blocks generalizing c with
  | nil => simp [Insertion.calls]
  | cons b bs ih =>
    have h := ih (c++b)
    simp only [Insertion.calls] at h
    simpa [Insertion.calls, listApply] using h

theorem head_apply (blocks : List (List Value)) (c : List Value) :
    applyMethods (Insertion.head.calls (blocks.map (List.map some))) c = blocks.flatten++c := by
  induction blocks with
  | nil => simp [Insertion.calls]
  | cons b bs ih =>
    simp only [Insertion.calls] at ih ⊢
    rw [List.map_cons, List.reverse_cons, List.map_append, applyMethods_append, ih]
    simp [listApply]

theorem position_apply (blocks : List (List Value)) (front back : List Value)
    (h : front.length+blocks.flatten.length < 2^32) :
    applyMethods (positionCalls (UInt32.ofNat front.length) (blocks.map (List.map some)))
      (front++back) = front++(blocks.flatten++back) := by
  induction blocks generalizing front with
  | nil => simp [positionCalls]
  | cons b bs ih =>
    have hlen : front.length+b.length+bs.flatten.length < 2^32 := by
      simp only [List.flatten_cons, List.length_append] at h
      omega
    have hpos : (UInt32.ofNat front.length).toNat = front.length :=
      UInt32.toNat_ofNat_of_lt' (by simp only [UInt32.size]; omega)
    have hnext : UInt32.ofNat front.length+UInt32.ofNat b.length =
        UInt32.ofNat (front++b).length := by
      simp [UInt32.ofNat_add]
    have hrest := ih (front++b) (by simpa using hlen)
    simp only [List.map_cons, positionCalls, applyMethods_cons, listApply, hpos, block_some,
      List.take_left', List.drop_left', List.length_map, hnext]
    simpa using hrest

theorem insertion_apply (insertion : Insertion) (blocks : List (List Value))
    (c values : List Value) (hf : blocks.flatten = values) (hw : insertion.Within c values) :
    applyMethods (insertion.calls (blocks.map (List.map some))) c =
      listApply (insertion.whole values) c := by
  cases insertion with
  | tail => simp [tail_apply, hf, Insertion.whole, listApply]
  | head => simp [head_apply, hf, Insertion.whole, listApply]
  | position pos =>
    obtain ⟨hle,hlt⟩ := hw
    have hlen : (c.take pos.toNat).length = pos.toNat := List.length_take_of_le hle
    have h := position_apply blocks (c.take pos.toNat) (c.drop pos.toNat)
      (by rw [hlen, hf]; omega)
    rw [hlen, UInt32.ofNat_toNat, List.take_append_drop, hf] at h
    simpa [Insertion.calls, Insertion.whole, listApply] using h

theorem insertion_replies (insertion : Insertion) (blocks : List (List Value)) :
    ∃ order : List (List Value), order.Perm blocks ∧
      (insertion.calls (blocks.map (List.map some))).map listReply =
        (order.map List.length).map UInt32.ofNat := by
  cases insertion with
  | tail => exact ⟨blocks,List.Perm.refl _,by simp [Insertion.calls, listReply]⟩
  | head => exact ⟨blocks.reverse,List.reverse_perm _,by
      simp [Insertion.calls, listReply, ← List.map_reverse]⟩
  | position pos =>
    refine ⟨blocks,List.Perm.refl _,?_⟩
    change (positionCalls pos _).map listReply = _
    induction blocks generalizing pos with
    | nil => rfl
    | cons b bs ih => simp [positionCalls, listReply, ih]

theorem insertion_total (insertion : Insertion) (blocks : List (List Value))
    (values : List Value) (hf : blocks.flatten = values) :
    totalReply (insertion.calls (blocks.map (List.map some))) =
      UInt32.ofNat values.length := by
  obtain ⟨order,hp,hr⟩ := insertion_replies insertion blocks
  rw [totalReply, hr, sum_ofNat, (hp.map List.length).sum_nat, ← List.length_flatten, hf]
  simp

/-- Chunked insertion refines one request: it leaves the same container and
returns the length, and a failing request leaves what went before it. -/
theorem chunked_insertion_refines (lib : Libdeflate) (client : SmartClient)
    (max_rpc_size : Int64) (key : Key) (hint : Option KeyHint) (clientId : Int32)
    (insertion : Insertion) (values container : List Value)
    (fails : ℕ → Option CallException)
    (hkey : KeyEncodable lib key client.compression_threshold) (hne : values ≠ [])
    (hw : insertion.Within container values) :
    ∃ requests, insertion.operation lib client max_rpc_size key hint clientId
        (some (values.map some)) = .ok (.pipeline requests) ∧
      ((∀ i < requests.length, fails i = none) →
        runAddPlan (serve fails listApply listReply) (.pipeline requests) ⟨container,[]⟩ =
          (.ok (UInt32.ofNat values.length),
            ⟨listApply (insertion.whole values) container,requests⟩)) ∧
      ∀ j < requests.length, ∀ e, (∀ i < j, fails i = none) → fails j = some e →
        runAddPlan (serve fails listApply listReply) (.pipeline requests) ⟨container,[]⟩ =
          (.error e,⟨applyAll listApply (requests.take j) container,requests.take (j+1)⟩) := by
  obtain ⟨base,hb⟩ := addBase_ok lib client key clientId hkey
  have hop := operation_some insertion lib client max_rpc_size key hint clientId base hb
    values hne
  have hf : (valueBlocks lib client max_rpc_size clientId base values).flatten = values :=
    blocksOf_flatten _ _ _ values
  have happly := insertion_apply insertion _ container values hf hw
  have htotal := insertion_total insertion _ values hf
  generalize insertion.calls _ = methods at hop happly htotal
  refine ⟨methods.map (dispatch client key hint clientId),hop,?_,?_⟩
  · intro hok
    have h := runCalls_ok fails listApply listReply (fun total value => total+value) 0
      (methods.map (dispatch client key hint clientId)) ⟨container,[]⟩ (by simpa using hok)
    rw [applyAll_dispatch, happly, totalReply_dispatch, htotal] at h
    simpa [runAddPlan, runAddPipeline] using h
  · intro j hj e hok he
    have h := runCalls_fail fails listApply listReply (fun total value => total+value) 0
      (methods.map (dispatch client key hint clientId)) ⟨container,[]⟩ j hj e
      (by simpa using hok) (by simpa using he)
    simpa [runAddPlan, runAddPipeline] using h

def failsSecond (i : ℕ) : Option CallException := if i = 1 then some (.other []) else none

/-- Two one-element chunks at position 1, of which the second fails. -/
theorem chunked_insertion_refines_position :
    ∃ requests, (Insertion.position 1).operation storedLibdeflate {} 1 sampleKey none 7
        (some ([.int 1,.int 2].map some)) = .ok (.pipeline requests) ∧
      ((∀ i < requests.length, failsSecond i = none) →
        runAddPlan (serve failsSecond listApply listReply)
            (.pipeline requests) ⟨[.int 8,.int 9],[]⟩ =
          (.ok (UInt32.ofNat 2),⟨listApply ((Insertion.position 1).whole [.int 1,.int 2])
            [.int 8,.int 9],requests⟩)) ∧
      ∀ j < requests.length, ∀ e, (∀ i < j, failsSecond i = none) → failsSecond j = some e →
        runAddPlan (serve failsSecond listApply listReply)
            (.pipeline requests) ⟨[.int 8,.int 9],[]⟩ =
          (.error e,⟨applyAll listApply (requests.take j) [.int 8,.int 9],
            requests.take (j+1)⟩) :=
  chunked_insertion_refines storedLibdeflate {} 1 sampleKey none 7 (.position 1) [.int 1,.int 2]
    [.int 8,.int 9] failsSecond
    (fun h => absurd h (by decide)) (by simp) ⟨by decide,by decide⟩

end HurriCache.ChunkedInsertion
