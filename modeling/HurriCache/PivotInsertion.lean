import HurriCache.ListServer
import HurriCache.StoredGzip

/-!
# Insertion beside a pivot in chunks

Every chunk after the first is anchored by value on the last element of the
chunk before it. The server takes the first equal element, which may stand
earlier in the container or in the data. A request lands in place exactly
when its chunk commutes with the elements between that occurrence and the
end of what was inserted so far.
-/

set_option autoImplicit false

namespace HurriCache.PivotInsertion
open HurriCache.ClientTypes HurriCache.PayloadCompression HurriCache.CallOutcomes
open HurriCache.MessageBuilders HurriCache.StandaloneCalls HurriCache.ChunkSplitters
open HurriCache.SmartOperations HurriCache.CallPipelines HurriCache.ListServer
open HurriCache.BlockInsertion HurriCache.StoredGzip

def pivotCalls (isBefore : Bool) (pivot : ValuePtr) (chunks : List (List ValuePtr)) :
    List Method :=
  if isBefore then beforeCalls pivot chunks else anchoredCalls pivot chunks

def pivotOperation (isBefore : Bool) (lib : Libdeflate) (client : SmartClient)
    (max_rpc_size : Int64) (key : Key) (hint : Option KeyHint) (clientId : Int32)
    (data : Option (List ValuePtr)) (pivot : ValuePtr) : Except Fault AddPlan :=
  if isBefore then
    addElementToPositionBefore lib client max_rpc_size key hint clientId data pivot
  else addElementToPositionAfter lib client max_rpc_size key hint clientId data pivot

def wholeRequest (isBefore : Bool) (values : List Value) (pivot : Value) : Method :=
  if isBefore then .addElementToPositionBefore (some (values.map some)) (some pivot)
  else .addElementToPositionAfter (some (values.map some)) (some pivot)

/-- The part of the container in front of the insertion point, and the rest. -/
def front (isBefore : Bool) (pivot : Value) (c : List Value) : List Value :=
  if isBefore then beforeFirst pivot c else beforeFirst pivot c++[pivot]

def back (isBefore : Bool) (pivot : Value) (c : List Value) : List Value :=
  if isBefore then pivot::afterFirst pivot c else afterFirst pivot c

def dataChunks (lib : Libdeflate) (client : SmartClient) (max_rpc_size : Int64) (key : Key)
    (clientId : Int32) (values : List Value) : List (List Value) :=
  match addBase lib client key clientId with
  | .ok base => valueBlocks lib client max_rpc_size clientId base values
  | .error _ => []

/-- Every later chunk commutes with the elements after its anchor's first
occurrence in front of the insertion point. -/
def PivotSafe (isBefore : Bool) (pivot : Value) (c : List Value) :
    List (List Value) → Prop
  | [] => True
  | b::bs => ChainSafe (b.getLastD pivot) (front isBefore pivot c++b) bs

theorem wholeRequest_apply (isBefore : Bool) (values c : List Value) (pivot : Value)
    (hp : pivot ∈ c) :
    listApply (wholeRequest isBefore values pivot) c =
      front isBefore pivot c++(values++back isBefore pivot c) := by
  obtain ⟨pre,post,rfl,hpre⟩ := List.eq_append_cons_of_mem hp
  cases isBefore with
  | true =>
    simp [wholeRequest, listApply, front, back, insertBefore_split, beforeFirst_split,
      afterFirst_split, hpre]
  | false =>
    simp [wholeRequest, listApply, front, back, insertAfter_split, beforeFirst_split,
      afterFirst_split, hpre]

theorem getLastD_some (b : List Value) (hb : b ≠ []) (anchor : Value) :
    (b.map some).getLastD none = some (b.getLastD anchor) := by
  simp [List.getLastD_eq_getLast?, List.getLast?_eq_getLast_of_ne_nil, hb]

theorem anchored_apply (anchor : Value) (blocks : List (List Value))
    (hne : ∀ b ∈ blocks, b ≠ []) (c : List Value) :
    applyMethods (anchoredCalls (some anchor) (blocks.map (List.map some))) c =
      insertChain anchor blocks c := by
  induction blocks generalizing anchor c with
  | nil => rfl
  | cons b bs ih =>
    have hb : b ≠ [] := hne b (by simp)
    have hrest := ih (b.getLastD anchor) (fun x hx => hne x (by simp [hx]))
      (insertAfter anchor b c)
    simp only [List.map_cons, anchoredCalls, applyMethods_cons, getLastD_some b hb anchor,
      listApply, block_some, insertChain]
    exact hrest

theorem anchored_take (anchor : ValuePtr) (chunks : List (List ValuePtr)) (k : ℕ) :
    (anchoredCalls anchor chunks).take k = anchoredCalls anchor (chunks.take k) := by
  induction chunks generalizing anchor k with
  | nil => simp [anchoredCalls]
  | cons b bs ih =>
    cases k with
    | zero => rfl
    | succ k => simp [anchoredCalls, ih]

theorem anchored_length (anchor : ValuePtr) (chunks : List (List ValuePtr)) :
    (anchoredCalls anchor chunks).length = chunks.length := by
  induction chunks generalizing anchor with
  | nil => rfl
  | cons b bs ih => simp [anchoredCalls, ih]

theorem pivot_prefix_apply (isBefore : Bool) (pivot : Value) (b : List Value)
    (bs : List (List Value)) (hne : ∀ x ∈ b::bs, x ≠ []) (c : List Value) (hp : pivot ∈ c)
    (k : ℕ) :
    applyMethods ((pivotCalls isBefore (some pivot)
        ((b::bs).map (List.map some))).take (k+1)) c =
      insertChain (b.getLastD pivot) (bs.take k)
        (front isBefore pivot c++(b++back isBefore pivot c)) := by
  have hb : b ≠ [] := hne b (by simp)
  have hbs : ∀ x ∈ bs.take k, x ≠ [] := fun x hx =>
    hne x (List.mem_cons_of_mem b (List.mem_of_mem_take hx))
  have hfirst := wholeRequest_apply isBefore b c pivot hp
  have hchain := anchored_apply (b.getLastD pivot) (bs.take k) hbs
    (listApply (wholeRequest isBefore b pivot) c)
  rw [hfirst] at hchain
  cases isBefore with
  | true =>
    simp only [pivotCalls, beforeCalls, List.map_cons, if_true, List.take_succ_cons,
      anchored_take, getLastD_some b hb pivot, applyMethods_cons, ← List.map_take]
    rw [← hchain, ← hfirst]
    rfl
  | false =>
    simp only [pivotCalls, anchoredCalls, List.map_cons, Bool.false_eq_true, if_false,
      List.take_succ_cons, anchored_take, getLastD_some b hb pivot, applyMethods_cons,
      ← List.map_take]
    rw [← hchain, ← hfirst]
    rfl

theorem pivot_stages_iff (isBefore : Bool) (pivot : Value) (blocks : List (List Value))
    (hne : ∀ x ∈ blocks, x ≠ []) (c : List Value) (hp : pivot ∈ c) :
    (∀ k < blocks.length,
      applyMethods ((pivotCalls isBefore (some pivot)
        (blocks.map (List.map some))).take (k+1)) c =
        listApply (wholeRequest isBefore (blocks.take (k+1)).flatten pivot) c) ↔
      PivotSafe isBefore pivot c blocks := by
  cases blocks with
  | nil => simp [PivotSafe]
  | cons b bs =>
    have hb : b ≠ [] := hne b (by simp)
    have hmem : b.getLastD pivot ∈ front isBefore pivot c++b :=
      List.mem_append_right _ (getLastD_mem b hb pivot)
    have hchain := chain_exact_iff (b.getLastD pivot) (front isBefore pivot c++b)
      (back isBefore pivot c) bs hmem
    rw [PivotSafe, ← hchain]
    simp only [pivot_prefix_apply isBefore pivot b bs hne c hp,
      wholeRequest_apply isBefore _ c pivot hp, List.take_succ_cons, List.flatten_cons,
      List.append_assoc, List.length_cons, Nat.lt_succ_iff]

theorem pivotCalls_length (isBefore : Bool) (pivot : ValuePtr)
    (chunks : List (List ValuePtr)) :
    (pivotCalls isBefore pivot chunks).length = chunks.length := by
  cases isBefore with
  | true =>
    cases chunks with
    | nil => rfl
    | cons c cs => simp [pivotCalls, beforeCalls, anchored_length]
  | false => simp [pivotCalls, anchored_length]

theorem pivotCalls_replies (isBefore : Bool) (pivot : Value) (blocks : List (List Value)) :
    (pivotCalls isBefore (some pivot) (blocks.map (List.map some))).map listReply =
      (blocks.map List.length).map UInt32.ofNat := by
  have hanchored : ∀ (anchor : ValuePtr) (bs : List (List Value)),
      (anchoredCalls anchor (bs.map (List.map some))).map listReply =
        (bs.map List.length).map UInt32.ofNat := by
    intro anchor bs
    induction bs generalizing anchor with
    | nil => rfl
    | cons b bs ih => simp [anchoredCalls, listReply, ih]
  cases isBefore with
  | true =>
    cases blocks with
    | nil => rfl
    | cons b bs => simp [pivotCalls, beforeCalls, listReply, hanchored]
  | false => simpa [pivotCalls] using hanchored (some pivot) blocks

theorem pivotOperation_some (isBefore : Bool) (lib : Libdeflate) (client : SmartClient)
    (max_rpc_size : Int64) (key : Key) (hint : Option KeyHint) (clientId : Int32)
    (values : List Value) (pivot : ValuePtr)
    (hkey : KeyEncodable lib key client.compression_threshold) (hne : values ≠ []) :
    pivotOperation isBefore lib client max_rpc_size key hint clientId
        (some (values.map some)) pivot =
      .ok (.pipeline ((pivotCalls isBefore pivot
        ((dataChunks lib client max_rpc_size key clientId values).map
          (List.map some))).map (dispatch client key hint clientId))) := by
  obtain ⟨base,hb⟩ := addBase_ok lib client key clientId hkey
  have h := addValues_some lib client max_rpc_size key hint clientId base hb values hne
  cases isBefore with
  | true => simpa [dataChunks, hb, pivotCalls, pivotOperation, addElementToPositionBefore] using h _
  | false => simpa [dataChunks, hb, pivotCalls, pivotOperation, addElementToPositionAfter] using h _

theorem dataChunks_spec (lib : Libdeflate) (client : SmartClient) (max_rpc_size : Int64)
    (key : Key) (clientId : Int32) (values : List Value)
    (hkey : KeyEncodable lib key client.compression_threshold) :
    (dataChunks lib client max_rpc_size key clientId values).flatten = values ∧
      ∀ b ∈ dataChunks lib client max_rpc_size key clientId values, b ≠ [] := by
  obtain ⟨base,hb⟩ := addBase_ok lib client key clientId hkey
  simp only [dataChunks, hb, valueBlocks]
  exact ⟨blocksOf_flatten _ _ _ values,blocksOf_ne_nil _ _ _ values⟩

/-- Safe chunks leave the container of one request, and they are safe exactly
when the container agrees with one request after every call. -/
theorem pivot_insertion_refines (isBefore : Bool) (lib : Libdeflate) (client : SmartClient)
    (max_rpc_size : Int64) (key : Key) (hint : Option KeyHint) (clientId : Int32)
    (values container : List Value) (pivot : Value)
    (hkey : KeyEncodable lib key client.compression_threshold) (hne : values ≠ [])
    (hp : pivot ∈ container) :
    ∃ requests, pivotOperation isBefore lib client max_rpc_size key hint clientId
        (some (values.map some)) (some pivot) = .ok (.pipeline requests) ∧
      (PivotSafe isBefore pivot container
          (dataChunks lib client max_rpc_size key clientId values) →
        runAddPlan (serve (fun _ => none) listApply listReply) (.pipeline requests)
          ⟨container,[]⟩ = (.ok (UInt32.ofNat values.length),
            ⟨listApply (wholeRequest isBefore values pivot) container,requests⟩)) ∧
      (PivotSafe isBefore pivot container
          (dataChunks lib client max_rpc_size key clientId values) ↔
        ∀ k < requests.length, applyAll listApply (requests.take (k+1)) container =
          listApply (wholeRequest isBefore
            ((dataChunks lib client max_rpc_size key clientId values).take (k+1)).flatten
            pivot) container) := by
  obtain ⟨hf,hblocks⟩ := dataChunks_spec lib client max_rpc_size key clientId values hkey
  have hop := pivotOperation_some isBefore lib client max_rpc_size key hint clientId values
    (some pivot) hkey hne
  have hreplies := pivotCalls_replies isBefore pivot
    (dataChunks lib client max_rpc_size key clientId values)
  generalize dataChunks lib client max_rpc_size key clientId values = blocks at *
  have hstages := pivot_stages_iff isBefore pivot blocks hblocks container hp
  have hlen := pivotCalls_length isBefore (some pivot) (blocks.map (List.map some))
  refine ⟨_,hop,?_,?_⟩
  · intro hsafe
    have hall : applyMethods (pivotCalls isBefore (some pivot)
        (blocks.map (List.map some))) container =
        listApply (wholeRequest isBefore values pivot) container := by
      obtain ⟨b,bs,rfl⟩ : ∃ b bs, blocks = b::bs := by
        cases blocks with
        | nil => exact absurd hf.symm hne
        | cons b bs => exact ⟨b,bs,rfl⟩
      have h := hstages.mpr hsafe bs.length (by simp)
      rw [List.take_of_length_le (by rw [hlen]; simp), List.take_of_length_le (by simp), hf] at h
      exact h
    have h := runCalls_ok (fun _ => none) listApply listReply (fun total value => total+value) 0
      ((pivotCalls isBefore (some pivot) (blocks.map (List.map some))).map
        (dispatch client key hint clientId)) ⟨container,[]⟩ (fun _ _ => rfl)
    rw [applyAll_dispatch, hall, totalReply_dispatch, totalReply, hreplies, sum_ofNat,
      ← List.length_flatten, hf] at h
    simpa [runAddPlan, runAddPipeline] using h
  · rw [← hstages]
    simp only [List.length_map, hlen, ← List.map_take, applyAll_dispatch]

section Misplacement

def rawClient : SmartClient := { compression_threshold := -1 }

def hugeBytes : Bytes := List.replicate 58720257 0

def hugeValue : Value := .bytes hugeBytes

theorem hugeValue_size : valueSize storedLibdeflate 7 (-1) hugeValue = 58720278 := by
  have hlen : hugeBytes.length = 58720257 := List.length_replicate
  have ht : hugeBytes.length ≤ threshold64 (-1) := by
    rw [hlen]
    decide
  rw [valueSize, hugeValue, raw_byteSize storedLibdeflate hugeBytes 7 (-1) ht, hlen]
  decide

theorem huge_chunks :
    dataChunks storedLibdeflate rawClient rawClient.maxRpcSize sampleKey 7 [hugeValue,.int 1] =
      [[hugeValue],[.int 1]] := by
  have hb : addBase storedLibdeflate rawClient sampleKey 7 = .ok 55 := rfl
  have hsmall : valueSize storedLibdeflate 7 (-1) (.int 1) = 10 := by decide
  have hover : overflows (valueSize storedLibdeflate 7 (-1)) rawClient.maxRpcSize
      (addSize (valueSize storedLibdeflate 7 (-1)) 55 hugeValue) (.int 1) = true := by
    rw [overflows, addSize, hugeValue_size, hsmall]
    decide
  have hcid : rawClient.effectiveClientId 7 = 7 := rfl
  have hthr : rawClient.compression_threshold = -1 := rfl
  simp [dataChunks, hb, valueBlocks, blocksOf, GreedyCut.cut, GreedyCut.cutFrom, hcid, hthr,
    hover]

theorem sampleKey_encodable :
    KeyEncodable storedLibdeflate sampleKey rawClient.compression_threshold :=
  fun h => absurd h (by decide)

theorem misplaced_apply (x y p : Value) (hxp : x ≠ p) :
    applyMethods (pivotCalls true (some p) [[some x],[some y]]) [x,p] = [x,y,x,p] := by
  have hbx : block (some [some x]) = [x] := block_some [x]
  have hby : block (some [some y]) = [y] := block_some [y]
  simp [pivotCalls, beforeCalls, anchoredCalls, listApply, hbx, hby, insertBefore,
    insertAfter, hxp]

theorem repeated_value_misplaced :
    ∃ requests, pivotOperation true storedLibdeflate rawClient rawClient.maxRpcSize sampleKey none 7
        (some ([hugeValue,.int 1].map some)) (some (.int 9)) = .ok (.pipeline requests) ∧
      runAddPlan (serve (fun _ => none) listApply listReply) (.pipeline requests)
        ⟨[hugeValue,.int 9],[]⟩ = (.ok 2,⟨[hugeValue,.int 1,hugeValue,.int 9],requests⟩) ∧
      listApply (wholeRequest true [hugeValue,.int 1] (.int 9)) [hugeValue,.int 9] =
        [hugeValue,hugeValue,.int 1,.int 9] ∧
      [hugeValue,.int 1,hugeValue,.int 9] ≠ [hugeValue,hugeValue,.int 1,.int 9] := by
  have hop := pivotOperation_some true storedLibdeflate rawClient rawClient.maxRpcSize sampleKey
    none 7 [hugeValue,.int 1] (some (.int 9)) sampleKey_encodable (by simp)
  have hreplies := pivotCalls_replies true (.int 9) [[hugeValue],[.int 1]]
  rw [huge_chunks] at hop
  have hrun := runCalls_ok (fun _ => none) listApply listReply
    (fun total value => total+value) 0 ((pivotCalls true (some (.int 9))
      ([[hugeValue],[.int 1]].map (List.map some))).map
        (dispatch rawClient sampleKey none 7)) ⟨[hugeValue,.int 9],[]⟩ (fun _ _ => rfl)
  rw [applyAll_dispatch, totalReply_dispatch, totalReply, hreplies, sum_ofNat] at hrun
  have hplaced := misplaced_apply hugeValue (.int 1) (.int 9) (by simp [hugeValue])
  simp only [List.map_cons, List.map_nil] at hrun
  rw [hplaced] at hrun
  refine ⟨_,hop,?_,?_,by simp [hugeValue]⟩
  · simpa [runAddPlan, runAddPipeline] using hrun
  · rw [wholeRequest_apply true _ _ _ (by simp)]
    simp [front, back, beforeFirst, afterFirst, hugeValue]

theorem pivot_insertion_refines_integers :
    ∃ requests, pivotOperation false storedLibdeflate rawClient 1 sampleKey none 7
        (some ([.int 1,.int 2].map some)) (some (.int 9)) = .ok (.pipeline requests) ∧
      (PivotSafe false (.int 9) [.int 9]
          (dataChunks storedLibdeflate rawClient 1 sampleKey 7 [.int 1,.int 2]) →
        runAddPlan (serve (fun _ => none) listApply listReply) (.pipeline requests)
          ⟨[.int 9],[]⟩ = (.ok (UInt32.ofNat 2),
            ⟨listApply (wholeRequest false [.int 1,.int 2] (.int 9)) [.int 9],requests⟩)) ∧
      (PivotSafe false (.int 9) [.int 9]
          (dataChunks storedLibdeflate rawClient 1 sampleKey 7 [.int 1,.int 2]) ↔
        ∀ k < requests.length, applyAll listApply (requests.take (k+1)) [.int 9] =
          listApply (wholeRequest false
            ((dataChunks storedLibdeflate rawClient 1 sampleKey 7 [.int 1,.int 2]).take
              (k+1)).flatten (.int 9)) [.int 9]) :=
  pivot_insertion_refines false storedLibdeflate rawClient 1 sampleKey none 7 [.int 1,.int 2]
    [.int 9] (.int 9) sampleKey_encodable (by simp) (by simp)

end Misplacement

end HurriCache.PivotInsertion
