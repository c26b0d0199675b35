import HurriCache.ChunkedInsertion
import HurriCache.ConcurrentPipelines
import HurriCache.PivotInsertion

/-!
# Additions to one list at once

One addition at the head, at a position or beside a pivot runs next to any
number of additions at the tail, each in chunks. Nothing behind its place
disturbs a request, so the list is what the one addition makes of it alone, with
the blocks of the others behind it. There the blocks are mixed, but those of
one addition stand in the order of its values.
-/

set_option autoImplicit false

namespace HurriCache.ConcurrentAdditions
open HurriCache.ClientTypes HurriCache.PayloadCompression HurriCache.CallOutcomes
open HurriCache.MessageBuilders HurriCache.StandaloneCalls HurriCache.SmartOperations
open HurriCache.CallPipelines HurriCache.ListServer HurriCache.BlockInsertion
open HurriCache.ChunkedInsertion HurriCache.PivotInsertion HurriCache.ConcurrentPipelines
open HurriCache.PartialRun HurriCache.StoredGzip

section Undisturbed

/-- What stands behind the container makes no difference to a request. -/
def Undisturbed (m : Method) (c : List Value) : Prop :=
  ∀ t, listApply m (c++t) = listApply m c++t

def AllUndisturbed : List Method → List Value → Prop
  | [], _ => True
  | m::ms, c => Undisturbed m c ∧ AllUndisturbed ms (listApply m c)

theorem undisturbed_front (ms ns : List Method) (c : List Value)
    (h : AllUndisturbed (ms++ns) c) : AllUndisturbed ms c := by
  induction ms generalizing c with
  | nil => trivial
  | cons m ms ih => exact ⟨h.1,ih _ h.2⟩

theorem insertAfter_append (p : Value) (b c t : List Value) (hp : p ∈ c) :
    insertAfter p b (c++t) = insertAfter p b c++t := by
  obtain ⟨pre,post,rfl,hpre⟩ := List.eq_append_cons_of_mem hp
  rw [List.append_assoc, List.cons_append, insertAfter_split p b pre (post++t) hpre,
    insertAfter_split p b pre post hpre]
  simp

theorem insertBefore_append (p : Value) (b c t : List Value) (hp : p ∈ c) :
    insertBefore p b (c++t) = insertBefore p b c++t := by
  obtain ⟨pre,post,rfl,hpre⟩ := List.eq_append_cons_of_mem hp
  rw [List.append_assoc, List.cons_append, insertBefore_split p b pre (post++t) hpre,
    insertBefore_split p b pre post hpre]
  simp

theorem mem_insertAfter (p a : Value) (b c : List Value) (hp : p ∈ c) (ha : a ∈ b) :
    a ∈ insertAfter p b c := by
  obtain ⟨pre,post,rfl,hpre⟩ := List.eq_append_cons_of_mem hp
  rw [insertAfter_split p b pre post hpre]
  simp [ha]

theorem mem_insertBefore (p a : Value) (b c : List Value) (hp : p ∈ c) (ha : a ∈ b) :
    a ∈ insertBefore p b c := by
  obtain ⟨pre,post,rfl,hpre⟩ := List.eq_append_cons_of_mem hp
  rw [insertBefore_split p b pre post hpre]
  simp [ha]

theorem head_undisturbed (chunks : List (List ValuePtr)) (c : List Value) :
    AllUndisturbed (chunks.map (fun chunk => .addElementToHead (some chunk))) c := by
  induction chunks generalizing c with
  | nil => trivial
  | cons chunk chunks ih => exact ⟨fun t => by simp [listApply],ih _⟩

theorem position_undisturbed (blocks : List (List Value)) (pos : UInt32) (c : List Value)
    (hpos : pos.toNat ≤ c.length) (hlen : c.length+blocks.flatten.length < 2^32) :
    AllUndisturbed (positionCalls pos (blocks.map (List.map some))) c := by
  induction blocks generalizing pos c with
  | nil => trivial
  | cons b bs ih =>
    rw [List.flatten_cons, List.length_append] at hlen
    have hnext : (pos+UInt32.ofNat b.length).toNat = pos.toNat+b.length := by
      rw [UInt32.toNat_add, UInt32.toNat_ofNat']
      omega
    have hgrown : (listApply (.addElementToPosition (some (b.map some)) pos) c).length =
        c.length+b.length := by
      simp only [listApply, block_some, List.length_append, List.length_take, List.length_drop]
      omega
    refine ⟨fun t => ?_,?_⟩
    · simp only [listApply, block_some]
      rw [List.take_append_of_le_length hpos, List.drop_append_of_le_length hpos]
      simp
    · rw [List.length_map]
      refine ih _ _ ?_ ?_
      · rw [hnext, hgrown]
        omega
      · rw [hgrown]
        omega

theorem anchored_undisturbed (blocks : List (List Value)) (hne : ∀ b ∈ blocks, b ≠ [])
    (anchor : Value) (c : List Value) (hp : anchor ∈ c) :
    AllUndisturbed (anchoredCalls (some anchor) (blocks.map (List.map some))) c := by
  induction blocks generalizing anchor c with
  | nil => trivial
  | cons b bs ih =>
    have hb : b ≠ [] := hne b List.mem_cons_self
    refine ⟨fun t => ?_,?_⟩
    · simpa only [listApply, block_some] using insertAfter_append anchor b c t hp
    · rw [getLastD_some b hb anchor]
      refine ih (fun x hx => hne x (List.mem_cons_of_mem b hx)) _ _ ?_
      simpa only [listApply, block_some] using
        mem_insertAfter anchor _ b c hp (getLastD_mem b hb anchor)

theorem pivot_undisturbed (isBefore : Bool) (blocks : List (List Value))
    (hne : ∀ b ∈ blocks, b ≠ []) (pivot : Value) (c : List Value) (hp : pivot ∈ c) :
    AllUndisturbed (pivotCalls isBefore (some pivot) (blocks.map (List.map some))) c := by
  cases isBefore with
  | false => exact anchored_undisturbed blocks hne pivot c hp
  | true =>
    cases blocks with
    | nil => trivial
    | cons b bs =>
      have hb : b ≠ [] := hne b List.mem_cons_self
      refine ⟨fun t => ?_,?_⟩
      · simpa only [listApply, block_some] using insertBefore_append pivot b c t hp
      · rw [getLastD_some b hb pivot]
        refine anchored_undisturbed bs (fun x hx => hne x (List.mem_cons_of_mem b hx)) _ _ ?_
        simpa only [listApply, block_some] using
          mem_insertBefore pivot _ b c hp (getLastD_mem b hb pivot)

end Undisturbed

section Histories

def tailBlock (r : Dispatch) : List Value :=
  match r.action.method with
  | .addElementToTail data => block data
  | _ => []

def tails (history : List (ℕ × Dispatch)) (i : ℕ) : List (ℕ × List Value) :=
  (history.filter (fun entry => entry.1 != i)).map (fun entry => (entry.1,tailBlock entry.2))

def elementsOf (blocks : List (ℕ × List Value)) (w : ℕ) : List Value :=
  (blocks.filter (fun b => b.1 == w)).flatMap (·.2)

theorem tails_owner (history : List (ℕ × Dispatch)) (i : ℕ) :
    ∀ b ∈ tails history i, ∃ entry ∈ history, entry.1 ≠ i ∧ b = (entry.1,tailBlock entry.2) := by
  intro b hb
  obtain ⟨entry,hfilter,rfl⟩ := List.mem_map.mp hb
  obtain ⟨hmem,hne⟩ := List.mem_filter.mp hfilter
  exact ⟨entry,hmem,by simpa using hne,rfl⟩

theorem elementsOf_tails (history : List (ℕ × Dispatch)) (i w : ℕ) (hw : w ≠ i) :
    elementsOf (tails history i) w = (own history w).flatMap tailBlock := by
  induction history with
  | nil => rfl
  | cons entry rest ih =>
    simp only [elementsOf, tails, own] at ih ⊢
    by_cases hi : entry.1 = i
    · have hne : entry.1 ≠ w := fun he => hw (he.symm.trans hi)
      simp [hi, Ne.symm hw, ih]
    · by_cases he : entry.1 = w
      · simp [he, hw, ih]
      · simp [hi, he, ih]

theorem apply_interleaved (i : ℕ) (history : List (ℕ × Dispatch)) (c t : List Value)
    (htails : ∀ entry ∈ history, entry.1 ≠ i →
      ∃ data, entry.2.action.method = .addElementToTail data)
    (hown : AllUndisturbed ((own history i).map (·.action.method)) c) :
    applyAll listApply (history.map (·.2)) (c++t) =
      applyAll listApply (own history i) c++(t++(tails history i).flatMap (·.2)) := by
  induction history generalizing c t with
  | nil => simp [own, tails, applyAll]
  | cons entry rest ih =>
    have hrest := fun x hx => htails x (List.mem_cons_of_mem entry hx)
    by_cases hi : entry.1 = i
    · have hcons : own (entry::rest) i = entry.2::own rest i := by simp [own, hi]
      have htail : tails (entry::rest) i = tails rest i := by simp [tails, hi]
      rw [hcons, List.map_cons] at hown
      have hstep := hown.1 t
      have happly := ih (listApply entry.2.action.method c) t hrest hown.2
      rw [hcons, htail]
      simp only [List.map_cons, applyAll, List.foldl_cons] at happly ⊢
      rw [hstep, happly]
    · obtain ⟨data,hdata⟩ := htails entry List.mem_cons_self hi
      have hcons : own (entry::rest) i = own rest i := by simp [own, hi]
      have htail : tails (entry::rest) i = (entry.1,block data)::tails rest i := by
        simp [tails, hi, tailBlock, hdata]
      rw [hcons] at hown
      have happly := ih c (t++block data) hrest hown
      rw [hcons, htail]
      simp only [List.map_cons, applyAll, List.foldl_cons, List.flatMap_cons] at happly ⊢
      rw [hdata, listApply, List.append_assoc, happly, List.append_assoc]

end Histories

section Additions

inductive Placement where
  | listed (insertion : Insertion)
  | beside (isBefore : Bool) (pivot : Value)

structure Addition where
  client : SmartClient := {}
  max_rpc_size : Int64
  hint : Option KeyHint := none
  clientId : Int32 := 0
  placement : Placement
  values : List Value

variable (lib : Libdeflate) (key : Key)

def Addition.operation (a : Addition) : Except Fault AddPlan :=
  match a.placement with
  | .listed insertion => insertion.operation lib a.client a.max_rpc_size key a.hint a.clientId
      (some (a.values.map some))
  | .beside isBefore pivot => pivotOperation isBefore lib a.client a.max_rpc_size key a.hint
      a.clientId (some (a.values.map some)) (some pivot)

def Addition.blocks (a : Addition) : List (List Value) :=
  dataChunks lib a.client a.max_rpc_size key a.clientId a.values

def Placement.calls : Placement → List (List ValuePtr) → List Method
  | .listed insertion, chunks => insertion.calls chunks
  | .beside isBefore pivot, chunks => pivotCalls isBefore (some pivot) chunks

def Addition.methods (a : Addition) : List Method :=
  a.placement.calls ((a.blocks lib key).map (List.map some))

def Addition.requests (a : Addition) : List Dispatch :=
  (a.methods lib key).map (dispatch a.client key a.hint a.clientId)

/-- The place is in the container, which stays below `2^32`. -/
def Addition.Within (a : Addition) (c : List Value) : Prop :=
  match a.placement with
  | .listed insertion => insertion.Within c a.values
  | .beside _ pivot => pivot ∈ c

theorem requests_methods (a : Addition) :
    (a.requests lib key).map (·.action.method) = a.methods lib key := by
  rw [Addition.requests, List.map_map]
  exact List.map_id _

theorem start_operation (a : Addition) (plan : AddPlan)
    (hkey : KeyEncodable lib key a.client.compression_threshold)
    (h : a.operation lib key = .ok plan) :
    ∃ outcome, Pipeline.start plan = ⟨0,a.requests lib key,outcome⟩ ∧
      ∀ n, outcome = some (.ok n) → a.requests lib key = [] ∧ n = 0 := by
  obtain ⟨base,hb⟩ := addBase_ok lib a.client key a.clientId hkey
  have hblocks : a.blocks lib key =
      valueBlocks lib a.client a.max_rpc_size a.clientId base a.values := by
    simp [Addition.blocks, dataChunks, hb]
  by_cases hne : a.values = []
  · have hplan : plan = .immediate 0 := by
      cases hp : a.placement with
      | listed insertion =>
        simp only [Addition.operation, hp, hne] at h
        cases insertion <;> exact (Except.ok.inj h).symm
      | beside isBefore pivot =>
        simp only [Addition.operation, hp, hne] at h
        cases isBefore <;> exact (Except.ok.inj h).symm
    have hnone : a.requests lib key = [] := by
      have hempty : a.blocks lib key = [] := by
        obtain ⟨hf,hnil⟩ := dataChunks_spec lib a.client a.max_rpc_size key a.clientId a.values hkey
        have hall := List.flatten_eq_nil_iff.mp (hf.trans hne)
        exact List.eq_nil_iff_forall_not_mem.mpr (fun b hb => hnil b hb (hall b hb))
      cases hp : a.placement with
      | listed insertion =>
        cases insertion <;>
          simp [Addition.requests, Addition.methods, hempty, hp, Placement.calls, Insertion.calls,
            positionCalls]
      | beside isBefore pivot =>
        cases isBefore <;>
          simp [Addition.requests, Addition.methods, hempty, hp, Placement.calls, pivotCalls,
            beforeCalls, anchoredCalls]
    rw [hplan, hnone]
    refine ⟨_,rfl,fun n hn => ⟨rfl,?_⟩⟩
    cases hn
    rfl
  · have hplan : plan = .pipeline (a.requests lib key) := by
      cases hp : a.placement with
      | listed insertion =>
        have hop := operation_some insertion lib a.client a.max_rpc_size key a.hint a.clientId base
          hb a.values hne
        simp only [Addition.operation, hp, hop] at h
        rw [Addition.requests, Addition.methods, hblocks, hp]
        exact (Except.ok.inj h).symm
      | beside isBefore pivot =>
        have hop := pivotOperation_some isBefore lib a.client a.max_rpc_size key a.hint a.clientId
          a.values (some pivot) hkey hne
        simp only [Addition.operation, hp, hop] at h
        rw [Addition.requests, Addition.methods, hp]
        exact (Except.ok.inj h).symm
    rw [hplan]
    exact ⟨none,rfl,fun n hn => by cases hn⟩

theorem addition_undisturbed (a : Addition) (c : List Value)
    (hkey : KeyEncodable lib key a.client.compression_threshold)
    (htail : a.placement ≠ .listed .tail) (hw : a.Within c) :
    AllUndisturbed (a.methods lib key) c := by
  obtain ⟨hf,hne⟩ := dataChunks_spec lib a.client a.max_rpc_size key a.clientId a.values hkey
  unfold Addition.Within at hw
  cases hp : a.placement with
  | listed insertion =>
    rw [hp] at hw
    cases insertion with
    | tail => exact absurd hp htail
    | head =>
      rw [Addition.methods, hp]
      exact head_undisturbed _ c
    | position pos =>
      rw [Addition.methods, hp]
      refine position_undisturbed _ pos c hw.1 ?_
      rw [Addition.blocks, hf]
      exact hw.2
  | beside isBefore pivot =>
    rw [hp] at hw
    rw [Addition.methods, hp]
    exact pivot_undisturbed isBefore _ hne pivot c hw

theorem addition_total (a : Addition)
    (hkey : KeyEncodable lib key a.client.compression_threshold) :
    replies listReply (a.requests lib key) = UInt32.ofNat a.values.length := by
  obtain ⟨hf,_⟩ := dataChunks_spec lib a.client a.max_rpc_size key a.clientId a.values hkey
  rw [replies, Addition.requests, totalReply_dispatch]
  cases hp : a.placement with
  | listed insertion =>
    rw [Addition.methods, hp]
    exact insertion_total insertion _ a.values hf
  | beside isBefore pivot =>
    rw [Addition.methods, hp, totalReply, Placement.calls, Addition.blocks, pivotCalls_replies,
      sum_ofNat, ← List.length_flatten, hf]
    simp

theorem tail_requests (a : Addition) (hp : a.placement = .listed .tail) :
    (∀ r ∈ a.requests lib key, ∃ data, r.action.method = .addElementToTail data) ∧
      (a.requests lib key).flatMap tailBlock = (a.blocks lib key).flatten := by
  have hrequests : a.requests lib key = (a.blocks lib key).map (fun b =>
      dispatch a.client key a.hint a.clientId (.addElementToTail (some (b.map some)))) := by
    rw [Addition.requests, Addition.methods, hp]
    simp [Placement.calls, Insertion.calls]
  rw [hrequests]
  refine ⟨fun r hr => ?_,?_⟩
  · obtain ⟨b,_,rfl⟩ := List.mem_map.mp hr
    exact ⟨_,rfl⟩
  · rw [List.flatMap_map]
    induction a.blocks lib key with
    | nil => rfl
    | cons b bs ih =>
      rw [List.flatMap_cons, List.flatten_cons, ih]
      simp [tailBlock, dispatch]

def started (c : List Value) (plans : List AddPlan) : State (List Value) :=
  ⟨⟨c,[]⟩,plans.map Pipeline.start⟩

structure Mixes (additions : List Addition) (c : List Value) (s : State (List Value))
    (history : List (ℕ × Dispatch)) : Prop where
  container : s.served.container = applyAll listApply (history.map (·.2)) c
  requests : ∀ entry ∈ history, ∃ a, additions[entry.1]? = some a ∧
    entry.2 ∈ a.requests lib key
  front : ∀ w a, additions[w]? = some a → own history w <+: a.requests lib key
  whole : ∀ w a p n, additions[w]? = some a → s.pipelines[w]? = some p →
    p.outcome = some (.ok n) →
    own history w = a.requests lib key ∧ n = UInt32.ofNat a.values.length

theorem started_progress (additions : List Addition) (plans : List AddPlan) (c : List Value)
    (hplans : List.Forall₂ (fun a plan => a.operation lib key = .ok plan) additions plans)
    (hkey : ∀ a ∈ additions, KeyEncodable lib key a.client.compression_threshold) :
    Progress listApply listReply (additions.map (·.requests lib key)) c [] (started c plans) := by
  have hlen := hplans.length_eq
  refine ⟨rfl,fun _ h => absurd h List.not_mem_nil,by simp [started, hlen],fun w p hp => ?_⟩
  rw [started, List.getElem?_map] at hp
  obtain ⟨plan,hplan,rfl⟩ := Option.map_eq_some_iff.mp hp
  obtain ⟨hlt,hget⟩ := List.getElem?_eq_some_iff.mp hplan
  have hlt' : w < additions.length := hlen ▸ hlt
  have hop := (List.forall₂_iff_get.mp hplans).2 w hlt' hlt
  obtain ⟨outcome,hs,hdone⟩ := start_operation lib key additions[w] plan
    (hkey _ (List.getElem_mem hlt')) (by rw [← hget]; exact hop)
  rw [hs, List.getElem?_map, List.getElem?_eq_getElem hlt']
  exact ⟨rfl,rfl,hdone⟩

theorem run_mixes (additions : List Addition) (plans : List AddPlan) (c : List Value)
    (fails : ℕ → Option CallException)
    (hplans : List.Forall₂ (fun a plan => a.operation lib key = .ok plan) additions plans)
    (hkey : ∀ a ∈ additions, KeyEncodable lib key a.client.compression_threshold)
    (schedule : List ℕ) (s : State (List Value))
    (hrun : run (step fails listApply listReply) (started c plans) schedule = some s) :
    ∃ history, Mixes lib key additions c s history := by
  obtain ⟨history,h⟩ := run_progress fails listApply listReply _ c _ s schedule
    ⟨[],started_progress lib key additions plans c hplans hkey⟩ hrun
  have hown : ∀ w a, additions[w]? = some a → ∃ p, s.pipelines[w]? = some p ∧
      a.requests lib key = own history w++p.calls := by
    intro w a ha
    obtain ⟨hlt,_⟩ := List.getElem?_eq_some_iff.mp ha
    have hp := List.getElem?_eq_getElem (show w < s.pipelines.length by
      rw [h.length, List.length_map]
      exact hlt)
    have hplan := (h.pipelines w _ hp).1
    rw [List.getElem?_map, ha] at hplan
    exact ⟨_,hp,Option.some.inj hplan⟩
  refine ⟨history,h.container,fun entry he => ?_,fun w a ha => ?_,fun w a p n ha hp hout => ?_⟩
  · have hlt := h.known entry he
    rw [List.length_map] at hlt
    have ha := List.getElem?_eq_getElem hlt
    obtain ⟨p,_,hreq⟩ := hown entry.1 _ ha
    refine ⟨_,ha,?_⟩
    rw [hreq]
    refine List.mem_append_left _ (List.mem_map.mpr ⟨entry,?_,rfl⟩)
    exact List.mem_filter.mpr ⟨he,by simp⟩
  · obtain ⟨p,_,hreq⟩ := hown w a ha
    exact ⟨p.calls,hreq.symm⟩
  · obtain ⟨q,hq,hreq⟩ := hown w a ha
    obtain rfl : q = p := Option.some.inj (hq.symm.trans hp)
    obtain ⟨_,htotal,hdone⟩ := h.pipelines w q hq
    obtain ⟨hcalls,hn⟩ := hdone n hout
    rw [hcalls, List.append_nil] at hreq
    refine ⟨hreq.symm,?_⟩
    rw [hn, htotal, ← hreq]
    exact addition_total lib key a (hkey a (List.mem_of_getElem? ha))

theorem tail_elements (a : Addition)
    (hkey : KeyEncodable lib key a.client.compression_threshold)
    (hp : a.placement = .listed .tail) : (a.requests lib key).flatMap tailBlock = a.values := by
  rw [(tail_requests lib key a hp).2]
  exact (dataChunks_spec lib a.client a.max_rpc_size key a.clientId a.values hkey).1

theorem mixes_tails (additions : List Addition) (c : List Value) (s : State (List Value))
    (history : List (ℕ × Dispatch)) (h : Mixes lib key additions c s history) (i : ℕ)
    (htail : ∀ w a, w ≠ i → additions[w]? = some a → a.placement = .listed .tail) :
    ∀ entry ∈ history, entry.1 ≠ i →
      ∃ data, entry.2.action.method = .addElementToTail data := by
  intro entry he hne
  obtain ⟨a,ha,hmem⟩ := h.requests entry he
  exact (tail_requests lib key a (htail entry.1 a hne ha)).1 entry.2 hmem

theorem mixes_unowned (additions : List Addition) (c : List Value) (s : State (List Value))
    (history : List (ℕ × Dispatch)) (h : Mixes lib key additions c s history) (i : ℕ)
    (hnone : additions[i]? = none) : own history i = [] := by
  refine List.eq_nil_iff_forall_not_mem.mpr (fun r hr => ?_)
  obtain ⟨entry,he,_⟩ := List.mem_map.mp hr
  obtain ⟨he,hi⟩ := List.mem_filter.mp he
  obtain ⟨a,hget,_⟩ := h.requests entry he
  rw [show entry.1 = i by simpa using hi, hnone] at hget
  cases hget

theorem mixes_undisturbed (additions : List Addition) (c : List Value) (s : State (List Value))
    (history : List (ℕ × Dispatch)) (h : Mixes lib key additions c s history) (i : ℕ)
    (hkey : ∀ a ∈ additions, KeyEncodable lib key a.client.compression_threshold)
    (hwithin : ∀ a, additions[i]? = some a → a.placement ≠ .listed .tail ∧ a.Within c) :
    AllUndisturbed ((own history i).map (·.action.method)) c := by
  cases ha : additions[i]? with
  | none =>
    rw [mixes_unowned lib key additions c s history h i ha]
    trivial
  | some a =>
    obtain ⟨hplace,hin⟩ := hwithin a ha
    have hall := addition_undisturbed lib key a c (hkey a (List.mem_of_getElem? ha)) hplace hin
    obtain ⟨rest,hrest⟩ := h.front i a ha
    rw [← requests_methods, ← hrest, List.map_append] at hall
    exact undisturbed_front _ _ c hall

/-- The list is at any time what the one addition has made of it alone, with
blocks of the others and of nobody else behind it. An addition that has
returned is whole. -/
theorem additions_in_turn (additions : List Addition) (plans : List AddPlan) (i : ℕ)
    (c : List Value) (fails : ℕ → Option CallException)
    (hplans : List.Forall₂ (fun a plan => a.operation lib key = .ok plan) additions plans)
    (hkey : ∀ a ∈ additions, KeyEncodable lib key a.client.compression_threshold)
    (hplace : ∀ w a, additions[w]? = some a →
      if w = i then a.placement ≠ .listed .tail ∧ a.Within c else a.placement = .listed .tail)
    (schedule : List ℕ) (s : State (List Value))
    (hrun : run (step fails listApply listReply) (started c plans) schedule = some s) :
    ∃ (applied : List Dispatch) (blocks : List (ℕ × List Value)),
      s.served.container = applyAll listApply applied c++blocks.flatMap (·.2) ∧
      (∀ b ∈ blocks, b.1 ≠ i ∧ b.1 < additions.length) ∧
      (additions[i]? = none → applied = []) ∧
      (∀ a, additions[i]? = some a → applied <+: a.requests lib key) ∧
      (∀ w a, w ≠ i → additions[w]? = some a → elementsOf blocks w <+: a.values) ∧
      ∀ w a p n, additions[w]? = some a → s.pipelines[w]? = some p → p.outcome = some (.ok n) →
        n = UInt32.ofNat a.values.length ∧
          if w = i then applied = a.requests lib key else elementsOf blocks w = a.values := by
  obtain ⟨history,h⟩ := run_mixes lib key additions plans c fails hplans hkey schedule s hrun
  have htail : ∀ w a, w ≠ i → additions[w]? = some a → a.placement = .listed .tail := by
    intro w a hne ha
    have hp := hplace w a ha
    rwa [if_neg hne] at hp
  have hwithin : ∀ a, additions[i]? = some a → a.placement ≠ .listed .tail ∧ a.Within c := by
    intro a ha
    have hp := hplace i a ha
    rwa [if_pos rfl] at hp
  have helements : ∀ w a, w ≠ i → additions[w]? = some a →
      (a.requests lib key).flatMap tailBlock = a.values := fun w a hne ha =>
    tail_elements lib key a (hkey a (List.mem_of_getElem? ha)) (htail w a hne ha)
  have hcontainer := apply_interleaved i history c []
    (mixes_tails lib key additions c s history h i htail)
    (mixes_undisturbed lib key additions c s history h i hkey hwithin)
  rw [List.append_nil, List.nil_append, ← h.container] at hcontainer
  refine ⟨own history i,tails history i,hcontainer,fun b hb => ?_,
    mixes_unowned lib key additions c s history h i,h.front i,fun w a hne ha => ?_,
    fun w a p n ha hp hout => ?_⟩
  · obtain ⟨entry,he,hne,hblock⟩ := tails_owner history i b hb
    obtain ⟨a,ha,_⟩ := h.requests entry he
    rw [hblock]
    exact ⟨hne,(List.getElem?_eq_some_iff.mp ha).1⟩
  · obtain ⟨rest,hrest⟩ := h.front w a ha
    rw [elementsOf_tails history i w hne, ← helements w a hne ha, ← hrest, List.flatMap_append]
    exact List.prefix_append _ _
  · obtain ⟨hwhole,hn⟩ := h.whole w a p n ha hp hout
    refine ⟨hn,?_⟩
    by_cases hi : w = i
    · rw [if_pos hi, ← hi]
      exact hwhole
    · rw [if_neg hi, elementsOf_tails history i w hi, hwhole]
      exact helements w a hi ha

end Additions

section Sample

def twoAdditions : List Addition :=
  [{ max_rpc_size := 1, placement := .listed (.position 1), values := [.int 1,.int 2] },
    { max_rpc_size := 1, placement := .listed .tail, values := [.int 3] }]

def twoPlans : List AddPlan :=
  twoAdditions.map (fun a => .pipeline (a.requests storedLibdeflate sampleKey))

theorem additions_in_turn_two :
    ∃ s, run (step (fun _ => none) listApply listReply) (started [.int 8,.int 9] twoPlans)
        [0,1,0,1] = some s ∧
      ∃ applied blocks,
        s.served.container = applyAll listApply applied [.int 8,.int 9]++blocks.flatMap (·.2) ∧
        (∀ b ∈ blocks, b.1 = 1) ∧ elementsOf blocks 1 = [.int 3] := by
  refine ⟨_,rfl,?_⟩
  have hplace : ∀ w a, twoAdditions[w]? = some a →
      if w = 0 then a.placement ≠ .listed .tail ∧ a.Within [.int 8,.int 9]
      else a.placement = .listed .tail := by
    rintro (_ | _ | w) a ha
    · cases ha
      exact ⟨by simp,by decide,by decide⟩
    · cases ha
      rfl
    · cases ha
  obtain ⟨applied,blocks,hcontainer,howner,_,_,_,hwhole⟩ := additions_in_turn storedLibdeflate
    sampleKey twoAdditions twoPlans 0 [.int 8,.int 9] (fun _ => none) (.cons rfl (.cons rfl .nil))
    (fun a ha => fun h => absurd h (by
      rcases List.mem_cons.mp ha with rfl | ha
      · decide
      · rw [List.mem_singleton.mp ha]
        decide)) hplace [0,1,0,1] _ rfl
  refine ⟨applied,blocks,hcontainer,fun b hb => ?_,(hwhole 1 _ _ 1 rfl rfl rfl).2⟩
  obtain ⟨hne,hlt⟩ := howner b hb
  have : b.1 < 2 := hlt
  omega

end Sample

end HurriCache.ConcurrentAdditions
