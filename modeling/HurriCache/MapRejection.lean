import HurriCache.CallPipelines
import HurriCache.MapAlignment
import HurriCache.NullEstimates
import HurriCache.RequestSizes
import HurriCache.StoredGzip

/-!
# Maps with keys and values of different number

A node's client refuses a map addition whose lists differ in length before it
sends anything. The smart client lets the chunks meet that check one by one.
What is refused as a whole is the input whose first chunk runs into an entry
without a value; otherwise the first chunk has been sent by then, and surplus
values are never looked at.
-/

set_option autoImplicit false

namespace HurriCache.MapRejection
open HurriCache.ClientTypes HurriCache.PayloadCompression HurriCache.WireMessages
open HurriCache.MessageBuilders HurriCache.InsertRequests HurriCache.StandaloneCalls
open HurriCache.CallOutcomes HurriCache.CallPipelines HurriCache.GreedyCut
open HurriCache.ChunkSplitters HurriCache.SmartOperations HurriCache.RequestSizes
open HurriCache.CreationPlans HurriCache.MapAlignment HurriCache.NullEstimates
open HurriCache.StoredGzip

def sizesDiffer : CallException :=
  .other "container_keys and container_values must have same size".toList

section Calls

variable (lib : Libdeflate) (client : SmartClient) (now : Int64)

/-- A map addition on one node: refused, or sent once its request is built. A
fault in building it ends the run. -/
def mapCall {C : Type} (send : Dispatch → Call (Served C) UInt32) (request : Dispatch) :
    Call (Except Fault (Served C)) UInt32
  | .error f => (.error (.other []),.error f)
  | .ok s =>
    match insertRequest lib client.compression_threshold now request.action with
    | .error f => (.error (.other []),.error f)
    | .ok none => (.error sizesDiffer,.ok s)
    | .ok (some _) => ((send request s).1,.ok (send request s).2)

variable {C : Type} (fails : ℕ → Option CallException) (apply : Method → C → C)
  (reply : Method → UInt32)

def RejectedWhole (plan : Except Fault AddPlan) (s : Served C) : Prop :=
  ∃ p e, plan = .ok p ∧
    runAddPlan (mapCall lib client now (serve fails apply reply)) p (.ok s) = (.error e,.ok s)

theorem serve_requests (request : Dispatch) (s : Served C) :
    (serve fails apply reply request s).2.requests = s.requests++[request] := by
  rw [serve]
  split <;> rfl

/-- More requests have been sent than n, or there has been a fault. -/
def Beyond (n : ℕ) : Except Fault (Served C) → Prop
  | .error _ => True
  | .ok s => n < s.requests.length

theorem mapCall_beyond (n : ℕ) (request : Dispatch) (st : Except Fault (Served C))
    (h : Beyond n st) :
    Beyond n (mapCall lib client now (serve fails apply reply) request st).2 := by
  cases st with
  | error f => trivial
  | ok s =>
    rw [mapCall]
    split
    · trivial
    · exact h
    · show n < (serve fails apply reply request s).2.requests.length
      rw [serve_requests, List.length_append]
      exact Nat.lt_add_right 1 h

theorem accepted_beyond (request : Dispatch) (s : Served C)
    (h : insertRequest lib client.compression_threshold now request.action ≠ .ok none) :
    Beyond s.requests.length
      (mapCall lib client now (serve fails apply reply) request (.ok s)).2 := by
  rw [mapCall]
  split
  · trivial
  · exact absurd ‹_› h
  · show _ < (serve fails apply reply request s).2.requests.length
    rw [serve_requests, List.length_append]
    exact Nat.lt_succ_self _

theorem pipeline_rejected_iff (first : Dispatch) (rest : List Dispatch) (s : Served C) :
    RejectedWhole lib client now fails apply reply (.ok (.pipeline (first::rest))) s ↔
      insertRequest lib client.compression_threshold now first.action = .ok none := by
  constructor
  · rintro ⟨p,e,hp,hrun⟩
    cases hp
    by_contra hsent
    have hfirst := accepted_beyond lib client now fails apply reply first s hsent
    have hlast : Beyond s.requests.length (runAddPlan
        (mapCall lib client now (serve fails apply reply)) (.pipeline (first::rest))
          (.ok s)).2 := by
      rw [runAddPlan, runAddPipeline, List.map_cons, runCalls]
      split
      next value next he =>
        rw [he] at hfirst
        refine runCalls_invariant (Beyond s.requests.length) _ _ _ next ?_ hfirst
        intro call hcall st hst
        obtain ⟨request,_,rfl⟩ := List.mem_map.mp hcall
        exact mapCall_beyond lib client now fails apply reply _ request st hst
      next e next he =>
        rw [he] at hfirst
        exact hfirst
    rw [hrun] at hlast
    exact Nat.lt_irrefl _ hlast
  · intro hrefused
    refine ⟨.pipeline (first::rest),sizesDiffer,rfl,?_⟩
    rw [runAddPlan, runAddPipeline, List.map_cons, runCalls, mapCall, hrefused]

end Calls

section Entries

theorem map_none_iff {A B : Type} (x : Except Fault (Option A)) (f : A → B) :
    x.map (Option.map f) = .ok none ↔ x = .ok none := by
  cases x with
  | error e => exact ⟨(fun h => nomatch h),(fun h => nomatch h)⟩
  | ok a =>
    cases a with
    | none => exact ⟨fun _ => rfl,fun _ => rfl⟩
    | some a => exact ⟨(fun h => nomatch h),(fun h => nomatch h)⟩

variable {K : Type}

def ReachesNull (size : K × ValuePtr → UInt64) (base_size : UInt64) (max_rpc_size : Int64)
    (entries : List (K × ValuePtr)) : Prop :=
  ∃ before e after, entries = before++e::after ∧ ¬ HasValue e ∧
    Fitting base_size (overflows size max_rpc_size) (addSize size) (before++[e])

theorem first_chunk_refused_iff (size : K × ValuePtr → UInt64) (base_size : UInt64)
    (max_rpc_size : Int64) (entries block : List (K × ValuePtr))
    (blocks : List (List (K × ValuePtr)))
    (h : blocksOf size base_size max_rpc_size entries = block::blocks) :
    ¬ Passes (mapChunk block) ↔ ReachesNull size base_size max_rpc_size entries := by
  simp only [passes_iff, not_forall, exists_prop]
  exact head_exists_iff base_size _ _ (fun e => ¬ HasValue e) entries block blocks h

end Entries

section Additions

variable (lib : Libdeflate) (client : SmartClient) (now : Int64) (max_rpc_size : Int64)
  (key : Key) (hint : Option KeyHint) (clientId : Int32)

theorem hashMap_refused_iff (hc : Compresses lib) (request : Option KeyHint) (cid : Int32)
    (chunk : MapChunk KeyPtr) :
    insertRequest lib client.compression_threshold now
      ⟨key,request,cid,.addElementHashMap (some chunk.keys) (some chunk.values)⟩ = .ok none ↔
    ¬ Passes chunk := by
  obtain ⟨k,hk⟩ := buildKeyProto_ok lib key request cid defaultThreshold
    (keyEncodable_of_compresses lib hc key _)
  exact (map_none_iff _ _).trans (addEntries_refused_iff lib key request cid _ _ _ chunk k hk)

theorem orderedMap_refused_iff (hc : Compresses lib) (request : Option KeyHint) (cid : Int32)
    (chunk : MapChunk OrderedValuePtr) :
    insertRequest lib client.compression_threshold now
      ⟨key,request,cid,.addElementOrderedMap (some chunk.keys) (some chunk.values)⟩ = .ok none ↔
    ¬ Passes chunk := by
  obtain ⟨k,hk⟩ := buildKeyProto_ok lib key request cid defaultThreshold
    (keyEncodable_of_compresses lib hc key _)
  exact (map_none_iff _ _).trans (addEntries_refused_iff lib key request cid _ _ _ chunk k hk)

variable {C : Type} (fails : ℕ → Option CallException) (apply : Method → C → C)
  (reply : Method → UInt32)

theorem chunks_rejected_iff {K : Type} (size : K × ValuePtr → Except Fault UInt64)
    (call : MapChunk K → Method) (base_size : UInt64) (entries : List (K × ValuePtr))
    (hne : entries ≠ []) (hsized : ∀ e ∈ entries, ∃ n, size e = .ok n)
    (hcall : ∀ chunk, insertRequest lib client.compression_threshold now
      (dispatch client key hint clientId (call chunk)).action = .ok none ↔ ¬ Passes chunk)
    (s : Served C) :
    RejectedWhole lib client now fails apply reply (do
        let chunks ← partitionChunks (mapShape K) size entries base_size max_rpc_size
        .ok (.pipeline
          (chunks.map (fun chunk => dispatch client key hint clientId (call chunk))))) s ↔
      ReachesNull (sizeOr size) base_size max_rpc_size entries := by
  have hchunks := partitionChunks_eq (mapShape K) mapChunk (mapShape_views K) size (sizeOr size)
    base_size max_rpc_size entries (fun e he => sizeOr_eq size e (hsized e he))
  have hblocks : blocksOf (sizeOr size) base_size max_rpc_size entries ≠ [] :=
    fun h => hne ((cut_eq_nil_iff base_size _ _ entries).mp h)
  obtain ⟨block,blocks,hcut⟩ := List.exists_cons_of_ne_nil hblocks
  rw [hchunks, hcut]
  have hfirst := pipeline_rejected_iff lib client now fails apply reply
    (dispatch client key hint clientId (call (mapChunk block)))
    ((blocks.map mapChunk).map (fun chunk => dispatch client key hint clientId (call chunk))) s
  rw [hcall, first_chunk_refused_iff (sizeOr size) base_size max_rpc_size entries block blocks
    hcut] at hfirst
  exact hfirst

theorem fault_not_rejected (f : Fault) (s : Served C) :
    ¬ RejectedWhole lib client now fails apply reply (.error f) s := by
  rintro ⟨p,e,hp,_⟩
  cases hp

theorem zipValues_ne_nil {K : Type} (keys : List K) (hne : keys ≠ []) (values : List ValuePtr) :
    zipValues keys values ≠ [] := by
  intro h
  have hkeys := zipValues_keys keys values
  rw [h] at hkeys
  exact hne hkeys.symm

theorem hashMap_rejected_iff (hc : Compresses lib) (keys : List KeyPtr) (hne : keys ≠ [])
    (values : Option (List ValuePtr)) (s : Served C) :
    RejectedWhole lib client now fails apply reply
        (addElementHashMap lib client max_rpc_size key hint clientId (some keys) values) s ↔
      (∀ k ∈ keys, k ≠ none) ∧ ReachesNull
        (sizeOr (mapPairSize lib (client.effectiveClientId clientId) client.compression_threshold))
        (baseOf lib client key clientId) max_rpc_size (zipValues keys (values.getD [])) := by
  have hentries := zipValues_forall (· ≠ none) keys (values.getD [])
  have hcopy := copyMap_guarded (some (zipValues keys (values.getD [])))
  obtain ⟨k,ks,rfl⟩ := List.exists_cons_of_ne_nil hne
  rw [addElementHashMap, addBase_eq lib client key clientId hc]
  by_cases hkeys : ∀ k' ∈ k::ks, k' ≠ none
  · have hsized := fun e he => (mapPairSize_guarded lib (client.effectiveClientId clientId)
      client.compression_threshold hc e).succeeds (hentries.mpr hkeys e he)
    have hrejected := chunks_rejected_iff lib client now max_rpc_size key hint clientId fails apply
      reply _ (fun chunk => .addElementHashMap (some chunk.keys) (some chunk.values))
      (baseOf lib client key clientId) _ (zipValues_ne_nil _ hne (values.getD [])) hsized
      (hashMap_refused_iff lib client now key hc _ _) s
    rw [copyMap_eq (some (zipValues (k::ks) (values.getD []))) (hentries.mpr hkeys),
      and_iff_right hkeys]
    exact hrejected
  · have hfault := hcopy.faults (fun h => hkeys (hentries.mp h))
    rw [hfault]
    exact iff_of_false (fault_not_rejected lib client now fails apply reply _ s)
      (fun h => hkeys h.1)

theorem orderedMap_rejected_iff (hc : Compresses lib) (keys : List OrderedValuePtr)
    (hne : keys ≠ []) (values : Option (List ValuePtr)) (s : Served C) :
    RejectedWhole lib client now fails apply reply
        (addElementOrderedMap lib client max_rpc_size key hint clientId (some keys) values) s ↔
      (∀ k ∈ keys, k ≠ none) ∧ ReachesNull
        (sizeOr (orderedMapPairSize lib (client.effectiveClientId clientId)
          client.compression_threshold))
        (baseOf lib client key clientId) max_rpc_size (zipValues keys (values.getD [])) := by
  have hentries := zipValues_forall (· ≠ none) keys (values.getD [])
  have hsize := orderedMapPairSize_guarded lib (client.effectiveClientId clientId)
    client.compression_threshold
  have hpartition := partition_guarded _ _ max_rpc_size (mapShape OrderedValuePtr)
    (baseOf lib client key clientId) (zipValues keys (values.getD [])) (fun e _ => hsize e)
  obtain ⟨k,ks,rfl⟩ := List.exists_cons_of_ne_nil hne
  rw [addElementOrderedMap, addBase_eq lib client key clientId hc, copyOrderedValues_eq,
    copyValues_eq]
  by_cases hkeys : ∀ k' ∈ k::ks, k' ≠ none
  · rw [and_iff_right hkeys]
    exact chunks_rejected_iff lib client now max_rpc_size key hint clientId fails apply
      reply _ (fun chunk => .addElementOrderedMap (some chunk.keys) (some chunk.values))
      (baseOf lib client key clientId) _ (zipValues_ne_nil _ hne (values.getD []))
      (fun e he => (hsize e).succeeds (hentries.mpr hkeys e he))
      (orderedMap_refused_iff lib client now key hc _ _) s
  · have hfault := hpartition.faults (fun h => hkeys (hentries.mp h))
    refine iff_of_false ?_ (fun h => hkeys h.1)
    simp only [bind, Except.bind, Option.getD_some, partitionOrderedMapChunks, hfault]
    exact fault_not_rejected lib client now fails apply reply _ s

def Mismatched {K : Type} (keys : List K) (values : Option (List ValuePtr)) : Prop :=
  values.map List.length ≠ some keys.length

instance {K : Type} (keys : List K) (values : Option (List ValuePtr)) :
    Decidable (Mismatched keys values) :=
  inferInstanceAs (Decidable (_ ≠ _))

theorem addEntries_mismatched {K M : Type} (cid : Int32) (type : ContainerKind)
    (keyElement : K → Except Fault M) (withKeys : AddToRequest → List M → AddToRequest)
    (hc : Compresses lib) (keys : List K) (values : Option (List ValuePtr))
    (h : Mismatched keys values) :
    addEntriesRequest lib key hint cid type keyElement withKeys (some keys) values =
      .ok none := by
  obtain ⟨k,hk⟩ := buildKeyProto_ok lib key hint cid defaultThreshold
    (keyEncodable_of_compresses lib hc key _)
  cases values with
  | none =>
    rw [addEntriesRequest, hk]
    rfl
  | some values =>
    refine (addEntries_refused_iff lib key hint cid type keyElement withKeys ⟨keys,values⟩ k
      hk).mpr (fun hpasses => h ?_)
    exact congrArg some (Eq.symm hpasses)

theorem standalone_rejects (send : Dispatch → Call (Served C) UInt32) (request : Dispatch)
    (s : Served C)
    (h : insertRequest lib client.compression_threshold now request.action = .ok none) :
    mapCall lib client now send request (.ok s) = (.error sizesDiffer,.ok s) := by
  rw [mapCall, h]

/-- On lists of different length the node's client always rejects as a whole;
the smart client does so exactly when its first chunk meets a missing value. -/
theorem rejected_whole_iff (hc : Compresses lib) (s : Served C) :
    (∀ (keys : List KeyPtr) (values : Option (List ValuePtr)), keys ≠ [] →
      Mismatched keys values →
      mapCall lib client now (serve fails apply reply)
          ⟨hint,⟨key,hint,clientId,.addElementHashMap (some keys) values⟩⟩ (.ok s) =
        (.error sizesDiffer,.ok s) ∧
      (RejectedWhole lib client now fails apply reply
          (addElementHashMap lib client max_rpc_size key hint clientId (some keys) values) s ↔
        (∀ k ∈ keys, k ≠ none) ∧ ReachesNull
          (sizeOr (mapPairSize lib (client.effectiveClientId clientId)
            client.compression_threshold))
          (baseOf lib client key clientId) max_rpc_size (zipValues keys (values.getD [])))) ∧
    ∀ (keys : List OrderedValuePtr) (values : Option (List ValuePtr)), keys ≠ [] →
      Mismatched keys values →
      mapCall lib client now (serve fails apply reply)
          ⟨hint,⟨key,hint,clientId,.addElementOrderedMap (some keys) values⟩⟩ (.ok s) =
        (.error sizesDiffer,.ok s) ∧
      (RejectedWhole lib client now fails apply reply
          (addElementOrderedMap lib client max_rpc_size key hint clientId (some keys) values) s ↔
        (∀ k ∈ keys, k ≠ none) ∧ ReachesNull
          (sizeOr (orderedMapPairSize lib (client.effectiveClientId clientId)
            client.compression_threshold))
          (baseOf lib client key clientId) max_rpc_size (zipValues keys (values.getD []))) := by
  constructor
  · intro keys values hne hmis
    refine ⟨standalone_rejects lib client now _ _ s ?_,hashMap_rejected_iff lib client now
      max_rpc_size key hint clientId fails apply reply hc keys hne values s⟩
    exact (map_none_iff _ _).mpr
      (addEntries_mismatched lib key hint clientId _ _ _ hc keys values hmis)
  · intro keys values hne hmis
    refine ⟨standalone_rejects lib client now _ _ s ?_,orderedMap_rejected_iff lib client now
      max_rpc_size key hint clientId fails apply reply hc keys hne values s⟩
    exact (map_none_iff _ _).mpr
      (addEntries_mismatched lib key hint clientId _ _ _ hc keys values hmis)

end Additions

theorem rejected_whole_iff_pair :
    RejectedWhole memberLibdeflate {} 0 (fun _ => none) (fun _ n => n+1) (fun _ => 1)
        (addElementHashMap memberLibdeflate {} 1000 sampleKey none 7
          (some [some sampleKey,some sampleKey]) (some [some (.int 1)])) ⟨0,[]⟩ ↔
      (∀ k ∈ [some sampleKey,some sampleKey], k ≠ none) ∧ ReachesNull
        (sizeOr (mapPairSize memberLibdeflate 7 1024)) (baseOf memberLibdeflate {} sampleKey 7)
        1000 [(some sampleKey,some (.int 1)),(some sampleKey,none)] :=
  ((rejected_whole_iff memberLibdeflate {} 0 1000 sampleKey none 7 (fun _ => none)
    (fun _ n => n+1) (fun _ => 1) memberLibdeflate_compresses ⟨0,[]⟩).1
      [some sampleKey,some sampleKey] (some [some (.int 1)]) (by decide) (by decide)).2

def countedRun (plan : Except Fault AddPlan) :
    Except Fault (Outcome UInt32 × Except Fault (Served ℕ)) :=
  plan.map (fun p => runAddPlan (mapCall memberLibdeflate {} 0
    (serve (fun _ => none) (fun _ n => n+1) (fun _ => 1))) p (.ok ⟨0,[]⟩))

theorem countedRun_rejected (plan : Except Fault AddPlan)
    (h : RejectedWhole memberLibdeflate {} 0 (fun _ => none) (fun _ n => n+1) (fun _ => 1) plan
      ⟨0,[]⟩) : ∃ e, countedRun plan = .ok (.error e,.ok ⟨0,[]⟩) := by
  obtain ⟨p,e,rfl,hrun⟩ := h
  exact ⟨e,congrArg Except.ok hrun⟩

def surplusPlan : Except Fault AddPlan :=
  addElementHashMap memberLibdeflate {} 1000 sampleKey none 7 (some [some sampleKey])
    (some [some (.int 1),some (.int 2)])

def missingPlan : Except Fault AddPlan :=
  addElementHashMap memberLibdeflate {} 1 sampleKey none 7 (some [some sampleKey,some sampleKey])
    (some [some (.int 1)])

/-- A surplus value is dropped and the addition succeeds; a missing value is
met after the first entry has been stored. -/
theorem mismatch_applied :
    (Mismatched [some sampleKey] (some [some (.int 1),some (.int 2)]) ∧
      ((countedRun surplusPlan).map (fun r => (r.1,r.2.map (·.container)))) = .ok (.ok 1,.ok 1) ∧
      ¬ RejectedWhole memberLibdeflate {} 0 (fun _ => none) (fun _ n => n+1) (fun _ => 1)
        surplusPlan ⟨0,[]⟩) ∧
    Mismatched [some sampleKey,some sampleKey] (some [some (.int 1)]) ∧
      ((countedRun missingPlan).map (fun r => (r.1,r.2.map (·.container)))) =
        .ok (.error sizesDiffer,.ok 1) ∧
      ¬ RejectedWhole memberLibdeflate {} 0 (fun _ => none) (fun _ n => n+1) (fun _ => 1)
        missingPlan ⟨0,[]⟩ := by
  have hsurplus : ((countedRun surplusPlan).map (fun r => (r.1,r.2.map (·.container)))) =
      .ok (.ok 1,.ok 1) := rfl
  have hmissing : ((countedRun missingPlan).map (fun r => (r.1,r.2.map (·.container)))) =
      .ok (.error sizesDiffer,.ok 1) := rfl
  refine ⟨⟨by decide,hsurplus,?_⟩,by decide,hmissing,?_⟩
  · intro h
    obtain ⟨e,he⟩ := countedRun_rejected surplusPlan h
    rw [he] at hsurplus
    cases hsurplus
  · intro h
    obtain ⟨e,he⟩ := countedRun_rejected missingPlan h
    rw [he] at hmissing
    cases hmissing

end HurriCache.MapRejection
