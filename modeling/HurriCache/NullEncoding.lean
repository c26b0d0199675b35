import HurriCache.NullEstimates
import HurriCache.RequestSizes

/-!
# Null elements in the requests

A node's client skips null values when it creates an unordered container. It
reads every other element of a request, and reading is all that can go wrong
with a null there. The estimates read the same elements.
-/

set_option autoImplicit false

namespace HurriCache.NullEncoding
open HurriCache.ClientTypes HurriCache.PayloadCompression HurriCache.WireMessages
open HurriCache.MessageBuilders HurriCache.StandaloneCalls HurriCache.OrderedEncoders
open HurriCache.InsertRequests HurriCache.ChunkSplitters HurriCache.RequestSizes
open HurriCache.ExceptGuard HurriCache.NullEstimates

def NoNull : Method → Prop
  | .createQueue vs _ | .createList vs _ | .createVector vs _ | .createSet vs _
  | .addElementUnordered vs | .addElementToTail vs | .addElementToHead vs
  | .addElementToPosition vs _ | .addElementToPositionBefore vs _
  | .addElementToPositionAfter vs _ => ∀ v ∈ vs.getD [], v ≠ none
  | .createOrderedSet vs _ | .addElementWithWeight vs => ∀ v ∈ vs.getD [], v ≠ none
  | .createMap es _ => (∀ e ∈ es.getD [], e.1 ≠ none) ∧ ∀ e ∈ es.getD [], e.2 ≠ none
  | .createOrderedMap es _ => (∀ e ∈ es.getD [], e.1 ≠ none) ∧ ∀ e ∈ es.getD [], e.2 ≠ none
  | .addElementHashMap keys values =>
    (∀ k ∈ keys.getD [], k ≠ none) ∧ ∀ v ∈ values.getD [], v ≠ none
  | .addElementOrderedMap keys values =>
    (∀ k ∈ keys.getD [], k ≠ none) ∧ ∀ v ∈ values.getD [], v ≠ none
  | _ => True

section Requests

variable (lib : Libdeflate)

theorem estimatedSizes_guarded (hc : Compresses lib) (cid threshold : Int32) (m : Method) :
    NullGuarded (NoNull m) (estimatedSizes lib cid threshold m) := by
  have hvalues : ∀ vs : List ValuePtr, NullGuarded (∀ v ∈ vs, v ≠ none)
      (vs.mapM (estimateValueSize lib cid threshold)) :=
    fun vs => guarded_mapM _ _ _ vs (fun v _ => estimateValueSize_guarded lib cid threshold v)
  have hordered : ∀ vs : List OrderedValuePtr, NullGuarded (∀ v ∈ vs, v ≠ none)
      (vs.mapM (estimateOrderedValueSize lib cid threshold)) :=
    fun vs => guarded_mapM _ _ _ vs
      (fun v _ => estimateOrderedValueSize_guarded lib cid threshold v)
  have hkeys : ∀ ks : List KeyPtr, NullGuarded (∀ k ∈ ks, k ≠ none)
      (ks.mapM (estimateKeySize lib cid threshold)) :=
    fun ks => guarded_mapM _ _ _ ks (fun k _ => estimateKeySize_guarded lib cid threshold hc k)
  cases m with
  | createQueue vs _ | createList vs _ | createVector vs _ | createSet vs _
  | addElementUnordered vs | addElementToTail vs | addElementToHead vs
  | addElementToPosition vs _ | addElementToPositionBefore vs _
  | addElementToPositionAfter vs _ => exact guarded_then _ (hvalues _) (fun _ _ => ⟨_,rfl⟩)
  | createOrderedSet vs _ | addElementWithWeight vs =>
    exact guarded_then _ (hordered _) (fun _ _ => ⟨_,rfl⟩)
  | createMap es _ =>
    refine guarded_bind _ (guarded_mapM _ _ _ _
      (fun e _ => estimateKeySize_guarded lib cid threshold hc e.1)) (fun _ _ => ?_)
    exact guarded_then _ (guarded_mapM _ _ _ _
      (fun e _ => estimateValueSize_guarded lib cid threshold e.2)) (fun _ _ => ⟨_,rfl⟩)
  | createOrderedMap es _ =>
    refine guarded_bind _ (guarded_mapM _ _ _ _
      (fun e _ => estimateOrderedKeySize_guarded cid e.1)) (fun _ _ => ?_)
    exact guarded_then _ (guarded_mapM _ _ _ _
      (fun e _ => estimateOrderedValueSize_guarded lib cid threshold e.2)) (fun _ _ => ⟨_,rfl⟩)
  | addElementHashMap ks vs =>
    exact guarded_bind _ (hkeys _) (fun _ _ => guarded_then _ (hvalues _) (fun _ _ => ⟨_,rfl⟩))
  | addElementOrderedMap ks vs =>
    exact guarded_bind _ (hordered _) (fun _ _ => guarded_then _ (hvalues _) (fun _ _ => ⟨_,rfl⟩))
  | _ => exact guarded_ok _ _

section Encoders

theorem deref_avoids {A : Type} (v : Option A) (h : v ≠ none) :
    Avoids .nullPointer (deref v) :=
  (deref_guarded v).avoids_iff.mpr h

theorem key_avoids (hc : Compresses lib) (key : Key) (hint : Option KeyHint)
    (cid threshold : Int32) : Avoids .nullPointer (buildKeyProto lib key hint cid threshold) := by
  obtain ⟨m,hm⟩ := buildKeyProto_ok lib key hint cid threshold
    (keyEncodable_of_compresses lib hc key threshold)
  rw [hm]
  exact avoids_ok _ m

theorem dataMember_avoids (v : Value) : Avoids .nullPointer v.dataMember := by
  cases v with
  | bytes data => exact avoids_ok _ data
  | int n => exact fun h => nomatch h
  | double bits => exact fun h => nomatch h

theorem plainElement_avoids (cid : Int32) (v : ValuePtr) (h : v ≠ none) :
    Avoids .nullPointer (plainElement lib cid v) :=
  avoids_bind _ (deref_avoids v h) (fun _ _ => avoids_ok _ _)

theorem compress_ne_none (hc : Compresses lib) (source : Bytes) (n : UInt32) :
    compress lib source n ≠ none := by
  rw [compress, if_neg (hc _)]
  exact Option.some_ne_none _

theorem orderedElement_avoids (hc : Compresses lib) (threshold : Int32) (val : OrderedValue) :
    Avoids .nullPointer (orderedElement lib threshold val) := by
  refine avoids_bind _ (dataMember_avoids val.elem) (fun data _ => ?_)
  split
  · split
    next hnone => exact absurd hnone (compress_ne_none lib hc _ _)
    next => exact avoids_ok _ _
  · exact avoids_ok _ _

theorem addEntries_avoids {K M : Type} (hc : Compresses lib) (key : Key) (hint : Option KeyHint)
    (cid : Int32) (type : ContainerKind) (keyElement : K → Except Fault M)
    (withKeys : AddToRequest → List M → AddToRequest) (keys : Option (List K))
    (values : Option (List ValuePtr))
    (hkeys : ∀ k ∈ keys.getD [], Avoids .nullPointer (keyElement k))
    (hvalues : ∀ v ∈ values.getD [], v ≠ none) :
    Avoids .nullPointer
      (addEntriesRequest lib key hint cid type keyElement withKeys keys values) := by
  refine avoids_bind _ (key_avoids lib hc key hint cid _) (fun k _ => ?_)
  cases keys with
  | none => exact avoids_ok _ _
  | some keys =>
    cases values with
    | none => exact avoids_ok _ _
    | some values =>
      dsimp only
      split
      · refine avoids_bind _ (avoids_mapM _ _ _ hkeys) (fun _ _ => ?_)
        exact avoids_bind _ (avoids_mapM _ _ _ (fun v hv => plainElement_avoids lib cid v
          (hvalues v hv))) (fun _ _ => avoids_ok _ _)
      · exact avoids_ok _ _

end Encoders

theorem insertRequest_avoids (hc : Compresses lib) (threshold : Int32) (now : Int64)
    (call : StandaloneCall) (h : NoNull call.method) :
    Avoids .nullPointer (insertRequest lib threshold now call) := by
  obtain ⟨key,hint,cid,method⟩ := call
  have hkey := fun hint threshold => key_avoids lib hc key hint cid threshold
  have hplain : ∀ vs : List ValuePtr, (∀ v ∈ vs, v ≠ none) →
      Avoids .nullPointer (vs.mapM (plainElement lib cid)) :=
    fun vs hvs => avoids_mapM _ _ vs (fun v hv => plainElement_avoids lib cid v (hvs v hv))
  cases method with
  | createQueue vs _ | createList vs _ | createVector vs _ | createSet vs _ =>
    exact avoids_map _ _ (avoids_bind _ (hkey _ _) (fun _ _ => avoids_ok _ _))
  | createOrderedSet vs _ =>
    refine avoids_map _ _ (avoids_bind _ (hkey _ _) (fun _ _ => ?_))
    refine avoids_bind _ (avoids_mapM _ _ _ (fun v hv => ?_)) (fun _ _ => avoids_ok _ _)
    exact avoids_bind _ (deref_avoids v (h v hv))
      (fun val _ => orderedElement_avoids lib hc threshold val)
  | createMap es _ =>
    refine avoids_map _ _ (avoids_bind _ (hkey _ _) (fun _ _ => ?_))
    refine avoids_bind _ (avoids_mapM _ _ _ (fun e he => ?_)) (fun _ _ => ?_)
    · exact avoids_bind _ (deref_avoids e.1 (h.1 e he)) (fun _ _ => avoids_ok _ _)
    · exact avoids_bind _ (avoids_mapM _ _ _
        (fun e he => plainElement_avoids lib cid e.2 (h.2 e he))) (fun _ _ => avoids_ok _ _)
  | createOrderedMap es _ =>
    refine avoids_map _ _ (avoids_bind _ (avoids_mapM _ _ _ (fun e he => ?_)) (fun out hout => ?_))
    · exact avoids_bind _ (deref_avoids e.1 (h.1 e he)) (fun _ _ => avoids_ok _ _)
    · refine avoids_bind _ (hkey _ _) (fun _ _ => ?_)
      refine avoids_bind _ (avoids_mapM _ _ _ (fun e he => ?_)) (fun _ _ => avoids_ok _ _)
      have hvalue : e.2 ≠ none := by
        obtain ⟨source,hsource,hpair⟩ := mem_of_mapM_ok _ _ out hout e he
        obtain ⟨k,_,hk⟩ := bind_eq_ok hpair
        cases hk
        exact h.2 source hsource
      exact avoids_bind _ (deref_avoids e.2 hvalue) (fun v _ =>
        avoids_bind _ (dataMember_avoids v.elem) (fun _ _ => avoids_ok _ _))
  | addElementUnordered vs | addElementToTail vs | addElementToHead vs
  | addElementToPosition vs _ =>
    refine avoids_map _ _ (avoids_bind _ (hkey _ _) (fun _ _ => ?_))
    exact avoids_bind _ (hplain _ h) (fun _ _ => avoids_ok _ _)
  | addElementToPositionBefore vs pivot | addElementToPositionAfter vs pivot =>
    refine avoids_map _ _ ?_
    cases pivot with
    | none => exact avoids_ok _ _
    | some pivot =>
      refine avoids_bind _ (hkey _ _) (fun _ _ => ?_)
      exact avoids_bind _ (hplain _ h) (fun _ _ => avoids_ok _ _)
  | addElementWithWeight vs =>
    refine avoids_map _ _ (avoids_bind _ (hkey _ _) (fun _ _ => ?_))
    refine avoids_bind _ (avoids_mapM _ _ _ (fun v hv => ?_)) (fun _ _ => avoids_ok _ _)
    exact avoids_bind _ (deref_avoids v (h v hv)) (fun val _ =>
      avoids_bind _ (dataMember_avoids val.elem) (fun _ _ => avoids_ok _ _))
  | addElementHashMap ks vs =>
    refine avoids_map _ _ (addEntries_avoids lib hc key hint cid _ _ _ ks vs (fun k hk => ?_) h.2)
    exact avoids_bind _ (deref_avoids k (h.1 k hk)) (fun _ _ => avoids_ok _ _)
  | addElementOrderedMap ks vs =>
    refine avoids_map _ _ (addEntries_avoids lib hc key hint cid _ _ _ ks vs (fun k hk => ?_) h.2)
    exact avoids_bind _ (deref_avoids k (h.1 k hk)) (fun k _ =>
      avoids_bind _ (dataMember_avoids k.elem) (fun _ _ => avoids_ok _ _))
  | _ => exact avoids_ok _ _

end Requests

end HurriCache.NullEncoding
