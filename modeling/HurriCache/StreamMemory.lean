import HurriCache.DecodedObjects
import HurriCache.StreamCall

/-!
# The memory of a stream

The accumulators of the streaming methods with the objects that they
allocate, and `free_content`, with which a caller frees a result. As long as
no allocation fails, nothing is freed twice and what stays allocated for good
is the buffers of compressed keys and, for a range of an ordered map, the
halves of pairs that are not whole.
-/

set_option autoImplicit false

namespace HurriCache.StreamMemory
open HurriCache.ClientTypes HurriCache.PayloadCompression HurriCache.WireMessages
open HurriCache.MessageDecoders HurriCache.KeyDecoders HurriCache.StreamCall
open HurriCache.Ownership HurriCache.DecodedObjects HurriCache.StoredGzip

structure BatchEntries extends BatchValueResponse where
  key_unordered : List KeyMessage := []
  key_ordered : List OrderedKeyMessage := []

section Steps

variable {K M : Type} (lib : Libdeflate)

def pushStep {A : Type} (decode : M → Mem (Pointer A)) (m : M) : Mem (List (Pointer A)) := do
  let v ← decode m
  pure [v]

def pairStep (keyOf : M → Mem (Pointer K)) (p : M × ValueMessage) :
    Mem (List (Object K × Object Value)) := do
  let k ← keyOf p.1
  let v ← valueObject lib p.2
  match k, v with
  | none, v => do
    deletePointer v
    pure []
  | some k, none => do
    deleteObject k
    pure []
  | some k, some v => pure [(k,v)]

def rangeStep (keyOf : M → Mem (Pointer K)) (p : M × ValueMessage) :
    Mem (List (Object K × Object Value)) := do
  let k ← keyOf p.1
  let v ← valueObject lib p.2
  match k, v with
  | some k, some v => pure [(k,v)]
  | _, _ => pure []

def deletePair (p : Object K × Object Value) : Mem Unit := do
  deleteObject p.1
  deleteObject p.2

def pairOwned (p : Object K × Object Value) : List ℕ := p.1.owned++p.2.owned

def pairValue (p : Object K × Object Value) : K × Value := (p.1.value,p.2.value)

def readPair (readKey : M → Option K) (p : M × ValueMessage) : List (K × Value) :=
  match readKey p.1, valueRequestToValue lib p.2 with
  | some k, some v => [(k,v)]
  | _, _ => []

end Steps

section Rules

variable {K M : Type} (lib : Libdeflate)

theorem yields_push {A : Type} (weight : A → ℕ) (decode : M → Mem (Pointer A))
    (read : M → Option A)
    (h : ∀ m, Turns [] (decode m) (fun o post => Holds weight (read m) o ∧ post = pointerOwned o))
    (m : M) :
    Yields pointerOwned (Option.map Object.value) [] (pushStep decode m) [read m] 0 := by
  refine turns_bind (h m) ?_
  rintro o post ⟨hvalue,rfl⟩
  exact turns_pure [o] ⟨by rw [← hvalue.value]; rfl,[],by simp,rfl⟩

theorem turns_deletePair (p : Object K × Object Value) :
    Turns (pairOwned p) (deletePair p) (fun _ post => post = []) := by
  refine turns_then p.2.owned (turns_deleteObject p.1) ?_
  rintro _ own rfl
  exact turns_deleteObject p.2

def DecodesKey (weight : K → ℕ) (keyOf : M → Mem (Pointer K)) (readKey : M → Option K)
    (loss : M → ℕ) : Prop :=
  ∀ m, Turns [] (keyOf m) (fun o post => Holds weight (readKey m) o ∧
    ∃ lost : List ℕ, post.Perm (pointerOwned o++lost) ∧ lost.length = loss m)

variable (weight : K → ℕ) (keyOf : M → Mem (Pointer K)) (readKey : M → Option K) (loss : M → ℕ)
  (hkey : DecodesKey weight keyOf readKey loss)
include hkey

theorem turns_decodePair {B : Type} (p : M × ValueMessage)
    (f : Pointer K → Pointer Value → Mem B) (S : B → List ℕ → Prop)
    (hf : ∀ k v (lost : List ℕ), Holds weight (readKey p.1) k →
      Holds valueWeight (valueRequestToValue lib p.2) v → lost.length = loss p.1 →
      Turns (pointerOwned v++(pointerOwned k++lost)) (f k v) S) :
    Turns [] (do
      let k ← keyOf p.1
      let v ← valueObject lib p.2
      f k v) S := by
  refine turns_bind (hkey p.1) ?_
  rintro k post ⟨hk,lost,hperm,hlen⟩
  refine turns_perm hperm.symm (turns_first _ (turns_valueObject lib p.2) ?_)
  rintro v own ⟨hv,rfl⟩
  exact hf k v lost hk hv hlen

omit hkey in
theorem turns_pushPair (k : Object K) (v : Object Value) (lost : List ℕ) (waste : ℕ)
    (hlen : lost.length = waste) :
    Turns (pointerOwned (some v)++(pointerOwned (some k)++lost)) (pure [(k,v)])
      (fun es post => es.map pairValue = [(k.value,v.value)] ∧
        ∃ lost : List ℕ, post.Perm (es.flatMap pairOwned++lost) ∧ lost.length = waste) := by
  refine turns_pure [(k,v)] ⟨rfl,lost,?_,hlen⟩
  change (v.owned++(k.owned++lost)).Perm ((k.owned++v.owned++[])++lost)
  rw [List.append_nil, ← List.append_assoc]
  exact List.perm_append_comm.append_right lost

theorem yields_pair (p : M × ValueMessage) :
    Yields pairOwned pairValue [] (pairStep lib keyOf p) (readPair lib readKey p) (loss p.1) := by
  refine turns_decodePair lib weight keyOf readKey loss hkey p _ _ ?_
  intro k v lost hk hv hlen
  rw [readPair, ← hk.value, ← hv.value]
  cases k with
  | none =>
    refine turns_then lost (turns_deletePointer v) ?_
    rintro _ own rfl
    exact turns_pure [] ⟨rfl,lost,List.Perm.refl _,hlen⟩
  | some k =>
    cases v with
    | none =>
      refine turns_then lost (turns_deleteObject k) ?_
      rintro _ own rfl
      exact turns_pure [] ⟨rfl,lost,List.Perm.refl _,hlen⟩
    | some v => exact turns_pushPair k v lost _ hlen

def orphan (key : Option K) (value : Option Value) : ℕ :=
  match key, value with
  | some k, none => weight k
  | none, some v => valueWeight v
  | _, _ => 0

theorem yields_range (p : M × ValueMessage) :
    Yields pairOwned pairValue [] (rangeStep lib keyOf p) (readPair lib readKey p)
      (loss p.1+orphan weight (readKey p.1) (valueRequestToValue lib p.2)) := by
  refine turns_decodePair lib weight keyOf readKey loss hkey p _ _ ?_
  intro k v lost hk hv hlen
  rw [readPair, ← hk.value, ← hv.value]
  cases k with
  | none =>
    refine turns_pure [] ⟨rfl,_,List.Perm.refl _,?_⟩
    cases v with
    | none => exact hlen
    | some v =>
      have hw := hv.weight v rfl
      change (v.owned++lost).length = loss p.1+valueWeight v.value
      rw [List.length_append, hw, hlen, Nat.add_comm]
  | some k =>
    cases v with
    | none =>
      refine turns_pure [] ⟨rfl,_,List.Perm.refl _,?_⟩
      have hw := hk.weight k rfl
      change (k.owned++lost).length = loss p.1+weight k.value
      rw [List.length_append, hw, hlen, Nat.add_comm]
    | some v => exact turns_pushPair k v lost _ hlen

end Rules

section Methods

/-- A streaming method: what one batch holds for it, what it makes of one item
and what it loses, and how its results are freed. -/
structure StreamMethod (X E A : Type) where
  items : BatchEntries → List X
  step : X → Mem (List E)
  owned : E → List ℕ
  free : E → Mem Unit
  value : E → A
  read : X → List A
  waste : X → ℕ
  yields : ∀ x, Yields owned value [] (step x) (read x) (waste x)
  frees : ∀ e, Turns (owned e) (free e) (fun _ post => post = [])

variable (lib : Libdeflate)

def streamList : StreamMethod ValueMessage (Pointer Value) (Option Value) where
  items chunk := chunk.value_unordered
  step := pushStep (valueObject lib)
  owned := pointerOwned
  free := deletePointer
  value := Option.map Object.value
  read m := [valueRequestToValue lib m]
  waste _ := 0
  yields := yields_push valueWeight _ _ (turns_valueObject lib)
  frees := turns_deletePointer

def streamOrderedSet :
    StreamMethod OrderedValueMessage (Pointer OrderedValue) (Option OrderedValue) where
  items chunk := chunk.value_ordered
  step := pushStep (orderedValueObject lib)
  owned := pointerOwned
  free := deletePointer
  value := Option.map Object.value
  read m := [valueRequestToOrderedValue lib m]
  waste _ := 0
  yields := yields_push _ _ _ (turns_orderedValueObject lib)
  frees := turns_deletePointer

def readKey (m : KeyMessage) : Option Key := (keyRequestToKey lib m).map (fun r => r.1)

def readOrderedKey (m : OrderedKeyMessage) : Option OrderedKey :=
  (keyRequestToOrderedKey lib m).map (fun r => r.1)

def streamMap : StreamMethod (KeyMessage × ValueMessage) (Object Key × Object Value)
    (Key × Value) where
  items chunk := chunk.key_unordered.zip chunk.value_unordered
  step := pairStep lib (keyObject lib)
  owned := pairOwned
  free := deletePair
  value := pairValue
  read := readPair lib (readKey lib)
  waste p := keyLoss p.1.compressionInfo (keyRequestToKey lib p.1)
  yields := yields_pair lib keyWeight _ _ _ (turns_keyObject lib)
  frees := turns_deletePair

def streamOrderedMap : StreamMethod (OrderedKeyMessage × ValueMessage)
    (Object OrderedKey × Object Value) (OrderedKey × Value) where
  items chunk := chunk.key_ordered.zip chunk.value_unordered
  step := pairStep lib (orderedKeyObject lib)
  owned := pairOwned
  free := deletePair
  value := pairValue
  read := readPair lib (readOrderedKey lib)
  waste p := keyLoss p.1.compressionInfo (keyRequestToOrderedKey lib p.1)
  yields := yields_pair lib (fun k : OrderedKey => keyWeight k.elem) _ _ _
    (turns_orderedKeyObject lib)
  frees := turns_deletePair

def streamElementInRangeOrderedMap : StreamMethod (OrderedKeyMessage × ValueMessage)
    (Object OrderedKey × Object Value) (OrderedKey × Value) where
  items chunk := chunk.key_ordered.zip chunk.value_unordered
  step := rangeStep lib (orderedKeyObject lib)
  owned := pairOwned
  free := deletePair
  value := pairValue
  read := readPair lib (readOrderedKey lib)
  waste p := keyLoss p.1.compressionInfo (keyRequestToOrderedKey lib p.1)+
    orphan (fun k : OrderedKey => keyWeight k.elem) (readOrderedKey lib p.1)
      (valueRequestToValue lib p.2)
  yields := yields_range lib (fun k : OrderedKey => keyWeight k.elem) _ _ _
    (turns_orderedKeyObject lib)
  frees := turns_deletePair

end Methods

section Streams

variable {X E A : Type} (method : StreamMethod X E A)

def receive (result : List E) : List BatchEntries → Mem (List E)
  | [] => pure result
  | chunk::chunks => do
    let result ← accumulate method.step result (method.items chunk)
    receive result chunks

def wasted (chunks : List BatchEntries) : ℕ :=
  ((chunks.flatMap method.items).map method.waste).sum

theorem turns_receive (chunks : List BatchEntries) (result : List E) (lost : List ℕ) :
    Yields method.owned method.value (result.flatMap method.owned++lost)
      (receive method result chunks)
      (result.map method.value++(chunks.flatMap method.items).flatMap method.read)
      (lost.length+wasted method chunks) := by
  induction chunks generalizing result lost with
  | nil => exact turns_pure result ⟨by simp,lost,List.Perm.refl _,by simp [wasted]⟩
  | cons chunk chunks ih =>
    refine turns_bind (yields_accumulate method.step method.read method.waste method.yields
      (method.items chunk) result lost) ?_
    rintro es post ⟨hvalues,lost',hperm,hlen⟩
    refine turns_perm hperm.symm (turns_weaken (ih es lost') ?_)
    rintro rs post' ⟨hmap,lost'',hperm',hlen'⟩
    refine ⟨?_,lost'',hperm',?_⟩
    · rw [hmap, hvalues, List.flatMap_cons, List.flatMap_append, List.append_assoc]
    · rw [hlen', hlen, wasted, wasted, List.flatMap_cons, List.map_append, List.sum_append,
        Nat.add_assoc]

/-- A stream ends and its caller frees the result: the objects stand for what
the batches hold, nothing that was allocated before is touched, and nothing new
stays allocated exactly under the condition. -/
def GivesBack (chunks : List BatchEntries) (h : Heap) (condition : Prop) : Prop :=
  ∃ result h₁ h₂, receive method [] chunks h = some (result,h₁) ∧
    result.map method.value = (chunks.flatMap method.items).flatMap method.read ∧
    discard method.free result h₁ = some ((),h₂) ∧ h.live ⊆ h₂.live ∧
    h₂.live.length = h.live.length+wasted method chunks ∧ (h₂.live.Perm h.live ↔ condition)

theorem wasted_eq_zero_iff (chunks : List BatchEntries) :
    wasted method chunks = 0 ↔ ∀ chunk ∈ chunks, ∀ x ∈ method.items chunk,
      method.waste x = 0 := by
  rw [wasted, List.sum_eq_zero_iff_forall_eq_nat]
  constructor
  · intro h chunk hc x hx
    exact h _ (List.mem_map_of_mem (List.mem_flatMap.mpr ⟨chunk,hc,hx⟩))
  · intro h n hn
    obtain ⟨x,hx,rfl⟩ := List.mem_map.mp hn
    obtain ⟨chunk,hc,hx⟩ := List.mem_flatMap.mp hx
    exact h chunk hc x hx

theorem gives_back (chunks : List BatchEntries) (h : Heap) :
    GivesBack method chunks h (∀ chunk ∈ chunks, ∀ x ∈ method.items chunk,
      method.waste x = 0) := by
  obtain ⟨result,post,h₁,hrun,hlive,hvalues,lost,hperm,hlen⟩ :=
    turns_receive method chunks [] [] h h.live (List.Perm.refl _)
  have hlive' : h₁.live.Perm (result.flatMap method.owned++(lost++h.live)) := by
    have hjoin := hlive.trans (hperm.append_right h.live)
    rwa [List.append_assoc] at hjoin
  obtain ⟨_,_,h₂,hfree,hlive₂,rfl⟩ :=
    turns_discard method.free method.frees result h₁ (lost++h.live) hlive'
  have hcount : h₂.live.length = h.live.length+wasted method chunks := by
    have hl := hlive₂.length_eq
    rw [List.nil_append, List.length_append, hlen] at hl
    simp only [List.length_nil, Nat.zero_add] at hl
    rw [hl, Nat.add_comm]
  refine ⟨result,h₁,h₂,hrun,by simpa using hvalues,hfree,?_,hcount,?_⟩
  · intro a ha
    exact hlive₂.mem_iff.mpr (List.mem_append_right lost ha)
  · rw [← wasted_eq_zero_iff]
    constructor
    · intro hsame
      have hl := hsame.length_eq
      omega
    · intro hz
      have hnone : lost = [] := List.eq_nil_of_length_eq_zero (by
        rw [hlen, hz]
        rfl)
      simpa [hnone] using hlive₂

theorem GivesBack.iff {chunks : List BatchEntries} {h : Heap} {c d : Prop}
    (hg : GivesBack method chunks h c) (hcd : c ↔ d) : GivesBack method chunks h d :=
  propext hcd ▸ hg

end Streams

section Conditions

theorem keyLoss_eq_zero_iff {A : Type} (info : Option CompressedInfo) (key : Option A) :
    keyLoss info key = 0 ↔ (info.isSome = true → key = none) := by
  cases info <;> cases key <;> simp [keyLoss, payloadLoss]

theorem keyWeight_pos (k : Key) : 0 < keyWeight k := by
  unfold keyWeight
  split <;> simp

theorem valueWeight_pos (v : Value) : 0 < valueWeight v := by
  cases v <;> simp [valueWeight]

theorem orphan_eq_zero_iff {K : Type} (weight : K → ℕ) (hw : ∀ k, 0 < weight k)
    (key : Option K) (value : Option Value) :
    orphan weight key value = 0 ↔ key.isSome = value.isSome := by
  cases key with
  | none =>
    cases value with
    | none => simp [orphan]
    | some v => simpa [orphan] using (valueWeight_pos v).ne'
  | some k =>
    cases value with
    | none => simpa [orphan] using (hw k).ne'
    | some v => simp [orphan]

end Conditions

/-- Streams of lists and ordered sets give all memory back. Those of maps do
unless a compressed key was read, and a range of an ordered map also needs
every pair to be whole or wholly unreadable. -/
theorem streams_give_back (lib : Libdeflate) (chunks : List BatchEntries) (h : Heap) :
    GivesBack (streamList lib) chunks h True ∧
    GivesBack (streamOrderedSet lib) chunks h True ∧
    GivesBack (streamMap lib) chunks h (∀ chunk ∈ chunks,
      ∀ p ∈ chunk.key_unordered.zip chunk.value_unordered,
        p.1.compressionInfo.isSome = true → keyRequestToKey lib p.1 = none) ∧
    GivesBack (streamOrderedMap lib) chunks h (∀ chunk ∈ chunks,
      ∀ p ∈ chunk.key_ordered.zip chunk.value_unordered,
        p.1.compressionInfo.isSome = true → keyRequestToOrderedKey lib p.1 = none) ∧
    GivesBack (streamElementInRangeOrderedMap lib) chunks h (∀ chunk ∈ chunks,
      ∀ p ∈ chunk.key_ordered.zip chunk.value_unordered,
        (p.1.compressionInfo.isSome = true → keyRequestToOrderedKey lib p.1 = none) ∧
        (keyRequestToOrderedKey lib p.1).isSome = (valueRequestToValue lib p.2).isSome) := by
  refine ⟨?_,?_,?_,?_,?_⟩
  · exact (gives_back (streamList lib) chunks h).iff _ ⟨fun _ => trivial,fun _ _ _ _ _ => rfl⟩
  · exact (gives_back (streamOrderedSet lib) chunks h).iff _
      ⟨fun _ => trivial,fun _ _ _ _ _ => rfl⟩
  · refine (gives_back (streamMap lib) chunks h).iff _ ?_
    exact forall₂_congr (fun chunk _ => forall₂_congr (fun p _ => keyLoss_eq_zero_iff _ _))
  · refine (gives_back (streamOrderedMap lib) chunks h).iff _ ?_
    exact forall₂_congr (fun chunk _ => forall₂_congr (fun p _ => keyLoss_eq_zero_iff _ _))
  · refine (gives_back (streamElementInRangeOrderedMap lib) chunks h).iff _ ?_
    refine forall₂_congr (fun chunk _ => forall₂_congr (fun p _ => ?_))
    have hloss := keyLoss_eq_zero_iff p.1.compressionInfo (keyRequestToOrderedKey lib p.1)
    have horphan := orphan_eq_zero_iff (fun k : OrderedKey => keyWeight k.elem)
      (fun k => keyWeight_pos k.elem) (readOrderedKey lib p.1) (valueRequestToValue lib p.2)
    rw [readOrderedKey, Option.isSome_map] at horphan
    exact Nat.add_eq_zero_iff.trans (and_congr hloss horphan)

/-- One map entry whose key is compressed: its buffer is lost. -/
example : wasted (streamMap storedLibdeflate) [{
    key_unordered := [{
      payload := some {
        payload := storedLibdeflate.gzipCompress [107]
        size := UInt32.ofNat (storedLibdeflate.gzipCompress [107]).length }
      compressionInfo := some { enabled := true, rawSize := some 1 } }]
    value_unordered := [{}] }] = 1 := by decide

end HurriCache.StreamMemory
