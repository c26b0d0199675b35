import HurriCache.KeyDecoders
import HurriCache.MessageDecoders
import HurriCache.Ownership

/-!
# The objects that the decoders allocate

The decoders of `utils.cxx` again, with the memory that they allocate and
free. They deliver what the plain decoders deliver. A value owns its object
and its bytes and nothing else is left over. A key copies its bytes, and the
buffer of a payload that was decompressed for it is never freed.
-/

set_option autoImplicit false

namespace HurriCache.DecodedObjects
open HurriCache.ClientTypes HurriCache.PayloadCompression HurriCache.WireMessages
open HurriCache.MessageDecoders HurriCache.KeyDecoders HurriCache.Ownership

structure Object (A : Type) where
  self : ℕ
  data : Option ℕ
  value : A

abbrev Pointer (A : Type) := Option (Object A)

section Destructors

variable {A : Type}

def Object.owned (o : Object A) : List ℕ := o.self::o.data.toList

def pointerOwned : Pointer A → List ℕ
  | some o => o.owned
  | none => []

def deleteObject (o : Object A) : Mem Unit := do
  deletePtr o.data
  delete o.self

def deletePointer : Pointer A → Mem Unit
  | some o => deleteObject o
  | none => pure ()

theorem turns_deleteObject (o : Object A) :
    Turns o.owned (deleteObject o) (fun _ post => post = []) := by
  have hp : (o.data.toList++[o.self]).Perm o.owned := List.perm_append_singleton _ _
  refine turns_perm hp (turns_then [o.self] (turns_deletePtr o.data) ?_)
  rintro _ own rfl
  exact turns_delete o.self

theorem turns_deletePointer (p : Pointer A) :
    Turns (pointerOwned p) (deletePointer p) (fun _ post => post = []) := by
  cases p with
  | none => exact turns_pure () rfl
  | some o => exact turns_deleteObject o

end Destructors

section Decoders

variable (lib : Libdeflate)

def decompressNew (source : Bytes) (sourceLen expectedLen : UInt32) :
    Mem (Option (ℕ × Bytes)) := do
  let dest ← new
  match decompress lib source sourceLen expectedLen with
  | none => do
    delete dest
    pure none
  | some raw => pure (some (dest,raw))

def newKeyObject {A : Type} (size : UInt32) (value : A) : Mem (Object A) := do
  let self ← new
  if 0 < size then do
    let data ← new
    pure ⟨self,some data,value⟩
  else pure ⟨self,none,value⟩

def keyPayload (info : Option CompressedInfo) (p : KeyBinaryPayload) :
    Mem (Option (UInt32 × Bytes)) :=
  match info with
  | some cInfo => do
    let size := cInfo.rawSize.getD 0
    -- nobody keeps the address of the buffer
    let payload ← decompressNew lib p.payload p.size size
    pure (payload.map (fun r => (size,r.2)))
  | none => pure (some (p.size,p.payload))

def keyObject (request : KeyMessage) : Mem (Pointer Key) :=
  match request.payload with
  | none => pure none
  | some p =>
    if p.size.toNat ≠ p.payload.length then pure none
    else do
      match ← keyPayload lib request.compressionInfo p with
      | some (size,payload) => some <$> newKeyObject size (newKey size payload)
      | none => pure none

def orderedKeyObject (request : OrderedKeyMessage) : Mem (Pointer OrderedKey) :=
  if request.payload.isSome && (request.payload.getD {}).size.toNat ≠
      (request.payload.getD {}).payload.length then pure none
  else do
    match ← keyPayload lib request.compressionInfo (request.payload.getD {}) with
    | some (size,payload) =>
      some <$> newKeyObject size ⟨request.order.getD 0,newKey size payload⟩
    | none => pure none

def readBuffer (info : Option CompressedInfo) (payload : Cord) : Mem (Option (ℕ × Bytes)) :=
  let size := payload.size
  let rawSize := rawSizeOf info
  match isCompressed info, flatChunk payload with
  | true, some flatData => decompressNew lib flatData (UInt32.ofNat size) rawSize
  | compressed, flat => do
    let buff ← new
    let (bytes,realSize) := match flat with
      | some flatData => (flatData,size)
      | none => (payload.chunks.flatten,(payload.chunks.map List.length).sum)
    if realSize = size then
      if compressed then do
        match ← decompressNew lib bytes (UInt32.ofNat size) rawSize with
        | some raw => do
          delete buff
          pure (some raw)
        | none => do
          delete buff
          pure none
      else pure (some (buff,bytes))
    else do
      delete buff
      pure none

def newObject {A : Type} (data : Option ℕ) (value : A) : Mem (Pointer A) := do
  let self ← new
  pure (some ⟨self,data,value⟩)

def typedObject {A : Type} (wrap : Value → A) (type : ValueType) (info : Option CompressedInfo)
    (p : BinaryPayload) : Mem (Pointer A) :=
  match type with
  | .BYTES => do
    match ← readBuffer lib info p.payload with
    | some (buff,bytes) => newObject (some buff) (wrap (.bytes bytes))
    | none => pure none
  | .INT => newObject none (wrap (.int p.intpayload))
  | .DOUBLE => newObject none (wrap (.double p.doublepayload))
  | _ => pure none

def valueObject (request : ValueMessage) : Mem (Pointer Value) :=
  match inferType request with
  | none => pure none
  | some type => typedObject lib id type request.compressionInfo request.payloadOrDefault

def orderedValueObject (request : OrderedValueMessage) : Mem (Pointer OrderedValue) :=
  typedObject lib (OrderedValue.mk (request.order.getD 0)) request.typeOrDefault
    request.compressionInfo request.payloadOrDefault

end Decoders

section Weights

def keyWeight (k : Key) : ℕ := if k.data = [] then 1 else 2

def valueWeight : Value → ℕ
  | .bytes _ => 2
  | _ => 1

/-- A pointer to an object with its value, which owns as much as the value tells. -/
structure Holds {A : Type} (weight : A → ℕ) (value : Option A) (o : Pointer A) : Prop where
  value : o.map Object.value = value
  weight : ∀ x, o = some x → x.owned.length = weight x.value

theorem holds_null {A : Type} (weight : A → ℕ) : Holds weight none none := ⟨rfl,nofun⟩

theorem holds_object {A : Type} (weight : A → ℕ) (o : Object A)
    (h : o.owned.length = weight o.value) : Holds weight (some o.value) (some o) where
  value := rfl
  weight := by
    rintro x hx
    cases hx
    exact h

end Weights

section Rules

variable (lib : Libdeflate)

def bufferOwned {A : Type} (r : Option (ℕ × A)) : List ℕ := (r.map (fun p => p.1)).toList

theorem turns_decompress (source : Bytes) (sourceLen expectedLen : UInt32) :
    Turns [] (decompressNew lib source sourceLen expectedLen) (fun r post =>
      r.map (fun p => p.2) = decompress lib source sourceLen expectedLen ∧
        post = bufferOwned r) := by
  refine turns_bind turns_new ?_
  rintro dest post rfl
  cases h : decompress lib source sourceLen expectedLen with
  | none =>
    refine turns_bind (turns_delete dest) ?_
    rintro _ post rfl
    exact turns_pure none ⟨rfl,rfl⟩
  | some raw => exact turns_pure (some (dest,raw)) ⟨rfl,rfl⟩

theorem turns_newKeyObject {A : Type} (weight : A → ℕ) (size : UInt32) (value : A)
    (hw : weight value = if 0 < size then 2 else 1) :
    Turns [] (newKeyObject size value) (fun o post =>
      Holds weight (some value) (some o) ∧ post.Perm o.owned) := by
  refine turns_bind turns_new ?_
  rintro self post rfl
  by_cases hs : 0 < size
  · rw [if_pos hs] at hw ⊢
    refine turns_first [self] turns_new ?_
    rintro data own rfl
    exact turns_pure _ ⟨holds_object weight ⟨self,some data,value⟩ hw.symm,List.Perm.swap _ _ _⟩
  · rw [if_neg hs] at hw ⊢
    exact turns_pure _ ⟨holds_object weight ⟨self,none,value⟩ hw.symm,List.Perm.refl _⟩

def payloadLoss (info : Option CompressedInfo) (found : Bool) : ℕ :=
  if info.isSome && found then 1 else 0

theorem turns_keyPayload (info : Option CompressedInfo) (p : KeyBinaryPayload) :
    Turns [] (keyPayload lib info p) (fun r post =>
      r = keyBytes lib info p ∧ post.length = payloadLoss info r.isSome) := by
  cases info with
  | none => exact turns_pure _ ⟨rfl,rfl⟩
  | some cInfo =>
    refine turns_bind (turns_decompress lib p.payload p.size (cInfo.rawSize.getD 0)) ?_
    rintro r post ⟨hr,rfl⟩
    refine turns_pure _ ⟨?_,?_⟩
    · rw [keyBytes, ← hr, Option.map_map]
      rfl
    · cases r <;> rfl

theorem turns_newObject {A : Type} (weight : A → ℕ) (data : Option ℕ) (value : A)
    (hw : weight value = data.toList.length+1) :
    Turns data.toList (newObject data value) (fun o post =>
      Holds weight (some value) o ∧ post = pointerOwned o) :=
  turns_first data.toList turns_new (by
    rintro self own rfl
    exact turns_pure _ ⟨holds_object weight ⟨self,data,value⟩ hw.symm,rfl⟩)

/-- On every path the copy of the payload is freed unless it is the result. -/
theorem turns_readBuffer (info : Option CompressedInfo) (payload : Cord) :
    Turns [] (readBuffer lib info payload) (fun r post =>
      r.map (fun p => p.2) = readFlat lib info payload.flatten ∧ post = bufferOwned r) := by
  have hsize : payload.size = payload.flatten.length := payload.size_eq
  have hcopied : ∀ bytes, bytes = payload.flatten → Turns [] (do
      let buff ← new
      if isCompressed info = true then do
        match ← decompressNew lib bytes (UInt32.ofNat payload.size) (rawSizeOf info) with
        | some raw => do
          delete buff
          pure (some raw)
        | none => do
          delete buff
          pure none
      else pure (some (buff,bytes)) : Mem (Option (ℕ × Bytes))) (fun r post =>
      r.map (fun p => p.2) = readFlat lib info payload.flatten ∧ post = bufferOwned r) := by
    rintro bytes rfl
    refine turns_bind turns_new ?_
    rintro buff post rfl
    cases hc : isCompressed info with
    | false => exact turns_pure _ ⟨by rw [readFlat, hc]; rfl,rfl⟩
    | true =>
      rw [if_pos rfl]
      refine turns_first [buff] (turns_decompress lib _ _ _) ?_
      rintro r own ⟨hr,rfl⟩
      have hread : r.map (fun p => p.2) = readFlat lib info payload.flatten := by
        rw [readFlat, hc, if_pos rfl, hr, hsize]
      cases r with
      | none =>
        refine turns_bind (turns_delete buff) ?_
        rintro _ post rfl
        exact turns_pure none ⟨hread,rfl⟩
      | some raw =>
        refine turns_perm (List.Perm.swap _ _ _) ?_
        change Turns ([buff]++[raw.1]) _ _
        refine turns_then [raw.1] (turns_delete buff) ?_
        rintro _ own rfl
        exact turns_pure (some raw) ⟨hread,rfl⟩
  cases hc : isCompressed info with
  | true =>
    cases hf : flatChunk payload with
    | some d =>
      have hd : payload.flatten = d := flatChunk_flatten payload d hf
      simp only [readBuffer, hc, hf]
      refine turns_weaken (turns_decompress lib d _ _) ?_
      rintro r post ⟨hr,hpost⟩
      exact ⟨by rw [readFlat, hc, if_pos rfl, hr, hd, hsize, hd],hpost⟩
    | none =>
      have hb := hcopied payload.chunks.flatten rfl
      simpa only [readBuffer, hc, hf, Cord.size, if_true] using hb
  | false =>
    cases hf : flatChunk payload with
    | some d =>
      have hd : payload.flatten = d := flatChunk_flatten payload d hf
      have hb := hcopied d hd.symm
      simpa only [readBuffer, hc, hf, if_true] using hb
    | none =>
      have hb := hcopied payload.chunks.flatten rfl
      simpa only [readBuffer, hc, hf, Cord.size, if_true] using hb

theorem turns_typedObject {A : Type} (weight : A → ℕ) (wrap : Value → A)
    (hw : ∀ v, weight (wrap v) = valueWeight v) (type : ValueType)
    (info : Option CompressedInfo) (p : BinaryPayload) :
    Turns [] (typedObject lib wrap type info p) (fun o post =>
      Holds weight ((readTyped lib type info p).map wrap) o ∧ post = pointerOwned o) := by
  cases type with
  | BYTES =>
    refine turns_bind (turns_readBuffer lib info p.payload) ?_
    rintro r post ⟨hr,rfl⟩
    rw [readTyped, ← hr]
    cases r with
    | none => exact turns_pure none ⟨holds_null weight,rfl⟩
    | some r => exact turns_newObject weight (some r.1) (wrap (.bytes r.2)) (hw _)
  | INT => exact turns_newObject weight none _ (hw _)
  | DOUBLE => exact turns_newObject weight none _ (hw _)
  | AUTO => exact turns_pure none ⟨holds_null weight,rfl⟩
  | unrecognized number outside => exact turns_pure none ⟨holds_null weight,rfl⟩

theorem turns_valueObject (request : ValueMessage) :
    Turns [] (valueObject lib request) (fun o post =>
      Holds valueWeight (valueRequestToValue lib request) o ∧ post = pointerOwned o) := by
  rw [valueRequestToValue_eq]
  unfold valueObject
  cases inferType request with
  | none => exact turns_pure none ⟨holds_null valueWeight,rfl⟩
  | some type =>
    have h := turns_typedObject lib valueWeight id (fun _ => rfl) type request.compressionInfo
      request.payloadOrDefault
    rwa [Option.map_id] at h

theorem turns_orderedValueObject (request : OrderedValueMessage) :
    Turns [] (orderedValueObject lib request) (fun o post =>
      Holds (fun v => valueWeight v.elem) (valueRequestToOrderedValue lib request) o ∧
        post = pointerOwned o) := by
  rw [valueRequestToOrderedValue_eq]
  exact turns_typedObject lib (fun v : OrderedValue => valueWeight v.elem) _ (fun _ => rfl) _ _ _

theorem turns_copiedKey {A : Type} (weight : A → ℕ) (info : Option CompressedInfo)
    (p : KeyBinaryPayload) (make : UInt32 × Bytes → A)
    (hw : ∀ r, keyBytes lib info p = some r → weight (make r) = if 0 < r.1 then 2 else 1) :
    Turns [] (do
      match ← keyPayload lib info p with
      | some (size,payload) => some <$> newKeyObject size (make (size,payload))
      | none => pure none : Mem (Pointer A)) (fun o post =>
      Holds weight ((keyBytes lib info p).map make) o ∧
        ∃ lost : List ℕ, post.Perm (pointerOwned o++lost) ∧
          lost.length = payloadLoss info (keyBytes lib info p).isSome) := by
  refine turns_bind (turns_keyPayload lib info p) ?_
  rintro r lost ⟨rfl,hlost⟩
  cases hr : keyBytes lib info p with
  | none =>
    rw [hr] at hlost
    exact turns_pure none ⟨holds_null weight,lost,List.Perm.refl _,hlost⟩
  | some r =>
    rw [hr] at hlost
    refine turns_map some (turns_frame lost
      (turns_newKeyObject weight r.1 (make r) (hw r hr))) ?_
    rintro o post ⟨own,rfl,hvalue,hperm⟩
    exact ⟨hvalue,lost,hperm.append_right lost,hlost⟩

theorem keyBytes_length (info : Option CompressedInfo) (p : KeyBinaryPayload)
    (hs : p.size.toNat = p.payload.length) (r : UInt32 × Bytes)
    (h : keyBytes lib info p = some r) : r.2.length = r.1.toNat := by
  cases info with
  | none =>
    cases h
    exact hs.symm
  | some cInfo =>
    obtain ⟨raw,hraw,rfl⟩ := Option.map_eq_some_iff.mp h
    exact decompress_length lib _ _ _ _ hraw

theorem newKey_weight (info : Option CompressedInfo) (p : KeyBinaryPayload)
    (hs : p.size.toNat = p.payload.length) (r : UInt32 × Bytes)
    (h : keyBytes lib info p = some r) :
    keyWeight (newKey r.1 r.2) = if 0 < r.1 then 2 else 1 := by
  have hlen := keyBytes_length lib info p hs r h
  have hdata : (newKey r.1 r.2).data = r.2 := List.take_of_length_le (by omega)
  have hpos : 0 < r.1 ↔ r.2 ≠ [] := by
    rw [← List.length_pos_iff, hlen]
    exact UInt32.lt_iff_toNat_lt
  rw [keyWeight, hdata]
  by_cases hr : r.2 = [] <;> simp [hpos, hr]

def keyLoss {A : Type} (info : Option CompressedInfo) (key : Option A) : ℕ :=
  payloadLoss info key.isSome

/-- A key that was compressed leaves the buffer of its payload behind. -/
theorem turns_keyObject (request : KeyMessage) :
    Turns [] (keyObject lib request) (fun o post =>
      Holds keyWeight ((keyRequestToKey lib request).map (fun r => r.1)) o ∧
        ∃ lost : List ℕ, post.Perm (pointerOwned o++lost) ∧
          lost.length = keyLoss request.compressionInfo (keyRequestToKey lib request)) := by
  unfold keyObject keyRequestToKey
  have hnull : Turns [] (pure none : Mem (Pointer Key)) (fun o post =>
      Holds keyWeight none o ∧ ∃ lost : List ℕ, post.Perm (pointerOwned o++lost) ∧
        lost.length = keyLoss request.compressionInfo (none : Option (Key × KeyHint))) :=
    turns_pure none ⟨holds_null keyWeight,[],List.Perm.refl _,by simp [keyLoss, payloadLoss]⟩
  cases request.payload with
  | none => exact hnull
  | some p =>
    by_cases hs : p.size.toNat ≠ p.payload.length
    · simp only [if_pos hs]
      exact hnull
    · simp only [if_neg hs, Option.map_map, keyLoss, Option.isSome_map]
      exact turns_copiedKey lib keyWeight request.compressionInfo p (fun r => newKey r.1 r.2)
        (newKey_weight lib request.compressionInfo p (not_not.mp hs))

theorem turns_orderedKeyObject (request : OrderedKeyMessage) :
    Turns [] (orderedKeyObject lib request) (fun o post =>
      Holds (fun k => keyWeight k.elem)
        ((keyRequestToOrderedKey lib request).map (fun r => r.1)) o ∧
        ∃ lost : List ℕ, post.Perm (pointerOwned o++lost) ∧
          lost.length = keyLoss request.compressionInfo
            (keyRequestToOrderedKey lib request)) := by
  unfold orderedKeyObject keyRequestToOrderedKey
  split
  next =>
    exact turns_pure none ⟨holds_null _,[],List.Perm.refl _,by simp [keyLoss, payloadLoss]⟩
  next hs =>
    have hsize : (request.payload.getD {}).size.toNat =
        (request.payload.getD {}).payload.length := by
      cases hp : request.payload with
      | none => rfl
      | some p => simpa [hp] using hs
    rw [Option.map_map, keyLoss, Option.isSome_map]
    exact turns_copiedKey lib (fun k => keyWeight k.elem) request.compressionInfo
      (request.payload.getD {})
      (fun r => (⟨request.order.getD 0,newKey r.1 r.2⟩ : OrderedKey))
      (newKey_weight lib request.compressionInfo _ hsize)

end Rules

end HurriCache.DecodedObjects
