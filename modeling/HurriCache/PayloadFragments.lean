import HurriCache.MessageDecoders

/-!
# Fragmented payloads

The transport decides into how many chunks a payload falls. The slow path of
the value decoders copies the chunks one behind the other into a new buffer.
It stays inside the buffer, fills all of it, and then does what the fast path
does, so that neither decoder can tell how a payload was cut.
-/

set_option autoImplicit false

namespace HurriCache.PayloadFragments
open HurriCache.ClientTypes HurriCache.PayloadCompression HurriCache.WireMessages
open HurriCache.MessageDecoders

structure Copying where
  buff : Bytes
  write_ptr : ℕ := 0
  real_size : ℕ := 0

/-- `memcpy` of one chunk. A write past the end of the buffer is a fault. -/
def copyChunk (st : Copying) (chunk : Bytes) : Except Fault Copying :=
  if st.write_ptr+chunk.length ≤ st.buff.length then
    .ok {
      buff := st.buff.take st.write_ptr++chunk++st.buff.drop (st.write_ptr+chunk.length)
      write_ptr := st.write_ptr+chunk.length
      real_size := st.real_size+chunk.length }
  else .error .wildPointer

theorem copyChunk_fits (st : Copying) (chunk : Bytes)
    (h : st.write_ptr+chunk.length ≤ st.buff.length) :
    ∃ next, copyChunk st chunk = .ok next ∧
      next.buff.take next.write_ptr = st.buff.take st.write_ptr++chunk ∧
      next.buff.length = st.buff.length ∧ next.write_ptr = st.write_ptr+chunk.length ∧
      next.real_size = st.real_size+chunk.length := by
  refine ⟨_,if_pos h,?_,?_,rfl,rfl⟩
  · have hlen : (st.buff.take st.write_ptr++chunk).length = st.write_ptr+chunk.length := by
      rw [List.length_append, List.length_take]
      omega
    exact List.take_left' hlen
  · simp only [List.length_append, List.length_take, List.length_drop]
    omega

theorem copyChunks_fill (chunks : List Bytes) (st : Copying)
    (h : st.write_ptr+chunks.flatten.length = st.buff.length) :
    ∃ last, chunks.foldlM copyChunk st = .ok last ∧
      last.buff = st.buff.take st.write_ptr++chunks.flatten ∧
      last.real_size = st.real_size+chunks.flatten.length := by
  induction chunks generalizing st with
  | nil =>
    have hall : st.write_ptr = st.buff.length := by simpa using h
    refine ⟨st,rfl,?_,by simp⟩
    rw [hall, List.take_length, List.flatten_nil, List.append_nil]
  | cons chunk chunks ih =>
    rw [List.flatten_cons, List.length_append] at h
    obtain ⟨next,hnext,htake,hlen,hptr,hsize⟩ := copyChunk_fits st chunk (by omega)
    obtain ⟨last,hlast,hbuff,hreal⟩ := ih next (by omega)
    refine ⟨last,?_,?_,?_⟩
    · rw [List.foldlM_cons, hnext]
      exact hlast
    · rw [hbuff, htake, List.flatten_cons, List.append_assoc]
    · rw [hreal, hsize, List.flatten_cons, List.length_append]
      omega

/-- The path for payloads that are not flat, from a new buffer with whatever
it holds. -/
def readCopied (lib : Libdeflate) (info : Option CompressedInfo) (buff : Bytes)
    (payload : Cord) : Except Fault BytesRead := do
  let st ← payload.chunks.foldlM copyChunk { buff := buff }
  if st.real_size = payload.size then
    if isCompressed info then
      match decompress lib st.buff (UInt32.ofNat payload.size) (rawSizeOf info) with
      | some raw => .ok (finishBytes true (some raw))
      | none => .ok .returnNull
    else .ok (finishBytes true (some st.buff))
  else .ok .returnNull

theorem readCopied_eq (lib : Libdeflate) (info : Option CompressedInfo) (buff : Bytes)
    (payload : Cord) (h : buff.length = payload.size) :
    readCopied lib info buff payload = .ok (readBytes lib info payload) := by
  have hsize : payload.size = payload.chunks.flatten.length := payload.size_eq
  obtain ⟨last,hlast,hbuff,hreal⟩ := copyChunks_fill payload.chunks { buff := buff } (by
    rw [h, hsize, Nat.zero_add])
  have hfull : last.buff = payload.flatten := hbuff
  have hall : last.real_size = payload.size := by
    rw [hreal, hsize, Nat.zero_add]
  rw [readBytes_eq, readFlat, readCopied, hlast, ← payload.size_eq]
  simp only [bind, Except.bind, hall, hfull, if_true]
  by_cases hc : isCompressed info = true
  · simp only [hc, if_true]
    cases decompress lib payload.flatten (UInt32.ofNat payload.size) (rawSizeOf info) <;> rfl
  · simp only [hc]
    rfl

theorem readBytes_returns (lib : Libdeflate) (info : Option CompressedInfo) (payload : Cord) :
    readBytes lib info payload ≠ .fallThrough := by
  rw [readBytes_eq]
  cases readFlat lib info payload.flatten <;> exact fun h => by cases h

def withPayload (request : ValueMessage) (size : UInt32) (payload : Cord) : ValueMessage :=
  { request with value := some { data := .payload payload, size := size } }

def withOrderedPayload (request : OrderedValueMessage) (size : UInt32) (payload : Cord) :
    OrderedValueMessage :=
  { request with value := some { data := .payload payload, size := size } }

theorem inferType_payload (request : ValueMessage) (size : UInt32) (a b : Cord) :
    inferType (withPayload request size a) = inferType (withPayload request size b) := by
  simp only [inferType, withPayload, ValueMessage.typeOrDefault, ValueMessage.payloadOrDefault,
    Option.getD_some]

theorem readTyped_payload (lib : Libdeflate) (type : ValueType) (info : Option CompressedInfo)
    (size : UInt32) (a b : Cord) (h : a.flatten = b.flatten) :
    readTyped lib type info { data := .payload a, size := size } =
      readTyped lib type info { data := .payload b, size := size } := by
  cases type with
  | BYTES => simp only [readTyped, BinaryPayload.payload, h]
  | AUTO => rfl
  | INT => rfl
  | DOUBLE => rfl
  | unrecognized number outside => rfl

/-- Every payload in every fragmentation, under every compression record and
declared type: the decoders give the result of the single chunk, the slow path
gives that of the fast one, and the byte case always returns. -/
theorem fragmentation_invisible (lib : Libdeflate) (payload : Cord) (size : UInt32)
    (request : ValueMessage) (ordered : OrderedValueMessage) :
    valueRequestToValue lib (withPayload request size payload) =
      valueRequestToValue lib (withPayload request size (Cord.ofView payload.flatten)) ∧
    valueRequestToOrderedValue lib (withOrderedPayload ordered size payload) =
      valueRequestToOrderedValue lib
        (withOrderedPayload ordered size (Cord.ofView payload.flatten)) ∧
    ∀ info, readBytes lib info payload ≠ .fallThrough ∧
      ∀ buff : Bytes, buff.length = payload.size →
        readCopied lib info buff payload = .ok (readBytes lib info payload) := by
  have hread : ∀ type info, readTyped lib type info { data := .payload payload, size := size } =
      readTyped lib type info
        { data := .payload (Cord.ofView payload.flatten), size := size } := by
    intro type info
    exact readTyped_payload lib type info size payload _ (Cord.flatten_ofView _).symm
  refine ⟨?_,?_,?_⟩
  · rw [valueRequestToValue_eq, valueRequestToValue_eq,
      inferType_payload request size payload (Cord.ofView payload.flatten)]
    congr 1
    funext type
    exact hread type request.compressionInfo
  · rw [valueRequestToOrderedValue_eq, valueRequestToOrderedValue_eq]
    exact congrArg _ (hread ordered.typeOrDefault ordered.compressionInfo)
  · intro info
    exact ⟨readBytes_returns lib info payload,fun buff h => readCopied_eq lib info buff payload h⟩

end HurriCache.PayloadFragments
