import HurriCache.MessageBuilders

/-!
# The value decoders of `utils.cxx`

Both decoders carry the same block for byte payloads: one contiguous chunk
is read in place, anything else is copied together first. The block can
return null, return a value, or leave the `switch` case without a `return`;
the last outcome is kept so that it can be proved not to happen.
-/

set_option autoImplicit false

namespace HurriCache.MessageDecoders
open HurriCache.ClientTypes HurriCache.PayloadCompression
open HurriCache.WireMessages HurriCache.MessageBuilders

inductive BytesRead where
  | returnNull
  | accepted (buff : Bytes)
  | fallThrough
  deriving DecidableEq

def isCompressed (info : Option CompressedInfo) : Bool := (info.map (·.enabled)).getD false

def rawSizeOf (info : Option CompressedInfo) : UInt32 := (info.bind (·.rawSize)).getD 0

def flatChunk (payload : Cord) : Option Bytes :=
  match payload.chunks with
  | [chunk] => if chunk.length = payload.size then some chunk else none
  | _ => none

def finishBytes (success : Bool) (buff : Option Bytes) : BytesRead :=
  match success, buff with
  | true, some b => .accepted b
  | _, _ => .fallThrough

def readBytes (lib : Libdeflate) (info : Option CompressedInfo) (payload : Cord) :
    BytesRead :=
  let size := payload.size
  let rawSize := rawSizeOf info
  match isCompressed info, flatChunk payload with
  | true, some flatData =>
    match decompress lib flatData (UInt32.ofNat size) rawSize with
    | some raw => finishBytes true (some raw)
    | none => .returnNull
  | compressed, flat =>
    let (buff, realSize) := match flat with
      | some flatData => (flatData, size)
      | none => (payload.chunks.flatten, (payload.chunks.map List.length).sum)
    if realSize = size then
      if compressed then
        match decompress lib buff (UInt32.ofNat size) rawSize with
        | some raw => finishBytes true (some raw)
        | none => .returnNull
      else finishBytes true (some buff)
    else .returnNull

theorem flatChunk_flatten (payload : Cord) (d : Bytes) (h : flatChunk payload = some d) :
    payload.flatten = d := by
  unfold flatChunk at h
  split at h
  next chunk hc =>
    obtain ⟨-, hd⟩ := Option.ite_none_right_eq_some.mp h
    simpa [Cord.flatten, hc] using hd
  next => cases h

def readFlat (lib : Libdeflate) (info : Option CompressedInfo) (bytes : Bytes) :
    Option Bytes :=
  if isCompressed info then
    decompress lib bytes (UInt32.ofNat bytes.length) (rawSizeOf info)
  else some bytes

theorem readFlat_eq_none_iff (lib : Libdeflate) (info : Option CompressedInfo)
    (bytes : Bytes) :
    readFlat lib info bytes = none ↔ isCompressed info = true ∧
      decompress lib bytes (UInt32.ofNat bytes.length) (rawSizeOf info) = none := by
  unfold readFlat
  split <;> simp_all

/-- The flat path, the copying path and every chunking give one result, and
no path leaves the `switch` case. -/
theorem readBytes_eq (lib : Libdeflate) (info : Option CompressedInfo) (payload : Cord) :
    readBytes lib info payload =
      match readFlat lib info payload.flatten with
      | some raw => .accepted raw
      | none => .returnNull := by
  have hsize : payload.size = payload.flatten.length := payload.size_eq
  cases hc : isCompressed info with
  | true =>
    cases hf : flatChunk payload with
    | some d =>
      have hd : payload.flatten = d := flatChunk_flatten payload d hf
      simp only [readBytes, readFlat, hc, hf, hsize, hd, if_true]
      cases decompress lib d (UInt32.ofNat d.length) (rawSizeOf info) <;> rfl
    | none =>
      have hs : (payload.chunks.map List.length).sum = payload.size := rfl
      have hb : payload.chunks.flatten = payload.flatten := rfl
      simp only [readBytes, readFlat, hc, hf, hs, hb, hsize, if_true]
      cases decompress lib payload.flatten (UInt32.ofNat payload.flatten.length)
        (rawSizeOf info) <;> rfl
  | false =>
    cases hf : flatChunk payload with
    | some d =>
      have hd : payload.flatten = d := flatChunk_flatten payload d hf
      simp [readBytes, readFlat, hc, hf, hd, finishBytes]
    | none =>
      have hs : (payload.chunks.map List.length).sum = payload.size := rfl
      have hb : payload.chunks.flatten = payload.flatten := rfl
      simp [readBytes, readFlat, hc, hf, hs, hb, finishBytes]

/-- An absent type is inferred from the oneof case; `none` is the early
`return nullptr`. -/
def inferType (request : ValueMessage) : Option ValueType :=
  match request.typeOrDefault with
  | .AUTO =>
    match request.payloadOrDefault.data with
    | .intPayload _ => some .INT
    | .doublePayload _ => some .DOUBLE
    | .payload _ => some .BYTES
    | .notSet => none
  | type => some type

def valueRequestToValue (lib : Libdeflate) (request : ValueMessage) : ValuePtr :=
  match inferType request with
  | none => none
  | some .BYTES =>
    match readBytes lib request.compressionInfo request.payloadOrDefault.payload with
    | .returnNull => none
    | .accepted buff => some (.bytes buff)
    | .fallThrough => some (.int request.payloadOrDefault.intpayload)
  | some .INT => some (.int request.payloadOrDefault.intpayload)
  | some .DOUBLE => some (.double request.payloadOrDefault.doublepayload)
  | some _ => none

/-- The ordered decoder reads the declared type as it stands. -/
def valueRequestToOrderedValue (lib : Libdeflate) (request : OrderedValueMessage) :
    OrderedValuePtr :=
  let order := request.order.getD 0
  match request.typeOrDefault with
  | .BYTES =>
    match readBytes lib request.compressionInfo request.payloadOrDefault.payload with
    | .returnNull => none
    | .accepted buff => some ⟨order, .bytes buff⟩
    | .fallThrough => some ⟨order, .int request.payloadOrDefault.intpayload⟩
  | .INT => some ⟨order, .int request.payloadOrDefault.intpayload⟩
  | .DOUBLE => some ⟨order, .double request.payloadOrDefault.doublepayload⟩
  | _ => none

def readTyped (lib : Libdeflate) (type : ValueType) (info : Option CompressedInfo)
    (p : BinaryPayload) : Option Value :=
  match type with
  | .BYTES => (readFlat lib info p.payload.flatten).map .bytes
  | .INT => some (.int p.intpayload)
  | .DOUBLE => some (.double p.doublepayload)
  | _ => none

theorem valueRequestToValue_eq (lib : Libdeflate) (request : ValueMessage) :
    valueRequestToValue lib request =
      (inferType request).bind
        (fun type => readTyped lib type request.compressionInfo request.payloadOrDefault) := by
  unfold valueRequestToValue
  cases inferType request with
  | none => rfl
  | some type =>
    cases type with
    | BYTES =>
      simp only [readBytes_eq, Option.bind_some, readTyped]
      cases readFlat lib request.compressionInfo request.payloadOrDefault.payload.flatten <;> rfl
    | AUTO => rfl
    | INT => rfl
    | DOUBLE => rfl
    | unrecognized number outside => rfl

theorem valueRequestToOrderedValue_eq (lib : Libdeflate) (request : OrderedValueMessage) :
    valueRequestToOrderedValue lib request =
      (readTyped lib request.typeOrDefault request.compressionInfo
        request.payloadOrDefault).map (OrderedValue.mk (request.order.getD 0)) := by
  unfold valueRequestToOrderedValue
  cases request.typeOrDefault with
  | BYTES =>
    simp only [readBytes_eq, readTyped]
    cases readFlat lib request.compressionInfo request.payloadOrDefault.payload.flatten <;> rfl
  | AUTO => rfl
  | INT => rfl
  | DOUBLE => rfl
  | unrecognized number outside => rfl

end HurriCache.MessageDecoders
