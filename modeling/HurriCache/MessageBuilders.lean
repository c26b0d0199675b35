import HurriCache.KeyHashes
import HurriCache.PayloadCompression
import HurriCache.WireMessages

/-!
# The builders of `utils.cxx`

Keys and values as they are put on the wire. The threshold is a signed
32-bit number; a key compares its size with it as an unsigned 32-bit number
and a value as an unsigned 64-bit one, so a negative threshold is a huge one
in both places. The clock reading is an argument.
-/

set_option autoImplicit false

namespace HurriCache.MessageBuilders
open HurriCache.ClientTypes HurriCache.KeyHashes
open HurriCache.PayloadCompression HurriCache.WireMessages

def threshold64 (threshold : Int32) : ℕ := (threshold.toInt % 2^64).toNat

def defaultThreshold : Int32 := 1024

def hintMessage (h : KeyHint) : KeyHintMessage :=
  { weak_hash := some h.weak_hash, strong_hash := some h.strong_hash }

/-- The given hint, else the hash of the raw key bytes. -/
def effectiveHint (key : Key) (hint : Option KeyHint) : Option KeyHint :=
  match hint with
  | none => calculateKeyHint key
  | some h => some h

/-- A failed compression leaves a null buffer, which is handed to a
`std::string` together with a length that was never set. -/
def buildKeyProto (lib : Libdeflate) (key : Key) (hint : Option KeyHint)
    (clientId threshold : Int32) : Except Fault KeyMessage := do
  let body : Option CompressedInfo × KeyBinaryPayload ←
    if threshold.toUInt32 < key.size then
      match compress lib key.data key.size with
      | none => .error .nullPointer
      | some (compressed, clen) =>
        .ok (some { enabled := true, rawSize := some key.size },
          { payload := compressed.take clen.toNat, size := clen })
    else .ok (none, { payload := key.data, size := key.size })
  .ok {
    payload := some body.2
    compressionInfo := body.1
    keyHint := (effectiveHint key hint).map hintMessage
    clientId := some clientId.toUInt32 }

def KeyEncodable (lib : Libdeflate) (key : Key) (threshold : Int32) : Prop :=
  threshold.toUInt32 < key.size → lib.gzipCompress key.data ≠ []

theorem buildKeyProto_ok (lib : Libdeflate) (key : Key) (hint : Option KeyHint)
    (clientId threshold : Int32) (h : KeyEncodable lib key threshold) :
    ∃ m, buildKeyProto lib key hint clientId threshold = .ok m := by
  unfold buildKeyProto
  by_cases ht : threshold.toUInt32 < key.size
  · have hc := compress_of_ne lib key.data key.size_lt (h ht)
    have hsize : key.size = UInt32.ofNat key.data.length := rfl
    rw [if_pos ht, hsize, hc]
    exact ⟨_,rfl⟩
  · rw [if_neg ht]
    exact ⟨_,rfl⟩

def deadline (now ttl : Int64) : Option UInt64 :=
  if 0 < ttl.toInt then some (now.toUInt64+ttl.toUInt64) else none

def lockInfo (clientId : Int32) : LockInfo :=
  { type := .NO_LOCK, lockedBy := some clientId.toUInt32 }

def rawPayload (data : Bytes) : BinaryPayload :=
  { data := .payload (Cord.ofView data), size := UInt32.ofNat data.length }

def compressedPayload (compressed : Bytes) (clen : UInt32) : BinaryPayload :=
  { data := .payload (Cord.ofView (compressed.take clen.toNat)), size := clen }

def compressedInfo (size : ℕ) : CompressedInfo :=
  { enabled := true, rawSize := some (UInt32.ofNat size) }

/-- The `BYTES` case of `buildValueProto`. A failed compression falls back
to the uncompressed payload. -/
def buildBytesPayload (lib : Libdeflate) (data : Bytes) (threshold : Int32) :
    BinaryPayload × Option CompressedInfo :=
  if threshold64 threshold < data.length then
    match compress lib data (UInt32.ofNat data.length) with
    | some (compressed, clen) =>
      if 0 < clen then (compressedPayload compressed clen, some (compressedInfo data.length))
      else (rawPayload data, none)
    | none => (rawPayload data, none)
  else (rawPayload data, none)

def buildValueProto (lib : Libdeflate) (value : Value) (now ttl : Int64)
    (clientId threshold : Int32) : ValueMessage :=
  let base : ValueMessage :=
    match value with
    | .bytes data =>
      let body := buildBytesPayload lib data threshold
      { value := some body.1, compressionInfo := body.2, value_type := some .BYTES }
    | .int i => { value := some { data := .intPayload i }, value_type := some .INT }
    | .double bits =>
      { value := some { data := .doublePayload bits }, value_type := some .DOUBLE }
  { base with ttl := deadline now ttl, lock_info := some (lockInfo clientId) }

def buildValueProtoNoTtl (lib : Libdeflate) (value : Value) (clientId threshold : Int32) :
    ValueMessage := buildValueProto lib value 0 0 clientId threshold

end HurriCache.MessageBuilders
