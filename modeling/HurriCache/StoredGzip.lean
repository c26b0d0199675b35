import HurriCache.PayloadCompression

/-!
# A stored gzip member

The library passes inputs of at most 51 bytes through as one stored block.
This is that part of it as a function: longer inputs fail to compress. It
inhabits the assumptions made of the library with the bytes it produces.
-/

set_option autoImplicit false

namespace HurriCache.StoredGzip
open HurriCache.ClientTypes HurriCache.PayloadCompression

def crc32Byte (crc : UInt32) (b : UInt8) : UInt32 :=
  (List.range 8).foldl
    (fun c _ => if c &&& 1 = 1 then (c >>> 1) ^^^ 0xEDB88320 else c >>> 1)
    (crc ^^^ b.toUInt32)

def crc32 (data : Bytes) : UInt32 := (data.foldl crc32Byte 0xFFFFFFFF) ^^^ 0xFFFFFFFF

def le16 (n : UInt16) : Bytes := [n.toUInt8, (n >>> 8).toUInt8]

def le32 (n : UInt32) : Bytes :=
  [n.toUInt8, (n >>> 8).toUInt8, (n >>> 16).toUInt8, (n >>> 24).toUInt8]

/-- The ten header bytes, the block tag, and the length with its complement. -/
def preamble (len : UInt16) : Bytes :=
  [0x1f, 0x8b, 8, 0, 0, 0, 0, 0, 4, 255] ++ (1 :: le16 len) ++ le16 (~~~ len)

def member (data : Bytes) : Bytes :=
  preamble (UInt16.ofNat data.length) ++
    (data ++ (le32 (crc32 data) ++ le32 (UInt32.ofNat data.length)))

theorem preamble_length (len : UInt16) : (preamble len).length = 15 := rfl

theorem member_length (data : Bytes) : (member data).length = data.length+23 := by
  simp [member, preamble_length, le32]
  omega

def content (source : Bytes) (expectedLen : ℕ) : Bytes := (source.drop 15).take expectedLen

theorem member_content (data : Bytes) : content (member data) data.length = data := by
  unfold content member
  rw [List.drop_left' (preamble_length _)]
  exact List.take_left

def storedLibdeflate : Libdeflate where
  gzipCompress data := if data.length ≤ 51 then member data else []
  gzipDecompress source expectedLen :=
    if h : (content source expectedLen).length = expectedLen ∧
        source = member (content source expectedLen)
    then some ⟨content source expectedLen, h.1⟩ else none

theorem stored_round_trip : storedLibdeflate.RoundTrip := by
  intro data hne
  have hlen : data.length ≤ 51 := by
    by_contra hl
    exact hne (if_neg hl)
  have hc : storedLibdeflate.gzipCompress data = member data := if_pos hlen
  rw [hc]
  simp [storedLibdeflate, member_content]

theorem stored_length (data : Bytes) :
    (storedLibdeflate.gzipCompress data).length < 2^32 := by
  by_cases hl : data.length ≤ 51
  · simp only [storedLibdeflate, if_pos hl, member_length]
    omega
  · simp [storedLibdeflate, if_neg hl]

def sampleKey : Key := ⟨[107],by decide⟩

end HurriCache.StoredGzip
