import HurriCache.ClientTypes

/-!
# The two key hashes

`week_hash` picks the shard and `strong_hash` accompanies it on the wire.
Each `while` loop of the source runs as often as its width divides the
remaining length, and every word is read in memory order, little end first.
The carry-less `crc32` instructions are the register update they document.
-/

set_option autoImplicit false

namespace HurriCache.KeyHashes
open HurriCache.ClientTypes

def littleEndian (bytes : Bytes) : ℕ :=
  bytes.foldr (fun b acc => b.toNat+256*acc) 0

def word64 (ptr : Bytes) : UInt64 := UInt64.ofNat (littleEndian (ptr.take 8))
def word32 (ptr : Bytes) : UInt64 := UInt64.ofNat (littleEndian (ptr.take 4))
def word16 (ptr : Bytes) : UInt64 := UInt64.ofNat (littleEndian (ptr.take 2))

def prime0 : UInt64 := 0xEC997CE353AD73ED
def prime1 : UInt64 := 0xBE1F145728F2090D

def rot64 (v : UInt64) (s : UInt64) : UInt64 := (v >>> s) ||| (v <<< (64-s))

def mux64 (v p : UInt64) : UInt64 × UInt64 :=
  (UInt64.ofNat (v.toNat*p.toNat), UInt64.ofNat (v.toNat*p.toNat/2^64))

section WeekHash

variable (mux : UInt64 → UInt64 → UInt64 × UInt64)

def mixWord (prime word : UInt64) (ab : UInt64 × UInt64) : UInt64 × UInt64 :=
  let lowHigh := mux (word ^^^ ab.1) prime
  (ab.1 ^^^ lowHigh.2, ab.2+lowHigh.1)

def mixBlocks : ℕ → Bytes → UInt64 × UInt64 → Bytes × (UInt64 × UInt64)
  | 0, ptr, ab => (ptr, ab)
  | n+1, ptr, ab =>
    let ab := mixWord mux prime0 (word64 ptr) ab
    let ab := mixWord mux prime1 (word64 (ptr.drop 8)) ab
    let ab := mixWord mux prime0 (word64 (ptr.drop 16)) ab
    let ab := mixWord mux prime1 (word64 (ptr.drop 24)) ab
    mixBlocks n (ptr.drop 32) ab

def mixWords : ℕ → Bytes → UInt64 × UInt64 → Bytes × (UInt64 × UInt64)
  | 0, ptr, ab => (ptr, ab)
  | n+1, ptr, ab => mixWords n (ptr.drop 8) (mixWord mux prime0 (word64 ptr) ab)

def mixTail (ptr : Bytes) (b : UInt64) : UInt64 :=
  let (ptr, b) := if 4 ≤ ptr.length then (ptr.drop 4, b ^^^ word32 ptr) else (ptr, b)
  let (ptr, b) := if 2 ≤ ptr.length then (ptr.drop 2, b ^^^ word16 ptr) else (ptr, b)
  match ptr with
  | [] => b
  | tail::_ => b ^^^ UInt64.ofNat tail.toNat

def weekHashWith (data : Option Bytes) (seed : UInt64) : UInt32 :=
  match data with
  | none => 0
  | some data =>
    let len := data.length
    let (ptr, ab) := mixBlocks mux (len/32) data
      (seed ^^^ prime0, UInt64.ofNat len ^^^ prime1)
    let (ptr, ab) := mixWords mux (ptr.length/8) ptr ab
    let b := mixTail ptr ab.2
    let final := mux (ab.1 ^^^ rot64 b 17) prime1
    let res64 := final.1 ^^^ final.2
    (res64 ^^^ (res64 >>> 32)).toUInt32

end WeekHash

def weekHash (data : Option Bytes) : UInt32 := weekHashWith mux64 data 0

def crc32cByte (crc : UInt32) (b : UInt8) : UInt32 :=
  (List.range 8).foldl
    (fun c _ => if c &&& 1 = 1 then (c >>> 1) ^^^ 0x82F63B78 else c >>> 1)
    (crc ^^^ b.toUInt32)

/-- The `_mm_crc32` instruction on an operand given by its bytes in memory. -/
def mmCrc32 (crc : UInt32) (operand : Bytes) : UInt32 := operand.foldl crc32cByte crc

def crcWords : ℕ → Bytes → UInt32 → Bytes × UInt32
  | 0, sample, crc => (sample, crc)
  | n+1, sample, crc => crcWords n (sample.drop 8) (mmCrc32 crc (sample.take 8))

def crcTail (sample : Bytes) (crc : UInt32) : UInt32 :=
  let (sample, crc) := if 4 ≤ sample.length
    then (sample.drop 4, mmCrc32 crc (sample.take 4)) else (sample, crc)
  let (sample, crc) := if 2 ≤ sample.length
    then (sample.drop 2, mmCrc32 crc (sample.take 2)) else (sample, crc)
  if 1 ≤ sample.length then mmCrc32 crc (sample.take 1) else crc

def avalanche (crc : UInt32) (size : UInt32) : UInt32 :=
  let crc := crc ^^^ size
  let crc := crc ^^^ (crc >>> 16)
  let crc := crc*0x85ebca77
  let crc := crc ^^^ (crc >>> 13)
  let crc := crc*0xc2b2ae3d
  crc ^^^ (crc >>> 16)

def strongHash (data : Option Bytes) : UInt32 :=
  match data with
  | none => 0
  | some data =>
    let (sample, crc) := crcWords (data.length/8) data 0
    avalanche (crcTail sample crc) (UInt32.ofNat data.length)

/-- No hint is computed for the empty key. -/
def calculateKeyHint (key : Key) : Option KeyHint :=
  if key.data ≠ [] then
    some ⟨weekHash (some key.data), strongHash (some key.data)⟩
  else none

theorem calculateKeyHint_of_nonempty (key : Key) (h : key.data ≠ []) :
    calculateKeyHint key =
      some ⟨weekHash (some key.data), strongHash (some key.data)⟩ := by
  simp [calculateKeyHint, h]

end HurriCache.KeyHashes
