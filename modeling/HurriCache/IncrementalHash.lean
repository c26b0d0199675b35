import HurriCache.BlockFold
import HurriCache.KeyHashes

/-!
# The strong hash over pieces

`crc32_accumulate` carries a 64-bit register from piece to piece and
`crc32_finalize` mixes it with the total size. `strong_hash` reads the whole
buffer into a 32-bit register. Either loop folds the bytes into a CRC-32C
register, whatever words it reads them in.
-/

set_option autoImplicit false

namespace HurriCache.IncrementalHash
open HurriCache.ClientTypes HurriCache.KeyHashes HurriCache.BlockFold

/-- The instruction with a 64-bit register, whose upper half it ignores and
clears. -/
def mmCrc32u64 (crc : UInt64) (operand : Bytes) : UInt64 := (mmCrc32 crc.toUInt32 operand).toUInt64

/-- Eight bytes at a time, and then the tails of four, two and one. -/
def readWords {R : Type} (step : R → Bytes → R) (data : Bytes) (r : R) : R :=
  let (sample,crc) := readBlocks step 8 (data.length/8) data r
  let (sample,crc) := readBlock step 4 sample crc
  let (sample,crc) := readBlock step 2 sample crc
  (readBlock step 1 sample crc).2

def crc32Accumulate (data : Bytes) (seed : UInt64) : UInt64 := readWords mmCrc32u64 data seed

def crc32Finalize (crc total_size : UInt64) : UInt32 :=
  avalanche crc.toUInt32 total_size.toUInt32

def strongRegister (data : Bytes) : UInt32 :=
  let (sample,crc) := crcWords (data.length/8) data 0
  crcTail sample crc

theorem strongHash_register (data : Bytes) :
    strongHash (some data) = avalanche (strongRegister data) (UInt32.ofNat data.length) := rfl

theorem crcWords_blocks (n : ℕ) (sample : Bytes) (crc : UInt32) :
    crcWords n sample crc = readBlocks mmCrc32 8 n sample crc := by
  induction n generalizing sample crc with
  | zero => rfl
  | succ n ih => exact ih _ _

theorem crcTail_blocks (sample : Bytes) (crc : UInt32) :
    crcTail sample crc =
      (let (sample,crc) := readBlock mmCrc32 4 sample crc
      let (sample,crc) := readBlock mmCrc32 2 sample crc
      (readBlock mmCrc32 1 sample crc).2) := by
  have hlast : ∀ s c, (if 1 ≤ s.length then mmCrc32 c (s.take 1) else c) =
      (readBlock mmCrc32 1 s c).2 := by
    intro s c
    unfold readBlock
    by_cases h : 1 ≤ s.length
    · rw [if_pos h, if_pos h]
    · rw [if_neg h, if_neg h]
  simp only [crcTail, hlast]
  rfl

theorem strongRegister_words (data : Bytes) : strongRegister data = readWords mmCrc32 data 0 := by
  simp only [strongRegister, crcWords_blocks, crcTail_blocks, readWords]

section Reading

variable {R : Type} (step : R → Bytes → R) (shown : R → UInt32)
  (h : Folds step crc32cByte shown)
include h

theorem readWords_bytes (data : Bytes) (r : R) :
    shown (readWords step data r) = data.foldl crc32cByte (shown r) := by
  have h8 := readBlocks_fold step crc32cByte shown h 8 (data.length/8) data r
  have hlt8 := readBlocks_lt step 8 (by decide) data r
  generalize hs8 : readBlocks step 8 (data.length/8) data r = s at h8 hlt8
  have h4 := readBlock_fold step crc32cByte shown h 4 s.1 s.2
  have hlt4 := readBlock_lt step 4 s.1 s.2 hlt8
  generalize hs4 : readBlock step 4 s.1 s.2 = t at h4 hlt4
  have h2 := readBlock_fold step crc32cByte shown h 2 t.1 t.2
  have hlt2 := readBlock_lt step 2 t.1 t.2 hlt4
  generalize hs2 : readBlock step 2 t.1 t.2 = u at h2 hlt2
  have h1 := readBlock_fold step crc32cByte shown h 1 u.1 u.2
  have hlt1 := readBlock_lt step 1 u.1 u.2 hlt2
  have hnil := List.length_eq_zero_iff.mp (Nat.lt_one_iff.mp hlt1)
  rw [hnil] at h1
  simp only [readWords, hs8, hs4, hs2]
  calc
    shown (readBlock step 1 u.1 u.2).2 = u.1.foldl crc32cByte (shown u.2) := h1
    _ = t.1.foldl crc32cByte (shown t.2) := h2
    _ = s.1.foldl crc32cByte (shown s.2) := h4
    _ = data.foldl crc32cByte (shown r) := h8

end Reading

theorem strongRegister_bytes (data : Bytes) :
    strongRegister data = data.foldl crc32cByte 0 := by
  rw [strongRegister_words]
  exact readWords_bytes mmCrc32 id (fun _ _ => rfl) data 0

theorem mmCrc32u64_folds : Folds mmCrc32u64 crc32cByte UInt64.toUInt32 := by
  intro crc operand
  exact UInt32.toUInt32_toUInt64 _

theorem crc32Accumulate_bytes (data : Bytes) (seed : UInt64) :
    (crc32Accumulate data seed).toUInt32 = data.foldl crc32cByte seed.toUInt32 :=
  readWords_bytes mmCrc32u64 UInt64.toUInt32 mmCrc32u64_folds data seed

/-- Every cut of a key's bytes: the pieces give the hash of the key, and both
loops leave the register of the single bytes. -/
theorem incremental_agrees (key : Key) (pieces : List Bytes) (hcut : pieces.flatten = key.data) :
    crc32Finalize (pieces.foldl (fun crc piece => crc32Accumulate piece crc) 0)
        (UInt64.ofNat key.data.length) = strongHash (some key.data) ∧
      strongRegister key.data = key.data.foldl crc32cByte 0 ∧
      ∀ (piece : Bytes) (seed : UInt64),
        (crc32Accumulate piece seed).toUInt32 = piece.foldl crc32cByte seed.toUInt32 := by
  refine ⟨?_,strongRegister_bytes key.data,crc32Accumulate_bytes⟩
  have hfold := pieces_fold (fun crc piece => crc32Accumulate piece crc) crc32cByte
    UInt64.toUInt32 (fun crc piece => crc32Accumulate_bytes piece crc) pieces 0
  have hzero : UInt64.toUInt32 0 = 0 := rfl
  have hsize := UInt64.toUInt32_ofNat' key.data.length
  rw [crc32Finalize, strongHash_register, strongRegister_bytes, hfold, hcut, hzero, hsize]

theorem incremental_agrees_cut :
    crc32Finalize (crc32Accumulate [49,48,48,49] (crc32Accumulate [117,115,101,114,58] 0)) 9 =
      strongHash (some [117,115,101,114,58,49,48,48,49]) :=
  (incremental_agrees ⟨[117,115,101,114,58,49,48,48,49],by decide⟩
    [[117,115,101,114,58],[49,48,48,49]] rfl).1

end HurriCache.IncrementalHash
