import HurriCache.ClientTypes

/-!
# Compression

The `libdeflate` build of `compression.cxx`. The two library routines are
parameters; what is assumed of them is stated where it is used. A destination
buffer of `expectedLen` bytes is part of the type of the decompressor, so a
successful call cannot return a buffer of another length.
-/

set_option autoImplicit false

namespace HurriCache.PayloadCompression
open HurriCache.ClientTypes

structure Libdeflate where
  /-- `libdeflate_gzip_compress`; the empty result is its failure value. -/
  gzipCompress : Bytes → Bytes
  /-- `libdeflate_gzip_decompress` without an actual-length result. -/
  gzipDecompress : Bytes → (expectedLen : ℕ) → Option {out : Bytes // out.length = expectedLen}

def Libdeflate.RoundTrip (lib : Libdeflate) : Prop :=
  ∀ x, lib.gzipCompress x ≠ [] →
    (lib.gzipDecompress (lib.gzipCompress x) x.length).map Subtype.val = some x

/-- A buffer and the value left in `*destLen`; `none` is a null result. -/
def compress (lib : Libdeflate) (source : Bytes) (sourceLen : UInt32) :
    Option (Bytes × UInt32) :=
  let dest := lib.gzipCompress (source.take sourceLen.toNat)
  if dest = [] then none else some (dest, UInt32.ofNat dest.length)

def decompress (lib : Libdeflate) (source : Bytes) (sourceLen expectedLen : UInt32) :
    Option Bytes :=
  (lib.gzipDecompress (source.take sourceLen.toNat) expectedLen.toNat).map Subtype.val

theorem take_ofNat_length (x : Bytes) (h : x.length < 2^32) :
    x.take (UInt32.ofNat x.length).toNat = x := by
  have hn : (UInt32.ofNat x.length).toNat = x.length := by simpa using h
  rw [hn, List.take_length]

theorem compress_eq_none_iff (lib : Libdeflate) (x : Bytes) (h : x.length < 2^32) :
    compress lib x (UInt32.ofNat x.length) = none ↔ lib.gzipCompress x = [] := by
  rw [compress, take_ofNat_length x h]
  simp

theorem compress_of_ne (lib : Libdeflate) (x : Bytes) (h : x.length < 2^32)
    (hc : lib.gzipCompress x ≠ []) :
    compress lib x (UInt32.ofNat x.length) =
      some (lib.gzipCompress x, UInt32.ofNat (lib.gzipCompress x).length) := by
  rw [compress, take_ofNat_length x h]
  simp [hc]

theorem decompress_compressed (lib : Libdeflate) (hr : lib.RoundTrip) (x : Bytes)
    (h : x.length < 2^32) (hc : lib.gzipCompress x ≠ [])
    (hl : (lib.gzipCompress x).length < 2^32) :
    decompress lib (lib.gzipCompress x) (UInt32.ofNat (lib.gzipCompress x).length)
      (UInt32.ofNat x.length) = some x := by
  have hn : (UInt32.ofNat x.length).toNat = x.length := by simpa using h
  rw [decompress, take_ofNat_length _ hl, hn]
  exact hr x hc

theorem decompress_length (lib : Libdeflate) (source raw : Bytes)
    (sourceLen expectedLen : UInt32)
    (h : decompress lib source sourceLen expectedLen = some raw) :
    raw.length = expectedLen.toNat := by
  obtain ⟨out, -, rfl⟩ := Option.map_eq_some_iff.mp h
  exact out.2

end HurriCache.PayloadCompression
