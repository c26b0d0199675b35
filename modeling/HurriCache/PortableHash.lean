import HurriCache.KeyHashes
import HurriCache.LimbProduct
import HurriCache.ShardSelection

/-!
# The hash without 128-bit integers

The other branch of `mux64` multiplies by 32-bit halves in 64-bit registers.
Its low word is always right. Its upper word misses the carry out of the sum
of the cross products. The second prime of the hash is too small for that, so
only keys of at least eight bytes can be sent to another shard.
-/

set_option autoImplicit false

namespace HurriCache.PortableHash
open HurriCache.ClientTypes HurriCache.KeyHashes HurriCache.LimbProduct
open HurriCache.ShardSelection

def lowHalf (v : UInt64) : UInt64 := v &&& 0xFFFFFFFF

def highHalf (v : UInt64) : UInt64 := v >>> 32

def mux64Fallback (v p : UInt64) : UInt64 × UInt64 :=
  let l := lowHalf v*lowHalf p
  let m1 := highHalf v*lowHalf p
  let m2 := lowHalf v*highHalf p
  let h := highHalf v*highHalf p
  let mm := m1+m2+highHalf l
  (lowHalf l ||| (mm <<< 32),h+highHalf mm)

/-- The three summands of `mm` fit into its register together. -/
def NoCarry (v p : UInt64) : Prop := crossSum (2^32) v.toNat p.toNat < 2^64

instance (v p : UInt64) : Decidable (NoCarry v p) :=
  inferInstanceAs (Decidable (crossSum (2^32) v.toNat p.toNat < 2^64))

theorem lowHalf_toNat (v : UInt64) : (lowHalf v).toNat = v.toNat%2^32 := by
  have h := Nat.and_two_pow_sub_one_eq_mod v.toNat 32
  simpa [lowHalf] using h

theorem highHalf_toNat (v : UInt64) : (highHalf v).toNat = v.toNat/2^32 := by
  simp [highHalf, Nat.shiftRight_eq_div_pow]

theorem halves_mul (a b : ℕ) (ha : a < 2^32) (hb : b < 2^32) : a*b < 2^64 := by
  have h := Nat.mul_lt_mul'' ha hb
  omega

theorem lowHalf_lt (v : UInt64) : (lowHalf v).toNat < 2^32 := by
  rw [lowHalf_toNat]
  exact Nat.mod_lt _ (by decide)

theorem highHalf_lt (v : UInt64) : (highHalf v).toNat < 2^32 := by
  have h := v.toNat_lt
  rw [highHalf_toNat]
  omega

theorem mul_toNat (a b : UInt64) (ha : a.toNat < 2^32) (hb : b.toNat < 2^32) :
    (a*b).toNat = a.toNat*b.toNat := by
  rw [UInt64.toNat_mul, Nat.mod_eq_of_lt (halves_mul _ _ ha hb)]

theorem middle_toNat (v p : UInt64) :
    (highHalf v*lowHalf p+lowHalf v*highHalf p+highHalf (lowHalf v*lowHalf p)).toNat =
      crossSum (2^32) v.toNat p.toNat%2^64 := by
  rw [UInt64.toNat_add, UInt64.toNat_add, highHalf_toNat (lowHalf v*lowHalf p),
    mul_toNat _ _ (highHalf_lt v) (lowHalf_lt p), mul_toNat _ _ (lowHalf_lt v) (highHalf_lt p),
    mul_toNat _ _ (lowHalf_lt v) (lowHalf_lt p), Nat.mod_add_mod]
  simp only [highHalf_toNat, lowHalf_toNat, crossSum]

theorem crossSum_words (v p : UInt64) : crossSum (2^32) v.toNat p.toNat < 2*(2^32*2^32) :=
  crossSum_lt (2^32) v.toNat p.toNat (by decide) v.toNat_lt p.toNat_lt

theorem shifted_toNat (a : UInt64) : (a <<< (32 : UInt64)).toNat = (a.toNat%2^32) <<< 32 := by
  have h32 : UInt64.toNat 32%64 = 32 := rfl
  rw [UInt64.toNat_shiftLeft, h32, Nat.shiftLeft_eq, Nat.shiftLeft_eq]
  omega

theorem fallback_low (v p : UInt64) : (mux64Fallback v p).1 = (mux64 v p).1 := by
  have hmod := product_mod (2^32) v.toNat p.toNat (by decide)
  have hlow := lowHalf_lt (lowHalf v*lowHalf p)
  apply UInt64.toNat_inj.mp
  simp only [mux64Fallback, mux64, UInt64.toNat_or, shifted_toNat, middle_toNat,
    UInt64.toNat_ofNat']
  rw [Nat.or_comm, ← Nat.shiftLeft_add_eq_or_of_lt hlow, Nat.shiftLeft_eq,
    lowHalf_toNat (lowHalf v*lowHalf p), mul_toNat _ _ (lowHalf_lt v) (lowHalf_lt p),
    lowHalf_toNat, lowHalf_toNat]
  omega

theorem upper_toNat (v p : UInt64) :
    (mux64 v p).2.toNat =
      v.toNat/2^32*(p.toNat/2^32)+crossSum (2^32) v.toNat p.toNat/2^32 := by
  have hdiv := product_div (2^32) v.toNat p.toNat (by decide)
  have hlt : v.toNat*p.toNat < 2^64*2^64 := Nat.mul_lt_mul'' v.toNat_lt p.toNat_lt
  simp only [mux64, UInt64.toNat_ofNat']
  omega

theorem fallback_upper (v p : UInt64) :
    (mux64 v p).2.toNat =
      (mux64Fallback v p).2.toNat+(if NoCarry v p then 0 else 2^32) := by
  have hupper := upper_toNat v p
  have hlt := (mux64 v p).2.toNat_lt
  have hwrap := wrapped_div (2^32) (crossSum (2^32) v.toNat p.toNat) (by decide)
    (crossSum_words v p)
  have hsquare : 2^32*2^32 = 2^64 := rfl
  rw [hsquare] at hwrap
  have hfall : (mux64Fallback v p).2.toNat = (v.toNat/2^32*(p.toNat/2^32)+
      crossSum (2^32) v.toNat p.toNat%2^64/2^32)%2^64 := by
    simp only [mux64Fallback]
    rw [UInt64.toNat_add, mul_toNat _ _ (highHalf_lt v) (highHalf_lt p), highHalf_toNat v,
      highHalf_toNat p, highHalf_toNat _, middle_toNat]
  by_cases h : NoCarry v p
  · have hs : ¬ 2^64 ≤ crossSum (2^32) v.toNat p.toNat := Nat.not_le.mpr h
    rw [if_neg hs] at hwrap
    rw [if_pos h]
    omega
  · have hs : 2^64 ≤ crossSum (2^32) v.toNat p.toNat := Nat.not_lt.mp h
    rw [if_pos hs] at hwrap
    rw [if_neg h]
    omega

theorem fallback_eq_iff (v p : UInt64) : mux64Fallback v p = mux64 v p ↔ NoCarry v p := by
  have hupper := fallback_upper v p
  rw [Prod.ext_iff]
  constructor
  · rintro ⟨-,he⟩
    by_contra h
    rw [if_neg h, he] at hupper
    omega
  · intro h
    rw [if_pos h, Nat.add_zero] at hupper
    exact ⟨fallback_low v p,UInt64.toNat_inj.mp hupper.symm⟩

theorem prime1_noCarry (v : UInt64) : NoCarry v prime1 :=
  crossSum_lt_square (2^32) v.toNat prime1.toNat (by decide) v.toNat_lt (by decide)

section Operands

/-- The operands of the multiplications of the block loop, with the
accumulators that the 128-bit branch leaves. -/
def blockOperands : ℕ → Bytes → UInt64 × UInt64 → List (UInt64 × UInt64)
  | 0, _, _ => []
  | n+1, ptr, ab =>
    let ab1 := mixWord mux64 prime0 (word64 ptr) ab
    let ab2 := mixWord mux64 prime1 (word64 (ptr.drop 8)) ab1
    let ab3 := mixWord mux64 prime0 (word64 (ptr.drop 16)) ab2
    let ab4 := mixWord mux64 prime1 (word64 (ptr.drop 24)) ab3
    (word64 ptr ^^^ ab.1,prime0)::(word64 (ptr.drop 8) ^^^ ab1.1,prime1)::
      (word64 (ptr.drop 16) ^^^ ab2.1,prime0)::(word64 (ptr.drop 24) ^^^ ab3.1,prime1)::
      blockOperands n (ptr.drop 32) ab4

def wordOperands : ℕ → Bytes → UInt64 × UInt64 → List (UInt64 × UInt64)
  | 0, _, _ => []
  | n+1, ptr, ab => (word64 ptr ^^^ ab.1,prime0)::
      wordOperands n (ptr.drop 8) (mixWord mux64 prime0 (word64 ptr) ab)

def multiplications (data : Option Bytes) (seed : UInt64) : List (UInt64 × UInt64) :=
  match data with
  | none => []
  | some data =>
    let len := data.length
    let ab : UInt64 × UInt64 := (seed ^^^ prime0,UInt64.ofNat len ^^^ prime1)
    let blocks := mixBlocks mux64 (len/32) data ab
    let words := mixWords mux64 (blocks.1.length/8) blocks.1 blocks.2
    let b := mixTail words.1 words.2.2
    blockOperands (len/32) data ab++wordOperands (blocks.1.length/8) blocks.1 blocks.2++
      [(words.2.1 ^^^ rot64 b 17,prime1)]

variable (mux : UInt64 → UInt64 → UInt64 × UInt64)

theorem mixWord_congr (prime word : UInt64) (ab : UInt64 × UInt64)
    (h : mux (word ^^^ ab.1) prime = mux64 (word ^^^ ab.1) prime) :
    mixWord mux prime word ab = mixWord mux64 prime word ab := by
  simp only [mixWord, h]

theorem mixBlocks_congr (n : ℕ) (ptr : Bytes) (ab : UInt64 × UInt64)
    (h : ∀ vp ∈ blockOperands n ptr ab, mux vp.1 vp.2 = mux64 vp.1 vp.2) :
    mixBlocks mux n ptr ab = mixBlocks mux64 n ptr ab := by
  induction n generalizing ptr ab with
  | zero => rfl
  | succ n ih =>
    simp only [blockOperands, List.forall_mem_cons] at h
    obtain ⟨h0,h1,h2,h3,hrest⟩ := h
    rw [mixBlocks, mixBlocks]
    simp only [mixWord_congr mux _ _ _ h0, mixWord_congr mux _ _ _ h1,
      mixWord_congr mux _ _ _ h2, mixWord_congr mux _ _ _ h3]
    exact ih _ _ hrest

theorem mixWords_congr (n : ℕ) (ptr : Bytes) (ab : UInt64 × UInt64)
    (h : ∀ vp ∈ wordOperands n ptr ab, mux vp.1 vp.2 = mux64 vp.1 vp.2) :
    mixWords mux n ptr ab = mixWords mux64 n ptr ab := by
  induction n generalizing ptr ab with
  | zero => rfl
  | succ n ih =>
    rw [wordOperands, List.forall_mem_cons] at h
    rw [mixWords, mixWords, mixWord_congr mux _ _ _ h.1]
    exact ih _ _ h.2

theorem weekHashWith_congr (data : Option Bytes) (seed : UInt64)
    (h : ∀ vp ∈ multiplications data seed, mux vp.1 vp.2 = mux64 vp.1 vp.2) :
    weekHashWith mux data seed = weekHashWith mux64 data seed := by
  cases data with
  | none => rfl
  | some data =>
    simp only [multiplications, List.forall_mem_append, List.forall_mem_singleton] at h
    obtain ⟨⟨hblocks,hwords⟩,hfinal⟩ := h
    simp only [weekHashWith, mixBlocks_congr mux _ _ _ hblocks, mixWords_congr mux _ _ _ hwords,
      hfinal]

end Operands

def fallbackKeyHint (key : Key) : Option KeyHint :=
  if key.data ≠ [] then
    some ⟨weekHashWith mux64Fallback (some key.data) 0,strongHash (some key.data)⟩
  else none

theorem weekHash_fallback (data : Option Bytes) (seed : UInt64)
    (h : ∀ vp ∈ multiplications data seed, NoCarry vp.1 vp.2) :
    weekHashWith mux64Fallback data seed = weekHashWith mux64 data seed :=
  weekHashWith_congr mux64Fallback data seed (fun vp hvp => (fallback_eq_iff _ _).mpr (h vp hvp))

theorem keyHint_fallback (key : Key)
    (h : ∀ vp ∈ multiplications (some key.data) 0, NoCarry vp.1 vp.2) :
    fallbackKeyHint key = calculateKeyHint key := by
  rw [fallbackKeyHint, calculateKeyHint, weekHash_fallback (some key.data) 0 h]
  rfl

/-- The branches of `mux64` agree exactly where the cross products do not
carry out of their register, and a hash none of whose multiplications does is
the same on both, with the shard. -/
theorem fallback_agrees_iff (v p : UInt64) (data : Option Bytes) (seed : UInt64) (key : Key)
    (max_shards : Int32) (random_counter : UInt32) :
    (mux64Fallback v p = mux64 v p ↔ NoCarry v p) ∧
    ((∀ vp ∈ multiplications data seed, NoCarry vp.1 vp.2) →
      weekHashWith mux64Fallback data seed = weekHashWith mux64 data seed) ∧
    ((∀ vp ∈ multiplications (some key.data) 0, NoCarry vp.1 vp.2) →
      selectShard (fallbackKeyHint key) max_shards random_counter =
        selectShard (calculateKeyHint key) max_shards random_counter) := by
  refine ⟨fallback_eq_iff v p,weekHash_fallback data seed,?_⟩
  intro h
  rw [keyHint_fallback key h]

def userKey : Key := ⟨[117,115,101,114,58,49,48,48,49],by decide⟩

theorem fallback_agrees_user :
    mux64Fallback prime1 prime1 = mux64 prime1 prime1 ∧
    weekHashWith mux64Fallback (some userKey.data) 0 =
      weekHashWith mux64 (some userKey.data) 0 ∧
    selectShard (fallbackKeyHint userKey) 5 0 = selectShard (calculateKeyHint userKey) 5 0 := by
  have hall : (multiplications (some userKey.data) 0).all
      (fun vp => decide (NoCarry vp.1 vp.2)) = true := by decide
  have hcarry : ∀ vp ∈ multiplications (some userKey.data) 0, NoCarry vp.1 vp.2 :=
    fun vp h => of_decide_eq_true (List.all_eq_true.mp hall vp h)
  obtain ⟨hword,hhash,hshard⟩ := fallback_agrees_iff prime1 prime1 (some userKey.data) 0 userKey
    5 0
  exact ⟨hword.mpr (prime1_noCarry prime1),hhash hcarry,hshard hcarry⟩

/-- A key whose only whole word makes the multiplier of all ones. -/
def carryKey : Key := ⟨[18,140,82,172,28,131,102,19],by decide⟩

theorem carry_lost :
    mux64Fallback 0xFFFFFFFFFFFFFFFF prime0 ≠ mux64 0xFFFFFFFFFFFFFFFF prime0 ∧
    weekHashWith mux64Fallback (some carryKey.data) 0 ≠ weekHash (some carryKey.data) ∧
    selectShard (fallbackKeyHint carryKey) 2 0 = .ok (1,0) ∧
    selectShard (calculateKeyHint carryKey) 2 0 = .ok (0,0) :=
  ⟨by decide,by decide,rfl,rfl⟩

theorem short_key_agrees (key : Key) (h : key.data.length < 8) :
    fallbackKeyHint key = calculateKeyHint key := by
  apply keyHint_fallback
  have hblocks : key.data.length/32 = 0 := by omega
  have hwords : key.data.length/8 = 0 := by omega
  simp only [multiplications, hblocks, hwords, mixBlocks, blockOperands, wordOperands,
    List.nil_append, List.forall_mem_singleton]
  exact prime1_noCarry _

end HurriCache.PortableHash
