import HurriCache.ChunkBounds
import HurriCache.ElementSizes
import HurriCache.PlanShapes
import HurriCache.RequestSizes
import Mathlib.Algebra.BigOperators.Group.List.Basic

/-!
# The chunk limit and the message limit

`maxRpcSize` is the message size of the channels less one eighth. A splitter
holds the elements of a request, with what it starts from, to that limit. The
key, the other fields of the request and the tag and length in front of every
element are left to the eighth, and the eighth need not hold them.
-/

set_option autoImplicit false

namespace HurriCache.RequestBound
open HurriCache.ClientTypes HurriCache.PayloadCompression HurriCache.WireMessages
open HurriCache.WireSizes HurriCache.MessageBuilders HurriCache.StandaloneCalls
open HurriCache.InsertRequests HurriCache.GreedyCut HurriCache.ChunkSplitters
open HurriCache.SmartOperations HurriCache.CreationPlans HurriCache.PlanShapes
open HurriCache.RequestSizes HurriCache.ElementSizes HurriCache.ChunkBounds HurriCache.StoredGzip

/-- The message size that `maxRpcSize` takes an eighth from. -/
def messageLimit (client : SmartClient) : ℕ :=
  max 4194304 client.max_inbound_message_size.toInt.toNat

theorem less_eighth (base : Int64) (h : 0 ≤ base) :
    (base-base/8).toUInt64.toNat = base.toInt.toNat-base.toInt.toNat/8 := by
  have hpos : 0 ≤ base.toInt := Int64.le_iff_toInt_le.mp h
  have hlt := base.toInt_lt
  have hdiv : (base/8).toInt = base.toInt/8 := by
    rw [Int64.toInt_div, Int.tdiv_eq_ediv_of_nonneg hpos]
    exact Int.bmod_eq_of_le (by show _ ≤ base.toInt/8; omega) (by show base.toInt/8 < _; omega)
  have hsub : (base-base/8).toInt = base.toInt-base.toInt/8 := by
    rw [Int64.toInt_sub, hdiv]
    exact Int.bmod_eq_of_le (by omega) (by omega)
  have hle : 0 ≤ base-base/8 := by
    rw [Int64.le_iff_toInt_le, hsub]
    show 0 ≤ _
    omega
  rw [Int64.toNat_toUInt64_of_le hle, ← Int64.toNat_toInt, hsub]
  omega

theorem maxRpcSize_toNat (client : SmartClient) :
    client.maxRpcSize.toUInt64.toNat = messageLimit client-messageLimit client/8 := by
  let inbound := client.max_inbound_message_size.toInt64
  have hinbound : inbound.toInt = client.max_inbound_message_size.toInt := Int32.toInt_toInt64 _
  have hbase : (4*1024*1024 : Int64).toInt = 4194304 := by decide
  show ((if _ then inbound else _)-(if _ then inbound else _)/8).toUInt64.toNat = _
  unfold messageLimit
  by_cases h : (4*1024*1024 : Int64) ≤ inbound
  · have hle := Int64.le_iff_toInt_le.mp h
    rw [if_pos h, less_eighth inbound (Int64.le_trans (by decide) h), hinbound]
    omega
  · have hlt := mt Int64.le_iff_toInt_le.mpr h
    rw [if_neg h, less_eighth _ (by decide), hbase]
    omega

theorem messageLimit_lt (client : SmartClient) : messageLimit client < 2^31 := by
  have := client.max_inbound_message_size.toInt_lt
  unfold messageLimit
  omega

section Within

variable (lib : Libdeflate) (client : SmartClient) (max_rpc_size : Int64) (cid : Int32)

def total (sizes : List UInt64) : ℕ := (sizes.map UInt64.toNat).sum

/-- The map splitters count 32 bytes with every entry. -/
def entrySlack : Method → ℕ
  | .addElementHashMap keys _ => 32*(keys.getD []).length
  | .addElementOrderedMap keys _ => 32*(keys.getD []).length
  | _ => 0

/-- What the splitter has counted for the elements of a method stays within the
limit if there are two of them and they fit in memory together. -/
def Within (start : ℕ) (m : Method) : Prop :=
  ∀ keys values, estimatedSizes lib cid client.compression_threshold m = .ok (keys,values) →
    total keys+total values < 2^63 → 2 ≤ values.length →
    start+entrySlack m+(total keys+total values) ≤ max_rpc_size.toUInt64.toNat

theorem total_sizes {A : Type} (size : A → Except Fault UInt64) (as : List A) :
    total (as.map (sizeOr size)) = counted (sizeOr size) as := by
  rw [total, List.map_map]
  rfl

theorem no_elements_within (start : ℕ) (m : Method)
    (hm : estimatedSizes lib cid client.compression_threshold m = .ok ([],[])) :
    Within lib client max_rpc_size cid start m := by
  intro keys values h _ hcount
  rw [hm] at h
  cases h
  exact absurd hcount (by decide)

section Chunks

variable {A : Type} (size : A → Except Fault UInt64) (m : Method)

theorem values_sized (block : List A) (hsized : ∀ a ∈ block, size a = .ok (sizeOr size a))
    (hm : estimatedSizes lib cid client.compression_threshold m =
      (do .ok ([],← block.mapM size))) :
    estimatedSizes lib cid client.compression_threshold m =
      .ok ([],block.map (sizeOr size)) := by
  rw [hm, mapM_ok size (sizeOr size) block hsized]
  rfl

theorem values_within (start : UInt64) (hmax : max_rpc_size.toUInt64.toNat < 2^34)
    (hstart : start.toNat < 2^34) (block : List A)
    (hsized : ∀ a ∈ block, size a = .ok (sizeOr size a))
    (hfit : Fitting start (overflows (sizeOr size) max_rpc_size) (addSize (sizeOr size)) block)
    (hm : estimatedSizes lib cid client.compression_threshold m =
      (do .ok ([],← block.mapM size)))
    (hslack : entrySlack m = 0) : Within lib client max_rpc_size cid start.toNat m := by
  intro keys values h hsum hcount
  rw [values_sized lib client cid size m block hsized hm] at h
  cases h
  rw [total_sizes] at hsum ⊢
  rw [List.length_map] at hcount
  have hwithin := (fitting_counted (sizeOr size) (fun a => (sizeOr size a).toNat) start
    max_rpc_size hstart hmax block (fun a _ => Nat.le_add_right _ 32) (by
      show counted (sizeOr size) block < 2^63
      omega) hfit).2 hcount
  rw [hslack]
  show start.toNat+0+(0+_) ≤ _
  omega

theorem first_values_within (hmax : max_rpc_size.toUInt64.toNat < 2^34) (items : List A) (i : ℕ)
    (hsplit : firstChunkSplit size 128 max_rpc_size items = .ok i)
    (hm : estimatedSizes lib cid client.compression_threshold m =
      (do .ok ([],← (items.take i).mapM size)))
    (hslack : entrySlack m = 0) : Within lib client max_rpc_size cid 128 m := by
  intro keys values h hsum hcount
  have hsized := firstChunkSplit_sized size max_rpc_size 128 items i hsplit
  rw [values_sized lib client cid size m (items.take i) hsized hm] at h
  cases h
  rw [total_sizes] at hsum ⊢
  rw [List.length_map] at hcount
  rcases firstChunkSplit_counted size max_rpc_size (fun a => (sizeOr size a).toNat) 128 (by decide)
    hmax items i hsplit (fun a _ => Nat.le_add_right _ 32) (by
      show counted (sizeOr size) (items.take i) < 2^63
      omega) with rfl | hwithin
  · exact absurd hcount (by simp)
  · rw [hslack]
    show 128+0+(0+_) ≤ _
    have h128 : (128 : UInt64).toNat = 128 := rfl
    omega

end Chunks

section Entries

variable {K : Type} (keySize : K → Except Fault UInt64) (m : Method)

def valueOf (v : ValuePtr) : Except Fault UInt64 :=
  estimateValueSize lib cid client.compression_threshold v

def pairOf (e : K × ValuePtr) : Except Fault UInt64 :=
  pairSize lib cid client.compression_threshold (keySize e.1) e.2

def entryWeight (e : K × ValuePtr) : ℕ :=
  (sizeOr keySize e.1).toNat+
    (e.2.map (fun v => (sizeOr (valueOf lib client cid) (some v)).toNat)).getD 0

theorem pairOf_weight (e : K × ValuePtr)
    (h : pairOf lib client cid keySize e = .ok (sizeOr (pairOf lib client cid keySize) e)) :
    keySize e.1 = .ok (sizeOr keySize e.1) ∧
      (sizeOr (pairOf lib client cid keySize) e).toNat ≤ entryWeight lib client cid keySize e+32 ∧
      (entryWeight lib client cid keySize e < 2^63 →
        (sizeOr (pairOf lib client cid keySize) e).toNat =
          entryWeight lib client cid keySize e+32) := by
  rcases bind_eq_ok h with ⟨k,hk,hv⟩
  have hkey := sizeOr_eq keySize e.1 ⟨k,hk⟩
  have hsame : sizeOr keySize e.1 = k := by simp [sizeOr, hk]
  refine ⟨hkey,?_⟩
  rw [entryWeight, hsame]
  generalize sizeOr (pairOf lib client cid keySize) e = p at hv
  rcases e with ⟨key,_ | v⟩
  · cases hv
    rw [UInt64.toNat_add]
    have h32 : (32 : UInt64).toNat = 32 := rfl
    show _ ≤ k.toNat+0+32 ∧ (k.toNat+0 < _ → _ = k.toNat+0+32)
    omega
  · rcases bind_eq_ok hv with ⟨n,hn,hp⟩
    cases hp
    have hvalue : sizeOr (valueOf lib client cid) (some v) = n := by simp [sizeOr, valueOf, hn]
    rw [UInt64.toNat_add, UInt64.toNat_add]
    have h32 : (32 : UInt64).toNat = 32 := rfl
    show _ ≤ k.toNat+(sizeOr (valueOf lib client cid) (some v)).toNat+32 ∧
      (k.toNat+(sizeOr (valueOf lib client cid) (some v)).toNat < _ →
        _ = k.toNat+(sizeOr (valueOf lib client cid) (some v)).toNat+32)
    rw [hvalue]
    omega

theorem total_entries (block : List (K × ValuePtr)) :
    total ((mapChunk block).keys.map (sizeOr keySize))+
        total ((mapChunk block).values.map (sizeOr (valueOf lib client cid))) =
      (block.map (entryWeight lib client cid keySize)).sum := by
  induction block with
  | nil => rfl
  | cons e rest ih =>
    rw [List.map_cons, List.sum_cons, ← ih]
    rcases e with ⟨key,_ | v⟩
    · simp only [mapChunk, List.map_cons, total, List.sum_cons, List.filterMap_cons,
        Option.map_none, entryWeight, Option.getD_none]
      omega
    · simp only [mapChunk, List.map_cons, total, List.sum_cons, List.filterMap_cons,
        Option.map_some, entryWeight, Option.getD_some]
      omega

theorem entries_sized (block : List (K × ValuePtr))
    (hsized : ∀ e ∈ block, pairOf lib client cid keySize e =
      .ok (sizeOr (pairOf lib client cid keySize) e))
    (hm : estimatedSizes lib cid client.compression_threshold m = (do
      .ok (← (mapChunk block).keys.mapM keySize,
        ← (mapChunk block).values.mapM (valueOf lib client cid)))) :
    estimatedSizes lib cid client.compression_threshold m =
      .ok ((mapChunk block).keys.map (sizeOr keySize),
        (mapChunk block).values.map (sizeOr (valueOf lib client cid))) := by
  have hkeys : ∀ k ∈ (mapChunk block).keys, keySize k = .ok (sizeOr keySize k) := by
    intro k hk
    rcases List.mem_map.mp hk with ⟨e,he,rfl⟩
    exact (pairOf_weight lib client cid keySize e (hsized e he)).1
  have hvalues : ∀ v ∈ (mapChunk block).values,
      valueOf lib client cid v = .ok (sizeOr (valueOf lib client cid) v) := by
    intro v hv
    rcases List.mem_filterMap.mp hv with ⟨e,_,he⟩
    rcases Option.map_eq_some_iff.mp he with ⟨value,_,rfl⟩
    exact sizeOr_eq _ _ ⟨_,estimateValueSize_some lib cid client.compression_threshold value⟩
  rw [hm, mapM_ok keySize _ _ hkeys, mapM_ok _ _ _ hvalues]
  rfl

theorem entries_within (start : UInt64) (hmax : max_rpc_size.toUInt64.toNat < 2^34)
    (hstart : start.toNat < 2^34) (block : List (K × ValuePtr))
    (hsized : ∀ e ∈ block, pairOf lib client cid keySize e =
      .ok (sizeOr (pairOf lib client cid keySize) e))
    (hfit : Fitting start (overflows (sizeOr (pairOf lib client cid keySize)) max_rpc_size)
      (addSize (sizeOr (pairOf lib client cid keySize))) block)
    (hm : estimatedSizes lib cid client.compression_threshold m = (do
      .ok (← (mapChunk block).keys.mapM keySize,
        ← (mapChunk block).values.mapM (valueOf lib client cid))))
    (hslack : entrySlack m = 32*(mapChunk block).keys.length) :
    Within lib client max_rpc_size cid start.toNat m := by
  intro keys values h hsum hcount
  rw [entries_sized lib client cid keySize m block hsized hm] at h
  cases h
  rw [total_entries] at hsum ⊢
  have hlen : 2 ≤ block.length := by
    rw [List.length_map] at hcount
    exact le_trans hcount (List.length_filterMap_le _ block)
  have hwithin := (fitting_counted _ (entryWeight lib client cid keySize) start max_rpc_size hstart
    hmax block (fun e he => (pairOf_weight lib client cid keySize e (hsized e he)).2.1) hsum
    hfit).2 hlen
  rw [counted_eq _ (entryWeight lib client cid keySize) 32 block
    (fun e he => (pairOf_weight lib client cid keySize e (hsized e he)).2.2) hsum] at hwithin
  rw [hslack, mapChunk, List.length_map]
  omega

end Entries

section FirstEntries

variable {E B : Type} (keySize valueSize : B → Except Fault UInt64)

def entrySize (e : B) : Except Fault UInt64 := do .ok ((← keySize e)+(← valueSize e))

theorem entrySize_weight (e : B)
    (h : entrySize keySize valueSize e = .ok (sizeOr (entrySize keySize valueSize) e)) :
    keySize e = .ok (sizeOr keySize e) ∧ valueSize e = .ok (sizeOr valueSize e) ∧
      (sizeOr (entrySize keySize valueSize) e).toNat =
        ((sizeOr keySize e).toNat+(sizeOr valueSize e).toNat) % 2^64 := by
  rcases bind_eq_ok h with ⟨k,hk,hv⟩
  rcases bind_eq_ok hv with ⟨n,hn,hp⟩
  have hsum : k+n = sizeOr (entrySize keySize valueSize) e := Except.ok.inj hp
  have hkey : sizeOr keySize e = k := by simp [sizeOr, hk]
  have hvalue : sizeOr valueSize e = n := by simp [sizeOr, hn]
  rw [← hsum, hkey, hvalue]
  exact ⟨hk,hn,UInt64.toNat_add k n⟩

theorem first_entries_sized (f : E → B) (items : List E) (i : ℕ) (sent : List B) (m : Method)
    (hsplit : firstChunkSplit (fun e => entrySize keySize valueSize (f e)) 128 max_rpc_size items =
      .ok i)
    (hperm : sent.Perm ((items.take i).map f))
    (hm : estimatedSizes lib cid client.compression_threshold m =
      (do .ok (← sent.mapM keySize,← sent.mapM valueSize))) :
    estimatedSizes lib cid client.compression_threshold m =
      .ok (sent.map (sizeOr keySize),sent.map (sizeOr valueSize)) := by
  have hsent : ∀ b ∈ sent, entrySize keySize valueSize b =
      .ok (sizeOr (entrySize keySize valueSize) b) := by
    intro b hb
    rcases List.mem_map.mp (hperm.mem_iff.mp hb) with ⟨a,ha,rfl⟩
    exact firstChunkSplit_sized _ max_rpc_size 128 items i hsplit a ha
  rw [hm, mapM_ok _ _ _ (fun b hb => (entrySize_weight _ _ b (hsent b hb)).1),
    mapM_ok _ _ _ (fun b hb => (entrySize_weight _ _ b (hsent b hb)).2.1)]
  rfl

theorem first_entries_within (hmax : max_rpc_size.toUInt64.toNat < 2^34) (f : E → B)
    (items : List E) (i : ℕ) (sent : List B) (m : Method)
    (hsplit : firstChunkSplit (fun e => entrySize keySize valueSize (f e)) 128 max_rpc_size items =
      .ok i)
    (hperm : sent.Perm ((items.take i).map f))
    (hm : estimatedSizes lib cid client.compression_threshold m =
      (do .ok (← sent.mapM keySize,← sent.mapM valueSize)))
    (hslack : entrySlack m = 0) : Within lib client max_rpc_size cid 128 m := by
  have hsized : ∀ a ∈ items.take i, entrySize keySize valueSize (f a) =
      .ok (sizeOr (entrySize keySize valueSize) (f a)) :=
    firstChunkSplit_sized _ max_rpc_size 128 items i hsplit
  let w : E → ℕ := fun a => (sizeOr keySize (f a)).toNat+(sizeOr valueSize (f a)).toNat
  have htotal : total (sent.map (sizeOr keySize))+total (sent.map (sizeOr valueSize)) =
      ((items.take i).map w).sum := by
    have hk := (hperm.map (fun b => (sizeOr keySize b).toNat)).sum_nat
    have hv := (hperm.map (fun b => (sizeOr valueSize b).toNat)).sum_nat
    rw [total_sizes, total_sizes, counted, counted, hk, hv, List.map_map, List.map_map]
    exact List.sum_map_add.symm
  intro keys values h hsum hcount
  rw [first_entries_sized lib client max_rpc_size cid keySize valueSize f items i sent m hsplit
    hperm hm] at h
  cases h
  rw [htotal] at hsum ⊢
  rcases firstChunkSplit_counted _ max_rpc_size w 128 (by decide) hmax items i hsplit
    (fun a ha => by
      have := (entrySize_weight _ _ (f a) (hsized a ha)).2.2
      show (sizeOr (entrySize keySize valueSize) (f a)).toNat ≤ _+_+32
      omega) hsum with rfl | hwithin
  · have hlen := hperm.length_eq
    rw [List.length_map] at hcount
    exact absurd hcount (by simp [hlen])
  · rw [counted_eq _ w 0 _ (fun a ha hlt => by
      have := (entrySize_weight _ _ (f a) (hsized a ha)).2.2
      show (sizeOr (entrySize keySize valueSize) (f a)).toNat = _+_+0
      have hw : w a = (sizeOr keySize (f a)).toNat+(sizeOr valueSize (f a)).toNat := rfl
      omega) hsum] at hwithin
    have h128 : (128 : UInt64).toNat = 128 := rfl
    rw [hslack]
    omega

end FirstEntries

/-- What the splitters have measured a request by: it has no elements, or it
carries a chunk or the first part of a creation, of values or of entries. -/
inductive Measured : ℕ → Method → Prop where
  | bare (m : Method) (hm : estimatedSizes lib cid client.compression_threshold m = .ok ([],[])) :
    Measured 0 m
  | values {A : Type} (size : A → Except Fault UInt64) (m : Method) (start : UInt64)
      (hstart : start.toNat < 2^34) (block : List A)
      (hsized : ∀ a ∈ block, size a = .ok (sizeOr size a))
      (hfit : Fitting start (overflows (sizeOr size) max_rpc_size) (addSize (sizeOr size)) block)
      (hm : estimatedSizes lib cid client.compression_threshold m =
        (do .ok ([],← block.mapM size)))
      (hslack : entrySlack m = 0) : Measured start.toNat m
  | firstValues {A : Type} (size : A → Except Fault UInt64) (m : Method) (items : List A) (i : ℕ)
      (hsplit : firstChunkSplit size 128 max_rpc_size items = .ok i)
      (hm : estimatedSizes lib cid client.compression_threshold m =
        (do .ok ([],← (items.take i).mapM size)))
      (hslack : entrySlack m = 0) : Measured 128 m
  | entries {K : Type} (keySize : K → Except Fault UInt64) (m : Method) (start : UInt64)
      (hstart : start.toNat < 2^34) (block : List (K × ValuePtr))
      (hsized : ∀ e ∈ block, pairOf lib client cid keySize e =
        .ok (sizeOr (pairOf lib client cid keySize) e))
      (hfit : Fitting start (overflows (sizeOr (pairOf lib client cid keySize)) max_rpc_size)
        (addSize (sizeOr (pairOf lib client cid keySize))) block)
      (hm : estimatedSizes lib cid client.compression_threshold m = (do
        .ok (← (mapChunk block).keys.mapM keySize,
          ← (mapChunk block).values.mapM (valueOf lib client cid))))
      (hslack : entrySlack m = 32*(mapChunk block).keys.length) : Measured start.toNat m
  | firstEntries {E B : Type} (keySize valueSize : B → Except Fault UInt64) (f : E → B)
      (items : List E) (i : ℕ) (sent : List B) (m : Method)
      (hsplit : firstChunkSplit (fun e => entrySize keySize valueSize (f e)) 128 max_rpc_size
        items = .ok i)
      (hperm : sent.Perm ((items.take i).map f))
      (hm : estimatedSizes lib cid client.compression_threshold m =
        (do .ok (← sent.mapM keySize,← sent.mapM valueSize)))
      (hslack : entrySlack m = 0) : Measured 128 m

theorem measured_within (hmax : max_rpc_size.toUInt64.toNat < 2^34) (start : ℕ) (m : Method)
    (h : Measured lib client max_rpc_size cid start m) :
    Within lib client max_rpc_size cid start m := by
  cases h with
  | bare m hm => exact no_elements_within lib client max_rpc_size cid 0 m hm
  | values size m start hstart block hsized hfit hm hslack =>
    exact values_within lib client max_rpc_size cid size m start hmax hstart block hsized hfit hm
      hslack
  | firstValues size m items i hsplit hm hslack =>
    exact first_values_within lib client max_rpc_size cid size m hmax items i hsplit hm hslack
  | entries keySize m start hstart block hsized hfit hm hslack =>
    exact entries_within lib client max_rpc_size cid keySize m start hmax hstart block hsized hfit
      hm hslack
  | firstEntries keySize valueSize f items i sent m hsplit hperm hm hslack =>
    exact first_entries_within lib client max_rpc_size cid keySize valueSize hmax f items i sent m
      hsplit hperm hm hslack

theorem measured_sized (start : ℕ) (m : Method)
    (h : Measured lib client max_rpc_size cid start m) :
    ∃ sizes, estimatedSizes lib cid client.compression_threshold m = .ok sizes := by
  cases h with
  | bare m hm => exact ⟨_,hm⟩
  | values size m start hstart block hsized hfit hm =>
    exact ⟨_,values_sized lib client cid size m block hsized hm⟩
  | firstValues size m items i hsplit hm =>
    have hsized := firstChunkSplit_sized size max_rpc_size 128 items i hsplit
    exact ⟨_,values_sized lib client cid size m (items.take i) hsized hm⟩
  | entries keySize m start hstart block hsized hfit hm =>
    exact ⟨_,entries_sized lib client cid keySize m block hsized hm⟩
  | firstEntries keySize valueSize f items i sent m hsplit hperm hm =>
    exact ⟨_,first_entries_sized lib client max_rpc_size cid keySize valueSize f items i sent m
      hsplit hperm hm⟩

end Within

section Plans

variable (lib : Libdeflate) (client : SmartClient) (max_rpc_size : Int64)
  (key : Key) (hint : Option KeyHint) (clientId : Int32)

def addStart : ℕ := (sizeOr (fun id => addBase lib client key id) clientId).toNat

def startedRequests (start : ℕ) (reply_hint : KeyHint) : Plan → List (ℕ × Dispatch)
  | .forward call => [(0,call)]
  | .add (.immediate _) => []
  | .add (.pipeline calls) => calls.map (fun call => (start,call))
  | .create plan => (128,plan.create_future)::
      ((plan.remainder.map (fun calls => calls reply_hint)).getD []).map (fun call => (0,call))

def PlanWithin (plan : Plan) : Prop :=
  ∀ reply_hint, ∀ p ∈ startedRequests (addStart lib client key clientId) reply_hint plan,
    p.2.action.clientId = client.effectiveClientId clientId ∧
      Within lib client max_rpc_size (client.effectiveClientId clientId) p.1 p.2.action.method

theorem addBase_lt (base : UInt64) (h : addBase lib client key clientId = .ok base) :
    base.toNat < 2^34 ∧ addStart lib client key clientId = base.toNat := by
  constructor
  · rcases bind_eq_ok h with ⟨n,hn,he⟩
    rcases bind_eq_ok hn with ⟨k,hk,hn⟩
    rcases bind_eq_ok hn with ⟨m,hm,hsize⟩
    cases he
    cases hk
    cases hsize
    have := buildKeyProto_size_lt lib _ _ key none m hm
    have h32 : (32 : UInt64).toNat = 32 := rfl
    rw [toNat_add_of_lt _ _ (by rw [ofNat_toNat _ (by omega)]; omega), ofNat_toNat _ (by omega)]
    omega
  · simp [addStart, sizeOr, h]

def PlanMeasured (plan : Plan) : Prop :=
  ∀ reply_hint, ∀ p ∈ startedRequests (addStart lib client key clientId) reply_hint plan,
    p.2.action.clientId = client.effectiveClientId clientId ∧
      Measured lib client max_rpc_size (client.effectiveClientId clientId) p.1 p.2.action.method

theorem planMeasured_within (hmax : max_rpc_size.toUInt64.toNat < 2^34) (plan : Plan)
    (h : PlanMeasured lib client max_rpc_size key clientId plan) :
    PlanWithin lib client max_rpc_size key clientId plan :=
  fun reply_hint p hp => ⟨(h reply_hint p hp).1,
    measured_within lib client max_rpc_size _ hmax p.1 _ (h reply_hint p hp).2⟩

theorem added_measured {A C : Type} (shape : ChunkShape A C) (view : List A → C)
    (hv : shape.Views view) (size : A → Except Fault UInt64) (data : List A)
    (calls : List C → List Method)
    (hcalls : ∀ (base : UInt64) (chunks : List C), base.toNat < 2^34 → ∀ m ∈ calls chunks,
      ∃ chunk ∈ chunks, ∀ block, chunk = view block →
        (∀ a ∈ block, size a = .ok (sizeOr size a)) →
        Fitting base (overflows (sizeOr size) max_rpc_size) (addSize (sizeOr size)) block →
        Measured lib client max_rpc_size (client.effectiveClientId clientId) base.toNat m)
    (plan : AddPlan)
    (h : Added lib client max_rpc_size key hint clientId shape size data calls plan) :
    PlanMeasured lib client max_rpc_size key clientId (.add plan) := by
  intro reply_hint p hp
  cases h with
  | nothing => cases hp
  | chunked base chunks hbase hchunks =>
    rcases addBase_lt lib client key clientId base hbase with ⟨hlt,hstart⟩
    rcases List.mem_map.mp hp with ⟨d,hd,rfl⟩
    rcases List.mem_map.mp hd with ⟨m,hm,rfl⟩
    rcases hcalls base chunks hlt m hm with ⟨chunk,hc,hmeasured⟩
    rcases chunk_block shape view size base max_rpc_size hv data chunks hchunks chunk hc with
      ⟨block,hview,hsized,hfit⟩
    refine ⟨rfl,?_⟩
    rw [hstart]
    exact hmeasured block hview hsized hfit

theorem create_measured (method : Method) (rest : Option (List Method))
    (hfirst : Measured lib client max_rpc_size (client.effectiveClientId clientId) 128 method)
    (hrest : ∀ methods, rest = some methods → ∀ m ∈ methods,
      Measured lib client max_rpc_size (client.effectiveClientId clientId) 0 m) :
    PlanMeasured lib client max_rpc_size key clientId
      (.create ⟨dispatch client key hint clientId method,
        rest.map (fun methods => remainderCalls client key clientId methods)⟩) := by
  intro reply_hint p hp
  rcases List.mem_cons.mp hp with rfl | hmem
  · exact ⟨rfl,hfirst⟩
  · rcases rest with _ | methods
    · cases hmem
    · rcases List.mem_map.mp hmem with ⟨d,hd,rfl⟩
      rcases List.mem_map.mp hd with ⟨m,hm,rfl⟩
      exact ⟨rfl,hrest methods rfl m hm⟩

theorem created_measured {A C : Type} (shape : ChunkShape A C) (view : List A → C)
    (hv : shape.Views view) (size : A → Except Fault UInt64) (rest : List A) (first : Method)
    (call : C → Method)
    (hfirst : Measured lib client max_rpc_size (client.effectiveClientId clientId) 128 first)
    (hcall : ∀ block, (∀ a ∈ block, size a = .ok (sizeOr size a)) →
      Fitting 0 (overflows (sizeOr size) max_rpc_size) (addSize (sizeOr size)) block →
      Measured lib client max_rpc_size (client.effectiveClientId clientId) 0 (call (view block)))
    (plan : CreatePlan)
    (h : Created client max_rpc_size key hint clientId shape size rest first call plan) :
    PlanMeasured lib client max_rpc_size key clientId (.create plan) := by
  cases h with
  | whole =>
    exact create_measured lib client max_rpc_size key hint clientId first none hfirst
      (fun _ hm => nomatch hm)
  | split chunks hne hchunks =>
    refine create_measured lib client max_rpc_size key hint clientId first
      (some (chunks.map call)) hfirst ?_
    intro methods he m hm
    cases he
    rcases List.mem_map.mp hm with ⟨c,hc,rfl⟩
    rcases chunk_block shape view size 0 max_rpc_size hv rest chunks hchunks c hc with
      ⟨block,rfl,hsized,hfit⟩
    exact hcall block hsized hfit

structure CarriesValues (cid : Int32) (m : Method) (values : List ValuePtr) : Prop where
  sizes : estimatedSizes lib cid client.compression_threshold m =
    (do .ok ([],← values.mapM (valueOf lib client cid)))
  slack : entrySlack m = 0

theorem addValues_measured (data : Option (List ValuePtr))
    (calls : List (List ValuePtr) → List Method)
    (hcalls : ∀ chunks, ∀ m ∈ calls chunks, ∃ chunk ∈ chunks,
      CarriesValues lib client (client.effectiveClientId clientId) m chunk) (plan : AddPlan)
    (h : addValues lib client max_rpc_size key hint clientId data calls = .ok plan) :
    PlanMeasured lib client max_rpc_size key clientId (.add plan) := by
  apply added_measured lib client max_rpc_size key hint clientId _ id (vectorShape_views ValuePtr) _
    _ _ _ plan (addValues_added lib client max_rpc_size key hint clientId data calls plan h)
  intro base chunks hlt m hm
  rcases hcalls chunks m hm with ⟨chunk,hc,hcarries⟩
  refine ⟨chunk,hc,?_⟩
  rintro block rfl hsized hfit
  exact .values _ m base hlt chunk hsized hfit hcarries.sizes hcarries.slack

theorem addElementWithWeight_measured (data : Option (List OrderedValuePtr)) (plan : AddPlan)
    (h : addElementWithWeight lib client max_rpc_size key hint clientId data = .ok plan) :
    PlanMeasured lib client max_rpc_size key clientId (.add plan) := by
  apply added_measured lib client max_rpc_size key hint clientId _ id
    (vectorShape_views OrderedValuePtr) _ _ _ _ plan
    (addElementWithWeight_added lib client max_rpc_size key hint clientId data plan h)
  intro base chunks hlt m hm
  rcases List.mem_map.mp hm with ⟨chunk,hc,rfl⟩
  refine ⟨chunk,hc,?_⟩
  rintro block rfl hsized hfit
  exact .values _ _ base hlt chunk hsized hfit rfl rfl

theorem addElementHashMap_measured (container_keys : Option (List KeyPtr))
    (container_values : Option (List ValuePtr)) (plan : AddPlan)
    (h : addElementHashMap lib client max_rpc_size key hint clientId container_keys
      container_values = .ok plan) :
    PlanMeasured lib client max_rpc_size key clientId (.add plan) := by
  rcases addElementHashMap_added lib client max_rpc_size key hint clientId _ _ plan h with
    ⟨entries,hadded⟩
  apply added_measured lib client max_rpc_size key hint clientId _ mapChunk (mapShape_views KeyPtr)
    _ entries _ _ plan hadded
  intro base chunks hlt m hm
  rcases List.mem_map.mp hm with ⟨chunk,hc,rfl⟩
  refine ⟨chunk,hc,?_⟩
  rintro block rfl hsized hfit
  exact .entries _ _ base hlt block hsized hfit rfl rfl

theorem addElementOrderedMap_measured (container_keys : Option (List OrderedValuePtr))
    (container_values : Option (List ValuePtr)) (plan : AddPlan)
    (h : addElementOrderedMap lib client max_rpc_size key hint clientId container_keys
      container_values = .ok plan) :
    PlanMeasured lib client max_rpc_size key clientId (.add plan) := by
  rcases addElementOrderedMap_added lib client max_rpc_size key hint clientId _ _ plan h with
    ⟨entries,hadded⟩
  apply added_measured lib client max_rpc_size key hint clientId _ mapChunk
    (mapShape_views OrderedValuePtr) _ entries _ _ plan hadded
  intro base chunks hlt m hm
  rcases List.mem_map.mp hm with ⟨chunk,hc,rfl⟩
  refine ⟨chunk,hc,?_⟩
  rintro block rfl hsized hfit
  exact .entries _ _ base hlt block hsized hfit rfl rfl

variable (ttl : Int64)

theorem createUnordered_measured (type : UnorderedType) (values : Option (List ValuePtr))
    (plan : CreatePlan)
    (h : createUnorderedContainerSmart lib client max_rpc_size key hint clientId ttl type values =
      .ok plan) :
    PlanMeasured lib client max_rpc_size key clientId (.create plan) := by
  rcases createUnordered_created lib client max_rpc_size key hint clientId ttl type values plan h
    with ⟨split,hsplit,hcreated⟩
  refine created_measured lib client max_rpc_size key hint clientId _ id
    (vectorShape_views ValuePtr) _ _ _ _ ?_ ?_ plan hcreated
  · apply Measured.firstValues _ _ _ split hsplit
    · rcases type <;> simp only [UnorderedType.create, estimatedSizes, firstPtr_getD]
    · rcases type <;> rfl
  · intro block hsized hfit
    apply Measured.values _ _ 0 (by decide) block hsized hfit
    · rcases type <;> rfl
    · rcases type <;> rfl

theorem createOrderedSet_measured (values : Option (List OrderedValuePtr)) (plan : CreatePlan)
    (h : createOrderedSet lib client max_rpc_size key hint clientId ttl values = .ok plan) :
    PlanMeasured lib client max_rpc_size key clientId (.create plan) := by
  rcases createOrderedSet_created lib client max_rpc_size key hint clientId ttl values plan h with
    ⟨split,hsplit,hcreated⟩
  refine created_measured lib client max_rpc_size key hint clientId _ id
    (vectorShape_views OrderedValuePtr) _ _ _ _ ?_ ?_ plan hcreated
  · apply Measured.firstValues _ _ _ split hsplit
    · simp only [estimatedSizes, firstPtr_getD]
    · rfl
  · intro block hsized hfit
    exact .values _ _ 0 (by decide) block hsized hfit rfl rfl

theorem createMap_measured (addresses : AddressOrder)
    (entries : Option (List (KeyPtr × ValuePtr))) (plan : CreatePlan)
    (h : createMap lib client max_rpc_size key hint clientId ttl addresses entries = .ok plan) :
    PlanMeasured lib client max_rpc_size key clientId (.create plan) := by
  rcases createMap_created lib client max_rpc_size key hint clientId ttl addresses entries plan h
    with ⟨copied,split,hsplit,hcreated⟩
  refine created_measured lib client max_rpc_size key hint clientId _ mapChunk
    (mapShape_views KeyPtr) _ _ _ _ ?_ ?_ plan hcreated
  · apply Measured.firstEntries
      (fun e : KeyPtr × ValuePtr => estimateKeySize lib (client.effectiveClientId clientId)
        client.compression_threshold e.1)
      (fun e => estimateValueSize lib (client.effectiveClientId clientId)
        client.compression_threshold e.2) id copied split
      (addresses.order _ (copied.take split)) _ hsplit
      (by rw [List.map_id]; exact addresses.perm _ _)
    · simp only [estimatedSizes, firstPtr_getD]
    · rfl
  · intro block hsized hfit
    exact .entries _ _ 0 (by decide) block hsized hfit rfl rfl

theorem createOrderedMap_measured (addresses : AddressOrder)
    (entries : Option (List (OrderedKeyPtr × OrderedValuePtr))) (plan : CreatePlan)
    (h : createOrderedMap lib client max_rpc_size key hint clientId ttl addresses entries =
      .ok plan) :
    PlanMeasured lib client max_rpc_size key clientId (.create plan) := by
  rcases createOrderedMap_created lib client max_rpc_size key hint clientId ttl addresses entries
    plan h with ⟨copied,split,hsplit,hcreated⟩
  refine created_measured lib client max_rpc_size key hint clientId _ mapChunk
    (mapShape_views OrderedValuePtr) _ _ _ _ ?_ ?_ plan hcreated
  · apply Measured.firstEntries
      (fun e : OrderedKeyPtr × OrderedValuePtr =>
        estimateOrderedKeySize (client.effectiveClientId clientId) e.1)
      (fun e => estimateOrderedValueSize lib (client.effectiveClientId clientId)
        client.compression_threshold e.2)
      (fun e : OrderedMapEntry => (e.key,e.value)) copied split _ _ hsplit (addresses.perm _ _)
    · simp only [estimatedSizes, firstPtr_getD]
    · rfl
  · intro block hsized hfit
    exact .entries _ _ 0 (by decide) block hsized hfit rfl rfl

section Calls

variable (cid : Int32)

abbrev Carried (methods : List Method) (chunks : List (List ValuePtr)) : Prop :=
  List.Forall₂ (CarriesValues lib client cid) methods chunks

theorem carried_mem (methods : List Method) (chunks : List (List ValuePtr))
    (h : Carried lib client cid methods chunks) :
    ∀ m ∈ methods, ∃ chunk ∈ chunks, CarriesValues lib client cid m chunk := by
  induction h with
  | nil =>
    intro m hm
    cases hm
  | cons hcarries _ ih =>
    intro m hm
    rcases List.mem_cons.mp hm with rfl | hrest
    · exact ⟨_,List.mem_cons_self,hcarries⟩
    · rcases ih m hrest with ⟨c,hc,hm⟩
      exact ⟨c,List.mem_cons_of_mem _ hc,hm⟩

theorem mapped_carried (call : List ValuePtr → Method)
    (hcall : ∀ chunk, CarriesValues lib client cid (call chunk) chunk)
    (chunks : List (List ValuePtr)) : Carried lib client cid (chunks.map call) chunks := by
  induction chunks with
  | nil => exact .nil
  | cons chunk chunks ih => exact .cons (hcall chunk) ih

theorem positionCalls_carried (pos : UInt32) (chunks : List (List ValuePtr)) :
    Carried lib client cid (positionCalls pos chunks) chunks := by
  induction chunks generalizing pos with
  | nil => exact .nil
  | cons chunk chunks ih => exact .cons ⟨rfl,rfl⟩ (ih _)

theorem anchoredCalls_carried (anchor : ValuePtr) (chunks : List (List ValuePtr)) :
    Carried lib client cid (anchoredCalls anchor chunks) chunks := by
  induction chunks generalizing anchor with
  | nil => exact .nil
  | cons chunk chunks ih => exact .cons ⟨rfl,rfl⟩ (ih _)

theorem beforeCalls_carried (pivot : ValuePtr) (chunks : List (List ValuePtr)) :
    Carried lib client cid (beforeCalls pivot chunks) chunks := by
  cases chunks with
  | nil => exact .nil
  | cons chunk chunks => exact .cons ⟨rfl,rfl⟩ (anchoredCalls_carried lib client cid _ chunks)

end Calls

theorem forward_measured (method : Method)
    (hm : estimatedSizes lib (client.effectiveClientId clientId) client.compression_threshold
      method = .ok ([],[])) :
    PlanMeasured lib client max_rpc_size key clientId
      (.forward (dispatch client key hint clientId method)) := by
  intro reply_hint p hp
  cases List.mem_singleton.mp hp
  exact ⟨rfl,.bare method hm⟩

theorem smartPlan_measured (addresses : AddressOrder) (operation : Method) (plan : Plan)
    (h : smartPlan lib client max_rpc_size key hint clientId addresses operation = .ok plan) :
    PlanMeasured lib client max_rpc_size key clientId plan := by
  have hmap : ∀ {A : Type} (wrap : A → Plan) (p : Except Fault A), p.map wrap = .ok plan →
      (∀ a, p = .ok a → PlanMeasured lib client max_rpc_size key clientId (wrap a)) →
      PlanMeasured lib client max_rpc_size key clientId plan := by
    intro A wrap p hp hr
    rcases map_eq_ok hp with ⟨a,ha,rfl⟩
    exact hr a ha
  have hvalues : ∀ data calls,
      (∀ chunks, Carried lib client (client.effectiveClientId clientId) (calls chunks) chunks) →
      ∀ a, addValues lib client max_rpc_size key hint clientId data calls = .ok a →
        PlanMeasured lib client max_rpc_size key clientId (.add a) := by
    intro data calls hcalls
    exact addValues_measured lib client max_rpc_size key hint clientId data calls
      (fun chunks => carried_mem lib client _ _ chunks (hcalls chunks))
  cases operation with
  | createQueue vs ttl =>
    exact hmap .create _ h
      (createUnordered_measured lib client max_rpc_size key hint clientId ttl .QUEUE vs)
  | createList vs ttl =>
    exact hmap .create _ h
      (createUnordered_measured lib client max_rpc_size key hint clientId ttl .LIST vs)
  | createVector vs ttl =>
    exact hmap .create _ h
      (createUnordered_measured lib client max_rpc_size key hint clientId ttl .VECTOR vs)
  | createSet vs ttl =>
    exact hmap .create _ h
      (createUnordered_measured lib client max_rpc_size key hint clientId ttl .SET vs)
  | createOrderedSet vs ttl =>
    exact hmap .create _ h
      (createOrderedSet_measured lib client max_rpc_size key hint clientId ttl vs)
  | createMap es ttl =>
    exact hmap .create _ h
      (createMap_measured lib client max_rpc_size key hint clientId ttl addresses es)
  | createOrderedMap es ttl =>
    exact hmap .create _ h
      (createOrderedMap_measured lib client max_rpc_size key hint clientId ttl addresses es)
  | addElementUnordered data =>
    exact hmap .add _ h (hvalues data _
      (mapped_carried lib client _ _ (fun _ => ⟨rfl,rfl⟩)))
  | addElementToTail data =>
    exact hmap .add _ h (hvalues data _
      (mapped_carried lib client _ _ (fun _ => ⟨rfl,rfl⟩)))
  | addElementToHead data =>
    refine hmap .add _ h
      (addValues_measured lib client max_rpc_size key hint clientId data _ (fun chunks m hm => ?_))
    -- the chunks are sent from the last to the first
    rcases carried_mem lib client _ _ _ (mapped_carried lib client _ _ (fun _ => ⟨rfl,rfl⟩)
      chunks.reverse) m hm with ⟨c,hc,hcarries⟩
    exact ⟨c,List.mem_reverse.mp hc,hcarries⟩
  | addElementToPosition data pos =>
    exact hmap .add _ h (hvalues data _ (positionCalls_carried lib client _ pos))
  | addElementToPositionBefore data pivot =>
    exact hmap .add _ h (hvalues data _ (beforeCalls_carried lib client _ (copyValue pivot)))
  | addElementToPositionAfter data pivot =>
    exact hmap .add _ h (hvalues data _ (anchoredCalls_carried lib client _ (copyValue pivot)))
  | addElementWithWeight data =>
    exact hmap .add _ h
      (addElementWithWeight_measured lib client max_rpc_size key hint clientId data)
  | addElementHashMap keys values =>
    exact hmap .add _ h
      (addElementHashMap_measured lib client max_rpc_size key hint clientId keys values)
  | addElementOrderedMap keys values =>
    exact hmap .add _ h
      (addElementOrderedMap_measured lib client max_rpc_size key hint clientId keys values)
  | _ =>
    cases h
    exact forward_measured lib client max_rpc_size key hint clientId _ rfl

end Plans

/-- The estimates for the elements of a call are the sizes of what it sends. -/
def Exact (lib : Libdeflate) (client : SmartClient) (request : Dispatch) (r : InsertRequest) :
    Prop :=
  ∃ keys values, estimatedSizes lib request.action.clientId client.compression_threshold
      request.action.method = .ok (keys,values) ∧
    r.keySizes = keys.map UInt64.toNat ∧ r.valueSizes = values.map UInt64.toNat

theorem addRequest_some (lib : Libdeflate) (key : Key) (hint : Option KeyHint) (cid : Int32)
    (k : KeyMessage) (hk : buildKeyProto lib key hint cid defaultThreshold = .ok k)
    (values : List Value) :
    addRequest lib key hint cid (some (values.map some)) none = .ok {
      key := k
      value_unordered :=
        values.map (fun v => buildValueProtoNoTtl lib v cid defaultThreshold) } := by
  have hvalues : (values.map some).mapM (plainElement lib cid) =
      .ok (values.map (fun v => buildValueProtoNoTtl lib v cid defaultThreshold)) := by
    rw [List.mapM_map]
    exact mapM_ok _ _ values (fun v _ => rfl)
  rw [addRequest, hk, Option.getD_some, hvalues]
  rfl

def narrowChannels : SmartClient := { max_inbound_message_size := 4194304 }

def zeros (n : ℕ) : List Value := List.replicate n (.int 0)

@[simp] theorem zeros_length (n : ℕ) : (zeros n).length = n := List.length_replicate

theorem zero_estimate : valueSize storedLibdeflate 0 1024 (.int 0) = 10 := by decide +kernel

theorem zeros_counted (n : ℕ) : counted (valueSize storedLibdeflate 0 1024) (zeros n) = 10*n := by
  rw [counted, zeros, List.map_replicate, zero_estimate, List.sum_replicate_nat]
  exact Nat.mul_comm n 10

def zerosCall (n : ℕ) : Dispatch :=
  dispatch narrowChannels sampleKey none 0 (.addElementToTail (some ((zeros n).map some)))

theorem zeros_estimated (n : ℕ) :
    ((zeros n).map some).mapM (estimateValueSize storedLibdeflate 0 1024) =
      .ok (List.replicate n 10) := by
  rw [List.mapM_map, mapM_ok (estimateValueSize storedLibdeflate 0 1024 ∘ some)
    (valueSize storedLibdeflate 0 1024) (zeros n) (fun v _ => rfl), zeros, List.map_replicate,
    zero_estimate]

theorem zeros_sent (n : ℕ) (hn : 2 ≤ n) (hmax : n < 2^40) :
    ∃ r, insertRequest storedLibdeflate narrowChannels.compression_threshold 0
        (zerosCall n).action = .ok (some r) ∧
      Exact storedLibdeflate narrowChannels (zerosCall n) r ∧ 2 ≤ r.elementCount ∧
      12*n < r.byteSize ∧ r.byteSize < 2^63 := by
  have hsent :
      (buildValueProtoNoTtl storedLibdeflate (.int 0) 0 defaultThreshold).byteSize = 10 := by
    decide +kernel
  rcases buildKeyProto_ok storedLibdeflate sampleKey (resolveHint sampleKey none) 0 defaultThreshold
    (fun h => absurd h (by decide)) with ⟨k,hk⟩
  have hkey := buildKeyProto_size_lt storedLibdeflate 0 defaultThreshold sampleKey _ k hk
  have hr := addRequest_some storedLibdeflate sampleKey (resolveHint sampleKey none) 0 k hk
    (zeros n)
  generalize hmessages : (zeros n).map
    (fun v => buildValueProtoNoTtl storedLibdeflate v 0 defaultThreshold) = messages at hr
  have hvalues : (InsertRequest.add { key := k, value_unordered := messages }).valueSizes =
      List.replicate n 10 := by
    show messages.map ValueMessage.byteSize++[] = _
    rw [List.append_nil, ← hmessages, zeros, List.map_replicate, List.map_replicate, hsent]
  have hbodies : (InsertRequest.add { key := k, value_unordered := messages }).bodies =
      List.replicate n 10 := hvalues
  have hbyte : (InsertRequest.add { key := k, value_unordered := messages }).byteSize =
      lengthDelimited k.byteSize+n*2+n*10 := by
    rw [InsertRequest.byteSize_eq, InsertRequest.framing, hbodies, List.map_replicate,
      List.sum_replicate_nat, List.sum_replicate_nat]
    rfl
  have hlen := lengthDelimited_le k.byteSize (by omega)
  have hpos := le_lengthDelimited k.byteSize
  refine ⟨.add { key := k, value_unordered := messages },?_,
    ⟨[],List.replicate n 10,?_,rfl,?_⟩,?_,?_,?_⟩
  · show Except.map (fun r => some (InsertRequest.add r)) (addRequest storedLibdeflate sampleKey
      (resolveHint sampleKey none) 0 (some ((zeros n).map some)) none) = _
    rw [hr]
    rfl
  · show (do .ok ([],← ((zeros n).map some).mapM (estimateValueSize storedLibdeflate 0 1024))) = _
    rw [zeros_estimated]
    rfl
  · rw [List.map_replicate]
    exact hvalues
  · rw [InsertRequest.elementCount, hvalues, List.length_replicate]
    exact hn
  · rw [hbyte]
    omega
  · rw [hbyte]
    omega

theorem zeros_plan (n : ℕ) (hn : zeros n ≠ []) :
    smartPlan storedLibdeflate narrowChannels narrowChannels.maxRpcSize sampleKey none 0
        givenOrder (.addElementToTail (some ((zeros n).map some))) =
      .ok (.add (.pipeline ((blocksOf (valueSize storedLibdeflate 0 1024) 55
        narrowChannels.maxRpcSize (zeros n)).map (fun block => dispatch narrowChannels sampleKey
          none 0 (.addElementToTail (some (block.map some))))))) := by
  have hplan := addValues_some storedLibdeflate narrowChannels narrowChannels.maxRpcSize sampleKey
    none 0 55 rfl (zeros n) hn
    (fun chunks => chunks.map (fun chunk => .addElementToTail (some chunk)))
  rw [List.map_map, List.map_map] at hplan
  exact congrArg (Except.map Plan.add) hplan

theorem zeros_append (m n : ℕ) : zeros (m+n) = zeros m++zeros n :=
  List.replicate_append_replicate.symm

theorem zeros_front (n : ℕ) (front rest : List Value) (h : front++rest = zeros n) :
    front = zeros front.length := by
  refine List.eq_replicate_iff.mpr ⟨rfl,fun v hv => ?_⟩
  have hmem : v ∈ zeros n := h ▸ List.mem_append_left rest hv
  exact List.eq_of_mem_replicate hmem

theorem zeros_pair_fits :
    Fitting 55 (overflows (valueSize storedLibdeflate 0 1024) narrowChannels.maxRpcSize)
      (addSize (valueSize storedLibdeflate 0 1024)) (zeros 2) := by
  have hfirst : overflows (valueSize storedLibdeflate 0 1024) narrowChannels.maxRpcSize
      (addSize (valueSize storedLibdeflate 0 1024) 55 (.int 0)) (.int 0) = false := by
    simp only [overflows, addSize, zero_estimate]
    decide
  intro b a rest hsplit hne
  rcases b with _ | ⟨c,_ | ⟨d,ds⟩⟩
  · exact absurd rfl hne
  · cases hsplit
    exact hfirst
  · have hlen := congrArg List.length hsplit
    simp [zeros] at hlen

theorem zeros_split (n : ℕ) (hn : 400000 ≤ n) (hmax : n < 2^40) :
    ∃ m second rest, blocksOf (valueSize storedLibdeflate 0 1024) 55 narrowChannels.maxRpcSize
        (zeros n) = zeros m::second::rest ∧ 2 ≤ m ∧ m ≤ n := by
  let size := valueSize storedLibdeflate 0 1024
  have hlimit : narrowChannels.maxRpcSize.toUInt64.toNat = 3670016 := by decide
  have hdata : zeros n = zeros 2++zeros (n-2) := by
    rw [← zeros_append]
    congr 1
    omega
  obtain ⟨more,blocks,hcut⟩ := cut_head 55 _ _ (zeros 2) (zeros (n-2)) (by decide)
    zeros_pair_fits
  rw [← hdata] at hcut
  have hflat : (zeros 2++more)++blocks.flatten = zeros n := by
    rw [← cut_flatten 55 (overflows size narrowChannels.maxRpcSize) (addSize size) (zeros n), hcut,
      List.flatten_cons]
  have hzeros : zeros 2++more = zeros (2+more.length) := by
    rw [zeros_front n _ _ hflat, List.length_append, zeros_length]
  have hlen := congrArg List.length hflat
  simp only [List.length_append, zeros_length] at hlen
  rw [hzeros] at hcut
  cases blocks with
  | cons second rest => exact ⟨2+more.length,second,rest,hcut,by omega,by omega⟩
  | nil =>
    have hwhole : 2+more.length = n := by simpa using hlen
    rw [hwhole] at hcut
    have hfit := cut_fitting 55 (overflows size narrowChannels.maxRpcSize) (addSize size) (zeros n)
      (zeros n) (by rw [hcut]; exact List.mem_singleton_self _)
    have hbound := (fitting_counted size (fun v => (size v).toNat) 55 narrowChannels.maxRpcSize
      (by decide) (by omega) (zeros n) (fun _ _ => Nat.le_add_right _ 32) (by
        show counted size (zeros n) < 2^63
        rw [zeros_counted]
        omega) hfit).2 (by rw [zeros_length]; omega)
    rw [zeros_counted, hlimit] at hbound
    have hstart : (55 : UInt64).toNat = 55 := rfl
    omega

/-- The elements of a request, with what the splitter started from, take at
most the limit less an eighth. The request stays within the limit if the rest
of it fits into the eighth and that start, and only then if its elements take
all of their share. -/
theorem request_within_eighth (lib : Libdeflate) (client : SmartClient) (key : Key)
    (hint : Option KeyHint) (clientId : Int32) (addresses : AddressOrder) (operation : Method)
    (plan : Plan)
    (h : smartPlan lib client client.maxRpcSize key hint clientId addresses operation = .ok plan)
    (reply_hint : KeyHint) (start : ℕ) (request : Dispatch)
    (hrequest : (start,request) ∈
      startedRequests (addStart lib client key clientId) reply_hint plan) (now : Int64) :
    ∀ r, insertRequest lib client.compression_threshold now request.action = .ok (some r) →
      Exact lib client request r → r.byteSize < 2^63 → 2 ≤ r.elementCount →
      start+entrySlack request.action.method+r.bodies.sum ≤
          messageLimit client-messageLimit client/8 ∧
        (r.head+r.framing ≤ messageLimit client/8+(start+entrySlack request.action.method) →
          r.byteSize ≤ messageLimit client) ∧
        (start+entrySlack request.action.method+r.bodies.sum =
            messageLimit client-messageLimit client/8 →
          (r.byteSize ≤ messageLimit client ↔
            r.head+r.framing ≤
              messageLimit client/8+(start+entrySlack request.action.method))) := by
  rintro r _ ⟨keys,values,hsizes,hkeys,hvalues⟩ hmem hcount
  have hlimit := maxRpcSize_toNat client
  have hlt := messageLimit_lt client
  have hmeasured := smartPlan_measured lib client client.maxRpcSize key hint clientId addresses
    operation plan h
  rcases planMeasured_within lib client client.maxRpcSize key clientId (by omega) plan hmeasured
    reply_hint _ hrequest with ⟨hid,hwithin⟩
  rw [hid] at hsizes
  have hbodies : r.bodies.sum = total keys+total values := by
    rw [InsertRequest.bodies, List.sum_append, hkeys, hvalues]
    rfl
  have htotal := r.byteSize_eq
  rw [InsertRequest.elementCount, hvalues, List.length_map] at hcount
  have hroom := hwithin keys values hsizes (by omega) hcount
  rw [hlimit, ← hbodies] at hroom
  dsimp only at hroom
  exact ⟨hroom,by omega,by omega⟩

theorem request_within_eighth_first_of_several :
    ∃ plan requests request r,
      smartPlan storedLibdeflate narrowChannels narrowChannels.maxRpcSize sampleKey none 0
        givenOrder (.addElementToTail (some ((zeros 400000).map some))) = .ok plan ∧
      startedRequests (addStart storedLibdeflate narrowChannels sampleKey 0) ⟨0,0⟩ plan = requests ∧
      2 ≤ requests.length ∧ (55,request) ∈ requests ∧
      insertRequest storedLibdeflate narrowChannels.compression_threshold 0 request.action =
        .ok (some r) ∧ 2 ≤ r.elementCount ∧
      55+entrySlack request.action.method+r.bodies.sum ≤
          messageLimit narrowChannels-messageLimit narrowChannels/8 ∧
        (r.head+r.framing ≤
            messageLimit narrowChannels/8+(55+entrySlack request.action.method) →
          r.byteSize ≤ messageLimit narrowChannels) ∧
        (55+entrySlack request.action.method+r.bodies.sum =
            messageLimit narrowChannels-messageLimit narrowChannels/8 →
          (r.byteSize ≤ messageLimit narrowChannels ↔
            r.head+r.framing ≤
              messageLimit narrowChannels/8+(55+entrySlack request.action.method))) := by
  have hplan := zeros_plan 400000 (by
    rw [zeros, Ne, List.replicate_eq_nil_iff]
    omega)
  obtain ⟨m,second,rest,hblocks,hm,hle⟩ := zeros_split 400000 le_rfl (by omega)
  obtain ⟨r,hr,hexact,hcount,_,hsize⟩ := zeros_sent m hm (by omega)
  rw [hblocks] at hplan
  have hstart : addStart storedLibdeflate narrowChannels sampleKey 0 = 55 := by decide +kernel
  refine ⟨_,_,zerosCall m,r,hplan,rfl,?_,?_,hr,hcount,
    request_within_eighth storedLibdeflate narrowChannels sampleKey none 0 givenOrder _ _ hplan
      ⟨0,0⟩ 55 (zerosCall m) ?_ 0 r hr hexact hsize hcount⟩
  · simp [startedRequests]
  all_goals
    rw [hstart]
    exact List.mem_cons_self

/-- One request of 350000 zeros is larger than the channels allow. -/
theorem zeros_exceed_limit :
    ∃ plan r, smartPlan storedLibdeflate narrowChannels narrowChannels.maxRpcSize sampleKey none 0
        givenOrder (.addElementToTail (some ((zeros 350000).map some))) = .ok plan ∧
      ∃ p ∈ startedRequests (addStart storedLibdeflate narrowChannels sampleKey 0) ⟨0,0⟩ plan,
        insertRequest storedLibdeflate narrowChannels.compression_threshold 0 p.2.action =
          .ok (some r) ∧
        Exact storedLibdeflate narrowChannels p.2 r ∧ 2 ≤ r.elementCount ∧
        ¬r.byteSize ≤ messageLimit narrowChannels := by
  have hlimit : messageLimit narrowChannels = 4194304 := by decide
  have hne : zeros 350000 ≠ [] := by
    rw [zeros, Ne, List.replicate_eq_nil_iff]
    omega
  have hplan := zeros_plan 350000 hne
  rw [blocksOf_whole _ _ _ _ hne (by
    rw [zeros_counted]
    show 55+10*350000 ≤ 3670016
    omega)] at hplan
  obtain ⟨r,hr,hexact,hcount,hbytes,_⟩ := zeros_sent 350000 (by omega) (by omega)
  exact ⟨_,r,hplan,_,List.mem_singleton_self _,hr,hexact,hcount,by omega⟩

end HurriCache.RequestBound
