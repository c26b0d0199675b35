import HurriCache.CreationPlans
import HurriCache.ExceptGuard

/-!
# Estimates, copies and splitters on null elements

An estimate reads its element, so it faults on null, and the splitters
estimate every element they are given. The map splitters leave absent values
out. The first chunk of a creation ends at the first element that does not
fit any more, and what stands behind that one is not looked at.
-/

set_option autoImplicit false

namespace HurriCache.NullEstimates
open HurriCache.ClientTypes HurriCache.PayloadCompression HurriCache.MessageBuilders
open HurriCache.ChunkSplitters HurriCache.SmartOperations HurriCache.CreationPlans
open HurriCache.StoredGzip HurriCache.ExceptGuard

abbrev NullGuarded {A : Type} (p : Prop) (x : Except Fault A) : Prop := Guarded .nullPointer p x

theorem deref_guarded {A : Type} (v : Option A) : NullGuarded (v ≠ none) (deref v) := by
  cases v with
  | none => exact ⟨fun h => absurd rfl h,fun _ => rfl⟩
  | some a => exact (guarded_ok _ a).congr (by simp)

/-- What the compressor is relied on for: it is given as much room as its own
bound asks for, and then it does not fail. -/
def Compresses (lib : Libdeflate) : Prop := ∀ x, lib.gzipCompress x ≠ []

theorem keyEncodable_of_compresses (lib : Libdeflate) (hc : Compresses lib) (key : Key)
    (threshold : Int32) : KeyEncodable lib key threshold := fun _ => hc key.data

def memberLibdeflate : Libdeflate := { storedLibdeflate with gzipCompress := member }

theorem memberLibdeflate_compresses : Compresses memberLibdeflate := by
  intro x h
  have hlen := member_length x
  rw [show member x = [] from h] at hlen
  exact absurd hlen (by simp)

section Estimates

variable (lib : Libdeflate) (clientId threshold : Int32)

theorem estimateValueSize_guarded (v : ValuePtr) :
    NullGuarded (v ≠ none) (estimateValueSize lib clientId threshold v) :=
  guarded_then _ (deref_guarded v) (fun _ _ => ⟨_,rfl⟩)

theorem estimateOrderedValueSize_guarded (v : OrderedValuePtr) :
    NullGuarded (v ≠ none) (estimateOrderedValueSize lib clientId threshold v) :=
  guarded_then _ (deref_guarded v) (fun _ _ => ⟨_,rfl⟩)

theorem estimateOrderedKeySize_guarded (k : OrderedKeyPtr) :
    NullGuarded (k ≠ none) (estimateOrderedKeySize clientId k) :=
  guarded_then _ (deref_guarded k) (fun _ _ => ⟨_,rfl⟩)

theorem estimateKeySize_guarded (hc : Compresses lib) (k : KeyPtr) :
    NullGuarded (k ≠ none) (estimateKeySize lib clientId threshold k) := by
  refine guarded_then _ (deref_guarded k) (fun k _ => ?_)
  obtain ⟨m,hm⟩ := buildKeyProto_ok lib k none clientId threshold
    (keyEncodable_of_compresses lib hc k threshold)
  exact ⟨_,by rw [hm]; rfl⟩

/-- The value of a pair may be absent. -/
theorem pairSize_guarded (p : Prop) (keySize : Except Fault UInt64) (hk : NullGuarded p keySize)
    (v : ValuePtr) : NullGuarded p (pairSize lib clientId threshold keySize v) := by
  refine guarded_then _ hk (fun n _ => ?_)
  cases v with
  | none => exact ⟨_,rfl⟩
  | some v => exact ⟨_,rfl⟩

theorem mapPairSize_guarded (hc : Compresses lib) (e : KeyPtr × ValuePtr) :
    NullGuarded (e.1 ≠ none) (mapPairSize lib clientId threshold e) :=
  pairSize_guarded lib clientId threshold _ _
    (estimateKeySize_guarded lib clientId threshold hc e.1) e.2

theorem orderedMapPairSize_guarded (e : OrderedValuePtr × ValuePtr) :
    NullGuarded (e.1 ≠ none) (orderedMapPairSize lib clientId threshold e) :=
  pairSize_guarded lib clientId threshold _ _
    (estimateOrderedValueSize_guarded lib clientId threshold e.1) e.2

end Estimates

section Copies

theorem copyMap_guarded (data : Option (List (KeyPtr × ValuePtr))) :
    NullGuarded (∀ e ∈ data.getD [], e.1 ≠ none) (copyMap data) :=
  guarded_mapM _ _ _ _ (fun e _ => guarded_then _ (deref_guarded e.1) (fun _ _ => ⟨_,rfl⟩))

theorem copyOrderedMap_guarded (data : Option (List (OrderedKeyPtr × OrderedValuePtr))) :
    NullGuarded (∀ e ∈ data.getD [], e.1 ≠ none) (copyOrderedMap data) :=
  guarded_mapM _ _ _ _ (fun e _ => guarded_then _ (deref_guarded e.1) (fun _ _ => ⟨_,rfl⟩))

theorem copyMap_eq (data : Option (List (KeyPtr × ValuePtr)))
    (h : ∀ e ∈ data.getD [], e.1 ≠ none) : copyMap data = .ok (data.getD []) := by
  rw [copyMap, mapM_ok _ id, List.map_id]
  rintro ⟨k,v⟩ he
  obtain ⟨k,rfl⟩ := Option.ne_none_iff_exists'.mp (h _ he)
  simp [bind, Except.bind]

theorem zipValues_keys {K : Type} (keys : List K) (values : List ValuePtr) :
    (zipValues keys values).map (·.1) = keys := by
  induction keys generalizing values with
  | nil => rfl
  | cons k ks ih =>
    cases values with
    | nil => exact congrArg (k::·) (ih [])
    | cons v vs => exact congrArg (k::·) (ih vs)

theorem zipValues_forall {K : Type} (p : K → Prop) (keys : List K) (values : List ValuePtr) :
    (∀ e ∈ zipValues keys values, p e.1) ↔ ∀ k ∈ keys, p k := by
  have hkeys := List.forall_mem_map (f := (·.1)) (l := zipValues keys values) (P := p)
  rw [zipValues_keys] at hkeys
  exact hkeys.symm

end Copies

section Base

variable (lib : Libdeflate) (client : SmartClient) (key : Key) (clientId : Int32)

def baseOf : UInt64 := sizeOr (fun id => addBase lib client key id) clientId

theorem addBase_eq (hc : Compresses lib) :
    addBase lib client key clientId = .ok (baseOf lib client key clientId) :=
  sizeOr_eq _ _ (addBase_ok lib client key clientId (keyEncodable_of_compresses lib hc key _))

end Base

section Splitters

variable {A C : Type} (size : A → Except Fault UInt64) (p : A → Prop) (max_rpc_size : Int64)

theorem partition_guarded (shape : ChunkShape A C) (base_size : UInt64) (data : List A)
    (hsize : ∀ a ∈ data, NullGuarded (p a) (size a)) :
    NullGuarded (∀ a ∈ data, p a) (partitionChunks shape size data base_size max_rpc_size) := by
  have hfold := guarded_foldlM Fault.nullPointer (splitStep shape size base_size max_rpc_size) p
    data { chunks := [], current_size := base_size, current := shape.empty }
    (fun st a ha => guarded_then _ (hsize a ha) (fun _ _ => ⟨_,rfl⟩))
  exact guarded_then _ hfold (fun _ _ => ⟨_,rfl⟩)

def Admitted (n : A → UInt64) (max_rpc_size : Int64) : UInt64 → List A → Prop
  | _, [] => True
  | s, a::as => s+n a ≤ max_rpc_size.toUInt64 ∧ Admitted n max_rpc_size (s+n a) as

/-- The elements that are looked at for the first chunk: those that all before
them are admitted. -/
def Examined (n : A → UInt64) (max_rpc_size : Int64) (s : UInt64) (items : List A) (a : A) :
    Prop :=
  ∃ before after, items = before++a::after ∧ Admitted n max_rpc_size s before

theorem examined_cons (n : A → UInt64) (s : UInt64) (item : A) (items : List A) (a : A) :
    Examined n max_rpc_size s (item::items) a ↔ a = item ∨
      s+n item ≤ max_rpc_size.toUInt64 ∧ Examined n max_rpc_size (s+n item) items a := by
  constructor
  · rintro ⟨before,after,h,hadmitted⟩
    cases before with
    | nil =>
      cases h
      exact Or.inl rfl
    | cons b before =>
      cases h
      exact Or.inr ⟨hadmitted.1,before,after,rfl,hadmitted.2⟩
  · rintro (rfl | ⟨hle,before,after,rfl,hadmitted⟩)
    · exact ⟨[],items,rfl,trivial⟩
    · exact ⟨item::before,after,rfl,hle,hadmitted⟩

theorem examined_mem (n : A → UInt64) (s : UInt64) (items : List A) (a : A)
    (h : Examined n max_rpc_size s items a) : a ∈ items := by
  obtain ⟨before,after,rfl,_⟩ := h
  exact List.mem_append_right before List.mem_cons_self

theorem admitted_map {B : Type} (f : B → A) (n : A → UInt64) (s : UInt64) (items : List B) :
    Admitted n max_rpc_size s (items.map f) ↔ Admitted (fun b => n (f b)) max_rpc_size s items := by
  induction items generalizing s with
  | nil => exact Iff.rfl
  | cons b bs ih => exact and_congr_right (fun _ => ih (s+n (f b)))

theorem examined_map {B : Type} (f : B → A) (n : A → UInt64) (s : UInt64) (items : List B) :
    (∀ a, Examined n max_rpc_size s (items.map f) a → p a) ↔
      ∀ b, Examined (fun b => n (f b)) max_rpc_size s items b → p (f b) := by
  constructor
  · rintro h b ⟨before,after,rfl,hadmitted⟩
    refine h (f b) ⟨before.map f,after.map f,?_,(admitted_map max_rpc_size f n s before).mpr
      hadmitted⟩
    rw [List.map_append, List.map_cons]
  · rintro h a ⟨before,after,hitems,hadmitted⟩
    obtain ⟨front,rest,rfl,rfl,hrest⟩ := List.map_eq_append_iff.mp hitems
    obtain ⟨b,back,rfl,rfl,rfl⟩ := List.map_eq_cons_iff.mp hrest
    exact h b ⟨front,back,rfl,(admitted_map max_rpc_size f n s front).mp hadmitted⟩

theorem examined_of_split (s : UInt64) (items : List A) (i : ℕ)
    (h : firstChunkSplit size s max_rpc_size items = .ok i) :
    ∀ a ∈ items.take i, Examined (sizeOr size) max_rpc_size s items a := by
  induction items generalizing s i with
  | nil =>
    intro a ha
    rw [List.take_nil] at ha
    cases ha
  | cons item items ih =>
    obtain ⟨elem,helem,hrest⟩ := bind_eq_ok h
    have hn : sizeOr size item = elem := by simp [sizeOr, helem]
    intro a ha
    rw [examined_cons, hn]
    split at hrest
    next hle =>
      obtain ⟨j,hj,he⟩ := bind_eq_ok hrest
      cases he
      rcases List.mem_cons.mp ha with rfl | hmem
      · exact Or.inl rfl
      · exact Or.inr ⟨hle,ih (s+elem) j hj a hmem⟩
    next =>
      cases hrest
      cases ha

theorem firstChunkSplit_guarded (s : UInt64) (items : List A)
    (hsize : ∀ a ∈ items, NullGuarded (p a) (size a)) :
    NullGuarded (∀ a, Examined (sizeOr size) max_rpc_size s items a → p a)
      (firstChunkSplit size s max_rpc_size items) := by
  induction items generalizing s with
  | nil =>
    refine (guarded_ok _ 0).congr ⟨fun _ a h => ?_,fun _ => trivial⟩
    obtain ⟨before,after,h,_⟩ := h
    simp at h
  | cons item items ih =>
    have hrest := ih (s+sizeOr size item) (fun a ha => hsize a (List.mem_cons_of_mem item ha))
    have hgo : ∀ elem, size item = .ok elem → NullGuarded
        (s+sizeOr size item ≤ max_rpc_size.toUInt64 →
          ∀ a, Examined (sizeOr size) max_rpc_size (s+sizeOr size item) items a → p a)
        (if s+elem ≤ max_rpc_size.toUInt64 then
          (do .ok ((← firstChunkSplit size (s+elem) max_rpc_size items)+1)) else .ok 0) := by
      intro elem helem
      have hn : sizeOr size item = elem := by simp [sizeOr, helem]
      rw [hn] at hrest ⊢
      exact guarded_ite _ _ (fun _ => guarded_then _ hrest (fun _ _ => ⟨_,rfl⟩)) (guarded_ok _ 0)
    refine (guarded_bind _ (hsize item List.mem_cons_self) hgo).congr ?_
    simp only [examined_cons]
    constructor
    · rintro ⟨hitem,hitems⟩ a (rfl | ⟨hle,ha⟩)
      · exact hitem
      · exact hitems hle a ha
    · intro h
      exact ⟨h item (Or.inl rfl),fun hle a ha => h a (Or.inr ⟨hle,ha⟩)⟩

end Splitters

end HurriCache.NullEstimates
