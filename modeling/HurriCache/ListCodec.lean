import Mathlib.Data.List.Basic

/-!
# Lists encoded element by element

An encoder that may fail runs through a list and stops at the first failure. A
decoder that reads back each element it produced reads back the whole list.
Two lists that are encoded side by side are read as a list of pairs.
-/

set_option autoImplicit false

namespace HurriCache.ListCodec

variable {F A B M N E : Type}

theorem mapM_cons_ok (f : A → Except F M) (a : A) (as : List A) (ms : List M)
    (h : (a::as).mapM f = .ok ms) :
    ∃ m rest, f a = .ok m ∧ as.mapM f = .ok rest ∧ ms = m::rest := by
  rw [List.mapM_cons] at h
  cases ha : f a with
  | error e =>
    rw [ha] at h
    cases h
  | ok m =>
    cases has : as.mapM f with
    | error e =>
      rw [ha, has] at h
      cases h
    | ok rest =>
      rw [ha, has] at h
      cases h
      exact ⟨m,rest,rfl,rfl,rfl⟩

theorem decode_encoded (encode : A → Except F M) (decode : M → Option E) (carry : A → Option E)
    (as : List A) (ms : List M) (h : as.mapM encode = .ok ms)
    (hread : ∀ a ∈ as, ∀ m, encode a = .ok m → ∃ e, carry a = some e ∧ decode m = some e) :
    ms.mapM decode = some (as.filterMap carry) := by
  induction as generalizing ms with
  | nil =>
    cases h
    rfl
  | cons a as ih =>
    obtain ⟨m,rest,hm,hrest,rfl⟩ := mapM_cons_ok encode a as ms h
    obtain ⟨e,hcarry,hdecode⟩ := hread a List.mem_cons_self m hm
    have htail := ih rest hrest (fun b hb => hread b (List.mem_cons_of_mem a hb))
    rw [List.mapM_cons, hdecode, htail, List.filterMap_cons_some hcarry]
    rfl

theorem length_encoded (encode : A → Except F M) (as : List A) (ms : List M)
    (h : as.mapM encode = .ok ms) : ms.length = as.length := by
  induction as generalizing ms with
  | nil =>
    cases h
    rfl
  | cons a as ih =>
    obtain ⟨m,rest,_,hrest,rfl⟩ := mapM_cons_ok encode a as ms h
    rw [List.length_cons, List.length_cons, ih rest hrest]

def both (f : A → Except F M) (g : A → Except F N) (a : A) : Except F (M × N) :=
  match f a, g a with
  | .ok m, .ok n => .ok (m,n)
  | .error e, _ => .error e
  | _, .error e => .error e

theorem both_ok (f : A → Except F M) (g : A → Except F N) (a : A) (p : M × N)
    (h : both f g a = .ok p) : f a = .ok p.1 ∧ g a = .ok p.2 := by
  unfold both at h
  split at h
  next m n hm hn =>
    cases h
    exact ⟨hm,hn⟩
  next => cases h
  next => cases h

theorem both_encoded (f : A → Except F M) (g : A → Except F N) (as : List A) (ms : List M)
    (ns : List N) (hm : as.mapM f = .ok ms) (hn : as.mapM g = .ok ns) :
    as.mapM (both f g) = .ok (ms.zip ns) := by
  induction as generalizing ms ns with
  | nil =>
    cases hm
    rfl
  | cons a as ih =>
    obtain ⟨m,mrest,ha,hmrest,rfl⟩ := mapM_cons_ok f a as ms hm
    obtain ⟨n,nrest,hb,hnrest,rfl⟩ := mapM_cons_ok g a as ns hn
    have htail := ih mrest nrest hmrest hnrest
    have hhead : both f g a = .ok (m,n) := by simp [both, ha, hb]
    rw [List.mapM_cons, hhead, htail]
    rfl

theorem zip_encoded (f : A → Except F M) (g : B → Except F N) (as : List A) (bs : List B)
    (ms : List M) (ns : List N) (hlen : as.length = bs.length) (hm : as.mapM f = .ok ms)
    (hn : bs.mapM g = .ok ns) :
    (as.zip bs).mapM (both (fun p => f p.1) (fun p => g p.2)) = .ok (ms.zip ns) := by
  apply both_encoded
  · have hfst : (as.zip bs).map Prod.fst = as := List.map_fst_zip (Nat.le_of_eq hlen)
    have hmap := List.mapM_map (f := Prod.fst) (g := f) (l := as.zip bs)
    rw [hfst, hm] at hmap
    exact hmap.symm
  · have hsnd : (as.zip bs).map Prod.snd = bs := List.map_snd_zip (Nat.le_of_eq hlen.symm)
    have hmap := List.mapM_map (f := Prod.snd) (g := g) (l := as.zip bs)
    rw [hsnd, hn] at hmap
    exact hmap.symm

end HurriCache.ListCodec
