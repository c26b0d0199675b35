import HurriCache.RequestSizes

/-!
# Lifetimes and deadlines

A positive lifetime goes out as an absolute deadline: in milliseconds, added
without a sign, for entries, and in whole seconds of 32 bits for locks. The
two roundings of the latter drop up to two seconds. The reader of a lifetime
subtracts with a sign.
-/

set_option autoImplicit false

namespace HurriCache.Deadlines
open HurriCache.ClientTypes HurriCache.PayloadCompression HurriCache.WireMessages
open HurriCache.MessageBuilders HurriCache.StandaloneCalls HurriCache.InsertRequests
open HurriCache.RequestSizes HurriCache.StoredGzip

structure TtlRequest where
  key : KeyMessage
  ttl : Option UInt64

structure LockRequest where
  key : KeyMessage
  lockType : LockType
  clientId : Option UInt32
  lockDuration : Option UInt32

def setTtl (lib : Libdeflate) (key : Key) (hint : Option KeyHint) (clientId : Int32)
    (now : Int64) (ttl : UInt64) : Except Fault TtlRequest := do
  .ok ⟨← buildKeyProto lib key hint clientId defaultThreshold,some (now.toUInt64+ttl)⟩

/-- A number of milliseconds cut to seconds and then to 32 bits. -/
def wholeSeconds (ms : Int64) : UInt32 := (ms/1000).toUInt64.toUInt32

def lockObject (lib : Libdeflate) (key : Key) (hint : Option KeyHint) (type : LockType)
    (clientId : Int32) (now duration : Int64) : Except Fault LockRequest := do
  let k ← buildKeyProto lib key hint clientId defaultThreshold
  .ok {
    key := k
    lockType := type
    clientId := some clientId.toUInt32
    lockDuration := if 0 < duration.toInt then some (wholeSeconds now+wholeSeconds duration)
      else none }

/-- What `getTtl` makes of a reply. The subtraction has no result outside the
signed numbers. -/
def getTtl (resp_ttl : Option UInt64) (now : Int64) : Option Int64 :=
  match resp_ttl with
  | none => some (-1)
  | some ttl =>
    let remaining : ℤ := ttl.toInt64.toInt-now.toInt
    if -2^63 ≤ remaining ∧ remaining < 2^63 then
      some (if 0 < remaining then Int64.ofInt remaining else -1)
    else none

section Words

theorem toUInt64_toInt (x : Int64) (h : 0 ≤ x.toInt) : (x.toUInt64.toNat : ℤ) = x.toInt := by
  have hle : 0 ≤ x := Int64.le_iff_toInt_le.mpr h
  rw [Int64.toNat_toUInt64_of_le hle, ← Int64.toNat_toInt, Int.toNat_of_nonneg h]

theorem toInt64_toInt (u : UInt64) :
    u.toInt64.toInt = if u.toNat < 2^63 then (u.toNat : ℤ) else u.toNat-2^64 := by
  have hu := u.toNat_lt
  have hbits : u.toInt64.toInt = (u.toNat : ℤ).bmod (2^64) := BitVec.toInt_eq_toNat_bmod u.toBitVec
  rw [hbits, Int.bmod_def]
  split <;> omega

theorem wholeSeconds_toNat (ms : Int64) (h : 0 ≤ ms.toInt) :
    ((wholeSeconds ms).toNat : ℤ) = ms.toInt/1000%2^32 := by
  have h1000 : (1000 : Int64).toInt = 1000 := rfl
  have hdiv : (ms/1000).toInt = ms.toInt/1000 := by
    rw [Int64.toInt_div_of_ne_right _ _ (by decide), h1000, Int.tdiv_eq_ediv_of_nonneg h]
  have hunsigned := toUInt64_toInt (ms/1000) (by omega)
  rw [wholeSeconds, UInt64.toNat_toUInt32]
  omega

end Words

def NotBefore (unit : ℤ) (d : ℕ) (now lifetime : ℤ) : Prop := now+lifetime ≤ unit*d

def remainingOf (lifetime now now2 : ℤ) : ℤ :=
  if 0 < lifetime-(now2-now) then lifetime-(now2-now) else -1

/-- A stored deadline is read back as the rest of the lifetime. -/
def ReadBack (d : UInt64) (lifetime : ℤ) (now now2 : Int64) : Prop :=
  (getTtl (some d) now2).map Int64.toInt = some (remainingOf lifetime now.toInt now2.toInt)

section Reading

variable (now now2 : Int64) (hnow : 0 ≤ now.toInt) (hlater : now.toInt ≤ now2.toInt)

theorem getTtl_small (d : UInt64) (hnow2 : 0 ≤ now2.toInt) (hd : d.toNat < 2^63) :
    (getTtl (some d) now2).map Int64.toInt =
      some (if 0 < d.toNat-now2.toInt then d.toNat-now2.toInt else -1) := by
  have hlt := now2.toInt_lt
  have hsigned := toInt64_toInt d
  rw [if_pos hd] at hsigned
  have hrange : -2^63 ≤ (d.toNat : ℤ)-now2.toInt ∧ (d.toNat : ℤ)-now2.toInt < 2^63 := by omega
  simp only [getTtl, hsigned, if_pos hrange]
  by_cases hpos : 0 < (d.toNat : ℤ)-now2.toInt
  · rw [if_pos hpos, if_pos hpos, Option.map_some,
      Int64.toInt_ofInt_of_le hrange.1 hrange.2]
  · rw [if_neg hpos, if_neg hpos]
    rfl

theorem getTtl_large (d : UInt64) (hnow2 : 0 ≤ now2.toInt) (hd : 2^63 ≤ d.toNat) (x : ℤ)
    (h : (getTtl (some d) now2).map Int64.toInt = some x) : x = -1 := by
  have hlt := d.toNat_lt
  have hsigned := toInt64_toInt d
  rw [if_neg (by omega)] at hsigned
  have hneg : ¬ 0 < d.toInt64.toInt-now2.toInt := by omega
  simp only [getTtl, if_neg hneg] at h
  split at h
  · cases h
    rfl
  · cases h

include hnow hlater in
theorem readBack_iff (d : UInt64) (lifetime : ℤ) (hpos : 0 < lifetime) (hfit : lifetime < 2^64)
    (hd : (d.toNat : ℤ) = (now.toInt+lifetime)%2^64) :
    ReadBack d lifetime now now2 ↔ now.toInt+lifetime < 2^63 := by
  have hlt := now.toInt_lt
  have hlt2 := now2.toInt_lt
  have hnow2 : 0 ≤ now2.toInt := by omega
  unfold ReadBack remainingOf
  by_cases hsmall : d.toNat < 2^63
  · rw [getTtl_small now2 d hnow2 hsmall, Option.some.injEq]
    constructor
    · intro h
      by_contra hbig
      have hleft : 0 < lifetime-(now2.toInt-now.toInt) := by omega
      rw [if_pos hleft] at h
      split at h <;> omega
    · intro h
      have hexact : (d.toNat : ℤ) = now.toInt+lifetime := by omega
      rw [hexact]
      have hsame : now.toInt+lifetime-now2.toInt = lifetime-(now2.toInt-now.toInt) := by omega
      rw [hsame]
  · constructor
    · intro h
      have hminus := getTtl_large now2 d hnow2 (by omega) _ h
      split at hminus <;> omega
    · intro h
      omega

end Reading

def createTtl : Method → Option Int64
  | .createQueue _ ttl => some ttl
  | .createList _ ttl => some ttl
  | .createVector _ ttl => some ttl
  | .createSet _ ttl => some ttl
  | .createOrderedSet _ ttl => some ttl
  | .createMap _ ttl => some ttl
  | .createOrderedMap _ ttl => some ttl
  | _ => none

section Requests

variable (lib : Libdeflate) (key : Key) (hint : Option KeyHint) (clientId threshold : Int32)
  (now : Int64)

theorem setTtl_ttl (ttl : UInt64) (r : TtlRequest)
    (h : setTtl lib key hint clientId now ttl = .ok r) : r.ttl = some (now.toUInt64+ttl) := by
  obtain ⟨k,_,he⟩ := bind_eq_ok h
  cases he
  rfl

theorem lockObject_duration (type : LockType) (duration : Int64) (r : LockRequest)
    (hpos : 0 < duration.toInt)
    (h : lockObject lib key hint type clientId now duration = .ok r) :
    r.lockDuration = some (wholeSeconds now+wholeSeconds duration) := by
  obtain ⟨k,_,he⟩ := bind_eq_ok h
  cases he
  exact if_pos hpos

theorem container_deadline (type : ContainerKind) (ttl : Int64) (vs : Option (List ValuePtr))
    (r : CreateContainerRequest)
    (h : buildContainerRequest lib key hint clientId type now ttl vs threshold = .ok r) :
    r.ttl = deadline now ttl := by
  obtain ⟨k,_,he⟩ := bind_eq_ok h
  cases he
  rfl

theorem create_deadline (method : Method) (ttl : Int64) (r : CreateContainerRequest)
    (hmethod : createTtl method = some ttl)
    (h : insertRequest lib threshold now ⟨key,hint,clientId,method⟩ = .ok (some (.create r))) :
    r.ttl = deadline now ttl := by
  have hplain : ∀ type vs, (buildContainerRequest lib key hint clientId type now ttl vs
      threshold).map (fun r => some (InsertRequest.create r)) = .ok (some (.create r)) →
      r.ttl = deadline now ttl := by
    intro type vs hp
    obtain ⟨built,hb,he⟩ := map_eq_ok hp
    cases he
    exact container_deadline lib key hint clientId threshold now type ttl vs _ hb
  cases method with
  | createQueue vs t =>
    cases hmethod
    exact hplain .QUEUE vs h
  | createList vs t =>
    cases hmethod
    exact hplain .LIST vs h
  | createVector vs t =>
    cases hmethod
    exact hplain .VECTOR vs h
  | createSet vs t =>
    cases hmethod
    exact hplain .SET vs h
  | createOrderedSet vs t =>
    cases hmethod
    obtain ⟨built,hb,he⟩ := map_eq_ok h
    cases he
    obtain ⟨k,_,hb⟩ := bind_eq_ok hb
    obtain ⟨elements,_,hb⟩ := bind_eq_ok hb
    cases hb
    rfl
  | createMap es t =>
    cases hmethod
    obtain ⟨built,hb,he⟩ := map_eq_ok h
    cases he
    obtain ⟨k,_,hb⟩ := bind_eq_ok hb
    obtain ⟨keys,_,hb⟩ := bind_eq_ok hb
    obtain ⟨values,_,hb⟩ := bind_eq_ok hb
    cases hb
    rfl
  | createOrderedMap es t =>
    cases hmethod
    obtain ⟨built,hb,he⟩ := map_eq_ok h
    cases he
    obtain ⟨entries,_,hb⟩ := bind_eq_ok hb
    obtain ⟨k,_,hb⟩ := bind_eq_ok hb
    obtain ⟨values,_,hb⟩ := bind_eq_ok hb
    cases hb
    rfl
  | _ => cases hmethod

end Requests

theorem lock_notBefore_iff (now duration : Int64) (hnow : 0 ≤ now.toInt)
    (hpos : 0 < duration.toInt) :
    NotBefore 1000 (wholeSeconds now+wholeSeconds duration).toNat now.toInt duration.toInt ↔
      1000 ∣ now.toInt ∧ 1000 ∣ duration.toInt ∧
        now.toInt/1000+duration.toInt/1000 < 2^32 := by
  have hn := wholeSeconds_toNat now hnow
  have hd := wholeSeconds_toNat duration (by omega)
  have hsum : ((wholeSeconds now+wholeSeconds duration).toNat : ℤ) =
      (now.toInt/1000+duration.toInt/1000)%2^32 := by
    rw [UInt32.toNat_add]
    omega
  rw [NotBefore, hsum]
  omega

/-- When the deadlines of the requests are not early, and when a stored one is
read back as what is left of the lifetime. -/
theorem deadlines_iff (lib : Libdeflate) (key : Key) (hint : Option KeyHint)
    (clientId threshold : Int32) (now now2 : Int64) (hnow : 0 ≤ now.toInt)
    (hlater : now.toInt ≤ now2.toInt) :
    (∀ (ttl : UInt64) (r : TtlRequest), 0 < ttl.toNat →
      setTtl lib key hint clientId now ttl = .ok r →
      ∃ d, r.ttl = some d ∧
        (NotBefore 1 d.toNat now.toInt ttl.toNat ↔ now.toInt+ttl.toNat < 2^64) ∧
        (ReadBack d ttl.toNat now now2 ↔ now.toInt+ttl.toNat < 2^63)) ∧
    (∀ ttl : Int64, 0 < ttl.toInt →
      ∃ d, (∀ v, (buildValueProto lib v now ttl clientId threshold).ttl = some d) ∧
        (∀ method r, createTtl method = some ttl →
          insertRequest lib threshold now ⟨key,hint,clientId,method⟩ = .ok (some (.create r)) →
          r.ttl = some d) ∧
        NotBefore 1 d.toNat now.toInt ttl.toInt ∧
        (ReadBack d ttl.toInt now now2 ↔ now.toInt+ttl.toInt < 2^63)) ∧
    ∀ (type : LockType) (duration : Int64) (r : LockRequest), 0 < duration.toInt →
      lockObject lib key hint type clientId now duration = .ok r →
      ∃ d, r.lockDuration = some d ∧
        (NotBefore 1000 d.toNat now.toInt duration.toInt ↔
          1000 ∣ now.toInt ∧ 1000 ∣ duration.toInt ∧
            now.toInt/1000+duration.toInt/1000 < 2^32) := by
  have hn := toUInt64_toInt now hnow
  refine ⟨?_,?_,?_⟩
  · intro ttl r hpos hr
    have hfit := ttl.toNat_lt
    have hd : ((now.toUInt64+ttl).toNat : ℤ) = (now.toInt+ttl.toNat)%2^64 := by
      rw [UInt64.toNat_add]
      omega
    refine ⟨_,setTtl_ttl lib key hint clientId now ttl r hr,?_,?_⟩
    · rw [NotBefore, hd]
      omega
    · exact readBack_iff now now2 hnow hlater _ _ (by omega) (by omega) hd
  · intro ttl hpos
    have ht := toUInt64_toInt ttl (by omega)
    have hfit := ttl.toInt_lt
    have hlt := now.toInt_lt
    have hdeadline : deadline now ttl = some (now.toUInt64+ttl.toUInt64) := if_pos hpos
    have hd : ((now.toUInt64+ttl.toUInt64).toNat : ℤ) = (now.toInt+ttl.toInt)%2^64 := by
      rw [UInt64.toNat_add]
      omega
    refine ⟨now.toUInt64+ttl.toUInt64,fun v => hdeadline,?_,?_,?_⟩
    · intro method r hmethod hr
      rw [create_deadline lib key hint clientId threshold now method ttl r hmethod hr, hdeadline]
    · rw [NotBefore, hd]
      omega
    · exact readBack_iff now now2 hnow hlater _ _ hpos (by omega) hd
  · intro type duration r hpos hr
    exact ⟨_,lockObject_duration lib key hint clientId now type duration r hpos hr,
      lock_notBefore_iff now duration hnow hpos⟩

theorem deadlines_iff_minute :
    (∃ d : UInt64, NotBefore 1 d.toNat 1700000000000 60000 ∧
      ReadBack d 60000 1700000000000 1700000000001) ∧
    (∃ d, NotBefore 1 d.toNat 1700000000000 60000 ∧
      (ReadBack d 60000 1700000000000 1700000000001 ↔ (1700000000000 : ℤ)+60000 < 2^63)) ∧
    ∃ d : UInt32, NotBefore 1000 d.toNat 1700000000000 60000 := by
  have h := deadlines_iff storedLibdeflate sampleKey none 7 1024 1700000000000 1700000000001
    (by decide) (by decide)
  obtain ⟨t,-,hset,hget⟩ := h.1 60000 _ (by decide) rfl
  obtain ⟨d,-,-,hmilli,hread⟩ := h.2.1 60000 (by decide)
  obtain ⟨s,-,hlock⟩ := h.2.2 .WRITE_LOCK 60000 _ (by decide) rfl
  exact ⟨⟨t,hset.mpr (by decide),hget.mpr (by decide)⟩,⟨d,hmilli,hread⟩,
    ⟨s,hlock.mpr (by decide)⟩⟩

/-- A lock for 999 milliseconds, taken half a second past a full one, has
expired before it is sent, and the longest lifetime ends in the past. -/
theorem deadline_in_the_past :
    (∃ r, lockObject storedLibdeflate sampleKey none .WRITE_LOCK 7 1700000000500 999 = .ok r ∧
      r.lockDuration = some 1700000000 ∧ ¬ NotBefore 1000 1700000000 1700000000500 999) ∧
    ∃ r, setTtl storedLibdeflate sampleKey none 7 1700000000500 0xFFFFFFFFFFFFFFFF = .ok r ∧
      r.ttl = some 1700000000499 ∧
      ¬ NotBefore 1 1700000000499 1700000000500 0xFFFFFFFFFFFFFFFF :=
  ⟨⟨_,rfl,rfl,by unfold NotBefore; decide⟩,⟨_,rfl,rfl,by unfold NotBefore; decide⟩⟩

end HurriCache.Deadlines
