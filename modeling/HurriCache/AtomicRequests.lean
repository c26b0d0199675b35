import HurriCache.KeyRouting

/-!
# The requests of the atomic operations

Nine methods of a node's client write their values into the request by hand.
Every value is declared an integer and none has a lifetime. The overloads for
a double hand it to the setter of an integer, which the language converts.
-/

set_option autoImplicit false

namespace HurriCache.AtomicRequests
open HurriCache.ClientTypes HurriCache.PayloadCompression HurriCache.WireMessages
open HurriCache.MessageBuilders HurriCache.StandaloneCalls HurriCache.KeyRouting
open HurriCache.StoredGzip

structure CreateRequest where
  key : KeyMessage
  value : ValueMessage

structure AtomicCas where
  key : KeyMessage
  expected : ValueMessage
  toSet : ValueMessage

def doubleMagnitude (bits : UInt64) : ℕ :=
  let exponent := bits.toNat/2^52%2^11
  let significand := 2^52+bits.toNat%2^52
  if exponent = 0 then 0
  else if 1075 ≤ exponent then significand*2^(exponent-1075)
  else significand/2^(1075-exponent)

/-- The implicit conversion of a double. It discards the fraction and is
undefined for an integral part out of range, an infinity and a NaN. -/
def doubleToInt64 (bits : UInt64) : Option Int64 :=
  if bits.toNat/2^52%2^11 = 2047 then none
  else
    let integral : ℤ := if 2^63 ≤ bits.toNat then -doubleMagnitude bits else doubleMagnitude bits
    if -2^63 ≤ integral ∧ integral < 2^63 then some (Int64.ofInt integral) else none

def intValue (operand : Int64) : ValueMessage where
  value := some { data := .intPayload operand }
  value_type := some .INT

section Builders

variable (lib : Libdeflate) (key : Key) (hint : Option KeyHint) (clientId : Int32)

def intRequest (operand : Int64) : Except Fault CreateRequest := do
  .ok ⟨← buildKeyProto lib key hint clientId defaultThreshold,intValue operand⟩

def doubleRequest (operand : UInt64) : Except Fault (Option CreateRequest) := do
  let k ← buildKeyProto lib key hint clientId defaultThreshold
  .ok ((doubleToInt64 operand).map (fun i => ⟨k,intValue i⟩))

def atomicExchange (value _ttl : Int64) : Except Fault CreateRequest :=
  intRequest lib key hint clientId value

def atomicAdd (delta _ttl : Int64) : Except Fault CreateRequest :=
  intRequest lib key hint clientId delta

def atomicSub (delta _ttl : Int64) : Except Fault CreateRequest :=
  intRequest lib key hint clientId delta

def atomicAddDouble (delta : UInt64) (_ttl : Int64) : Except Fault (Option CreateRequest) :=
  doubleRequest lib key hint clientId delta

def atomicSubDouble (delta : UInt64) (_ttl : Int64) : Except Fault (Option CreateRequest) :=
  doubleRequest lib key hint clientId delta

def atomicAnd (mask _ttl : Int64) : Except Fault CreateRequest :=
  intRequest lib key hint clientId mask

def atomicOr (mask _ttl : Int64) : Except Fault CreateRequest :=
  intRequest lib key hint clientId mask

def atomicXor (mask _ttl : Int64) : Except Fault CreateRequest :=
  intRequest lib key hint clientId mask

def atomicCompareAndSet (expectedValue newValue _ttl : Int64) : Except Fault AtomicCas := do
  .ok ⟨← buildKeyProto lib key hint clientId defaultThreshold,intValue expectedValue,
    intValue newValue⟩

end Builders

inductive AtomicOperation where
  | exchange (value : Int64)
  | add (delta : Int64)
  | sub (delta : Int64)
  | addDouble (delta : UInt64)
  | subDouble (delta : UInt64)
  | and (mask : Int64)
  | or (mask : Int64)
  | xor (mask : Int64)
  | compareAndSet (expectedValue newValue : Int64)

inductive AtomicMessage where
  | create (request : CreateRequest)
  | cas (request : AtomicCas)

namespace AtomicOperation

def method (op : AtomicOperation) (ttl : Int64) : Method :=
  match op with
  | .exchange value => .atomicExchange value ttl
  | .add delta => .atomicAdd delta ttl
  | .sub delta => .atomicSub delta ttl
  | .addDouble delta => .atomicAddDouble delta ttl
  | .subDouble delta => .atomicSubDouble delta ttl
  | .and mask => .atomicAnd mask ttl
  | .or mask => .atomicOr mask ttl
  | .xor mask => .atomicXor mask ttl
  | .compareAndSet expectedValue newValue => .atomicCompareAndSet expectedValue newValue ttl

def request (op : AtomicOperation) (lib : Libdeflate) (key : Key) (hint : Option KeyHint)
    (clientId : Int32) (ttl : Int64) : Except Fault (Option AtomicMessage) :=
  let sent (r : Except Fault CreateRequest) := r.map (fun r => some (.create r))
  let converted (r : Except Fault (Option CreateRequest)) := r.map (Option.map .create)
  match op with
  | .exchange value => sent (atomicExchange lib key hint clientId value ttl)
  | .add delta => sent (atomicAdd lib key hint clientId delta ttl)
  | .sub delta => sent (atomicSub lib key hint clientId delta ttl)
  | .addDouble delta => converted (atomicAddDouble lib key hint clientId delta ttl)
  | .subDouble delta => converted (atomicSubDouble lib key hint clientId delta ttl)
  | .and mask => sent (atomicAnd lib key hint clientId mask ttl)
  | .or mask => sent (atomicOr lib key hint clientId mask ttl)
  | .xor mask => sent (atomicXor lib key hint clientId mask ttl)
  | .compareAndSet expectedValue newValue =>
    (atomicCompareAndSet lib key hint clientId expectedValue newValue ttl).map
      (fun r => some (.cas r))

def operands : AtomicOperation → List Value
  | .exchange value => [.int value]
  | .add delta => [.int delta]
  | .sub delta => [.int delta]
  | .addDouble delta => [.double delta]
  | .subDouble delta => [.double delta]
  | .and mask => [.int mask]
  | .or mask => [.int mask]
  | .xor mask => [.int mask]
  | .compareAndSet expectedValue newValue => [.int expectedValue,.int newValue]

def isInteger : AtomicOperation → Bool
  | .addDouble _ => false
  | .subDouble _ => false
  | _ => true

end AtomicOperation

namespace AtomicMessage

def key : AtomicMessage → KeyMessage
  | .create request => request.key
  | .cas request => request.key

def values : AtomicMessage → List ValueMessage
  | .create request => [request.value]
  | .cas request => [request.expected,request.toSet]

def written : AtomicMessage → ValueMessage
  | .create request => request.value
  | .cas request => request.toSet

end AtomicMessage

def SameTyped (lib : Libdeflate) (v : Value) (now ttl : Int64) (clientId threshold : Int32)
    (m : ValueMessage) : Prop :=
  m.value = (buildValueProto lib v now ttl clientId threshold).value ∧
  m.compressionInfo = (buildValueProto lib v now ttl clientId threshold).compressionInfo ∧
  m.value_type = (buildValueProto lib v now ttl clientId threshold).value_type

/-- A request is made, it has the operands as the shared encoder has them, and
a positive lifetime gives what is written its deadline. -/
def OperandsReach (lib : Libdeflate) (key : Key) (hint : Option KeyHint) (clientId : Int32)
    (threshold : Int32) (now ttl : Int64) (op : AtomicOperation) : Prop :=
  ∃ m, op.request lib key hint clientId ttl = .ok (some m) ∧
    List.Forall₂ (fun v => SameTyped lib v now ttl clientId threshold) op.operands m.values ∧
    (0 < ttl.toInt → m.written.ttl = some (now.toUInt64+ttl.toUInt64))

section Operands

variable (lib : Libdeflate) (key : Key) (hint : Option KeyHint) (clientId threshold : Int32)
  (now ttl : Int64)

theorem intValue_typed (operand : Int64) :
    SameTyped lib (.int operand) now ttl clientId threshold (intValue operand) :=
  ⟨rfl,rfl,rfl⟩

theorem intValue_not_double (bits : UInt64) (operand : Int64) :
    ¬ SameTyped lib (.double bits) now ttl clientId threshold (intValue operand) := by
  rintro ⟨-,-,htype⟩
  cases htype

theorem intValue_ttl_iff (operand : Int64) :
    (0 < ttl.toInt → (intValue operand).ttl = some (now.toUInt64+ttl.toUInt64)) ↔
      ttl.toInt ≤ 0 := by
  constructor
  · intro h
    by_contra hpos
    cases h (by omega)
  · intro h hpos
    omega

theorem reach_single_iff (op : AtomicOperation) (operand : Int64) (r : CreateRequest)
    (hr : intRequest lib key hint clientId operand = .ok r)
    (hop : op.request lib key hint clientId ttl =
      (intRequest lib key hint clientId operand).map (fun r => some (.create r)))
    (hoperands : op.operands = [.int operand]) :
    OperandsReach lib key hint clientId threshold now ttl op ↔ ttl.toInt ≤ 0 := by
  have hvalue : r.value = intValue operand := by
    obtain ⟨k,_,he⟩ := bind_eq_ok hr
    cases he
    rfl
  have hsent : op.request lib key hint clientId ttl = .ok (some (.create r)) := by
    rw [hop, hr]
    rfl
  rw [← intValue_ttl_iff now ttl operand]
  constructor
  · rintro ⟨m,hm,-,httl⟩
    rw [hsent] at hm
    cases hm
    rwa [AtomicMessage.written, hvalue] at httl
  · intro httl
    refine ⟨.create r,hsent,?_,?_⟩
    · rw [hoperands, AtomicMessage.values, hvalue]
      exact .cons (intValue_typed lib clientId threshold now ttl operand) .nil
    · rwa [AtomicMessage.written, hvalue]

theorem double_lost (op : AtomicOperation) (bits : UInt64)
    (hop : op.request lib key hint clientId ttl =
      (doubleRequest lib key hint clientId bits).map (Option.map .create))
    (hoperands : op.operands = [.double bits]) :
    ¬ OperandsReach lib key hint clientId threshold now ttl op := by
  rintro ⟨m,hm,htyped,-⟩
  rw [hop] at hm
  obtain ⟨sent,hsent,he⟩ := map_eq_ok hm
  obtain ⟨r,hr,rfl⟩ := Option.map_eq_some_iff.mp he
  obtain ⟨k,_,hsent⟩ := bind_eq_ok hsent
  cases hsent
  obtain ⟨i,_,rfl⟩ := Option.map_eq_some_iff.mp hr
  rw [hoperands, AtomicMessage.values] at htyped
  cases htyped with
  | cons hhead _ => exact intValue_not_double lib clientId threshold now ttl bits i hhead

end Operands

/-- Operands and lifetime reach the wire exactly for an integer operation
without a positive lifetime. -/
theorem operands_reach_iff (lib : Libdeflate) (key : Key) (hint : Option KeyHint)
    (clientId threshold : Int32) (now ttl : Int64) (op : AtomicOperation)
    (hkey : KeyEncodable lib key defaultThreshold) :
    OperandsReach lib key hint clientId threshold now ttl op ↔
      op.isInteger = true ∧ ttl.toInt ≤ 0 := by
  obtain ⟨k,hk⟩ := buildKeyProto_ok lib key hint clientId defaultThreshold hkey
  have hint_request : ∀ operand, intRequest lib key hint clientId operand =
      .ok ⟨k,intValue operand⟩ := by
    intro operand
    rw [intRequest, hk]
    rfl
  have hsingle := fun operand op => reach_single_iff lib key hint clientId threshold now ttl op
    operand _ (hint_request operand)
  have hdouble := fun bits op => double_lost lib key hint clientId threshold now ttl op bits
  cases op with
  | exchange value => simpa [AtomicOperation.isInteger] using hsingle value _ rfl rfl
  | add delta => simpa [AtomicOperation.isInteger] using hsingle delta _ rfl rfl
  | sub delta => simpa [AtomicOperation.isInteger] using hsingle delta _ rfl rfl
  | addDouble delta => simpa [AtomicOperation.isInteger] using hdouble delta _ rfl rfl
  | subDouble delta => simpa [AtomicOperation.isInteger] using hdouble delta _ rfl rfl
  | and mask => simpa [AtomicOperation.isInteger] using hsingle mask _ rfl rfl
  | or mask => simpa [AtomicOperation.isInteger] using hsingle mask _ rfl rfl
  | xor mask => simpa [AtomicOperation.isInteger] using hsingle mask _ rfl rfl
  | compareAndSet expectedValue newValue =>
    have hsent : (AtomicOperation.compareAndSet expectedValue newValue).request lib key hint
        clientId ttl = .ok (some (.cas ⟨k,intValue expectedValue,intValue newValue⟩)) := by
      simp only [AtomicOperation.request, atomicCompareAndSet, hk]
      rfl
    have httl := intValue_ttl_iff now ttl newValue
    simp only [AtomicOperation.isInteger, true_and]
    rw [← httl]
    constructor
    · rintro ⟨m,hm,-,h⟩
      rw [hsent] at hm
      cases hm
      exact h
    · intro h
      exact ⟨_,hsent,.cons (intValue_typed lib clientId threshold now ttl expectedValue)
        (.cons (intValue_typed lib clientId threshold now ttl newValue) .nil),h⟩

theorem operands_reach_add :
    OperandsReach storedLibdeflate sampleKey none 7 1024 1000 0 (.add 50) ↔
      (AtomicOperation.add 50).isInteger = true ∧ (0 : Int64).toInt ≤ 0 :=
  operands_reach_iff storedLibdeflate sampleKey none 7 1024 1000 0 (.add 50)
    (fun h => absurd h (by decide))

/-- The double 2.5 is added as the integer 2, and an exchange for a minute has
no deadline. -/
theorem operands_lost :
    (∃ r, atomicAddDouble storedLibdeflate sampleKey none 7 0x4004000000000000 0 =
      .ok (some r) ∧ r.value = intValue 2) ∧
    ¬ OperandsReach storedLibdeflate sampleKey none 7 1024 1000 0
      (.addDouble 0x4004000000000000) ∧
    ¬ OperandsReach storedLibdeflate sampleKey none 7 1024 1000 60000 (.exchange 300) := by
  refine ⟨⟨_,rfl,rfl⟩,?_,?_⟩
  · exact double_lost storedLibdeflate sampleKey none 7 1024 1000 0 _ _ rfl rfl
  · rintro ⟨m,hm,-,httl⟩
    cases hm
    cases httl (by decide)

theorem request_key (lib : Libdeflate) (key : Key) (hint : Option KeyHint)
    (clientId threshold : Int32) (ttl : Int64) (op : AtomicOperation) (m : AtomicMessage)
    (h : op.request lib key hint clientId ttl = .ok (some m)) :
    requestKey lib threshold ⟨key,hint,clientId,op.method ttl⟩ = .ok (some m.key) := by
  have hplain : requestKey lib threshold ⟨key,hint,clientId,op.method ttl⟩ =
      (buildKeyProto lib key hint clientId defaultThreshold).map some := by
    cases op <;> rfl
  have hbuilt : ∃ k, buildKeyProto lib key hint clientId defaultThreshold = .ok k ∧
      m.key = k := by
    cases op with
    | addDouble delta | subDouble delta =>
      obtain ⟨sent,hsent,he⟩ := map_eq_ok h
      obtain ⟨k,hk,hs⟩ := bind_eq_ok hsent
      cases hs
      obtain ⟨r,hr,rfl⟩ := Option.map_eq_some_iff.mp he
      obtain ⟨i,_,rfl⟩ := Option.map_eq_some_iff.mp hr
      exact ⟨k,hk,rfl⟩
    | _ =>
      obtain ⟨r,hr,he⟩ := map_eq_ok h
      obtain ⟨k,hk,hs⟩ := bind_eq_ok hr
      cases hs
      cases he
      exact ⟨k,hk,rfl⟩
  obtain ⟨k,hk,rfl⟩ := hbuilt
  rw [hplain, hk]
  rfl

end HurriCache.AtomicRequests
