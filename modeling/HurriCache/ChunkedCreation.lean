import HurriCache.ElementServer

/-!
# Container creation in chunks

The first request carries a maximal prefix, which may be empty, and the
others carry the blocks of the rest. For every kind the elements of the
requests in order are the elements of the input. The map forms send the
prefix in the address order of the copied keys, and their remainder uses
keys that were made over into ordered values.
-/

set_option autoImplicit false

namespace HurriCache.ChunkedCreation
open HurriCache.ClientTypes HurriCache.PayloadCompression HurriCache.CallOutcomes
open HurriCache.MessageBuilders HurriCache.StandaloneCalls HurriCache.ChunkSplitters
open HurriCache.SmartOperations HurriCache.CallPipelines HurriCache.ListServer
open HurriCache.ElementServer

inductive CreateInput where
  | unordered (type : UnorderedType) (values : List Value)
  | orderedSet (values : List OrderedValue)
  | map (entries : List (Key × Value))
  | orderedMap (entries : List (OrderedKey × OrderedValue))

def mapPointers (entries : List (Key × Value)) : List (KeyPtr × ValuePtr) :=
  entries.map (fun e => (some e.1,some e.2))

def orderedMapPointers (entries : List (OrderedKey × OrderedValue)) :
    List (OrderedKeyPtr × OrderedValuePtr) :=
  entries.map (fun e => (some e.1,some e.2))

namespace CreateInput

def operation (input : CreateInput) (lib : Libdeflate) (client : SmartClient)
    (max_rpc_size : Int64) (key : Key) (hint : Option KeyHint) (clientId : Int32)
    (ttl : Int64) (addresses : AddressOrder) : Except Fault CreatePlan :=
  match input with
  | .unordered type values => createUnorderedContainerSmart lib client max_rpc_size key hint
      clientId ttl type (some (values.map some))
  | .orderedSet values =>
    createOrderedSet lib client max_rpc_size key hint clientId ttl (some (values.map some))
  | .map entries => createMap lib client max_rpc_size key hint clientId ttl addresses
      (some (mapPointers entries))
  | .orderedMap entries => createOrderedMap lib client max_rpc_size key hint clientId ttl
      addresses (some (orderedMapPointers entries))

def whole (input : CreateInput) (ttl : Int64) : Method :=
  match input with
  | .unordered type values => type.create (some (values.map some)) ttl
  | .orderedSet values => .createOrderedSet (some (values.map some)) ttl
  | .map entries => .createMap (some (mapPointers entries)) ttl
  | .orderedMap entries => .createOrderedMap (some (orderedMapPointers entries)) ttl

def elementsOf : CreateInput → List Element
  | .unordered _ values => values.map .value
  | .orderedSet values => values.map .weighted
  | .map entries => entries.map (fun e => .entry e.1 e.2)
  | .orderedMap entries => entries.map (fun e => .orderedEntry e.1 e.2.elem)

def DistinctKeys : CreateInput → Prop
  | .map entries => (entries.map (fun e => e.1.data)).Nodup
  | .orderedMap entries => (entries.map (fun e => e.1.elem.data)).Nodup
  | _ => True

/-- The size estimate of a map key compresses it like a request key. -/
def Encodable (input : CreateInput) (lib : Libdeflate) (threshold : Int32) : Prop :=
  match input with
  | .map entries => ∀ e ∈ entries, KeyEncodable lib e.1 threshold
  | _ => True

end CreateInput

def planRequests (plan : CreatePlan) (reply_hint : KeyHint) : List Dispatch :=
  plan.create_future::((plan.remainder.map (fun calls => calls reply_hint)).getD [])

/-- A plan delivers a list of elements when its first request holds a prefix
of them, in an order that makes no difference, and the others hold the rest. -/
structure Delivers {C : Type} (server : ContainerServer C) (plan : CreatePlan)
    (reply_hint : KeyHint) (es : List Element) : Prop where
  created : isCreate plan.create_future.action.method = true
  added : ∀ r ∈ (planRequests plan reply_hint).tail, isCreate r.action.method = false
  split : ∃ n, (elements plan.create_future.action.method).Perm (es.take n) ∧
    (∀ c, server.insertAll c (elements plan.create_future.action.method) =
      server.insertAll c (es.take n)) ∧
    ((planRequests plan reply_hint).tail.flatMap (fun r => elements r.action.method)) =
      es.drop n

section Running

variable {C : Type} (server : ContainerServer C)

theorem applyAll_added (requests : List Dispatch)
    (h : ∀ r ∈ requests, isCreate r.action.method = false) (c : C) :
    applyAll server.apply requests c =
      server.insertAll c (requests.flatMap (fun r => elements r.action.method)) := by
  induction requests generalizing c with
  | nil => rfl
  | cons r rs ih =>
    have hr : isCreate r.action.method = false := h r (by simp)
    have hrest := ih (fun x hx => h x (List.mem_cons_of_mem r hx)) (server.apply r.action.method c)
    rw [List.flatMap_cons, insertAll_append]
    simpa [applyAll, ContainerServer.apply, hr] using hrest

theorem applied_after_first (first : Dispatch) (rest : List Dispatch) (front : List Element)
    (hcreated : isCreate first.action.method = true)
    (hfront : ∀ c, server.insertAll c (elements first.action.method) = server.insertAll c front)
    (hrest : ∀ r ∈ rest, isCreate r.action.method = false) :
    applyAll server.apply (first::rest) server.empty = server.insertAll server.empty
      (front++rest.flatMap (fun r => elements r.action.method)) := by
  have hfirst : server.apply first.action.method server.empty =
      server.insertAll server.empty front := by
    rw [ContainerServer.apply, hcreated, if_pos rfl, hfront]
  have htail := applyAll_added server rest hrest (server.insertAll server.empty front)
  rw [← insertAll_append, ← hfirst] at htail
  exact htail

theorem delivered_all (plan : CreatePlan) (reply_hint : KeyHint) (es : List Element)
    (hd : Delivers server plan reply_hint es) :
    applyAll server.apply (planRequests plan reply_hint) server.empty =
      server.insertAll server.empty es := by
  obtain ⟨n,-,hsame,hrest⟩ := hd.split
  have h := applied_after_first server plan.create_future _ (es.take n) hd.created hsame hd.added
  rw [hrest, List.take_append_drop] at h
  exact h

theorem delivered_prefix (plan : CreatePlan) (reply_hint : KeyHint) (es : List Element)
    (hd : Delivers server plan reply_hint es) (k : ℕ) :
    ∃ n, applyAll server.apply ((planRequests plan reply_hint).take k) server.empty =
        server.insertAll server.empty (es.take n) ∧
      (((planRequests plan reply_hint).take k).flatMap
        (fun r => elements r.action.method)).Perm (es.take n) := by
  cases k with
  | zero => exact ⟨0,by simp [applyAll, ContainerServer.insertAll],by simp⟩
  | succ k =>
    obtain ⟨n,hperm,hsame,hrest⟩ := hd.split
    obtain ⟨m,hm⟩ : ∃ m, ((planRequests plan reply_hint).tail.take k).flatMap
        (fun r => elements r.action.method) = (es.drop n).take m := by
      obtain ⟨rest,hsplit⟩ : ∃ rest, ((planRequests plan reply_hint).tail.take k).flatMap
          (fun r => elements r.action.method)++rest = es.drop n := by
        refine ⟨((planRequests plan reply_hint).tail.drop k).flatMap
          (fun r => elements r.action.method),?_⟩
        rw [← List.flatMap_append, List.take_append_drop, hrest]
      exact ⟨_,by rw [← hsplit, List.take_left']; rfl⟩
    have hjoin : es.take n++(es.drop n).take m = es.take (n+m) := by
      rw [List.take_add]
    refine ⟨n+m,?_,?_⟩
    · have h := applied_after_first server plan.create_future
        ((planRequests plan reply_hint).tail.take k) (es.take n) hd.created hsame
        (fun r hr => hd.added r (List.mem_of_mem_take hr))
      rw [hm, hjoin] at h
      exact h
    · have happend := hperm.append_right ((es.drop n).take m)
      rw [hjoin] at happend
      rw [← hm] at happend
      simpa [planRequests] using happend

def runServed (fails : ℕ → Option CallException) (reply_hint : KeyHint) (plan : CreatePlan) :
    Outcome KeyHint × Served C :=
  runCreatePlan (serve fails server.apply (fun _ => reply_hint))
    (serve fails server.apply addReply) plan ⟨server.empty,[]⟩

theorem runServed_ok (fails : ℕ → Option CallException) (reply_hint : KeyHint)
    (plan : CreatePlan) (hok : ∀ i < (planRequests plan reply_hint).length, fails i = none) :
    runServed server fails reply_hint plan = (.ok reply_hint,
      ⟨applyAll server.apply (planRequests plan reply_hint) server.empty,
        planRequests plan reply_hint⟩) := by
  have h0 : fails 0 = none := hok 0 (by simp [planRequests])
  obtain ⟨first,remainder⟩ := plan
  cases remainder with
  | none => simp [runServed, runCreatePlan, serve, h0, planRequests, applyAll]
  | some calls =>
    have h := runCalls_ok fails server.apply addReply (fun _ _ => ()) ()
      (calls reply_hint) ⟨server.apply first.action.method server.empty,[first]⟩ (by
        intro i hi
        have h := hok (i+1) (by simpa [planRequests] using hi)
        simpa [Nat.add_comm] using h)
    simp only [runServed, runCreatePlan, createWithRemainder, serve, h0, List.length_nil,
      List.nil_append, sendRemainder, h, planRequests, Option.map_some, Option.getD_some]
    simp [applyAll]

theorem runServed_fail (fails : ℕ → Option CallException) (reply_hint : KeyHint)
    (plan : CreatePlan) (j : ℕ) (hj : j < (planRequests plan reply_hint).length)
    (e : CallException) (hok : ∀ i < j, fails i = none) (he : fails j = some e) :
    runServed server fails reply_hint plan = (.error e,
      ⟨applyAll server.apply ((planRequests plan reply_hint).take j) server.empty,
        (planRequests plan reply_hint).take (j+1)⟩) := by
  obtain ⟨first,remainder⟩ := plan
  cases j with
  | zero =>
    cases remainder with
    | none => simp [runServed, runCreatePlan, serve, he, planRequests, applyAll]
    | some calls =>
      simp [runServed, runCreatePlan, createWithRemainder, serve, he, planRequests, applyAll]
  | succ j =>
    have h0 : fails 0 = none := hok 0 (by omega)
    cases remainder with
    | none => simp [planRequests] at hj
    | some calls =>
      have h := runCalls_fail fails server.apply addReply (fun _ _ => ()) ()
        (calls reply_hint) ⟨server.apply first.action.method server.empty,[first]⟩ j
        (by simpa [planRequests] using hj) e
        (by
          intro i hi
          have h := hok (i+1) (by omega)
          simpa [Nat.add_comm] using h)
        (by simpa [Nat.add_comm] using he)
      simp only [runServed, runCreatePlan, createWithRemainder, serve, h0, List.length_nil,
        List.nil_append, sendRemainder, h, planRequests, Option.map_some, Option.getD_some]
      simp [applyAll]

end Running

section Plans

variable (lib : Libdeflate) (client : SmartClient) (max_rpc_size : Int64) (key : Key)
  (hint : Option KeyHint) (clientId : Int32) (ttl : Int64)

def planOf (first : Method) (rest : List Method) : CreatePlan :=
  ⟨dispatch client key hint clientId first,
    if rest.isEmpty then none else some (remainderCalls client key clientId rest)⟩

theorem planOf_requests (first : Method) (rest : List Method) (reply_hint : KeyHint) :
    planRequests (planOf client key hint clientId first rest) reply_hint =
      dispatch client key hint clientId first::
        rest.map (fun m => dispatchRemainder client key clientId m reply_hint) := by
  cases rest with
  | nil => rfl
  | cons m ms => rfl

theorem planOf_delivers {C : Type} (server : ContainerServer C) (first : Method)
    (rest : List Method) (reply_hint : KeyHint) (es : List Element) (n : ℕ)
    (hcreate : isCreate first = true) (hadd : ∀ m ∈ rest, isCreate m = false)
    (hperm : (elements first).Perm (es.take n))
    (hsame : ∀ c, server.insertAll c (elements first) = server.insertAll c (es.take n))
    (hrest : rest.flatMap elements = es.drop n) :
    Delivers server (planOf client key hint clientId first rest) reply_hint es where
  created := hcreate
  added := by
    rw [planOf_requests]
    simpa [dispatchRemainder] using hadd
  split := ⟨n,hperm,hsame,by
    rw [planOf_requests]
    simpa [List.flatMap_map, dispatchRemainder] using hrest⟩

end Plans

end HurriCache.ChunkedCreation
