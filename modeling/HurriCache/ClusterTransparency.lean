import HurriCache.AtomicRequests
import HurriCache.AttemptChain
import HurriCache.KeyDecoders
import HurriCache.KeyRouting
import HurriCache.RequestSizes
import HurriCache.ShardedStore

/-!
# The cluster as one cache

A node decodes the key of a request and lets the request act on the entry of
that key. With a master for every shard and attempts that start there, the
requests of the smart client that can be encoded act on the cluster as on one
store: a key that is not empty always has the same shard, the same master and
the same bytes on arrival, whatever the operation, the client id, the threshold
and the counter are.
-/

set_option autoImplicit false

namespace HurriCache.ClusterTransparency
open HurriCache.ClientTypes HurriCache.CallOutcomes HurriCache.PayloadCompression
open HurriCache.WireMessages HurriCache.MessageBuilders HurriCache.KeyDecoders
open HurriCache.StandaloneCalls HurriCache.RequestSizes HurriCache.SmartOperations
open HurriCache.TopologyTable HurriCache.ShardSelection HurriCache.AttemptGuard
open HurriCache.AttemptChain HurriCache.AtomicRequests HurriCache.KeyRouting
open HurriCache.ShardedStore HurriCache.StoredGzip

/-- A request of an operation on a key, called without a hint, with the counter
and the coin that its `execute` finds and the clock as it is built. -/
structure Issued (lib : Libdeflate) where
  key : Key
  request : Dispatch
  random_counter : UInt32
  master_first : Bool
  now : Int64
  nonempty : key.data ≠ []
  planned : ∃ client max_rpc_size clientId addresses operation plan,
    smartPlan lib client max_rpc_size key none clientId addresses operation = .ok plan ∧
      request ∈ echoedRequests plan

section Wire

variable (lib : Libdeflate) (threshold : Int32) (call : StandaloneCall)

def Built (sent : Except Fault (Option KeyMessage)) : Prop :=
  (lib.gzipCompress call.key.data ≠ [] → ∃ r, sent = .ok r) ∧
    ∀ m, sent = .ok (some m) → ∃ hint threshold,
      effectiveHint call.key hint = effectiveHint call.key call.hint ∧
      buildKeyProto lib call.key hint call.clientId threshold = .ok m

theorem proto_built (hint : Option KeyHint) (threshold : Int32)
    (hh : effectiveHint call.key hint = effectiveHint call.key call.hint) :
    Built lib call ((buildKeyProto lib call.key hint call.clientId threshold).map some) := by
  refine ⟨fun hc => ?_,fun m h => ?_⟩
  · obtain ⟨m,hm⟩ := buildKeyProto_ok lib call.key hint call.clientId threshold (fun _ => hc)
    exact ⟨some m,by rw [hm]; rfl⟩
  · obtain ⟨k,hk,hs⟩ := map_eq_ok h
    cases hs
    exact ⟨hint,threshold,hh,hk⟩

theorem beside_built {R : Type} (threshold : Int32) (build : KeyMessage → R)
    (keyOf : R → KeyMessage) (hkey : ∀ m, keyOf (build m) = m) :
    Built lib call ((buildKeyProto lib call.key (effectiveHint call.key call.hint) call.clientId
      threshold >>= fun m => .ok (build m)).map (fun r => some (keyOf r))) := by
  have h := proto_built lib call (effectiveHint call.key call.hint) threshold
    (effectiveHint_idem call.key call.hint)
  have he : (buildKeyProto lib call.key (effectiveHint call.key call.hint) call.clientId
      threshold >>= fun m => .ok (build m)).map (fun r => some (keyOf r)) =
      (buildKeyProto lib call.key (effectiveHint call.key call.hint) call.clientId
        threshold).map some := by
    cases buildKeyProto lib call.key (effectiveHint call.key call.hint) call.clientId threshold with
    | error f => rfl
    | ok m => exact congrArg (fun k => Except.ok (some k)) (hkey m)
  rw [he]
  exact h

theorem refusable_built (sent : Except Fault (Option KeyMessage)) (refused : Bool)
    (h : Built lib call sent) :
    Built lib call (sent.map (fun m => if refused then none else m)) := by
  refine ⟨fun hc => ?_,fun m hm => ?_⟩
  · obtain ⟨r,hr⟩ := h.1 hc
    exact ⟨_,by rw [hr]; rfl⟩
  · obtain ⟨k,hk,he⟩ := map_eq_ok hm
    cases refused with
    | true => cases he
    | false => exact h.2 m (by rw [hk]; exact congrArg Except.ok he)

theorem requestKey_built : Built lib call (requestKey lib threshold call) := by
  have hplain := proto_built lib call call.hint defaultThreshold rfl
  have hpivot : ∀ b : Bool, Built lib call (if b then .ok none else
      (buildKeyProto lib call.key call.hint call.clientId defaultThreshold).map some) := by
    intro b
    cases b with
    | true => exact ⟨fun _ => ⟨none,rfl⟩,fun m h => by cases h⟩
    | false => exact hplain
  unfold requestKey
  split <;> first
    | exact beside_built lib call threshold GetRequest.mk GetRequest.key (fun _ => rfl)
    | exact proto_built lib call _ threshold (effectiveHint_idem call.key call.hint)
    | exact beside_built lib call defaultThreshold (fun m => KeyPositionRequest.mk m _)
        KeyPositionRequest.key (fun _ => rfl)
    | exact beside_built lib call defaultThreshold (fun m => ContainerGetRequest.mk m _)
        ContainerGetRequest.key (fun _ => rfl)
    | exact hpivot _
    | exact refusable_built lib call _ _ hplain
    | exact hplain

/-- What a request carries beside its key. Null elements stop its encoders, and
so do elements of a type that they do not know. A double operand has to be one
that can be converted. -/
def encodeElements (now : Int64) : Except Fault Unit :=
  match call.method with
  | .removeFromContainer keys values => do
    let _ ← (keys.getD []).mapM deref
    let _ ← (values.getD []).mapM deref
    .ok ()
  | .atomicAddDouble delta _ | .atomicSubDouble delta _ =>
    if (doubleToInt64 delta).isSome then .ok () else .error .undefinedConversion
  | _ => (insertRequest lib threshold now call).map (fun _ => ())

/-- A key that the compressor takes, with a compressed form below 4 GiB. -/
structure Sendable (key : Key) : Prop where
  compressed : lib.gzipCompress key.data ≠ []
  short : (lib.gzipCompress key.data).length < 2^32

def Encodable (r : Issued lib) : Prop :=
  encodeElements lib threshold r.request.action r.now = .ok ()

theorem arrives (hr : lib.RoundTrip) (r : Issued lib) (hs : Sendable lib r.key) (m : KeyMessage)
    (h : requestKey lib threshold r.request.action = .ok (some m)) :
    keyRequestToKey lib m = some (r.key,keyHash r.key) := by
  obtain ⟨client,limit,clientId,addresses,operation,plan,hplan,hmem⟩ := r.planned
  have hrouted := request_of_key lib client limit r.key r.nonempty clientId addresses operation
    plan hplan r.request hmem
  obtain ⟨hint,t,hh,hb⟩ := (requestKey_built lib threshold r.request.action).2 m h
  rw [hrouted.key] at hb hh
  rw [keyRequestToKey_built lib hr r.key hint _ t hs.short m hb, ← hintOf_effective, hh,
    hrouted.sent]
  rfl

end Wire

section Nodes

variable {E T : Type} (lib : Libdeflate) (threshold : Int32)
  (handler : KeyHint → Method → Effect E (Outcome T)) (refusal : Method → CallException)
  (undecodable : CallException)

def receive (m : KeyMessage) (method : Method) (store : Store Key E) :
    Outcome T × Store Key E :=
  match keyRequestToKey lib m with
  | none => (.error undecodable,store)
  | some (key,hint) => store.act key (handler hint method)

def send (action : StandaloneCall) (sent : Option KeyMessage) (store : Store Key E) :
    Outcome T × Store Key E :=
  match sent with
  | none => (.error (refusal action.method),store)
  | some m => receive lib handler undecodable m action.method store

/-- The cluster after the attempts of a call. Clients of one target talk to
one node. -/
def attempted (action : StandaloneCall) (sent : Option KeyMessage)
    (cluster : Cluster Text Key E) (attempts : List Client) : Cluster Text Key E :=
  attempts.foldl (fun c client => Function.update c client.target
    (send lib handler refusal undecodable action sent (c client.target)).2) cluster

def execute (failures : List Client → Failures) (n : ℕ) (mode : Mode)
    (table : RoutingTable) (r : Issued lib) (cluster : Cluster Text Key E) :
    Option (Except Fault (Outcome T) × Cluster Text Key E) :=
  match selectShard r.request.hint table.max_shards r.random_counter with
  | .error f => some (.error f,cluster)
  | .ok (shard,_) =>
    match requestKey lib threshold r.request.action,
      encodeElements lib threshold r.request.action r.now with
    | .error f,_ | _,.error f => some (.error f,cluster)
    | .ok sent,.ok _ =>
      let after := attempted lib handler refusal undecodable r.request.action sent cluster
      (attemptRoutes failures
        (fun past client => (send lib handler refusal undecodable r.request.action sent
          (after past client.target)).1) n mode r.master_first table shard).map
        (fun result => (result.1,after result.2.attempts))

def shardOf (table : RoutingTable) (key : Key) : Int32 :=
  ((keyHash key).weak_hash % table.max_shards.toUInt32).toInt32

def ownerOf (table : RoutingTable) (key : Key) : Text :=
  ((table.getRoute (shardOf table key) .MASTER).map (·.target)).getD []

structure Mastered (table : RoutingTable) : Prop where
  shards : table.max_shards ≠ 0
  masters : ∀ n : UInt32,
    (table.getRoute (n % table.max_shards.toUInt32).toInt32 .MASTER).isSome = true

def Settles : Prop := ∀ hint method entry e, (handler hint method entry).1 = .error e →
  redirectOf e = none ∧ isUnavailable e = false

def effectOf (r : Issued lib) : Effect E (Outcome T) :=
  match requestKey lib threshold r.request.action with
  | .ok none => fun entry => (.error (refusal r.request.action.method),entry)
  | _ => handler (keyHash r.key) r.request.action.method

theorem act_refused (store : Store Key E) (key : Key) (answer : Outcome T) :
    store.act key (fun entry => (answer,entry)) = (answer,store) := by
  simp [Store.act]

theorem send_act (hr : lib.RoundTrip) (r : Issued lib) (hs : Sendable lib r.key)
    (sent : Option KeyMessage) (h : requestKey lib threshold r.request.action = .ok sent)
    (store : Store Key E) :
    send lib handler refusal undecodable r.request.action sent store =
      store.act r.key (effectOf lib threshold handler refusal r) := by
  cases sent with
  | none =>
    rw [effectOf, h, act_refused]
    rfl
  | some m =>
    rw [effectOf, h]
    simp only [send, receive, arrives lib threshold hr r hs m h]

theorem firstAttempt_master (mode : Mode) (master_first : Bool) (master : Client)
    (backup : SharedClient) (hmode : mode = .MASTER ∨ mode = .MASTER_THAN_BACKUP) :
    ∃ fallback, firstAttempt mode master_first (some master) backup =
      some (some master,fallback) := by
  rcases hmode with rfl | rfl <;> cases backup <;> exact ⟨_,rfl⟩

theorem attemptRoutes_settled (failures : List Client → Failures)
    (reply : List Client → Client → Outcome T) (n : ℕ) (mode : Mode) (master_first : Bool)
    (table : RoutingTable) (shard : Int32) (master : Client)
    (hmode : mode = .MASTER ∨ mode = .MASTER_THAN_BACKUP)
    (hmaster : table.getRoute shard .MASTER = some master)
    (hreply : ∀ e, reply [] master = .error e → redirectOf e = none ∧ isUnavailable e = false) :
    ∃ s, attemptRoutes failures reply (n+1) mode master_first table shard =
      some (.ok (reply [] master),s) ∧ s.attempts = [master] := by
  obtain ⟨fallback,hfirst⟩ := firstAttempt_master mode master_first master
    (table.getRoute shard .BACKUP) hmode
  rw [attemptRoutes, hmaster, hfirst]
  simp only [attemptWithGuard]
  cases hr : reply [] master with
  | ok value => exact ⟨_,rfl,rfl⟩
  | error e =>
    obtain ⟨hredirect,hup⟩ := hreply e hr
    simp only [handle, hredirect, hup]
    exact ⟨_,rfl,rfl⟩

theorem execute_owner (hr : lib.RoundTrip) (failures : List Client → Failures) (n : ℕ)
    (mode : Mode) (hmode : mode = .MASTER ∨ mode = .MASTER_THAN_BACKUP) (table : RoutingTable)
    (htable : Mastered table) (hsettles : Settles handler)
    (hrefusal : ∀ method, redirectOf (refusal method) = none ∧
      isUnavailable (refusal method) = false)
    (r : Issued lib) (hs : Sendable lib r.key) (he : Encodable lib threshold r)
    (cluster : Cluster Text Key E) :
    execute lib threshold handler refusal undecodable failures (n+1) mode table r cluster =
      some (.ok (cluster.act (ownerOf table r.key) r.key
          (effectOf lib threshold handler refusal r)).1,
        (cluster.act (ownerOf table r.key) r.key
          (effectOf lib threshold handler refusal r)).2) := by
  obtain ⟨client,limit,clientId,addresses,operation,plan,hplan,hmem⟩ := r.planned
  have hrouted := request_of_key lib client limit r.key r.nonempty clientId addresses operation
    plan hplan r.request hmem
  have hselect : selectShard r.request.hint table.max_shards r.random_counter =
      .ok (shardOf table r.key,r.random_counter) := by
    rw [hrouted.routed, selectShard, modShards_ok _ _ htable.shards]
    rfl
  obtain ⟨sent,hsent⟩ := (requestKey_built lib threshold r.request.action).1
    (by rw [hrouted.key]; exact hs.compressed)
  obtain ⟨master,hmaster⟩ := Option.isSome_iff_exists.mp
    (htable.masters (keyHash r.key).weak_hash)
  have howner : ownerOf table r.key = master.target := by
    rw [ownerOf, shardOf, hmaster]
    rfl
  have hact := send_act lib threshold handler refusal undecodable hr r hs sent hsent
  have hsettled : ∀ store e, (send lib handler refusal undecodable r.request.action sent store).1 =
      .error e → redirectOf e = none ∧ isUnavailable e = false := by
    intro store e he
    rw [hact] at he
    unfold effectOf at he
    split at he
    · cases he
      exact hrefusal _
    · exact hsettles _ _ _ e he
  obtain ⟨s,hroutes,hattempts⟩ := attemptRoutes_settled failures
    (fun past client => (send lib handler refusal undecodable r.request.action sent
      (attempted lib handler refusal undecodable r.request.action sent cluster past
        client.target)).1) n mode r.master_first table (shardOf table r.key) master hmode hmaster
    (hsettled _)
  have hencoded : encodeElements lib threshold r.request.action r.now = .ok () := he
  simp only [execute, hselect, hsent, hencoded, hroutes, Option.map_some, hattempts]
  rw [howner]
  simp only [attempted, List.foldl_nil, List.foldl_cons, hact, Cluster.act]

def executeAll (failures : List Client → Failures) (n : ℕ) (mode : Mode)
    (table : RoutingTable) : List (Issued lib) → Cluster Text Key E →
      Option (Except Fault (List (Outcome T)) × Cluster Text Key E)
  | [], cluster => some (.ok [],cluster)
  | r::rs, cluster =>
    match execute lib threshold handler refusal undecodable failures n mode table r cluster with
    | none => none
    | some (.error f,cluster) => some (.error f,cluster)
    | some (.ok answer,cluster) =>
      (executeAll failures n mode table rs cluster).map (fun rest =>
        (rest.1.map (fun answers => answer::answers),rest.2))

theorem executeAll_serve (hr : lib.RoundTrip) (failures : List Client → Failures) (n : ℕ)
    (mode : Mode) (hmode : mode = .MASTER ∨ mode = .MASTER_THAN_BACKUP) (table : RoutingTable)
    (htable : Mastered table) (hsettles : Settles handler)
    (hrefusal : ∀ method, redirectOf (refusal method) = none ∧
      isUnavailable (refusal method) = false)
    (rs : List (Issued lib)) (hs : ∀ r ∈ rs, Sendable lib r.key ∧ Encodable lib threshold r)
    (cluster : Cluster Text Key E) :
    executeAll lib threshold handler refusal undecodable failures (n+1) mode table rs cluster =
      some (.ok (cluster.serve (ownerOf table) Issued.key
          (effectOf lib threshold handler refusal) rs).1,
        (cluster.serve (ownerOf table) Issued.key
          (effectOf lib threshold handler refusal) rs).2) := by
  induction rs generalizing cluster with
  | nil => rfl
  | cons r rs ih =>
    have hfirst := execute_owner lib threshold handler refusal undecodable hr failures n mode
      hmode table htable hsettles hrefusal r (hs r List.mem_cons_self).1
      (hs r List.mem_cons_self).2 cluster
    have hrest := ih (fun q hq => hs q (List.mem_cons_of_mem r hq))
      (cluster.act (ownerOf table r.key) r.key (effectOf lib threshold handler refusal r)).2
    simp only [executeAll, hfirst, hrest, Option.map_some]
    rfl

/-- Any requests of any operations, in any order: the cluster answers as one
store would, holds what that store holds and keeps each key at one node. -/
theorem cluster_transparent (hr : lib.RoundTrip) (failures : List Client → Failures)
    (n : ℕ) (mode : Mode) (hmode : mode = .MASTER ∨ mode = .MASTER_THAN_BACKUP)
    (table : RoutingTable) (htable : Mastered table) (hsettles : Settles handler)
    (hrefusal : ∀ method, redirectOf (refusal method) = none ∧
      isUnavailable (refusal method) = false)
    (rs : List (Issued lib)) (hs : ∀ r ∈ rs, Sendable lib r.key ∧ Encodable lib threshold r)
    (cluster : Cluster Text Key E)
    (hplaced : Placed (ownerOf table) cluster) :
    ∃ last, executeAll lib threshold handler refusal undecodable failures (n+1) mode table rs
        cluster = some (.ok ((view (ownerOf table) cluster).serve Issued.key
          (effectOf lib threshold handler refusal) rs).1,last) ∧
      view (ownerOf table) last = ((view (ownerOf table) cluster).serve Issued.key
        (effectOf lib threshold handler refusal) rs).2 ∧
      Placed (ownerOf table) last := by
  obtain ⟨hanswers,hview,hlast⟩ := serve_view (ownerOf table) cluster Issued.key
    (effectOf lib threshold handler refusal) rs hplaced
  refine ⟨_,?_,hview,hlast⟩
  rw [executeAll_serve lib threshold handler refusal undecodable hr failures n mode hmode table
    htable hsettles hrefusal rs hs cluster, hanswers]

end Nodes

def twoNodes : RoutingTable where
  max_shards := 2
  routing_table := ((∅ : AList (fun _ : NodeRole × Int32 => Client)).insert (.MASTER,0)
    ⟨['a'],0⟩).insert (.MASTER,1) ⟨['b'],0⟩

theorem twoNodes_mastered : Mastered twoNodes where
  shards := by decide
  masters := by
    intro n
    have hn : n % 2 = 0 ∨ n % 2 = 1 := by
      have hlt := Nat.mod_lt n.toNat (show 0 < 2 by decide)
      rcases (by omega : n.toNat % 2 = 0 ∨ n.toNat % 2 = 1) with h | h
      · exact Or.inl (UInt32.toNat_inj.mp (by simpa using h))
      · exact Or.inr (UInt32.toNat_inj.mp (by simpa using h))
    show (twoNodes.getRoute (n % 2).toInt32 .MASTER).isSome = true
    rcases hn with h | h <;> rw [h] <;> rfl

def markHandler (_ : KeyHint) (method : Method) (entry : Option Unit) :
    Outcome Bool × Option Unit :=
  match method with
  | .createKeyValue _ _ => (.ok true,some ())
  | _ => (.ok entry.isSome,entry)

def createAddLookUp : List (Issued storedLibdeflate) :=
  [⟨sampleKey,dispatch {} sampleKey none 0 (.createKeyValue (.int 1) 0),0,true,0,
      List.cons_ne_nil _ _,⟨{},1,0,givenOrder,.createKeyValue (.int 1) 0,_,rfl,
        List.mem_singleton_self _⟩⟩,
    ⟨sampleKey,dispatch {} sampleKey none 3 (.addElementToTail (some [some (.int 2)])),1,true,0,
      List.cons_ne_nil _ _,⟨{},1,3,givenOrder,.addElementToTail (some [some (.int 2)]),_,rfl,
        List.mem_singleton_self _⟩⟩,
    ⟨sampleKey,dispatch {} sampleKey none 5 .existKey,7,false,0,List.cons_ne_nil _ _,
      ⟨{},1,5,givenOrder,.existKey,_,rfl,List.mem_singleton_self _⟩⟩]

theorem cluster_transparent_sample :
    ∃ last, executeAll storedLibdeflate 1024 markHandler (fun _ => .other []) (.other [])
        (fun _ => {}) 1 .MASTER_THAN_BACKUP twoNodes createAddLookUp (fun _ _ => none) =
      some (.ok ((view (ownerOf twoNodes) (fun _ _ => none)).serve Issued.key
        (effectOf storedLibdeflate 1024 markHandler (fun _ => .other [])) createAddLookUp).1,last) ∧
      view (ownerOf twoNodes) last = ((view (ownerOf twoNodes) (fun _ _ => none)).serve Issued.key
        (effectOf storedLibdeflate 1024 markHandler (fun _ => .other [])) createAddLookUp).2 ∧
      Placed (ownerOf twoNodes) last := by
  refine cluster_transparent storedLibdeflate 1024 markHandler (fun _ => .other []) (.other [])
    stored_round_trip (fun _ => {}) 0 .MASTER_THAN_BACKUP (Or.inr rfl) twoNodes twoNodes_mastered
    ?_ (fun _ => ⟨rfl,rfl⟩) createAddLookUp ?_ (fun _ _ => none) (fun _ _ _ => rfl)
  · intro hint method entry e he
    unfold markHandler at he
    split at he <;> cases he
  · intro r hr
    simp only [createAddLookUp, List.mem_cons, List.not_mem_nil, or_false] at hr
    rcases hr with rfl | rfl | rfl <;> exact ⟨⟨by decide,stored_length _⟩,rfl⟩

end HurriCache.ClusterTransparency
