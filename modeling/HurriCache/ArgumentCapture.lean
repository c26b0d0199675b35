import HurriCache.CallerMemory
import HurriCache.ExecuteMachine
import HurriCache.PartialRun
import HurriCache.SmartOperations
import HurriCache.StoredGzip

/-!
# Arguments after the call has returned

An operation hands copies of its arguments to a detached worker, and every
attempt sends what the worker holds. The removal by keys and values hands over
the caller's own two vectors, which every attempt reads anew. The caller may
change and release its objects at any time once the call has returned.
-/

set_option autoImplicit false

namespace HurriCache.ArgumentCapture
open HurriCache.ClientTypes HurriCache.CallOutcomes HurriCache.PayloadCompression
open HurriCache.TopologyTable HurriCache.ShardSelection HurriCache.AttemptGuard
open HurriCache.RefreshMachine HurriCache.ExecuteMachine HurriCache.StandaloneCalls
open HurriCache.SmartOperations HurriCache.CallerMemory HurriCache.PartialRun
open HurriCache.StoredGzip

inductive Captured where
  | copies (call : StandaloneCall)
  | borrowed (key : Key) (hint : Option KeyHint) (clientId : Int32) (keys values : Option Addr)

def Captured.request (memory : Memory) : Captured → Except Fault StandaloneCall
  | .copies call => .ok call
  | .borrowed key hint clientId keys values => do
    .ok ⟨key,hint,clientId,← (Operation.removeFromContainer keys values).read memory⟩

structure Task where
  hint : Option KeyHint
  action : Captured

def taskOf (call : Dispatch) : Task := ⟨call.hint,.copies call.action⟩

/-- The calls of a plan one after the other, and the ones that a creation adds
to them from its reply. An addition of nothing makes no call. -/
def tasksOf : Plan → List Task × Option (KeyHint → List Task)
  | .forward call => ([taskOf call],none)
  | .add (.immediate _) => ([],none)
  | .add (.pipeline calls) => (calls.map taskOf,none)
  | .create plan => ([taskOf plan.create_future],
      plan.remainder.map (fun calls res_hint => (calls res_hint).map taskOf))

structure Work (T : Type) where
  tasks : List Task
  remainder : Option (KeyHint → List Task) := none
  shared : Shared := {}
  pc : ExecutePc T := .waitingReady
  sent : List (Client × StandaloneCall) := []
  fault : Option Fault := none

structure State (T : Type) where
  memory : Memory
  work : Work T

/-- The caller changes its objects, and other threads the shared members. -/
inductive Action (T : Type) where
  | change (memory : Memory)
  | environment (shared : Shared)
  | execute (master_first : Bool) (failures : Failures)
  | timeout
  | reply (outcome : Outcome T)
  | next

section Machine

variable {T : Type}

section Capture

variable (lib : Libdeflate) (client : SmartClient) (addresses : AddressOrder)

def capture (memory : Memory) (call : Call) : Except Fault (Work T) := do
  let key ← load memory.keys call.key
  let hint ← loadPtr memory.hints call.hint
  match call.operation with
  | .removeFromContainer keys values =>
    let hint_copy := resolveHint key hint
    .ok { tasks := [⟨hint_copy,
      .borrowed key hint_copy (client.effectiveClientId call.clientId) keys values⟩] }
  | operation =>
    let method ← operation.read memory
    let plan ← smartPlan lib client client.maxRpcSize key hint call.clientId addresses method
    .ok { tasks := (tasksOf plan).1, remainder := (tasksOf plan).2 }

end Capture

def Work.request (memory : Memory) (w : Work T) : Except Fault (Option StandaloneCall) :=
  match w.pc, w.tasks with
  | .sending (some _) _, task::_ => (task.action.request memory).map some
  | _, _ => .ok none

def moved (w : Work T) (request : Option StandaloneCall) : Except Fault (Moved T) → Work T
  | .error f => { w with fault := some f }
  | .ok m =>
    match m.pc with
    | .awaiting current _ => { w with
      shared := m.shared
      pc := m.pc
      sent := w.sent++(request.map (fun r => (current,r))).toList }
    | pc => { w with shared := m.shared, pc := pc }

def Work.next (replyHint : T → KeyHint) (w : Work T) : Option (Work T) :=
  match w.pc with
  | .finished (.ok value) =>
    match w.tasks with
    | _::task::tasks => some { w with tasks := task::tasks, pc := .waitingReady }
    | _ => w.remainder.map (fun calls => { w with
        tasks := calls (replyHint value)
        remainder := none
        pc := .waitingReady })
  | _ => none

variable (configured_mode : Mode) (replyHint : T → KeyHint)

def act (memory : Memory) (w : Work T) : Action T → Option (Work T)
  | .change _ => some w
  | .environment shared => some { w with shared := shared }
  | .execute master_first failures =>
    match w.tasks with
    | [] => none
    | task::_ =>
      match w.request memory with
      | .error f => some { w with fault := some f }
      | .ok request =>
        (executeStep configured_mode task.hint master_first failures w.shared w.pc).map
          (moved w request)
  | .timeout => (executeTimeout w.shared w.pc).map (fun pc => { w with pc := pc })
  | .reply outcome => (executeReply outcome w.pc).map (fun pc => { w with pc := pc })
  | .next => w.next replyHint

def step (s : State T) : Action T → Option (State T)
  | .change memory => some { s with memory := memory }
  | a =>
    if s.work.fault.isSome then none
    else (act configured_mode replyHint s.memory s.work a).map (fun w => ⟨s.memory,w⟩)

def isChange : Action T → Bool
  | .change _ => true
  | _ => false

def sentBy (lib : Libdeflate) (client : SmartClient) (addresses : AddressOrder) (memory : Memory)
    (call : Call) (actions : List (Action T)) : Option (List (Client × StandaloneCall)) :=
  match capture lib client addresses memory call with
  | .error _ => none
  | .ok work =>
    (run (step configured_mode replyHint) ⟨memory,work⟩ actions).map (fun s => s.work.sent)

end Machine

section Steady

variable {T : Type}

def Steady (action : Captured) : Prop :=
  ∀ memory₁ memory₂, action.request memory₁ = action.request memory₂

structure Owned (w : Work T) : Prop where
  tasks : ∀ task ∈ w.tasks, Steady task.action
  remainder : ∀ calls ∈ w.remainder, ∀ res_hint, ∀ task ∈ calls res_hint, Steady task.action

theorem moved_owned (w : Work T) (request : Option StandaloneCall) (r : Except Fault (Moved T))
    (hw : Owned w) : Owned (moved w request r) := by
  unfold moved
  split
  · exact ⟨hw.tasks,hw.remainder⟩
  · split
    · exact ⟨hw.tasks,hw.remainder⟩
    · exact ⟨hw.tasks,hw.remainder⟩

theorem next_owned (replyHint : T → KeyHint) (w w' : Work T) (hw : Owned w)
    (h : w.next replyHint = some w') : Owned w' := by
  unfold Work.next at h
  split at h
  next value _ =>
    split at h
    next first task tasks htasks =>
      cases h
      refine ⟨fun t ht => hw.tasks t ?_,hw.remainder⟩
      rw [htasks]
      exact List.mem_cons_of_mem first ht
    next =>
      rcases Option.map_eq_some_iff.mp h with ⟨calls,hcalls,rfl⟩
      exact ⟨hw.remainder calls hcalls (replyHint value),fun _ hnone => nomatch hnone⟩
  next => cases h

theorem act_owned (configured_mode : Mode) (replyHint : T → KeyHint) (memory : Memory)
    (w w' : Work T) (a : Action T) (hw : Owned w)
    (h : act configured_mode replyHint memory w a = some w') : Owned w' := by
  cases a with
  | change memory =>
    cases h
    exact hw
  | environment shared =>
    cases h
    exact ⟨hw.tasks,hw.remainder⟩
  | execute master_first failures =>
    simp only [act] at h
    split at h
    · cases h
    · split at h
      · cases h
        exact ⟨hw.tasks,hw.remainder⟩
      next request _ =>
        rcases Option.map_eq_some_iff.mp h with ⟨r,_,rfl⟩
        exact moved_owned w request r hw
  | timeout =>
    rcases Option.map_eq_some_iff.mp h with ⟨pc,_,rfl⟩
    exact ⟨hw.tasks,hw.remainder⟩
  | reply outcome =>
    rcases Option.map_eq_some_iff.mp h with ⟨pc,_,rfl⟩
    exact ⟨hw.tasks,hw.remainder⟩
  | next => exact next_owned replyHint w w' hw h

theorem request_steady (w : Work T) (hw : Owned w) (memory₁ memory₂ : Memory) :
    w.request memory₁ = w.request memory₂ := by
  unfold Work.request
  split
  next task tasks _ htasks =>
    rw [hw.tasks task (by rw [htasks]; exact List.mem_cons_self) memory₁ memory₂]
  next => rfl

theorem act_steady (configured_mode : Mode) (replyHint : T → KeyHint) (w : Work T) (hw : Owned w)
    (memory₁ memory₂ : Memory) (a : Action T) :
    act configured_mode replyHint memory₁ w a = act configured_mode replyHint memory₂ w a := by
  cases a with
  | execute master_first failures =>
    simp only [act, request_steady w hw memory₁ memory₂]
  | _ => rfl

theorem step_hides (configured_mode : Mode) (replyHint : T → KeyHint) :
    Hides (step configured_mode replyHint) State.work isChange Owned where
  keeps := by
    intro s a t hs h
    unfold step at h
    split at h
    · cases h
      exact hs
    · split at h
      · cases h
      · rcases Option.map_eq_some_iff.mp h with ⟨w,hw,rfl⟩
        exact act_owned configured_mode replyHint s.memory s.work w a hs hw
  unseen := by
    intro s a ha
    cases a with
    | change memory => rfl
    | _ => cases ha
  determined := by
    intro s t a ha hs hst
    have hact := act_steady configured_mode replyHint s.work hs s.memory t.memory a
    rcases s with ⟨memory₁,w⟩
    rcases t with ⟨memory₂,w₂⟩
    obtain rfl : w = w₂ := hst
    cases a with
    | change memory => cases ha
    | _ =>
      simp only [step, hact]
      split
      · rfl
      · rw [Option.map_map, Option.map_map]
        rfl

end Steady

section Calls

/-- The one operation that keeps the caller's pointers, unless both are null. -/
def borrows : Operation → Prop
  | .removeFromContainer keys values => keys ≠ none ∨ values ≠ none
  | _ => False

theorem borrows_inv (operation : Operation) (h : borrows operation) :
    ∃ keys values, operation = .removeFromContainer keys values ∧
      (keys ≠ none ∨ values ≠ none) := by
  cases operation with
  | removeFromContainer keys values => exact ⟨keys,values,rfl,h⟩
  | _ => exact h.elim

theorem loadVector_none_iff {A : Type} (memory : Memory) (store : Addr → Option A)
    (p : Option Addr) (r : Option (List (Option A))) (h : loadVector memory store p = .ok r) :
    r = none ↔ p = none := by
  rcases p with _ | a
  · cases h
    exact ⟨fun _ => rfl,fun _ => rfl⟩
  · rcases bind_eq_ok h with ⟨ptrs,_,h⟩
    rcases bind_eq_ok h with ⟨objects,_,h⟩
    cases h
    exact ⟨(fun hn => nomatch hn),(fun hn => nomatch hn)⟩

theorem read_removal (memory : Memory) (operation : Operation) (ks : Option (List KeyPtr))
    (vs : Option (List ValuePtr)) (h : operation.read memory = .ok (.removeFromContainer ks vs)) :
    ∃ keys values, operation = .removeFromContainer keys values ∧ (ks = none ↔ keys = none) ∧
      (vs = none ↔ values = none) := by
  cases operation with
  | byValue method hm =>
    cases h
    cases hm
  | removeFromContainer keys values =>
    rcases bind_eq_ok h with ⟨ks',hks,h⟩
    rcases bind_eq_ok h with ⟨vs',hvs,h⟩
    cases h
    exact ⟨keys,values,rfl,loadVector_none_iff memory _ keys ks hks,
      loadVector_none_iff memory _ values vs hvs⟩
  | _ =>
    rcases bind_eq_ok h with ⟨_,_,h⟩
    first
      | cases h
      | (rcases bind_eq_ok h with ⟨_,_,h⟩
         cases h)

theorem contents_inv (memory : Memory) (call : Call) (c : Contents)
    (h : call.contents memory = .ok c) :
    load memory.keys call.key = .ok c.key ∧ loadPtr memory.hints call.hint = .ok c.hint ∧
      call.operation.read memory = .ok c.method ∧ call.clientId = c.clientId := by
  rcases bind_eq_ok h with ⟨key,hkey,h⟩
  rcases bind_eq_ok h with ⟨hint,hhint,h⟩
  rcases bind_eq_ok h with ⟨method,hmethod,h⟩
  cases h
  exact ⟨hkey,hhint,hmethod,rfl⟩

variable {T : Type} (lib : Libdeflate) (client : SmartClient) (addresses : AddressOrder)

def copied (c : Contents) : Except Fault (Work T) := do
  let plan ← smartPlan lib client client.maxRpcSize c.key c.hint c.clientId addresses c.method
  .ok { tasks := (tasksOf plan).1, remainder := (tasksOf plan).2 }

def removal (c : Contents) (keys values : Option Addr) : Work T :=
  { tasks := [⟨resolveHint c.key c.hint,.borrowed c.key (resolveHint c.key c.hint)
    (client.effectiveClientId c.clientId) keys values⟩] }

theorem capture_removal (memory : Memory) (call : Call) (c : Contents) (keys values : Option Addr)
    (hop : call.operation = .removeFromContainer keys values) (h : call.contents memory = .ok c) :
    capture lib client addresses memory call = .ok (removal (T := T) client c keys values) := by
  rcases contents_inv memory call c h with ⟨hkey,hhint,_,hid⟩
  simp only [capture, hkey, hhint, hop, hid, bind, Except.bind, removal]

theorem capture_copied (memory : Memory) (call : Call) (c : Contents)
    (hop : ∀ keys values, call.operation ≠ .removeFromContainer keys values)
    (h : call.contents memory = .ok c) :
    capture lib client addresses memory call = copied (T := T) lib client addresses c := by
  rcases contents_inv memory call c h with ⟨hkey,hhint,hread,hid⟩
  rcases call with ⟨key,hint,operation,id⟩
  dsimp only at hkey hhint hread hid hop
  cases operation with
  | removeFromContainer keys values => exact absurd rfl (hop keys values)
  | _ => simp only [capture, hkey, hhint, hread, hid, copied, bind, Except.bind]

theorem tasksOf_steady (plan : Plan) :
    (∀ task ∈ (tasksOf plan).1, Steady task.action) ∧
      ∀ calls ∈ (tasksOf plan).2, ∀ res_hint, ∀ task ∈ calls res_hint, Steady task.action := by
  have hcopies : ∀ (calls : List Dispatch) task, task ∈ calls.map taskOf → Steady task.action := by
    intro calls task ht
    rcases List.mem_map.mp ht with ⟨call,_,rfl⟩
    exact fun _ _ => rfl
  rcases plan with call | (result | calls) | plan
  · exact ⟨hcopies [call],fun _ h => nomatch h⟩
  · exact ⟨hcopies [],fun _ h => nomatch h⟩
  · exact ⟨hcopies calls,fun _ h => nomatch h⟩
  · refine ⟨hcopies [plan.create_future],fun calls h res_hint => ?_⟩
    rcases Option.map_eq_some_iff.mp h with ⟨made,_,rfl⟩
    exact hcopies (made res_hint)

theorem copied_owned (c : Contents) (w : Work T) (h : copied lib client addresses c = .ok w) :
    Owned w := by
  rcases bind_eq_ok h with ⟨plan,_,he⟩
  cases he
  exact ⟨(tasksOf_steady plan).1,(tasksOf_steady plan).2⟩

/-- Two calls with the same contents leave the same work behind, and it is
owned unless pointers are kept. -/
theorem capture_same (memory₁ memory₂ : Memory) (call₁ call₂ : Call) (c : Contents)
    (h₁ : call₁.contents memory₁ = .ok c) (h₂ : call₂.contents memory₂ = .ok c)
    (hop : ¬borrows call₁.operation) :
    capture (T := T) lib client addresses memory₁ call₁ =
        capture lib client addresses memory₂ call₂ ∧
      ∀ w : Work T, capture lib client addresses memory₁ call₁ = .ok w → Owned w := by
  have hread₁ := (contents_inv memory₁ call₁ c h₁).2.2.1
  have hread₂ := (contents_inv memory₂ call₂ c h₂).2.2.1
  by_cases hremoval : ∃ ks vs, c.method = .removeFromContainer ks vs
  · rcases hremoval with ⟨ks,vs,hm⟩
    rw [hm] at hread₁ hread₂
    rcases read_removal memory₁ _ ks vs hread₁ with ⟨keys,values,he₁,hk₁,hv₁⟩
    rcases read_removal memory₂ _ ks vs hread₂ with ⟨keys₂,values₂,he₂,hk₂,hv₂⟩
    rw [he₁] at hop
    have hkeys : keys = none := by_contra (fun hne => hop (Or.inl hne))
    have hvalues : values = none := by_contra (fun hne => hop (Or.inr hne))
    obtain rfl : keys₂ = none := hk₂.mp (hk₁.mpr hkeys)
    obtain rfl : values₂ = none := hv₂.mp (hv₁.mpr hvalues)
    subst hkeys hvalues
    rw [capture_removal lib client addresses memory₁ call₁ c none none he₁ h₁,
      capture_removal lib client addresses memory₂ call₂ c none none he₂ h₂]
    refine ⟨rfl,fun w hw => ?_⟩
    cases hw
    refine ⟨fun task ht => ?_,fun _ h => nomatch h⟩
    cases List.mem_singleton.mp ht
    exact fun _ _ => rfl
  · have hne : ∀ (memory : Memory) (call : Call), call.operation.read memory = .ok c.method →
        ∀ keys values, call.operation ≠ .removeFromContainer keys values := by
      intro memory call hread keys values he
      rw [he] at hread
      rcases bind_eq_ok hread with ⟨ks,_,hread⟩
      rcases bind_eq_ok hread with ⟨vs,_,hread⟩
      exact hremoval ⟨ks,vs,(Except.ok.inj hread).symm⟩
    rw [capture_copied lib client addresses memory₁ call₁ c (hne memory₁ call₁ hread₁) h₁,
      capture_copied lib client addresses memory₂ call₂ c (hne memory₂ call₂ hread₂) h₂]
    exact ⟨rfl,fun w hw => copied_owned lib client addresses c w hw⟩

end Calls

section Attempt

variable {T : Type} (configured_mode : Mode) (replyHint : T → KeyHint)

def node : Client := ⟨"node:50051".toList,0⟩

def readyShared : Shared := { routing_table := { max_shards := 1 }, is_ready := true }

def routedTo (shard : Int32) : Shared :=
  { readyShared with routing_table :=
    { max_shards := 1, routing_table := AList.singleton (NodeRole.MASTER,shard) node } }

def noFailure : Failures := {}

def attempt (shard : Int32) (memory : Memory) : List (Action T) :=
  [.environment readyShared,.execute true noFailure,.execute true noFailure,
    .execute true noFailure,.environment (routedTo shard),.execute true noFailure,
    .execute true noFailure,.execute true noFailure,.change memory,.execute true noFailure]

theorem routedTo_master (shard : Int32) :
    (routedTo shard).routing_table.getRoute shard .MASTER = some node := by
  simp [routedTo, RoutingTable.getRoute, AList.lookup]

theorem routedTo_backup (shard : Int32) :
    (routedTo shard).routing_table.getRoute shard .BACKUP = none := by
  simp [routedTo, RoutingTable.getRoute, AList.lookup]

def workingOn (task : Task) (memory : Memory) (shared : Shared) (pc : ExecutePc T) : State T :=
  ⟨memory,{ tasks := [task], shared := shared, pc := pc }⟩

theorem choosing_step (memory : Memory) (task : Task) (shard : Int32) (counter : UInt32)
    (hshard : selectShard task.hint 1 0 = .ok (shard,counter)) :
    step configured_mode replyHint (workingOn task memory readyShared (.choosingShard 1))
        (.execute true noFailure) =
      some (workingOn task memory { readyShared with random_counter := counter }
        (.readingMaster shard)) := by
  have hstep : executeStep (T := T) configured_mode task.hint true noFailure readyShared
      (.choosingShard 1) =
        some (.ok ⟨{ readyShared with random_counter := counter },.readingMaster shard,false⟩) := by
    show some ((selectShard task.hint 1 0).map _) = _
    rw [hshard]
    rfl
  show ((executeStep configured_mode task.hint true noFailure readyShared
    (.choosingShard 1)).map _).map _ = _
  rw [hstep]
  rfl

theorem sending_step (memory : Memory) (task : Task) (shard : Int32) (request : StandaloneCall)
    (hrequest : task.action.request memory = .ok request) :
    (step configured_mode replyHint
      (workingOn task memory (routedTo shard) (.sending (some node) none))
        (.execute true noFailure)).map (fun s => s.work.sent) = some [(node,request)] := by
  have hread : (workingOn (T := T) task memory (routedTo shard)
      (.sending (some node) none)).work.request memory = .ok (some request) := by
    show (task.action.request memory).map some = _
    rw [hrequest]
    rfl
  have hstep : executeStep (T := T) configured_mode task.hint true noFailure (routedTo shard)
      (.sending (some node) none) = some (.ok ⟨routedTo shard,.awaiting node none,false⟩) := rfl
  show ((match (workingOn (T := T) task memory (routedTo shard)
    (.sending (some node) none)).work.request memory with
    | .error f => _
    | .ok request => _ : Option (Work T)).map _).map _ = _
  rw [hread]
  show (((executeStep configured_mode task.hint true noFailure (routedTo shard)
    (.sending (some node) none)).map _).map _).map _ = _
  rw [hstep]
  rfl

theorem attempt_sends (memory memory' : Memory) (task : Task) (request : StandaloneCall)
    (shard : Int32) (counter : UInt32) (hshard : selectShard task.hint 1 0 = .ok (shard,counter))
    (hrequest : task.action.request memory' = .ok request) :
    (run (step configured_mode replyHint) ⟨memory,{ tasks := [task] }⟩
      (attempt shard memory')).map (fun s => s.work.sent) = some [(node,request)] := by
  have hmaster : step configured_mode replyHint
      (workingOn task memory (routedTo shard) (.readingMaster shard)) (.execute true noFailure) =
        some (workingOn task memory (routedTo shard) (.readingBackup shard (some node))) := by
    rw [← routedTo_master shard]
    rfl
  have hbackup : step configured_mode replyHint
      (workingOn task memory (routedTo shard) (.readingBackup shard (some node)))
      (.execute true noFailure) =
        some (workingOn task memory (routedTo shard) (.selectingMode (some node) none)) := by
    rw [← routedTo_backup shard]
    rfl
  rw [attempt, run_step _ _ (workingOn task memory readyShared .waitingReady) _ _ rfl,
    run_step _ _ (workingOn task memory readyShared .readingShards) _ _ rfl,
    run_step _ _ (workingOn task memory readyShared (.choosingShard 1)) _ _ rfl,
    run_step _ _ _ _ _ (choosing_step configured_mode replyHint memory task shard counter hshard),
    run_step _ _ (workingOn task memory (routedTo shard) (.readingMaster shard)) _ _ rfl,
    run_step _ _ _ _ _ hmaster, run_step _ _ _ _ _ hbackup,
    run_step _ _ (workingOn task memory (routedTo shard) (.sending (some node) none)) _ _ rfl,
    run_step _ _ (workingOn task memory' (routedTo shard) (.sending (some node) none)) _ _ rfl]
  have hsend := sending_step configured_mode replyHint memory' task shard request hrequest
  rcases Option.map_eq_some_iff.mp hsend with ⟨last,hlast,hsent⟩
  rw [run_step _ _ last _ _ hlast]
  exact congrArg some hsent

def emptied : Memory where
  keys := fun _ => none
  values := fun _ => none
  orderedKeys := fun _ => none
  orderedValues := fun _ => none
  hints := fun _ => none
  vectors := fun _ => some []
  maps := fun _ => none

def filled : Memory :=
  { emptied with
    keys := fun _ => some sampleKey
    values := fun _ => some (.int 0)
    vectors := fun _ => some [some 0] }

theorem read_emptied (keys values : Option Addr) :
    (Operation.removeFromContainer keys values).read emptied =
      .ok (.removeFromContainer (keys.map (fun _ => [])) (values.map (fun _ => []))) := by
  rcases keys with _ | k <;> rcases values with _ | v <;> rfl

theorem read_filled (keys values : Option Addr) :
    (Operation.removeFromContainer keys values).read filled =
      .ok (.removeFromContainer (keys.map (fun _ => [some sampleKey]))
        (values.map (fun _ => [some (.int 0)]))) := by
  rcases keys with _ | k <;> rcases values with _ | v <;> rfl

theorem removal_sends (lib : Libdeflate) (client : SmartClient) (addresses : AddressOrder)
    (memory memory' : Memory) (call : Call) (c : Contents) (keys values : Option Addr)
    (hop : call.operation = .removeFromContainer keys values) (h : call.contents memory = .ok c)
    (method : Method)
    (hread : (Operation.removeFromContainer keys values).read memory' = .ok method)
    (shard : Int32) (counter : UInt32)
    (hshard : selectShard (resolveHint c.key c.hint) 1 0 = .ok (shard,counter)) :
    sentBy configured_mode replyHint lib client addresses memory call (attempt shard memory') =
      some [(node,⟨c.key,resolveHint c.key c.hint,client.effectiveClientId c.clientId,
        method⟩)] := by
  rw [sentBy, capture_removal lib client addresses memory call c keys values hop h]
  refine attempt_sends configured_mode replyHint memory memory' _ _ shard counter hshard ?_
  show ((Operation.removeFromContainer keys values).read memory').bind _ = _
  rw [hread]
  rfl

end Attempt

/-- Two workers with the same contents, replies and topology send the same,
whatever their callers do to the arguments, exactly if the operation is not a
removal by vectors of the caller. -/
theorem arguments_captured_iff {T : Type} (configured_mode : Mode) (replyHint : T → KeyHint)
    (lib : Libdeflate) (client : SmartClient) (addresses : AddressOrder)
    (memory₁ memory₂ : Memory) (call₁ call₂ : Call) (c : Contents)
    (h₁ : call₁.contents memory₁ = .ok c) (h₂ : call₂.contents memory₂ = .ok c) :
    (∀ as bs : List (Action T),
      as.filter (fun a => !isChange a) = bs.filter (fun a => !isChange a) →
      sentBy configured_mode replyHint lib client addresses memory₁ call₁ as =
        sentBy configured_mode replyHint lib client addresses memory₂ call₂ bs) ↔
      ¬borrows call₁.operation := by
  constructor
  · intro h hborrows
    rcases borrows_inv call₁.operation hborrows with ⟨keys,values,hop₁,hne⟩
    have hread₁ := (contents_inv memory₁ call₁ c h₁).2.2.1
    have hread₂ := (contents_inv memory₂ call₂ c h₂).2.2.1
    rw [hop₁] at hread₁
    rcases bind_eq_ok hread₁ with ⟨ks,hks,hrest⟩
    rcases bind_eq_ok hrest with ⟨vs,hvs,he⟩
    have hks := loadVector_none_iff memory₁ _ keys ks hks
    have hvs := loadVector_none_iff memory₁ _ values vs hvs
    rw [← Except.ok.inj he] at hread₂
    rcases read_removal memory₂ _ ks vs hread₂ with ⟨keys₂,values₂,hop₂,hks₂,hvs₂⟩
    rcases (selectShard_ok_iff (resolveHint c.key c.hint) 1 0).mpr (by decide) with
      ⟨⟨shard,counter⟩,hshard⟩
    have hsame := h (attempt shard emptied) (attempt shard filled) rfl
    rw [removal_sends configured_mode replyHint lib client addresses memory₁ emptied call₁ c keys
        values hop₁ h₁ _ (read_emptied keys values) shard counter hshard,
      removal_sends configured_mode replyHint lib client addresses memory₂ filled call₂ c keys₂
        values₂ hop₂ h₂ _ (read_filled keys₂ values₂) shard counter hshard] at hsame
    -- the vectors behind a pointer that is not null differ in length
    rcases keys with _ | k
    · obtain rfl := hks₂.mp (hks.mpr rfl)
      rcases values with _ | v
      · exact hne.elim (fun hk => hk rfl) (fun hv => hv rfl)
      · rcases values₂ with _ | v₂ <;> cases hsame
    · rcases keys₂ with _ | k₂ <;> cases hsame
  · intro hop as bs hab
    rcases capture_same lib client addresses memory₁ memory₂ call₁ call₂ c h₁ h₂ hop with
      ⟨hsame,howned⟩
    rw [sentBy, sentBy, ← hsame]
    rcases hwork : capture (T := T) lib client addresses memory₁ call₁ with _ | w
    · rfl
    · have hagree := runs_agree _ _ _ _ (step_hides configured_mode replyHint) ⟨memory₁,w⟩
        ⟨memory₂,w⟩ as bs (howned w hwork) rfl hab
      have hsent := congrArg (Option.map Work.sent) hagree
      rwa [Option.map_map, Option.map_map] at hsent

def oneKey : Memory :=
  { emptied with
    keys := fun _ => some sampleKey
    vectors := fun _ => some [some 0] }

def removeKeys : Call := ⟨0,none,.removeFromContainer (some 1) none,7⟩

theorem arguments_captured_iff_element :
    (∀ as bs : List (Action UInt32),
      as.filter (fun a => !isChange a) = bs.filter (fun a => !isChange a) →
      sentBy .MASTER (fun _ => ⟨0,0⟩) storedLibdeflate {} givenOrder oneKey
          ⟨0,none,.getContainerValue 1,7⟩ as =
        sentBy .MASTER (fun _ => ⟨0,0⟩) storedLibdeflate {} givenOrder oneKey
          ⟨2,none,.getContainerValue 3,7⟩ bs) ↔
      ¬borrows (.getContainerValue 1) :=
  arguments_captured_iff .MASTER (fun _ => ⟨0,0⟩) storedLibdeflate {} givenOrder oneKey oneKey
    ⟨0,none,.getContainerValue 1,7⟩ ⟨2,none,.getContainerValue 3,7⟩
    ⟨sampleKey,none,.getContainerValue sampleKey,7⟩ rfl rfl

/-- A removal whose vector is cleared, or filled anew, before the attempt. -/
theorem removal_follows_caller :
    ∃ as bs : List (Action UInt32),
      as.filter (fun a => !isChange a) = bs.filter (fun a => !isChange a) ∧
      sentBy .MASTER (fun _ => ⟨0,0⟩) storedLibdeflate {} givenOrder oneKey removeKeys as ≠
        sentBy .MASTER (fun _ => ⟨0,0⟩) storedLibdeflate {} givenOrder oneKey removeKeys bs := by
  rcases (selectShard_ok_iff (resolveHint sampleKey none) 1 0).mpr (by decide) with
    ⟨⟨shard,counter⟩,hshard⟩
  refine ⟨attempt shard emptied,attempt shard oneKey,rfl,?_⟩
  rw [removal_sends .MASTER (fun _ => ⟨0,0⟩) storedLibdeflate {} givenOrder oneKey emptied
      removeKeys ⟨sampleKey,none,.removeFromContainer (some [some sampleKey]) none,7⟩ (some 1) none
      rfl rfl _ (read_emptied (some 1) none) shard counter hshard,
    removal_sends .MASTER (fun _ => ⟨0,0⟩) storedLibdeflate {} givenOrder oneKey oneKey
      removeKeys ⟨sampleKey,none,.removeFromContainer (some [some sampleKey]) none,7⟩ (some 1) none
      rfl rfl (.removeFromContainer (some [some sampleKey]) none) rfl shard counter hshard]
  intro h
  cases h

end HurriCache.ArgumentCapture
