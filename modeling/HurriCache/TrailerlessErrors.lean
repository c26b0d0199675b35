import HurriCache.AttemptChain
import HurriCache.TopologyRace
import HurriCache.TopologyReplacement

/-!
# Failed preconditions without a route

The comments on the guard speak of a redirect by the route trailer. Where the
trailer is missing the guard takes the status message for one: its words
become targets, clients are created for them and the call goes on there. The
error comes back unharmed only where the message names nothing new and no
other client is at hand. In a run where that holds of every such reply, all
clients belong to targets of the topology or of a trailer.
-/

set_option autoImplicit false

namespace HurriCache.TrailerlessErrors
open HurriCache.ClientTypes HurriCache.CallOutcomes HurriCache.TopologyTable
open HurriCache.TopologyTable.RoutingTable HurriCache.TableEffects
open HurriCache.ShardSelection HurriCache.AttemptGuard HurriCache.AttemptChain
open HurriCache.ExecuteMachine HurriCache.TopologyRace HurriCache.TopologyReplacement
open HurriCache.PartialRun

def withoutRoute (message : Text) : CallException := .grpc .FAILED_PRECONDITION message []

/-- The message is blank, or it names no other target and there is no other
client to turn to. -/
def unheeded (message : Text) (current : Client) (fallback : SharedClient) : Bool :=
  (trimCopy message).isEmpty ||
    (!isNamed (parseRoute message).master_target (some current) &&
      !isNamed (parseRoute message).backup_target (some current) &&
      (fallback.isNone || fallback == some current))

section Attempt

theorem redirectOf_withoutRoute (message : Text) :
    redirectOf (withoutRoute message) =
      if (trimCopy message).isEmpty then none else some (parseRoute message) := rfl

theorem findNamed_unnamed (createFails : Text → Option CallException) (table : RoutingTable)
    (target : Text) (current : SharedClient) (h : isNamed target current = false) :
    findNamed createFails table target current = (.ok none,table) := by
  rw [findNamed, h, if_neg Bool.false_ne_true]

theorem findNamed_found (table : RoutingTable) (target : Text) (current : SharedClient) :
    ∃ found, (findNamed (fun _ => none) table target current).1 = .ok found ∧
      (isNamed target current = true → ∃ client, found = some client) := by
  unfold findNamed
  split
  next hn =>
    unfold getOrCreateByTarget
    split
    next client hl => exact ⟨some client,rfl,fun _ => ⟨client,rfl⟩⟩
    next hl => exact ⟨_,rfl,fun _ => ⟨_,rfl⟩⟩
  next hn => exact ⟨none,rfl,fun h => absurd h hn⟩

theorem direct_eq_none (current : Client) (fallback : SharedClient)
    (h : (fallback.isNone || fallback == some current) = true) :
    direct (some current) fallback = none := by
  cases fallback with
  | none => rfl
  | some client =>
    have he : some client = some current := by simpa using h
    rw [direct]
    exact if_pos he

theorem direct_eq_some (current client : Client) (h : client ≠ current) :
    direct (some current) (some client) = some (client,none) := by
  rw [direct]
  exact if_neg (fun he => h (Option.some.inj he))

theorem handle_unheeded (failures : Failures) (message : Text) (current : Client)
    (fallback : SharedClient) (s : GuardState)
    (h : unheeded message current fallback = true) :
    handle failures (withoutRoute message) (some current) fallback s =
      (.rethrow (withoutRoute message),s) := by
  have hroute := redirectOf_withoutRoute message
  by_cases hblank : (trimCopy message).isEmpty = true
  · rw [if_pos hblank] at hroute
    have hreached : isUnavailable (withoutRoute message) = false := rfl
    simp only [handle, hroute, hreached, Bool.false_eq_true, if_false]
  · rw [if_neg hblank] at hroute
    simp only [unheeded, hblank, Bool.false_or, Bool.and_eq_true, Bool.not_eq_true'] at h
    obtain ⟨⟨hmaster,hbackup⟩,hfallback⟩ := h
    simp only [handle, hroute, findNamed_unnamed failures.createFails _ _ _ hmaster,
      findNamed_unnamed failures.createFails _ _ _ hbackup, hbackup, afterRedirect,
      Bool.false_eq_true, if_false, direct_eq_none current fallback hfallback, Next.ofOption]

theorem handle_heeded (message : Text) (current : Client) (fallback : SharedClient)
    (s : GuardState) (hown : OwnTargets s.table)
    (h : unheeded message current fallback = false) :
    ∃ client left, (handle {} (withoutRoute message) (some current) fallback s).1 =
      .retry client left := by
  simp only [unheeded, Bool.or_eq_false_iff] at h
  obtain ⟨hblank,hnames⟩ := h
  have hroute := redirectOf_withoutRoute message
  rw [if_neg (by rw [hblank]; exact Bool.false_ne_true)] at hroute
  obtain ⟨new_master,hm,hmaster⟩ := findNamed_found s.table (parseRoute message).master_target
    (some current)
  obtain ⟨named,hb,hbackup⟩ := findNamed_found
    (findNamed (fun _ => none) s.table (parseRoute message).master_target (some current)).2
    (parseRoute message).backup_target (some current)
  have hmown := grows_own _ _ (findNamed_grows (fun _ => none) s.table
    (parseRoute message).master_target (some current)) hown
  simp only [handle, hroute, hm, hb]
  cases new_master with
  | some client => exact ⟨client,_,rfl⟩
  | none =>
    have hnomaster : isNamed (parseRoute message).master_target (some current) = false := by
      by_contra hn
      obtain ⟨client,hc⟩ := hmaster (by simpa using hn)
      cases hc
    by_cases hn : isNamed (parseRoute message).backup_target (some current) = true
    · obtain ⟨client,rfl⟩ := hbackup hn
      have hother := findNamed_other (fun _ => none) _ _ current client hmown hb
      simp only [hn, if_true, afterRedirect, direct_eq_some current client hother]
      exact ⟨client,none,rfl⟩
    · rw [Bool.not_eq_true] at hn
      simp only [hnomaster, hn, Bool.not_false, Bool.true_and] at hnames
      cases fallback with
      | none => cases hnames
      | some client =>
        have hother : client ≠ current := by simpa using hnames
        simp only [hn, Bool.false_eq_true, if_false, afterRedirect,
          direct_eq_some current client hother]
        exact ⟨client,none,rfl⟩

/-- Whatever can be created and whatever the nodes reply, an attempt that ends
with the error delivers it and leaves the registered targets alone. -/
def Undisturbed (s : GuardState) (current : Client) (fallback : SharedClient) (message : Text) :
    Prop :=
  ∀ (T : Type) (failures : List Client → Failures)
    (reply : List Client → Client → Outcome T),
    reply s.attempts current = .error (withoutRoute message) →
    ∃ n t, attemptWithGuard failures reply n (some current) fallback s =
        some (.ok (.error (withoutRoute message)),t) ∧
      ∀ target, (∃ client, t.table.getRouteByTarget target = some client) ↔
        ∃ client, s.table.getRouteByTarget target = some client

theorem undisturbed_iff (s : GuardState) (hown : OwnTargets s.table) (current : Client)
    (fallback : SharedClient) (message : Text) :
    Undisturbed s current fallback message ↔ unheeded message current fallback = true := by
  constructor
  · intro h
    by_contra hheeded
    rw [Bool.not_eq_true] at hheeded
    -- the node that the call goes on to would have answered
    let reply : List Client → Client → Outcome Unit := fun past _ =>
      if past = s.attempts then .error (withoutRoute message) else .ok ()
    obtain ⟨n,t,hrun,_⟩ := h Unit (fun _ => {}) reply (if_pos rfl)
    have hfirst : reply s.attempts current = .error (withoutRoute message) := if_pos rfl
    obtain ⟨client,left,hnext⟩ := handle_heeded message current fallback
      { s with attempts := s.attempts++[current] } hown hheeded
    have hattempts := (handle_spec {} (withoutRoute message) current fallback
      { s with attempts := s.attempts++[current] } hown).attempts
    cases n with
    | zero => cases hrun
    | succ n =>
      simp only [attemptWithGuard, hfirst] at hrun
      rcases hh : handle {} (withoutRoute message) (some current) fallback
        { s with attempts := s.attempts++[current] } with ⟨next,u⟩
      rw [hh] at hnext hattempts
      cases hnext
      simp only [hh] at hrun
      cases n with
      | zero => cases hrun
      | succ n =>
        have hsecond : reply u.attempts client = .ok () := by
          rw [hattempts]
          exact if_neg (by simp)
        simp only [attemptWithGuard, hsecond] at hrun
        cases hrun
  · intro hunheeded T failures reply hfirst
    have hh := handle_unheeded (failures (s.attempts++[current])) message current fallback
      { s with attempts := s.attempts++[current] } hunheeded
    refine ⟨1,{ s with attempts := s.attempts++[current] },?_,fun target => Iff.rfl⟩
    simp only [attemptWithGuard, hfirst, hh]

end Attempt

section Names

variable {T : Type}

def topologyNames : Action T → List Text
  | .update _ peer_routings _ => peer_routings.map (·.target)
  | _ => []

def trailerNames : Action T → List Text
  | .reply (.error (.grpc .FAILED_PRECONDITION _ route_trailer)) =>
    if route_trailer.isEmpty then []
    else [(parseRoute route_trailer).master_target,(parseRoute route_trailer).backup_target]
  | _ => []

def namesGiven (actions : List (Action T)) : List Text :=
  actions.flatMap (fun a => topologyNames a++trailerNames a)

theorem namesGiven_append (actions : List (Action T)) (a : Action T) :
    namesGiven (actions++[a]) = namesGiven actions++(topologyNames a++trailerNames a) := by
  simp [namesGiven]

def leavesMessage (s : State T) : Action T → Bool
  | .reply (.error (.grpc .FAILED_PRECONDITION message [])) =>
    match s.pc with
    | .awaiting current fallback => unheeded message current fallback
    | _ => true
  | _ => true

end Names

section Tables

structure Given (names : List Text) (table : RoutingTable) : Prop where
  created : ∀ target, table.created target ≠ 0 → target ∈ names
  targets : ∀ target client, table.getRouteByTarget target = some client →
    target ∈ names ∧ client.target ∈ names
  routes : ∀ shard role client, table.getRoute shard role = some client → client.target ∈ names

theorem given_mono (names more : List Text) (table : RoutingTable) (h : Given names table) :
    Given (names++more) table where
  created := fun target ht => List.mem_append_left more (h.created target ht)
  targets := fun target client hc =>
    ⟨List.mem_append_left more (h.targets target client hc).1,
      List.mem_append_left more (h.targets target client hc).2⟩
  routes := fun shard role client hr => List.mem_append_left more (h.routes shard role client hr)

theorem given_grows (names : List Text) (before after : RoutingTable) (hgrows : Grows before after)
    (hother : ∀ target, target ∉ names →
      after.getRouteByTarget target = before.getRouteByTarget target ∧
        after.created target = before.created target)
    (h : Given names before) : Given names after := by
  refine ⟨fun target ht => ?_,fun target client hc => ?_,fun shard role client hr => ?_⟩
  · by_contra hnot
    rw [(hother target hnot).2] at ht
    exact hnot (h.created target ht)
  · rcases hgrows.clients target with ⟨hsame,_⟩ | ⟨hnone,hnew,_⟩
    · exact h.targets target client (hsame ▸ hc)
    · have hmem : target ∈ names := by
        by_contra hnot
        rw [(hother target hnot).1, hnone] at hc
        cases hc
      rw [hnew] at hc
      cases hc
      exact ⟨hmem,hmem⟩
  · rw [getRoute, hgrows.routes] at hr
    exact h.routes shard role client hr

theorem getOrCreateByTarget_other (createFails : Text → Option CallException)
    (table : RoutingTable) (target other : Text) (h : other ≠ target) :
    (getOrCreateByTarget createFails table target).2.getRouteByTarget other =
        table.getRouteByTarget other ∧
      (getOrCreateByTarget createFails table target).2.created other = table.created other := by
  unfold getOrCreateByTarget
  split
  · exact ⟨rfl,rfl⟩
  · split
    · exact ⟨rfl,rfl⟩
    · exact ⟨AList.lookup_insert_ne h,Function.update_of_ne h _ _⟩

theorem given_findNamed (createFails : Text → Option CallException) (names : List Text)
    (table : RoutingTable) (target : Text) (current : SharedClient)
    (hname : isNamed target current = true → target ∈ names) (h : Given names table) :
    Given names (findNamed createFails table target current).2 ∧
      ∀ client, (findNamed createFails table target current).1 = .ok (some client) →
        client.target ∈ names := by
  unfold findNamed
  split
  next hn =>
    have hafter : Given names (getOrCreateByTarget createFails table target).2 :=
      given_grows names table _ (getOrCreateByTarget_grows createFails table target)
        (fun other hother => getOrCreateByTarget_other createFails table target other
          (fun he => hother (he ▸ hname hn))) h
    refine ⟨hafter,fun client hc => ?_⟩
    cases hfound : (getOrCreateByTarget createFails table target).1 with
    | error thrown =>
      simp only [hfound] at hc
      cases hc
    | ok found =>
      simp only [hfound] at hc
      cases hc
      exact (hafter.targets target client
        (getOrCreateByTarget_known createFails table target client hfound)).2
  next => exact ⟨h,fun client hc => by cases hc⟩

theorem given_update (createFails : Text → Option CallException) (names : List Text)
    (table : RoutingTable) (max_shards : Int32) (peers : List PeerRouting)
    (h : Given names table) :
    Given (names++peers.map (·.target))
      (updateFromCoordinator createFails table max_shards peers).table := by
  have hmid : Given (names++peers.map (·.target))
      (afterCreation createFails table max_shards peers) := by
    refine given_grows _ table _ (afterCreation_grows createFails table max_shards peers)
      (fun target hnot => ?_) (given_mono names _ table h)
    refine afterCreation_unlisted createFails table max_shards peers target (fun hnew => hnot ?_)
    obtain ⟨peer,hpeer,rfl⟩ := (mem_newTargets peers target).mp hnew
    exact List.mem_append_right names (List.mem_map_of_mem hpeer)
  rcases update_cases createFails table max_shards peers with
    ⟨e,he⟩ | ⟨_,hlookup,hcreated,_,hrouted,_⟩
  · rw [he]
    exact hmid
  · have htargets : ∀ target client, (updateFromCoordinator createFails table max_shards
        peers).table.getRouteByTarget target = some client →
        target ∈ names++peers.map (·.target) ∧ client.target ∈ names++peers.map (·.target) := by
      intro target client hc
      rw [hlookup] at hc
      split at hc
      · exact hmid.targets target client hc
      · cases hc
    refine ⟨fun target ht => ?_,htargets,fun shard role client hr => ?_⟩
    · rw [hcreated] at ht
      exact hmid.created target ht
    · obtain ⟨target,ht⟩ := hrouted shard role client hr
      exact (htargets target client ht).2

end Tables

section Runs

variable {T : Type}

def Known (names : List Text) (client : SharedClient) : Prop :=
  ∀ c, client = some c → c.target ∈ names

def Leads (names : List Text) (route : Redirect) (current : Client) : Prop :=
  (isNamed route.master_target (some current) = true → route.master_target ∈ names) ∧
    (isNamed route.backup_target (some current) = true → route.backup_target ∈ names)

def Holds (names : List Text) : ExecutePc T → Prop
  | .readingBackup _ master => Known names master
  | .selectingMode master backup => Known names master ∧ Known names backup
  | .sending current fallback => Known names current ∧ Known names fallback
  | .awaiting current fallback => current.target ∈ names ∧ Known names fallback
  | .catching e current fallback => current.target ∈ names ∧ Known names fallback ∧
      ∀ route, redirectOf e = some route → Leads names route current
  | .resolvingMaster route _ current fallback => Known names fallback ∧ Leads names route current
  | .resolvingBackup route _ current fallback new_master => Known names fallback ∧
      Known names new_master ∧ Leads names route current
  | _ => True

theorem known_mono (names more : List Text) (client : SharedClient) (h : Known names client) :
    Known (names++more) client :=
  fun c hc => List.mem_append_left more (h c hc)

theorem leads_mono (names more : List Text) (route : Redirect) (current : Client)
    (h : Leads names route current) : Leads (names++more) route current :=
  ⟨fun hn => List.mem_append_left more (h.1 hn),fun hn => List.mem_append_left more (h.2 hn)⟩

theorem holds_mono (names more : List Text) (pc : ExecutePc T) (h : Holds names pc) :
    Holds (names++more) pc := by
  cases pc with
  | readingBackup shard master => exact known_mono names more master h
  | selectingMode master backup => exact ⟨known_mono names more _ h.1,known_mono names more _ h.2⟩
  | sending current fallback => exact ⟨known_mono names more _ h.1,known_mono names more _ h.2⟩
  | awaiting current fallback =>
    exact ⟨List.mem_append_left more h.1,known_mono names more _ h.2⟩
  | catching e current fallback =>
    exact ⟨List.mem_append_left more h.1,known_mono names more _ h.2.1,
      fun route hr => leads_mono names more route current (h.2.2 route hr)⟩
  | resolvingMaster route e current fallback =>
    exact ⟨known_mono names more _ h.1,leads_mono names more route current h.2⟩
  | resolvingBackup route e current fallback new_master =>
    exact ⟨known_mono names more _ h.1,known_mono names more _ h.2.1,
      leads_mono names more route current h.2.2⟩
  | _ => trivial

theorem firstAttempt_known (names : List Text) (mode : Mode) (master_first : Bool)
    (master backup current fallback : SharedClient) (hm : Known names master)
    (hb : Known names backup)
    (h : firstAttempt mode master_first master backup = some (current,fallback)) :
    Known names current ∧ Known names fallback := by
  have hnone : Known names none := fun c hc => by cases hc
  unfold firstAttempt at h
  split at h
  · cases h
  · dsimp only at h
    split at h
    · cases h
      exact ⟨hm,hnone⟩
    · cases h
      exact ⟨hb,hnone⟩
    · split at h
      · cases h
        exact ⟨hm,hb⟩
      · cases h
        exact ⟨hb,hm⟩
    · cases h
      exact ⟨hm,hb⟩

theorem direct_holds (names : List Text) (e : CallException) (current candidate : SharedClient)
    (h : Known names candidate) :
    Holds names (attemptOrThrow e (direct current candidate) : ExecutePc T) := by
  unfold direct
  split
  · trivial
  next client =>
    split
    · trivial
    · exact ⟨h,fun c hc => by cases hc⟩

theorem afterRedirect_holds (names : List Text) (e : CallException)
    (current new_master new_backup : SharedClient) (hm : Known names new_master)
    (hb : Known names new_backup) :
    Holds names (attemptOrThrow e (afterRedirect current new_master new_backup) :
      ExecutePc T) := by
  cases new_master with
  | some client => exact ⟨hm,hb⟩
  | none => exact direct_holds names e current new_backup hb

theorem executeStep_holds (names : List Text) (configured_mode : Mode) (hint : Option KeyHint)
    (master_first : Bool) (failures : Failures) (shared : RefreshMachine.Shared)
    (pc : ExecutePc T) (m : Moved T)
    (hgiven : Given names shared.routing_table) (hpc : Holds names pc)
    (h : ExecuteStep configured_mode hint master_first failures shared pc m) :
    Given names m.shared.routing_table ∧ Holds names m.pc := by
  cases h with
  | wake | readShards | choose | noNode | giveUp | fail | refreshThrows =>
    exact ⟨hgiven,trivial⟩
  | readMaster shard => exact ⟨hgiven,fun c hc => hgiven.routes shard .MASTER c hc⟩
  | readBackup shard master => exact ⟨hgiven,hpc,fun c hc => hgiven.routes shard .BACKUP c hc⟩
  | select master backup current fallback hf =>
    exact ⟨hgiven,firstAttempt_known names _ _ master backup current fallback hpc.1 hpc.2 hf⟩
  | refuse current fallback hd =>
    exact ⟨hgiven,hpc.1 current rfl,hpc.2,fun route hr => nomatch hr⟩
  | send current fallback hd => exact ⟨hgiven,hpc.1 current rfl,hpc.2⟩
  | redirect e current fallback route hr => exact ⟨hgiven,hpc.2.1,hpc.2.2 route hr⟩
  | retry e current fallback hr hu hs => exact ⟨hgiven,direct_holds names e _ fallback hpc.2.1⟩
  | masterThrows route e thrown current fallback hm =>
    exact ⟨(given_findNamed failures.createFails names _ _ (some current) hpc.2.1 hgiven).1,trivial⟩
  | masterFound route e current fallback new_master hm =>
    obtain ⟨hafter,hfound⟩ := given_findNamed failures.createFails names _ route.master_target
      (some current) hpc.2.1 hgiven
    refine ⟨hafter,hpc.1,fun c hc => ?_,hpc.2⟩
    rw [hc] at hm
    exact hfound c hm
  | backupThrows route e thrown current fallback new_master hb =>
    exact ⟨(given_findNamed failures.createFails names _ _ (some current) hpc.2.2.2 hgiven).1,
      trivial⟩
  | backupFound route e current fallback new_master named hn =>
    obtain ⟨hafter,hfound⟩ := given_findNamed failures.createFails names _ route.backup_target
      (some current) hpc.2.2.2 hgiven
    refine ⟨hafter,afterRedirect_holds names e _ new_master _ hpc.2.1 ?_⟩
    split
    · intro c hc
      rw [hc] at hn
      exact hfound c hn
    · exact hpc.1

theorem reply_leads (s : State T) (e : CallException) (current : Client)
    (fallback : SharedClient) (route : Redirect) (hpc : s.pc = .awaiting current fallback)
    (hleaves : leavesMessage s (.reply (.error e)) = true) (hroute : redirectOf e = some route) :
    Leads (trailerNames (.reply (.error e) : Action T)) route current := by
  cases e with
  | other what => cases hroute
  | grpc code message route_trailer =>
    cases code with
    | FAILED_PRECONDITION =>
      cases route_trailer with
      | nil =>
        have hunheeded : unheeded message current fallback = true := by
          simpa only [leavesMessage, hpc] using hleaves
        have hsome := (redirectOf_withoutRoute message).symm.trans hroute
        split at hsome
        · cases hsome
        next hblank =>
          cases hsome
          simp only [unheeded, hblank, Bool.false_or, Bool.and_eq_true, Bool.not_eq_true']
            at hunheeded
          obtain ⟨⟨hmaster,hbackup⟩,_⟩ := hunheeded
          exact ⟨fun hn => absurd hn (by simp [hmaster]),fun hn => absurd hn (by simp [hbackup])⟩
      | cons c cs =>
        simp only [redirectOf, List.isEmpty_cons, Bool.false_eq_true, if_false] at hroute
        split at hroute
        · cases hroute
        · cases hroute
          exact ⟨fun _ => by simp [trailerNames],fun _ => by simp [trailerNames]⟩
    | _ => cases hroute

theorem executeReply_holds (names : List Text) (s : State T) (outcome : Outcome T)
    (pc : ExecutePc T) (hs : Holds names s.pc)
    (hleaves : leavesMessage s (.reply outcome) = true)
    (h : executeReply outcome s.pc = some pc) :
    Holds (names++(topologyNames (.reply outcome : Action T)++trailerNames (.reply outcome)))
      pc := by
  cases hpc : s.pc with
  | awaiting current fallback =>
    rw [hpc] at hs h
    cases outcome with
    | ok value =>
      cases h
      trivial
    | error e =>
      cases h
      refine ⟨List.mem_append_left _ hs.1,known_mono names _ fallback hs.2,fun route hroute => ?_⟩
      have hleads := reply_leads s e current fallback route hpc hleaves hroute
      exact ⟨fun hn => List.mem_append_right names (hleads.1 hn),
        fun hn => List.mem_append_right names (hleads.2 hn)⟩
  | _ =>
    rw [hpc] at h
    cases h

structure Led (actions : List (Action T)) (s : State T) : Prop where
  given : Given (namesGiven actions) s.shared.routing_table
  holds : Holds (namesGiven actions) s.pc

theorem step_led (call : Call) (actions : List (Action T)) (s t : State T) (a : Action T)
    (ha : leavesMessage s a = true) (hs : Led actions s) (h : step call s a = some t) :
    Led (actions++[a]) t := by
  unfold step at h
  split at h
  · cases h
  have hgiven := given_mono (namesGiven actions) (topologyNames a++trailerNames a) _ hs.given
  have hholds := holds_mono (namesGiven actions) (topologyNames a++trailerNames a) _ hs.holds
  rw [← namesGiven_append] at hgiven hholds
  cases a with
  | update max_shards peer_routings createFails =>
    cases h
    refine ⟨?_,hholds⟩
    have hupdate := given_update createFails (namesGiven actions) s.shared.routing_table
      max_shards peer_routings hs.given
    rw [namesGiven_append]
    show Given (_++(_++[])) _
    rw [List.append_nil]
    exact hupdate
  | retire u =>
    simp only [act] at h
    split at h
    · cases h
      exact ⟨hgiven,hholds⟩
    · cases h
  | ready =>
    simp only [act] at h
    split at h
    · cases h
    · cases h
      exact ⟨hgiven,hholds⟩
  | execute master_first failures =>
    obtain ⟨r,hr,rfl⟩ := Option.map_eq_some_iff.mp h
    cases r with
    | error f => exact ⟨hgiven,hholds⟩
    | ok m =>
      obtain ⟨hg,hh⟩ := executeStep_holds _ call.configured_mode call.hint master_first
        failures s.shared s.pc m hgiven hholds ((executeStep_iff _ _ _ _ _ _ _).mp hr)
      exact ⟨hg,hh⟩
  | operate ok =>
    rcases operate_cases call s t ok h with rfl | ⟨operation,rfl⟩ <;> exact ⟨hgiven,hholds⟩
  | reply outcome =>
    obtain ⟨pc,hp,rfl⟩ := reply_cases call s t outcome h
    refine ⟨hgiven,?_⟩
    rw [namesGiven_append]
    exact executeReply_holds _ s outcome pc hs.holds ha hp

theorem run_led (call : Call) (mode_override : Option Mode) (random_counter : UInt32)
    (actions : List (Action T)) (s : State T)
    (hrun : run (step call) (start mode_override random_counter) actions = some s)
    (hleaves : meets (step call) leavesMessage (start mode_override random_counter) actions =
      true) : Led actions s := by
  refine history_of_meets (step call) leavesMessage Led
    (fun as u a t ha hu h => step_led call as u t a ha hu h) [] actions
    (start mode_override random_counter) s hleaves ⟨⟨?_,?_,?_⟩,trivial⟩ hrun
  · exact fun target ht => absurd rfl ht
  · exact fun target client hc => by cases hc
  · exact fun shard role client hr => by cases hr

end Runs

/-- In every reachable table an attempt is undisturbed exactly where its message
is not heeded, and in every run whose replies without a trailer come to such
attempts, clients are created and attempted only for targets that a topology or
a trailer has named. -/
theorem trailerless_errors (callers : List ClientAccounting.Action) (c : ClientAccounting.State)
    (hreach : run ClientAccounting.step {} callers = some c) (s : GuardState)
    (htable : s.table = c.table) (current : Client) (fallback : SharedClient) (message : Text) :
    (Undisturbed s current fallback message ↔ unheeded message current fallback = true) ∧
    ∀ (T : Type) (call : Call) (mode_override : Option Mode) (random_counter : UInt32)
      (actions : List (Action T)) (u : State T),
      run (step call) (start mode_override random_counter) actions = some u →
      meets (step call) leavesMessage (start mode_override random_counter) actions = true →
      (∀ target, u.shared.routing_table.created target ≠ 0 → target ∈ namesGiven actions) ∧
      (∀ target client, u.shared.routing_table.getRouteByTarget target = some client →
        target ∈ namesGiven actions) ∧
      ∀ client left, u.pc = .awaiting client left → client.target ∈ namesGiven actions := by
  constructor
  · exact undisturbed_iff s (htable ▸ (ClientAccounting.reachable_balanced callers c hreach).own)
      current fallback message
  · intro T call mode_override random_counter actions u hrun hleaves
    obtain ⟨hgiven,hholds⟩ := run_led call mode_override random_counter actions u hrun hleaves
    refine ⟨hgiven.created,fun target client hc => (hgiven.targets target client hc).1,?_⟩
    intro client left hpc
    rw [hpc] at hholds
    exact hholds.1

section Cases

def oneNode : List ClientAccounting.Action :=
  [.arrive,.caller 0 (.updateFromCoordinator 1 [⟨['a'],.MASTER,[0]⟩] (fun _ => none))]

def work : Action ℕ := .execute true {}

def refusedCall : List (Action ℕ) :=
  [.update 1 [⟨['a'],.MASTER,[0]⟩] (fun _ => none),.ready,work,work,work,work,work,work,work,
    .operate true,.reply (.error (withoutRoute ['a'])),work,work,work]

theorem trailerless_errors_own_target :
    ∃ c u, run ClientAccounting.step {} oneNode = some c ∧
      (Undisturbed { table := c.table } ⟨['a'],0⟩ none ['a'] ↔
        unheeded ['a'] ⟨['a'],0⟩ none = true) ∧
      run (step { hint := some ⟨0,0⟩ }) (start none 0) refusedCall = some u ∧
      u.pc = .finished (.error (withoutRoute ['a'])) ∧
      ∀ target, u.shared.routing_table.created target ≠ 0 →
        target ∈ namesGiven refusedCall :=
  ⟨_,_,rfl,(trailerless_errors oneNode _ rfl { table := _ } rfl ⟨['a'],0⟩ none ['a']).1,rfl,rfl,
    ((trailerless_errors oneNode _ rfl { table := _ } rfl ⟨['a'],0⟩ none ['a']).2 ℕ
      { hint := some ⟨0,0⟩ } none 0 refusedCall _ rfl rfl).1⟩

/-- The message becomes a target, and what that target answers is delivered in
place of the error. -/
theorem message_followed :
    let s : GuardState := { table :=
      (updateFromCoordinator (fun _ => none) {} 1 [⟨['a'],.MASTER,[0]⟩]).table }
    let reply : List Client → Client → Outcome ℕ := fun past _ =>
      if past = [] then .error (withoutRoute ['b','u','s','y'])
      else .error (.grpc .UNAVAILABLE [] [])
    (∃ t, attemptWithGuard (fun _ => {}) reply 2 (some ⟨['a'],0⟩) none s =
        some (.ok (.error (.grpc .UNAVAILABLE [] [])),t) ∧
      t.table.getRouteByTarget ['b','u','s','y'] = some ⟨['b','u','s','y'],0⟩) ∧
    s.table.getRouteByTarget ['b','u','s','y'] = none ∧
    ¬ Undisturbed s ⟨['a'],0⟩ none ['b','u','s','y'] := by
  intro s reply
  have hown : OwnTargets s.table :=
    update_own (fun _ => none) {} 1 _ (fun _ _ h => nomatch h)
  refine ⟨⟨_,rfl,rfl⟩,rfl,fun h => ?_⟩
  have hunheeded := (undisturbed_iff s hown ⟨['a'],0⟩ none ['b','u','s','y']).mp h
  exact absurd hunheeded (by decide)

end Cases

end HurriCache.TrailerlessErrors
