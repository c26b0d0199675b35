import HurriCache.CallPipelines
import HurriCache.PartialRun

/-!
# Pipelines side by side

Each `runAddPipeline` has a thread of its own that makes one call at a time.
The threads step in any order on one server. A pipeline that runs alone is the
loop over its calls. Whatever the order, the container is what the requests
applied so far make of it, and those of a pipeline are a front of its plan.
-/

set_option autoImplicit false

namespace HurriCache.ConcurrentPipelines
open HurriCache.ClientTypes HurriCache.CallOutcomes HurriCache.StandaloneCalls
open HurriCache.SmartOperations HurriCache.CallPipelines HurriCache.PartialRun

/-- The loop of `runAddPipeline` between two calls. A call that throws stays at
the front. -/
structure Pipeline where
  total : UInt32 := 0
  calls : List Dispatch
  outcome : Option (Outcome UInt32) := none

def Pipeline.start : AddPlan → Pipeline
  | .immediate result => { calls := [], outcome := some (.ok result) }
  | .pipeline calls => { calls := calls }

structure State (C : Type) where
  served : Served C
  pipelines : List Pipeline

section Machine

variable {C : Type} (fails : ℕ → Option CallException) (apply : Method → C → C)
  (reply : Method → UInt32)

def advance (served : Served C) (p : Pipeline) : Option (Served C × Pipeline) :=
  match p.outcome, p.calls with
  | some _, _ => none
  | none, [] => some (served,{ p with outcome := some (.ok p.total) })
  | none, call::calls =>
    match serve fails apply reply call served with
    | (.ok value,next) => some (next,{ p with total := p.total+value, calls := calls })
    | (.error e,next) => some (next,{ p with outcome := some (.error e) })

def step (s : State C) (w : ℕ) : Option (State C) := do
  let p ← s.pipelines[w]?
  let (served,p) ← advance fails apply reply s.served p
  some ⟨served,s.pipelines.set w p⟩

inductive Advance (served : Served C) (p : Pipeline) : Served C → Pipeline → Prop where
  | finish (hout : p.outcome = none) (hcalls : p.calls = []) :
    Advance served p served { p with outcome := some (.ok p.total) }
  | apply (call : Dispatch) (calls : List Dispatch) (hout : p.outcome = none)
      (hcalls : p.calls = call::calls) (h : fails served.requests.length = none) :
    Advance served p ⟨apply call.action.method served.container,served.requests++[call]⟩
      { p with total := p.total+reply call.action.method, calls := calls }
  | fail (call : Dispatch) (calls : List Dispatch) (e : CallException) (hout : p.outcome = none)
      (hcalls : p.calls = call::calls) (h : fails served.requests.length = some e) :
    Advance served p ⟨served.container,served.requests++[call]⟩
      { p with outcome := some (.error e) }

theorem advance_cases (served next : Served C) (p q : Pipeline)
    (h : advance fails apply reply served p = some (next,q)) :
    Advance fails apply reply served p next q := by
  unfold advance at h
  split at h
  · cases h
  next hout hcalls =>
    cases h
    exact .finish hout hcalls
  next call calls hout hcalls =>
    cases hf : fails served.requests.length with
    | none =>
      simp only [serve, hf] at h
      cases h
      exact .apply call calls hout hcalls hf
    | some e =>
      simp only [serve, hf] at h
      cases h
      exact .fail call calls e hout hcalls hf

theorem step_cases (s t : State C) (w : ℕ) (h : step fails apply reply s w = some t) :
    ∃ p q, s.pipelines[w]? = some p ∧ t.pipelines = s.pipelines.set w q ∧
      Advance fails apply reply s.served p t.served q := by
  obtain ⟨p,hp,h⟩ := Option.bind_eq_some_iff.mp h
  obtain ⟨⟨next,q⟩,hq,h⟩ := Option.bind_eq_some_iff.mp h
  cases h
  exact ⟨p,q,hp,rfl,advance_cases fails apply reply s.served next p q hq⟩

/-- A pipeline that is not disturbed delivers what its loop delivers. -/
theorem run_alone (s : State C) (w : ℕ) (p : Pipeline) (hp : s.pipelines[w]? = some p)
    (hout : p.outcome = none) :
    ∃ k q, run (step fails apply reply) s (List.replicate k w) =
        some ⟨(runCalls (fun total value => total+value) p.total
          (p.calls.map (serve fails apply reply)) s.served).2,s.pipelines.set w q⟩ ∧
      q.outcome = some (runCalls (fun total value => total+value) p.total
        (p.calls.map (serve fails apply reply)) s.served).1 := by
  obtain ⟨total,calls,outcome⟩ := p
  obtain rfl : outcome = none := hout
  have hlt : w < s.pipelines.length := (List.getElem?_eq_some_iff.mp hp).1
  induction calls generalizing s total with
  | nil =>
    refine ⟨1,{ total := total, calls := [], outcome := some (.ok total) },?_,rfl⟩
    simp [run, step, hp, advance, runCalls]
  | cons call calls ih =>
    rcases hs : serve fails apply reply call s.served with ⟨e | value,next⟩
    · let stopped : Pipeline :=
        { total := total, calls := call::calls, outcome := some (.error e) }
      have hstep : step fails apply reply s w = some ⟨next,s.pipelines.set w stopped⟩ := by
        simp [step, hp, advance, hs, stopped]
      refine ⟨1,stopped,?_,?_⟩
      · rw [List.replicate_one, run_step _ s _ w [] hstep, run]
        simp [runCalls, hs]
      · simp [stopped, runCalls, hs]
    · let t : State C := ⟨next,s.pipelines.set w { total := total+value, calls := calls }⟩
      have hstep : step fails apply reply s w = some t := by
        simp [step, hp, advance, hs, t]
      obtain ⟨k,q,hrun,hq⟩ := ih t (total+value) (List.getElem?_set_self hlt)
        (by simpa [t] using hlt)
      refine ⟨k+1,q,?_,?_⟩
      · rw [List.replicate_succ, run_step _ s t w _ hstep, hrun]
        simp [t, runCalls, hs]
      · rw [hq]
        simp [t, runCalls, hs]

def own (history : List (ℕ × Dispatch)) (w : ℕ) : List Dispatch :=
  (history.filter (fun entry => entry.1 == w)).map (·.2)

theorem own_append (xs ys : List (ℕ × Dispatch)) (w : ℕ) :
    own (xs++ys) w = own xs w++own ys w := by
  simp [own]

def replies (requests : List Dispatch) : UInt32 :=
  (requests.map (fun r => reply r.action.method)).foldl (fun total value => total+value) 0

structure Progress (plans : List (List Dispatch)) (c : C) (history : List (ℕ × Dispatch))
    (s : State C) : Prop where
  container : s.served.container = applyAll apply (history.map (·.2)) c
  known : ∀ entry ∈ history, entry.1 < plans.length
  length : s.pipelines.length = plans.length
  pipelines : ∀ (w : ℕ) (p : Pipeline), s.pipelines[w]? = some p →
    plans[w]? = some (own history w++p.calls) ∧ p.total = replies reply (own history w) ∧
      ∀ n, p.outcome = some (.ok n) → p.calls = [] ∧ n = p.total

theorem progress_same (plans : List (List Dispatch)) (c : C) (history : List (ℕ × Dispatch))
    (s t : State C) (w : ℕ) (p q : Pipeline) (hp : s.pipelines[w]? = some p)
    (hpipelines : t.pipelines = s.pipelines.set w q)
    (hcontainer : t.served.container = s.served.container) (hcalls : q.calls = p.calls)
    (htotal : q.total = p.total)
    (hok : ∀ n, q.outcome = some (.ok n) → p.calls = [] ∧ n = p.total)
    (h : Progress apply reply plans c history s) : Progress apply reply plans c history t := by
  refine ⟨hcontainer.trans h.container,h.known,by rw [hpipelines, List.length_set, h.length],
    fun z r hz => ?_⟩
  rw [hpipelines, List.getElem?_set] at hz
  split at hz
  next he =>
    subst he
    split at hz
    · cases hz
      obtain ⟨hplan,htot,_⟩ := h.pipelines w p hp
      rw [hcalls, htotal]
      exact ⟨hplan,htot,hok⟩
    · cases hz
  next => exact h.pipelines z r hz

theorem progress_apply (plans : List (List Dispatch)) (c : C) (history : List (ℕ × Dispatch))
    (s t : State C) (w : ℕ) (p : Pipeline) (call : Dispatch) (calls : List Dispatch)
    (hp : s.pipelines[w]? = some p) (hout : p.outcome = none) (hcalls : p.calls = call::calls)
    (hpipelines : t.pipelines = s.pipelines.set w
      { p with total := p.total+reply call.action.method, calls := calls })
    (hcontainer : t.served.container = apply call.action.method s.served.container)
    (h : Progress apply reply plans c history s) :
    Progress apply reply plans c (history++[(w,call)]) t := by
  obtain ⟨hplan,htot,_⟩ := h.pipelines w p hp
  refine ⟨?_,?_,by rw [hpipelines, List.length_set, h.length],fun z r hz => ?_⟩
  · rw [hcontainer, h.container]
    simp [applyAll]
  · intro entry he
    cases List.mem_append.mp he with
    | inl hold => exact h.known entry hold
    | inr hnew =>
      rw [List.mem_singleton.mp hnew]
      exact (List.getElem?_eq_some_iff.mp hplan).1
  · rw [hpipelines, List.getElem?_set] at hz
    rw [own_append]
    split at hz
    next he =>
      subst he
      split at hz
      · cases hz
        have hown : own [(w,call)] w = [call] := by simp [own]
        rw [hown]
        refine ⟨?_,?_,fun n hn => ?_⟩
        · rw [hplan, hcalls, List.append_assoc, List.singleton_append]
        · simp [replies, htot]
        · rw [hout] at hn
          cases hn
      · cases hz
    next hne =>
      have hown : own [(w,call)] z = [] := by simp [own, hne]
      rw [hown, List.append_nil]
      exact h.pipelines z r hz

theorem step_progress (plans : List (List Dispatch)) (c : C) (s t : State C) (w : ℕ)
    (hs : ∃ history, Progress apply reply plans c history s)
    (h : step fails apply reply s w = some t) :
    ∃ history, Progress apply reply plans c history t := by
  obtain ⟨history,hs⟩ := hs
  obtain ⟨p,q,hp,hpipelines,hadvance⟩ := step_cases fails apply reply s t w h
  generalize hserved : t.served = served at hadvance
  cases hadvance with
  | finish hout hcalls =>
    refine ⟨history,progress_same apply reply plans c history s t w p _ hp hpipelines
      (by rw [hserved]) rfl rfl (fun n hn => ⟨hcalls,?_⟩) hs⟩
    cases hn
    rfl
  | apply call calls hout hcalls hf =>
    exact ⟨_,progress_apply apply reply plans c history s t w p call calls hp hout hcalls
      hpipelines (by rw [hserved]) hs⟩
  | fail call calls e hout hcalls hf =>
    refine ⟨history,progress_same apply reply plans c history s t w p _ hp hpipelines
      (by rw [hserved]) rfl rfl (fun n hn => ?_) hs⟩
    cases hn

theorem run_progress (plans : List (List Dispatch)) (c : C) (s t : State C) (schedule : List ℕ)
    (hs : ∃ history, Progress apply reply plans c history s)
    (h : run (step fails apply reply) s schedule = some t) :
    ∃ history, Progress apply reply plans c history t :=
  run_invariant_of_meets (step fails apply reply) (fun _ _ => true)
    (fun s => ∃ history, Progress apply reply plans c history s)
    (fun u w v _ hu hv => step_progress fails apply reply plans c u v w hu hv) s t schedule
    (meets_true _ s schedule) hs h

end Machine

end HurriCache.ConcurrentPipelines
