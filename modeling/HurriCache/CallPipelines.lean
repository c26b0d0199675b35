import HurriCache.CallOutcomes
import HurriCache.SmartOperations

/-!
# Sequences of calls

A call takes the state of the servers and delivers an outcome with the state
it leaves. `runAddPipeline` and the remainder sender make calls one after the
other and stop at the first exception. The server here applies a request
once when it succeeds and not at all when it fails.
-/

set_option autoImplicit false

namespace HurriCache.CallPipelines
open HurriCache.ClientTypes HurriCache.CallOutcomes
open HurriCache.StandaloneCalls HurriCache.SmartOperations

abbrev Call (S T : Type) := S → Outcome T × S

section Runners

variable {S T R : Type}

/-- The loop over calls, each awaited before the next is made. -/
def runCalls (collect : R → T → R) (acc : R) : List (Call S T) → Call S R
  | [], s => (.ok acc,s)
  | call::calls, s =>
    match call s with
    | (.ok value,next) => runCalls collect (collect acc value) calls next
    | (.error e,next) => (.error e,next)

def runAddPipeline (chunk_calls : List (Call S UInt32)) : Call S UInt32 :=
  runCalls (fun total value => total+value) 0 chunk_calls

def sendRemainder (chunk_calls : List (Call S UInt32)) : Call S Unit :=
  runCalls (fun _ _ => ()) () chunk_calls

def createWithRemainder (create_future : Call S KeyHint)
    (remainder_sender : KeyHint → Call S Unit) : Call S KeyHint := fun s =>
  match create_future s with
  | (.error e,next) => (.error e,next)
  | (.ok result,next) =>
    match remainder_sender result next with
    | (.error e,last) => (.error e,last)
    | (.ok _,last) => (.ok result,last)

def runAddPlan (execute : Dispatch → Call S UInt32) : AddPlan → Call S UInt32
  | .immediate result, s => (.ok result,s)
  | .pipeline calls, s => runAddPipeline (calls.map execute) s

def runCreatePlan (executeCreate : Dispatch → Call S KeyHint)
    (executeAdd : Dispatch → Call S UInt32) (plan : CreatePlan) : Call S KeyHint :=
  match plan.remainder with
  | none => executeCreate plan.create_future
  | some calls => createWithRemainder (executeCreate plan.create_future)
    (fun res_hint => sendRemainder ((calls res_hint).map executeAdd))

theorem runCalls_invariant (I : S → Prop) (collect : R → T → R) (acc : R)
    (calls : List (Call S T)) (s : S) (hcall : ∀ call ∈ calls, ∀ s, I s → I (call s).2)
    (hs : I s) : I (runCalls collect acc calls s).2 := by
  induction calls generalizing acc s with
  | nil => exact hs
  | cons call calls ih =>
    have hnext := hcall call List.mem_cons_self s hs
    rw [runCalls]
    split
    next value next he =>
      rw [he] at hnext
      exact ih (collect acc value) next (fun c hc => hcall c (List.mem_cons_of_mem call hc)) hnext
    next e next he =>
      rw [he] at hnext
      exact hnext

end Runners

section Serving

variable {C T R : Type}

structure Served (C : Type) where
  container : C
  requests : List Dispatch

def serve (fails : ℕ → Option CallException) (apply : Method → C → C) (reply : Method → T)
    (request : Dispatch) : Call (Served C) T := fun s =>
  match fails s.requests.length with
  | some e => (.error e,⟨s.container,s.requests++[request]⟩)
  | none => (.ok (reply request.action.method),
      ⟨apply request.action.method s.container,s.requests++[request]⟩)

def applyAll (apply : Method → C → C) (requests : List Dispatch) (c : C) : C :=
  requests.foldl (fun c r => apply r.action.method c) c

variable (fails : ℕ → Option CallException) (apply : Method → C → C) (reply : Method → T)

theorem runCalls_ok (collect : R → T → R) (acc : R) (requests : List Dispatch) (s : Served C)
    (hok : ∀ i < requests.length, fails (s.requests.length+i) = none) :
    runCalls collect acc (requests.map (serve fails apply reply)) s =
      (.ok ((requests.map (fun r => reply r.action.method)).foldl collect acc),
        ⟨applyAll apply requests s.container,s.requests++requests⟩) := by
  induction requests generalizing acc s with
  | nil => simp [runCalls, applyAll]
  | cons r rs ih =>
    have h0 : fails s.requests.length = none := by simpa using hok 0 (by simp)
    have hrest := ih (collect acc (reply r.action.method))
      ⟨apply r.action.method s.container,s.requests++[r]⟩ (by
        intro i hi
        have h := hok (i+1) (by simpa using hi)
        simpa [Nat.add_assoc, Nat.add_comm, Nat.add_left_comm] using h)
    simp only [List.map_cons, runCalls, serve, h0]
    simpa [applyAll] using hrest

theorem runCalls_fail (collect : R → T → R) (acc : R) (requests : List Dispatch)
    (s : Served C) (j : ℕ) (hj : j < requests.length) (e : CallException)
    (hok : ∀ i < j, fails (s.requests.length+i) = none)
    (he : fails (s.requests.length+j) = some e) :
    runCalls collect acc (requests.map (serve fails apply reply)) s =
      (.error e,⟨applyAll apply (requests.take j) s.container,
        s.requests++requests.take (j+1)⟩) := by
  induction requests generalizing acc s j with
  | nil => simp at hj
  | cons r rs ih =>
    cases j with
    | zero =>
      have h0 : fails s.requests.length = some e := by simpa using he
      simp [runCalls, serve, h0, applyAll]
    | succ j =>
      have h0 : fails s.requests.length = none := by simpa using hok 0 (by simp)
      have hrest := ih (collect acc (reply r.action.method))
        ⟨apply r.action.method s.container,s.requests++[r]⟩ j (by simpa using hj)
        (by
          intro i hi
          have h := hok (i+1) (by omega)
          simpa [Nat.add_assoc, Nat.add_comm, Nat.add_left_comm] using h)
        (by simpa [Nat.add_assoc, Nat.add_comm, Nat.add_left_comm] using he)
      simp only [List.map_cons, runCalls, serve, h0]
      simpa [applyAll] using hrest

end Serving

end HurriCache.CallPipelines
