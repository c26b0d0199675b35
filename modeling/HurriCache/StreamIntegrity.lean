import HurriCache.PartialRun
import HurriCache.StoredGzip
import HurriCache.StreamCall

/-!
# What a streaming call delivers

The events of a call and its object stay in one of four relations. The last
one fixes the delivery: the final status decides between value and error,
and the value is the fold over the batches that were read. A throwing
accumulator ends the reading early and leaves no trace in the status, which
`Finish` overwrites.
-/

set_option autoImplicit false

namespace HurriCache.StreamIntegrity
open HurriCache.ClientTypes HurriCache.CallOutcomes HurriCache.PartialRun
open HurriCache.WireMessages
open HurriCache.StreamCall HurriCache.StoredGzip

section Machine

variable {Chunk R : Type}

def Exhausted (events : List (Event Chunk)) : Prop :=
  .started false ∈ events ∨ .read none ∈ events

def Waiting (call : StreamCallData Chunk R) (operation : Operation) : Prop :=
  call.reader = some operation ∧ call.promise = [] ∧ call.deleted = false

/-- The result holds every batch that was read, or the accumulator threw. -/
def Collected (acc : Accumulator R Chunk) (r : R) (events : List (Event Chunk))
    (call : StreamCallData Chunk R) : Prop :=
  (Exhausted events ∧ foldBatches acc r (batches events) = some call.accumulated_result) ∨
    foldBatches acc r (batches events) = none

def delivery (status : Status) (trailers : List (Text × Text)) (result : R) : Outcome R :=
  if status.ok then .ok result else .error (statusException status trailers)

inductive Progress (acc : Accumulator R Chunk) (r : R) :
    List (Event Chunk) → StreamCallData Chunk R → Prop where
  | starting {call : StreamCallData Chunk R} (hs : call.state = .STARTED)
      (hw : Waiting call .StartCall) (hr : call.accumulated_result = r) :
      Progress acc r [] call
  | reading {events : List (Event Chunk)} {call : StreamCallData Chunk R}
      (hs : call.state = .READING) (hw : Waiting call .Read)
      (hf : foldBatches acc r (batches events) = some call.accumulated_result) :
      Progress acc r events call
  | finishing {events : List (Event Chunk)} {call : StreamCallData Chunk R}
      (hs : call.state = .FINISHING) (hw : Waiting call .Finish)
      (hc : Collected acc r events call) : Progress acc r events call
  | delivered {events : List (Event Chunk)} {call : StreamCallData Chunk R}
      (hr : call.reader = none) (hd : call.deleted = true) (hc : Collected acc r events call)
      (status : Status) (trailers : List (Text × Text))
      (hm : .finished status trailers ∈ events)
      (hp : call.promise = [delivery status trailers call.accumulated_result]) :
      Progress acc r events call

theorem starting_step (acc : Accumulator R Chunk) (ok : Bool) (call : StreamCallData Chunk R)
    (hs : call.state = .STARTED) (hw : Waiting call .StartCall) :
    Progress acc call.accumulated_result [.started ok]
      (proceed acc ok { call with reader := none }) := by
  obtain ⟨-,hp,hd⟩ := hw
  cases ok with
  | true =>
    apply Progress.reading
    · simp [proceed, hs]
    · simp [proceed, hs, Waiting, hp, hd]
    · simp [proceed, hs, foldBatches]
  | false =>
    apply Progress.finishing
    · simp [proceed, hs]
    · simp [proceed, hs, Waiting, hp, hd]
    · left
      simp [proceed, hs, Exhausted, foldBatches]

theorem batch_step (acc : Accumulator R Chunk) (r : R) (events : List (Event Chunk))
    (chunk : Chunk) (call : StreamCallData Chunk R) (hs : call.state = .READING)
    (hw : Waiting call .Read)
    (hf : foldBatches acc r (batches events) = some call.accumulated_result) :
    Progress acc r (events++[.read (some chunk)])
      (proceed acc true { call with reader := none, current_chunk := chunk }) := by
  obtain ⟨-,hp,hd⟩ := hw
  have hfold : foldBatches acc r (batches (events++[.read (some chunk)])) =
      foldBatches acc call.accumulated_result [chunk] := by
    simp [foldBatches_append, hf]
  cases acc with
  | none =>
    apply Progress.reading
    · simp [proceed, hs]
    · simp [proceed, hs, Waiting, hp, hd]
    · rw [hfold]
      simp [proceed, hs, foldBatches]
  | some accumulate =>
    cases ha : accumulate call.accumulated_result chunk with
    | done result =>
      apply Progress.reading
      · simp [proceed, hs, ha]
      · simp [proceed, hs, ha, Waiting, hp, hd]
      · rw [hfold]
        simp [proceed, hs, ha, foldBatches]
    | threw result =>
      apply Progress.finishing
      · simp [proceed, hs, ha]
      · simp [proceed, hs, ha, Waiting, hp, hd]
      · right
        rw [hfold]
        simp [foldBatches, ha]

theorem eof_step (acc : Accumulator R Chunk) (r : R) (events : List (Event Chunk))
    (call : StreamCallData Chunk R) (hs : call.state = .READING) (hw : Waiting call .Read)
    (hf : foldBatches acc r (batches events) = some call.accumulated_result) :
    Progress acc r (events++[.read none]) (proceed acc false { call with reader := none }) := by
  obtain ⟨-,hp,hd⟩ := hw
  apply Progress.finishing
  · simp [proceed, hs]
  · simp [proceed, hs, Waiting, hp, hd]
  · left
    simp [proceed, hs, Exhausted, hf]

theorem finish_step (acc : Accumulator R Chunk) (r : R) (events : List (Event Chunk))
    (status : Status) (trailers : List (Text × Text)) (call : StreamCallData Chunk R)
    (hs : call.state = .FINISHING) (hw : Waiting call .Finish)
    (hc : Collected acc r events call) :
    Progress acc r (events++[.finished status trailers]) (proceed acc true
      { call with reader := none, status := status, context := trailers }) := by
  obtain ⟨-,hp,-⟩ := hw
  have hc' : Collected acc r (events++[.finished status trailers]) call := by
    simpa [Collected, Exhausted] using hc
  have hm : .finished status trailers ∈ events++[.finished status trailers] := by simp
  cases hok : status.ok with
  | true =>
    apply Progress.delivered _ _ _ status trailers hm
    · simp [proceed, hs, hok, hp, delivery]
    · simp [proceed, hs, hok]
    · simp [proceed, hs, hok]
    · simpa [proceed, hs, hok, Collected] using hc'
  | false =>
    apply Progress.delivered _ _ _ status trailers hm
    · simp [proceed, hs, hok, hp, delivery]
    · simp [proceed, hs, hok]
    · simp [proceed, hs, hok]
    · simpa [proceed, hs, hok, Collected] using hc'

theorem progress_step (acc : Accumulator R Chunk) (r : R) (events : List (Event Chunk))
    (call next : StreamCallData Chunk R) (event : Event Chunk)
    (hp : Progress acc r events call) (h : completion acc call event = some next) :
    Progress acc r (events++[event]) next := by
  cases hp with
  | starting hs hw hr =>
    subst hr
    rcases completion_cases acc call next event h with
      ⟨ok,-,rfl,rfl⟩ | ⟨chunk,ho,-,-⟩ | ⟨ho,-,-⟩ | ⟨status,trailers,ho,-,-⟩
    · exact starting_step acc ok call hs hw
    all_goals simp [hw.1] at ho
  | reading hs hw hf =>
    rcases completion_cases acc call next event h with
      ⟨ok,ho,-,-⟩ | ⟨chunk,-,rfl,rfl⟩ | ⟨-,rfl,rfl⟩ | ⟨status,trailers,ho,-,-⟩
    · simp [hw.1] at ho
    · exact batch_step acc r events chunk call hs hw hf
    · exact eof_step acc r events call hs hw hf
    · simp [hw.1] at ho
  | finishing hs hw hc =>
    rcases completion_cases acc call next event h with
      ⟨ok,ho,-,-⟩ | ⟨chunk,ho,-,-⟩ | ⟨ho,-,-⟩ | ⟨status,trailers,-,rfl,rfl⟩
    · simp [hw.1] at ho
    · simp [hw.1] at ho
    · simp [hw.1] at ho
    · exact finish_step acc r events status trailers call hs hw hc
  | delivered hr hd hc status trailers hm hp =>
    rcases completion_cases acc call next event h with
      ⟨ok,ho,-,-⟩ | ⟨chunk,ho,-,-⟩ | ⟨ho,-,-⟩ | ⟨status,trailers,ho,-,-⟩
    all_goals simp [hr] at ho

theorem progress_run [Inhabited Chunk] [Inhabited R] (acc : Accumulator R Chunk)
    (events : List (Event Chunk)) (call end_ : StreamCallData Chunk R)
    (hstart : sendAsyncStreamRequest false = .ok call)
    (h : run (completion acc) call events = some end_) :
    Progress acc default events end_ := by
  cases hstart
  exact history_invariant (completion acc) (fun _ => True) (Progress acc default)
    (fun es s e t _ hp hst => progress_step acc default es s t e hp hst) _ end_ events
    (fun _ _ => trivial) (Progress.starting rfl ⟨rfl,rfl,rfl⟩ rfl) h

/-- What the reader may report about a server that sent `sent` and closed the
call with `final`: batches arrive in order, an `OK` call ends only after its
last batch, and a call that did not start reached no server. -/
structure Serves (sent : List Chunk) (final : Status) (events : List (Event Chunk)) : Prop where
  in_order : batches events <+: sent
  unstarted : .started false ∈ events → sent = []
  complete : final.ok = true → .read none ∈ events → batches events = sent
  closed : ∀ status trailers, .finished status trailers ∈ events → status = final

def Integrity (acc : Accumulator R Chunk) (r : R) (sent : List Chunk) (final : Status)
    (call : StreamCallData Chunk R) : Prop :=
  call.promise.length = 1 ∧ ∀ v, .ok v ∈ call.promise →
    final.ok = true ∧ foldBatches acc r sent = some v

theorem exhausted_batches (sent : List Chunk) (final : Status) (events : List (Event Chunk))
    (hs : Serves sent final events) (hok : final.ok = true) (he : Exhausted events) :
    batches events = sent := by
  rcases he with hstart | heof
  · have hnil := hs.unstarted hstart
    have hp := hs.in_order
    rw [hnil] at hp ⊢
    exact List.prefix_nil.mp hp
  · exact hs.complete hok heof

theorem collected_fold (acc : Accumulator R Chunk) (r : R) (sent : List Chunk)
    (final : Status) (events : List (Event Chunk)) (call : StreamCallData Chunk R)
    (hs : Serves sent final events) (hok : final.ok = true)
    (hc : Collected acc r events call) :
    foldBatches acc r sent = some call.accumulated_result ∨ foldBatches acc r sent = none := by
  rcases hc with ⟨he,hf⟩ | hf
  · left
    rw [← exhausted_batches sent final events hs hok he]
    exact hf
  · right
    exact foldBatches_none_of_prefix acc r _ sent hs.in_order hf

theorem delivered_integrity_iff (acc : Accumulator R Chunk) (r : R) (sent : List Chunk)
    (final : Status) (trailers : List (Text × Text)) (events : List (Event Chunk))
    (call : StreamCallData Chunk R) (hs : Serves sent final events)
    (hc : Collected acc r events call)
    (hp : call.promise = [delivery final trailers call.accumulated_result]) :
    Integrity acc r sent final call ↔ (final.ok = true → foldBatches acc r sent ≠ none) := by
  cases hok : final.ok with
  | false => simp [Integrity, hp, delivery, hok]
  | true =>
    rcases collected_fold acc r sent final events call hs hok hc with hf | hf
    · simp [Integrity, hp, delivery, hok, hf]
    · simp [Integrity, hp, delivery, hok, hf]

theorem progress_deleted (acc : Accumulator R Chunk) (r : R) (events : List (Event Chunk))
    (call : StreamCallData Chunk R) (hp : Progress acc r events call)
    (hd : call.deleted = true) :
    Collected acc r events call ∧ ∃ status trailers, .finished status trailers ∈ events ∧
      call.promise = [delivery status trailers call.accumulated_result] := by
  cases hp with
  | starting hs hw hr => simp [hw.2.2] at hd
  | reading hs hw hf => simp [hw.2.2] at hd
  | finishing hs hw hc => simp [hw.2.2] at hd
  | delivered hr hd hc status trailers hm hp => exact ⟨hc,status,trailers,hm,hp⟩

/-- The integrity of every finished call, with its exact domain: on an `OK`
call the accumulator must not throw on what the server sent. -/
theorem stream_integrity_iff [Inhabited Chunk] [Inhabited R] (acc : Accumulator R Chunk)
    (sent : List Chunk) (final : Status) (events : List (Event Chunk))
    (call last : StreamCallData Chunk R) (hserves : Serves sent final events)
    (hsend : sendAsyncStreamRequest false = .ok call)
    (hrun : run (completion acc) call events = some last) (hlast : last.deleted = true) :
    Integrity acc default sent final last ↔
      (final.ok = true → foldBatches acc default sent ≠ none) := by
  have hp := progress_run acc events call last hsend hrun
  obtain ⟨hc,status,trailers,hm,hpromise⟩ := progress_deleted acc default events last hp hlast
  have hst := hserves.closed status trailers hm
  subst hst
  exact delivered_integrity_iff acc default sent status trailers events last hserves hc hpromise

end Machine

def hugeStream : List BatchValueResponse :=
  [{ value_unordered := [{ value := some { data := .intPayload 1 } }] },
    { value_unordered := [{
      value := some { data := .payload (Cord.ofView [0]), size := 1 }
      compressionInfo := some { enabled := true, rawSize := some 0xFFFFFFFF } }] }]

def hugeEvents : List (Event BatchValueResponse) :=
  [.started true]++hugeStream.map (fun chunk => .read (some chunk))++
    [.finished Status.initial []]

theorem huge_serves : Serves hugeStream Status.initial hugeEvents where
  in_order := List.prefix_rfl
  unstarted := by simp [hugeEvents, hugeStream]
  complete := by simp [hugeEvents, hugeStream]
  closed := by simp +contextual [hugeEvents, hugeStream]

def truncatedCall : StreamCallData BatchValueResponse (List ValuePtr) :=
  { promise := [.ok [some (.int 1)]]
    current_chunk := hugeStream.getLast (by simp [hugeStream])
    accumulated_result := [some (.int 1)]
    state := .FINISHING
    deleted := true }

theorem huge_run (call : StreamCallData BatchValueResponse (List ValuePtr))
    (h : sendAsyncStreamRequest false = .ok call) :
    run (completion (streamList storedLibdeflate (2^31))) call hugeEvents =
      some truncatedCall := by
  cases h
  rfl

theorem huge_fold :
    foldBatches (streamList storedLibdeflate (2^31)) default hugeStream = none := rfl

theorem stream_integrity_iff_huge :
    Integrity (streamList storedLibdeflate (2^31)) default hugeStream Status.initial
        truncatedCall ↔
      (Status.initial.ok = true →
        foldBatches (streamList storedLibdeflate (2^31)) default hugeStream ≠ none) :=
  stream_integrity_iff _ hugeStream Status.initial hugeEvents _ truncatedCall huge_serves rfl
    (huge_run _ rfl) rfl

/-- The call ends `OK` and hands out the first batch as the whole list. -/
theorem throwing_batch_truncates :
    Serves hugeStream Status.initial hugeEvents ∧
    (∃ call, sendAsyncStreamRequest false = .ok call ∧
      run (completion (streamList storedLibdeflate (2^31))) call hugeEvents =
        some truncatedCall) ∧
    truncatedCall.promise = [.ok [some (.int 1)]] ∧
    ¬ Integrity (streamList storedLibdeflate (2^31)) default hugeStream Status.initial
      truncatedCall := by
  refine ⟨huge_serves,⟨_,rfl,huge_run _ rfl⟩,rfl,?_⟩
  intro h
  have hv := (h.2 [some (.int 1)] (by simp [truncatedCall])).2
  rw [huge_fold] at hv
  cases hv

end HurriCache.StreamIntegrity
