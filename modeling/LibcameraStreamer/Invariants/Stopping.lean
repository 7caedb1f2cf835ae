import LibcameraStreamer.Model.Threaded
import LibcameraStreamer.Invariants.Collection
import LibcameraStreamer.Invariants.Order

/-!
# After the stop flags are set

A thread reads its flag at the head of its loop only. It finishes the round that it is in, and
makes no further one.
-/
namespace LibcameraStreamer
open Library

/-! ## The rest of a round -/

/-- The steps up to the return, when the flag is set and no call blocks. -/
def ProcessorPoint.left : ProcessorPoint → Nat
  | .notStarted | .returned => 0
  | .loopTest | .threw .. => 1
  | .queueOutput .. => 2
  | .encodeBuffer .. => 3
  | .lookup _ => 4
  | .waitForCompletedRequest => 5

def OutputPoint.left : OutputPoint → Nat
  | .notStarted | .returned => 0
  | .loopTest | .threw _ => 1
  | .deleteItem _ => 2
  | .outputDone _ => 3
  | .pushFrame _ => 4
  | .waitForNextOutputItem => 5

def PollPoint.toReturn : PollPoint → Nat
  | .notStarted | .returned => 0
  | .loopTest | .threw _ => 1
  | .enqueueItem _ => 2
  | .dequeueCapture => 3
  | .queueRequest _ => 4
  | .reuseRequest _ => 5
  | .enqueueInput _ => 6
  | .dequeueOutput => 7
  | .poll => 8

theorem ProcessorPoint.left_le (p : ProcessorPoint) : p.left ≤ 5 := by
  cases p <;> simp [left]

theorem OutputPoint.left_le (o : OutputPoint) : o.left ≤ 5 := by
  cases o <;> simp [left]

theorem PollPoint.toReturn_le (p : PollPoint) : p.toReturn ≤ 8 := by
  cases p <;> simp [toReturn]

/-- There are no further steps after a fault. -/
def State.atMost (s : State) (steps : Nat) : Nat := if s.fault = none then steps else 0

theorem State.atMost_le (s : State) (steps : Nat) : s.atMost steps ≤ steps := by
  unfold State.atMost
  split_ifs <;> omega

section Step

variable {cfg : Config} {s t : State} {ans : Answers} {a : Action}

theorem ProcessorStep.left (h : ProcessorStep cfg ans s t) (stopped : s.stopRequested = true) :
    t.atMost t.processor.left < s.processor.left := by
  cases h
  case terminate index f point => simp [State.atMost, ProcessorPoint.left, point]
  all_goals
    refine lt_of_le_of_lt (State.atMost_le _ _) ?_
    simp_all [ProcessorPoint.left]

theorem OutputStep.left (h : OutputStep ans s t) (stopped : s.stopRequested = true) :
    t.atMost t.output.left < s.output.left := by
  cases h
  case terminate item point => simp [State.atMost, OutputPoint.left, point]
  all_goals
    refine lt_of_le_of_lt (State.atMost_le _ _) ?_
    simp_all [OutputPoint.left]

theorem PollStep.toReturn (h : PollStep ans s t) (stopped : s.encoderStopRequested = true) :
    t.atMost t.poll.toReturn < s.poll.toReturn := by
  cases h
  case nullCamera | tableOverflow | tableUnset | terminate =>
    simp [State.atMost, PollPoint.toReturn, *]
  all_goals
    refine lt_of_le_of_lt (State.atMost_le _ _) ?_
    simp_all [PollPoint.toReturn]

/-- The main thread starts no thread any more, and never takes a flag back. -/
theorem MainStep.stopped (h : MainStep cfg s t) (phase : Phase s)
    (stopped : s.stopRequested = true) :
    t.processor = s.processor ∧ t.output = s.output ∧ t.poll = s.poll ∧ t.stopRequested = true ∧
      (s.encoderStopRequested = true → t.encoderStopRequested = true) := by
  have late := phase.stop.mp stopped
  cases h <;> simp_all [MainPoint.rank]

/-- The flags stay set. -/
theorem Transition.stopped (h : Transition cfg s a t) (phase : Phase s)
    (stopped : s.stopRequested = true) :
    t.stopRequested = true ∧ (s.encoderStopRequested = true → t.encoderStopRequested = true) := by
  cases h with
  | main h => exact (h.stopped phase stopped).2.2.2
  | callback h | processor ans h | output ans h | poll ans h | driver d h =>
    rw [h.frame]; exact ⟨stopped, id⟩
  | complete | tick => exact ⟨stopped, id⟩

/-- Only a step of its own takes a thread nearer to its return. -/
theorem Transition.left (h : Transition cfg s a t) (phase : Phase s)
    (stopped : s.stopRequested = true) :
    (t.atMost t.processor.left ≤ s.processor.left ∧
      (a.thread = some .processor → t.atMost t.processor.left < s.processor.left)) ∧
    (t.atMost t.output.left ≤ s.output.left ∧
      (a.thread = some .output → t.atMost t.output.left < s.output.left)) := by
  cases h with
  | main h =>
    obtain ⟨processor, output, -⟩ := h.stopped phase stopped
    simp [Action.thread, processor, output, State.atMost_le]
  | processor ans h =>
    have own := h.left stopped
    rw [h.frame] at own ⊢
    simp [Action.thread, own, own.le, State.atMost_le]
  | output ans h =>
    have own := h.left stopped
    rw [h.frame] at own ⊢
    simp [Action.thread, own, own.le, State.atMost_le]
  | callback h | poll ans h | driver d h =>
    rw [h.frame]; simp [Action.thread, State.atMost_le]
  | complete | tick => simp [Action.thread, State.atMost_le]

theorem Transition.toReturn (h : Transition cfg s a t) (phase : Phase s)
    (stopped : s.encoderStopRequested = true) :
    t.atMost t.poll.toReturn ≤ s.poll.toReturn ∧
      (a.thread = some .poll → t.atMost t.poll.toReturn < s.poll.toReturn) := by
  cases h with
  | main h =>
    have late := phase.encoderStop.mp stopped
    obtain ⟨-, -, poll, -⟩ := h.stopped phase (phase.stop.mpr (by omega))
    simp [Action.thread, poll, State.atMost_le]
  | poll ans h =>
    have own := h.toReturn stopped
    simp [own, own.le]
  | callback h | processor ans h | output ans h | driver d h =>
    rw [h.frame]; simp [Action.thread, State.atMost_le]
  | complete | tick => simp [Action.thread, State.atMost_le]

end Step

/-! ## Where a frame is queued, sent or collected -/

theorem encoded_place (s : State) (a : Action) (h : (encoded s a).isSome) :
    a.thread = some .processor ∧ s.processor.left = 2 := by
  revert h
  fun_cases encoded s a <;> simp_all [Action.thread, ProcessorPoint.left]

theorem pushed_place (s : State) (a : Action) (h : (pushed s a).isSome) :
    a.thread = some .output ∧ s.output.left = 4 := by
  revert h
  fun_cases pushed s a
  case case1 ans =>
    cases point : s.output <;> simp [Action.thread, OutputPoint.unsent, OutputPoint.left]
  case case2 => simp

theorem called_place (s : State) (a : Action) (h : (called s a).isSome) :
    a.thread = some .poll ∧ s.poll.toReturn = 5 := by
  revert h
  fun_cases called s a <;> simp_all [Action.thread, PollPoint.toReturn]

theorem created_place (s : State) (a : Action) (h : (created s a).isSome) :
    a.thread = some .poll ∧ s.poll.toReturn = 3 := by
  revert h
  fun_cases created s a <;> simp_all [Action.thread, PollPoint.toReturn]

/-! ## Over a whole run -/

/-- The steps of a thread. -/
def makes (thread : Thread) (_ : State) (a : Action) : Bool := a.thread == some thread

section Run

variable {cfg : Config} {E F : State → Action → Prop} {tr tr' : List (State × Action)}
  {s t : State}

/-- A thread whose way to its return gets shorter with each of its steps. -/
theorem count_makes_le (more : Run (Steps (step cfg)) F s tr' t) (thread : Thread)
    (left : State → Nat)
    (falls : ∀ u a v, F u a → Transition cfg u a v → v.atMost (left v) ≤ left u ∧
      (a.thread = some thread → v.atMost (left v) < left u)) :
    count (makes thread) tr' ≤ left s := by
  have bound := more.countdown (fun u => u.atMost (left u)) (makes thread) fun u a v ok h => by
    obtain ⟨alive, h⟩ := step_cases h
    obtain ⟨le, lt⟩ := falls u a v ok h
    simp only [makes, beq_iff_eq]
    split_ifs with own
    · have := lt own
      simpa [State.atMost, alive] using this
    · simpa [State.atMost, alive] using le
  have := s.atMost_le (left s)
  omega

/-- What it does at one point of its way happens once. -/
theorem length_log_le_one {β : Type} (more : Run (Steps (step cfg)) F s tr' t) (thread : Thread)
    (left : State → Nat) (k : Nat) (event : State → Action → Option β)
    (falls : ∀ u a v, F u a → Transition cfg u a v → v.atMost (left v) ≤ left u ∧
      (a.thread = some thread → v.atMost (left v) < left u))
    (place : ∀ u a, (event u a).isSome → a.thread = some thread ∧ left u = k) :
    (log event tr').length ≤ 1 := by
  rw [length_log]
  refine more.once (fun u => u.atMost (left u)) _ k fun u a v ok h => ?_
  obtain ⟨alive, h⟩ := step_cases h
  obtain ⟨le, lt⟩ := falls u a v ok h
  refine ⟨by simpa [State.atMost, alive] using le, fun happens => ?_⟩
  obtain ⟨own, here⟩ := place u a happens
  exact ⟨by simpa [State.atMost, alive] using here, (lt own).trans_eq here⟩

/-- The states after the stop. -/
structure Stopped (encoder : Bool) (s : State) : Prop where
  phase : Phase s
  flag : s.stopRequested = true
  encoderFlag : encoder = true → s.encoderStopRequested = true

theorem Stopped.run {encoder : Bool} (more : Run (Steps (step cfg)) F s tr' t)
    (start : Stopped encoder s) :
    Run (Steps (step cfg)) (fun u a => Stopped encoder u ∧ F u a) s tr' t := by
  refine more.strengthen (Stopped encoder) start fun u a v inv _ h => ?_
  obtain ⟨phase, flag, encoderFlag⟩ := inv
  obtain ⟨-, h⟩ := step_cases h
  obtain ⟨flag', encoderFlag'⟩ := h.stopped phase flag
  exact ⟨h.phase phase, flag', fun on => encoderFlag' (encoderFlag on)⟩

/-- Once the destructor has set `stop_requested`, `completedRequestsProcessor` and
`encodedFramesProcessor` make at most five steps more, in which one frame is queued to the encoder
and one is passed to `push_frame`. Once `Stop` has set the encoder's flag, `pollEncoder` makes at
most eight steps more, in which it runs one callback and collects one encoded frame. -/
theorem steps_after_stop (run : PipelineRun cfg E tr s) (stopped : s.stopRequested = true)
    (more : Run (Steps (step cfg)) F s tr' t) :
    count (makes .processor) tr' ≤ 5 ∧ (log encoded tr').length ≤ 1 ∧
    count (makes .output) tr' ≤ 5 ∧ (log pushed tr').length ≤ 1 ∧
    (s.encoderStopRequested = true → count (makes .poll) tr' ≤ 8 ∧
      (log called tr').length ≤ 1 ∧ (log created tr').length ≤ 1) := by
  have start : Stopped s.encoderStopRequested s := ⟨run.phase, stopped, id⟩
  have more := start.run more
  have processor : ∀ u a v, Stopped s.encoderStopRequested u ∧ F u a → Transition cfg u a v → _ :=
    fun u a v ok h => (h.left ok.1.phase ok.1.flag).1
  have output : ∀ u a v, Stopped s.encoderStopRequested u ∧ F u a → Transition cfg u a v → _ :=
    fun u a v ok h => (h.left ok.1.phase ok.1.flag).2
  refine ⟨?_, ?_, ?_, ?_, fun encoder => ?_⟩
  · exact (count_makes_le more .processor (·.processor.left) processor).trans
      (ProcessorPoint.left_le _)
  · exact length_log_le_one more .processor (·.processor.left) 2 encoded processor encoded_place
  · exact (count_makes_le more .output (·.output.left) output).trans (OutputPoint.left_le _)
  · exact length_log_le_one more .output (·.output.left) 4 pushed output pushed_place
  · have poll : ∀ u a v, Stopped s.encoderStopRequested u ∧ F u a → Transition cfg u a v → _ :=
      fun u a v ok h => h.toReturn ok.1.phase (ok.1.encoderFlag encoder)
    refine ⟨?_, ?_, ?_⟩
    · exact (count_makes_le more .poll (·.poll.toReturn) poll).trans (PollPoint.toReturn_le _)
    · exact length_log_le_one more .poll (·.poll.toReturn) 5 called poll called_place
    · exact length_log_le_one more .poll (·.poll.toReturn) 3 created poll created_place

/-- The flag is set in the middle of a round: the frame that has been dequeued is still queued to
the encoder, and the next one is not. -/
theorem steps_after_stop_in_round :
    ∃ s tr' t, s.stopRequested = true ∧ s.processor = .lookup ⟨0, 0⟩ ∧
      Run (Steps (step (.sample 2 2 1))) (fun _ _ => True) s tr' t ∧
      t.outputQueued.map (·.frame) = [⟨0, 0⟩] ∧ t.completedRequestsQueue = [⟨1, 1⟩] ∧
      t.processor = .returned ∧ count (makes .processor) tr' ≤ 5 ∧
      (log encoded tr').length ≤ 1 := by
  obtain ⟨tr, s, run, stopped, point, goes⟩ := exists_pipelineRun (.sample 2 2 1) (fun _ _ => True)
    (startUp (.sample 2 2 1) ++ capture 0 ++ capture 1 ++ List.replicate 2 (.processor {}) ++
      List.replicate 2 .main)
    (fun s => s.stopRequested = true ∧ s.processor = .lookup ⟨0, 0⟩ ∧
      (exec (step (.sample 2 2 1)) (fun _ _ => True) s (List.replicate 4 (.processor {}))).any
        (fun t => decide (t.outputQueued.map (·.frame) = [⟨0, 0⟩] ∧
          t.completedRequestsQueue = [⟨1, 1⟩] ∧ t.processor = .returned)) = true)
    (by decide +kernel)
  obtain ⟨tr', t, more, ends⟩ := exists_run_of_exec_any goes
  obtain ⟨queued, waits, returned⟩ := of_decide_eq_true ends
  obtain ⟨processor, encoded, -⟩ := steps_after_stop run stopped more
  exact ⟨s, tr', t, stopped, point, more, queued, waits, returned, processor, encoded⟩

end Run

end LibcameraStreamer
