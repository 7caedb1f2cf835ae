import LibcameraStreamer.Invariants.InputSlots
import LibcameraStreamer.Invariants.Order

/-!
# Collecting the finished OUTPUT buffers

`pollEncoder` waits for a finished CAPTURE buffer and then dequeues one buffer of each side.
The two sides stay in step as long as every frame yields a CAPTURE buffer and every OUTPUT
`VIDIOC_DQBUF` succeeds. Each exception leaves one finished OUTPUT buffer in the driver for
good. A frame whose OUTPUT buffer the driver finishes first leaves it there until its CAPTURE
buffer is written.
-/
namespace LibcameraStreamer
open Library

/-- The driver drops a frame in the step. -/
def drops : Action → Bool
  | .driver (.drop _) => true
  | _ => false

/-- The OUTPUT `VIDIOC_DQBUF` fails in the step. -/
def failsOutput (s : State) : Action → Bool
  | .poll ans => s.poll == .dequeueOutput && xioctl ans.replies == some (-1)
  | _ => false

/-- The CAPTURE `VIDIOC_DQBUF` fails in the step. -/
def failsCapture (s : State) : Action → Bool
  | .poll ans => s.poll == .dequeueCapture && xioctl ans.replies == some (-1)
  | _ => false

/-- The two sides of the encoder get out of step. -/
def leavesInput (s : State) (a : Action) : Bool := drops a || failsOutput s a

/-- The poll thread is between the two `VIDIOC_DQBUF`. -/
def PollPoint.between : PollPoint → Int
  | .enqueueInput _ | .reuseRequest _ | .queueRequest _ | .dequeueCapture => 1
  | _ => 0

/-- How many OUTPUT buffers the driver holds more than there are frames still to be dequeued. -/
def State.excess (s : State) : Int :=
  s.outputHeld.length + s.poll.between - (s.coding.length + s.captureFinished.length)

theorem PollStep.excess {ans : Answers} {s t : State} (h : PollStep ans s t)
    (captures : failsCapture s (.poll ans) = false) :
    t.excess = s.excess + if failsOutput s (.poll ans) then 1 else 0 := by
  cases h
  case dequeueCaptureFails point failed => simp [failsCapture, point, failed] at captures
  case dequeueOutput b rest point ok finished =>
    simp [State.excess, State.outputHeld, PollPoint.between, failsOutput, point, ok, finished]
    omega
  case dequeueOutputFails point failed =>
    simp [State.excess, State.outputHeld, PollPoint.between, failsOutput, point, failed]
    omega
  case dequeueCapture b rest desc point ok finished entry =>
    simp [State.excess, State.outputHeld, PollPoint.between, failsOutput, point, finished]
    omega
  all_goals simp [State.excess, State.outputHeld, PollPoint.between, failsOutput, *]

theorem DriverStep.excess {cfg : Config} {s t : State} {d : DriverAction}
    (h : DriverStep cfg s d t) :
    t.excess = s.excess + if drops (.driver d) then 1 else 0 := by
  cases h
  case finishOutput i b queued =>
    have := List.length_eraseIdx_add_one (List.getElem?_eq_some_iff.mp queued).1
    simp [State.excess, State.outputHeld, drops]
    omega
  case produceCapture i j bytesUsed keyframe c index coded free =>
    have := List.length_eraseIdx_add_one (List.getElem?_eq_some_iff.mp coded).1
    simp [State.excess, State.outputHeld, drops]
    omega
  case drop i c coded =>
    have := List.length_eraseIdx_add_one (List.getElem?_eq_some_iff.mp coded).1
    simp [State.excess, State.outputHeld, drops]
    omega
  case encode bytesUsed keyframe b outputs c coding index captures queued coded free =>
    simp [State.excess, State.outputHeld, drops, queued, coded]
    omega

theorem Transition.excess {cfg : Config} {s t : State} {a : Action} (h : Transition cfg s a t)
    (phase : Phase s) (captures : failsCapture s a = false) :
    t.excess = s.excess + if leavesInput s a then 1 else 0 := by
  cases h with
  | main h =>
    cases h
    case startPoll point =>
      have fresh := phase.poll_fresh point
      simp [State.excess, State.outputHeld, PollPoint.between, leavesInput, drops, failsOutput,
        fresh]
    all_goals simp [State.excess, State.outputHeld, leavesInput, drops, failsOutput]
  | processor ans h =>
    cases h <;> simp [State.excess, State.outputHeld, leavesInput, drops, failsOutput]
    omega
  | poll ans h => simpa [leavesInput, drops] using h.excess captures
  | driver d h => simpa [leavesInput, failsOutput] using h.excess
  | callback h | output ans h =>
    rw [h.frame]
    simp [State.excess, State.outputHeld, leavesInput, drops, failsOutput]
  | complete | tick => simp [State.excess, State.outputHeld, leavesInput, drops, failsOutput]

/-! ## One CAPTURE buffer a wake-up -/

/-- The poll thread is between POLLIN and the CAPTURE `VIDIOC_DQBUF`. -/
def PollPoint.collecting : PollPoint → Bool
  | .dequeueOutput | .enqueueInput _ | .reuseRequest _ | .queueRequest _ | .dequeueCapture => true
  | _ => false

/-- The CAPTURE buffer that woke the poll thread up is still there. -/
def CaptureReady (s : State) : Prop := s.poll.collecting = true → s.captureFinished ≠ []

theorem Transition.captureReady {cfg : Config} {s t : State} {a : Action}
    (h : Transition cfg s a t) (inv : CaptureReady s) : CaptureReady t := by
  cases h with
  | main h =>
    cases h
    case startPoll => simp [CaptureReady, PollPoint.collecting]
    all_goals exact inv
  | poll ans h =>
    cases h
    case pollIn point result ready => exact fun _ => ready
    case nullCamera | tableOverflow | tableUnset | terminate => exact inv
    case dequeueOutput | dequeueOutputFails | enqueueInput | dequeueReuse | queueRequest |
        queueRequestFails =>
      exact fun _ => inv (by simp [PollPoint.collecting, *])
    all_goals simp [CaptureReady, PollPoint.collecting]
  | driver d h =>
    cases h
    case produceCapture | encode => simp [CaptureReady]
    all_goals exact inv
  | callback h | processor ans h | output ans h => rw [h.frame]; exact inv
  | complete | tick => exact inv

/-! ## The callbacks -/

/-- The frame that `EncodeBuffer` queues to the encoder in the step. -/
def encoded (s : State) : Action → Option Frame
  | .processor ans =>
    match s.processor, xioctl ans.replies with
    | .queueOutput _ f _ _ _, some 0 => some f
    | _, _ => none
  | _ => none

/-- The frame for whose OUTPUT buffer `ReuseRequest` dequeues a request in the step. -/
def called (s : State) : Action → Option Frame
  | .poll _ =>
    match s.poll, s.requestsToReuseQueue with
    | .reuseRequest f, _ :: _ => some f
    | _, _ => none
  | _ => none

/-- The frames in the encoder whose callback has not run. -/
def State.uncalled (s : State) : List Frame :=
  s.poll.frame ++ (s.outputQueued ++ s.outputFinished).map (·.frame)

theorem Transition.uncalled {cfg : Config} {s t : State} {a : Action} (h : Transition cfg s a t)
    (phase : Phase s) :
    (s.uncalled ++ (encoded s a).toList).Perm (t.uncalled ++ (called s a).toList) := by
  rw [List.perm_iff_count]
  intro x
  cases h with
  | main h =>
    cases h
    case startPoll point =>
      have fresh := phase.poll_fresh point
      simp [State.uncalled, PollPoint.frame, encoded, called, fresh]
    all_goals simp [State.uncalled, encoded, called]
  | processor ans h =>
    cases h <;> simp [State.uncalled, encoded, called, List.count_cons, *]
  | poll ans h =>
    cases h <;> simp [State.uncalled, PollPoint.frame, encoded, called, List.count_cons, *]
    all_goals omega
  | driver d h =>
    cases h
    case finishOutput i b queued =>
      have := count_map_eraseIdx (·.frame) queued x
      simp [State.uncalled, encoded, called, List.count_cons]
      omega
    case encode b outputs c coding index captures queued coded free =>
      simp [State.uncalled, encoded, called, queued, List.count_cons]
      omega
    all_goals simp [State.uncalled, encoded, called]
  | callback h | output ans h =>
    rw [h.frame]
    simp [State.uncalled, encoded, called]
  | complete | tick => simp [State.uncalled, encoded, called]

/-! ## The idle encoder -/

def ProcessorPoint.inEncodeBuffer : ProcessorPoint → Bool
  | .encodeBuffer .. | .queueOutput .. | .threw .. => true
  | _ => false

/-- No OUTPUT buffer is unfinished, no finished CAPTURE buffer is left to dequeue,
`EncodeBuffer` does not run, and the poll thread is at the head of its loop or waits in `poll`.
Of a frame whose OUTPUT buffer is finished the driver may still have the CAPTURE buffer to
write. -/
@[mk_iff]
structure EncoderIdle (s : State) : Prop where
  outputs : s.outputQueued = []
  captures : s.captureFinished = []
  processor : s.processor.inEncodeBuffer = false
  poll : s.poll = .loopTest ∨ s.poll = .poll

instance : DecidablePred EncoderIdle := fun s => decidable_of_iff _ (encoderIdle_iff s).symm

theorem EncoderIdle.excess {s : State} (idle : EncoderIdle s) :
    s.excess = s.outputFinished.length - s.coding.length := by
  obtain ⟨outputs, captures, -, poll⟩ := idle
  rcases poll with poll | poll <;>
    simp [State.excess, State.outputHeld, PollPoint.between, *]

/-- With every OUTPUT buffer collected, every index is back in the queue. -/
theorem EncoderIdle.available {cfg : Config} {s : State} (idle : EncoderIdle s) (phase : Phase s)
    (slots : InputSlots cfg s) (finished : s.outputFinished = []) :
    s.availableInputBuffers.Perm (List.range cfg.outputCount) := by
  obtain ⟨outputs, -, processor, poll⟩ := idle
  have index : s.processor.index = [] := by
    cases point : s.processor <;>
      simp_all [ProcessorPoint.inEncodeBuffer, ProcessorPoint.index]
  have slot : s.poll.slot = [] := by rcases poll with poll | poll <;> simp [poll, PollPoint.slot]
  have started : 6 < s.main.rank :=
    phase.poll.lt_rank (by rcases poll with poll | poll <;> simp [poll])
  simpa [InputSlots, Partitions, State.outputHeld, index, slot, outputs, finished,
    MainPoint.inputsIssued_eq cfg (by omega : 0 < s.main.rank)] using slots

section Run

variable {cfg : Config} {E : State → Action → Prop} {tr : List (State × Action)} {s : State}

/-- While no CAPTURE `VIDIOC_DQBUF` fails, the excess counts the dropped frames and the failed
OUTPUT `VIDIOC_DQBUF`. -/
theorem PipelineRun.excess (run : PipelineRun cfg E tr s)
    (captures : ∀ s a, E s a → failsCapture s a = false) : s.excess = count leavesInput tr := by
  have := run.withPhase.counts State.excess leavesInput fun s a t ok h =>
    (step_cases h).2.excess ok.1 (captures s a ok.2)
  simpa [initial, State.excess, State.outputHeld, PollPoint.between] using this

theorem PipelineRun.captureReady (run : PipelineRun cfg E tr s) : CaptureReady s :=
  run.invariant CaptureReady (by simp [CaptureReady, initial, PollPoint.collecting])
    fun _ _ _ inv _ h => (step_cases h).2.captureReady inv

theorem PipelineRun.uncalled (run : PipelineRun cfg E tr s) :
    (log encoded tr).Perm (log called tr ++ s.uncalled) :=
  run.withPhase.bag State.uncalled called encoded rfl fun _ _ _ ok h =>
    (step_cases h).2.uncalled ok.1

/-- When the encoder is idle, all finished OUTPUT buffers are collected, all indices are back
in `availableInputBuffers_` and every frame's callback has run, if and only if the driver has
written the CAPTURE buffers of all its frames, and in the whole run no frame was dropped and no
OUTPUT `VIDIOC_DQBUF` failed. -/
theorem inputs_collected_iff (run : PipelineRun cfg E tr s)
    (captures : ∀ s a, E s a → failsCapture s a = false) (idle : EncoderIdle s) :
    (s.outputFinished = [] ∧ s.availableInputBuffers.Perm (List.range cfg.outputCount) ∧
      (log encoded tr).Perm (log called tr)) ↔
    s.coding = [] ∧ ∀ x ∈ tr, leavesInput x.1 x.2 = false := by
  have excess := run.excess captures
  rw [idle.excess] at excess
  rw [← count_eq_zero, ← List.length_eq_zero_iff (l := s.coding)]
  refine ⟨fun collected => ?_, fun ⟨written, paired⟩ => ?_⟩
  · rw [collected.1, List.length_nil] at excess
    omega
  · have finished : s.outputFinished = [] := by
      rw [← List.length_eq_zero_iff]
      omega
    have uncalled : s.uncalled = [] := by
      rcases idle.poll with poll | poll <;>
        simp [State.uncalled, PollPoint.frame, poll, idle.outputs, finished]
    have calls := run.uncalled
    rw [uncalled, List.append_nil] at calls
    exact ⟨finished, idle.available run.phase run.inputSlots finished, calls⟩

/-- The encoder drops its only frame: the finished OUTPUT buffer stays in the driver. -/
theorem input_not_collected :
    ∃ tr s, PipelineRun (.sample 1 1 1) (fun s a => failsCapture s a = false) tr s ∧
      EncoderIdle s ∧ s.coding = [] ∧ s.outputFinished ≠ [] ∧ s.availableInputBuffers = [] :=
  exists_pipelineRun (.sample 1 1 1) (fun s a => failsCapture s a = false)
    (startUp (.sample 1 1 1) ++ capture 0 ++ encodeRound ++
      [.driver (.finishOutput 0), .driver (.drop 0)])
    (fun s => EncoderIdle s ∧ s.coding = [] ∧ s.outputFinished ≠ [] ∧
      s.availableInputBuffers = [])
    (by decide +kernel)

/-- The OUTPUT buffer of the only frame is finished first, and is collected when the CAPTURE
buffer is there. -/
theorem inputs_collected_iff_in_step :
    ∃ s t : State, EncoderIdle s ∧ s.outputFinished ≠ [] ∧ s.coding ≠ [] ∧
      EncoderIdle t ∧ t.completions = 1 ∧ t.availableInputBuffers.Perm (List.range 1) := by
  obtain ⟨tr, s, run, idle, finished, coding, rest⟩ := exists_pipelineRun (.sample 1 1 1)
    (fun s a => failsCapture s a = false ∧ leavesInput s a = false)
    (startUp (.sample 1 1 1) ++ capture 0 ++ encodeRound ++ [.driver (.finishOutput 0)])
    (fun s => EncoderIdle s ∧ s.outputFinished ≠ [] ∧ s.coding ≠ [] ∧
      (exec (step (.sample 1 1 1)) (fun s a => failsCapture s a = false ∧ leavesInput s a = false)
        s (.driver (.produceCapture 0 0 4096 true) :: pollRound)).any
        (fun t => decide (EncoderIdle t ∧ t.coding = [] ∧ t.completions = 1)) = true)
    (by decide +kernel)
  obtain ⟨tr', t, more, collected⟩ := exists_run_of_exec_any rest
  obtain ⟨idle', written, completions⟩ := of_decide_eq_true collected
  have whole := run.trans more
  have collected := (inputs_collected_iff whole (fun _ _ ok => ok.1) idle').mpr
    ⟨written, fun x member => (whole.forall_mem x member).2⟩
  exact ⟨s, t, idle, finished, coding, idle', completions, collected.2.1⟩

end Run

end LibcameraStreamer
