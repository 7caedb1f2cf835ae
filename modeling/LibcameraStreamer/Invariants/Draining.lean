import LibcameraStreamer.Invariants.Order
import LibcameraStreamer.Invariants.Progress

/-!
# The pipeline drains

When the camera completes no further request, the work that is left is bounded, whatever the
order of the threads and the driver, and at its end every frame has been sent or skipped.
-/
namespace LibcameraStreamer
open Library

/-! ## The work that is left -/

/-- The steps of the constructor that are left. -/
def MainPoint.left (cfg : Config) : MainPoint → Nat
  | .enqueueInputs i => (cfg.outputCount - i) + 2 * cfg.captureCount + cfg.requests + 7
  | .mapCapture i => 2 * (cfg.captureCount - i) + cfg.requests + 6
  | .queueCapture i => 2 * (cfg.captureCount - (i + 1)) + cfg.requests + 7
  | .streamOn => cfg.requests + 5
  | .startProcessor => cfg.requests + 4
  | .startOutput => cfg.requests + 3
  | .startCamera rest => rest.length + 2
  | .startPoll => 1
  | _ => 0

/-- A frame takes at most 20 steps from `completedRequestsQueue_` on. -/
def CallbackPoint.work : CallbackPoint → Nat
  | .idle => 0
  | .requestComplete _ .requestComplete => 22
  | .requestComplete _ .requestCancelled | .enqueueReuse _ => 1

def ProcessorPoint.work : ProcessorPoint → Nat
  | .notStarted | .loopTest => 1
  | .lookup _ => 19
  | .encodeBuffer .. => 18
  | .queueOutput .. => 17
  | _ => 0

def OutputPoint.work : OutputPoint → Nat
  | .notStarted | .loopTest => 1
  | .pushFrame _ => 4
  | .outputDone _ => 3
  | .deleteItem _ => 2
  | _ => 0

/-- At its loop head the thread has one step more to make when there is something to collect. -/
def PollPoint.work (ready : Nat) : PollPoint → Nat
  | .notStarted | .loopTest => 5 + ready
  | .poll => 5
  | .dequeueOutput => 4
  | .enqueueInput _ => 3
  | .reuseRequest _ => 2
  | .queueRequest _ => 1
  | .enqueueItem _ => 12
  | _ => 0

def State.work (cfg : Config) (s : State) : Nat :=
  s.main.left cfg + s.callback.work + s.processor.work + s.output.work +
    s.poll.work (min 1 s.captureFinished.length) + 20 * s.completedRequestsQueue.length +
    15 * s.outputQueued.length + 13 * s.captureFinished.length + 5 * s.outputItemsQueue.length

/-- `poll` reports a finished buffer. -/
def Attentive (s : State) : Action → Prop
  | .poll ans => s.poll = .poll → s.captureFinished ≠ [] → ans.pollResult = .pollIn
  | _ => True

instance (s : State) : (a : Action) → Decidable (Attentive s a)
  | .poll _ => inferInstanceAs (Decidable (_ → _))
  | .main | .complete .. | .callback | .processor _ | .output _ | .driver _ | .tick _ =>
    inferInstanceAs (Decidable True)

/-- The camera completes no request. -/
def Action.completes : Action → Bool
  | .complete .. => true
  | _ => false

/-- The steps of a running pipeline whose camera is silent. -/
def Draining (s : State) (a : Action) : Prop :=
  Running s a ∧ a.completes = false ∧ Attentive s a

instance (s : State) (a : Action) : Decidable (Draining s a) :=
  inferInstanceAs (Decidable (_ ∧ _))

/-- The driver keeps the order of the frames. -/
theorem Running.overtakesCapture {s : State} {a : Action} (ok : Running s a) :
    a.overtakesCapture = false := by
  obtain ⟨-, -, -, together⟩ := ok
  cases a with
  | driver d => cases d <;> simp_all [Action.overtakesCapture, Action.unpaired]
  | main | complete | callback | processor | output | poll | tick => rfl

section Step

variable {cfg : Config} {s t : State}

theorem MainStep.work (h : MainStep cfg s t) (phase : Phase s)
    (stays : startsShutdown s .main = false) (rank : s.main.rank ≤ 7) (alive : t.fault = none) :
    t.work cfg < s.work cfg := by
  cases h
  case destructor point => simp [startsShutdown, point] at stays
  case overflow => simp at alive
  case startProcessor point =>
    simp [State.work, MainPoint.left, ProcessorPoint.work, point, phase.processor_fresh point]
  case startOutput point =>
    simp [State.work, MainPoint.left, OutputPoint.work, point, phase.output_fresh point]
  case startPoll point =>
    simp [State.work, MainPoint.left, PollPoint.work, point, phase.poll_fresh point]
  case enqueueInput i point more =>
    simp [State.work, MainPoint.left, point]
    omega
  case mapCapture i point more room =>
    simp [State.work, MainPoint.left, point]
    omega
  case inputsEnqueued | capturesMapped | queueCapture | streamOn | cameraStarted | queueRequest =>
    simp [State.work, MainPoint.left, *]
  all_goals simp_all [MainPoint.rank]

theorem CallbackStep.work (cfg : Config) (h : CallbackStep s t) : t.work cfg < s.work cfg := by
  cases h <;> simp [State.work, CallbackPoint.work, *]
  omega

theorem ProcessorStep.work {ans : Answers} (h : ProcessorStep cfg ans s t) (noThrow : NoThrow t)
    (alive : t.fault = none) : t.work cfg < s.work cfg := by
  cases h
  case throw index f fd size ts point failed => exact absurd rfl (noThrow.processor index f)
  case terminate => simp at alive
  all_goals
    simp [State.work, ProcessorPoint.work, *]
    try omega

theorem OutputStep.work {ans : Answers} (cfg : Config) (h : OutputStep ans s t)
    (noThrow : NoThrow t) (alive : t.fault = none) : t.work cfg < s.work cfg := by
  cases h
  case throw item point failed => exact absurd rfl (noThrow.output item)
  case terminate => simp at alive
  all_goals
    simp [State.work, OutputPoint.work, *]
    try omega

theorem PollStep.work {ans : Answers} (cfg : Config) (h : PollStep ans s t)
    (works : (Action.poll ans).fails = false) (attentive : Attentive s (.poll ans))
    (alive : t.fault = none) :
    t.work cfg + (if idles s (.poll ans) then 0 else 1) ≤ s.work cfg := by
  cases h
  case stop point flag | wait point flag =>
    cases finished : s.captureFinished <;>
      simp [State.work, PollPoint.work, idles, point, finished]
  case nothing point result =>
    have empty : s.captureFinished = [] := by
      by_contra finished
      have ready := attentive point finished
      rcases result with result | result <;> simp [result] at ready
    simp [State.work, PollPoint.work, idles, point, empty]
  case throw code point result => simp [Action.fails, Answers.fails, result] at works
  case dequeueOutputFails point failed => simp [Action.fails, Answers.fails, failed] at works
  case dequeueCaptureFails point failed => simp [Action.fails, Answers.fails, failed] at works
  case dequeueCapture b rest desc point ok finished entry =>
    simp [State.work, PollPoint.work, idles, point, finished]
    omega
  case enqueueItem item point =>
    simp [State.work, PollPoint.work, idles, point]
    omega
  case nullCamera | tableOverflow | tableUnset | terminate => simp at alive
  all_goals simp [State.work, PollPoint.work, idles, *]

theorem DriverStep.work {d : DriverAction} (h : DriverStep cfg s d t)
    (together : (Action.driver d).unpaired = false) : t.work cfg < s.work cfg := by
  cases h
  case encode bytesUsed keyframe b outputs c coding index captures queued coded free =>
    cases poll : s.poll <;> simp [State.work, PollPoint.work, queued, poll] <;> omega
  all_goals simp [Action.unpaired] at together

/-- A step that is not idle does some of the work, and an idle one adds none. -/
theorem Transition.work {a : Action} (h : Transition cfg s a t) (phase : Phase s)
    (rank : s.main.rank ≤ 7) (noThrow : NoThrow t) (alive : t.fault = none)
    (ok : Draining s a) : t.work cfg + (if !idles s a then 1 else 0) ≤ s.work cfg := by
  obtain ⟨⟨stays, -, works, together⟩, silent, attentive⟩ := ok
  cases h with
  | main h => simpa [idles] using h.work phase stays rank alive
  | complete => simp [Action.completes] at silent
  | callback h => simpa [idles] using h.work cfg
  | processor ans h => simpa [idles] using h.work noThrow alive
  | output ans h => simpa [idles] using h.work cfg noThrow alive
  | poll ans h =>
    have done := h.work cfg works attentive alive
    cases idle : idles s (.poll ans) <;> simpa [idle] using done
  | driver d h => simpa [idles] using h.work together
  | tick => simp [idles, State.work]

end Step

/-! ## Where it ends -/

/-- Nothing but idle steps is possible while the camera is silent. -/
def Drained (cfg : Config) (s : State) : Prop :=
  ∀ a, Running s a → a.completes = false → idles s a = false → step cfg s a = none

section Drained

variable {cfg : Config} {s t : State}

/-- The requests that are queued at the camera enable no step but its completions. -/
theorem Transition.withRequests {a : Action} (h : Transition cfg s a t) (alive : s.fault = none)
    (silent : a.completes = false) (requests : List Nat) :
    ∃ u, step cfg { s with queuedRequests := requests } a = some u := by
  cases h with
  | main h => cases h <;> simp [step, mainStep, *]
  | complete => simp [Action.completes] at silent
  | callback h => cases h <;> simp [step, requestComplete, *]
  | processor ans h =>
    cases h <;>
      simp [step, completedRequestsProcessor, waitForCompletedRequest, encodeBuffer, *]
  | output ans h =>
    cases h <;> simp [step, encodedFramesProcessor, waitForNextOutputItem, outputDone, *]
  | poll ans h =>
    cases h
    case nothing point result => rcases result with result | result <;> simp [step, pollEncoder, *]
    case pollIn point result ready =>
      obtain ⟨b, rest, finished⟩ := List.exists_cons_of_ne_nil ready
      simp [step, pollEncoder, *]
    all_goals
      simp [step, pollEncoder, pollReadyToReuseOutputBuffers, reuseRequest,
        pollReadyToProcessCaptureBuffers, *]
  | driver d h => cases h <;> simp [step, driverStep, *]
  | tick us bound => simpa [step, alive] using bound

/-- So the pipeline without them is stuck. -/
theorem Drained.stuck (drained : Drained cfg s) :
    Stuck cfg { s with queuedRequests := [] } := by
  intro a ok moves
  by_contra enabled
  obtain ⟨u, h⟩ := Option.ne_none_iff_exists'.mp enabled
  obtain ⟨alive, h⟩ := step_cases h
  have silent : a.completes = false := by
    cases h with
    | complete r status idle queued => simp at queued
    | main | callback | processor | output | poll | driver | tick => rfl
  obtain ⟨v, possible⟩ := h.withRequests alive silent s.queuedRequests
  have none := drained a ok silent moves
  exact absurd (none.symm.trans possible) (by simp)

theorem Alive.withoutRequests (alive : Alive cfg s) :
    Alive cfg { s with queuedRequests := [] } where
  phase := { alive.phase with }
  rank := alive.rank
  captures := { alive.captures with }
  noThrow := { alive.noThrow with }
  paired := { alive.paired with }
  ready := alive.ready
  fault := alive.fault

/-- Where the threads wait when the pipeline is drained. -/
structure AtRest (s : State) : Prop where
  main : s.main = .running
  callback : s.callback = .idle
  processor : s.processor = .waitForCompletedRequest
  completed : s.completedRequestsQueue = []
  output : s.output = .waitForNextOutputItem
  items : s.outputItemsQueue = []
  poll : s.poll = .loopTest ∨ s.poll = .poll
  captureFinished : s.captureFinished = []
  outputQueued : s.outputQueued = []

/-- A pipeline at rest waits for the camera. -/
theorem AtRest.drained (rest : AtRest s) : Drained cfg s := by
  obtain ⟨main, callback, processor, completed, output, items, poll, finished, queued⟩ := rest
  intro a ok silent moves
  by_contra enabled
  obtain ⟨u, h⟩ := Option.ne_none_iff_exists'.mp enabled
  obtain ⟨stays, -, -, together⟩ := ok
  cases (step_cases h).2 with
  | main => simp [startsShutdown, main] at stays
  | complete => simp [Action.completes] at silent
  | callback h => cases h <;> simp [callback] at *
  | processor ans h => cases h <;> simp_all
  | output ans h => cases h <;> simp_all
  | poll ans h => rcases poll with poll | poll <;> simp [idles, poll, finished] at moves
  | driver d h => cases h <;> simp_all [Action.unpaired]
  | tick => simp [idles] at moves

/-- And a drained pipeline is at rest. -/
theorem Drained.atRest {tr : List (State × Action)} (drained : Drained cfg s)
    (run : PipelineRun cfg Running tr s) (captures : 1 ≤ cfg.captureCount)
    (room : cfg.captureCount ≤ captureBuffersCount) : AtRest s := by
  have alive := (run.alive room).withoutRequests
  have stuck := drained.stuck
  have owed := run.length_owed
  obtain ⟨poll, finished⟩ := stuck.poll alive owed
  obtain ⟨processor, completed⟩ := stuck.processor alive
  obtain ⟨output, items⟩ := stuck.output alive
  exact ⟨stuck.main alive, stuck.callback alive, processor, completed, output, items, poll,
    finished, stuck.outputQueued alive owed captures⟩

end Drained

/-- The completed frames without the skipped ones are the sent ones and those on their way. -/
theorem PipelineRun.completed_eq {cfg : Config} {tr : List (State × Action)} {s : State}
    (run : PipelineRun cfg Running tr s) :
    (log completed tr).filter (· ∉ log skipped tr) =
      (log pushed tr).map (·.frame) ++ s.inFlight := by
  obtain ⟨sub, perm⟩ := run.withPhase.lossyQueue State.inFlight
    (fun s a => (pushed s a).map (·.frame)) skipped completed rfl fun s a t ok h =>
      (step_cases h).2.inFlight ok.1 ok.2.overtakesCapture
  rw [log_map] at sub perm
  exact filter_eq_of_sublist_of_perm sub perm run.completed_nodup

/-- Each step of a silent pipeline that is not idle does some of its work. -/
theorem PipelineRun.countdown_work {cfg : Config} {tr tr' : List (State × Action)} {s t : State}
    (run : PipelineRun cfg Running tr s) (more : Run (Steps (step cfg)) Draining s tr' t)
    (room : cfg.captureCount ≤ captureBuffersCount) :
    count (fun s a => !idles s a) tr' + t.work cfg ≤ s.work cfg := by
  have reached := more.strengthen (fun u => ∃ tr, PipelineRun cfg Running tr u) ⟨tr, run⟩
    fun u a v ⟨_, before⟩ ok h => ⟨_, before.snoc ok.1 h⟩
  refine reached.countdown (State.work cfg) (fun s a => !idles s a) fun u a v ok h => ?_
  obtain ⟨⟨_, before⟩, ok⟩ := ok
  have alive := before.alive room
  have later : PipelineRun cfg Running _ v := before.snoc ok.1 h
  have after := later.alive room
  exact (step_cases h).2.work alive.phase alive.rank after.noThrow after.fault ok

theorem AtRest.outputFinished {cfg : Config} {tr : List (State × Action)} {s : State}
    (rest : AtRest s) (run : PipelineRun cfg Running tr s)
    (room : cfg.captureCount ≤ captureBuffersCount) : s.outputFinished = [] := by
  have finished := (run.alive room).paired.finished
  rcases rest.poll with poll | poll <;>
    simpa [poll, rest.captureFinished, PollPoint.between] using finished

theorem AtRest.inFlight {cfg : Config} {tr : List (State × Action)} {s : State} (rest : AtRest s)
    (run : PipelineRun cfg Running tr s) (room : cfg.captureCount ≤ captureBuffersCount) :
    s.inFlight = [] := by
  have coding : s.coding = [] := by
    have queued := (run.alive room).paired.queued
    exact List.length_eq_zero_iff.mp (by simpa [rest.outputQueued] using queued.symm)
  rcases rest.poll with poll | poll <;>
    simp [State.inFlight, State.unsent, rest.output, OutputPoint.unsent, rest.items, poll,
      PollPoint.item, rest.captureFinished, coding, rest.processor, ProcessorPoint.frame,
      rest.completed]

/-- The work is bounded by the numbers of requests and buffers. -/
theorem PipelineRun.work_le {cfg : Config} {E : State → Action → Prop}
    {tr : List (State × Action)} {s : State} (run : PipelineRun cfg E tr s) :
    s.work cfg ≤ 21 * cfg.requests + 16 * cfg.outputCount + 15 * cfg.captureCount + 64 := by
  have owed := run.length_owed
  have requests := run.requests_le
  have slots := run.inputSlots.length
  have owners := run.captures.owners.length
  have inputs : s.main.inputsIssued cfg ≤ cfg.outputCount := by
    cases s.main <;> simp [MainPoint.inputsIssued]
  have captures := run.captures.capturesIssued_le
  simp only [State.encoding, State.withCamera, State.outputHeld, List.length_append,
    List.length_map, List.map_append, List.map_cons, List.map_nil, List.sum_cons, List.sum_nil,
    List.length_range] at owed requests slots owners
  have main : s.main.left cfg ≤
      cfg.outputCount + 2 * cfg.captureCount + cfg.requests + 7 := by
    cases main : s.main <;> simp [MainPoint.left, MainPoint.unqueued, main] at requests ⊢ <;>
      omega
  have callback : s.callback.work ≤ 22 := by fun_cases CallbackPoint.work s.callback <;> simp
  have processor : s.processor.work ≤ 19 := by fun_cases ProcessorPoint.work s.processor <;> simp
  have output : s.output.work ≤ 4 := by fun_cases OutputPoint.work s.output <;> simp
  have poll : s.poll.work (min 1 s.captureFinished.length) ≤ 12 := by
    cases s.poll <;> simp [PollPoint.work] <;> omega
  simp only [State.work]
  omega

/-- A run of the pipeline goes on while the camera completes no further request: the steps that
are not idle are at most `State.work`, a bounded number. When none is left, the frames that were
completed and not skipped have been sent, in their order, and all buffers are back where the
constructor had put them. -/
theorem pipeline_drains {cfg : Config} {tr tr' : List (State × Action)} {s t : State}
    (run : PipelineRun cfg Running tr s) (more : Run (Steps (step cfg)) Draining s tr' t)
    (captures : 1 ≤ cfg.captureCount) (room : cfg.captureCount ≤ captureBuffersCount) :
    count (fun s a => !idles s a) tr' + t.work cfg ≤ s.work cfg ∧
    s.work cfg ≤ 21 * cfg.requests + 16 * cfg.outputCount + 15 * cfg.captureCount + 64 ∧
    (Drained cfg t →
      (log completed (tr ++ tr')).filter (· ∉ log skipped (tr ++ tr')) =
        (log pushed (tr ++ tr')).map (·.frame) ∧
      t.availableInputBuffers.Perm (List.range cfg.outputCount) ∧
      t.captureQueued.Perm (List.range cfg.captureCount)) := by
  have whole : PipelineRun cfg Running (tr ++ tr') t := run.trans (more.mono fun _ _ ok => ok.1)
  refine ⟨run.countdown_work more room, run.work_le, fun drained => ?_⟩
  have rest := drained.atRest whole captures room
  have finished := rest.outputFinished whole room
  refine ⟨?_, ?_, ?_⟩
  · rw [whole.completed_eq, rest.inFlight whole room, List.append_nil]
  · have slots := whole.inputSlots
    rcases rest.poll with poll | poll <;>
      simpa [InputSlots, Partitions, rest.processor, ProcessorPoint.index, State.outputHeld,
        rest.outputQueued, finished, poll, PollPoint.slot, rest.main, MainPoint.inputsIssued]
        using slots
  · have owners := whole.captures.owners
    rcases rest.poll with poll | poll <;>
      simpa [Partitions, rest.captureFinished, poll, PollPoint.item, rest.items, rest.output,
        OutputPoint.item, rest.main, MainPoint.capturesIssued] using owners

instance (s : State) : Decidable (AtRest s) :=
  decidable_of_iff (s.main = .running ∧ s.callback = .idle ∧
    s.processor = .waitForCompletedRequest ∧ s.completedRequestsQueue = [] ∧
    s.output = .waitForNextOutputItem ∧ s.outputItemsQueue = [] ∧
    (s.poll = .loopTest ∨ s.poll = .poll) ∧ s.captureFinished = [] ∧ s.outputQueued = [])
    ⟨fun ⟨a, b, c, d, e, f, g, h, i⟩ => ⟨a, b, c, d, e, f, g, h, i⟩,
      fun ⟨a, b, c, d, e, f, g, h, i⟩ => ⟨a, b, c, d, e, f, g, h, i⟩⟩

/-- Two requests and one input slot: of two frames the second is skipped, and when the pipeline
is drained the first has been sent. -/
theorem pipeline_drains_after_skip :
    ∃ tr s tr' t, PipelineRun (.sample 2 1 1) Running tr s ∧
      Run (Steps (step (.sample 2 1 1))) Draining s tr' t ∧
      s.work (.sample 2 1 1) = 47 ∧
      count (fun s a => !idles s a) tr' + t.work (.sample 2 1 1) ≤ s.work (.sample 2 1 1) ∧
      (log completed (tr ++ tr')).filter (· ∉ log skipped (tr ++ tr')) =
        (log pushed (tr ++ tr')).map (·.frame) ∧
      t.availableInputBuffers.Perm (List.range 1) ∧ t.captureQueued.Perm (List.range 1) := by
  let rounds := encodeRound ++ List.replicate 5 (.processor {}) ++ [.driver (.encode 4096 true)] ++
    pollRound ++ outputRound ++ [.output {}]
  obtain ⟨tr, s, run, work, rest⟩ := exists_pipelineRun (.sample 2 1 1) Running
    (startUp (.sample 2 1 1) ++ capture 0 ++ capture 1)
    (fun s => s.work (.sample 2 1 1) = 47 ∧
      (exec (step (.sample 2 1 1)) Draining s rounds).any (fun t => decide (AtRest t)) = true)
    (by decide +kernel)
  obtain ⟨tr', t, more, rest⟩ := exists_run_of_exec_any rest
  have drains := pipeline_drains run more (by decide) (by decide)
  exact ⟨tr, s, tr', t, run, more, work, drains.1,
    drains.2.2 (of_decide_eq_true rest : AtRest t).drained⟩

end LibcameraStreamer
