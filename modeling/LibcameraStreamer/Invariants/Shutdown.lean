import LibcameraStreamer.Invariants.Collection
import LibcameraStreamer.Invariants.Requests
import LibcameraStreamer.Model.Enabled

/-!
# The destructor

The destructor sets a flag that the two processors read only before they wait for input, it
resets the camera while the poll thread still hands requests back to it, and it joins each
thread without waking it up. Whether it hangs or crashes depends on where the threads stand
when it resets the camera and stops the manager.
-/
namespace LibcameraStreamer
open Library

/-! ## Joining a blocked thread -/

/-- Whatever happens from `s` on, as far as `F` allows it, nothing enters the queue. -/
def StaysEmpty {α : Type} (cfg : Config) (F : State → Action → Prop) (queue : State → List α)
    (s : State) : Prop :=
  ∀ tr t, Run (Steps (step cfg)) F s tr t → queue t = []

/-- The destructor waits in `join` for a thread that waits in `wait_dequeue` for an element
that never comes. -/
def Deadlocked (cfg : Config) (F : State → Action → Prop) (s : State) : Prop :=
  s.fault = none ∧
    ((s.main = .joinProcessor ∧ s.processor = .waitForCompletedRequest ∧
        StaysEmpty cfg F State.completedRequestsQueue s) ∨
      (s.main = .joinOutput ∧ s.output = .waitForNextOutputItem ∧
        StaysEmpty cfg F State.outputItemsQueue s))

/-- The camera's thread is about to enqueue a completed request. -/
def CallbackPoint.delivering : CallbackPoint → Bool
  | .requestComplete _ .requestComplete => true
  | _ => false

/-- The poll thread is about to enqueue an item. -/
def PollPoint.delivering : PollPoint → Bool
  | .dequeueCapture | .enqueueItem _ => true
  | _ => false

theorem CallbackPoint.delivering_iff (c : CallbackPoint) :
    c.delivering = true ↔ ∃ r, c = .requestComplete r .requestComplete := by
  rcases c with _ | ⟨r, status⟩ | r <;> simp [delivering]
  cases status <;> simp

theorem PollPoint.delivering_iff (p : PollPoint) :
    p.delivering = true ↔ p = .dequeueCapture ∨ ∃ item, p = .enqueueItem item := by
  cases p <;> simp [delivering]

/-- `completedRequestsProcessor` waits, and no completion is on its way. -/
def ProcessorStarves (s : State) : Prop :=
  s.processor = .waitForCompletedRequest ∧ s.completedRequestsQueue = [] ∧
    s.callback.delivering = false

/-- `encodedFramesProcessor` waits, and the poll thread is not about to enqueue an item. -/
def OutputStarves (s : State) : Prop :=
  s.output = .waitForNextOutputItem ∧ s.outputItemsQueue = [] ∧ s.poll.delivering = false

instance : DecidablePred ProcessorStarves := fun _ => inferInstanceAs (Decidable (_ ∧ _))
instance : DecidablePred OutputStarves := fun _ => inferInstanceAs (Decidable (_ ∧ _))

/-- When the destructor resets the camera, the output thread does not wait for an item that is
still in the encoder; when it stops the camera manager, the processor does not wait for a
completion that is not on its way; and once the camera is reset, the CAPTURE `VIDIOC_DQBUF`
that the output thread waits for does not fail. -/
@[mk_iff]
structure Wakes (s : State) (a : Action) : Prop where
  resetCamera : s.main = .resetCamera → a = .main → ¬ OutputStarves s
  stopManager : s.main = .stopManager → a = .main → ¬ ProcessorStarves s
  capture : s.camera = none → failsCapture s a = true → s.output = .waitForNextOutputItem →
    s.outputItemsQueue ≠ []

instance (s : State) (a : Action) : Decidable (Wakes s a) := decidable_of_iff _ (wakes_iff s a).symm

/-- No thread starves after the step of the destructor that decides about it. -/
structure Fed (s : State) : Prop where
  processor : 10 < s.main.rank → ¬ ProcessorStarves s
  output : 9 < s.main.rank → ¬ OutputStarves s

theorem MainStep.fed {cfg : Config} {s t : State} (h : MainStep cfg s t) (ok : Wakes s .main)
    (inv : Fed s) : Fed t := by
  obtain ⟨processor, output⟩ := inv
  cases h
  case resetCamera point => exact ⟨by simp [MainPoint.rank], fun _ => ok.resetCamera point rfl⟩
  case stopManager point =>
    exact ⟨fun _ => ok.stopManager point rfl, fun _ => output (by simp [point, MainPoint.rank])⟩
  case overflow => exact ⟨processor, output⟩
  case joinProcessor | joinOutput | setEncoderStop | joinPoll | destroyStream | destroySession =>
    exact ⟨fun _ => processor (by simp [MainPoint.rank, *]),
      fun _ => output (by simp [MainPoint.rank, *])⟩
  all_goals exact ⟨by simp [MainPoint.rank], by simp [MainPoint.rank]⟩

theorem CallbackStep.fed {s t : State} (h : CallbackStep s t) (inv : Fed s) : Fed t := by
  obtain ⟨processor, output⟩ := inv
  cases h
  case enqueueCompleted r point => exact ⟨fun _ starves => by simpa using starves.2.1, output⟩
  all_goals
    refine ⟨fun late starves => processor late ⟨starves.1, starves.2.1, ?_⟩, output⟩
    simp [CallbackPoint.delivering, *]

theorem ProcessorStep.fed {cfg : Config} {ans : Answers} {s t : State}
    (h : ProcessorStep cfg ans s t) (phase : Phase s) (inv : Fed s) : Fed t := by
  obtain ⟨processor, output⟩ := inv
  cases h
  case wait point flag =>
    refine ⟨fun late => ?_, output⟩
    have := phase.stop.mpr (by simp only at late; omega)
    simp [flag] at this
  case terminate index f point => exact ⟨processor, output⟩
  all_goals exact ⟨fun _ starves => by simpa using starves.1, output⟩

theorem OutputStep.fed {ans : Answers} {s t : State} (h : OutputStep ans s t) (phase : Phase s)
    (inv : Fed s) : Fed t := by
  obtain ⟨processor, output⟩ := inv
  cases h
  case wait point flag =>
    refine ⟨processor, fun late => ?_⟩
    have := phase.stop.mpr (by simp only at late; omega)
    simp [flag] at this
  case terminate item point => exact ⟨processor, output⟩
  all_goals exact ⟨processor, fun _ starves => by simpa using starves.1⟩

theorem PollStep.fed {ans : Answers} {s t : State} (h : PollStep ans s t) (phase : Phase s)
    (ok : Wakes s (.poll ans)) (inv : Fed s) : Fed t := by
  obtain ⟨processor, output⟩ := inv
  cases h
  case dequeueCaptureFails point failed =>
    refine ⟨processor, fun late starves => ?_⟩
    exact ok.capture (phase.camera.mpr late) (by simp [failsCapture, point, failed]) starves.1
      starves.2.1
  case enqueueItem item point => exact ⟨processor, fun _ starves => by simpa using starves.2.1⟩
  case nullCamera | tableOverflow | tableUnset | terminate => exact ⟨processor, output⟩
  case dequeueCapture | dequeueOutputFails | queueRequest | queueRequestFails =>
    exact ⟨processor, fun _ starves => by simpa [PollPoint.delivering] using starves.2.2⟩
  all_goals
    refine ⟨processor, fun late starves => output late ⟨starves.1, starves.2.1, ?_⟩⟩
    simp [PollPoint.delivering, *]

theorem Transition.fed {cfg : Config} {s t : State} {a : Action} (h : Transition cfg s a t)
    (phase : Phase s) (ok : Wakes s a) (inv : Fed s) : Fed t := by
  cases h with
  | main h => exact h.fed ok inv
  | callback h => exact h.fed inv
  | processor ans h => exact h.fed phase inv
  | output ans h => exact h.fed phase inv
  | poll ans h => exact h.fed phase ok inv
  | complete r status idle queued allowed =>
    refine ⟨fun late starves => inv.processor late ⟨starves.1, starves.2.1, ?_⟩, inv.output⟩
    simp [idle, CallbackPoint.delivering]
  | driver d h => rw [h.frame]; exact ⟨inv.processor, inv.output⟩
  | tick => exact ⟨inv.processor, inv.output⟩

section Run

variable {cfg : Config} {E F : State → Action → Prop} {tr : List (State × Action)} {s : State}

theorem PipelineRun.fed (run : PipelineRun cfg E tr s) (wakes : ∀ s a, E s a → Wakes s a) :
    Fed s :=
  run.withPhase.invariant Fed ⟨by simp [initial, MainPoint.rank], by simp [initial, MainPoint.rank]⟩
    fun s a _ inv ok h => (step_cases h).2.fed ok.1 (wakes s a ok.2) inv

/-- A completion on its way is enqueued by the next step of the camera's thread. -/
theorem enqueueCompleted_enabled (alive : s.fault = none) (point : s.callback.delivering = true) :
    ∃ t, step cfg s .callback = some t ∧ t.completedRequestsQueue ≠ [] := by
  obtain ⟨r, point⟩ := (CallbackPoint.delivering_iff _).mp point
  have h : Transition cfg s .callback _ := .callback (.enqueueCompleted r point)
  exact ⟨_, h.step_eq alive, by simp⟩

theorem enqueueItem_enabled (alive : s.fault = none) {item : OutputItem}
    (point : s.poll = .enqueueItem item) :
    ∃ t, step cfg s (.poll {}) = some t ∧ t.outputItemsQueue ≠ [] :=
  have h : Transition cfg s (.poll {}) _ := .poll {} (.enqueueItem item point)
  ⟨_, h.step_eq alive, by simp⟩

/-- A finished CAPTURE buffer becomes an item, because its entry of `buffers_` is filled in. -/
theorem dequeueCapture_enabled (alive : s.fault = none) (captures : Captures cfg s)
    (ready : CaptureReady s) (point : s.poll = .dequeueCapture) :
    ∃ t item, step cfg s (.poll {}) = some t ∧ t.fault = none ∧ t.poll = .enqueueItem item := by
  obtain ⟨b, rest, finished⟩ :=
    List.exists_cons_of_ne_nil (ready (by simp [point, PollPoint.collecting]))
  have entry := captures.entry (b := b) (by simp [finished])
  have h : Transition cfg s (.poll {}) _ :=
    .poll {} (.dequeueCapture b rest _ point rfl finished entry)
  exact ⟨_, _, h.step_eq alive, alive, rfl⟩

/-- In a run whose steps all supply the threads, the destructor never waits for a thread that is
blocked for good. -/
theorem PipelineRun.not_deadlocked (run : PipelineRun cfg E tr s)
    (wakes : ∀ s a, E s a → Wakes s a) (works : ∀ s a, a.fails = false → F s a) :
    ¬ Deadlocked cfg F s := by
  have fed := run.fed wakes
  rintro ⟨alive, ⟨main, point, empty⟩ | ⟨main, point, empty⟩⟩
  · refine fed.processor (by simp [main, MainPoint.rank]) ⟨point, empty [] s (.nil s), ?_⟩
    by_contra delivering
    obtain ⟨t, h, filled⟩ := enqueueCompleted_enabled alive (by simpa using delivering)
    exact filled (empty _ t (.single (works _ _ rfl) h))
  · refine fed.output (by simp [main, MainPoint.rank]) ⟨point, empty [] s (.nil s), ?_⟩
    by_contra delivering
    have delivering : s.poll.delivering = true := by simpa using delivering
    rcases (PollPoint.delivering_iff _).mp delivering with dequeue | ⟨item, enqueue⟩
    · obtain ⟨t, item, h, alive', enqueue⟩ :=
        dequeueCapture_enabled alive run.captures run.captureReady dequeue
      obtain ⟨u, h', filled⟩ := enqueueItem_enabled alive' enqueue
      exact filled (empty _ u (.snoc (.single (works _ _ rfl) h) (works _ _ rfl) h'))
    · obtain ⟨t, h, filled⟩ := enqueueItem_enabled alive enqueue
      exact filled (empty _ t (.single (works _ _ rfl) h))

/-! ## A starved thread is blocked for good -/

/-- After the manager has stopped, no completion reaches the queue any more. -/
theorem Transition.processorStarves {s t : State} {a : Action} (h : Transition cfg s a t)
    (inv : s.managerRunning = false ∧ s.completedRequestsQueue = [] ∧
      s.callback.delivering = false) :
    t.managerRunning = false ∧ t.completedRequestsQueue = [] ∧ t.callback.delivering = false := by
  obtain ⟨manager, queue, delivering⟩ := inv
  cases h with
  | main h =>
    cases h
    case stopManager => exact ⟨rfl, queue, delivering⟩
    all_goals exact ⟨manager, queue, delivering⟩
  | complete r status idle queued allowed =>
    have cancelled : status = .requestCancelled := by simpa [manager] using allowed
    exact ⟨manager, queue, by simp [cancelled, CallbackPoint.delivering]⟩
  | callback h =>
    cases h
    case enqueueCompleted r point => simp [point, CallbackPoint.delivering] at delivering
    all_goals exact ⟨manager, queue, rfl⟩
  | processor ans h =>
    cases h
    case dequeue f rest point some => simp [queue] at some
    all_goals exact ⟨manager, queue, delivering⟩
  | output ans h | poll ans h | driver d h => rw [h.frame]; exact ⟨manager, queue, delivering⟩
  | tick => exact ⟨manager, queue, delivering⟩

theorem deadlocked_of_processorStarves (alive : s.fault = none) (main : s.main = .joinProcessor)
    (manager : s.managerRunning = false) (starves : ProcessorStarves s) : Deadlocked cfg F s := by
  refine ⟨alive, .inl ⟨main, starves.1, fun tr t run => ?_⟩⟩
  exact (run.invariant (fun s => s.managerRunning = false ∧ s.completedRequestsQueue = [] ∧
    s.callback.delivering = false) ⟨manager, starves.2⟩ fun _ _ _ inv _ h =>
      (step_cases h).2.processorStarves inv).2.1

/-- The pipeline is shut down while it is idle: the processor waits for a completion, and the
destructor waits for the processor. -/
theorem shutdown_deadlocks :
    ∃ tr s, PipelineRun (.sample 1 1 1) (fun _ a => a.fails = false) tr s ∧
      Deadlocked (.sample 1 1 1) (fun _ _ => True) s := by
  obtain ⟨tr, s, run, alive, main, manager, starves⟩ := exists_pipelineRun (.sample 1 1 1)
    (fun _ a => a.fails = false)
    (startUp (.sample 1 1 1) ++ [.processor {}, .output {}] ++ List.replicate 4 .main)
    (fun s => s.fault = none ∧ s.main = .joinProcessor ∧ s.managerRunning = false ∧
      ProcessorStarves s) (by decide +kernel)
  exact ⟨tr, s, run, deadlocked_of_processorStarves alive main manager starves⟩

/-- After the camera is reset, a poll thread without an item in its hand reaches
`queueRequest` before it dequeues another one. -/
theorem Transition.outputStarves {s t : State} {a : Action} (h : Transition cfg s a t)
    (works : a.fails = false)
    (inv : s.camera = none ∧ s.outputItemsQueue = [] ∧ s.poll.delivering = false) :
    t.camera = none ∧ t.outputItemsQueue = [] ∧ t.poll.delivering = false := by
  obtain ⟨camera, queue, delivering⟩ := inv
  cases h with
  | main h =>
    cases h
    case resetCamera => exact ⟨rfl, queue, delivering⟩
    case startPoll => exact ⟨camera, queue, rfl⟩
    all_goals exact ⟨camera, queue, delivering⟩
  | poll ans h =>
    cases h
    case dequeueOutputFails point failed => simp [Action.fails, Answers.fails, failed] at works
    case queueRequest r c point some ok => simp [camera] at some
    case queueRequestFails r c point some failed => simp [camera] at some
    case enqueueItem item point => simp [point, PollPoint.delivering] at delivering
    case dequeueCapture b rest desc point ok finished entry =>
      simp [point, PollPoint.delivering] at delivering
    case nullCamera | tableOverflow | tableUnset | terminate => exact ⟨camera, queue, delivering⟩
    all_goals exact ⟨camera, queue, rfl⟩
  | output ans h =>
    cases h
    case dequeue item rest point some => simp [queue] at some
    all_goals exact ⟨camera, queue, delivering⟩
  | callback h | processor ans h | driver d h => rw [h.frame]; exact ⟨camera, queue, delivering⟩
  | complete | tick => exact ⟨camera, queue, delivering⟩

theorem deadlocked_of_outputStarves (alive : s.fault = none) (main : s.main = .joinOutput)
    (camera : s.camera = none) (starves : OutputStarves s) : Deadlocked cfg Works s := by
  refine ⟨alive, .inr ⟨main, starves.1, fun tr t run => ?_⟩⟩
  exact (run.invariant (fun s => s.camera = none ∧ s.outputItemsQueue = [] ∧
    s.poll.delivering = false) ⟨camera, starves.2⟩ fun _ _ _ inv works h =>
      (step_cases h).2.outputStarves works inv).2.1

/-- What the steps of the processor and of the camera's thread do not touch. -/
def Unmoved (s t : State) : Prop :=
  t.fault = none ∧ t.main = s.main ∧ t.stopRequested = s.stopRequested ∧ t.camera = s.camera ∧
    t.output = s.output ∧ t.outputItemsQueue = s.outputItemsQueue ∧ t.poll = s.poll

theorem Unmoved.of_alive (alive : s.fault = none) {processor : ProcessorPoint}
    {callback : CallbackPoint} {completed : List Frame} {completions : Nat} {available : List Nat}
    {outputs : List OutputBuffer} {coding : List CodedFrame} :
    Unmoved s { s with
      processor := processor, callback := callback, completedRequestsQueue := completed
      completions := completions, availableInputBuffers := available, outputQueued := outputs
      coding := coding } :=
  ⟨alive, rfl, rfl, rfl, rfl, rfl, rfl⟩

/-- The processor can return, whatever the other threads wait for. -/
def CanReturn (cfg : Config) (s : State) : Prop :=
  ∃ tr t, Run (Steps (step cfg)) Works s tr t ∧ t.processor = .returned ∧ Unmoved s t

theorem CanReturn.of_step {t : State} {a : Action} (works : Works s a)
    (h : step cfg s a = some t) (unmoved : Unmoved s t) (later : CanReturn cfg t) :
    CanReturn cfg s := by
  obtain ⟨tr, u, run, returned, rest⟩ := later
  obtain ⟨-, main, stop, camera, output, items, poll⟩ := unmoved
  obtain ⟨alive, main', stop', camera', output', items', poll'⟩ := rest
  have first : Run (Steps (step cfg)) Works s [(s, a)] t := .single works h
  exact ⟨_, u, first.trans run, returned, alive, main'.trans main, stop'.trans stop,
    camera'.trans camera, output'.trans output, items'.trans items, poll'.trans poll⟩

theorem canReturn_loopTest (alive : s.fault = none) (stop : s.stopRequested = true)
    (point : s.processor = .loopTest) : CanReturn cfg s :=
  have h : Transition cfg s (.processor {}) _ := .processor {} (.stop point stop)
  ⟨_, _, .single rfl (h.step_eq alive), rfl, .of_alive alive⟩

theorem canReturn_queueOutput (alive : s.fault = none) (stop : s.stopRequested = true)
    {index size : Nat} {f : Frame} {fd ts : Int}
    (point : s.processor = .queueOutput index f fd size ts) : CanReturn cfg s :=
  have h : Transition cfg s (.processor {}) _ :=
    .processor {} (.queueOutput index f fd size ts point rfl)
  .of_step rfl (h.step_eq alive) (.of_alive alive) (canReturn_loopTest alive stop rfl)

theorem canReturn_encodeBuffer (alive : s.fault = none) (stop : s.stopRequested = true)
    {size : Nat} {f : Frame} {fd ts : Int} (point : s.processor = .encodeBuffer f fd size ts) :
    CanReturn cfg s := by
  cases queue : s.availableInputBuffers with
  | nil =>
    have h : Transition cfg s (.processor {}) _ := .processor {} (.skip f fd size ts point queue)
    exact .of_step rfl (h.step_eq alive) (.of_alive alive) (canReturn_loopTest alive stop rfl)
  | cons index rest =>
    have h : Transition cfg s (.processor {}) _ :=
      .processor {} (.takeIndex f fd size ts index rest point queue)
    exact .of_step rfl (h.step_eq alive) (.of_alive alive) (canReturn_queueOutput alive stop rfl)

theorem canReturn_lookup (alive : s.fault = none) (stop : s.stopRequested = true) {f : Frame}
    (point : s.processor = .lookup f) : CanReturn cfg s :=
  have h : Transition cfg s (.processor {}) _ := .processor {} (.lookup f point)
  .of_step rfl (h.step_eq alive) (.of_alive alive) (canReturn_encodeBuffer alive stop rfl)

theorem canReturn_wait (alive : s.fault = none) (stop : s.stopRequested = true)
    (point : s.processor = .waitForCompletedRequest) (queue : s.completedRequestsQueue ≠ []) :
    CanReturn cfg s := by
  obtain ⟨f, rest, queue⟩ := List.exists_cons_of_ne_nil queue
  have h : Transition cfg s (.processor {}) _ := .processor {} (.dequeue f rest point queue)
  exact .of_step rfl (h.step_eq alive) (.of_alive alive) (canReturn_lookup alive stop rfl)

/-- A processor that is started, has not thrown and does not starve can return. -/
theorem canReturn (alive : s.fault = none) (stop : s.stopRequested = true)
    (started : s.processor ≠ .notStarted) (calm : ∀ index f, s.processor ≠ .threw index f)
    (fed : ¬ ProcessorStarves s) : CanReturn cfg s := by
  cases point : s.processor with
  | notStarted => contradiction
  | threw index f => exact absurd point (calm index f)
  | returned => exact ⟨[], s, .nil s, point, alive, rfl, rfl, rfl, rfl, rfl, rfl⟩
  | loopTest => exact canReturn_loopTest alive stop point
  | lookup f => exact canReturn_lookup alive stop point
  | encodeBuffer f fd size ts => exact canReturn_encodeBuffer alive stop point
  | queueOutput index f fd size ts => exact canReturn_queueOutput alive stop point
  | waitForCompletedRequest =>
    by_cases queue : s.completedRequestsQueue = []
    · have delivering : s.callback.delivering = true := by
        by_contra none
        exact fed ⟨point, queue, by simpa using none⟩
      obtain ⟨r, callback⟩ := (CallbackPoint.delivering_iff _).mp delivering
      have h : Transition cfg s .callback _ := .callback (.enqueueCompleted r callback)
      exact .of_step rfl (h.step_eq alive) (.of_alive alive)
        (canReturn_wait alive stop point (by simp))
    · exact canReturn_wait alive stop point queue

theorem exists_deadlock_joinProcessor (alive : s.fault = none) (main : s.main = .joinProcessor)
    (phase : Phase s) (calm : ∀ index f, s.processor ≠ .threw index f) (starves : OutputStarves s) :
    ∃ tr t, Run (Steps (step cfg)) Works s tr t ∧ Deadlocked cfg Works t := by
  have stop : s.stopRequested = true := phase.stop.mpr (by simp [main, MainPoint.rank])
  have camera : s.camera = none := phase.camera.mpr (by simp [main, MainPoint.rank])
  have manager : s.managerRunning = false := phase.manager.mpr (by simp [main, MainPoint.rank])
  have started : s.processor ≠ .notStarted := fun fresh =>
    absurd (phase.processor.started.mp fresh) (by simp [main, MainPoint.rank])
  by_cases stuck : ProcessorStarves s
  · exact ⟨[], s, .nil s, deadlocked_of_processorStarves alive main manager stuck⟩
  · obtain ⟨tr, t, run, returned, alive', main', -, camera', output, items, poll⟩ :=
      @canReturn cfg s alive stop started calm stuck
    have h : Transition cfg t .main _ := .main (.joinProcessor (main'.trans main) returned)
    refine ⟨_, _, run.snoc rfl (h.step_eq alive'),
      deadlocked_of_outputStarves alive' rfl (camera'.trans camera) ?_⟩
    exact ⟨output.trans starves.1, items.trans starves.2.1, by rw [poll]; exact starves.2.2⟩

/-- Once the camera is reset, a starving output thread is enough for a deadlock: of the two
threads that are joined first, one is blocked for good. -/
theorem exists_deadlock (alive : s.fault = none) (phase : Phase s) (late : 9 < s.main.rank)
    (calm : ∀ index f, s.processor ≠ .threw index f) (starves : OutputStarves s) :
    ∃ tr t, Run (Steps (step cfg)) Works s tr t ∧ Deadlocked cfg Works t := by
  have camera : s.camera = none := phase.camera.mpr late
  have waits : s.main.rank ≤ 12 := by
    by_contra joined
    have := phase.output.joined (by omega)
    simp [starves.1] at this
  cases main : s.main <;> simp [main, MainPoint.rank] at late waits
  case stopManager =>
    have h : Transition cfg s .main _ := .main (.stopManager main)
    obtain ⟨tr, u, run, deadlocked⟩ := @exists_deadlock_joinProcessor cfg
      { s with managerRunning := false, main := .joinProcessor } alive rfl (h.phase phase) calm
      starves
    have first : Run (Steps (step cfg)) Works s [(s, .main)] _ := .single rfl (h.step_eq alive)
    exact ⟨_, u, first.trans run, deadlocked⟩
  case joinProcessor => exact exists_deadlock_joinProcessor alive main phase calm starves
  case joinOutput => exact ⟨[], s, .nil s, deadlocked_of_outputStarves alive main camera starves⟩

/-- A run whose steps all supply the threads reaches no deadlock, whatever else may happen
next; and after a step that does not, a deadlock can be reached without any failing call,
unless the process has been ended by an exception. -/
theorem shutdown_deadlock (run : PipelineRun cfg E tr s)
    (works : ∀ s a, a.fails = false → F s a) :
    ((∀ x ∈ tr, Wakes x.1 x.2) → ¬ Deadlocked cfg F s) ∧
    ∀ a t, step cfg s a = some t → ¬ Wakes s a → (∀ index f, s.processor ≠ .threw index f) →
      ∃ tr' u, Run (Steps (step cfg)) Works t tr' u ∧ Deadlocked cfg Works u := by
  refine ⟨fun wakes => ?_, fun a t h starved calm => ?_⟩
  · exact PipelineRun.not_deadlocked (run.of_forall_mem wakes) (fun _ _ ok => ok) works
  · obtain ⟨alive, transition⟩ := step_cases h
    have phase := transition.phase run.phase
    simp only [wakes_iff, not_and_or, Classical.not_imp, not_not] at starved
    rcases starved with ⟨main, rfl, starves⟩ | ⟨main, rfl, starves⟩ | ⟨camera, fails, output, items⟩
    · obtain rfl := (Transition.main (.resetCamera main)).unique alive h
      exact exists_deadlock alive phase (by simp [MainPoint.rank]) calm starves
    · obtain rfl := (Transition.main (.stopManager main)).unique alive h
      exact ⟨[], _, .nil _, deadlocked_of_processorStarves alive rfl rfl starves⟩
    · have late := run.phase.camera.mp camera
      cases transition with
      | poll ans taken =>
        cases taken
        case dequeueCaptureFails point failed =>
          exact exists_deadlock alive phase late calm ⟨output, items, rfl⟩
        all_goals simp_all [failsCapture]
      | _ => simp [failsCapture] at fails

/-- The destructor starts while the output thread waits for the item of a finished buffer. -/
theorem shutdown_deadlock_while_delivering :
    ∃ s : State, s.main = .joinProcessor ∧ s.output = .waitForNextOutputItem ∧
      ¬ Deadlocked (.sample 1 1 1) (fun _ _ => True) s := by
  obtain ⟨tr, s, run, main, output⟩ := exists_pipelineRun (.sample 1 1 1) Wakes
    (startUp (.sample 1 1 1) ++ [.output {}] ++ capture 0 ++ encodeRound ++
      [.driver (.encode 4096 true)] ++ List.replicate 6 (.poll {}) ++ List.replicate 4 .main)
    (fun s => s.main = .joinProcessor ∧ s.output = .waitForNextOutputItem) (by decide +kernel)
  exact ⟨s, main, output, (shutdown_deadlock run fun _ _ _ => trivial).1 run.forall_mem⟩

end Run

end LibcameraStreamer
