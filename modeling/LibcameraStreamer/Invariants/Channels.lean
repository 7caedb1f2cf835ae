import LibcameraStreamer.Model.Threaded
import LibcameraStreamer.Invariants.Captures
import LibcameraStreamer.Invariants.Recycling

/-!
# The calls of the queues in the pipeline

What a thread standing at a call knows: that there is room in the queue, that its step of the
pipeline reads and changes that queue only, and that no other thread moves it from there.
-/
namespace LibcameraStreamer
open Library

variable {cfg : Config} {E : State → Action → Prop} {tr : List (State × Action)} {s t : State}
  {l : (c : Channel) → List c.Element}

/-! ## Room -/

/-- How many elements there are to go through a queue. -/
def Channel.capacity (cfg : Config) : Channel → Nat
  | .completedRequests | .requestsToReuse => cfg.requests
  | .availableInputBuffers => cfg.outputCount
  | .outputItems => cfg.captureCount

/-- The element that the consumer has just taken out. -/
def State.received (s : State) : (c : Channel) → Option c.Element
  | .completedRequests =>
    match s.processor with
    | .lookup f => some f
    | _ => none
  | .requestsToReuse =>
    match s.poll with
    | .queueRequest r => some r
    | _ => none
  | .availableInputBuffers =>
    match s.processor with
    | .queueOutput index .. => some index
    | _ => none
  | .outputItems =>
    match s.output with
    | .pushFrame item => some item
    | _ => none

theorem PipelineRun.room_completedRequests (run : PipelineRun cfg E tr s) {r : Nat}
    (point : s.callback = .requestComplete r .requestComplete) :
    s.completedRequestsQueue.length + s.processor.frame.length < cfg.requests := by
  have owed := run.length_owed
  have total := run.requests_le
  simp only [State.encoding, State.withCamera, point, CallbackPoint.request, List.length_append,
    List.length_singleton] at owed total
  omega

theorem PipelineRun.room_requestsToReuse (run : PipelineRun cfg E tr s) {r : Nat}
    (point : s.callback = .enqueueReuse r) :
    s.requestsToReuseQueue.length + s.poll.request.length < cfg.requests := by
  have total := run.requests_le
  simp only [recycler, State.withCamera, point, CallbackPoint.owed, List.length_append,
    List.length_singleton] at total
  omega

theorem PipelineRun.room_availableInputBuffers (run : PipelineRun cfg E tr s) {i : Nat}
    (puts : s.argument cfg .availableInputBuffers = some i) :
    s.availableInputBuffers.length + s.processor.index.length < cfg.outputCount := by
  have slots := run.inputSlots.length
  simp only [List.map_cons, List.map_nil, List.sum_cons, List.sum_nil, List.length_range] at slots
  simp only [State.argument] at puts
  split at puts
  · next i point =>
    split at puts
    · next more =>
      simp only [point, MainPoint.inputsIssued] at slots
      omega
    · contradiction
  · split at puts
    · next b point =>
      have issued : s.main.inputsIssued cfg ≤ cfg.outputCount := by
        cases s.main <;> simp [MainPoint.inputsIssued]
      simp only [point, PollPoint.slot, List.length_singleton] at slots
      omega
    · contradiction

theorem PipelineRun.room_outputItems (run : PipelineRun cfg E tr s) {item : OutputItem}
    (point : s.poll = .enqueueItem item) :
    s.outputItemsQueue.length + s.output.item.length < cfg.captureCount := by
  have owners := run.captures.owners.length
  have issued := run.captures.capturesIssued_le
  simp only [point, PollPoint.item, List.map_cons, List.map_nil, List.sum_cons, List.sum_nil,
    List.length_map, List.length_singleton, List.length_range] at owners
  omega

/-- At a call of `enqueue` the elements inside, and the one that a call is returning, are not all
that there are. -/
theorem PipelineRun.room (run : PipelineRun cfg E tr s) (c : Channel) {x : c.Element}
    (puts : s.argument cfg c = some x) :
    (s.content c).length + (s.received c).toList.length < c.capacity cfg := by
  cases c with
  | completedRequests =>
    simp only [State.argument] at puts
    split at puts
    · next r point =>
      refine lt_of_le_of_lt (Nat.add_le_add_left ?_ _) (run.room_completedRequests point)
      cases here : s.processor <;> simp [State.received, here, ProcessorPoint.frame]
    · contradiction
  | requestsToReuse =>
    simp only [State.argument] at puts
    split at puts
    · next r point =>
      refine lt_of_le_of_lt (Nat.add_le_add_left ?_ _) (run.room_requestsToReuse point)
      cases here : s.poll <;> simp [State.received, here, PollPoint.request]
    · contradiction
  | availableInputBuffers =>
    refine lt_of_le_of_lt (Nat.add_le_add_left ?_ _) (run.room_availableInputBuffers puts)
    cases here : s.processor <;> simp [State.received, here, ProcessorPoint.index]
  | outputItems =>
    simp only [State.argument] at puts
    split at puts
    · next item point =>
      refine lt_of_le_of_lt (Nat.add_le_add_left ?_ _) (run.room_outputItems point)
      cases here : s.output <;> simp [State.received, here, OutputPoint.item]
    · contradiction

/-! ## Standing at a call -/

theorem State.stands_of_argument {c : Channel} {x : c.Element}
    (puts : s.argument cfg c = some x) : s.stands cfg (s.producer c) = some c := by
  cases c with
  | completedRequests | requestsToReuse | outputItems =>
    simp only [State.argument] at puts
    split at puts
    · next point => simp [State.producer, State.stands, point]
    · contradiction
  | availableInputBuffers =>
    simp only [State.argument] at puts
    split at puts
    · next i point =>
      split at puts
      · next more => simp [State.producer, State.stands, point, more]
      · contradiction
    · next constructed =>
      split at puts
      · next b point =>
        have poll : s.producer .availableInputBuffers = .poll := by
          cases main : s.main <;> simp_all [State.producer]
        simp [poll, State.stands, point]
      · contradiction

theorem State.stands_of_received {c : Channel} {x : c.Element} (got : s.received c = some x) :
    s.stands cfg c.consumer = none := by
  cases c
  all_goals
    simp only [State.received] at got
    split at got
    · next point => simp [Channel.consumer, State.stands, point]
    · contradiction

/-! ## The steps of the other threads -/

/-- What a step leaves to the threads that do not make it: `T` is the one that does. -/
structure Undisturbed (cfg : Config) (T : Option Thread) (s t : State) : Prop where
  argument : ∀ c x, T ≠ some (s.producer c) → s.argument cfg c = some x →
    t.argument cfg c = some x
  stands : ∀ T' c, T ≠ some T' → s.stands cfg T' = some c → t.stands cfg T' = some c
  received : ∀ c x, T ≠ some c.consumer → s.received c = some x → t.received c = some x

theorem MainStep.undisturbed (h : MainStep cfg s t) (phase : Phase s) :
    Undisturbed cfg (some .main) s t := by
  cases h
  case startProcessor point =>
    have fresh := phase.processor_fresh point
    refine ⟨fun c x other puts => ?_, fun T c _ stands => ?_, fun c x _ got => ?_⟩
    · cases c <;> simp_all [State.producer, State.argument]
    · cases T <;> simp_all [State.stands]
    · cases c <;> simp_all [State.received]
  case startOutput point =>
    have fresh := phase.output_fresh point
    refine ⟨fun c x other puts => ?_, fun T c _ stands => ?_, fun c x _ got => ?_⟩
    · cases c <;> simp_all [State.producer, State.argument]
    · cases T <;> simp_all [State.stands]
    · cases c <;> simp_all [State.received]
  case startPoll point =>
    have fresh := phase.poll_fresh point
    refine ⟨fun c x other puts => ?_, fun T c _ stands => ?_, fun c x _ got => ?_⟩
    · cases c <;> simp_all [State.producer, State.argument]
    · cases T <;> simp_all [State.stands]
    · cases c <;> simp_all [State.received]
  all_goals
    refine ⟨fun c x other puts => ?_, fun T c other stands => ?_, fun c x _ got => got⟩
    · cases c <;> simp_all [State.producer, State.argument]
    · cases T <;> simp_all [State.stands]

theorem Transition.undisturbed {a : Action} (h : Transition cfg s a t) (phase : Phase s) :
    Undisturbed cfg a.thread s t := by
  cases h with
  | main h => exact h.undisturbed phase
  | callback h | processor ans h | output ans h | driver d h =>
    rw [h.frame]
    refine ⟨fun c x other puts => ?_, fun T c other stands => ?_, fun c x other got => ?_⟩
    · cases c <;> first
        | exact puts
        | simp [State.producer, Action.thread] at other
    · cases T <;> first
        | exact stands
        | simp [Action.thread] at other
    · cases c <;> first
        | exact got
        | simp [Channel.consumer, Action.thread] at other
  | poll ans h =>
    rw [h.frame]
    refine ⟨fun c x other puts => ?_, fun T c other stands => ?_, fun c x other got => ?_⟩
    · cases c with
      | availableInputBuffers =>
        cases main : s.main with
        | enqueueInputs i => simpa [State.argument, main] using puts
        | _ => simp [State.producer, main, Action.thread] at other
      | outputItems => simp [State.producer, Action.thread] at other
      | _ => exact puts
    · cases T <;> first
        | exact stands
        | simp [Action.thread] at other
    · cases c <;> first
        | exact got
        | simp [Channel.consumer, Action.thread] at other
  | complete r status idle queued allowed =>
    refine ⟨fun c x other puts => ?_, fun T c other stands => ?_, fun c x other got => got⟩
    · cases c <;> first
        | exact puts
        | simp [State.producer, Action.thread] at other
    · cases T <;> first
        | exact stands
        | simp [Action.thread] at other
  | tick => exact ⟨fun _ _ _ puts => puts, fun _ _ _ stands => stands, fun _ _ _ got => got⟩

/-! ## Steps outside the queues -/

/-- A step outside the queues is the same whatever they hold. -/
theorem MainStep.withContent (h : MainStep cfg s t) (outside : s.stands cfg .main = none) :
    MainStep cfg (s.withContent l) (t.withContent l) := by
  cases h
  case enqueueInput i point more => simp [State.stands, point, more] at outside
  all_goals constructor <;> assumption

theorem CallbackStep.withContent (h : CallbackStep s t)
    (outside : s.stands cfg .callback = none) :
    CallbackStep (s.withContent l) (t.withContent l) := by
  cases h
  case cancelled r point => exact .cancelled r point
  all_goals
    next point => simp [State.stands, point] at outside

theorem ProcessorStep.withContent {ans : Answers} (h : ProcessorStep cfg ans s t)
    (outside : s.stands cfg .processor = none) :
    ProcessorStep cfg ans (s.withContent l) (t.withContent l) := by
  cases h
  case dequeue f rest point queue => simp [State.stands, point] at outside
  case skip f fd size ts point empty => simp [State.stands, point] at outside
  case takeIndex f fd size ts index rest point queue => simp [State.stands, point] at outside
  all_goals constructor <;> assumption

theorem OutputStep.withContent {ans : Answers} (h : OutputStep ans s t)
    (outside : s.stands cfg .output = none) :
    OutputStep ans (s.withContent l) (t.withContent l) := by
  cases h
  case dequeue item rest point queue => simp [State.stands, point] at outside
  all_goals constructor <;> assumption

theorem PollStep.withContent {ans : Answers} (h : PollStep ans s t)
    (outside : s.stands cfg .poll = none) :
    PollStep ans (s.withContent l) (t.withContent l) := by
  cases h
  case enqueueInput b point => simp [State.stands, point] at outside
  case dequeueReuse f r rest point queue => simp [State.stands, point] at outside
  case enqueueItem item point => simp [State.stands, point] at outside
  case dequeueCaptureFails point failed => exact .dequeueCaptureFails point failed
  case queueRequestFails r camera point alive failed =>
    exact .queueRequestFails r camera point alive failed
  all_goals constructor <;> assumption

theorem DriverStep.withContent {d : DriverAction} (h : DriverStep cfg s d t) :
    DriverStep cfg (s.withContent l) d (t.withContent l) := by
  cases h <;> constructor <;> assumption

theorem Transition.withContent {a : Action} (h : Transition cfg s a t)
    (outside : ∀ T ∈ a.thread, s.stands cfg T = none) :
    Transition cfg (s.withContent l) a (t.withContent l) := by
  cases h with
  | main h => exact .main (h.withContent (outside _ rfl))
  | callback h => exact .callback (h.withContent (outside _ rfl))
  | processor ans h => exact .processor ans (h.withContent (outside _ rfl))
  | output ans h => exact .output ans (h.withContent (outside _ rfl))
  | poll ans h => exact .poll ans (h.withContent (outside _ rfl))
  | driver d h => exact .driver d h.withContent
  | complete r status idle queued allowed => exact .complete r status idle queued allowed
  | tick us bound => exact .tick us bound

/-! ## The steps at the calls -/

/-- A call of `enqueue` is the producer's step of the pipeline. -/
theorem State.resume_put {c : Channel} {x : c.Element} (alive : s.fault = none)
    (puts : s.argument cfg c = some x) :
    ∃ t, s.resume cfg c (.put x) = some t ∧
      step cfg (s.withContent l) (s.producer c).action =
        some (t.withContent (Function.update l c (l c ++ [x]))) := by
  cases c with
  | completedRequests =>
    simp only [State.argument] at puts
    split at puts
    · next r point =>
      cases puts
      simp [State.resume, State.caller, State.producer, Thread.action, step, State.withContent,
        alive, requestComplete, point]
    · contradiction
  | requestsToReuse =>
    simp only [State.argument] at puts
    split at puts
    · next r point =>
      cases puts
      simp [State.resume, State.caller, State.producer, Thread.action, step, State.withContent,
        alive, requestComplete, point]
    · contradiction
  | availableInputBuffers =>
    simp only [State.argument] at puts
    split at puts
    · next i point =>
      split at puts
      · next more =>
        cases puts
        simp [State.resume, State.caller, State.producer, Thread.action, step, State.withContent,
          alive, mainStep, point, more]
      · contradiction
    · next constructed =>
      split at puts
      · next b point =>
        cases puts
        have poll : s.producer .availableInputBuffers = .poll := by
          cases main : s.main <;> simp_all [State.producer]
        simp [State.resume, State.caller, poll, Thread.action, step, State.withContent,
          alive, pollEncoder, pollReadyToReuseOutputBuffers, point]
      · contradiction
  | outputItems =>
    simp only [State.argument] at puts
    split at puts
    · next item point =>
      cases puts
      simp [State.resume, State.caller, State.producer, Thread.action, step, State.withContent,
        alive, pollEncoder, pollReadyToProcessCaptureBuffers, point]
    · contradiction

/-- So is a call of the consumer that takes an element out. -/
theorem State.resume_take {c : Channel} {x : c.Element} {rest : List c.Element}
    (alive : s.fault = none) (takes : s.stands cfg c.consumer = some c)
    (inside : l c = x :: rest) :
    ∃ t, s.resume cfg c (.take x) = some t ∧ t.received c = some x ∧
      step cfg (s.withContent l) c.consumer.action =
        some (t.withContent (Function.update l c rest)) := by
  cases c with
  | completedRequests =>
    have point : s.processor = .waitForCompletedRequest := by
      cases point : s.processor <;> simp [Channel.consumer, State.stands, point] at takes ⊢
    simp [State.resume, State.caller, Channel.consumer, Thread.action, step, State.withContent,
      alive, completedRequestsProcessor, waitForCompletedRequest, point, inside, Fifo.Op.taken?,
      State.received]
  | requestsToReuse =>
    obtain ⟨f, point⟩ : ∃ f, s.poll = .reuseRequest f := by
      cases point : s.poll <;> simp [Channel.consumer, State.stands, point] at takes ⊢
    simp [State.resume, State.caller, Channel.consumer, Thread.action, step, State.withContent,
      alive, pollEncoder, pollReadyToReuseOutputBuffers, reuseRequest, point, inside,
      Fifo.Op.taken?, State.received]
  | availableInputBuffers =>
    obtain ⟨f, fd, size, ts, point⟩ : ∃ f fd size ts, s.processor = .encodeBuffer f fd size ts := by
      cases point : s.processor <;> simp [Channel.consumer, State.stands, point] at takes ⊢
    simp [State.resume, State.caller, Channel.consumer, Thread.action, step, State.withContent,
      alive, completedRequestsProcessor, encodeBuffer, point, inside, Fifo.Op.taken?,
      State.received]
  | outputItems =>
    have point : s.output = .waitForNextOutputItem := by
      cases point : s.output <;> simp [Channel.consumer, State.stands, point] at takes ⊢
    simp [State.resume, State.caller, Channel.consumer, Thread.action, step, State.withContent,
      alive, encodedFramesProcessor, waitForNextOutputItem, point, inside, Fifo.Op.taken?,
      State.received]

/-- And so is the `try_dequeue` of `EncodeBuffer` that finds nothing. -/
theorem State.resume_miss (alive : s.fault = none)
    (takes : s.stands cfg .processor = some .availableInputBuffers)
    (empty : l .availableInputBuffers = []) :
    ∃ t, s.resume cfg .availableInputBuffers .miss = some t ∧
      step cfg (s.withContent l) Thread.processor.action = some (t.withContent l) := by
  obtain ⟨f, fd, size, ts, point⟩ : ∃ f fd size ts, s.processor = .encodeBuffer f fd size ts := by
    cases point : s.processor <;> simp [State.stands, point] at takes ⊢
  simp [State.resume, State.caller, Channel.consumer, Thread.action, step, State.withContent,
    alive, completedRequestsProcessor, encodeBuffer, point, empty, Fifo.Op.taken?]

end LibcameraStreamer
