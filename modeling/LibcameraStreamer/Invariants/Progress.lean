import LibcameraStreamer.Invariants.Collection
import LibcameraStreamer.Invariants.Recycling
import LibcameraStreamer.Model.Enabled

/-!
# The running pipeline does not wedge

In runs without failing calls no thread throws, and with a driver that finishes the two
buffers of a frame together the two sides of the encoder stay in step. A state in which
nothing but the poll timeout can happen would then have every request stranded by a skip;
but fewer requests are stranded than there are.
-/
namespace LibcameraStreamer
open Library

/-! ## No thread throws -/

structure NoThrow (s : State) : Prop where
  processor : ∀ index f, s.processor ≠ .threw index f
  output : ∀ item, s.output ≠ .threw item
  poll : ∀ what, s.poll ≠ .threw what

theorem noThrow_initial (cfg : Config) : NoThrow (initial cfg) := by
  constructor <;> simp [initial]

/-- Only a failing call makes a thread throw. -/
theorem Transition.noThrow {cfg : Config} {s t : State} {a : Action} (h : Transition cfg s a t)
    (works : a.fails = false) (inv : NoThrow s) : NoThrow t := by
  obtain ⟨processor, output, poll⟩ := inv
  cases h with
  | main h =>
    cases h
    case startProcessor => exact ⟨by simp, output, poll⟩
    case startOutput => exact ⟨processor, by simp, poll⟩
    case startPoll => exact ⟨processor, output, by simp⟩
    all_goals exact ⟨processor, output, poll⟩
  | processor ans h =>
    cases h
    case throw index f fd size ts point failed =>
      simp [Action.fails, Answers.fails, failed] at works
    case terminate => exact ⟨processor, output, poll⟩
    all_goals exact ⟨by simp, output, poll⟩
  | output ans h =>
    cases h
    case throw item point failed => simp [Action.fails, Answers.fails, failed] at works
    case terminate => exact ⟨processor, output, poll⟩
    all_goals exact ⟨processor, by simp, poll⟩
  | poll ans h =>
    cases h
    case throw code point result => simp [Action.fails, Answers.fails, result] at works
    case nullCamera | tableOverflow | tableUnset | terminate => exact ⟨processor, output, poll⟩
    all_goals exact ⟨processor, output, by simp⟩
  | callback h | driver d h => rw [h.frame]; exact ⟨processor, output, poll⟩
  | complete | tick => exact ⟨processor, output, poll⟩

/-- Without a thrown exception, only a table access or a null pointer ends a run. -/
theorem Transition.fault_of_noThrow {cfg : Config} {s t : State} {a : Action}
    (h : Transition cfg s a t) (inv : NoThrow s) (alive : s.fault = none) :
    t.fault = none ∨ t.fault = some .tableOverflow ∨ t.fault = some .tableUnset ∨
      (s.camera = none ∧ t.fault = some .nullCamera) := by
  obtain ⟨processor, output, poll⟩ := inv
  cases h with
  | main h => cases h <;> simp [alive]
  | processor ans h =>
    cases h
    case terminate index f point => exact absurd point (processor index f)
    all_goals exact .inl alive
  | output ans h =>
    cases h
    case terminate item point => exact absurd point (output item)
    all_goals exact .inl alive
  | poll ans h =>
    cases h
    case terminate what point => exact absurd point (poll what)
    case nullCamera r point null => exact .inr (.inr (.inr ⟨null, rfl⟩))
    all_goals simp [alive]
  | callback h | driver d h => rw [h.frame]; exact .inl alive
  | complete | tick => exact .inl alive

/-! ## The two sides of the encoder in step -/

/-- As many frames are queued as are in the codec, and as many OUTPUT as CAPTURE buffers are
finished. -/
structure Paired (s : State) : Prop where
  queued : s.outputQueued.length = s.coding.length
  finished : s.outputFinished.length + s.poll.between = s.captureFinished.length

theorem paired_initial (cfg : Config) : Paired (initial cfg) := by
  constructor <;> simp [initial, PollPoint.between]

theorem PollStep.paired {ans : Answers} {s t : State} (h : PollStep ans s t)
    (works : (Action.poll ans).fails = false) (inv : Paired s) : Paired t := by
  obtain ⟨queued, finished⟩ := inv
  cases h
  case dequeueOutputFails point failed => simp [Action.fails, Answers.fails, failed] at works
  case dequeueCaptureFails point failed => simp [Action.fails, Answers.fails, failed] at works
  case dequeueOutput b rest point ok some =>
    refine ⟨queued, ?_⟩
    simp [point, some, PollPoint.between] at finished ⊢
    omega
  case dequeueCapture b rest desc point ok some entry =>
    refine ⟨queued, ?_⟩
    simp [point, some, PollPoint.between] at finished ⊢
    omega
  case nullCamera | tableOverflow | tableUnset | terminate => exact ⟨queued, finished⟩
  all_goals exact ⟨queued, by simpa [PollPoint.between, *] using finished⟩

theorem Transition.paired {cfg : Config} {s t : State} {a : Action} (h : Transition cfg s a t)
    (phase : Phase s) (works : a.fails = false) (together : a.unpaired = false)
    (inv : Paired s) : Paired t := by
  cases h with
  | poll ans h => exact h.paired works inv
  | main h =>
    obtain ⟨queued, finished⟩ := inv
    cases h
    case startPoll point =>
      have fresh := phase.poll_fresh point
      exact ⟨queued, by simpa [fresh, PollPoint.between] using finished⟩
    all_goals exact ⟨queued, finished⟩
  | processor ans h =>
    obtain ⟨queued, finished⟩ := inv
    cases h
    case queueOutput => exact ⟨by simpa using queued, finished⟩
    all_goals exact ⟨queued, finished⟩
  | driver d h =>
    obtain ⟨queued, finished⟩ := inv
    cases h
    case encode bytesUsed keyframe b outputs c coding index captures some coded free =>
      refine ⟨by simpa [some, coded] using queued, ?_⟩
      simp
      omega
    all_goals simp [Action.unpaired] at together
  | callback h | output ans h => rw [h.frame]; exact { inv with }
  | complete | tick => exact { inv with }

/-! ## Progress -/

/-- The steps of a running pipeline: no shutdown, no cancelled request, no failing call, and a
driver that finishes the two buffers of a frame together and in order. -/
def Running (s : State) (a : Action) : Prop :=
  startsShutdown s a = false ∧ a.cancels = false ∧ a.fails = false ∧ a.unpaired = false

instance (s : State) (a : Action) : Decidable (Running s a) := inferInstanceAs (Decidable (_ ∧ _))

/-- The clock, and the poll thread going round its loop with nothing to collect. -/
def idles (s : State) : Action → Bool
  | .tick _ => true
  | .poll _ => (s.poll == .loopTest || s.poll == .poll) && s.captureFinished == []
  | _ => false

theorem Transition.rank_le {cfg : Config} {s t : State} {a : Action} (h : Transition cfg s a t)
    (stays : startsShutdown s a = false) (inv : s.main.rank ≤ 7) : t.main.rank ≤ 7 := by
  cases h with
  | main h =>
    cases h
    case destructor point => simp [startsShutdown, point] at stays
    case overflow => exact inv
    all_goals simp_all [MainPoint.rank]
  | callback h | processor ans h | output ans h | poll ans h | driver d h => rw [h.frame]; exact inv
  | complete | tick => exact inv

/-- What holds in every state of a running pipeline. -/
structure Alive (cfg : Config) (s : State) : Prop where
  phase : Phase s
  rank : s.main.rank ≤ 7
  captures : Captures cfg s
  noThrow : NoThrow s
  paired : Paired s
  ready : CaptureReady s
  fault : s.fault = none

section Run

variable {cfg : Config} {tr : List (State × Action)} {s : State}

theorem PipelineRun.alive (run : PipelineRun cfg Running tr s)
    (room : cfg.captureCount ≤ captureBuffersCount) : Alive cfg s := by
  refine run.invariant (Alive cfg) ⟨phase_initial cfg, by simp [initial, MainPoint.rank],
    captures_initial cfg, noThrow_initial cfg, paired_initial cfg,
    by simp [CaptureReady, initial, PollPoint.collecting], rfl⟩ fun s a t inv ok h => ?_
  obtain ⟨alive, h⟩ := step_cases h
  obtain ⟨stays, -, works, together⟩ := ok
  obtain ⟨phase, rank, captures, noThrow, paired, ready, fault⟩ := inv
  refine ⟨h.phase phase, h.rank_le stays rank, h.captures phase captures, h.noThrow works noThrow,
    h.paired phase works together paired, h.captureReady ready, ?_⟩
  have table := h.table_safe captures fault room
  have camera : s.camera ≠ none := fun none => by
    have := phase.camera.mp none
    omega
  rcases h.fault_of_noThrow noThrow fault with none | overflow | unset | null
  · exact none
  · exact absurd overflow table.1
  · exact absurd unset table.2
  · exact absurd null.1 camera

/-- Nothing but idle steps is possible. -/
def Stuck (cfg : Config) (s : State) : Prop :=
  ∀ a, Running s a → idles s a = false → step cfg s a = none

theorem Stuck.not_enabled (stuck : Stuck cfg s) {a : Action} (ok : Running s a)
    (moves : idles s a = false) : ¬ ∃ t, step cfg s a = some t := by
  simp [stuck a ok moves]

theorem Stuck.main (stuck : Stuck cfg s) (alive : Alive cfg s) : s.main = .running := by
  by_contra starting
  refine stuck.not_enabled ⟨by simp [startsShutdown, starting], rfl, rfl, rfl⟩ rfl
    (main_enabled alive.fault ?_ ?_ ?_ ?_)
  all_goals
    have := alive.rank
    intro point
    simp [point, MainPoint.rank] at this

theorem Stuck.callback (stuck : Stuck cfg s) (alive : Alive cfg s) : s.callback = .idle := by
  by_contra busy
  exact stuck.not_enabled ⟨by simp [startsShutdown], rfl, rfl, rfl⟩ rfl
    (callback_enabled alive.fault busy)

theorem Stuck.queuedRequests (stuck : Stuck cfg s) (alive : Alive cfg s) :
    s.queuedRequests = [] := by
  by_contra queued
  obtain ⟨r, rest, requests⟩ := List.exists_cons_of_ne_nil queued
  have manager : s.managerRunning = true := by
    by_contra stopped
    have := alive.phase.manager.mp (by simpa using stopped)
    have := alive.rank
    omega
  exact stuck.not_enabled ⟨by simp [startsShutdown], rfl, rfl, rfl⟩ rfl
    (complete_enabled alive.fault (stuck.callback alive) (r := r) (by simp [requests]) manager)

theorem Stuck.processor (stuck : Stuck cfg s) (alive : Alive cfg s) :
    s.processor = .waitForCompletedRequest ∧ s.completedRequestsQueue = [] := by
  by_contra input
  obtain ⟨started, running⟩ := alive.phase.processor.running
    (by simp [stuck.main alive, MainPoint.rank]) (by simp [stuck.main alive, MainPoint.rank])
  exact stuck.not_enabled ⟨by simp [startsShutdown], rfl, rfl, rfl⟩ rfl
    (processor_enabled alive.fault started running fun waits empty => input ⟨waits, empty⟩)

theorem Stuck.output (stuck : Stuck cfg s) (alive : Alive cfg s) :
    s.output = .waitForNextOutputItem ∧ s.outputItemsQueue = [] := by
  by_contra input
  obtain ⟨started, running⟩ := alive.phase.output.running
    (by simp [stuck.main alive, MainPoint.rank]) (by simp [stuck.main alive, MainPoint.rank])
  exact stuck.not_enabled ⟨by simp [startsShutdown], rfl, rfl, rfl⟩ rfl
    (output_enabled alive.fault started running fun waits empty => input ⟨waits, empty⟩)

/-- The poll thread has nothing to collect: in the middle of a collection it could go on,
because a frame whose encode is finished is owed a request. -/
theorem Stuck.poll (stuck : Stuck cfg s) (alive : Alive cfg s)
    (owed : (recycler cfg s).owed.length = s.encoding.length + count skips tr) :
    (s.poll = .loopTest ∨ s.poll = .poll) ∧ s.captureFinished = [] := by
  by_contra input
  have callback := stuck.callback alive
  obtain ⟨started, running⟩ := alive.phase.poll.running
    (by simp [stuck.main alive, MainPoint.rank]) (by simp [stuck.main alive, MainPoint.rank])
  refine stuck.not_enabled ⟨by simp [startsShutdown], rfl, rfl, rfl⟩ ?_
    (poll_enabled alive.fault started running ?_ ?_ ?_)
  · simpa [idles] using input
  · rintro (point | point) empty
    · exact input ⟨.inr point, empty⟩
    · exact alive.ready (by simp [point, PollPoint.collecting]) empty
  · intro point empty
    have same := alive.paired.finished
    simp [point, empty, PollPoint.between] at same
    exact alive.ready (by simp [point, PollPoint.collecting])
      (List.length_eq_zero_iff.mp (by omega))
  · intro f point empty
    simp [recycler, CallbackPoint.owed, callback, empty, State.encoding, point,
      PollPoint.frame] at owed
    omega

/-- All CAPTURE buffers are queued at the driver then, so no frame waits to be encoded. -/
theorem Stuck.outputQueued (stuck : Stuck cfg s) (alive : Alive cfg s)
    (owed : (recycler cfg s).owed.length = s.encoding.length + count skips tr)
    (captures : 1 ≤ cfg.captureCount) : s.outputQueued = [] := by
  by_contra queued
  obtain ⟨poll, finished⟩ := stuck.poll alive owed
  obtain ⟨output, items⟩ := stuck.output alive
  have item : s.poll.item = [] := by rcases poll with poll | poll <;> simp [poll, PollPoint.item]
  have total := alive.captures.owners.length
  simp [finished, output, items, item, OutputPoint.item, stuck.main alive,
    MainPoint.capturesIssued] at total
  have coding := alive.paired.queued
  refine stuck.not_enabled ⟨by simp [startsShutdown], rfl, rfl, rfl⟩ rfl
    (encode_enabled alive.fault queued ?_ ?_ 0 false)
  · intro empty
    exact queued (List.length_eq_zero_iff.mp (by simpa [empty] using coding))
  · intro empty
    simp only [empty, List.length_nil] at total
    omega

/-- In every state of a running pipeline some step other than an idle one is possible: if not,
every request would be stranded by a skip, and that is more than there can be. -/
theorem pipeline_progress (run : PipelineRun cfg Running tr s)
    (requests : 1 ≤ cfg.requests) (outputs : 1 ≤ cfg.outputCount) (captures : 1 ≤ cfg.captureCount)
    (room : cfg.captureCount ≤ captureBuffersCount) :
    ∃ a t, Running s a ∧ idles s a = false ∧ step cfg s a = some t := by
  by_contra none
  have stuck : Stuck cfg s := fun a ok moves => by
    by_contra enabled
    obtain ⟨t, h⟩ := Option.ne_none_iff_exists'.mp enabled
    exact none ⟨a, t, ok, moves, h⟩
  have alive := run.alive room
  have owed := run.length_owed
  obtain ⟨poll, finished⟩ := stuck.poll alive owed
  obtain ⟨processor, completed⟩ := stuck.processor alive
  have queued := stuck.outputQueued alive owed captures
  have bound := run.count_skips_le
  have total := congrArg Multiset.card
    (run.requests_eq fun s a ok => ⟨ok.2.1, ok.2.2.1⟩)
  have outputFinished : s.outputFinished = [] := by
    have := alive.paired.finished
    rcases poll with poll | poll <;> simpa [poll, finished, PollPoint.between] using this
  rcases poll with poll | poll <;>
    simp [State.encoding, State.withCamera, poll, processor, completed, queued, outputFinished,
      stuck.main alive, stuck.callback alive, stuck.queuedRequests alive, PollPoint.frame,
      ProcessorPoint.frame, MainPoint.unqueued, CallbackPoint.request, PollPoint.request]
      at owed total <;>
    omega

/-- Two requests and one input slot: after a skip and the encode of the other frame, the camera
can still complete the request that came back. -/
theorem pipeline_progress_after_skip :
    ∃ s : State, s.requestsToReuseQueue = [1] ∧
      ∃ a t, Running s a ∧ idles s a = false ∧ step (.sample 2 1 1) s a = some t := by
  obtain ⟨tr, s, run, stranded⟩ := exists_pipelineRun (.sample 2 1 1) Running
    (startUp (.sample 2 1 1) ++ capture 0 ++ encodeRound ++ capture 1 ++
      List.replicate 4 (.processor {}) ++ [.driver (.encode 4096 true)] ++ pollRound ++ outputRound)
    (fun s => s.requestsToReuseQueue = [1]) (by decide +kernel)
  exact ⟨s, stranded, pipeline_progress run (by decide) (by decide) (by decide) (by decide)⟩

end Run

end LibcameraStreamer
