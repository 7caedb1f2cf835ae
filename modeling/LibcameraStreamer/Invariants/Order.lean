import LibcameraStreamer.Invariants.Captures
import LibcameraStreamer.Invariants.Requests

/-!
# The order of the frames

From `completedRequestsQueue_` to `push_frame` the frames pass through six places on four
threads and in the driver. Together they are one FIFO that loses a frame only when
`EncodeBuffer` skips it, and the time stamps that are given to the frames on the way form a
second one.
-/
namespace LibcameraStreamer
open Library

/-- The item the output thread has not passed to `push_frame` yet. -/
def OutputPoint.unsent : OutputPoint → List OutputItem
  | .pushFrame item => [item]
  | _ => []

/-- The time stamp of the frame that `EncodeBuffer` works on. -/
def ProcessorPoint.stamp : ProcessorPoint → List Int
  | .encodeBuffer _ _ _ ts | .queueOutput _ _ _ _ ts => [ts]
  | _ => []

/-- The items that are not sent yet, the oldest first. -/
def State.unsent (s : State) : List OutputItem :=
  s.output.unsent ++ (s.outputItemsQueue ++ s.poll.item)

/-- The frames that are captured and not sent yet, the oldest first. -/
def State.inFlight (s : State) : List Frame :=
  s.unsent.map (·.frame) ++ (s.captureFinished.map (·.frame) ++ (s.coding.map (·.frame) ++
    (s.processor.frame ++ s.completedRequestsQueue)))

/-- Their time stamps, as far as they have one. -/
def State.stamps (s : State) : List Int :=
  s.unsent.map (·.timestampUs) ++ (s.captureFinished.map (·.timestamp.toMicros) ++
    (s.coding.map (·.timestamp.toMicros) ++ s.processor.stamp))

/-- The frame that `requestComplete` enqueues in the step: a completion that is not cancelled. -/
def completed (s : State) : Action → Option Frame
  | .callback =>
    match s.callback with
    | .requestComplete r .requestComplete => some ⟨r, s.completions⟩
    | _ => none
  | _ => none

/-- The item that is passed to `push_frame` in the step. -/
def pushed (s : State) : Action → Option OutputItem
  | .output _ => s.output.unsent.head?
  | _ => none

/-- The time stamp that a frame is given in the step. -/
def stamped (s : State) : Action → Option Int
  | .processor _ =>
    match s.processor with
    | .lookup _ => some s.clock
    | _ => none
  | _ => none

/-- The time stamp of a frame that is skipped, or whose `VIDIOC_QBUF` fails, in the step. -/
def unstamped (s : State) : Action → Option Int
  | .processor ans =>
    match s.processor with
    | .encodeBuffer _ _ _ ts => if s.availableInputBuffers = [] then some ts else none
    | .queueOutput _ _ _ _ ts => if xioctl ans.replies = some (-1) then some ts else none
    | _ => none
  | _ => none

theorem MainStep.inFlight {cfg : Config} {s t : State} (h : MainStep cfg s t) (phase : Phase s) :
    t.inFlight = s.inFlight ∧ t.stamps = s.stamps := by
  cases h
  case startProcessor point =>
    have fresh := phase.processor_fresh point
    simp [State.inFlight, State.stamps, State.unsent, ProcessorPoint.frame, ProcessorPoint.stamp,
      fresh]
  case startOutput point =>
    have fresh := phase.output_fresh point
    simp [State.inFlight, State.stamps, State.unsent, OutputPoint.unsent, fresh]
  case startPoll point =>
    have fresh := phase.poll_fresh point
    simp [State.inFlight, State.stamps, State.unsent, PollPoint.item, fresh]
  all_goals exact ⟨rfl, rfl⟩

theorem CallbackStep.inFlight {s t : State} (h : CallbackStep s t) :
    t.inFlight = s.inFlight ++ (completed s .callback).toList ∧ t.stamps = s.stamps := by
  cases h <;> simp [State.inFlight, State.stamps, State.unsent, completed, *]

theorem OutputStep.inFlight {ans : Answers} {s t : State} (h : OutputStep ans s t) :
    s.unsent = (pushed s (.output ans)).toList ++ t.unsent ∧
      s.inFlight = ((pushed s (.output ans)).map (·.frame)).toList ++ t.inFlight ∧
      s.stamps = ((pushed s (.output ans)).map (·.timestampUs)).toList ++ t.stamps := by
  cases h <;> simp [State.inFlight, State.stamps, State.unsent, pushed, OutputPoint.unsent, *]

theorem PollStep.inFlight {ans : Answers} {s t : State} (h : PollStep ans s t) :
    t.inFlight = s.inFlight ∧ t.stamps = s.stamps := by
  cases h <;> simp [State.inFlight, State.stamps, State.unsent, PollPoint.item, newOutputItem, *]

theorem ProcessorStep.inFlight {cfg : Config} {ans : Answers} {s t : State}
    (h : ProcessorStep cfg ans s t) :
    LossyStep s.inFlight none (skipped s (.processor ans)) none t.inFlight := by
  cases h
  case skip f fd size ts point none =>
    simp only [skipped, point, none]
    refine .loses (s.unsent.map (·.frame) ++ (s.captureFinished.map (·.frame) ++
      s.coding.map (·.frame))) s.completedRequestsQueue ?_ ?_ <;>
      simp [State.inFlight, State.unsent, ProcessorPoint.frame, point]
  all_goals
    simp only [skipped, *]
    refine .idle ?_
    simp [State.inFlight, State.unsent, ProcessorPoint.frame, *]

theorem DriverStep.inFlight {cfg : Config} {s t : State} {d : DriverAction}
    (h : DriverStep cfg s d t) (order : (Action.driver d).overtakesCapture = false) :
    t.inFlight = s.inFlight ∧ t.stamps = s.stamps := by
  cases h
  case finishOutput i b queued => exact ⟨rfl, rfl⟩
  case produceCapture i j bytesUsed keyframe c index coded free =>
    have first : i = 0 := by simpa [Action.overtakesCapture] using order
    subst first
    cases coding : s.coding with
    | nil => simp [coding] at coded
    | cons c' rest =>
      simp only [coding, List.getElem?_cons_zero, Option.some.injEq] at coded
      simp [State.inFlight, State.stamps, State.unsent, coding, coded]
  case drop i c coded => simp [Action.overtakesCapture] at order
  case encode bytesUsed keyframe b outputs c coding index captures queued coded free =>
    simp [State.inFlight, State.stamps, State.unsent, coded]

/-- The frames on their way are, in order, those that were completed and not sent or skipped. -/
theorem Transition.inFlight {cfg : Config} {s t : State} {a : Action} (h : Transition cfg s a t)
    (phase : Phase s) (order : a.overtakesCapture = false) :
    LossyStep s.inFlight ((pushed s a).map (·.frame)) (skipped s a) (completed s a) t.inFlight := by
  cases h with
  | main h => exact .idle (h.inFlight phase).1
  | callback h => exact .enters h.inFlight.1
  | processor ans h => exact h.inFlight
  | output ans h => exact .leaves h.inFlight.2.1
  | poll ans h => exact .idle h.inFlight.1
  | driver d h => exact .idle (h.inFlight order).1
  | complete | tick => exact .idle rfl

/-! ## The time stamps -/

/-- The clock fits into an `int64_t`, and a time stamp is a time of the past. -/
structure Stamps (s : State) : Prop where
  clock : s.clock < 2 ^ 63
  past : ∀ ts ∈ s.processor.stamp, 0 ≤ ts ∧ ts ≤ s.clock

theorem Transition.stampBounds {cfg : Config} {s t : State} {a : Action}
    (h : Transition cfg s a t) (inv : Stamps s) : Stamps t := by
  obtain ⟨clock, past⟩ := inv
  cases h with
  | processor ans h =>
    cases h
    case takeIndex f fd size ts index rest point queue =>
      exact ⟨clock, by simpa [point, ProcessorPoint.stamp] using past⟩
    case terminate => exact ⟨clock, past⟩
    all_goals exact ⟨clock, by simp [ProcessorPoint.stamp]⟩
  | main h =>
    cases h
    case startProcessor => exact ⟨clock, by simp [ProcessorPoint.stamp]⟩
    all_goals exact ⟨clock, past⟩
  | callback h | output ans h | poll ans h | driver d h => rw [h.frame]; exact ⟨clock, past⟩
  | complete => exact ⟨clock, past⟩
  | tick us bound =>
    refine ⟨bound, fun ts member => ?_⟩
    have := past ts member
    simp only [Nat.cast_add]
    omega

theorem ProcessorStep.stamps {cfg : Config} {ans : Answers} {s t : State}
    (h : ProcessorStep cfg ans s t) (inv : Stamps s) :
    LossyStep s.stamps none (unstamped s (.processor ans)) (stamped s (.processor ans))
      t.stamps := by
  cases h
  case lookup f point =>
    simp only [stamped, unstamped, point]
    exact .enters (by simp [State.stamps, State.unsent, ProcessorPoint.stamp, point])
  case skip f fd size ts point none =>
    simp only [stamped, unstamped, point, none, if_true]
    refine .loses (s.unsent.map (·.timestampUs) ++ (s.captureFinished.map (·.timestamp.toMicros) ++
      s.coding.map (·.timestamp.toMicros))) [] ?_ ?_ <;>
      simp [State.stamps, State.unsent, ProcessorPoint.stamp, point]
  case throw index f fd size ts point failed =>
    simp only [stamped, unstamped, point, failed, if_true]
    refine .loses (s.unsent.map (·.timestampUs) ++ (s.captureFinished.map (·.timestamp.toMicros) ++
      s.coding.map (·.timestamp.toMicros))) [] ?_ ?_ <;>
      simp [State.stamps, State.unsent, ProcessorPoint.stamp, point]
  case queueOutput index f fd size ts point ok =>
    have range := inv.past ts (by simp [ProcessorPoint.stamp, point])
    have clock := inv.clock
    have copied : (Timeval.ofMicros 64 ts).toMicros = ts :=
      Timeval.toMicros_ofMicros ts (by omega) (by omega)
    have succeeds : ¬ xioctl ans.replies = some (-1) := by simp [ok]
    simp only [stamped, unstamped, point, succeeds, if_false]
    exact .idle (by simp [State.stamps, State.unsent, ProcessorPoint.stamp, point, copied])
  all_goals
    simp only [stamped, unstamped, *]
    exact .idle (by simp [State.stamps, State.unsent, ProcessorPoint.stamp, *])

theorem Transition.stamps {cfg : Config} {s t : State} {a : Action} (h : Transition cfg s a t)
    (phase : Phase s) (inv : Stamps s) (order : a.overtakesCapture = false) :
    LossyStep s.stamps ((pushed s a).map (·.timestampUs)) (unstamped s a) (stamped s a)
      t.stamps := by
  cases h with
  | main h => exact .idle (h.inFlight phase).2
  | callback h => exact .idle h.inFlight.2
  | processor ans h => exact h.stamps inv
  | output ans h => exact .leaves h.inFlight.2.2
  | poll ans h => exact .idle h.inFlight.2
  | driver d h => exact .idle (h.inFlight order).2
  | complete | tick => exact .idle rfl

theorem Transition.clock_le {cfg : Config} {s t : State} {a : Action} (h : Transition cfg s a t) :
    (s.clock : Int) ≤ t.clock := by
  cases h with
  | tick us bound => simp
  | main h | callback h | processor ans h | output ans h | poll ans h | driver d h => rw [h.frame]
  | complete => exact le_rfl

/-! ## Over a whole run -/

section Run

variable {cfg : Config} {E : State → Action → Prop} {tr : List (State × Action)} {s : State}

theorem PipelineRun.withStamps (run : PipelineRun cfg E tr s) :
    PipelineRun cfg (fun s a => Stamps s ∧ Phase s ∧ E s a) tr s :=
  run.withPhase.strengthen Stamps ⟨by simp [initial], by simp [initial, ProcessorPoint.stamp]⟩
    fun _ _ _ inv _ h => (step_cases h).2.stampBounds inv

theorem Transition.completions {s t : State} {a : Action} (h : Transition cfg s a t) :
    List.range t.completions =
      List.range s.completions ++ ((completed s a).map (·.serial)).toList := by
  cases h with
  | callback h => cases h <;> simp [completed, List.range_succ, *]
  | main h | processor ans h | output ans h | poll ans h | driver d h =>
    rw [h.frame]
    simp [completed]
  | complete | tick => simp [completed]

/-- Two completions are told apart by their serial numbers. -/
theorem PipelineRun.completed_nodup (run : PipelineRun cfg E tr s) : (log completed tr).Nodup := by
  have serials := run.logs (fun s => List.range s.completions)
    (fun s a => (completed s a).map (·.serial)) fun s a t _ h => (step_cases h).2.completions
  have : (log completed tr).map (·.serial) = List.range s.completions := by
    simpa [log_map, initial] using serials.symm
  exact List.Nodup.of_map _ (this ▸ List.nodup_range)

/-- The time stamps are readings of the clock, and the sent ones a sub-sequence of them. -/
theorem PipelineRun.pushed_sorted (run : PipelineRun cfg E tr s)
    (order : ∀ s a, E s a → a.overtakesCapture = false) :
    ((log pushed tr).map (·.timestampUs)).Pairwise (· ≤ ·) := by
  have queue := (run.withStamps.lossyQueue State.stamps
    (fun s a => (pushed s a).map (·.timestampUs)) unstamped stamped rfl fun s a t ok h =>
      (step_cases h).2.stamps ok.2.1 ok.1 (order s a ok.2.2)).1
  have sorted := (run.log_sorted (fun s => (s.clock : Int)) stamped
    (fun s a t _ h => (step_cases h).2.clock_le) (fun s a x h => by
      revert h
      fun_cases stamped s a <;> simp [eq_comm])).1
  rw [log_map] at queue
  exact sorted.sublist ((List.sublist_append_left _ _).trans queue)

/-- With a driver that writes the frames in the order in which they were queued: the completed
frames without the skipped ones are the sent ones followed by those on their way. So the
stream is a sub-sequence of the captured frames, each is sent at most once, only skipped
frames are lost, and the time stamps of the sent items never decrease. -/
theorem stream_in_order (run : PipelineRun cfg E tr s)
    (order : ∀ s a, E s a → a.overtakesCapture = false) :
    (log completed tr).filter (· ∉ log skipped tr) = (log pushed tr).map (·.frame) ++ s.inFlight ∧
    ((log pushed tr).map (·.frame)).Sublist (log completed tr) ∧
    ((log pushed tr).map (·.frame)).Nodup ∧
    (∀ f ∈ log completed tr, f ∈ log skipped tr ∨ f ∈ (log pushed tr).map (·.frame) ∨
      f ∈ s.inFlight) ∧
    ((log pushed tr).map (·.timestampUs)).Pairwise (· ≤ ·) := by
  obtain ⟨sub, perm⟩ := run.withPhase.lossyQueue State.inFlight
    (fun s a => (pushed s a).map (·.frame)) skipped completed rfl fun s a t ok h =>
      (step_cases h).2.inFlight ok.1 (order s a ok.2)
  rw [log_map] at sub perm
  have distinct := run.completed_nodup
  have sent := (List.sublist_append_left _ _).trans sub
  refine ⟨filter_eq_of_sublist_of_perm sub perm distinct, sent, distinct.sublist sent,
    fun f member => ?_, run.pushed_sorted order⟩
  have := perm.mem_iff.mpr member
  simp only [List.mem_append] at this
  tauto

/-- Of two frames the second is skipped, and the first is sent. -/
theorem stream_in_order_with_skip :
    ∃ tr s, PipelineRun (.sample 2 1 1) (fun _ a => a.overtakesCapture = false) tr s ∧
      s.completions = 2 ∧ s.inFlight = [] ∧
      (log completed tr).filter (· ∉ log skipped tr) =
        (log pushed tr).map (·.frame) ++ s.inFlight := by
  obtain ⟨tr, s, run, done⟩ := exists_pipelineRun (.sample 2 1 1)
    (fun _ a => a.overtakesCapture = false)
    (startUp (.sample 2 1 1) ++ capture 0 ++ encodeRound ++ capture 1 ++
      List.replicate 4 (.processor {}) ++ [.driver (.encode 4096 true)] ++ pollRound ++ outputRound)
    (fun s => s.completions = 2 ∧ s.inFlight = []) (by decide +kernel)
  exact ⟨tr, s, run, done.1, done.2, (stream_in_order run fun _ _ ok => ok).1⟩

end Run

end LibcameraStreamer
