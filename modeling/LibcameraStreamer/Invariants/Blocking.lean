import LibcameraStreamer.Invariants.Collection
import LibcameraStreamer.Invariants.Release

/-!
# Where the poll thread blocks

Behind one POLLIN the poll thread makes two blocking `VIDIOC_DQBUF` and, through the callback,
one blocking `wait_dequeue`. With a driver that finishes an OUTPUT buffer no later than the
CAPTURE buffer made from it, there is always something to dequeue: the frames whose OUTPUT
buffer is finished and not dequeued are at least those on the CAPTURE side.
-/
namespace LibcameraStreamer
open Library

/-- The CAPTURE `VIDIOC_DQBUF` succeeds in the step. -/
def collectsCapture (s : State) : Action → Bool
  | .poll ans => s.poll == .dequeueCapture && xioctl ans.replies == some 0
  | _ => false

/-- The driver writes a frame whose OUTPUT buffer it goes on holding. -/
def late (s : State) : Action → Bool
  | .driver (.produceCapture i _ _ _) =>
    (s.coding[i]?).any fun c => decide (c.frame ∈ s.outputQueued.map (·.frame))
  | .driver (.encode _ _) =>
    s.coding.head?.any fun c => decide (c.frame ∈ s.outputQueued.tail.map (·.frame))
  | _ => false

/-- The calls of the poll thread to the driver succeed, and the driver finishes an OUTPUT buffer
no later than the CAPTURE buffer made from it. -/
@[mk_iff]
structure Timely (s : State) (a : Action) : Prop where
  output : failsOutput s a = false
  capture : failsCapture s a = false
  order : late s a = false

instance (s : State) (a : Action) : Decidable (Timely s a) :=
  decidable_of_iff _ (timely_iff s a).symm

/-! ## The two sides in step -/

theorem PollStep.between {ans : Answers} {s t : State} (h : PollStep ans s t)
    (timely : Timely s (.poll ans)) (filled : ∀ b ∈ s.captureFinished,
      ∃ desc, s.buffers[b.index]? = some (some desc)) :
    t.poll.between = s.poll.between + (if collects s (.poll ans) then 1 else 0) -
      (if collectsCapture s (.poll ans) then 1 else 0) := by
  obtain ⟨output, capture, -⟩ := timely
  cases h
  case dequeueOutputFails point failed => simp [failsOutput, point, failed] at output
  case dequeueCaptureFails point failed => simp [failsCapture, point, failed] at capture
  case tableOverflow b rest point ok finished entry =>
    obtain ⟨desc, entry'⟩ := filled b (by simp [finished])
    simp [entry] at entry'
  case tableUnset b rest point ok finished entry =>
    obtain ⟨desc, entry'⟩ := filled b (by simp [finished])
    simp [entry] at entry'
  all_goals simp [PollPoint.between, collects, collectsCapture, *]

theorem Transition.between {cfg : Config} {s t : State} {a : Action} (h : Transition cfg s a t)
    (phase : Phase s) (captures : Captures cfg s) (timely : Timely s a) :
    t.poll.between = s.poll.between + (if collects s a then 1 else 0) -
      (if collectsCapture s a then 1 else 0) := by
  cases h with
  | main h =>
    cases h
    case startPoll point =>
      have fresh := phase.poll_fresh point
      simp [PollPoint.between, collects, collectsCapture, fresh]
    all_goals simp [collects, collectsCapture]
  | poll ans h => exact h.between timely fun b member => ⟨_, captures.entry member⟩
  | callback h | processor ans h | output ans h | driver d h =>
    rw [h.frame]
    simp [collects, collectsCapture]
  | complete | tick => simp [collects, collectsCapture]

/-! ## The frames in the codec -/

/-- The frames that are completed and not written to a CAPTURE buffer. -/
def State.uncoded (s : State) : List Frame :=
  s.coding.map (·.frame) ++ (s.processor.frame ++ s.completedRequestsQueue)

theorem Transition.uncoded {cfg : Config} {s t : State} {a : Action} (h : Transition cfg s a t)
    (phase : Phase s) :
    t.uncoded.Subperm (s.uncoded ++ (completed s a).toList) := by
  rw [List.subperm_iff_count]
  intro x
  cases h with
  | main h =>
    cases h
    case startProcessor point =>
      have fresh := phase.processor_fresh point
      simp [State.uncoded, ProcessorPoint.frame, fresh]
    all_goals simp [State.uncoded]
  | callback h => cases h <;> simp [State.uncoded, completed, *]
  | processor ans h =>
    cases h <;> simp [State.uncoded, ProcessorPoint.frame, completed, List.count_cons, *]
  | driver d h =>
    cases h
    case produceCapture i j bytesUsed keyframe c index coded free =>
      have := count_map_eraseIdx (·.frame) coded x
      simp [State.uncoded]
      omega
    case drop i c coded =>
      have := count_map_eraseIdx (·.frame) coded x
      simp [State.uncoded]
      omega
    case encode bytesUsed keyframe b outputs c coding index captures queued coded free =>
      simp [State.uncoded, coded, List.count_cons]
      omega
    all_goals simp [State.uncoded]
  | output ans h | poll ans h =>
    rw [h.frame]
    simp [State.uncoded]
  | complete | tick => simp [State.uncoded]

/-- How many of the frames in the codec have a finished OUTPUT buffer. -/
def uncovered (coding queued : List Frame) : Nat := coding.countP (· ∉ queued)

theorem uncovered_cons (f : Frame) (coding queued : List Frame) :
    uncovered (f :: coding) queued = uncovered coding queued + if f ∉ queued then 1 else 0 := by
  simp [uncovered, List.countP_cons]

/-- When one frame leaves the OUTPUT queue, it is the only one in the codec that is affected. -/
theorem uncovered_le_succ {coding : List Frame} (queued rest : List Frame) (f : Frame)
    (distinct : coding.Nodup) (leaves : ∀ x ∈ queued, x = f ∨ x ∈ rest) :
    uncovered coding rest ≤ uncovered coding queued + 1 := by
  have split : ∀ l : List Frame, uncovered l rest ≤ uncovered l queued + l.count f := by
    intro l
    induction l with
    | nil => simp [uncovered]
    | cons x l ih =>
      have := leaves x
      simp only [uncovered_cons, List.count_cons, beq_iff_eq]
      split_ifs <;> first | omega | simp_all
  exact (split coding).trans (Nat.add_le_add_left (List.nodup_iff_count_le_one.mp distinct f) _)

/-- Every finished CAPTURE buffer, and every frame that the driver may write without finishing
another OUTPUT buffer, has a finished OUTPUT buffer of its own. -/
def Covered (s : State) : Prop :=
  (s.captureFinished.length +
      uncovered (s.coding.map (·.frame)) (s.outputQueued.map (·.frame)) : Int) ≤
    s.outputFinished.length + s.poll.between

theorem DriverStep.covered {cfg : Config} {s t : State} {d : DriverAction}
    (h : DriverStep cfg s d t) (distinct : (s.coding.map (·.frame)).Nodup)
    (timely : Timely s (.driver d)) (inv : Covered s) : Covered t := by
  have order := timely.order
  unfold Covered at *
  cases h
  case finishOutput i b queued =>
    have more := uncovered_le_succ (s.outputQueued.map (·.frame))
      ((s.outputQueued.eraseIdx i).map (·.frame)) b.frame distinct fun x member => by
        simpa using (map_eraseIdx_perm (·.frame) queued).mem_iff.mpr member
    simp only [List.length_append, List.length_singleton]
    omega
  case produceCapture i j bytesUsed keyframe c index coded free =>
    have covered : c.frame ∉ s.outputQueued.map (·.frame) := by
      simpa only [late, coded, Option.any_some, decide_eq_false_iff_not] using order
    have perm := (map_eraseIdx_perm (·.frame) coded).countP_eq
      (· ∉ s.outputQueued.map (·.frame))
    have less := uncovered_cons c.frame ((s.coding.eraseIdx i).map (·.frame))
      (s.outputQueued.map (·.frame))
    rw [if_pos covered] at less
    simp only [uncovered, List.length_append, List.length_singleton] at *
    omega
  case drop i c coded =>
    have fewer : uncovered ((s.coding.eraseIdx i).map (·.frame)) (s.outputQueued.map (·.frame)) ≤
        uncovered (s.coding.map (·.frame)) (s.outputQueued.map (·.frame)) :=
      ((s.coding.eraseIdx_sublist i).map CodedFrame.frame).countP_le
    simp only
    omega
  case encode bytesUsed keyframe b outputs c coding index captures queued coded free =>
    have covered : c.frame ∉ outputs.map (·.frame) := by
      simpa only [late, coded, queued, List.head?_cons, List.tail_cons, Option.any_some,
        decide_eq_false_iff_not] using order
    have more := uncovered_le_succ (s.outputQueued.map (·.frame)) (outputs.map (·.frame))
      b.frame distinct fun x member => by simpa [queued] using member
    have less := uncovered_cons c.frame (coding.map (·.frame)) (outputs.map (·.frame))
    rw [if_pos covered] at less
    simp only [coded, List.map_cons, List.length_append, List.length_singleton] at *
    omega

theorem Transition.covered {cfg : Config} {s t : State} {a : Action} (h : Transition cfg s a t)
    (phase : Phase s) (distinct : (s.coding.map (·.frame)).Nodup) (timely : Timely s a)
    (inv : Covered s) : Covered t := by
  cases h with
  | main h =>
    cases h
    case startPoll point =>
      have fresh := phase.poll_fresh point
      simpa [Covered, PollPoint.between, fresh] using inv
    all_goals exact inv
  | processor ans h =>
    cases h
    case queueOutput index f fd size ts point ok =>
      have fewer : uncovered (s.coding.map (·.frame) ++ [f]) (s.outputQueued.map (·.frame) ++ [f]) ≤
          uncovered (s.coding.map (·.frame)) (s.outputQueued.map (·.frame)) := by
        simp only [uncovered, List.countP_append]
        have both := List.countP_mono_left (l := s.coding.map (·.frame))
          (p := (· ∉ s.outputQueued.map (·.frame) ++ [f]))
          (q := (· ∉ s.outputQueued.map (·.frame))) (by simp_all)
        simpa using both
      unfold Covered at *
      simp only [List.map_append, List.map_cons, List.map_nil]
      omega
    all_goals exact inv
  | driver d h => exact h.covered distinct timely inv
  | poll ans h =>
    obtain ⟨output, capture, -⟩ := timely
    unfold Covered at *
    cases h
    case dequeueOutputFails point failed => simp [failsOutput, point, failed] at output
    case dequeueCaptureFails point failed => simp [failsCapture, point, failed] at capture
    case dequeueOutput b rest point ok finished =>
      simp [point, finished, PollPoint.between] at inv ⊢
      omega
    case dequeueCapture b rest desc point ok finished entry =>
      simp [point, finished, PollPoint.between] at inv ⊢
      omega
    case nullCamera | tableOverflow | tableUnset | terminate => exact inv
    all_goals simpa [PollPoint.between, *] using inv
  | callback h | output ans h =>
    rw [h.frame]
    exact inv
  | complete | tick => exact inv

/-! ## The blocking calls -/

section Run

variable {cfg : Config} {E : State → Action → Prop} {tr : List (State × Action)} {s : State}

/-- No frame is in the codec twice. -/
theorem PipelineRun.coding_nodup (run : PipelineRun cfg E tr s) :
    (s.coding.map (·.frame)).Nodup := by
  obtain ⟨l, perm, sub⟩ := run.withPhase.lossyBag State.uncoded completed rfl fun s a t ok h =>
    (step_cases h).2.uncoded ok.1
  have distinct := (perm.nodup_iff.mp (run.completed_nodup.sublist sub))
  exact (List.nodup_append.mp distinct).1

/-- How far the OUTPUT side is ahead of the CAPTURE side, in dequeued buffers. -/
theorem PipelineRun.between (run : PipelineRun cfg E tr s) (timely : ∀ s a, E s a → Timely s a) :
    s.poll.between = (count collects tr - count collectsCapture tr : Int) := by
  have := run.reachable.balance (fun s => s.poll.between) collects collectsCapture
    fun s a t ⟨⟨_, before⟩, ok⟩ h =>
      (step_cases h).2.between (PipelineRun.phase before) (PipelineRun.captures before)
        (timely s a ok)
  simpa [initial, PollPoint.between] using this

theorem PipelineRun.covered (run : PipelineRun cfg E tr s) (timely : ∀ s a, E s a → Timely s a) :
    Covered s :=
  run.reachable.invariant Covered (by simp [Covered, initial, uncovered, PollPoint.between])
    fun s a _ inv ⟨⟨_, before⟩, ok⟩ h =>
      (step_cases h).2.covered (PipelineRun.phase before) (PipelineRun.coding_nodup before)
        (timely s a ok) inv

/-- At the head of its loop the poll thread has dequeued as many OUTPUT as CAPTURE buffers. At
each `VIDIOC_DQBUF` a finished buffer of that side is there, and in `ReuseRequest` a request
is in the queue or the camera's thread is about to enqueue one. -/
theorem poll_thread_supplied (run : PipelineRun cfg E tr s)
    (timely : ∀ s a, E s a → Timely s a) :
    (s.poll = .loopTest → count collects tr = count collectsCapture tr) ∧
    (s.poll = .dequeueOutput → s.outputFinished ≠ []) ∧
    (∀ f, s.poll = .reuseRequest f →
      s.requestsToReuseQueue ≠ [] ∨ ∃ r, s.callback = .enqueueReuse r) ∧
    (s.poll = .dequeueCapture → s.captureFinished ≠ []) := by
  have ready := run.captureReady
  refine ⟨fun point => ?_, fun point empty => ?_, fun f => run.owed_of_reuseRequest,
    fun point => ready (by simp [point, PollPoint.collecting])⟩
  · have between := run.between timely
    simp only [point, PollPoint.between] at between
    omega
  · have covered := run.covered timely
    have captures := List.length_pos_of_ne_nil (ready (by simp [point, PollPoint.collecting]))
    simp only [Covered, point, empty, PollPoint.between, List.length_nil] at covered
    omega

/-- One frame is finished on the OUTPUT side first and then written, and the poll thread stands
before the OUTPUT `VIDIOC_DQBUF`. -/
theorem poll_thread_supplied_before_dequeue :
    ∃ s : State, s.poll = .dequeueOutput ∧ s.completions = 1 ∧ s.outputFinished ≠ [] := by
  obtain ⟨tr, s, run, point, completions⟩ := exists_pipelineRun (.sample 1 1 1) Timely
    (startUp (.sample 1 1 1) ++ capture 0 ++ encodeRound ++
      [.driver (.finishOutput 0), .driver (.produceCapture 0 0 4096 true), .poll {}, .poll {}])
    (fun s => s.poll = .dequeueOutput ∧ s.completions = 1) (by decide +kernel)
  exact ⟨s, point, completions, (poll_thread_supplied run fun _ _ ok => ok).2.1 point⟩

end Run

end LibcameraStreamer
