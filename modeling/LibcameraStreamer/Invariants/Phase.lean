import LibcameraStreamer.Model.Environment

/-!
# The order of construction and destruction

The statements of the constructor and the destructor run in one order, so the main thread's
program point decides which threads have started, which flags are set and whether `camera_`
is still there. This holds in every run, whatever fails.
-/
namespace LibcameraStreamer
open Library

/-- The position of a program point in the main thread's statement order. -/
def MainPoint.rank : MainPoint → Nat
  | .enqueueInputs _ => 0
  | .mapCapture _ | .queueCapture _ => 1
  | .streamOn => 2
  | .startProcessor => 3
  | .startOutput => 4
  | .startCamera _ => 5
  | .startPoll => 6
  | .running => 7
  | .setStop => 8
  | .resetCamera => 9
  | .stopManager => 10
  | .joinProcessor => 11
  | .joinOutput => 12
  | .setEncoderStop => 13
  | .joinPoll => 14
  | .destroyStream => 15
  | .destroySession => 16
  | .destroyed => 17

/-- The life of a thread by the main thread's rank: it is started after `start`, returns only
after its flag is set after `stop`, and is joined at `join`. -/
structure Lifetime (start stop join : Nat) (fresh ended : Prop) (rank : Nat) : Prop where
  started : fresh ↔ rank ≤ start
  returned : ended → stop < rank
  joined : join < rank → ended

/-- A step of the thread itself. -/
theorem Lifetime.own {start stop join rank : Nat} {fresh ended fresh' ended' : Prop}
    (h : Lifetime start stop join fresh ended rank) (active : ¬ fresh ∧ ¬ ended)
    (still : ¬ fresh') (told : ended' → stop < rank) :
    Lifetime start stop join fresh' ended' rank where
  started := ⟨fun f => absurd f still, fun r => absurd (h.started.mpr r) active.1⟩
  returned := told
  joined r := absurd (h.joined r) active.2

/-- A step of the main thread to the next rank, other than the start and the join. -/
theorem Lifetime.advance {start stop join rank : Nat} {fresh ended : Prop}
    (h : Lifetime start stop join fresh ended rank) (next : Nat) (up : rank ≤ next)
    (starts : next ≤ start ∨ start < rank) (joins : next ≤ join ∨ join < rank ∨ ended) :
    Lifetime start stop join fresh ended next where
  started := by rw [h.started]; omega
  returned e := (h.returned e).trans_le up
  joined r := (joins.resolve_left (by omega)).elim h.joined id

/-- Between its start and the setting of its flag the thread runs. -/
theorem Lifetime.running {start stop join rank : Nat} {fresh ended : Prop}
    (h : Lifetime start stop join fresh ended rank) (after : start < rank) (before : rank ≤ stop) :
    ¬ fresh ∧ ¬ ended :=
  ⟨fun f => absurd (h.started.mp f) (by omega), fun e => absurd (h.returned e) (by omega)⟩

theorem Lifetime.lt_rank {start stop join rank : Nat} {fresh ended : Prop}
    (h : Lifetime start stop join fresh ended rank) (active : ¬ fresh) : start < rank := by
  by_contra early
  exact active (h.started.mpr (by omega))

structure Phase (s : State) : Prop where
  processor : Lifetime 3 8 11 (s.processor = .notStarted) (s.processor = .returned) s.main.rank
  output : Lifetime 4 8 12 (s.output = .notStarted) (s.output = .returned) s.main.rank
  poll : Lifetime 6 13 14 (s.poll = .notStarted) (s.poll = .returned) s.main.rank
  stop : s.stopRequested = true ↔ 8 < s.main.rank
  camera : s.camera = none ↔ 9 < s.main.rank
  manager : s.managerRunning = false ↔ 10 < s.main.rank
  encoderStop : s.encoderStopRequested = true ↔ 13 < s.main.rank

theorem phase_initial (cfg : Config) : Phase (initial cfg) := by
  refine ⟨⟨?_, ?_, ?_⟩, ⟨?_, ?_, ?_⟩, ⟨?_, ?_, ?_⟩, ?_, ?_, ?_, ?_⟩ <;>
    simp [initial, MainPoint.rank]

/-- The thread is running from its start on, and its flag is not yet set. -/
theorem Lifetime.start {start stop join rank : Nat} {fresh ended : Prop} (after : start < rank)
    (before : rank ≤ join) (active : ¬ fresh ∧ ¬ ended) :
    Lifetime start stop join fresh ended rank where
  started := ⟨fun f => absurd f active.1, fun r => absurd r (by omega)⟩
  returned e := absurd e active.2
  joined r := absurd r (by omega)

theorem Phase.processor_fresh {s : State} (phase : Phase s) (point : s.main = .startProcessor) :
    s.processor = .notStarted :=
  phase.processor.started.mpr (by simp [point, MainPoint.rank])

theorem Phase.output_fresh {s : State} (phase : Phase s) (point : s.main = .startOutput) :
    s.output = .notStarted :=
  phase.output.started.mpr (by simp [point, MainPoint.rank])

theorem Phase.poll_fresh {s : State} (phase : Phase s) (point : s.main = .startPoll) :
    s.poll = .notStarted :=
  phase.poll.started.mpr (by simp [point, MainPoint.rank])

theorem MainStep.phase {cfg : Config} {s t : State} (h : MainStep cfg s t) (inv : Phase s) :
    Phase t := by
  obtain ⟨processor, output, poll, stop, camera, manager, encoderStop⟩ := inv
  cases h
  case overflow => exact ⟨processor, output, poll, stop, camera, manager, encoderStop⟩
  case startProcessor =>
    refine ⟨.start ?_ ?_ ?_, output.advance _ ?_ ?_ ?_, poll.advance _ ?_ ?_ ?_,
      ?_, ?_, ?_, ?_⟩ <;> simp [MainPoint.rank, *]
  case startOutput =>
    refine ⟨processor.advance _ ?_ ?_ ?_, .start ?_ ?_ ?_, poll.advance _ ?_ ?_ ?_,
      ?_, ?_, ?_, ?_⟩ <;> simp [MainPoint.rank, *]
  case startPoll =>
    refine ⟨processor.advance _ ?_ ?_ ?_, output.advance _ ?_ ?_ ?_, .start ?_ ?_ ?_,
      ?_, ?_, ?_, ?_⟩ <;> simp [MainPoint.rank, *]
  all_goals
    refine ⟨processor.advance _ ?_ ?_ ?_, output.advance _ ?_ ?_ ?_, poll.advance _ ?_ ?_ ?_,
      ?_, ?_, ?_, ?_⟩ <;> simp [MainPoint.rank, *]

theorem ProcessorStep.active {cfg : Config} {ans : Answers} {s t : State}
    (h : ProcessorStep cfg ans s t) :
    (s.processor ≠ .notStarted ∧ s.processor ≠ .returned) ∧ t.processor ≠ .notStarted ∧
      (t.processor = .returned → s.stopRequested = true) := by
  cases h <;> simp [*]

theorem OutputStep.active {ans : Answers} {s t : State} (h : OutputStep ans s t) :
    (s.output ≠ .notStarted ∧ s.output ≠ .returned) ∧ t.output ≠ .notStarted ∧
      (t.output = .returned → s.stopRequested = true) := by
  cases h <;> simp [*]

theorem PollStep.active {ans : Answers} {s t : State} (h : PollStep ans s t) :
    (s.poll ≠ .notStarted ∧ s.poll ≠ .returned) ∧ t.poll ≠ .notStarted ∧
      (t.poll = .returned → s.encoderStopRequested = true) := by
  cases h <;> simp [*]

theorem Transition.phase {cfg : Config} {s t : State} {a : Action} (h : Transition cfg s a t)
    (inv : Phase s) : Phase t := by
  cases h with
  | main h => exact h.phase inv
  | complete => exact { inv with }
  | callback h => rw [h.frame]; exact { inv with }
  | processor ans h =>
    obtain ⟨active, still, told⟩ := h.active
    rw [h.frame]
    exact { inv with
      processor := inv.processor.own active still fun e => inv.stop.mp (told e) }
  | output ans h =>
    obtain ⟨active, still, told⟩ := h.active
    rw [h.frame]
    exact { inv with output := inv.output.own active still fun e => inv.stop.mp (told e) }
  | poll ans h =>
    obtain ⟨active, still, told⟩ := h.active
    rw [h.frame]
    exact { inv with poll := inv.poll.own active still fun e => inv.encoderStop.mp (told e) }
  | driver d h => rw [h.frame]; exact { inv with }
  | tick => exact { inv with }

section Run

variable {cfg : Config} {E : State → Action → Prop} {tr : List (State × Action)} {s : State}

theorem PipelineRun.phase (run : PipelineRun cfg E tr s) : Phase s :=
  run.invariant Phase (phase_initial cfg) fun _ _ _ inv _ h => (step_cases h).2.phase inv

/-- Later invariants take the phase of a step's state for granted. -/
theorem PipelineRun.withPhase (run : PipelineRun cfg E tr s) :
    PipelineRun cfg (fun s a => Phase s ∧ E s a) tr s :=
  run.strengthen Phase (phase_initial cfg) fun _ _ _ inv _ h => (step_cases h).2.phase inv

end Run

end LibcameraStreamer
