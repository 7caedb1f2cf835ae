import LibcameraStreamer.Library.Partition
import LibcameraStreamer.Invariants.Phase

/-!
# The input slots

The indices of the OUTPUT buffers go round from `availableInputBuffers_` through
`EncodeBuffer`, the driver and the poll thread back into the queue.
-/
namespace LibcameraStreamer
open Library

/-- The index that `EncodeBuffer` has dequeued and not queued to the driver. -/
def ProcessorPoint.index : ProcessorPoint → List Nat
  | .queueOutput index .. | .threw index _ => [index]
  | _ => []

/-- The index between the OUTPUT `VIDIOC_DQBUF` and the enqueue. -/
def PollPoint.slot : PollPoint → List Nat
  | .enqueueInput b => [b.index]
  | _ => []

/-- How many indices the constructor has enqueued. -/
def MainPoint.inputsIssued (cfg : Config) : MainPoint → Nat
  | .enqueueInputs i => min i cfg.outputCount
  | _ => cfg.outputCount

def State.outputHeld (s : State) : List Nat :=
  (s.outputQueued ++ s.outputFinished).map (·.index)

/-- Every index that has been issued is in exactly one of the four places. -/
def InputSlots (cfg : Config) (s : State) : Prop :=
  Partitions [s.availableInputBuffers, s.processor.index, s.outputHeld, s.poll.slot]
    (List.range (s.main.inputsIssued cfg))

theorem inputSlots_initial (cfg : Config) : InputSlots cfg (initial cfg) := by
  simp [InputSlots, Partitions, initial, MainPoint.inputsIssued, ProcessorPoint.index,
    PollPoint.slot, State.outputHeld]

/-- The indices that `EncodeBuffer` has not taken. -/
def State.inputsElsewhere (s : State) : List Nat :=
  s.availableInputBuffers ++ (s.outputHeld ++ s.poll.slot)

/-- Away from `EncodeBuffer` only the constructor adds indices, and none is lost. -/
def InputsKept (cfg : Config) (s t : State) : Prop :=
  ∀ x, t.inputsElsewhere.count x + (List.range (s.main.inputsIssued cfg)).count x =
    s.inputsElsewhere.count x + (List.range (t.main.inputsIssued cfg)).count x

theorem MainStep.inputsKept {cfg : Config} {s t : State} (h : MainStep cfg s t)
    (phase : Phase s) : InputsKept cfg s t := by
  intro x
  cases h
  case enqueueInput i point more =>
    have issued : min (i + 1) cfg.outputCount = i + 1 := by omega
    have before : min i cfg.outputCount = i := by omega
    simp [State.inputsElsewhere, State.outputHeld, MainPoint.inputsIssued, point, issued, before,
      List.range_succ, List.count_cons, -List.count_range]
    omega
  case inputsEnqueued i point last =>
    have all : min i cfg.outputCount = cfg.outputCount := by omega
    simp [State.inputsElsewhere, State.outputHeld, MainPoint.inputsIssued, point, all]
  case startPoll point =>
    have fresh := phase.poll_fresh point
    simp [State.inputsElsewhere, State.outputHeld, MainPoint.inputsIssued, PollPoint.slot, point,
      fresh]
  all_goals simp [State.inputsElsewhere, State.outputHeld, MainPoint.inputsIssued, *]

theorem PollStep.inputsKept {cfg : Config} {ans : Answers} {s t : State} (h : PollStep ans s t) :
    InputsKept cfg s t := by
  intro x
  cases h
  case dequeueOutput b rest point ok finished =>
    simp [State.inputsElsewhere, State.outputHeld, PollPoint.slot, point, finished,
      List.count_cons]
  case enqueueInput b point =>
    simp [State.inputsElsewhere, State.outputHeld, PollPoint.slot, point, List.count_cons]
    omega
  all_goals simp [State.inputsElsewhere, State.outputHeld, PollPoint.slot, *]

theorem DriverStep.inputsKept {cfg : Config} {s t : State} {d : DriverAction}
    (h : DriverStep cfg s d t) : InputsKept cfg s t := by
  intro x
  cases h
  case finishOutput i b queued =>
    have := count_map_eraseIdx (·.index) queued x
    simp [State.inputsElsewhere, State.outputHeld, List.count_cons]
    omega
  case encode b outputs c coding index captures queued coded free =>
    simp [State.inputsElsewhere, State.outputHeld, queued, List.count_cons]
    omega
  all_goals rfl

/-- A step of another thread keeps the indices and does not touch the thread of `EncodeBuffer`,
unless it starts it. -/
theorem Transition.inputsKept {cfg : Config} {s t : State} {a : Action}
    (h : Transition cfg s a t) (phase : Phase s) (other : ∀ ans, a ≠ .processor ans) :
    InputsKept cfg s t ∧
      (t.processor = s.processor ∨ s.processor = .notStarted ∧ t.processor = .loopTest) := by
  cases h with
  | main h =>
    refine ⟨h.inputsKept phase, ?_⟩
    cases h
    case startProcessor point => exact .inr ⟨phase.processor_fresh point, rfl⟩
    all_goals exact .inl rfl
  | processor ans h => exact absurd rfl (other ans)
  | poll ans h => exact ⟨h.inputsKept, .inl (by rw [h.frame])⟩
  | driver d h => exact ⟨h.inputsKept, .inl (by rw [h.frame])⟩
  | callback h | output ans h =>
    rw [h.frame]
    exact ⟨fun _ => rfl, .inl rfl⟩
  | complete | tick => exact ⟨fun _ => rfl, .inl rfl⟩

theorem ProcessorStep.inputSlots {cfg : Config} {ans : Answers} {s t : State}
    (h : ProcessorStep cfg ans s t) (inv : InputSlots cfg s) : InputSlots cfg t := by
  cases h
  case takeIndex f fd size ts index rest point queue =>
    refine inv.transfer fun x => ?_
    simp [queue, point, ProcessorPoint.index, State.outputHeld, List.count_cons]
    omega
  case queueOutput index f fd size ts point ok =>
    refine inv.transfer fun x => ?_
    simp [point, ProcessorPoint.index, State.outputHeld, List.count_cons]
    omega
  all_goals simpa [InputSlots, ProcessorPoint.index, State.outputHeld, *] using inv

theorem Transition.inputSlots {cfg : Config} {s t : State} {a : Action}
    (h : Transition cfg s a t) (phase : Phase s) (inv : InputSlots cfg s) : InputSlots cfg t := by
  by_cases own : ∃ ans, a = .processor ans
  · obtain ⟨ans, rfl⟩ := own
    cases h with
    | processor ans h => exact h.inputSlots inv
  · obtain ⟨kept, processor⟩ := h.inputsKept phase fun ans here => own ⟨ans, here⟩
    have index : t.processor.index = s.processor.index := by
      rcases processor with same | ⟨before, after⟩
      · rw [same]
      · simp [before, after, ProcessorPoint.index]
    refine inv.transfer fun x => ?_
    have := kept x
    simp only [State.inputsElsewhere, List.count_append] at this
    simp only [List.flatten_cons, List.flatten_nil, List.append_nil, List.count_append, index]
    omega

theorem PipelineRun.inputSlots {cfg : Config} {E : State → Action → Prop}
    {tr : List (State × Action)} {s : State} (run : PipelineRun cfg E tr s) : InputSlots cfg s :=
  run.withPhase.invariant (InputSlots cfg) (inputSlots_initial cfg) fun _ _ _ inv ok h =>
    (step_cases h).2.inputSlots ok.1 inv

theorem MainPoint.inputsIssued_eq (cfg : Config) {m : MainPoint} (h : 0 < m.rank) :
    m.inputsIssued cfg = cfg.outputCount := by
  cases m <;> simp_all [inputsIssued, rank]

/-- When `EncodeBuffer` finds the queue empty, the driver and the poll thread have every slot. -/
theorem InputSlots.full {cfg : Config} {s : State} (slots : InputSlots cfg s) (phase : Phase s)
    {f : Frame} {fd : Int} {size : Nat} {ts : Int}
    (point : s.processor = .encodeBuffer f fd size ts) (empty : s.availableInputBuffers = []) :
    (s.outputHeld ++ s.poll.slot).Perm (List.range cfg.outputCount) := by
  have started : 3 < s.main.rank := phase.processor.lt_rank (by simp [point])
  simpa [InputSlots, Partitions, point, empty, ProcessorPoint.index,
    MainPoint.inputsIssued_eq cfg (by omega : 0 < s.main.rank)] using slots

/-- Once the constructor's loop is over, the indices `0..m-1` are each in exactly one place:
the queue, `EncodeBuffer`, the driver or the poll thread. So `EncodeBuffer` never queues an
index that the driver holds, and it skips a frame only when none of the `m` is left. -/
theorem input_slot_conservation {cfg : Config} {E : State → Action → Prop}
    {tr : List (State × Action)} {s : State} (run : PipelineRun cfg E tr s) :
    Partitions [s.availableInputBuffers, s.processor.index, s.outputHeld, s.poll.slot]
      (List.range (s.main.inputsIssued cfg)) ∧
    (0 < s.main.rank → s.main.inputsIssued cfg = cfg.outputCount) ∧
    (∀ index f fd size ts, s.processor = .queueOutput index f fd size ts →
      index ∉ s.outputHeld ∧ index < cfg.outputCount) ∧
    s.outputHeld.length ≤ cfg.outputCount ∧
    (∀ f fd size ts, s.processor = .encodeBuffer f fd size ts → s.availableInputBuffers = [] →
      (s.outputHeld ++ s.poll.slot).Perm (List.range cfg.outputCount)) := by
  have slots := run.inputSlots
  have issued : s.main.inputsIssued cfg ≤ cfg.outputCount := by
    cases h : s.main <;> simp [MainPoint.inputsIssued]
  refine ⟨slots, MainPoint.inputsIssued_eq cfg, ?_, ?_, ?_⟩
  · intro index f fd size ts point
    have disjoint := (slots.nodup List.nodup_range).2
    have member := (slots.mem_iff index).mpr ⟨s.processor.index, by simp, by
      simp [point, ProcessorPoint.index]⟩
    simp only [List.pairwise_cons, List.mem_cons, forall_eq_or_imp] at disjoint
    refine ⟨fun held => disjoint.2.1.1 ?_ held, (List.mem_range.mp member).trans_le issued⟩
    simp [point, ProcessorPoint.index]
  · have total := slots.length
    simp at total
    omega
  · intro f fd size ts point empty
    exact slots.full run.phase point empty

/-- Two requests and one input slot: the second frame is about to be skipped while the driver
holds the slot. -/
theorem input_slot_conservation_when_full :
    ∃ s : State, s.availableInputBuffers = [] ∧
      (s.outputHeld ++ s.poll.slot).Perm (List.range 1) := by
  obtain ⟨tr, s, run, h⟩ := exists_pipelineRun (.sample 2 1 1) (fun _ a => a.fails = false)
    (startUp (.sample 2 1 1) ++ capture 0 ++ encodeRound ++ capture 1 ++
      List.replicate 3 (.processor {}))
    (fun s => s.availableInputBuffers = [] ∧
      s.processor = .encodeBuffer ⟨1, 1⟩ 21 1382400 0) (by decide +kernel)
  exact ⟨s, h.1, (input_slot_conservation run).2.2.2.2 _ _ _ _ h.2 h.1⟩

end LibcameraStreamer
