import LibcameraStreamer.Library.LossyQueue
import LibcameraStreamer.Library.Partition
import LibcameraStreamer.Invariants.Phase

/-!
# The capture buffers

The indices of the CAPTURE buffers go round from the driver through the poll thread,
`outputItemsQueue_` and the output thread back to the driver. On the way between the two
ioctls an index travels in an `OutputItem`, which `OutputDone` deletes.
-/
namespace LibcameraStreamer
open Library

/-- The item between the CAPTURE `VIDIOC_DQBUF` and the enqueue. -/
def PollPoint.item : PollPoint → List OutputItem
  | .enqueueItem item => [item]
  | _ => []

/-- The item the output thread holds until `OutputDone` has queued its buffer. -/
def OutputPoint.item : OutputPoint → List OutputItem
  | .pushFrame item | .outputDone item | .threw item => [item]
  | _ => []

/-- The item whose buffer is queued again and which is not yet deleted. -/
def OutputPoint.spent : OutputPoint → List OutputItem
  | .deleteItem item => [item]
  | _ => []

/-- The items on their way to `OutputDone`, the oldest first. -/
def State.items (s : State) : List OutputItem :=
  s.output.item ++ (s.outputItemsQueue ++ s.poll.item)

/-- How many CAPTURE buffers the constructor has queued, and how many it has mapped. -/
def MainPoint.capturesIssued (cfg : Config) : MainPoint → Nat
  | .enqueueInputs _ => 0
  | .mapCapture i => min i cfg.captureCount
  | .queueCapture i => i
  | _ => cfg.captureCount

def MainPoint.capturesMapped (cfg : Config) : MainPoint → Nat
  | .queueCapture i => i + 1
  | m => m.capturesIssued cfg

/-- Every index that has been issued has one owner, the table is filled in for it, and an
item carries the mapping of its index. -/
structure Captures (cfg : Config) (s : State) : Prop where
  owners : Partitions [s.captureQueued, s.captureFinished.map (·.index),
    s.poll.item.map (·.index), s.outputItemsQueue.map (·.index), s.output.item.map (·.index)]
    (List.range (s.main.capturesIssued cfg))
  mapping : ∀ i, s.main = .queueCapture i → i < cfg.captureCount
  size : s.buffers.length = captureBuffersCount
  table : ∀ i < s.main.capturesMapped cfg, s.buffers[i]? = some (some ⟨cfg.mem i, cfg.length i⟩)
  mem : ∀ item ∈ s.output.spent ++ s.items, item.mem = cfg.mem item.index

theorem captures_initial (cfg : Config) : Captures cfg (initial cfg) where
  owners := by
    simp [Partitions, initial, MainPoint.capturesIssued, PollPoint.item, OutputPoint.item]
  mapping := by simp [initial]
  size := by simp [initial]
  table := by simp [initial, MainPoint.capturesMapped, MainPoint.capturesIssued]
  mem := by simp [initial, State.items, OutputPoint.spent, OutputPoint.item, PollPoint.item]

theorem MainPoint.capturesIssued_le_mapped (cfg : Config) (m : MainPoint) :
    m.capturesIssued cfg ≤ m.capturesMapped cfg := by
  cases m <;> simp [capturesMapped, capturesIssued]

/-- A finished buffer's entry of `buffers_` is filled in. -/
theorem Captures.entry {cfg : Config} {s : State} (inv : Captures cfg s) {b : CaptureBuffer}
    (h : b ∈ s.captureFinished) :
    s.buffers[b.index]? = some (some ⟨cfg.mem b.index, cfg.length b.index⟩) := by
  have issued := (inv.owners.mem_iff b.index).mpr
    ⟨s.captureFinished.map (·.index), by simp, List.mem_map_of_mem h⟩
  exact inv.table _ ((List.mem_range.mp issued).trans_le (MainPoint.capturesIssued_le_mapped _ _))

theorem Captures.capturesIssued_le {cfg : Config} {s : State} (inv : Captures cfg s) :
    s.main.capturesIssued cfg ≤ cfg.captureCount := by
  cases main : s.main with
  | queueCapture i => exact (inv.mapping i main).le
  | _ => simp [MainPoint.capturesIssued]

theorem MainStep.captures {cfg : Config} {s t : State} (h : MainStep cfg s t) (phase : Phase s)
    (inv : Captures cfg s) : Captures cfg t := by
  obtain ⟨owners, mapping, size, table, mem⟩ := inv
  cases h
  case enqueueInput i point more =>
    refine ⟨?_, by simp, size, by simp [MainPoint.capturesMapped, MainPoint.capturesIssued], mem⟩
    simpa [point, MainPoint.capturesIssued] using owners
  case inputsEnqueued i point last =>
    refine ⟨?_, by simp, size, by simp [MainPoint.capturesMapped, MainPoint.capturesIssued], mem⟩
    simpa [point, MainPoint.capturesIssued] using owners
  case mapCapture i point more room =>
    have issued : min i cfg.captureCount = i := by omega
    refine ⟨?_, by simpa using more, by simpa using size, fun j hj => ?_, mem⟩
    · simpa [point, MainPoint.capturesIssued, issued] using owners
    · simp only [MainPoint.capturesMapped] at hj
      rcases Nat.lt_succ_iff_lt_or_eq.mp hj with hj | rfl
      · have := table j (by simpa [point, MainPoint.capturesMapped, MainPoint.capturesIssued,
          issued] using hj)
        rw [List.getElem?_set_ne (by omega), this]
      · rw [List.getElem?_set_self (by omega)]
  case capturesMapped i point last =>
    have all : min i cfg.captureCount = cfg.captureCount := by omega
    refine ⟨?_, by simp, size, ?_, mem⟩
    · simpa [point, MainPoint.capturesIssued, all] using owners
    · simpa [point, MainPoint.capturesMapped, MainPoint.capturesIssued, all] using table
  case queueCapture i point =>
    have issued : min (i + 1) cfg.captureCount = i + 1 := by
      have := mapping i point
      omega
    refine ⟨owners.transfer fun x => ?_, by simp, size, ?_, mem⟩
    · simp [point, MainPoint.capturesIssued, issued, List.range_succ, List.count_cons,
        -List.count_range]
      omega
    · simpa [point, MainPoint.capturesMapped, MainPoint.capturesIssued, issued] using table
  case startOutput point =>
    have fresh := phase.output_fresh point
    refine ⟨?_, by simp, size, ?_, ?_⟩
    · simpa [point, fresh, MainPoint.capturesIssued, OutputPoint.item] using owners
    · simpa [point, MainPoint.capturesMapped, MainPoint.capturesIssued] using table
    · simpa [fresh, State.items, OutputPoint.item, OutputPoint.spent] using mem
  case startPoll point =>
    have fresh := phase.poll_fresh point
    refine ⟨?_, by simp, size, ?_, ?_⟩
    · simpa [point, fresh, MainPoint.capturesIssued, PollPoint.item] using owners
    · simpa [point, MainPoint.capturesMapped, MainPoint.capturesIssued] using table
    · simpa [fresh, State.items, PollPoint.item] using mem
  case overflow => exact ⟨owners, mapping, size, table, mem⟩
  all_goals
    refine ⟨?_, by simp, size, ?_, mem⟩
    · simpa [MainPoint.capturesIssued, *] using owners
    · simpa [MainPoint.capturesMapped, MainPoint.capturesIssued, *] using table

theorem OutputStep.captures {cfg : Config} {ans : Answers} {s t : State} (h : OutputStep ans s t)
    (inv : Captures cfg s) : Captures cfg t := by
  obtain ⟨owners, mapping, size, table, mem⟩ := inv
  cases h
  case dequeue item rest point queue =>
    refine ⟨owners.transfer fun x => ?_, mapping, size, table, ?_⟩
    · simp [point, queue, OutputPoint.item, List.count_cons]
    · simpa [point, queue, State.items, OutputPoint.item, OutputPoint.spent] using mem
  case requeue item point ok =>
    refine ⟨owners.transfer fun x => ?_, mapping, size, table, ?_⟩
    · simp [point, OutputPoint.item, List.count_cons]
      omega
    · simpa [point, State.items, OutputPoint.item, OutputPoint.spent] using mem
  case delete item point =>
    refine ⟨?_, mapping, size, table, fun other h => mem other ?_⟩
    · simpa [point, OutputPoint.item] using owners
    · simpa [point, State.items, OutputPoint.item, OutputPoint.spent] using Or.inr h
  all_goals
    refine ⟨?_, mapping, size, table, ?_⟩
    · simpa [OutputPoint.item, *] using owners
    · simpa [State.items, OutputPoint.item, OutputPoint.spent, *] using mem

theorem PollStep.captures {cfg : Config} {ans : Answers} {s t : State} (h : PollStep ans s t)
    (inv : Captures cfg s) : Captures cfg t := by
  have entry := fun b => inv.entry (b := b)
  obtain ⟨owners, mapping, size, table, mem⟩ := inv
  cases h
  case dequeueCapture b rest desc point ok finished filled =>
    have mapped : desc = ⟨cfg.mem b.index, cfg.length b.index⟩ := by
      have := entry b (by simp [finished])
      rw [filled] at this
      simpa using this
    refine ⟨owners.transfer fun x => ?_, mapping, size, table, ?_⟩
    · simp [point, finished, PollPoint.item, newOutputItem, List.count_cons]
      omega
    · simp only [State.items, point, PollPoint.item, List.append_nil] at mem ⊢
      intro item h
      simp only [List.mem_append, List.mem_singleton] at h
      rcases h with spent | held | queued | rfl
      · exact mem item (by simp [spent])
      · exact mem item (by simp [held])
      · exact mem item (by simp [queued])
      · simp [newOutputItem, mapped]
  case enqueueItem item point =>
    refine ⟨owners.transfer fun x => ?_, mapping, size, table, ?_⟩
    · simp [point, PollPoint.item, List.count_cons]
      omega
    · simpa [point, State.items, PollPoint.item] using mem
  all_goals
    refine ⟨?_, mapping, size, table, ?_⟩
    · simpa [PollPoint.item, *] using owners
    · simpa [State.items, PollPoint.item, *] using mem

theorem DriverStep.captures {cfg : Config} {s t : State} {d : DriverAction}
    (h : DriverStep cfg s d t) (inv : Captures cfg s) : Captures cfg t := by
  obtain ⟨owners, mapping, size, table, mem⟩ := inv
  cases h
  case produceCapture i j bytesUsed keyframe c index coded free =>
    refine ⟨owners.transfer fun x => ?_, mapping, size, table, mem⟩
    have := count_eraseIdx free x
    simp [List.count_cons]
    omega
  case encode bytesUsed keyframe b outputs c coding index captures queued coded free =>
    refine ⟨owners.transfer fun x => ?_, mapping, size, table, mem⟩
    simp [free, List.count_cons]
    omega
  all_goals exact ⟨owners, mapping, size, table, mem⟩

theorem Transition.captures {cfg : Config} {s t : State} {a : Action}
    (h : Transition cfg s a t) (phase : Phase s) (inv : Captures cfg s) : Captures cfg t := by
  cases h with
  | main h => exact h.captures phase inv
  | callback h | processor ans h => rw [h.frame]; exact { inv with }
  | output ans h => exact h.captures inv
  | poll ans h => exact h.captures inv
  | driver d h => exact h.captures inv
  | complete | tick => exact { inv with }

theorem PipelineRun.captures {cfg : Config} {E : State → Action → Prop}
    {tr : List (State × Action)} {s : State} (run : PipelineRun cfg E tr s) : Captures cfg s :=
  run.withPhase.invariant (Captures cfg) (captures_initial cfg) fun _ _ _ inv ok h =>
    (step_cases h).2.captures ok.1 inv

/-! ## The life of an item -/

/-- The item that `pollReadyToProcessCaptureBuffers` creates in the step. -/
def created (s : State) : Action → Option OutputItem
  | .poll ans =>
    if s.poll = .dequeueCapture ∧ xioctl ans.replies = some 0 then
      s.captureFinished.head?.bind fun b =>
        s.buffers[b.index]?.join.map fun desc => newOutputItem s.allocations desc b
    else none
  | _ => none

/-- The item whose buffer `OutputDone` queues to the driver in the step. -/
def requeued (s : State) : Action → Option OutputItem
  | .output ans =>
    match s.output, xioctl ans.replies with
    | .outputDone item, some 0 => some item
    | _, _ => none
  | _ => none

/-- The item that `OutputDone` deletes in the step. -/
def deleted (s : State) : Action → Option OutputItem
  | .output _ => s.output.spent.head?
  | _ => none

theorem MainStep.items {cfg : Config} {s t : State} (h : MainStep cfg s t) (phase : Phase s) :
    t.items = s.items ∧ t.output.spent = s.output.spent := by
  cases h
  case startOutput point =>
    have fresh := phase.output_fresh point
    simp [State.items, OutputPoint.item, OutputPoint.spent, fresh]
  case startPoll point =>
    have fresh := phase.poll_fresh point
    simp [State.items, PollPoint.item, fresh]
  all_goals exact ⟨rfl, rfl⟩

theorem PollStep.items {ans : Answers} {s t : State} (h : PollStep ans s t) :
    t.items = s.items ++ (created s (.poll ans)).toList ∧ t.output = s.output := by
  cases h <;> simp [State.items, created, PollPoint.item, *]

theorem OutputStep.items {ans : Answers} {s t : State} (h : OutputStep ans s t) :
    s.items = (requeued s (.output ans)).toList ++ t.items ∧
      s.output.spent ++ s.items =
        (deleted s (.output ans)).toList ++ (t.output.spent ++ t.items) := by
  cases h <;> simp [State.items, requeued, deleted, OutputPoint.item, OutputPoint.spent, *]

/-- The items on their way are, in order, those that were created and not yet queued again. -/
theorem Transition.items {cfg : Config} {s t : State} {a : Action} (h : Transition cfg s a t)
    (phase : Phase s) :
    LossyStep s.items (requeued s a) none (created s a) t.items ∧
      LossyStep (s.output.spent ++ s.items) (deleted s a) none (created s a)
        (t.output.spent ++ t.items) := by
  cases h with
  | main h =>
    obtain ⟨items, spent⟩ := h.items phase
    rw [items, spent]
    exact ⟨.idle rfl, .idle rfl⟩
  | poll ans h =>
    obtain ⟨items, output⟩ := h.items
    rw [items, output]
    exact ⟨.enters rfl, .enters (List.append_assoc ..).symm⟩
  | output ans h => exact ⟨.leaves h.items.1, .leaves h.items.2⟩
  | callback h | processor ans h | driver d h =>
    rw [h.frame]
    exact ⟨.idle rfl, .idle rfl⟩
  | complete | tick => exact ⟨.idle rfl, .idle rfl⟩

theorem Transition.allocations {cfg : Config} {s t : State} {a : Action}
    (h : Transition cfg s a t) :
    List.range t.allocations =
      List.range s.allocations ++ ((created s a).map (·.address)).toList := by
  cases h with
  | poll ans h => cases h <;> simp [created, newOutputItem, List.range_succ, *]
  | main h | callback h | processor ans h | output ans h | driver d h =>
    rw [h.frame]
    simp [created]
  | complete | tick => simp [created]

/-- Every item is created with an address of its own, its buffer is queued again once, and it
is deleted once; until then it is in one of the places that hold items. -/
theorem PipelineRun.items {cfg : Config} {E : State → Action → Prop}
    {tr : List (State × Action)} {s : State} (run : PipelineRun cfg E tr s) :
    log created tr = log requeued tr ++ s.items ∧
      log created tr = log deleted tr ++ (s.output.spent ++ s.items) ∧
      ((log created tr).map (·.address)).Nodup := by
  refine ⟨?_, ?_, ?_⟩
  · exact run.withPhase.fifo State.items requeued created rfl fun s a t ok h =>
      ((step_cases h).2.items ok.1).1
  · exact run.withPhase.fifo (fun s => s.output.spent ++ s.items) deleted created rfl
      fun s a t ok h => ((step_cases h).2.items ok.1).2
  · have addresses := run.logs (fun s => List.range s.allocations)
      (fun s a => (created s a).map (·.address)) fun s a t _ h => (step_cases h).2.allocations
    have : (log created tr).map (·.address) = List.range s.allocations := by
      simpa [log_map, initial] using addresses.symm
    rw [this]
    exact List.nodup_range

/-- Each issued index has one owner: the driver (queued or finished), the poll thread, an item in
`outputItemsQueue_`, or the item the output thread holds. So the driver owns no buffer of an
item that is still to be read or queued again; an item's memory is the mapping of its index,
and each item is queued again and deleted once. -/
theorem capture_buffer_ownership {cfg : Config} {E : State → Action → Prop}
    {tr : List (State × Action)} {s : State} (run : PipelineRun cfg E tr s) :
    Partitions [s.captureQueued, s.captureFinished.map (·.index), s.poll.item.map (·.index),
      s.outputItemsQueue.map (·.index), s.output.item.map (·.index)]
      (List.range (s.main.capturesIssued cfg)) ∧
    (1 < s.main.rank → s.main.capturesIssued cfg = cfg.captureCount) ∧
    (∀ item ∈ s.items, item.index ∉ s.captureQueued ∧
      item.index ∉ s.captureFinished.map (·.index)) ∧
    (∀ item ∈ s.output.spent ++ s.items, item.mem = cfg.mem item.index) ∧
    log created tr = log requeued tr ++ s.items ∧
    log created tr = log deleted tr ++ (s.output.spent ++ s.items) ∧
    ((log created tr).map (·.address)).Nodup := by
  have captures := run.captures
  have complete : 1 < s.main.rank → s.main.capturesIssued cfg = cfg.captureCount := by
    cases h : s.main <;> simp [MainPoint.capturesIssued, MainPoint.rank]
  refine ⟨captures.owners, complete, fun item member => ?_, captures.mem, run.items⟩
  have disjoint := (captures.owners.nodup List.nodup_range).2
  simp only [List.pairwise_cons, List.mem_cons, forall_eq_or_imp] at disjoint
  obtain ⟨queued, finished, -⟩ := disjoint
  have index := List.mem_map_of_mem (f := OutputItem.index) member
  simp only [State.items, List.map_append, List.mem_append] at index
  rcases index with held | queue | poll
  · exact ⟨fun h => queued.2.2.2.1 h held, fun h => finished.2.2.1 h held⟩
  · exact ⟨fun h => queued.2.2.1 h queue, fun h => finished.2.1 h queue⟩
  · exact ⟨fun h => queued.2.1 h poll, fun h => finished.1 h poll⟩

/-- One frame has gone through the pipeline, and `OutputDone` is about to queue its buffer. -/
theorem capture_buffer_ownership_before_requeue :
    ∃ (s : State) (item : OutputItem), s.output = .outputDone item ∧
      item.index ∉ s.captureQueued ∧ item.mem = 524288 * (item.index + 1) := by
  obtain ⟨tr, s, run, point⟩ := exists_pipelineRun (.sample 1 1 2) (fun _ a => a.fails = false)
    (startUp (.sample 1 1 2) ++ capture 0 ++ encodeRound ++ [.driver (.encode 4096 true)] ++
      pollRound ++ List.replicate 3 (.output {}))
    (fun s => s.output = .outputDone ⟨0, 524288, 4096, 524288, 0, true, 0, ⟨0, 0⟩⟩)
    (by decide +kernel)
  have member : ⟨0, 524288, 4096, 524288, 0, true, 0, ⟨0, 0⟩⟩ ∈ s.items := by
    simp [State.items, point, OutputPoint.item]
  have owned := capture_buffer_ownership run
  exact ⟨s, _, point, (owned.2.2.1 _ member).1,
    owned.2.2.2.1 _ (List.mem_append_right _ member)⟩

/-! ## The table of mappings -/

/-- With no more buffers than `buffers_` has entries, every access to it is to an entry that
the constructor has filled in. -/
theorem Transition.table_safe {cfg : Config} {s t : State} {a : Action}
    (h : Transition cfg s a t) (captures : Captures cfg s) (alive : s.fault = none)
    (room : cfg.captureCount ≤ captureBuffersCount) :
    t.fault ≠ some .tableOverflow ∧ t.fault ≠ some .tableUnset := by
  cases h with
  | main h =>
    cases h
    case overflow i point more full => omega
    all_goals simp [alive]
  | poll ans h =>
    cases h
    case tableOverflow b rest point ok finished entry =>
      simp [captures.entry (b := b) (by simp [finished])] at entry
    case tableUnset b rest point ok finished entry =>
      simp [captures.entry (b := b) (by simp [finished])] at entry
    all_goals simp [alive]
  | processor ans h => cases h <;> simp [alive]
  | output ans h => cases h <;> simp [alive]
  | callback h | driver d h =>
    rw [h.frame]
    simp [alive]
  | complete | tick => simp [alive]

end LibcameraStreamer
