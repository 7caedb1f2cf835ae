import LibcameraStreamer.Invariants.InputSlots
import LibcameraStreamer.Invariants.Requests

/-!
# Recycling requests: exclusive buffers, bounded skips, stranded requests

`ReuseRequest` hands back whatever is first in `requestsToReuseQueue_`. That its frame buffer
is not in use, how often a frame can be skipped, and what a skipped frame costs follow from
the recycler's invariants and the conservation of the input slots.
-/
namespace LibcameraStreamer
open Library

section Requests

variable {cfg : Config} {E : State → Action → Prop} {tr : List (State × Action)} {s : State}

theorem recyclerOp_abandons (s : State) (a : Action) :
    (recyclerOp s a).any Recycler.Op.abandons = skips s a := by
  fun_cases recyclerOp s a
  case case4 ans => simp only [skips]; cases skipped s (.processor ans) <;> rfl
  all_goals simp_all [skips, skipped, Recycler.Op.abandons]

theorem recyclerOp_reorders (s : State) (a : Action) :
    (recyclerOp s a).any Recycler.Op.reorders = a.overtakesOutput := by
  fun_cases recyclerOp s a
  case case4 ans => cases skipped s (.processor ans) <;> rfl
  all_goals simp_all [Action.overtakesOutput, Recycler.Op.reorders]

/-- Each skipped frame leaves one request too many in `requestsToReuseQueue_`. -/
theorem PipelineRun.length_owed (run : PipelineRun cfg E tr s) :
    (recycler cfg s).owed.length = s.encoding.length + count skips tr := by
  have := run.recycles.length_owed rfl
  rw [count_image] at this
  simpa [recyclerOp_abandons, recycler] using this

/-- The frame whose encode is finished is owed a request, which is in the queue or about to be
enqueued by the camera's thread. -/
theorem PipelineRun.owed_of_reuseRequest (run : PipelineRun cfg E tr s) {f : Frame}
    (point : s.poll = .reuseRequest f) :
    s.requestsToReuseQueue ≠ [] ∨ ∃ r, s.callback = .enqueueReuse r := by
  by_contra! waits
  have owed := run.length_owed
  have callback : s.callback.owed = [] := by
    cases point : s.callback <;> simp_all [CallbackPoint.owed]
  simp [recycler, waits.1, callback, State.encoding, point, PollPoint.frame] at owed
  omega

theorem PipelineRun.requests_le (run : PipelineRun cfg E tr s) :
    (s.withCamera cfg).length + (recycler cfg s).owed.length ≤ cfg.requests := by
  have := Multiset.card_le_card run.recycles.conserved
  simpa [recycler] using this

theorem order_of_fifo (fifo : ∀ s a, E s a → a.overtakesOutput = false) :
    ∀ o, Allows E o → o.reorders = false := by
  rintro o ⟨s, a, allowed, op⟩
  rw [← fifo s a allowed, ← recyclerOp_reorders, op, Option.any_some]

/-- With a driver that keeps the order of the OUTPUT buffers, a request with the camera is
neither owed nor in the line. -/
theorem PipelineRun.request_exclusive (run : PipelineRun cfg E tr s)
    (fifo : ∀ s a, E s a → a.overtakesOutput = false) {r : Nat} (h : r ∈ s.withCamera cfg) :
    r ∉ (recycler cfg s).owed ∧ r ∉ s.encoding.map (·.request) :=
  run.recycles.exclusive (order_of_fifo fifo) List.Sublist.slnil
    (by simpa using Multiset.nodup_range cfg.requests) h

/-- The requests in the line are requests of the camera. -/
theorem PipelineRun.request_lt (run : PipelineRun cfg E tr s)
    (fifo : ∀ s a, E s a → a.overtakesOutput = false) {f : Frame} (h : f ∈ s.encoding) :
    f.request < cfg.requests := by
  have owed := (run.recycles.sublist (order_of_fifo fifo) List.Sublist.slnil).subset
    (List.mem_map_of_mem h)
  have le := (Multiset.le_add_left _ _).trans run.recycles.conserved
  simpa using Multiset.mem_of_le le (Multiset.mem_coe.mpr owed)

/-! ## Exclusive frame buffers -/

/-- Every OUTPUT buffer carries the frame buffer of its frame's request. -/
structure FrameBuffers (cfg : Config) (s : State) : Prop where
  encodeBuffer : ∀ f fd size ts, s.processor = .encodeBuffer f fd size ts → fd = cfg.fd f.request
  queueOutput : ∀ index f fd size ts, s.processor = .queueOutput index f fd size ts →
    fd = cfg.fd f.request
  held : ∀ b ∈ s.outputQueued ++ s.outputFinished, b.fd = cfg.fd b.frame.request

theorem frameBuffers_initial (cfg : Config) : FrameBuffers cfg (initial cfg) := by
  constructor <;> simp [initial]

theorem ProcessorStep.frameBuffers {ans : Answers} {s t : State}
    (h : ProcessorStep cfg ans s t) (inv : FrameBuffers cfg s) : FrameBuffers cfg t := by
  obtain ⟨encodeBuffer, queueOutput, held⟩ := inv
  cases h
  case lookup f point => exact ⟨by rintro _ _ _ _ ⟨⟩; rfl, by simp, held⟩
  case takeIndex f fd size ts index rest point queue =>
    exact ⟨by simp, by rintro _ _ _ _ _ ⟨⟩; exact encodeBuffer _ _ _ _ point, held⟩
  case queueOutput index f fd size ts point ok =>
    refine ⟨by simp, by simp, fun b member => ?_⟩
    simp only [List.mem_append, List.mem_singleton] at member
    rcases member with (queued | rfl) | finished
    · exact held b (by simp [queued])
    · exact queueOutput _ _ _ _ _ point
    · exact held b (by simp [finished])
  case terminate index f point => exact ⟨encodeBuffer, queueOutput, held⟩
  all_goals exact ⟨by simp, by simp, held⟩

theorem DriverStep.frameBuffers {s t : State} {d : DriverAction} (h : DriverStep cfg s d t)
    (inv : FrameBuffers cfg s) : FrameBuffers cfg t := by
  obtain ⟨encodeBuffer, queueOutput, held⟩ := inv
  cases h
  case finishOutput i b queued =>
    refine ⟨encodeBuffer, queueOutput, fun c member => held c ?_⟩
    simp only [List.mem_append, List.mem_singleton] at member ⊢
    rcases member with rest | finished | rfl
    · exact .inl (List.mem_of_mem_eraseIdx rest)
    · exact .inr finished
    · exact .inl (List.mem_of_getElem? queued)
  case encode b outputs c coding index captures queued coded free =>
    refine ⟨encodeBuffer, queueOutput, fun c member => held c ?_⟩
    simp only [queued, List.mem_append, List.mem_cons, List.not_mem_nil, or_false] at member ⊢
    tauto
  all_goals exact ⟨encodeBuffer, queueOutput, held⟩

theorem Transition.frameBuffers {s t : State} {a : Action} (h : Transition cfg s a t)
    (inv : FrameBuffers cfg s) : FrameBuffers cfg t := by
  cases h with
  | main h =>
    obtain ⟨encodeBuffer, queueOutput, held⟩ := inv
    cases h
    case startProcessor => exact ⟨by simp, by simp, held⟩
    all_goals exact ⟨encodeBuffer, queueOutput, held⟩
  | processor ans h => exact h.frameBuffers inv
  | driver d h => exact h.frameBuffers inv
  | poll ans h =>
    obtain ⟨encodeBuffer, queueOutput, held⟩ := inv
    cases h
    case dequeueOutput b rest point ok finished =>
      exact ⟨encodeBuffer, queueOutput, fun c member => held c (by
        simp only [finished, List.mem_append, List.mem_cons] at member ⊢; tauto)⟩
    all_goals exact ⟨encodeBuffer, queueOutput, held⟩
  | callback h | output ans h => rw [h.frame]; exact { inv with }
  | complete | tick => exact { inv with }

theorem PipelineRun.frameBuffers (run : PipelineRun cfg E tr s) : FrameBuffers cfg s :=
  run.invariant (FrameBuffers cfg) (frameBuffers_initial cfg) fun _ _ _ inv _ h =>
    (step_cases h).2.frameBuffers inv

theorem PipelineRun.withCamera_nodup (run : PipelineRun cfg E tr s) :
    (s.withCamera cfg).Nodup ∧ ∀ r ∈ s.withCamera cfg, r < cfg.requests := by
  have le : (↑(s.withCamera cfg) : Multiset Nat) ≤ Multiset.range cfg.requests := by
    simpa [recycler] using (Multiset.le_add_right _ _).trans run.recycles.conserved
  exact ⟨Multiset.coe_nodup.mp (Multiset.nodup_of_le le (Multiset.nodup_range _)),
    fun r h => by simpa using Multiset.mem_of_le le (Multiset.mem_coe.mpr h)⟩

/-- With a driver that keeps the order of the OUTPUT buffers: a request that `ReuseRequest`
hands back is in no queue, `completedRequestsProcessor` does not work on it, and the driver
does not hold its frame buffer. -/
theorem frame_buffer_exclusivity (run : PipelineRun cfg E tr s)
    (fifo : ∀ s a, E s a → a.overtakesOutput = false) {r : Nat}
    (hands : s.poll = .queueRequest r) :
    (∀ b ∈ s.outputQueued ++ s.outputFinished, b.fd ≠ cfg.fd r) ∧
    (∀ f ∈ s.completedRequestsQueue, f.request ≠ r) ∧
    (∀ f ∈ s.processor.frame, f.request ≠ r) ∧
    r ∉ s.requestsToReuseQueue ∧ r ∉ s.queuedRequests := by
  have member : r ∈ s.withCamera cfg := by simp [State.withCamera, PollPoint.request, hands]
  obtain ⟨owed, pending⟩ := run.request_exclusive fifo member
  have outside : ∀ f ∈ s.encoding, f.request ≠ r := fun f hf hr =>
    pending (List.mem_map.mpr ⟨f, hf, hr⟩)
  have distinct := run.withCamera_nodup.1
  refine ⟨fun b held same => ?_, fun f hf => outside f ?_, fun f hf => outside f ?_, ?_, ?_⟩
  · have frame : b.frame ∈ s.encoding := by
      simp only [State.encoding, List.mem_append, List.mem_map]
      rcases List.mem_append.mp held with queued | finished
      · exact .inr (.inr (.inl ⟨b, queued, rfl⟩))
      · exact .inr (.inl ⟨b, finished, rfl⟩)
    rw [run.frameBuffers.held b held] at same
    exact outside _ frame (cfg.fd_injective _ (run.request_lt fifo frame) _
      (run.withCamera_nodup.2 r member) same)
  · simp [State.encoding, hf]
  · simp [State.encoding, hf]
  · exact fun h => owed (by simp [recycler, h])
  · simp only [State.withCamera, hands, PollPoint.request] at distinct
    intro h
    have := (List.nodup_append.mp (List.nodup_append.mp distinct).2.1).2.2 r h r (by simp)
    exact this rfl

/-- The second of two frames is skipped, the first is encoded, and its request goes back. -/
theorem frame_buffer_exclusivity_after_skip :
    ∃ s : State, s.poll = .queueRequest 0 ∧
      (∀ b ∈ s.outputQueued ++ s.outputFinished, b.fd ≠ 20) ∧ 0 ∉ s.requestsToReuseQueue := by
  obtain ⟨tr, s, run, hands⟩ := exists_pipelineRun (.sample 2 1 1)
    (fun _ a => a.overtakesOutput = false)
    (startUp (.sample 2 1 1) ++ capture 0 ++ encodeRound ++ capture 1 ++
      List.replicate 4 (.processor {}) ++ [.driver (.encode 4096 true)] ++
      List.replicate 5 (.poll {}))
    (fun s => s.poll = .queueRequest 0) (by decide +kernel)
  have exclusive := frame_buffer_exclusivity run (fun _ _ fifo => fifo) hands
  exact ⟨s, hands, exclusive.1, exclusive.2.2.2.1⟩

/-! ## The number of skipped frames -/

theorem skips_cases {a : Action} (skip : skips s a = true) :
    ∃ f fd size ts, s.processor = .encodeBuffer f fd size ts ∧ s.availableInputBuffers = [] := by
  revert skip
  unfold skips
  fun_cases skipped s a
  case case1 f fd size ts empty point => exact fun _ => ⟨f, fd, size, ts, point, empty⟩
  all_goals simp

/-- At a skip every input slot belongs to a frame in the line, and so does the skipped one. -/
theorem PipelineRun.full_of_skips (run : PipelineRun cfg E tr s) {a : Action}
    (skip : skips s a = true) : cfg.outputCount < s.encoding.length := by
  obtain ⟨f, fd, size, ts, point, empty⟩ := skips_cases skip
  have full := (run.inputSlots.full run.phase point empty).length_eq
  have slot : s.poll.slot.length ≤ s.poll.frame.length := by
    cases s.poll <;> simp [PollPoint.slot, PollPoint.frame]
  simp only [State.outputHeld, List.length_append, List.length_map, List.length_range] at full
  simp only [State.encoding, point, ProcessorPoint.frame, List.length_append, List.length_map,
    List.length_singleton]
  omega

/-- Each skip strands a request, and at a skip the line has more than `m` of the others. -/
theorem PipelineRun.count_skips_le (run : PipelineRun cfg E tr s) :
    count skips tr ≤ cfg.requests - cfg.outputCount := by
  refine run.count_le skips _ fun t a u tr before _ skip => ?_
  have owed := PipelineRun.length_owed before
  have total := PipelineRun.requests_le before
  have full := PipelineRun.full_of_skips before skip
  omega

/-- `EncodeBuffer` skips at most `n - m` frames in a whole run, so none when there are no more
requests than input slots. -/
theorem skipped_frames_le (run : PipelineRun cfg E tr s) :
    count skips tr ≤ cfg.requests - cfg.outputCount ∧
      (cfg.requests ≤ cfg.outputCount → ∀ x ∈ tr, skips x.1 x.2 = false) := by
  have bound := run.count_skips_le
  exact ⟨bound, fun few => (count_eq_zero skips tr).mp (by omega)⟩

/-- The bound is reached: of two frames one is skipped when there is one input slot. -/
theorem skipped_frames_le_reached :
    ∃ tr s, PipelineRun (.sample 2 1 1) (fun _ a => a.fails = false) tr s ∧
      count skips tr = 1 ∧ count skips tr ≤ 2 - 1 := by
  obtain ⟨tr, s, run, h⟩ := exists_pipelineRun (.sample 2 1 1) (fun _ a => a.fails = false)
    (startUp (.sample 2 1 1) ++ capture 0 ++ encodeRound ++ capture 1 ++
      List.replicate 4 (.processor {}))
    (fun s => s.encoding.length = 1 ∧ (recycler (.sample 2 1 1) s).owed.length = 2)
    (by decide +kernel)
  have owed := run.length_owed
  exact ⟨tr, s, run, by omega, (skipped_frames_le run).1⟩

/-! ## What a skipped frame costs -/

/-- No thread is in the middle of an operation, and no completed frame is left anywhere
before the end of its encode. -/
@[mk_iff]
structure Quiescent (s : State) : Prop where
  main : s.main = .running
  callback : s.callback = .idle
  processor : s.processor = .loopTest ∨ s.processor = .waitForCompletedRequest
  output : s.output = .loopTest ∨ s.output = .waitForNextOutputItem
  poll : s.poll = .loopTest ∨ s.poll = .poll
  completed : s.completedRequestsQueue = []
  outputs : s.outputQueued = [] ∧ s.outputFinished = []

instance : DecidablePred Quiescent := fun s => decidable_of_iff _ (quiescent_iff s).symm

theorem Quiescent.encoding (quiet : Quiescent s) : s.encoding = [] := by
  obtain ⟨-, -, processor, -, poll, completed, queued, finished⟩ := quiet
  rcases processor with processor | processor <;> rcases poll with poll | poll <;>
    simp [State.encoding, ProcessorPoint.frame, PollPoint.frame, *]

theorem Quiescent.withCamera (quiet : Quiescent s) : s.withCamera cfg = s.queuedRequests := by
  rcases quiet.poll with poll | poll <;>
    simp [State.withCamera, MainPoint.unqueued, CallbackPoint.request, PollPoint.request, poll,
      quiet.main, quiet.callback]

theorem Quiescent.owed (quiet : Quiescent s) :
    (recycler cfg s).owed = s.requestsToReuseQueue := by
  simp [recycler, CallbackPoint.owed, quiet.callback]

def Uncancelled (s : State) : Prop := ∀ r, s.callback ≠ .requestComplete r .requestCancelled

theorem Transition.uncancelled {s t : State} {a : Action} (h : Transition cfg s a t)
    (kept : a.cancels = false) (inv : Uncancelled s) : Uncancelled t := by
  cases h with
  | complete r status idle queued allowed =>
    rintro q ⟨⟩
    simp [Action.cancels] at kept
  | callback h => cases h <;> simp [Uncancelled]
  | main h | processor ans h | output ans h | poll ans h | driver d h =>
    rw [h.frame]
    exact inv
  | tick => exact inv

/-- Without cancelled and refused requests every request is with the camera or owed. -/
theorem PipelineRun.requests_eq (run : PipelineRun cfg E tr s)
    (clean : ∀ s a, E s a → a.cancels = false ∧ a.fails = false) :
    ↑(s.withCamera cfg) + ↑(recycler cfg s).owed = Multiset.range cfg.requests := by
  have steps := run.strengthen Uncancelled (by simp [Uncancelled, initial]) fun s a t inv ok h =>
    (step_cases h).2.uncancelled (clean s a ok).1 inv
  refine ((PipelineRun.recycles steps).conserved_eq ?_).trans (add_zero _)
  rintro o ⟨s, a, ⟨uncancelled, ok⟩, op⟩
  have fails := (clean s a ok).2
  revert op
  fun_cases recyclerOp s a
  case case2 r point => exact absurd point (uncancelled r)
  case case6 refused => simp [Action.fails, Answers.fails, refused.2] at fails
  case' case4 ans => cases skipped s (.processor ans)
  all_goals
    intro op
    cases op <;> rfl

/-- In a quiescent state all requests are queued at the camera and none is stranded, if and
only if no frame has been skipped in the whole run. -/
theorem requests_recovered_iff (run : PipelineRun cfg E tr s)
    (clean : ∀ s a, E s a → a.cancels = false ∧ a.fails = false) (quiet : Quiescent s) :
    (s.queuedRequests.Perm (List.range cfg.requests) ∧ s.requestsToReuseQueue = []) ↔
      ∀ x ∈ tr, skips x.1 x.2 = false := by
  have stranded := run.length_owed
  have total := run.requests_eq clean
  rw [quiet.owed, quiet.encoding, List.length_nil, Nat.zero_add] at stranded
  rw [quiet.owed, quiet.withCamera] at total
  rw [← count_eq_zero, ← stranded, List.length_eq_zero_iff]
  refine ⟨And.right, fun empty => ⟨?_, empty⟩⟩
  rw [empty, Multiset.coe_nil, add_zero] at total
  exact Multiset.coe_eq_coe.mp total

/-- Two requests and one input slot: the second frame is skipped, the first is encoded and
sent, and in the quiescent state that follows the second request stays behind. -/
theorem requests_not_recovered :
    ∃ tr s, PipelineRun (.sample 2 1 1) (fun _ a => a.cancels = false ∧ a.fails = false) tr s ∧
      Quiescent s ∧ s.queuedRequests = [0] ∧ s.requestsToReuseQueue = [1] :=
  exists_pipelineRun (.sample 2 1 1) (fun _ a => a.cancels = false ∧ a.fails = false)
    (startUp (.sample 2 1 1) ++ capture 0 ++ encodeRound ++ capture 1 ++
      List.replicate 4 (.processor {}) ++ [.driver (.encode 4096 true)] ++ pollRound ++ outputRound)
    (fun s => Quiescent s ∧ s.queuedRequests = [0] ∧ s.requestsToReuseQueue = [1])
    (by decide +kernel)

/-- Two requests and two input slots: no frame is skipped, and both requests come back. -/
theorem requests_recovered_iff_without_skip :
    ∃ tr s, PipelineRun (.sample 2 2 2) (fun _ a => a.cancels = false ∧ a.fails = false) tr s ∧
      ∀ x ∈ tr, skips x.1 x.2 = false := by
  obtain ⟨tr, s, run, quiet, camera, stranded⟩ := exists_pipelineRun (.sample 2 2 2)
    (fun _ a => a.cancels = false ∧ a.fails = false)
    (startUp (.sample 2 2 2) ++ capture 0 ++ encodeRound ++ capture 1 ++ encodeRound ++
      [.driver (.encode 4096 true), .driver (.encode 4096 false)] ++ pollRound ++ pollRound ++
      outputRound ++ outputRound)
    (fun s => Quiescent s ∧ s.queuedRequests = [0, 1] ∧ s.requestsToReuseQueue = [])
    (by decide +kernel)
  refine ⟨tr, s, run, (requests_recovered_iff run (fun _ _ ok => ok) quiet).mp ⟨?_, stranded⟩⟩
  rw [camera]
  exact List.Perm.refl _

end Requests

end LibcameraStreamer
