import LibcameraStreamer.Library.Cells
import LibcameraStreamer.Invariants.Order
import LibcameraStreamer.Invariants.Recycling

/-!
# What the shared buffers contain

No frame is copied on its way: the camera writes to a frame buffer that the encoder reads, and
the encoder to a CAPTURE buffer that `push_frame` reads. A buffer that has been handed to the
camera or to the driver may change at any time, so its contents are unknown until it is
completed or finished. What is read from a buffer afterwards is what was written for the frame.
-/
namespace LibcameraStreamer
open Library

/-- The encoded frame in a CAPTURE buffer. -/
structure Bitstream where
  index : Nat
  bytesUsed : Nat
  length : Nat
  keyframe : Bool
  timestampUs : Int
  frame : Frame
  deriving DecidableEq, Repr

def CaptureBuffer.bitstream (b : CaptureBuffer) : Bitstream where
  index := b.index
  bytesUsed := b.bytesUsed
  length := b.length
  keyframe := b.keyframe
  timestampUs := b.timestamp.toMicros
  frame := b.frame

def OutputItem.bitstream (item : OutputItem) : Bitstream where
  index := item.index
  bytesUsed := item.bytesUsed
  length := item.length
  keyframe := item.keyframe
  timestampUs := item.timestampUs
  frame := item.frame

@[simp] theorem CaptureBuffer.bitstream_index (b : CaptureBuffer) :
    b.bitstream.index = b.index := rfl

@[simp] theorem OutputItem.bitstream_index (item : OutputItem) :
    item.bitstream.index = item.index := rfl

/-- The encoded frames that are not sent yet, the oldest first. -/
def State.bitstreams (s : State) : List Bitstream :=
  s.unsent.map (·.bitstream) ++ s.captureFinished.map (·.bitstream)

/-- The encoded frame that the driver writes in the step. -/
def produced (cfg : Config) (s : State) : Action → Option Bitstream
  | .driver (.produceCapture i j bytesUsed keyframe) =>
    match s.coding[i]?, s.captureQueued[j]? with
    | some c, some index =>
      some ⟨index, bytesUsed, cfg.length index, keyframe, c.timestamp.toMicros, c.frame⟩
    | _, _ => none
  | .driver (.encode bytesUsed keyframe) =>
    match s.coding, s.captureQueued with
    | c :: _, index :: _ =>
      some ⟨index, bytesUsed, cfg.length index, keyframe, c.timestamp.toMicros, c.frame⟩
    | _, _ => none
  | _ => none

/-- What happens to a frame buffer, by its file descriptor: `queueRequest` gives it to the
camera, which has filled it when `requestComplete` enters the frame. -/
def pictureWrite (cfg : Config) (s : State) : Action → Write Int Frame
  | .main =>
    match s.main with
    | .startCamera (r :: _) => some (cfg.fd r, none)
    | _ => none
  | .callback =>
    match s.callback with
    | .requestComplete r .requestComplete => some (cfg.fd r, some ⟨r, s.completions⟩)
    | _ => none
  | .poll _ =>
    match s.poll with
    | .queueRequest r => some (cfg.fd r, none)
    | _ => none
  | _ => none

/-- What happens to a CAPTURE buffer, by the address of its mapping: `VIDIOC_QBUF` gives it to
the driver, which writes an encoded frame to it. -/
def bitstreamWrite (cfg : Config) (s : State) : Action → Write Nat Bitstream
  | .main =>
    match s.main with
    | .queueCapture i => some (cfg.mem i, none)
    | _ => none
  | .output _ =>
    match s.output with
    | .outputDone item => some (cfg.mem item.index, none)
    | _ => none
  | .driver d => (produced cfg s (.driver d)).map fun x => (cfg.mem x.index, some x)
  | _ => none

/-- What the frame buffers show after a run, and what the CAPTURE buffers contain. -/
def pictures (cfg : Config) (tr : List (State × Action)) : Int → Option Frame :=
  memory (pictureWrite cfg) tr

def bitstreams (cfg : Config) (tr : List (State × Action)) : Nat → Option Bitstream :=
  memory (bitstreamWrite cfg) tr

variable {cfg : Config} {E : State → Action → Prop} {tr : List (State × Action)} {s t : State}

/-! ## Frame buffers -/

theorem ProcessorStep.encoding_subset {ans : Answers} (h : ProcessorStep cfg ans s t) :
    t.encoding ⊆ s.encoding := by
  intro f member
  cases h <;> grind [State.encoding, ProcessorPoint.frame]

theorem PollStep.encoding_subset {ans : Answers} (h : PollStep ans s t) :
    t.encoding ⊆ s.encoding := by
  intro f member
  cases h <;> grind [State.encoding, PollPoint.frame]

theorem DriverStep.encoding_subset {d : DriverAction} (h : DriverStep cfg s d t) :
    t.encoding ⊆ s.encoding := by
  intro f member
  cases h
  case finishOutput i b queued =>
    have taken := List.mem_of_getElem? queued
    grind [State.encoding, List.mem_of_mem_eraseIdx]
  all_goals grind [State.encoding]

/-- Only a completion adds a frame to those that are not encoded. -/
theorem Transition.encoding {a : Action} (h : Transition cfg s a t) (phase : Phase s) {f : Frame}
    (member : f ∈ t.encoding) : f ∈ s.encoding ∨ completed s a = some f := by
  cases h with
  | main h =>
    left
    cases h
    case startProcessor point =>
      have fresh := phase.processor_fresh point
      simpa [State.encoding, ProcessorPoint.frame, fresh] using member
    case startPoll point =>
      have fresh := phase.poll_fresh point
      simpa [State.encoding, PollPoint.frame, fresh] using member
    all_goals exact member
  | callback h =>
    cases h
    case enqueueCompleted r point =>
      simp only [State.encoding, List.mem_append, List.mem_singleton, @eq_comm _ f] at member
      simp only [State.encoding, List.mem_append, completed, point, Option.some.injEq]
      tauto
    all_goals exact .inl member
  | processor ans h => exact .inl (h.encoding_subset member)
  | poll ans h => exact .inl (h.encoding_subset member)
  | driver d h => exact .inl (h.encoding_subset member)
  | output ans h => rw [h.frame] at member; exact .inl member
  | complete | tick => exact .inl member

/-- A frame buffer that is written is with the camera. -/
theorem pictureWrite_withCamera {a : Action} {fd : Int} {v : Option Frame}
    (h : pictureWrite cfg s a = some (fd, v)) : ∃ r ∈ s.withCamera cfg, fd = cfg.fd r := by
  revert h
  fun_cases pictureWrite cfg s a <;>
    grind [State.withCamera, MainPoint.unqueued, CallbackPoint.request, PollPoint.request]

theorem pictureWrite_completed {a : Action} {f : Frame} (h : completed s a = some f) :
    pictureWrite cfg s a = some (cfg.fd f.request, some f) := by
  cases a with
  | callback =>
    cases point : s.callback with
    | requestComplete r status =>
      cases status with
      | requestComplete =>
        obtain rfl : ⟨r, s.completions⟩ = f := by simpa [completed, point] using h
        simp [pictureWrite, point]
      | requestCancelled => simp [completed, point] at h
    | idle | enqueueReuse => simp [completed, point] at h
  | main | complete | processor | output | poll | driver | tick => simp [completed] at h

/-- A frame that is not encoded yet is in its frame buffer. -/
theorem PipelineRun.pictures_hold (run : PipelineRun cfg E tr s)
    (fifo : ∀ s a, E s a → a.overtakesOutput = false) :
    Backs (fun f => cfg.fd f.request) (pictures cfg tr) s.encoding := by
  refine run.reachable.memory _ State.encoding (pictureWrite cfg) rfl fun u a v ok h f member => ?_
  obtain ⟨⟨_, before⟩, _⟩ := ok
  have before : PipelineRun cfg E _ u := before
  rcases (step_cases h).2.encoding before.phase member with old | new
  · refine .inl ⟨old, fun fd contents write same => ?_⟩
    obtain ⟨r, camera, rfl⟩ := pictureWrite_withCamera write
    have written := before.withCamera_nodup.2 r camera
    have read := before.request_lt fifo old
    obtain rfl := cfg.fd_injective r written f.request read same
    exact (before.request_exclusive fifo camera).2 (List.mem_map_of_mem old)
  · exact .inr (pictureWrite_completed new)

/-! ## CAPTURE buffers -/

theorem MainStep.bitstreams (h : MainStep cfg s t) (phase : Phase s) :
    t.bitstreams = s.bitstreams := by
  cases h
  case startOutput point =>
    simp [State.bitstreams, State.unsent, OutputPoint.unsent, phase.output_fresh point]
  case startPoll point =>
    simp [State.bitstreams, State.unsent, PollPoint.item, phase.poll_fresh point]
  all_goals rfl

theorem OutputStep.bitstreams {ans : Answers} (h : OutputStep ans s t) :
    s.bitstreams = ((pushed s (.output ans)).map (·.bitstream)).toList ++ t.bitstreams := by
  cases h <;> simp [State.bitstreams, State.unsent, pushed, OutputPoint.unsent, *]

theorem PollStep.bitstreams {ans : Answers} (h : PollStep ans s t) :
    t.bitstreams = s.bitstreams := by
  cases h <;> simp [State.bitstreams, State.unsent, PollPoint.item, newOutputItem,
    OutputItem.bitstream, CaptureBuffer.bitstream, *]

theorem DriverStep.bitstreams {d : DriverAction} (h : DriverStep cfg s d t) :
    t.bitstreams = s.bitstreams ++ (produced cfg s (.driver d)).toList := by
  cases h <;>
    simp [State.bitstreams, State.unsent, produced, CaptureBuffer.bitstream, *]

/-- The encoded frames are a queue from the driver to `push_frame`. -/
theorem Transition.bitstreams {a : Action} (h : Transition cfg s a t) (phase : Phase s) :
    LossyStep s.bitstreams ((pushed s a).map (·.bitstream)) none (produced cfg s a)
      t.bitstreams := by
  cases h with
  | main h => exact .idle (h.bitstreams phase)
  | callback h | processor ans h => rw [h.frame]; exact .idle rfl
  | output ans h => exact .leaves h.bitstreams
  | poll ans h => exact .idle h.bitstreams
  | driver d h => exact .enters h.bitstreams
  | complete | tick => exact .idle rfl

theorem produced_index {a : Action} {x : Bitstream} (h : produced cfg s a = some x) :
    x.index ∈ s.captureQueued := by
  revert h
  fun_cases produced cfg s a <;> grind

theorem OutputPoint.mem_unsent {o : OutputPoint} {item : OutputItem} :
    item ∈ o.unsent ↔ o = .pushFrame item := by
  cases o <;> simp [OutputPoint.unsent, eq_comm]

/-- The indices of the encoded frames are those of buffers that the driver and `OutputDone` do
not have. -/
theorem Captures.index (inv : Captures cfg s) {x : Bitstream} (h : x ∈ s.bitstreams) :
    x.index < s.main.capturesIssued cfg ∧ x.index ∉ s.captureQueued ∧
      ∀ item, s.output = .outputDone item → x.index ≠ item.index := by
  have disjoint := (inv.owners.nodup List.nodup_range).2
  simp only [List.pairwise_cons, List.mem_cons, forall_eq_or_imp] at disjoint
  obtain ⟨queued, finished, polled, items, -⟩ := disjoint
  have issued := fun part member (own : x.index ∈ part) =>
    List.mem_range.mp ((inv.owners.mem_iff x.index).mpr ⟨part, member, own⟩)
  have done : ∀ item, s.output = .outputDone item →
      item.index ∈ s.output.item.map (·.index) := fun item point => by
    simp [point, OutputPoint.item]
  have index := List.mem_map_of_mem (f := Bitstream.index) h
  simp only [State.bitstreams, State.unsent, List.map_append, List.map_map, List.mem_append,
    Function.comp_def, OutputItem.bitstream_index, CaptureBuffer.bitstream_index] at index
  -- The frame is being sent, in `outputItemsQueue_`, with the poll thread or in the driver.
  rcases index with (sending | queue | poll) | driver
  · obtain ⟨item, member, same⟩ := List.mem_map.mp sending
    have point := OutputPoint.mem_unsent.mp member
    have held : x.index ∈ s.output.item.map (·.index) := by
      rw [← same, point]
      exact List.mem_singleton_self _
    refine ⟨issued _ (by simp) held, fun h => queued.2.2.2.1 h held, fun other later => ?_⟩
    cases point.symm.trans later
  · refine ⟨issued _ (by simp) queue, fun h => queued.2.2.1 h queue, fun item point same => ?_⟩
    exact items.1 queue (same ▸ done item point)
  · refine ⟨issued _ (by simp) poll, fun h => queued.2.1 h poll, fun item point same => ?_⟩
    exact polled.2.1 poll (same ▸ done item point)
  · refine ⟨issued _ (by simp) driver, fun h => queued.1 h driver, fun item point same => ?_⟩
    exact finished.2.2.1 driver (same ▸ done item point)

/-- A CAPTURE buffer that is written holds none of the encoded frames. -/
theorem Captures.written (inv : Captures cfg s) {a : Action} {address : Nat}
    {v : Option Bitstream} (write : bitstreamWrite cfg s a = some (address, v)) :
    ∃ i < cfg.captureCount, address = cfg.mem i ∧ ∀ x ∈ s.bitstreams, x.index ≠ i := by
  have issued := inv.capturesIssued_le
  have owned := inv.owners.mem_iff
  simp only [List.mem_range, List.mem_cons, List.not_mem_nil, or_false, exists_eq_or_imp,
    List.mem_map, ↓existsAndEq, true_and] at owned
  revert write
  fun_cases bitstreamWrite cfg s a
  case case1 i point =>
    rintro ⟨⟩
    refine ⟨i, inv.mapping i point, rfl, fun x member => ?_⟩
    have := (inv.index member).1
    simp only [point, MainPoint.capturesIssued] at this
    omega
  case case3 ans item point =>
    rintro ⟨⟩
    have held := (owned item.index).mpr (by simp [point, OutputPoint.item])
    exact ⟨item.index, by omega, rfl, fun x member => (inv.index member).2.2 item point⟩
  case case5 d =>
    intro write
    obtain ⟨y, written, ⟨⟩⟩ := Option.map_eq_some_iff.mp write
    have free := produced_index written
    have queued := (owned y.index).mpr (.inl free)
    refine ⟨y.index, by omega, rfl, fun x member same => ?_⟩
    exact (inv.index member).2.1 (same ▸ free)
  all_goals simp

theorem bitstreamWrite_produced {a : Action} {x : Bitstream} (h : produced cfg s a = some x) :
    bitstreamWrite cfg s a = some (cfg.mem x.index, some x) := by
  cases a with
  | driver d => simp [bitstreamWrite, h]
  | main | complete | callback | processor | output | poll | tick => simp [produced] at h

/-- An encoded frame is in its CAPTURE buffer until `push_frame` has returned. -/
theorem PipelineRun.bitstreams_hold (run : PipelineRun cfg E tr s)
    (distinct : ∀ i < cfg.captureCount, ∀ j < cfg.captureCount, cfg.mem i = cfg.mem j → i = j) :
    Backs (fun x => cfg.mem x.index) (bitstreams cfg tr) s.bitstreams := by
  refine run.reachable.memory _ State.bitstreams (bitstreamWrite cfg) rfl
    fun u a v ok h x member => ?_
  obtain ⟨⟨_, before⟩, _⟩ := ok
  have before : PipelineRun cfg E _ u := before
  have captures := before.captures
  obtain ⟨front, back, old, new⟩ := (step_cases h).2.bitstreams before.phase
  rw [new, ← List.append_assoc, List.mem_append] at member
  rcases member with kept | entered
  · have member : x ∈ u.bitstreams := by
      rw [old]
      simp only [List.mem_append, Option.toList_none, List.not_mem_nil, false_or] at kept ⊢
      exact .inr kept
    refine .inl ⟨member, fun address contents write same => ?_⟩
    obtain ⟨i, bound, rfl, apart⟩ := captures.written write
    have issued := (captures.index member).1.trans_le captures.capturesIssued_le
    exact apart x member (distinct i bound x.index issued same).symm
  · exact .inr (bitstreamWrite_produced (Option.mem_toList.mp entered))

/-- With a driver that keeps the order of the OUTPUT buffers, and with every CAPTURE buffer mapped
at an address of its own: each frame buffer that the driver may read shows the frame it was
queued for, `push_frame` finds at its address the encoded frame that the item describes, and
the encoded frames are sent in the order in which they were written, none lost, changed or sent
twice. -/
theorem buffers_intact (run : PipelineRun cfg E tr s)
    (fifo : ∀ s a, E s a → a.overtakesOutput = false)
    (distinct : ∀ i < cfg.captureCount, ∀ j < cfg.captureCount, cfg.mem i = cfg.mem j → i = j) :
    (∀ b ∈ s.outputQueued, pictures cfg tr b.fd = some b.frame) ∧
    (∀ item, s.output = .pushFrame item → bitstreams cfg tr item.mem = some item.bitstream) ∧
    log (produced cfg) tr = (log pushed tr).map (·.bitstream) ++ s.bitstreams := by
  refine ⟨fun b queued => ?_, fun item point => ?_, ?_⟩
  · rw [run.frameBuffers.held b (by simp [queued])]
    exact run.pictures_hold fifo b.frame (by
      simp only [State.encoding, List.mem_append]
      exact .inr (.inr (.inl (List.mem_map_of_mem queued))))
  · have address := run.captures.mem item (by simp [State.items, point, OutputPoint.item])
    rw [address]
    exact run.bitstreams_hold distinct item.bitstream (by
      simp [State.bitstreams, State.unsent, point, OutputPoint.unsent])
  · have queue := run.withPhase.fifo State.bitstreams (fun s a => (pushed s a).map (·.bitstream))
      (produced cfg) rfl fun s a t ok h => (step_cases h).2.bitstreams ok.1
    rwa [log_map] at queue

/-- While the first of two frames is passed to `push_frame`, the driver has the second. -/
theorem buffers_intact_of_two :
    ∃ tr s, PipelineRun (.sample 2 2 2) (fun _ a => a.overtakesOutput = false) tr s ∧
      (∃ b, s.outputQueued = [b] ∧ b.fd = 21 ∧
        pictures (.sample 2 2 2) tr b.fd = some ⟨1, 1⟩) ∧
      (∃ item, s.output = .pushFrame item ∧ item.mem = 524288 ∧
        bitstreams (.sample 2 2 2) tr item.mem = some item.bitstream) ∧
      log (produced (.sample 2 2 2)) tr = (log pushed tr).map (·.bitstream) ++ s.bitstreams := by
  obtain ⟨tr, s, run, queued, point⟩ := exists_pipelineRun (.sample 2 2 2)
    (fun _ a => a.overtakesOutput = false)
    (startUp (.sample 2 2 2) ++ capture 0 ++ encodeRound ++ [.driver (.encode 4096 true)] ++
      pollRound ++ capture 1 ++ encodeRound ++ List.replicate 2 (.output {}))
    (fun s => s.outputQueued = [⟨1, 21, 1382400, ⟨0, 0⟩, ⟨1, 1⟩⟩] ∧
      s.output = .pushFrame ⟨0, 524288, 4096, 524288, 0, true, 0, ⟨0, 0⟩⟩) (by decide +kernel)
  obtain ⟨shown, sent, queue⟩ := buffers_intact run (fun _ _ ok => ok)
    (by simp only [Config.sample]; omega)
  exact ⟨tr, s, run, ⟨_, queued, rfl, shown _ (by simp [queued])⟩, ⟨_, point, rfl, sent _ point⟩,
    queue⟩

end LibcameraStreamer
