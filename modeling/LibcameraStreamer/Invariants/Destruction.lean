import LibcameraStreamer.Invariants.CaptureTable
import LibcameraStreamer.Model.Construction

/-!
# What the destructor releases

The destructor stops the camera manager, joins the threads and destroys the stream and the
session. Nothing releases the camera, the allocator, the mappings and the encoder's descriptor.
-/
namespace LibcameraStreamer
open Library

/-- The resource that the step gains after the constructor. -/
def gained (s : State) (a : Action) : Option Resource :=
  (created s a).map fun item => .item item.address

def released (s : State) : Action → Option Resource
  | .main =>
    match s.main with
    | .stopManager => some .manager
    | .joinProcessor => some (.thread .processor)
    | .joinOutput => some (.thread .output)
    | .joinPoll => some (.thread .poll)
    | .destroyStream => some .stream
    | .destroySession => some .session
    | _ => none
  | .output ans => (deleted s (.output ans)).map fun item => .item item.address
  | _ => none

/-- What is held after a run, when the constructor has returned with `held`. -/
def heldAfter (held : Finset Resource) (tr : List (State × Action)) : Finset Resource :=
  fold (fun s a held => (held ∪ (gained s a).toFinset) \ (released s a).toFinset) held tr

/-- The rank of the main thread's last statement before the resource is released. -/
def Resource.lastRank : Resource → Nat
  | .manager => 10
  | .thread .processor => 11
  | .thread .output => 12
  | .thread .poll => 14
  | .stream => 15
  | .session => 16
  | _ => 17

def Resource.isItem : Resource → Bool
  | .item _ => true
  | _ => false

/-- What is held in a state of the run: by the main thread's rank, and one item for each that is
created and not deleted. -/
structure Holds (start : Finset Resource) (s : State) (held : Finset Resource) : Prop where
  other : ∀ x, x.isItem = false → (x ∈ held ↔ x ∈ start ∧ s.main.rank ≤ x.lastRank)
  item : ∀ address, .item address ∈ held ↔
    address ∈ (s.output.spent ++ s.items).map (·.address)

section Steps

variable {cfg : Config} {s t : State} {a : Action} {start held : Finset Resource}

theorem MainStep.released_iff (h : MainStep cfg s t) {x : Resource} (other : x.isItem = false) :
    t.main.rank ≤ x.lastRank ↔ s.main.rank ≤ x.lastRank ∧ released s .main ≠ some x := by
  cases h <;> rcases x with _ | _ | _ | _ | _ | _ | _ | _ | (_ | _ | _) | _ | _ <;>
    simp_all [MainPoint.rank, Resource.lastRank, released, Resource.isItem]

theorem released_other (thread : a ≠ .main) {x : Resource} (other : x.isItem = false) :
    released s a ≠ some x := by
  cases a with
  | main => contradiction
  | output ans =>
    rw [released, ne_eq, Option.map_eq_some_iff]
    rintro ⟨item, -, rfl⟩
    contradiction
  | _ => simp [released]

theorem released_item (s : State) (a : Action) (address : Nat) :
    released s a = some (.item address) ↔ (deleted s a).map (·.address) = some address := by
  cases a with
  | main => cases point : s.main <;> simp [released, deleted, point]
  | output ans => simp [released]
  | _ => simp [released, deleted]

theorem mem_holds {x : Resource} :
    x ∈ (held ∪ (gained s a).toFinset) \ (released s a).toFinset ↔
      (x ∈ held ∨ gained s a = some x) ∧ released s a ≠ some x := by
  simp

/-- A step that creates an item deletes none. -/
theorem created_of_deleted {item : OutputItem} (h : deleted s a = some item) :
    created s a = none := by
  cases a <;> simp_all [deleted, created]

theorem Transition.holds (h : Transition cfg s a t) (phase : Phase s)
    (distinct : ((s.output.spent ++ s.items).map (·.address)).Nodup)
    (inv : Holds start s held) :
    Holds start t ((held ∪ (gained s a).toFinset) \ (released s a).toFinset) where
  other x other := by
    have stays : gained s a ≠ some x := by
      rw [gained, ne_eq, Option.map_eq_some_iff]
      rintro ⟨item, -, rfl⟩
      contradiction
    rw [mem_holds, inv.other x other, or_iff_left stays, and_assoc]
    refine and_congr_right fun _ => ?_
    by_cases main : a = .main
    · subst main
      cases h with | main h => exact (h.released_iff other).symm
    · have same : t.main = s.main := by
        cases h with
        | main h => contradiction
        | callback h | processor ans h | output ans h | poll ans h | driver d h => rw [h.frame]
        | complete | tick => rfl
      rw [same, and_iff_left (released_other main other)]
  item address := by
    obtain ⟨front, back, before, after⟩ := (h.items phase).2
    rw [mem_holds, inv.item, ne_eq, released_item, after]
    rw [before] at distinct ⊢
    cases gone : deleted s a with
    | none => simp [gained, or_assoc]
    | some item =>
      rw [gone] at distinct
      have fresh : item.address ∉ (front ++ back).map (·.address) :=
        (List.nodup_cons.mp (by simpa using distinct)).1
      have none_created := created_of_deleted gone
      simp only [gained, none_created, Option.toList_some, Option.toList_none, Option.map_some,
        Option.map_none, Option.some.injEq, List.append_nil, List.map_append, List.map_cons,
        List.singleton_append, List.nil_append, List.mem_cons, reduceCtorEq,
        or_false] at fresh ⊢
      constructor
      · rintro ⟨rfl | inside, other⟩
        · exact absurd rfl other
        · exact inside
      · intro inside
        exact ⟨.inr inside, fun same => fresh (same ▸ inside)⟩

end Steps

section Runs

variable {cfg : Config} {E : State → Action → Prop} {tr : List (State × Action)} {s : State}
  {start : Finset Resource}

theorem PipelineRun.holds (run : PipelineRun cfg E tr s)
    (noItem : ∀ address, .item address ∉ start) : Holds start s (heldAfter start tr) := by
  refine run.reachable.fold _ start (Holds start) ⟨fun x _ => ?_, fun address => ?_⟩
    fun s a t held before h inv => ?_
  · have early : (initial cfg).main.rank ≤ x.lastRank := Nat.zero_le _
    rw [and_iff_left early]
  · simp [noItem, initial, State.items, OutputPoint.spent, OutputPoint.item, PollPoint.item]
  · obtain ⟨⟨_, reached⟩, -⟩ := before
    have items := PipelineRun.items reached
    have distinct := items.2.2
    rw [items.2.1, List.map_append] at distinct
    exact (step_cases h).2.holds (PipelineRun.phase reached) (List.nodup_append.mp distinct).2.1
      inv

/-- When the destructor returns, what is left is what only the constructor gains and nothing
releases, and an item for each encoded frame that is still in `outputItemsQueue_`. -/
theorem PipelineRun.left_at_end (run : PipelineRun cfg E tr s) (ends : s.main = .destroyed)
    (noItem : ∀ address, .item address ∉ start) (x : Resource) :
    x ∈ heldAfter start tr ↔
      (x ∈ start ∧ x.lastRank = 17) ∨ ∃ item ∈ s.outputItemsQueue, x = .item item.address := by
  have holds := run.holds noItem
  have output : s.output = .returned := run.phase.output.joined (by simp [ends, MainPoint.rank])
  have poll : s.poll = .returned := run.phase.poll.joined (by simp [ends, MainPoint.rank])
  cases kind : x.isItem with
  | true =>
    cases x with
    | item address =>
      simp [holds.item, noItem, output, poll, State.items, OutputPoint.spent, OutputPoint.item,
        PollPoint.item, eq_comm]
    | _ => contradiction
  | false =>
    have last : x.lastRank ≤ 17 := by unfold Resource.lastRank; split <;> omega
    have noItem : ¬ ∃ item ∈ s.outputItemsQueue, x = .item item.address := by
      rintro ⟨item, -, rfl⟩
      contradiction
    rw [holds.other x kind, ends, or_iff_left noItem]
    refine and_congr_right fun _ => ?_
    simp only [MainPoint.rank]
    omega

end Runs

/-! ## A run that is destroyed at once -/

variable {cfg : Config}

theorem reaches_startCamera (room : cfg.captureCount ≤ captureBuffersCount) :
    Reaches cfg fun s => s.main = .startCamera [] ∧ s.processor = .loopTest ∧
      s.output = .loopTest := by
  have streamOn : Reaches cfg fun s => s.main = .streamOn :=
    (reaches_mapCapture le_rfl room).main fun s point =>
      ⟨_, .capturesMapped _ point (lt_irrefl _), rfl, rfl⟩
  have startProcessor : Reaches cfg fun s => s.main = .startProcessor :=
    streamOn.main fun s point => ⟨_, .streamOn point, rfl, rfl⟩
  have startOutput : Reaches cfg fun s => s.main = .startOutput ∧ s.processor = .loopTest :=
    startProcessor.main fun s point => ⟨_, .startProcessor point, rfl, rfl, rfl⟩
  have startCamera : Reaches cfg fun s => s.main = .startCamera (List.range cfg.requests) ∧
      s.processor = .loopTest ∧ s.output = .loopTest :=
    startOutput.main fun s ⟨point, processor⟩ =>
      ⟨_, .startOutput point, rfl, rfl, processor, rfl⟩
  revert startCamera
  generalize List.range cfg.requests = rest
  induction rest with
  | nil => exact id
  | cons r rest ih =>
    exact fun h => ih (h.main fun s ⟨point, started⟩ =>
      ⟨_, .queueRequest r rest point, rfl, rfl, started⟩)

/-- Every thread stands at its loop test. -/
theorem reaches_running (room : cfg.captureCount ≤ captureBuffersCount) :
    Reaches cfg fun s => s.main = .running ∧ s.processor = .loopTest ∧ s.output = .loopTest ∧
      s.poll = .loopTest := by
  have startPoll : Reaches cfg fun s => s.main = .startPoll ∧ s.processor = .loopTest ∧
      s.output = .loopTest :=
    (reaches_startCamera room).main fun s ⟨point, started⟩ =>
      ⟨_, .cameraStarted point, rfl, rfl, started⟩
  exact startPoll.main fun s ⟨point, processor, output⟩ =>
    ⟨_, .startPoll point, rfl, rfl, processor, output, rfl⟩

/-- No frame is taken, and the threads see the flags at their first loop test. -/
theorem reaches_destroyed (room : cfg.captureCount ≤ captureBuffersCount) :
    Reaches cfg fun s => s.main = .destroyed := by
  have setStop : Reaches cfg fun s => s.main = .setStop ∧ s.processor = .loopTest ∧
      s.output = .loopTest ∧ s.poll = .loopTest :=
    (reaches_running room).main fun s ⟨point, threads⟩ =>
      ⟨_, .destructor point, rfl, rfl, threads⟩
  have resetCamera : Reaches cfg fun s => s.main = .resetCamera ∧ s.stopRequested = true ∧
      s.processor = .loopTest ∧ s.output = .loopTest ∧ s.poll = .loopTest :=
    setStop.main fun s ⟨point, threads⟩ => ⟨_, .setStop point, rfl, rfl, rfl, threads⟩
  have processor : Reaches cfg fun s => s.main = .resetCamera ∧ s.stopRequested = true ∧
      s.processor = .returned ∧ s.output = .loopTest ∧ s.poll = .loopTest :=
    resetCamera.step fun s ⟨main, flag, point, others⟩ =>
      ⟨.processor {}, _, rfl, .processor {} (.stop point flag), rfl, main, flag, rfl, others⟩
  have output : Reaches cfg fun s => s.main = .resetCamera ∧ s.processor = .returned ∧
      s.output = .returned ∧ s.poll = .loopTest :=
    processor.step fun s ⟨main, flag, processor, point, poll⟩ =>
      ⟨.output {}, _, rfl, .output {} (.stop point flag), rfl, main, processor, rfl, poll⟩
  have stopManager : Reaches cfg fun s => s.main = .stopManager ∧ s.processor = .returned ∧
      s.output = .returned ∧ s.poll = .loopTest :=
    output.main fun s ⟨point, threads⟩ => ⟨_, .resetCamera point, rfl, rfl, threads⟩
  have joinProcessor : Reaches cfg fun s => s.main = .joinProcessor ∧ s.processor = .returned ∧
      s.output = .returned ∧ s.poll = .loopTest :=
    stopManager.main fun s ⟨point, threads⟩ => ⟨_, .stopManager point, rfl, rfl, threads⟩
  have joinOutput : Reaches cfg fun s => s.main = .joinOutput ∧ s.output = .returned ∧
      s.poll = .loopTest :=
    joinProcessor.main fun s ⟨point, returned, threads⟩ =>
      ⟨_, .joinProcessor point returned, rfl, rfl, threads⟩
  have setEncoderStop : Reaches cfg fun s => s.main = .setEncoderStop ∧ s.poll = .loopTest :=
    joinOutput.main fun s ⟨point, returned, poll⟩ =>
      ⟨_, .joinOutput point returned, rfl, rfl, poll⟩
  have joinPoll : Reaches cfg fun s => s.main = .joinPoll ∧ s.encoderStopRequested = true ∧
      s.poll = .loopTest :=
    setEncoderStop.main fun s ⟨point, poll⟩ => ⟨_, .setEncoderStop point, rfl, rfl, rfl, poll⟩
  have poll : Reaches cfg fun s => s.main = .joinPoll ∧ s.poll = .returned :=
    joinPoll.step fun s ⟨main, flag, point⟩ =>
      ⟨.poll {}, _, rfl, .poll {} (.stop point flag), rfl, main, rfl⟩
  have destroyStream : Reaches cfg fun s => s.main = .destroyStream :=
    poll.main fun s ⟨point, returned⟩ => ⟨_, .joinPoll point returned, rfl, rfl⟩
  have destroySession : Reaches cfg fun s => s.main = .destroySession :=
    destroyStream.main fun s point => ⟨_, .destroyStream point, rfl, rfl⟩
  exact destroySession.main fun s point => ⟨_, .destroySession point, rfl, rfl⟩

end LibcameraStreamer
