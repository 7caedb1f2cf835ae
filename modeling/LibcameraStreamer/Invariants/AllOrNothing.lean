import LibcameraStreamer.Invariants.Destruction

/-!
# All or nothing

From `Camera::acquire` on something is held that no unwinding and no destructor releases. So the
constructor fails cleanly only before it, and an object that is constructed leaves something
behind.
-/
namespace LibcameraStreamer
open Library

/-- Some call of the constructor would fail. -/
def Fails (outcomes : Outcomes) (cfg : Config) (mappings : Nat) : Prop :=
  ∃ c onFailure gain, .call c onFailure gain ∈ Constructor.libcameraStreamer cfg mappings ∧
    outcomes c ≠ none

/-- When a call fails, the constructor throws and nothing is held; and otherwise it returns, and
nothing is held when the destructor has returned. -/
structure AllOrNothing (outcomes : Outcomes) (cfg : Config) (mappings : Nat) : Prop where
  nothing : Fails outcomes cfg mappings → ∃ what, construct outcomes cfg mappings = .throws what ∅
  all : ¬ Fails outcomes cfg mappings → ∃ held, construct outcomes cfg mappings = .returns held ∧
    ∀ tr s, PipelineRun cfg (fun _ _ => True) tr s → s.main = .destroyed → heldAfter held tr = ∅

/-- The calls up to `Camera::acquire`. -/
def firstCalls : List Call := [.startManager, .cameras, .get, .acquire]

variable {outcomes : Outcomes} {cfg : Config} {mappings : Nat}

/-- No statement releases a resource. -/
theorem mem_execute {x : Resource} {held : Finset Resource} (statement : Statement)
    (member : x ∈ held) : x ∈ (execute outcomes statement held).state := by
  unfold execute
  split
  · split <;> simp [Flow.state, member]
  · simp [Flow.state, member]
  · split <;> simp [Flow.state, member]

theorem libcameraStreamer_eq (cfg : Config) (mappings : Nat) :
    Constructor.libcameraStreamer cfg mappings = Constructor.findCamera ++
      [Constructor.checked .get ("failed to find camera " ++ cfg.cameraId),
        Constructor.checked .acquire ("failed to acquire camera " ++ cfg.cameraId)
          (some .camera)] ++ (Constructor.libcameraStreamer cfg mappings).drop 4 := rfl

theorem camera_held (cfg : Config) (mappings : Nat)
    (acquired : ∀ c ∈ firstCalls, outcomes c = none) :
    .camera ∈
      (forEach (execute outcomes) (Constructor.libcameraStreamer cfg mappings) ∅).state := by
  simp only [firstCalls, List.mem_cons, List.not_mem_nil, or_false, forall_eq_or_imp,
    forall_eq] at acquired
  obtain ⟨start, cameras, get, acquire⟩ := acquired
  rw [libcameraStreamer_eq]
  simp only [Constructor.findCamera, Constructor.checked, List.cons_append, List.nil_append,
    forEach_cons, execute, start, cameras, get, acquire, Flow.next_andThen]
  refine forEach_state (.camera ∈ ·) (fun statement _ _ member => mem_execute statement member) ?_
  simp

theorem not_nothing (acquired : ∀ c ∈ firstCalls, outcomes c = none) (what : String) :
    construct outcomes cfg mappings ≠ .throws what ∅ := by
  have held := camera_held cfg mappings acquired
  unfold construct
  split
  · simp
  · simp
  · next text rest result =>
    rw [result] at held
    unfold unwind
    split
    · simp
    · intro same
      have camera : Resource.camera ∈ rest.erase .manager := by simpa [Flow.state] using held
      rw [(Construction.throws.inj same).2] at camera
      simp at camera
  · simp

theorem execute_ne_exit (outcomes : Outcomes) (statement : Statement)
    (held held' : Finset Resource) : execute outcomes statement held ≠ .exit held' := by
  unfold execute
  split
  · split <;> simp
  · simp
  · split <;> simp

theorem next_of_returns {held : Finset Resource}
    (h : construct outcomes cfg mappings = .returns held) :
    forEach (execute outcomes) (Constructor.libcameraStreamer cfg mappings) ∅ = .next held := by
  unfold construct at h
  split at h
  · next result => rw [result, Construction.returns.inj h]
  · next result => exact absurd result (forEach_ne_exit (execute_ne_exit outcomes) _ _ _)
  · unfold unwind at h
    split at h <;> contradiction
  · contradiction

/-- The constructor returns only when the driver has granted no more buffers than `buffers_` has
entries. -/
theorem captureCount_le {held : Finset Resource}
    (h : forEach (execute outcomes) (Constructor.libcameraStreamer cfg mappings) ∅ = .next held) :
    cfg.captureCount ≤ captureBuffersCount := by
  by_contra more
  have member : .store captureBuffersCount ∈ Constructor.libcameraStreamer cfg mappings := by
    have stored : .store captureBuffersCount ∈ Constructor.h264Encoder cfg := by
      simp only [Constructor.h264Encoder, List.mem_append, List.mem_flatMap, List.mem_range]
      exact .inl (.inr ⟨captureBuffersCount, by omega, by simp [Constructor.mapCapture]⟩)
    simp [Constructor.libcameraStreamer, stored]
  obtain ⟨before, after, goes⟩ := exists_next_of_forEach h member
  simp [execute] at goes

/-- The resource that a statement can gain. -/
def Statement.gain : Statement → Option Resource
  | .call _ _ gain => gain
  | .new r => some r
  | .store _ => none

theorem execute_gain {x : Resource} {held : Finset Resource} (statement : Statement)
    (other : statement.gain ≠ some x) (none : x ∉ held) :
    x ∉ (execute outcomes statement held).state := by
  unfold execute
  split
  · split <;> simp_all [Flow.state, Statement.gain]
  · simp_all [Flow.state, Statement.gain, eq_comm]
  · split <;> simpa [Flow.state] using none

/-- What the constructor gains, in its order. -/
theorem gains_eq (cfg : Config) (mappings : Nat) :
    (Constructor.libcameraStreamer cfg mappings).filterMap Statement.gain =
      [Resource.manager, Resource.camera, Resource.allocator] ++
      (List.range mappings).map Resource.frameMapping ++ [Resource.encoder] ++
      (List.range cfg.captureCount).map Resource.captureMapping ++
      [Resource.session, Resource.stream, Resource.thread .processor, Resource.thread .output,
        Resource.running, Resource.thread .poll] := by
  have requests : (Constructor.makeRequests cfg).filterMap Statement.gain = [] := by
    simp [Constructor.makeRequests, List.filterMap_flatMap, Constructor.checked, Statement.gain]
  have captures : ((List.range cfg.captureCount).flatMap Constructor.mapCapture).filterMap
      Statement.gain = (List.range cfg.captureCount).map .captureMapping := by
    simp [List.filterMap_flatMap, List.filterMap_cons, Constructor.mapCapture,
      Constructor.checked, Statement.gain, List.map_eq_flatMap]
  simp [Constructor.libcameraStreamer, Constructor.findCamera, Constructor.cameraWrapper,
    Constructor.allocateBuffers, Constructor.h264Encoder, Constructor.startCamera,
    Constructor.checked, Constructor.setControlValue, Constructor.startThread, requests, captures,
    Statement.gain, List.filterMap_cons, List.filterMap_map, Function.comp_def]

theorem no_item_held (outcomes : Outcomes) (cfg : Config) (mappings address : Nat) :
    .item address ∉
      (forEach (execute outcomes) (Constructor.libcameraStreamer cfg mappings) ∅).state := by
  refine forEach_state (Resource.item address ∉ ·) (fun statement member _ none =>
    execute_gain statement (fun gain => ?_) none) (by simp)
  have gained := List.mem_filterMap.mpr ⟨statement, member, gain⟩
  simp [gains_eq] at gained

/-- When one of the first calls fails, the camera manager goes with the exception. -/
theorem throws_of_fails {c : Call} (first : c ∈ firstCalls) (fails : outcomes c ≠ none) :
    ∃ what, construct outcomes cfg mappings = .throws what ∅ := by
  rw [construct, libcameraStreamer_eq]
  simp only [Constructor.findCamera, Constructor.checked, List.cons_append, List.nil_append,
    forEach_cons]
  cases start : outcomes .startManager with
  | some code => exact ⟨_, by simp [execute, start, unwind]; rfl⟩
  | none =>
    cases cameras : outcomes .cameras with
    | some code => exact ⟨_, by simp [execute, start, cameras, unwind]; rfl⟩
    | none =>
      cases get : outcomes .get with
      | some code => exact ⟨_, by simp [execute, start, cameras, get, unwind]; rfl⟩
      | none =>
        cases acquire : outcomes .acquire with
        | some code => exact ⟨_, by simp [execute, start, cameras, get, acquire, unwind]; rfl⟩
        | none =>
          simp only [firstCalls, List.mem_cons, List.not_mem_nil, or_false] at first
          rcases first with rfl | rfl | rfl | rfl <;> contradiction

/-- The constructor and the destructor do all or nothing exactly when one of the calls up to
`Camera::acquire` fails. -/
theorem construction_all_or_nothing_iff (outcomes : Outcomes) (cfg : Config) (mappings : Nat) :
    AllOrNothing outcomes cfg mappings ↔
      ∃ c ∈ [Call.startManager, .cameras, .get, .acquire], outcomes c ≠ none := by
  constructor
  · intro whole
    by_contra! acquired
    by_cases fails : Fails outcomes cfg mappings
    · obtain ⟨what, throws⟩ := whole.nothing fails
      exact not_nothing acquired what throws
    · obtain ⟨held, returns, releases⟩ := whole.all fails
      have goes := next_of_returns returns
      have camera := camera_held cfg mappings acquired
      have noItem := no_item_held outcomes cfg mappings
      simp only [goes, Flow.state] at camera noItem
      obtain ⟨tr, s, run, -, ends⟩ := reaches_destroyed (captureCount_le goes)
      have whole_run := run.mono (F := fun _ _ => True) fun _ _ _ => trivial
      have left := (PipelineRun.left_at_end whole_run ends noItem .camera).mpr (.inl ⟨camera, rfl⟩)
      rw [releases tr s whole_run ends] at left
      simp at left
  · rintro ⟨c, first, fails⟩
    have someFails : Fails outcomes cfg mappings := by
      simp only [List.mem_cons, List.not_mem_nil, or_false] at first
      rcases first with rfl | rfl | rfl | rfl
      · exact ⟨_, _, _, .head _, fails⟩
      · exact ⟨_, _, _, .tail _ (.head _), fails⟩
      · exact ⟨_, _, _, .tail _ (.tail _ (.head _)), fails⟩
      · exact ⟨_, _, _, .tail _ (.tail _ (.tail _ (.head _))), fails⟩
    refine ⟨fun _ => throws_of_fails first fails, fun succeeds => absurd someFails succeeds⟩

/-- The encoder's device cannot be opened, and the exception leaves the camera acquired and its
buffers mapped. After the threads have started, a failure ends the process; and a session that is
not created is used. -/
theorem construction_leaks :
    (∃ held, construct (fun c => if c = .openEncoder then some (-1) else none) (.sample 1 1 1) 1 =
        .throws "failed to open V4L2 H264 encoder" held ∧
      .camera ∈ held ∧ .allocator ∈ held ∧ .frameMapping 0 ∈ held) ∧
    ¬ AllOrNothing (fun c => if c = .openEncoder then some (-1) else none) (.sample 1 1 1) 1 ∧
    construct (fun c => if c = .startCamera then some (-1) else none) (.sample 1 1 1) 1 =
      .terminates ∧
    construct (fun c => if c = .createSession then some 0 else none) (.sample 1 1 1) 1 =
      .undefined := by
  have throws : construct (fun c => if c = .openEncoder then some (-1) else none)
      (.sample 1 1 1) 1 = .throws "failed to open V4L2 H264 encoder" _ := rfl
  refine ⟨⟨_, throws, by decide, by decide, by decide⟩, fun whole => ?_,
    by decide +kernel, by decide +kernel⟩
  have opens : Constructor.checked .openEncoder "failed to open V4L2 H264 encoder"
      (some .encoder) ∈ Constructor.libcameraStreamer (.sample 1 1 1) 1 := by
    simp [Constructor.libcameraStreamer, Constructor.h264Encoder]
  obtain ⟨what, nothing⟩ := whole.nothing ⟨_, _, _, opens, by simp⟩
  rw [throws] at nothing
  have empty := (Construction.throws.inj nothing).2
  have held : Resource.camera ∈ (∅ : Finset Resource) := empty ▸ by decide
  simp at held

/-! ## What is left behind -/

theorem lt_of_store (cfg : Config) (mappings : Nat) {i : Nat}
    (member : .store i ∈ Constructor.libcameraStreamer cfg mappings) : i < cfg.captureCount := by
  simpa [Constructor.libcameraStreamer, Constructor.findCamera, Constructor.cameraWrapper,
    Constructor.allocateBuffers, Constructor.makeRequests, Constructor.h264Encoder,
    Constructor.mapCapture, Constructor.startCamera, Constructor.checked,
    Constructor.setControlValue, Constructor.startThread] using member

/-- When all calls succeed, everything is gained that the statements can gain. -/
theorem construct_succeeds (cfg : Config) (mappings : Nat) (succeeds : ∀ c, outcomes c = none)
    (room : cfg.captureCount ≤ captureBuffersCount) :
    ∃ held, construct outcomes cfg mappings = .returns held ∧ ∀ x, x ∈ held ↔
      x ∈ (Constructor.libcameraStreamer cfg mappings).filterMap Statement.gain := by
  obtain ⟨held, goes, gains⟩ := forEach_next (f := execute outcomes) (s := ∅)
    (l := Constructor.libcameraStreamer cfg mappings)
    (fun done held => ∀ x, x ∈ held ↔ x ∈ done.filterMap Statement.gain) (by simp)
    fun done statement rest held split here => by
      have more : ∀ x, x ∈ (done ++ [statement]).filterMap Statement.gain ↔
          x ∈ held ∨ statement.gain = some x := fun x => by
        simp [here, List.filterMap_append]
      simp only [more]
      cases statement with
      | call c onFailure gain =>
        refine ⟨held ∪ gain.toFinset, by simp only [execute, succeeds], fun x => ?_⟩
        simp [Statement.gain]
      | new r => exact ⟨insert r held, rfl, fun x => by simp [Statement.gain, or_comm, eq_comm]⟩
      | store i =>
        have bound := lt_of_store cfg mappings (i := i) (by simp [split])
        exact ⟨held, by simp [execute]; omega, fun x => by simp [Statement.gain]⟩
  exact ⟨held, by rw [construct, goes], gains⟩

/-- When the constructor and then the destructor have returned, the camera is still acquired and
running, the device is open, the allocator and all mappings are there, and so is every item that
no thread has taken from `outputItemsQueue_`. -/
theorem left_behind {E : State → Action → Prop} {tr : List (State × Action)} {s : State}
    (succeeds : ∀ c, outcomes c = none) (room : cfg.captureCount ≤ captureBuffersCount)
    (run : PipelineRun cfg E tr s) (ends : s.main = .destroyed) :
    ∃ held, construct outcomes cfg mappings = .returns held ∧ ∀ x, x ∈ heldAfter held tr ↔
      x ∈ [Resource.camera, .allocator, .encoder, .running] ∨
      (∃ k < mappings, x = .frameMapping k) ∨ (∃ i < cfg.captureCount, x = .captureMapping i) ∨
      ∃ item ∈ s.outputItemsQueue, x = .item item.address := by
  obtain ⟨held, returns, gains⟩ := construct_succeeds cfg mappings succeeds room
  refine ⟨held, returns, fun x => ?_⟩
  have noItem : ∀ address, .item address ∉ held := by simp [gains, gains_eq]
  rw [run.left_at_end ends noItem, gains, gains_eq]
  rcases x with _ | _ | _ | _ | _ | _ | _ | _ | (_ | _ | _) | _ | _ <;>
    simp [Resource.lastRank]

end LibcameraStreamer
