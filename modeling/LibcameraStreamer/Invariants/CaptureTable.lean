import LibcameraStreamer.Invariants.Captures

/-!
# The table of the CAPTURE mappings

`buffers_` has `CaptureBuffersCount` entries, and both the constructor's loop and the later
reads follow the count that the driver has granted. A larger count is reached in every
start-up, because nothing compares the two.
-/
namespace LibcameraStreamer
open Library

variable {cfg : Config}

/-- The index of the entry of `buffers_` that the constructor writes in the step. -/
def tableWrite (cfg : Config) (s : State) : Action → Option Nat
  | .main =>
    match s.main with
    | .mapCapture i => if i < cfg.captureCount then some i else none
    | _ => none
  | _ => none

/-- The index of the entry that `pollReadyToProcessCaptureBuffers` reads in the step. -/
def tableRead (s : State) : Action → Option Nat
  | .poll ans =>
    match s.poll, xioctl ans.replies, s.captureFinished with
    | .dequeueCapture, some 0, b :: _ => some b.index
    | _, _, _ => none
  | _ => none

/-- Every access to `buffers_` is within the array, and what is read has been written. -/
structure TableSafe (cfg : Config) (s : State) (a : Action) : Prop where
  write : ∀ i, tableWrite cfg s a = some i → i < captureBuffersCount
  read : ∀ i, tableRead s a = some i →
    i < captureBuffersCount ∧ ∃ desc, s.buffers[i]? = some (some desc)

/-- Only an index of a finished buffer is read. -/
theorem tableRead_mem {s : State} {a : Action} {i : Nat} (h : tableRead s a = some i) :
    ∃ b ∈ s.captureFinished, b.index = i := by
  revert h
  fun_cases tableRead s a
  case case1 ans b rest finished ok point =>
    intro h
    exact ⟨b, by simp [finished], by simpa using h⟩
  all_goals rintro ⟨⟩

/-- The constructor has filled in the entry of every buffer that the driver holds. -/
theorem Captures.tableSafe {s : State} (inv : Captures cfg s)
    (room : cfg.captureCount ≤ captureBuffersCount) (a : Action) : TableSafe cfg s a where
  write i h := by
    revert h
    fun_cases tableWrite cfg s a
    case case1 j more point =>
      intro h
      cases h
      omega
    all_goals simp
  read i h := by
    obtain ⟨b, finished, rfl⟩ := tableRead_mem h
    have entry := inv.entry finished
    have inside := (List.getElem?_eq_some_iff.mp entry).1
    exact ⟨by rwa [inv.size] at inside, _, entry⟩

/-! ## Start-up -/

/-- Some run without failing calls comes to a state satisfying `P`. -/
def Reaches (cfg : Config) (P : State → Prop) : Prop :=
  ∃ tr s, PipelineRun cfg Works tr s ∧ s.fault = none ∧ P s

theorem Reaches.step {P Q : State → Prop} (h : Reaches cfg P)
    (next : ∀ s, P s → ∃ a t, Works s a ∧ Transition cfg s a t ∧ t.fault = s.fault ∧ Q t) :
    Reaches cfg Q := by
  obtain ⟨tr, s, run, alive, here⟩ := h
  obtain ⟨a, t, works, step, same, there⟩ := next s here
  exact ⟨_, t, run.snoc works (step.step_eq alive), same.trans alive, there⟩

/-- The same for a step of the main thread. -/
theorem Reaches.main {P Q : State → Prop} (h : Reaches cfg P)
    (next : ∀ s, P s → ∃ t, MainStep cfg s t ∧ t.fault = s.fault ∧ Q t) : Reaches cfg Q :=
  h.step fun s here =>
    have ⟨t, step, same, there⟩ := next s here
    ⟨.main, t, rfl, .main step, same, there⟩

theorem reaches_enqueueInputs {i : Nat} (bound : i ≤ cfg.outputCount) :
    Reaches cfg fun s => s.main = .enqueueInputs i := by
  induction i with
  | zero => exact ⟨[], _, .nil _, rfl, rfl⟩
  | succ i ih =>
    exact (ih (by omega)).main fun s point => ⟨_, .enqueueInput i point (by omega), rfl, rfl⟩

theorem reaches_mapCapture {i : Nat} (bound : i ≤ cfg.captureCount)
    (room : i ≤ captureBuffersCount) : Reaches cfg fun s => s.main = .mapCapture i := by
  induction i with
  | zero =>
    exact (reaches_enqueueInputs le_rfl).main fun s point =>
      ⟨_, .inputsEnqueued _ point (lt_irrefl _), rfl, rfl⟩
  | succ i ih =>
    have mapped : Reaches cfg fun s => s.main = .queueCapture i :=
      (ih (by omega) (by omega)).main fun s point =>
        ⟨_, .mapCapture i point (by omega) (by omega), rfl, rfl⟩
    exact mapped.main fun s point => ⟨_, .queueCapture i point, rfl, rfl⟩

/-- In every run every access to `buffers_` is to an entry of the array that has been filled in,
if and only if the driver grants no more buffers than the array has entries. -/
theorem capture_table_safe_iff :
    (∀ tr s, PipelineRun cfg (fun _ _ => True) tr s → ∀ x ∈ tr, TableSafe cfg x.1 x.2) ↔
      cfg.captureCount ≤ captureBuffersCount := by
  constructor
  · intro safe
    by_contra more
    -- The write to the first entry behind the array is the next step of the constructor.
    have reached : Reaches cfg fun s => s.main = .mapCapture captureBuffersCount :=
      reaches_mapCapture (by omega) le_rfl
    obtain ⟨tr, s, run, alive, point⟩ := reached
    have overflow : Transition cfg s .main _ :=
      .main (.overflow captureBuffersCount point (by omega) (lt_irrefl _))
    have longer := (run.snoc rfl (overflow.step_eq alive)).mono (F := fun _ _ => True)
      fun _ _ _ => trivial
    have step := safe _ _ longer (s, .main) (by simp)
    have inside := step.write captureBuffersCount (by simp [tableWrite, point]; omega)
    exact absurd inside (lt_irrefl _)
  · intro room tr s run x member
    obtain ⟨⟨_, before⟩, -⟩ := run.reachable.forall_mem x member
    exact (PipelineRun.captures before).tableSafe room x.2

/-- The driver grants one CAPTURE buffer more than it was asked for. -/
theorem capture_table_overflows :
    ∃ tr s, PipelineRun (.sample 1 1 13) Works tr s ∧ s.fault = some .tableOverflow ∧
      ∃ x ∈ tr, ¬ TableSafe (.sample 1 1 13) x.1 x.2 := by
  obtain ⟨tr, s, run, alive, point⟩ := exists_pipelineRun (.sample 1 1 13) Works
    (List.replicate 26 .main) (fun s => s.fault = none ∧ s.main = .mapCapture 12)
    (by decide +kernel)
  have overflow : Transition (.sample 1 1 13) s .main _ :=
    .main (.overflow 12 point (by decide) (by decide))
  refine ⟨_, _, run.snoc rfl (overflow.step_eq alive), rfl, (s, .main), by simp, fun safe => ?_⟩
  have inside := safe.write 12 (by simp [tableWrite, point, Config.sample])
  exact absurd inside (by decide)

end LibcameraStreamer
