import LibcameraStreamer.Invariants.Recycling

/-!
# The camera after its release

`StopCamera` resets `camera_` first thing in the destructor, while the poll thread is stopped
last. Each OUTPUT buffer that the poll thread collects takes it to `camera_->queueRequest`.
-/
namespace LibcameraStreamer
open Library

/-- The poll thread is on its way to `camera_->queueRequest`. -/
def PollPoint.returning : PollPoint → Bool
  | .enqueueInput _ | .reuseRequest _ | .queueRequest _ => true
  | _ => false

/-- The OUTPUT `VIDIOC_DQBUF` succeeds in the step. -/
def collects (s : State) : Action → Bool
  | .poll ans => s.poll == .dequeueOutput && xioctl ans.replies == some 0
  | _ => false

/-- The camera is not reset while the poll thread is on its way to it, and once it is reset no
OUTPUT buffer is collected any more. -/
@[mk_iff]
structure SparesCamera (s : State) (a : Action) : Prop where
  resetCamera : s.main = .resetCamera → a = .main → s.poll.returning = false
  dequeueOutput : s.camera = none → collects s a = false

instance (s : State) (a : Action) : Decidable (SparesCamera s a) :=
  decidable_of_iff _ (sparesCamera_iff s a).symm

/-- After the reset the poll thread does not come to the camera. -/
structure Released (s : State) : Prop where
  poll : s.camera = none → s.poll.returning = false
  fault : s.fault ≠ some .nullCamera

theorem Transition.released {cfg : Config} {s t : State} {a : Action} (h : Transition cfg s a t)
    (spares : SparesCamera s a) (inv : Released s) : Released t := by
  obtain ⟨poll, fault⟩ := inv
  cases h with
  | main h =>
    cases h
    case resetCamera point => exact ⟨fun _ => spares.resetCamera point rfl, fault⟩
    case overflow => exact ⟨poll, by simp⟩
    case startPoll => exact ⟨fun _ => rfl, fault⟩
    all_goals exact ⟨poll, fault⟩
  | poll ans h =>
    cases h
    case nullCamera r point null =>
      simp [point, PollPoint.returning] at poll
      exact absurd null poll
    case dequeueOutput b rest point ok finished =>
      refine ⟨fun none => ?_, fault⟩
      have := spares.dequeueOutput none
      simp [collects, point, ok] at this
    case enqueueInput b point =>
      exact ⟨fun none => by simpa [point, PollPoint.returning] using poll none, fault⟩
    case dequeueReuse f r rest point queue =>
      exact ⟨fun none => by simpa [point, PollPoint.returning] using poll none, fault⟩
    case tableOverflow | tableUnset | terminate => exact ⟨poll, by simp⟩
    all_goals exact ⟨fun _ => rfl, fault⟩
  | processor ans h => cases h <;> exact ⟨poll, by simp [fault]⟩
  | output ans h => cases h <;> exact ⟨poll, by simp [fault]⟩
  | callback h | driver d h => rw [h.frame]; exact ⟨poll, fault⟩
  | complete | tick => exact ⟨poll, fault⟩

/-! ## From the encoder to the camera -/

section Run

variable {cfg : Config} {E : State → Action → Prop} {tr : List (State × Action)} {s : State}

/-- The null pointer is dereferenced in some run that goes on from here without failing calls. -/
def CanUseCamera (cfg : Config) (s : State) : Prop :=
  ∃ tr t, Run (Steps (step cfg)) Works s tr t ∧ t.fault = some .nullCamera

theorem CanUseCamera.of_step {t : State} {a : Action} (works : Works s a)
    (h : step cfg s a = some t) (later : CanUseCamera cfg t) : CanUseCamera cfg s := by
  obtain ⟨tr, u, run, fault⟩ := later
  have first : Run (Steps (step cfg)) Works s [(s, a)] t := .single works h
  exact ⟨_, u, first.trans run, fault⟩

theorem canUseCamera_queueRequest (alive : s.fault = none) (camera : s.camera = none) {r : Nat}
    (point : s.poll = .queueRequest r) : CanUseCamera cfg s :=
  have h : Transition cfg s (.poll {}) _ := .poll {} (.nullCamera r point camera)
  .of_step rfl (h.step_eq alive) ⟨[], _, .nil _, rfl⟩

theorem canUseCamera_dequeueReuse (alive : s.fault = none) (camera : s.camera = none) {f : Frame}
    (point : s.poll = .reuseRequest f) (queue : s.requestsToReuseQueue ≠ []) :
    CanUseCamera cfg s := by
  obtain ⟨r, rest, queue⟩ := List.exists_cons_of_ne_nil queue
  have h : Transition cfg s (.poll {}) _ := .poll {} (.dequeueReuse f r rest point queue)
  exact .of_step rfl (h.step_eq alive) (canUseCamera_queueRequest alive camera rfl)

theorem canUseCamera_reuseRequest (run : PipelineRun cfg E tr s) (alive : s.fault = none)
    (camera : s.camera = none) {f : Frame} (point : s.poll = .reuseRequest f) :
    CanUseCamera cfg s := by
  rcases run.owed_of_reuseRequest point with queue | ⟨r, callback⟩
  · exact canUseCamera_dequeueReuse alive camera point queue
  · have h : Transition cfg s .callback _ := .callback (.enqueueReuse r callback)
    exact .of_step rfl (h.step_eq alive)
      (canUseCamera_dequeueReuse alive camera point (by simp))

theorem canUseCamera (run : PipelineRun cfg E tr s) (alive : s.fault = none)
    (camera : s.camera = none) (returning : s.poll.returning = true) : CanUseCamera cfg s := by
  cases point : s.poll with
  | enqueueInput b =>
    have h : Transition cfg s (.poll {}) _ := .poll {} (.enqueueInput b point)
    have run : PipelineRun cfg (fun _ _ => True) tr s := run.mono fun _ _ _ => trivial
    exact .of_step rfl (h.step_eq alive)
      (canUseCamera_reuseRequest (run.snoc trivial (h.step_eq alive)) alive camera rfl)
  | reuseRequest f => exact canUseCamera_reuseRequest run alive camera point
  | queueRequest r => exact canUseCamera_queueRequest alive camera point
  | _ => simp [point, PollPoint.returning] at returning

/-- A run whose steps all spare the camera never dereferences the null pointer; and after a
step that does not, it can be dereferenced without any failing call. -/
theorem camera_after_release (run : PipelineRun cfg E tr s) :
    ((∀ x ∈ tr, SparesCamera x.1 x.2) → s.fault ≠ some .nullCamera) ∧
    ∀ a t, step cfg s a = some t → ¬ SparesCamera s a →
      ∃ tr' u, Run (Steps (step cfg)) Works t tr' u ∧ u.fault = some .nullCamera := by
  refine ⟨fun spares => ?_, fun a t h used => ?_⟩
  · exact ((run.of_forall_mem spares).invariant Released
      ⟨by simp [initial], by simp [initial]⟩ fun _ _ _ inv ok h =>
        (step_cases h).2.released ok inv).fault
  · have run : PipelineRun cfg (fun _ _ => True) tr s := run.mono fun _ _ _ => trivial
    have reached := run.snoc trivial h
    obtain ⟨alive, transition⟩ := step_cases h
    simp only [sparesCamera_iff, not_and_or, Classical.not_imp, Bool.not_eq_false] at used
    rcases used with ⟨main, rfl, returning⟩ | ⟨camera, collected⟩
    · obtain rfl := (Transition.main (.resetCamera main)).unique alive h
      exact canUseCamera reached alive rfl returning
    · cases transition with
      | poll ans taken =>
        cases taken
        case dequeueOutput b rest point ok finished => exact canUseCamera reached alive camera rfl
        all_goals simp_all [collects]
      | _ => simp [collects] at collected

/-- A frame is in the encoder when the destructor resets the camera: the poll thread collects its
OUTPUT buffer and dereferences the null pointer. -/
theorem camera_used_after_release :
    ∃ tr s, PipelineRun (.sample 1 1 1) Works tr s ∧ s.fault = some .nullCamera :=
  exists_pipelineRun (.sample 1 1 1) Works
    (startUp (.sample 1 1 1) ++ capture 0 ++ encodeRound ++ [.driver (.encode 4096 true)] ++
      List.replicate 3 .main ++ List.replicate 6 (.poll {}))
    (fun s => s.fault = some .nullCamera) (by decide +kernel)

/-- The same frame is collected before the destructor starts. -/
theorem camera_after_release_drained :
    ∃ s : State, s.camera = none ∧ s.completions = 1 ∧ s.fault ≠ some .nullCamera := by
  obtain ⟨tr, s, run, camera, completions⟩ := exists_pipelineRun (.sample 1 1 1) SparesCamera
    (startUp (.sample 1 1 1) ++ capture 0 ++ encodeRound ++ [.driver (.encode 4096 true)] ++
      pollRound ++ List.replicate 3 .main ++ List.replicate 2 (.poll {pollResult := .timeout}))
    (fun s => s.camera = none ∧ s.completions = 1) (by decide +kernel)
  exact ⟨s, camera, completions, (camera_after_release run).1 run.forall_mem⟩

end Run

end LibcameraStreamer
