import LibcameraStreamer.Invariants.Collection
import LibcameraStreamer.Invariants.Order
import LibcameraStreamer.Invariants.Recycling

/-!
# Which request goes back

`ReuseRequest` does not know whose encode has finished. It hands back the requests in the order
in which they were completed, one for each frame whose encode finishes, so every skipped frame
makes it one request later.
-/
namespace LibcameraStreamer
open Library

/-- The request that `ReuseRequest` dequeues in the step. -/
def handedBack (s : State) : Action → Option Nat
  | .poll _ =>
    match s.poll, s.requestsToReuseQueue with
    | .reuseRequest _, r :: _ => some r
    | _, _ => none
  | _ => none

/-- The requests that are completed and not handed back, the oldest first. -/
def State.owed (s : State) : List Nat := s.requestsToReuseQueue ++ s.callback.owed

variable {cfg : Config} {E : State → Action → Prop} {tr : List (State × Action)} {s t : State}

theorem Transition.owed {a : Action} (h : Transition cfg s a t) :
    LossyStep s.owed (handedBack s a) none ((completed s a).map (·.request)) t.owed := by
  cases h with
  | callback h =>
    refine .enters ?_
    cases h <;> simp [State.owed, CallbackPoint.owed, completed, *]
  | poll ans h =>
    refine .leaves ?_
    cases h <;> simp [State.owed, handedBack, *]
  | complete r status idle queued allowed =>
    exact .idle (by simp [State.owed, CallbackPoint.owed, idle])
  | main h | processor ans h | output ans h | driver d h => rw [h.frame]; exact .idle rfl
  | tick => exact .idle rfl

theorem DriverStep.encoding {d : DriverAction} (h : DriverStep cfg s d t)
    (order : (Action.driver d).overtakesOutput = false) : t.encoding = s.encoding := by
  cases h
  case finishOutput i b queued =>
    have first : i = 0 := by simpa [Action.overtakesOutput] using order
    subst first
    cases outputs : s.outputQueued <;> simp_all [State.encoding]
  case encode => simp [State.encoding, *]
  all_goals rfl

/-- With a driver that keeps the order of the OUTPUT buffers, the frames that are not encoded yet
are a queue from `requestComplete` to `ReuseRequest`, in which only skipped frames are lost. -/
theorem Transition.encodingQueue {a : Action} (h : Transition cfg s a t) (phase : Phase s)
    (order : a.overtakesOutput = false) :
    LossyStep s.encoding (called s a) (skipped s a) (completed s a) t.encoding := by
  cases h with
  | main h =>
    refine .idle ?_
    cases h
    case startProcessor point =>
      simp [State.encoding, ProcessorPoint.frame, phase.processor_fresh point]
    case startPoll point => simp [State.encoding, PollPoint.frame, phase.poll_fresh point]
    all_goals rfl
  | callback h =>
    refine .enters ?_
    cases h <;> simp [State.encoding, completed, *]
  | processor ans h =>
    cases h
    case skip f fd size ts point none =>
      simp only [skipped, point, none]
      refine .loses (s.poll.frame ++ (s.outputFinished.map (·.frame) ++
        s.outputQueued.map (·.frame))) s.completedRequestsQueue ?_ ?_ <;>
        simp [State.encoding, ProcessorPoint.frame, point]
    all_goals
      simp only [skipped, *]
      refine .idle ?_
      simp [State.encoding, ProcessorPoint.frame, *]
  | poll ans h =>
    refine .leaves ?_
    cases h <;> simp [State.encoding, PollPoint.frame, called, *]
  | driver d h => exact .idle (h.encoding order)
  | output ans h => rw [h.frame]; exact .idle rfl
  | complete | tick => exact .idle rfl

/-! ## Over a whole run -/

theorem PipelineRun.serials (run : PipelineRun cfg E tr s) :
    (log completed tr).map (·.serial) = List.range s.completions := by
  have serials := run.logs (fun s => List.range s.completions)
    (fun s a => (completed s a).map (·.serial)) fun s a t _ h => (step_cases h).2.completions
  simpa [log_map, initial] using serials.symm

theorem PipelineRun.handedBack (run : PipelineRun cfg E tr s) :
    (log completed tr).map (·.request) = log handedBack tr ++ s.owed := by
  have queue := run.fifo State.owed LibcameraStreamer.handedBack
    (fun s a => (completed s a).map (·.request)) rfl fun _ _ _ _ h => (step_cases h).2.owed
  rwa [log_map] at queue

theorem PipelineRun.called (run : PipelineRun cfg E tr s)
    (fifo : ∀ s a, E s a → a.overtakesOutput = false) :
    (log completed tr).filter (· ∉ log skipped tr) = log called tr ++ s.encoding := by
  obtain ⟨sub, perm⟩ := run.withPhase.lossyQueue State.encoding LibcameraStreamer.called skipped
    completed rfl fun s a t ok h => (step_cases h).2.encodingQueue ok.1 (fifo s a ok.2)
  exact filter_eq_of_sublist_of_perm sub perm run.completed_nodup

/-- Every callback that dequeues a request is for one frame. -/
theorem length_handedBack (tr : List (State × Action)) :
    (log handedBack tr).length = (log called tr).length := by
  rw [length_log, length_log]
  congr 1
  funext s a
  fun_cases handedBack s a <;> simp_all [called]

theorem PipelineRun.countP_skipped_le (run : PipelineRun cfg E tr s) (k : Nat) :
    ((log completed tr).take k).countP (· ∈ log skipped tr) ≤ cfg.requests - cfg.outputCount := by
  have distinct := (run.completed_nodup.sublist (List.take_sublist k _)).filter
    (· ∈ log skipped tr)
  have within : ((log completed tr).take k).filter (· ∈ log skipped tr) ⊆ log skipped tr :=
    fun f member => by simpa using (List.mem_filter.mp member).2
  calc ((log completed tr).take k).countP (· ∈ log skipped tr)
      = (((log completed tr).take k).filter (· ∈ log skipped tr)).length :=
        List.countP_eq_length_filter
    _ ≤ (log skipped tr).length := (List.subperm_of_subset distinct within).length_le
    _ = count skips tr := length_log skipped tr
    _ ≤ cfg.requests - cfg.outputCount := run.count_skips_le

/-- The requests go back in the order in which they were completed, the `j`-th one at the
callback of the `j`-th frame that was not skipped. With a driver that keeps the order of the
OUTPUT buffers, that is not the request of this frame, but the one that was completed as many
frames earlier as frames before this one were skipped, which is at most `n - m`. -/
theorem reuse_in_order (run : PipelineRun cfg E tr s)
    (fifo : ∀ s a, E s a → a.overtakesOutput = false) :
    (log completed tr).map (·.request) = log handedBack tr ++ s.owed ∧
    (log handedBack tr).length = (log called tr).length ∧
    ∀ j f, (log called tr)[j]? = some f →
      (log completed tr)[f.serial]? = some f ∧
      f.serial = j + ((log completed tr).take f.serial).countP (· ∈ log skipped tr) ∧
      f.serial ≤ j + (cfg.requests - cfg.outputCount) := by
  refine ⟨run.handedBack, length_handedBack tr, fun j f called => ?_⟩
  have kept : ((log completed tr).filter (· ∉ log skipped tr))[j]? = some f := by
    rw [run.called fifo]
    exact List.getElem?_append_left (List.getElem?_eq_some_iff.mp called).1 ▸ called
  obtain ⟨i, position, before⟩ := exists_position_of_filter kept
  have serial : f.serial = i := by
    have serials := congrArg (·[i]?) run.serials
    simp only [List.getElem?_map, position, Option.map_some] at serials
    obtain ⟨_, here⟩ := List.getElem?_eq_some_iff.mp serials.symm
    rw [← here, List.getElem_range]
  subst serial
  simp only [decide_not, Bool.not_not] at before
  refine ⟨position, before, ?_⟩
  have few := run.countP_skipped_le f.serial
  omega

/-- Two requests and one input slot: the second frame was skipped, so the callback of the third
hands back the request of the second. -/
theorem reuse_in_order_after_skip :
    ∃ tr s, PipelineRun (.sample 2 1 1) (fun _ a => a.overtakesOutput = false) tr s ∧
      (log called tr)[1]? = some ⟨0, 2⟩ ∧ log handedBack tr = [0, 1] ∧
      (log completed tr).map (·.request) = log handedBack tr ++ s.owed ∧
      2 = 1 + ((log completed tr).take 2).countP (· ∈ log skipped tr) := by
  obtain ⟨tr, s, run, late, back⟩ := exists_pipelineRun_trace (.sample 2 1 1)
    (fun _ a => a.overtakesOutput = false)
    (startUp (.sample 2 1 1) ++ capture 0 ++ encodeRound ++ capture 1 ++
      List.replicate 4 (.processor {}) ++ [.driver (.encode 4096 true)] ++ pollRound ++
      outputRound ++ capture 0 ++ encodeRound ++ [.driver (.encode 4096 true)] ++ pollRound)
    (fun tr _ => (log called tr)[1]? = some ⟨0, 2⟩ ∧ log handedBack tr = [0, 1])
    (by decide +kernel)
  obtain ⟨order, -, distance⟩ := reuse_in_order run fun _ _ ok => ok
  exact ⟨tr, s, run, late, back, order, (distance 1 _ late).2.1⟩

end LibcameraStreamer
