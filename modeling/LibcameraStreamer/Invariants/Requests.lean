import LibcameraStreamer.Library.Partition
import LibcameraStreamer.Library.Recycler
import LibcameraStreamer.Invariants.Phase

/-!
# The requests as a recycler

The camera is the supplier of requests and the line of workers leads from
`completedRequestsQueue_` through `EncodeBuffer` and the OUTPUT queue to the poll thread,
which calls `ReuseRequest`. The owed requests are those in `requestsToReuseQueue_`. The two
enqueues of `requestComplete` count as one step of the recycler, taken at the first.
-/
namespace LibcameraStreamer
open Library

/-- The requests that `StartCamera` has not queued yet. -/
def MainPoint.unqueued (cfg : Config) : MainPoint → List Nat
  | .startCamera rest => rest
  | .enqueueInputs _ | .mapCapture _ | .queueCapture _ | .streamOn | .startProcessor
  | .startOutput => List.range cfg.requests
  | _ => []

/-- The request that the camera has completed and not entered in a queue. -/
def CallbackPoint.request : CallbackPoint → List Nat
  | .requestComplete r _ => [r]
  | _ => []

/-- The request between the two enqueues. -/
def CallbackPoint.owed : CallbackPoint → List Nat
  | .enqueueReuse r => [r]
  | _ => []

/-- The frame that `completedRequestsProcessor` works on. -/
def ProcessorPoint.frame : ProcessorPoint → List Frame
  | .lookup f | .encodeBuffer f .. | .queueOutput _ f .. | .threw _ f => [f]
  | _ => []

/-- The frame whose OUTPUT buffer is dequeued, until `ReuseRequest` has dequeued a request. -/
def PollPoint.frame : PollPoint → List Frame
  | .enqueueInput b => [b.frame]
  | .reuseRequest f => [f]
  | _ => []

/-- The request that `ReuseRequest` hands back to the camera. -/
def PollPoint.request : PollPoint → List Nat
  | .queueRequest r => [r]
  | _ => []

/-- The frames that are completed and whose encode is not finished, the oldest first. -/
def State.encoding (s : State) : List Frame :=
  s.poll.frame ++ (s.outputFinished.map (·.frame) ++ (s.outputQueued.map (·.frame) ++
    (s.processor.frame ++ s.completedRequestsQueue)))

def State.withCamera (cfg : Config) (s : State) : List Nat :=
  s.main.unqueued cfg ++ (s.queuedRequests ++ (s.callback.request ++ s.poll.request))

def recycler (cfg : Config) (s : State) : Recycler Nat where
  idle := s.withCamera cfg
  owed := s.requestsToReuseQueue ++ s.callback.owed
  pending := s.encoding.map (·.request)

/-- The frame on which `EncodeBuffer` takes the branch "Frame encoding skipped" in the step. -/
def skipped (s : State) : Action → Option Frame
  | .processor _ =>
    match s.processor, s.availableInputBuffers with
    | .encodeBuffer f .., [] => some f
    | _, _ => none
  | _ => none

def skips (s : State) (a : Action) : Bool := (skipped s a).isSome

/-- What a step does as a step of the recycler. -/
def recyclerOp (s : State) : Action → Option (Recycler.Op Nat)
  | .callback =>
    match s.callback with
    | .requestComplete r .requestComplete => some (.accept r)
    | .requestComplete r .requestCancelled => some (.leave r)
    | _ => none
  | .processor ans => (skipped s (.processor ans)).map fun f => .abandon f.request
  | .poll ans =>
    match s.poll, s.requestsToReuseQueue with
    | .reuseRequest _, r :: _ => some (.giveBack r)
    | .queueRequest r, _ =>
      if s.camera ≠ none ∧ ans.queueRequest < 0 then some (.leave r) else none
    | _, _ => none
  | .driver (.finishOutput i) => if i = 0 then none else some .reorder
  | _ => none

/-- One request more with the camera, checked request by request. -/
theorem idle_eq_cons {cfg : Config} {s t : State} {r : Nat}
    (h : ∀ x, (s.withCamera cfg).count x = (t.withCamera cfg).count x + if r = x then 1 else 0) :
    (recycler cfg s).idle = r ::ₘ (recycler cfg t).idle := by
  have perm : (s.withCamera cfg).Perm (r :: t.withCamera cfg) :=
    List.perm_iff_count.mpr fun x => by simpa [List.count_cons] using h x
  exact Multiset.coe_eq_coe.mpr perm

theorem idle_eq {cfg : Config} {s t : State}
    (h : ∀ x, (t.withCamera cfg).count x = (s.withCamera cfg).count x) :
    (recycler cfg t).idle = (recycler cfg s).idle :=
  Multiset.coe_eq_coe.mpr (List.perm_iff_count.mpr h)

/-- A step that the recycler does not see. -/
theorem recycler_eq {cfg : Config} {s t : State}
    (idle : ∀ x, (t.withCamera cfg).count x = (s.withCamera cfg).count x)
    (owed : t.requestsToReuseQueue ++ t.callback.owed = s.requestsToReuseQueue ++ s.callback.owed)
    (pending : t.encoding = s.encoding) : recycler cfg t = recycler cfg s := by
  have idle := idle_eq idle
  simp only [recycler] at idle ⊢
  rw [idle, owed, pending]

theorem MainStep.recycles {cfg : Config} {s t : State} (h : MainStep cfg s t) (phase : Phase s) :
    recycler cfg t = recycler cfg s := by
  cases h
  case startProcessor point =>
    have fresh := phase.processor_fresh point
    refine recycler_eq (fun x => ?_) rfl ?_ <;>
      simp [State.withCamera, State.encoding, ProcessorPoint.frame, MainPoint.unqueued, point,
        fresh]
  case startPoll point =>
    have fresh := phase.poll_fresh point
    refine recycler_eq (fun x => ?_) rfl ?_ <;>
      simp [State.withCamera, State.encoding, PollPoint.frame, PollPoint.request,
        MainPoint.unqueued, point, fresh]
  case queueRequest r rest point =>
    refine recycler_eq (fun x => ?_) rfl rfl
    simp [State.withCamera, MainPoint.unqueued, point, List.count_cons]
    omega
  all_goals
    refine recycler_eq (fun x => ?_) rfl rfl
    simp [State.withCamera, MainPoint.unqueued, *]

/-- The simulation of one step by the recycler. -/
abbrev Recycles (cfg : Config) : State → Action → State → Prop :=
  Simulates (fun s o t => Recycler.Step s t o) (recycler cfg) recyclerOp

theorem CallbackStep.recycles {cfg : Config} {s t : State} (h : CallbackStep s t) :
    Recycles cfg s .callback t := by
  cases h
  case cancelled r point =>
    simp only [Recycles, Simulates, recyclerOp, point]
    refine .leave r (idle_eq_cons fun x => ?_) ?_ rfl
    · simp [State.withCamera, CallbackPoint.request, point, List.count_cons]
      omega
    · simp [recycler, CallbackPoint.owed, point]
  case enqueueCompleted r point =>
    simp only [Recycles, Simulates, recyclerOp, point]
    refine .accept r (idle_eq_cons fun x => ?_) ?_ ?_
    · simp [State.withCamera, CallbackPoint.request, point, List.count_cons]
      omega
    · simp [recycler, CallbackPoint.owed, point]
    · simp [recycler, State.encoding]
  case enqueueReuse r point =>
    simp only [Recycles, Simulates, recyclerOp, point]
    refine recycler_eq (fun x => ?_) ?_ rfl <;>
      simp [State.withCamera, CallbackPoint.request, CallbackPoint.owed, point]

theorem ProcessorStep.recycles {cfg : Config} {ans : Answers} {s t : State}
    (h : ProcessorStep cfg ans s t) : Recycles cfg s (.processor ans) t := by
  cases h
  case skip f fd size ts point none =>
    simp only [Recycles, Simulates, recyclerOp, skipped, point, none]
    refine .abandon f.request
      ((s.poll.frame ++ (s.outputFinished.map (·.frame) ++ s.outputQueued.map (·.frame))).map
        (·.request)) (s.completedRequestsQueue.map (·.request)) rfl rfl ?_ ?_ <;>
      simp [recycler, State.encoding, ProcessorPoint.frame, point]
  all_goals
    simp only [Recycles, Simulates, recyclerOp, skipped, *]
    refine recycler_eq (fun x => rfl) rfl ?_
    simp [State.encoding, ProcessorPoint.frame, *]

theorem PollStep.recycles {cfg : Config} {ans : Answers} {s t : State} (h : PollStep ans s t) :
    Recycles cfg s (.poll ans) t := by
  cases h
  case dequeueReuse f r rest point queue =>
    simp only [Recycles, Simulates, recyclerOp, point, queue]
    refine .giveBack r f.request (idle_eq_cons fun x => ?_) ?_ ?_
    · simp [State.withCamera, PollPoint.request, point, List.count_cons]
      omega
    · simp [recycler, queue]
    · simp [recycler, State.encoding, PollPoint.frame, point]
  case queueRequest r camera point alive ok =>
    have accepted : ¬ ans.queueRequest < 0 := by omega
    simp only [Recycles, Simulates, recyclerOp, point, accepted, and_false, if_false]
    refine recycler_eq (fun x => ?_) rfl ?_ <;>
      simp [State.withCamera, State.encoding, PollPoint.request, PollPoint.frame, point,
        List.count_cons, add_assoc, add_comm]
  case queueRequestFails r camera point alive failed =>
    have refused : ans.queueRequest < 0 := by omega
    simp only [Recycles, Simulates, recyclerOp, point, refused, alive]
    refine .leave r (idle_eq_cons fun x => ?_) rfl ?_
    · simp [State.withCamera, PollPoint.request, point, List.count_cons]
      omega
    · simp [recycler, State.encoding, PollPoint.frame, point]
  all_goals
    simp only [Recycles, Simulates, recyclerOp, *]
    refine recycler_eq (fun x => ?_) rfl ?_ <;>
      simp [State.withCamera, State.encoding, PollPoint.request, PollPoint.frame, *]

theorem DriverStep.recycles {cfg : Config} {s t : State} {d : DriverAction}
    (h : DriverStep cfg s d t) : Recycles cfg s (.driver d) t := by
  cases h
  case finishOutput i b queued =>
    cases i with
    | zero =>
      refine recycler_eq (fun x => rfl) rfl ?_
      cases outputs : s.outputQueued with
      | nil => simp [outputs] at queued
      | cons c rest =>
        simp only [outputs, List.getElem?_cons_zero, Option.some.injEq] at queued
        simp [State.encoding, outputs, queued]
    | succ i =>
      refine .reorder rfl rfl ((List.perm_iff_count.mpr fun x => ?_).map _)
      have := count_map_eraseIdx (·.frame) queued x
      simp [State.encoding, List.count_cons]
      omega
  case encode b outputs c coding index captures queued coded free =>
    refine recycler_eq (fun x => rfl) rfl ?_
    simp [State.encoding, queued]
  all_goals exact recycler_eq (fun x => rfl) rfl rfl

theorem Transition.recycles {cfg : Config} {s t : State} {a : Action} (h : Transition cfg s a t)
    (phase : Phase s) : Recycles cfg s a t := by
  cases h with
  | main h => exact h.recycles phase
  | callback h => exact h.recycles
  | processor ans h => exact h.recycles
  | poll ans h => exact h.recycles
  | driver d h => exact h.recycles
  | output ans h => rw [h.frame]; exact recycler_eq (fun x => rfl) rfl rfl
  | complete r status idle queued allowed =>
    refine recycler_eq (fun x => ?_) ?_ rfl
    · have := (List.perm_cons_erase queued).count_eq x
      simp [State.withCamera, CallbackPoint.request, idle, List.count_cons] at this ⊢
      omega
    · simp [CallbackPoint.owed, idle]
  | tick => exact recycler_eq (fun x => rfl) rfl rfl

/-- Every request starts with the camera, and none is owed or pending. -/
theorem recycler_initial (cfg : Config) :
    recycler cfg (initial cfg) = ⟨Multiset.range cfg.requests, [], []⟩ := by
  simp [recycler, initial, State.withCamera, State.encoding, MainPoint.unqueued,
    CallbackPoint.request, CallbackPoint.owed, PollPoint.request, PollPoint.frame,
    ProcessorPoint.frame, Multiset.range]

/-- A condition on the steps of the pipeline, as a condition on the recycler's operations. -/
def Allows (E : State → Action → Prop) (o : Recycler.Op Nat) : Prop :=
  ∃ s a, E s a ∧ recyclerOp s a = some o

theorem PipelineRun.recycles {cfg : Config} {E : State → Action → Prop}
    {tr : List (State × Action)} {s : State} (run : PipelineRun cfg E tr s) :
    Recycler.Runs (Allows E) ⟨Multiset.range cfg.requests, [], []⟩
      (image (recycler cfg) recyclerOp tr) (recycler cfg s) := by
  rw [← recycler_initial cfg]
  exact run.withPhase.simulation (recycler cfg) recyclerOp
    (fun s a t ok h => (step_cases h).2.recycles ok.1)
    fun s a o ok h => ⟨s, a, ok.2, h⟩

end LibcameraStreamer
