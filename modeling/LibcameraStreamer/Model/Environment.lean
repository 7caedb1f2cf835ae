import LibcameraStreamer.Model.Transition

/-!
# Runs of the pipeline and assumptions on their steps

A run of the pipeline starts in the encoder's constructor. What a result assumes about the
driver, the camera and the calls is a condition on the single steps of the run.
-/
namespace LibcameraStreamer
open Library

/-- A call answered so fails, or is given up by `xioctl`. -/
def Answers.fails (ans : Answers) : Bool :=
  xioctl ans.replies == some (-1) || ans.queueRequest < 0 ||
    match ans.pollResult with
    | .failure (.other _) => true
    | _ => false

/-- Some call made in the step fails. -/
def Action.fails : Action → Bool
  | .processor ans | .output ans | .poll ans => ans.fails
  | _ => false

/-- No call fails. -/
abbrev Works (_ : State) (a : Action) : Prop := a.fails = false

/-- The camera reports a request as cancelled. -/
def Action.cancels : Action → Bool
  | .complete _ .requestCancelled => true
  | _ => false

/-- The driver finishes an OUTPUT buffer before one that was queued earlier. -/
def Action.overtakesOutput : Action → Bool
  | .driver (.finishOutput i) => i != 0
  | _ => false

/-- The driver writes a frame before an earlier one, or drops a frame. -/
def Action.overtakesCapture : Action → Bool
  | .driver (.produceCapture i _ _ _) => i != 0
  | .driver (.drop _) => true
  | _ => false

/-- The driver finishes one side of a frame without the other. -/
def Action.unpaired : Action → Bool
  | .driver (.encode _ _) => false
  | .driver _ => true
  | _ => false

/-- The main thread enters the destructor. -/
def startsShutdown (s : State) (a : Action) : Bool := a == .main && s.main == .running

/-- A run of the pipeline from the encoder's constructor. -/
abbrev PipelineRun (cfg : Config) (E : State → Action → Prop) (tr : List (State × Action))
    (s : State) : Prop :=
  Run (Steps (step cfg)) E (initial cfg) tr s

/-! ## Concrete runs -/

/-- A configuration with `n` requests, `m` OUTPUT buffers and `c` CAPTURE buffers. -/
def Config.sample (n m c : Nat) : Config where
  cameraId := "/base/soc/i2c0mux/i2c@1/imx219@10"
  requests := n
  outputCount := m
  captureCount := c
  fd r := 20 + r
  size _ := 1382400
  mem i := 524288 * (i + 1)
  length _ := 524288
  fd_injective r _ q _ h := by omega

/-- The main thread from the encoder's constructor to the running pipeline. -/
def startUp (cfg : Config) : List Action :=
  List.replicate (cfg.outputCount + 2 * cfg.captureCount + cfg.requests + 7) .main

/-- The camera completes request `r`, with both enqueues. -/
def capture (r : Nat) : List Action := [.complete r .requestComplete, .callback, .callback]

/-- One round of `completedRequestsProcessor` that queues a frame to the encoder. -/
def encodeRound : List Action := List.replicate 5 (.processor {})

/-- One round of `pollEncoder` with POLLIN. -/
def pollRound : List Action := List.replicate 8 (.poll {})

/-- One round of `encodedFramesProcessor`. -/
def outputRound : List Action := List.replicate 5 (.output {})

/-- Performing a list of actions gives a run; what its last state satisfies is decided. -/
theorem exists_pipelineRun (cfg : Config) (E : State → Action → Prop)
    [∀ s a, Decidable (E s a)] (as : List Action) (P : State → Prop) [DecidablePred P]
    (h : (exec (step cfg) E (initial cfg) as).any (fun s => decide (P s)) = true) :
    ∃ tr s, PipelineRun cfg E tr s ∧ P s := by
  obtain ⟨tr, s, run, hs⟩ := exists_run_of_exec_any h
  exact ⟨tr, s, run, of_decide_eq_true hs⟩

/-- The same with what its trace satisfies. -/
theorem exists_pipelineRun_trace (cfg : Config) (E : State → Action → Prop)
    [∀ s a, Decidable (E s a)] (as : List Action) (P : List (State × Action) → State → Prop)
    [∀ tr s, Decidable (P tr s)]
    (h : (execTrace (step cfg) E (initial cfg) as).any (fun x => decide (P x.1 x.2)) = true) :
    ∃ tr s, PipelineRun cfg E tr s ∧ P tr s := by
  obtain ⟨tr, s, run, hs⟩ := exists_run_of_execTrace_any h
  exact ⟨tr, s, run, of_decide_eq_true hs⟩

end LibcameraStreamer
