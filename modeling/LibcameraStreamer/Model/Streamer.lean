import LibcameraStreamer.Library.Run
import LibcameraStreamer.Model.H264Encoder

/-!
# LibcameraStreamer: the threads and the pipeline

The two thread functions, the constructor from the encoder's buffer loops on and the
destructor of the main thread, and `step`, the interleaving of all threads with the camera,
the driver and the clock. Failures inside the constructor are not part of this model: its
calls succeed, as they have in every process that reaches the running pipeline.
-/
namespace LibcameraStreamer

/-- The encoder is given the time of the call (`getTimeUs()`), not the sensor's. -/
def completedRequestsProcessor (cfg : Config) (ans : Answers) (s : State) : Option State :=
  match s.processor with
  | .loopTest =>
    some { s with
      processor := if s.stopRequested then .returned else .waitForCompletedRequest }
  | .waitForCompletedRequest =>
    match waitForCompletedRequest s with
    | none => none
    | some (f, s) => some { s with processor := .lookup f }
  | .lookup f =>
    some { s with
      processor := .encodeBuffer f (cfg.fd f.request) (cfg.size f.request) s.clock }
  | .encodeBuffer .. | .queueOutput .. => encodeBuffer ans s
  | .threw .. => some { s with fault := some (.uncaught "failed to queue input to codec") }
  | .notStarted | .returned => none

/-- `push_frame` with `RTP_COPY` has copied the item's memory when it returns. -/
def encodedFramesProcessor (ans : Answers) (s : State) : Option State :=
  match s.output with
  | .loopTest =>
    some { s with output := if s.stopRequested then .returned else .waitForNextOutputItem }
  | .waitForNextOutputItem =>
    match waitForNextOutputItem s with
    | none => none
    | some (item, s) => some { s with output := .pushFrame item }
  | .pushFrame item => some { s with output := .outputDone item }
  | .outputDone _ | .deleteItem _ => outputDone ans s
  | .threw _ => some { s with fault := some (.uncaught "failed to re-queue encoded buffer") }
  | .notStarted | .returned => none

/-- The constructor and the destructor, one call a step. `join` waits for the thread. -/
def mainStep (cfg : Config) (s : State) : Option State :=
  match s.main with
  | .enqueueInputs i =>
    if i < cfg.outputCount then
      some { s with
        availableInputBuffers := s.availableInputBuffers ++ [i]
        main := .enqueueInputs (i + 1) }
    else some { s with main := .mapCapture 0 }
  | .mapCapture i =>
    if i < cfg.captureCount then
      if i < captureBuffersCount then
        some { s with
          buffers := s.buffers.set i (some ⟨cfg.mem i, cfg.length i⟩)
          main := .queueCapture i }
      else some { s with fault := some .tableOverflow }
    else some { s with main := .streamOn }
  | .queueCapture i =>
    some { s with captureQueued := s.captureQueued ++ [i], main := .mapCapture (i + 1) }
  | .streamOn => some { s with main := .startProcessor }
  | .startProcessor =>
    some { s with stopRequested := false, processor := .loopTest, main := .startOutput }
  | .startOutput =>
    some { s with output := .loopTest, main := .startCamera (List.range cfg.requests) }
  | .startCamera [] => some { s with main := .startPoll }
  | .startCamera (r :: rest) =>
    some { s with queuedRequests := s.queuedRequests ++ [r], main := .startCamera rest }
  | .startPoll => some { s with poll := .loopTest, main := .running }
  | .running => some { s with main := .setStop }
  | .setStop => some { s with stopRequested := true, main := .resetCamera }
  | .resetCamera => some { s with camera := none, main := .stopManager }
  | .stopManager => some { s with managerRunning := false, main := .joinProcessor }
  | .joinProcessor =>
    if s.processor = .returned then some { s with main := .joinOutput } else none
  | .joinOutput =>
    if s.output = .returned then some { s with main := .setEncoderStop } else none
  | .setEncoderStop => some { s with encoderStopRequested := true, main := .joinPoll }
  | .joinPoll => if s.poll = .returned then some { s with main := .destroyStream } else none
  | .destroyStream => some { s with main := .destroySession }
  | .destroySession => some { s with main := .destroyed }
  | .destroyed => none

/-- One step of the pipeline. After a fault there is none. -/
def step (cfg : Config) (s : State) (a : Action) : Option State :=
  match s.fault with
  | some _ => none
  | none =>
    match a with
    | .main => mainStep cfg s
    | .complete r status => cameraCompletes r status s
    | .callback => requestComplete s
    | .processor ans => completedRequestsProcessor cfg ans s
    | .output ans => encodedFramesProcessor ans s
    | .poll ans => pollEncoder ans s
    | .driver d => driverStep cfg d s
    | .tick us => if s.clock + us < 2 ^ 63 then some { s with clock := s.clock + us } else none

end LibcameraStreamer
