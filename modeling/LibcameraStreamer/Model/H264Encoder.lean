import LibcameraStreamer.Model.CameraWrapper

/-!
# H264Encoder and the V4L2 driver

`EncodeBuffer` runs on the thread of `completedRequestsProcessor`, `OutputDone` on that of
`encodedFramesProcessor`, and `pollEncoder` on a thread of its own. The device is opened
without `O_NONBLOCK`: a `VIDIOC_DQBUF` that succeeds needs a finished buffer.

The driver finishes OUTPUT buffers and writes CAPTURE buffers in steps of its own. Which of
its steps a run may contain is left to the environment condition of the run.
-/
namespace LibcameraStreamer

/-! ## The driver -/

def driverStep (cfg : Config) (d : DriverAction) (s : State) : Option State :=
  match d with
  | .finishOutput i =>
    match s.outputQueued[i]? with
    | none => none
    | some b =>
      some { s with
        outputQueued := s.outputQueued.eraseIdx i
        outputFinished := s.outputFinished ++ [b] }
  | .produceCapture i j bytesUsed keyframe =>
    match s.coding[i]?, s.captureQueued[j]? with
    | some c, some index =>
      some { s with
        coding := s.coding.eraseIdx i
        captureQueued := s.captureQueued.eraseIdx j
        captureFinished := s.captureFinished ++
          [⟨index, bytesUsed, cfg.length index, keyframe, c.timestamp, c.frame⟩] }
    | _, _ => none
  | .drop i =>
    match s.coding[i]? with
    | none => none
    | some _ => some { s with coding := s.coding.eraseIdx i }
  | .encode bytesUsed keyframe =>
    match s.outputQueued, s.coding, s.captureQueued with
    | b :: outputs, c :: coding, index :: captures =>
      some { s with
        outputQueued := outputs
        outputFinished := s.outputFinished ++ [b]
        coding := coding
        captureQueued := captures
        captureFinished := s.captureFinished ++
          [⟨index, bytesUsed, cfg.length index, keyframe, c.timestamp, c.frame⟩] }
    | _, _, _ => none

/-! ## The calls of the two streamer threads -/

def encodeBuffer (ans : Answers) (s : State) : Option State :=
  match s.processor with
  | .encodeBuffer f fd size timestampUs =>
    match s.availableInputBuffers with
    | [] => some { s with processor := .loopTest }
    | index :: rest =>
      some { s with
        availableInputBuffers := rest
        processor := .queueOutput index f fd size timestampUs }
  | .queueOutput index f fd size timestampUs =>
    match xioctl ans.replies with
    | none => none
    | some ret =>
      if ret < 0 then some { s with processor := .threw index f }
      else some { s with
        outputQueued := s.outputQueued ++ [⟨index, fd, size, .ofMicros 64 timestampUs, f⟩]
        coding := s.coding ++ [⟨.ofMicros 64 timestampUs, f⟩]
        processor := .loopTest }
  | _ => none

def waitForNextOutputItem (s : State) : Option (OutputItem × State) :=
  match s.outputItemsQueue with
  | [] => none
  | item :: rest => some (item, { s with outputItemsQueue := rest })

def outputDone (ans : Answers) (s : State) : Option State :=
  match s.output with
  | .outputDone item =>
    match xioctl ans.replies with
    | none => none
    | some ret =>
      if ret < 0 then some { s with output := .threw item }
      else some { s with
        captureQueued := s.captureQueued ++ [item.index]
        output := .deleteItem item }
  | .deleteItem _ => some { s with output := .loopTest }
  | _ => none

/-! ## The poll thread -/

def pollReadyToReuseOutputBuffers (ans : Answers) (s : State) : Option State :=
  match s.poll with
  | .dequeueOutput =>
    match xioctl ans.replies with
    | none => none
    | some ret =>
      if ret = 0 then
        match s.outputFinished with
        | [] => none
        | b :: rest => some { s with outputFinished := rest, poll := .enqueueInput b }
      else some { s with poll := .dequeueCapture }
  | .enqueueInput b =>
    some { s with
      availableInputBuffers := s.availableInputBuffers ++ [b.index]
      poll := .reuseRequest b.frame }
  | .reuseRequest _ | .queueRequest _ => reuseRequest ans s
  | _ => none

/-- `new OutputItem()` and the assignments to its fields. -/
def newOutputItem (address : Nat) (desc : BufferDescription) (b : CaptureBuffer) :
    OutputItem where
  address := address
  mem := desc.mem
  bytesUsed := b.bytesUsed
  length := b.length
  index := b.index
  keyframe := b.keyframe
  timestampUs := b.timestamp.toMicros
  frame := b.frame

def pollReadyToProcessCaptureBuffers (ans : Answers) (s : State) : Option State :=
  match s.poll with
  | .dequeueCapture =>
    match xioctl ans.replies with
    | none => none
    | some ret =>
      if ret = 0 then
        match s.captureFinished with
        | [] => none
        | b :: rest =>
          match s.buffers[b.index]? with
          | none => some { s with fault := some .tableOverflow }
          | some none => some { s with fault := some .tableUnset }
          | some (some desc) =>
            some { s with
              captureFinished := rest
              allocations := s.allocations + 1
              poll := .enqueueItem (newOutputItem s.allocations desc b) }
      else some { s with poll := .loopTest }
  | .enqueueItem item =>
    some { s with outputItemsQueue := s.outputItemsQueue ++ [item], poll := .loopTest }
  | _ => none

/-- POLLIN is raised for a finished CAPTURE buffer. -/
def pollEncoder (ans : Answers) (s : State) : Option State :=
  match s.poll with
  | .loopTest => some { s with poll := if s.encoderStopRequested then .returned else .poll }
  | .poll =>
    match ans.pollResult with
    | .failure .eintr => some { s with poll := .loopTest }
    | .failure (.other code) =>
      some { s with poll := .threw ("unexpected errno " ++ toString code ++ " from poll") }
    | .timeout => some { s with poll := .loopTest }
    | .pollIn =>
      match s.captureFinished with
      | [] => none
      | _ :: _ => some { s with poll := .dequeueOutput }
  | .dequeueOutput | .enqueueInput _ | .reuseRequest _ | .queueRequest _ =>
    pollReadyToReuseOutputBuffers ans s
  | .dequeueCapture | .enqueueItem _ => pollReadyToProcessCaptureBuffers ans s
  | .threw what => some { s with fault := some (.uncaught what) }
  | .notStarted | .returned => none

end LibcameraStreamer
