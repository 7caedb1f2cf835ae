import LibcameraStreamer.Model.Streamer

/-!
# What one step can do

For each thread, an inductive relation with one constructor per branch of its functions:
the program point and the guard under which the branch is taken, and its whole effect.
`step_cases` says that every step is one of them and `Transition.step_eq` that each of them
is a step, so later proofs never unfold `step`.
-/
namespace LibcameraStreamer

inductive MainStep (cfg : Config) (s : State) : State → Prop where
  | enqueueInput (i : Nat) (point : s.main = .enqueueInputs i) (more : i < cfg.outputCount) :
      MainStep cfg s { s with
        availableInputBuffers := s.availableInputBuffers ++ [i]
        main := .enqueueInputs (i + 1) }
  | inputsEnqueued (i : Nat) (point : s.main = .enqueueInputs i) (last : ¬ i < cfg.outputCount) :
      MainStep cfg s { s with main := .mapCapture 0 }
  | mapCapture (i : Nat) (point : s.main = .mapCapture i) (more : i < cfg.captureCount)
      (room : i < captureBuffersCount) :
      MainStep cfg s { s with
        buffers := s.buffers.set i (some ⟨cfg.mem i, cfg.length i⟩)
        main := .queueCapture i }
  | overflow (i : Nat) (point : s.main = .mapCapture i) (more : i < cfg.captureCount)
      (full : ¬ i < captureBuffersCount) :
      MainStep cfg s { s with fault := some .tableOverflow }
  | capturesMapped (i : Nat) (point : s.main = .mapCapture i) (last : ¬ i < cfg.captureCount) :
      MainStep cfg s { s with main := .streamOn }
  | queueCapture (i : Nat) (point : s.main = .queueCapture i) :
      MainStep cfg s { s with
        captureQueued := s.captureQueued ++ [i], main := .mapCapture (i + 1) }
  | streamOn (point : s.main = .streamOn) : MainStep cfg s { s with main := .startProcessor }
  | startProcessor (point : s.main = .startProcessor) :
      MainStep cfg s { s with
        stopRequested := false, processor := .loopTest, main := .startOutput }
  | startOutput (point : s.main = .startOutput) :
      MainStep cfg s { s with
        output := .loopTest, main := .startCamera (List.range cfg.requests) }
  | cameraStarted (point : s.main = .startCamera []) :
      MainStep cfg s { s with main := .startPoll }
  | queueRequest (r : Nat) (rest : List Nat) (point : s.main = .startCamera (r :: rest)) :
      MainStep cfg s { s with
        queuedRequests := s.queuedRequests ++ [r], main := .startCamera rest }
  | startPoll (point : s.main = .startPoll) :
      MainStep cfg s { s with poll := .loopTest, main := .running }
  | destructor (point : s.main = .running) : MainStep cfg s { s with main := .setStop }
  | setStop (point : s.main = .setStop) :
      MainStep cfg s { s with stopRequested := true, main := .resetCamera }
  | resetCamera (point : s.main = .resetCamera) :
      MainStep cfg s { s with camera := none, main := .stopManager }
  | stopManager (point : s.main = .stopManager) :
      MainStep cfg s { s with managerRunning := false, main := .joinProcessor }
  | joinProcessor (point : s.main = .joinProcessor) (joined : s.processor = .returned) :
      MainStep cfg s { s with main := .joinOutput }
  | joinOutput (point : s.main = .joinOutput) (joined : s.output = .returned) :
      MainStep cfg s { s with main := .setEncoderStop }
  | setEncoderStop (point : s.main = .setEncoderStop) :
      MainStep cfg s { s with encoderStopRequested := true, main := .joinPoll }
  | joinPoll (point : s.main = .joinPoll) (joined : s.poll = .returned) :
      MainStep cfg s { s with main := .destroyStream }
  | destroyStream (point : s.main = .destroyStream) :
      MainStep cfg s { s with main := .destroySession }
  | destroySession (point : s.main = .destroySession) :
      MainStep cfg s { s with main := .destroyed }

theorem mainStep_cases {cfg : Config} {s t : State} (h : mainStep cfg s = some t) :
    MainStep cfg s t := by
  unfold mainStep at h
  split at h
  case h_1 i point =>
    split at h
    · next more => cases h; exact .enqueueInput i point more
    · next last => cases h; exact .inputsEnqueued i point last
  case h_2 i point =>
    split at h
    · next more =>
      split at h
      · next room => cases h; exact .mapCapture i point more room
      · next full => cases h; exact .overflow i point more full
    · next last => cases h; exact .capturesMapped i point last
  case h_3 i point => cases h; exact .queueCapture i point
  case h_4 point => cases h; exact .streamOn point
  case h_5 point => cases h; exact .startProcessor point
  case h_6 point => cases h; exact .startOutput point
  case h_7 point => cases h; exact .cameraStarted point
  case h_8 r rest point => cases h; exact .queueRequest r rest point
  case h_9 point => cases h; exact .startPoll point
  case h_10 point => cases h; exact .destructor point
  case h_11 point => cases h; exact .setStop point
  case h_12 point => cases h; exact .resetCamera point
  case h_13 point => cases h; exact .stopManager point
  case h_14 point =>
    split at h
    · next joined => cases h; exact .joinProcessor point joined
    · contradiction
  case h_15 point =>
    split at h
    · next joined => cases h; exact .joinOutput point joined
    · contradiction
  case h_16 point => cases h; exact .setEncoderStop point
  case h_17 point =>
    split at h
    · next joined => cases h; exact .joinPoll point joined
    · contradiction
  case h_18 point => cases h; exact .destroyStream point
  case h_19 point => cases h; exact .destroySession point
  case h_20 => contradiction

inductive ProcessorStep (cfg : Config) (ans : Answers) (s : State) : State → Prop where
  | stop (point : s.processor = .loopTest) (flag : s.stopRequested = true) :
      ProcessorStep cfg ans s { s with processor := .returned }
  | wait (point : s.processor = .loopTest) (flag : s.stopRequested = false) :
      ProcessorStep cfg ans s { s with processor := .waitForCompletedRequest }
  | dequeue (f : Frame) (rest : List Frame) (point : s.processor = .waitForCompletedRequest)
      (queue : s.completedRequestsQueue = f :: rest) :
      ProcessorStep cfg ans s { s with completedRequestsQueue := rest, processor := .lookup f }
  | lookup (f : Frame) (point : s.processor = .lookup f) :
      ProcessorStep cfg ans s { s with
        processor := .encodeBuffer f (cfg.fd f.request) (cfg.size f.request) s.clock }
  | skip (f : Frame) (fd : Int) (size : Nat) (ts : Int)
      (point : s.processor = .encodeBuffer f fd size ts) (none : s.availableInputBuffers = []) :
      ProcessorStep cfg ans s { s with processor := .loopTest }
  | takeIndex (f : Frame) (fd : Int) (size : Nat) (ts : Int) (index : Nat) (rest : List Nat)
      (point : s.processor = .encodeBuffer f fd size ts)
      (queue : s.availableInputBuffers = index :: rest) :
      ProcessorStep cfg ans s { s with
        availableInputBuffers := rest, processor := .queueOutput index f fd size ts }
  | queueOutput (index : Nat) (f : Frame) (fd : Int) (size : Nat) (ts : Int)
      (point : s.processor = .queueOutput index f fd size ts) (ok : xioctl ans.replies = some 0) :
      ProcessorStep cfg ans s { s with
        outputQueued := s.outputQueued ++ [⟨index, fd, size, .ofMicros 64 ts, f⟩]
        coding := s.coding ++ [⟨.ofMicros 64 ts, f⟩]
        processor := .loopTest }
  | throw (index : Nat) (f : Frame) (fd : Int) (size : Nat) (ts : Int)
      (point : s.processor = .queueOutput index f fd size ts)
      (failed : xioctl ans.replies = some (-1)) :
      ProcessorStep cfg ans s { s with processor := .threw index f }
  | terminate (index : Nat) (f : Frame) (point : s.processor = .threw index f) :
      ProcessorStep cfg ans s { s with
        fault := some (.uncaught "failed to queue input to codec") }

theorem encodeBuffer_cases (cfg : Config) {ans : Answers} {s t : State}
    (h : encodeBuffer ans s = some t) : ProcessorStep cfg ans s t := by
  unfold encodeBuffer at h
  split at h
  · next f fd size ts point =>
    split at h
    · next none => cases h; exact .skip f fd size ts point none
    · next index rest queue => cases h; exact .takeIndex f fd size ts index rest point queue
  · next index f fd size ts point =>
    split at h
    · contradiction
    · next ret result =>
      rcases xioctl_result result with rfl | rfl
      · cases h; exact .queueOutput index f fd size ts point result
      · cases h; exact .throw index f fd size ts point result
  · contradiction

theorem completedRequestsProcessor_cases {cfg : Config} {ans : Answers} {s t : State}
    (h : completedRequestsProcessor cfg ans s = some t) : ProcessorStep cfg ans s t := by
  unfold completedRequestsProcessor at h
  split at h
  · next point =>
    cases h
    by_cases flag : s.stopRequested = true
    · rw [if_pos flag]; exact .stop point flag
    · rw [if_neg flag]; exact .wait point (by simpa using flag)
  · next point =>
    cases queue : s.completedRequestsQueue with
    | nil => rw [waitForCompletedRequest, queue] at h; contradiction
    | cons f rest =>
      rw [waitForCompletedRequest, queue] at h
      cases h
      exact .dequeue f rest point queue
  · next f point => cases h; exact .lookup f point
  · exact encodeBuffer_cases cfg h
  · exact encodeBuffer_cases cfg h
  · next index f point => cases h; exact .terminate index f point
  · contradiction
  · contradiction

inductive OutputStep (ans : Answers) (s : State) : State → Prop where
  | stop (point : s.output = .loopTest) (flag : s.stopRequested = true) :
      OutputStep ans s { s with output := .returned }
  | wait (point : s.output = .loopTest) (flag : s.stopRequested = false) :
      OutputStep ans s { s with output := .waitForNextOutputItem }
  | dequeue (item : OutputItem) (rest : List OutputItem)
      (point : s.output = .waitForNextOutputItem) (queue : s.outputItemsQueue = item :: rest) :
      OutputStep ans s { s with outputItemsQueue := rest, output := .pushFrame item }
  | pushFrame (item : OutputItem) (point : s.output = .pushFrame item) :
      OutputStep ans s { s with output := .outputDone item }
  | requeue (item : OutputItem) (point : s.output = .outputDone item)
      (ok : xioctl ans.replies = some 0) :
      OutputStep ans s { s with
        captureQueued := s.captureQueued ++ [item.index], output := .deleteItem item }
  | throw (item : OutputItem) (point : s.output = .outputDone item)
      (failed : xioctl ans.replies = some (-1)) :
      OutputStep ans s { s with output := .threw item }
  | delete (item : OutputItem) (point : s.output = .deleteItem item) :
      OutputStep ans s { s with output := .loopTest }
  | terminate (item : OutputItem) (point : s.output = .threw item) :
      OutputStep ans s { s with
        fault := some (.uncaught "failed to re-queue encoded buffer") }

theorem outputDone_cases {ans : Answers} {s t : State} (h : outputDone ans s = some t) :
    OutputStep ans s t := by
  unfold outputDone at h
  split at h
  · next item point =>
    split at h
    · contradiction
    · next ret result =>
      rcases xioctl_result result with rfl | rfl
      · cases h; exact .requeue item point result
      · cases h; exact .throw item point result
  · next item point => cases h; exact .delete item point
  · contradiction

theorem encodedFramesProcessor_cases {ans : Answers} {s t : State}
    (h : encodedFramesProcessor ans s = some t) : OutputStep ans s t := by
  unfold encodedFramesProcessor at h
  split at h
  · next point =>
    cases h
    by_cases flag : s.stopRequested = true
    · rw [if_pos flag]; exact .stop point flag
    · rw [if_neg flag]; exact .wait point (by simpa using flag)
  · next point =>
    cases queue : s.outputItemsQueue with
    | nil => rw [waitForNextOutputItem, queue] at h; contradiction
    | cons item rest =>
      rw [waitForNextOutputItem, queue] at h
      cases h
      exact .dequeue item rest point queue
  · next item point => cases h; exact .pushFrame item point
  · exact outputDone_cases h
  · exact outputDone_cases h
  · next item point => cases h; exact .terminate item point
  · contradiction
  · contradiction

inductive PollStep (ans : Answers) (s : State) : State → Prop where
  | stop (point : s.poll = .loopTest) (flag : s.encoderStopRequested = true) :
      PollStep ans s { s with poll := .returned }
  | wait (point : s.poll = .loopTest) (flag : s.encoderStopRequested = false) :
      PollStep ans s { s with poll := .poll }
  | nothing (point : s.poll = .poll)
      (result : ans.pollResult = .timeout ∨ ans.pollResult = .failure .eintr) :
      PollStep ans s { s with poll := .loopTest }
  | throw (code : Int) (point : s.poll = .poll)
      (result : ans.pollResult = .failure (.other code)) :
      PollStep ans s { s with
        poll := .threw ("unexpected errno " ++ toString code ++ " from poll") }
  | pollIn (point : s.poll = .poll) (result : ans.pollResult = .pollIn)
      (ready : s.captureFinished ≠ []) :
      PollStep ans s { s with poll := .dequeueOutput }
  | dequeueOutput (b : OutputBuffer) (rest : List OutputBuffer) (point : s.poll = .dequeueOutput)
      (ok : xioctl ans.replies = some 0) (finished : s.outputFinished = b :: rest) :
      PollStep ans s { s with outputFinished := rest, poll := .enqueueInput b }
  | dequeueOutputFails (point : s.poll = .dequeueOutput)
      (failed : xioctl ans.replies = some (-1)) :
      PollStep ans s { s with poll := .dequeueCapture }
  | enqueueInput (b : OutputBuffer) (point : s.poll = .enqueueInput b) :
      PollStep ans s { s with
        availableInputBuffers := s.availableInputBuffers ++ [b.index]
        poll := .reuseRequest b.frame }
  | dequeueReuse (f : Frame) (r : Nat) (rest : List Nat) (point : s.poll = .reuseRequest f)
      (queue : s.requestsToReuseQueue = r :: rest) :
      PollStep ans s { s with requestsToReuseQueue := rest, poll := .queueRequest r }
  | nullCamera (r : Nat) (point : s.poll = .queueRequest r) (null : s.camera = none) :
      PollStep ans s { s with fault := some .nullCamera }
  | queueRequest (r : Nat) (camera : Camera) (point : s.poll = .queueRequest r)
      (alive : s.camera = some camera) (ok : 0 ≤ ans.queueRequest) :
      PollStep ans s { s with
        queuedRequests := s.queuedRequests ++ [r], poll := .dequeueCapture }
  | queueRequestFails (r : Nat) (camera : Camera) (point : s.poll = .queueRequest r)
      (alive : s.camera = some camera) (failed : ¬ 0 ≤ ans.queueRequest) :
      PollStep ans s { s with poll := .dequeueCapture }
  | dequeueCapture (b : CaptureBuffer) (rest : List CaptureBuffer) (desc : BufferDescription)
      (point : s.poll = .dequeueCapture) (ok : xioctl ans.replies = some 0)
      (finished : s.captureFinished = b :: rest) (entry : s.buffers[b.index]? = some (some desc)) :
      PollStep ans s { s with
        captureFinished := rest
        allocations := s.allocations + 1
        poll := .enqueueItem (newOutputItem s.allocations desc b) }
  | tableOverflow (b : CaptureBuffer) (rest : List CaptureBuffer)
      (point : s.poll = .dequeueCapture) (ok : xioctl ans.replies = some 0)
      (finished : s.captureFinished = b :: rest) (entry : s.buffers[b.index]? = none) :
      PollStep ans s { s with fault := some .tableOverflow }
  | tableUnset (b : CaptureBuffer) (rest : List CaptureBuffer)
      (point : s.poll = .dequeueCapture) (ok : xioctl ans.replies = some 0)
      (finished : s.captureFinished = b :: rest) (entry : s.buffers[b.index]? = some none) :
      PollStep ans s { s with fault := some .tableUnset }
  | dequeueCaptureFails (point : s.poll = .dequeueCapture)
      (failed : xioctl ans.replies = some (-1)) :
      PollStep ans s { s with poll := .loopTest }
  | enqueueItem (item : OutputItem) (point : s.poll = .enqueueItem item) :
      PollStep ans s { s with
        outputItemsQueue := s.outputItemsQueue ++ [item], poll := .loopTest }
  | terminate (what : String) (point : s.poll = .threw what) :
      PollStep ans s { s with fault := some (.uncaught what) }

theorem reuseRequest_cases {ans : Answers} {s t : State} (h : reuseRequest ans s = some t) :
    PollStep ans s t := by
  unfold reuseRequest at h
  split at h
  · next f point =>
    split at h
    · contradiction
    · next r rest queue => cases h; exact .dequeueReuse f r rest point queue
  · next r point =>
    split at h
    · next null => cases h; exact .nullCamera r point null
    · next camera alive =>
      split at h
      · next ok => cases h; exact .queueRequest r camera point alive ok
      · next failed => cases h; exact .queueRequestFails r camera point alive failed
  · contradiction

theorem pollReadyToReuseOutputBuffers_cases {ans : Answers} {s t : State}
    (h : pollReadyToReuseOutputBuffers ans s = some t) : PollStep ans s t := by
  unfold pollReadyToReuseOutputBuffers at h
  split at h
  · next point =>
    split at h
    · contradiction
    · next ret result =>
      rcases xioctl_result result with rfl | rfl
      · rw [if_pos rfl] at h
        split at h
        · contradiction
        · next b rest finished => cases h; exact .dequeueOutput b rest point result finished
      · cases h; exact .dequeueOutputFails point result
  · next b point => cases h; exact .enqueueInput b point
  · exact reuseRequest_cases h
  · exact reuseRequest_cases h
  · contradiction

theorem pollReadyToProcessCaptureBuffers_cases {ans : Answers} {s t : State}
    (h : pollReadyToProcessCaptureBuffers ans s = some t) : PollStep ans s t := by
  unfold pollReadyToProcessCaptureBuffers at h
  split at h
  · next point =>
    split at h
    · contradiction
    · next ret result =>
      rcases xioctl_result result with rfl | rfl
      · rw [if_pos rfl] at h
        split at h
        · contradiction
        · next b rest finished =>
          split at h
          · next entry => cases h; exact .tableOverflow b rest point result finished entry
          · next entry => cases h; exact .tableUnset b rest point result finished entry
          · next desc entry =>
            cases h
            exact .dequeueCapture b rest desc point result finished entry
      · cases h; exact .dequeueCaptureFails point result
  · next item point => cases h; exact .enqueueItem item point
  · contradiction

theorem pollEncoder_cases {ans : Answers} {s t : State} (h : pollEncoder ans s = some t) :
    PollStep ans s t := by
  unfold pollEncoder at h
  split at h
  · next point =>
    cases h
    by_cases flag : s.encoderStopRequested = true
    · rw [if_pos flag]; exact .stop point flag
    · rw [if_neg flag]; exact .wait point (by simpa using flag)
  · next point =>
    split at h
    · next result => cases h; exact .nothing point (.inr result)
    · next code result => cases h; exact .throw code point result
    · next result => cases h; exact .nothing point (.inl result)
    · next result =>
      split at h
      · contradiction
      · next finished => cases h; exact .pollIn point result (by simp [finished])
  · exact pollReadyToReuseOutputBuffers_cases h
  · exact pollReadyToReuseOutputBuffers_cases h
  · exact pollReadyToReuseOutputBuffers_cases h
  · exact pollReadyToReuseOutputBuffers_cases h
  · exact pollReadyToProcessCaptureBuffers_cases h
  · exact pollReadyToProcessCaptureBuffers_cases h
  · next what point => cases h; exact .terminate what point
  · contradiction
  · contradiction

/-! ## The driver and the whole pipeline -/

inductive DriverStep (cfg : Config) (s : State) : DriverAction → State → Prop where
  | finishOutput (i : Nat) (b : OutputBuffer) (queued : s.outputQueued[i]? = some b) :
      DriverStep cfg s (.finishOutput i) { s with
        outputQueued := s.outputQueued.eraseIdx i
        outputFinished := s.outputFinished ++ [b] }
  | produceCapture (i j bytesUsed : Nat) (keyframe : Bool) (c : CodedFrame) (index : Nat)
      (coded : s.coding[i]? = some c) (free : s.captureQueued[j]? = some index) :
      DriverStep cfg s (.produceCapture i j bytesUsed keyframe) { s with
        coding := s.coding.eraseIdx i
        captureQueued := s.captureQueued.eraseIdx j
        captureFinished := s.captureFinished ++
          [⟨index, bytesUsed, cfg.length index, keyframe, c.timestamp, c.frame⟩] }
  | drop (i : Nat) (c : CodedFrame) (coded : s.coding[i]? = some c) :
      DriverStep cfg s (.drop i) { s with coding := s.coding.eraseIdx i }
  | encode (bytesUsed : Nat) (keyframe : Bool) (b : OutputBuffer) (outputs : List OutputBuffer)
      (c : CodedFrame) (coding : List CodedFrame) (index : Nat) (captures : List Nat)
      (queued : s.outputQueued = b :: outputs) (coded : s.coding = c :: coding)
      (free : s.captureQueued = index :: captures) :
      DriverStep cfg s (.encode bytesUsed keyframe) { s with
        outputQueued := outputs
        outputFinished := s.outputFinished ++ [b]
        coding := coding
        captureQueued := captures
        captureFinished := s.captureFinished ++
          [⟨index, bytesUsed, cfg.length index, keyframe, c.timestamp, c.frame⟩] }

theorem driverStep_cases {cfg : Config} {d : DriverAction} {s t : State}
    (h : driverStep cfg d s = some t) : DriverStep cfg s d t := by
  unfold driverStep at h
  split at h
  · next i =>
    split at h
    · contradiction
    · next b queued => cases h; exact .finishOutput i b queued
  · next i j bytesUsed keyframe =>
    split at h
    · next c index coded free =>
      cases h
      exact .produceCapture i j bytesUsed keyframe c index coded free
    · contradiction
  · next i =>
    split at h
    · contradiction
    · next c coded => cases h; exact .drop i c coded
  · next bytesUsed keyframe =>
    split at h
    · next b outputs c coding index captures queued coded free =>
      cases h
      exact .encode bytesUsed keyframe b outputs c coding index captures queued coded free
    · contradiction

inductive Transition (cfg : Config) (s : State) : Action → State → Prop where
  | main {t : State} (h : MainStep cfg s t) : Transition cfg s .main t
  | complete (r : Nat) (status : RequestStatus) (idle : s.callback = .idle)
      (queued : r ∈ s.queuedRequests)
      (allowed : status = .requestCancelled ∨ s.managerRunning = true) :
      Transition cfg s (.complete r status) { s with
        queuedRequests := s.queuedRequests.erase r
        callback := .requestComplete r status }
  | callback {t : State} (h : CallbackStep s t) : Transition cfg s .callback t
  | processor (ans : Answers) {t : State} (h : ProcessorStep cfg ans s t) :
      Transition cfg s (.processor ans) t
  | output (ans : Answers) {t : State} (h : OutputStep ans s t) : Transition cfg s (.output ans) t
  | poll (ans : Answers) {t : State} (h : PollStep ans s t) : Transition cfg s (.poll ans) t
  | driver (d : DriverAction) {t : State} (h : DriverStep cfg s d t) :
      Transition cfg s (.driver d) t
  | tick (us : Nat) (bound : s.clock + us < 2 ^ 63) :
      Transition cfg s (.tick us) { s with clock := s.clock + us }

/-- Every step is one of the branches listed above, taken before any fault. -/
theorem step_cases {cfg : Config} {s t : State} {a : Action} (h : step cfg s a = some t) :
    s.fault = none ∧ Transition cfg s a t := by
  unfold step at h
  split at h
  · contradiction
  · next alive =>
    refine ⟨alive, ?_⟩
    cases a with
    | main => exact .main (mainStep_cases h)
    | complete r status =>
      obtain ⟨idle, queued, allowed, rfl⟩ := cameraCompletes_cases h
      exact .complete r status idle queued allowed
    | callback => exact .callback (requestComplete_cases h)
    | processor ans => exact .processor ans (completedRequestsProcessor_cases h)
    | output ans => exact .output ans (encodedFramesProcessor_cases h)
    | poll ans => exact .poll ans (pollEncoder_cases h)
    | driver d => exact .driver d (driverStep_cases h)
    | tick us =>
      simp only at h
      split at h
      · next bound => cases h; exact .tick us bound
      · contradiction

/-! ## Every branch can be taken -/

theorem MainStep.step_eq {cfg : Config} {s t : State} (h : MainStep cfg s t) :
    mainStep cfg s = some t := by
  cases h <;> simp [mainStep, *]

theorem CallbackStep.step_eq {s t : State} (h : CallbackStep s t) :
    requestComplete s = some t := by
  cases h <;> simp [requestComplete, *]

theorem ProcessorStep.step_eq {cfg : Config} {ans : Answers} {s t : State}
    (h : ProcessorStep cfg ans s t) : completedRequestsProcessor cfg ans s = some t := by
  cases h <;> simp [completedRequestsProcessor, waitForCompletedRequest, encodeBuffer, *]

theorem OutputStep.step_eq {ans : Answers} {s t : State} (h : OutputStep ans s t) :
    encodedFramesProcessor ans s = some t := by
  cases h <;> simp [encodedFramesProcessor, waitForNextOutputItem, outputDone, *]

theorem PollStep.step_eq {ans : Answers} {s t : State} (h : PollStep ans s t) :
    pollEncoder ans s = some t := by
  cases h
  case nothing point result => rcases result with result | result <;> simp [pollEncoder, *]
  case pollIn point result ready =>
    obtain ⟨b, rest, finished⟩ := List.exists_cons_of_ne_nil ready
    simp [pollEncoder, point, result, finished]
  all_goals
    simp [pollEncoder, pollReadyToReuseOutputBuffers, reuseRequest,
      pollReadyToProcessCaptureBuffers, *]

theorem DriverStep.step_eq {cfg : Config} {s t : State} {d : DriverAction}
    (h : DriverStep cfg s d t) : driverStep cfg d s = some t := by
  cases h <;> simp [driverStep, *]

/-- The relation lists the branches of `step` and no others. -/
theorem Transition.step_eq {cfg : Config} {s t : State} {a : Action} (h : Transition cfg s a t)
    (alive : s.fault = none) : step cfg s a = some t := by
  cases h with
  | main h => simp [step, alive, h.step_eq]
  | complete r status idle queued allowed =>
    simp [step, alive, cameraCompletes, idle, queued, allowed]
  | callback h => simp [step, alive, h.step_eq]
  | processor ans h => simp [step, alive, h.step_eq]
  | output ans h => simp [step, alive, h.step_eq]
  | poll ans h => simp [step, alive, h.step_eq]
  | driver d h => simp [step, alive, h.step_eq]
  | tick us bound => simpa [step, alive] using bound

theorem Transition.unique {cfg : Config} {s t u : State} {a : Action} (h : Transition cfg s a t)
    (alive : s.fault = none) (same : step cfg s a = some u) : t = u :=
  Option.some.inj ((h.step_eq alive).symm.trans same)

/-! ## What a thread leaves unchanged -/

theorem MainStep.frame {cfg : Config} {s t : State} (h : MainStep cfg s t) :
    t = { s with
      main := t.main, stopRequested := t.stopRequested, processor := t.processor
      output := t.output, camera := t.camera, managerRunning := t.managerRunning
      queuedRequests := t.queuedRequests, encoderStopRequested := t.encoderStopRequested
      poll := t.poll, availableInputBuffers := t.availableInputBuffers, buffers := t.buffers
      captureQueued := t.captureQueued, fault := t.fault } := by
  cases h <;> rfl

theorem CallbackStep.frame {s t : State} (h : CallbackStep s t) :
    t = { s with
      callback := t.callback, completedRequestsQueue := t.completedRequestsQueue
      requestsToReuseQueue := t.requestsToReuseQueue, completions := t.completions } := by
  cases h <;> rfl

theorem ProcessorStep.frame {cfg : Config} {ans : Answers} {s t : State}
    (h : ProcessorStep cfg ans s t) :
    t = { s with
      processor := t.processor, completedRequestsQueue := t.completedRequestsQueue
      availableInputBuffers := t.availableInputBuffers, outputQueued := t.outputQueued
      coding := t.coding, fault := t.fault } := by
  cases h <;> rfl

theorem OutputStep.frame {ans : Answers} {s t : State} (h : OutputStep ans s t) :
    t = { s with
      output := t.output, outputItemsQueue := t.outputItemsQueue
      captureQueued := t.captureQueued, fault := t.fault } := by
  cases h <;> rfl

theorem PollStep.frame {ans : Answers} {s t : State} (h : PollStep ans s t) :
    t = { s with
      poll := t.poll, outputFinished := t.outputFinished
      availableInputBuffers := t.availableInputBuffers
      requestsToReuseQueue := t.requestsToReuseQueue, queuedRequests := t.queuedRequests
      captureFinished := t.captureFinished, allocations := t.allocations
      outputItemsQueue := t.outputItemsQueue, fault := t.fault } := by
  cases h <;> rfl

theorem DriverStep.frame {cfg : Config} {s t : State} {d : DriverAction}
    (h : DriverStep cfg s d t) :
    t = { s with
      outputQueued := t.outputQueued, outputFinished := t.outputFinished, coding := t.coding
      captureQueued := t.captureQueued, captureFinished := t.captureFinished } := by
  cases h <;> rfl

end LibcameraStreamer
