import LibcameraStreamer.Model.Streamer

/-!
# When a thread can move

Before a fault a thread has a step unless it waits: in `wait_dequeue` on an empty queue, in a
blocking `VIDIOC_DQBUF` without a finished buffer, or in `join`.
-/
namespace LibcameraStreamer

variable {cfg : Config} {s : State}

theorem main_enabled (alive : s.fault = none) (running : s.main ≠ .destroyed)
    (processor : s.main = .joinProcessor → s.processor = .returned)
    (output : s.main = .joinOutput → s.output = .returned)
    (poll : s.main = .joinPoll → s.poll = .returned) : ∃ t, step cfg s .main = some t := by
  simp only [step, alive]
  cases point : s.main with
  | enqueueInputs i => by_cases more : i < cfg.outputCount <;> simp [mainStep, point, more]
  | mapCapture i =>
    by_cases more : i < cfg.captureCount <;> by_cases room : i < captureBuffersCount <;>
      simp [mainStep, point, more, room]
  | startCamera rest => cases rest <;> simp [mainStep, point]
  | joinProcessor => simp [mainStep, point, processor point]
  | joinOutput => simp [mainStep, point, output point]
  | joinPoll => simp [mainStep, point, poll point]
  | destroyed => contradiction
  | queueCapture | streamOn | startProcessor | startOutput | startPoll | running | setStop
  | resetCamera | stopManager | setEncoderStop | destroyStream | destroySession =>
    simp [mainStep, point]

theorem complete_enabled (alive : s.fault = none) (idle : s.callback = .idle) {r : Nat}
    (queued : r ∈ s.queuedRequests) (manager : s.managerRunning = true) :
    ∃ t, step cfg s (.complete r .requestComplete) = some t := by
  simp [step, alive, cameraCompletes, idle, queued, manager]

theorem callback_enabled (alive : s.fault = none) (busy : s.callback ≠ .idle) :
    ∃ t, step cfg s .callback = some t := by
  simp only [step, alive]
  unfold requestComplete
  split
  · contradiction
  all_goals exact ⟨_, rfl⟩

theorem processor_enabled (alive : s.fault = none) (started : s.processor ≠ .notStarted)
    (running : s.processor ≠ .returned)
    (input : s.processor = .waitForCompletedRequest → s.completedRequestsQueue ≠ []) :
    ∃ t, step cfg s (.processor {}) = some t := by
  simp only [step, alive]
  cases point : s.processor with
  | notStarted | returned => contradiction
  | waitForCompletedRequest =>
    cases queue : s.completedRequestsQueue with
    | nil => exact absurd queue (input point)
    | cons f rest => simp [completedRequestsProcessor, waitForCompletedRequest, point, queue]
  | encodeBuffer f fd size ts =>
    cases queue : s.availableInputBuffers <;>
      simp [completedRequestsProcessor, encodeBuffer, point, queue]
  | queueOutput index f fd size ts =>
    simp [completedRequestsProcessor, encodeBuffer, point, xioctl, xioctlLoop]
  | loopTest | lookup | threw => simp [completedRequestsProcessor, point]

theorem output_enabled (alive : s.fault = none) (started : s.output ≠ .notStarted)
    (running : s.output ≠ .returned)
    (input : s.output = .waitForNextOutputItem → s.outputItemsQueue ≠ []) :
    ∃ t, step cfg s (.output {}) = some t := by
  simp only [step, alive]
  cases point : s.output with
  | notStarted | returned => contradiction
  | waitForNextOutputItem =>
    cases queue : s.outputItemsQueue with
    | nil => exact absurd queue (input point)
    | cons item rest => simp [encodedFramesProcessor, waitForNextOutputItem, point, queue]
  | outputDone item => simp [encodedFramesProcessor, outputDone, point, xioctl, xioctlLoop]
  | loopTest | pushFrame | deleteItem | threw => simp [encodedFramesProcessor, outputDone, point]

theorem poll_enabled (alive : s.fault = none) (started : s.poll ≠ .notStarted)
    (running : s.poll ≠ .returned)
    (captures : s.poll = .poll ∨ s.poll = .dequeueCapture → s.captureFinished ≠ [])
    (outputs : s.poll = .dequeueOutput → s.outputFinished ≠ [])
    (requests : ∀ f, s.poll = .reuseRequest f → s.requestsToReuseQueue ≠ []) :
    ∃ t, step cfg s (.poll {}) = some t := by
  simp only [step, alive]
  cases point : s.poll with
  | notStarted | returned => contradiction
  | poll =>
    cases finished : s.captureFinished with
    | nil => exact absurd finished (captures (.inl point))
    | cons b rest => simp [pollEncoder, point, finished]
  | dequeueOutput =>
    cases finished : s.outputFinished with
    | nil => exact absurd finished (outputs point)
    | cons b rest =>
      simp [pollEncoder, pollReadyToReuseOutputBuffers, point, finished, xioctl, xioctlLoop]
  | reuseRequest f =>
    cases queue : s.requestsToReuseQueue with
    | nil => exact absurd queue (requests f point)
    | cons r rest => simp [pollEncoder, pollReadyToReuseOutputBuffers, reuseRequest, point, queue]
  | queueRequest r =>
    cases camera : s.camera <;>
      simp [pollEncoder, pollReadyToReuseOutputBuffers, reuseRequest, point, camera]
  | dequeueCapture =>
    cases finished : s.captureFinished with
    | nil => exact absurd finished (captures (.inr point))
    | cons b rest =>
      cases entry : s.buffers[b.index]? with
      | none => simp [pollEncoder, pollReadyToProcessCaptureBuffers, point, finished, entry,
          xioctl, xioctlLoop]
      | some filled =>
        cases filled <;> simp [pollEncoder, pollReadyToProcessCaptureBuffers, point, finished,
          entry, xioctl, xioctlLoop]
  | loopTest | enqueueInput | enqueueItem | threw =>
    simp [pollEncoder, pollReadyToReuseOutputBuffers, pollReadyToProcessCaptureBuffers, point]

/-- The driver can encode a frame when it has a buffer of each side. -/
theorem encode_enabled (alive : s.fault = none) (outputs : s.outputQueued ≠ [])
    (coding : s.coding ≠ []) (captures : s.captureQueued ≠ []) (bytes : Nat) (key : Bool) :
    ∃ t, step cfg s (.driver (.encode bytes key)) = some t := by
  obtain ⟨b, bs, hb⟩ := List.exists_cons_of_ne_nil outputs
  obtain ⟨c, cs, hc⟩ := List.exists_cons_of_ne_nil coding
  obtain ⟨i, is, hi⟩ := List.exists_cons_of_ne_nil captures
  simp [step, alive, driverStep, hb, hc, hi]

end LibcameraStreamer
