import LibcameraStreamer.Model.State

/-!
# CameraWrapper

`requestComplete` runs on the camera's thread, `WaitForCompletedRequest` on the thread of
`completedRequestsProcessor`, and `ReuseRequest` on the poll thread. A blocked
`wait_dequeue` has no step.
-/
namespace LibcameraStreamer

/-- The camera completes one of its requests and enters `requestComplete` with it. It does
so for one request at a time; after the camera manager has stopped it only cancels. -/
def cameraCompletes (r : Nat) (status : RequestStatus) (s : State) : Option State :=
  if s.callback = .idle ∧ r ∈ s.queuedRequests ∧
      (status = .requestCancelled ∨ s.managerRunning = true) then
    some { s with
      queuedRequests := s.queuedRequests.erase r
      callback := .requestComplete r status }
  else none

def requestComplete (s : State) : Option State :=
  match s.callback with
  | .idle => none
  | .requestComplete _ .requestCancelled => some { s with callback := .idle }
  | .requestComplete r .requestComplete =>
    some { s with
      completedRequestsQueue := s.completedRequestsQueue ++ [⟨r, s.completions⟩]
      completions := s.completions + 1
      callback := .enqueueReuse r }
  | .enqueueReuse r =>
    some { s with
      requestsToReuseQueue := s.requestsToReuseQueue ++ [r]
      callback := .idle }

def waitForCompletedRequest (s : State) : Option (Frame × State) :=
  match s.completedRequestsQueue with
  | [] => none
  | f :: rest => some (f, { s with completedRequestsQueue := rest })

/-- `ReuseRequest` on the poll thread, which goes on to the CAPTURE side afterwards. The
result of `queueRequest` is ignored: a request that is refused is in no queue any more. -/
def reuseRequest (ans : Answers) (s : State) : Option State :=
  match s.poll with
  | .reuseRequest _ =>
    match s.requestsToReuseQueue with
    | [] => none
    | r :: rest => some { s with requestsToReuseQueue := rest, poll := .queueRequest r }
  | .queueRequest r =>
    match s.camera with
    | none => some { s with fault := some .nullCamera }
    | some _ =>
      if 0 ≤ ans.queueRequest then
        some { s with queuedRequests := s.queuedRequests ++ [r], poll := .dequeueCapture }
      else some { s with poll := .dequeueCapture }
  | _ => none

/-! ## The steps of the camera's thread -/

inductive CallbackStep (s : State) : State → Prop where
  | cancelled (r : Nat) (point : s.callback = .requestComplete r .requestCancelled) :
      CallbackStep s { s with callback := .idle }
  | enqueueCompleted (r : Nat) (point : s.callback = .requestComplete r .requestComplete) :
      CallbackStep s { s with
        completedRequestsQueue := s.completedRequestsQueue ++ [⟨r, s.completions⟩]
        completions := s.completions + 1
        callback := .enqueueReuse r }
  | enqueueReuse (r : Nat) (point : s.callback = .enqueueReuse r) :
      CallbackStep s { s with
        requestsToReuseQueue := s.requestsToReuseQueue ++ [r]
        callback := .idle }

theorem requestComplete_cases {s t : State} (h : requestComplete s = some t) :
    CallbackStep s t := by
  unfold requestComplete at h
  split at h
  · contradiction
  · next r point => cases h; exact .cancelled r point
  · next r point => cases h; exact .enqueueCompleted r point
  · next r point => cases h; exact .enqueueReuse r point

theorem cameraCompletes_cases {r : Nat} {status : RequestStatus} {s t : State}
    (h : cameraCompletes r status s = some t) :
    s.callback = .idle ∧ r ∈ s.queuedRequests ∧
      (status = .requestCancelled ∨ s.managerRunning = true) ∧
      t = { s with
        queuedRequests := s.queuedRequests.erase r
        callback := .requestComplete r status } := by
  unfold cameraCompletes at h
  split at h
  · next guard => cases h; exact ⟨guard.1, guard.2.1, guard.2.2, rfl⟩
  · contradiction

end LibcameraStreamer
