import LibcameraStreamer.Model.Kernel

/-!
# The state of the pipeline

One record holds what the threads of a `LibcameraStreamer` share: the members of
`LibcameraStreamer`, `CameraWrapper` and `H264Encoder`, the camera's and the V4L2 driver's
queues, and the program point of every thread. The moodycamel queues are FIFO lists.

A `Request *` is an index into `requests_`. A `Frame` is one completion of a request; its
serial number tells two completions of the same request apart and is read by no branch.
Log output and the fields of `v4l2_buffer` that are written and never read are left out.
-/
namespace LibcameraStreamer

structure Frame where
  request : Nat
  serial : Nat
  deriving DecidableEq, Repr

/-- A buffer of the OUTPUT queue (raw frames, the encoder's input) as `EncodeBuffer` queues it. -/
structure OutputBuffer where
  index : Nat
  fd : Int
  size : Nat
  timestamp : Timeval
  frame : Frame
  deriving DecidableEq, Repr

/-- What the codec has taken from an OUTPUT buffer and not yet turned into a CAPTURE buffer. -/
structure CodedFrame where
  timestamp : Timeval
  frame : Frame
  deriving DecidableEq, Repr

/-- A finished buffer of the CAPTURE queue (encoded frames). -/
structure CaptureBuffer where
  index : Nat
  bytesUsed : Nat
  length : Nat
  keyframe : Bool
  timestamp : Timeval
  frame : Frame
  deriving DecidableEq, Repr

/-- `OutputItem`, with the heap block that `new` gave it. -/
structure OutputItem where
  address : Nat
  mem : Nat
  bytesUsed : Nat
  length : Nat
  index : Nat
  keyframe : Bool
  timestampUs : Int
  frame : Frame
  deriving DecidableEq, Repr

/-- `H264Encoder::BufferDescription`. -/
structure BufferDescription where
  mem : Nat
  size : Nat
  deriving DecidableEq, Repr

structure Camera where
  id : String
  deriving DecidableEq, Repr

inductive RequestStatus where
  | requestComplete
  | requestCancelled
  deriving DecidableEq, Repr

/-- How a run can end badly. -/
inductive Fault where
  /-- `camera_->queueRequest` on the pointer that `StopCamera` has reset. -/
  | nullCamera
  /-- `buffers_[i]` with `i` outside the array. -/
  | tableOverflow
  /-- `buffers_[i]` read before the constructor has filled it in. -/
  | tableUnset
  /-- An exception leaves a thread function: `std::terminate`. -/
  | uncaught (what : String)
  deriving DecidableEq, Repr

def captureBuffersCount : Nat := 12

/-- What is fixed before the threads run: the granted buffer counts, the requests and their
frame buffers, and the capture mappings. The camera's allocator exports each frame buffer
under a file descriptor of its own. -/
structure Config where
  cameraId : String
  /-- The size of `requests_`. -/
  requests : Nat
  /-- The counts that `VIDIOC_REQBUFS` wrote back. -/
  outputCount : Nat
  captureCount : Nat
  /-- `planes()[0].fd` of the frame buffer of a request. -/
  fd : Nat → Int
  /-- `Mmap(buffer)[0].size()` for the frame buffer of a request. -/
  size : Nat → Nat
  /-- The address and the length of the mapping of a CAPTURE buffer. -/
  mem : Nat → Nat
  length : Nat → Nat
  fd_injective : ∀ r < requests, ∀ q < requests, fd r = fd q → r = q

/-! ## Program points -/

/-- The thread that constructs and destroys the `LibcameraStreamer`. -/
inductive MainPoint where
  /-- `H264Encoder`: the loop over the OUTPUT buffers, before its test. -/
  | enqueueInputs (i : Nat)
  /-- `H264Encoder`: the loop over the CAPTURE buffers, before its test. -/
  | mapCapture (i : Nat)
  /-- Buffer `i` is mapped and not yet queued. -/
  | queueCapture (i : Nat)
  | streamOn
  | startProcessor
  | startOutput
  /-- `StartCamera`: the requests that are still to be queued. -/
  | startCamera (rest : List Nat)
  | startPoll
  | running
  /-- The destructor, from its first statement on. -/
  | setStop
  | resetCamera
  | stopManager
  | joinProcessor
  | joinOutput
  | setEncoderStop
  | joinPoll
  | destroyStream
  | destroySession
  | destroyed
  deriving DecidableEq, Repr

/-- The camera's thread, which runs `requestComplete`. -/
inductive CallbackPoint where
  | idle
  | requestComplete (r : Nat) (status : RequestStatus)
  /-- Between the two enqueues. -/
  | enqueueReuse (r : Nat)
  deriving DecidableEq, Repr

/-- `completedRequestsProcessor`, with `EncodeBuffer` inlined. -/
inductive ProcessorPoint where
  | notStarted
  | loopTest
  | waitForCompletedRequest
  /-- A request is dequeued; its buffer, mapping and the clock are looked up next. -/
  | lookup (f : Frame)
  | encodeBuffer (f : Frame) (fd : Int) (size : Nat) (timestampUs : Int)
  | queueOutput (index : Nat) (f : Frame) (fd : Int) (size : Nat) (timestampUs : Int)
  /-- `EncodeBuffer` has thrown; the index it had taken is lost to the caller. -/
  | threw (index : Nat) (f : Frame)
  | returned
  deriving DecidableEq, Repr

/-- `encodedFramesProcessor`, with `OutputDone` inlined. -/
inductive OutputPoint where
  | notStarted
  | loopTest
  | waitForNextOutputItem
  | pushFrame (item : OutputItem)
  | outputDone (item : OutputItem)
  | deleteItem (item : OutputItem)
  | threw (item : OutputItem)
  | returned
  deriving DecidableEq, Repr

/-- `pollEncoder`, with its two handlers and the callback into `ReuseRequest` inlined. -/
inductive PollPoint where
  | notStarted
  | loopTest
  | poll
  | dequeueOutput
  | enqueueInput (b : OutputBuffer)
  /-- `ReuseRequest` at its `wait_dequeue`, for the frame whose encode has finished. -/
  | reuseRequest (f : Frame)
  | queueRequest (r : Nat)
  | dequeueCapture
  | enqueueItem (item : OutputItem)
  | threw (what : String)
  | returned
  deriving DecidableEq, Repr

structure State where
  main : MainPoint
  -- LibcameraStreamer
  stopRequested : Bool
  processor : ProcessorPoint
  output : OutputPoint
  -- CameraWrapper and the camera
  camera : Option Camera
  managerRunning : Bool
  queuedRequests : List Nat
  callback : CallbackPoint
  completedRequestsQueue : List Frame
  requestsToReuseQueue : List Nat
  -- H264Encoder
  encoderStopRequested : Bool
  poll : PollPoint
  availableInputBuffers : List Nat
  outputItemsQueue : List OutputItem
  buffers : List (Option BufferDescription)
  -- the V4L2 driver: queued and finished buffers on both sides, and the codec between them
  outputQueued : List OutputBuffer
  outputFinished : List OutputBuffer
  coding : List CodedFrame
  captureQueued : List Nat
  captureFinished : List CaptureBuffer
  -- the steady clock in microseconds, and two supplies of fresh names
  clock : Nat
  completions : Nat
  allocations : Nat
  fault : Option Fault
  deriving DecidableEq, Repr

/-- The encoder's constructor has the granted OUTPUT count, and no other thread runs. -/
def initial (cfg : Config) : State where
  main := .enqueueInputs 0
  stopRequested := false
  processor := .notStarted
  output := .notStarted
  camera := some ⟨cfg.cameraId⟩
  managerRunning := true
  queuedRequests := []
  callback := .idle
  completedRequestsQueue := []
  requestsToReuseQueue := []
  encoderStopRequested := false
  poll := .notStarted
  availableInputBuffers := []
  outputItemsQueue := []
  buffers := List.replicate captureBuffersCount none
  outputQueued := []
  outputFinished := []
  coding := []
  captureQueued := []
  captureFinished := []
  clock := 0
  completions := 0
  allocations := 0
  fault := none

/-! ## Actions -/

/-- What `poll(2)` returns: nothing readable, POLLIN, or -1. -/
inductive PollResult where
  | timeout
  | pollIn
  | failure (errno : Errno)
  deriving DecidableEq, Repr

/-- The answers of the outside world to the call a thread makes in one step. -/
structure Answers where
  replies : List Reply := [.success]
  pollResult : PollResult := .pollIn
  queueRequest : Int := 0
  deriving DecidableEq, Repr

inductive DriverAction where
  /-- The `i`-th queued OUTPUT buffer is finished. -/
  | finishOutput (i : Nat)
  /-- The `i`-th frame in the codec is written to the `j`-th queued CAPTURE buffer. -/
  | produceCapture (i j bytesUsed : Nat) (keyframe : Bool)
  /-- The `i`-th frame in the codec yields no CAPTURE buffer. -/
  | drop (i : Nat)
  /-- The first OUTPUT and the first CAPTURE buffer are finished together. -/
  | encode (bytesUsed : Nat) (keyframe : Bool)
  deriving DecidableEq, Repr

/-- One atomic step: which thread, or the camera, the driver or the clock, moves. -/
inductive Action where
  | main
  | complete (r : Nat) (status : RequestStatus)
  | callback
  | processor (ans : Answers)
  | output (ans : Answers)
  | poll (ans : Answers)
  | driver (d : DriverAction)
  | tick (us : Nat)
  deriving DecidableEq, Repr

end LibcameraStreamer
