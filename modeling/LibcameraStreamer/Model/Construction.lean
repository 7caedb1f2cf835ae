import LibcameraStreamer.Model.Buffers
import LibcameraStreamer.Model.State
import Mathlib.Data.Finset.Basic

/-!
# The constructors as sequences of calls

Every call into libcamera, the kernel, uvgRTP and the standard library that the constructor of
`LibcameraStreamer` makes, in the order of the source, with what it gains and what the code
does when it fails. A resource is held from the call that gains it on.

The camera has a single stream, so `makeRequests` makes one request for each frame buffer.
-/
namespace LibcameraStreamer
open Library

/-- The threads that the constructor starts. -/
inductive Worker where
  | processor
  | output
  | poll
  deriving DecidableEq, Repr

inductive Resource where
  /-- The started camera manager, which a `unique_ptr` owns. -/
  | manager
  /-- `Camera::acquire`, until `Camera::release`. -/
  | camera
  | allocator
  /-- The `k`-th mapping of `allocateBuffers`. -/
  | frameMapping (k : Nat)
  /-- `fd_`. -/
  | encoder
  | captureMapping (i : Nat)
  | session
  | stream
  /-- A thread that has been started and not joined. -/
  | thread (worker : Worker)
  /-- `Camera::start`, until `Camera::stop`. -/
  | running
  /-- An `OutputItem` by its address. -/
  | item (address : Nat)
  deriving DecidableEq, Repr

inductive Control where
  | bitrate
  | profile
  | level
  | iPeriod
  | repeatSeqHeader
  deriving DecidableEq, Repr

/-- The two queues of the encoder. -/
inductive Side where
  | output
  | capture
  deriving DecidableEq, Repr

inductive Call where
  | startManager
  /-- `cameras()`, which fails when only USB cameras are found. -/
  | cameras
  | get
  | acquire
  | generateConfiguration
  | validate
  | configure
  | allocate
  | mmapFrameBuffer (k : Nat)
  | createRequest (r : Nat)
  | addBuffer (r : Nat)
  /-- `GetStreamInfo`, which fails when the stream has no color space. -/
  | getStreamInfo
  | openEncoder
  | setControl (id : Control)
  | setFormat (side : Side)
  | setParm
  | requestBuffers (side : Side)
  | queryBuffer (i : Nat)
  | mmapCapture (i : Nat)
  | queueBuffer (i : Nat)
  | streamOn (side : Side)
  | createSession
  | createStream
  | configureStream
  | startThread (worker : Worker)
  | startCamera
  | queueRequest (r : Nat)
  deriving DecidableEq, Repr

/-- What the constructor does when a call has failed. -/
inductive OnFailure where
  /-- It throws, with a text made from the error code. -/
  | throws (what : Int → String)
  /-- It does not look at the result. -/
  | ignores
  /-- It goes through the null pointer that the call has returned. -/
  | dereferences

inductive Statement where
  | call (c : Call) (onFailure : OnFailure) (gain : Option Resource)
  /-- `new`. -/
  | new (r : Resource)
  /-- The assignment to `buffers_[i].mem`. -/
  | store (i : Nat)

/-- How each call ends: `none` when it succeeds, and else its error code. -/
abbrev Outcomes := Call → Option Int

def execute (outcomes : Outcomes) (statement : Statement) (held : Finset Resource) :
    Flow Failure (Finset Resource) :=
  match statement with
  | .call c onFailure gain =>
    match outcomes c, onFailure with
    | none, _ => .next (held ∪ gain.toFinset)
    | some code, .throws what => .raise (.runtimeError (what code)) held
    | some _, .ignores => .next held
    | some _, .dereferences => .raise .undefined held
  | .new r => .next (insert r held)
  | .store i => if i < captureBuffersCount then .next held else .raise .undefined held

namespace Constructor

/-- A call whose failure is thrown with a fixed text. -/
def checked (c : Call) (what : String) (gain : Option Resource := none) : Statement :=
  .call c (.throws fun _ => what) gain

def allocateBuffers (mappings : Nat) : List Statement :=
  [.new .allocator, checked .allocate "failed to allocate capture buffers"] ++
    (List.range mappings).map fun k => .call (.mmapFrameBuffer k) .ignores (some (.frameMapping k))

def makeRequests (cfg : Config) : List Statement :=
  (List.range cfg.requests).flatMap fun r => [
    checked (.createRequest r) "failed to make request",
    checked (.addBuffer r) "failed to add buffer to request"]

def cameraWrapper (cfg : Config) (mappings : Nat) : List Statement :=
  [checked .get ("failed to find camera " ++ cfg.cameraId),
    checked .acquire ("failed to acquire camera " ++ cfg.cameraId) (some .camera),
    checked .generateConfiguration "failed to generate video configuration",
    checked .validate "failed to valid stream configurations",
    checked .configure "failed to configure streams"] ++
  allocateBuffers mappings ++ makeRequests cfg

def setControlValue (id : Control) (errorText : String) : Statement :=
  checked (.setControl id) errorText

/-- The body of the loop over the CAPTURE buffers. The result of `mmap` is stored first and
compared with `MAP_FAILED` then. -/
def mapCapture (i : Nat) : List Statement :=
  [checked (.queryBuffer i) ("failed to capture query buffer " ++ toString i),
    .store i,
    checked (.mmapCapture i) ("failed to mmap capture buffer " ++ toString i)
      (some (.captureMapping i)),
    checked (.queueBuffer i) ("failed to queue capture buffer " ++ toString i)]

/-- The loop over the OUTPUT buffers makes no call. -/
def h264Encoder (cfg : Config) : List Statement :=
  [checked .openEncoder "failed to open V4L2 H264 encoder" (some .encoder),
    setControlValue .bitrate "failed to set bitrate",
    setControlValue .profile "failed to set profile",
    setControlValue .level "failed to set level",
    setControlValue .iPeriod "failed to set intra period",
    setControlValue .repeatSeqHeader "failed to set inline headers",
    checked (.setFormat .output) "failed to set output format",
    checked (.setFormat .capture) "failed to set capture format",
    checked .setParm "failed to set streamParameters",
    checked (.requestBuffers .output) "request for output buffers failed",
    checked (.requestBuffers .capture) "request for capture buffers failed"] ++
  (List.range cfg.captureCount).flatMap mapCapture ++
  [checked (.streamOn .output) "failed to start output streaming",
    checked (.streamOn .capture) "failed to start capture streaming"]

/-- The constructor of `std::thread`, which throws when there is no thread to be had. -/
def startThread (worker : Worker) : Statement :=
  checked (.startThread worker) "Resource temporarily unavailable" (some (.thread worker))

def startCamera (cfg : Config) : List Statement :=
  checked .startCamera "failed to start camera" (some .running) ::
    (List.range cfg.requests).map fun r => checked (.queueRequest r) "Failed to queue request"

/-- Up to `Camera::acquire` only the camera manager is held. -/
def findCamera : List Statement :=
  [.call .startManager
      (.throws fun code => "camera manager failed to start, code " ++ toString (-code))
      (some .manager),
    checked .cameras "no cameras available"]

def libcameraStreamer (cfg : Config) (mappings : Nat) : List Statement :=
  findCamera ++ cameraWrapper cfg mappings ++ [checked .getStreamInfo "bad optional access"] ++
  h264Encoder cfg ++
  [.call .createSession .dereferences (some .session),
    .call .createStream .dereferences (some .stream),
    .call .configureStream .ignores none,
    startThread .processor,
    startThread .output] ++
  startCamera cfg ++ [startThread .poll]

end Constructor

/-- How the constructor ends, with what is held then. -/
inductive Construction where
  | returns (held : Finset Resource)
  | throws (what : String) (held : Finset Resource)
  /-- `std::terminate`. -/
  | terminates
  | undefined
  deriving DecidableEq

/-- An exception destroys the members that are constructed. The destructors of `CameraWrapper`
and `H264Encoder` are empty, so of the resources only the camera manager is released, and that
of a thread that is not joined terminates the process. -/
def unwind (what : String) (held : Finset Resource) : Construction :=
  if .thread .processor ∈ held ∨ .thread .output ∈ held then .terminates
  else .throws what (held.erase .manager)

def construct (outcomes : Outcomes) (cfg : Config) (mappings : Nat) : Construction :=
  match forEach (execute outcomes) (Constructor.libcameraStreamer cfg mappings) ∅ with
  | .next held | .exit held => .returns held
  | .raise (.runtimeError what) held => unwind what held
  | .raise .undefined _ => .undefined

end LibcameraStreamer
