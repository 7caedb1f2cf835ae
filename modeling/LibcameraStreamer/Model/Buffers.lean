import LibcameraStreamer.Library.Loop
import Mathlib.Logic.Function.Basic

/-!
# CameraWrapper: frame buffers and requests

`allocateBuffers` and `makeRequests` build the members of `CameraWrapper` from what the
camera's allocator exports; `GetFrameBufferForRequest` and `Mmap` look them up afterwards.

A `Stream *` is a number and `configuration_` the list of its streams. A `FrameBuffer *` is the
frame buffer, which its address tells apart. The lengths are `unsigned int` and are summed up in
a `size_t`, where a sum of fewer than 2^32 of them does not overflow.
-/
namespace LibcameraStreamer
open Library

/-- `FrameBuffer::Plane`. -/
structure Plane where
  fd : Int
  offset : Nat
  length : Nat
  deriving DecidableEq, Repr

structure FrameBuffer where
  address : Nat
  planes : List Plane
  deriving DecidableEq, Repr

/-- What `mmap` returns: an address, known by what is mapped there, or `MAP_FAILED`. -/
inductive Memory where
  | failed
  | mapped (fd : Int) (length offset : Nat)
  deriving DecidableEq, Repr

def Memory.fd : Memory → Option Int
  | .failed => none
  | .mapped fd _ _ => some fd

/-- `libcamera::Span<uint8_t>`. -/
structure Span where
  memory : Memory
  size : Nat
  deriving DecidableEq, Repr

/-- A `libcamera::Request` with its buffers by their streams. -/
structure Request where
  buffers : List (Nat × FrameBuffer)
  distinct : (buffers.map Prod.fst).Nodup

inductive Failure where
  | runtimeError (what : String)
  /-- An access outside a container. -/
  | undefined
  deriving DecidableEq, Repr

/-- What the calls to the allocator, the kernel and the camera return: `mmap` and
`createRequest` by the number of the call, `addBuffer` for a stream without a buffer. -/
structure BufferCalls where
  allocate : Int
  mmap : Nat → Bool
  createRequest : Nat → Bool
  addBuffer : Nat → FrameBuffer → Int

/-- The members of `CameraWrapper` for the buffers. `mapped_buffers_` is keyed by address. -/
structure CameraBuffers where
  frameBuffers : List FrameBuffer
  mappedBuffers : Nat → Option (List Span)
  requests : List Request

def CameraBuffers.empty : CameraBuffers := ⟨[], fun _ => none, []⟩

/-! ## allocateBuffers -/

/-- `mapped_buffers_[buffer].push_back(span)`. -/
def CameraBuffers.pushSpan (w : CameraBuffers) (buffer : FrameBuffer) (span : Span) :
    CameraBuffers :=
  { w with
    mappedBuffers := Function.update w.mappedBuffers buffer.address
      (some ((w.mappedBuffers buffer.address).getD [] ++ [span])) }

/-- The members, the variable `buffer_size` and the number of calls to `mmap`. -/
structure Allocating where
  members : CameraBuffers
  bufferSize : Nat
  mmaps : Nat

/-- The test for the last plane of a group. There is a plane, so `size() - 1` does not wrap
around; `none` is an access behind the last plane. -/
def endsGroup (planes : List Plane) (i : Nat) (plane : Plane) : Option Bool :=
  if i = planes.length - 1 then some true
  else (planes[i + 1]?).map fun next => plane.fd != next.fd

/-- The body of the loop over the planes of a buffer. The result of `mmap` is not checked. -/
def mapPlane (calls : BufferCalls) (buffer : FrameBuffer) (i : Nat) (s : Allocating) :
    Flow Failure Allocating :=
  match buffer.planes[i]? with
  | none => .raise .undefined s
  | some plane =>
    let bufferSize := s.bufferSize + plane.length
    match endsGroup buffer.planes i plane with
    | none => .raise .undefined { s with bufferSize := bufferSize }
    | some false => .next { s with bufferSize := bufferSize }
    | some true =>
      let memory := if calls.mmap s.mmaps then .mapped plane.fd bufferSize 0 else .failed
      .next {
        members := s.members.pushSpan buffer ⟨memory, bufferSize⟩
        bufferSize := 0
        mmaps := s.mmaps + 1 }

/-- The body of the loop over the allocator's buffers. -/
def allocateBuffer (calls : BufferCalls) (buffer : FrameBuffer) (s : Allocating) :
    Flow Failure Allocating :=
  (forEach (mapPlane calls buffer) (List.range buffer.planes.length)
    { s with bufferSize := 0 }).andThen fun s =>
      .next { s with
        members := { s.members with frameBuffers := s.members.frameBuffers ++ [buffer] } }

def allocateBuffers (calls : BufferCalls) (allocated : List FrameBuffer) (w : CameraBuffers) :
    Flow Failure Allocating :=
  if calls.allocate < 0 then
    .raise (.runtimeError "failed to allocate capture buffers") ⟨w, 0, 0⟩
  else forEach (allocateBuffer calls) allocated ⟨w, 0, 0⟩

/-! ## makeRequests -/

def Request.create : Request := ⟨[], List.nodup_nil⟩

/-- The request with a buffer for a stream that has none. -/
def Request.insert (request : Request) (stream : Nat) (buffer : FrameBuffer)
    (fresh : stream ∉ request.buffers.map Prod.fst) : Request where
  buffers := request.buffers ++ [(stream, buffer)]
  distinct := by
    simpa only [List.map_append, List.map_cons, List.map_nil, List.concat_eq_append] using
      request.distinct.concat fresh

/-- `Request::addBuffer`, which refuses a second buffer for a stream. -/
def Request.addBuffer (calls : BufferCalls) (request : Request) (stream : Nat)
    (buffer : FrameBuffer) : Option Request :=
  if fresh : stream ∉ request.buffers.map Prod.fst then
    if calls.addBuffer stream buffer < 0 then none else some (request.insert stream buffer fresh)
  else none

/-- The members, and the copy `free_buffers` of `frame_buffers_`. -/
structure Requesting where
  members : CameraBuffers
  freeBuffers : List FrameBuffer

/-- `requests_.push_back(std::move(request))`. -/
def Requesting.pushRequest (s : Requesting) : Requesting :=
  { s with members := { s.members with requests := s.members.requests ++ [.create] } }

/-- The end of the loop's body: the first free buffer goes to the last request. -/
def addFreeBuffer (calls : BufferCalls) (stream : Nat) (s : Requesting) :
    Flow Failure Requesting :=
  match s.freeBuffers, s.members.requests.getLast? with
  | buffer :: rest, some request =>
    match request.addBuffer calls stream buffer with
    | none =>
      .raise (.runtimeError "failed to add buffer to request") { s with freeBuffers := rest }
    | some request =>
      .next {
        members := { s.members with requests := s.members.requests.dropLast ++ [request] }
        freeBuffers := rest }
  | _, _ => .raise .undefined s

/-- The body of the loop over the streams. -/
def addStream (calls : BufferCalls) (configuration : List Nat) (stream : Nat) (s : Requesting) :
    Flow Failure Requesting :=
  if configuration.head? = some stream then
    if s.freeBuffers = [] then .exit s
    else if calls.createRequest s.members.requests.length then
      addFreeBuffer calls stream s.pushRequest
    else .raise (.runtimeError "failed to make request") s
  else if s.freeBuffers = [] then
    .raise (.runtimeError "concurrent streams need matching numbers of buffers") s
  else addFreeBuffer calls stream s

def makeRequests (calls : BufferCalls) (configuration : List Nat) (w : CameraBuffers)
    (fuel : Nat) : Option (Flow Failure Requesting) :=
  loop (forEach (addStream calls configuration) configuration) fuel ⟨w, w.frameBuffers⟩

/-! ## The lookups -/

/-- `request->buffers().at(stream)` throws when the stream has no buffer. -/
def getFrameBufferForRequest (configuration : List Nat) (request : Request) :
    Option FrameBuffer :=
  configuration.head?.bind fun stream => List.lookup stream request.buffers

def CameraBuffers.mmap (w : CameraBuffers) (buffer : FrameBuffer) : List Span :=
  (w.mappedBuffers buffer.address).getD []

/-- The descriptor and the size that `completedRequestsProcessor` passes to `EncodeBuffer`:
`planes()[0].fd` of the request's buffer and `Mmap(buffer)[0].size()`. -/
def encodeArguments (configuration : List Nat) (w : CameraBuffers) (request : Request) :
    Option (Int × Nat) := do
  let buffer ← getFrameBufferForRequest configuration request
  let bufferMemory ← (w.mmap buffer)[0]?
  let plane ← buffer.planes[0]?
  return (plane.fd, bufferMemory.size)

inductive ReuseFlag where
  | default
  | reuseBuffers
  deriving DecidableEq, Repr

/-- `Request::reuse` drops the buffers unless it is told to keep them. -/
def Request.reuse (request : Request) : ReuseFlag → Request
  | .default => .create
  | .reuseBuffers => request

end LibcameraStreamer
