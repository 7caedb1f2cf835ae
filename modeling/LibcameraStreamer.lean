import LibcameraStreamer.Library.Run
import LibcameraStreamer.Library.Partition
import LibcameraStreamer.Library.LossyQueue
import LibcameraStreamer.Library.Recycler
import LibcameraStreamer.Library.Rounding
import LibcameraStreamer.Library.Loop
import LibcameraStreamer.Library.Dealing
import LibcameraStreamer.Library.Tiling
import LibcameraStreamer.Model.Kernel
import LibcameraStreamer.Model.State
import LibcameraStreamer.Model.CameraWrapper
import LibcameraStreamer.Model.H264Encoder
import LibcameraStreamer.Model.Streamer
import LibcameraStreamer.Model.Transition
import LibcameraStreamer.Model.Environment
import LibcameraStreamer.Model.Enabled
import LibcameraStreamer.Model.Buffers
import LibcameraStreamer.Model.Construction
import LibcameraStreamer.Numeric.Timestamps
import LibcameraStreamer.Numeric.FrameInterval
import LibcameraStreamer.Invariants.Phase
import LibcameraStreamer.Invariants.InputSlots
import LibcameraStreamer.Invariants.Captures
import LibcameraStreamer.Invariants.CaptureTable
import LibcameraStreamer.Invariants.Requests
import LibcameraStreamer.Invariants.Recycling
import LibcameraStreamer.Invariants.Order
import LibcameraStreamer.Invariants.Collection
import LibcameraStreamer.Invariants.Progress
import LibcameraStreamer.Invariants.Shutdown
import LibcameraStreamer.Invariants.Release
import LibcameraStreamer.Invariants.Blocking
import LibcameraStreamer.Invariants.FailedCalls
import LibcameraStreamer.Invariants.Destruction
import LibcameraStreamer.Invariants.AllOrNothing
import LibcameraStreamer.Buffers.MakeRequests
import LibcameraStreamer.Buffers.AllocateBuffers
import LibcameraStreamer.Buffers.Coverage
import LibcameraStreamer.Buffers.Lookups
import LibcameraStreamer.Library.Circular
import LibcameraStreamer.Library.Fifo
import LibcameraStreamer.Library.Smearing
import LibcameraStreamer.Model.ReaderWriterQueue
import LibcameraStreamer.Model.BlockingQueue
import LibcameraStreamer.Queue.Block
import LibcameraStreamer.Queue.Ring
import LibcameraStreamer.Queue.Invariant
import LibcameraStreamer.Queue.Enqueue
import LibcameraStreamer.Queue.Dequeue
import LibcameraStreamer.Queue.Initial
import LibcameraStreamer.Queue.Refinement
import LibcameraStreamer.Queue.Capacity
import LibcameraStreamer.Queue.WaitFree
import LibcameraStreamer.Queue.Destructor
import LibcameraStreamer.Invariants.Channels
import LibcameraStreamer.Invariants.Draining
import LibcameraStreamer.Invariants.Memory
import LibcameraStreamer.Invariants.ReuseOrder
import LibcameraStreamer.Invariants.Stopping
import LibcameraStreamer.Invariants.Threads
