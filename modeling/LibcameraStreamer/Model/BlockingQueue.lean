import LibcameraStreamer.Library.Fifo
import LibcameraStreamer.Model.ReaderWriterQueue

/-!
# BlockingReaderWriterQueue between two threads

`enqueue` on the producer's thread, and `try_dequeue` and `wait_dequeue` on the consumer's, with
`inner_enqueue`, the inner `try_dequeue` and the `LightweightSemaphore` inlined. Every load and
store of a variable that the other thread may touch is a step of its own, and the steps of
the two threads interleave in any order. Memory is sequentially consistent: the fences are
left out. A variable that only its owner writes is read along with the owner's next step.

The calls that the streamer does not make are left out: `try_enqueue`, `pop`, `peek`, the timed
wait and the moves.
-/
namespace LibcameraStreamer.Moodycamel

variable {α : Type*}

/-- What the code takes for impossible. -/
inductive QueueFault where
  /-- An `assert` fails. -/
  | assertion
  /-- `next` is null where it is followed. -/
  | nullBlock
  /-- A placement `new` over an element that has not been destroyed. -/
  | overwritten
  /-- A move out of a slot without an element. -/
  | notConstructed
  deriving DecidableEq, Repr

/-- `enqueue`, with its argument and the local variables that are still read. -/
inductive ProducerPoint (α : Type*) where
  | idle
  /-- The first loads of `inner_enqueue`. -/
  | loadTail (element : α)
  | loadFront (element : α) (tailBlock blockTail : Nat)
  | construct (element : α) (tailBlock blockTail : Nat)
  | storeTail (element : α) (tailBlock blockTail : Nat)
  /-- The tail block is full; `frontBlock` is compared with the next one. -/
  | loadFrontBlock (element : α) (tailBlock : Nat)
  | loadNextFront (element : α) (tailBlockNext : Nat)
  | constructNext (element : α) (tailBlockNext nextBlockTail : Nat)
  | storeNextTail (element : α) (tailBlockNext nextBlockTail : Nat)
  | makeBlock (element : α) (tailBlock : Nat)
  | linkBlock (element : α) (tailBlock newBlock : Nat)
  | storeTailBlock (element : α) (block : Nat)
  /-- `sema->signal()`, and `m_sema.signal` in it. -/
  | signal (element : α)
  | post
  deriving DecidableEq, Repr

/-- `try_dequeue` and `wait_dequeue`, with the local variables that are still read. -/
inductive ConsumerPoint (α : Type*) where
  | idle
  /-- `tryWait` on behalf of `try_dequeue`. -/
  | tryWait
  /-- `tryWait` on behalf of `wait`, at each round of `while (!sema->wait())`. -/
  | wait
  /-- `m_count` has been seen positive. -/
  | decrement
  /-- `waitWithPartialSpinning`, with the rounds that are left. -/
  | spin (left : Nat)
  | decrementWait
  | semWait
  | restore
  | retake
  | semTryWait
  /-- The first loads of the inner `try_dequeue`. -/
  | loadFront
  | loadTail (frontBlock blockFront : Nat)
  | loadTailBlock (frontBlock : Nat)
  | reloadTail
  | loadNext (frontBlock : Nat)
  | loadNextTail (nextBlock : Nat)
  | storeFrontBlock (nextBlock nextBlockFront : Nat)
  | read (frontBlock blockFront : Nat)
  | storeFront (frontBlock blockFront : Nat) (result : α)
  deriving DecidableEq, Repr

structure BlockingQueue (α : Type*) where
  inner : ReaderWriterQueue α
  -- LightweightSemaphore: m_count and the value of m_sema
  count : Int
  semaphore : Nat
  producer : ProducerPoint α
  consumer : ConsumerPoint α
  fault : Option QueueFault

inductive QueueAction (α : Type*) where
  | enqueue (element : α)
  /-- A step of the producer; `malloc` is the result of the allocation it may make. -/
  | produce (malloc : Bool)
  | tryDequeue
  | waitDequeue
  /-- A step of the consumer; `acquired` is whether `sem_wait` returns 0. -/
  | consume (acquired : Bool)
  deriving DecidableEq, Repr

/-! ## The producer -/

def innerEnqueue (malloc : Bool) (s : BlockingQueue α) : Option (BlockingQueue α) :=
  let q := s.inner
  match s.producer with
  | .loadTail x =>
    let b := q.block q.tailBlock
    if (b.tail + 1) &&& b.sizeMask ≠ b.localFront then
      some { s with producer := .construct x q.tailBlock b.tail }
    else some { s with producer := .loadFront x q.tailBlock b.tail }
  | .loadFront x t blockTail =>
    let b := q.block t
    let s := { s with inner := q.modify t fun b => { b with localFront := b.front } }
    if (blockTail + 1) &&& b.sizeMask ≠ b.front then
      some { s with producer := .construct x t blockTail }
    else some { s with producer := .loadFrontBlock x t }
  | .construct x t blockTail =>
    match (q.block t).data blockTail with
    | some _ => some { s with fault := some .overwritten }
    | none =>
      some { s with
        inner := q.modify t fun b => { b with data := Function.update b.data blockTail (some x) }
        producer := .storeTail x t blockTail }
  | .storeTail x t blockTail =>
    some { s with
      inner := q.modify t fun b => { b with tail := (blockTail + 1) &&& b.sizeMask }
      producer := .signal x }
  | .loadFrontBlock x t =>
    match (q.block t).next with
    | none => some { s with fault := some .nullBlock }
    | some next =>
      if next ≠ q.frontBlock then some { s with producer := .loadNextFront x next }
      else some { s with producer := .makeBlock x t }
  | .loadNextFront x next =>
    let b := q.block next
    let s := { s with inner := q.modify next fun b => { b with localFront := b.front } }
    if b.front = b.tail then some { s with producer := .constructNext x next b.tail }
    else some { s with fault := some .assertion }
  | .constructNext x next nextBlockTail =>
    match (q.block next).data nextBlockTail with
    | some _ => some { s with fault := some .overwritten }
    | none =>
      some { s with
        inner := q.modify next fun b =>
          { b with data := Function.update b.data nextBlockTail (some x) }
        producer := .storeNextTail x next nextBlockTail }
  | .storeNextTail x next nextBlockTail =>
    some { s with
      inner := q.modify next fun b => { b with tail := (nextBlockTail + 1) &&& b.sizeMask }
      producer := .storeTailBlock x next }
  | .makeBlock x t =>
    if malloc then
      let newBlockSize :=
        if q.largestBlockSize ≥ maxBlockSize then q.largestBlockSize else q.largestBlockSize * 2
      let new := { (makeBlock newBlockSize : Block α) with
        data := Function.update (fun _ => none) 0 (some x)
        tail := 1
        localTail := 1
        next := (q.block t).next }
      some { s with
        inner := { q with
          largestBlockSize := newBlockSize
          allocated := q.allocated + 1
          block := Function.update q.block q.allocated new }
        producer := .linkBlock x t q.allocated }
    -- `enqueue` returns false
    else some { s with producer := .idle }
  | .linkBlock x t new =>
    some { s with
      inner := q.modify t fun b => { b with next := some new }
      producer := .storeTailBlock x new }
  | .storeTailBlock x block =>
    some { s with inner := { q with tailBlock := block }, producer := .signal x }
  | .idle | .signal _ | .post => none

/-- `LightweightSemaphore::signal(1)`. -/
def signal (s : BlockingQueue α) : Option (BlockingQueue α) :=
  match s.producer with
  | .signal _ =>
    if s.count < -1 then some { s with count := s.count + 1, fault := some .assertion }
    else some { s with
      count := s.count + 1
      producer := if s.count < 0 then .post else .idle }
  | .post => some { s with semaphore := s.semaphore + 1, producer := .idle }
  | _ => none

/-! ## The consumer -/

/-- The inner `try_dequeue`. Its callers assert that it succeeds. -/
def innerTryDequeue (s : BlockingQueue α) : Option (BlockingQueue α) :=
  let q := s.inner
  match s.consumer with
  | .loadFront =>
    let b := q.block q.frontBlock
    if b.front ≠ b.localTail then some { s with consumer := .read q.frontBlock b.front }
    else some { s with consumer := .loadTail q.frontBlock b.front }
  | .loadTail f blockFront =>
    let b := q.block f
    let s := { s with inner := q.modify f fun b => { b with localTail := b.tail } }
    if blockFront ≠ b.tail then some { s with consumer := .read f blockFront }
    else some { s with consumer := .loadTailBlock f }
  | .loadTailBlock f =>
    if f ≠ q.tailBlock then some { s with consumer := .reloadTail }
    else some { s with fault := some .assertion }
  | .reloadTail =>
    let b := q.block q.frontBlock
    let s := { s with inner := q.modify q.frontBlock fun b => { b with localTail := b.tail } }
    if b.front ≠ b.tail then some { s with consumer := .read q.frontBlock b.front }
    else some { s with consumer := .loadNext q.frontBlock }
  | .loadNext f =>
    match (q.block f).next with
    | none => some { s with fault := some .nullBlock }
    | some next => some { s with consumer := .loadNextTail next }
  | .loadNextTail next =>
    let b := q.block next
    let s := { s with inner := q.modify next fun b => { b with localTail := b.tail } }
    if b.front = b.tail then some { s with fault := some .assertion }
    else some { s with consumer := .storeFrontBlock next b.front }
  | .storeFrontBlock next nextBlockFront =>
    some { s with inner := { q with frontBlock := next }, consumer := .read next nextBlockFront }
  | .read f blockFront =>
    match (q.block f).data blockFront with
    | none => some { s with fault := some .notConstructed }
    | some result =>
      some { s with
        inner := q.modify f fun b => { b with data := Function.update b.data blockFront none }
        consumer := .storeFront f blockFront result }
  | .storeFront f blockFront _ =>
    some { s with
      inner := q.modify f fun b => { b with front := (blockFront + 1) &&& b.sizeMask }
      consumer := .idle }
  | _ => none

/-- `LightweightSemaphore::tryWait` and `wait`, whose `waitWithPartialSpinning` has no timeout. -/
def semaphoreWait (acquired : Bool) (s : BlockingQueue α) : Option (BlockingQueue α) :=
  match s.consumer with
  | .tryWait => some { s with consumer := if 0 < s.count then .decrement else .idle }
  | .wait => some { s with consumer := if 0 < s.count then .decrement else .spin 1024 }
  | .decrement => some { s with count := s.count - 1, consumer := .loadFront }
  | .spin 0 => some { s with consumer := .decrementWait }
  | .spin (n + 1) => some { s with consumer := if 0 < s.count then .decrement else .spin n }
  | .decrementWait =>
    some { s with
      count := s.count - 1
      consumer := if 0 < s.count then .loadFront else .semWait }
  | .semWait =>
    if acquired then
      match s.semaphore with
      | 0 => none
      | n + 1 => some { s with semaphore := n, consumer := .loadFront }
    else some { s with consumer := .restore }
  | .restore =>
    some { s with
      count := s.count + 1
      consumer := if s.count < 0 then .wait else .retake }
  | .retake =>
    some { s with
      count := s.count - 1
      consumer := if 0 < s.count then .semTryWait else .restore }
  | .semTryWait =>
    match s.semaphore with
    | 0 => some { s with consumer := .restore }
    | n + 1 => some { s with semaphore := n, consumer := .loadFront }
  | _ => none

/-! ## The two threads -/

def queueStep (s : BlockingQueue α) (a : QueueAction α) : Option (BlockingQueue α) :=
  match s.fault with
  | some _ => none
  | none =>
    match a with
    | .enqueue x =>
      match s.producer with
      | .idle => some { s with producer := .loadTail x }
      | _ => none
    | .produce malloc => (innerEnqueue malloc s).or (signal s)
    | .tryDequeue =>
      match s.consumer with
      | .idle => some { s with consumer := .tryWait }
      | _ => none
    | .waitDequeue =>
      match s.consumer with
      | .idle => some { s with consumer := .wait }
      | _ => none
    | .consume acquired => (innerTryDequeue s).or (semaphoreWait acquired s)

/-- A new queue, as its constructor leaves it. -/
def blockingQueue (malloc : Nat → Bool) (size : UInt64) : Option (BlockingQueue α) :=
  (readerWriterQueue malloc size).map fun inner =>
    { inner, count := 0, semaphore := 0, producer := .idle, consumer := .idle, fault := none }

/-- What a step does to the queue as its callers see it: an element is in it when `m_count`
counts it, and is taken when it is moved out of its slot. -/
def queueOp (s : BlockingQueue α) : QueueAction α → Option (Library.Fifo.Op α)
  | .produce _ =>
    match s.producer with
    | .signal x => some (.put x)
    | _ => none
  | .consume _ =>
    match s.consumer with
    | .read f blockFront => ((s.inner.block f).data blockFront).map .take
    | .tryWait => if 0 < s.count then none else some .miss
    | _ => none
  | _ => none

end LibcameraStreamer.Moodycamel
