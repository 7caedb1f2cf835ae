import LibcameraStreamer.Model.BlockingQueue
import LibcameraStreamer.Queue.Ring

/-!
# The invariant of the queue

What each thread knows at each of its program points, about the ring and about the semaphore.
Each thread's knowledge is stable under the moves of the other one: the producer only adds
behind the tail, the consumer only takes at the front.
-/
namespace LibcameraStreamer.Moodycamel

variable {α : Type*}

/-! ## The producer's knowledge -/

/-- What the producer has constructed in a block and not yet published. -/
def ProducerPoint.extra : ProducerPoint α → Nat → List α
  | .storeTail x t _, a => if a = t then [x] else []
  | .storeNextTail x next _, a => if a = next then [x] else []
  | _, _ => []

/-- What it has published in a block that is not yet active. -/
def ProducerPoint.ahead : ProducerPoint α → Nat → List α
  | .storeTailBlock x next, a => if a = next then [x] else []
  | _, _ => []

/-- The tail block is full, or the consumer is at work in it. -/
def Stuffed (q : ReaderWriterQueue α) (g : Shape α) : Prop :=
  q.tailBlock = q.frontBlock ∨
    (g.view q.tailBlock).content.length = (q.block q.tailBlock).sizeMask

/-- The producer has room in the block `a`. -/
def Roomy (q : ReaderWriterQueue α) (g : Shape α) (a : Nat) : Prop :=
  (g.view a).last < (g.view a).localHead + (q.block a).sizeMask

/-- A block that has been made for `x` and is not yet in the ring. -/
structure Unlinked (q : ReaderWriterQueue α) (g : Shape α) (x : α) (t new : Nat) : Prop where
  outside : new ∉ g.ring
  made : new < q.allocated
  holds : (q.block new).Holds (g.view new)
  content : (g.view new).content = [x]
  extra : (g.view new).extra = []
  taken : (g.view new).taken = 0
  next : (q.block new).next = (q.block t).next

def ProducerPoint.Knows (q : ReaderWriterQueue α) (g : Shape α) : ProducerPoint α → Prop
  | .idle | .loadTail _ | .signal _ | .post => True
  | .loadFront _ t blockTail | .storeTail _ t blockTail =>
    t = q.tailBlock ∧ blockTail = (q.block t).tail
  | .construct _ t blockTail => t = q.tailBlock ∧ blockTail = (q.block t).tail ∧ Roomy q g t
  | .loadFrontBlock _ t | .makeBlock _ t => t = q.tailBlock ∧ Stuffed q g
  | .loadNextFront _ next | .storeTailBlock _ next => g.spare.head? = some next ∧ Stuffed q g
  | .constructNext _ next blockTail =>
    g.spare.head? = some next ∧ blockTail = (q.block next).tail ∧ Roomy q g next ∧ Stuffed q g
  | .storeNextTail _ next blockTail =>
    g.spare.head? = some next ∧ blockTail = (q.block next).tail ∧ Stuffed q g
  | .linkBlock x t new => t = q.tailBlock ∧ Unlinked q g x t new ∧ Stuffed q g

/-- The block that it has made and not yet linked. -/
def ProducerPoint.unlinked : ProducerPoint α → Option Nat
  | .linkBlock _ _ new => some new
  | _ => none

structure ProducerOk (p : ProducerPoint α) (q : ReaderWriterQueue α) (g : Shape α) : Prop where
  extra : ∀ a ∈ g.ring, (g.view a).extra = p.extra a
  ahead : ∀ a ∈ g.spare, (g.view a).content = p.ahead a
  complete : ∀ a < q.allocated, a ∈ g.ring ∨ p.unlinked = some a
  knows : p.Knows q g

/-! ## The consumer's knowledge -/

/-- Whether the consumer has moved the first element of a block out. -/
def ConsumerPoint.taken : ConsumerPoint α → Nat → Nat
  | .storeFront f _ _, a => if a = f then 1 else 0
  | _, _ => 0

def ConsumerPoint.Knows (q : ReaderWriterQueue α) (g : Shape α) : ConsumerPoint α → Prop
  | .loadTail f blockFront => f = q.frontBlock ∧ blockFront = (q.block f).front
  | .loadTailBlock f => f = q.frontBlock ∧ f ≠ q.tailBlock
  | .reloadTail => q.frontBlock ≠ q.tailBlock
  | .loadNext f => f = q.frontBlock ∧ f ≠ q.tailBlock ∧ (g.view f).content = []
  | .loadNextTail next =>
    ∃ rest, g.active = q.frontBlock :: next :: rest ∧ (g.view q.frontBlock).content = []
  | .storeFrontBlock next blockFront =>
    ∃ rest, g.active = q.frontBlock :: next :: rest ∧ (g.view q.frontBlock).content = [] ∧
      blockFront = (q.block next).front ∧ (g.view next).head < (g.view next).localEnd
  | .read f blockFront =>
    f = q.frontBlock ∧ blockFront = (q.block f).front ∧ (g.view f).head < (g.view f).localEnd
  | .storeFront f blockFront _ => f = q.frontBlock ∧ blockFront = (q.block f).front
  | _ => True

structure ConsumerOk (c : ConsumerPoint α) (q : ReaderWriterQueue α) (g : Shape α) : Prop where
  taken : ∀ a ∈ g.ring, (g.view a).taken = c.taken a
  knows : c.Knows q g

/-! ## The semaphore -/

/-- Stored by the producer and not yet signalled. -/
def ProducerPoint.unsignaled : ProducerPoint α → List α
  | .signal x => [x]
  | _ => []

/-- The producer owes the operating system's semaphore a `sem_post`. -/
def ProducerPoint.posting : ProducerPoint α → Nat
  | .post => 1
  | _ => 0

/-- The consumer has decremented `m_count` and not been let through. -/
def ConsumerPoint.waiting : ConsumerPoint α → Nat
  | .semWait | .restore | .semTryWait => 1
  | _ => 0

/-- The consumer has been let through and not yet taken an element. -/
def ConsumerPoint.permit : ConsumerPoint α → Nat
  | .loadFront | .loadTail .. | .loadTailBlock _ | .reloadTail | .loadNext _ | .loadNextTail _
  | .storeFrontBlock .. | .read .. => 1
  | _ => 0

/-- The least value that `m_count` can have. -/
def ConsumerPoint.floor : ConsumerPoint α → Int
  | .decrement | .retake => 1
  | .semWait | .restore | .semTryWait => -1
  | _ => 0

/-- The posts that the consumer has been or will be sent. -/
def ConsumerPoint.wakes (count : Int) : ConsumerPoint α → Nat
  | .semWait | .restore | .semTryWait => if 0 ≤ count then 1 else 0
  | .retake => 1
  | _ => 0

structure SemaphoreOk (s : BlockingQueue α) (g : Shape α) : Prop where
  total : (g.content.length : Int) =
    s.count + s.consumer.waiting + s.consumer.permit + s.producer.unsignaled.length
  floor : s.consumer.floor ≤ s.count
  posts : s.semaphore + s.producer.posting = s.consumer.wakes s.count

structure Inv (s : BlockingQueue α) (g : Shape α) : Prop where
  alive : s.fault = none
  ring : Ring s.inner g
  producer : ProducerOk s.producer s.inner g
  consumer : ConsumerOk s.consumer s.inner g
  semaphore : SemaphoreOk s g

/-- A thread that has been let through finds the queue nonempty. -/
theorem SemaphoreOk.content_ne {s : BlockingQueue α} {g : Shape α} (h : SemaphoreOk s g)
    (through : s.consumer.permit = 1) (floor : s.consumer.floor = 0)
    (waiting : s.consumer.waiting = 0) : g.content ≠ [] := by
  intro empty
  have total := h.total
  have count := h.floor
  rw [empty, through, waiting] at total
  rw [floor] at count
  simp only [List.length_nil] at total
  omega

/-! ## What the other thread may do -/

/-- The consumer's moves as the producer sees them. -/
structure ConsumerMoves (q : ReaderWriterQueue α) (g : Shape α) (q' : ReaderWriterQueue α)
    (g' : Shape α) : Prop where
  tailBlock : q'.tailBlock = q.tailBlock
  allocated : q'.allocated = q.allocated
  spare : ∃ more, g'.spare = g.spare ++ more
  ring : ∀ a, a ∈ g'.ring ↔ a ∈ g.ring
  tail : ∀ a, (q'.block a).tail = (q.block a).tail
  next : ∀ a, (q'.block a).next = (q.block a).next
  sizeMask : ∀ a, (q'.block a).sizeMask = (q.block a).sizeMask
  outside : ∀ a, a ∉ g.ring → q'.block a = q.block a ∧ g'.view a = g.view a
  extra : ∀ a, (g'.view a).extra = (g.view a).extra
  last : ∀ a, (g'.view a).last = (g.view a).last
  localHead : ∀ a, (g'.view a).localHead = (g.view a).localHead
  /-- Only active blocks are emptied, and among them only the front block. -/
  behind : ∀ a ∈ g'.spare, a ∈ g.spare ∧ (g'.view a).content = (g.view a).content ∨
    (g'.view a).content = [] ∧ a ∈ g.active
  front : Stuffed q g → Stuffed q' g'

theorem ProducerPoint.Knows.stable {p : ProducerPoint α} {q q' : ReaderWriterQueue α}
    {g g' : Shape α} (h : p.Knows q g) (moves : ConsumerMoves q g q' g') : p.Knows q' g' := by
  obtain ⟨more, spare⟩ := moves.spare
  have first : ∀ a, g.spare.head? = some a → g'.spare.head? = some a := by
    intro a head
    obtain ⟨rest, eq⟩ := List.head?_eq_some_iff.mp head
    simp [spare, eq]
  have roomy : ∀ a, Roomy q g a → Roomy q' g' a := by
    intro a room
    simpa only [Roomy, moves.last, moves.localHead, moves.sizeMask] using room
  have stuffed := moves.front
  cases p with
  | idle | loadTail | signal | post => trivial
  | loadFront x t k | storeTail x t k =>
    simpa only [ProducerPoint.Knows, moves.tailBlock, moves.tail] using h
  | construct x t k =>
    obtain ⟨block, tail, room⟩ := h
    exact ⟨block.trans moves.tailBlock.symm, tail.trans (moves.tail t).symm, roomy t room⟩
  | loadFrontBlock x t | makeBlock x t =>
    exact ⟨h.1.trans moves.tailBlock.symm, stuffed h.2⟩
  | loadNextFront x next | storeTailBlock x next => exact ⟨first next h.1, stuffed h.2⟩
  | constructNext x next k =>
    obtain ⟨head, tail, room, full⟩ := h
    exact ⟨first next head, tail.trans (moves.tail next).symm, roomy next room, stuffed full⟩
  | storeNextTail x next k =>
    obtain ⟨head, tail, full⟩ := h
    exact ⟨first next head, tail.trans (moves.tail next).symm, stuffed full⟩
  | linkBlock x t new =>
    obtain ⟨block, unlinked, full⟩ := h
    obtain ⟨same, view⟩ := moves.outside new unlinked.outside
    refine ⟨block.trans moves.tailBlock.symm, ?_, stuffed full⟩
    constructor
    · exact fun member => unlinked.outside ((moves.ring new).mp member)
    · exact moves.allocated ▸ unlinked.made
    · rw [same, view]
      exact unlinked.holds
    · rw [view]
      exact unlinked.content
    · rw [view]
      exact unlinked.extra
    · rw [view]
      exact unlinked.taken
    · rw [same, moves.next t]
      exact unlinked.next

theorem ProducerPoint.ahead_of_notMem {p : ProducerPoint α} {q : ReaderWriterQueue α}
    {g : Shape α} (knows : p.Knows q g) {a : Nat} (outside : a ∉ g.spare) : p.ahead a = [] := by
  cases p with
  | storeTailBlock x next =>
    have other : a ≠ next := by
      intro same
      exact outside (same ▸ List.mem_of_head? knows.1)
    simp [ProducerPoint.ahead, other]
  | _ => rfl

theorem ProducerOk.stable {p : ProducerPoint α} {q q' : ReaderWriterQueue α} {g g' : Shape α}
    (h : ProducerOk p q g) (ring : Ring q g) (moves : ConsumerMoves q g q' g') :
    ProducerOk p q' g' where
  extra a member := by
    rw [moves.extra]
    exact h.extra a ((moves.ring a).mp member)
  ahead a member := by
    rcases moves.behind a member with ⟨spare, same⟩ | ⟨empty, active⟩
    · rw [same]
      exact h.ahead a spare
    · rw [empty, ProducerPoint.ahead_of_notMem h.knows (ring.spare_disjoint active)]
  complete a made := by
    rw [moves.allocated] at made
    exact (h.complete a made).imp_left (moves.ring a).mpr
  knows := h.knows.stable moves

/-- The producer's moves as the consumer sees them. -/
structure ProducerMoves (q : ReaderWriterQueue α) (g : Shape α) (q' : ReaderWriterQueue α)
    (g' : Shape α) : Prop where
  frontBlock : q'.frontBlock = q.frontBlock
  active : ∃ more, g'.active = g.active ++ more
  front : ∀ a ∈ g.ring, (q'.block a).front = (q.block a).front
  head : ∀ a ∈ g.ring, (g'.view a).head = (g.view a).head
  localEnd : ∀ a ∈ g.ring, (g'.view a).localEnd = (g.view a).localEnd
  taken : ∀ a ∈ g'.ring, a ∈ g.ring ∧ (g'.view a).taken = (g.view a).taken ∨
    a ∉ g.ring ∧ (g'.view a).taken = 0
  content : ∀ a ∈ g.active, a ≠ q.tailBlock → (g'.view a).content = (g.view a).content
  tailBlock : q'.tailBlock = q.tailBlock ∨ q'.tailBlock ∉ g.active

theorem ConsumerPoint.Knows.stable {c : ConsumerPoint α} {q q' : ReaderWriterQueue α}
    {g g' : Shape α} (h : c.Knows q g) (ring : Ring q g) (moves : ProducerMoves q g q' g') :
    c.Knows q' g' := by
  obtain ⟨more, active⟩ := moves.active
  have front := moves.frontBlock
  have member := ring.frontBlock_mem
  have inside : q.frontBlock ∈ g.active := List.mem_of_head? ring.front
  have apart : q.frontBlock ≠ q.tailBlock → q.frontBlock ≠ q'.tailBlock := by
    intro differ
    rcases moves.tailBlock with same | outside
    · rwa [same]
    · exact fun same => outside (same ▸ inside)
  have second : ∀ next rest, g.active = q.frontBlock :: next :: rest →
      next ∈ g.ring ∧ q.frontBlock ≠ q.tailBlock := by
    intro next rest shape
    exact ⟨by simp [Shape.ring, shape], ring.apart_of_active shape⟩
  cases c with
  | loadTail f k =>
    obtain ⟨rfl, rfl⟩ := h
    exact ⟨front.symm, (moves.front _ member).symm⟩
  | loadTailBlock f =>
    obtain ⟨rfl, differ⟩ := h
    exact ⟨front.symm, apart differ⟩
  | reloadTail =>
    have differ := apart h
    simpa only [ConsumerPoint.Knows, front] using differ
  | loadNext f =>
    obtain ⟨rfl, differ, empty⟩ := h
    exact ⟨front.symm, apart differ, (moves.content _ inside differ).trans empty⟩
  | loadNextTail next =>
    obtain ⟨rest, shape, empty⟩ := h
    refine ⟨rest ++ more, by simp [active, shape, front], ?_⟩
    rw [front, moves.content _ inside (second next rest shape).2, empty]
  | storeFrontBlock next k =>
    obtain ⟨rest, shape, empty, index, seen⟩ := h
    obtain ⟨here, differ⟩ := second next rest shape
    refine ⟨rest ++ more, by simp [active, shape, front], ?_, ?_, ?_⟩
    · rw [front, moves.content _ inside differ, empty]
    · rw [moves.front next here, index]
    · rw [moves.head next here, moves.localEnd next here]
      exact seen
  | read f k =>
    obtain ⟨rfl, rfl, seen⟩ := h
    refine ⟨front.symm, (moves.front _ member).symm, ?_⟩
    rw [moves.head _ member, moves.localEnd _ member]
    exact seen
  | storeFront f k x =>
    obtain ⟨rfl, rfl⟩ := h
    exact ⟨front.symm, (moves.front _ member).symm⟩
  | _ => trivial

theorem ConsumerPoint.taken_of_notMem {c : ConsumerPoint α} {q : ReaderWriterQueue α}
    {g : Shape α} (knows : c.Knows q g) (ring : Ring q g) {a : Nat} (outside : a ∉ g.ring) :
    c.taken a = 0 := by
  cases c with
  | storeFront f k x =>
    have other : a ≠ f := by
      intro same
      exact outside (same ▸ knows.1 ▸ ring.frontBlock_mem)
    simp [ConsumerPoint.taken, other]
  | _ => rfl

theorem ConsumerOk.stable {c : ConsumerPoint α} {q q' : ReaderWriterQueue α} {g g' : Shape α}
    (h : ConsumerOk c q g) (ring : Ring q g) (moves : ProducerMoves q g q' g') :
    ConsumerOk c q' g' where
  taken a member := by
    rcases moves.taken a member with ⟨inside, same⟩ | ⟨outside, none⟩
    · rw [same]
      exact h.taken a inside
    · rw [none, ConsumerPoint.taken_of_notMem h.knows ring outside]
  knows := h.knows.stable ring moves

end LibcameraStreamer.Moodycamel
