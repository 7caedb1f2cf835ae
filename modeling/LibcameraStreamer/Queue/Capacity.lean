import LibcameraStreamer.Queue.Refinement
import Mathlib.Algebra.Order.BigOperators.Group.List

/-!
# Without further allocations

A queue made for `size` elements makes no block as long as no call of `enqueue` begins with `size`
elements inside. A block is made only when the tail block is full and the next one is the front
block; then every other block is full as well, and these have room for `size` elements.
-/
namespace LibcameraStreamer.Moodycamel
open Library

variable {α : Type*} {g : Shape α} {s t : BlockingQueue α}

/-! ## The elements inside -/

/-- Whether the consumer has laid claim to an element and its call has not returned. -/
def ConsumerPoint.claims : ConsumerPoint α → Nat
  | .idle | .tryWait | .wait | .decrement | .spin _ | .decrementWait | .retake => 0
  | _ => 1

/-- The elements that have been put in and that no call has returned yet. -/
def BlockingQueue.load (s : BlockingQueue α) : Int := s.count + s.consumer.claims

/-- The element that a call of `enqueue` is for. -/
def QueueAction.element? : QueueAction α → Option α
  | .enqueue x => some x
  | _ => none

/-- No call of `enqueue` begins with `size` elements inside. -/
def Light (size : Nat) (s : BlockingQueue α) (a : QueueAction α) : Prop :=
  a.element?.isSome = true → s.load < size

instance (size : Nat) (s : BlockingQueue α) (a : QueueAction α) : Decidable (Light size s a) :=
  inferInstanceAs (Decidable (_ → _))

theorem ConsumerPoint.claims_eq (c : ConsumerPoint α) (f : Nat) (front : ∀ b k x,
    c = .storeFront b k x → b = f) : c.claims = c.waiting + c.permit + c.taken f := by
  cases c with
  | storeFront b k x => simp [claims, waiting, permit, taken, front b k x rfl]
  | _ => rfl

/-- The load is what the blocks hold, with the element that the consumer is moving out. -/
theorem Inv.load_eq (inv : Inv s g) : s.load + s.producer.unsignaled.length =
    g.content.length + (g.view s.inner.frontBlock).taken := by
  have total := inv.semaphore.total
  have knows := inv.consumer.knows
  have claims := s.consumer.claims_eq s.inner.frontBlock fun b k x point => by
    rw [point] at knows
    exact knows.1
  rw [inv.consumer.taken _ inv.ring.frontBlock_mem, BlockingQueue.load, claims]
  push_cast
  omega

/-! ## Frames -/

/-- What the steps of the consumer leave alone. -/
theorem innerTryDequeue_frame (step : innerTryDequeue s = some t) :
    t.producer = s.producer ∧ t.inner.allocated = s.inner.allocated ∧
      (∀ a, (t.inner.block a).sizeMask = (s.inner.block a).sizeMask) ∧ t.load ≤ s.load := by
  unfold innerTryDequeue at step
  split at step
  all_goals
    next point =>
      simp only at step
      repeat' split at step
      all_goals first
        | contradiction
        | (cases step
           refine ⟨rfl, rfl, ?_, ?_⟩
           · intro a
             grind
           · simp [BlockingQueue.load, point, ConsumerPoint.claims])

theorem semaphoreWait_frame {acquired : Bool} (step : semaphoreWait acquired s = some t) :
    t.producer = s.producer ∧ t.inner = s.inner ∧ t.load = s.load := by
  unfold semaphoreWait at step
  split at step
  all_goals
    next point =>
      repeat' split at step
      all_goals first
        | contradiction
        | (cases step
           refine ⟨rfl, rfl, ?_⟩
           simp only [BlockingQueue.load, point]
           grind [ConsumerPoint.claims])

/-- The producer makes blocks at one point only. -/
theorem innerEnqueue_frame {malloc : Bool} (step : innerEnqueue malloc s = some t)
    (plain : ∀ x b, s.producer ≠ .makeBlock x b) :
    t.count = s.count ∧ t.consumer = s.consumer ∧ t.inner.allocated = s.inner.allocated ∧
      ∀ a, (t.inner.block a).sizeMask = (s.inner.block a).sizeMask := by
  unfold innerEnqueue at step
  split at step
  all_goals
    next point =>
      simp only at step
      repeat' split at step
      all_goals first
        | contradiction
        | exact absurd point (plain _ _)
        | (cases step
           refine ⟨rfl, rfl, rfl, ?_⟩
           intro a
           grind)

theorem signal_frame (step : signal s = some t) : t.inner = s.inner ∧
    (t.producer = .idle ∨ t.producer = .post ∨ ∃ x, t.producer = .signal x) := by
  unfold signal at step
  split at step
  · next x point =>
    split at step <;> cases step
    · exact ⟨rfl, .inr (.inr ⟨x, point⟩)⟩
    · refine ⟨rfl, ?_⟩
      by_cases waiting : s.count < 0
      · exact .inr (.inl (if_pos waiting))
      · exact .inl (if_neg waiting)
  · cases step
    exact ⟨rfl, .inl rfl⟩
  · contradiction

theorem signal_consumer (step : signal s = some t) : t.consumer = s.consumer := by
  unfold signal at step
  split at step
  · split at step <;> cases step <;> rfl
  · cases step
    rfl
  · contradiction

theorem innerEnqueue_consumer {malloc : Bool} (step : innerEnqueue malloc s = some t) :
    t.consumer = s.consumer := by
  unfold innerEnqueue at step
  split at step
  all_goals
    simp only at step
    repeat' split at step
    all_goals first
      | contradiction
      | (cases step
         rfl)

/-! ## Where the producer runs out of room -/

/-- The queue as its constructor made it: blocks of one size, which hold `size` elements even
without the one that the consumer is at work in. -/
structure Fixed (n mask size : Nat) (q : ReaderWriterQueue α) : Prop where
  allocated : q.allocated = n + 1
  sizeMask : ∀ a ≤ n, (q.block a).sizeMask = mask
  room : n = 0 ∧ size ≤ mask ∨ size ≤ n * mask

section

variable {n mask size : Nat}

/-- Every block that the constructor made is in the ring, and no other. -/
theorem Inv.ring_perm (inv : Inv s g) (fixed : Fixed n mask size s.inner)
    (linked : s.producer.unlinked = none) : g.ring.Perm (List.range (n + 1)) := by
  refine (List.perm_ext_iff_of_nodup inv.ring.distinct List.nodup_range).mpr fun a => ?_
  rw [List.mem_range, ← fixed.allocated]
  constructor
  · exact inv.ring.made a
  · exact fun made => (inv.producer.complete a made).resolve_right (by simp [linked])

theorem Inv.mask_eq (inv : Inv s g) (fixed : Fixed n mask size s.inner) {a : Nat}
    (member : a ∈ g.ring) : (s.inner.block a).sizeMask = mask := by
  have made := inv.ring.made a member
  rw [fixed.allocated] at made
  exact fixed.sizeMask a (by omega)

/-- A single block that is full holds `size` elements. -/
theorem Inv.full_single (inv : Inv s g) (fixed : Fixed n mask size s.inner) (single : n = 0)
    (linked : s.producer.unlinked = none)
    (full : (g.view s.inner.tailBlock).last = (g.view s.inner.tailBlock).head + mask) :
    (mask : Int) ≤ g.content.length + (g.view s.inner.frontBlock).taken := by
  subst single
  have ring := inv.ring_perm fixed linked
  rw [List.range_one, List.perm_singleton] at ring
  have front : s.inner.frontBlock = 0 := by simpa [ring] using inv.ring.frontBlock_mem
  have tail : s.inner.tailBlock = 0 := by simpa [ring] using inv.ring.tailBlock_mem
  obtain ⟨rest, active⟩ := inv.ring.active_eq
  have content : (g.view 0).content.length ≤ g.content.length := by
    simp [Shape.content, active, front]
  rw [tail] at full
  rw [front]
  unfold View.last at full
  omega

/-- Of several blocks all but the front block are full when there is no spare one. -/
theorem Inv.full_several (inv : Inv s g) (fixed : Fixed n mask size s.inner)
    (linked : s.producer.unlinked = none) (spare : g.spare = [])
    (stuffed : Stuffed s.inner g) : n * mask ≤ g.content.length := by
  have ring := inv.ring_perm fixed linked
  obtain ⟨rest, active⟩ := inv.ring.active_eq
  have length : rest.length = n := by
    have := ring.length_eq
    simpa [Shape.ring, spare, active] using this
  have full : ∀ a ∈ rest, (g.view a).content.length = mask := by
    intro a member
    have behind : a ∈ g.active.tail := by simpa [active] using member
    have inside : a ∈ g.ring := List.mem_append_left _ (List.mem_of_mem_tail behind)
    obtain ⟨_, last | full⟩ := inv.ring.filled a behind
    · rcases stuffed with front | full
      · exact absurd (last.trans front ▸ behind) inv.ring.notMem_active_tail
      · rw [last, full, inv.mask_eq fixed inv.ring.tailBlock_mem]
    · rw [full, inv.mask_eq fixed inside]
  have sum := List.card_nsmul_le_sum (rest.map fun a => (g.view a).content.length) mask (by
    intro m member
    obtain ⟨a, inside, rfl⟩ := List.mem_map.mp member
    exact (full a inside).ge)
  simp only [List.length_map, length, smul_eq_mul] at sum
  simp only [Shape.content, active, List.flatMap_cons, List.length_append, List.length_flatMap]
  omega

/-- What holds as long as no call of `enqueue` has begun with `size` elements inside. -/
structure Spacious (n mask size : Nat) (s : BlockingQueue α) : Prop where
  fixed : Fixed n mask size s.inner
  point : match s.producer with
    | .loadTail _ | .loadFront .. => s.load < size
    | .loadFrontBlock .. => s.load < size ∧ size ≤ n * mask
    | .makeBlock .. | .linkBlock .. => False
    | _ => True

theorem Spacious.plain (h : Spacious n mask size s) (x : α) (b : Nat) :
    s.producer ≠ .makeBlock x b := by
  intro point
  simpa [point] using h.point

/-- The consumer can only make more room. -/
theorem Spacious.consumed (h : Spacious n mask size s) (producer : t.producer = s.producer)
    (allocated : t.inner.allocated = s.inner.allocated)
    (sizeMask : ∀ a, (t.inner.block a).sizeMask = (s.inner.block a).sizeMask)
    (load : t.load ≤ s.load) : Spacious n mask size t where
  fixed := by
    obtain ⟨made, masks, room⟩ := h.fixed
    exact ⟨allocated.trans made, fun a bound => (sizeMask a).trans (masks a bound), room⟩
  point := by
    have point := h.point
    rw [producer]
    generalize s.producer = p at point ⊢
    cases p with
    | loadTail | loadFront => exact load.trans_lt point
    | loadFrontBlock => exact ⟨load.trans_lt point.1, point.2⟩
    | makeBlock | linkBlock => exact point.elim
    | _ => trivial

/-- The tail block is full, but then so little room is left only when there are several blocks. -/
theorem Spacious.full (h : Spacious n mask size s) (inv : Inv s g) {x : α} {b k : Nat}
    (point : s.producer = .loadFront x b k)
    (full : (k + 1) &&& (s.inner.block b).sizeMask = (s.inner.block b).front) :
    s.load < size ∧ size ≤ n * mask := by
  have light := h.point
  have load := inv.load_eq
  have knows := inv.producer.knows
  rw [point] at light load knows
  obtain ⟨rfl, rfl⟩ := knows
  have brim := (inv.holds inv.ring.tailBlock_mem).full_front_iff.mp full
  rw [inv.mask_eq h.fixed inv.ring.tailBlock_mem] at brim
  simp only [ProducerPoint.unsignaled, List.length_nil] at light load
  rcases h.fixed.room with ⟨single, room⟩ | room
  · have held := inv.full_single h.fixed single (by rw [point]; rfl) brim
    omega
  · exact ⟨light, room⟩

/-- There is a spare block behind the tail block. -/
theorem Spacious.next (h : Spacious n mask size s) (inv : Inv s g) {x : α} {b next : Nat}
    (point : s.producer = .loadFrontBlock x b) (linked : (s.inner.block b).next = some next) :
    next ≠ s.inner.frontBlock := by
  intro same
  have light := h.point
  have load := inv.load_eq
  have knows := inv.producer.knows
  rw [point] at light load knows
  obtain ⟨rfl, stuffed⟩ := knows
  rw [inv.ring.next_tailBlock, same] at linked
  have spare : g.spare = [] := by
    cases shape : g.spare with
    | nil => rfl
    | cons a rest =>
      rw [shape] at linked
      obtain rfl : a = s.inner.frontBlock := Option.some.inj linked
      exact absurd (by simp [shape]) (inv.ring.spare_disjoint inv.ring.front_active)
  have held := inv.full_several h.fixed (by rw [point]; rfl) spare stuffed
  simp only [ProducerPoint.unsignaled, List.length_nil] at light load
  omega

theorem Spacious.innerEnqueue (h : Spacious n mask size s) (inv : Inv s g) {malloc : Bool}
    (step : Moodycamel.innerEnqueue malloc s = some t) : Spacious n mask size t := by
  obtain ⟨count, consumer, allocated, sizeMask⟩ := innerEnqueue_frame step h.plain
  obtain ⟨made, masks, room⟩ := h.fixed
  have load : t.load = s.load := by rw [BlockingQueue.load, BlockingQueue.load, count, consumer]
  refine ⟨⟨allocated.trans made, fun a bound => (sizeMask a).trans (masks a bound), room⟩, ?_⟩
  have light := h.point
  rw [load]
  unfold Moodycamel.innerEnqueue at step
  cases point : s.producer with
  | idle | signal | post => simp [point] at step
  | makeBlock | linkBlock => simp [point] at light
  | loadTail x =>
    simp only [point] at step light
    split at step <;> cases step
    · trivial
    · exact light
  | loadFront x b k =>
    simp only [point] at step
    split at step
    · cases step
      trivial
    · next full =>
      cases step
      exact h.full inv point (not_not.mp full)
  | loadFrontBlock x b =>
    simp only [point] at step
    split at step
    · cases step
      simpa [point] using light
    · next next linked =>
      rw [if_pos (h.next inv point linked)] at step
      cases step
      trivial
  | loadNextFront x next =>
    simp only [point] at step
    split at step <;> cases step
    · trivial
    · simp
  | construct x b k | constructNext x b k =>
    simp only [point] at step
    split at step <;> cases step
    · simp
    · trivial
  | storeTail | storeNextTail | storeTailBlock =>
    simp only [point] at step
    cases step
    trivial

theorem Spacious.step (h : Spacious n mask size s) (inv : Inv s g) {a : QueueAction α}
    (light : Light size s a) (step : queueStep s a = some t) :
    Spacious n mask size t := by
  unfold queueStep at step
  split at step
  · contradiction
  cases a with
  | enqueue x =>
    simp only at step
    split at step
    · cases step
      exact ⟨h.fixed, light rfl⟩
    · contradiction
  | produce malloc =>
    rcases Option.or_eq_some_iff.mp step with inner | ⟨_, signals⟩
    · exact h.innerEnqueue inv inner
    · obtain ⟨same, point⟩ := signal_frame signals
      refine ⟨same ▸ h.fixed, ?_⟩
      rcases point with point | point | ⟨x, point⟩ <;> rw [point] <;> trivial
  | tryDequeue | waitDequeue =>
    simp only at step
    split at step
    · next point =>
      cases step
      exact h.consumed rfl rfl (fun _ => rfl) (by
        simp [BlockingQueue.load, point, ConsumerPoint.claims])
    · contradiction
  | consume acquired =>
    rcases Option.or_eq_some_iff.mp step with inner | ⟨_, waits⟩
    · obtain ⟨producer, allocated, sizeMask, load⟩ := innerTryDequeue_frame inner
      exact h.consumed producer allocated sizeMask load
    · obtain ⟨producer, same, load⟩ := semaphoreWait_frame waits
      exact h.consumed producer (by rw [same]) (by simp [same]) load.le

end

/-! ## Calls that drop nothing -/

/-- The element of a call of `enqueue` that has not yet been counted. -/
def ProducerPoint.pending : ProducerPoint α → Option α
  | .idle | .post => none
  | .loadTail x | .loadFront x _ _ | .construct x _ _ | .storeTail x _ _ | .loadFrontBlock x _
  | .loadNextFront x _ | .constructNext x _ _ | .storeNextTail x _ _ | .makeBlock x _
  | .linkBlock x _ _ | .storeTailBlock x _ | .signal x => some x

/-- The element that `signal` counts. -/
def signalled (s : BlockingQueue α) : QueueAction α → Option α
  | .produce _ => s.producer.unsignaled.head?
  | _ => none

/-- The element for which no block could be made. -/
def dropped (s : BlockingQueue α) : QueueAction α → Option α
  | .produce malloc =>
    match s.producer with
    | .makeBlock x _ => if malloc then none else some x
    | _ => none
  | _ => none

theorem log_signalled (tr : List (BlockingQueue α × QueueAction α)) :
    log signalled tr = Fifo.puts (log queueOp tr) := by
  simp only [log, Fifo.puts, List.filterMap_filterMap]
  refine List.filterMap_congr fun x _ => ?_
  obtain ⟨s, a⟩ := x
  cases a with
  | produce malloc =>
    cases point : s.producer <;>
      simp [signalled, queueOp, point, ProducerPoint.unsignaled, Fifo.Op.value?]
  | consume acquired =>
    simp only [signalled, queueOp]
    split
    · cases (s.inner.block _).data _ <;> rfl
    · split <;> rfl
    · rfl
  | _ => rfl

theorem innerEnqueue_pending {malloc : Bool} (step : innerEnqueue malloc s = some t) :
    LossyStep s.producer.pending.toList none (dropped s (.produce malloc)) none
      t.producer.pending.toList := by
  unfold innerEnqueue at step
  split at step
  all_goals
    next point =>
      simp only at step
      repeat' split at step
      all_goals first
        | contradiction
        | (cases step
           simp only [dropped, ProducerPoint.pending, *, if_true]
           exact LossyStep.idle rfl)
        | (cases step
           simp only [dropped, ProducerPoint.pending, *]
           exact LossyStep.loses [] [] rfl rfl)

/-- The element of a call goes into the list, unless there is no memory. -/
theorem Represents.delivers {l : List α} (h : Represents s l) {a : QueueAction α}
    (step : queueStep s a = some t) :
    LossyStep s.producer.pending.toList (signalled s a) (dropped s a) a.element?
      t.producer.pending.toList := by
  unfold queueStep at step
  split at step
  · contradiction
  cases a with
  | enqueue x =>
    simp only at step
    split at step
    · next point =>
      cases step
      apply LossyStep.enters
      simp [point, ProducerPoint.pending, QueueAction.element?]
    · contradiction
  | produce malloc =>
    obtain ⟨g, inv, _⟩ := h
    rcases Option.or_eq_some_iff.mp step with inner | ⟨_, signals⟩
    · have quiet : signalled s (.produce malloc) = none := by
        simp [signalled, (inv.innerEnqueue inner).1]
      rw [quiet]
      exact innerEnqueue_pending inner
    · obtain ⟨_, quiet, _⟩ := inv.signal signals
      have done : t.producer.pending = none := by
        rcases (signal_frame signals).2 with point | point | ⟨x, point⟩
        · rw [point]
          rfl
        · rw [point]
          rfl
        · simp [point, ProducerPoint.unsignaled] at quiet
      rw [done]
      cases point : s.producer with
      | signal x =>
        simp only [signalled, dropped, point, ProducerPoint.unsignaled, List.head?_cons]
        exact LossyStep.leaves rfl
      | post =>
        simp only [signalled, dropped, point, ProducerPoint.unsignaled, List.head?_nil]
        exact LossyStep.idle rfl
      | _ => simp [signal, point] at signals
  | tryDequeue | waitDequeue =>
    simp only at step
    split at step
    · cases step
      exact LossyStep.idle rfl
    · contradiction
  | consume acquired =>
    rcases Option.or_eq_some_iff.mp step with inner | ⟨_, waits⟩
    · exact LossyStep.idle (by rw [(innerTryDequeue_frame inner).1])
    · exact LossyStep.idle (by rw [(semaphoreWait_frame waits).1])

theorem dropped_eq_none (plain : ∀ x b, s.producer ≠ .makeBlock x b) (a : QueueAction α) :
    dropped s a = none := by
  cases a with
  | produce malloc =>
    cases point : s.producer with
    | makeBlock x b => exact absurd point (plain x b)
    | _ => simp [dropped, point]
  | _ => rfl

theorem blockingQueue_idle {malloc : Nat → Bool} {size : UInt64}
    (made : blockingQueue malloc size = some s) : s.producer = .idle := by
  obtain ⟨q, _, rfl⟩ := Option.map_eq_some_iff.mp made
  rfl

/-- The elements of the calls of `enqueue` go into the list in their order, except for those that
there was no memory for. -/
theorem QueueRuns.calls {tr : List (BlockingQueue α × QueueAction α)} (run : QueueRuns s tr t)
    (new : Represents s []) (idle : s.producer = .idle) :
    (log signalled tr ++ t.producer.pending.toList).Sublist
        (log (fun _ a => QueueAction.element? a) tr) ∧
      (log signalled tr ++ t.producer.pending.toList ++ log dropped tr).Perm
        (log (fun _ a => QueueAction.element? a) tr) := by
  have kept := run.strengthen (fun u => ∃ l, Represents u l) ⟨[], new⟩
    fun _ _ _ ⟨_, h⟩ _ step => by
      obtain ⟨l', next, _⟩ := h.step step
      exact ⟨l', next⟩
  exact kept.lossyQueue (fun u => u.producer.pending.toList) signalled dropped
    (fun _ a => a.element?) (by rw [idle]; rfl) fun _ _ _ ⟨⟨_, h⟩, _⟩ step => h.delivers step

/-- The consumer gets the elements of the calls of `enqueue` in the order of the calls, each at
most once; the others are still inside, still being put in, or were dropped for want of memory. -/
theorem dequeue_order {malloc : Nat → Bool} {size : UInt64}
    {tr : List (BlockingQueue α × QueueAction α)} (positive : 1 ≤ size.toNat)
    (small : size.toNat < 2 ^ 63) (made : blockingQueue malloc size = some s)
    (run : QueueRuns s tr t) :
    ∃ l, Represents t l ∧
      (Fifo.takes (log queueOp tr) ++ l ++ t.producer.pending.toList).Sublist
        (log (fun _ a => QueueAction.element? a) tr) ∧
      (Fifo.takes (log queueOp tr) ++ l ++ t.producer.pending.toList ++ log dropped tr).Perm
        (log (fun _ a => QueueAction.element? a) tr) := by
  have new : Represents s [] := .new positive small made
  obtain ⟨ops, l, answered, represents, same⟩ := run.represents new
  obtain ⟨sub, perm⟩ := run.calls new (blockingQueue_idle made)
  have order := answered.puts_eq
  rw [same, ← log_signalled] at order
  rw [order] at sub perm
  exact ⟨l, represents, sub, perm⟩

/-- A queue for one element has to make a block for the second one, and there is no memory: the
third element comes out behind the first. -/
theorem dequeue_order_without_memory :
    ∃ (s t : BlockingQueue Nat) (tr : List (BlockingQueue Nat × QueueAction Nat)),
      QueueRuns s tr t ∧ log (fun _ a => QueueAction.element? a) tr = [1, 2, 3] ∧
      Fifo.takes (log queueOp tr) = [1, 3] ∧ log dropped tr = [2] ∧ ∃ l, Represents t l ∧
        (Fifo.takes (log queueOp tr) ++ l ++ t.producer.pending.toList).Sublist
          (log (fun _ a => QueueAction.element? a) tr) ∧
        (Fifo.takes (log queueOp tr) ++ l ++ t.producer.pending.toList ++ log dropped tr).Perm
          (log (fun _ a => QueueAction.element? a) tr) := by
  obtain ⟨s, tr, t, made, run, logs⟩ := exists_queueRun_trace (fun _ => true) 1 (fun _ _ => True)
    (enqueueCall 1 4 ++ enqueueCall 2 3 ++ [.produce false] ++ waitDequeueCall 6 ++
      enqueueCall 3 5 ++ waitDequeueCall 6)
    (fun (tr, _) => decide (log (fun _ a => QueueAction.element? a) tr = [1, 2, 3] ∧
      Fifo.takes (log queueOp tr) = [1, 3] ∧ log dropped tr = [2])) (by decide +kernel)
  obtain ⟨calls, takes, drops⟩ := of_decide_eq_true logs
  exact ⟨s, t, tr, run, calls, takes, drops, dequeue_order (by decide) (by decide) made run⟩

/-- A new queue has room for the elements that it was made for. -/
theorem Spacious.new {malloc : Nat → Bool} {size : UInt64} (positive : 1 ≤ size.toNat)
    (small : size.toNat < 2 ^ 63) (made : blockingQueue malloc size = some s) :
    ∃ n mask, Spacious n mask size.toNat s := by
  obtain ⟨q, constructed, rfl⟩ := Option.map_eq_some_iff.mp made
  obtain ⟨n, k, _, allocated, masks, room⟩ := readerWriterQueue_ring positive small constructed
  refine ⟨n, 2 ^ (k + 1) - 1, ⟨allocated, masks, ?_⟩, trivial⟩
  rcases room with single | ⟨power, several⟩
  · exact .inl single
  · exact .inr (by rwa [power])

/-- A queue made for `size` elements makes no further block and drops nothing, as long as no call
of `enqueue` begins with `size` elements inside. -/
theorem enqueue_never_allocates {malloc : Nat → Bool} {size : UInt64}
    {tr : List (BlockingQueue α × QueueAction α)} (positive : 1 ≤ size.toNat)
    (small : size.toNat < 2 ^ 63) (made : blockingQueue malloc size = some s)
    (run : Run (Steps queueStep) (Light size.toNat) s tr t) :
    t.inner.allocated = s.inner.allocated ∧
      log (fun _ a => QueueAction.element? a) tr =
        Fifo.puts (log queueOp tr) ++ t.producer.pending.toList := by
  obtain ⟨n, mask, spacious⟩ := Spacious.new positive small made
  have new : Represents s [] := .new positive small made
  have step : ∀ (u : BlockingQueue α) a w, ((∃ l, Represents u l) ∧ Spacious n mask size.toNat u) →
      Light size.toNat u a → Steps queueStep u a w →
      (∃ l, Represents w l) ∧ Spacious n mask size.toNat w := by
    intro u a w ⟨⟨l, h⟩, room⟩ light step
    obtain ⟨l', next, _⟩ := h.step step
    obtain ⟨g, inv, _⟩ := h
    exact ⟨⟨l', next⟩, room.step inv light step⟩
  have last := run.invariant _ ⟨⟨[], new⟩, spacious⟩ step
  have none : log dropped tr = [] := by
    rw [log_eq_nil_iff]
    intro x member
    have kept := (run.strengthen _ ⟨⟨[], new⟩, spacious⟩ step).forall_mem x member
    exact dropped_eq_none kept.1.2.plain x.2
  obtain ⟨sub, perm⟩ :=
    QueueRuns.calls (run.mono fun _ _ _ => trivial) new (blockingQueue_idle made)
  rw [none, List.append_nil] at perm
  rw [← log_signalled]
  exact ⟨last.2.fixed.allocated.trans spacious.fixed.allocated.symm,
    (sub.eq_of_length perm.length_eq).symm⟩

/-- A queue for one element goes around its block. -/
theorem enqueue_never_allocates_around :
    ∃ (s t : BlockingQueue Nat) (tr : List (BlockingQueue Nat × QueueAction Nat)),
      blockingQueue (fun _ => true) 1 = some s ∧ t.inner.tailBlock = t.inner.frontBlock ∧
      t.inner.allocated = s.inner.allocated ∧
      log (fun _ a => QueueAction.element? a) tr =
        Fifo.puts (log queueOp tr) ++ t.producer.pending.toList := by
  obtain ⟨s, tr, t, made, run, _, single⟩ := exists_queueRun (fun _ => true) 1 (Light 1)
    (enqueueCall 1 4 ++ waitDequeueCall 6 ++ enqueueCall 2 5 ++ waitDequeueCall 6 ++
      enqueueCall 3 5)
    (fun t : BlockingQueue Nat => t.inner.tailBlock == t.inner.frontBlock) (by decide)
  exact ⟨s, t, tr, made, by simpa using single,
    enqueue_never_allocates (by decide) (by decide) made run⟩

end LibcameraStreamer.Moodycamel
