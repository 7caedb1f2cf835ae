import LibcameraStreamer.Queue.Capacity

/-!
# What the caller of a queue sees

A call is settled by one of its steps: that of `enqueue` when the element is counted, that of
`try_dequeue` and `wait_dequeue` when an element is moved out or none is found.
-/
namespace LibcameraStreamer.Moodycamel
open Library

variable {α : Type*} {s t : BlockingQueue α} {l : List α}

/-- The call of the consumer is not settled. -/
def ConsumerPoint.unsettled : ConsumerPoint α → Bool
  | .idle | .storeFront .. => false
  | _ => true

/-- The element that the call is about to return. -/
def ConsumerPoint.result : ConsumerPoint α → Option α
  | .storeFront _ _ x => some x
  | _ => none

/-- A step of a running `enqueue`. -/
theorem Represents.produce_call (h : Represents s l) (plain : ∀ x b, s.producer ≠ .makeBlock x b)
    {malloc : Bool} (step : queueStep s (.produce malloc) = some t) :
    t.consumer = s.consumer ∧
      match queueOp s (.produce malloc) with
      | none => t.producer.pending = s.producer.pending
      | some op => ∃ x, op = .put x ∧ s.producer.pending = some x ∧ t.producer.pending = none := by
  have delivers := h.delivers step
  rw [dropped_eq_none plain] at delivers
  have consumer : t.consumer = s.consumer := by
    simp only [queueStep, h.alive] at step
    rcases Option.or_eq_some_iff.mp step with inner | ⟨_, signals⟩
    · exact innerEnqueue_consumer inner
    · exact signal_consumer signals
  refine ⟨consumer, ?_⟩
  obtain ⟨front, back, before, after⟩ := delivers
  cases point : s.producer with
  | signal x =>
    simp only [queueOp, point, signalled, ProducerPoint.unsignaled, ProducerPoint.pending,
      Option.toList_some, List.head?_cons, List.cons_append, List.nil_append, Option.toList_none,
      QueueAction.element?, List.append_nil] at before after ⊢
    obtain ⟨rfl, rfl⟩ : front = [] ∧ back = [] := by simpa using before
    exact ⟨x, rfl, rfl, by simpa using after⟩
  | _ =>
    simp only [queueOp, point, signalled, ProducerPoint.unsignaled, List.head?_nil,
      Option.toList_none, List.nil_append, QueueAction.element?, List.append_nil] at before after ⊢
    rw [← before] at after
    simpa [ProducerPoint.pending] using congrArg List.head? after

/-- A step of a running call of the consumer. -/
theorem Represents.consume_call (h : Represents s l) {acquired : Bool}
    (step : queueStep s (.consume acquired) = some t) :
    t.producer = s.producer ∧
      match queueOp s (.consume acquired) with
      | none => s.consumer.unsettled = true ∧ t.consumer.unsettled = true ∧
            t.consumer ≠ .tryWait ∨
          (∃ x, s.consumer.result = some x) ∧ t.consumer = .idle
      | some (.put _) => False
      | some (.take x) => s.consumer.unsettled = true ∧ t.consumer.result = some x
      | some .miss => s.consumer = .tryWait ∧ t.consumer = .idle := by
  have alive := h.alive
  simp only [queueStep, alive] at step
  have producer : t.producer = s.producer := by
    rcases Option.or_eq_some_iff.mp step with inner | ⟨_, waits⟩
    · exact (innerTryDequeue_frame inner).1
    · exact (semaphoreWait_frame waits).1
  refine ⟨producer, ?_⟩
  cases point : s.consumer with
  | read f k =>
    obtain ⟨g, inv, _⟩ := h
    obtain ⟨x, stored, _⟩ := inv.dequeueRead point
    simp only [innerTryDequeue, point, stored, Option.some_or, Option.some.injEq] at step
    subst step
    simp [queueOp, point, stored, ConsumerPoint.unsettled, ConsumerPoint.result]
  | tryWait =>
    simp only [innerTryDequeue, semaphoreWait, point, Option.none_or, Option.some.injEq] at step
    subst step
    by_cases positive : 0 < s.count <;>
      simp [queueOp, point, positive, ConsumerPoint.unsettled]
  | storeFront f k x =>
    simp only [innerTryDequeue, point, Option.some_or, Option.some.injEq] at step
    subst step
    simp [queueOp, point, ConsumerPoint.result]
  | idle => simp [innerTryDequeue, semaphoreWait, point] at step
  | _ =>
    simp only [queueOp, point]
    left
    refine ⟨rfl, ?_⟩
    simp only [innerTryDequeue, semaphoreWait, point] at step
    grind [ConsumerPoint.unsettled]

/-- The room that is taken: what is inside, and the element that a call is about to return. -/
theorem Represents.load_eq (h : Represents s l) :
    s.load = l.length + s.consumer.result.toList.length := by
  obtain ⟨g, inv, content⟩ := h
  have load := inv.load_eq
  have knows := inv.consumer.knows
  have taken := inv.consumer.taken _ inv.ring.frontBlock_mem
  rw [content, List.length_append, taken] at load
  have hand : (s.consumer.taken s.inner.frontBlock : Int) =
      s.consumer.result.toList.length := by
    cases point : s.consumer with
    | storeFront f k x =>
      rw [point] at knows
      simp [ConsumerPoint.taken, ConsumerPoint.result, knows.1]
    | _ => simp [ConsumerPoint.taken, ConsumerPoint.result]
  push_cast at load
  omega

end LibcameraStreamer.Moodycamel
