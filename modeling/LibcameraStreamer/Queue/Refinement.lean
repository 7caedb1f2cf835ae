import LibcameraStreamer.Queue.Initial

/-!
# The queue is a queue

However the steps of the two threads interleave, the calls take effect as if one after the
other on a list: an element is put in when `signal` counts it, and taken out when it is moved
out of its slot.
-/
namespace LibcameraStreamer.Moodycamel
open Library

variable {α : Type*} {g : Shape α} {s t : BlockingQueue α} {l : List α}

/-- What the blocks hold is the list, and behind it an element that is not yet signalled. -/
def Represents (s : BlockingQueue α) (l : List α) : Prop :=
  ∃ g, Inv s g ∧ g.content = l ++ s.producer.unsignaled

/-! ## One step -/

theorem Represents.alive (h : Represents s l) : s.fault = none := by
  obtain ⟨g, inv, _⟩ := h
  exact inv.alive

/-- Nothing outside a call changes the list. -/
theorem Represents.enqueue (h : Represents s l) (x : α) (point : s.producer = .idle) :
    Represents { s with producer := .loadTail x } l := by
  obtain ⟨g, inv, content⟩ := h
  refine ⟨g, inv.producerPoint ?_ ⟨rfl, rfl⟩ ?_ ?_ trivial, ?_⟩
  · rw [point]
    exact ⟨rfl, rfl, rfl⟩
  · simp [point, ProducerPoint.extra]
  · simp [point, ProducerPoint.ahead]
  · simpa [point, ProducerPoint.unsignaled] using content

/-- The list grows by the element that `signal` counts. -/
theorem Represents.produce (h : Represents s l) {malloc : Bool}
    (step : (innerEnqueue malloc s).or (signal s) = some t) :
    Represents t (l ++ s.producer.unsignaled) := by
  obtain ⟨g, inv, content⟩ := h
  rcases Option.or_eq_some_iff.mp step with inner | ⟨_, signals⟩
  · obtain ⟨quiet, g', kept, grown⟩ := inv.innerEnqueue inner
    refine ⟨g', kept, ?_⟩
    rw [grown, content, quiet, List.append_nil]
  · obtain ⟨kept, quiet, _⟩ := inv.signal signals
    exact ⟨g, kept, by rw [content, quiet, List.append_nil]⟩

/-- What the semaphore has let the consumer have is in the list. -/
theorem Inv.permit_le (inv : Inv s g) (content : g.content = l ++ s.producer.unsignaled)
    (through : s.consumer.permit = 1) : 0 < l.length := by
  have total := inv.semaphore.total
  have floor := inv.semaphore.floor
  have plain := (ConsumerPoint.through through).1
  rw [content, plain.waiting, through, List.length_append] at total
  rw [plain.floor] at floor
  omega

/-- The list shrinks by the element that is moved out. -/
theorem Represents.consume (h : Represents s l) {acquired : Bool}
    (step : (innerTryDequeue s).or (semaphoreWait acquired s) = some t) :
    ∃ l', Represents t l' ∧ l = s.moved ++ l' := by
  obtain ⟨g, inv, content⟩ := h
  rcases Option.or_eq_some_iff.mp step with inner | ⟨_, waits⟩
  · obtain ⟨producer, g', kept, shrunk⟩ := inv.innerTryDequeue inner
    have inside : s.moved.length ≤ l.length := by
      cases point : s.consumer with
      | read f k =>
        obtain ⟨x, stored, _⟩ := inv.dequeueRead point
        have some := inv.permit_le content (by rw [point]; rfl)
        simp only [BlockingQueue.moved, point, stored, Option.toList_some, List.length_singleton]
        omega
      | _ => simp [BlockingQueue.moved, point]
    rw [content] at shrunk
    rcases List.append_eq_append_iff.mp shrunk with ⟨more, moved, rest⟩ | ⟨l', split, rest⟩
    · rw [moved, List.length_append] at inside
      obtain rfl : more = [] := List.length_eq_zero_iff.mp (by omega)
      rw [List.append_nil] at moved
      exact ⟨[], ⟨g', kept, by simp [producer, rest]⟩, by simp [moved]⟩
    · exact ⟨l', ⟨g', kept, by rw [producer, rest]⟩, split⟩
  · obtain ⟨producer, kept⟩ := inv.semaphoreWait waits
    refine ⟨l, ⟨g, kept, by rw [content, producer]⟩, ?_⟩
    cases point : s.consumer with
    | read f k => simp [semaphoreWait, point] at waits
    | _ => simp [BlockingQueue.moved, point]

/-- A call of the consumer begins. -/
theorem Represents.calls (h : Represents s l) {c : ConsumerPoint α} (point : s.consumer = .idle)
    (first : c = .tryWait ∨ c = .wait) : Represents { s with consumer := c } l := by
  obtain ⟨g, inv, content⟩ := h
  exact ⟨g, inv.calls point first, content⟩

/-- `try_dequeue` misses only when nothing is inside. -/
theorem Represents.miss (h : Represents s l) (point : s.consumer = .tryWait)
    (count : ¬ 0 < s.count) : l = [] := by
  obtain ⟨g, inv, content⟩ := h
  have total := inv.semaphore.total
  rw [content, point] at total
  simp only [List.length_append, ConsumerPoint.waiting, ConsumerPoint.permit] at total
  exact List.length_eq_zero_iff.mp (by omega)

/-- Every step of the two threads is the step on the list that it is said to be, or none. -/
theorem Represents.step (h : Represents s l) {a : QueueAction α} (step : queueStep s a = some t) :
    ∃ l', Represents t l' ∧ Performs Fifo.Step l (queueOp s a) l' := by
  unfold queueStep at step
  split at step
  · contradiction
  cases a with
  | enqueue x =>
    simp only at step
    split at step
    · next point =>
      cases step
      exact ⟨l, h.enqueue x point, rfl⟩
    · contradiction
  | produce malloc =>
    refine ⟨_, h.produce step, ?_⟩
    cases point : s.producer with
    | signal x => simpa [Performs, queueOp, point, ProducerPoint.unsignaled] using Fifo.Step.put l x
    | _ => simp [Performs, queueOp, point, ProducerPoint.unsignaled]
  | tryDequeue =>
    simp only at step
    split at step
    · next point =>
      cases step
      exact ⟨l, h.calls point (.inl rfl), rfl⟩
    · contradiction
  | waitDequeue =>
    simp only at step
    split at step
    · next point =>
      cases step
      exact ⟨l, h.calls point (.inr rfl), rfl⟩
    · contradiction
  | consume acquired =>
    obtain ⟨l', kept, split⟩ := h.consume step
    refine ⟨l', kept, ?_⟩
    cases point : s.consumer with
    | read f k =>
      obtain ⟨g, inv, _⟩ := h
      obtain ⟨x, stored, _⟩ := inv.dequeueRead point
      simp only [BlockingQueue.moved, point, stored, Option.toList_some] at split
      simpa [Performs, queueOp, point, stored, split] using Fifo.Step.take x l'
    | tryWait =>
      simp only [BlockingQueue.moved, point, List.nil_append] at split
      simp only [Performs, queueOp, point]
      by_cases positive : 0 < s.count
      · simp [positive, split]
      · rw [if_neg positive, ← split, h.miss point positive]
        exact Fifo.Step.miss
    | _ =>
      simp only [BlockingQueue.moved, point, List.nil_append] at split
      simp [Performs, queueOp, point, split]

/-! ## Runs -/

/-- A new queue is empty. -/
theorem Represents.new {malloc : Nat → Bool} {size : UInt64} (positive : 1 ≤ size.toNat)
    (small : size.toNat < 2 ^ 63) (made : blockingQueue malloc size = some s) :
    Represents s ([] : List α) := by
  obtain ⟨q, constructed, rfl⟩ := Option.map_eq_some_iff.mp made
  obtain ⟨n, k, ring, allocated, _⟩ := readerWriterQueue_ring positive small constructed
  refine ⟨initialShape n, ⟨rfl, ring, ?_, ?_, ?_⟩, by simp [initialShape_content,
    ProducerPoint.unsignaled]⟩
  · refine ⟨fun _ _ => rfl, fun _ _ => rfl, fun a bound => .inl ?_, trivial⟩
    rw [initialShape_ring, List.mem_range]
    exact allocated ▸ bound
  · exact ⟨fun _ _ => rfl, trivial⟩
  · exact ⟨by simp [initialShape_content, ConsumerPoint.waiting, ConsumerPoint.permit,
      ProducerPoint.unsignaled], le_rfl, rfl⟩

/-- The runs of the two threads, with the operating system's answers. -/
abbrev QueueRuns (s : BlockingQueue α) (tr : List (BlockingQueue α × QueueAction α))
    (t : BlockingQueue α) : Prop := Run (Steps queueStep) (fun _ _ => True) s tr t

theorem QueueRuns.represents {tr : List (BlockingQueue α × QueueAction α)} (run : QueueRuns s tr t)
    (start : Represents s l) :
    ∃ ops l', Fifo.Runs l ops l' ∧ Represents t l' ∧ ops.map Prod.snd = log queueOp tr :=
  run.forwardSimulation Represents queueOp start (fun _ _ _ _ _ _ step h => h.step step)
    fun _ _ _ _ _ _ => trivial

/-- Performing a list of actions on a new queue gives a run. -/
theorem exists_queueRun (malloc : Nat → Bool) (size : UInt64)
    (E : BlockingQueue α → QueueAction α → Prop) [∀ s a, Decidable (E s a)]
    (as : List (QueueAction α)) (p : BlockingQueue α → Bool)
    (h : ((blockingQueue malloc size).bind fun s => exec queueStep E s as).any p = true) :
    ∃ s tr t, blockingQueue malloc size = some s ∧ Run (Steps queueStep) E s tr t ∧
      tr.map Prod.snd = as ∧ p t = true := by
  cases made : (blockingQueue malloc size : Option (BlockingQueue α)) with
  | none => simp [made] at h
  | some s =>
    rw [made, Option.bind_some] at h
    cases last : exec queueStep E s as with
    | none => simp [last] at h
    | some t =>
      obtain ⟨tr, run, actions⟩ := exists_run_of_exec last
      exact ⟨s, tr, t, rfl, run, actions, by simpa [last] using h⟩

/-- The same with what its trace satisfies. -/
theorem exists_queueRun_trace (malloc : Nat → Bool) (size : UInt64)
    (E : BlockingQueue α → QueueAction α → Prop) [∀ s a, Decidable (E s a)]
    (as : List (QueueAction α))
    (p : List (BlockingQueue α × QueueAction α) × BlockingQueue α → Bool)
    (h : ((blockingQueue malloc size).bind fun s => execTrace queueStep E s as).any p = true) :
    ∃ s tr t, blockingQueue malloc size = some s ∧ Run (Steps queueStep) E s tr t ∧
      p (tr, t) = true := by
  cases made : (blockingQueue malloc size : Option (BlockingQueue α)) with
  | none => simp [made] at h
  | some s =>
    rw [made, Option.bind_some] at h
    obtain ⟨tr, t, run, last⟩ := exists_run_of_execTrace_any h
    exact ⟨s, tr, t, rfl, run, last⟩

/-- A call of `enqueue` and `k` steps of the producer. -/
def enqueueCall (x : α) (k : Nat) : List (QueueAction α) :=
  .enqueue x :: List.replicate k (.produce true)

/-- A call of `wait_dequeue` and `k` steps of the consumer. -/
def waitDequeueCall (k : Nat) : List (QueueAction α) :=
  .waitDequeue :: List.replicate k (.consume true)

-- The queue for no element: the block of one slot comes around, and the third element is not
-- seen in it.
example : ((blockingQueue (fun _ => true) 0).bind fun s => exec queueStep (fun _ _ => True) s
    (enqueueCall 1 7 ++ waitDequeueCall 11 ++ enqueueCall 2 5 ++ enqueueCall 3 8 ++
      waitDequeueCall 6 ++ waitDequeueCall 8)).any (fun t => t.fault == some .assertion) := by
  decide +kernel

/-- No wakeup is lost, and none is sent for nothing. -/
theorem Represents.semWait (h : Represents s l) (waits : s.consumer = .semWait) :
    l = [] ↔ s.semaphore = 0 ∧ s.producer ≠ .post := by
  obtain ⟨g, inv, content⟩ := h
  obtain ⟨total, floor, posts⟩ := inv.semaphore
  rw [content, waits, List.length_append] at total
  rw [waits] at floor posts
  simp only [ConsumerPoint.waiting, ConsumerPoint.permit, ConsumerPoint.floor,
    ConsumerPoint.wakes] at total floor posts
  have posting : s.producer.posting = 0 ↔ s.producer ≠ .post := by
    cases s.producer <;> simp [ProducerPoint.posting]
  rw [← List.length_eq_zero_iff, ← posting]
  split at posts <;> omega

/-- `wait_dequeue` sleeps, with no permit there and none on its way, exactly when everything that
was put in has been taken out. -/
theorem waitDequeue_sleeps_iff {malloc : Nat → Bool} {size : UInt64}
    {tr : List (BlockingQueue α × QueueAction α)} (positive : 1 ≤ size.toNat)
    (small : size.toNat < 2 ^ 63) (made : blockingQueue malloc size = some s)
    (run : QueueRuns s tr t) (waits : t.consumer = .semWait) :
    Fifo.takes (log queueOp tr) = Fifo.puts (log queueOp tr) ↔
      t.semaphore = 0 ∧ t.producer ≠ .post := by
  obtain ⟨ops, l, answered, represents, same⟩ := run.represents (.new positive small made)
  have order := answered.puts_eq
  rw [same] at order
  rw [← represents.semWait waits, order]
  simp

/-- An element has been put in and taken out, and the consumer sleeps on the empty queue. When the
next element is counted, the permit is on its way. -/
theorem waitDequeue_sleeps_iff_posted :
    ∃ (s t u : BlockingQueue Nat) (tr more : List (BlockingQueue Nat × QueueAction Nat)),
      QueueRuns s tr t ∧ t.consumer = .semWait ∧ Fifo.puts (log queueOp tr) = [7] ∧
      Fifo.takes (log queueOp tr) = [7] ∧ t.semaphore = 0 ∧ t.producer ≠ .post ∧
      QueueRuns s (tr ++ more) u ∧ u.consumer = .semWait ∧ u.producer = .post ∧
      Fifo.takes (log queueOp (tr ++ more)) ≠ Fifo.puts (log queueOp (tr ++ more)) := by
  obtain ⟨s, tr, t, made, run, here⟩ := exists_queueRun_trace (fun _ => true) 15 (fun _ _ => True)
    (enqueueCall 7 4 ++ waitDequeueCall 6 ++ waitDequeueCall 1027)
    (fun (tr, t) => decide (t.consumer = .semWait ∧ Fifo.puts (log queueOp tr) = [7] ∧
      Fifo.takes (log queueOp tr) = [7]) &&
      (exec queueStep (fun _ _ => True) t (enqueueCall 8 4)).any
        fun u => decide (u.consumer = .semWait ∧ u.producer = .post)) (by decide +kernel)
  rw [Bool.and_eq_true, decide_eq_true_eq] at here
  obtain ⟨⟨waits, puts, takes⟩, rest⟩ := here
  obtain ⟨more, u, later, posted⟩ := exists_run_of_exec_any rest
  obtain ⟨waits', posting⟩ := of_decide_eq_true posted
  have whole := run.trans later
  have sleeps := (waitDequeue_sleeps_iff (by decide) (by decide) made run waits).mp
    (takes.trans puts.symm)
  refine ⟨s, t, u, tr, more, run, waits, puts, takes, sleeps.1, sleeps.2, whole, waits', posting,
    fun same => ?_⟩
  exact ((waitDequeue_sleeps_iff (by decide) (by decide) made whole waits').mp same).2 posting

end LibcameraStreamer.Moodycamel
