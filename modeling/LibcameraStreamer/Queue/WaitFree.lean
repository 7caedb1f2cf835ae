import LibcameraStreamer.Queue.Capacity

/-!
# How long a call takes

`enqueue` and `try_dequeue` are wait-free: they take a bounded number of steps of their own thread,
and none of these waits for the other thread. `wait_dequeue` waits at one point only.
-/
namespace LibcameraStreamer.Moodycamel
open Library

variable {α : Type*} {s t : BlockingQueue α} {l : List α}

/-! ## The producer -/

/-- The longest way from a point to the return of `enqueue`. -/
def ProducerPoint.left : ProducerPoint α → Nat
  | .idle => 0
  | .loadTail _ => 9
  | .loadFront .. => 8
  | .loadFrontBlock .. => 7
  | .loadNextFront .. => 6
  | .constructNext .. | .makeBlock .. => 5
  | .storeNextTail .. | .linkBlock .. | .construct .. => 4
  | .storeTail .. | .storeTailBlock .. => 3
  | .signal _ => 2
  | .post => 1

theorem innerEnqueue_left {malloc : Bool} (step : innerEnqueue malloc s = some t)
    (alive : t.fault = none) : t.producer.left < s.producer.left := by
  unfold innerEnqueue at step
  split at step
  all_goals
    next point =>
      simp only at step
      repeat' split at step
      all_goals first
        | contradiction
        | (cases step
           simp_all [ProducerPoint.left])

theorem signal_left (step : signal s = some t) (alive : t.fault = none) :
    t.producer.left < s.producer.left := by
  unfold signal at step
  split at step
  · next x point =>
    split at step <;> cases step
    · contradiction
    · rw [point]
      simp only
      split <;> simp [ProducerPoint.left]
  · next point =>
    cases step
    simp [point, ProducerPoint.left]
  · contradiction

/-- The producer can always go on. -/
theorem produce_enabled (alive : s.fault = none) (busy : s.producer ≠ .idle) (malloc : Bool) :
    ∃ t, queueStep s (.produce malloc) = some t := by
  rw [← Option.isSome_iff_exists]
  unfold queueStep
  split
  · next dead => simp [alive] at dead
  · simp only [Option.isSome_or, Bool.or_eq_true]
    cases point : s.producer with
    | idle => exact absurd point busy
    | signal x =>
      right
      simp only [signal, point]
      split <;> rfl
    | post => exact .inr (by simp [signal, point])
    | _ =>
      left
      simp only [innerEnqueue, point]
      repeat' split
      all_goals rfl

/-! ## The consumer -/

/-- The longest way from a point to the return of the call, if `sem_wait` is not interrupted. -/
def ConsumerPoint.left : ConsumerPoint α → Nat
  | .idle => 0
  | .wait => 1037
  | .spin n => n + 12
  | .decrementWait | .tryWait => 11
  | .semWait | .decrement => 10
  | .loadFront => 9
  | .loadTail .. => 8
  | .loadTailBlock _ => 7
  | .reloadTail => 6
  | .loadNext _ => 5
  | .loadNextTail _ => 4
  | .storeFrontBlock .. => 3
  | .read .. => 2
  | .storeFront .. => 1
  -- after an interruption
  | .restore | .retake | .semTryWait => 0

/-- After an interrupted `sem_wait` the call begins again. -/
def ConsumerPoint.Interrupted (c : ConsumerPoint α) : Prop :=
  c = .restore ∨ c = .retake ∨ c = .semTryWait

theorem innerTryDequeue_left (step : innerTryDequeue s = some t) (alive : t.fault = none) :
    t.consumer.left < s.consumer.left ∧ ¬ t.consumer.Interrupted := by
  unfold innerTryDequeue at step
  split at step
  all_goals
    next point =>
      simp only at step
      repeat' split at step
      all_goals first
        | contradiction
        | (cases step
           simp_all [ConsumerPoint.left, ConsumerPoint.Interrupted])

theorem semaphoreWait_left (step : semaphoreWait true s = some t)
    (regular : ¬ s.consumer.Interrupted) :
    t.consumer.left < s.consumer.left ∧ ¬ t.consumer.Interrupted := by
  unfold semaphoreWait at step
  split at step
  all_goals
    next point =>
      repeat' split at step
      all_goals first
        | contradiction
        | (exfalso
           apply regular
           simp [point, ConsumerPoint.Interrupted]
           done)
        | (cases step
           simp only [point]
           grind [ConsumerPoint.left, ConsumerPoint.Interrupted])

/-- The consumer can always go on, except where it waits for a permit. -/
theorem consume_enabled (h : Represents s l) (busy : s.consumer ≠ .idle) :
    (∃ t, queueStep s (.consume true) = some t) ∨ s.consumer = .semWait ∧ s.semaphore = 0 := by
  rw [← Option.isSome_iff_exists]
  unfold queueStep
  split
  · next dead => simp [h.alive] at dead
  · simp only [Option.isSome_or, Bool.or_eq_true]
    cases point : s.consumer with
    | idle => exact absurd point busy
    | semWait =>
      cases held : s.semaphore with
      | zero => exact .inr ⟨rfl, rfl⟩
      | succ n => simp [semaphoreWait, point, held]
    | spin n => cases n <;> simp [semaphoreWait, point]
    | tryWait | wait | decrement | decrementWait | restore | retake =>
      simp [semaphoreWait, point]
    | semTryWait => cases held : s.semaphore <;> simp [semaphoreWait, point, held]
    | _ =>
      left
      left
      simp only [innerTryDequeue, point]
      repeat' split
      all_goals rfl

/-! ## Steps -/

/-- Steps of the producer, and of the consumer. -/
def produces (_ : BlockingQueue α) : QueueAction α → Bool
  | .produce _ => true
  | _ => false

def consumes (_ : BlockingQueue α) : QueueAction α → Bool
  | .consume _ => true
  | _ => false

/-- No call of the consumer begins, and `sem_wait` is not interrupted. -/
def QueueAction.Undisturbed (a : QueueAction α) : Prop :=
  a ≠ .tryDequeue ∧ a ≠ .waitDequeue ∧ a ≠ .consume false

instance [DecidableEq α] (a : QueueAction α) : Decidable a.Undisturbed :=
  inferInstanceAs (Decidable (_ ∧ _))

/-- Every step of the producer brings the return of its call nearer. -/
theorem Represents.producer_left (h : Represents s l) {a : QueueAction α}
    (quiet : a.element? = none) (step : queueStep s a = some t) :
    t.producer.left + (if produces s a then 1 else 0) ≤ s.producer.left := by
  obtain ⟨_, next, _⟩ := h.step step
  unfold queueStep at step
  split at step
  · contradiction
  cases a with
  | enqueue x => simp [QueueAction.element?] at quiet
  | produce malloc =>
    rcases Option.or_eq_some_iff.mp step with inner | ⟨_, signals⟩
    · exact innerEnqueue_left inner next.alive
    · exact signal_left signals next.alive
  | tryDequeue | waitDequeue =>
    simp only at step
    split at step
    · cases step
      exact le_rfl
    · contradiction
  | consume acquired =>
    have same : t.producer = s.producer := by
      rcases Option.or_eq_some_iff.mp step with inner | ⟨_, waits⟩
      · exact (innerTryDequeue_frame inner).1
      · exact (semaphoreWait_frame waits).1
    rw [same]
    exact le_rfl

/-- Every step of the consumer brings the return of its call nearer. -/
theorem Represents.consumer_left (h : Represents s l) (regular : ¬ s.consumer.Interrupted)
    {a : QueueAction α} (quiet : a.Undisturbed) (step : queueStep s a = some t) :
    t.consumer.left + (if consumes s a then 1 else 0) ≤ s.consumer.left ∧
      ¬ t.consumer.Interrupted := by
  obtain ⟨_, next, _⟩ := h.step step
  unfold queueStep at step
  split at step
  · contradiction
  cases a with
  | enqueue x =>
    simp only at step
    split at step
    · cases step
      exact ⟨le_rfl, regular⟩
    · contradiction
  | produce malloc =>
    have same : t.consumer = s.consumer := by
      rcases Option.or_eq_some_iff.mp step with inner | ⟨_, signals⟩
      · exact innerEnqueue_consumer inner
      · exact signal_consumer signals
    rw [same]
    exact ⟨le_rfl, regular⟩
  | tryDequeue => exact absurd rfl quiet.1
  | waitDequeue => exact absurd rfl quiet.2.1
  | consume acquired =>
    rcases Option.or_eq_some_iff.mp step with inner | ⟨_, waits⟩
    · exact innerTryDequeue_left inner next.alive
    · cases acquired with
      | true => exact semaphoreWait_left waits regular
      | false => exact absurd rfl quiet.2.2

/-! ## Calls -/

theorem ProducerPoint.left_le (p : ProducerPoint α) : p.left ≤ 9 ∧ (p.left = 0 → p = .idle) := by
  cases p <;> simp [ProducerPoint.left]

theorem ConsumerPoint.idle_of_left {c : ConsumerPoint α} (regular : ¬ c.Interrupted)
    (none : c.left = 0) : c = .idle := by
  cases c <;> simp_all [ConsumerPoint.left, ConsumerPoint.Interrupted]

section

variable {malloc : Nat → Bool} {size : UInt64} {u : BlockingQueue α}
  {tr tr' : List (BlockingQueue α × QueueAction α)}

/-- A call of `enqueue` returns after at most nine steps of its own, whatever the consumer does and
whether or not there is memory, and none of these steps waits. -/
theorem enqueue_waitFree (positive : 1 ≤ size.toNat) (small : size.toNat < 2 ^ 63)
    (made : blockingQueue malloc size = some u) (before : QueueRuns u tr s)
    (run : Run (Steps queueStep) (fun _ a => a.element? = none) s tr' t) :
    count produces tr' ≤ 9 ∧ (count produces tr' = 9 → t.producer = .idle) ∧
      (t.producer ≠ .idle → ∀ malloc, ∃ w, queueStep t (.produce malloc) = some w) := by
  obtain ⟨_, l, _, start, _⟩ := before.represents (.new positive small made)
  have keep : ∀ (v : BlockingQueue α) a w, (∃ l, Represents v l) → a.element? = none →
      Steps queueStep v a w → ∃ l, Represents w l := by
    intro v a w ⟨_, h⟩ _ step
    obtain ⟨l', next, _⟩ := h.step step
    exact ⟨l', next⟩
  obtain ⟨_, last⟩ := run.invariant _ ⟨l, start⟩ keep
  have bound := (run.strengthen _ ⟨l, start⟩ keep).countdown (fun v => v.producer.left) produces
    fun _ _ _ ⟨⟨_, h⟩, quiet⟩ step => h.producer_left quiet step
  have long := s.producer.left_le.1
  refine ⟨by omega, fun nine => t.producer.left_le.2 (by omega), fun busy malloc => ?_⟩
  exact produce_enabled last.alive busy malloc

/-- A call of the consumer returns after at most as many steps of its own as are left, 11 for
`try_dequeue` and 1037 for `wait_dequeue`, unless `sem_wait` is interrupted, and none of these
steps waits except for `sem_wait` itself. -/
theorem dequeue_bounded (positive : 1 ≤ size.toNat) (small : size.toNat < 2 ^ 63)
    (made : blockingQueue malloc size = some u) (before : QueueRuns u tr s)
    (regular : ¬ s.consumer.Interrupted)
    (run : Run (Steps queueStep) (fun _ a => a.Undisturbed) s tr' t) :
    count consumes tr' ≤ s.consumer.left ∧
      (count consumes tr' = s.consumer.left → t.consumer = .idle) ∧
      (t.consumer ≠ .idle → (∃ w, queueStep t (.consume true) = some w) ∨
        t.consumer = .semWait ∧ t.semaphore = 0) := by
  obtain ⟨_, l, _, start, _⟩ := before.represents (.new positive small made)
  have keep : ∀ (v : BlockingQueue α) a w, ((∃ l, Represents v l) ∧ ¬ v.consumer.Interrupted) →
      a.Undisturbed → Steps queueStep v a w → (∃ l, Represents w l) ∧ ¬ w.consumer.Interrupted := by
    intro v a w ⟨⟨_, h⟩, regular⟩ quiet step
    obtain ⟨l', next, _⟩ := h.step step
    exact ⟨⟨l', next⟩, (h.consumer_left regular quiet step).2⟩
  obtain ⟨⟨_, last⟩, regularly⟩ := run.invariant _ ⟨⟨l, start⟩, regular⟩ keep
  have bound := (run.strengthen _ ⟨⟨l, start⟩, regular⟩ keep).countdown (fun v => v.consumer.left)
    consumes fun _ _ _ ⟨⟨⟨_, h⟩, regular⟩, quiet⟩ step => (h.consumer_left regular quiet step).1
  refine ⟨by omega, fun all => ?_, fun busy => consume_enabled last busy⟩
  exact ConsumerPoint.idle_of_left regularly (by omega)

end

/-- The second of two calls on a queue for one element makes a block. -/
theorem enqueue_waitFree_allocating :
    ∃ (s t : BlockingQueue Nat) (tr : List (BlockingQueue Nat × QueueAction Nat)),
      s.producer = .loadTail 2 ∧ t.inner.allocated = 2 ∧ count produces tr ≤ 9 ∧
      (count produces tr = 9 → t.producer = .idle) ∧
      (t.producer ≠ .idle → ∀ malloc, ∃ w, queueStep t (.produce malloc) = some w) := by
  obtain ⟨u, tr, s, made, before, _, rest⟩ := exists_queueRun (fun _ => true) 1 (fun _ _ => True)
    (enqueueCall 1 4 ++ [.enqueue 2])
    (fun s : BlockingQueue Nat => s.producer == .loadTail 2 &&
      (exec queueStep (fun _ a => a.element? = none) s (List.replicate 7 (.produce true))).any
        fun t => t.inner.allocated == 2) (by decide)
  rw [Bool.and_eq_true] at rest
  obtain ⟨tr', t, run, made'⟩ := exists_run_of_exec_any rest.2
  exact ⟨s, t, tr', by simpa using rest.1, by simpa using made',
    enqueue_waitFree (by decide) (by decide) made before run⟩

/-- The consumer sleeps until an element comes. -/
theorem dequeue_bounded_sleeping :
    ∃ (s t : BlockingQueue Nat) (tr : List (BlockingQueue Nat × QueueAction Nat)),
      s.consumer = .wait ∧ t.consumer = .idle ∧ count consumes tr ≤ s.consumer.left := by
  obtain ⟨u, tr, s, made, before, _, rest⟩ := exists_queueRun (fun _ => true) 1 (fun _ _ => True)
    [.waitDequeue] (fun s : BlockingQueue Nat => s.consumer == .wait &&
      (exec queueStep (fun _ a => a.Undisturbed) s (List.replicate 1027 (.consume true) ++
        enqueueCall 1 5 ++ List.replicate 5 (.consume true))).any
        fun t => t.consumer == .idle) (by decide +kernel)
  simp only [Bool.and_eq_true, beq_iff_eq] at rest
  obtain ⟨tr', t, run, done⟩ := exists_run_of_exec_any rest.2
  have regular : ¬ s.consumer.Interrupted := by simp [rest.1, ConsumerPoint.Interrupted]
  exact ⟨s, t, tr', rest.1, by simpa using done,
    (dequeue_bounded (by decide) (by decide) made before regular run).1⟩

end LibcameraStreamer.Moodycamel
