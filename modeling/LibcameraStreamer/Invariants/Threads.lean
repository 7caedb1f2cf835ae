import LibcameraStreamer.Invariants.Channels
import LibcameraStreamer.Queue.Calls

/-!
# The pipeline over its queues refines the pipeline over lists

Every run of the threads over the four `BlockingReaderWriterQueue`s is a run of `step`, in which
each call is one step: the one that puts an element in, takes one out or misses. What holds in
every run of `step` therefore holds of the program with its queues.
-/
namespace LibcameraStreamer
open Library Moodycamel

variable {cfg : Config} {t u : ThreadedState} {l : (c : Channel) → List c.Element}
  {n mask : Channel → Nat}

/-- A thread inside a call stands at it until it is settled, and has what it returns. -/
structure InCall (cfg : Config) (c : Channel) (q : BlockingQueue c.Element) (s : State) : Prop where
  pending : ∀ x, q.producer.pending = some x → s.argument cfg c = some x
  unsettled : q.consumer.unsettled = true → s.stands cfg c.consumer = some c
  trying : q.consumer = .tryWait → c = .availableInputBuffers
  result : ∀ x, q.consumer.result = some x → s.received c = some x

/-- The queues hold `l`, and they have made no further blocks. -/
structure Coupled (cfg : Config) (n mask : Channel → Nat) (t : ThreadedState)
    (l : (c : Channel) → List c.Element) : Prop where
  represents : ∀ c, Represents (t.queue c) (l c)
  spacious : ∀ c, Spacious (n c) (mask c) 15 (t.queue c)
  inCall : ∀ c, InCall cfg c (t.queue c) t.state

theorem State.producer_ne_consumer (s : State) (c : Channel) :
    some (s.producer c) ≠ some c.consumer := by
  cases c with
  | availableInputBuffers => cases main : s.main <;> simp [State.producer, Channel.consumer, main]
  | _ => simp [State.producer, Channel.consumer]

/-- The calls of other threads than the one that makes a step. -/
theorem InCall.undisturbed {c : Channel} {q : BlockingQueue c.Element} {s s' : State}
    {T : Option Thread} (h : InCall cfg c q s) (other : Undisturbed cfg T s s')
    (producer : q.producer.pending ≠ none → T ≠ some (s.producer c))
    (consumer : q.consumer.unsettled = true ∨ q.consumer.result ≠ none → T ≠ some c.consumer) :
    InCall cfg c q s' where
  pending x inside := other.argument c x (producer (by simp [inside])) (h.pending x inside)
  unsettled inside := other.stands _ c (consumer (.inl inside)) (h.unsettled inside)
  trying := h.trying
  result x inside :=
    other.received c x (consumer (.inr (by simp [inside]))) (h.result x inside)

/-- A step outside the queues. -/
theorem Coupled.own {s : State} {T : Option Thread} (h : Coupled cfg n mask t l)
    (free : ∀ T' ∈ T, ¬ t.Busy T') (other : Undisturbed cfg T t.state s) :
    Coupled cfg n mask { t with state := s } l where
  represents := h.represents
  spacious := h.spacious
  inCall c := by
    refine (h.inCall c).undisturbed other (fun inside here => ?_) fun inside here => ?_
    · refine free _ here ⟨c, .inl ⟨rfl, fun idle => ?_⟩⟩
      simp [idle, ProducerPoint.pending] at inside
    · refine free _ here ⟨c, .inr ⟨rfl, fun idle => ?_⟩⟩
      simp [idle, ConsumerPoint.unsettled, ConsumerPoint.result] at inside

/-- A step of a call. The calls of the other queues are those of other threads. -/
theorem Coupled.call (h : Coupled cfg n mask t l) {c : Channel} {q : BlockingQueue c.Element}
    {s : State} {l' : List c.Element} (represents : Represents q l')
    (spacious : Spacious (n c) (mask c) 15 q) (inCall : InCall cfg c q s)
    (others : s = t.state ∨
      ∃ T, t.state.stands cfg T = some c ∧ Undisturbed cfg (some T) t.state s) :
    Coupled cfg n mask ⟨s, Function.update t.queue c q⟩ (Function.update l c l') := by
  refine ⟨fun c' => ?_, fun c' => ?_, fun c' => ?_⟩ <;> by_cases same : c' = c
  · subst same
    simpa using represents
  · simpa [same] using h.represents c'
  · subst same
    simpa using spacious
  · simpa [same] using h.spacious c'
  · subst same
    simpa using inCall
  · simp only [Function.update_of_ne same]
    rcases others with rfl | ⟨T, stands, other⟩
    · exact h.inCall c'
    · refine (h.inCall c').undisturbed other (fun inside here => ?_) fun inside here => ?_
      · cases here
        obtain ⟨x, pending⟩ := Option.ne_none_iff_exists'.mp inside
        have puts := State.stands_of_argument ((h.inCall c').pending x pending)
        exact same (Option.some.inj (puts.symm.trans stands))
      · cases here
        rcases inside with unsettled | result
        · have takes := (h.inCall c').unsettled unsettled
          exact same (Option.some.inj (takes.symm.trans stands))
        · obtain ⟨x, got⟩ := Option.ne_none_iff_exists'.mp result
          have gone : t.state.stands cfg c'.consumer = none :=
            State.stands_of_received ((h.inCall c').result x got)
          rw [stands] at gone
          contradiction

/-! ## One step of a call -/

@[simp] theorem State.content_withContent (s : State) (l : (c : Channel) → List c.Element) :
    (s.withContent l).content = l := by
  funext c
  cases c <;> rfl

@[simp] theorem Thread.thread_action (T : Thread) : T.action.thread = some T := by
  cases T <;> rfl

theorem Undisturbed.of_withContent {T : Option Thread} {s s' : State}
    {l l' : (c : Channel) → List c.Element}
    (h : Undisturbed cfg T (s.withContent l) (s'.withContent l')) : Undisturbed cfg T s s' where
  argument c x := by
    have argument := h.argument c x
    cases c <;> exact argument
  stands T' c := by
    have stands := h.stands T' c
    cases T' <;> exact stands
  received c x := by
    have received := h.received c x
    cases c <;> exact received

/-- A call of `enqueue` begins with room in the queue. -/
theorem Coupled.light (h : Coupled cfg n mask t l) {c : Channel} {a : QueueAction c.Element}
    (may : t.MayCall cfg c a) (room : ∀ x, t.state.argument cfg c = some x →
      (l c).length + (t.state.received c).toList.length < 15) : Light 15 (t.queue c) a := by
  intro enqueues
  cases a with
  | enqueue x =>
    have load := (h.represents c).load_eq
    have hand : (t.queue c).consumer.result.toList.length ≤
        (t.state.received c).toList.length := by
      cases got : (t.queue c).consumer.result with
      | none => simp
      | some y => simp [(h.inCall c).result y got]
    have space := room x may.1
    omega
  | _ => simp [QueueAction.element?] at enqueues

/-- What a step of a call comes to in the pipeline: nothing, or the caller's step there. -/
def Settles (cfg : Config) (t : ThreadedState) (l : (c : Channel) → List c.Element)
    (c : Channel) (q : BlockingQueue c.Element) (l' : List c.Element) :
    Option (Fifo.Op c.Element) → Prop
  | none => l' = l c ∧ InCall cfg c q t.state
  | some op => ∃ s, t.state.resume cfg c op = some s ∧
      step cfg (t.state.withContent l) (t.state.caller c op).action =
        some (s.withContent (Function.update l c l')) ∧
      t.state.stands cfg (t.state.caller c op) = some c ∧ InCall cfg c q s

section Call

variable {c : Channel} {q : BlockingQueue c.Element} {l' : List c.Element}

/-- A call begins. -/
theorem Coupled.begins (h : Coupled cfg n mask t l) {a : QueueAction c.Element}
    (may : t.MayCall cfg c a) (moves : queueStep (t.queue c) a = some q)
    (begins : (∀ m, a ≠ .produce m) ∧ ∀ b, a ≠ .consume b) :
    queueOp (t.queue c) a = none ∧ InCall cfg c q t.state := by
  obtain ⟨pending, unsettled, trying, result⟩ := h.inCall c
  simp only [queueStep, (h.represents c).alive] at moves
  cases a with
  | enqueue x =>
    refine ⟨rfl, ?_⟩
    simp only at moves
    split at moves <;> cases moves
    refine ⟨fun y here => ?_, unsettled, trying, result⟩
    obtain rfl : x = y := by simpa [ProducerPoint.pending] using here
    exact may.1
  | tryDequeue | waitDequeue =>
    refine ⟨rfl, ?_⟩
    simp only at moves
    split at moves <;> cases moves
    refine ⟨pending, fun _ => may.2.1, ?_, ?_⟩
    · simp [may.1]
    · simp [ConsumerPoint.result]
  | produce m => exact absurd rfl (begins.1 m)
  | consume b => exact absurd rfl (begins.2 b)

/-- A running `enqueue`. -/
theorem Coupled.produces (h : Coupled cfg n mask t l) (alive : t.state.fault = none)
    (phase : Phase (t.state.withContent l)) {malloc : Bool}
    (moves : queueStep (t.queue c) (.produce malloc) = some q)
    (moved : Performs Fifo.Step (l c) (queueOp (t.queue c) (.produce malloc)) l') :
    Settles cfg t l c q l' (queueOp (t.queue c) (.produce malloc)) := by
  obtain ⟨consumer, settles⟩ := (h.represents c).produce_call (h.spacious c).plain moves
  obtain ⟨pending, unsettled, trying, result⟩ := h.inCall c
  generalize queueOp (t.queue c) (.produce malloc) = op at settles moved
  cases op with
  | none =>
    simp only at settles
    refine ⟨moved, by rwa [settles], ?_, ?_, ?_⟩ <;> rwa [consumer]
  | some op =>
    obtain ⟨x, rfl, here, done⟩ := settles
    obtain rfl := Fifo.Step.of_put moved
    have puts := pending x here
    obtain ⟨s, resumes, steps⟩ := State.resume_put alive puts
    have other := ((step_cases steps).2.undisturbed phase).of_withContent
    rw [Thread.thread_action] at other
    have apart := t.state.producer_ne_consumer c
    refine ⟨s, resumes, steps, State.stands_of_argument puts, ?_, ?_, ?_, ?_⟩
    · simp [done]
    · rw [consumer]
      exact fun inside => other.stands _ c apart (unsettled inside)
    · rwa [consumer]
    · rw [consumer]
      exact fun y got => other.received c y apart (result y got)

/-- A running `try_dequeue` or `wait_dequeue`. -/
theorem Coupled.consumes (h : Coupled cfg n mask t l) (alive : t.state.fault = none)
    (phase : Phase (t.state.withContent l)) {acquired : Bool}
    (moves : queueStep (t.queue c) (.consume acquired) = some q)
    (moved : Performs Fifo.Step (l c) (queueOp (t.queue c) (.consume acquired)) l') :
    Settles cfg t l c q l' (queueOp (t.queue c) (.consume acquired)) := by
  obtain ⟨producer, settles⟩ := (h.represents c).consume_call moves
  obtain ⟨pending, unsettled, trying, result⟩ := h.inCall c
  have apart := (t.state.producer_ne_consumer c).symm
  generalize queueOp (t.queue c) (.consume acquired) = op at settles moved
  match op, settles with
  | none, .inl ⟨before, after, looks⟩ =>
    refine ⟨moved, by rwa [producer], fun _ => unsettled before, fun here => absurd here looks,
      fun x got => ?_⟩
    cases point : q.consumer <;>
      simp [point, ConsumerPoint.unsettled, ConsumerPoint.result] at after got
  | none, .inr ⟨_, done⟩ =>
    refine ⟨moved, by rwa [producer], ?_, ?_, ?_⟩ <;>
      simp [done, ConsumerPoint.unsettled, ConsumerPoint.result]
  | some (.take x), ⟨before, after⟩ =>
    have takes := unsettled before
    obtain ⟨s, resumes, got, steps⟩ := State.resume_take alive takes (Fifo.Step.of_take moved)
    have other := ((step_cases steps).2.undisturbed phase).of_withContent
    rw [Thread.thread_action] at other
    refine ⟨s, resumes, steps, takes, fun y here => ?_, fun here => ?_, fun here => ?_,
      fun y here => ?_⟩
    · rw [producer] at here
      exact other.argument c y apart (pending y here)
    · cases point : q.consumer <;>
        simp [point, ConsumerPoint.unsettled, ConsumerPoint.result] at after here
    · simp [here, ConsumerPoint.result] at after
    · rw [after] at here
      cases here
      exact got
  | some .miss, ⟨before, after⟩ =>
    obtain rfl := trying before
    have takes := unsettled (by rw [before]; rfl)
    obtain ⟨empty, rfl⟩ := Fifo.Step.of_miss moved
    obtain ⟨s, resumes, steps⟩ := State.resume_miss alive takes empty
    have other := ((step_cases steps).2.undisturbed phase).of_withContent
    rw [Thread.thread_action] at other
    refine ⟨s, resumes, ?_, takes, fun y here => ?_, ?_, ?_, ?_⟩
    · rw [← empty, Function.update_eq_self]
      exact steps
    · rw [producer] at here
      exact other.argument _ y apart (pending y here)
    all_goals simp [after, ConsumerPoint.unsettled, ConsumerPoint.result]

/-- Every step of a call keeps the queues coupled, and comes to a step of the pipeline or none. -/
theorem Coupled.step_call (h : Coupled cfg n mask t l) (alive : t.state.fault = none)
    (phase : Phase (t.state.withContent l))
    (room : ∀ c x, t.state.argument cfg c = some x →
      (l c).length + (t.state.received c).toList.length < 15)
    {a : QueueAction c.Element} (may : t.MayCall cfg c a)
    (moves : queueStep (t.queue c) a = some q) :
    ∃ l', Represents q l' ∧ Spacious (n c) (mask c) 15 q ∧
      Settles cfg t l c q l' (queueOp (t.queue c) a) := by
  obtain ⟨l', represents, moved⟩ := (h.represents c).step moves
  obtain ⟨g, inv, _⟩ := h.represents c
  refine ⟨l', represents, (h.spacious c).step inv (h.light may (room c)) moves, ?_⟩
  cases a with
  | produce m => exact h.produces alive phase moves moved
  | consume b => exact h.consumes alive phase moves moved
  | enqueue | tryDequeue | waitDequeue =>
    obtain ⟨quiet, inCall⟩ := h.begins may moves (by simp)
    rw [quiet] at moved ⊢
    exact ⟨moved, inCall⟩

end Call

/-! ## Runs -/

/-- The state of the pipeline over lists. -/
def ThreadedState.Abstracts (cfg : Config) (n mask : Channel → Nat) (t : ThreadedState)
    (s : State) : Prop :=
  t.state.withContent s.content = s ∧ Coupled cfg n mask t s.content

/-- A step outside the queues. -/
theorem ThreadedState.Abstracts.own {s s' : State} (h : t.Abstracts cfg n mask s) {a : Action}
    (phase : Phase (t.state.withContent s.content))
    (free : ∀ T ∈ a.thread, ¬ t.Busy T ∧ t.state.stands cfg T = none)
    (moves : step cfg t.state a = some s') :
    ThreadedState.Abstracts cfg n mask { t with state := s' } (s'.withContent s.content) ∧
      step cfg s a = some (s'.withContent s.content) := by
  obtain ⟨same, coupled⟩ := h
  obtain ⟨alive, moved⟩ := step_cases moves
  have moved := moved.withContent (l := s.content) fun T here => (free T here).2
  have other := (moved.undisturbed phase).of_withContent
  refine ⟨⟨by simp, ?_⟩, ?_⟩
  · simpa using coupled.own (fun T here => (free T here).1) other
  · have steps := moved.step_eq alive
    rwa [same] at steps

/-- A step of a call that settles nothing. -/
theorem ThreadedState.Abstracts.goesOn {s : State} (h : t.Abstracts cfg n mask s) {c : Channel}
    {q : BlockingQueue c.Element} {l' : List c.Element} (represents : Represents q l')
    (spacious : Spacious (n c) (mask c) 15 q) (settles : Settles cfg t s.content c q l' none) :
    ThreadedState.Abstracts cfg n mask { t with queue := Function.update t.queue c q } s := by
  obtain ⟨rfl, inCall⟩ := settles
  have kept := h.2.call represents spacious inCall (.inl rfl)
  rw [Function.update_eq_self] at kept
  exact ⟨h.1, kept⟩

/-- The step that settles a call is the caller's step of the pipeline. -/
theorem ThreadedState.Abstracts.settled {s : State} (h : t.Abstracts cfg n mask s) {c : Channel}
    {q : BlockingQueue c.Element} {l' : List c.Element} {op : Fifo.Op c.Element}
    (phase : Phase (t.state.withContent s.content)) (represents : Represents q l')
    (spacious : Spacious (n c) (mask c) 15 q)
    (settles : Settles cfg t s.content c q l' (some op)) :
    ∃ s' s'', t.state.resume cfg c op = some s' ∧
      ThreadedState.Abstracts cfg n mask ⟨s', Function.update t.queue c q⟩ s'' ∧
      step cfg s (t.state.caller c op).action = some s'' := by
  obtain ⟨s', resumes, steps, stands, inCall⟩ := settles
  have other := ((step_cases steps).2.undisturbed phase).of_withContent
  rw [Thread.thread_action] at other
  have kept := h.2.call represents spacious inCall (.inr ⟨_, stands, other⟩)
  rw [h.1] at steps
  exact ⟨s', _, resumes, ⟨by simp, by simpa using kept⟩, steps⟩

/-- What a step of a call leads to. It is taken as soon as the queue can take it. -/
theorem ThreadedState.Abstracts.step_call {s : State} (h : t.Abstracts cfg n mask s)
    {E : State → Action → Prop} {tr : List (State × Action)} (run : PipelineRun cfg E tr s)
    (small : ∀ c : Channel, c.capacity cfg ≤ 15) {c : Channel} {a : QueueAction c.Element}
    {q : BlockingQueue c.Element} (alive : t.state.fault = none) (may : t.MayCall cfg c a)
    (moves : queueStep (t.queue c) a = some q) :
    ∃ u s', threadedStep cfg t (.call c a) = some u ∧ u.Abstracts cfg n mask s' ∧
      Performs (Steps (step cfg)) s (performed t (.call c a)) s' := by
  have phase := run.phase
  have room : ∀ c x, t.state.argument cfg c = some x →
      (s.content c).length + (t.state.received c).toList.length < 15 := by
    intro c x puts
    have space := fun puts => (run.room c (x := x) puts).trans_le (small c)
    rw [← h.1] at space
    cases c <;> exact space puts
  rw [← h.1] at phase
  obtain ⟨l', represents, spacious, settles⟩ := h.2.step_call alive phase room may moves
  simp only [threadedStep, performed, alive, may, and_self, if_true, moves]
  generalize queueOp (t.queue c) a = op at settles
  cases op with
  | none => exact ⟨_, s, rfl, h.goesOn represents spacious settles, rfl⟩
  | some op =>
    obtain ⟨s', s'', resumes, abstracts, steps⟩ := h.settled phase represents spacious settles
    exact ⟨_, s'', by simp only [resumes, Option.map_some], abstracts, steps⟩

theorem ThreadedState.Abstracts.step {s : State} (h : t.Abstracts cfg n mask s)
    {E : State → Action → Prop} {tr : List (State × Action)} (run : PipelineRun cfg E tr s)
    (small : ∀ c : Channel, c.capacity cfg ≤ 15) {a : ThreadedAction}
    (moves : threadedStep cfg t a = some u) :
    ∃ s', u.Abstracts cfg n mask s' ∧
      Performs (Steps (LibcameraStreamer.step cfg)) s (performed t a) s' := by
  cases a with
  | own a =>
    have phase := run.phase
    rw [← h.1] at phase
    simp only [threadedStep] at moves
    split at moves
    · next free =>
      obtain ⟨s', steps, rfl⟩ := Option.map_eq_some_iff.mp moves
      exact ⟨_, h.own phase free steps⟩
    · contradiction
  | call c a =>
    have guard : t.state.fault = none ∧ t.MayCall cfg c a := by
      by_contra closed
      simp [threadedStep, closed] at moves
    cases stepped : queueStep (t.queue c) a with
    | none => simp [threadedStep, stepped] at moves
    | some q =>
      obtain ⟨v, s', taken, abstracts, performs⟩ :=
        h.step_call run small guard.1 guard.2 stepped
      obtain rfl : v = u := Option.some.inj (taken.symm.trans moves)
      exact ⟨s', abstracts, performs⟩

theorem threadedInitial_cases {malloc : Channel → Nat → Bool}
    (made : threadedInitial cfg malloc = some t) :
    t.state = initial cfg ∧ ∀ c, blockingQueue (malloc c) 15 = some (t.queue c) := by
  unfold threadedInitial at made
  split at made
  · cases made
    refine ⟨rfl, fun c => ?_⟩
    cases c <;> assumption
  · contradiction

/-- New queues hold nothing, and no thread is inside a call. -/
theorem ThreadedState.Abstracts.new {malloc : Channel → Nat → Bool}
    (made : threadedInitial cfg malloc = some t) :
    ∃ n mask, t.Abstracts cfg n mask (initial cfg) := by
  obtain ⟨state, queue⟩ := threadedInitial_cases made
  have spacious := fun c => Spacious.new (by decide) (by decide) (queue c)
  choose n mask spacious using spacious
  have empty : (initial cfg).content = fun _ => [] := by
    funext c
    cases c <;> rfl
  refine ⟨n, mask, ?_, fun c => ?_, spacious, fun c => ?_⟩
  · rw [state, empty]
    rfl
  · rw [empty]
    exact .new (by decide) (by decide) (queue c)
  · obtain ⟨_, _, idle⟩ := Option.map_eq_some_iff.mp (queue c)
    rw [← idle]
    refine ⟨?_, ?_, ?_, ?_⟩ <;>
      simp [ProducerPoint.pending, ConsumerPoint.unsettled, ConsumerPoint.result]

/-- Performing a list of actions on new queues gives a run. -/
theorem exists_threadedRun (cfg : Config) (malloc : Channel → Nat → Bool) (E : Action → Prop)
    [DecidablePred E] (as : List ThreadedAction) (p : ThreadedState → Bool)
    (h : ((threadedInitial cfg malloc).bind fun t =>
      exec (threadedStep cfg) (fun _ a => a.Allowed E) t as).any p = true) :
    ∃ t tr u, threadedInitial cfg malloc = some t ∧ ThreadedRun cfg E t tr u ∧ p u = true := by
  cases made : threadedInitial cfg malloc with
  | none => simp [made] at h
  | some t =>
    rw [made, Option.bind_some] at h
    obtain ⟨tr, u, run, last⟩ := exists_run_of_exec_any h
    exact ⟨t, tr, u, rfl, run, last⟩

/-- Over its queues the pipeline does what `step` says: every run is one of `step`, a call being
the step that settles it. No queue makes a further block or does what its code takes for
impossible, and a call that has begun is never held up by the pipeline. -/
theorem threads_refine_pipeline {E : Action → Prop} {malloc : Channel → Nat → Bool}
    {tr : List (ThreadedState × ThreadedAction)} (small : ∀ c : Channel, c.capacity cfg ≤ 15)
    (calls : ∀ T : Thread, E T.action) (made : threadedInitial cfg malloc = some t)
    (run : ThreadedRun cfg E t tr u) :
    ∃ tr' l, PipelineRun cfg (fun _ => E) tr' (u.state.withContent l) ∧
      tr'.map Prod.snd = log performed tr ∧
      (∀ c, Represents (u.queue c) (l c) ∧ (u.queue c).fault = none ∧
        (u.queue c).inner.allocated = (t.queue c).inner.allocated) ∧
      ∀ c a, u.state.fault = none → u.MayCall cfg c a → (queueStep (u.queue c) a).isSome →
        (threadedStep cfg u (.call c a)).isSome := by
  obtain ⟨n, mask, new⟩ := ThreadedState.Abstracts.new made
  obtain ⟨tr', s, abstract, ⟨same, coupled⟩, actions⟩ := run.forwardSimulation
    (T := Steps (step cfg)) (F := fun _ => E)
    (fun t s => t.Abstracts cfg n mask s) performed new
    (fun _ _ _ _ ⟨_, before⟩ _ moves related => related.step before small moves)
    fun t a _ b allowed acts => by
      cases a with
      | own a =>
        cases acts
        exact allowed
      | call c a =>
        obtain ⟨op, _, rfl⟩ := Option.map_eq_some_iff.mp acts
        exact calls _
  refine ⟨tr', s.content, by rw [same]; exact abstract, actions, fun c => ⟨?_, ?_, ?_⟩, ?_⟩
  · exact coupled.represents c
  · exact (coupled.represents c).alive
  · exact (coupled.spacious c).fixed.allocated.trans (new.2.spacious c).fixed.allocated.symm
  · intro c a alive may moves
    obtain ⟨q, stepped⟩ := Option.isSome_iff_exists.mp moves
    obtain ⟨v, _, taken, _⟩ := ThreadedState.Abstracts.step_call ⟨same, coupled⟩ abstract small
      alive may stepped
    rw [taken]
    rfl

/-- One frame goes from the camera to the encoder, and its request comes back. -/
theorem threads_refine_pipeline_once :
    ∃ (u : ThreadedState) (tr' : List (State × Action)) (l : (c : Channel) → List c.Element),
      u.state.poll = .queueRequest 0 ∧
      PipelineRun (.sample 1 1 1) (fun _ a => a.fails = false) tr' (u.state.withContent l) ∧
      ∀ c, Represents (u.queue c) (l c) ∧ (u.queue c).fault = none := by
  let put (c : Channel) (x : c.Element) : List ThreadedAction :=
    .call c (.enqueue x) :: List.replicate 4 (.call c (.produce false))
  let take (c : Channel) (a : QueueAction c.Element) : List ThreadedAction :=
    .call c a :: List.replicate 6 (.call c (.consume true))
  obtain ⟨t, tr, u, made, run, last⟩ := exists_threadedRun (.sample 1 1 1) (fun _ _ => true)
    (fun a => a.fails = false)
    (put .availableInputBuffers 0 ++ List.replicate 10 (.own .main) ++
      .own (.complete 0 .requestComplete) :: put .completedRequests ⟨0, 0⟩ ++
      put .requestsToReuse 0 ++ .own (.processor {}) :: take .completedRequests .waitDequeue ++
      .own (.processor {}) :: take .availableInputBuffers .tryDequeue ++
      [.own (.processor {}), .own (.driver (.encode 4096 true)), .own (.poll {}),
        .own (.poll {}), .own (.poll {})] ++
      put .availableInputBuffers 0 ++ take .requestsToReuse .waitDequeue)
    (fun u => u.state.poll == .queueRequest 0) (by decide +kernel)
  obtain ⟨tr', l, abstract, _, queues, _⟩ := threads_refine_pipeline
    (fun c => by cases c <;> decide) (fun T => by cases T <;> rfl) made run
  exact ⟨u, tr', l, by simpa using last, abstract, fun c => ⟨(queues c).1, (queues c).2.1⟩⟩

end LibcameraStreamer
