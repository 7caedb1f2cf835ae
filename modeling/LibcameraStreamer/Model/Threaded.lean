import LibcameraStreamer.Model.BlockingQueue
import LibcameraStreamer.Model.Environment
import Mathlib.Data.Fintype.Basic

/-!
# The pipeline over its queues

In `step` a call of `enqueue`, `try_dequeue` or `wait_dequeue` is one step on a list. Here the
four queues are `BlockingReaderWriterQueue`s, and a call is made of all of its steps, between
which the other threads go on. A thread inside a call makes no other step. Its program point is
that of the call up to the step that settles what the call does, and from there on the one at
which the thread goes on when the call has returned.

The list fields of `State` are not used: they stay empty.
-/
namespace LibcameraStreamer
open Library Moodycamel

inductive Channel where
  | completedRequests
  | requestsToReuse
  | availableInputBuffers
  | outputItems
  deriving DecidableEq, Repr

instance : Fintype Channel where
  elems := {.completedRequests, .requestsToReuse, .availableInputBuffers, .outputItems}
  complete c := by cases c <;> decide

abbrev Channel.Element : Channel → Type
  | .completedRequests => Frame
  | .requestsToReuse | .availableInputBuffers => Nat
  | .outputItems => OutputItem

instance : (c : Channel) → DecidableEq c.Element
  | .completedRequests => inferInstanceAs (DecidableEq Frame)
  | .requestsToReuse | .availableInputBuffers => inferInstanceAs (DecidableEq Nat)
  | .outputItems => inferInstanceAs (DecidableEq OutputItem)

def State.content (s : State) : (c : Channel) → List c.Element
  | .completedRequests => s.completedRequestsQueue
  | .requestsToReuse => s.requestsToReuseQueue
  | .availableInputBuffers => s.availableInputBuffers
  | .outputItems => s.outputItemsQueue

def State.withContent (s : State) (l : (c : Channel) → List c.Element) : State :=
  { s with
    completedRequestsQueue := l .completedRequests
    requestsToReuseQueue := l .requestsToReuse
    availableInputBuffers := l .availableInputBuffers
    outputItemsQueue := l .outputItems }

inductive Thread where
  | main
  | callback
  | processor
  | output
  | poll
  deriving DecidableEq, Repr

/-- The step of a thread at a call that cannot fail. -/
def Thread.action : Thread → Action
  | .main => .main
  | .callback => .callback
  | .processor => .processor {}
  | .output => .output {}
  | .poll => .poll {}

/-- The thread that makes a step. The camera completes its requests on the callback's thread. -/
def Action.thread : Action → Option Thread
  | .main => some .main
  | .complete .. | .callback => some .callback
  | .processor _ => some .processor
  | .output _ => some .output
  | .poll _ => some .poll
  | .driver _ | .tick _ => none

/-- Who puts elements in. The constructor fills `availableInputBuffers_` before any thread runs. -/
def State.producer (s : State) : Channel → Thread
  | .completedRequests | .requestsToReuse => .callback
  | .availableInputBuffers =>
    match s.main with
    | .enqueueInputs _ => .main
    | _ => .poll
  | .outputItems => .poll

def Channel.consumer : Channel → Thread
  | .completedRequests | .availableInputBuffers => .processor
  | .requestsToReuse => .poll
  | .outputItems => .output

/-- The argument of the `enqueue` at which the producer stands. -/
def State.argument (cfg : Config) (s : State) : (c : Channel) → Option c.Element
  | .completedRequests =>
    match s.callback with
    | .requestComplete r .requestComplete => some ⟨r, s.completions⟩
    | _ => none
  | .requestsToReuse =>
    match s.callback with
    | .enqueueReuse r => some r
    | _ => none
  | .availableInputBuffers =>
    match s.main with
    | .enqueueInputs i => if i < cfg.outputCount then some i else none
    | _ =>
      match s.poll with
      | .enqueueInput b => some b.index
      | _ => none
  | .outputItems =>
    match s.poll with
    | .enqueueItem item => some item
    | _ => none

/-- The queue at a call of which the thread stands. -/
def State.stands (cfg : Config) (s : State) : Thread → Option Channel
  | .main =>
    match s.main with
    | .enqueueInputs i => if i < cfg.outputCount then some .availableInputBuffers else none
    | _ => none
  | .callback =>
    match s.callback with
    | .requestComplete _ .requestComplete => some .completedRequests
    | .enqueueReuse _ => some .requestsToReuse
    | _ => none
  | .processor =>
    match s.processor with
    | .waitForCompletedRequest => some .completedRequests
    | .encodeBuffer .. => some .availableInputBuffers
    | _ => none
  | .output =>
    match s.output with
    | .waitForNextOutputItem => some .outputItems
    | _ => none
  | .poll =>
    match s.poll with
    | .enqueueInput _ => some .availableInputBuffers
    | .reuseRequest _ => some .requestsToReuse
    | .enqueueItem _ => some .outputItems
    | _ => none

structure ThreadedState where
  state : State
  queue : (c : Channel) → BlockingQueue c.Element

inductive ThreadedAction where
  /-- A step outside the queues. -/
  | own (a : Action)
  /-- A step of a call, or its beginning. -/
  | call (c : Channel) (a : QueueAction c.Element)

/-- The thread is inside a call. -/
def ThreadedState.Busy (t : ThreadedState) (T : Thread) : Prop :=
  ∃ c, (t.state.producer c = T ∧ (t.queue c).producer ≠ .idle) ∨
    (c.consumer = T ∧ (t.queue c).consumer ≠ .idle)

instance (t : ThreadedState) (T : Thread) : Decidable (t.Busy T) :=
  inferInstanceAs (Decidable (∃ _, _))

/-- `EncodeBuffer` alone calls `try_dequeue`. -/
def ThreadedState.MayCall (cfg : Config) (t : ThreadedState) (c : Channel) :
    QueueAction c.Element → Prop
  | .enqueue x => t.state.argument cfg c = some x ∧ ¬ t.Busy (t.state.producer c)
  | .tryDequeue =>
    c = .availableInputBuffers ∧ t.state.stands cfg c.consumer = some c ∧ ¬ t.Busy c.consumer
  | .waitDequeue =>
    c ≠ .availableInputBuffers ∧ t.state.stands cfg c.consumer = some c ∧ ¬ t.Busy c.consumer
  | .produce _ | .consume _ => True

instance (cfg : Config) (t : ThreadedState) (c : Channel) :
    (a : QueueAction c.Element) → Decidable (t.MayCall cfg c a)
  | .enqueue _ | .tryDequeue | .waitDequeue => inferInstanceAs (Decidable (_ ∧ _))
  | .produce _ | .consume _ => inferInstanceAs (Decidable True)

/-- Who goes on after the call. -/
def State.caller (s : State) (c : Channel) : Fifo.Op c.Element → Thread
  | .put _ => s.producer c
  | .take _ | .miss => c.consumer

/-- The calling thread makes its step of the pipeline, with what the queue has answered. -/
def State.resume (cfg : Config) (s : State) (c : Channel) (op : Fifo.Op c.Element) :
    Option State :=
  (step cfg (s.withContent (Function.update (fun _ => []) c op.taken?.toList))
    (s.caller c op).action).map (·.withContent fun _ => [])

/-- One step of the pipeline over its queues. After a fault of the pipeline there is none. -/
def threadedStep (cfg : Config) (t : ThreadedState) : ThreadedAction → Option ThreadedState
  | .own a =>
    if ∀ T ∈ a.thread, ¬ t.Busy T ∧ t.state.stands cfg T = none then
      (step cfg t.state a).map fun s => { t with state := s }
    else none
  | .call c a =>
    if t.state.fault = none ∧ t.MayCall cfg c a then
      match queueStep (t.queue c) a, queueOp (t.queue c) a with
      | none, _ => none
      | some q, none => some { t with queue := Function.update t.queue c q }
      | some q, some op =>
        (t.state.resume cfg c op).map fun s =>
          { state := s, queue := Function.update t.queue c q }
    else none

/-- The queues are made with the default size. `malloc` answers their constructors. -/
def threadedInitial (cfg : Config) (malloc : Channel → Nat → Bool) : Option ThreadedState :=
  match blockingQueue (malloc .completedRequests) 15,
    blockingQueue (malloc .requestsToReuse) 15,
    blockingQueue (malloc .availableInputBuffers) 15,
    blockingQueue (malloc .outputItems) 15 with
  | some completedRequests, some requestsToReuse, some availableInputBuffers,
      some outputItems =>
    some {
      state := initial cfg
      queue := fun
        | .completedRequests => completedRequests
        | .requestsToReuse => requestsToReuse
        | .availableInputBuffers => availableInputBuffers
        | .outputItems => outputItems }
  | _, _, _, _ => none

/-- The steps outside the queues satisfy `E`. -/
def ThreadedAction.Allowed (E : Action → Prop) : ThreadedAction → Prop
  | .own a => E a
  | .call .. => True

instance (E : Action → Prop) [DecidablePred E] :
    (a : ThreadedAction) → Decidable (a.Allowed E)
  | .own a => inferInstanceAs (Decidable (E a))
  | .call .. => inferInstanceAs (Decidable True)

abbrev ThreadedRun (cfg : Config) (E : Action → Prop) (t : ThreadedState)
    (tr : List (ThreadedState × ThreadedAction)) (u : ThreadedState) : Prop :=
  Run (Steps (threadedStep cfg)) (fun _ a => a.Allowed E) t tr u

/-- The step of `step` that a step performs: a call performs one when it puts an element in, takes
one out or misses. -/
def performed (t : ThreadedState) : ThreadedAction → Option Action
  | .own a => some a
  | .call c a => (queueOp (t.queue c) a).map fun op => (t.state.caller c op).action

end LibcameraStreamer
