import LibcameraStreamer.Queue.Enqueue

/-!
# The steps of the consumer

Each step of `wait`, `tryWait` and the inner `try_dequeue` keeps the invariant, whatever the
producer has done in between. The semaphore lets the consumer through only when an element is
inside, so that the asserts behind it hold. An element leaves the content when it is moved out
of its slot.
-/
namespace LibcameraStreamer.Moodycamel

variable {α : Type*} {q : ReaderWriterQueue α} {g : Shape α} {s t : BlockingQueue α}

/-! ## Moves -/

/-- Assignments to the consumer's members of a block. -/
structure Block.Visited (b : Block α) (v : View α) (b' : Block α) (v' : View α) : Prop where
  holds : b'.Holds v'
  tail : b'.tail = b.tail
  next : b'.next = b.next
  sizeMask : b'.sizeMask = b.sizeMask
  extra : v'.extra = v.extra
  last : v'.last = v.last
  localHead : v'.localHead = v.localHead

theorem ConsumerMoves.refl (q : ReaderWriterQueue α) (g : Shape α) : ConsumerMoves q g q g where
  tailBlock := rfl
  allocated := rfl
  spare := ⟨[], by simp⟩
  ring _ := Iff.rfl
  tail _ := rfl
  next _ := rfl
  sizeMask _ := rfl
  outside _ _ := ⟨rfl, rfl⟩
  extra _ := rfl
  last _ := rfl
  localHead _ := rfl
  behind _ spare := .inl ⟨spare, rfl⟩
  front := id

theorem ConsumerMoves.modify (ring : Ring q g) {a : Nat} {f : Block α → Block α} {v : View α}
    (active : a ∈ g.active) (visited : (q.block a).Visited (g.view a) (f (q.block a)) v)
    (content : a = q.frontBlock ∨ v.content = (g.view a).content) :
    ConsumerMoves q g (q.modify a f) (g.update a v) where
  tailBlock := rfl
  allocated := rfl
  spare := ⟨[], by simp⟩
  ring _ := Iff.rfl
  tail b := by by_cases here : b = a <;> simp [here, visited.tail]
  next b := by by_cases here : b = a <;> simp [here, visited.next]
  sizeMask b := by by_cases here : b = a <;> simp [here, visited.sizeMask]
  outside b outside := by
    have other : b ≠ a := by
      rintro rfl
      exact outside (List.mem_append_left _ active)
    simp [other]
  extra b := by by_cases here : b = a <;> simp [here, visited.extra]
  last b := by by_cases here : b = a <;> simp [here, visited.last]
  localHead b := by by_cases here : b = a <;> simp [here, visited.localHead]
  behind b spare := by
    have other : b ≠ a := by
      rintro rfl
      exact ring.spare_disjoint active spare
    exact .inl ⟨spare, by simp [other]⟩
  front stuffed := by
    by_cases here : q.tailBlock = a
    · rcases content with front | same
      · exact .inl (here.trans front)
      · rcases stuffed with front | full
        · exact .inl front
        · exact .inr (by simpa [here, same, visited.sizeMask] using full)
    · rcases stuffed with front | full
      · exact .inl front
      · exact .inr (by simpa [here] using full)

/-- A point at which the consumer is neither waiting nor deciding whether to. -/
structure ConsumerPoint.Plain (c : ConsumerPoint α) : Prop where
  waiting : c.waiting = 0
  floor : c.floor = 0
  wakes : ∀ count, c.wakes count = 0

/-- A consumer that has been let through is not waiting, and has not taken its element. -/
theorem ConsumerPoint.through {c : ConsumerPoint α} (permit : c.permit = 1) :
    c.Plain ∧ ∀ a, c.taken a = 0 := by
  cases c with
  | loadFront | loadTail | loadTailBlock | reloadTail | loadNext | loadNextTail | storeFrontBlock
  | read => exact ⟨⟨rfl, rfl, fun _ => rfl⟩, fun _ => rfl⟩
  | _ => contradiction

/-- A step of the inner `try_dequeue` changes the ring and the consumer's point only. -/
theorem Inv.consumerStep (inv : Inv s g) {q : ReaderWriterQueue α} {g' : Shape α}
    {c : ConsumerPoint α} (ring : Ring q g') (ok : ConsumerOk c q g')
    (moves : ConsumerMoves s.inner g q g') (before : s.consumer.Plain) (after : c.Plain)
    (total : g.content.length + c.permit = g'.content.length + s.consumer.permit) :
    Inv { s with inner := q, consumer := c } g' where
  alive := inv.alive
  ring := ring
  producer := inv.producer.stable inv.ring moves
  consumer := ok
  semaphore := by
    obtain ⟨sum, floor, posts⟩ := inv.semaphore
    rw [before.waiting] at sum
    rw [before.floor] at floor
    rw [before.wakes] at posts
    refine ⟨?_, ?_, ?_⟩
    · simp only [after.waiting]
      omega
    · simp only [after.floor]
      exact floor
    · simp only [after.wakes]
      exact posts

/-! ## What the consumer knows of its blocks -/

theorem Ring.front_active (ring : Ring q g) : q.frontBlock ∈ g.active :=
  List.mem_of_head? ring.front

/-- Before the consumer moves an element out, no block has one missing. -/
theorem Inv.untouched (inv : Inv s g) (through : s.consumer.permit = 1) {a : Nat}
    (member : a ∈ g.ring) : (g.view a).taken = 0 := by
  rw [inv.consumer.taken a member, (ConsumerPoint.through through).2]

theorem Inv.front_empty_iff (inv : Inv s g) (through : s.consumer.permit = 1) {a : Nat}
    (member : a ∈ g.ring) :
    (s.inner.block a).front = (s.inner.block a).tail ↔ (g.view a).content = [] :=
  (inv.holds member).empty_iff (inv.untouched through member)

/-- Through the semaphore, and with nothing in the front block, there is another block. -/
theorem Inv.apart_of_empty (inv : Inv s g) (through : s.consumer.permit = 1)
    (empty : (g.view s.inner.frontBlock).content = []) :
    s.inner.frontBlock ≠ s.inner.tailBlock := by
  have plain := (ConsumerPoint.through through).1
  exact inv.ring.frontBlock_ne_tailBlock
    (inv.semaphore.content_ne through plain.floor plain.waiting) empty

/-- A step of the consumer that ends in `t` and moves the elements `out` out. -/
def Removes (g : Shape α) (out : List α) (t : BlockingQueue α) : Prop :=
  ∃ g', Inv t g' ∧ g.content = out ++ g'.content

/-- The consumer goes on to its next point. -/
theorem Inv.consumerPoint (inv : Inv s g) {c : ConsumerPoint α} (before : s.consumer.permit = 1)
    (after : c.permit = 1) (knows : c.Knows s.inner g) :
    Removes g [] { s with consumer := c } := by
  obtain ⟨plain, none⟩ := ConsumerPoint.through after
  refine ⟨g, inv.consumerStep inv.ring ⟨fun a member => ?_, knows⟩ (.refl _ _)
    (ConsumerPoint.through before).1 plain (by rw [before, after]), rfl⟩
  rw [inv.untouched before member, none]

/-- The consumer reads how far the producer has come in an active block. -/
theorem Inv.refreshTail (inv : Inv s g) {a : Nat} {c : ConsumerPoint α} (active : a ∈ g.active)
    (before : s.consumer.permit = 1) (after : c.permit = 1)
    (knows : c.Knows (s.inner.modify a fun b => { b with localTail := b.tail })
      (g.update a { g.view a with localEnd := (g.view a).last })) :
    Removes g [] { s with
      inner := s.inner.modify a fun b => { b with localTail := b.tail }, consumer := c } := by
  have member : a ∈ g.ring := List.mem_append_left _ active
  have visited : (s.inner.block a).Visited (g.view a) _ _ :=
    ⟨(inv.holds member).refreshTail, rfl, rfl, rfl, rfl, rfl, rfl⟩
  have content := Shape.content_update (g := g) (a := a)
    (v := { g.view a with localEnd := (g.view a).last }) rfl
  obtain ⟨plain, none⟩ := ConsumerPoint.through after
  refine ⟨_, inv.consumerStep ?_ ⟨fun b inside => ?_, knows⟩
    (.modify inv.ring active visited (.inr rfl)) (ConsumerPoint.through before).1 plain
    (by rw [content, before, after]), content.symm⟩
  · exact inv.ring.modify rfl rfl (fun _ => visited.holds) fun behind => inv.ring.filled a behind
  · rw [none, ← inv.untouched before inside]
    by_cases here : b = a <;> simp [here]

/-! ## The points of the inner `try_dequeue` -/

theorem Inv.dequeueLoadFront (inv : Inv s g) (point : s.consumer = .loadFront)
    (seen : (s.inner.block s.inner.frontBlock).front ≠
      (s.inner.block s.inner.frontBlock).localTail) :
    Removes g [] { s with
      consumer := .read s.inner.frontBlock (s.inner.block s.inner.frontBlock).front } :=
  inv.consumerPoint (by rw [point]; rfl) rfl
    ⟨rfl, rfl, (inv.holds inv.ring.frontBlock_mem).lt_of_front_ne seen⟩

theorem Inv.dequeueLoadFront_empty (inv : Inv s g) (point : s.consumer = .loadFront) :
    Removes g [] { s with
      consumer := .loadTail s.inner.frontBlock (s.inner.block s.inner.frontBlock).front } :=
  inv.consumerPoint (by rw [point]; rfl) rfl ⟨rfl, rfl⟩

/-- The producer has put something into the front block. -/
theorem Inv.refreshTail_read (inv : Inv s g) (through : s.consumer.permit = 1)
    (some : (s.inner.block s.inner.frontBlock).front ≠ (s.inner.block s.inner.frontBlock).tail) :
    Removes g [] { s with
      inner := s.inner.modify s.inner.frontBlock fun b => { b with localTail := b.tail }
      consumer := .read s.inner.frontBlock (s.inner.block s.inner.frontBlock).front } := by
  have seen := (inv.holds inv.ring.frontBlock_mem).refreshTail.lt_of_front_ne some
  apply inv.refreshTail inv.ring.front_active through rfl
  exact ⟨rfl, by simp, by simpa using seen⟩

theorem Inv.dequeueLoadTail (inv : Inv s g) {f k : Nat} (point : s.consumer = .loadTail f k) :
    (k ≠ (s.inner.block f).tail → Removes g [] { s with
      inner := s.inner.modify f fun b => { b with localTail := b.tail }, consumer := .read f k }) ∧
    (k = (s.inner.block f).tail → Removes g [] { s with
      inner := s.inner.modify f fun b => { b with localTail := b.tail }
      consumer := .loadTailBlock f }) := by
  have knows := inv.consumer.knows
  rw [point] at knows
  obtain ⟨rfl, rfl⟩ := knows
  have through : s.consumer.permit = 1 := by rw [point]; rfl
  refine ⟨inv.refreshTail_read through, fun none => ?_⟩
  have empty := (inv.front_empty_iff through inv.ring.frontBlock_mem).mp none
  exact inv.refreshTail inv.ring.front_active through rfl ⟨rfl, inv.apart_of_empty through empty⟩

/-- The second look at the tail block; the element counted by the semaphore is in some block. -/
theorem Inv.dequeueLoadTailBlock (inv : Inv s g) {f : Nat} (point : s.consumer = .loadTailBlock f) :
    f ≠ s.inner.tailBlock ∧ Removes g [] { s with consumer := .reloadTail } := by
  have knows := inv.consumer.knows
  rw [point] at knows
  obtain ⟨rfl, apart⟩ := knows
  exact ⟨apart, inv.consumerPoint (by rw [point]; rfl) rfl apart⟩

/-- The producer has left the front block, so what it shows now is all it will ever hold. -/
theorem Inv.dequeueReloadTail (inv : Inv s g) (point : s.consumer = .reloadTail)
    (none : (s.inner.block s.inner.frontBlock).front = (s.inner.block s.inner.frontBlock).tail) :
    Removes g [] { s with
      inner := s.inner.modify s.inner.frontBlock fun b => { b with localTail := b.tail }
      consumer := .loadNext s.inner.frontBlock } := by
  have apart := inv.consumer.knows
  rw [point] at apart
  have through : s.consumer.permit = 1 := by rw [point]; rfl
  have empty := (inv.front_empty_iff through inv.ring.frontBlock_mem).mp none
  exact inv.refreshTail inv.ring.front_active through rfl ⟨rfl, apart, by simpa using empty⟩

theorem Inv.dequeueLoadNext (inv : Inv s g) {f : Nat} (point : s.consumer = .loadNext f) :
    ∃ next, (s.inner.block f).next = some next ∧
      Removes g [] { s with consumer := .loadNextTail next } := by
  have knows := inv.consumer.knows
  rw [point] at knows
  obtain ⟨rfl, apart, empty⟩ := knows
  obtain ⟨next, rest, active, linked⟩ := inv.ring.next_frontBlock apart
  exact ⟨next, linked, inv.consumerPoint (by rw [point]; rfl) rfl ⟨rest, active, empty⟩⟩

/-- The next block is not empty, as the code asserts. -/
theorem Inv.dequeueLoadNextTail (inv : Inv s g) {next : Nat}
    (point : s.consumer = .loadNextTail next) :
    (s.inner.block next).front ≠ (s.inner.block next).tail ∧
      Removes g [] { s with
        inner := s.inner.modify next fun b => { b with localTail := b.tail }
        consumer := .storeFrontBlock next (s.inner.block next).front } := by
  have knows := inv.consumer.knows
  rw [point] at knows
  obtain ⟨rest, active, empty⟩ := knows
  have through : s.consumer.permit = 1 := by rw [point]; rfl
  have inside : next ∈ g.active := by simp [active]
  have member : next ∈ g.ring := List.mem_append_left _ inside
  have behind : next ∈ g.active.tail := by simp [active]
  have differ : (s.inner.block next).front ≠ (s.inner.block next).tail := by
    intro same
    apply (inv.ring.filled next behind).1
    exact (inv.front_empty_iff through member).mp same
  have other : s.inner.frontBlock ≠ next := by
    intro same
    exact inv.ring.notMem_active_tail (same ▸ behind)
  have seen := (inv.holds member).refreshTail.lt_of_front_ne differ
  refine ⟨differ, inv.refreshTail inside through rfl ⟨rest, active, ?_, ?_, ?_⟩⟩
  · simpa [other] using empty
  · simp
  · simpa using seen

/-- The front block is left, and the next one becomes the front block. -/
theorem Inv.dequeueStoreFrontBlock (inv : Inv s g) {next k : Nat}
    (point : s.consumer = .storeFrontBlock next k) :
    Removes g [] { s with
      inner := { s.inner with frontBlock := next }, consumer := .read next k } := by
  have knows := inv.consumer.knows
  rw [point] at knows
  obtain ⟨rest, active, empty, index, seen⟩ := knows
  have through : s.consumer.permit = 1 := by rw [point]; rfl
  have content : Shape.content
      { g with active := next :: rest, spare := g.spare ++ [s.inner.frontBlock] } = g.content := by
    simp [Shape.content, active, empty]
  have inside : ∀ a, a ∈ Shape.ring
      { g with active := next :: rest, spare := g.spare ++ [s.inner.frontBlock] } ↔ a ∈ g.ring := by
    intro a
    simp only [Shape.ring, active]
    grind
  have moves : ConsumerMoves s.inner g { s.inner with frontBlock := next }
      { g with active := next :: rest, spare := g.spare ++ [s.inner.frontBlock] } := {
    tailBlock := rfl
    allocated := rfl
    spare := ⟨[s.inner.frontBlock], rfl⟩
    ring := inside
    tail := fun _ => rfl
    next := fun _ => rfl
    sizeMask := fun _ => rfl
    outside := fun _ _ => ⟨rfl, rfl⟩
    extra := fun _ => rfl
    last := fun _ => rfl
    localHead := fun _ => rfl
    behind := by
      intro a spare
      rcases List.mem_append.mp spare with old | new
      · exact .inl ⟨old, rfl⟩
      · rw [List.mem_singleton.mp new]
        exact .inr ⟨empty, inv.ring.front_active⟩
    front := by
      intro stuffed
      rcases stuffed with same | full
      · exact absurd same.symm (inv.ring.apart_of_active active)
      · exact .inr full }
  refine ⟨_, inv.consumerStep (inv.ring.advanceFront active) ⟨fun a member => ?_, rfl, index, seen⟩
    moves (ConsumerPoint.through through).1 ⟨rfl, rfl, fun _ => rfl⟩ ?_, content.symm⟩
  · exact inv.untouched through ((inside a).mp member)
  · rw [content, through]
    rfl

/-- The first element of the queue is moved out. -/
theorem Inv.dequeueRead (inv : Inv s g) {f k : Nat} (point : s.consumer = .read f k) :
    ∃ x, (s.inner.block f).data k = some x ∧
      Removes g [x] { s with
        inner := s.inner.modify f fun b => { b with data := Function.update b.data k none }
        consumer := .storeFront f k x } := by
  have knows := inv.consumer.knows
  rw [point] at knows
  obtain ⟨rfl, rfl, seen⟩ := knows
  have member := inv.ring.frontBlock_mem
  have through : s.consumer.permit = 1 := by rw [point]; rfl
  have whole := inv.untouched through member
  obtain ⟨x, rest, first, stored, holds⟩ := (inv.holds member).take whole seen
  have last : View.last { g.view s.inner.frontBlock with taken := 1, content := rest } =
      (g.view s.inner.frontBlock).last := by
    simp only [View.last, first, whole, List.length_cons]
    omega
  have visited : (s.inner.block s.inner.frontBlock).Visited (g.view s.inner.frontBlock) _ _ :=
    ⟨holds, rfl, rfl, rfl, rfl, last, rfl⟩
  have content : g.content = x :: (g.update s.inner.frontBlock
      { g.view s.inner.frontBlock with taken := 1, content := rest }).content := by
    obtain ⟨others, active⟩ := inv.ring.active_eq
    have behind := inv.ring.notMem_active_tail
    simp only [active, List.tail_cons] at behind
    simp only [Shape.content, Shape.update_active, active, List.flatMap_cons, first,
      Shape.update_view_self, List.cons_append, List.cons.injEq, true_and]
    congr 1
    refine List.flatMap_congr fun a inside => ?_
    have other : a ≠ s.inner.frontBlock := by
      rintro rfl
      exact behind inside
    rw [Shape.update_view_of_ne g other]
  refine ⟨x, stored, _, inv.consumerStep ?_ ⟨fun a inside => ?_, rfl, by simp⟩
    (.modify inv.ring inv.ring.front_active visited (.inl rfl)) (ConsumerPoint.through through).1
    ⟨rfl, rfl, fun _ => rfl⟩ ?_, content⟩
  · exact inv.ring.modify rfl rfl (fun _ => holds) fun behind =>
      absurd behind inv.ring.notMem_active_tail
  · have old := inv.untouched through inside
    by_cases here : a = s.inner.frontBlock <;> simp [here, ConsumerPoint.taken, old]
  · rw [content, through]
    rfl

/-- The producer may use the slot again. -/
theorem Inv.dequeueStoreFront (inv : Inv s g) {f k : Nat} {x : α}
    (point : s.consumer = .storeFront f k x) :
    Removes g [] { s with
      inner := s.inner.modify f fun b => { b with front := (k + 1) &&& b.sizeMask }
      consumer := .idle } := by
  have knows := inv.consumer.knows
  rw [point] at knows
  obtain ⟨rfl, rfl⟩ := knows
  have member := inv.ring.frontBlock_mem
  have one : (g.view s.inner.frontBlock).taken = 1 := by
    have taken := inv.consumer.taken _ member
    simpa [point, ConsumerPoint.taken] using taken
  have holds := (inv.holds member).advance one
  have visited : (s.inner.block s.inner.frontBlock).Visited (g.view s.inner.frontBlock) _ _ :=
    ⟨holds, rfl, rfl, rfl, rfl, by simp [View.last, one], rfl⟩
  have content := Shape.content_update (g := g) (a := s.inner.frontBlock)
    (v := { g.view s.inner.frontBlock with
      head := (g.view s.inner.frontBlock).head + 1, taken := 0 }) rfl
  refine ⟨_, inv.consumerStep (c := .idle)
    (q := s.inner.modify s.inner.frontBlock fun b =>
      { b with front := ((s.inner.block s.inner.frontBlock).front + 1) &&& b.sizeMask })
    ?_ ⟨fun a inside => ?_, trivial⟩
    (.modify inv.ring inv.ring.front_active visited (.inl rfl)) ?_ ⟨rfl, rfl, fun _ => rfl⟩ ?_,
    content.symm⟩
  · exact inv.ring.modify rfl rfl (fun _ => holds) fun behind =>
      absurd behind inv.ring.notMem_active_tail
  · have old := inv.consumer.taken a inside
    by_cases here : a = s.inner.frontBlock
    · simp [here, ConsumerPoint.taken]
    · simpa [here, point, ConsumerPoint.taken] using old
  · rw [point]
    exact ⟨rfl, rfl, fun _ => rfl⟩
  · simp [content, point, ConsumerPoint.permit]

/-! ## The whole of the inner `try_dequeue` -/

/-- What a step of the consumer moves out. -/
def BlockingQueue.moved (s : BlockingQueue α) : List α :=
  match s.consumer with
  | .read f blockFront => ((s.inner.block f).data blockFront).toList
  | _ => []

/-- No step of the inner `try_dequeue` goes wrong, and each only removes the first element. -/
theorem Inv.innerTryDequeue (inv : Inv s g) (step : Moodycamel.innerTryDequeue s = some t) :
    t.producer = s.producer ∧ Removes g s.moved t := by
  unfold Moodycamel.innerTryDequeue at step
  cases point : s.consumer with
  | loadFront =>
    simp only [point] at step
    split at step
    · next seen =>
      cases step
      exact ⟨rfl, by simpa [BlockingQueue.moved, point] using inv.dequeueLoadFront point seen⟩
    · cases step
      exact ⟨rfl, by simpa [BlockingQueue.moved, point] using inv.dequeueLoadFront_empty point⟩
  | loadTail f k =>
    obtain ⟨read, empty⟩ := inv.dequeueLoadTail point
    simp only [point] at step
    split at step
    · next some =>
      cases step
      exact ⟨rfl, by simpa [BlockingQueue.moved, point] using read some⟩
    · next none =>
      cases step
      exact ⟨rfl, by simpa [BlockingQueue.moved, point] using empty (not_not.mp none)⟩
  | loadTailBlock f =>
    obtain ⟨apart, removes⟩ := inv.dequeueLoadTailBlock point
    simp only [point, if_pos apart, Option.some.injEq] at step
    subst step
    exact ⟨rfl, by simpa [BlockingQueue.moved, point] using removes⟩
  | reloadTail =>
    simp only [point] at step
    split at step
    · next some =>
      cases step
      have through : s.consumer.permit = 1 := by rw [point]; rfl
      exact ⟨rfl, by simpa [BlockingQueue.moved, point] using inv.refreshTail_read through some⟩
    · next none =>
      cases step
      exact ⟨rfl, by
        simpa [BlockingQueue.moved, point] using inv.dequeueReloadTail point (not_not.mp none)⟩
  | loadNext f =>
    obtain ⟨next, linked, removes⟩ := inv.dequeueLoadNext point
    simp only [point, linked, Option.some.injEq] at step
    subst step
    exact ⟨rfl, by simpa [BlockingQueue.moved, point] using removes⟩
  | loadNextTail next =>
    obtain ⟨differ, removes⟩ := inv.dequeueLoadNextTail point
    simp only [point, if_neg differ, Option.some.injEq] at step
    subst step
    exact ⟨rfl, by simpa [BlockingQueue.moved, point] using removes⟩
  | storeFrontBlock next k =>
    simp only [point, Option.some.injEq] at step
    subst step
    exact ⟨rfl, by simpa [BlockingQueue.moved, point] using inv.dequeueStoreFrontBlock point⟩
  | read f k =>
    obtain ⟨x, stored, removes⟩ := inv.dequeueRead point
    simp only [point, stored, Option.some.injEq] at step
    subst step
    exact ⟨rfl, by simpa [BlockingQueue.moved, point, stored] using removes⟩
  | storeFront f k x =>
    simp only [point, Option.some.injEq] at step
    subst step
    exact ⟨rfl, by simpa [BlockingQueue.moved, point] using inv.dequeueStoreFront point⟩
  | _ => simp [point] at step

/-! ## The semaphore -/

/-- The consumer goes on without having looked at the blocks. -/
theorem Inv.waits (inv : Inv s g) {c : ConsumerPoint α} {count : Int} {semaphore : Nat}
    (before : ∀ a, s.consumer.taken a = 0) (after : ∀ a, c.taken a = 0)
    (knows : c.Knows s.inner g)
    (total : count + c.waiting + c.permit = s.count + s.consumer.waiting + s.consumer.permit)
    (floor : c.floor ≤ count)
    (posts : semaphore + s.consumer.wakes s.count = s.semaphore + c.wakes count) :
    Inv { s with count, semaphore, consumer := c } g where
  alive := inv.alive
  ring := inv.ring
  producer := inv.producer
  consumer := by
    refine ⟨fun a member => ?_, knows⟩
    rw [inv.consumer.taken a member, before, after]
  semaphore := by
    have old := inv.semaphore.total
    have sent := inv.semaphore.posts
    refine ⟨?_, floor, ?_⟩
    · simp only
      omega
    · simp only
      omega

section

attribute [local simp] ConsumerPoint.taken ConsumerPoint.Knows ConsumerPoint.waiting
  ConsumerPoint.permit ConsumerPoint.floor ConsumerPoint.wakes

/-- A call begins, at a point where the consumer has no claim on the semaphore. -/
theorem Inv.calls (inv : Inv s g) {c : ConsumerPoint α} (point : s.consumer = .idle)
    (first : c = .tryWait ∨ c = .wait) : Inv { s with consumer := c } g := by
  have floor := inv.semaphore.floor
  simp only [point, ConsumerPoint.floor] at floor
  rcases first with rfl | rfl
  · apply inv.waits <;> simp [point, floor]
  · apply inv.waits <;> simp [point, floor]

/-- The consumer's claim on an element turns into its permit when it gets the post. -/
theorem Inv.acquires (inv : Inv s g) {n : Nat} (held : s.semaphore = n + 1)
    (point : s.consumer = .semWait ∨ s.consumer = .semTryWait) :
    Inv { s with semaphore := n, consumer := .loadFront } g := by
  have posts := inv.semaphore.posts
  rw [held] at posts
  rcases point with point | point
  all_goals
    rw [point, ConsumerPoint.wakes] at posts
    by_cases sent : 0 ≤ s.count
    · apply inv.waits <;> simp [point, sent, held]
    · rw [if_neg sent] at posts
      omega

/-- Nothing in `wait` or `tryWait` touches the elements. -/
theorem Inv.semaphoreWait (inv : Inv s g) {acquired : Bool}
    (step : Moodycamel.semaphoreWait acquired s = some t) : t.producer = s.producer ∧ Inv t g := by
  have floor := inv.semaphore.floor
  unfold Moodycamel.semaphoreWait at step
  cases point : s.consumer with
  | tryWait | wait =>
    simp only [point, ConsumerPoint.floor, Option.some.injEq] at step floor
    subst step
    refine ⟨rfl, ?_⟩
    by_cases positive : 0 < s.count
    · simp only [if_pos positive]
      apply inv.waits <;> simp [point]
      omega
    · simp only [if_neg positive]
      apply inv.waits <;> simp [point, floor]
  | spin n =>
    simp only [point, ConsumerPoint.floor] at step floor
    cases n with
    | zero =>
      cases step
      refine ⟨rfl, ?_⟩
      apply inv.waits <;> simp [point, floor]
    | succ n =>
      cases step
      refine ⟨rfl, ?_⟩
      by_cases positive : 0 < s.count
      · simp only [if_pos positive]
        apply inv.waits <;> simp [point]
        omega
      · simp only [if_neg positive]
        apply inv.waits <;> simp [point, floor]
  | decrement =>
    simp only [point, ConsumerPoint.floor, Option.some.injEq] at step floor
    subst step
    refine ⟨rfl, ?_⟩
    apply inv.waits <;> simp [point]
    omega
  | decrementWait =>
    simp only [point, ConsumerPoint.floor, Option.some.injEq] at step floor
    subst step
    refine ⟨rfl, ?_⟩
    by_cases positive : 0 < s.count
    · simp only [if_pos positive]
      apply inv.waits <;> simp [point]
      omega
    · have zero : s.count = 0 := by omega
      simp only [if_neg positive]
      apply inv.waits <;> simp [point, zero]
  | semWait =>
    simp only [point] at step
    split at step
    · split at step
      · contradiction
      · next n held =>
        cases step
        exact ⟨rfl, inv.acquires held (.inl point)⟩
    · cases step
      simp only [point, ConsumerPoint.floor] at floor
      refine ⟨rfl, ?_⟩
      apply inv.waits <;> simp [point, floor]
  | restore =>
    simp only [point, ConsumerPoint.floor, Option.some.injEq] at step floor
    subst step
    refine ⟨rfl, ?_⟩
    by_cases negative : s.count < 0
    · have minus : s.count = -1 := by omega
      simp only [if_pos negative]
      apply inv.waits <;> simp [point, minus]
    · have sent : 0 ≤ s.count := by omega
      simp only [if_neg negative]
      apply inv.waits <;> simp [point, sent]
  | retake =>
    simp only [point, ConsumerPoint.floor, Option.some.injEq] at step floor
    subst step
    have positive : 0 < s.count := by omega
    refine ⟨rfl, ?_⟩
    simp only [if_pos positive]
    apply inv.waits <;> simp [point]
    all_goals omega
  | semTryWait =>
    simp only [point] at step
    split at step
    · cases step
      simp only [point, ConsumerPoint.floor] at floor
      refine ⟨rfl, ?_⟩
      apply inv.waits <;> simp [point, floor]
    · next n held =>
      cases step
      exact ⟨rfl, inv.acquires held (.inr point)⟩
  | _ => simp [point] at step

end

end LibcameraStreamer.Moodycamel
