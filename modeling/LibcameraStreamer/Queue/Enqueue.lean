import LibcameraStreamer.Queue.Invariant

/-!
# The steps of the producer

Each step of `inner_enqueue` and of `signal` keeps the invariant, whatever the consumer has done
in between. The element becomes part of the content in one step: the store of `tail` in the
tail block, or the store of `tailBlock` when it has gone to another block.
-/
namespace LibcameraStreamer.Moodycamel

variable {α : Type*} {q : ReaderWriterQueue α} {g : Shape α} {s t : BlockingQueue α}

/-! ## Moves -/

/-- Assignments to the producer's members of a block. -/
structure Block.Written (b : Block α) (v : View α) (b' : Block α) (v' : View α) : Prop where
  holds : b'.Holds v'
  front : b'.front = b.front
  next : b'.next = b.next
  sizeMask : b'.sizeMask = b.sizeMask
  head : v'.head = v.head
  localEnd : v'.localEnd = v.localEnd
  taken : v'.taken = v.taken

theorem ProducerMoves.refl (q : ReaderWriterQueue α) (g : Shape α) : ProducerMoves q g q g where
  frontBlock := rfl
  active := ⟨[], by simp⟩
  front _ _ := rfl
  head _ _ := rfl
  localEnd _ _ := rfl
  taken _ member := .inl ⟨member, rfl⟩
  content _ _ _ := rfl
  tailBlock := .inl rfl

theorem ProducerMoves.modify {a : Nat} {f : Block α → Block α} {v : View α}
    (wrote : (q.block a).Written (g.view a) (f (q.block a)) v)
    (content : a ∈ g.active → a ≠ q.tailBlock → v.content = (g.view a).content) :
    ProducerMoves q g (q.modify a f) (g.update a v) where
  frontBlock := rfl
  active := ⟨[], by simp⟩
  front b _ := by by_cases here : b = a <;> simp [here, wrote.front]
  head b _ := by by_cases here : b = a <;> simp [here, wrote.head]
  localEnd b _ := by by_cases here : b = a <;> simp [here, wrote.localEnd]
  taken b member := .inl ⟨member, by by_cases here : b = a <;> simp [here, wrote.taken]⟩
  content b active other := by
    by_cases here : b = a
    · subst here
      simpa using content active other
    · simp [here]
  tailBlock := .inl rfl

/-- A point at which the producer owes nothing and keeps no block of its own. -/
structure ProducerPoint.Quiet (p : ProducerPoint α) : Prop where
  unsignaled : p.unsignaled = []
  posting : p.posting = 0
  unlinked : p.unlinked = none

/-- A step of `inner_enqueue` changes the ring and the producer's point only. -/
theorem Inv.producerStep (inv : Inv s g) {q' : ReaderWriterQueue α} {g' : Shape α}
    {p : ProducerPoint α} (ring : Ring q' g') (ok : ProducerOk p q' g')
    (moves : ProducerMoves s.inner g q' g')
    (quiet : s.producer.unsignaled = [] ∧ s.producer.posting = 0 ∧ p.posting = 0)
    (content : g'.content = g.content ++ p.unsignaled) :
    Inv { s with inner := q', producer := p } g' where
  alive := inv.alive
  ring := ring
  producer := ok
  consumer := inv.consumer.stable inv.ring moves
  semaphore := by
    obtain ⟨total, floor, posts⟩ := inv.semaphore
    obtain ⟨stored, before, after⟩ := quiet
    rw [stored] at total
    rw [before] at posts
    refine ⟨?_, floor, ?_⟩
    · simp only [content, List.length_append, List.length_nil] at total ⊢
      push_cast
      omega
    · rw [after]
      exact posts

/-! ## What the producer knows of a block -/

theorem Inv.holds (inv : Inv s g) {a : Nat} (member : a ∈ g.ring) :
    (s.inner.block a).Holds (g.view a) := inv.ring.holds a member

theorem Shape.mem_of_spare_head {next : Nat} (head : g.spare.head? = some next) :
    next ∈ g.spare ∧ next ∈ g.ring := by
  have member := List.mem_of_head? head
  exact ⟨member, List.mem_append_right _ member⟩

/-- The consumer takes elements of the front block only. -/
theorem Inv.whole (inv : Inv s g) {a : Nat} (member : a ∈ g.ring)
    (other : a ≠ s.inner.frontBlock) : (g.view a).taken = 0 := by
  rw [inv.consumer.taken a member]
  have knows := inv.consumer.knows
  cases point : s.consumer with
  | storeFront f k x =>
    rw [point] at knows
    simp [ConsumerPoint.taken, knows.1, other]
  | _ => rfl

theorem Inv.spare_whole (inv : Inv s g) {a : Nat} (spare : a ∈ g.spare) :
    (g.view a).taken = 0 := by
  refine inv.whole (List.mem_append_right _ spare) fun same => ?_
  exact inv.ring.spare_disjoint (List.mem_of_head? inv.ring.front) (same ▸ spare)

/-- A tail block that is full to the brim is full, or the consumer is at work in it. -/
theorem Inv.stuffed (inv : Inv s g)
    (full : (g.view s.inner.tailBlock).last =
      (g.view s.inner.tailBlock).head + (s.inner.block s.inner.tailBlock).sizeMask) :
    Stuffed s.inner g := by
  by_cases same : s.inner.tailBlock = s.inner.frontBlock
  · exact .inl same
  · have whole := inv.whole inv.ring.tailBlock_mem same
    refine .inr ?_
    unfold View.last at full
    omega

/-- Every block that has been made is in the ring. -/
theorem Inv.complete (inv : Inv s g) (quiet : s.producer.Quiet) {u : Option Nat} :
    ∀ a < s.inner.allocated, a ∈ g.ring ∨ u = some a := by
  intro a made
  exact .inl ((inv.producer.complete a made).resolve_right (by simp [quiet.unlinked]))

/-! ## Steps that touch no block -/

theorem Inv.producerPoint (inv : Inv s g) {p : ProducerPoint α} (quiet : s.producer.Quiet)
    (after : p.posting = 0 ∧ p.unsignaled = [])
    (extra : ∀ a, s.producer.extra a = [] ∧ p.extra a = [])
    (ahead : ∀ a, s.producer.ahead a = [] ∧ p.ahead a = [])
    (knows : p.Knows s.inner g) : Inv { s with producer := p } g := by
  refine inv.producerStep inv.ring
    ⟨fun a member => ?_, fun a member => ?_, inv.complete quiet, knows⟩ (.refl _ _)
    ⟨quiet.unsignaled, quiet.posting, after.1⟩ (by simp [after.2])
  · rw [inv.producer.extra a member, (extra a).1, (extra a).2]
  · rw [inv.producer.ahead a member, (ahead a).1, (ahead a).2]

/-! ## Assignments to one block -/

/-- An assignment to the tail block. -/
theorem Inv.writeTail (inv : Inv s g) {f : Block α → Block α} {v : View α} {p : ProducerPoint α}
    (wrote : (s.inner.block s.inner.tailBlock).Written (g.view s.inner.tailBlock)
      (f (s.inner.block s.inner.tailBlock)) v)
    (quiet : s.producer.Quiet) (after : p.posting = 0)
    (ahead : ∀ a, s.producer.ahead a = [] ∧ p.ahead a = [])
    (others : ∀ a, a ≠ s.inner.tailBlock → p.extra a = s.producer.extra a)
    (extra : v.extra = p.extra s.inner.tailBlock)
    (content : v.content = (g.view s.inner.tailBlock).content ++ p.unsignaled)
    (knows : p.Knows (s.inner.modify s.inner.tailBlock f) (g.update s.inner.tailBlock v)) :
    Inv { s with inner := s.inner.modify s.inner.tailBlock f, producer := p }
        (g.update s.inner.tailBlock v) ∧
      (g.update s.inner.tailBlock v).content = g.content ++ p.unsignaled := by
  obtain ⟨before, active⟩ := inv.ring.active_eq_append
  have total : (g.update s.inner.tailBlock v).content = g.content ++ p.unsignaled := by
    have apart : s.inner.tailBlock ∉ before := by
      have distinct := inv.ring.distinct
      rw [Shape.ring, active, List.append_assoc] at distinct
      exact fun member => (List.nodup_append.mp distinct).2.2 _ member _ (by simp) rfl
    simp only [Shape.content, Shape.update_active, active, List.flatMap_append,
      List.flatMap_singleton, Shape.update_view_self, content, ← List.append_assoc]
    congr 2
    refine List.flatMap_congr fun a member => ?_
    have other : a ≠ s.inner.tailBlock := by
      rintro rfl
      exact apart member
    rw [Shape.update_view_of_ne g other]
  refine ⟨inv.producerStep ?_ ⟨fun a member => ?_, fun a member => ?_, inv.complete quiet, knows⟩
    (.modify wrote fun _ other => absurd rfl other) ⟨quiet.unsignaled, quiet.posting, after⟩ total,
    total⟩
  · refine inv.ring.modify wrote.next wrote.sizeMask (fun _ => wrote.holds) fun member => ?_
    obtain ⟨some, _⟩ := inv.ring.filled _ member
    exact ⟨by simp [content, some], .inl rfl⟩
  · by_cases here : a = s.inner.tailBlock
    · subst here
      simpa using extra
    · rw [Shape.update_view_of_ne g here, others a here]
      exact inv.producer.extra a member
  · have other : a ≠ s.inner.tailBlock := fun same =>
      inv.ring.spare_disjoint (List.mem_of_getLast? inv.ring.tail) (same ▸ member)
    rw [Shape.update_view_of_ne g other, inv.producer.ahead a member, (ahead a).1, (ahead a).2]

/-- An assignment to the first spare block, which adds nothing to the content. -/
theorem Inv.writeSpare (inv : Inv s g) {a : Nat} {f : Block α → Block α} {v : View α}
    {p : ProducerPoint α} (spare : a ∈ g.spare)
    (wrote : (s.inner.block a).Written (g.view a) (f (s.inner.block a)) v)
    (quiet : s.producer.Quiet) (after : p.posting = 0 ∧ p.unsignaled = [])
    (others : ∀ b, b ≠ a → p.extra b = s.producer.extra b ∧ p.ahead b = s.producer.ahead b)
    (extra : v.extra = p.extra a) (ahead : v.content = p.ahead a)
    (knows : p.Knows (s.inner.modify a f) (g.update a v)) :
    Inv { s with inner := s.inner.modify a f, producer := p } (g.update a v) ∧
      (g.update a v).content = g.content := by
  have outside : a ∉ g.active := fun active => inv.ring.spare_disjoint active spare
  have total : (g.update a v).content = g.content := by
    simp only [Shape.content, Shape.update_active]
    refine List.flatMap_congr fun b member => ?_
    have other : b ≠ a := by
      rintro rfl
      exact outside member
    rw [Shape.update_view_of_ne g other]
  refine ⟨inv.producerStep ?_ ⟨fun b member => ?_, fun b member => ?_, inv.complete quiet, knows⟩
    (.modify wrote fun active _ => absurd active outside)
    ⟨quiet.unsignaled, quiet.posting, after.1⟩
    (by simp [total, after.2]), total⟩
  · exact inv.ring.modify wrote.next wrote.sizeMask (fun _ => wrote.holds) fun member =>
      absurd (List.mem_of_mem_tail member) outside
  · by_cases here : b = a
    · subst here
      simpa using extra
    · rw [Shape.update_view_of_ne g here, (others b here).1]
      exact inv.producer.extra b member
  · by_cases here : b = a
    · subst here
      simpa using ahead
    · rw [Shape.update_view_of_ne g here, (others b here).2]
      exact inv.producer.ahead b member

/-! ## The points of `inner_enqueue` -/

/-- A step of `inner_enqueue` that ends in `t`: the element is added when it is published. -/
def Adds (g : Shape α) (t : BlockingQueue α) : Prop :=
  ∃ g', Inv t g' ∧ g'.content = g.content ++ t.producer.unsignaled

theorem Inv.loadTail (inv : Inv s g) {x : α} (point : s.producer = .loadTail x)
    (room : ((s.inner.block s.inner.tailBlock).tail + 1) &&&
      (s.inner.block s.inner.tailBlock).sizeMask ≠ (s.inner.block s.inner.tailBlock).localFront) :
    Adds g { s with
      producer := .construct x s.inner.tailBlock (s.inner.block s.inner.tailBlock).tail } := by
  have holds := inv.holds inv.ring.tailBlock_mem
  refine ⟨g, ?_, by simp [ProducerPoint.unsignaled]⟩
  exact inv.producerPoint (by rw [point]; exact ⟨rfl, rfl, rfl⟩)
    ⟨rfl, rfl⟩ (by simp [point, ProducerPoint.extra]) (by simp [point, ProducerPoint.ahead])
    ⟨rfl, rfl, holds.space room⟩

theorem Inv.loadTail_full (inv : Inv s g) {x : α} (point : s.producer = .loadTail x) :
    Adds g { s with
      producer := .loadFront x s.inner.tailBlock (s.inner.block s.inner.tailBlock).tail } := by
  refine ⟨g, ?_, by simp [ProducerPoint.unsignaled]⟩
  exact inv.producerPoint (by rw [point]; exact ⟨rfl, rfl, rfl⟩)
    ⟨rfl, rfl⟩ (by simp [point, ProducerPoint.extra]) (by simp [point, ProducerPoint.ahead])
    ⟨rfl, rfl⟩

/-- The producer reads how far the consumer has come. -/
theorem Inv.loadFront (inv : Inv s g) {x : α} {t k : Nat} (point : s.producer = .loadFront x t k)
    {p : ProducerPoint α}
    (next : ((k + 1) &&& (s.inner.block t).sizeMask ≠ (s.inner.block t).front ∧
        p = .construct x t k) ∨
      ((k + 1) &&& (s.inner.block t).sizeMask = (s.inner.block t).front ∧
        p = .loadFrontBlock x t)) :
    Adds g { s with
      inner := s.inner.modify t fun b => { b with localFront := b.front }, producer := p } := by
  have knows := inv.producer.knows
  rw [point] at knows
  obtain ⟨rfl, rfl⟩ := knows
  have member := inv.ring.tailBlock_mem
  have holds := inv.holds member
  have extra := inv.producer.extra _ member
  rw [point] at extra
  have quiet : s.producer.Quiet := by
    rw [point]
    exact ⟨rfl, rfl, rfl⟩
  have wrote : (s.inner.block s.inner.tailBlock).Written (g.view s.inner.tailBlock) _ _ :=
    ⟨holds.refreshFront, rfl, rfl, rfl, rfl, rfl, rfl⟩
  rcases next with ⟨room, rfl⟩ | ⟨full, rfl⟩
  · refine ⟨_, inv.writeTail wrote quiet rfl ?_ ?_ extra ?_ ⟨rfl, by simp, ?_⟩⟩
    · simp [point, ProducerPoint.ahead]
    · simp [point, ProducerPoint.extra]
    · simp [ProducerPoint.unsignaled]
    · simpa [Roomy, View.last] using holds.space_front room
  · refine ⟨_, inv.writeTail wrote quiet rfl ?_ ?_ extra ?_ ⟨rfl, ?_⟩⟩
    · simp [point, ProducerPoint.ahead]
    · simp [point, ProducerPoint.extra]
    · simp [ProducerPoint.unsignaled]
    · simpa [Stuffed] using inv.stuffed (holds.full_front_iff.mp full)

/-- The slot is free, and the element is constructed in it. -/
theorem Inv.construct (inv : Inv s g) {x : α} {t k : Nat} (point : s.producer = .construct x t k) :
    (s.inner.block t).data k = none ∧
      Adds g { s with
        inner := s.inner.modify t fun b => { b with data := Function.update b.data k (some x) }
        producer := .storeTail x t k } := by
  have knows := inv.producer.knows
  rw [point] at knows
  obtain ⟨rfl, rfl, room⟩ := knows
  have member := inv.ring.tailBlock_mem
  have extra := inv.producer.extra _ member
  rw [point] at extra
  obtain ⟨free, holds⟩ := (inv.holds member).construct extra room x
  have wrote : (s.inner.block s.inner.tailBlock).Written (g.view s.inner.tailBlock) _ _ :=
    ⟨holds, rfl, rfl, rfl, rfl, rfl, rfl⟩
  refine ⟨free, _, inv.writeTail wrote ?_ rfl ?_ ?_ ?_ ?_ ⟨rfl, by simp⟩⟩
  · rw [point]
    exact ⟨rfl, rfl, rfl⟩
  · simp [point, ProducerPoint.ahead]
  · intro a other
    simp [point, ProducerPoint.extra, other]
  · simp [ProducerPoint.extra]
  · simp [ProducerPoint.unsignaled]

/-- The element is published in the tail block. -/
theorem Inv.storeTail (inv : Inv s g) {x : α} {t k : Nat} (point : s.producer = .storeTail x t k) :
    Adds g { s with
      inner := s.inner.modify t fun b => { b with tail := (k + 1) &&& b.sizeMask }
      producer := .signal x } := by
  have knows := inv.producer.knows
  rw [point] at knows
  obtain ⟨rfl, rfl⟩ := knows
  have member := inv.ring.tailBlock_mem
  have extra := inv.producer.extra _ member
  rw [point] at extra
  have one : (g.view s.inner.tailBlock).extra = [x] := by simpa [ProducerPoint.extra] using extra
  have wrote : (s.inner.block s.inner.tailBlock).Written (g.view s.inner.tailBlock) _ _ :=
    ⟨(inv.holds member).publish one, rfl, rfl, rfl, rfl, rfl, rfl⟩
  have published := inv.writeTail (p := .signal x)
    (f := fun b => { b with tail := ((s.inner.block s.inner.tailBlock).tail + 1) &&& b.sizeMask })
    wrote (by rw [point]; exact ⟨rfl, rfl, rfl⟩) rfl (by simp [point, ProducerPoint.ahead])
    (fun a other => by simp [point, ProducerPoint.extra, other]) rfl rfl trivial
  exact ⟨_, published⟩

/-- The tail block is full. The next block is free unless the consumer is at work in it. -/
theorem Inv.loadFrontBlock (inv : Inv s g) {x : α} {t : Nat}
    (point : s.producer = .loadFrontBlock x t) :
    ∃ next, (s.inner.block t).next = some next ∧
      (next ≠ s.inner.frontBlock → Adds g { s with producer := .loadNextFront x next }) ∧
      Adds g { s with producer := .makeBlock x t } := by
  have knows := inv.producer.knows
  rw [point] at knows
  obtain ⟨rfl, stuffed⟩ := knows
  have after : ∀ p : ProducerPoint α, p.posting = 0 → p.unsignaled = [] → (∀ a, p.extra a = []) →
      (∀ a, p.ahead a = []) → p.Knows s.inner g → Adds g { s with producer := p } := by
    intro p posting unsignaled extra ahead knows
    refine ⟨g, ?_, by simp [unsignaled]⟩
    exact inv.producerPoint (by rw [point]; exact ⟨rfl, rfl, rfl⟩) ⟨posting, unsignaled⟩
      (fun a => ⟨by simp [point, ProducerPoint.extra], extra a⟩)
      (fun a => ⟨by simp [point, ProducerPoint.ahead], ahead a⟩) knows
  refine ⟨_, inv.ring.next_tailBlock, fun other => ?_, ?_⟩
  · refine after _ rfl rfl (fun _ => rfl) (fun _ => rfl) ⟨?_, stuffed⟩
    cases head : g.spare.head? with
    | none => simp [head] at other
    | some next => simp
  · exact after _ rfl rfl (fun _ => rfl) (fun _ => rfl) ⟨rfl, stuffed⟩

/-- The next block is empty, as the code asserts. -/
theorem Inv.loadNextFront (inv : Inv s g) {x : α} {next : Nat}
    (point : s.producer = .loadNextFront x next) :
    (s.inner.block next).front = (s.inner.block next).tail ∧
      Adds g { s with
        inner := s.inner.modify next fun b => { b with localFront := b.front }
        producer := .constructNext x next (s.inner.block next).tail } := by
  have knows := inv.producer.knows
  rw [point] at knows
  obtain ⟨head, stuffed⟩ := knows
  obtain ⟨spare, member⟩ := Shape.mem_of_spare_head head
  have holds := inv.holds member
  have whole := inv.spare_whole spare
  have extra := inv.producer.extra _ member
  have empty := inv.producer.ahead _ spare
  rw [point] at extra empty
  have mask := holds.sizeMask_pos
  have apart : s.inner.tailBlock ≠ next := by
    rintro rfl
    exact inv.ring.spare_disjoint (List.mem_of_getLast? inv.ring.tail) spare
  have wrote : (s.inner.block next).Written (g.view next) _ _ :=
    ⟨holds.refreshFront, rfl, rfl, rfl, rfl, rfl, rfl⟩
  have written := inv.writeSpare (p := .constructNext x next (s.inner.block next).tail)
    (f := fun b => { b with localFront := b.front }) spare wrote
    (by rw [point]; exact ⟨rfl, rfl, rfl⟩) ⟨rfl, rfl⟩
    (by simp [point, ProducerPoint.extra, ProducerPoint.ahead]) extra empty
    ⟨head, by simp, by simpa [Roomy, View.last, whole, empty, ProducerPoint.ahead] using mask,
      by simpa [Stuffed, apart] using stuffed⟩
  exact ⟨(holds.empty_iff whole).mpr empty, _, by simpa [ProducerPoint.unsignaled] using written⟩

theorem Inv.constructNext (inv : Inv s g) {x : α} {next k : Nat}
    (point : s.producer = .constructNext x next k) :
    (s.inner.block next).data k = none ∧
      Adds g { s with
        inner := s.inner.modify next fun b => { b with data := Function.update b.data k (some x) }
        producer := .storeNextTail x next k } := by
  have knows := inv.producer.knows
  rw [point] at knows
  obtain ⟨head, rfl, room, stuffed⟩ := knows
  obtain ⟨spare, member⟩ := Shape.mem_of_spare_head head
  have extra := inv.producer.extra _ member
  have empty := inv.producer.ahead _ spare
  rw [point] at extra empty
  obtain ⟨free, holds⟩ := (inv.holds member).construct extra room x
  have apart : s.inner.tailBlock ≠ next := by
    rintro rfl
    exact inv.ring.spare_disjoint (List.mem_of_getLast? inv.ring.tail) spare
  have wrote : (s.inner.block next).Written (g.view next) _ _ :=
    ⟨holds, rfl, rfl, rfl, rfl, rfl, rfl⟩
  have written := inv.writeSpare (p := .storeNextTail x next (s.inner.block next).tail)
    (f := fun b => { b with data := Function.update b.data (s.inner.block next).tail (some x) })
    spare wrote (by rw [point]; exact ⟨rfl, rfl, rfl⟩) ⟨rfl, rfl⟩
    (fun a other => by simp [point, ProducerPoint.extra, ProducerPoint.ahead, other])
    (by simp [ProducerPoint.extra]) empty
    ⟨head, by simp, by simpa [Stuffed, apart] using stuffed⟩
  exact ⟨free, _, by simpa [ProducerPoint.unsignaled] using written⟩

theorem Inv.storeNextTail (inv : Inv s g) {x : α} {next k : Nat}
    (point : s.producer = .storeNextTail x next k) :
    Adds g { s with
      inner := s.inner.modify next fun b => { b with tail := (k + 1) &&& b.sizeMask }
      producer := .storeTailBlock x next } := by
  have knows := inv.producer.knows
  rw [point] at knows
  obtain ⟨head, rfl, stuffed⟩ := knows
  obtain ⟨spare, member⟩ := Shape.mem_of_spare_head head
  have extra := inv.producer.extra _ member
  have empty := inv.producer.ahead _ spare
  rw [point] at extra empty
  have one : (g.view next).extra = [x] := by simpa [ProducerPoint.extra] using extra
  have none : (g.view next).content = [] := by simpa [ProducerPoint.ahead] using empty
  have apart : s.inner.tailBlock ≠ next := by
    rintro rfl
    exact inv.ring.spare_disjoint (List.mem_of_getLast? inv.ring.tail) spare
  have wrote : (s.inner.block next).Written (g.view next) _ _ :=
    ⟨(inv.holds member).publish one, rfl, rfl, rfl, rfl, rfl, rfl⟩
  have written := inv.writeSpare (p := .storeTailBlock x next)
    (f := fun b => { b with tail := ((s.inner.block next).tail + 1) &&& b.sizeMask })
    spare wrote (by rw [point]; exact ⟨rfl, rfl, rfl⟩) ⟨rfl, rfl⟩
    (fun a other => by simp [point, ProducerPoint.extra, ProducerPoint.ahead, other]) rfl
    (by simp [none, ProducerPoint.ahead])
    ⟨head, by simpa [Stuffed, apart] using stuffed⟩
  exact ⟨_, by simpa [ProducerPoint.unsignaled] using written⟩

/-- The block becomes the tail block, and the element in it part of the content. -/
theorem Inv.storeTailBlock (inv : Inv s g) {x : α} {next : Nat}
    (point : s.producer = .storeTailBlock x next) :
    Adds g { s with inner := { s.inner with tailBlock := next }, producer := .signal x } := by
  have knows := inv.producer.knows
  rw [point] at knows
  obtain ⟨head, stuffed⟩ := knows
  obtain ⟨rest, spare⟩ := List.head?_eq_some_iff.mp head
  have distinct := inv.ring.distinct
  rw [Shape.ring, spare] at distinct
  have content : (g.view next).content = [x] := by
    have ahead := inv.producer.ahead next (by simp [spare])
    simpa [point, ProducerPoint.ahead] using ahead
  have inactive : next ∉ g.active := fun active =>
    (List.nodup_append.mp distinct).2.2 next active next (by simp) rfl
  have total : Shape.content { g with active := g.active ++ [next], spare := rest } =
      g.content ++ [x] := by
    simp [Shape.content, content]
  refine ⟨_, inv.producerStep (inv.ring.advanceTail spare (by simp [content]) stuffed) ?_ ?_
    ⟨by simp [point, ProducerPoint.unsignaled], by simp [point, ProducerPoint.posting], rfl⟩ total,
    total⟩
  · refine ⟨fun a member => ?_, fun a member => ?_, fun a made => ?_, trivial⟩
    · have old := inv.producer.extra a (by simpa [Shape.ring, spare] using member)
      simpa [point, ProducerPoint.extra] using old
    · have other : a ≠ next := by
        rintro rfl
        exact (List.nodup_cons.mp (List.nodup_append.mp distinct).2.1).1 member
      have old := inv.producer.ahead a (by simp only [spare]; exact List.mem_cons_of_mem _ member)
      simpa [point, ProducerPoint.ahead, other] using old
    · have old := inv.complete (by rw [point]; exact ⟨rfl, rfl, rfl⟩) (u := none) a made
      simpa [Shape.ring, spare, ProducerPoint.unlinked] using old
  · exact {
      frontBlock := rfl
      active := ⟨[next], rfl⟩
      front := fun _ _ => rfl
      head := fun _ _ => rfl
      localEnd := fun _ _ => rfl
      taken := fun a member => .inl ⟨by simpa [Shape.ring, spare] using member, rfl⟩
      content := fun _ _ _ => rfl
      tailBlock := .inr inactive }

/-- A block is made for the element, outside the ring. -/
theorem Inv.makeBlock (inv : Inv s g) {x : α} {t n k : Nat} (small : k < 63)
    (power : n = 2 ^ (k + 1)) (point : s.producer = .makeBlock x t) :
    Adds g { s with
      inner := { s.inner with
        largestBlockSize := n
        allocated := s.inner.allocated + 1
        block := Function.update s.inner.block s.inner.allocated
          { (Moodycamel.makeBlock n : Block α) with
            data := Function.update (fun _ => none) 0 (some x)
            tail := 1
            localTail := 1
            next := (s.inner.block t).next } }
      producer := .linkBlock x t s.inner.allocated } := by
  have knows := inv.producer.knows
  rw [point] at knows
  obtain ⟨rfl, stuffed⟩ := knows
  have older : ∀ a ∈ g.ring, a ≠ s.inner.allocated := fun a member => (inv.ring.made a member).ne
  have tailOlder := older _ inv.ring.tailBlock_mem
  have outside : s.inner.allocated ∉ g.ring := fun member => older _ member rfl
  have holds := makeBlock_holds_one (α := α) power small x (s.inner.block s.inner.tailBlock).next
  have total : ∀ v : View α, (g.update s.inner.allocated v).content = g.content := by
    intro v
    simp only [Shape.content, Shape.update_active]
    refine List.flatMap_congr fun a member => ?_
    rw [Shape.update_view_of_ne g (older a (List.mem_append_left _ member))]
  refine ⟨_, inv.producerStep (inv.ring.allocate _ (.single x) small power) ?_ ?_
    ⟨by simp [point, ProducerPoint.unsignaled], by simp [point, ProducerPoint.posting], rfl⟩ ?_, ?_⟩
  · refine ⟨fun a member => ?_, fun a member => ?_, fun a made => ?_, rfl, ?_, ?_⟩
    · have old := inv.producer.extra a member
      simpa [point, ProducerPoint.extra, older a member] using old
    · have old := inv.producer.ahead a member
      simpa [point, ProducerPoint.ahead, older a (List.mem_append_right _ member)] using old
    · rcases Nat.lt_succ_iff_lt_or_eq.mp made with old | rfl
      · exact inv.complete (by rw [point]; exact ⟨rfl, rfl, rfl⟩) a old
      · exact .inr rfl
    · exact {
        outside := outside
        made := Nat.lt_succ_self _
        holds := by simpa using holds
        content := by simp [View.single]
        extra := by simp [View.single, View.empty]
        taken := by simp [View.single, View.empty]
        next := by simp [tailOlder] }
    · simpa [Stuffed, tailOlder] using stuffed
  · exact {
      frontBlock := rfl
      active := ⟨[], by simp⟩
      front := fun a member => by simp [older a member]
      head := fun a member => by simp [older a member]
      localEnd := fun a member => by simp [older a member]
      taken := fun a member => .inl ⟨member, by simp [older a member]⟩
      content := fun a active _ => by simp [older a (List.mem_append_left _ active)]
      tailBlock := .inl rfl }
  · simp [total, ProducerPoint.unsignaled]
  · simp [total, ProducerPoint.unsignaled]

/-- Without memory the element is dropped. -/
theorem Inv.makeBlock_fails (inv : Inv s g) {x : α} {t : Nat}
    (point : s.producer = .makeBlock x t) : Adds g { s with producer := .idle } := by
  refine ⟨g, ?_, by simp [ProducerPoint.unsignaled]⟩
  exact inv.producerPoint (by rw [point]; exact ⟨rfl, rfl, rfl⟩)
    ⟨rfl, rfl⟩ (by simp [point, ProducerPoint.extra]) (by simp [point, ProducerPoint.ahead])
    trivial

/-- The new block joins the ring as the first spare block. -/
theorem Inv.linkBlock (inv : Inv s g) {x : α} {t new : Nat}
    (point : s.producer = .linkBlock x t new) :
    Adds g { s with
      inner := s.inner.modify t fun b => { b with next := some new }
      producer := .storeTailBlock x new } := by
  have knows := inv.producer.knows
  rw [point] at knows
  obtain ⟨rfl, unlinked, stuffed⟩ := knows
  have member : ∀ a, a ∈ Shape.ring { g with spare := new :: g.spare } ↔ a = new ∨ a ∈ g.ring := by
    intro a
    simp only [Shape.ring, List.mem_append, List.mem_cons]
    grind
  have newest : ∀ a ∈ g.ring, a ≠ new := fun a inside same => unlinked.outside (same ▸ inside)
  refine ⟨{ g with spare := new :: g.spare },
    inv.producerStep (inv.ring.link unlinked.outside unlinked.made unlinked.holds unlinked.next)
      ?_ ?_ ⟨by simp [point, ProducerPoint.unsignaled], by simp [point, ProducerPoint.posting],
        rfl⟩ ?_, ?_⟩
  · refine ⟨fun a inside => ?_, fun a spare => ?_, fun a made => .inl ?_, rfl, ?_⟩
    · rcases (member a).mp inside with rfl | old
      · simpa [ProducerPoint.extra] using unlinked.extra
      · simpa [point, ProducerPoint.extra] using inv.producer.extra a old
    · rcases List.mem_cons.mp spare with rfl | old
      · simpa [ProducerPoint.ahead] using unlinked.content
      · have other := newest a (List.mem_append_right _ old)
        simpa [point, ProducerPoint.ahead, other] using inv.producer.ahead a old
    · rcases inv.producer.complete a made with old | last
      · exact (member a).mpr (.inr old)
      · rw [point] at last
        exact (member a).mpr (.inl (Option.some.inj last).symm)
    · simpa [Stuffed] using stuffed
  · have front : ∀ a, ((s.inner.modify s.inner.tailBlock fun b =>
        { b with next := some new }).block a).front = (s.inner.block a).front := by
      intro a
      by_cases here : a = s.inner.tailBlock <;> simp [here]
    exact {
      frontBlock := rfl
      active := ⟨[], by simp⟩
      front := fun a _ => front a
      head := fun _ _ => rfl
      localEnd := fun _ _ => rfl
      taken := fun a inside => by
        rcases (member a).mp inside with rfl | old
        · exact .inr ⟨unlinked.outside, unlinked.taken⟩
        · exact .inl ⟨old, rfl⟩
      content := fun _ _ _ => rfl
      tailBlock := .inl rfl }
  · simp [Shape.content, ProducerPoint.unsignaled]
  · simp [Shape.content, ProducerPoint.unsignaled]

/-! ## The whole of `enqueue` -/

/-- No step of `inner_enqueue` goes wrong, and each only adds the element at the end. -/
theorem Inv.innerEnqueue (inv : Inv s g) {malloc : Bool}
    (step : Moodycamel.innerEnqueue malloc s = some t) : s.producer.unsignaled = [] ∧ Adds g t := by
  unfold Moodycamel.innerEnqueue at step
  cases point : s.producer with
  | idle | signal | post => simp [point] at step
  | loadTail x =>
    simp only [point] at step
    refine ⟨rfl, ?_⟩
    split at step
    · next room =>
      cases step
      exact inv.loadTail point room
    · cases step
      exact inv.loadTail_full point
  | loadFront x b k =>
    simp only [point] at step
    refine ⟨rfl, ?_⟩
    split at step
    · next room =>
      cases step
      exact inv.loadFront point (.inl ⟨room, rfl⟩)
    · next full =>
      cases step
      exact inv.loadFront point (.inr ⟨not_not.mp full, rfl⟩)
  | construct x b k =>
    obtain ⟨free, adds⟩ := inv.construct point
    simp only [point, free, Option.some.injEq] at step
    exact ⟨rfl, step ▸ adds⟩
  | storeTail x b k =>
    simp only [point, Option.some.injEq] at step
    exact ⟨rfl, step ▸ inv.storeTail point⟩
  | loadFrontBlock x b =>
    obtain ⟨next, linked, free, taken⟩ := inv.loadFrontBlock point
    simp only [point, linked] at step
    refine ⟨rfl, ?_⟩
    split at step
    · next other =>
      cases step
      exact free other
    · cases step
      exact taken
  | loadNextFront x next =>
    obtain ⟨empty, adds⟩ := inv.loadNextFront point
    simp only [point, empty, if_true, Option.some.injEq] at step
    refine ⟨rfl, step ▸ ?_⟩
    simpa only [empty] using adds
  | constructNext x next k =>
    obtain ⟨free, adds⟩ := inv.constructNext point
    simp only [point, free, Option.some.injEq] at step
    exact ⟨rfl, step ▸ adds⟩
  | storeNextTail x next k =>
    simp only [point, Option.some.injEq] at step
    exact ⟨rfl, step ▸ inv.storeNextTail point⟩
  | makeBlock x b =>
    obtain ⟨k, small, largest⟩ := inv.ring.largest
    simp only [point] at step
    refine ⟨rfl, ?_⟩
    split at step
    · cases step
      by_cases full : s.inner.largestBlockSize ≥ maxBlockSize
      · simpa only [if_pos full] using inv.makeBlock small largest point
      · have below : 2 ^ (k + 1) < 2 ^ 9 := by
          rw [← largest]
          exact Nat.lt_of_not_le full
        have doubled := (Nat.pow_lt_pow_iff_right (by decide)).mp below
        simpa only [if_neg full] using
          inv.makeBlock (n := s.inner.largestBlockSize * 2) (k := k + 1) (by omega)
            (by rw [largest, ← Nat.pow_succ]) point
    · cases step
      exact inv.makeBlock_fails point
  | linkBlock x b new =>
    simp only [point, Option.some.injEq] at step
    exact ⟨rfl, step ▸ inv.linkBlock point⟩
  | storeTailBlock x block =>
    simp only [point, Option.some.injEq] at step
    exact ⟨rfl, step ▸ inv.storeTailBlock point⟩

/-- Only a consumer that is not let through takes `m_count` below zero. -/
theorem ConsumerPoint.floor_cases (c : ConsumerPoint α) :
    0 ≤ c.floor ∨ c.floor = -1 ∧ ∀ count, c.wakes count = if 0 ≤ count then 1 else 0 := by
  cases c with
  | semWait | restore | semTryWait => exact .inr ⟨rfl, fun _ => rfl⟩
  | _ => exact .inl (by simp [ConsumerPoint.floor])

theorem ConsumerPoint.wakes_of_nonneg (c : ConsumerPoint α) {m n : Int} (hm : 0 ≤ m) (hn : 0 ≤ n) :
    c.wakes m = c.wakes n := by
  cases c with
  | semWait | restore | semTryWait => simp [ConsumerPoint.wakes, hm, hn]
  | _ => rfl

/-- The producer's point alone has changed, and it holds nothing back. -/
theorem Inv.signalled (inv : Inv s g) {x : α} (point : s.producer = .signal x)
    {p : ProducerPoint α} (plain : p = .idle ∨ p = .post)
    (semaphore : SemaphoreOk { s with count := s.count + 1, producer := p } g) :
    Inv { s with count := s.count + 1, producer := p } g where
  alive := inv.alive
  ring := inv.ring
  producer := by
    obtain ⟨extra, ahead, complete, _⟩ := inv.producer
    rw [point] at extra ahead complete
    rcases plain with rfl | rfl
    · exact ⟨extra, ahead, complete, trivial⟩
    · exact ⟨extra, ahead, complete, trivial⟩
  consumer := inv.consumer
  semaphore := semaphore

/-- `signal` counts the element, and posts when the consumer is waiting for it. -/
theorem Inv.signal (inv : Inv s g) (step : Moodycamel.signal s = some t) :
    Inv t g ∧ t.producer.unsignaled = [] ∧
      ((∃ x, s.producer = .signal x) ∨ s.producer.unsignaled = []) := by
  obtain ⟨total, floor, posts⟩ := inv.semaphore
  unfold Moodycamel.signal at step
  cases point : s.producer with
  | signal x =>
    have some : s.producer.unsignaled.length = 1 := by simp [point, ProducerPoint.unsignaled]
    have none : s.producer.posting = 0 := by simp [point, ProducerPoint.posting]
    simp only [point] at step
    rw [some] at total
    rw [none] at posts
    split at step
    · next low =>
      rcases s.consumer.floor_cases with high | ⟨least, _⟩ <;> omega
    · cases step
      by_cases negative : s.count < 0
      · obtain ⟨least, wakes⟩ := s.consumer.floor_cases.resolve_left (by omega)
        have minus : s.count = -1 := by omega
        rw [wakes, if_neg (by omega)] at posts
        simp only [if_pos negative]
        refine ⟨inv.signalled point (.inr rfl) ⟨?_, ?_, ?_⟩, rfl, .inl ⟨x, rfl⟩⟩
        · simp only [ProducerPoint.unsignaled, List.length_nil]
          omega
        · simp only [least]
          omega
        · simp only [wakes, ProducerPoint.posting, minus]
          simp
          omega
      · have wakes := s.consumer.wakes_of_nonneg (n := s.count + 1) (by omega : 0 ≤ s.count)
          (by omega)
        simp only [if_neg negative]
        refine ⟨inv.signalled point (.inl rfl) ⟨?_, ?_, ?_⟩, rfl, .inl ⟨x, rfl⟩⟩
        · simp only [ProducerPoint.unsignaled, List.length_nil]
          omega
        · simp only
          omega
        · simp only [ProducerPoint.posting, ← wakes]
          omega
  | post =>
    simp only [point, Option.some.injEq] at step
    subst step
    refine ⟨⟨inv.alive, inv.ring, ?_, inv.consumer, ⟨?_, floor, ?_⟩⟩, rfl, .inr rfl⟩
    · obtain ⟨extra, ahead, complete, _⟩ := inv.producer
      rw [point] at extra ahead complete
      exact ⟨extra, ahead, complete, trivial⟩
    · simpa [point, ProducerPoint.unsignaled] using total
    · simpa [point, ProducerPoint.posting] using posts
  | _ => simp [point] at step

end LibcameraStreamer.Moodycamel
