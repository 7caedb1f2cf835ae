import LibcameraStreamer.Queue.Refinement

/-!
# The end of a queue

The destructor goes once around the ring. It destroys the elements that are still inside, in
their order, and frees every block that was ever made.
-/
namespace LibcameraStreamer.Moodycamel
open Library

variable {α : Type*} {q : ReaderWriterQueue α} {g : Shape α} {s t : BlockingQueue α}

/-! ## A block -/

/-- From the `j`-th element on, the loop meets the rest of the content. -/
theorem Block.Holds.destroyElements_from {b : Block α} {v : View α} (h : b.Holds v)
    (whole : v.taken = 0) (published : v.extra = []) (rounds : Nat) :
    ∀ j ≤ v.content.length, v.content.length - j < rounds →
      b.destroyElements rounds ((v.head + j) % (b.sizeMask + 1)) =
        some ((v.content.drop j).map some) := by
  induction rounds with
  | zero =>
    intro j _ short
    omega
  | succ rounds ih =>
    intro j bound enough
    have room := h.length_le
    have slots := h.slots
    simp only [whole, published, List.append_nil, Nat.add_zero] at slots
    have tail : b.tail = (v.head + v.content.length) % (b.sizeMask + 1) := by
      rw [h.tail, View.last, whole, Nat.add_zero]
    rw [Block.destroyElements]
    by_cases last : j = v.content.length
    · rw [if_neg (by rw [tail, last]; simp)]
      simp [last]
    · have differ : (v.head + j) % (b.sizeMask + 1) ≠ b.tail := by
        intro same
        rw [tail] at same
        have := eq_of_mod_eq (by omega) (by omega) same
        omega
      have step : ((v.head + j) % (b.sizeMask + 1) + 1) &&& b.sizeMask =
          (v.head + (j + 1)) % (b.sizeMask + 1) := by
        rw [h.and_sizeMask, Nat.mod_add_mod, Nat.add_assoc]
      rw [if_pos differ, step, ih (j + 1) (by omega) (by omega), slots j (by omega)]
      have inside : j < v.content.length := by omega
      rw [Option.map_some, List.getElem?_eq_getElem inside, List.drop_eq_getElem_cons inside,
        List.map_cons]

theorem Block.Holds.destroyElements {b : Block α} {v : View α} (h : b.Holds v)
    (whole : v.taken = 0) (published : v.extra = []) :
    b.destroyElements (b.sizeMask + 1) b.front = some (v.content.map some) := by
  have room := h.length_le
  have all := h.destroyElements_from whole published (b.sizeMask + 1) 0 (Nat.zero_le _) (by omega)
  rw [h.front]
  simpa using all

/-! ## The ring -/

/-- Along a chain that leads back to the front block, every block is freed and every element
destroyed. -/
theorem destroyBlocks_chain (rest : List Nat) : ∀ (rounds a : Nat), rest.length < rounds →
    (a :: rest ++ [q.frontBlock]).IsChain (fun a b => (q.block a).next = some b) →
    q.frontBlock ∉ rest →
    (∀ b ∈ a :: rest, (q.block b).destroyElements ((q.block b).sizeMask + 1) (q.block b).front =
      some ((g.view b).content.map some)) →
    q.destroyBlocks rounds a =
      some (a :: rest, (a :: rest).flatMap fun b => (g.view b).content.map some) := by
  induction rest with
  | nil =>
    intro rounds a enough chain _ elements
    obtain ⟨rounds, rfl⟩ := Nat.exists_eq_succ_of_ne_zero (by omega : rounds ≠ 0)
    have next := (List.isChain_cons_cons.mp chain).1
    simp [ReaderWriterQueue.destroyBlocks, elements a (by simp), next]
  | cons b rest ih =>
    intro rounds a enough chain apart elements
    obtain ⟨rounds, rfl⟩ := Nat.exists_eq_succ_of_ne_zero (by omega : rounds ≠ 0)
    obtain ⟨next, others⟩ := List.isChain_cons_cons.mp chain
    simp only [List.mem_cons, not_or] at apart
    obtain ⟨first, later⟩ := apart
    have more := ih rounds b (by simpa using enough) others later
      fun c member => elements c (List.mem_cons_of_mem a member)
    simp [ReaderWriterQueue.destroyBlocks, elements a (by simp), next, Ne.symm first, more]

/-- With both threads gone, the destructor finds the elements of the list. -/
theorem Inv.destroy (inv : Inv s g) (producer : s.producer = .idle)
    (consumer : s.consumer = .idle) :
    s.inner.destroy s.inner.allocated = some (g.ring, g.content.map some) ∧
      g.ring.Perm (List.range s.inner.allocated) := by
  have whole : ∀ a ∈ g.ring, (g.view a).taken = 0 := by
    intro a member
    simpa [consumer, ConsumerPoint.taken] using inv.consumer.taken a member
  have published : ∀ a ∈ g.ring, (g.view a).extra = [] := by
    intro a member
    simpa [producer, ProducerPoint.extra] using inv.producer.extra a member
  have empty : ∀ a ∈ g.spare, (g.view a).content = [] := by
    intro a member
    simpa [producer, ProducerPoint.ahead] using inv.producer.ahead a member
  have perm : g.ring.Perm (List.range s.inner.allocated) := by
    refine (List.perm_ext_iff_of_nodup inv.ring.distinct List.nodup_range).mpr fun a => ?_
    rw [List.mem_range]
    refine ⟨inv.ring.made a, fun made => ?_⟩
    exact (inv.producer.complete a made).resolve_right (by simp [producer, ProducerPoint.unlinked])
  obtain ⟨rest, active⟩ := inv.ring.active_eq
  have ring : g.ring = s.inner.frontBlock :: (rest ++ g.spare) := by simp [Shape.ring, active]
  have chain := inv.ring.chain
  have distinct := inv.ring.distinct
  rw [ring] at chain distinct
  have length := perm.length_eq
  rw [ring, List.length_range, List.length_cons] at length
  have all := destroyBlocks_chain (g := g) (rest ++ g.spare) s.inner.allocated s.inner.frontBlock
    (by omega) chain (List.nodup_cons.mp distinct).1 fun b member => by
      rw [← ring] at member
      exact (inv.holds member).destroyElements (whole b member) (published b member)
  have spare : (g.spare.flatMap fun b => (g.view b).content.map some) = [] := by
    rw [List.flatMap_eq_nil_iff]
    intro a member
    rw [empty a member, List.map_nil]
  refine ⟨?_, perm⟩
  rw [ReaderWriterQueue.destroy, all, ← ring, Shape.content, List.map_flatMap, Shape.ring,
    List.flatMap_append, spare, List.append_nil]

/-- When both threads have returned from their calls, the destructor destroys exactly the elements
that were put in and not taken out, each once and in their order, and frees every block that was
made, each once. -/
theorem destroy_frees_everything {malloc : Nat → Bool} {size : UInt64}
    {tr : List (BlockingQueue α × QueueAction α)} (positive : 1 ≤ size.toNat)
    (small : size.toNat < 2 ^ 63) (made : blockingQueue malloc size = some s)
    (run : QueueRuns s tr t) (producer : t.producer = .idle) (consumer : t.consumer = .idle) :
    ∃ blocks l, t.inner.destroy t.inner.allocated = some (blocks, l.map some) ∧
      blocks.Perm (List.range t.inner.allocated) ∧
      Fifo.puts (log queueOp tr) = Fifo.takes (log queueOp tr) ++ l := by
  obtain ⟨ops, l, answered, ⟨g, inv, content⟩, same⟩ := run.represents (.new positive small made)
  obtain ⟨destroyed, blocks⟩ := inv.destroy producer consumer
  rw [producer] at content
  refine ⟨g.ring, l, ?_, blocks, ?_⟩
  · rw [destroyed, content]
    simp [ProducerPoint.unsignaled]
  · rw [← same]
    exact answered.puts_eq

/-- Two elements are left in two blocks. -/
theorem destroy_frees_everything_of_two :
    ∃ (t : BlockingQueue Nat) (tr : List (BlockingQueue Nat × QueueAction Nat)),
      t.inner.allocated = 2 ∧ ∃ blocks l,
        t.inner.destroy t.inner.allocated = some (blocks, l.map some) ∧
        blocks.Perm (List.range t.inner.allocated) ∧
        Fifo.puts (log queueOp tr) = Fifo.takes (log queueOp tr) ++ l := by
  obtain ⟨s, tr, t, made, run, _, done⟩ := exists_queueRun (fun _ => true) 1 (fun _ _ => True)
    (enqueueCall 1 4 ++ enqueueCall 2 7)
    (fun t : BlockingQueue Nat => t.inner.allocated == 2 && t.producer == .idle &&
      t.consumer == .idle) (by decide)
  simp only [Bool.and_eq_true, beq_iff_eq] at done
  exact ⟨t, tr, done.1.1,
    destroy_frees_everything (by decide) (by decide) made run done.1.2 done.2⟩

end LibcameraStreamer.Moodycamel
