import LibcameraStreamer.Queue.Block

/-!
# The circular list of blocks

From `frontBlock` to `tailBlock` the blocks are active, and from there on around the circle they
are spare. The queue holds what its active blocks hold, one after the other.
-/
namespace LibcameraStreamer.Moodycamel
open Library

variable {α : Type*}

structure Shape (α : Type*) where
  active : List Nat
  spare : List Nat
  view : Nat → View α

namespace Shape

def ring (g : Shape α) : List Nat := g.active ++ g.spare

def content (g : Shape α) : List α := g.active.flatMap fun a => (g.view a).content

def update (g : Shape α) (a : Nat) (v : View α) : Shape α :=
  { g with view := Function.update g.view a v }

section

variable (g : Shape α) (a : Nat) (v : View α)

@[simp] theorem update_active : (g.update a v).active = g.active := rfl
@[simp] theorem update_spare : (g.update a v).spare = g.spare := rfl
@[simp] theorem update_ring : (g.update a v).ring = g.ring := rfl
@[simp] theorem update_view_self : (g.update a v).view a = v := by simp [update]

@[simp] theorem update_view_of_ne {a b : Nat} (other : b ≠ a) (v : View α) :
    (g.update a v).view b = g.view b := by simp [update, other]

end

/-- A change of a block that leaves its content alone. -/
theorem content_update {g : Shape α} {a : Nat} {v : View α}
    (same : v.content = (g.view a).content) : (g.update a v).content = g.content := by
  simp only [content, update_active]
  refine List.flatMap_congr fun b _ => ?_
  by_cases here : b = a
  · rw [here, update_view_self, same]
  · rw [update_view_of_ne g here]

end Shape

structure Ring (q : ReaderWriterQueue α) (g : Shape α) : Prop where
  distinct : g.ring.Nodup
  front : g.active.head? = some q.frontBlock
  tail : g.active.getLast? = some q.tailBlock
  chain : (g.ring ++ [q.frontBlock]).IsChain fun a b => (q.block a).next = some b
  holds : ∀ a ∈ g.ring, (q.block a).Holds (g.view a)
  made : ∀ a ∈ g.ring, a < q.allocated
  /-- Behind the front block nothing has been taken. -/
  filled : ∀ a ∈ g.active.tail, (g.view a).content ≠ [] ∧
    (a = q.tailBlock ∨ (g.view a).content.length = (q.block a).sizeMask)
  largest : ∃ k < 63, q.largestBlockSize = 2 ^ (k + 1)

namespace Ring

variable {q : ReaderWriterQueue α} {g : Shape α}

theorem active_eq (ring : Ring q g) : ∃ rest, g.active = q.frontBlock :: rest :=
  List.head?_eq_some_iff.mp ring.front

theorem active_eq_append (ring : Ring q g) : ∃ before, g.active = before ++ [q.tailBlock] :=
  List.getLast?_eq_some_iff.mp ring.tail

theorem frontBlock_mem (ring : Ring q g) : q.frontBlock ∈ g.ring := by
  obtain ⟨rest, active⟩ := ring.active_eq
  simp [Shape.ring, active]

theorem tailBlock_mem (ring : Ring q g) : q.tailBlock ∈ g.ring := by
  obtain ⟨before, active⟩ := ring.active_eq_append
  simp [Shape.ring, active]

theorem notMem_active_tail (ring : Ring q g) : q.frontBlock ∉ g.active.tail := by
  obtain ⟨rest, front⟩ := ring.active_eq
  have distinct := ring.distinct
  rw [Shape.ring, front, List.cons_append, List.nodup_cons] at distinct
  rw [front]
  exact fun member => distinct.1 (List.mem_append_left _ member)

theorem spare_disjoint (ring : Ring q g) {a : Nat} (active : a ∈ g.active) : a ∉ g.spare :=
  fun spare => (List.nodup_append.mp ring.distinct).2.2 a active a spare rfl

/-- The block after the tail block is the first spare one, or else the front block. -/
theorem next_tailBlock (ring : Ring q g) :
    (q.block q.tailBlock).next = some (g.spare.head?.getD q.frontBlock) := by
  obtain ⟨before, active⟩ := ring.active_eq_append
  have chain := ring.chain
  rw [Shape.ring, active, List.append_assoc, List.append_assoc] at chain
  have rest := (List.isChain_append.mp chain).2.1
  cases spare : g.spare with
  | nil => simpa [spare] using rest
  | cons a more =>
    rw [spare] at rest
    simpa using (List.isChain_cons_cons.mp rest).1

/-- When the front block is not the tail block, the block after it is active as well. -/
theorem next_frontBlock (ring : Ring q g) (apart : q.frontBlock ≠ q.tailBlock) :
    ∃ next rest, g.active = q.frontBlock :: next :: rest ∧
      (q.block q.frontBlock).next = some next := by
  obtain ⟨rest, active⟩ := ring.active_eq
  cases rest with
  | nil =>
    have back := ring.tail
    simp [active] at back
    exact absurd back apart
  | cons next rest =>
    have chain := ring.chain
    rw [Shape.ring, active] at chain
    exact ⟨next, rest, active, (List.isChain_cons_cons.mp chain).1⟩

/-- A block behind the front block tells it from the tail block. -/
theorem apart_of_active (ring : Ring q g) {next : Nat} {rest : List Nat}
    (active : g.active = q.frontBlock :: next :: rest) : q.frontBlock ≠ q.tailBlock := by
  intro same
  obtain ⟨before, back⟩ := ring.active_eq_append
  refine ring.notMem_active_tail (same ▸ ?_)
  cases before with
  | nil => simp [back] at active
  | cons a before => simp [back]

/-- A queue that is not empty has a second active block when its front block is empty. -/
theorem frontBlock_ne_tailBlock (ring : Ring q g) (content : g.content ≠ [])
    (empty : (g.view q.frontBlock).content = []) : q.frontBlock ≠ q.tailBlock := by
  obtain ⟨rest, active⟩ := ring.active_eq
  cases rest with
  | nil => simp [Shape.content, active, empty] at content
  | cons next rest => exact ring.apart_of_active active

/-! ## Changes -/

/-- Assignments to members of one block. -/
theorem modify (ring : Ring q g) {a : Nat} {f : Block α → Block α} {v : View α}
    (next : (f (q.block a)).next = (q.block a).next)
    (mask : (f (q.block a)).sizeMask = (q.block a).sizeMask)
    (holds : a ∈ g.ring → (f (q.block a)).Holds v)
    (filled : a ∈ g.active.tail → v.content ≠ [] ∧
      (a = q.tailBlock ∨ v.content.length = (q.block a).sizeMask)) :
    Ring (q.modify a f) (g.update a v) where
  distinct := ring.distinct
  front := ring.front
  tail := ring.tail
  chain := by
    have same : ∀ b, ((q.modify a f).block b).next = (q.block b).next := by
      intro b
      by_cases here : b = a
      · rw [here, ReaderWriterQueue.modify_block_self, next]
      · rw [ReaderWriterQueue.modify_block_of_ne q here]
    simpa only [same, Shape.update_ring, ReaderWriterQueue.modify_frontBlock] using ring.chain
  holds b member := by
    by_cases here : b = a
    · subst here
      simpa using holds member
    · simpa [here] using ring.holds b member
  made := ring.made
  filled b member := by
    by_cases here : b = a
    · subst here
      simpa [mask] using filled member
    · simpa [here] using ring.filled b member
  largest := ring.largest

/-- The first spare block has been written to and becomes the tail block. -/
theorem advanceTail (ring : Ring q g) {next : Nat} {rest : List Nat}
    (spare : g.spare = next :: rest) (written : (g.view next).content ≠ [])
    (stuffed : q.tailBlock = q.frontBlock ∨
      (g.view q.tailBlock).content.length = (q.block q.tailBlock).sizeMask) :
    Ring { q with tailBlock := next } { g with active := g.active ++ [next], spare := rest } where
  distinct := by simpa [Shape.ring, spare] using ring.distinct
  front := by
    obtain ⟨blocks, active⟩ := ring.active_eq
    simp [active]
  tail := by simp
  chain := by simpa [Shape.ring, spare] using ring.chain
  holds a member := ring.holds a (by simpa [Shape.ring, spare] using member)
  made a member := ring.made a (by simpa [Shape.ring, spare] using member)
  filled a member := by
    obtain ⟨blocks, active⟩ := ring.active_eq
    simp only [active, List.cons_append, List.tail_cons, List.mem_append, List.mem_singleton]
      at member
    rcases member with old | rfl
    · have here : a ∈ g.active.tail := by simp [active, old]
      obtain ⟨some, last | full⟩ := ring.filled a here
      · refine ⟨some, .inr ?_⟩
        rcases stuffed with front | full
        · exact absurd (last.trans front ▸ here) ring.notMem_active_tail
        · exact last ▸ full
      · exact ⟨some, .inr full⟩
    · exact ⟨written, .inl rfl⟩
  largest := ring.largest

/-- A new block is made outside the ring. -/
theorem allocate (ring : Ring q g) (new : Block α) (v : View α) {size k : Nat}
    (small : k < 63) (power : size = 2 ^ (k + 1)) :
    Ring { q with
        largestBlockSize := size
        allocated := q.allocated + 1
        block := Function.update q.block q.allocated new } (g.update q.allocated v) := by
  have older : ∀ a ∈ g.ring, a ≠ q.allocated := fun a member => (ring.made a member).ne
  refine { ring with
    chain := ?_, holds := ?_, made := ?_, filled := ?_, largest := ⟨k, small, power⟩ }
  · refine isChain_imp ring.chain fun a member b linked => ?_
    rw [List.dropLast_concat] at member
    simpa [older a member] using linked
  · intro a member
    simpa [older a member] using ring.holds a member
  · intro a member
    exact (ring.made a member).trans (Nat.lt_succ_self _)
  · intro a member
    have inside : a ∈ g.ring := List.mem_append_left _ (List.mem_of_mem_tail member)
    simpa [older a inside] using ring.filled a member

/-- The new block is inserted behind the tail block. -/
theorem link (ring : Ring q g) {new : Nat} (outside : new ∉ g.ring) (made : new < q.allocated)
    (holds : (q.block new).Holds (g.view new))
    (next : (q.block new).next = (q.block q.tailBlock).next) :
    Ring (q.modify q.tailBlock fun b => { b with next := some new })
      { g with spare := new :: g.spare } := by
  obtain ⟨before, active⟩ := ring.active_eq_append
  have differ : new ≠ q.tailBlock := fun same => outside (same ▸ ring.tailBlock_mem)
  have inserted : (g.active ++ new :: g.spare).Perm (new :: g.ring) := List.perm_middle
  have blocks : ∀ a, ((q.modify q.tailBlock fun b => { b with next := some new }).block a).sizeMask
      = (q.block a).sizeMask := by
    intro a
    by_cases here : a = q.tailBlock <;> simp [here]
  have others : ∀ a, a ≠ q.tailBlock → ∀ b, (q.block a).next = some b →
      ((q.modify q.tailBlock fun b => { b with next := some new }).block a).next = some b := by
    intro a other b linked
    simpa [other] using linked
  refine { ring with distinct := ?_, chain := ?_, holds := ?_, made := ?_, filled := ?_ }
  · exact inserted.nodup_iff.mpr (List.nodup_cons.mpr ⟨outside, ring.distinct⟩)
  · have chain := ring.chain
    have distinct := ring.distinct
    rw [Shape.ring, active, List.append_assoc, List.append_assoc, List.singleton_append] at chain
    rw [Shape.ring, active, List.append_assoc] at distinct
    have upTo := (List.isChain_split.mp chain).1
    have behind := List.isChain_cons.mp (List.isChain_split.mp chain).2
    have fromNew : (new :: (g.spare ++ [q.frontBlock])).IsChain
        fun a b => (q.block a).next = some b :=
      List.isChain_cons.mpr ⟨fun b head => next.trans (behind.1 b head), behind.2⟩
    have shape : { g with spare := new :: g.spare }.ring ++ [q.frontBlock] =
        before ++ q.tailBlock :: new :: (g.spare ++ [q.frontBlock]) := by
      simp [Shape.ring, active]
    rw [ReaderWriterQueue.modify_frontBlock, shape, List.isChain_append_cons_cons]
    refine ⟨isChain_imp upTo fun a member => others a ?_, by simp,
      isChain_imp fromNew fun a member => others a ?_⟩
    · rw [List.dropLast_concat] at member
      exact fun same => (List.nodup_append.mp distinct).2.2 a member q.tailBlock (by simp) same
    · rw [← List.cons_append, List.dropLast_concat] at member
      rcases List.mem_cons.mp member with rfl | spare
      · exact differ
      · exact fun same => ring.spare_disjoint (by simp [active]) (same ▸ spare)
  · intro a member
    have held : (q.block a).Holds (g.view a) := by
      rcases List.mem_cons.mp (inserted.mem_iff.mp member) with rfl | old
      · exact holds
      · exact ring.holds a old
    by_cases here : a = q.tailBlock
    · subst here
      simpa using held.next (some new)
    · simpa [here] using held
  · intro a member
    rcases List.mem_cons.mp (inserted.mem_iff.mp member) with rfl | old
    · exact made
    · exact ring.made a old
  · intro a member
    rw [blocks]
    exact ring.filled a member

/-- The consumer leaves the front block to the producer. -/
theorem advanceFront (ring : Ring q g) {front next : Nat} {rest : List Nat}
    (active : g.active = front :: next :: rest) :
    Ring { q with frontBlock := next }
      { g with active := next :: rest, spare := g.spare ++ [front] } := by
  have head : front = q.frontBlock := by
    have := ring.front
    simpa [active] using this
  have rotated : ((next :: rest) ++ (g.spare ++ [front])).Perm g.ring := by
    simp only [Shape.ring, active]
    grind
  refine { ring with
    distinct := ?_, front := rfl, tail := ?_, chain := ?_, holds := ?_, made := ?_, filled := ?_ }
  · exact rotated.nodup_iff.mpr ring.distinct
  · have := ring.tail
    rw [active] at this
    simpa using this
  · have chain := ring.chain
    rw [Shape.ring, active, ← head] at chain
    have first := (List.isChain_cons_cons.mp chain).1
    have others := (List.isChain_cons_cons.mp chain).2
    have closed : ((next :: rest) ++ g.spare ++ [front] ++ [next]).IsChain
        fun a b => (q.block a).next = some b := by
      refine List.isChain_append.mpr ⟨by simpa using others, by simp, ?_⟩
      intro x last y head
      rw [List.getLast?_concat] at last
      cases last
      cases head
      exact first
    simpa [Shape.ring] using closed
  · exact fun a member => ring.holds a (rotated.mem_iff.mp member)
  · exact fun a member => ring.made a (rotated.mem_iff.mp member)
  · intro a member
    exact ring.filled a (by rw [active]; exact List.mem_cons_of_mem _ member)

end Ring

end LibcameraStreamer.Moodycamel
