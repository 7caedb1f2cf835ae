import LibcameraStreamer.Library.Circular
import LibcameraStreamer.Model.ReaderWriterQueue

/-!
# What a block holds

The indices of a block wrap around, and each thread sees the other's index late. A view of a
block says what they stand for: positions counted from the making of the block, and the
elements between them. Every assignment that the code makes to a block is one small change of
its view.
-/
namespace LibcameraStreamer.Moodycamel
open Library

variable {α : Type*}

structure View (α : Type*) where
  /-- The position that `front` stands for. -/
  head : Nat
  /-- Those of the shadow copies `localFront` and `localTail`. -/
  localHead : Nat
  localEnd : Nat
  /-- 1 while the consumer has moved the first element out and not yet advanced `front`. -/
  taken : Nat
  content : List α
  /-- What the producer has constructed behind the content and not yet published. -/
  extra : List α

/-- A new block, and one that was made for an element. -/
def View.empty : View α where
  head := 0
  localHead := 0
  localEnd := 0
  taken := 0
  content := []
  extra := []

def View.single (x : α) : View α := { View.empty with localEnd := 1, content := [x] }

/-- The position that `tail` stands for. -/
def View.last (v : View α) : Nat := v.head + v.taken + v.content.length

structure Block.Holds (b : Block α) (v : View α) : Prop where
  size : ∃ k, b.sizeMask + 1 = 2 ^ (k + 1)
  front : b.front = v.head % (b.sizeMask + 1)
  tail : b.tail = v.last % (b.sizeMask + 1)
  localFront : b.localFront = v.localHead % (b.sizeMask + 1)
  localTail : b.localTail = v.localEnd % (b.sizeMask + 1)
  behind : v.localHead ≤ v.head
  room : v.last + v.extra.length ≤ v.localHead + b.sizeMask
  seen : v.head + v.taken ≤ v.localEnd
  ahead : v.localEnd ≤ v.last
  slots : Occupied (b.sizeMask + 1) (v.head + v.taken) b.data (v.content ++ v.extra)

namespace Block.Holds

variable {b : Block α} {v : View α}

theorem and_sizeMask (h : b.Holds v) (i : Nat) : i &&& b.sizeMask = i % (b.sizeMask + 1) := by
  obtain ⟨k, size⟩ := h.size
  have mask : b.sizeMask = 2 ^ (k + 1) - 1 := by omega
  rw [size, mask, Nat.and_two_pow_sub_one_eq_mod]

theorem sizeMask_pos (h : b.Holds v) : 0 < b.sizeMask := by
  obtain ⟨k, size⟩ := h.size
  have := Nat.one_le_two_pow (n := k)
  rw [Nat.pow_succ] at size
  omega

/-- There is always a slot to spare. -/
theorem length_le (h : b.Holds v) : v.taken + v.content.length + v.extra.length ≤ b.sizeMask := by
  have := h.room
  have := h.behind
  unfold View.last at *
  omega

theorem next (h : b.Holds v) (next : Option Nat) : ({ b with next := next } : Block α).Holds v where
  __ := h

/-! ## The producer -/

theorem tail_succ (h : b.Holds v) :
    (b.tail + 1) &&& b.sizeMask = (v.last + 1) % (b.sizeMask + 1) := by
  rw [h.and_sizeMask, h.tail, Nat.mod_add_mod]

/-- The block looks full to the producer. -/
theorem full_iff (h : b.Holds v) :
    (b.tail + 1) &&& b.sizeMask = b.localFront ↔ v.last = v.localHead + b.sizeMask := by
  have := h.behind
  have := h.room
  have ordered : v.localHead ≤ v.last := by unfold View.last; omega
  rw [h.tail_succ, h.localFront, mod_succ_eq_iff ordered (by omega)]
  omega

theorem space (h : b.Holds v) (room : (b.tail + 1) &&& b.sizeMask ≠ b.localFront) :
    v.last < v.localHead + b.sizeMask := by
  have differ : v.last ≠ v.localHead + b.sizeMask := fun same => room (h.full_iff.mpr same)
  have bound := h.room
  omega

theorem refreshFront (h : b.Holds v) :
    ({ b with localFront := b.front } : Block α).Holds { v with localHead := v.head } where
  __ := h
  localFront := h.front
  behind := le_rfl
  room := by
    have := h.room
    have := h.behind
    unfold View.last at *
    simp only
    omega

/-- The block is full when the consumer's index says so. -/
theorem full_front_iff (h : b.Holds v) :
    (b.tail + 1) &&& b.sizeMask = b.front ↔ v.last = v.head + b.sizeMask :=
  h.refreshFront.full_iff

theorem space_front (h : b.Holds v) (room : (b.tail + 1) &&& b.sizeMask ≠ b.front) :
    v.last < v.head + b.sizeMask := h.refreshFront.space room

/-- The slot behind the content is free, and the producer constructs an element in it. -/
theorem construct (h : b.Holds v) (none : v.extra = []) (space : v.last < v.localHead + b.sizeMask)
    (x : α) :
    b.data b.tail = .none ∧
      ({ b with data := Function.update b.data b.tail (some x) } : Block α).Holds
        { v with extra := [x] } := by
  have slots := h.slots
  have short := h.length_le
  have behind := h.behind
  rw [none, List.append_nil] at slots
  rw [none, List.length_nil] at short
  unfold View.last at space
  refine ⟨?_, { h with room := ?_, slots := ?_ }⟩
  · rw [h.tail]
    exact slots.slot_end (by omega)
  · unfold View.last
    simp only [List.length_singleton]
    omega
  · rw [h.tail]
    exact slots.push (by omega) x

/-- The producer advances `tail` over what it has constructed. -/
theorem publish (h : b.Holds v) {x : α} (one : v.extra = [x]) :
    ({ b with tail := (b.tail + 1) &&& b.sizeMask } : Block α).Holds
      { v with content := v.content ++ [x], extra := [] } where
  __ := h
  tail := by
    have last : v.last + 1 = View.last { v with content := v.content ++ [x], extra := [] } := by
      simp [View.last, Nat.add_assoc]
    rw [h.tail_succ, last]
  room := by
    have := h.room
    unfold View.last at *
    simp only [one, List.length_append, List.length_singleton, List.length_nil] at *
    omega
  ahead := by
    have := h.ahead
    unfold View.last at *
    simp only [List.length_append]
    omega
  slots := by simpa [one] using h.slots

/-! ## The consumer -/

theorem refreshTail (h : b.Holds v) :
    ({ b with localTail := b.tail } : Block α).Holds { v with localEnd := v.last } where
  __ := h
  localTail := h.tail
  seen := by unfold View.last; simp only; omega
  ahead := le_rfl

theorem empty_iff (h : b.Holds v) (whole : v.taken = 0) : b.front = b.tail ↔ v.content = [] := by
  have short := h.length_le
  constructor
  · intro same
    rw [h.front, h.tail] at same
    have := eq_of_mod_eq (by unfold View.last; omega) (by unfold View.last; omega) same
    unfold View.last at this
    exact List.length_eq_zero_iff.mp (by omega)
  · intro empty
    rw [h.front, h.tail]
    simp [View.last, whole, empty]

/-- An element that the consumer has seen. -/
theorem lt_of_front_ne (h : b.Holds v) (differ : b.front ≠ b.localTail) : v.head < v.localEnd := by
  by_contra none
  have same : v.head = v.localEnd := by
    have := h.seen
    omega
  apply differ
  rw [h.front, h.localTail, same]

theorem content_ne (h : b.Holds v) (whole : v.taken = 0) (seen : v.head < v.localEnd) :
    v.content ≠ [] := by
  intro empty
  have := h.ahead
  simp only [View.last, whole, empty, List.length_nil] at this
  omega

/-- The consumer moves the first element out. -/
theorem take (h : b.Holds v) (whole : v.taken = 0) (seen : v.head < v.localEnd) :
    ∃ x rest, v.content = x :: rest ∧ b.data b.front = some x ∧
      ({ b with data := Function.update b.data b.front none } : Block α).Holds
        { v with taken := 1, content := rest } := by
  obtain ⟨x, rest, content⟩ := List.exists_cons_of_ne_nil (h.content_ne whole seen)
  have slots := h.slots
  have short := h.length_le
  rw [content, whole, Nat.add_zero, List.cons_append] at slots
  simp only [content, List.length_cons] at short
  have last : View.last { v with taken := 1, content := rest } = v.last := by
    simp only [View.last, content, whole, List.length_cons]
    omega
  refine ⟨x, rest, content, ?_,
    { h with tail := ?_, room := ?_, seen := ?_, ahead := ?_, slots := ?_ }⟩
  · rw [h.front]
    exact slots.slot_front (by omega)
  · rw [last]
    exact h.tail
  · rw [last]
    exact h.room
  · exact seen
  · rw [last]
    exact h.ahead
  · rw [h.front]
    exact slots.pop (by simp only [List.length_append]; omega)

/-- The consumer advances `front` over what it has moved out. -/
theorem advance (h : b.Holds v) (one : v.taken = 1) :
    ({ b with front := (b.front + 1) &&& b.sizeMask } : Block α).Holds
      { v with head := v.head + 1, taken := 0 } where
  __ := h
  front := by rw [h.and_sizeMask, h.front, Nat.mod_add_mod]
  tail := by simpa [View.last, one] using h.tail
  behind := by
    have := h.behind
    simp only
    omega
  room := by simpa [View.last, one] using h.room
  seen := by simpa [one] using h.seen
  ahead := by simpa [View.last, one] using h.ahead
  slots := by simpa [one] using h.slots

end Block.Holds

/-- Below 2^64 nothing wraps around. -/
theorem makeBlock_sizeMask {capacity k : Nat} (size : capacity = 2 ^ (k + 1)) (small : k < 63) :
    (makeBlock capacity : Block α).sizeMask = capacity - 1 := by
  have positive := Nat.one_le_two_pow (n := k + 1)
  have fits : 2 ^ (k + 1) < 2 ^ 64 := Nat.pow_lt_pow_right (by decide) (by omega)
  have kept : (UInt64.ofNat capacity).toNat = capacity :=
    UInt64.toNat_ofNat_of_lt' (size ▸ fits)
  simp only [makeBlock, UInt64.toNat_sub, kept, UInt64.toNat_one]
  omega

/-- A new block holds nothing. -/
theorem makeBlock_holds {capacity k : Nat} (size : capacity = 2 ^ (k + 1)) (small : k < 63) :
    (makeBlock capacity : Block α).Holds .empty where
  size := by
    have := Nat.one_le_two_pow (n := k + 1)
    rw [makeBlock_sizeMask size small]
    exact ⟨k, by omega⟩
  front := by simp [makeBlock, View.empty]
  tail := by simp [makeBlock, View.last, View.empty]
  localFront := by simp [makeBlock, View.empty]
  localTail := by simp [makeBlock, View.empty]
  behind := le_rfl
  room := by simp [View.last, View.empty]
  seen := le_rfl
  ahead := by simp [View.last, View.empty]
  slots := Occupied.empty

/-- The block that the producer makes for an element holds it. -/
theorem makeBlock_holds_one {capacity k : Nat} (size : capacity = 2 ^ (k + 1)) (small : k < 63)
    (x : α) (next : Option Nat) :
    ({ (makeBlock capacity : Block α) with
        data := Function.update (fun _ => none) 0 (some x)
        tail := 1
        localTail := 1
        next := next }).Holds (.single x) := by
  have empty := makeBlock_holds (α := α) size small
  have mask := empty.sizeMask_pos
  have constructed := (empty.construct rfl (by simpa [View.last, View.empty] using mask) x).2
  have published := ((constructed.publish (x := x) rfl).refreshTail).next next
  have one : (0 + 1) &&& (makeBlock capacity : Block α).sizeMask = 1 := by
    rw [empty.and_sizeMask (0 + 1), Nat.mod_eq_of_lt (by omega)]
  have data : (makeBlock capacity : Block α).data = fun _ => none := rfl
  have tail : (makeBlock capacity : Block α).tail = 0 := rfl
  simpa [data, tail, one, View.last, View.empty, View.single] using published

end LibcameraStreamer.Moodycamel
