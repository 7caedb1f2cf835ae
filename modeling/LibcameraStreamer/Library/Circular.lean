import Mathlib.Data.List.Chain
import Mathlib.Data.Nat.ModEq
import Mathlib.Logic.Function.Basic
import Mathlib.Tactic

/-!
# Circular arrays and lists

Positions are counted from the beginning without end, and a position is stored at its
remainder modulo the size. Positions less than one turn apart have slots of their own.

A circular list is the chain of its elements with the first one again at the end.
-/
namespace LibcameraStreamer.Library

variable {α : Type*} {size start : ℕ} {slots : ℕ → Option α} {content : List α}

theorem eq_of_mod_eq {a b : ℕ} (le : a ≤ b) (near : b < a + size)
    (same : a % size = b % size) : a = b := by
  have zero := Nat.sub_mod_eq_zero_of_mod_eq same.symm
  have apart := Nat.eq_zero_of_dvd_of_lt (Nat.dvd_of_mod_eq_zero zero) (by omega)
  omega

/-- The slots hold `content` from position `start` on, and the rest of the turn is empty. -/
def Occupied (size start : ℕ) (slots : ℕ → Option α) (content : List α) : Prop :=
  ∀ i < size, slots ((start + i) % size) = content[i]?

theorem Occupied.empty : Occupied size start (fun _ => none : ℕ → Option α) [] := by
  intro i bound
  simp

/-- The slot after the last element is empty. -/
theorem Occupied.slot_end (h : Occupied size start slots content) (room : content.length < size) :
    slots ((start + content.length) % size) = none := by
  rw [h _ room]
  simp

theorem Occupied.push (h : Occupied size start slots content) (room : content.length < size)
    (x : α) : Occupied size start
      (Function.update slots ((start + content.length) % size) (some x)) (content ++ [x]) := by
  intro i bound
  by_cases last : i = content.length
  · simp [last]
  · have other : (start + i) % size ≠ (start + content.length) % size := by
      intro same
      rcases Nat.lt_or_gt_of_ne last with before | after
      · have := eq_of_mod_eq (by omega) (by omega) same
        omega
      · have := eq_of_mod_eq (by omega) (by omega) same.symm
        omega
    rw [Function.update_of_ne other, h i bound]
    grind

theorem Occupied.slot_front {x : α} {rest : List α}
    (h : Occupied size start slots (x :: rest)) (positive : 0 < size) :
    slots (start % size) = some x := by
  simpa using h 0 positive

theorem Occupied.pop {x : α} {rest : List α} (h : Occupied size start slots (x :: rest))
    (room : rest.length < size) :
    Occupied size (start + 1) (Function.update slots (start % size) none) rest := by
  intro i bound
  by_cases last : i + 1 = size
  · have turn : (start + 1 + i) % size = start % size := by
      rw [Nat.add_assoc, Nat.add_comm 1 i, last, Nat.add_mod_right]
    rw [turn, Function.update_self, List.getElem?_eq_none (by omega)]
  · have other : (start + 1 + i) % size ≠ start % size := by
      intro same
      have := eq_of_mod_eq (by omega) (by omega) same.symm
      omega
    have moved : start + 1 + i = start + (i + 1) := by omega
    rw [Function.update_of_ne other, moved, h (i + 1) (by omega)]
    simp

/-- Within a turn, the next position falls on `a` again only when the turn is complete. -/
theorem mod_succ_eq_iff {a b : ℕ} (le : a ≤ b) (near : b < a + size) :
    (b + 1) % size = a % size ↔ b + 1 = a + size := by
  constructor
  · intro same
    by_contra apart
    have := eq_of_mod_eq (by omega) (by omega) same.symm
    omega
  · intro turn
    rw [turn, Nat.add_mod_right]

/-- Only what comes before another element of a chain is related to it. -/
theorem isChain_imp {R S : α → α → Prop} {l : List α} (h : l.IsChain R)
    (imp : ∀ a ∈ l.dropLast, ∀ b, R a b → S a b) : l.IsChain S := by
  induction l with
  | nil => exact .nil
  | cons a l ih =>
    cases l with
    | nil => exact .singleton a
    | cons b l =>
      obtain ⟨first, rest⟩ := List.isChain_cons_cons.mp h
      refine List.isChain_cons_cons.mpr ⟨imp a (by simp) b first, ih rest fun x member => ?_⟩
      exact imp x (by rw [List.dropLast_cons_cons]; exact List.mem_cons_of_mem a member)

end LibcameraStreamer.Library
