import Mathlib.Order.Interval.Finset.Nat
import Mathlib.Tactic

/-!
# Blocks on a line

A block is an offset and a length. Blocks that do not overlap end within their total length
exactly when they leave no gap.
-/
namespace LibcameraStreamer.Library

/-- The points of a block. -/
def block (b : ℕ × ℕ) : Finset ℕ := Finset.Ico b.1 (b.1 + b.2)

def cover (blocks : List (ℕ × ℕ)) : Finset ℕ := blocks.foldr (fun b u => block b ∪ u) ∅

@[simp] theorem card_block (b : ℕ × ℕ) : (block b).card = b.2 := by simp [block]

theorem mem_cover {blocks : List (ℕ × ℕ)} {x : ℕ} :
    x ∈ cover blocks ↔ ∃ b ∈ blocks, b.1 ≤ x ∧ x < b.1 + b.2 := by
  induction blocks with
  | nil => simp [cover]
  | cons b blocks ih =>
    have unfolded : cover (b :: blocks) = block b ∪ cover blocks := rfl
    rw [unfolded, Finset.mem_union, ih, block, Finset.mem_Ico, List.exists_mem_cons_iff]

theorem card_cover_le (blocks : List (ℕ × ℕ)) :
    (cover blocks).card ≤ (blocks.map Prod.snd).sum := by
  induction blocks with
  | nil => simp [cover]
  | cons b blocks ih =>
    calc (cover (b :: blocks)).card
      _ ≤ (block b).card + (cover blocks).card := Finset.card_union_le _ _
      _ ≤ b.2 + (blocks.map Prod.snd).sum := by rw [card_block]; omega
      _ = ((b :: blocks).map Prod.snd).sum := by simp

theorem card_cover {blocks : List (ℕ × ℕ)}
    (apart : blocks.Pairwise fun b c => Disjoint (block b) (block c)) :
    (cover blocks).card = (blocks.map Prod.snd).sum := by
  induction blocks with
  | nil => simp [cover]
  | cons b blocks ih =>
    obtain ⟨first, rest⟩ := List.pairwise_cons.mp apart
    have outside : Disjoint (block b) (cover blocks) := by
      rw [Finset.disjoint_left]
      intro x inside covered
      obtain ⟨c, member, bounds⟩ := mem_cover.mp covered
      exact Finset.disjoint_left.mp (first c member) inside (by simpa [block] using bounds)
    calc (cover (b :: blocks)).card
      _ = (block b).card + (cover blocks).card := Finset.card_union_of_disjoint outside
      _ = ((b :: blocks).map Prod.snd).sum := by simp [ih rest]

/-- Blocks apart from each other end within their total length if and only if every point before
the end of a block is in a block. -/
theorem ends_le_sum_iff {blocks : List (ℕ × ℕ)}
    (apart : blocks.Pairwise fun b c => Disjoint (block b) (block c)) :
    (∀ b ∈ blocks, b.1 + b.2 ≤ (blocks.map Prod.snd).sum) ↔
      ∀ b ∈ blocks, ∀ x < b.1 + b.2, x ∈ cover blocks := by
  constructor
  · intro ends b member x before
    have inside : cover blocks ⊆ Finset.range (blocks.map Prod.snd).sum := by
      intro y covered
      obtain ⟨c, held, -, bound⟩ := mem_cover.mp covered
      exact Finset.mem_range.mpr (bound.trans_le (ends c held))
    have full : cover blocks = Finset.range (blocks.map Prod.snd).sum :=
      Finset.eq_of_subset_of_card_le inside (by rw [Finset.card_range, card_cover apart])
    rw [full]
    exact Finset.mem_range.mpr (before.trans_le (ends b member))
  · intro gapless b member
    have inside : Finset.range (b.1 + b.2) ⊆ cover blocks := fun x before =>
      gapless b member x (Finset.mem_range.mp before)
    calc b.1 + b.2
      _ = (Finset.range (b.1 + b.2)).card := (Finset.card_range _).symm
      _ ≤ (cover blocks).card := Finset.card_le_card inside
      _ ≤ (blocks.map Prod.snd).sum := card_cover_le blocks

end LibcameraStreamer.Library
