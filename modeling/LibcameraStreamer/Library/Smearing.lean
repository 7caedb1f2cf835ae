import Mathlib.Data.Nat.Bitwise
import Mathlib.Data.Nat.Size
import Mathlib.Tactic

/-!
# Bit smearing

Or-ing a number with itself shifted right copies its highest bit into all the places below it.
Each shift doubles the width over which the bits have been copied.
-/
namespace LibcameraStreamer.Library

/-- Each bit of `y` says whether one of the `width` bits of `x` from there on is set. -/
def Smeared (width x y : ℕ) : Prop :=
  ∀ i, y.testBit i = true ↔ ∃ j < width, x.testBit (i + j) = true

variable {width x y : ℕ}

theorem Smeared.refl (x : ℕ) : Smeared 1 x x := by
  intro i
  simp

theorem Smeared.double (h : Smeared width x y) : Smeared (2 * width) x (y ||| (y >>> width)) := by
  intro i
  rw [Nat.testBit_or, Nat.testBit_shiftRight, Bool.or_eq_true, h i, h (width + i)]
  constructor
  · rintro (⟨j, near, set⟩ | ⟨j, near, set⟩)
    · exact ⟨j, by omega, set⟩
    · exact ⟨width + j, by omega, by rwa [show i + (width + j) = width + i + j by omega]⟩
  · rintro ⟨j, near, set⟩
    by_cases low : j < width
    · exact .inl ⟨j, low, set⟩
    · exact .inr ⟨j - width, by omega, by rwa [show width + i + (j - width) = i + j by omega]⟩

/-- The same on a machine word. -/
theorem Smeared.shift {y i : UInt64} (h : Smeared width x y.toNat)
    (shift : i.toNat = width) (small : width < 64) :
    Smeared (2 * width) x (y ||| (y >>> i)).toNat := by
  rw [UInt64.toNat_or, UInt64.toNat_shiftRight, shift, Nat.mod_eq_of_lt small]
  exact h.double

/-- With the bits of a whole word smeared, everything below the highest bit is set. -/
theorem Smeared.eq_size (h : Smeared width x y) (fits : x < 2 ^ width) : y = 2 ^ x.size - 1 := by
  apply Nat.eq_of_testBit_eq
  intro i
  rw [Nat.testBit_two_pow_sub_one, Bool.eq_iff_iff, h i, decide_eq_true_iff]
  constructor
  · rintro ⟨j, _, set⟩
    have := Nat.lt_size.mpr (Nat.ge_two_pow_of_testBit set)
    omega
  · intro below
    have positive : x ≠ 0 := by
      rintro rfl
      simp at below
    obtain ⟨top, set, above⟩ := Nat.exists_most_significant_bit positive
    have lower : 2 ^ (x.size - 1) ≤ x := Nat.lt_size.mp (by omega)
    have bound := Nat.size_le.mpr fits
    have high := Nat.lt_size.mpr (Nat.ge_two_pow_of_testBit set)
    have place : x.size ≤ top + 1 := by
      refine Nat.size_le.mpr (Nat.lt_pow_two_of_testBit x fun k beyond => ?_)
      exact above k (by omega)
    exact ⟨top - i, by omega, by rwa [show i + (top - i) = top by omega]⟩

/-- The size of a number is the exponent of the next power of two. -/
theorem le_two_pow_iff {k : ℕ} (positive : 0 < x) : x ≤ 2 ^ k ↔ (x - 1).size ≤ k := by
  rw [Nat.size_le]
  omega

end LibcameraStreamer.Library
