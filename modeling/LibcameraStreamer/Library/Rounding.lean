import Mathlib.Data.Int.Log
import Mathlib.Data.Rat.Floor
import Mathlib.Tactic

/-!
# Rounding to a number of significant bits

Binary floating point with `p` significant bits and no bound on the exponent: round to nearest,
ties to even. Numbers in the normal range of an IEEE format are rounded so.
-/
namespace LibcameraStreamer.Library

/-- The nearest integer, the even one of two. -/
def roundHalfEven (q : ℚ) : ℤ :=
  if q - ⌊q⌋ < 1 / 2 then ⌊q⌋
  else if 1 / 2 < q - ⌊q⌋ then ⌊q⌋ + 1
  else if 2 ∣ ⌊q⌋ then ⌊q⌋ else ⌊q⌋ + 1

@[simp] theorem roundHalfEven_intCast (n : ℤ) : roundHalfEven n = n := by simp [roundHalfEven]

theorem abs_roundHalfEven_sub_le (q : ℚ) : |roundHalfEven q - q| ≤ 1 / 2 := by
  have low := Int.floor_le q
  have high := Int.lt_floor_add_one q
  unfold roundHalfEven
  split_ifs <;> rw [abs_le] <;> push_cast <;> constructor <;> linarith

/-- The exponent of the last of `p` significant bits. -/
def lastExponent (p : ℕ) (q : ℚ) : ℤ := Int.log 2 |q| + 1 - p

/-- `q` with `p` significant bits. -/
def roundTo (p : ℕ) (q : ℚ) : ℚ :=
  roundHalfEven (q / 2 ^ lastExponent p q) * 2 ^ lastExponent p q

/-- A natural number with at most `p` bits is not changed. -/
theorem roundTo_natCast {p n : ℕ} (small : n < 2 ^ p) : roundTo p n = n := by
  rcases Nat.eq_zero_or_pos n with rfl | positive
  · simp [roundTo, roundHalfEven]
  have log : Int.log 2 |(n : ℚ)| = Nat.log 2 n := by rw [Nat.abs_cast, Int.log_natCast]
  have bits : Nat.log 2 n < p := Nat.log_lt_of_lt_pow positive.ne' small
  obtain ⟨k, hk⟩ : ∃ k : ℕ, lastExponent p n = -k :=
    ⟨p - 1 - Nat.log 2 n, by rw [lastExponent, log]; omega⟩
  have whole : (n : ℚ) / 2 ^ lastExponent p n = ((n * 2 ^ k : ℕ) : ℤ) := by
    rw [hk, zpow_neg, zpow_natCast, div_inv_eq_mul]
    push_cast
    ring
  rw [roundTo, whole, roundHalfEven_intCast, ← whole, div_mul_cancel₀ _ (by positivity)]

/-- The relative error is at most half a unit of the last bit. -/
theorem abs_roundTo_sub_le {p : ℕ} {q : ℚ} (nonzero : q ≠ 0) :
    |roundTo p q - q| ≤ |q| / 2 ^ p := by
  have positive : (0 : ℚ) < 2 ^ lastExponent p q := by positivity
  have scaled : roundTo p q - q =
      (roundHalfEven (q / 2 ^ lastExponent p q) - q / 2 ^ lastExponent p q) *
        2 ^ lastExponent p q := by
    rw [roundTo, sub_mul, div_mul_cancel₀ _ positive.ne']
  have unit : (2 : ℚ) ^ lastExponent p q = 2 * (2 ^ Int.log 2 |q| / 2 ^ p) := by
    rw [lastExponent, zpow_sub₀ two_ne_zero, zpow_add_one₀ two_ne_zero, zpow_natCast]
    ring
  have leading : (2 : ℚ) ^ Int.log 2 |q| ≤ |q| := by
    exact_mod_cast Int.zpow_log_le_self one_lt_two (abs_pos.mpr nonzero)
  calc |roundTo p q - q|
      = |(roundHalfEven (q / 2 ^ lastExponent p q) : ℚ) - q / 2 ^ lastExponent p q| *
          2 ^ lastExponent p q := by rw [scaled, abs_mul, abs_of_pos positive]
    _ ≤ 1 / 2 * 2 ^ lastExponent p q := by gcongr; exact abs_roundHalfEven_sub_le _
    _ = 2 ^ Int.log 2 |q| / 2 ^ p := by rw [unit]; ring
    _ ≤ |q| / 2 ^ p := by gcongr

/-- The integer part of a rounded quotient is the integer quotient, as long as the dividend has
at most `p` bits: a quotient that is no integer is too far from the next one. -/
theorem floor_roundTo_div {p a b : ℕ} (positive : 0 < b) (small : a < 2 ^ p) :
    ⌊roundTo p (a / b)⌋ = (a / b : ℕ) := by
  by_cases whole : b ∣ a
  · have exact_quotient : (a : ℚ) / b = (a / b : ℕ) := (Nat.cast_div_charZero whole).symm
    rw [exact_quotient, roundTo_natCast ((Nat.div_le_self a b).trans_lt small), Int.floor_natCast]
  have nonzero : 0 < a := Nat.pos_of_ne_zero fun h => whole (h ▸ dvd_zero b)
  have hb : (0 : ℚ) < b := by exact_mod_cast positive
  have ha : (0 : ℚ) < a := by exact_mod_cast nonzero
  have error := abs_roundTo_sub_le (p := p) (div_pos ha hb).ne'
  have close : |roundTo p ((a : ℚ) / b) - a / b| < 1 / b := by
    refine error.trans_lt ?_
    rw [abs_of_pos (div_pos ha hb), div_right_comm]
    gcongr
    rw [div_lt_one (by positivity)]
    exact_mod_cast small
  -- The remainder is between 1 and b - 1.
  have split : (b : ℚ) * (a / b : ℕ) + (a % b : ℕ) = a := by exact_mod_cast Nat.div_add_mod a b
  have low : (1 : ℚ) ≤ (a % b : ℕ) := by
    exact_mod_cast Nat.pos_of_ne_zero fun h => whole (Nat.dvd_of_mod_eq_zero h)
  have high : ((a % b : ℕ) : ℚ) + 1 ≤ b := by exact_mod_cast Nat.mod_lt a positive
  have quotient : (a : ℚ) / b = (a / b : ℕ) + (a % b : ℕ) / b := by
    rw [← split]
    field_simp
  have lower : 1 / (b : ℚ) ≤ (a % b : ℕ) / b := by gcongr
  have upper : ((a % b : ℕ) : ℚ) / b + 1 / b ≤ 1 := by
    rw [← add_div, div_le_one hb]
    exact high
  rw [abs_lt] at close
  rw [Int.floor_eq_iff, Int.cast_natCast]
  constructor <;> linarith

end LibcameraStreamer.Library
