import LibcameraStreamer.Library.Rounding

/-!
# The frame interval of the camera and of the encoder

Both are computed from one frame rate. `StartCamera` divides in whole microseconds, the
encoder's constructor in `float` and in whole milliseconds.
-/
namespace LibcameraStreamer
open Library

/-- A value stored in a `float`, in the range of its normal numbers. -/
def toFloat (q : ℚ) : ℚ := roundTo 24 q

/-- `v4l2_fract`, in seconds. -/
structure Fract where
  numerator : Nat
  denominator : Nat
  deriving DecidableEq, Repr

def Fract.seconds (t : Fract) : ℚ := t.numerator / t.denominator

/-- `streamParameters.parm.output.timeperframe` for a frame rate that is stored in the `float`
`EncoderOptions::framerate`. The store into the `__u32` truncates. -/
def timePerFrame (framerate : Nat) : Fract where
  numerator := ⌊toFloat (toFloat 1000 / toFloat framerate)⌋.toNat
  denominator := 1000

/-- `frame_time` of `StartCamera`, in microseconds, when it sets the limits. -/
def frameTime (framerate : Nat) : Option Nat :=
  if 0 < framerate then some (1000000 / framerate) else none

/-- The encoder's interval is positive and less than one microsecond from the camera's. -/
def IntervalsAgree (framerate : Nat) : Prop :=
  ∃ us, frameTime framerate = some us ∧ 0 < (timePerFrame framerate).seconds ∧
    |(timePerFrame framerate).seconds - us / 1000000| < 1 / 1000000

/-- The division in `float` truncates to the integer quotient. -/
theorem timePerFrame_numerator {f : Nat} (positive : 0 < f) (exact_float : f < 2 ^ 24) :
    (timePerFrame f).numerator = 1000 / f := by
  have dividend : toFloat 1000 = (1000 : ℕ) := roundTo_natCast (n := 1000) (by norm_num)
  have divisor : toFloat f = f := roundTo_natCast exact_float
  have quotient := floor_roundTo_div (p := 24) (a := 1000) positive (by norm_num)
  rw [timePerFrame, dividend, divisor, toFloat, quotient, Int.toNat_natCast]

/-- Whole milliseconds and whole microseconds agree when nothing is cut off. -/
theorem millis_eq_micros_iff {f : Nat} (positive : 0 < f) :
    (0 < 1000 / f ∧ 1000 * (1000 / f) = 1000000 / f) ↔ f ∣ 1000 := by
  have split := Nat.div_add_mod 1000 f
  have micros : 1000000 / f = 1000 * (1000 / f) + 1000 * (1000 % f) / f := by
    have total : 1000000 = 1000 * (1000 % f) + f * (1000 * (1000 / f)) := by
      calc 1000000 = 1000 * (f * (1000 / f) + 1000 % f) := by rw [split]
        _ = 1000 * (1000 % f) + f * (1000 * (1000 / f)) := by ring
    rw [total, Nat.add_mul_div_left _ _ positive, add_comm]
  rw [Nat.dvd_iff_mod_eq_zero, micros]
  constructor
  · rintro ⟨nonzero, same⟩
    have cut : 1000 * (1000 % f) < f := by
      rw [← Nat.div_eq_zero_iff_lt positive]
      omega
    have small : f ≤ 1000 := (Nat.div_pos_iff.mp nonzero).2
    omega
  · intro divides
    have small : f ≤ 1000 := Nat.le_of_dvd (by norm_num) (Nat.dvd_of_mod_eq_zero divides)
    exact ⟨Nat.div_pos small positive, by simp [divides]⟩

/-- Two whole numbers of microseconds are less than one microsecond apart when they are equal. -/
theorem intervalsAgree_iff {f : Nat} (positive : 0 < f) (exact_float : f < 2 ^ 24) :
    IntervalsAgree f ↔ 0 < 1000 / f ∧ 1000 * (1000 / f) = 1000000 / f := by
  have interval : (timePerFrame f).seconds = (1000 / f : ℕ) / 1000 := by
    rw [Fract.seconds, timePerFrame_numerator positive exact_float]
    rfl
  have distance : ((1000 / f : ℕ) / 1000 - (1000000 / f : ℕ) / 1000000 : ℚ) =
      ((1000 * (1000 / f : ℕ) - (1000000 / f : ℕ) : ℤ) : ℚ) / 1000000 := by
    rw [Int.cast_sub, Int.cast_mul, Int.cast_natCast, Int.cast_natCast]
    ring
  simp only [IntervalsAgree, frameTime, positive, if_true, Option.some.injEq, exists_eq_left',
    interval, distance]
  rw [abs_div, abs_of_pos (show (0 : ℚ) < 1000000 by norm_num),
    div_lt_div_iff_of_pos_right (by norm_num), div_pos_iff_of_pos_right (by norm_num),
    Nat.cast_pos, ← Int.cast_abs, show (1 : ℚ) = ((1 : ℤ) : ℚ) from rfl, Int.cast_lt,
    Int.abs_lt_one_iff]
  omega

/-- The two intervals agree if and only if the frame rate divides 1000. -/
theorem frame_intervals_agree_iff {f : Nat} (low : 1 ≤ f) (high : f ≤ 1000000) :
    IntervalsAgree f ↔ f ∣ 1000 := by
  rw [intervalsAgree_iff low (by omega), millis_eq_micros_iff low]

/-- At the default frame rate the encoder is given 33 milliseconds for 33333 microseconds. -/
theorem frame_intervals_differ : ¬ IntervalsAgree 30 := by
  rw [intervalsAgree_iff (by norm_num) (by norm_num)]
  decide

theorem frame_intervals_agree_at_ten : IntervalsAgree 10 :=
  (frame_intervals_agree_iff (by norm_num) (by norm_num)).mpr (by norm_num)

end LibcameraStreamer
