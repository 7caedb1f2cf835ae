import LibcameraStreamer.Model.Kernel

/-!
# The time stamp on its way through the driver

`EncodeBuffer` splits a time stamp into the two fields of a `timeval`, whose width is that of
the platform, and `pollReadyToProcessCaptureBuffers` puts it together in `int64_t` arithmetic.
`encodedFramesProcessor` subtracts the result from an unsigned clock reading.
-/
namespace LibcameraStreamer

def IsInt64 (x : Int) : Prop := -2 ^ 63 ≤ x ∧ x < 2 ^ 63

instance (x : Int) : Decidable (IsInt64 x) := inferInstanceAs (Decidable (_ ∧ _))

/-- No operation of `Timeval.toMicros` leaves the range of `int64_t`. -/
def Timeval.InRange (tv : Timeval) : Prop :=
  IsInt64 (tv.tvSec * 1000000) ∧ IsInt64 tv.toMicros

/-- The time stamp comes back from fields of `bits` bits, without an overflow on the way. -/
def RoundTrips (bits : Nat) (timestampUs : Int) : Prop :=
  (Timeval.ofMicros bits timestampUs).toMicros = timestampUs ∧
    (Timeval.ofMicros bits timestampUs).InRange

instance (tv : Timeval) : Decidable tv.InRange := inferInstanceAs (Decidable (_ ∧ _))
instance (bits : Nat) (t : Int) : Decidable (RoundTrips bits t) :=
  inferInstanceAs (Decidable (_ ∧ _))

/-- The time stamp of the item whose frame was stamped with the `uint64_t` reading `now`, which
`EncodeBuffer` takes as an `int64_t`. -/
def itemTimestampUs (bits now : Nat) : Int := (Timeval.ofMicros bits (narrow 64 now)).toMicros

/-- `getTimeUs() - timestamp_us` in `uint64_t`. -/
def delayUs (now : Nat) (timestampUs : Int) : Nat := ((now - timestampUs) % 2 ^ 64).toNat

theorem narrow_bounds (x : Int) : -2 ^ 31 ≤ narrow 32 x ∧ narrow 32 x < 2 ^ 31 := by
  have low := Int.le_bmod (x := x) (m := 2 ^ 32) (by norm_num)
  have high := Int.bmod_lt (x := x) (m := 2 ^ 32) (by norm_num)
  simp only [narrow]
  norm_num at low high ⊢
  omega

theorem tmod_bounds (t : Int) : -1000000 < t.tmod 1000000 ∧ t.tmod 1000000 < 1000000 :=
  ⟨Int.lt_tmod_of_pos t (by norm_num), Int.tmod_lt_of_pos t (by norm_num)⟩

/-- A store into the field keeps the remainder on every platform. -/
theorem narrow_tmod (bits : Nat) (wide : 32 ≤ bits) (t : Int) :
    narrow bits (t.tmod 1000000) = t.tmod 1000000 := by
  obtain ⟨lower, upper⟩ := tmod_bounds t
  have pow : 2 ^ 32 ≤ 2 ^ bits := Nat.pow_le_pow_right (by norm_num) wide
  norm_num at pow
  exact narrow_eq_self (by omega) (by omega)

/-- The time stamp comes back if and only if the quotient fits into its field. -/
theorem toMicros_ofMicros_iff (bits : Nat) (wide : 32 ≤ bits) (t : Int) :
    (Timeval.ofMicros bits t).toMicros = t ↔
      narrow bits (t.tdiv 1000000) = t.tdiv 1000000 := by
  have split := Int.mul_tdiv_add_tmod t 1000000
  simp only [Timeval.ofMicros, Timeval.toMicros, narrow_tmod bits wide]
  omega

theorem Timeval.inRange_of_eq {tv : Timeval} {t : Int} (low : -2 ^ 63 ≤ t) (high : t < 2 ^ 63)
    (same : tv.toMicros = t) (sec : tv.tvSec = t.tdiv 1000000) : tv.InRange := by
  have split := Int.mul_tdiv_add_tmod t 1000000
  obtain ⟨lower, upper⟩ := tmod_bounds t
  refine ⟨?_, same ▸ ⟨low, high⟩⟩
  rw [sec, IsInt64]
  norm_num at low high ⊢
  -- The remainder has the sign of the dividend, so the product is nearer to zero.
  rcases Int.le_total 0 t with positive | negative
  · have sign := Int.tmod_nonneg 1000000 positive
    omega
  · have sign := Int.tmod_nonneg 1000000 (Int.neg_nonneg_of_nonpos negative)
    rw [Int.neg_tmod] at sign
    omega

/-- A wrapped quotient is in the range of the field, so it cannot be one outside. -/
theorem narrow_eq_self_iff (q : Int) : narrow 32 q = q ↔ -2 ^ 31 ≤ q ∧ q < 2 ^ 31 := by
  refine ⟨fun same => same ▸ narrow_bounds q, fun range => ?_⟩
  exact narrow_eq_self (by norm_num; omega) (by norm_num; omega)

theorem delayUs_eq {t0 t1 : Nat} (order : t0 ≤ t1) (high : t1 < 2 ^ 63) :
    delayUs t1 t0 = t1 - t0 := by
  have mod : ((t1 : Int) - t0) % 2 ^ 64 = t1 - t0 :=
    Int.emod_eq_of_lt (by omega) (by norm_num; omega)
  rw [delayUs, mod]
  omega

/-- With 64-bit fields every `int64_t` time stamp comes back without an overflow, with 32-bit
fields those whose quotient fits. The delay of an item whose time stamp comes back does not
wrap. -/
theorem timestamp_round_trip {t : Int} (low : -2 ^ 63 ≤ t) (high : t < 2 ^ 63) :
    RoundTrips 64 t ∧
    (RoundTrips 32 t ↔ -2 ^ 31 ≤ t.tdiv 1000000 ∧ t.tdiv 1000000 < 2 ^ 31) ∧
    ∀ bits t0 t1 : Nat, t0 ≤ t1 → t1 < 2 ^ 63 → RoundTrips bits t0 →
      delayUs t1 (itemTimestampUs bits t0) = t1 - t0 := by
  refine ⟨?_, ?_, fun bits t0 t1 order late trip => ?_⟩
  · have same := Timeval.toMicros_ofMicros t low high
    exact ⟨same, Timeval.inRange_of_eq low high same
      ((toMicros_ofMicros_iff 64 (by norm_num) t).mp same)⟩
  · rw [← narrow_eq_self_iff, ← toMicros_ofMicros_iff 32 le_rfl]
    refine ⟨And.left, fun same => ⟨same, ?_⟩⟩
    exact Timeval.inRange_of_eq low high same ((toMicros_ofMicros_iff 32 le_rfl t).mp same)
  · have signed : narrow 64 t0 = t0 := narrow_eq_self (by norm_num; omega) (by norm_num; omega)
    rw [itemTimestampUs, signed, trip.1, delayUs_eq order late]

/-- The smallest `int64_t` comes back from 64-bit fields and not from 32-bit ones. -/
theorem timestamp_round_trip_of_min :
    RoundTrips 64 (-2 ^ 63) ∧ ¬ RoundTrips 32 (-2 ^ 63) ∧
      delayUs 5000000 (itemTimestampUs 32 3000001) = 1999999 := by
  obtain ⟨wide, narrow, delay⟩ := timestamp_round_trip (t := -2 ^ 63) le_rfl (by norm_num)
  exact ⟨wide, fun short => absurd (narrow.mp short).1 (by decide),
    delay 32 3000001 5000000 (by decide) (by decide) (by decide)⟩

end LibcameraStreamer
