import Mathlib.Tactic

/-!
# Calls into the kernel

`xioctl` with its bounded retry, the answers a thread gets from the outside world in one
step, and the `timeval` in which a timestamp travels through the driver.
-/
namespace LibcameraStreamer

inductive Errno where
  | eintr
  | other (code : Int)
  deriving DecidableEq, Repr

/-- The kernel's reply to one `ioctl` call. -/
inductive Reply where
  | success
  | failure (errno : Errno)
  deriving DecidableEq, Repr

/-- The loop of `xioctl` with `num_tries` retries left. The result is `none` while the
replies are used up and the last call has not returned. -/
def xioctlLoop : Nat → List Reply → Option Int
  | _, [] => none
  | _, .success :: _ => some 0
  | numTries, .failure .eintr :: replies =>
    match numTries with
    | 0 => some (-1)
    | n + 1 => xioctlLoop n replies
  | _, .failure (.other _) :: _ => some (-1)

def xioctl (replies : List Reply) : Option Int := xioctlLoop 10 replies

theorem xioctlLoop_result (n : Nat) (replies : List Reply) (r : Int)
    (h : xioctlLoop n replies = some r) : r = 0 ∨ r = -1 := by
  fun_induction xioctlLoop n replies with
  | case1 => simp at h
  | case2 => left; simpa using h.symm
  | case3 => right; simpa using h.symm
  | case4 _ _ ih => exact ih h
  | case5 => right; simpa using h.symm

/-- `xioctl` returns 0 or -1, so its callers' tests `< 0` and `== 0` cover every result. -/
theorem xioctl_result {replies : List Reply} {r : Int} (h : xioctl replies = some r) :
    r = 0 ∨ r = -1 := xioctlLoop_result _ _ _ h

/-! ## Timestamps -/

/-- The value of `x` after a store into a signed integer of `bits` bits. -/
def narrow (bits : Nat) (x : Int) : Int := x.bmod (2 ^ bits)

theorem narrow_eq_self {bits : Nat} {x : Int} (low : -(2 ^ bits : Nat) ≤ x * 2)
    (high : x * 2 < (2 ^ bits : Nat)) : narrow bits x = x :=
  Int.bmod_eq_of_le_mul_two low high

structure Timeval where
  tvSec : Int
  tvUsec : Int
  deriving DecidableEq, Repr

/-- How `EncodeBuffer` stores a timestamp, with `bits` the width of the two fields.
The division of C++ truncates towards zero. -/
def Timeval.ofMicros (bits : Nat) (timestampUs : Int) : Timeval where
  tvSec := narrow bits (timestampUs.tdiv 1000000)
  tvUsec := narrow bits (timestampUs.tmod 1000000)

/-- How `pollReadyToProcessCaptureBuffers` rebuilds the timestamp. -/
def Timeval.toMicros (tv : Timeval) : Int := tv.tvSec * 1000000 + tv.tvUsec

/-- With 64-bit fields every `int64_t` timestamp comes back unchanged. -/
theorem Timeval.toMicros_ofMicros (t : Int) (low : -2 ^ 63 ≤ t) (high : t < 2 ^ 63) :
    (Timeval.ofMicros 64 t).toMicros = t := by
  have split := Int.mul_tdiv_add_tmod t 1000000
  have upper := Int.tmod_lt_of_pos t (show (0 : Int) < 1000000 by norm_num)
  have lower := Int.lt_tmod_of_pos t (show (0 : Int) < 1000000 by norm_num)
  have hsec : narrow 64 (t.tdiv 1000000) = t.tdiv 1000000 :=
    narrow_eq_self (by norm_num; omega) (by norm_num; omega)
  have husec : narrow 64 (t.tmod 1000000) = t.tmod 1000000 :=
    narrow_eq_self (by norm_num; omega) (by norm_num; omega)
  simp only [Timeval.ofMicros, Timeval.toMicros, hsec, husec]
  omega

end LibcameraStreamer
