import Mathlib.Data.List.MinMax
import Mathlib.Data.Int.ConditionallyCompleteOrder
import Mathlib.Order.SuccPred.LinearLocallyFinite
import Mathlib.Logic.Function.Iterate
import Mathlib.Algebra.Order.Ring.Int

/-!
# Periodic work made good by polls

A component has a step to do in every period.  Nothing wakes it for that: it is polled, at
any times, and a poll makes the steps of the whole periods that have passed since the
reference time, which it then moves on by just these periods.

What is left over of a period stays with the reference time.  So polls compose
(`poll_poll`), and of a sequence of polls only the latest time counts (`foldl_poll`).
-/

namespace HyperNet.Polling

/-- The whole periods between two times, none if the second is the earlier one. -/
def periods (period last now : Int) : Nat := ((now - last) / period).toNat

variable {W : Type} {f : W → W} {period last now : Int}

/-- A poll at `now`, of a state and the reference time it has been brought up to. -/
def poll (period : Int) (f : W → W) (s : W × Int) (now : Int) : W × Int :=
  (f^[periods period s.2 now] s.1, s.2 + period * periods period s.2 now)

section

variable (hperiod : 0 < period)
include hperiod

theorem periods_mono : Monotone (periods period last) := by
  intro a b hab
  apply Int.toNat_le_toNat
  exact Int.ediv_le_ediv hperiod (Int.sub_le_sub_right hab last)

/-- The reference time never overtakes the polls. -/
theorem add_periods_le (h : last ≤ now) : last + period * periods period last now ≤ now := by
  have hnonneg : 0 ≤ (now - last) / period := Int.ediv_nonneg (Int.sub_nonneg.2 h) hperiod.le
  have hmul := Int.mul_ediv_self_le (x := now - last) hperiod.ne'
  rw [periods, Int.toNat_of_nonneg hnonneg]
  omega

theorem periods_eq_zero (h : now ≤ last) : periods period last now = 0 := by
  apply Int.toNat_of_nonpos
  exact Int.ediv_nonpos_of_nonpos_of_neg (sub_nonpos.2 h) hperiod

/-- A time `n` periods on comes with at least `n` steps. -/
theorem le_periods (n : Nat) (h : last + period * n ≤ now) : n ≤ periods period last now := by
  have hdiv : (n : Int) ≤ (now - last) / period := by
    rw [Int.le_ediv_iff_mul_le hperiod, Int.mul_comm]
    omega
  rw [periods]
  omega

/-- Moving the reference time on by whole periods takes them off what is still to do. -/
theorem periods_add (n : Nat) :
    periods period (last + period * n) now = periods period last now - n := by
  have hshift : (now - (last + period * n)) / period = (now - last) / period - n := by
    rw [← Int.sub_sub, Int.sub_mul_ediv_left _ _ hperiod.ne']
  rw [periods, periods, hshift]
  omega

theorem poll_poll (s : W × Int) (a b : Int) :
    poll period f (poll period f s a) b = poll period f s (max a b) := by
  have hsum : periods period s.2 b - periods period s.2 a + periods period s.2 a =
      periods period s.2 (max a b) := by
    rw [(periods_mono hperiod).map_max]
    omega
  simp only [poll]
  rw [periods_add hperiod, ← hsum, Function.iterate_add_apply, Int.natCast_add, Int.mul_add,
    Int.add_assoc, Int.add_comm (period * _)]

/-- Of a sequence of polls only the latest time counts. -/
theorem foldl_poll (s : W × Int) (times : List Int) (latest : Int)
    (hlatest : times.maximum = latest) :
    times.foldl (poll period f) s = poll period f s latest := by
  induction times generalizing s latest with
  | nil => cases hlatest
  | cons a times ih =>
    rw [List.maximum_cons] at hlatest
    cases hmax : times.maximum with
    | bot =>
      obtain rfl := List.maximum_eq_bot.1 hmax
      obtain rfl : a = latest := by simpa [hmax] using hlatest
      rfl
    | coe b =>
      obtain rfl : max a b = latest := by
        rw [hmax] at hlatest
        exact_mod_cast hlatest
      rw [List.foldl_cons, ih _ b hmax, poll_poll hperiod]

end

end HyperNet.Polling
