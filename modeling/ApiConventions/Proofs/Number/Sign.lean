import Mathlib.Algebra.Order.Field.Power
import Mathlib.Data.Rat.Cast.Order
import Mathlib.Tactic.Positivity
import ApiConventions.Constraint.Range

/-!
# ApiConventions.Proofs.Number.Sign

The rational number that a bound stands for. A comparison of a bound with zero by its bits is the
comparison of that number with zero, so a range contains zero when its ends say so.
-/

namespace ApiConventions
namespace Number.Binary64

variable (x : Binary64)

/-- The biased exponent. -/
def exponent : Nat := x.bits.toNat / 2 ^ 52 % 2 ^ 11

/-- The bits of the significand after the leading one. -/
def fraction : Nat := x.bits.toNat % 2 ^ 52

/-- The size of a finite number; subnormal numbers have no leading one. -/
def absRat : ℚ :=
  if x.exponent = 0 then x.fraction * 2 ^ (-1074 : ℤ)
  else (2 ^ 52 + x.fraction) * 2 ^ ((x.exponent : ℤ) - 1075)

/-- The value of a finite number. -/
def toRat : ℚ :=
  if x.isNegative then -x.absRat else x.absRat

theorem magnitude_eq_zero_iff : x.magnitude = 0 ↔ x.exponent = 0 ∧ x.fraction = 0 := by
  have low : x.magnitude.toNat = x.bits.toNat % 2 ^ 63 := by
    rw [magnitude, UInt64.toNat_and]
    exact Nat.and_two_pow_sub_one_eq_mod _ 63
  rw [← UInt64.toNat_inj, low, exponent, fraction]
  simp only [UInt64.toNat_zero]
  omega

theorem absRat_nonneg : 0 ≤ x.absRat := by
  rw [absRat]
  split <;> positivity

theorem absRat_eq_zero_iff : x.absRat = 0 ↔ x.magnitude = 0 := by
  rw [magnitude_eq_zero_iff, absRat]
  have scale (e : ℤ) : (2 : ℚ) ^ e ≠ 0 := (zpow_pos (by norm_num) e).ne'
  split
  · rename_i he
    rw [mul_eq_zero_iff_right (scale _), Nat.cast_eq_zero]
    exact ⟨fun hf => ⟨he, hf⟩, fun h => h.2⟩
  · rename_i he
    have positive : (0 : ℚ) < (2 ^ 52 + x.fraction) * 2 ^ ((x.exponent : ℤ) - 1075) := by positivity
    exact ⟨fun h => absurd h positive.ne', fun h => absurd h.1 he⟩

theorem compareZero?_eq (h : x.isFinite = true) : x.compareZero? = some (compare x.toRat 0) := by
  have notNaN : x.isNaN = false := by
    simp only [isFinite, isNaN, decide_eq_true_eq, decide_eq_false_iff_not] at h ⊢
    exact UInt64.not_lt.2 (UInt64.le_of_lt h)
  rw [compareZero?, notNaN, isZero]
  by_cases hz : x.magnitude = 0
  · have zero : x.toRat = 0 := by
      rw [toRat, (absRat_eq_zero_iff x).2 hz, neg_zero, ite_self]
    simp [hz, zero]
  · have positive : 0 < x.absRat :=
      lt_of_le_of_ne x.absRat_nonneg (Ne.symm (mt (absRat_eq_zero_iff x).1 hz))
    rw [toRat]
    cases x.isNegative with
    | true =>
      have below : compare (-x.absRat) 0 = .lt := compare_lt_iff_lt.2 (neg_neg_of_pos positive)
      simp [hz, below]
    | false =>
      have above : compare x.absRat 0 = .gt := compare_gt_iff_gt.2 positive
      simp [hz, above]

end Number.Binary64

theorem Signed.compareZero?_int (n : Int) :
    Signed.compareZero? n = some (compare (n : ℚ) 0) := by
  have same : compare n 0 = compare (n : ℚ) 0 := by
    rcases lt_trichotomy n 0 with h | h | h
    · rw [compare_lt_iff_lt.2 h, compare_lt_iff_lt.2 (Int.cast_lt_zero.2 h)]
    · rw [h, Int.cast_zero]
      rfl
    · rw [compare_gt_iff_gt.2 h, compare_gt_iff_gt.2 (Int.cast_pos.2 h)]
  exact congrArg some same

namespace Range

variable {N : Type} [Signed N] {n : N} {q : ℚ} {exclusive : Bool}

/-- A lower end keeps zero out when it is positive, or when it is zero and excluded. -/
theorem admitsFrom_iff (h : Signed.compareZero? n = some (compare q 0)) :
    admitsFrom n exclusive = true ↔ ¬ (0 < q ∨ q = 0 ∧ exclusive = true) := by
  rw [admitsFrom, isBelowZero, isAtZero, h]
  rcases lt_trichotomy q 0 with hq | rfl | hq
  · simp [compare_lt_iff_lt.2 hq, hq.ne, hq.le]
  · simp
  · simp [compare_gt_iff_gt.2 hq, hq]

theorem admitsUpTo_iff (h : Signed.compareZero? n = some (compare q 0)) :
    admitsUpTo n exclusive = true ↔ ¬ (q < 0 ∨ q = 0 ∧ exclusive = true) := by
  rw [admitsUpTo, isAboveZero, isAtZero, h]
  rcases lt_trichotomy q 0 with hq | rfl | hq
  · simp [compare_lt_iff_lt.2 hq, hq]
  · simp
  · simp [compare_gt_iff_gt.2 hq, hq.ne', hq.le]

end Range
end ApiConventions
