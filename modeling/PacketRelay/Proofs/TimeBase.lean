import PacketRelay.TimeBase
import Mathlib.Algebra.Order.Field.Basic
import Mathlib.Data.Int.ConditionallyCompleteOrder
import Mathlib.Data.Rat.Floor
import Mathlib.Tactic.Common
import Mathlib.Tactic.Positivity

/-!
# Ticks and milliseconds

A number of ticks lasts a fraction of milliseconds. The conversion cuts the fraction off toward zero
and keeps the integer within the words. Both keep the order and do not care for the sign, as long as
the end of the range is not reached; whether the fraction goes up or down with the ticks is told by
the signs of the time base. So the conversion keeps or reverses the order as a whole, also across zero
and where it saturates.

The product that is divided may be far out of range for a word of 64 bits, but it always fits in one of
128.

## Main definitions

* `TimeBase.Fits`: both parts of a time base are words of 32 bits
* `TimeBase.exactMillis`, `towardZero`: the exact number of milliseconds, and a fraction cut off
* `TimeBase.wideMillis?`: the conversion in words of 128 bits, as long as none is out of range

## Main results

* `TimeBase.wideMillis?_eq`: no word of 128 bits is out of range
* `TimeBase.toMillis_eq`: the conversion is the exact number, cut off and clamped
* `TimeBase.toMillis_exact_and_ordered`: these, and the laws that follow from them
-/

namespace PacketRelay

section Words

variable {n : Int}

theorem isWord_iff : isWord n = true ↔ minWord ≤ n ∧ n ≤ maxWord := by
  simp [isWord]

theorem isWord_of_nonneg (lower : 0 ≤ n) (upper : n < 2 ^ 63) : isWord n = true := by
  rw [isWord_iff, minWord, maxWord]
  omega

theorem isWord_clampWord (n : Int) : isWord (clampWord n) = true := by
  rw [isWord_iff, clampWord, minWord, maxWord]
  omega

theorem clampWord_of_isWord (fits : isWord n = true) : clampWord n = n := by
  obtain ⟨lower, upper⟩ := isWord_iff.mp fits
  rw [clampWord, Int.min_eq_right upper, Int.max_eq_right lower]

theorem clampWord_mono : Monotone clampWord :=
  fun _ _ le => max_le_max_left minWord (min_le_min_left maxWord le)

/-- What is not at the end of the range has not been clamped. The range is longer by one below zero, so
that the opposite number is not clamped either. -/
theorem clampWord_neg (lower : minWord < clampWord n) (upper : clampWord n < maxWord) :
    clampWord (-n) = -clampWord n := by
  simp only [clampWord, minWord, maxWord] at *
  omega

end Words

/-- A fraction cut off toward zero. -/
def towardZero (q : ℚ) : ℤ := if 0 ≤ q then ⌊q⌋ else ⌈q⌉

section TowardZero

variable {q : ℚ}

theorem towardZero_of_nonneg (nonneg : 0 ≤ q) : towardZero q = ⌊q⌋ := if_pos nonneg

theorem towardZero_of_neg (neg : q < 0) : towardZero q = ⌈q⌉ := if_neg (not_le.mpr neg)

@[simp] theorem towardZero_neg (q : ℚ) : towardZero (-q) = -towardZero q := by
  rcases lt_trichotomy q 0 with neg | rfl | pos
  · rw [towardZero_of_neg neg, towardZero_of_nonneg (neg_nonneg.mpr neg.le), Int.floor_neg]
  · simp [towardZero]
  · rw [towardZero_of_nonneg pos.le, towardZero_of_neg (neg_lt_zero.mpr pos), Int.ceil_neg]

theorem towardZero_mono : Monotone towardZero := by
  intro q r le
  rcases lt_or_ge r 0 with neg | nonneg
  · rw [towardZero_of_neg neg, towardZero_of_neg (le.trans_lt neg)]
    exact Int.ceil_mono le
  rw [towardZero_of_nonneg nonneg]
  rcases lt_or_ge q 0 with neg | nonneg'
  · rw [towardZero_of_neg neg]
    exact (Int.ceil_nonpos.mpr neg.le).trans (Int.floor_nonneg.mpr nonneg)
  · rw [towardZero_of_nonneg nonneg']
    exact Int.floor_mono le

/-- Dividing integers and cutting off is dividing them toward zero; by zero, both give zero. -/
theorem towardZero_div (a b : ℤ) : towardZero ((a : ℚ) / b) = a.tdiv b := by
  have natural (m n : ℕ) : towardZero ((m : ℚ) / n) = (m : ℤ).tdiv n := by
    rw [towardZero_of_nonneg (by positivity), ← Int.ofNat_tdiv]
    exact Rat.floor_intCast_div_natCast m n
  -- Signs come out of both.
  obtain ⟨m, rfl | rfl⟩ := a.eq_nat_or_neg <;> obtain ⟨n, rfl | rfl⟩ := b.eq_nat_or_neg <;>
    simp only [Int.cast_neg, Int.cast_natCast, neg_div, div_neg, towardZero_neg, Int.neg_tdiv,
      Int.tdiv_neg, natural]

end TowardZero

namespace TimeBase

/-- Both parts of a time base are words of 32 bits. -/
structure Fits (base : TimeBase) : Prop where
  num : -2 ^ 31 ≤ base.num ∧ base.num < 2 ^ 31
  den : -2 ^ 31 ≤ base.den ∧ base.den < 2 ^ 31

/-- The exact number of milliseconds that a number of ticks lasts. -/
def exactMillis (base : TimeBase) (ticks : Int) : ℚ := ticks * 1000 * base.num / base.den

/-- An integer, unless it is out of range for a word of 128 bits. -/
def wide? (n : Int) : Option Int := if -2 ^ 127 ≤ n ∧ n < 2 ^ 127 then some n else none

/-- The milliseconds that a number of ticks lasts, with every number on the way kept in a word of 128
bits, unless one of them is out of range. -/
def wideMillis? (base : TimeBase) (ticks : Int) : Option Int :=
  if base.den = 0 then some 0
  else do
    let scaled ← wide? (ticks * 1000)
    let product ← wide? (scaled * base.num)
    let quotient ← wide? (product.tdiv base.den)
    some (clampWord quotient)

variable {base : TimeBase} {ticks : Int}

section Range

theorem wide?_of_natAbs_lt {n : Int} (short : n.natAbs < 2 ^ 127) : wide? n = some n :=
  if_pos (by omega)

/-- **No number on the way is out of range.** -/
theorem wideMillis?_eq (fits : base.Fits) (word : isWord ticks = true) :
    base.wideMillis? ticks = some (base.toMillis ticks) := by
  have ticks_le : ticks.natAbs ≤ 2 ^ 63 := by
    rw [isWord_iff, minWord, maxWord] at word
    omega
  have num_le : base.num.natAbs ≤ 2 ^ 31 := by
    have := fits.num
    omega
  have scaled : (ticks * 1000).natAbs ≤ 2 ^ 63 * 1000 := by
    rw [Int.natAbs_mul]
    exact Nat.mul_le_mul_right 1000 ticks_le
  have product : (ticks * 1000 * base.num).natAbs ≤ 2 ^ 63 * 1000 * 2 ^ 31 := by
    rw [Int.natAbs_mul]
    exact Nat.mul_le_mul scaled num_le
  have quotient := (Int.natAbs_tdiv_le_natAbs (ticks * 1000 * base.num) base.den).trans product
  unfold wideMillis? toMillis
  split
  · rfl
  · simp only [wide?_of_natAbs_lt (show (ticks * 1000).natAbs < 2 ^ 127 by omega),
      wide?_of_natAbs_lt (show (ticks * 1000 * base.num).natAbs < 2 ^ 127 by omega),
      wide?_of_natAbs_lt (Nat.lt_of_le_of_lt quotient (by decide)), Option.bind_eq_bind,
      Option.bind_some]

end Range

/-- **The conversion is exact**: the exact number of milliseconds, cut off and clamped. -/
theorem toMillis_eq (base : TimeBase) (ticks : Int) :
    base.toMillis ticks = clampWord (towardZero (base.exactMillis ticks)) := by
  have quotient : towardZero (base.exactMillis ticks) =
      (ticks * 1000 * base.num).tdiv base.den := by
    rw [← towardZero_div, exactMillis]
    push_cast
    rfl
  rw [quotient, toMillis]
  split
  · next zero => rw [zero, Int.tdiv_zero, clampWord_of_isWord rfl]
  · rfl

theorem toMillis_zero (base : TimeBase) : base.toMillis 0 = 0 := by
  simp [toMillis_eq, exactMillis, towardZero, clampWord_of_isWord (n := 0) rfl]

theorem isWord_toMillis (base : TimeBase) (ticks : Int) : isWord (base.toMillis ticks) = true := by
  rw [toMillis_eq]
  exact isWord_clampWord _

section Order

/-- The fraction follows the sign of the ticks. -/
@[simp] theorem exactMillis_neg (base : TimeBase) (ticks : Int) :
    base.exactMillis (-ticks) = -base.exactMillis ticks := by
  simp only [exactMillis, Int.cast_neg, neg_mul, neg_div]

/-- The fraction follows the sign of the numerator. -/
@[simp] theorem exactMillis_neg_num (num den ticks : Int) :
    exactMillis ⟨-num, den⟩ ticks = -exactMillis ⟨num, den⟩ ticks := by
  simp only [exactMillis, Int.cast_neg, mul_neg, neg_div]

theorem exactMillis_mono (same : 0 ≤ base.num * base.den) : Monotone base.exactMillis := by
  have tick : 0 ≤ (base.num / base.den : ℚ) := by
    rw [div_nonneg_iff, ← mul_nonneg_iff]
    exact mod_cast same
  intro s t le
  have further : (s : ℚ) * 1000 ≤ t * 1000 := by
    exact mod_cast Int.mul_le_mul_of_nonneg_right le (by decide)
  rw [exactMillis, exactMillis, mul_div_assoc, mul_div_assoc]
  exact mul_le_mul_of_nonneg_right further tick

theorem exactMillis_anti (differ : base.num * base.den ≤ 0) : Antitone base.exactMillis := by
  have opposite : Monotone (exactMillis ⟨-base.num, base.den⟩) :=
    exactMillis_mono (by rwa [neg_mul, Left.nonneg_neg_iff])
  intro s t le
  have := opposite le
  rwa [exactMillis_neg_num, exactMillis_neg_num, neg_le_neg_iff] at this

theorem toMillis_eq_comp (base : TimeBase) :
    base.toMillis = (clampWord ∘ towardZero) ∘ base.exactMillis :=
  funext (toMillis_eq base)

theorem toMillis_mono (same : 0 ≤ base.num * base.den) : Monotone base.toMillis := by
  rw [toMillis_eq_comp]
  exact (clampWord_mono.comp towardZero_mono).comp (exactMillis_mono same)

theorem toMillis_anti (differ : base.num * base.den ≤ 0) : Antitone base.toMillis := by
  rw [toMillis_eq_comp]
  exact (clampWord_mono.comp towardZero_mono).comp_antitone (exactMillis_anti differ)

/-- A conversion that does not saturate follows the sign of the fraction. -/
theorem toMillis_of_neg {base' : TimeBase} {ticks' : Int}
    (opposite : base'.exactMillis ticks' = -base.exactMillis ticks)
    (lower : minWord < base.toMillis ticks) (upper : base.toMillis ticks < maxWord) :
    base'.toMillis ticks' = -base.toMillis ticks := by
  rw [toMillis_eq] at lower upper ⊢
  rw [toMillis_eq, opposite, towardZero_neg, clampWord_neg lower upper]

end Order

/-- **The conversion of ticks is exact, saturates, and keeps the order.** For a time base of words of 32
bits and a word of ticks no number on the way is out of range for a word of 128 bits. The milliseconds
are the exact quotient, cut off toward zero and clamped to the words, and none for a denominator of zero.
They go up with the ticks if the signs of the time base agree or its numerator is zero, and down if they
differ; and unless they are at the end of the range they are opposite for the opposite number of ticks,
and for the opposite numerator. -/
theorem toMillis_exact_and_ordered (base : TimeBase) :
    (base.Fits → ∀ ticks, isWord ticks = true →
      base.wideMillis? ticks = some (base.toMillis ticks)) ∧
    (∀ ticks : Int, base.toMillis ticks =
      max minWord (min maxWord (towardZero (ticks * 1000 * base.num / base.den)))) ∧
    (base.den = 0 → ∀ ticks, base.toMillis ticks = 0) ∧
    (0 ≤ base.num * base.den → Monotone base.toMillis) ∧
    (base.num * base.den ≤ 0 → Antitone base.toMillis) ∧
    ∀ ticks, minWord < base.toMillis ticks → base.toMillis ticks < maxWord →
      base.toMillis (-ticks) = -base.toMillis ticks ∧
      { base with num := -base.num }.toMillis ticks = -base.toMillis ticks := by
  refine ⟨fun fits ticks word => wideMillis?_eq fits word, toMillis_eq base,
    fun zero ticks => if_pos zero, toMillis_mono, toMillis_anti, fun ticks lower upper => ⟨?_, ?_⟩⟩
  · exact toMillis_of_neg (exactMillis_neg base ticks) lower upper
  · exact toMillis_of_neg (exactMillis_neg_num base.num base.den ticks) lower upper

/-- A time base whose signs differ, near the least numerator. The least number of ticks saturates at the
other end of the range; seven ticks are cut off toward zero, and so are seven ticks back. -/
theorem toMillis_of_leastNumerator :
    let base : TimeBase := ⟨-2147483647, 90000⟩
    base.Fits ∧ isWord minWord = true ∧ base.wideMillis? minWord = some maxWord ∧
      base.num * base.den ≤ 0 ∧ base.toMillis 8 ≤ base.toMillis 7 ∧
      base.toMillis 7 = -167026505 ∧ minWord < base.toMillis 7 ∧ base.toMillis 7 < maxWord ∧
      base.toMillis (-7) = 167026505 ∧ toMillis ⟨2147483647, 90000⟩ 7 = 167026505 := by
  intro base
  have fits : base.Fits := ⟨by decide, by decide⟩
  have seven : base.toMillis 7 = -167026505 := by decide
  have lower : minWord < base.toMillis 7 := by decide
  have upper : base.toMillis 7 < maxWord := by decide
  obtain ⟨wide, -, -, -, falls, opposite⟩ := toMillis_exact_and_ordered base
  obtain ⟨back, other⟩ := opposite 7 lower upper
  rw [seven] at back other
  exact ⟨fits, rfl, wide fits minWord rfl, by decide, falls (by decide) (by decide), seven, lower, upper,
    back, other⟩

end TimeBase

end PacketRelay
