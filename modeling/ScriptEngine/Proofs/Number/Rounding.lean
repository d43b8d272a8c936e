import Mathlib.Algebra.Order.Field.Power
import Mathlib.Data.Rat.Cast.Order
import Mathlib.Tactic.FieldSimp
import Mathlib.Tactic.Linarith
import Mathlib.Tactic.NormNum
import Mathlib.Tactic.Positivity
import Mathlib.Tactic.Ring
import ScriptEngine.Number.Reader

namespace ScriptEngine.Number

/-!
# Rounding back

Every quotient in the rounding interval of a double is rounded to that double.  The
quotients are looked at as rational numbers; the grid on which a quotient is rounded is
the one of the double itself, except just below a power of two, where it is finer.
-/

variable {numerator denominator significand whole : Nat} {exponent : Int}

namespace Binary64

/-- The exponent and the significand are those of a positive finite double. -/
structure Canonical (significand : Nat) (exponent : Int) : Prop where
  positive : 0 < significand
  fits : significand < 2 ^ 53
  least : -1074 ≤ exponent
  greatest : exponent ≤ 971
  normal : exponent ≠ -1074 → 2 ^ 52 ≤ significand

/-- The bits of a positive finite double. -/
def pattern (significand : Nat) (exponent : Int) : Nat :=
  (exponent + 1074).toNat * 2 ^ 52 + significand

theorem zpow_of_nonneg (base : ℚ) {power : Int} (nonneg : 0 ≤ power) :
    base ^ power = base ^ power.toNat := by
  rw [← zpow_natCast, Int.toNat_of_nonneg nonneg]

theorem zpow_of_neg (base : ℚ) {power : Int} (neg : ¬ 0 ≤ power) :
    base ^ power = (base ^ (-power).toNat)⁻¹ := by
  rw [← zpow_natCast, Int.toNat_of_nonneg (by omega), zpow_neg, inv_inv]

/-- A multiple of a power of two is the quotient of its numerator and its denominator. -/
theorem ratio_eq (significand : Nat) (exponent : Int) :
    0 < (ratio significand exponent).2 ∧
      ((ratio significand exponent).1 : ℚ) / (ratio significand exponent).2 =
        significand * 2 ^ exponent := by
  unfold ratio
  split
  · rename_i nonneg
    rw [zpow_of_nonneg 2 nonneg]
    simp
  · rename_i neg
    rw [zpow_of_neg 2 neg]
    refine ⟨Nat.two_pow_pos _, ?_⟩
    simp [div_eq_mul_inv]

/-- Whether a quotient reaches a power is found out without dividing. -/
theorem reaches_iff
    {numerator denominator base : Nat}
    {power : Int}
    (denominatorPos : 0 < denominator)
    (basePos : 0 < base) :
    (if 0 ≤ power then denominator * Nat.pow base power.toNat ≤ numerator
      else denominator ≤ numerator * Nat.pow base (-power).toNat) ↔
      (base : ℚ) ^ power ≤ numerator / denominator := by
  have denominatorPos' : (0 : ℚ) < denominator := by exact_mod_cast denominatorPos
  rw [le_div_iff₀ denominatorPos']
  split
  · rename_i nonneg
    rw [zpow_of_nonneg _ nonneg, mul_comm]
    exact_mod_cast Iff.rfl
  · rename_i neg
    have powerPos : (0 : ℚ) < (base : ℚ) ^ (-power).toNat := by positivity
    rw [zpow_of_neg _ neg, inv_mul_le_iff₀ powerPos, mul_comm _ (numerator : ℚ)]
    exact_mod_cast Iff.rfl

/-- The power of two at or below a quotient. -/
theorem log2Ratio_bounds
    (numeratorPos : 0 < numerator)
    (denominatorPos : 0 < denominator) :
    (2 : ℚ) ^ log2Ratio numerator denominator ≤ numerator / denominator ∧
      (numerator : ℚ) / denominator < 2 ^ (log2Ratio numerator denominator + 1) := by
  have lowNumerator : (2 : ℚ) ^ (numerator.log2 : Int) ≤ numerator := by
    exact_mod_cast Nat.log2_self_le numeratorPos.ne'
  have highNumerator : (numerator : ℚ) < 2 ^ ((numerator.log2 : Int) + 1) := by
    exact_mod_cast Nat.lt_log2_self
  have lowDenominator : (2 : ℚ) ^ (denominator.log2 : Int) ≤ denominator := by
    exact_mod_cast Nat.log2_self_le denominatorPos.ne'
  have highDenominator : (denominator : ℚ) < 2 ^ ((denominator.log2 : Int) + 1) := by
    exact_mod_cast Nat.lt_log2_self
  have denominatorPos' : (0 : ℚ) < denominator := by exact_mod_cast denominatorPos
  have isReached := @reaches_iff numerator denominator 2
    ((numerator.log2 : Int) - denominator.log2) denominatorPos (by decide)
  -- The quotient lies between the powers one below and one above the guess.
  have above : (2 : ℚ) ^ ((numerator.log2 : Int) - denominator.log2 - 1) ≤
      numerator / denominator := by
    rw [le_div_iff₀ denominatorPos']
    calc (2 : ℚ) ^ ((numerator.log2 : Int) - denominator.log2 - 1) * denominator
        ≤ 2 ^ ((numerator.log2 : Int) - denominator.log2 - 1) *
            2 ^ ((denominator.log2 : Int) + 1) := by gcongr
      _ = 2 ^ (numerator.log2 : Int) := by
          rw [← zpow_add₀ (by norm_num)]
          congr 1
          ring
      _ ≤ numerator := lowNumerator
  have below : (numerator : ℚ) / denominator <
      2 ^ ((numerator.log2 : Int) - denominator.log2 + 1) := by
    rw [div_lt_iff₀ denominatorPos']
    calc (numerator : ℚ) < 2 ^ ((numerator.log2 : Int) + 1) := highNumerator
      _ = 2 ^ ((numerator.log2 : Int) - denominator.log2 + 1) *
            2 ^ (denominator.log2 : Int) := by
          rw [← zpow_add₀ (by norm_num)]
          congr 1
          ring
      _ ≤ 2 ^ ((numerator.log2 : Int) - denominator.log2 + 1) * denominator := by gcongr
  by_cases reached : (2 : ℚ) ^ ((numerator.log2 : Int) - denominator.log2) ≤
      numerator / denominator
  · have isGuess : log2Ratio numerator denominator =
        (numerator.log2 : Int) - denominator.log2 :=
      if_pos (isReached.mpr reached)
    rw [isGuess]
    exact ⟨reached, below⟩
  · have isBelow : log2Ratio numerator denominator =
        (numerator.log2 : Int) - denominator.log2 - 1 :=
      if_neg fun isTrue => reached (isReached.mp isTrue)
    rw [isBelow, sub_add_cancel]
    exact ⟨above, lt_of_not_ge reached⟩

/-- The binary logarithm of a quotient, told by a power of two. -/
theorem log2Ratio_lt_iff
    (numeratorPos : 0 < numerator)
    (denominatorPos : 0 < denominator)
    (power : Int) :
    log2Ratio numerator denominator < power ↔ (numerator : ℚ) / denominator < 2 ^ power := by
  obtain ⟨atLeast, below⟩ := log2Ratio_bounds numeratorPos denominatorPos
  constructor
  · intro less
    refine lt_of_lt_of_le below ?_
    exact zpow_le_zpow_right₀ (by norm_num) less
  · intro less
    exact (zpow_lt_zpow_iff_right₀ (by norm_num)).mp (lt_of_le_of_lt atLeast less)

/-- A quotient within half a unit of a number is rounded to it; an odd number has to be
nearer than that. -/
theorem roundHalfEven_eq
    (denominatorPos : 0 < denominator)
    (low : 2 * (whole * denominator) ≤ 2 * numerator + denominator)
    (high : 2 * numerator ≤ 2 * (whole * denominator) + denominator)
    (nearer : whole % 2 = 1 →
      2 * (whole * denominator) < 2 * numerator + denominator ∧
      2 * numerator < 2 * (whole * denominator) + denominator) :
    roundHalfEven numerator denominator = whole := by
  have parts := Nat.div_add_mod numerator denominator
  have remainder := Nat.mod_lt numerator denominatorPos
  obtain ⟨floor, isFloor⟩ : ∃ floor, numerator / denominator = floor := ⟨_, rfl⟩
  have neighbours : floor = whole ∨ floor + 1 = whole := by
    have notAbove : floor < whole + 1 := by
      by_contra above
      have scaled := Nat.mul_le_mul_left denominator (Nat.le_of_not_lt above)
      rw [Nat.mul_add, Nat.mul_comm denominator whole] at scaled
      rw [isFloor] at parts
      omega
    have notBelow : whole < floor + 2 := by
      by_contra below
      have scaled := Nat.mul_le_mul_left denominator (Nat.le_of_not_lt below)
      rw [Nat.mul_add, Nat.mul_comm denominator whole] at scaled
      rw [isFloor] at parts
      omega
    omega
  unfold roundHalfEven
  simp only [isFloor] at parts ⊢
  rcases neighbours with rfl | rfl
  · rw [Nat.mul_comm denominator] at parts
    split_ifs <;> omega
  · rw [Nat.mul_comm denominator] at parts
    rw [Nat.add_mul] at low high nearer
    split_ifs <;> omega

/-- The same for rational numbers. -/
theorem roundHalfEven_of_near
    (denominatorPos : 0 < denominator)
    (low : (whole : ℚ) - 1 / 2 ≤ numerator / denominator)
    (high : (numerator : ℚ) / denominator ≤ whole + 1 / 2)
    (nearer : whole % 2 = 1 →
      (whole : ℚ) - 1 / 2 < numerator / denominator ∧
      (numerator : ℚ) / denominator < whole + 1 / 2) :
    roundHalfEven numerator denominator = whole := by
  have denominatorPos' : (0 : ℚ) < denominator := by exact_mod_cast denominatorPos
  rw [le_div_iff₀ denominatorPos'] at low
  rw [div_le_iff₀ denominatorPos'] at high
  rw [lt_div_iff₀ denominatorPos', div_lt_iff₀ denominatorPos'] at nearer
  apply roundHalfEven_eq denominatorPos
  · have : (2 * (whole * denominator) : ℚ) ≤ 2 * numerator + denominator := by linarith
    exact_mod_cast this
  · have : (2 * numerator : ℚ) ≤ 2 * (whole * denominator) + denominator := by linarith
    exact_mod_cast this
  · intro isOdd
    obtain ⟨above, below⟩ := nearer isOdd
    constructor
    · have : (2 * (whole * denominator) : ℚ) < 2 * numerator + denominator := by linarith
      exact_mod_cast this
    · have : (2 * numerator : ℚ) < 2 * (whole * denominator) + denominator := by linarith
      exact_mod_cast this

/-- A quotient counted in units of a power of two, and rounded. -/
def roundIn (unit : Int) (numerator denominator : Nat) : Nat :=
  if 0 ≤ unit then roundHalfEven numerator (denominator * 2 ^ unit.toNat)
  else roundHalfEven (numerator * 2 ^ (-unit).toNat) denominator

theorem roundIn_of_near
    {unit : Int}
    (denominatorPos : 0 < denominator)
    (low : ((whole : ℚ) - 1 / 2) * 2 ^ unit ≤ numerator / denominator)
    (high : (numerator : ℚ) / denominator ≤ (whole + 1 / 2) * 2 ^ unit)
    (nearer : whole % 2 = 1 →
      ((whole : ℚ) - 1 / 2) * 2 ^ unit < numerator / denominator ∧
      (numerator : ℚ) / denominator < (whole + 1 / 2) * 2 ^ unit) :
    roundIn unit numerator denominator = whole := by
  have unitPos : (0 : ℚ) < 2 ^ unit := by positivity
  rw [← le_div_iff₀ unitPos] at low
  rw [← div_le_iff₀ unitPos] at high
  rw [← lt_div_iff₀ unitPos, ← div_lt_iff₀ unitPos] at nearer
  unfold roundIn
  split
  · rename_i nonneg
    have scaled : (numerator : ℚ) / denominator / 2 ^ unit =
        numerator / (denominator * 2 ^ unit.toNat : Nat) := by
      rw [zpow_of_nonneg 2 nonneg, div_div]
      push_cast
      rfl
    rw [scaled] at low high nearer
    exact roundHalfEven_of_near (Nat.mul_pos denominatorPos (Nat.two_pow_pos _)) low high nearer
  · rename_i neg
    have scaled : (numerator : ℚ) / denominator / 2 ^ unit =
        (numerator * 2 ^ (-unit).toNat : Nat) / denominator := by
      rw [zpow_of_neg 2 neg, div_inv_eq_mul, div_mul_eq_mul_div]
      push_cast
      rfl
    rw [scaled] at low high nearer
    exact roundHalfEven_of_near denominatorPos low high nearer

theorem ratioBits_eq (numeratorPos : 0 < numerator) :
    ratioBits numerator denominator =
      min (((max (log2Ratio numerator denominator - 52) leastExponent) - leastExponent).toNat *
          2 ^ 52 +
        roundIn (max (log2Ratio numerator denominator - 52) leastExponent) numerator denominator)
        infinityBits :=
  if_neg numeratorPos.ne'

end Binary64

namespace Shortest

/-- A rational number lies in a rounding interval. -/
def Interval.Holds (bounds : Interval) (value : ℚ) : Prop :=
  bounds.low * 2 ^ bounds.exponent ≤ value ∧ value ≤ bounds.high * 2 ^ bounds.exponent ∧
    (bounds.closed = false →
      bounds.low * 2 ^ bounds.exponent < value ∧ value < bounds.high * 2 ^ bounds.exponent)

/-- How far below a double its rounding interval reaches, in units of its last place:
just above a power of two the doubles below are twice as dense. -/
def reachBelow (significand : Nat) (exponent : Int) : ℚ :=
  if significand = 2 ^ 52 ∧ exponent ≠ -1074 then 1 / 4 else 1 / 2

/-- The rounding interval of a double, on its own grid. -/
theorem interval_holds_iff
    {value : ℚ}
    (positive : 0 < significand) :
    (interval significand exponent).Holds value ↔
      (significand - reachBelow significand exponent) * 2 ^ exponent ≤ value ∧
        value ≤ (significand + 1 / 2) * 2 ^ exponent ∧
        (significand % 2 = 1 →
          (significand - reachBelow significand exponent) * 2 ^ exponent < value ∧
          value < (significand + 1 / 2) * 2 ^ exponent) := by
  have quarter : (2 : ℚ) ^ (exponent - 2) = 2 ^ exponent / 4 := by
    rw [zpow_sub₀ (by norm_num)]
    norm_num
  have low : ((interval significand exponent).low : ℚ) * 2 ^ (exponent - 2) =
      (significand - reachBelow significand exponent) * 2 ^ exponent := by
    rw [quarter]
    by_cases isPower : significand = 2 ^ 52 ∧ exponent ≠ -1074
    · have isLow : (interval significand exponent).low = 4 * significand - 1 := if_pos isPower
      rw [isLow, reachBelow, if_pos isPower, Nat.cast_sub (by omega)]
      push_cast
      ring
    · have isLow : (interval significand exponent).low = 4 * significand - 2 := if_neg isPower
      rw [isLow, reachBelow, if_neg isPower, Nat.cast_sub (by omega)]
      push_cast
      ring
  have high : ((interval significand exponent).high : ℚ) * 2 ^ (exponent - 2) =
      (significand + 1 / 2) * 2 ^ exponent := by
    rw [quarter]
    simp only [interval]
    push_cast
    ring
  have closed : (interval significand exponent).closed = false ↔ significand % 2 = 1 := by
    simp [interval]
  have isExponent : (interval significand exponent).exponent = exponent - 2 := rfl
  rw [Interval.Holds, isExponent, low, high, closed]

theorem reachBelow_bounds (significand : Nat) (exponent : Int) :
    1 / 4 ≤ reachBelow significand exponent ∧ reachBelow significand exponent ≤ 1 / 2 := by
  unfold reachBelow
  split <;> norm_num

end Shortest

namespace Binary64

/-- The bits found on a grid whose unit is known. -/
theorem ratioBits_of_unit
    {rounded : Nat}
    {unit : Int}
    (canonical : Canonical significand exponent)
    (numeratorPos : 0 < numerator)
    (isUnit : max (log2Ratio numerator denominator - 52) leastExponent = unit)
    (isRounded : roundIn unit numerator denominator = rounded)
    (same : (unit + 1074).toNat * 2 ^ 52 + rounded = pattern significand exponent) :
    ratioBits numerator denominator = pattern significand exponent := by
  obtain ⟨positive, fits, least, greatest, normal⟩ := canonical
  have offset : unit - leastExponent = unit + 1074 := by
    unfold leastExponent
    omega
  rw [ratioBits_eq numeratorPos, isUnit, isRounded, offset, same]
  apply Nat.min_eq_left
  unfold pattern infinityBits
  rw [Nat.pow_eq]
  omega

theorem two_zpow_add (exponent : Int) (shift : Nat) :
    (2 : ℚ) ^ (exponent + shift) = 2 ^ shift * 2 ^ exponent := by
  rw [zpow_add₀ (by norm_num), zpow_natCast, mul_comm]

/--
Right below a power of two the grid is finer than above it, and a quotient near enough to
the power is rounded up to it.
-/
theorem ratioBits_below_power
    (canonical : Canonical (2 ^ 52) exponent)
    (numeratorPos : 0 < numerator)
    (denominatorPos : 0 < denominator)
    (isNormal : exponent ≠ -1074)
    (low : ((2 : ℚ) ^ 52 - 1 / 4) * 2 ^ exponent ≤ numerator / denominator)
    (isBelow : (numerator : ℚ) / denominator < 2 ^ (exponent + (52 : Nat))) :
    ratioBits numerator denominator = pattern (2 ^ 52) exponent := by
  have least := canonical.least
  have half : (2 : ℚ) ^ (exponent - 1) = 2 ^ exponent / 2 := by
    rw [zpow_sub_one₀ (by norm_num), div_eq_mul_inv]
  have notBelow : ¬log2Ratio numerator denominator < exponent + (51 : Nat) := by
    rw [log2Ratio_lt_iff numeratorPos denominatorPos, not_lt, two_zpow_add]
    refine le_trans ?_ low
    gcongr
    norm_num
  have notAtPower : log2Ratio numerator denominator < exponent + (52 : Nat) :=
    (log2Ratio_lt_iff numeratorPos denominatorPos _).mpr isBelow
  have isUnit : max (log2Ratio numerator denominator - 52) leastExponent = exponent - 1 := by
    unfold leastExponent
    omega
  have isRounded : roundIn (exponent - 1) numerator denominator = 2 ^ 53 := by
    rw [two_zpow_add] at isBelow
    apply roundIn_of_near denominatorPos
    · rw [half]
      push_cast
      linarith
    · rw [half]
      push_cast
      linarith
    · intro isOdd
      cases isOdd
  refine ratioBits_of_unit canonical numeratorPos isUnit isRounded ?_
  unfold pattern
  omega

/-- The unit in which a quotient is rounded is that of a double it is not below. -/
theorem unit_of_near
    (canonical : Canonical significand exponent)
    (numeratorPos : 0 < numerator)
    (denominatorPos : 0 < denominator)
    (notAbove : log2Ratio numerator denominator < exponent + (53 : Nat))
    (low : ((significand : ℚ) - 1 / 2) * 2 ^ exponent ≤ numerator / denominator)
    (reaches : significand = 2 ^ 52 → exponent ≠ -1074 →
      (2 : ℚ) ^ (exponent + (52 : Nat)) ≤ numerator / denominator) :
    max (log2Ratio numerator denominator - 52) leastExponent = exponent := by
  unfold leastExponent
  by_cases isLeast : exponent = -1074
  · omega
  · have least := canonical.least
    have notBelow : ¬log2Ratio numerator denominator < exponent + (52 : Nat) := by
      rw [log2Ratio_lt_iff numeratorPos denominatorPos, not_lt]
      by_cases isPower : significand = 2 ^ 52
      · exact reaches isPower isLeast
      · have beyond : (2 : ℚ) ^ 52 + 1 ≤ significand := by
          have normal := canonical.normal isLeast
          have : 2 ^ 52 + 1 ≤ significand := by omega
          exact_mod_cast this
        rw [two_zpow_add]
        refine le_trans ?_ low
        gcongr
        linarith
    omega

/-- Every quotient in the rounding interval of a double is rounded to it. -/
theorem ratioBits_of_holds
    (canonical : Canonical significand exponent)
    (denominatorPos : 0 < denominator)
    (holds : (Shortest.interval significand exponent).Holds (numerator / denominator)) :
    ratioBits numerator denominator = pattern significand exponent := by
  obtain ⟨low, high, nearer⟩ := (Shortest.interval_holds_iff canonical.positive).mp holds
  obtain ⟨reachLow, reachHigh⟩ := Shortest.reachBelow_bounds significand exponent
  have unitPos : (0 : ℚ) < 2 ^ exponent := by positivity
  have positive : (1 : ℚ) ≤ significand := by exact_mod_cast canonical.positive
  have fits : (significand : ℚ) + 1 ≤ 2 ^ 53 := by exact_mod_cast canonical.fits
  have scaledLow : ((significand : ℚ) - 1 / 2) * 2 ^ exponent ≤ numerator / denominator :=
    le_trans (by gcongr) low
  have numeratorPos : 0 < numerator := by
    have half : (0 : ℚ) < (significand - 1 / 2) * 2 ^ exponent := mul_pos (by linarith) unitPos
    refine Nat.pos_of_ne_zero fun isZero => ?_
    rw [isZero, Nat.cast_zero, zero_div] at scaledLow
    linarith
  have notAbove : log2Ratio numerator denominator < exponent + (53 : Nat) := by
    rw [log2Ratio_lt_iff numeratorPos denominatorPos, two_zpow_add]
    refine lt_of_le_of_lt high (mul_lt_mul_of_pos_right ?_ unitPos)
    linarith
  by_cases isFiner : significand = 2 ^ 52 ∧ exponent ≠ -1074 ∧
      (numerator : ℚ) / denominator < 2 ^ (exponent + (52 : Nat))
  · obtain ⟨rfl, isNormal, isBelow⟩ := isFiner
    have reach : Shortest.reachBelow (2 ^ 52) exponent = 1 / 4 := if_pos ⟨rfl, isNormal⟩
    rw [reach] at low
    push_cast at low
    exact ratioBits_below_power canonical numeratorPos denominatorPos isNormal low isBelow
  · have isUnit : max (log2Ratio numerator denominator - 52) leastExponent = exponent := by
      refine unit_of_near canonical numeratorPos denominatorPos notAbove scaledLow ?_
      intro isPower isNormal
      exact le_of_not_gt fun isBelow => isFiner ⟨isPower, isNormal, isBelow⟩
    refine ratioBits_of_unit canonical numeratorPos isUnit ?_ rfl
    apply roundIn_of_near denominatorPos scaledLow high
    intro isOdd
    obtain ⟨above, under⟩ := nearer isOdd
    refine ⟨lt_of_le_of_lt ?_ above, under⟩
    gcongr

end Binary64

namespace Decimal

/-- The exact value of a decimal. -/
def value (decimal : Decimal) : ℚ := decimal.digits * 10 ^ decimal.power

/-- A decimal is the quotient of its numerator and its denominator. -/
theorem ratio_eq (decimal : Decimal) :
    0 < decimal.ratio.2 ∧
      (decimal.ratio.1 : ℚ) / decimal.ratio.2 = decimal.value := by
  unfold ratio value
  split
  · rename_i nonneg
    rw [Binary64.zpow_of_nonneg 10 nonneg]
    simp
  · rename_i neg
    rw [Binary64.zpow_of_neg 10 neg]
    refine ⟨Nat.pow_pos (by decide), ?_⟩
    simp [div_eq_mul_inv]

theorem pow_two_le_pow_ten {power : Int} (nonneg : 0 ≤ power) :
    (2 : ℚ) ^ (3 * power) ≤ 10 ^ power := by
  rw [zpow_mul]
  apply zpow_le_zpow_left₀ nonneg
  · norm_num
  · norm_num

theorem pow_ten_le_pow_two {power : Int} (nonpos : power ≤ 0) :
    (10 : ℚ) ^ power ≤ 2 ^ (3 * power) := by
  have flipped := pow_two_le_pow_ten (Int.neg_nonneg.mpr nonpos)
  rw [mul_neg, zpow_neg, zpow_neg] at flipped
  exact (inv_le_inv₀ (by positivity) (by positivity)).mp flipped

variable {decimal : Decimal}

section

variable (canonical : Binary64.Canonical significand exponent)
  (holds : (Shortest.interval significand exponent).Holds decimal.value)

include canonical holds

/-- What is in the rounding interval of a double is neither too large nor too small. -/
theorem value_bounds :
    (2 : ℚ) ^ (-1075 : Int) ≤ decimal.value ∧ decimal.value < 2 ^ (1024 : Int) := by
  obtain ⟨positive, fits, least, greatest, -⟩ := canonical
  obtain ⟨low, high, -⟩ := (Shortest.interval_holds_iff positive).mp holds
  obtain ⟨-, reachHigh⟩ := Shortest.reachBelow_bounds significand exponent
  have positive' : (1 : ℚ) ≤ significand := by exact_mod_cast positive
  have fits' : (significand : ℚ) + 1 ≤ 2 ^ 53 := by exact_mod_cast fits
  have smallest : (2 : ℚ) ^ (-1074 : Int) ≤ 2 ^ exponent := zpow_le_zpow_right₀ (by norm_num) least
  constructor
  · calc (2 : ℚ) ^ (-1075 : Int)
        = 2 ^ (-1 : Int) * 2 ^ (-1074 : Int) := by rw [← zpow_add₀ (by norm_num)]; rfl
      _ ≤ (significand - Shortest.reachBelow significand exponent) * 2 ^ exponent := by
          apply mul_le_mul _ smallest (by positivity) (by linarith)
          rw [zpow_neg_one]
          linarith
      _ ≤ decimal.value := low
  · calc decimal.value
        ≤ (significand + 1 / 2) * 2 ^ exponent := high
      _ < 2 ^ 53 * 2 ^ exponent := by
          gcongr
          linarith
      _ ≤ 2 ^ 53 * 2 ^ (971 : Int) := by
          gcongr
          norm_num
      _ = 2 ^ (1024 : Int) := by rw [← zpow_natCast, ← zpow_add₀ (by norm_num)]; rfl

/-- A decimal in the rounding interval of a double is read as this double. -/
theorem bits_of_holds : decimal.bits = Binary64.pattern significand exponent := by
  obtain ⟨atLeast, below⟩ := value_bounds canonical holds
  have nonZero : decimal.digits ≠ 0 := by
    intro isZero
    rw [value, isZero, Nat.cast_zero, zero_mul] at atLeast
    exact absurd atLeast (not_le.mpr (by positivity))
  have monotone {left right : Int} (less : (2 : ℚ) ^ left < 2 ^ right) : left < right :=
    (zpow_lt_zpow_iff_right₀ (by norm_num)).mp less
  have notLarge : ¬ 400 < decimal.power := by
    intro large
    have first : (1 : ℚ) ≤ decimal.digits := by exact_mod_cast Nat.pos_of_ne_zero nonZero
    have : 3 * decimal.power < 1024 := by
      apply monotone
      calc (2 : ℚ) ^ (3 * decimal.power)
          ≤ 10 ^ decimal.power := pow_two_le_pow_ten (by omega)
        _ ≤ decimal.digits * 10 ^ decimal.power := le_mul_of_one_le_left (by positivity) first
        _ < 2 ^ (1024 : Int) := below
    omega
  have notSmall : ¬ Int.ofNat (decimal.digits.log2 / 3) + decimal.power < -800 := by
    intro small
    rw [Int.ofNat_eq_natCast] at small
    have last : (decimal.digits : ℚ) < 2 ^ ((decimal.digits.log2 : Int) + 1) := by
      exact_mod_cast Nat.lt_log2_self
    have : (-1075 : Int) < decimal.digits.log2 + 1 + 3 * decimal.power := by
      apply monotone
      calc (2 : ℚ) ^ (-1075 : Int)
          ≤ decimal.digits * 10 ^ decimal.power := atLeast
        _ ≤ decimal.digits * 2 ^ (3 * decimal.power) := by
            gcongr
            exact pow_ten_le_pow_two (by omega)
        _ < 2 ^ ((decimal.digits.log2 : Int) + 1) * 2 ^ (3 * decimal.power) := by gcongr
        _ = 2 ^ ((decimal.digits.log2 : Int) + 1 + 3 * decimal.power) := by
            rw [← zpow_add₀ (by norm_num)]
    omega
  obtain ⟨denominatorPos, isValue⟩ := decimal.ratio_eq
  rw [← isValue] at holds
  have isBits : decimal.bits = Binary64.ratioBits decimal.ratio.1 decimal.ratio.2 := by
    simp only [bits]
    rw [if_neg nonZero, if_neg notLarge, if_neg notSmall]
  rw [isBits]
  exact Binary64.ratioBits_of_holds canonical denominatorPos holds

end

end Decimal

end ScriptEngine.Number
