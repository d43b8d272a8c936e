import ScriptEngine.Proofs.Number.RoundTrip

namespace ScriptEngine.Number

open Float.Model
open Float.Model.UnpackedFloat (Sign Accuracy ExtendedMantissa decreaseExponent roundWithAccuracy
  shiftToExponent shiftToTargetExponent)

/-!
# Arithmetic of whole numbers among the doubles

Up to 2^53 a whole number is a double of its own: a multiple of a power of two that takes 53 bits.
A sum or a product of doubles is found exactly and then cut to 53 bits.  If it is such a whole
number, the bits that are cut are all zero, so it is found as it is.
-/

variable {count significand mantissa : Nat} {exponent power : Int}

/-! ## Multiples of powers of two -/

/-- A whole number as a multiple of a power of two that takes 53 bits. -/
structure IsScaled (count significand : Nat) (exponent : Int) : Prop where
  low : 2 ^ 52 ≤ significand
  high : significand < 2 ^ 53
  least : -1074 ≤ exponent
  value : (significand : ℚ) * 2 ^ exponent = count

/-- A whole number with more bits has as many more of them as its exponent is lower. -/
theorem IsScaled.shift
    (scaled : IsScaled count significand exponent)
    (large : 2 ^ 52 ≤ mantissa)
    (same : (mantissa : ℚ) * 2 ^ power = count) :
    power ≤ exponent ∧ mantissa = significand * 2 ^ (exponent - power).toNat := by
  have shifted {left right : Nat} {lower upper : Int} (le : lower ≤ upper)
      (equal : (left : ℚ) * 2 ^ lower = right * 2 ^ upper) :
      left = right * 2 ^ (upper - lower).toNat := by
    have isSplit : (2 : ℚ) ^ upper = 2 ^ (upper - lower).toNat * 2 ^ lower := by
      rw [← Binary64.zpow_of_nonneg 2 (by omega), ← zpow_add₀ (by norm_num), sub_add_cancel]
    rw [isSplit, ← mul_assoc] at equal
    exact_mod_cast mul_right_cancel₀ (by positivity) equal
  have equal := same.trans scaled.value.symm
  have notAbove : power ≤ exponent := by
    by_contra above
    -- Else the significand would be at least twice as large as another one of 53 bits.
    have isShifted := shifted (by omega) equal.symm
    obtain ⟨further, isFurther⟩ : ∃ further, (power - exponent).toNat = further + 1 :=
      ⟨(power - exponent).toNat - 1, by omega⟩
    rw [isFurther, Nat.pow_succ] at isShifted
    have atLeast := Nat.le_mul_of_pos_right mantissa (Nat.two_pow_pos further)
    have high := scaled.high
    have twice : significand = 2 * (mantissa * 2 ^ further) := by rw [isShifted]; ac_rfl
    omega
  exact ⟨notAbove, shifted notAbove equal⟩

theorem IsScaled.unique
    (scaled : IsScaled count significand exponent)
    (other : IsScaled count mantissa power) :
    mantissa = significand ∧ power = exponent := by
  obtain ⟨below, -⟩ := scaled.shift other.low other.value
  obtain ⟨above, isSame⟩ := other.shift scaled.low scaled.value
  have same : power = exponent := by omega
  subst same
  exact ⟨by simpa using isSame.symm, rfl⟩

theorem IsScaled.count_pos (scaled : IsScaled count significand exponent) : 0 < count := by
  have low := scaled.low
  have positive : (0 : ℚ) < significand := by exact_mod_cast (by omega : 0 < significand)
  have isPositive : (0 : ℚ) < count := by
    rw [← scaled.value]
    positivity
  exact_mod_cast isPositive

/-! ## Rounding -/

/-- Zeros that are shifted out leave no trace. -/
theorem shiftRight_exact (mantissa shift : Nat) :
    (⟨mantissa * 2 ^ shift, false, false⟩ : ExtendedMantissa) >>> shift =
      ⟨mantissa, false, false⟩ := by
  induction shift generalizing mantissa with
  | zero =>
      rw [Nat.pow_zero, Nat.mul_one]
      rfl
  | succ shift inductionHypothesis =>
      have isOne : (⟨mantissa * 2, false, false⟩ : ExtendedMantissa).shiftRightOne =
          ⟨mantissa, false, false⟩ := by
        simp [ExtendedMantissa.shiftRightOne]
      rw [Nat.pow_succ', ← Nat.mul_assoc]
      exact (congrArg ExtendedMantissa.shiftRightOne (inductionHypothesis (mantissa * 2))).trans
        isOne

section

variable (scaled : IsScaled count significand exponent) (large : 2 ^ 52 ≤ mantissa)
  (same : (mantissa : ℚ) * 2 ^ power = count)

include scaled large same

theorem targetExponent_eq :
    Format.binary64.targetExponent (totalExponent mantissa power) = exponent := by
  obtain ⟨notAbove, isShifted⟩ := scaled.shift large same
  have low := scaled.low
  have high := scaled.high
  have least := scaled.least
  have isLog : mantissa.log2 = 52 + (exponent - power).toNat := by
    rw [Nat.log2_eq_iff (by omega), isShifted]
    constructor
    · rw [Nat.pow_add]
      exact Nat.mul_le_mul_right _ low
    · rw [Nat.add_right_comm, Nat.pow_add]
      exact Nat.mul_lt_mul_of_pos_right high (Nat.two_pow_pos _)
  have isMinimum : Format.binary64.minExponent = -1074 := rfl
  have isBits : Format.binary64.mantissaBits = 53 := rfl
  unfold Format.targetExponent totalExponent
  rw [isLog, isMinimum, isBits]
  omega

theorem shiftToTargetExponent_eq : shiftToTargetExponent .binary64 mantissa power .exact =
      (⟨significand, false, false⟩, exponent) := by
  obtain ⟨notAbove, isShifted⟩ := scaled.shift large same
  have isExact := shiftRight_exact significand (exponent - power).toNat
  rw [← isShifted] at isExact
  unfold shiftToTargetExponent shiftToExponent
  rw [targetExponent_eq scaled large same]
  exact Prod.ext isExact (by dsimp only; omega)

/-- What needs no rounding is not changed by it. -/
theorem roundWithAccuracy_eq (sign : Sign) :
    ∃ positive, roundWithAccuracy .binary64 sign mantissa power .exact =
      .finite sign significand exponent positive := by
  have low := scaled.low
  have first := shiftToTargetExponent_eq scaled large same
  have second : shiftToTargetExponent .binary64
      (⟨significand, false, false⟩ : ExtendedMantissa).roundedMantissa exponent .exact = _ :=
    shiftToTargetExponent_eq scaled low scaled.value
  have nonZero : ¬significand = 0 := by omega
  refine ⟨by omega, ?_⟩
  unfold roundWithAccuracy
  rw [first]
  dsimp only
  rw [second]
  exact dif_neg nonZero

/-- A sum of significands with one exponent is rounded, or is zero. -/
theorem normalize_eq : ∃ positive, UnpackedFloat.normalize .binary64 mantissa power .positive =
      .finite .positive significand exponent positive := by
  have notAbove := (scaled.shift large same).1
  have noShift : (power - exponent).toNat = 0 := by omega
  have isPositive : compare (mantissa : Int) 0 = .gt := by
    rw [Int.compare_eq_gt]
    omega
  obtain ⟨positive, isRounded⟩ := roundWithAccuracy_eq scaled large same .positive
  refine ⟨positive, ?_⟩
  unfold UnpackedFloat.normalize
  rw [isPositive]
  dsimp only
  rw [Int.toNat_natCast, UnpackedFloat.round, targetExponent_eq scaled large same,
    decreaseExponent, noShift, Nat.shiftLeft_zero, Int.natCast_zero, Int.sub_zero]
  exact isRounded

end

/-! ## Whole numbers as doubles -/

/-- A double is known by the number that is packed into it. -/
theorem eq_of_pack
    {left right : Float}
    (isPacked : left.toModel = Float.Model.pack right.toModel.unpack) :
    left = right := by
  apply eq_of_toBits_eq
  apply UInt64.toBitVec_inj.mp
  change left.toModel.toBits.toBitVec = right.toModel.toBits.toBitVec
  rw [isPacked, ← pack_unpack right.toModel.valid]
  rfl

/-- A whole number up to 2^53 is a double. -/
theorem unpack_whole (isPositive : 0 < count) (bound : count ≤ 2 ^ 53) :
    ∃ significand exponent positive,
      IsScaled count significand exponent ∧
        (ofNat count).toModel.unpack = .finite .positive significand exponent positive := by
  rcases Nat.lt_or_eq_of_le bound with fits | rfl
  · obtain ⟨small, low, high⟩ := significandOf_bounds isPositive fits
    obtain ⟨positive, isUnpacked⟩ := unpack_ofNat isPositive fits
    refine ⟨_, _, positive, ⟨low, high, by omega, ?_⟩, isUnpacked⟩
    rw [significandOf, Nat.cast_mul, mul_assoc, Nat.cast_pow, Nat.cast_ofNat, ← zpow_natCast,
      ← zpow_add₀ (by norm_num)]
    have isZero : ((52 - count.log2 : Nat) : Int) + (count.log2 - 52) = 0 := by omega
    rw [isZero, zpow_zero, mul_one]
  · exact ⟨2 ^ 52, 1, by decide, ⟨by decide, by decide, by decide, by norm_num⟩, rfl⟩

/-- A significand is moved to a lower exponent without a change of its value. -/
theorem shiftLeft_value (lower : power ≤ exponent) :
    ((significand <<< (exponent - power).toNat : Nat) : ℚ) * 2 ^ power =
      significand * 2 ^ exponent := by
  rw [Nat.shiftLeft_eq, Nat.cast_mul, Nat.cast_pow, Nat.cast_ofNat, mul_assoc,
    ← Binary64.zpow_of_nonneg 2 (by omega), ← zpow_add₀ (by norm_num), sub_add_cancel]

/-- A product of whole numbers up to 2^53 is exact. -/
theorem mul_ofNat
    {left right : Nat}
    (leftBound : left ≤ 2 ^ 53)
    (rightBound : right ≤ 2 ^ 53)
    (bound : left * right ≤ 2 ^ 53) :
    ofNat left * ofNat right = ofNat (left * right) := by
  apply eq_of_pack
  change Float.Model.pack (UnpackedFloat.mul .binary64 (ofNat left).toModel.unpack
    (ofNat right).toModel.unpack) = _
  congr 1
  rcases Nat.eq_zero_or_pos left with rfl | leftPos
  · rw [Nat.zero_mul, unpack_ofNat_zero]
    rcases Nat.eq_zero_or_pos right with rfl | rightPos
    · rfl
    · obtain ⟨_, _, _, -, isRight⟩ := unpack_whole rightPos rightBound
      rw [isRight]
      rfl
  · obtain ⟨leftSignificand, leftExponent, _, isLeft, leftUnpacked⟩ :=
      unpack_whole leftPos leftBound
    rw [leftUnpacked]
    rcases Nat.eq_zero_or_pos right with rfl | rightPos
    · rw [Nat.mul_zero, unpack_ofNat_zero]
      rfl
    · obtain ⟨rightSignificand, rightExponent, _, isRight, rightUnpacked⟩ :=
        unpack_whole rightPos rightBound
      obtain ⟨significand, exponent, _, scaled, isUnpacked⟩ :=
        unpack_whole (Nat.mul_pos leftPos rightPos) bound
      have large : 2 ^ 52 ≤ leftSignificand * rightSignificand :=
        Nat.le_trans isLeft.low (Nat.le_mul_of_pos_right _ (by have := isRight.low; omega))
      have same : ((leftSignificand * rightSignificand : Nat) : ℚ) *
          2 ^ (leftExponent + rightExponent) = (left * right : Nat) := by
        rw [Nat.cast_mul, Nat.cast_mul, zpow_add₀ (by norm_num), mul_mul_mul_comm, isLeft.value,
          isRight.value]
      obtain ⟨_, isRounded⟩ := roundWithAccuracy_eq scaled large same .positive
      rw [rightUnpacked, isUnpacked]
      exact isRounded

/-- A sum of whole numbers up to 2^53 is exact. -/
theorem add_ofNat {left right : Nat} (bound : left + right ≤ 2 ^ 53) :
    ofNat left + ofNat right = ofNat (left + right) := by
  apply eq_of_pack
  change Float.Model.pack (UnpackedFloat.add .binary64 (ofNat left).toModel.unpack
    (ofNat right).toModel.unpack) = _
  congr 1
  rcases Nat.eq_zero_or_pos left with rfl | leftPos
  · rw [Nat.zero_add, unpack_ofNat_zero]
    rcases Nat.eq_zero_or_pos right with rfl | rightPos
    · rfl
    · obtain ⟨_, _, _, -, isRight⟩ := unpack_whole rightPos (by omega)
      rw [isRight]
      rfl
  · obtain ⟨leftSignificand, leftExponent, _, isLeft, leftUnpacked⟩ :=
      unpack_whole leftPos (by omega)
    rw [leftUnpacked]
    rcases Nat.eq_zero_or_pos right with rfl | rightPos
    · rw [Nat.add_zero, unpack_ofNat_zero, leftUnpacked]
      rfl
    · obtain ⟨rightSignificand, rightExponent, _, isRight, rightUnpacked⟩ :=
        unpack_whole rightPos (by omega)
      obtain ⟨significand, exponent, _, scaled, isUnpacked⟩ :=
        unpack_whole (Nat.add_pos_left leftPos right) bound
      have leftSmall : min leftExponent rightExponent ≤ leftExponent := min_le_left _ _
      have rightSmall : min leftExponent rightExponent ≤ rightExponent := min_le_right _ _
      have same : (((leftSignificand <<< (leftExponent - min leftExponent rightExponent).toNat +
          rightSignificand <<< (rightExponent - min leftExponent rightExponent).toNat : Nat)) : ℚ) *
          2 ^ min leftExponent rightExponent = (left + right : Nat) := by
        rw [Nat.cast_add, Nat.cast_add, add_mul, shiftLeft_value leftSmall,
          shiftLeft_value rightSmall, isLeft.value, isRight.value]
      have large : 2 ^ 52 ≤
          leftSignificand <<< (leftExponent - min leftExponent rightExponent).toNat +
            rightSignificand <<< (rightExponent - min leftExponent rightExponent).toNat := by
        rw [Nat.shiftLeft_eq]
        exact Nat.le_trans isLeft.low (Nat.le_trans
          (Nat.le_mul_of_pos_right _ (Nat.two_pow_pos _)) (Nat.le_add_right _ _))
      obtain ⟨_, isRounded⟩ := normalize_eq scaled large same
      rw [rightUnpacked, isUnpacked]
      exact isRounded

theorem sub_self_ofNat (bound : count ≤ 2 ^ 53) : ofNat count - ofNat count = ofNat 0 := by
  apply eq_of_pack
  change Float.Model.pack (UnpackedFloat.sub .binary64 (ofNat count).toModel.unpack
    (ofNat count).toModel.unpack) = _
  congr 1
  rcases Nat.eq_zero_or_pos count with rfl | isPositive
  · rfl
  · obtain ⟨significand, exponent, _, -, isUnpacked⟩ := unpack_whole isPositive bound
    rw [isUnpacked]
    change UnpackedFloat.normalize .binary64 (_ - _) _ .positive = _
    rw [Int.sub_self]
    rfl

/-- The number with the opposite sign, found as a product. -/
theorem negative_mul_ofNat
    {value : Float}
    {positive : 0 < significand}
    (scaled : IsScaled count significand exponent)
    (isPositive : 0 < count)
    (bound : count ≤ 2 ^ 53)
    (isValue : value.toModel.unpack = .finite .negative significand exponent positive) :
    -1.0 * ofNat count = value := by
  apply eq_of_pack
  change Float.Model.pack (UnpackedFloat.mul .binary64 (-1.0 : Float).toModel.unpack
    (ofNat count).toModel.unpack) = _
  obtain ⟨_, _, _, isScaled, isUnpacked⟩ := unpack_whole isPositive bound
  obtain ⟨rfl, rfl⟩ := isScaled.unique scaled
  have isOne : (-1.0 : Float).toModel.unpack = .finite .negative (2 ^ 52) (-52) (by decide) := rfl
  have large : 2 ^ 52 ≤ 2 ^ 52 * significand := Nat.le_mul_of_pos_right _ positive
  have same : ((2 ^ 52 * significand : Nat) : ℚ) * 2 ^ (-52 + exponent) = count := by
    rw [Nat.cast_mul, zpow_add₀ (by norm_num), mul_mul_mul_comm, scaled.value]
    norm_num
  obtain ⟨_, isRounded⟩ := roundWithAccuracy_eq scaled large same .negative
  rw [isOne, isUnpacked, isValue]
  congr 1

end ScriptEngine.Number
