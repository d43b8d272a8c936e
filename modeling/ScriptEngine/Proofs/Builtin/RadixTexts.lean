import ScriptEngine.Proofs.Builtin.FixedPlaces
import ScriptEngine.Proofs.Number.WholeArithmetic
import ScriptEngine.Proofs.Session.DecimalReaders

namespace ScriptEngine

/-!
# Whole numbers in other bases

A whole number up to 2^53 is written with its digits in a base, behind a minus sign if it is
negative.  In base ten these are the fewest digits that read back, filled up with zeros; a grid
of whole numbers is always fine enough for them.  The digits are read one after the other in
double arithmetic, which is exact up to the last step, since no value on the way is larger than
the number.  So the number is read as it was written.
-/

namespace Number

open Float.Model.UnpackedFloat (Sign)

variable {radix count : Nat} {digits : List Char}

/-! ## Digits in a base -/

/-- Digits in a base, and the number they stand for. -/
structure IsSpelled (radix count : Nat) (digits : List Char) : Prop where
  nonEmpty : digits ≠ []
  below : ∀ digit ∈ digits, digitValue digit < radix
  value : radixValue radix digits = count

theorem radixValue_concat
    (radix : Nat)
    (front : List Char)
    (last : Char) :
    radixValue radix (front ++ [last]) = radixValue radix front * radix + digitValue last := by
  simp [radixValue]

theorem accumulate_concat
    (radix : Nat)
    (front : List Char)
    (last : Char) :
    accumulate radix (front ++ [last]) =
      accumulate radix front * ofNat radix + ofNat (digitValue last) := by
  simp [accumulate]

/-- Digits are read exactly as long as they stand for a number up to 2^53. -/
theorem accumulate_eq
    (positive : 0 < radix)
    (moderate : radix ≤ 2 ^ 53)
    (bound : radixValue radix digits ≤ 2 ^ 53) :
    accumulate radix digits = ofNat (radixValue radix digits) := by
  induction digits using List.reverseRecOn with
  | nil => rfl
  | append_singleton front last inductionHypothesis =>
      rw [radixValue_concat] at bound ⊢
      have scaledBound : radixValue radix front * radix ≤ 2 ^ 53 := by omega
      have frontBound : radixValue radix front ≤ 2 ^ 53 :=
        Nat.le_trans (Nat.le_mul_of_pos_right _ positive) scaledBound
      rw [accumulate_concat, inductionHypothesis frontBound,
        mul_ofNat frontBound moderate scaledBound, add_ofNat bound]

theorem digitValue_digitChar : ∀ value < 36, digitValue (digitChar value) = value := by
  decide

/-- Repeated division finds the digits of a number. -/
theorem isSpelled_radixDigitsReversed
    (atLeast : 2 ≤ radix)
    (atMost : radix ≤ 36)
    {budget value : Nat}
    (fits : value < 2 ^ (budget + 1)) :
    IsSpelled radix value (radixDigitsReversed radix (budget + 1) value).reverse := by
  have single (digit : Nat) (small : digit < radix) : digitValue (digitChar digit) = digit :=
    digitValue_digitChar digit (Nat.lt_of_lt_of_le small atMost)
  induction budget generalizing value with
  | zero =>
      have small : value < radix := by omega
      rw [radixDigitsReversed, if_pos small]
      exact ⟨nofun, by simp [single value small, small], by simp [radixValue, single value small]⟩
  | succ budget inductionHypothesis =>
      rw [radixDigitsReversed]
      split
      · rename_i small
        exact ⟨nofun, by simp [single value small, small],
          by simp [radixValue, single value small]⟩
      · have isLast : value % radix < radix := Nat.mod_lt _ (by omega)
        have isFront : value / radix < 2 ^ (budget + 1) := by
          rw [Nat.div_lt_iff_lt_mul (by omega)]
          rw [Nat.pow_succ] at fits
          exact Nat.lt_of_lt_of_le fits (Nat.mul_le_mul_left _ atLeast)
        obtain ⟨-, below, isValue⟩ := inductionHypothesis isFront
        rw [List.reverse_cons]
        refine ⟨by simp, List.forall_mem_append.mpr ⟨below, ?_⟩, ?_⟩
        · simp [single _ isLast, isLast]
        · rw [radixValue_concat, isValue, single _ isLast, Nat.mul_comm]
          exact Nat.div_add_mod value radix

theorem isSpelled_radixDigits
    (atLeast : 2 ≤ radix)
    (atMost : radix ≤ 36)
    (value : Nat) :
    IsSpelled radix value (radixDigits radix value) :=
  isSpelled_radixDigitsReversed atLeast atMost Nat.lt_log2_self

/-! ## The fewest digits of a whole number -/

section

variable {significand : Nat} {exponent top : Int}

section

variable (scaled : IsScaled count significand exponent) (fits : count < 2 ^ 53)

include scaled fits

/-- In the rounding interval of a whole number below 2^53 there is no other one. -/
theorem eq_of_holds
    {other : Nat}
    (holds : (Shortest.interval significand exponent).Holds other) :
    other = count := by
  have notAbove : exponent ≤ 0 := by
    by_contra above
    have isLarge : (2 : ℚ) ^ 53 ≤ count := by
      calc (2 : ℚ) ^ 53
        _ = 2 ^ 52 * 2 ^ (1 : Int) := by norm_num
        _ ≤ significand * 2 ^ exponent := by
          gcongr
          · exact_mod_cast scaled.low
          · norm_num
          · omega
        _ = count := scaled.value
    exact absurd fits (Nat.not_lt.mpr (by exact_mod_cast isLarge))
  have unitPos : (0 : ℚ) < 2 ^ exponent := by positivity
  have unitBound : (2 : ℚ) ^ exponent ≤ 1 := zpow_le_one_of_nonpos₀ (by norm_num) notAbove
  obtain ⟨low, high, -⟩ := (Shortest.interval_holds_iff (by have := scaled.low; omega)).mp holds
  have half := mul_le_mul_of_nonneg_right
    (Shortest.reachBelow_bounds significand exponent).2 unitPos.le
  rw [sub_mul, scaled.value] at low
  rw [add_mul, scaled.value] at high
  have above : (count : ℚ) < other + 1 := by linarith
  have below : (other : ℚ) < count + 1 := by linarith
  have above : count < other + 1 := by exact_mod_cast above
  have below : other < count + 1 := by exact_mod_cast below
  omega

/-- A decimal of the interval on a grid of whole numbers is the number itself. -/
theorem value_of_holds
    {decimal : Decimal}
    (nonneg : 0 ≤ decimal.power)
    (holds : (Shortest.interval significand exponent).holds decimal = true) :
    decimal.value = count := by
  have isWhole : decimal.value = (decimal.digits * 10 ^ decimal.power.toNat : Nat) := by
    rw [Decimal.value, Binary64.zpow_of_nonneg 10 nonneg]
    push_cast
    rfl
  have inside := (Shortest.holds_iff _ _).mp holds
  rw [isWhole] at inside ⊢
  rw [eq_of_holds scaled fits inside]

/-- The search for the fewest digits ends on a grid of whole numbers. -/
theorem search_whole
    (canonical : Binary64.Canonical significand exponent)
    (reaches : (10 : ℚ) ^ (top - 1) ≤ significand * 2 ^ exponent)
    (moderate : top ≤ 16)
    {budget tried : Nat}
    (total : budget + tried = 17)
    (remaining : tried ≤ top) :
    0 ≤ (Shortest.search significand exponent top budget tried).power ∧
      (Shortest.search significand exponent top budget tried).value = count := by
  induction budget generalizing tried with
  | zero => omega
  | succ budget inductionHypothesis =>
      obtain ⟨near, far, isNear, isFar, isStep⟩ :=
        Shortest.search_succ significand exponent top budget tried
      have nearNonneg : 0 ≤ near.power := by
        rw [isNear]
        exact Int.sub_nonneg_of_le remaining
      rw [isStep]
      split
      · rename_i holds
        exact ⟨nearNonneg, value_of_holds scaled fits nearNonneg holds⟩
      · rename_i notNear
        split
        · rename_i holds
          have farNonneg : 0 ≤ far.power := by omega
          exact ⟨farNonneg, value_of_holds scaled fits farNonneg holds⟩
        · refine inductionHypothesis (by omega) ?_
          -- On the grid of all whole numbers the number itself is found.
          by_contra isLast
          have isUnit : top - tried = 0 := by omega
          obtain ⟨denominatorPos, isValue⟩ := Binary64.ratio_eq significand exponent
          have isNearest :=
            @Shortest.nearest_near (Binary64.ratio significand exponent).1 _ 0 denominatorPos
          rw [isUnit] at isNear
          rw [isValue, zpow_zero, mul_one, scaled.value] at isNearest
          have same : near.value = count := by
            obtain ⟨low, high⟩ := abs_le.mp isNearest
            generalize Shortest.nearest _ _ 0 = found at isNear low high
            have above : (count : ℚ) < found + 1 := by linarith
            have below : (found : ℚ) < count + 1 := by linarith
            have above : count < found + 1 := by exact_mod_cast above
            have below : found < count + 1 := by exact_mod_cast below
            obtain rfl : found = count := by omega
            rw [isNear, Decimal.value, zpow_zero, mul_one]
          refine notNear ((Shortest.holds_iff _ _).mpr ?_)
          refine Shortest.holds_of_near canonical reaches ?_
          rw [same, scaled.value, sub_self, abs_zero]
          positivity

end

theorem le_power_stripZeros
    (budget : Nat)
    (decimal : Decimal) :
    decimal.power ≤ (Decimal.stripZeros budget decimal).power := by
  induction budget generalizing decimal with
  | zero => exact Int.le_refl _
  | succ budget inductionHypothesis =>
      rw [Decimal.stripZeros]
      split
      · exact Int.le_trans (Int.le_add_one (Int.le_refl _)) (inductionHypothesis _)
      · exact Int.le_refl _

/-- A quotient from one on has digits in front of the point. -/
theorem one_le_magnitude
    {numerator denominator : Nat}
    (numeratorPos : 0 < numerator)
    (denominatorPos : 0 < denominator)
    (atLeast : (1 : ℚ) ≤ numerator / denominator) :
    1 ≤ Shortest.magnitude numerator denominator := by
  have nonneg : ¬Binary64.log2Ratio numerator denominator < 0 := by
    rwa [Binary64.log2Ratio_lt_iff numeratorPos denominatorPos, zpow_zero, not_lt]
  simp only [Shortest.magnitude]
  split
  · omega
  · split
    · omega
    · rename_i notReached
      rw [Shortest.reachesTenPower_iff denominatorPos, not_le] at notReached
      by_contra small
      have isSmall : (10 : ℚ) ^ (Binary64.log2Ratio numerator denominator * 30103 / 100000 + 1 - 1) ≤
          1 := zpow_le_one_of_nonpos₀ (by norm_num) (by omega)
      exact absurd (lt_of_lt_of_le notReached isSmall) (not_lt.mpr atLeast)

/-- The fewest digits of a whole number stand in front of the point. -/
theorem decimal_whole
    (scaled : IsScaled count significand exponent)
    (fits : count < 2 ^ 53)
    (canonical : Binary64.Canonical significand exponent) :
    0 ≤ (Shortest.decimal significand exponent).power ∧
      (Shortest.decimal significand exponent).value = count := by
  obtain ⟨numeratorPos, least, greatest⟩ := Shortest.log2Ratio_of_canonical canonical
  obtain ⟨denominatorPos, isValue⟩ := Binary64.ratio_eq significand exponent
  have reaches := Shortest.pow_magnitude_le numeratorPos denominatorPos least greatest
  have positive : 1 ≤ count := scaled.count_pos
  have isRatio := isValue.trans scaled.value
  have moderate : Shortest.magnitude (Binary64.ratio significand exponent).1
      (Binary64.ratio significand exponent).2 ≤ 16 := by
    by_contra above
    have isLarge : (10 : ℚ) ^ 16 ≤ count := by
      rw [isRatio] at reaches
      refine le_trans ?_ reaches
      rw [← zpow_natCast]
      exact zpow_le_zpow_right₀ (by norm_num) (by omega)
    have isLarge : 10 ^ 16 ≤ count := by exact_mod_cast isLarge
    omega
  have remaining := one_le_magnitude numeratorPos denominatorPos (by
    rw [isRatio]
    exact_mod_cast positive)
  rw [isValue] at reaches
  obtain ⟨nonneg, isWhole⟩ := search_whole scaled fits canonical reaches moderate rfl remaining
  rw [Shortest.decimal, Shortest.stripZeros_value]
  exact ⟨Int.le_trans nonneg (le_power_stripZeros _ _), isWhole⟩

theorem digitValue_of_isDigit
    {digit : Char}
    (isDigit : digit.isDigit = true) :
    digitValue digit = digit.toNat - '0'.toNat ∧ digitValue digit < 10 := by
  have isValue : digitValue digit = digit.toNat - '0'.toNat := if_pos isDigit
  obtain ⟨atLeast, atMost⟩ := (isDigit_iff digit).mp isDigit
  refine ⟨isValue, ?_⟩
  rw [isValue]
  change digit.toNat - 48 < 10
  omega

theorem radixValue_ten (allDigits : ∀ digit ∈ digits, digit.isDigit = true) :
    radixValue 10 digits = digitsValue digits := by
  induction digits using List.reverseRecOn with
  | nil => rfl
  | append_singleton front last inductionHypothesis =>
      obtain ⟨frontDigits, lastDigit⟩ := List.forall_mem_append.mp allDigits
      rw [radixValue_concat, inductionHypothesis frontDigits,
        (digitValue_of_isDigit (lastDigit last (by simp))).1]
      simp [digitsValue]

/-- A whole number is written with its digits, down to the last zero. -/
theorem isSpelled_magnitude
    (scaled : IsScaled count significand exponent)
    (fits : count < 2 ^ 53)
    (canonical : Binary64.Canonical significand exponent) :
    IsSpelled 10 count (Layout.script.magnitude significand exponent) := by
  obtain ⟨nonneg, isWhole⟩ := decimal_whole scaled fits canonical
  obtain ⟨low, -⟩ := digitsText_length_bounds (digits_pos canonical)
  unfold Layout.magnitude
  generalize Shortest.decimal significand exponent = decimal at nonneg isWhole low
  obtain ⟨zeros, isPower⟩ := Int.eq_ofNat_of_zero_le nonneg
  rw [Decimal.value, isPower, zpow_natCast] at isWhole
  have isWhole : decimal.digits * 10 ^ zeros = count := by exact_mod_cast isWhole
  have longer : 0 < (digitsText decimal.digits).length := Nat.length_toDigits_pos
  have moderate : (digitsText decimal.digits).length + zeros ≤ 16 := by
    by_contra above
    have isLarge : 10 ^ 16 ≤ count := by
      calc 10 ^ 16
        _ ≤ 10 ^ ((digitsText decimal.digits).length - 1 + zeros) :=
          Nat.pow_le_pow_right (by decide) (by omega)
        _ = 10 ^ ((digitsText decimal.digits).length - 1) * 10 ^ zeros := Nat.pow_add _ _ _
        _ ≤ decimal.digits * 10 ^ zeros := Nat.mul_le_mul_right _ low
        _ = count := isWhole
    omega
  have allDigits : ∀ digit ∈ digitsText decimal.digits ++ List.replicate zeros '0',
      digit.isDigit = true := by
    refine List.forall_mem_append.mpr ⟨fun _ member => isDigit_digitsText member, ?_⟩
    intro digit member
    rw [List.eq_of_mem_replicate member]
    rfl
  have isText : positional (digitsText decimal.digits)
      ((digitsText decimal.digits).length + (zeros : Int)) =
        digitsText decimal.digits ++ List.replicate zeros '0' := by
    have isZeros : ((digitsText decimal.digits).length + (zeros : Int)).toNat -
        (digitsText decimal.digits).length = zeros := by omega
    rw [positional, if_neg (by omega), if_pos (by omega), isZeros]
  have isPositional : Layout.script.leastPoint ≤ (digitsText decimal.digits).length + (zeros : Int) ∧
      (digitsText decimal.digits).length + (zeros : Int) ≤ Layout.script.greatestPoint := by
    change (-5 : Int) ≤ _ ∧ _ ≤ (21 : Int)
    omega
  dsimp only
  rw [isPower, Int.ofNat_eq_natCast, if_pos isPositional, isText]
  refine ⟨by simp [List.length_pos_iff.mp longer], fun digit member => ?_, ?_⟩
  · exact (digitValue_of_isDigit (allDigits digit member)).2
  · rw [radixValue_ten allDigits, digitsValue_trailing_zeros, digitsValue_digitsText, isWhole]

end

/-! ## Texts of whole numbers -/

section

variable {value : Float} {whole : Int}

/-- A double that is a whole number is a zero, or it takes 53 bits behind its sign. -/
theorem whole_cases (isWhole : rational? value = some (whole : ℚ)) :
    (whole = 0 ∧ ∃ sign, value.toModel.unpack = .zero sign) ∨
      ∃ significand exponent positive,
        value.toModel.unpack = .finite (if whole < 0 then .negative else .positive) significand
            exponent positive ∧
          IsScaled whole.natAbs significand exponent ∧
          Binary64.Canonical significand exponent := by
  unfold rational? at isWhole
  cases finite : Binary64.ofFloat value with
  | finite negative significand exponent =>
      rw [finite] at isWhole
      have parts := (Binary64.bits_of_finite finite).1
      have isExact := Option.some.inj isWhole
      rw [ofFloat_eq_ofUnpacked] at finite
      cases isUnpacked : value.toModel.unpack with
      | infinity sign | notANumber =>
          rw [isUnpacked] at finite
          cases finite
      | zero sign =>
          rw [isUnpacked] at finite
          obtain ⟨-, rfl, -⟩ := Binary64.finite.inj finite
          refine .inl ⟨?_, sign, rfl⟩
          simp only [Nat.cast_zero, zero_mul, neg_zero, ite_self] at isExact
          exact_mod_cast isExact.symm
      | finite sign mantissa power positive =>
          rw [isUnpacked] at finite
          obtain ⟨rfl, rfl, rfl⟩ := Binary64.finite.inj finite
          have canonical : Binary64.Canonical mantissa power :=
            parts.resolve_left fun isZero => by omega
          have isPositive : (0 : ℚ) < mantissa * 2 ^ power := by positivity
          have isMagnitude : (mantissa : ℚ) * 2 ^ power = whole.natAbs ∧
              sign = if whole < 0 then .negative else .positive := by
            have isCast : ((whole.natAbs : Int) : ℚ) = whole.natAbs := Int.cast_natCast _
            cases sign with
            | positive =>
                have isExact : (mantissa : ℚ) * 2 ^ power = whole := isExact
                have notNegative : 0 < whole := by exact_mod_cast isExact ▸ isPositive
                have isAbs : (whole.natAbs : Int) = whole := Int.natAbs_of_nonneg notNegative.le
                rw [isExact, if_neg (by omega), ← isCast, isAbs]
                exact ⟨rfl, rfl⟩
            | negative =>
                have isExact : -((mantissa : ℚ) * 2 ^ power) = whole := isExact
                have isNegative : whole < 0 := by exact_mod_cast isExact ▸ neg_neg_of_pos isPositive
                have isAbs : (whole.natAbs : Int) = -whole := by omega
                rw [neg_eq_iff_eq_neg.mp isExact, if_pos isNegative, ← isCast, isAbs, Int.cast_neg]
                exact ⟨rfl, rfl⟩
          refine .inr ⟨mantissa, power, positive, by rw [← isMagnitude.2],
            ⟨?_, canonical.fits, canonical.least, isMagnitude.1⟩, canonical⟩
          refine canonical.normal fun isLowest => ?_
          -- The lowest doubles are below one.
          have isSmall : (mantissa : ℚ) * 2 ^ power < 1 := by
            have short : (mantissa : ℚ) < 2 ^ 53 := by exact_mod_cast canonical.fits
            calc (mantissa : ℚ) * 2 ^ power
              _ < 2 ^ 53 * 2 ^ power := by gcongr
              _ ≤ 2 ^ 53 * 2 ^ (-53 : Int) := by
                rw [isLowest]
                gcongr
                · norm_num
                · decide
              _ = 1 := by norm_num
          rw [isMagnitude.1] at isSmall isPositive
          have isSmall : whole.natAbs < 1 := by exact_mod_cast isSmall
          have isPositive : 0 < whole.natAbs := by exact_mod_cast isPositive
          omega
  | _ =>
      rw [finite] at isWhole
      cases isWhole

/-- Without its sign, a whole number is one of those from zero on. -/
theorem abs_whole
    (isWhole : rational? value = some (whole : ℚ))
    (bound : whole.natAbs ≤ 2 ^ 53) :
    value.abs = ofNat whole.natAbs := by
  apply eq_of_pack
  change Float.Model.pack value.toModel.unpack.abs = _
  congr 1
  rcases whole_cases isWhole with ⟨rfl, sign, isZero⟩ |
    ⟨significand, exponent, positive, isValue, scaled, canonical⟩
  · rw [isZero]
    rfl
  · obtain ⟨_, _, _, isScaled, isUnpacked⟩ := unpack_whole scaled.count_pos bound
    obtain ⟨rfl, rfl⟩ := isScaled.unique scaled
    rw [isValue, isUnpacked]
    rfl

theorem truncate_whole (bound : count ≤ 2 ^ 53) :
    truncate (ofNat count) = ofNat count ∧ wholeMagnitude (ofNat count) = count := by
  rcases Nat.lt_or_eq_of_le bound with fits | rfl
  · exact ⟨truncate_ofNat fits, wholeMagnitude_ofNat fits⟩
  · decide +kernel

/-- A whole number is written with its digits in a base, behind a minus sign if it is negative. -/
theorem radixText_whole
    (isWhole : rational? value = some (whole : ℚ))
    (bound : whole.natAbs ≤ 2 ^ 53)
    (atLeast : 2 ≤ radix)
    (atMost : radix ≤ 36) :
    ∃ digits, IsSpelled radix whole.natAbs digits ∧
      radixText value radix = String.ofList (if whole < 0 then '-' :: digits else digits) := by
  have isAbs := abs_whole isWhole bound
  obtain ⟨isTruncated, isMagnitude⟩ := truncate_whole bound
  have noFraction : ¬ofNat 0 > 0 := by decide +kernel
  have moderate : whole.natAbs < Nat.pow 2 63 := Nat.lt_of_le_of_lt bound (by decide)
  have others {negative : Bool} {significand : Nat} {exponent : Int}
      (finite : Binary64.ofFloat value = .finite negative significand exponent)
      (isNegative : (negative && significand ≠ 0) = decide (whole < 0))
      (notTen : radix ≠ 10) :
      ∃ digits, IsSpelled radix whole.natAbs digits ∧
        radixText value radix = String.ofList (if whole < 0 then '-' :: digits else digits) := by
    refine ⟨_, isSpelled_radixDigits atLeast atMost whole.natAbs, ?_⟩
    unfold radixText
    simp only [finite, if_neg notTen, isAbs, isTruncated, isMagnitude, sub_self_ofNat bound,
      if_neg noFraction, if_pos moderate, isNegative, decide_eq_true_eq]
  have isFinite := ofFloat_eq_ofUnpacked value
  rcases whole_cases isWhole with ⟨rfl, sign, isZero⟩ |
    ⟨significand, exponent, _, isValue, scaled, canonical⟩
  · rw [isZero] at isFinite
    by_cases isTen : radix = 10
    · refine ⟨['0'], ⟨nofun, by simp [isTen, digitValue], by simp [isTen, radixValue, digitValue]⟩, ?_⟩
      have isText : text value = "0" := by
        unfold text Layout.text
        rw [isFinite]
        cases sign <;> rfl
      unfold radixText
      rw [isFinite]
      exact (if_pos isTen).trans isText
    · exact others isFinite (by simp) isTen
  · rw [isValue] at isFinite
    have isNegative : ((if whole < 0 then .negative else .positive : Sign) == .negative) =
        decide (whole < 0) := by
      by_cases isBelow : whole < 0
      · rw [if_pos isBelow, decide_eq_true isBelow]
        rfl
      · rw [if_neg isBelow, decide_eq_false isBelow]
        rfl
    have nonZero : significand ≠ 0 := canonical.positive.ne'
    by_cases isTen : radix = 10
    · subst isTen
      refine ⟨Layout.script.magnitude significand exponent, ?_, ?_⟩
      · rcases Nat.lt_or_eq_of_le bound with fits | isLast
        · exact isSpelled_magnitude scaled fits canonical
        · rw [isLast] at scaled ⊢
          have isText : Layout.script.magnitude (2 ^ 52) 1 = ['9', '0', '0', '7', '1', '9', '9', '2',
              '5', '4', '7', '4', '0', '9', '9', '2'] := by
            decide +kernel
          have isScaled : IsScaled (2 ^ 53) (2 ^ 52) 1 :=
            ⟨by decide, by decide, by decide, by norm_num⟩
          obtain ⟨rfl, rfl⟩ := isScaled.unique scaled
          rw [isText]
          exact ⟨nofun, by simp [digitValue], by decide⟩
      · have isText : text value = String.ofList
            (if whole < 0 then '-' :: Layout.script.magnitude significand exponent
            else Layout.script.magnitude significand exponent) := by
          unfold text Layout.text
          rw [isFinite]
          dsimp only [Binary64.ofUnpacked]
          simp only [if_neg nonZero, isNegative, decide_eq_true_eq]
        unfold radixText
        rw [isFinite]
        exact isText
    · exact others isFinite (by simp [isNegative, nonZero]) isTen

end

/-! ## Reading digits in a base -/

theorem not_isBlank_of_digitValue
    {digit : Char}
    (below : digitValue digit < 36) :
    Text.isBlank digit = false := by
  have within {least greatest : Char} (inside : (least ≤ digit && digit ≤ greatest) = true) :
      least.toNat ≤ digit.toNat ∧ digit.toNat ≤ greatest.toNat := by
    obtain ⟨low, high⟩ := Bool.and_eq_true_iff.mp inside
    exact ⟨UInt32.le_iff_toNat_le.mp (of_decide_eq_true low),
      UInt32.le_iff_toNat_le.mp (of_decide_eq_true high)⟩
  have places : 48 ≤ digit.toNat ∧ digit.toNat ≤ 57 ∨ 97 ≤ digit.toNat ∧ digit.toNat ≤ 122 ∨
      65 ≤ digit.toNat ∧ digit.toNat ≤ 90 := by
    unfold digitValue at below
    split at below
    · rename_i isDigit
      exact .inl ((isDigit_iff digit).mp isDigit)
    · split at below
      · rename_i isSmall
        exact .inr (.inl (within isSmall))
      · split at below
        · rename_i isCapital
          exact .inr (.inr (within isCapital))
        · exact absurd below (Nat.lt_irrefl 36)
  simp [Text.isBlank]
  omega

/-- Digits are read as the number that they stand for, and with a minus sign as its opposite. -/
theorem integerOfFront_spelled
    (spelled : IsSpelled radix count digits)
    (atLeast : 2 ≤ radix)
    (atMost : radix ≤ 36)
    (bound : count ≤ 2 ^ 53) :
    integerOfFront (String.ofList digits) radix = ofNat count ∧
      integerOfFront (String.ofList ('-' :: digits)) radix = -1.0 * ofNat count := by
  obtain ⟨nonEmpty, below, isValue⟩ := spelled
  have noBlank : ∀ digit ∈ digits, Text.isBlank digit = false := fun digit member =>
    not_isBlank_of_digitValue (Nat.lt_of_lt_of_le (below digit member) atMost)
  have noMinus : ∀ digit ∈ '-' :: digits, Text.isBlank digit = false :=
    List.forall_mem_cons.mpr ⟨rfl, noBlank⟩
  have unsigned : splitSign digits = (false, digits) := by
    unfold splitSign
    split
    · exact absurd (below '+' List.mem_cons_self) (Nat.not_lt.mpr atMost)
    · exact absurd (below '-' List.mem_cons_self) (Nat.not_lt.mpr atMost)
    · rfl
  have unmarked : (if (radix : Int) = 0 ∨ (radix : Int) = 16 then dropHexMark? digits else none) =
      none := by
    split
    · rename_i isMarked
      have isSixteen : radix = 16 := by omega
      unfold dropHexMark?
      split
      · exact absurd (below 'x' (by simp)) (by rw [isSixteen]; decide)
      · exact absurd (below 'X' (by simp)) (by rw [isSixteen]; decide)
      · rfl
    · rfl
  have isNumber : digitsAtFront (radix : Int).toNat digits = ofNat count := by
    have takes : digits.takeWhile (digitValue · < radix) = digits :=
      List.takeWhile_eq_self_iff.mpr fun digit member => decide_eq_true (below digit member)
    rw [Int.toNat_natCast, digitsAtFront, takes, if_neg (by simpa using nonEmpty),
      accumulate_eq (by omega) (by omega) (by rwa [isValue]), isValue]
  have isBase : (if (radix : Int) = 0 then 10 else (radix : Int)) = radix := if_neg (by omega)
  have inRange : ¬((radix : Int) < 2 ∨ 36 < (radix : Int)) := by omega
  have signed : splitSign ('-' :: digits) = (true, digits) := rfl
  unfold integerOfFront
  simp only [String.toList_ofList, trimChars_of_no_blank noBlank, trimChars_of_no_blank noMinus,
    unsigned, signed, unmarked, isBase, if_neg inRange, isNumber]
  exact ⟨rfl, rfl⟩

/-- A number that is read from the digits of a whole double is equal to the double. -/
theorem read_eq
    {value : Float}
    {whole : Int}
    (isWhole : rational? value = some (whole : ℚ))
    (bound : whole.natAbs ≤ 2 ^ 53) :
    ∃ read, read = (if whole < 0 then -1.0 * ofNat whole.natAbs else ofNat whole.natAbs) ∧
      rational? read = some (whole : ℚ) ∧ (read == value) = true := by
  refine ⟨_, rfl, ?_⟩
  rcases whole_cases isWhole with ⟨rfl, sign, isZero⟩ |
    ⟨significand, exponent, _, isValue, scaled, canonical⟩
  · refine ⟨?_, ?_⟩
    · change rational? (ofNat 0) = _
      unfold rational?
      rw [ofFloat_ofNat_zero]
      simp
    · rcases isZero_of_unpack isZero with rfl | rfl <;> rfl
  · have isSame : (if whole < 0 then -1.0 * ofNat whole.natAbs else ofNat whole.natAbs) = value := by
      by_cases isBelow : whole < 0
      · rw [if_pos isBelow] at isValue ⊢
        exact negative_mul_ofNat scaled scaled.count_pos bound isValue
      · rw [if_neg isBelow] at isValue ⊢
        obtain ⟨_, _, _, isScaled, isUnpacked⟩ := unpack_whole scaled.count_pos bound
        obtain ⟨rfl, rfl⟩ := isScaled.unique scaled
        exact eq_of_unpack_eq (isUnpacked.trans isValue.symm)
    have isFinite := ofFloat_eq_ofUnpacked value
    rw [isValue] at isFinite
    rw [isSame]
    exact ⟨isWhole, beq_self_of_finite isFinite⟩

end Number

/-! ## Writing and reading in a script -/

namespace Run

variable {radix : Nat}

/-- In a base from 2 to 36 a number is written. -/
theorem numberToString_of_radix
    (call : Caller)
    (value : Float)
    (machine : Machine)
    (atLeast : 2 ≤ radix)
    (atMost : radix ≤ 36) :
    Builtin.numberToString.run call (.number value) [.ofNat radix] machine =
      .ok (.string (Number.radixText value radix)) machine := by
  have fits : radix < 2 ^ 53 := Nat.lt_of_le_of_lt atMost (by decide)
  have inRange : (Number.ofNat radix < 2 || Number.ofNat radix > 36) = false := by
    have all : ∀ radix < 37, 2 ≤ radix →
        (Number.ofNat radix < 2 || Number.ofNat radix > 36) = false := by decide +kernel
    exact all radix (Nat.lt_succ_of_le atMost) atLeast
  change Run.numberToText call (.number value) [.ofNat radix] machine = _
  unfold numberToText
  have receives : receivingNumber "toString" (.number value) machine = .ok value machine := rfl
  rw [bind_of_ok receives]
  change (toInteger call (.ofNat radix) >>= _) machine = _
  rw [bind_of_ok (toInteger_ofNat call machine fits), inRange, Number.wholeMagnitude_ofNat fits]
  rfl

theorem parseInt_of_radix
    (call : Caller)
    (this : Value)
    (text : String)
    (machine : Machine)
    (atMost : radix ≤ 36) :
    Builtin.parseInt.run call this [.string text, .ofNat radix] machine =
      .ok (.number (Number.integerOfFront text radix)) machine := by
  have fits : radix < 2 ^ 53 := Nat.lt_of_le_of_lt atMost (by decide)
  have isRadix : radixArgument call (.ofNat radix) machine = .ok (radix : Int) machine := by
    change (toInteger call (.ofNat radix) >>= _) machine = _
    rw [bind_of_ok (toInteger_ofNat call machine fits), Number.toInteger?_ofNat fits]
    rfl
  change Run.parseInteger call [.string text, .ofNat radix] machine = _
  unfold parseInteger
  have isText : toText call (argument [.string text, .ofNat radix] 0) machine = .ok text machine :=
    rfl
  have isArgument : argument [.string text, .ofNat radix] 1 = .ofNat radix := rfl
  rw [bind_of_ok isText, isArgument, bind_of_ok isRadix]
  rfl

/--
A whole number up to 2^53 in magnitude is written in a base from 2 to 36 with its digits, behind a
minus sign exactly if it is below zero, and the text is read in the base as the same number.
-/
theorem radix_text_read_back
    (call : Caller)
    (this : Value)
    {value : Float}
    {whole : Int}
    (machine : Machine)
    (isWhole : Number.rational? value = some (whole : ℚ))
    (bound : |whole| ≤ 2 ^ 53)
    (atLeast : 2 ≤ radix)
    (atMost : radix ≤ 36) :
    ∃ digits read,
      Number.IsSpelled radix whole.natAbs digits ∧
      Builtin.numberToString.run call (.number value) [.ofNat radix] machine =
        .ok (.string (String.ofList (if whole < 0 then '-' :: digits else digits))) machine ∧
      Builtin.parseInt.run call this
          [.string (String.ofList (if whole < 0 then '-' :: digits else digits)), .ofNat radix]
          machine =
        .ok (.number read) machine ∧
      Number.rational? read = some (whole : ℚ) ∧ (read == value) = true := by
  have bound : whole.natAbs ≤ 2 ^ 53 := by
    rw [Int.abs_eq_natAbs] at bound
    exact_mod_cast bound
  obtain ⟨digits, spelled, isText⟩ := Number.radixText_whole isWhole bound atLeast atMost
  obtain ⟨plain, negated⟩ := Number.integerOfFront_spelled spelled atLeast atMost bound
  obtain ⟨read, isRead, isExact, isSame⟩ := Number.read_eq isWhole bound
  refine ⟨digits, read, spelled, ?_, ?_, isExact, isSame⟩
  · rw [numberToString_of_radix call value machine atLeast atMost, isText]
  · rw [parseInt_of_radix call this _ machine atMost, isRead]
    split
    · rw [negated]
    · rw [plain]

/-- The least of these numbers, in the largest base. -/
theorem radix_text_read_back_at_limit :
    Number.rational? (.ofBits 0xC340000000000000) = some ((-2 ^ 53 : Int) : ℚ) ∧
      |(-2 ^ 53 : Int)| ≤ 2 ^ 53 ∧ 2 ≤ 36 ∧ 36 ≤ 36 ∧
        ∃ digits read,
          Number.IsSpelled 36 (-2 ^ 53 : Int).natAbs digits ∧
          Builtin.numberToString.run (callUpTo 0) (.number (.ofBits 0xC340000000000000))
              [.ofNat 36] (Machine.bare 0) =
            .ok (.string (String.ofList (if (-2 ^ 53 : Int) < 0 then '-' :: digits else digits)))
              (Machine.bare 0) ∧
          Builtin.parseInt.run (callUpTo 0) .undefined
              [.string (String.ofList (if (-2 ^ 53 : Int) < 0 then '-' :: digits else digits)),
                .ofNat 36] (Machine.bare 0) =
            .ok (.number read) (Machine.bare 0) ∧
          Number.rational? read = some ((-2 ^ 53 : Int) : ℚ) ∧
          (read == Float.ofBits 0xC340000000000000) = true := by
  have isWhole : Number.rational? (.ofBits 0xC340000000000000) = some ((-2 ^ 53 : Int) : ℚ) := by
    have finite : Number.Binary64.ofFloat (.ofBits 0xC340000000000000) =
        .finite true (2 ^ 52) 1 := by
      decide +kernel
    unfold Number.rational?
    rw [finite]
    norm_num
  have bound : |(-2 ^ 53 : Int)| ≤ 2 ^ 53 := by decide
  exact ⟨isWhole, bound, by decide, Nat.le_refl 36,
    radix_text_read_back (callUpTo 0) .undefined (Machine.bare 0) isWhole bound (by decide)
      (Nat.le_refl 36)⟩

example : Number.radixText (.ofBits 0xC340000000000000) 36 = "-2gosa7pa2gw" := by decide +kernel

end Run

end ScriptEngine
