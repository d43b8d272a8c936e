import Mathlib.Algebra.Group.Int.Defs
import Mathlib.Algebra.Ring.Nat
import ScriptEngine.Number.Binary64

namespace ScriptEngine.Number

open Float.Model
open Float.Model.UnpackedFloat (Sign packComponents unpackSign unpackExponent unpackMantissa)

variable {count : Nat} {value : Float}

/-!
# Whole numbers among the doubles

A double keeps its bit pattern, and two doubles are equal when their patterns are,
the two zeros apart.  So a whole number below 2^53 is a double of its own, and
cutting it toward zero gives it back.
-/

/-! ## Bit patterns -/

theorem unpackMantissa_toNat (bits : BitVec 64) :
    (@unpackMantissa .binary64 bits).toNat = bits.toNat % 2 ^ 52 := by
  simp [unpackMantissa]

theorem unpackExponent_toNat (bits : BitVec 64) :
    (@unpackExponent .binary64 bits).toNat = bits.toNat / 2 ^ 52 % 2 ^ 11 := by
  simp [unpackExponent, Nat.shiftRight_eq_div_pow]

theorem unpackSign_toNat (bits : BitVec 64) :
    (@unpackSign .binary64 bits).toNat = bits.toNat / 2 ^ 63 := by
  have bound : bits.toNat < 2 ^ 64 := bits.isLt
  change (bits.extractLsb 63 63).toNat = _
  rw [BitVec.extractLsb_toNat, Nat.shiftRight_eq_div_pow]
  omega

theorem toBitVec_ofBitVec (sign : BitVec 1) : (Sign.ofBitVec sign).toBitVec = sign := by
  revert sign
  decide

/-- A bit pattern is its sign, its exponent and its fraction, one after the other. -/
theorem packComponents_unpack (bits : BitVec 64) :
    packComponents .binary64 (Sign.ofBitVec (@unpackSign .binary64 bits))
      (@unpackExponent .binary64 bits) (@unpackMantissa .binary64 bits) = bits := by
  have bound : bits.toNat < 2 ^ 64 := bits.isLt
  apply BitVec.eq_of_toNat_eq
  unfold packComponents
  rw [toBitVec_ofBitVec, BitVec.toNat_append, BitVec.toNat_append, unpackSign_toNat,
    unpackExponent_toNat, unpackMantissa_toNat]
  change ((bits.toNat / 2 ^ 63) <<< 11 ||| bits.toNat / 2 ^ 52 % 2 ^ 11) <<< 52 |||
    bits.toNat % 2 ^ 52 = bits.toNat
  rw [← Nat.shiftLeft_add_eq_or_of_lt (Nat.mod_lt _ (by decide)),
    ← Nat.shiftLeft_add_eq_or_of_lt (Nat.mod_lt _ (by decide))]
  simp only [Nat.shiftLeft_eq]
  omega

theorem packComponents_of_fields
    {bits : BitVec 64}
    {exponent : BitVec 11}
    {fraction : BitVec 52}
    (isExponent : @unpackExponent .binary64 bits = exponent)
    (isFraction : @unpackMantissa .binary64 bits = fraction) :
    packComponents .binary64 (Sign.ofBitVec (@unpackSign .binary64 bits)) exponent fraction =
      bits := by
  subst isExponent isFraction
  exact packComponents_unpack bits

/--
What a bit pattern unpacks to, told from its exponent and its fraction.  Only normal doubles have
a leading bit in front of the fraction.
-/
inductive Unpacks (bits : BitVec 64) : UnpackedFloat → Prop where
  | infinity :
      @unpackExponent .binary64 bits = -1#11 →
      @unpackMantissa .binary64 bits = 0#52 →
      Unpacks bits (.infinity (.ofBitVec (@unpackSign .binary64 bits)))
  | notANumber :
      @unpackExponent .binary64 bits = -1#11 →
      @unpackMantissa .binary64 bits ≠ 0#52 →
      Unpacks bits .notANumber
  | zero :
      @unpackExponent .binary64 bits = 0#11 →
      @unpackMantissa .binary64 bits = 0#52 →
      Unpacks bits (.zero (.ofBitVec (@unpackSign .binary64 bits)))
  | subnormal {significand : Nat} {positive : 0 < significand} :
      @unpackExponent .binary64 bits = 0#11 →
      significand = (@unpackMantissa .binary64 bits).toNat →
      Unpacks bits
        (.finite (.ofBitVec (@unpackSign .binary64 bits)) significand (-1074) positive)
  | normal {significand : Nat} {exponent : Int} {positive : 0 < significand} :
      @unpackExponent .binary64 bits ≠ -1#11 →
      @unpackExponent .binary64 bits ≠ 0#11 →
      significand = 2 ^ 52 + (@unpackMantissa .binary64 bits).toNat →
      exponent = ((@unpackExponent .binary64 bits).toNat : Int) - 1075 →
      Unpacks bits
        (.finite (.ofBitVec (@unpackSign .binary64 bits)) significand exponent positive)

theorem unpacks (bits : BitVec 64) : Unpacks bits (UnpackedFloat.unpack .binary64 bits) := by
  have bias : Format.binary64.exponentBias = 1023 := rfl
  unfold UnpackedFloat.unpack
  dsimp only
  by_cases special : @unpackExponent .binary64 bits = -BitVec.ofNat _ 1
  · rw [if_pos special]
    by_cases isInfinite : @unpackMantissa .binary64 bits = BitVec.ofNat _ 0
    · rw [if_pos isInfinite]
      exact .infinity special isInfinite
    · rw [if_neg isInfinite]
      exact .notANumber special isInfinite
  · rw [if_neg special]
    by_cases lowest : @unpackExponent .binary64 bits = BitVec.ofNat _ 0
    · rw [if_pos lowest]
      by_cases isZero : @unpackMantissa .binary64 bits = BitVec.ofNat _ 0
      · rw [dif_pos isZero]
        exact .zero lowest isZero
      · rw [dif_neg isZero, lowest]
        exact .subnormal lowest rfl
    · rw [if_neg lowest]
      refine .normal special lowest ?_ ?_
      · rw [BitVec.toNat_append, ← Nat.shiftLeft_add_eq_or_of_lt (BitVec.isLt _)]
        rfl
      · rw [bias]
        rfl

/-- Packing what was unpacked gives the pattern back, if it has the one form not-a-number has. -/
theorem pack_unpack {bits : BitVec 64} (valid : Format.binary64.Valid bits) :
    UnpackedFloat.pack .binary64 (UnpackedFloat.unpack .binary64 bits) = bits := by
  have fractionBound : (@unpackMantissa .binary64 bits).toNat < 2 ^ 52 := BitVec.isLt _
  have bias : Format.binary64.exponentBias = 1023 := rfl
  have unpacked := unpacks bits
  generalize UnpackedFloat.unpack .binary64 bits = value at unpacked
  cases unpacked with
  | infinity special isInfinite => exact packComponents_of_fields special isInfinite
  | notANumber special isNaN => exact (valid.eq_packedNaN special isNaN).symm
  | zero lowest isZero => exact packComponents_of_fields lowest isZero
  | @subnormal significand positive lowest isFraction =>
      -- The fraction is too short to be taken for that of a normal double.
      have short : ¬significand.log2 + 1 = Format.binary64.mantissaBits := by
        intro long
        have isLong : significand.log2 = 52 := Nat.succ.inj long
        rw [Nat.log2_eq_iff (Nat.ne_of_gt positive)] at isLong
        omega
      unfold UnpackedFloat.pack
      dsimp only
      rw [bias, if_neg (by decide), if_neg short, isFraction, BitVec.ofNat_toNat,
        BitVec.setWidth_eq]
      exact packComponents_of_fields lowest rfl
  | @normal significand exponent positive notSpecial notLowest isSignificand isExponent =>
      -- The leading bit is in front of the fraction and dropped again.
      have long : significand.log2 + 1 = Format.binary64.mantissaBits := by
        have isLong : significand.log2 = 52 := by
          rw [Nat.log2_eq_iff (Nat.ne_of_gt positive)]
          omega
        rw [isLong]
        rfl
      have notLast : (@unpackExponent .binary64 bits).toNat ≠ 2047 :=
        fun isLast => notSpecial (BitVec.eq_of_toNat_eq isLast)
      have exponentBound : (@unpackExponent .binary64 bits).toNat < 2 ^ 11 := BitVec.isLt _
      have biased :
          (exponent + Format.binary64.exponentBias + (52 : Nat) : Int).toNat =
            (@unpackExponent .binary64 bits).toNat := by
        omega
      unfold UnpackedFloat.pack
      dsimp only
      rw [biased, if_neg (by omega), if_pos long]
      refine packComponents_of_fields ?_ ?_
      · rw [BitVec.ofNat_toNat, BitVec.setWidth_eq]
      · apply BitVec.eq_of_toNat_eq
        rw [BitVec.toNat_ofNat, isSignificand]
        change _ = _ % 2 ^ 52
        omega

/-- A double is known by what it unpacks to. -/
theorem eq_of_unpack_eq {left right : Float} (same : left.toModel.unpack = right.toModel.unpack) :
    left = right := by
  have patterns : left.toModel.toBits.toBitVec = right.toModel.toBits.toBitVec := by
    rw [← pack_unpack left.toModel.valid, ← pack_unpack right.toModel.valid]
    exact congrArg (UnpackedFloat.pack .binary64) same
  obtain ⟨⟨leftBits, leftValid⟩⟩ := left
  obtain ⟨⟨rightBits, rightValid⟩⟩ := right
  obtain rfl : leftBits = rightBits := UInt64.toBitVec_inj.mp patterns
  rfl

/-- A pattern that is not special is kept. -/
theorem toBits_ofBits {bits : UInt64} (finite : bits.toNat / 2 ^ 52 % 2 ^ 11 ≠ 2047) :
    (Float.ofBits bits).toBits = bits := by
  apply UInt64.toBitVec_inj.mp
  refine pack_unpack ⟨fun special => ?_⟩
  refine absurd ?_ finite
  have exponent := unpackExponent_toNat bits.toBitVec
  rw [special] at exponent
  exact exponent.symm

/-! ## Equal doubles -/

/-- The two zeros. -/
def IsZero (value : Float) : Prop := value = ofNat 0 ∨ value = negativeZero

theorem unpack_ofNat_zero : (ofNat 0).toModel.unpack = .zero .positive := rfl

theorem unpack_negativeZero : negativeZero.toModel.unpack = .zero .negative := rfl

theorem isZero_of_unpack {sign : Sign} (isZero : value.toModel.unpack = .zero sign) :
    IsZero value := by
  cases sign with
  | positive => exact .inl (eq_of_unpack_eq (isZero.trans unpack_ofNat_zero.symm))
  | negative => exact .inr (eq_of_unpack_eq (isZero.trans unpack_negativeZero.symm))

/-- Numbers that compare as equal are the same one, or both are zeros. -/
theorem unpacked_eq_of_compare
    {left right : UnpackedFloat}
    (equal : left.compare right = some .eq) :
    left = right ∨ (∃ sign, left = .zero sign) ∧ ∃ sign, right = .zero sign := by
  -- Only numbers of one class and one sign compare as equal, zeros apart.
  cases left with
  | notANumber => cases equal
  | infinity leftSign =>
      cases right with
      | notANumber => cases equal
      | infinity rightSign =>
          left
          cases leftSign <;> cases rightSign <;> first | rfl | cases equal
      | zero | finite => cases leftSign <;> cases equal
  | zero =>
      cases right with
      | notANumber => cases equal
      | infinity rightSign => cases rightSign <;> cases equal
      | zero => exact .inr ⟨⟨_, rfl⟩, _, rfl⟩
      | finite rightSign => cases rightSign <;> cases equal
  | finite leftSign =>
      cases right with
      | notANumber => cases equal
      | infinity rightSign => cases leftSign <;> cases rightSign <;> cases equal
      | zero => cases leftSign <;> cases equal
      | finite rightSign =>
          left
          cases leftSign <;> cases rightSign
          case positive.negative | negative.positive => cases equal
          case positive.positive | negative.negative =>
            have parts := Option.some.inj equal
            simp only [Ordering.swap_eq_eq, Ordering.then_eq_eq,
              Std.LawfulEqCmp.compare_eq_iff_eq] at parts
            obtain ⟨rfl, rfl⟩ := parts
            rfl

theorem compare_finite_self
    {sign : Sign}
    {significand : Nat}
    {exponent : Int}
    {positive : 0 < significand} :
    (UnpackedFloat.finite sign significand exponent positive).compare
      (.finite sign significand exponent positive) = some .eq := by
  have same : (compare exponent exponent).then (compare significand significand) = .eq :=
    Ordering.then_eq_eq.mpr ⟨Std.ReflCmp.compare_self, Std.ReflCmp.compare_self⟩
  cases sign with
  | positive => exact congrArg some same
  | negative => exact congrArg (fun order => some order.swap) same

/-- Equal doubles are the same one, or both are zeros. -/
theorem eq_of_beq {left right : Float} (equal : (left == right) = true) :
    left = right ∨ IsZero left ∧ IsZero right := by
  have compared : left.toModel.unpack.compare right.toModel.unpack = some .eq := beq_iff_eq.mp equal
  rcases unpacked_eq_of_compare compared with same | ⟨⟨_, leftZero⟩, _, rightZero⟩
  · exact .inl (eq_of_unpack_eq same)
  · exact .inr ⟨isZero_of_unpack leftZero, isZero_of_unpack rightZero⟩

theorem beq_zero_of_isZero (isZero : IsZero value) : (value == ofNat 0) = true := by
  rcases isZero with rfl | rfl
  · rfl
  · rfl

/-! ## Whole numbers -/

theorem roundHalfEven_one (value : Nat) : Binary64.roundHalfEven value 1 = value := by
  simp [Binary64.roundHalfEven, Nat.mod_one]

theorem log2Ratio_one (positive : 0 < count) : Binary64.log2Ratio count 1 = count.log2 := by
  have reached : 2 ^ count.log2 ≤ count := Nat.log2_self_le (Nat.ne_of_gt positive)
  have one : Nat.log2 1 = 0 := rfl
  simp [Binary64.log2Ratio, one, reached]

/-- The digits of a whole number moved up to 53 bits. -/
def significandOf (count : Nat) : Nat := count * 2 ^ (52 - count.log2)

theorem significandOf_bounds (positive : 0 < count) (fits : count < 2 ^ 53) :
    count.log2 ≤ 52 ∧ 2 ^ 52 ≤ significandOf count ∧ significandOf count < 2 ^ 53 := by
  have nonZero : count ≠ 0 := Nat.ne_of_gt positive
  have small : count.log2 < 53 := (Nat.log2_lt nonZero).mpr fits
  have low : 2 ^ count.log2 ≤ count := Nat.log2_self_le nonZero
  have high : count < 2 ^ (count.log2 + 1) := Nat.lt_log2_self
  have scale : 0 < 2 ^ (52 - count.log2) := Nat.two_pow_pos _
  refine ⟨by omega, ?_, ?_⟩
  · calc 2 ^ 52
      _ = 2 ^ count.log2 * 2 ^ (52 - count.log2) := by rw [← Nat.pow_add]; congr 1; omega
      _ ≤ significandOf count := Nat.mul_le_mul_right _ low
  · calc significandOf count
      _ < 2 ^ (count.log2 + 1) * 2 ^ (52 - count.log2) := Nat.mul_lt_mul_of_pos_right high scale
      _ = 2 ^ 53 := by rw [← Nat.pow_add]; congr 1; omega

/-- The bits of a whole number that fits: its exponent, and its digits behind the leading one. -/
theorem ratioBits_one (positive : 0 < count) (fits : count < 2 ^ 53) :
    Binary64.ratioBits count 1 = (count.log2 + 1022) * 2 ^ 52 + significandOf count := by
  obtain ⟨small, low, high⟩ := significandOf_bounds positive fits
  have unit : max ((count.log2 : Int) - 52) Binary64.leastExponent = (count.log2 : Int) - 52 :=
    Int.max_eq_left (by unfold Binary64.leastExponent; omega)
  have biased : ((count.log2 : Int) - 52 - Binary64.leastExponent).toNat = count.log2 + 1022 := by
    unfold Binary64.leastExponent
    omega
  have rounded :
      (if (0 : Int) ≤ (count.log2 : Int) - 52 then
          Binary64.roundHalfEven count (1 * Nat.pow 2 ((count.log2 : Int) - 52).toNat)
        else
          Binary64.roundHalfEven (count * Nat.pow 2 (-((count.log2 : Int) - 52)).toNat) 1) =
        significandOf count := by
    have shift : (-((count.log2 : Int) - 52)).toNat = 52 - count.log2 := by omega
    split
    · rename_i isFull
      have full : count.log2 = 52 := by omega
      simp [significandOf, full, roundHalfEven_one]
    · rw [roundHalfEven_one, shift]
      rfl
  unfold Binary64.ratioBits
  rw [if_neg (Nat.ne_of_gt positive), log2Ratio_one positive]
  dsimp only
  rw [unit, biased, rounded]
  refine Nat.min_eq_left ?_
  change (count.log2 + 1022) * 2 ^ 52 + significandOf count ≤ 2047 * 2 ^ 52
  omega

/-- A whole number that fits is a double of its own. -/
theorem ofFloat_ofNat (positive : 0 < count) (fits : count < 2 ^ 53) :
    Binary64.ofFloat (ofNat count) =
      .finite false (significandOf count) ((count.log2 : Int) - 52) := by
  obtain ⟨small, low, high⟩ := significandOf_bounds positive fits
  have bits := ratioBits_one positive fits
  have pattern :
      (UInt64.ofNat (Binary64.ratioBits count 1)).toNat =
        (count.log2 + 1022) * 2 ^ 52 + significandOf count := by
    rw [UInt64.toNat_ofNat', bits]
    omega
  have kept : (ofNat count).toBits = UInt64.ofNat (Binary64.ratioBits count 1) := by
    unfold ofNat Binary64.ofRatio
    dsimp only
    rw [if_neg Bool.false_ne_true, toBits_ofBits]
    rw [pattern]
    omega
  unfold Binary64.ofFloat
  rw [kept]
  unfold Binary64.ofBits
  dsimp only
  have pow52 : Nat.pow 2 52 = 2 ^ 52 := rfl
  have pow11 : Nat.pow 2 11 = 2 ^ 11 := rfl
  have pow63 : Nat.pow 2 63 = 2 ^ 63 := rfl
  rw [pattern, pow52, pow11, pow63]
  have exponent :
      ((count.log2 + 1022) * 2 ^ 52 + significandOf count) / 2 ^ 52 % 2 ^ 11 =
        count.log2 + 1023 := by
    omega
  have fraction :
      ((count.log2 + 1022) * 2 ^ 52 + significandOf count) % 2 ^ 52 + 2 ^ 52 =
        significandOf count := by
    omega
  have sign : ¬2 ^ 63 ≤ (count.log2 + 1022) * 2 ^ 52 + significandOf count := by
    omega
  have place : Int.ofNat (count.log2 + 1023) - 1075 = (count.log2 : Int) - 52 := by
    rw [Int.ofNat_eq_natCast]
    omega
  rw [exponent, fraction, if_neg (by omega), if_neg (by omega), decide_eq_false sign, place]

theorem ofFloat_ofNat_zero : Binary64.ofFloat (ofNat 0) = .finite false 0 Binary64.leastExponent :=
  rfl

theorem ofFloat_negativeZero :
    Binary64.ofFloat negativeZero = .finite true 0 Binary64.leastExponent :=
  rfl

theorem wholeMagnitude_negativeZero : wholeMagnitude negativeZero = 0 := by
  unfold wholeMagnitude
  rw [ofFloat_negativeZero]
  exact Nat.zero_div _

theorem wholeMagnitude_ofNat (fits : count < 2 ^ 53) : wholeMagnitude (ofNat count) = count := by
  rcases Nat.eq_zero_or_pos count with rfl | positive
  · unfold wholeMagnitude
    rw [ofFloat_ofNat_zero]
    exact Nat.zero_div _
  · obtain ⟨small, -, -⟩ := significandOf_bounds positive fits
    unfold wholeMagnitude
    rw [ofFloat_ofNat positive fits]
    unfold Binary64.ratio significandOf
    dsimp only
    split
    · have full : count.log2 = 52 := by omega
      simp [full]
    · have shift : (-((count.log2 : Int) - 52)).toNat = 52 - count.log2 := by omega
      rw [shift]
      exact Nat.mul_div_cancel _ (Nat.two_pow_pos _)

theorem isFinite_ofNat (fits : count < 2 ^ 53) :
    ∃ significand exponent,
      Binary64.ofFloat (ofNat count) = .finite false significand exponent := by
  rcases Nat.eq_zero_or_pos count with rfl | positive
  · exact ⟨_, _, ofFloat_ofNat_zero⟩
  · exact ⟨_, _, ofFloat_ofNat positive fits⟩

theorem toInteger?_ofNat (fits : count < 2 ^ 53) :
    toInteger? (ofNat count) = some (count : Int) := by
  obtain ⟨significand, exponent, isFinite⟩ := isFinite_ofNat fits
  unfold toInteger?
  rw [isFinite, wholeMagnitude_ofNat fits]
  rfl

theorem truncate_ofNat (fits : count < 2 ^ 53) : truncate (ofNat count) = ofNat count := by
  obtain ⟨significand, exponent, isFinite⟩ := isFinite_ofNat fits
  unfold truncate
  rw [isFinite, wholeMagnitude_ofNat fits]
  rfl

theorem toInteger?_of_isZero (isZero : IsZero value) : toInteger? value = some 0 := by
  rcases isZero with rfl | rfl
  · exact toInteger?_ofNat (by decide)
  · unfold toInteger?
    rw [ofFloat_negativeZero, wholeMagnitude_negativeZero]
    rfl

theorem truncate_of_isZero (isZero : IsZero value) : truncate value = value := by
  rcases isZero with rfl | rfl
  · exact truncate_ofNat (by decide)
  · unfold truncate
    rw [ofFloat_negativeZero, wholeMagnitude_negativeZero]
    rfl

/-- Whether a number is a whole one, and which: it is equal to what is left of it when it is cut. -/
theorem beq_ofNat_iff (fits : count < 2 ^ 53) :
    (value == ofNat count) = true ↔
      toInteger? value = some (count : Int) ∧ (value == truncate value) = true := by
  constructor
  · intro equal
    rcases eq_of_beq equal with rfl | ⟨valueZero, countZero⟩
    · rw [truncate_ofNat fits]
      exact ⟨toInteger?_ofNat fits, equal⟩
    · have isZero : some (count : Int) = some 0 := by
        rw [← toInteger?_ofNat fits, toInteger?_of_isZero countZero]
      rw [isZero, truncate_of_isZero valueZero]
      refine ⟨toInteger?_of_isZero valueZero, ?_⟩
      rcases valueZero with rfl | rfl
      · rfl
      · rfl
  · rintro ⟨isCount, equal⟩
    unfold toInteger? at isCount
    unfold truncate at equal
    cases isFinite : Binary64.ofFloat value with
    | nan => simp [isFinite] at isCount
    | infinite negative => simp [isFinite] at isCount
    | finite negative significand exponent =>
        simp only [isFinite, Option.some.injEq] at isCount equal
        cases negative with
        | false =>
            have magnitude : wholeMagnitude value = count := Int.ofNat_inj.mp isCount
            rwa [magnitude] at equal
        | true =>
            -- Cut to a count, a negative number is the negative zero.
            have magnitude : wholeMagnitude value = 0 := by
              simp only [↓reduceIte, Int.ofNat_eq_natCast] at isCount
              omega
            have isZero : IsZero value := by
              rw [magnitude] at equal
              rcases eq_of_beq equal with same | ⟨valueZero, -⟩
              · exact .inr same
              · exact valueZero
            have noCount : count = 0 := by
              simp only [↓reduceIte, magnitude] at isCount
              exact Int.ofNat_inj.mp isCount.symm
            rw [noCount]
            exact beq_zero_of_isZero isZero

end ScriptEngine.Number

namespace ScriptEngine.Number

open Float.Model
open Float.Model.UnpackedFloat (Sign unpackSign unpackExponent unpackMantissa)

/-!
## The order of doubles

Doubles are compared by their exponents first and by their digits next.  So a number that
is neither below zero nor above a whole one is not above it when it is cut, either.  And the
double of a whole number is that of no other one as long as one of them is below 2^53.
-/

/-- What an unpacked double stands for. -/
def Binary64.ofUnpacked : UnpackedFloat → Binary64
  | .infinity sign => .infinite (sign == .negative)
  | .notANumber => .nan
  | .zero sign => .finite (sign == .negative) 0 leastExponent
  | .finite sign significand exponent _ => .finite (sign == .negative) significand exponent

theorem ofBitVec_beq_negative (bits : BitVec 64) :
    (Sign.ofBitVec (@unpackSign .binary64 bits) == .negative) =
      decide (Nat.pow 2 63 ≤ bits.toNat) := by
  have bound : bits.toNat < 2 ^ 64 := bits.isLt
  have isSign := unpackSign_toNat bits
  generalize @unpackSign .binary64 bits = sign at isSign
  have pow63 : Nat.pow 2 63 = 2 ^ 63 := rfl
  have cases (sign : BitVec 1) : sign = 0#1 ∨ sign = 1#1 := by
    revert sign
    decide
  rcases cases sign with rfl | rfl
  · have isPositive : ¬ Nat.pow 2 63 ≤ bits.toNat := by
      rw [pow63]
      simp at isSign
      omega
    rw [decide_eq_false isPositive]
    rfl
  · have isNegative : Nat.pow 2 63 ≤ bits.toNat := by
      rw [pow63]
      simp at isSign
      omega
    rw [decide_eq_true isNegative]
    rfl

/-- A double is taken apart in the same way as it is unpacked. -/
theorem ofFloat_eq_ofUnpacked (value : Float) :
    Binary64.ofFloat value = .ofUnpacked value.toModel.unpack := by
  change Binary64.ofBits value.toModel.toBits =
    .ofUnpacked (UnpackedFloat.unpack .binary64 value.toModel.toBits.toBitVec)
  have pow52 : Nat.pow 2 52 = 2 ^ 52 := rfl
  have pow11 : Nat.pow 2 11 = 2 ^ 11 := rfl
  have unpacked := unpacks value.toModel.toBits.toBitVec
  generalize UnpackedFloat.unpack .binary64 value.toModel.toBits.toBitVec = model at unpacked
  unfold Binary64.ofBits
  dsimp only
  rw [← UInt64.toNat_toBitVec, pow52, pow11, ← unpackExponent_toNat, ← unpackMantissa_toNat,
    ← ofBitVec_beq_negative]
  cases unpacked with
  | infinity special isInfinite =>
      rw [special, isInfinite]
      rfl
  | notANumber special isNaN =>
      have nonZero : ¬(@unpackMantissa .binary64 value.toModel.toBits.toBitVec).toNat = 0 :=
        fun isZero => isNaN (BitVec.eq_of_toNat_eq isZero)
      rw [special, if_neg nonZero]
      rfl
  | zero lowest isZero =>
      rw [lowest, isZero]
      rfl
  | subnormal lowest isFraction =>
      rw [lowest, ← isFraction]
      rfl
  | normal notSpecial notLowest isSignificand isExponent =>
      have notLast : ¬(@unpackExponent .binary64 value.toModel.toBits.toBitVec).toNat = 2047 :=
        fun isLast => notSpecial (BitVec.eq_of_toNat_eq isLast)
      have notFirst : ¬(@unpackExponent .binary64 value.toModel.toBits.toBitVec).toNat = 0 :=
        fun isFirst => notLowest (BitVec.eq_of_toNat_eq isFirst)
      rw [if_neg notLast, if_neg notFirst, Nat.add_comm, ← isSignificand, Int.ofNat_eq_natCast,
        ← isExponent]
      rfl

theorem significand_lt
    {bits : BitVec 64}
    {sign : Sign}
    {significand : Nat}
    {exponent : Int}
    {positive : 0 < significand}
    (isFinite : UnpackedFloat.unpack .binary64 bits = .finite sign significand exponent positive) :
    significand < 2 ^ 53 := by
  have bound : (@unpackMantissa .binary64 bits).toNat < 2 ^ 52 := BitVec.isLt _
  have unpacked := unpacks bits
  rw [isFinite] at unpacked
  cases unpacked with
  | subnormal _ isFraction => omega
  | normal _ _ isSignificand _ => omega

theorem unpack_ofNat (isPositive : 0 < count) (fits : count < 2 ^ 53) :
    ∃ positive, (ofNat count).toModel.unpack =
      .finite .positive (significandOf count) ((count.log2 : Int) - 52) positive := by
  have isFinite := (ofFloat_eq_ofUnpacked (ofNat count)).symm.trans (ofFloat_ofNat isPositive fits)
  have large := (significandOf_bounds isPositive fits).2.1
  cases isUnpacked : (ofNat count).toModel.unpack with
  | infinity sign | notANumber =>
      rw [isUnpacked] at isFinite
      cases isFinite
  | zero sign =>
      rw [isUnpacked] at isFinite
      have isZero : 0 = significandOf count := (Binary64.finite.inj isFinite).2.1
      omega
  | finite sign significand exponent positive =>
      rw [isUnpacked] at isFinite
      obtain ⟨isSign, rfl, rfl⟩ := Binary64.finite.inj isFinite
      cases sign with
      | positive => exact ⟨positive, rfl⟩
      | negative => cases isSign

/-- A multiple of a power of two is cut to at most a whole number that it is not above. -/
theorem quotient_le
    {count significand : Nat}
    {exponent : Int}
    (isPositive : 0 < count)
    (fits : count < 2 ^ 53)
    (short : significand < 2 ^ 53)
    (notAbove : exponent < (count.log2 : Int) - 52 ∨
      exponent = (count.log2 : Int) - 52 ∧ significand ≤ significandOf count) :
    (Binary64.ratio significand exponent).1 / (Binary64.ratio significand exponent).2 ≤ count := by
  obtain ⟨small, large, -⟩ := significandOf_bounds isPositive fits
  unfold significandOf at large notAbove
  unfold Binary64.ratio
  split
  · have isLast : exponent = 0 ∧ count.log2 = 52 := by omega
    rw [isLast.1]
    rw [isLast.2] at notAbove
    change significand * 1 / 1 ≤ count
    omega
  · change significand / 2 ^ (-exponent).toNat ≤ count
    refine Nat.div_le_of_le_mul ?_
    rw [Nat.mul_comm]
    rcases notAbove with lower | ⟨same, below⟩
    · have further : 52 - count.log2 + 1 ≤ (-exponent).toNat := by omega
      calc significand
        _ ≤ 2 * (count * 2 ^ (52 - count.log2)) := by omega
        _ = count * 2 ^ (52 - count.log2 + 1) := by rw [Nat.pow_succ]; ac_rfl
        _ ≤ count * 2 ^ (-exponent).toNat :=
          Nat.mul_le_mul_left _ (Nat.pow_le_pow_right (by decide) further)
    · have isShift : (-exponent).toNat = 52 - count.log2 := by omega
      rw [isShift]
      exact below

theorem lt_iff {left right : Float} :
    left < right ↔ left.toModel.unpack.compare right.toModel.unpack = some .lt := by
  change decide (left.toModel.unpack.lt right.toModel.unpack = true) = true ↔ _
  rw [decide_eq_true_iff]
  exact beq_iff_eq

theorem unpack_zero : (0 : Float).toModel.unpack = .zero .positive := rfl

/-- A number from zero on that is not above a whole one is not above it when it is cut, either. -/
theorem wholeMagnitude_le
    (fits : count < 2 ^ 53)
    (notNegative : ¬ value < 0)
    (notAbove : ¬ value > ofNat count) :
    wholeMagnitude value ≤ count := by
  rw [lt_iff] at notNegative
  rw [gt_iff_lt, lt_iff] at notAbove
  unfold wholeMagnitude
  rw [ofFloat_eq_ofUnpacked]
  cases isValue : value.toModel.unpack with
  | infinity sign => exact Nat.zero_le _
  | notANumber => exact Nat.zero_le _
  | zero sign => exact Nat.le_trans (Nat.le_of_eq (Nat.zero_div _)) (Nat.zero_le _)
  | finite sign significand exponent positive =>
      rw [isValue] at notNegative notAbove
      rw [unpack_zero] at notNegative
      cases sign with
      | negative => exact absurd rfl notNegative
      | positive =>
          rcases Nat.eq_zero_or_pos count with rfl | isPositive
          · rw [unpack_ofNat_zero] at notAbove
            exact absurd rfl notAbove
          · obtain ⟨_, isCount⟩ := unpack_ofNat isPositive fits
            rw [isCount] at notAbove
            refine quotient_le isPositive fits (significand_lt isValue) ?_
            change ¬some ((compare ((count.log2 : Int) - 52) exponent).then
              (compare (significandOf count) significand)) = some .lt at notAbove
            simp only [Option.some.injEq, Ordering.then_eq_lt, Int.compare_eq_lt,
              Std.LawfulEqCmp.compare_eq_iff_eq, Nat.compare_eq_lt, not_or, Int.not_lt, not_and,
              Nat.not_lt] at notAbove
            omega

/-! ### Whole numbers beyond 2^53 -/

theorem le_roundHalfEven (numerator denominator : Nat) :
    numerator / denominator ≤ Binary64.roundHalfEven numerator denominator := by
  unfold Binary64.roundHalfEven
  dsimp only
  split
  · exact Nat.le_refl _
  · split
    · exact Nat.le_succ _
    · split
      · exact Nat.le_refl _
      · exact Nat.le_succ _

/-- From 2^53 on the bits of a whole number are those of a multiple of two, or of infinity. -/
theorem ratioBits_one_of_large (large : 2 ^ 53 ≤ count) :
    1076 * 2 ^ 52 ≤ Binary64.ratioBits count 1 ∧ Binary64.ratioBits count 1 ≤ 2047 * 2 ^ 52 := by
  have positive : 0 < count := Nat.lt_of_lt_of_le (by decide) large
  have long : 53 ≤ count.log2 := (Nat.le_log2 (Nat.ne_of_gt positive)).mpr large
  have reached : 2 ^ count.log2 ≤ count := Nat.log2_self_le (Nat.ne_of_gt positive)
  have unit : max ((count.log2 : Int) - 52) Binary64.leastExponent = (count.log2 : Int) - 52 :=
    Int.max_eq_left (by unfold Binary64.leastExponent; omega)
  have biased : ((count.log2 : Int) - 52 - Binary64.leastExponent).toNat = count.log2 + 1022 := by
    unfold Binary64.leastExponent
    omega
  have shift : ((count.log2 : Int) - 52).toNat = count.log2 - 52 := by omega
  have rounded : 2 ^ 52 ≤ Binary64.roundHalfEven count (1 * 2 ^ (count.log2 - 52)) := by
    refine Nat.le_trans ?_ (le_roundHalfEven _ _)
    rw [Nat.one_mul, Nat.le_div_iff_mul_le (Nat.two_pow_pos _), ← Nat.pow_add]
    calc 2 ^ (52 + (count.log2 - 52))
      _ = 2 ^ count.log2 := by congr 1; omega
      _ ≤ count := reached
  unfold Binary64.ratioBits
  rw [if_neg (Nat.ne_of_gt positive), log2Ratio_one positive]
  dsimp only
  rw [unit, biased, if_pos (by omega), shift]
  simp only [Nat.pow_eq, Binary64.infinityBits]
  omega

theorem ofFloat_infinity : Binary64.ofFloat infinity = .infinite false :=
  rfl

/-- What is left of a whole number from 2^53 on when it is cut is no smaller. -/
theorem le_toInteger?_ofNat
    {whole : Int}
    (large : 2 ^ 53 ≤ count)
    (isWhole : toInteger? (ofNat count) = some whole) :
    2 ^ 53 ≤ whole := by
  obtain ⟨low, high⟩ := ratioBits_one_of_large large
  rcases Nat.lt_or_eq_of_le high with finite | infinite
  · have pattern :
        (UInt64.ofNat (Binary64.ratioBits count 1)).toNat = Binary64.ratioBits count 1 := by
      rw [UInt64.toNat_ofNat']
      omega
    have kept : (ofNat count).toBits = UInt64.ofNat (Binary64.ratioBits count 1) := by
      unfold ofNat Binary64.ofRatio
      dsimp only
      rw [if_neg Bool.false_ne_true, toBits_ofBits]
      rw [pattern]
      omega
    have pow52 : Nat.pow 2 52 = 2 ^ 52 := rfl
    have pow11 : Nat.pow 2 11 = 2 ^ 11 := rfl
    have pow63 : Nat.pow 2 63 = 2 ^ 63 := rfl
    have isFinite : Binary64.ofFloat (ofNat count) =
        .finite false (Binary64.ratioBits count 1 % 2 ^ 52 + 2 ^ 52)
          (Int.ofNat (Binary64.ratioBits count 1 / 2 ^ 52 % 2 ^ 11) - 1075) := by
      unfold Binary64.ofFloat
      rw [kept]
      unfold Binary64.ofBits
      dsimp only
      rw [pattern, pow52, pow11, pow63, if_neg (by omega), if_neg (by omega),
        decide_eq_false (by omega)]
    have magnitude : 2 ^ 53 ≤ wholeMagnitude (ofNat count) := by
      unfold wholeMagnitude
      rw [isFinite]
      unfold Binary64.ratio
      dsimp only
      rw [Int.ofNat_eq_natCast, if_pos (by omega), Nat.div_one]
      calc 2 ^ 53
        _ = 2 ^ 52 * 2 ^ 1 := rfl
        _ ≤ _ := Nat.mul_le_mul (Nat.le_add_left _ _)
          (Nat.pow_le_pow_right (by decide) (by omega))
    unfold toInteger? at isWhole
    rw [isFinite] at isWhole
    cases isWhole
    exact Int.ofNat_le.mpr magnitude
  · have isInfinite : ofNat count = infinity := by
      unfold ofNat Binary64.ofRatio
      dsimp only
      rw [if_neg Bool.false_ne_true, infinite]
      rfl
    unfold toInteger? at isWhole
    rw [isInfinite, ofFloat_infinity] at isWhole
    cases isWhole

/-- A whole number that fits is equal to no other one, even if that does not fit. -/
theorem ofNat_beq_ofNat_iff {other count : Nat} (fits : count < 2 ^ 53) :
    (ofNat other == ofNat count) = true ↔ other = count := by
  constructor
  · intro equal
    obtain ⟨isCount, -⟩ := (beq_ofNat_iff fits).mp equal
    rcases Nat.lt_or_ge other (2 ^ 53) with otherFits | large
    · rw [toInteger?_ofNat otherFits] at isCount
      exact Int.ofNat_inj.mp (Option.some.inj isCount)
    · have := le_toInteger?_ofNat large isCount
      omega
  · rintro rfl
    have compared : (ofNat other).toModel.unpack.compare (ofNat other).toModel.unpack =
        some .eq := by
      rcases Nat.eq_zero_or_pos other with rfl | isPositive
      · rfl
      · obtain ⟨_, isFinite⟩ := unpack_ofNat isPositive fits
        rw [isFinite]
        exact compare_finite_self
    change ((ofNat other).toModel.unpack.compare (ofNat other).toModel.unpack == some .eq) = true
    exact beq_iff_eq.mpr compared

end ScriptEngine.Number
