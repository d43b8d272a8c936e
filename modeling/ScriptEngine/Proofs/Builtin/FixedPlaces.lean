import ScriptEngine.Proofs.Builtin.RepeatedSearch
import ScriptEngine.Proofs.Number.RoundTrip

namespace ScriptEngine

open Float.Model

/-!
# Numbers with a set number of places

The exact decimal expansion of a double is a numeral.  It is cut behind some place, and the one
digit behind the cut decides whether the digits in front of it are one too few: the part that is
cut away reaches half a unit of the last place exactly if it starts with a digit from five on.
So the numeral that is left stands for the nearest multiple of that unit, and for the one further
from zero if two multiples are equally near.

A carry may run through all the digits and make the numeral longer, but it puts a one in front
of it, never a zero.
-/

namespace Number

/-- The exact value of a finite double. -/
def rational? (value : Float) : Option ℚ :=
  match Binary64.ofFloat value with
  | .finite negative significand exponent =>
      some (if negative then -(significand * 2 ^ exponent) else significand * 2 ^ exponent)
  | _ => none

/-- The value of a numeral with or without a minus sign. -/
def signedValue (negative : Bool) (numeral : Numeral) : ℚ :=
  if negative then -numeral.decimal.value else numeral.decimal.value

/-- A multiple of a unit is nearer to a value than all others; a tie goes away from zero. -/
def IsNearest (unit value : ℚ) (multiple : Int) : Prop :=
  ∀ other : Int, other ≠ multiple →
    |value - multiple * unit| < |value - other * unit| ∨
      |value - multiple * unit| = |value - other * unit| ∧ |other| < |multiple|

theorem IsNearest.neg
    {unit value : ℚ}
    {multiple : Int}
    (isNearest : IsNearest unit value multiple) :
    IsNearest unit (-value) (-multiple) := by
  intro other different
  have mirrored (count : Int) : |-value - count * unit| = |value - (-count : Int) * unit| := by
    rw [← abs_neg]
    congr 1
    push_cast
    ring
  rw [mirrored, mirrored, neg_neg, abs_neg, ← abs_neg other]
  exact isNearest (-other) (by omega)

/-- The value lies from half a unit below the multiple up to half a unit above it. -/
theorem isNearest_of_between
    {unit value : ℚ}
    {multiple : Nat}
    (positive : 0 < unit)
    (nonneg : 0 ≤ value)
    (atLeast : (multiple - 1 / 2) * unit ≤ value)
    (below : value < (multiple + 1 / 2) * unit) :
    IsNearest unit value multiple := by
  obtain ⟨count, rfl⟩ : ∃ count : ℚ, value = count * unit :=
    ⟨value / unit, (div_mul_cancel₀ value positive.ne').symm⟩
  have nonneg : 0 ≤ count := nonneg_of_mul_nonneg_left nonneg positive
  have atLeast : (multiple : ℚ) - 1 / 2 ≤ count := le_of_mul_le_mul_right atLeast positive
  have below : count < multiple + 1 / 2 := lt_of_mul_lt_mul_right below positive.le
  intro other different
  have distance (factor : Int) : |count * unit - factor * unit| = |count - factor| * unit := by
    rw [← sub_mul, abs_mul, abs_of_pos positive]
  rw [distance, distance, mul_lt_mul_iff_left₀ positive, mul_left_inj' positive.ne', Int.cast_natCast]
  have near : |count - multiple| ≤ 1 / 2 := abs_le.mpr ⟨by linarith, by linarith⟩
  rcases lt_or_gt_of_ne different with lower | higher
  · have further : (other : ℚ) + 1 ≤ multiple := by exact_mod_cast lower
    rw [abs_of_nonneg (by linarith : 0 ≤ count - other)]
    rcases lt_or_eq_of_le atLeast with inside | isTie
    · left
      exact abs_lt.mpr ⟨by linarith, by linarith⟩
    · rw [← isTie, sub_sub_cancel_left, abs_neg, abs_of_pos (by norm_num)]
      rcases lt_or_eq_of_le further with strictly | isNext
      · left
        linarith
      · right
        have isNext : other + 1 = multiple := by exact_mod_cast isNext
        have isPositive : 0 < multiple := by
          by_contra isZero
          obtain rfl : multiple = 0 := Nat.eq_zero_of_not_pos isZero
          norm_num at isTie
          linarith
        refine ⟨by linarith, ?_⟩
        rw [abs_of_nonneg (by omega), abs_of_nonneg (by omega)]
        omega
  · have further : (multiple : ℚ) + 1 ≤ other := by exact_mod_cast higher
    left
    rw [abs_of_nonpos (by linarith : count - other ≤ 0)]
    linarith

/-- A number of units and a part of one more are rounded by whether the part reaches a half. -/
theorem isNearest_rounded
    {unit : ℚ}
    {count part parts : Nat}
    (positive : 0 < unit)
    (isPart : part < parts) :
    IsNearest unit ((count + (part : ℚ) / parts) * unit)
      (if parts ≤ 2 * part then count + 1 else count : Nat) := by
  have partsPos : (0 : ℚ) < parts := by exact_mod_cast Nat.zero_lt_of_lt isPart
  have nonneg : (0 : ℚ) ≤ part / parts := by positivity
  split
  · rename_i reaches
    have half : (1 : ℚ) / 2 ≤ part / parts := by
      rw [div_le_div_iff₀ (by norm_num) partsPos]
      exact_mod_cast (by omega : 1 * parts ≤ part * 2)
    have below : (part : ℚ) / parts < 1 := by
      rw [div_lt_one partsPos]
      exact_mod_cast isPart
    refine isNearest_of_between positive (by positivity) ?_ ?_
    · refine mul_le_mul_of_nonneg_right ?_ positive.le
      push_cast
      linarith
    · refine mul_lt_mul_of_pos_right ?_ positive
      push_cast
      linarith
  · rename_i reachesNot
    have half : (part : ℚ) / parts < 1 / 2 := by
      rw [div_lt_div_iff₀ partsPos (by norm_num)]
      exact_mod_cast (by omega : part * 2 < 1 * parts)
    refine isNearest_of_between positive (by positivity) ?_ ?_
    · exact mul_le_mul_of_nonneg_right (by linarith) positive.le
    · exact mul_lt_mul_of_pos_right (by linarith) positive

/-! ## Digits -/

theorem digitsValue_append (front back : List Char) :
    digitsValue (front ++ back) = digitsValue front * 10 ^ back.length + digitsValue back := by
  rw [digitsValue_eq, Nat.ofDigitChars_append, Nat.ofDigitChars_eq_ofDigitChars_zero,
    ← digitsValue_eq, ← digitsValue_eq, Nat.mul_comm]

/-- The value of a single digit. -/
theorem digitsValue_singleton (digit : Char) : digitsValue [digit] = digit.toNat - 48 := by
  simp [digitsValue]

theorem digitsValue_cons (digit : Char) (rest : List Char) :
    digitsValue (digit :: rest) = (digit.toNat - 48) * 10 ^ rest.length + digitsValue rest := by
  rw [← List.singleton_append, digitsValue_append, digitsValue_singleton]

theorem isDigit_iff (digit : Char) :
    digit.isDigit = true ↔ 48 ≤ digit.toNat ∧ digit.toNat ≤ 57 := by
  rw [Char.isDigit, Bool.and_eq_true, decide_eq_true_eq, decide_eq_true_eq, ge_iff_le,
    UInt32.le_iff_toNat_le, UInt32.le_iff_toNat_le]
  exact Iff.rfl

theorem digitsValue_lt {digits : List Char} (allDigits : ∀ digit ∈ digits, digit.isDigit = true) :
    digitsValue digits < 10 ^ digits.length := by
  induction digits with
  | nil => exact Nat.one_pos
  | cons digit rest inductionHypothesis =>
      have below := inductionHypothesis fun other member => allDigits other (.tail _ member)
      have isDigit := (isDigit_iff digit).mp (allDigits digit (.head _))
      have single : digit.toNat - 48 ≤ 9 := by omega
      have bounded := Nat.mul_le_mul_right (10 ^ rest.length) single
      rw [digitsValue_cons, List.length_cons, Nat.pow_succ]
      omega

/-! ### Adding one -/

section AddOne

variable {digit : Char} {digits : List Char}

/-- The next digit of any digit but a nine. -/
theorem next_digit (isDigit : digit.isDigit = true) (notNine : digit ≠ '9') :
    (Char.ofNat (digit.toNat + 1)).toNat = digit.toNat + 1 ∧ digit.toNat + 1 ≤ 57 := by
  have bounds := (isDigit_iff digit).mp isDigit
  have below : digit.toNat ≠ 57 := fun same => notNine (Char.toNat_inj.mp same)
  have isValid : (digit.toNat + 1).isValidChar := .inl (by omega)
  refine ⟨?_, by omega⟩
  rw [Char.ofNat, dif_pos isValid]
  rfl

theorem isDigit_addOne (allDigits : ∀ digit ∈ digits, digit.isDigit = true) :
    ∀ digit ∈ addOne digits, digit.isDigit = true := by
  induction digits with
  | nil => simp [addOne]
  | cons digit rest inductionHypothesis =>
      obtain ⟨isDigit, restDigits⟩ := List.forall_mem_cons.mp allDigits
      rw [addOne]
      split
      · exact List.forall_mem_cons.mpr ⟨rfl, inductionHypothesis restDigits⟩
      · rename_i notNine
        obtain ⟨isNext, bounded⟩ := next_digit isDigit notNine
        have bounds := (isDigit_iff digit).mp isDigit
        exact List.forall_mem_cons.mpr ⟨(isDigit_iff _).mpr (by omega), restDigits⟩

theorem digitsValue_addOne (allDigits : ∀ digit ∈ digits, digit.isDigit = true) :
    digitsValue (addOne digits).reverse = digitsValue digits.reverse + 1 := by
  induction digits with
  | nil => rfl
  | cons digit rest inductionHypothesis =>
      obtain ⟨isDigit, restDigits⟩ := List.forall_mem_cons.mp allDigits
      rw [addOne]
      split
      · rename_i isNine
        rw [isNine, List.reverse_cons, List.reverse_cons, digitsValue_append, digitsValue_append,
          inductionHypothesis restDigits]
        change (digitsValue rest.reverse + 1) * 10 + 0 = digitsValue rest.reverse * 10 + 9 + 1
        omega
      · rename_i notNine
        obtain ⟨isNext, bounded⟩ := next_digit isDigit notNine
        have bounds := (isDigit_iff digit).mp isDigit
        rw [List.reverse_cons, List.reverse_cons, digitsValue_append, digitsValue_append,
          digitsValue_singleton, digitsValue_singleton, isNext, Nat.add_assoc]
        congr 1
        omega

theorem length_le_length_addOne (digits : List Char) : digits.length ≤ (addOne digits).length := by
  induction digits with
  | nil => exact Nat.zero_le _
  | cons digit rest inductionHypothesis =>
      rw [addOne]
      split
      · exact Nat.succ_le_succ inductionHypothesis
      · exact Nat.le_refl _

theorem addOne_ne_nil (digits : List Char) : addOne digits ≠ [] := by
  cases digits with
  | nil => exact nofun
  | cons =>
      rw [addOne]
      split
      · exact nofun
      · exact nofun

/-- Where a zero stands in front afterwards it stood there before, and no carry has left the
digits. -/
theorem getLast?_addOne
    (allDigits : ∀ digit ∈ digits, digit.isDigit = true)
    (isZero : (addOne digits).getLast? = some '0') :
    digits.getLast? = some '0' ∧ (addOne digits).length = digits.length := by
  induction digits with
  | nil => cases isZero
  | cons digit rest inductionHypothesis =>
      obtain ⟨isDigit, restDigits⟩ := List.forall_mem_cons.mp allDigits
      rw [addOne] at isZero ⊢
      split at isZero
      · rename_i isNine
        rw [List.getLast?_cons_of_ne_nil (addOne_ne_nil rest)] at isZero
        obtain ⟨wasZero, sameLength⟩ := inductionHypothesis restDigits isZero
        rw [if_pos isNine, List.getLast?_cons, wasZero, List.length_cons, sameLength]
        exact ⟨rfl, rfl⟩
      · rename_i notNine
        rw [if_neg notNine]
        refine ⟨?_, rfl⟩
        cases rest with
        | nil =>
            obtain ⟨isNext, -⟩ := next_digit isDigit notNine
            have bounds := (isDigit_iff digit).mp isDigit
            rw [List.getLast?_singleton, Option.some.injEq] at isZero
            rw [isZero] at isNext
            have isNext : 48 = digit.toNat + 1 := isNext
            omega
        | cons => exact isZero

end AddOne

/-! ## The exact expansion -/

section Expansion

variable {significand : Nat} {exponent : Int} {whole fraction : List Char}

/-- The denominator of a double divides the power of ten that its expansion goes up to. -/
theorem denominator_dvd (least : -1074 ≤ exponent) :
    (Binary64.ratio significand exponent).2 ∣ 10 ^ expansionPlaces := by
  unfold Binary64.ratio
  split
  · exact Nat.one_dvd _
  · have bounded : (-exponent).toNat ≤ expansionPlaces := by
      unfold expansionPlaces
      omega
    calc 2 ^ (-exponent).toNat
        _ ∣ 2 ^ expansionPlaces := Nat.pow_dvd_pow 2 bounded
        _ ∣ 10 ^ expansionPlaces := pow_dvd_pow_of_dvd (by decide) _

/-- Division that is carried on for some places, and then leaves nothing. -/
theorem longDivision_exact
    {numerator denominator places : Nat}
    (positive : 0 < denominator)
    (divides : denominator ∣ 10 ^ places) :
    numerator % denominator * 10 ^ places / denominator < 10 ^ places ∧
      (numerator / denominator * 10 ^ places +
        numerator % denominator * 10 ^ places / denominator) * denominator =
          numerator * 10 ^ places := by
  have isExact : numerator % denominator * 10 ^ places / denominator * denominator =
      numerator % denominator * 10 ^ places :=
    Nat.div_mul_cancel (Dvd.dvd.mul_left divides _)
  constructor
  · refine Nat.lt_of_mul_lt_mul_right (a := denominator) ?_
    rw [isExact, Nat.mul_comm _ denominator]
    exact Nat.mul_lt_mul_of_pos_right (Nat.mod_lt _ positive) (by positivity)
  · rw [Nat.add_mul, isExact, Nat.mul_right_comm, ← Nat.add_mul, Nat.div_add_mod']

/-- A number of at most so many places is written with exactly so many. -/
theorem length_paddedDigits
    {count places : Nat}
    (positive : 0 < places)
    (fits : count < 10 ^ places) :
    (List.replicate (places - (digitsText count).length) '0' ++ digitsText count).length =
      places := by
  have short : (digitsText count).length ≤ places :=
    (Nat.length_toDigits_le_iff (by decide) positive).mpr fits
  rw [List.length_append, List.length_replicate]
  omega

/-- The expansion of a double is a proper numeral that stands for exactly this double. -/
theorem expansion_exact
    (least : -1074 ≤ exponent)
    (expands : expansion significand exponent = (whole, fraction)) :
    (Numeral.mk whole fraction none).IsProper ∧ fraction.length = expansionPlaces ∧
      (Numeral.mk whole fraction none).decimal.value = significand * 2 ^ exponent := by
  obtain ⟨positive, isRatio⟩ := Binary64.ratio_eq significand exponent
  have divides : (Binary64.ratio significand exponent).2 ∣ 10 ^ expansionPlaces :=
    denominator_dvd least
  rw [← isRatio]
  unfold expansion at expands
  generalize Binary64.ratio significand exponent = ratio at *
  obtain ⟨numerator, denominator⟩ := ratio
  simp only [Nat.pow_eq, Prod.mk.injEq] at expands positive divides ⊢
  obtain ⟨rfl, rfl⟩ := expands
  generalize isBehind : numerator % denominator * 10 ^ expansionPlaces / denominator = behind
  obtain ⟨short, scaled⟩ := @longDivision_exact numerator _ _ positive divides
  rw [isBehind] at short scaled
  have isLength := length_paddedDigits (by decide : 0 < expansionPlaces) short
  refine ⟨⟨Nat.toDigits_ne_nil, fun _ => isDigit_digitsText, ?_, ?_, nofun⟩, isLength, ?_⟩
  · intro leading
    rcases Nat.eq_zero_or_pos (numerator / denominator) with isZero | isPositive
    · rw [isZero]
      rfl
    · exact absurd leading (head_digitsText isPositive)
  · intro digit member
    rcases List.mem_append.mp member with isZero | isDigit
    · rw [List.eq_of_mem_replicate isZero]
      rfl
    · exact isDigit_digitsText isDigit
  · have denominatorPos : (denominator : ℚ) ≠ 0 := by exact_mod_cast positive.ne'
    simp only [Numeral.decimal, Numeral.shift, Decimal.value]
    rw [digitsValue_append, digitsValue_digitsText, digitsValue_leading_zeros,
      digitsValue_digitsText, isLength, zero_sub, zpow_neg, zpow_natCast, ← div_eq_mul_inv,
      div_eq_div_iff (by positivity) denominatorPos]
    exact_mod_cast scaled

end Expansion

/-! ## Rounding an expansion -/

section Rounded

variable {whole front behind digits : List Char} {next : Char}

/-- Digits reach half of what they can stand for exactly if the first of them is at least a five. -/
theorem reachesHalf_iff (allDigits : ∀ digit ∈ next :: behind, digit.isDigit = true) :
    10 ^ (next :: behind).length ≤ 2 * digitsValue (next :: behind) ↔ '5' ≤ next := by
  obtain ⟨isDigit, behindDigits⟩ := List.forall_mem_cons.mp allDigits
  have atLeast := ((isDigit_iff next).mp isDigit).1
  have below := digitsValue_lt behindDigits
  have isOrder : '5' ≤ next ↔ 5 ≤ next.toNat - 48 :=
    (show '5' ≤ next ↔ 53 ≤ next.toNat from Iff.rfl).trans (by omega)
  rw [isOrder, digitsValue_cons, List.length_cons, Nat.pow_succ]
  constructor
  · intro reaches
    by_contra small
    have := Nat.mul_le_mul_right (10 ^ behind.length) (by omega : next.toNat - 48 ≤ 4)
    omega
  · intro large
    have := Nat.mul_le_mul_right (10 ^ behind.length) large
    omega

/-- What is kept of an expansion is decided by the digit behind it. -/
theorem keptDigits_eq (whole front : List Char) (next : Char) (behind : List Char) :
    keptDigits whole (front ++ next :: behind) front.length =
      if '5' ≤ next then (addOne (whole ++ front).reverse).reverse else whole ++ front := by
  simp [keptDigits]

/-- The digits that are kept stand for the nearest multiple of a unit of their last place. -/
theorem isNearest_keptDigits
    (wholeDigits : ∀ digit ∈ whole, digit.isDigit = true)
    (fractionDigits : ∀ digit ∈ front ++ next :: behind, digit.isDigit = true) :
    IsNearest (10 ^ (-(front.length : Int)))
      (Numeral.mk whole (front ++ next :: behind) none).decimal.value
      (digitsValue (keptDigits whole (front ++ next :: behind) front.length) : Nat) := by
  obtain ⟨frontDigits, restDigits⟩ := List.forall_mem_append.mp fractionDigits
  have keptAll : ∀ digit ∈ (whole ++ front).reverse, digit.isDigit = true := by
    simp only [List.mem_reverse, List.forall_mem_append]
    exact ⟨wholeDigits, frontDigits⟩
  have isValue :
      (Numeral.mk whole (front ++ next :: behind) none).decimal.value =
        (digitsValue (whole ++ front) +
          (digitsValue (next :: behind) : ℚ) / (10 ^ (next :: behind).length : Nat)) *
            10 ^ (-(front.length : Int)) := by
    have power : (0 : Int) - (front ++ next :: behind).length =
        -((next :: behind).length : Int) + -(front.length : Int) := by
      rw [List.length_append]
      omega
    simp only [Numeral.decimal, Numeral.shift, Decimal.value]
    rw [← List.append_assoc, digitsValue_append, power, zpow_add₀ (by norm_num), zpow_neg,
      zpow_natCast, ← mul_assoc]
    push_cast
    field_simp
  have isKept :
      digitsValue (keptDigits whole (front ++ next :: behind) front.length) =
        if 10 ^ (next :: behind).length ≤ 2 * digitsValue (next :: behind) then
          digitsValue (whole ++ front) + 1
        else digitsValue (whole ++ front) := by
    rw [keptDigits_eq]
    simp only [reachesHalf_iff restDigits]
    split
    · rw [digitsValue_addOne keptAll, List.reverse_reverse]
    · rfl
  rw [isValue, isKept]
  exact isNearest_rounded (by positivity) (digitsValue_lt restDigits)

/-- The digits that are kept are digits, at least as many as there were, and there is no needless
zero in front of them. -/
theorem keptDigits_proper
    (proper : (Numeral.mk whole (front ++ next :: behind) none).IsProper)
    (isKept : keptDigits whole (front ++ next :: behind) front.length = digits) :
    (∀ digit ∈ digits, digit.isDigit = true) ∧ whole.length + front.length ≤ digits.length ∧
      (digits.head? = some '0' → digits.length = 1 + front.length) := by
  have keptAll : ∀ digit ∈ whole ++ front, digit.isDigit = true := by
    rw [List.forall_mem_append]
    exact ⟨proper.whole, (List.forall_mem_append.mp proper.fraction).1⟩
  have zeroAlone (isZero : (whole ++ front).head? = some '0') :
      (whole ++ front).length = 1 + front.length := by
    rw [List.head?_append_of_ne_nil _ proper.nonEmpty] at isZero
    have isAlone : whole = ['0'] := proper.leading isZero
    rw [List.length_append, isAlone]
    rfl
  rw [keptDigits_eq] at isKept
  split at isKept
  · have reversedAll : ∀ digit ∈ (whole ++ front).reverse, digit.isDigit = true := by
      simpa only [List.mem_reverse] using keptAll
    subst isKept
    refine ⟨?_, ?_, ?_⟩
    · simpa only [List.mem_reverse] using isDigit_addOne reversedAll
    · have longer := length_le_length_addOne (whole ++ front).reverse
      simpa only [List.length_reverse, List.length_append] using longer
    · intro isZero
      rw [List.head?_reverse] at isZero
      obtain ⟨wasZero, sameLength⟩ := getLast?_addOne reversedAll isZero
      rw [List.getLast?_reverse] at wasZero
      rw [List.length_reverse, sameLength, List.length_reverse]
      exact zeroAlone wasZero
  · subst isKept
    exact ⟨keptAll, (List.length_append).ge, zeroAlone⟩

/-- The point is put where the digits in front of it are a proper whole part. -/
theorem placePoint_writes
    {places : Nat}
    (allDigits : ∀ digit ∈ digits, digit.isDigit = true)
    (longer : places < digits.length)
    (leading : digits.head? = some '0' → digits.length = 1 + places) :
    ∃ numeral : Numeral,
      numeral.text = placePoint digits places ∧ numeral.IsProper ∧ numeral.exponent = none ∧
        numeral.fraction.length = places ∧
          numeral.decimal.value = digitsValue digits * 10 ^ (-(places : Int)) := by
  have isLength : (digits.drop (digits.length - places)).length = places := by
    rw [List.length_drop]
    omega
  refine ⟨⟨digits.take (digits.length - places), digits.drop (digits.length - places), none⟩,
    ?_, ⟨?_, ?_, ?_, ?_, nofun⟩, rfl, isLength, ?_⟩
  · simp only [Numeral.text, Numeral.pointed, Numeral.scaled, placePoint, List.append_nil,
      List.isEmpty_iff_length_eq_zero, isLength]
  · rw [Ne, List.take_eq_nil_iff, ← List.length_eq_zero_iff]
    omega
  · exact fun digit member => allDigits digit (List.mem_of_mem_take member)
  · intro isZero
    rw [List.head?_take, if_neg (by omega)] at isZero
    obtain ⟨first, rest, rfl⟩ := List.exists_cons_of_length_pos (Nat.zero_lt_of_lt longer)
    obtain rfl : first = '0' := by simpa using isZero
    rw [leading rfl, Nat.add_sub_cancel]
    rfl
  · exact fun digit member => allDigits digit (List.mem_of_mem_drop member)
  · simp only [Numeral.decimal, Numeral.shift, Decimal.value, isLength, zero_sub,
      List.take_append_drop]

end Rounded

/-! ## The text of a number -/

section Text

variable {value : Float} {exact : ℚ} {places : Nat}

/-- A finite double is below zero exactly if its exact value is. -/
theorem lt_zero_iff (isExact : rational? value = some exact) : value < 0 ↔ exact < 0 := by
  rw [lt_iff, unpack_zero]
  unfold rational? at isExact
  rw [ofFloat_eq_ofUnpacked] at isExact
  cases isValue : value.toModel.unpack with
  | infinity sign | notANumber =>
      rw [isValue] at isExact
      cases isExact
  | zero sign =>
      rw [isValue] at isExact
      have isZero : (if sign == .negative then -(((0 : Nat) : ℚ) * 2 ^ Binary64.leastExponent)
          else ((0 : Nat) : ℚ) * 2 ^ Binary64.leastExponent) = exact :=
        Option.some.inj isExact
      rw [Nat.cast_zero, zero_mul, neg_zero, ite_self] at isZero
      exact iff_of_false nofun isZero.not_gt
  | finite sign significand exponent positive =>
      have isPositive : (0 : ℚ) < significand * 2 ^ exponent := by positivity
      rw [isValue] at isExact
      cases sign with
      | positive =>
          obtain rfl : significand * 2 ^ exponent = exact := Option.some.inj isExact
          exact iff_of_false nofun (not_lt.mpr isPositive.le)
      | negative =>
          obtain rfl : -(significand * 2 ^ exponent) = exact := Option.some.inj isExact
          exact iff_of_true rfl (neg_neg_of_pos isPositive)

/-- The magnitude of a finite double is a multiple of a power of two. -/
theorem abs_of_exact (isExact : rational? value = some exact) :
    ∃ negative significand exponent,
      Binary64.ofFloat value = .finite negative significand exponent ∧
        -1074 ≤ exponent ∧ |exact| = significand * 2 ^ exponent := by
  unfold rational? at isExact
  split at isExact
  · rename_i negative significand exponent finite
    have isMagnitude : (0 : ℚ) ≤ significand * 2 ^ exponent := by positivity
    obtain rfl := Option.some.inj isExact
    refine ⟨negative, significand, exponent, finite, ?_, ?_⟩
    · rcases (Binary64.bits_of_finite finite).1 with ⟨-, rfl⟩ | canonical
      · exact le_refl _
      · exact canonical.least
    · split
      · rw [abs_neg, abs_of_nonneg isMagnitude]
      · exact abs_of_nonneg isMagnitude
  · cases isExact

/-- A double below the limit of positional writing has the text of its nearest multiple. -/
theorem fixedText_rounds
    (isExact : rational? value = some exact)
    (belowLimit : |exact| < 10 ^ 21)
    (inRange : places < expansionPlaces) :
    ∃ (multiple : Int) (numeral : Numeral),
      fixedText value places = String.ofList (signed (value < 0) numeral) ∧ numeral.IsProper ∧
        numeral.exponent = none ∧ numeral.fraction.length = places ∧
          signedValue (value < 0) numeral = multiple * 10 ^ (-(places : Int)) ∧
            IsNearest (10 ^ (-(places : Int))) exact multiple := by
  obtain ⟨negative, significand, exponent, finite, least, isMagnitude⟩ := abs_of_exact isExact
  obtain ⟨denominatorPos, isRatio⟩ := Binary64.ratio_eq significand exponent
  have notLarge :
      ¬ (Binary64.ratio significand exponent).2 * Nat.pow 10 21 ≤
        (Binary64.ratio significand exponent).1 := by
    rw [isMagnitude, ← isRatio, div_lt_iff₀ (by exact_mod_cast denominatorPos)] at belowLimit
    rw [Nat.pow_eq, Nat.not_le, Nat.mul_comm]
    exact_mod_cast belowLimit
  obtain ⟨whole, fraction, expands⟩ :
      ∃ whole fraction, expansion significand exponent = (whole, fraction) := ⟨_, _, rfl⟩
  obtain ⟨proper, isLength, isExpanded⟩ := expansion_exact least expands
  obtain ⟨front, next, behind, rfl, rfl⟩ :
      ∃ front next behind, fraction = front ++ next :: behind ∧ front.length = places := by
    have inside : places < fraction.length := isLength ▸ inRange
    refine ⟨_, _, _, (List.take_append_drop places _).symm.trans
      (congrArg _ (List.drop_eq_getElem_cons inside)), ?_⟩
    rw [List.length_take, Nat.min_eq_left inside.le]
  obtain ⟨allDigits, longer, leading⟩ := keptDigits_proper proper rfl
  have isNearest : IsNearest _ _ (digitsValue (keptDigits whole _ _) : Nat) :=
    isNearest_keptDigits proper.whole proper.fraction
  rw [isExpanded, ← isMagnitude] at isNearest
  have wholePos : 0 < whole.length := List.length_pos_iff.mpr proper.nonEmpty
  obtain ⟨numeral, isText, isProper, noExponent, isPlaces, isValue⟩ :=
    placePoint_writes allDigits (by omega) leading
  have isFixed : fixedText value front.length = String.ofList (signed (value < 0) numeral) := by
    rw [fixedText, finite]
    simp only [if_neg notLarge, expands, ← isText, signed, decide_eq_true_eq]
  generalize digitsValue (keptDigits whole _ _) = count at isNearest isValue
  by_cases isNegative : value < 0
  · refine ⟨-count, numeral, isFixed, isProper, noExponent, isPlaces, ?_, ?_⟩
    · rw [signedValue, if_pos (decide_eq_true isNegative), isValue]
      push_cast
      ring
    · rw [← neg_neg exact, ← abs_of_neg ((lt_zero_iff isExact).mp isNegative)]
      exact isNearest.neg
  · refine ⟨count, numeral, isFixed, isProper, noExponent, isPlaces, ?_, ?_⟩
    · rw [signedValue, if_neg (by simpa using isNegative), isValue, Int.cast_natCast]
    · rw [← abs_of_nonneg (not_lt.mp (mt (lt_zero_iff isExact).mpr isNegative))]
      exact isNearest

end Text

end Number

namespace Run

theorem toInteger_ofNat
    (call : Caller)
    {count : Nat}
    (machine : Machine)
    (fits : count < 2 ^ 53) :
    toInteger call (.ofNat count) machine = .ok (Number.ofNat count) machine := by
  have converts : toNumber call (.ofNat count) machine = .ok (Number.ofNat count) machine := rfl
  rw [toInteger, bind_of_ok converts, Number.isNaN_ofNat fits, Number.truncate_ofNat fits]
  rfl

/-- Up to a hundred places are written. -/
theorem toFixed_of_places
    (call : Caller)
    (value : Float)
    {places : Nat}
    (machine : Machine)
    (inRange : places ≤ 100) :
    Builtin.toFixed.run call (.number value) [.ofNat places] machine =
      .ok (.string (Number.fixedText value places)) machine := by
  have fits : places < 2 ^ 53 := Nat.lt_of_le_of_lt inRange (by decide)
  have notAbove : ¬ Number.ofNat places > 100 := by
    have all : ∀ places < 101, ¬ Number.ofNat places > 100 := by decide +kernel
    exact all places (Nat.lt_succ_of_le inRange)
  have isPlaces : toInteger call (argument [.ofNat places] 0) machine =
      .ok (Number.ofNat places) machine :=
    toInteger_ofNat call machine fits
  change Run.toFixed call (.number value) [.ofNat places] machine = _
  unfold toFixed
  have receives : receivingNumber "toFixed" (.number value) machine = .ok value machine := rfl
  rw [bind_of_ok receives, bind_of_ok isPlaces, if_neg]
  · rw [Number.wholeMagnitude_ofNat fits]
    rfl
  · simp [Number.not_ofNat_lt_zero fits, notAbove]

/-- `toFixed` rounds exactly.  For every finite double below 10^21 in magnitude and up to a hundred
places, it gives a proper numeral with that many fraction digits, with a minus sign exactly if the
double is below zero; with its sign, the numeral stands for the multiple of a unit of the last place
that is nearest to the exact value, a tie going away from zero. -/
theorem toFixed_rounds_exactly
    (call : Caller)
    {value : Float}
    {exact : ℚ}
    {places : Nat}
    (machine : Machine)
    (isExact : Number.rational? value = some exact)
    (belowLimit : |exact| < 10 ^ 21)
    (inRange : places ≤ 100) :
    ∃ (multiple : Int) (negative : Bool) (numeral : Number.Numeral),
      Builtin.toFixed.run call (.number value) [.ofNat places] machine =
          .ok (.string (String.ofList (Number.signed negative numeral))) machine ∧
        (negative = true ↔ value < 0) ∧ (negative = true ↔ exact < 0) ∧
        numeral.IsProper ∧ numeral.exponent = none ∧ numeral.fraction.length = places ∧
        Number.signedValue negative numeral = multiple * 10 ^ (-(places : Int)) ∧
        Number.IsNearest (10 ^ (-(places : Int))) exact multiple := by
  obtain ⟨multiple, numeral, isText, parts⟩ :=
    Number.fixedText_rounds isExact belowLimit
      (Nat.lt_of_le_of_lt inRange (by decide : 100 < Number.expansionPlaces))
  have isNegative : decide (value < 0) = true ↔ value < 0 := decide_eq_true_iff
  refine ⟨multiple, decide (value < 0), numeral, ?_, isNegative,
    isNegative.trans (Number.lt_zero_iff isExact), parts⟩
  rw [toFixed_of_places call value machine inRange, isText]

/-- Minus nine and a half is a tie, and its carry makes the numeral longer. -/
theorem toFixed_rounds_exactly_of_tie :
    Number.rational? (.ofBits 0xC023000000000000) = some (-19 / 2) ∧ |(-19 / 2 : ℚ)| < 10 ^ 21 ∧
      0 ≤ 100 ∧
        ∃ (multiple : Int) (negative : Bool) (numeral : Number.Numeral),
          Builtin.toFixed.run (callUpTo 0) (.number (.ofBits 0xC023000000000000)) [.ofNat 0]
              (Machine.bare 0) =
            .ok (.string (String.ofList (Number.signed negative numeral))) (Machine.bare 0) ∧
          (negative = true ↔ Float.ofBits 0xC023000000000000 < 0) ∧
          (negative = true ↔ (-19 / 2 : ℚ) < 0) ∧
          numeral.IsProper ∧ numeral.exponent = none ∧ numeral.fraction.length = 0 ∧
          Number.signedValue negative numeral = multiple * 10 ^ (-((0 : Nat) : Int)) ∧
          Number.IsNearest (10 ^ (-((0 : Nat) : Int))) (-19 / 2) multiple := by
  have isExact : Number.rational? (.ofBits 0xC023000000000000) = some (-19 / 2) := by
    have finite : Number.Binary64.ofFloat (.ofBits 0xC023000000000000) =
        .finite true (19 * 2 ^ 48) (-49) := by
      decide +kernel
    unfold Number.rational?
    rw [finite]
    norm_num
  have belowLimit : |(-19 / 2 : ℚ)| < 10 ^ 21 := by norm_num
  have inRange : 0 ≤ 100 := Nat.zero_le 100
  exact ⟨isExact, belowLimit, inRange,
    toFixed_rounds_exactly (callUpTo 0) (Machine.bare 0) isExact belowLimit inRange⟩

example : Number.fixedText (.ofBits 0xC023000000000000) 0 = "-10" := by decide +kernel

end Run

end ScriptEngine
