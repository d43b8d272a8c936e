import ScriptEngine.Proofs.Number.Rounding
import ScriptEngine.Proofs.Number.Whole

namespace ScriptEngine.Number

/-!
# Numbers that read back

The text of a finite number is a sign and a numeral, and reading it gives a number equal to
the one written.  Only the sign of a zero is lost.
-/

variable {numerator denominator count : Nat} {digits : List Char}

/-!
## The digits of a double read back

The search for the shortest decimal of a double ends with a decimal in its rounding
interval: either a grid held one, or the nearest decimal of seventeen digits is near
enough.
-/

namespace Shortest

/-- Whether a decimal lies in a rounding interval is found out without dividing. -/
theorem holds_iff (bounds : Interval) (decimal : Decimal) :
    bounds.holds decimal = true ↔ bounds.Holds decimal.value := by
  obtain ⟨denominatorPos, isValue⟩ := decimal.ratio_eq
  obtain ⟨scalePos, isScale⟩ := Binary64.ratio_eq 1 bounds.exponent
  rw [Nat.cast_one, one_mul] at isScale
  have denominatorPos' : (0 : ℚ) < decimal.ratio.2 := by exact_mod_cast denominatorPos
  have scalePos' : (0 : ℚ) < (Binary64.ratio 1 bounds.exponent).2 := by exact_mod_cast scalePos
  have atLeast (bound : Nat) : bound * 2 ^ bounds.exponent ≤ decimal.value ↔
      bound * (Binary64.ratio 1 bounds.exponent).1 * decimal.ratio.2 ≤
        decimal.ratio.1 * (Binary64.ratio 1 bounds.exponent).2 := by
    rw [← isValue, ← isScale, ← mul_div_assoc, div_le_div_iff₀ scalePos' denominatorPos']
    exact_mod_cast Iff.rfl
  have atMost (bound : Nat) : decimal.value ≤ bound * 2 ^ bounds.exponent ↔
      decimal.ratio.1 * (Binary64.ratio 1 bounds.exponent).2 ≤
        bound * (Binary64.ratio 1 bounds.exponent).1 * decimal.ratio.2 := by
    rw [← isValue, ← isScale, ← mul_div_assoc, div_le_div_iff₀ denominatorPos' scalePos']
    exact_mod_cast Iff.rfl
  have above (bound : Nat) : bound * 2 ^ bounds.exponent < decimal.value ↔
      bound * (Binary64.ratio 1 bounds.exponent).1 * decimal.ratio.2 <
        decimal.ratio.1 * (Binary64.ratio 1 bounds.exponent).2 := by
    rw [← not_le, atMost, not_le]
  have below (bound : Nat) : decimal.value < bound * 2 ^ bounds.exponent ↔
      decimal.ratio.1 * (Binary64.ratio 1 bounds.exponent).2 <
        bound * (Binary64.ratio 1 bounds.exponent).1 * decimal.ratio.2 := by
    rw [← not_le, atLeast, not_le]
  unfold Interval.holds Interval.Holds
  cases closed : bounds.closed with
  | true => simp [atLeast, atMost]
  | false =>
      simp only [atLeast, atMost, above, below, Bool.false_eq_true, if_false, Bool.and_eq_true,
        decide_eq_true_eq, true_implies]
      omega

/-- The nearer one of the two neighbours of a quotient on a decimal grid. -/
def nearest (numerator denominator : Nat) (power : Int) : Nat :=
  if (below numerator denominator power).2 then (below numerator denominator power).1 + 1
  else (below numerator denominator power).1

theorem nearest_within {scaled unit : Nat} (unitPos : 0 < unit) :
    |(((if unit < 2 * (scaled % unit) ||
          (2 * (scaled % unit) == unit && scaled / unit % 2 == 1) then scaled / unit + 1
        else scaled / unit : Nat) : ℚ) - scaled / unit)| ≤ 1 / 2 := by
  have parts := Nat.div_add_mod scaled unit
  have remainder := Nat.mod_lt scaled unitPos
  obtain ⟨whole, isWhole⟩ : ∃ whole, scaled / unit = whole := ⟨_, rfl⟩
  obtain ⟨rest, isRest⟩ : ∃ rest, scaled % unit = rest := ⟨_, rfl⟩
  rw [isWhole, isRest] at parts
  rw [isRest] at remainder
  have unitPos' : (0 : ℚ) < unit := by exact_mod_cast unitPos
  have quotient : (scaled : ℚ) / unit = whole + rest / unit := by
    rw [← parts]
    push_cast
    field_simp
  rw [isWhole, isRest, quotient]
  split
  · rename_i isUp
    have atLeast : (1 : ℚ) / 2 ≤ rest / unit := by
      rw [le_div_iff₀ unitPos']
      have : unit ≤ 2 * rest := by
        simp only [Bool.or_eq_true, decide_eq_true_eq, Bool.and_eq_true, beq_iff_eq] at isUp
        omega
      have : (unit : ℚ) ≤ 2 * rest := by exact_mod_cast this
      linarith
    have atMost : (rest : ℚ) / unit ≤ 1 := by
      rw [div_le_one unitPos']
      exact_mod_cast remainder.le
    rw [abs_le]
    push_cast
    constructor <;> linarith
  · rename_i notUp
    have nonneg : (0 : ℚ) ≤ rest / unit := by positivity
    have atMost : (rest : ℚ) / unit ≤ 1 / 2 := by
      rw [div_le_iff₀ unitPos']
      have : 2 * rest ≤ unit := by
        simp only [Bool.or_eq_true, decide_eq_true_eq, Bool.and_eq_true, beq_iff_eq] at notUp
        omega
      have : (2 * rest : ℚ) ≤ unit := by exact_mod_cast this
      linarith
    rw [abs_le]
    constructor <;> linarith

/-- The nearer neighbour is at most half a step of the grid away. -/
theorem nearest_near
    (power : Int)
    (denominatorPos : 0 < denominator) :
    |(nearest numerator denominator power : ℚ) * 10 ^ power - numerator / denominator| ≤
      10 ^ power / 2 := by
  have stepPos : (0 : ℚ) < 10 ^ power := by positivity
  have inSteps : |(nearest numerator denominator power : ℚ) -
      numerator / denominator / 10 ^ power| ≤ 1 / 2 := by
    by_cases nonneg : 0 ≤ power
    · have quotient : (numerator : ℚ) / denominator / 10 ^ power =
          numerator / (denominator * 10 ^ power.toNat : Nat) := by
        rw [Binary64.zpow_of_nonneg 10 nonneg, div_div]
        push_cast
        rfl
      rw [quotient]
      simp only [nearest, below, if_pos nonneg]
      exact nearest_within (Nat.mul_pos denominatorPos (Nat.pow_pos (by decide)))
    · have quotient : (numerator : ℚ) / denominator / 10 ^ power =
          (numerator * 10 ^ (-power).toNat : Nat) / denominator := by
        rw [Binary64.zpow_of_neg 10 nonneg, div_inv_eq_mul, div_mul_eq_mul_div]
        push_cast
        rfl
      rw [quotient]
      simp only [nearest, below, if_neg nonneg]
      exact nearest_within denominatorPos
  have factored : (nearest numerator denominator power : ℚ) * 10 ^ power -
      numerator / denominator =
      (nearest numerator denominator power - numerator / denominator / 10 ^ power) *
        10 ^ power := by
    rw [sub_mul, div_mul_cancel₀ _ stepPos.ne']
  rw [factored, abs_mul, abs_of_pos stepPos]
  calc _ ≤ 1 / 2 * (10 : ℚ) ^ power := by gcongr
    _ = 10 ^ power / 2 := by ring

theorem reachesTenPower_iff
    {power : Int}
    (denominatorPos : 0 < denominator) :
    reachesTenPower numerator denominator power = true ↔
      (10 : ℚ) ^ power ≤ numerator / denominator := by
  rw [reachesTenPower, ← @Nat.cast_ofNat ℚ 10, ← Binary64.reaches_iff denominatorPos (by decide)]
  split <;> simp

/-- The powers of ten that the powers of two of doubles reach, to one power. -/
theorem pow_ten_le_mul_pow_two :
    ∀ power < 1024, 10 ^ (power * 30103 / 100000) ≤ 10 * 2 ^ power := by
  decide +kernel

@[inherit_doc pow_ten_le_mul_pow_two]
theorem pow_two_le_mul_pow_ten :
    ∀ power < 1075, 2 ^ power ≤ 10 * 10 ^ ((power * 30103 + 99999) / 100000) := by
  decide +kernel

theorem pow_ten_le_pow_two {power : Int} (least : -1075 < power) (greatest : power < 1024) :
    (10 : ℚ) ^ (power * 30103 / 100000 - 1) ≤ 2 ^ power := by
  rw [zpow_sub_one₀ (by norm_num), ← div_eq_mul_inv, div_le_iff₀ (by norm_num)]
  obtain ⟨size, rfl | rfl⟩ := Int.eq_nat_or_neg power
  · have bound := pow_ten_le_mul_pow_two size (by omega)
    rw [Nat.mul_comm 10] at bound
    exact_mod_cast bound
  · have bound := pow_two_le_mul_pow_ten size (by omega)
    have shifted : -(size : Int) * 30103 / 100000 = -((size * 30103 + 99999) / 100000 : Nat) := by
      omega
    rw [shifted, zpow_neg, zpow_neg, zpow_natCast, zpow_natCast, inv_mul_eq_div,
      le_div_iff₀ (by positivity), inv_mul_le_iff₀ (by positivity), mul_comm _ (10 : ℚ)]
    exact_mod_cast bound

/-- A quotient reaches the power of ten below its magnitude. -/
theorem pow_magnitude_le
    (numeratorPos : 0 < numerator)
    (denominatorPos : 0 < denominator)
    (least : -1075 < Binary64.log2Ratio numerator denominator)
    (greatest : Binary64.log2Ratio numerator denominator < 1024) :
    (10 : ℚ) ^ (magnitude numerator denominator - 1) ≤ numerator / denominator := by
  have reached := (Binary64.log2Ratio_bounds numeratorPos denominatorPos).1
  simp only [magnitude]
  split
  · rename_i reaches
    rw [reachesTenPower_iff denominatorPos] at reaches
    rwa [add_sub_cancel_right]
  · split
    · rename_i reaches
      rwa [reachesTenPower_iff denominatorPos] at reaches
    · rw [add_sub_cancel_right]
      exact (pow_ten_le_pow_two least greatest).trans reached

variable {significand : Nat} {exponent : Int}

section

variable (canonical : Binary64.Canonical significand exponent)

include canonical

/-- The powers of two around a double are not far out. -/
theorem log2Ratio_of_canonical : 0 < (Binary64.ratio significand exponent).1 ∧
      -1075 < Binary64.log2Ratio (Binary64.ratio significand exponent).1
        (Binary64.ratio significand exponent).2 ∧
      Binary64.log2Ratio (Binary64.ratio significand exponent).1
        (Binary64.ratio significand exponent).2 < 1024 := by
  obtain ⟨positive, fits, least, greatest, -⟩ := canonical
  obtain ⟨denominatorPos, isValue⟩ := Binary64.ratio_eq significand exponent
  have numeratorPos : 0 < (Binary64.ratio significand exponent).1 := by
    unfold Binary64.ratio
    split
    · exact Nat.mul_pos positive (Nat.two_pow_pos _)
    · exact positive
  have positive' : (1 : ℚ) ≤ significand := by exact_mod_cast positive
  have fits' : (significand : ℚ) < 2 ^ 53 := by exact_mod_cast fits
  have isPlaced := Binary64.log2Ratio_lt_iff numeratorPos denominatorPos
  rw [isValue] at isPlaced
  refine ⟨numeratorPos, ?_, ?_⟩
  · have notBelow : ¬Binary64.log2Ratio (Binary64.ratio significand exponent).1
        (Binary64.ratio significand exponent).2 < -1074 := by
      rw [isPlaced, not_lt]
      calc (2 : ℚ) ^ (-1074 : Int)
          ≤ 2 ^ exponent := zpow_le_zpow_right₀ (by norm_num) least
        _ ≤ significand * 2 ^ exponent := le_mul_of_one_le_left (by positivity) positive'
    omega
  · rw [isPlaced]
    calc significand * (2 : ℚ) ^ exponent
        < 2 ^ 53 * 2 ^ exponent := by gcongr
      _ ≤ 2 ^ 53 * 2 ^ (971 : Int) := by
          gcongr
          norm_num
      _ = 2 ^ (1024 : Int) := by rw [← zpow_natCast, ← zpow_add₀ (by norm_num)]; rfl

/-- Half a unit of the seventeenth digit is less than the interval reaches. -/
theorem half_digit_lt_reachBelow :
    (significand : ℚ) / 10 ^ 16 / 2 < reachBelow significand exponent := by
  unfold reachBelow
  split
  · rename_i isPower
    rw [isPower.1]
    norm_num
  · have fits : (significand : ℚ) < 2 ^ 53 := by exact_mod_cast canonical.fits
    rw [div_div, div_lt_iff₀ (by norm_num)]
    norm_num at fits ⊢
    linarith

/-- The nearest decimal of seventeen digits is near enough. -/
theorem holds_of_near
    {top : Int}
    {value : ℚ}
    (reaches : (10 : ℚ) ^ (top - 1) ≤ significand * 2 ^ exponent)
    (near : |value - significand * 2 ^ exponent| ≤ 10 ^ (top - 17) / 2) :
    (interval significand exponent).Holds value := by
  have unitPos : (0 : ℚ) < 2 ^ exponent := by positivity
  have digit : (10 : ℚ) ^ (top - 17) = 10 ^ (top - 1) / 10 ^ 16 := by
    rw [← zpow_natCast, ← zpow_sub₀ (by norm_num)]
    congr 1
    ring
  have step : (10 : ℚ) ^ (top - 17) / 2 ≤ significand / 10 ^ 16 / 2 * 2 ^ exponent := by
    rw [digit]
    calc (10 : ℚ) ^ (top - 1) / 10 ^ 16 / 2
        ≤ (significand : ℚ) * 2 ^ exponent / 10 ^ 16 / 2 := by gcongr
      _ = (significand : ℚ) / 10 ^ 16 / 2 * 2 ^ exponent := by ring
  have reach := mul_lt_mul_of_pos_right (half_digit_lt_reachBelow canonical) unitPos
  have half := mul_le_mul_of_nonneg_right (reachBelow_bounds significand exponent).2 unitPos.le
  obtain ⟨low, high⟩ := abs_le.mp near
  have above : (significand - reachBelow significand exponent) * 2 ^ exponent < value := by
    rw [sub_mul]
    linarith
  have below : value < (significand + 1 / 2) * 2 ^ exponent := by
    rw [add_mul]
    linarith
  exact (interval_holds_iff canonical.positive).mpr ⟨above.le, below.le, fun _ => ⟨above, below⟩⟩

end

/-- On each grid two decimals are tried, the nearer one first. -/
theorem search_succ (significand : Nat) (exponent top : Int) (budget count : Nat) :
    ∃ near far : Decimal,
      near = ⟨nearest (Binary64.ratio significand exponent).1
        (Binary64.ratio significand exponent).2 (top - count), top - count⟩ ∧
      far.power = top - count ∧
      search significand exponent top (budget + 1) count =
        if (interval significand exponent).holds near then near
        else if (interval significand exponent).holds far then far
        else search significand exponent top budget (count + 1) := by
  rw [search]
  generalize Binary64.ratio significand exponent = parts
  obtain ⟨numerator, denominator⟩ := parts
  dsimp only
  unfold nearest
  rw [Int.ofNat_eq_natCast]
  generalize below numerator denominator (top - count) = found
  obtain ⟨low, up⟩ := found
  cases up <;> exact ⟨_, _, rfl, rfl, rfl⟩

/-- The search ends in the rounding interval. -/
theorem search_holds
    {top : Int}
    (canonical : Binary64.Canonical significand exponent)
    (reaches : (10 : ℚ) ^ (top - 1) ≤ significand * 2 ^ exponent)
    {budget : Nat}
    (total : budget + count = 17) :
    (interval significand exponent).Holds (search significand exponent top budget count).value := by
  induction budget generalizing count with
  | zero =>
      obtain ⟨denominatorPos, isValue⟩ := Binary64.ratio_eq significand exponent
      obtain rfl : count = 17 := by omega
      have near := @nearest_near (Binary64.ratio significand exponent).1 _ (top - 17) denominatorPos
      rw [isValue] at near
      exact holds_of_near canonical reaches near
  | succ budget inductionHypothesis =>
      obtain ⟨near, far, -, -, isStep⟩ := search_succ significand exponent top budget count
      rw [isStep]
      split
      · rename_i holds
        exact (holds_iff _ _).mp holds
      · split
        · rename_i holds
          exact (holds_iff _ _).mp holds
        · exact inductionHypothesis (by omega)

theorem stripZeros_value (budget : Nat) (decimal : Decimal) :
    (Decimal.stripZeros budget decimal).value = decimal.value := by
  induction budget generalizing decimal with
  | zero => rfl
  | succ budget inductionHypothesis =>
      rw [Decimal.stripZeros]
      split
      · rename_i ends
        have digits : decimal.digits = decimal.digits / 10 * 10 := by omega
        rw [inductionHypothesis, Decimal.value, Decimal.value, zpow_add_one₀ (by norm_num)]
        conv_rhs => rw [digits]
        push_cast
        ring
      · rfl

/-- The digits of a double are in its rounding interval. -/
theorem decimal_holds (canonical : Binary64.Canonical significand exponent) :
    (interval significand exponent).Holds (decimal significand exponent).value := by
  obtain ⟨numeratorPos, least, greatest⟩ := log2Ratio_of_canonical canonical
  obtain ⟨denominatorPos, isValue⟩ := Binary64.ratio_eq significand exponent
  have reaches := pow_magnitude_le numeratorPos denominatorPos least greatest
  rw [isValue] at reaches
  rw [decimal, stripZeros_value]
  exact search_holds canonical reaches rfl

end Shortest

/-!
## Numerals

The text of a finite number is a numeral: digits, perhaps a point and more digits, and
perhaps an exponent.  Reading a numeral gives the exact decimal that it stands for, and
the numeral of a double stands for the digits that were found for it, so it is read as
this double.
-/

/-- The parts of the text of a magnitude. -/
structure Numeral where
  whole : List Char
  fraction : List Char
  /-- Whether the exponent is negative, and its digits. -/
  exponent : Option (Bool × List Char)

namespace Numeral

/-- The point and the digits behind it. -/
def pointed (numeral : Numeral) : List Char :=
  if numeral.fraction.isEmpty then [] else '.' :: numeral.fraction

/-- The exponent with its mark and its sign. -/
def scaled (numeral : Numeral) : List Char :=
  match numeral.exponent with
  | none => []
  | some (negative, digits) => 'e' :: (if negative then '-' else '+') :: digits

/-- The text of a numeral. -/
def text (numeral : Numeral) : List Char := numeral.whole ++ (numeral.pointed ++ numeral.scaled)

/-- The exponent as a number. -/
def shift (numeral : Numeral) : Int :=
  match numeral.exponent with
  | none => 0
  | some (negative, digits) => if negative then -exponentSize digits else exponentSize digits

/-- The exact decimal a numeral stands for. -/
def decimal (numeral : Numeral) : Decimal :=
  ⟨digitsValue (numeral.whole ++ numeral.fraction), numeral.shift - numeral.fraction.length⟩

/-- A numeral has digits where digits belong, and no needless zero in front. -/
structure IsProper (numeral : Numeral) : Prop where
  nonEmpty : numeral.whole ≠ []
  whole : ∀ digit ∈ numeral.whole, digit.isDigit = true
  leading : numeral.whole.head? = some '0' → numeral.whole = ['0']
  fraction : ∀ digit ∈ numeral.fraction, digit.isDigit = true
  exponent : ∀ negative digits, numeral.exponent = some (negative, digits) →
    digits ≠ [] ∧ ∀ digit ∈ digits, digit.isDigit = true

/-- Digits in front of something that starts with none are all taken. -/
theorem span_digits
    {rest : List Char}
    (allDigits : ∀ digit ∈ digits, digit.isDigit = true)
    (stops : ∀ char ∈ rest.head?, char.isDigit = false) :
    (digits ++ rest).takeWhile Char.isDigit = digits ∧
      (digits ++ rest).dropWhile Char.isDigit = rest := by
  rw [List.takeWhile_append_of_pos allDigits, List.dropWhile_append_of_pos allDigits]
  cases rest with
  | nil => simp
  | cons char rest =>
      have isStop : char.isDigit = false := stops char rfl
      simp [isStop]

theorem readExponent?_scaled {numeral : Numeral} (proper : numeral.IsProper) :
    readExponent? numeral.scaled = some numeral.shift := by
  unfold scaled shift
  cases exponent : numeral.exponent with
  | none => rfl
  | some parts =>
      obtain ⟨negative, digits⟩ := parts
      obtain ⟨nonEmpty, allDigits⟩ := proper.exponent negative digits exponent
      have isProper : (digits.isEmpty || !digits.all Char.isDigit) = false := by
        simp [nonEmpty, List.all_eq_true.mpr allDigits]
      cases negative <;> simp [readExponent?, splitSign, isProper]

theorem scaled_cases (numeral : Numeral) :
    numeral.scaled = [] ∨ ∃ rest, numeral.scaled = 'e' :: rest := by
  unfold scaled
  cases numeral.exponent with
  | none => exact .inl rfl
  | some parts => exact .inr ⟨_, rfl⟩

theorem head_scaled (numeral : Numeral) : ∀ char ∈ numeral.scaled.head?, char.isDigit = false := by
  rcases numeral.scaled_cases with isScaled | ⟨rest, isScaled⟩
  · rw [isScaled]
    exact nofun
  · rw [isScaled]
    rintro char ⟨⟩
    rfl

theorem head_pointed (numeral : Numeral) :
    ∀ char ∈ (numeral.pointed ++ numeral.scaled).head?, char.isDigit = false := by
  unfold pointed
  split
  · exact numeral.head_scaled
  · rintro char ⟨⟩
    rfl

/-- Reading a numeral gives the decimal it stands for. -/
theorem readMagnitude?_text {numeral : Numeral} (proper : numeral.IsProper) :
    readMagnitude? numeral.text = some numeral.decimal := by
  obtain ⟨takesWhole, dropsWhole⟩ := span_digits proper.whole numeral.head_pointed
  have wholeEmpty : numeral.whole.isEmpty = false := by simpa using proper.nonEmpty
  unfold readMagnitude? text
  simp only [takesWhole, dropsWhole]
  by_cases noFraction : numeral.fraction = []
  · have noPoint : numeral.pointed = [] := by simp [pointed, noFraction]
    rw [noPoint, List.nil_append]
    have reads := readExponent?_scaled proper
    rcases numeral.scaled_cases with isScaled | ⟨rest, isScaled⟩ <;>
      rw [isScaled] at reads ⊢ <;> simp [wholeEmpty, reads, decimal, noFraction]
  · have isPoint : numeral.pointed = '.' :: numeral.fraction := by simp [pointed, noFraction]
    obtain ⟨takesFraction, dropsFraction⟩ := span_digits proper.fraction numeral.head_scaled
    rw [isPoint]
    simp [takesFraction, dropsFraction, wholeEmpty, readExponent?_scaled proper, decimal]

end Numeral

/-! ### Digits -/

theorem digitsValue_eq (digits : List Char) :
    digitsValue digits = Nat.ofDigitChars 10 digits 0 := by
  unfold digitsValue
  rw [Nat.ofDigitChars_eq_foldl]
  congr 1
  funext total digit
  rw [Nat.mul_comm]

theorem digitsValue_digitsText (value : Nat) : digitsValue (digitsText value) = value := by
  rw [digitsValue_eq, digitsText, Nat.ofDigitChars_ten_toDigits]

theorem digitsValue_leading_zeros (count : Nat) (digits : List Char) :
    digitsValue (List.replicate count '0' ++ digits) = digitsValue digits := by
  rw [digitsValue_eq, Nat.ofDigitChars_append, Nat.ofDigitChars_replicate_zero, Nat.mul_zero,
    ← digitsValue_eq]

theorem digitsValue_trailing_zeros (digits : List Char) (count : Nat) :
    digitsValue (digits ++ List.replicate count '0') = digitsValue digits * 10 ^ count := by
  rw [digitsValue_eq, Nat.ofDigitChars_append, Nat.ofDigitChars_replicate_zero, ← digitsValue_eq,
    Nat.mul_comm]

theorem isDigit_digitsText {value : Nat} {digit : Char} (member : digit ∈ digitsText value) :
    digit.isDigit = true :=
  Nat.isDigit_of_mem_toDigits (by decide) (by decide) member

/-- The digits of a positive number do not start with a zero. -/
theorem head_digitsText {value : Nat} (positive : 0 < value) :
    (digitsText value).head? ≠ some '0' := by
  induction value using Nat.strongRecOn with
  | ind value inductionHypothesis =>
      unfold digitsText
      by_cases small : value < 10
      · rw [Nat.toDigits_of_lt_base small]
        simp [positive.ne']
      · have shorter := inductionHypothesis (value / 10) (by omega) (by omega)
        rw [Nat.toDigits_of_base_le (by decide) (by omega),
          List.head?_append_of_ne_nil _ Nat.toDigits_ne_nil]
        exact shorter

/-- The size of an exponent of few digits is its value. -/
theorem exponentSize_eq (small : digitsValue digits < 10000) :
    exponentSize digits = digitsValue digits := by
  -- As long as the value stays small, so does every value on the way to it.
  have general : ∀ digits total,
      Nat.ofDigitChars 10 digits total < 10000 →
      digits.foldl (fun total digit =>
        if total < 10000 then total * 10 + (digit.toNat - '0'.toNat) else total) total =
        Nat.ofDigitChars 10 digits total := by
    intro digits
    induction digits with
    | nil => exact fun total _ => Nat.ofDigitChars_nil.symm
    | cons digit rest inductionHypothesis =>
        intro total bounded
        have below : total < 10000 := by
          rw [Nat.ofDigitChars_eq_ofDigitChars_zero] at bounded
          have := Nat.le_mul_of_pos_left total (Nat.pow_pos (a := 10) (n := (digit :: rest).length) (by decide))
          omega
        rw [Nat.ofDigitChars_cons, Nat.mul_comm 10 total] at bounded ⊢
        rw [List.foldl_cons, if_pos below]
        exact inductionHypothesis _ bounded
  rw [digitsValue_eq] at small ⊢
  exact general digits 0 small

/-! ### Layouts -/

/-- A text is a proper numeral for a value. -/
def Writes (text : List Char) (value : ℚ) : Prop :=
  ∃ numeral : Numeral, numeral.IsProper ∧ numeral.text = text ∧ numeral.decimal.value = value

/-- Digits of a positive number, without a zero in front. -/
structure Spells (digits : List Char) (count : Nat) : Prop where
  nonEmpty : digits ≠ []
  allDigits : ∀ digit ∈ digits, digit.isDigit = true
  leading : digits.head? ≠ some '0'
  value : digitsValue digits = count

theorem spells_digitsText (positive : 0 < count) :
    Spells (digitsText count) count where
  nonEmpty := Nat.toDigits_ne_nil
  allDigits := fun _ member => isDigit_digitsText member
  leading := head_digitsText positive
  value := digitsValue_digitsText count

variable {point : Int}

/-- The point stands before the digits. -/
theorem Spells.writes_before (spells : Spells digits count) (before : point ≤ 0) :
    Writes ('0' :: '.' :: (List.replicate (-point).toNat '0' ++ digits))
      (count * 10 ^ (point - digits.length)) := by
  refine ⟨⟨['0'], List.replicate (-point).toNat '0' ++ digits, none⟩, ?_, ?_, ?_⟩
  · refine ⟨nofun, by simp, fun _ => rfl, ?_, nofun⟩
    intro digit member
    rcases List.mem_append.mp member with isZero | isDigit
    · rw [List.eq_of_mem_replicate isZero]
      rfl
    · exact spells.allDigits digit isDigit
  · simp [Numeral.text, Numeral.pointed, Numeral.scaled, spells.nonEmpty]
  · have isValue : digitsValue (['0'] ++ (List.replicate (-point).toNat '0' ++ digits)) = count := by
      rw [← spells.value, ← digitsValue_leading_zeros (-point).toNat digits]
      exact digitsValue_leading_zeros 1 _
    have power : (0 : Int) - (List.replicate (-point).toNat '0' ++ digits).length =
        point - digits.length := by
      rw [List.length_append, List.length_replicate]
      omega
    simp only [Numeral.decimal, Numeral.shift, Decimal.value]
    rw [isValue, power]

/-- The point stands after the digits, with zeros between. -/
theorem Spells.writes_after
    (spells : Spells digits count)
    (after : digits.length ≤ point.toNat)
    (positive : 0 < point) :
    Writes (digits ++ List.replicate (point.toNat - digits.length) '0')
      (count * 10 ^ (point - digits.length)) := by
  refine ⟨⟨digits ++ List.replicate (point.toNat - digits.length) '0', [], none⟩, ?_, ?_, ?_⟩
  · refine ⟨by simp [spells.nonEmpty], ?_, ?_, nofun, nofun⟩
    · intro digit member
      rcases List.mem_append.mp member with isDigit | isZero
      · exact spells.allDigits digit isDigit
      · rw [List.eq_of_mem_replicate isZero]
        rfl
    · intro leading
      rw [List.head?_append_of_ne_nil _ spells.nonEmpty] at leading
      exact absurd leading spells.leading
  · simp [Numeral.text, Numeral.pointed, Numeral.scaled]
  · have power : point - digits.length = (point.toNat - digits.length : Nat) := by omega
    simp only [Numeral.decimal, Numeral.shift, Decimal.value, List.append_nil, List.length_nil]
    rw [digitsValue_trailing_zeros, spells.value, power, zpow_natCast]
    simp

/-- The point stands among the digits. -/
theorem Spells.writes_among
    (spells : Spells digits count)
    (among : point.toNat < digits.length)
    (positive : 0 < point) :
    Writes (digits.take point.toNat ++ '.' :: digits.drop point.toNat)
      (count * 10 ^ (point - digits.length)) := by
  have restNonEmpty : digits.drop point.toNat ≠ [] := by
    rw [Ne, List.drop_eq_nil_iff]
    omega
  refine ⟨⟨digits.take point.toNat, digits.drop point.toNat, none⟩, ?_, ?_, ?_⟩
  · refine ⟨?_, ?_, ?_, ?_, nofun⟩
    · rw [Ne, List.take_eq_nil_iff]
      rintro (isZero | isEmpty)
      · omega
      · exact spells.nonEmpty isEmpty
    · exact fun digit member => spells.allDigits digit (List.mem_of_mem_take member)
    · intro leading
      rw [List.head?_take, if_neg (by omega)] at leading
      exact absurd leading spells.leading
    · exact fun digit member => spells.allDigits digit (List.mem_of_mem_drop member)
  · simp [Numeral.text, Numeral.pointed, Numeral.scaled, restNonEmpty]
  · have power : (0 : Int) - (digits.drop point.toNat).length = point - digits.length := by
      rw [List.length_drop]
      omega
    simp only [Numeral.decimal, Numeral.shift, Decimal.value]
    rw [List.take_append_drop, spells.value, power]

theorem Spells.positional_writes (spells : Spells digits count) :
    Writes (positional digits point) (count * 10 ^ (point - digits.length)) := by
  unfold positional
  split
  · rename_i before
    exact spells.writes_before before
  · split
    · rename_i after
      exact spells.writes_after after (by omega)
    · rename_i among
      exact spells.writes_among (by omega) (by omega)

/-- Digits with a point after the first one and an exponent. -/
theorem Spells.exponential_writes
    (spells : Spells digits count)
    (moderate : (point - 1).natAbs < 10000) :
    Writes (exponential 1 digits point) (count * 10 ^ (point - digits.length)) := by
  obtain ⟨first, rest, rfl⟩ := List.exists_cons_of_ne_nil spells.nonEmpty
  refine ⟨⟨[first], rest, some (decide (point - 1 < 0), digitsText (point - 1).natAbs)⟩, ?_, ?_, ?_⟩
  · refine ⟨nofun, ?_, ?_, ?_, ?_⟩
    · simpa using spells.allDigits first (.head _)
    · intro leading
      exact absurd leading spells.leading
    · exact fun digit member => spells.allDigits digit (.tail _ member)
    · rintro _ _ ⟨⟩
      exact ⟨Nat.toDigits_ne_nil, fun _ member => isDigit_digitsText member⟩
  · have noPadding : 1 - (digitsText (point - 1).natAbs).length = 0 := by
      have := @Nat.length_toDigits_pos 10 (point - 1).natAbs
      unfold digitsText
      omega
    cases rest <;>
      simp [exponential, noPadding, Numeral.text, Numeral.pointed, Numeral.scaled]
  · have size : exponentSize (digitsText (point - 1).natAbs) = (point - 1).natAbs := by
      rw [exponentSize_eq, digitsValue_digitsText]
      rwa [digitsValue_digitsText]
    have isValue : digitsValue ([first] ++ rest) = count := spells.value
    simp only [Numeral.decimal, Numeral.shift, Decimal.value]
    rw [isValue, size]
    congr 2
    rw [List.length_cons]
    split
    · rename_i isNegative
      have := of_decide_eq_true isNegative
      omega
    · rename_i isPositive
      have := of_decide_eq_false (Bool.not_eq_true _ ▸ isPositive)
      omega

end ScriptEngine.Number

namespace ScriptEngine.Number

open Float.Model

/-- A number of `n` digits is below the power of ten with exponent `n`, and not below the one
before it. -/
theorem digitsText_length_bounds {count : Nat} (positive : 0 < count) :
    10 ^ ((digitsText count).length - 1) ≤ count ∧ count < 10 ^ (digitsText count).length := by
  have longer : 0 < (digitsText count).length := Nat.length_toDigits_pos
  constructor
  · by_cases single : (digitsText count).length = 1
    · rw [single]
      exact positive
    · have notShorter : ¬ (digitsText count).length ≤ (digitsText count).length - 1 := by omega
      rw [digitsText, Nat.length_toDigits_le_iff (by decide) (by rw [digitsText] at *; omega)]
        at notShorter
      exact Nat.not_lt.mp notShorter
  · exact (Nat.length_toDigits_le_iff (by decide) longer).mp (Nat.le_refl _)

section Magnitude

variable {significand : Nat} {exponent : Int}

section

variable (canonical : Binary64.Canonical significand exponent)

include canonical

theorem digits_pos : 0 < (Shortest.decimal significand exponent).digits := by
  obtain ⟨atLeast, -⟩ := Decimal.value_bounds canonical (Shortest.decimal_holds canonical)
  apply Nat.pos_of_ne_zero
  intro isZero
  rw [Decimal.value, isZero, Nat.cast_zero, zero_mul] at atLeast
  exact absurd atLeast (not_le.mpr (by positivity))

/-- The point of a double stands at most about a thousand digits away. -/
theorem point_moderate :
    (((digitsText (Shortest.decimal significand exponent).digits).length : Int) +
      (Shortest.decimal significand exponent).power - 1).natAbs < 10000 := by
  obtain ⟨atLeast, below⟩ := Decimal.value_bounds canonical (Shortest.decimal_holds canonical)
  obtain ⟨low, high⟩ := digitsText_length_bounds (digits_pos canonical)
  generalize Shortest.decimal significand exponent = decimal at *
  have longer : 0 < (digitsText decimal.digits).length := Nat.length_toDigits_pos
  generalize (digitsText decimal.digits).length = length at *
  have low' : (10 : ℚ) ^ ((length : Int) - 1) ≤ decimal.digits := by
    rw [show (length : Int) - 1 = (length - 1 : Nat) by omega, zpow_natCast]
    exact_mod_cast low
  have high' : (decimal.digits : ℚ) < 10 ^ (length : Int) := by
    rw [zpow_natCast]
    exact_mod_cast high
  have monotone {left right : Int} (less : (2 : ℚ) ^ left < 2 ^ right) : left < right :=
    (zpow_lt_zpow_iff_right₀ (by norm_num)).mp less
  by_cases nonneg : 0 ≤ (length : Int) + decimal.power - 1
  · have : 3 * ((length : Int) + decimal.power - 1) < 1024 := by
      apply monotone
      calc (2 : ℚ) ^ (3 * ((length : Int) + decimal.power - 1))
          ≤ 10 ^ ((length : Int) + decimal.power - 1) := Decimal.pow_two_le_pow_ten nonneg
        _ = 10 ^ ((length : Int) - 1) * 10 ^ decimal.power := by
            rw [← zpow_add₀ (by norm_num)]
            congr 1
            omega
        _ ≤ decimal.digits * 10 ^ decimal.power := by gcongr
        _ < 2 ^ (1024 : Int) := below
    omega
  · have : (-1075 : Int) < 3 * ((length : Int) + decimal.power) := by
      apply monotone
      calc (2 : ℚ) ^ (-1075 : Int)
          ≤ decimal.digits * 10 ^ decimal.power := atLeast
        _ < 10 ^ (length : Int) * 10 ^ decimal.power := by gcongr
        _ = 10 ^ ((length : Int) + decimal.power) := by rw [← zpow_add₀ (by norm_num)]
        _ ≤ 2 ^ (3 * ((length : Int) + decimal.power)) := Decimal.pow_ten_le_pow_two (by omega)
    omega

/-- The magnitude of a double is a proper numeral for the digits found for it. -/
theorem magnitude_writes : Writes (Layout.script.magnitude significand exponent)
      (Shortest.decimal significand exponent).value := by
  have spells := spells_digitsText (digits_pos canonical)
  have moderate := point_moderate canonical
  have isValue :
      (Shortest.decimal significand exponent).value =
        (Shortest.decimal significand exponent).digits *
          10 ^ (((digitsText (Shortest.decimal significand exponent).digits).length : Int) +
            (Shortest.decimal significand exponent).power -
              (digitsText (Shortest.decimal significand exponent).digits).length) := by
    rw [Decimal.value, add_sub_cancel_left]
  rw [isValue]
  simp only [Layout.magnitude, Int.ofNat_eq_natCast]
  split
  · exact spells.positional_writes
  · exact spells.exponential_writes moderate

end

end Magnitude

/-! ## Bit patterns -/

section Bits

variable {value : Float} {negative : Bool} {significand : Nat} {exponent : Int}

/-- A finite double is zero or has canonical parts, and they make up its bits. -/
theorem Binary64.bits_of_finite
    (finite : Binary64.ofFloat value = .finite negative significand exponent) :
    (significand = 0 ∧ exponent = Binary64.leastExponent ∨
        Binary64.Canonical significand exponent) ∧
      value.toBits.toNat =
        (if negative then 2 ^ 63 else 0) + Binary64.pattern significand exponent ∧
      value.toBits.toNat / 2 ^ 52 % 2 ^ 11 ≠ 2047 := by
  have bound : value.toBits.toNat < 2 ^ 64 := value.toBits.toNat_lt
  unfold Binary64.ofFloat Binary64.ofBits at finite
  simp only [Nat.pow_eq] at finite
  split at finite
  · split at finite <;> cases finite
  · rename_i notSpecial
    have signed (rest : Nat)
        (isRest : value.toBits.toNat % 2 ^ 63 = rest) :
        value.toBits.toNat =
          (if decide (2 ^ 63 ≤ value.toBits.toNat) then 2 ^ 63 else 0) + rest := by
      simp only [decide_eq_true_eq]
      split <;> omega
    split at finite
    · rename_i lowest
      injection finite with isNegative isSignificand isExponent
      subst isNegative isSignificand isExponent
      refine ⟨?_, signed _ ?_, notSpecial⟩
      · by_cases isZero : value.toBits.toNat % 2 ^ 52 = 0
        · exact .inl ⟨isZero, rfl⟩
        · exact .inr ⟨by omega, by omega, by decide, by decide, fun other => absurd rfl other⟩
      · simp only [Binary64.pattern, Binary64.leastExponent]
        omega
    · injection finite with isNegative isSignificand isExponent
      subst isNegative isSignificand isExponent
      rw [Int.ofNat_eq_natCast]
      refine ⟨.inr ⟨by omega, by omega, by omega, by omega, fun _ => by omega⟩,
        signed _ ?_, notSpecial⟩
      rw [Binary64.pattern]
      omega

/-- A double is known by its bits. -/
theorem eq_of_toBits_eq {left right : Float} (same : left.toBits = right.toBits) :
    left = right := by
  obtain ⟨⟨leftBits, leftValid⟩⟩ := left
  obtain ⟨⟨rightBits, rightValid⟩⟩ := right
  obtain rfl : leftBits = rightBits := same
  rfl

/-- A finite double is made of its sign and its pattern. -/
theorem eq_ofBits_of_finite
    (finite : Binary64.ofFloat value = .finite negative significand exponent) :
    Float.ofBits
      (UInt64.ofNat ((if negative then 2 ^ 63 else 0) + Binary64.pattern significand exponent)) =
        value := by
  obtain ⟨-, isBits, notSpecial⟩ := Binary64.bits_of_finite finite
  rw [← isBits, UInt64.ofNat_toNat]
  exact eq_of_toBits_eq (toBits_ofBits notSpecial)

/-- A finite double equals itself. -/
theorem beq_self_of_finite
    (finite : Binary64.ofFloat value = .finite negative significand exponent) :
    (value == value) = true := by
  obtain ⟨-, -, notSpecial⟩ := Binary64.bits_of_finite finite
  have ordinary : @UnpackedFloat.unpackExponent .binary64 value.toBits.toBitVec ≠ -1#11 := by
    intro special
    have field := unpackExponent_toNat value.toBits.toBitVec
    rw [special] at field
    exact notSpecial field.symm
  have compared : value.toModel.unpack.compare value.toModel.unpack = some .eq := by
    cases unpacked : value.toModel.unpack with
    | notANumber =>
        have isNaN := unpacks value.toBits.toBitVec
        change UnpackedFloat.unpack .binary64 value.toBits.toBitVec = _ at unpacked
        rw [unpacked] at isNaN
        cases isNaN with
        | notANumber special => exact absurd special ordinary
    | infinity sign => cases sign <;> rfl
    | zero sign => rfl
    | finite => exact compare_finite_self
  have equal : (value.toModel.unpack.compare value.toModel.unpack == some .eq) = true :=
    beq_iff_eq.mpr compared
  exact equal

end Bits

/-! ## Reading what was written -/

/-- A proper numeral does not start with a sign. -/
theorem Numeral.splitSign_text {numeral : Numeral} (proper : numeral.IsProper) :
    splitSign numeral.text = (false, numeral.text) := by
  obtain ⟨first, rest, isWhole⟩ := List.exists_cons_of_ne_nil proper.nonEmpty
  have isDigit : first.isDigit = true := proper.whole first (isWhole ▸ .head _)
  rw [Numeral.text, isWhole, List.cons_append]
  unfold splitSign
  split
  · rename_i starts
    rw [(List.cons.inj starts).1] at isDigit
    cases isDigit
  · rename_i starts
    rw [(List.cons.inj starts).1] at isDigit
    cases isDigit
  · rfl

/-- A sign before a proper numeral. -/
def signed (negative : Bool) (numeral : Numeral) : List Char :=
  if negative then '-' :: numeral.text else numeral.text

theorem ofDecimal?_signed {numeral : Numeral} (negative : Bool) (proper : numeral.IsProper) :
    ofDecimal? (signed negative numeral) = some (Reading.toFloat ⟨negative, numeral.decimal⟩) := by
  have splits : splitSign (signed negative numeral) = (negative, numeral.text) := by
    cases negative with
    | false => exact Numeral.splitSign_text proper
    | true => rfl
  rw [ofDecimal?, readDecimal?, splits]
  simp only [Numeral.readMagnitude?_text proper, Option.map_some]

/-- The text of a finite number is a sign and a proper numeral, and it is read as a number equal to
the one written. -/
theorem text_reads_back
    {value : Float}
    {negative : Bool}
    {significand : Nat}
    {exponent : Int}
    (finite : Binary64.ofFloat value = .finite negative significand exponent) :
    ∃ (minus : Bool) (numeral : Numeral) (read : Float),
      numeral.IsProper ∧ (text value).toList = signed minus numeral ∧
      ofDecimal? (text value).toList = some read ∧ (read == value) = true := by
  have isText : text value = Layout.script.text value := rfl
  rw [Layout.text, finite] at isText
  have made := eq_ofBits_of_finite finite
  rcases (Binary64.bits_of_finite finite).1 with ⟨rfl, rfl⟩ | canonical
  · -- Both zeros have the text of the positive one.
    have isZero : text value = "0" := by cases negative <;> exact isText
    have proper : (Numeral.mk ['0'] [] none).IsProper :=
      ⟨nofun, by simp, fun _ => rfl, nofun, nofun⟩
    refine ⟨false, ⟨['0'], [], none⟩, Float.ofBits 0, proper, by rw [isZero]; rfl, ?_, ?_⟩
    · rw [isZero]
      rfl
    · rw [← made]
      cases negative <;> rfl
  · obtain ⟨numeral, proper, isNumeral, isValue⟩ := magnitude_writes canonical
    have isSigned : (text value).toList = signed negative numeral := by
      simp only [if_neg canonical.positive.ne'] at isText
      rw [isText, String.toList_ofList, ← isNumeral, signed]
    have bits : numeral.decimal.bits = Binary64.pattern significand exponent :=
      Decimal.bits_of_holds canonical (isValue ▸ Shortest.decimal_holds canonical)
    have reads : Reading.toFloat ⟨negative, numeral.decimal⟩ = value := by
      rw [← made, Reading.toFloat, bits]
      cases negative <;> simp
    refine ⟨negative, numeral, value, proper, isSigned, ?_, beq_self_of_finite finite⟩
    rw [isSigned, ofDecimal?_signed negative proper, reads]

end ScriptEngine.Number
