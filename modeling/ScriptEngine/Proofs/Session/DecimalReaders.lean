import Mathlib.Data.List.TakeWhile
import Mathlib.Tactic.IntervalCases
import ScriptEngine.Proofs.Number.RoundTrip
import ScriptEngine.Proofs.Program.Rereading
import ScriptEngine.Session

namespace ScriptEngine

/-!
# Three readers of decimals

A decimal that is one token of a program is read by the parser, by `Number` and by
`parseFloat`.  They read the same digits with the same rounding, so they agree as long as
the decimal is in the range of doubles.  A decimal beyond it is infinite in a program, not a
number for `Number`, and cut down to its longest front that is in range by `parseFloat`.
-/

variable {mark : Char} {text : String} {token last : Token} {chars : List Char} {value : Float}

namespace Token

/-! ## The shape of decimals -/

/-- A decimal as it stands in a program: digits, a point with digits, and an exponent. -/
structure HasShape (text whole pointed scaled : List Char) : Prop where
  covers : text = whole ++ pointed ++ scaled
  wholeDigits : ∀ digit ∈ whole, digit.isDigit = true
  point : pointed = [] ∨
    ∃ digits, pointed = '.' :: digits ∧ ∀ digit ∈ digits, digit.isDigit = true
  exponent : scaled = [] ∨
    ∃ mark first digits, scaled = mark :: first :: digits ∧ (mark = 'e' ∨ mark = 'E') ∧
      (first = '+' ∨ first = '-' ∨ first.isDigit = true) ∧ ∀ digit ∈ digits, digit.isDigit = true

theorem isDigit_of_mem_takeWhile
    {text : List Char}
    {digit : Char}
    (member : digit ∈ text.takeWhile Char.isDigit) :
    digit.isDigit = true :=
  List.all_eq_true.mp List.all_takeWhile digit member

theorem fraction_point (wholeIsEmpty : Bool) (text : List Char) :
    (fraction wholeIsEmpty text).1 = [] ∨
      ∃ digits, (fraction wholeIsEmpty text).1 = '.' :: digits ∧
        ∀ digit ∈ digits, digit.isDigit = true := by
  unfold fraction
  split
  · rename_i rest
    dsimp only
    split
    · exact .inr ⟨_, rfl, fun _ member => isDigit_of_mem_takeWhile member⟩
    · split
      · split
        · exact .inl rfl
        · exact .inr ⟨[], rfl, List.forall_mem_nil _⟩
      · exact .inr ⟨[], rfl, List.forall_mem_nil _⟩
  · exact .inl rfl

theorem exponent_mark (text : List Char) :
    (exponent text).1 = [] ∨
      ∃ mark first digits, (exponent text).1 = mark :: first :: digits ∧
        (mark = 'e' ∨ mark = 'E') ∧ (first = '+' ∨ first = '-' ∨ first.isDigit = true) ∧
        ∀ digit ∈ digits, digit.isDigit = true := by
  unfold exponent
  split
  · rename_i mark first rest
    split
    · rename_i isMark
      have isMark : mark = 'e' ∨ mark = 'E' := by simpa using isMark
      split
      · rename_i isSign
        have isSign : first = '+' ∨ first = '-' := by simpa using isSign
        exact .inr ⟨mark, first, _, rfl, isMark, isSign.imp_right .inl,
          fun _ member => isDigit_of_mem_takeWhile member⟩
      · split
        · rename_i isDigit
          refine .inr ⟨mark, first, rest.takeWhile Char.isDigit, ?_, isMark, .inr (.inr isDigit),
            fun _ member => isDigit_of_mem_takeWhile member⟩
          rw [List.takeWhile_cons_of_pos isDigit]
        · exact .inl rfl
    · exact .inl rfl
  · exact .inl rfl

/-- What the reader of decimals takes has the shape of a decimal. -/
theorem decimalLexeme_shape (text : List Char) :
    ∃ whole pointed scaled, HasShape (decimalLexeme text).taken whole pointed scaled :=
  ⟨_, _, _, rfl, fun _ member => isDigit_of_mem_takeWhile member, fraction_point _ _,
    exponent_mark _⟩

/-! ## Texts that are one token -/

/-- A text that the lexer reads as one decimal, from its first to its last character. -/
structure IsDecimal (text : String) (token last : Token) : Prop where
  scanned : scan text = [token, last]
  isNumber : token.kind = .number
  spansAll : token.literal = text
  unmarked : ∀ mark digits, text.toList = '0' :: mark :: digits → Number.radixOfMark? mark = none

theorem radixDigits?_of_radixOfMark? (unmarked : Number.radixOfMark? mark = none) :
    radixDigits? mark = none := by
  unfold Number.radixOfMark? at unmarked
  unfold radixDigits?
  split at unmarked
  · cases unmarked
  · split at unmarked
    · cases unmarked
    · split at unmarked
      · cases unmarked
      · simp_all

theorem ofName_ne_number (name : String) : TokenKind.ofName name ≠ .number := by
  have words : ∀ entry ∈ TokenKind.reservedWords, entry.2 ≠ .number := by decide
  unfold TokenKind.ofName
  cases found : TokenKind.reservedWords.lookup name with
  | none => nofun
  | some kind =>
      obtain ⟨front, back, isSplit, _⟩ := List.lookup_eq_some_iff.mp found
      exact words (name, kind) (by simp [isSplit])

/-- A number comes from the reader of numbers, and it starts with a digit, perhaps behind a point. -/
theorem lexeme_of_number {text : List Char} (isNumber : (lexeme none text).kind = .number) :
    lexeme none text = numberLexeme text ∧
      ∃ first rest, text = first :: rest ∧
        (first.isDigit = true ∨ first = '.' ∧ startsWithDigit rest = true) := by
  cases text with
  | nil => cases isNumber
  | cons first rest =>
      have leaf : isLeaf (lexeme none (first :: rest)).kind = true := by
        rw [isNumber]
        rfl
      rcases lexeme_cases leaf with ⟨-, isString⟩ | ⟨-, isName⟩ | ⟨starts, reads⟩
      · exfalso
        rw [isString, stringLexeme] at isNumber
        split at isNumber <;> cases isNumber
      · exfalso
        rw [isName] at isNumber
        exact ofName_ne_number _ isNumber
      · refine ⟨reads none rest rfl, first, rest, rfl, starts.imp_right fun isPoint => ?_⟩
        refine ⟨isPoint, ?_⟩
        by_contra noDigit
        have isMark : lexeme none ('.' :: rest) = punctuatorLexeme '.' rest := by
          have notName : isNameStart '.' = false := by decide
          have notDigit : '.'.isDigit = false := by decide
          simp [lexeme, noDigit, isNul, allowsRegex, notName, notDigit]
        rw [isPoint, isMark, isLeaf_punctuatorLexeme] at leaf
        cases leaf

theorem numberLexeme_of_unmarked
    {text : List Char}
    (unmarked : ∀ mark digits, text = '0' :: mark :: digits → Number.radixOfMark? mark = none) :
    numberLexeme text = decimalLexeme text := by
  unfold numberLexeme
  split
  · rename_i mark digits
    rw [radixDigits?_of_radixOfMark? (unmarked mark digits rfl)]
  · rfl

theorem numberLexeme_literal (text : List Char) :
    (numberLexeme text).literal = String.ofList (numberLexeme text).taken := by
  unfold numberLexeme
  split
  · split <;> rfl
  · rfl

namespace IsDecimal

/-- The token of the text is the lexeme at its front, and it leaves nothing. -/
theorem lexeme_eq (decimal : IsDecimal text token last) :
    (lexeme none text.toList).kind = .number ∧ (lexeme none text.toList).taken = text.toList := by
  have scanned : scanFrom Char.utf8Size (text.toList.length + 1) none .origin text.toList =
      [token, last] := decimal.scanned
  unfold scanFrom at scanned
  dsimp only at scanned
  split at scanned
  · cases scanned
  · obtain ⟨isToken, -⟩ := List.cons.inj scanned
    have isNumber := decimal.isNumber
    have spansAll := decimal.spansAll
    rw [← isToken] at isNumber spansAll
    unfold next at isNumber spansAll
    have covers := gapFrom_append .between text.toList
    dsimp only at isNumber spansAll
    split at isNumber
    · rename_i closed
      rw [if_pos closed] at spansAll
      generalize gapFrom .between text.toList = gap at *
      obtain ⟨isLexeme, -⟩ := lexeme_of_number isNumber
      have isTaken : (lexeme none gap.rest).taken = text.toList := by
        rw [isLexeme] at spansAll ⊢
        rw [← spansAll, numberLexeme_literal, String.toList_ofList]
      have leaves := lexeme_append none gap.rest
      have isRest : gap.rest = text.toList := by
        have noGap : gap.taken = [] := by
          have lengths := congrArg List.length covers
          rw [← leaves, isTaken, List.length_append, List.length_append] at lengths
          exact List.eq_nil_of_length_eq_zero (by omega)
        rwa [noGap] at covers
      rw [isRest] at isNumber isTaken
      exact ⟨isNumber, isTaken⟩
    · cases isNumber

/-- Behind the token the input ends. -/
theorem isEnd (decimal : IsDecimal text token last) : last.kind = .endOfInput := by
  have cut := scanFrom_cut Char.utf8Size none [] (Nat.lt_succ_self text.toList.length)
  obtain ⟨before, final, isSplit, isEnd, -⟩ := cut.ends_once
  have scanned : [token] ++ [last] = before ++ [final] := decimal.scanned.symm.trans isSplit
  obtain ⟨-, isLast⟩ := List.append_inj' scanned rfl
  obtain rfl : last = final := List.singleton_inj.mp isLast
  exact isEnd

/-- The text has the shape of a decimal and starts with a digit, perhaps behind a point. -/
theorem shape (decimal : IsDecimal text token last) :
    (∃ whole pointed scaled, HasShape text.toList whole pointed scaled) ∧
      ∃ first rest, text.toList = first :: rest ∧
        (first.isDigit = true ∨ first = '.' ∧ startsWithDigit rest = true) := by
  obtain ⟨isNumber, isTaken⟩ := decimal.lexeme_eq
  obtain ⟨reads, starts⟩ := lexeme_of_number isNumber
  rw [reads, numberLexeme_of_unmarked decimal.unmarked] at isTaken
  exact ⟨isTaken ▸ decimalLexeme_shape text.toList, starts⟩

end IsDecimal

end Token

namespace Number

open Token (HasShape IsDecimal)

/-! ## What the readers make of a decimal -/

section

variable {whole pointed scaled : List Char}

theorem isDecimalChar_of_isDigit {char : Char} (isDigit : char.isDigit = true) :
    isDecimalChar char = true := by
  simp [isDecimalChar, isDigit]

/-- Every character of a decimal can stand in one. -/
theorem isDecimalChar_of_shape (shape : HasShape chars whole pointed scaled) :
    ∀ char ∈ chars, isDecimalChar char = true := by
  have digits {row : List Char} (areDigits : ∀ digit ∈ row, digit.isDigit = true) :
      ∀ char ∈ row, isDecimalChar char = true :=
    fun char member => isDecimalChar_of_isDigit (areDigits char member)
  rw [shape.covers]
  refine List.forall_mem_append.mpr ⟨List.forall_mem_append.mpr ⟨digits shape.wholeDigits, ?_⟩, ?_⟩
  · rcases shape.point with rfl | ⟨row, rfl, areDigits⟩
    · nofun
    · exact List.forall_mem_cons.mpr ⟨rfl, digits areDigits⟩
  · rcases shape.exponent with rfl | ⟨mark, first, row, rfl, isMark, isFirst, areDigits⟩
    · nofun
    · refine List.forall_mem_cons.mpr ⟨?_, List.forall_mem_cons.mpr ⟨?_, digits areDigits⟩⟩
      · rcases isMark with rfl | rfl <;> rfl
      · rcases isFirst with rfl | rfl | isDigit
        · rfl
        · rfl
        · exact isDecimalChar_of_isDigit isDigit

theorem splitSign_of_digits
    {digits : List Char}
    (allDigits : ∀ digit ∈ digits, digit.isDigit = true)
    (rest : List Char)
    (unsigned : splitSign rest = (false, rest)) :
    splitSign (digits ++ rest) = (false, digits ++ rest) := by
  cases digits with
  | nil => exact unsigned
  | cons first others =>
      have isDigit := allDigits first List.mem_cons_self
      unfold splitSign
      split
      · rename_i starts
        rw [(List.cons.inj starts).1] at isDigit
        cases isDigit
      · rename_i starts
        rw [(List.cons.inj starts).1] at isDigit
        cases isDigit
      · rfl

/-- A decimal has no sign in front. -/
theorem splitSign_of_shape (shape : HasShape chars whole pointed scaled) :
    splitSign chars = (false, chars) := by
  rw [shape.covers, List.append_assoc]
  refine splitSign_of_digits shape.wholeDigits _ ?_
  rcases shape.point with rfl | ⟨digits, rfl, -⟩
  · rcases shape.exponent with rfl | ⟨mark, first, digits, rfl, rfl | rfl, -⟩ <;> rfl
  · rfl

/-- A point behind the digits makes no difference. -/
theorem ofDecimal?_point {digits : List Char} (allDigits : ∀ digit ∈ digits, digit.isDigit = true) :
    ofDecimal? (digits ++ ['.']) = ofDecimal? digits := by
  have plain := splitSign_of_digits allDigits [] rfl
  obtain ⟨takes, drops⟩ := @Numeral.span_digits digits [] allDigits nofun
  obtain ⟨takesPoint, dropsPoint⟩ := @Numeral.span_digits digits ['.'] allDigits (by simp)
  rw [List.append_nil] at plain takes drops
  unfold ofDecimal? readDecimal?
  rw [splitSign_of_digits allDigits ['.'] rfl, plain]
  dsimp only
  unfold readMagnitude?
  rw [takes, drops, takesPoint, dropsPoint]
  rfl

/-- A point at the end of a decimal stands behind digits. -/
theorem eq_digits_of_point
    (shape : HasShape chars whole pointed scaled)
    (isPoint : chars.getLast? = some '.') :
    chars = whole ++ ['.'] := by
  have notDigit : ('.' : Char).isDigit ≠ true := by decide
  rw [shape.covers] at isPoint ⊢
  rcases shape.exponent with rfl | ⟨mark, first, row, rfl, -, isFirst, areDigits⟩
  · rw [List.append_nil] at isPoint ⊢
    rcases shape.point with rfl | ⟨row, rfl, areDigits⟩
    · rw [List.append_nil] at isPoint
      exact absurd (shape.wholeDigits _ (List.mem_of_getLast? isPoint)) notDigit
    · rw [List.getLast?_append_cons, List.getLast?_cons] at isPoint
      cases isLast : row.getLast? with
      | none => rw [List.getLast?_eq_none_iff.mp isLast]
      | some digit =>
          have isDigit := areDigits digit (List.mem_of_getLast? isLast)
          rw [isLast] at isPoint
          obtain rfl : digit = '.' := Option.some.inj isPoint
          exact absurd isDigit notDigit
  · -- The exponent ends in a digit or in its sign.
    rw [List.getLast?_append_cons, List.getLast?_cons_cons] at isPoint
    rcases List.mem_cons.mp (List.mem_of_getLast? isPoint) with rfl | member
    · simp at isFirst
    · exact absurd (areDigits _ member) notDigit

theorem decimalLiteral?_eq (shape : HasShape chars whole pointed scaled) :
    decimalLiteral? chars = ofDecimal? chars := by
  unfold decimalLiteral?
  split
  · rename_i isPoint
    rw [eq_digits_of_point shape isPoint, List.dropLast_concat,
      ofDecimal?_point shape.wholeDigits]
  · rfl

theorem ofLiteral?_of_unmarked
    (unmarked : ∀ mark digits, chars = '0' :: mark :: digits → radixOfMark? mark = none) :
    ofLiteral? chars = decimalLiteral? chars := by
  unfold ofLiteral?
  split
  · rename_i mark digits
    rw [unmarked mark digits rfl]
  · rfl

end

/-! ## Texts of characters that stand in decimals -/

theorem not_isBlank_of_isDecimalChar {char : Char} (isDecimal : isDecimalChar char = true) :
    Text.isBlank char = false := by
  simp only [isDecimalChar, Bool.or_eq_true, beq_iff_eq] at isDecimal
  rcases isDecimal with ((((isDigit | rfl) | rfl) | rfl) | rfl) | rfl
  · have bounds : 48 ≤ char.toNat ∧ char.toNat ≤ 57 := by
      simpa [Char.isDigit, UInt32.le_iff_toNat_le] using isDigit
    simp [Text.isBlank]
    omega
  all_goals rfl

/-- Nothing is trimmed from a text without blanks. -/
theorem trimChars_of_no_blank (noBlank : ∀ char ∈ chars, Text.isBlank char = false) :
    Text.trimChars chars = chars := by
  have keeps {row : List Char} (none : ∀ char ∈ row, Text.isBlank char = false) :
      row.dropWhile Text.isBlank = row := by
    cases row with
    | nil => rfl
    | cons first rest => rw [List.dropWhile_cons_of_neg (by simp [none first List.mem_cons_self])]
  have reversed : ∀ char ∈ chars.reverse, Text.isBlank char = false :=
    fun char member => noBlank char (List.mem_reverse.mp member)
  rw [Text.trimChars, keeps noBlank, Text.trimEnd, keeps reversed, List.reverse_reverse]

theorem trimChars_of_isDecimalChar (decimals : ∀ char ∈ chars, isDecimalChar char = true) :
    Text.trimChars chars = chars :=
  trimChars_of_no_blank fun char member => not_isBlank_of_isDecimalChar (decimals char member)

/-- No letter but the mark of an exponent stands in such a text. -/
theorem not_mem_of_isDecimalChar
    (decimals : ∀ char ∈ chars, isDecimalChar char = true)
    {letter : Char}
    (isLetter : isDecimalChar letter = false) :
    letter ∉ chars := by
  intro member
  rw [decimals letter member] at isLetter
  cases isLetter

/-- What can stand in a decimal marks no radix. -/
theorem not_mark_of_isDecimalChar (isDecimal : isDecimalChar mark = true) :
    ¬mark = 'x' ∧ ¬mark = 'X' ∧ ¬mark = 'o' ∧ ¬mark = 'O' ∧ ¬mark = 'b' ∧ ¬mark = 'B' := by
  refine ⟨?_, ?_, ?_, ?_, ?_, ?_⟩ <;> rintro rfl <;> cases isDecimal

theorem radixOfMark?_of_isDecimalChar (isDecimal : isDecimalChar mark = true) :
    radixOfMark? mark = none := by
  simp [radixOfMark?, not_mark_of_isDecimalChar isDecimal]

theorem ofText_of_isDecimalChar
    (decimals : ∀ char ∈ text.toList, isDecimalChar char = true)
    (nonEmpty : text.toList ≠ []) :
    ofText text = (ofFiniteDecimal? text.toList).getD notANumber := by
  have unmarked : marked? text.toList = none := by
    unfold marked?
    split
    · rename_i mark first rest isText
      have isDecimal := decimals mark (by rw [isText]; simp)
      simp [not_mark_of_isDecimalChar isDecimal]
    · rfl
  have noWord : 'I' ∉ (String.ofList text.toList).toList := by
    rw [String.toList_ofList]
    exact not_mem_of_isDecimalChar decimals rfl
  unfold ofText
  rw [trimChars_of_isDecimalChar decimals]
  simp only [unmarked]
  rw [if_neg (by simpa using nonEmpty)]
  split <;> rename_i isWord
  · exact absurd (isWord ▸ by decide) noWord
  · exact absurd (isWord ▸ by decide) noWord
  · exact absurd (isWord ▸ by decide) noWord
  · rfl

theorem ofFront_of_isDecimalChar (decimals : ∀ char ∈ text.toList, isDecimalChar char = true) :
    ofFront text = longestDecimal text.toList.reverse := by
  have noWord : ¬ "Infinity".toList.isPrefixOf
      (text.toList.dropWhile fun char => char == '+' || char == '-') = true := by
    intro starts
    have member : 'I' ∈ text.toList :=
      List.dropWhile_subset _ ((List.isPrefixOf_iff_prefix.mp starts).subset (by decide))
    exact not_mem_of_isDecimalChar decimals rfl member
  unfold ofFront
  rw [trimChars_of_isDecimalChar decimals]
  dsimp only
  rw [if_neg noWord, List.takeWhile_eq_self_iff.mpr decimals]

/-! ## Fronts in range -/

/-- A number is the value of the longest front of a text that is a finite decimal. -/
def IsLongestFinite (chars : List Char) (value : Float) : Prop :=
  ∃ front, front <+: chars ∧ ofFiniteDecimal? front = some value ∧
    ∀ longer, longer <+: chars → front.length < longer.length → ofFiniteDecimal? longer = none

theorem longestDecimal_of_finite
    (finite : ofFiniteDecimal? chars = some value)
    (nonEmpty : chars ≠ []) :
    longestDecimal chars.reverse = value := by
  cases isReversed : chars.reverse with
  | nil => exact absurd (List.reverse_eq_nil_iff.mp isReversed) nonEmpty
  | cons last earlier => rw [longestDecimal, ← isReversed, List.reverse_reverse, finite]

/-- Some front is a finite decimal, so the longest one of them is found. -/
theorem longestDecimal_isLongest
    {front rest : List Char}
    (finite : ofFiniteDecimal? front = some value)
    (nonEmpty : front ≠ []) :
    IsLongestFinite (front ++ rest) (longestDecimal (front ++ rest).reverse) := by
  induction rest using List.reverseRecOn with
  | nil =>
      rw [List.append_nil, longestDecimal_of_finite finite nonEmpty]
      refine ⟨front, List.prefix_rfl, finite, fun longer isFront isLonger => ?_⟩
      exact absurd isFront.length_le (Nat.not_le_of_lt isLonger)
  | append_singleton rest last inductionHypothesis =>
      rw [← List.append_assoc]
      cases whole : ofFiniteDecimal? (front ++ rest ++ [last]) with
      | some found =>
          rw [longestDecimal_of_finite whole (by simp)]
          refine ⟨_, List.prefix_rfl, whole, fun longer isFront isLonger => ?_⟩
          exact absurd isFront.length_le (Nat.not_le_of_lt isLonger)
      | none =>
          have shorter : longestDecimal (front ++ rest ++ [last]).reverse =
              longestDecimal (front ++ rest).reverse := by
            rw [List.reverse_concat, longestDecimal, ← List.reverse_concat, List.reverse_reverse,
              whole]
          obtain ⟨best, isFront, isFinite, isLongest⟩ := inductionHypothesis
          rw [shorter]
          refine ⟨best, isFront.trans (List.prefix_append _ _), isFinite, ?_⟩
          intro longer isLonger more
          rcases List.prefix_concat_iff.mp isLonger with rfl | within
          · exact whole
          · exact isLongest longer within more

theorem mem_digits {digit : Char} (isDigit : digit.isDigit = true) :
    digit ∈ ['0', '1', '2', '3', '4', '5', '6', '7', '8', '9'] := by
  have bounds : 48 ≤ digit.toNat ∧ digit.toNat ≤ 57 := by
    simpa [Char.isDigit, UInt32.le_iff_toNat_le] using isDigit
  obtain ⟨atLeast, atMost⟩ := bounds
  rw [← Char.ofNat_toNat digit]
  generalize digit.toNat = code at atLeast atMost
  interval_cases code <;> decide

/-- A digit is a finite decimal, and so is one behind a point. -/
theorem exists_finite_front
    {first : Char}
    (isText : chars = first :: rest)
    (starts : first.isDigit = true ∨ first = '.' ∧ Token.startsWithDigit rest = true) :
    ∃ front back value, chars = front ++ back ∧ front ≠ [] ∧
      ofFiniteDecimal? front = some value := by
  have alone : (['0', '1', '2', '3', '4', '5', '6', '7', '8', '9'].all fun digit =>
      (ofFiniteDecimal? [digit]).isSome && (ofFiniteDecimal? ['.', digit]).isSome) = true := by
    decide +kernel
  have single (digit : Char) (isDigit : digit.isDigit = true) :
      (ofFiniteDecimal? [digit]).isSome = true ∧
        (ofFiniteDecimal? ['.', digit]).isSome = true :=
    Bool.and_eq_true_iff.mp (List.all_eq_true.mp alone digit (mem_digits isDigit))
  rcases starts with isDigit | ⟨rfl, isDigit⟩
  · obtain ⟨value, isValue⟩ := Option.isSome_iff_exists.mp (single first isDigit).1
    exact ⟨[first], rest, value, isText, List.cons_ne_nil _ _, isValue⟩
  · cases rest with
    | nil => cases isDigit
    | cons digit rest =>
        obtain ⟨value, isValue⟩ := Option.isSome_iff_exists.mp (single digit isDigit).2
        exact ⟨['.', digit], rest, value, isText, List.cons_ne_nil _ _, isValue⟩

/-! ## Decimals out of range -/

theorem Decimal.bits_le (decimal : Decimal) : decimal.bits ≤ Binary64.infinityBits := by
  unfold Decimal.bits
  dsimp only
  split
  · exact Nat.zero_le _
  · split
    · exact Nat.le_refl _
    · split
      · exact Nat.zero_le _
      · unfold Binary64.ratioBits
        split
        · exact Nat.zero_le _
        · exact Nat.min_le_right _ _

/-- A decimal without a sign that is out of range is read as positive infinity. -/
theorem Reading.eq_infinity
    {decimal : Decimal}
    (isInfinite : isInfinite (Reading.toFloat ⟨false, decimal⟩) = true) :
    Reading.toFloat ⟨false, decimal⟩ = infinity := by
  have isFloat : Reading.toFloat ⟨false, decimal⟩ = Float.ofBits (UInt64.ofNat decimal.bits) := by
    rw [Reading.toFloat, if_neg Bool.false_ne_true]
  have isRange : Binary64.infinityBits = 2047 * 2 ^ 52 := by
    rw [Binary64.infinityBits, Nat.pow_eq]
  have atMost := decimal.bits_le
  rcases Nat.lt_or_eq_of_le atMost with below | isBits
  · exfalso
    have isNat : (UInt64.ofNat decimal.bits).toNat = decimal.bits :=
      UInt64.toNat_ofNat_of_lt' (by rw [UInt64.size]; omega)
    have finite : (UInt64.ofNat decimal.bits).toNat / 2 ^ 52 % 2 ^ 11 ≠ 2047 := by
      rw [isNat]
      omega
    rw [isFloat, Number.isInfinite, Binary64.ofFloat, toBits_ofBits finite, Binary64.ofBits]
      at isInfinite
    simp only [Nat.pow_eq] at isInfinite
    rw [if_neg finite] at isInfinite
    split at isInfinite
    · rename_i isParts
      split at isParts <;> cases isParts
    · cases isInfinite
  · rw [isFloat, isBits, infinity]

/-- The value of a decimal that is out of range is positive infinity. -/
theorem eq_infinity_of_shape
    {whole pointed scaled : List Char}
    (shape : HasShape chars whole pointed scaled)
    (isValue : ofDecimal? chars = some value)
    (isInfinite : isInfinite value = true) :
    value = infinity := by
  rw [ofDecimal?, readDecimal?, splitSign_of_shape shape, Option.map_map] at isValue
  obtain ⟨decimal, -, rfl⟩ := Option.map_eq_some_iff.mp isValue
  exact Reading.eq_infinity isInfinite

theorem ofFiniteDecimal?_eq (isValue : ofDecimal? chars = some value) :
    ofFiniteDecimal? chars = if isInfinite value then none else some value := by
  rw [ofFiniteDecimal?, isValue]

/-- What `Number` and `parseFloat` make of a decimal, given what it is in a program. -/
theorem readers_of_decimal
    (decimal : IsDecimal text token last)
    (accepted : ofLiteral? text.toList = some value) :
    (isInfinite value = false → ofText text = value ∧ ofFront text = value) ∧
      (isInfinite value = true →
        value = infinity ∧ ofText text = notANumber ∧ IsLongestFinite text.toList (ofFront text)) := by
  obtain ⟨⟨whole, pointed, scaled, shape⟩, first, rest, isText, starts⟩ := decimal.shape
  have decimals := isDecimalChar_of_shape shape
  have nonEmpty : text.toList ≠ [] := by
    rw [isText]
    exact List.cons_ne_nil first rest
  have isValue : ofDecimal? text.toList = some value := by
    rw [← decimalLiteral?_eq shape, ← ofLiteral?_of_unmarked decimal.unmarked, accepted]
  have inRange := ofFiniteDecimal?_eq isValue
  rw [ofText_of_isDecimalChar decimals nonEmpty, ofFront_of_isDecimalChar decimals]
  constructor
  · intro isFinite
    rw [isFinite] at inRange
    exact ⟨by rw [inRange]; rfl, longestDecimal_of_finite inRange nonEmpty⟩
  · intro isInfinite
    rw [isInfinite] at inRange
    refine ⟨eq_infinity_of_shape shape isValue isInfinite, by rw [inRange]; rfl, ?_⟩
    obtain ⟨front, back, least, isSplit, some, isLeast⟩ := exists_finite_front isText starts
    rw [isSplit]
    exact longestDecimal_isLongest isLeast some

end Number

/-! ## Decimals as scripts -/

namespace Program

open Token ScriptEngine.Parser ScriptEngine.Parser.Script

/-- A decimal is read as a program of one statement. -/
theorem parse_decimal
    (decimal : IsDecimal text token last)
    (accepted : Number.ofLiteral? text.toList = some value)
    (source : Source)
    (isText : source.content = text) :
    (parse source).errors = [] ∧
      (parse source).program = ⟨[.expression token (.number token value)], source⟩ := by
  have isNumber := decimal.isNumber
  have isEnd := decimal.isEnd
  have isLowest : Precedence.ofKind last.kind = .lowest := by
    rw [isEnd]
    rfl
  have rereads : Rereads [token] token (.number token value) 13 := by
    refine rereads_leaf (by rw [isNumber]; rfl) fun follow => .current ?_
    simp only [isNumber, unaryOperator?, updateOperator?]
    rw [numberValue, decimal.spansAll, accepted]
    exact .bind (.pure value) (.pure _)
  have evaluates : Yields 6 (read (.expression .lowest)) [token, last] (.number token value)
      [token, last] :=
    rereads.stops (by decide) [] (rank_le_of_lowest isLowest .lowest)
  have yields : Yields 7 (read .statement) [token, last]
      (.expression token (.number token value)) [token, last] := by
    refine @Yields.read _ _ _ _ .statement _ (.current ?_)
    simp only [isNumber]
    exact .current (.bind evaluates (.bind (endStatement_endOfInput isEnd) (.pure _)))
  have follows : Follows (budget [token, last].length) (.ofTokens [token, last])
      [.expression token (.number token value)] (.ofTokens [last]) :=
    follows_cons (by rw [isNumber]; decide) (List.cons_ne_nil last [])
      (yields _ (by simp [budget])) (.none _)
  have isParsed := @ofTokens_of_follows source _ _ _ (by simp) follows isEnd
  unfold parse Parsed.errors Parsed.failures
  rw [isText, decimal.scanned, isParsed]
  exact ⟨rfl, rfl⟩

/-- Such a program is lowered to its value. -/
theorem lower_decimal
    (token : Token)
    (value : Float)
    (source : Source)
    (assertions : Bool) :
    Code.ofProgram assertions ⟨[.expression token (.number token value)], source⟩ =
      .ok ⟨[], [.evaluate (.constant (.number value))]⟩ :=
  rfl

end Program

namespace Session

open Token (IsDecimal)
open Number (isInfinite infinity notANumber IsLongestFinite)

/--
A decimal has the same value in a script, for `Number` and for `parseFloat` exactly if it is
in the range of doubles.  Otherwise it is infinite in a script, not a number for `Number`, and
`parseFloat` gives the value of its longest front in range.
-/
theorem decimal_readers_agree_iff_finite
    {text : String}
    {token last : Token}
    {value : Float}
    (decimal : IsDecimal text token last)
    (accepted : Number.ofLiteral? text.toList = some value)
    {source : Source}
    (isText : source.content = text)
    (session : Session)
    (options : DumpOptions)
    (call : Caller)
    (this : Value)
    (machine : Machine) :
    (session.run options source).1 = .ok (.number value) ∧
      ∃ whole front,
        Builtin.numberNew.run call this [.string text] machine = .ok (.number whole) machine ∧
        Builtin.parseFloat.run call this [.string text] machine = .ok (.number front) machine ∧
        (whole = value ∧ front = value ↔ isInfinite value = false) ∧
        (isInfinite value = true →
          value = infinity ∧ whole = notANumber ∧ IsLongestFinite text.toList front) := by
  obtain ⟨noErrors, isProgram⟩ := Program.parse_decimal decimal accepted source isText
  obtain ⟨inRange, beyond⟩ := Number.readers_of_decimal decimal accepted
  refine ⟨?_, Number.ofText text, Number.ofFront text, rfl, rfl, ⟨?_, inRange⟩, beyond⟩
  · unfold run
    simp only [noErrors, isProgram, Program.lower_decimal]
    rfl
  · rintro ⟨isWhole, -⟩
    by_contra isBeyond
    obtain ⟨isInfinity, isNaN, -⟩ := beyond (by simpa using isBeyond)
    have apart : isInfinite notANumber ≠ isInfinite infinity := by decide +kernel
    rw [isNaN, isInfinity] at isWhole
    rw [isWhole] at apart
    exact apart rfl

/-- A number that is too large: `parseFloat` drops its last digit. -/
theorem decimal_readers_apart_beyond_range :
    ∃ token last front,
      IsDecimal "1e400" token last ∧
        Number.ofLiteral? "1e400".toList = some infinity ∧
        Number.ofDecimal? "1e40".toList = some front ∧
        (run ⟨.realm 10000, true⟩ {} (.ofEval "1e400")).1 = .ok (.number infinity) ∧
        Builtin.numberNew.run Run.call .undefined [.string "1e400"] (.realm 10000) =
          .ok (.number notANumber) (.realm 10000) ∧
        Builtin.parseFloat.run Run.call .undefined [.string "1e400"] (.realm 10000) =
          .ok (.number front) (.realm 10000) := by
  have decimal : IsDecimal "1e400" ⟨.number, "1e400", 1, 1, 0, 5, false, none⟩
      ⟨.endOfInput, "", 1, 6, 5, 5, false, none⟩ :=
    ⟨by decide +kernel, rfl, rfl, by simp [Number.radixOfMark?]⟩
  have accepted : Number.ofLiteral? "1e400".toList = some infinity := by decide +kernel
  have isFront : Number.ofDecimal? "1e40".toList = some (Number.ofFront "1e400") := by
    decide +kernel
  obtain ⟨runs, whole, front, isWhole, isPrefix, -, beyond⟩ :=
    @decimal_readers_agree_iff_finite _ _ _ _ decimal accepted (.ofEval "1e400") rfl
      ⟨.realm 10000, true⟩ {} Run.call .undefined (.realm 10000)
  obtain ⟨-, rfl, -⟩ := beyond (by decide +kernel)
  exact ⟨_, _, Number.ofFront "1e400", decimal, accepted, isFront, runs, isWhole, rfl⟩

end Session

end ScriptEngine
