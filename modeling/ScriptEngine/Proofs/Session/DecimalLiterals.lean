import ScriptEngine.Proofs.Session.DecimalReaders
import ScriptEngine.Proofs.Token.Alone

namespace ScriptEngine

/-!
# Decimal literals are read whole

A decimal literal is made of digits, a point, more digits and an exponent, of which some may
be missing.  Where the text behind can neither go on with it nor start a name, it is one token,
but for one form: a point with no digits behind it is left to the name that an exponent looks
like, and then only the digits in front of the point are read.  As a number every form is
accepted.
-/

namespace Token

/-! ## The grammar of decimals -/

/-- The exponent of a decimal literal: its mark, a sign if it has one, and its digits. -/
structure LiteralExponent where
  mark : Char
  sign : Option Char
  digits : List Char
  isMark : isExponentMark mark = true
  isSign : ∀ char ∈ sign, char = '+' ∨ char = '-'
  nonEmpty : digits ≠ []
  areDigits : ∀ digit ∈ digits, digit.isDigit = true

/-- A decimal literal: whole digits, the digits behind its point, and its exponent. -/
structure DecimalLiteral where
  whole : List Char
  pointed : Option (List Char)
  exponent : Option LiteralExponent
  areWhole : ∀ digit ∈ whole, digit.isDigit = true
  arePointed : ∀ digits ∈ pointed, ∀ digit ∈ digits, digit.isDigit = true
  hasDigits : whole = [] → ∃ digits ∈ pointed, digits ≠ []

namespace LiteralExponent

/-- How an exponent is written. -/
def text (exponent : LiteralExponent) : List Char :=
  exponent.mark :: (exponent.sign.toList ++ exponent.digits)

/-- The power of ten that an exponent stands for. -/
def power (exponent : LiteralExponent) : Int :=
  if exponent.sign = some '-' then -Number.exponentSize exponent.digits
  else Number.exponentSize exponent.digits

variable (exponent : LiteralExponent)

theorem mark_cases : exponent.mark = 'e' ∨ exponent.mark = 'E' := by
  simpa [isExponentMark] using exponent.isMark

theorem exists_first_digit :
    ∃ first others, exponent.digits = first :: others ∧ first.isDigit = true := by
  obtain ⟨first, others, areDigits⟩ := List.exists_cons_of_ne_nil exponent.nonEmpty
  exact ⟨first, others, areDigits, exponent.areDigits first (by simp [areDigits])⟩

/-- An exponent has no sign or one of two. -/
theorem sign_cases :
    exponent.sign = none ∨ exponent.sign = some '+' ∨ exponent.sign = some '-' := by
  cases isSign : exponent.sign with
  | none => exact .inl rfl
  | some char => refine .inr ((exponent.isSign char isSign).imp ?_ ?_) <;> exact congrArg some

theorem notSign_of_isDigit
    {char : Char}
    (isDigit : char.isDigit = true) :
    ¬(char = '+' || char = '-') = true := by
  intro isSign
  rcases (Bool.or_eq_true _ _).mp isSign with isSign | isSign <;>
    rw [of_decide_eq_true isSign] at isDigit <;> cases isDigit

/-- An exponent is read up to what is no digit. -/
theorem exponent_text
    {rest : List Char}
    (stops : ∀ char ∈ rest.head?, char.isDigit = false) :
    Token.exponent (exponent.text ++ rest) = (exponent.text, rest) := by
  obtain ⟨taken, dropped⟩ := digits_in_front exponent.areDigits stops
  unfold text
  rcases exponent.sign_cases with isSign | isSign | isSign <;> rw [isSign]
  · obtain ⟨first, others, isDigits, isDigit⟩ := exponent.exists_first_digit
    rw [isDigits, List.cons_append] at taken dropped
    simp only [isDigits, Option.toList_none, List.nil_append, List.cons_append]
    rw [exponent_of_mark exponent.isMark, if_neg (notSign_of_isDigit isDigit), if_pos isDigit,
      taken, dropped]
  all_goals
    simp only [Option.toList_some, List.cons_append, List.nil_append]
    rw [exponent_of_mark exponent.isMark, if_pos (by decide), taken, dropped]

theorem readExponent?_text : Number.readExponent? exponent.text = some exponent.power := by
  have isProper : (exponent.digits.isEmpty || !exponent.digits.all Char.isDigit) = false := by
    simpa using ⟨exponent.nonEmpty, exponent.areDigits⟩
  have isMark : exponent.mark = 'e' ∨ exponent.mark = 'E' := exponent.mark_cases
  unfold text power
  rcases exponent.sign_cases with isSign | isSign | isSign
  · have plain := Number.splitSign_of_digits exponent.areDigits [] rfl
    rw [List.append_nil] at plain
    simp [Number.readExponent?, isMark, isSign, plain, isProper]
  all_goals simp [Number.readExponent?, Number.splitSign, isMark, isSign, isProper]

end LiteralExponent

namespace DecimalLiteral

/-- How the point and the digits behind it are written. -/
def pointText (literal : DecimalLiteral) : List Char := literal.pointed.elim [] ('.' :: ·)

/-- How the exponent is written. -/
def exponentText (literal : DecimalLiteral) : List Char :=
  literal.exponent.elim [] LiteralExponent.text

/-- How a decimal literal is written. -/
def text (literal : DecimalLiteral) : List Char :=
  literal.whole ++ literal.pointText ++ literal.exponentText

/-- The exact decimal that a literal stands for. -/
def decimal (literal : DecimalLiteral) : Number.Decimal :=
  ⟨Number.digitsValue (literal.whole ++ literal.pointed.getD []),
    literal.exponent.elim 0 LiteralExponent.power - (literal.pointed.getD []).length⟩

/-- The exponent stands right behind the point. -/
def IsSplit (literal : DecimalLiteral) : Prop :=
  literal.pointed = some [] ∧ literal.exponent.isSome = true

instance (literal : DecimalLiteral) : Decidable literal.IsSplit :=
  inferInstanceAs (Decidable (_ ∧ _))

/-- A text that can neither go on with a literal nor start a name behind it. -/
def Stops (literal : DecimalLiteral) (rest : List Char) : Prop :=
  ∀ char ∈ rest.head?, char.isDigit = false ∧ isNameStart char = false ∧
    (literal.pointed = none → literal.exponent = none → char ≠ '.')

/-- A number that is scanned from the front of a text: its token, its end and what is left. -/
def numberInFront (width : Char → Nat) (place : Place) (taken rest : List Char) :
    Token × Place × List Char :=
  (⟨.number, String.ofList taken, place.line, place.column, place.offset,
    (place.past width taken).offset, false, none⟩, place.past width taken, rest)

variable (literal : DecimalLiteral) {rest : List Char}

/-- A literal starts with a digit, perhaps behind a point. -/
theorem exists_first :
    ∃ first others, literal.text = first :: others ∧
      (first.isDigit = true ∨ first = '.' ∧ startsWithDigit others = true) := by
  unfold text
  cases isWhole : literal.whole with
  | cons first others =>
      have isDigit := literal.areWhole first (by simp [isWhole])
      exact ⟨first, others ++ literal.pointText ++ literal.exponentText, rfl, .inl isDigit⟩
  | nil =>
      obtain ⟨digits, isPointed, nonEmpty⟩ := literal.hasDigits isWhole
      obtain ⟨digit, digits, rfl⟩ := List.exists_cons_of_ne_nil nonEmpty
      have isDigit := literal.arePointed _ isPointed digit List.mem_cons_self
      have isPoint : literal.pointText = '.' :: digit :: digits := by
        rw [pointText, Option.mem_def.mp isPointed]
        rfl
      rw [isPoint]
      exact ⟨'.', digit :: digits ++ literal.exponentText, rfl, .inr ⟨rfl, isDigit⟩⟩

/-- Without digits behind a point there are digits in front. -/
theorem whole_of_point (noDigits : literal.pointed = none ∨ literal.pointed = some []) :
    literal.whole.isEmpty = false := by
  refine Bool.eq_false_iff.mpr fun noWhole => ?_
  obtain ⟨digits, isDigits, nonEmpty⟩ := literal.hasDigits (List.isEmpty_iff.mp noWhole)
  rcases noDigits with isPointed | isPointed <;> rw [isPointed] at isDigits
  · cases isDigits
  · exact nonEmpty (Option.some.inj isDigits).symm

/-- A literal has the shape that the readers of decimals ask for. -/
theorem hasShape : HasShape literal.text literal.whole literal.pointText literal.exponentText where
  covers := rfl
  wholeDigits := literal.areWhole
  point := by
    unfold pointText
    cases isPointed : literal.pointed with
    | none => exact .inl rfl
    | some digits => exact .inr ⟨digits, rfl, literal.arePointed digits isPointed⟩
  exponent := by
    unfold exponentText
    cases literal.exponent with
    | none => exact .inl rfl
    | some exponent =>
        obtain ⟨first, others, isDigits, isDigit⟩ := exponent.exists_first_digit
        have areDigits := exponent.areDigits
        refine .inr ⟨exponent.mark, ?_⟩
        rcases exponent.sign_cases with isSign | isSign | isSign
        · rw [isDigits] at areDigits
          exact ⟨first, others, by simp [LiteralExponent.text, isSign, isDigits],
            exponent.mark_cases, .inr (.inr isDigit), (List.forall_mem_cons.mp areDigits).2⟩
        all_goals
          exact ⟨_, exponent.digits, by simp [LiteralExponent.text, isSign]; rfl,
            exponent.mark_cases, by simp, areDigits⟩

/-! ## Scanning -/

section

variable {literal} (stops : literal.Stops rest)
include stops

/-- Behind the digits stands the mark of the exponent, or what stops the literal. -/
theorem exponentText_stops :
    ∀ char ∈ (literal.exponentText ++ rest).head?,
      char.isDigit = false ∧ (literal.pointed = none → char ≠ '.') ∧
        (literal.exponent = none → isNameStart char = false) := by
  unfold exponentText
  cases isExponent : literal.exponent with
  | none =>
      intro char member
      obtain ⟨notDigit, notName, notPoint⟩ := stops char member
      exact ⟨notDigit, fun noPoint => notPoint noPoint isExponent, fun _ => notName⟩
  | some exponent =>
      rintro _ ⟨⟩
      obtain ⟨notDigit, notPoint⟩ := not_digit_of_isExponentMark exponent.isMark
      exact ⟨notDigit, fun _ => notPoint, nofun⟩

/-- The fraction is the point with its digits, unless an exponent stands right behind the point. -/
theorem fraction_eq :
    fraction literal.whole.isEmpty (literal.pointText ++ (literal.exponentText ++ rest)) =
      if literal.IsSplit then ([], '.' :: (literal.exponentText ++ rest))
      else (literal.pointText, literal.exponentText ++ rest) := by
  have behind := exponentText_stops stops
  by_cases isSplit : literal.IsSplit
  · -- Digits stand in front of the point, and behind it what looks like a name.
    obtain ⟨isPointed, hasExponent⟩ := isSplit
    obtain ⟨exponent, isExponent⟩ := Option.isSome_iff_exists.mp hasExponent
    have hasWhole : literal.whole.isEmpty = false := literal.whole_of_point (.inr isPointed)
    have isName : isNameStart exponent.mark = true := by
      rcases exponent.mark_cases with isMark | isMark <;> rw [isMark] <;> rfl
    have notDigit := (not_digit_of_isExponentMark exponent.isMark).1
    rw [if_pos ⟨isPointed, hasExponent⟩]
    simp [pointText, exponentText, isPointed, isExponent, fraction, LiteralExponent.text, hasWhole,
      isName, notDigit]
  · rw [if_neg isSplit]
    unfold pointText
    cases isPointed : literal.pointed with
    | none =>
        refine fraction_of_no_point _ fun others isPoint => ?_
        rw [Option.elim_none, List.nil_append] at isPoint
        exact (behind '.' (by rw [isPoint]; rfl)).2.1 isPointed rfl
    | some digits =>
        obtain ⟨takes, drops⟩ := digits_in_front (literal.arePointed digits isPointed)
          fun char member => (behind char member).1
        simp only [Option.elim_some, List.cons_append, fraction, takes, drops]
        by_cases isEmpty : digits = []
        · subst isEmpty
          have hasWhole : literal.whole.isEmpty = false := literal.whole_of_point (.inr isPointed)
          have noExponent : literal.exponent = none := by
            rw [← Option.not_isSome_iff_eq_none]
            exact fun hasExponent => isSplit ⟨isPointed, hasExponent⟩
          cases behindPoint : literal.exponentText ++ rest with
          | nil => simp [hasWhole]
          | cons next others =>
              have notName := (behind next (by rw [behindPoint]; rfl)).2.2 noExponent
              simp [hasWhole, notName]
        · simp [isEmpty]

theorem exponent_eq :
    Token.exponent (literal.exponentText ++ rest) = (literal.exponentText, rest) := by
  unfold exponentText
  cases literal.exponent with
  | some exponent => exact exponent.exponent_text fun char member => (stops char member).1
  | none =>
      cases rest with
      | nil => rfl
      | cons first rest =>
          refine exponent_of_no_mark (fun isMark => ?_) rest
          have notName := (stops first rfl).2.1
          simp only [isExponentMark, Bool.or_eq_true, decide_eq_true_eq] at isMark
          rcases isMark with rfl | rfl <;> cases notName

/-- What is read of a literal: all of it, or only the digits in front of the point. -/
theorem decimalLexeme_text :
    decimalLexeme (literal.text ++ rest) =
      if literal.IsSplit then
        Lexeme.verbatim .number literal.whole ('.' :: (literal.exponentText ++ rest))
      else Lexeme.verbatim .number literal.text rest := by
  have noDigit : ∀ char ∈ (literal.pointText ++ (literal.exponentText ++ rest)).head?,
      char.isDigit = false := by
    unfold pointText
    cases literal.pointed with
    | none => exact fun char member => (exponentText_stops stops char member).1
    | some digits =>
        rintro _ ⟨⟩
        rfl
  obtain ⟨takes, drops⟩ := digits_in_front literal.areWhole noDigit
  unfold decimalLexeme text
  rw [List.append_assoc, List.append_assoc, takes, drops]
  dsimp only
  rw [fraction_eq stops]
  split
  · rw [exponent_of_no_mark (by decide)]
    simp
  · rw [exponent_eq stops]

/-- No radix is marked at the front of a literal or behind it. -/
theorem numberLexeme_text :
    numberLexeme (literal.text ++ rest) = decimalLexeme (literal.text ++ rest) := by
  refine numberLexeme_of_no_radix fun mark others isText => ?_
  have isSecond : mark ∈ literal.text ∨ mark ∈ rest.head? := by
    obtain ⟨first, behind, isLiteral, -⟩ := literal.exists_first
    rw [isLiteral, List.cons_append] at isText
    have isBehind := (List.cons.inj isText).2
    cases behind with
    | nil =>
        rw [List.nil_append] at isBehind
        exact .inr (by rw [isBehind]; rfl)
    | cons second behind =>
        have isMark := (List.cons.inj isBehind).1
        exact .inl (by simp [isLiteral, isMark])
  rcases isSecond with member | member
  · exact radixDigits?_of_radixOfMark? (Number.radixOfMark?_of_isDecimalChar
      (Number.isDecimalChar_of_shape literal.hasShape mark member))
  · cases isMark : radixDigits? mark with
    | none => rfl
    | some isRadixDigit =>
        obtain ⟨notDigit, notName, -⟩ := stops mark member
        have isName := (isNameRest_of_radixDigits isMark).1
        rw [isNameRest, notDigit, notName] at isName
        cases isName

theorem next_text
    (width : Char → Nat)
    (previous : Option TokenKind)
    (place : Place) :
    next width previous place (literal.text ++ rest) =
      if literal.IsSplit then
        numberInFront width place literal.whole ('.' :: (literal.exponentText ++ rest))
      else numberInFront width place literal.text rest := by
  have isNumber := (numberLexeme_text stops).trans (decimalLexeme_text stops)
  obtain ⟨first, others, isText, starts⟩ := literal.exists_first
  have isOperand : startsOperand first = true := by
    rcases starts with isDigit | ⟨rfl, -⟩
    · exact startsOperand_of_isNameRest (by simp [isNameRest, isDigit])
    · rfl
  have startsNumber : (first = '.' && startsWithDigit (others ++ rest)) = true ∨
      first.isDigit = true := by
    refine starts.symm.imp_left ?_
    rintro ⟨isPoint, digit⟩
    cases others with
    | nil => cases digit
    | cons second others => simpa [isPoint, startsWithDigit] using digit
  rw [isText, List.cons_append] at isNumber ⊢
  unfold next
  rw [gapFrom_startsOperand isOperand]
  dsimp only
  rw [if_pos rfl, lexeme_of_startsNumber previous startsNumber, isNumber]
  by_cases isSplit : literal.IsSplit
  · simp only [if_pos isSplit]
    rfl
  · simp only [if_neg isSplit]
    rfl

end

/-! ## Reading -/

theorem readExponent?_text :
    Number.readExponent? literal.exponentText =
      some (literal.exponent.elim 0 LiteralExponent.power) := by
  unfold exponentText
  cases literal.exponent with
  | none => rfl
  | some exponent => exact exponent.readExponent?_text

theorem readMagnitude?_text : Number.readMagnitude? literal.text = some literal.decimal := by
  have stops : literal.Stops [] := nofun
  have behind := exponentText_stops stops
  rw [List.append_nil] at behind
  unfold Number.readMagnitude? text pointText decimal
  rw [List.append_assoc]
  cases isPointed : literal.pointed with
  | none =>
      have hasWhole : literal.whole.isEmpty = false := literal.whole_of_point (.inl isPointed)
      obtain ⟨takes, drops⟩ := digits_in_front literal.areWhole fun char member =>
        (behind char member).1
      simp only [Option.elim_none, List.nil_append, takes, drops, Option.getD_none]
      split
      · rename_i isPoint
        exact absurd rfl ((behind '.' (by rw [isPoint]; rfl)).2.1 isPointed)
      · simp [hasWhole, literal.readExponent?_text]
  | some digits =>
      have isSome : (literal.whole.isEmpty && digits.isEmpty) = false := by
        cases digits with
        | nil => rw [literal.whole_of_point (.inr isPointed), Bool.false_and]
        | cons => exact Bool.and_false _
      obtain ⟨takes, drops⟩ := @digits_in_front literal.whole
        ('.' :: digits ++ literal.exponentText) literal.areWhole (by rintro _ ⟨⟩; rfl)
      obtain ⟨takesPointed, dropsPointed⟩ :=
        digits_in_front (literal.arePointed digits isPointed) fun char member =>
          (behind char member).1
      simp only [Option.elim_some, takes, drops, Option.getD_some]
      simp only [List.cons_append, takesPointed, dropsPointed, isSome,
        literal.readExponent?_text]
      rfl

/-- A literal is accepted as a number. -/
theorem ofLiteral?_text :
    Number.ofLiteral? literal.text = some (Number.Reading.toFloat ⟨false, literal.decimal⟩) := by
  have decimals := Number.isDecimalChar_of_shape literal.hasShape
  have unmarked : ∀ mark digits, literal.text = '0' :: mark :: digits →
      Number.radixOfMark? mark = none := fun mark digits isText =>
    Number.radixOfMark?_of_isDecimalChar (decimals mark (by simp [isText]))
  rw [Number.ofLiteral?_of_unmarked unmarked, Number.decimalLiteral?_eq literal.hasShape,
    Number.ofDecimal?, Number.readDecimal?, Number.splitSign_of_shape literal.hasShape]
  simp only [readMagnitude?_text, Option.map_some]

/--
In front of what can neither go on with it nor start a name, a decimal literal is scanned as one
number exactly if its exponent does not stand right behind its point; else only the digits in
front of the point are.  Every literal is accepted as the number that its digits stand for.
-/
theorem decimal_literal_scanned_whole_iff
    {rest : List Char}
    (stops : literal.Stops rest)
    (width : Char → Nat)
    (previous : Option TokenKind)
    (place : Place) :
    (next width previous place (literal.text ++ rest) =
        numberInFront width place literal.text rest ↔ ¬literal.IsSplit) ∧
      (literal.IsSplit → next width previous place (literal.text ++ rest) =
        numberInFront width place literal.whole ('.' :: (literal.exponentText ++ rest))) ∧
      Number.ofLiteral? literal.text =
        some (Number.Reading.toFloat ⟨false, literal.decimal⟩) := by
  have isNext := next_text stops width previous place
  refine ⟨⟨fun isWhole isSplit => ?_, fun notSplit => ?_⟩, fun isSplit => ?_,
    literal.ofLiteral?_text⟩
  · rw [isWhole, if_pos isSplit] at isNext
    have lengths := congrArg (fun found => found.2.2.length) isNext
    simp only [numberInFront, List.length_cons, List.length_append] at lengths
    omega
  · rwa [if_neg notSplit] at isNext
  · rwa [if_pos isSplit] at isNext

/-- A number with an exponent right behind its point. -/
def pointThenExponent : DecimalLiteral where
  whole := ['1']
  pointed := some []
  exponent := some ⟨'e', none, ['5'], rfl, nofun, nofun, by simp⟩
  areWhole := by simp
  arePointed := by simp
  hasDigits := nofun

/-- A number without whole digits, with a sign in its exponent. -/
def pointInFront : DecimalLiteral where
  whole := []
  pointed := some ['5']
  exponent := some ⟨'E', some '-', ['3'], rfl, by simp, nofun, by simp⟩
  areWhole := nofun
  arePointed := by simp
  hasDigits := fun _ => ⟨['5'], rfl, nofun⟩

/-- The exponent behind a point is left out, and one behind the digits of a fraction is read. -/
theorem decimal_literal_scanned_of_point :
    next Char.utf8Size none .origin ['1', '.', 'e', '5'] ≠
        numberInFront Char.utf8Size .origin ['1', '.', 'e', '5'] [] ∧
      next Char.utf8Size none .origin ['1', '.', 'e', '5'] =
        numberInFront Char.utf8Size .origin ['1'] ['.', 'e', '5'] ∧
      next Char.utf8Size none .origin ['.', '5', 'E', '-', '3', ';'] =
        numberInFront Char.utf8Size .origin ['.', '5', 'E', '-', '3'] [';'] ∧
      (Number.ofLiteral? ['1', '.', 'e', '5']).isSome = true := by
  have stops : pointInFront.Stops [';'] := by simp [Stops, pointInFront, isNameStart]
  obtain ⟨isWhole, isSplit, accepted⟩ :=
    @decimal_literal_scanned_whole_iff pointThenExponent [] (by simp [Stops]) Char.utf8Size none
      .origin
  have isRead := (pointInFront.decimal_literal_scanned_whole_iff stops Char.utf8Size none
    .origin).1.mpr (by decide)
  exact ⟨fun whole => isWhole.mp whole (by decide), isSplit (by decide), isRead,
    by rw [show ['1', '.', 'e', '5'] = pointThenExponent.text from rfl, accepted]; rfl⟩

end DecimalLiteral

end Token

end ScriptEngine
