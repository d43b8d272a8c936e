import Mathlib.Data.List.TakeWhile
import ScriptEngine.Proofs.Program.Writing
import ScriptEngine.Proofs.Token.Kinds

namespace ScriptEngine.Token

/-!
# Tokens on their own

What a token of a text covers is scanned as the same token when nothing follows it.  So a
name, a number, a string and a regular expression may be taken out of their text, and no
comment starts where a regular expression does.
-/

variable {token : Token} {first quote : Char} {text rest : List Char} {previous : Option TokenKind}

/-! ## Lexemes on their own -/

/-- A lexeme with nothing behind it. -/
def Lexeme.alone (found : Lexeme) : Lexeme := { found with rest := [] }

theorem nameLexeme_alone (text : List Char) :
    nameLexeme (nameLexeme text).taken = (nameLexeme text).alone := by
  have areNames : ∀ char ∈ text.takeWhile isNameRest, isNameRest char = true :=
    fun _ => List.mem_takeWhile_imp
  unfold nameLexeme Lexeme.alone
  simp only [List.takeWhile_eq_self_iff.mpr areNames, List.dropWhile_eq_nil_iff.mpr areNames]

/-- A string that is closed is closed by the same quote whatever follows. -/
theorem stringBody_taken
    (closed : (stringBody quote text).closed = true)
    (rest : List Char) :
    stringBody quote ((stringBody quote text).taken ++ quote :: rest) =
      ⟨(stringBody quote text).taken, quote :: rest, true⟩ := by
  fun_induction stringBody quote text with
  | case1 | case2 | case3 | case6 => simp at closed
  | case4 hidden text goesOn inductionHypothesis =>
      have closed : (stringBody quote text).closed = true := closed
      simp [Body.cons, stringBody, goesOn, inductionHypothesis closed]
  | case5 text notLast notHiding =>
      have notEscape : quote = '\\' → False := by
        rintro rfl
        cases text with
        | nil => exact notLast rfl rfl
        | cons hidden text => exact notHiding hidden text rfl rfl
      rw [List.nil_append, stringBody, if_pos rfl]
      · exact fun isEscape _ => notEscape isEscape
      · exact fun _ _ isEscape _ => notEscape isEscape
  | case7 char text notLast notHiding notClosing goesOn inductionHypothesis =>
      have closed : (stringBody quote text).closed = true := closed
      have notEscape := not_escape notLast notHiding
      simp [Body.cons, stringBody, notEscape, notClosing, goesOn, inductionHypothesis closed]

theorem stringLexeme_alone (isString : (stringLexeme quote text).kind = .string) :
    ∃ body, (stringLexeme quote text).taken = quote :: (body ++ [quote]) ∧
      stringLexeme quote (body ++ [quote]) = (stringLexeme quote text).alone := by
  have split := stringBody_closed quote text
  cases closed : (stringBody quote text).closed with
  | false =>
      unfold stringLexeme at isString
      simp [closed] at isString
  | true =>
      obtain ⟨rest, isRest⟩ := split closed
      refine ⟨(stringBody quote text).taken, ?_, ?_⟩
      · simp [stringLexeme, closed, isRest]
      · simp [stringLexeme, closed, isRest, stringBody_taken closed, Lexeme.alone]

/-- A regular expression that is closed is closed by the same slash whatever follows. -/
theorem regexBody_taken
    {inClass : Bool}
    (closed : (regexBody inClass text).closed = true)
    (rest : List Char) :
    regexBody inClass ((regexBody inClass text).taken ++ '/' :: rest) =
      ⟨(regexBody inClass text).taken, '/' :: rest, true⟩ := by
  fun_induction regexBody inClass text with
  | case1 | case2 | case3 | case5 => simp at closed
  | case4 inClass hidden text goesOn inductionHypothesis =>
      have closed : (regexBody inClass text).closed = true := closed
      simp only [Bool.or_eq_true, beq_iff_eq, not_or] at goesOn
      simp [Body.cons, regexBody, goesOn, inductionHypothesis closed]
  | case6 inClass char text notLast notHiding goesOn closes =>
      have outside : inClass = false := by simpa using (Bool.and_eq_true_iff.mp closes).2
      subst outside
      rfl
  | case7 inClass char text notLast notHiding goesOn notClosing inside inductionHypothesis =>
      have closed : (regexBody inside text).closed = true := closed
      have notEscape := not_escape notLast notHiding
      rw [Body.cons, List.cons_append, List.cons_append, List.nil_append, regexBody, if_neg goesOn,
        if_neg notClosing]
      · change (regexBody inside _).cons [char] = _
        rw [inductionHypothesis closed]
        rfl
      · exact fun isEscape => absurd isEscape notEscape
      · exact fun _ _ isEscape => absurd isEscape notEscape

/-- What a regular expression covers is scanned as it in front of what is no flag. -/
theorem regexLexeme_taken (isRegex : (regexLexeme text).kind = .regex) :
    ∃ body, (regexLexeme text).taken = '/' :: body ∧
      ∀ rest, (∀ char ∈ rest.head?, isNameStart char = false) →
        regexLexeme (body ++ rest) = (regexLexeme text).alone.before rest := by
  cases closed : (regexBody false text).closed with
  | false =>
      unfold regexLexeme at isRegex
      simp [closed] at isRegex
  | true =>
      obtain ⟨behind, isRest⟩ := regexBody_closed false text closed
      refine ⟨(regexBody false text).taken ++ '/' :: behind.takeWhile isNameStart, ?_, ?_⟩
      · simp [regexLexeme, closed, isRest, Lexeme.verbatim]
      · intro rest noFlag
        have areFlags : ∀ char ∈ behind.takeWhile isNameStart, isNameStart char = true :=
          fun _ => List.mem_takeWhile_imp
        have isBody := regexBody_taken closed (behind.takeWhile isNameStart ++ rest)
        have none : rest.takeWhile isNameStart = [] ∧ rest.dropWhile isNameStart = rest := by
          cases rest with
          | nil => exact ⟨rfl, rfl⟩
          | cons first rest => simp [noFlag first rfl]
        simp [regexLexeme, closed, isRest, isBody, Lexeme.verbatim, Lexeme.alone, Lexeme.before,
          List.takeWhile_append_of_pos areFlags, List.dropWhile_append_of_pos areFlags, none]

/-! ## Numbers -/

/-- What no digit starts is left alone when digits are taken. -/
theorem digits_in_front
    {digits rest : List Char}
    (areDigits : ∀ char ∈ digits, char.isDigit = true)
    (noDigit : ∀ char ∈ rest.head?, char.isDigit = false) :
    (digits ++ rest).takeWhile Char.isDigit = digits ∧
      (digits ++ rest).dropWhile Char.isDigit = rest := by
  rw [List.takeWhile_append_of_pos areDigits, List.dropWhile_append_of_pos areDigits]
  cases rest with
  | nil => simp
  | cons first rest => simp [noDigit first rfl]

theorem not_digit_of_isExponentMark {char : Char} (isMark : isExponentMark char = true) :
    char.isDigit = false ∧ char ≠ '.' := by
  simp only [isExponentMark, Bool.or_eq_true, decide_eq_true_eq] at isMark
  rcases isMark with rfl | rfl <;> decide

/-- An exponent is empty or starts with its mark, and it is read as itself. -/
theorem exponent_alone (text : List Char) :
    (∀ char ∈ (exponent text).1.head?, isExponentMark char = true) ∧
      exponent (exponent text).1 = ((exponent text).1, []) := by
  match text with
  | [] => exact ⟨by simp [exponent], rfl⟩
  | [mark] => exact ⟨by simp [exponent], rfl⟩
  | mark :: following :: rest =>
      have areDigits (text : List Char) : ∀ char ∈ text.takeWhile Char.isDigit,
          char.isDigit = true := fun _ => List.mem_takeWhile_imp
      by_cases isMark : isExponentMark mark = true
      · rw [exponent_of_mark isMark]
        split
        · rename_i isSign
          refine ⟨by simpa using isMark, ?_⟩
          rw [exponent_of_mark isMark, if_pos isSign,
            List.takeWhile_eq_self_iff.mpr (areDigits rest),
            List.dropWhile_eq_nil_iff.mpr (areDigits rest)]
        · rename_i notSign
          split
          · rename_i isDigit
            refine ⟨by simpa using isMark, ?_⟩
            have areAll := areDigits (following :: rest)
            rw [List.takeWhile_cons_of_pos isDigit] at areAll ⊢
            rw [exponent_of_mark isMark, if_neg notSign, if_pos isDigit,
              List.takeWhile_eq_self_iff.mpr areAll, List.dropWhile_eq_nil_iff.mpr areAll]
          · exact ⟨by simp, rfl⟩
      · rw [exponent_of_no_mark isMark]
        exact ⟨by simp, rfl⟩

/-- A point takes the digits behind it, or nothing, or it is left to the name behind it. -/
theorem fraction_point_cases (wholeIsEmpty : Bool) (rest : List Char) :
    (fraction wholeIsEmpty ('.' :: rest) =
        ('.' :: rest.takeWhile Char.isDigit, rest.dropWhile Char.isDigit) ∧
      ∀ behind, (∀ char ∈ behind.head?, char.isDigit = false) →
        fraction wholeIsEmpty ('.' :: (rest.takeWhile Char.isDigit ++ behind)) =
          ('.' :: rest.takeWhile Char.isDigit, behind)) ∨
      fraction wholeIsEmpty ('.' :: rest) = ([], '.' :: rest) ∨
      (fraction wholeIsEmpty ('.' :: rest) = (['.'], rest) ∧
        fraction wholeIsEmpty ['.'] = (['.'], []) ∧
        ∀ next ∈ rest.head?, isNameStart next = false) := by
  by_cases some : (!(rest.takeWhile Char.isDigit).isEmpty || wholeIsEmpty) = true
  · refine .inl ⟨by simp only [fraction, if_pos some], fun behind noDigit => ?_⟩
    obtain ⟨areDigits, isBehind⟩ :=
      @digits_in_front (rest.takeWhile Char.isDigit) behind
        (fun _ => List.mem_takeWhile_imp) noDigit
    simp only [fraction, areDigits, isBehind, if_pos some]
  · have none : (!(rest.takeWhile Char.isDigit).isEmpty) = false ∧ wholeIsEmpty = false :=
      Bool.or_eq_false_iff.mp (Bool.eq_false_iff.mpr some)
    obtain ⟨-, rfl⟩ := none
    cases rest with
    | nil => exact .inr (.inr ⟨rfl, rfl, by simp⟩)
    | cons next rest =>
        by_cases starts : isNameStart next = true
        · exact .inr (.inl (by simp only [fraction, if_neg some, if_pos starts]))
        · refine .inr (.inr ⟨by simp only [fraction, if_neg some, if_neg starts], rfl, ?_⟩)
          rintro _ ⟨⟩
          exact Bool.eq_false_iff.mpr starts

/-- A fraction is empty or starts with a point, and in front of an exponent it is read as itself. -/
theorem fraction_alone (wholeIsEmpty : Bool) (text : List Char) :
    (∀ char ∈ (fraction wholeIsEmpty text).1.head?, char = '.') ∧
      fraction wholeIsEmpty ((fraction wholeIsEmpty text).1 ++
          (exponent (fraction wholeIsEmpty text).2).1) =
        ((fraction wholeIsEmpty text).1, (exponent (fraction wholeIsEmpty text).2).1) := by
  have marked := (exponent_alone (fraction wholeIsEmpty text).2).1
  have none : fraction wholeIsEmpty (exponent (fraction wholeIsEmpty text).2).1 =
      ([], (exponent (fraction wholeIsEmpty text).2).1) := by
    refine fraction_of_no_point wholeIsEmpty fun rest isPoint => ?_
    rw [isPoint] at marked
    cases marked '.' rfl
  by_cases isPoint : ∃ rest, text = '.' :: rest
  · obtain ⟨rest, rfl⟩ := isPoint
    rcases fraction_point_cases wholeIsEmpty rest with
      ⟨isFraction, again⟩ | isFraction | ⟨isFraction, again, noName⟩
    · rw [isFraction] at marked ⊢
      exact ⟨by simp,
        again _ fun char member => (not_digit_of_isExponentMark (marked char member)).1⟩
    · rw [isFraction] at none ⊢
      exact ⟨by simp, none⟩
    · rw [isFraction]
      -- What does not start a name marks no exponent.
      have noExponent : (exponent rest).1 = [] := by
        cases rest with
        | nil => rfl
        | cons next rest =>
            have noMark : ¬isExponentMark next = true := by
              intro isMark
              simp only [isExponentMark, Bool.or_eq_true, decide_eq_true_eq] at isMark
              have noName := noName next rfl
              rcases isMark with rfl | rfl <;> cases noName
            rw [exponent_of_no_mark noMark]
      refine ⟨by simp, ?_⟩
      dsimp only
      rw [noExponent]
      exact again
  · have isFraction : fraction wholeIsEmpty text = ([], text) :=
      fraction_of_no_point wholeIsEmpty fun rest same => isPoint ⟨rest, same⟩
    rw [isFraction] at none ⊢
    exact ⟨by simp, none⟩

theorem decimalLexeme_alone (text : List Char) :
    decimalLexeme (decimalLexeme text).taken = (decimalLexeme text).alone := by
  obtain ⟨isPoint, isFraction⟩ := fraction_alone (text.takeWhile Char.isDigit).isEmpty
    (text.dropWhile Char.isDigit)
  obtain ⟨isMark, isExponent⟩ := exponent_alone
    (fraction (text.takeWhile Char.isDigit).isEmpty (text.dropWhile Char.isDigit)).2
  have noDigit : ∀ char ∈ ((fraction (text.takeWhile Char.isDigit).isEmpty
        (text.dropWhile Char.isDigit)).1 ++
      (exponent (fraction (text.takeWhile Char.isDigit).isEmpty
        (text.dropWhile Char.isDigit)).2).1).head?, char.isDigit = false := by
    intro char member
    rw [List.head?_append] at member
    cases isHead : (fraction (text.takeWhile Char.isDigit).isEmpty
        (text.dropWhile Char.isDigit)).1.head? with
    | none =>
        rw [isHead] at member
        exact (not_digit_of_isExponentMark (isMark char member)).1
    | some first =>
        rw [isHead] at member
        obtain rfl : first = char := Option.some.inj member
        rw [isPoint first isHead]
        rfl
  have digits := @digits_in_front (text.takeWhile Char.isDigit) _
    (fun _ => List.mem_takeWhile_imp) noDigit
  unfold decimalLexeme Lexeme.verbatim Lexeme.alone
  simp only [List.append_assoc, digits.1, digits.2, isFraction, isExponent]

theorem numberLexeme_alone (text : List Char) :
    numberLexeme (numberLexeme text).taken = (numberLexeme text).alone := by
  rcases radix_cases text with ⟨mark, rest, isRadixDigit, rfl, isMark⟩ | noRadix
  · have areDigits : ∀ char ∈ rest.takeWhile isRadixDigit, isRadixDigit char = true :=
      fun _ => List.mem_takeWhile_imp
    simp [numberLexeme, isMark, Lexeme.verbatim, Lexeme.alone,
      List.takeWhile_eq_self_iff.mpr areDigits, List.dropWhile_eq_nil_iff.mpr areDigits]
  · rw [numberLexeme_of_no_radix noRadix, ← decimalLexeme_alone]
    -- What is taken is a front of the text, and has a mark of a radix only if the text has.
    refine numberLexeme_of_no_radix fun mark rest isTaken => ?_
    have whole := decimalLexeme_append text
    rw [isTaken] at whole
    exact noRadix mark _ whole.symm

/-! ## Every lexeme -/

/-- How a lexeme is written: a string between its quotes, another one as its literal. -/
def Lexeme.writing (found : Lexeme) : List Char :=
  match found.quote with
  | some quote => quote :: (found.literal.toList ++ [quote])
  | none => found.literal.toList

/--
A lexeme is written as what it covers, which is scanned as the same lexeme on its own.
Only strings have quotes.
-/
structure Lexeme.IsAlone (found : Lexeme) : Prop where
  quoted : found.kind ≠ .string → found.quote = none
  written : found.writing = found.taken
  scanned : lexeme none found.taken = found.alone

/-- Whether the tokens of a kind are marks, or no tokens of a text at all. -/
def isMark (kind : TokenKind) : Bool :=
  marks.any (·.2 == kind) || kind == .illegal || kind == .endOfInput

theorem isMark_punctuatorLexeme (first : Char) (rest : List Char) :
    isMark (punctuatorLexeme first rest).kind = true ∧
      (punctuatorLexeme first rest).quote = none := by
  unfold punctuatorLexeme
  split
  · rename_i kind length found
    obtain ⟨entry, isEntry, isFound⟩ := Option.map_eq_some_iff.mp found
    obtain ⟨rfl, -⟩ := Prod.mk.inj isFound
    refine ⟨?_, rfl⟩
    have isAny : marks.any (·.2 == entry.2) = true :=
      List.any_eq_true.mpr ⟨entry, List.mem_of_find?_eq_some isEntry, beq_self_eq_true _⟩
    simp [isMark, Lexeme.verbatim, isAny]
  · exact ⟨rfl, rfl⟩

theorem isAlone_stringLexeme
    (isQuote : (quote = '"' || quote = '\'') = true)
    (isString : (stringLexeme quote text).kind = .string) :
    (stringLexeme quote text).IsAlone := by
  obtain ⟨body, isTaken, isAlone⟩ := stringLexeme_alone isString
  have isFirst (others : List Char) :
      lexeme none (quote :: others) = stringLexeme quote others := by
    have notNul : isNul quote = false := by
      rcases (Bool.or_eq_true _ _).mp isQuote with isOne | isOne <;>
        rw [of_decide_eq_true isOne] <;> rfl
    simp only [lexeme, notNul, isQuote]
    rfl
  refine ⟨absurd isString, ?_, by rw [isTaken, isFirst, isAlone]⟩
  unfold stringLexeme at isString ⊢
  dsimp only at isString ⊢
  split at isString
  · rename_i closed isRest
    obtain ⟨rest, isQuoted⟩ := stringBody_closed quote text closed
    obtain ⟨rfl, -⟩ := List.cons.inj (isRest.symm.trans isQuoted)
    simp [Lexeme.writing]
  · cases isString

theorem isAlone_regexLexeme (isRegex : (regexLexeme text).kind = .regex) :
    (regexLexeme text).IsAlone := by
  obtain ⟨body, isTaken, again⟩ := regexLexeme_taken isRegex
  have isFirst : lexeme none ('/' :: body) = regexLexeme body := rfl
  have isAlone := again [] (by simp)
  rw [List.append_nil] at isAlone
  refine ⟨fun _ => ?_, ?_, ?_⟩
  · unfold regexLexeme at isRegex ⊢
    dsimp only at isRegex ⊢
    split at isRegex
    · rfl
    · cases isRegex
  · unfold regexLexeme at isRegex ⊢
    dsimp only at isRegex ⊢
    split at isRegex
    · rename_i closed isRest
      simp [Lexeme.writing, Lexeme.verbatim]
    · cases isRegex
  · rw [isTaken, isFirst, isAlone]
    simp [Lexeme.before, Lexeme.alone]

/-- A number starts with a digit, or with a point and a digit. -/
theorem numberLexeme_starts
    (starts : (first = '.' && startsWithDigit rest) = true ∨ first.isDigit = true) :
    ∃ others, (numberLexeme (first :: rest)).taken = first :: others ∧
      ((first = '.' && startsWithDigit others) = true ∨ first.isDigit = true) := by
  rcases starts with isPoint | isDigit
  · obtain ⟨rfl, digit⟩ : first = '.' ∧ startsWithDigit rest = true := by simpa using isPoint
    cases rest with
    | nil => cases digit
    | cons second rest =>
        have digit : second.isDigit = true := digit
        have isTaken : (numberLexeme ('.' :: second :: rest)).taken =
            '.' :: second :: (rest.takeWhile Char.isDigit ++
              (exponent (rest.dropWhile Char.isDigit)).1) := by
          simp [numberLexeme, decimalLexeme, fraction, Lexeme.verbatim, digit]
        exact ⟨_, isTaken, .inl (by simpa [startsWithDigit] using digit)⟩
  · have fits := fits_numberLexeme rest (.inl isDigit)
    have isNumber := (numberLexeme_verbatim (first :: rest)).1
    obtain ⟨letter, others, isTaken⟩ :=
      List.exists_cons_of_ne_nil (fits.takes (by rw [isNumber]; decide))
    have whole := numberLexeme_append (first :: rest)
    rw [isTaken] at whole
    obtain ⟨rfl, -⟩ := List.cons.inj whole
    exact ⟨others, isTaken, .inr isDigit⟩

theorem lexeme_of_startsNumber
    (previous : Option TokenKind)
    (starts : (first = '.' && startsWithDigit rest) = true ∨ first.isDigit = true) :
    lexeme previous (first :: rest) = numberLexeme (first :: rest) := by
  rcases starts with isPoint | isDigit
  · obtain ⟨rfl, digit⟩ : first = '.' ∧ startsWithDigit rest = true := by simpa using isPoint
    simp only [lexeme, digit, Bool.and_true]
    rfl
  · exact lexeme_of_isDigit previous isDigit rest

theorem isAlone_numberLexeme
    (starts : (first = '.' && startsWithDigit rest) = true ∨ first.isDigit = true) :
    (numberLexeme (first :: rest)).IsAlone := by
  obtain ⟨isNumber, noQuote⟩ := numberLexeme_verbatim (first :: rest)
  obtain ⟨others, isTaken, startsAgain⟩ := numberLexeme_starts starts
  have written := (fits_numberLexeme rest (by
    rcases starts with isPoint | isDigit
    · exact .inr (of_decide_eq_true (Bool.and_eq_true_iff.mp isPoint).1)
    · exact .inl isDigit)).written
  rw [isNumber] at written
  refine ⟨fun _ => noQuote, ?_, ?_⟩
  · rw [Lexeme.writing, noQuote]
    exact written.symm
  · rw [← numberLexeme_alone, isTaken]
    exact lexeme_of_startsNumber none startsAgain

theorem isAlone_nameLexeme (rest : List Char) (starts : isNameStart first = true) :
    (nameLexeme (first :: rest)).IsAlone := by
  have isTaken : (nameLexeme (first :: rest)).taken = first :: rest.takeWhile isNameRest := by
    simp [nameLexeme, isNameRest, starts]
  refine ⟨fun _ => rfl, by simp [Lexeme.writing, nameLexeme], ?_⟩
  rw [← nameLexeme_alone, isTaken]
  exact lexeme_of_isNameStart none starts _

/-- A lexeme is a mark, or it is scanned on its own. -/
theorem lexeme_isAlone (previous : Option TokenKind) (text : List Char) :
    (isMark (lexeme previous text).kind = true ∧ (lexeme previous text).quote = none) ∨
      (lexeme previous text).IsAlone := by
  unfold lexeme
  split
  · exact .inl ⟨rfl, rfl⟩
  · rename_i first rest
    split
    · exact .inl ⟨rfl, rfl⟩
    · split
      · rename_i isQuote
        by_cases isString : (stringLexeme first rest).kind = .string
        · exact .inr (isAlone_stringLexeme isQuote isString)
        · refine .inl ?_
          unfold stringLexeme at isString ⊢
          dsimp only at isString ⊢
          split at isString <;> simp_all [isMark]
      · split
        · by_cases isRegex : (regexLexeme rest).kind = .regex
          · exact .inr (isAlone_regexLexeme isRegex)
          · refine .inl ?_
            unfold regexLexeme at isRegex ⊢
            dsimp only at isRegex ⊢
            split at isRegex
            · exact absurd rfl isRegex
            · exact ⟨rfl, rfl⟩
        · split
          · exact .inr (isAlone_numberLexeme (.inl ‹_›))
          · split
            · exact .inr (isAlone_nameLexeme rest ‹_›)
            · split
              · exact .inr (isAlone_numberLexeme (.inr ‹_›))
              · exact .inl (isMark_punctuatorLexeme first rest)

/-! ## Tokens that are found -/

/-- What is left behind blanks and comments starts with neither. -/
theorem gapFrom_rest {mode : BlankMode} (closed : (gapFrom mode text).closed = true) :
    gapFrom .between (gapFrom mode text).rest = ⟨[], (gapFrom mode text).rest, false, true⟩ := by
  have atNul {char : Char} {rest : List Char} (nul : isNul char = true) :
      gapFrom .between (char :: rest) = ⟨[], char :: rest, false, true⟩ := by
    obtain rfl : char = Char.ofNat 0 := Char.ext (UInt32.toNat_inj.mp (beq_iff_eq.mp nul))
    rfl
  fun_induction gapFrom mode text with
  | case1 | case7 => rfl
  | case2 _ inductionHypothesis | case3 _ inductionHypothesis | case4 _ _ _ inductionHypothesis
  | case5 _ _ _ _ _ _ inductionHypothesis | case8 _ inductionHypothesis
  | case10 _ _ _ _ inductionHypothesis | case12 _ inductionHypothesis
  | case14 _ _ _ _ inductionHypothesis => exact inductionHypothesis closed
  | case6 char rest notLine notBlock notFeed notSpace =>
      rw [gapFrom, if_neg notFeed, if_neg notSpace]
      · exact notLine
      · exact notBlock
  | case9 _ _ _ nul => exact atNul nul
  | case11 | case13 => cases closed

/-- A token as it is found in a text: at the front of what blanks and comments have left. -/
inductive IsFound (token : Token) : Prop where
  | inText (previous : Option TokenKind) (text : List Char) :
      gapFrom .between text = ⟨[], text, false, true⟩ →
      token.kind = (lexeme previous text).kind →
      token.literal = (lexeme previous text).literal →
      token.quote = (lexeme previous text).quote →
      IsFound token
  | comment : token.kind = .illegal → TokenKind.isReserved token.literal = false → IsFound token

theorem isFound_of_mem_scanFrom
    {width : Char → Nat}
    {budget : Nat}
    {place : Place}
    (member : token ∈ scanFrom width budget previous place text) :
    token.IsFound := by
  induction budget generalizing previous place text with
  | zero => cases member
  | succ budget inductionHypothesis =>
      have first : (next width previous place text).1.IsFound := by
        unfold next
        dsimp only
        split
        · rename_i closed
          exact .inText previous _ (gapFrom_rest closed) rfl rfl rfl
        · exact .comment rfl rfl
      unfold scanFrom at member
      dsimp only at member
      split at member
      · rw [List.mem_singleton.mp member]
        exact first
      · rcases List.mem_cons.mp member with rfl | later
        · exact first
        · exact inductionHypothesis later

/-- Whether all tokens of a kind are marks or words with one spelling. -/
def isOnlySpelling (kind : TokenKind) (literal : String) : Bool :=
  !([.illegal, .endOfInput, .number, .identifier, .string, .regex] :
      List TokenKind).contains kind &&
    marks.all (fun entry => entry.2 != kind || entry.1 == literal.toList) &&
    TokenKind.reservedWords.all fun entry => entry.2 != kind || entry.1 == literal

namespace IsFound

theorem isTold (isFound : token.IsFound) : Tells token.literal token.kind := by
  cases isFound with
  | inText previous text _ isKind isLiteral _ =>
      rw [isKind, isLiteral]
      exact tells_lexeme previous text
  | comment isIllegal _ =>
      rw [isIllegal]
      trivial

theorem isSpelled (isFound : token.IsFound) : token.IsSpelled := by
  unfold IsSpelled
  cases isFound with
  | inText previous text _ isKind isLiteral _ =>
      rw [isKind, isLiteral]
      exact spellsWord_lexeme previous text
  | comment _ notReserved =>
      intro isReserved
      rw [notReserved] at isReserved
      cases isReserved

/-- A token that is no mark is scanned on its own. -/
theorem isScanned (isFound : token.IsFound) (notMark : isMark token.kind = false) :
    token.IsScanned := by
  cases isFound with
  | inText previous text _ isKind isLiteral isQuote =>
      rcases lexeme_isAlone previous text with ⟨mark, -⟩ | isAlone
      · rw [← isKind, notMark] at mark
        cases mark
      · have isWriting : token.writing = (lexeme previous text).taken := by
          rw [← isAlone.written, Token.writing, Lexeme.writing]
          cases quoted : (lexeme previous text).quote with
          | none | some quote => simp only [isQuote, quoted, isLiteral]
        rw [IsScanned, isWriting, isAlone.scanned, isKind, isLiteral, isQuote]
        rfl
  | comment isIllegal _ =>
      rw [isIllegal] at notMark
      cases notMark

/-- Only strings are written between quotes. -/
theorem noQuote
    (isFound : token.IsFound)
    (notString : token.kind ≠ .string)
    (notIllegal : token.kind ≠ .illegal) :
    token.quote = none := by
  cases isFound with
  | inText previous text _ isKind _ isQuote =>
      rw [isKind] at notString
      rw [isQuote]
      rcases lexeme_isAlone previous text with ⟨-, noQuote⟩ | isAlone
      · exact noQuote
      · exact isAlone.quoted notString
  | comment isIllegal _ => exact absurd isIllegal notIllegal

/-- A mark or a word is the token of its kind, apart from its place. -/
theorem unplaced_eq
    {kind : TokenKind}
    {literal : String}
    (isFound : token.IsFound)
    (isKind : token.kind = kind)
    (onlySpelling : isOnlySpelling kind literal = true) :
    token.unplaced = .plain kind literal := by
  simp only [isOnlySpelling, List.contains_cons, List.contains_nil, Bool.and_eq_true,
    Bool.not_eq_true', Bool.or_eq_false_iff, beq_eq_false_iff_ne, List.all_eq_true, Bool.or_eq_true,
    bne_iff_ne, beq_iff_eq] at onlySpelling
  obtain ⟨⟨⟨notIllegal, notEnd, notNumber, notName, notString, notRegex, -⟩, onlyMark⟩, onlyWord⟩ :=
    onlySpelling
  have noQuote := isFound.noQuote (isKind ▸ notString) (isKind ▸ notIllegal)
  have isLiteral : token.literal = literal := by
    have told := isFound.isTold
    rw [isKind] at told
    have fixed : IsFixed kind token.literal := by
      unfold Tells at told
      split at told <;> simp_all
    rcases fixed with isMark | isWord
    · exact String.toList_inj.mp ((onlyMark _ isMark).resolve_left (by simp))
    · exact (onlyWord _ isWord).resolve_left (by simp)
  rw [unplaced, isKind, isLiteral, noQuote]
  rfl

end IsFound

/-! ## Names and strings -/

/-- A name or a reserved word, as it is scanned. -/
structure IsNaming (token : Token) : Prop where
  names : (token.kind = .identifier || TokenKind.isReserved token.literal) = true
  isScanned : token.IsScanned
  noQuote : token.quote = none
  starts : ∃ first others, token.literal.toList = first :: others ∧ isNameStart first = true

theorem IsFound.isNaming
    (isFound : token.IsFound)
    (names : (token.kind = .identifier || TokenKind.isReserved token.literal) = true)
    (notString : token.kind ≠ .string) :
    token.IsNaming := by
  by_cases isName : token.kind = .identifier
  · have leaf : isLeaf token.kind = true := by
      rw [isName]
      rfl
    have isScanned := isFound.isScanned (by rw [isName]; rfl)
    obtain ⟨noQuote, first, others, isWriting, starts⟩ := leaf_starts leaf isScanned notString
    unfold Token.writing at isWriting
    rw [noQuote] at isWriting
    exact ⟨names, isScanned, noQuote, first, others, isWriting, starts isName⟩
  · have isReserved : TokenKind.isReserved token.literal = true := by simpa [isName] using names
    have isWord := (isFound.isSpelled isReserved).resolve_left notString
    have noMark : ∀ entry ∈ TokenKind.reservedWords, isMark entry.2 = false := by decide
    obtain ⟨first, second, others, isText, starts⟩ := isNameStart_of_isReserved isReserved
    refine ⟨names, isFound.isScanned (noMark _ isWord), isFound.noQuote notString ?_,
      first, _, isText, starts⟩
    intro isIllegal
    have notIllegal := noMark _ isWord
    rw [isIllegal] at notIllegal
    cases notIllegal

theorem isMark_ofName (name : String) : isMark (TokenKind.ofName name) = false := by
  have words : ∀ entry ∈ TokenKind.reservedWords, isMark entry.2 = false := by decide
  unfold TokenKind.ofName
  cases found : TokenKind.reservedWords.lookup name with
  | none => rfl
  | some kind =>
      obtain ⟨front, back, isSplit, -⟩ := List.lookup_eq_some_iff.mp found
      exact words (name, kind) (by simp [isSplit])

/-- A name or a word is no mark. -/
theorem IsNaming.notMark (isNaming : token.IsNaming) :
    isMark token.kind = false := by
  obtain ⟨first, others, isText, starts⟩ := isNaming.starts
  have isScanned := isNaming.isScanned
  unfold IsScanned writing at isScanned
  rw [isNaming.noQuote, isText, lexeme_of_isNameStart none starts] at isScanned
  have isKind : TokenKind.ofName _ = token.kind := congrArg Lexeme.kind isScanned
  rw [← isKind]
  exact isMark_ofName _

/-- A name or a word is scanned in front of a follower. -/
theorem IsNaming.scans
    (isNaming : token.IsNaming)
    (previous : Option TokenKind)
    (follower : Follower rest) :
    Scans previous (token.literal.toList ++ rest) [token.unplaced] (some token.kind) rest := by
  obtain ⟨first, others, isText, starts⟩ := isNaming.starts
  have isWriting : token.writing = first :: others := by
    rw [Token.writing, isNaming.noQuote]
    exact isText
  have isScanned := isNaming.isScanned
  rw [IsScanned, isWriting, lexeme_of_isNameStart none starts] at isScanned
  have stops :
      nameLexeme (first :: others ++ rest) = (nameLexeme (first :: others)).before rest := by
    cases follower with
    | mark more isMark => exact nameLexeme_stop more (isNameRest_of_mark isMark) (first :: others)
    | point more _ => exact nameLexeme_stop _ rfl (first :: others)
  rw [isText, ← isWriting]
  refine Scans.token ?_ ?_ ?_
  · rw [isWriting]
    exact gapFrom_startsOperand (startsOperand_of_isNameRest (by simp [isNameRest, starts])) _
  · rw [isWriting, List.cons_append, lexeme_of_isNameStart previous starts, ← List.cons_append,
      stops, isScanned]
    rfl
  · intro isEnd
    have notMark := isNaming.notMark
    rw [isEnd] at notMark
    cases notMark

/-- A string has a quote. -/
theorem exists_quote
    (isString : token.kind = .string)
    (isScanned : token.IsScanned) :
    ∃ quote, token.quote = some quote := by
  obtain ⟨first, others, isWriting, leafFirst⟩ :=
    exists_first_of_leaf (by rw [isString]; rfl) isScanned
  rw [IsScanned, isWriting] at isScanned
  have isKind : (lexeme none (first :: others)).kind = .string := by rw [isScanned, isString]
  have isQuote : (lexeme none (first :: others)).quote = token.quote := by rw [isScanned]
  rcases lexeme_cases leafFirst with ⟨-, isText⟩ | ⟨-, isName⟩ | ⟨-, isNumber⟩
  · rw [isText] at isKind isQuote
    unfold stringLexeme at isKind isQuote
    dsimp only at isKind isQuote
    split at isKind
    · rename_i closed isRest
      simp only [closed, isRest] at isQuote
      exact ⟨first, isQuote.symm⟩
    · cases isKind
  · rw [isName] at isKind
    have plain := isPlain_ofName (String.ofList ((first :: others).takeWhile isNameRest))
    rw [show TokenKind.ofName _ = .string from isKind] at plain
    cases plain
  · rw [isNumber none others rfl, (numberLexeme_verbatim _).1] at isKind
    cases isKind

/-! ## Regular expressions -/

/-- A regular expression is written so that no comment starts there, and no slash divides. -/
structure IsRegex (token : Token) : Prop where
  isKind : token.kind = .regex
  noQuote : token.quote = none
  starts : ∃ others, token.writing = '/' :: others
  noGap : ∀ rest,
    gapFrom .between (token.writing ++ rest) = ⟨[], token.writing ++ rest, false, true⟩
  scans : ∀ previous rest, allowsRegex previous = true →
    (∀ char ∈ rest.head?, isNameStart char = false) →
    lexeme previous (token.writing ++ rest) =
      ⟨token.kind, token.literal, token.writing, rest, token.quote⟩

theorem lexeme_of_slash (opens : allowsRegex previous = true) (rest : List Char) :
    lexeme previous ('/' :: rest) = regexLexeme rest := by
  simp only [lexeme, opens]
  rfl

/-- No name is a regular expression. -/
theorem ofName_ne_regex (name : String) : TokenKind.ofName name ≠ .regex := by
  have words : ∀ entry ∈ TokenKind.reservedWords, entry.2 ≠ .regex := by decide
  by_cases isReserved : TokenKind.isReserved name = true
  · exact words _ (ofName_mem_reservedWords isReserved)
  · unfold TokenKind.ofName
    rw [Option.not_isSome_iff_eq_none.mp isReserved]
    nofun

/-- Only a slash that does not divide starts a regular expression. -/
theorem regex_of_lexeme (isRegex : (lexeme previous text).kind = .regex) :
    ∃ rest, text = '/' :: rest ∧ lexeme previous text = regexLexeme rest := by
  unfold lexeme at isRegex ⊢
  split at isRegex
  · cases isRegex
  · rename_i first rest
    split at isRegex
    · cases isRegex
    · split at isRegex
      · unfold stringLexeme at isRegex
        dsimp only at isRegex
        split at isRegex <;> cases isRegex
      · split at isRegex
        · rename_i isSlash
          obtain ⟨rfl, -⟩ : first = '/' ∧ allowsRegex previous = true := by simpa using isSlash
          exact ⟨rest, rfl, by simp_all⟩
        · split at isRegex
          · rw [(numberLexeme_verbatim _).1] at isRegex
            cases isRegex
          · split at isRegex
            · have isWord : TokenKind.ofName _ = .regex := isRegex
              exact absurd isWord (ofName_ne_regex _)
            · split at isRegex
              · rw [(numberLexeme_verbatim _).1] at isRegex
                cases isRegex
              · have isMarked := (isMark_punctuatorLexeme first rest).1
                rw [isRegex] at isMarked
                cases isMarked

/-- No comment starts where a text is left as it is. -/
theorem noComment_of_gapFrom
    {second : Char}
    (noGap : gapFrom .between ('/' :: second :: rest) = ⟨[], '/' :: second :: rest, false, true⟩) :
    second ≠ '/' ∧ second ≠ '*' := by
  constructor <;> rintro rfl <;> cases congrArg Gap.taken noGap

theorem IsFound.isRegex (isFound : token.IsFound) (isRegex : token.kind = .regex) :
    token.IsRegex := by
  cases isFound with
  | comment isIllegal _ =>
      rw [isIllegal] at isRegex
      cases isRegex
  | inText previous text noGap isKind isLiteral isQuote =>
      rw [isKind] at isRegex
      obtain ⟨rest, rfl, isLexeme⟩ := regex_of_lexeme isRegex
      rw [isLexeme] at isKind isLiteral isQuote isRegex
      obtain ⟨body, isTaken, again⟩ := regexLexeme_taken isRegex
      have isAlone := isAlone_regexLexeme isRegex
      have noQuote : token.quote = none := by rw [isQuote, isAlone.quoted (by rw [isRegex]; nofun)]
      have isWriting : token.writing = '/' :: body := by
        rw [← isTaken, ← isAlone.written, Token.writing, Lexeme.writing, noQuote, isLiteral,
          isAlone.quoted (by rw [isRegex]; nofun)]
      obtain ⟨second, others, rfl⟩ : ∃ second others, body = second :: others := by
        cases body with
        | nil =>
            have isNothing := congrArg Lexeme.kind (again [] (by simp))
            rw [List.append_nil] at isNothing
            cases isNothing.trans isRegex
        | cons second others => exact ⟨second, others, rfl⟩
      have apart : second ≠ '/' ∧ second ≠ '*' := by
        have whole := lexeme_append previous ('/' :: rest)
        rw [isLexeme, isTaken] at whole
        rw [← whole] at noGap
        exact noComment_of_gapFrom noGap
      refine ⟨isKind.trans isRegex, noQuote, ⟨_, isWriting⟩, fun rest => ?_,
        fun previous rest opens noFlag => ?_⟩
      · rw [isWriting]
        simp [gapFrom, apart, isSpace]
      · rw [isWriting, List.cons_append, lexeme_of_slash opens, again rest noFlag, ← isTaken]
        simp [Lexeme.alone, Lexeme.before, isKind, isLiteral, isQuote]

end ScriptEngine.Token
