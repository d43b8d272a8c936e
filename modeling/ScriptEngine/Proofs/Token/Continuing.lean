import ScriptEngine.Proofs.Token.Spelling

namespace ScriptEngine.Token

/-!
# Texts that go on

The tokens of a text are still there when the text goes on behind a line feed, except
for a comment or a string that the text ended in.  A text does not go on behind a NUL.
-/

variable {text : List Char} {stop : Char}

/-! ## Characters that end a token -/

/-- Whether a character ends every token but a comment or a string. -/
def isBreak (char : Char) : Bool := char == '\n' || isNul char

theorem isBreak_cases {char : Char} (breaks : isBreak char = true) :
    char = '\n' ∨ char = '\x00' := by
  simp only [isBreak, isNul, Bool.or_eq_true, beq_iff_eq] at breaks
  exact breaks.imp_right fun code => Char.toNat_inj.mp code

section

variable (more : List Char)

theorem takeWhile_append_stop
    {keeps : Char → Bool} (stops : keeps stop = false) (text : List Char) :
    (text ++ stop :: more).takeWhile keeps = text.takeWhile keeps := by
  induction text with
  | nil => simp [stops]
  | cons char text inductionHypothesis =>
      rw [List.cons_append, List.takeWhile_cons, List.takeWhile_cons, inductionHypothesis]

theorem dropWhile_append_stop
    {keeps : Char → Bool} (stops : keeps stop = false) (text : List Char) :
    (text ++ stop :: more).dropWhile keeps = text.dropWhile keeps ++ stop :: more := by
  induction text with
  | nil => simp [stops]
  | cons char text inductionHypothesis =>
      rw [List.cons_append, List.dropWhile_cons, List.dropWhile_cons, inductionHypothesis]
      split <;> rfl

theorem isPrefixOf_append_stop {mark : List Char} (notInside : stop ∉ mark) (text : List Char) :
    mark.isPrefixOf (text ++ stop :: more) = mark.isPrefixOf text := by
  induction mark generalizing text with
  | nil => simp
  | cons char mark inductionHypothesis =>
      rw [List.mem_cons, not_or] at notInside
      cases text with
      | nil => simp [List.isPrefixOf, Ne.symm notInside.1]
      | cons first text =>
          rw [List.cons_append, List.isPrefixOf, List.isPrefixOf,
            inductionHypothesis notInside.2 text]

theorem isNameRest_break (breaks : isBreak stop = true) : isNameRest stop = false := by
  rcases isBreak_cases breaks with rfl | rfl <;> rfl

variable (stops : isNameRest stop = false)

include stops

theorem isNameStart_stop : isNameStart stop = false := (Bool.or_eq_false_iff.mp stops).1

theorem isDigit_stop : stop.isDigit = false := (Bool.or_eq_false_iff.mp stops).2

theorem fraction_stop (wholeIsEmpty : Bool) (noPoint : text = [] → stop ≠ '.') :
    fraction wholeIsEmpty (text ++ stop :: more) =
      ((fraction wholeIsEmpty text).1, (fraction wholeIsEmpty text).2 ++ stop :: more) := by
  match text with
  | [] => simp [fraction, noPoint rfl]
  | first :: rest =>
      by_cases isPoint : first = '.'
      · subst isPoint
        simp only [fraction, List.cons_append, takeWhile_append_stop more (isDigit_stop stops),
          dropWhile_append_stop more (isDigit_stop stops)]
        split
        · rfl
        · cases rest with
          | nil => simp [isNameStart_stop stops]
          | cons following rest =>
              simp only [List.cons_append]
              split <;> rfl
      · simp [fraction, isPoint]

theorem exponent_stop (noSign : text.length = 1 → stop ≠ '+' ∧ stop ≠ '-') :
    exponent (text ++ stop :: more) = ((exponent text).1, (exponent text).2 ++ stop :: more) := by
  match text with
  | [] =>
      have noMark : ¬(stop = 'e' || stop = 'E') = true := by
        intro isMark
        rcases (Bool.or_eq_true _ _).mp isMark with isMark | isMark <;>
          rw [of_decide_eq_true isMark] at stops <;> cases stops
      cases more with
      | nil => rfl
      | cons following more => simp only [exponent, List.nil_append, if_neg noMark]
  | [mark] =>
      have notSign : ¬(stop = '+' || stop = '-') = true := by
        simp [noSign rfl]
      simp only [exponent, List.cons_append, List.nil_append, if_neg notSign, isDigit_stop stops]
      split <;> rfl
  | mark :: following :: rest =>
      simp only [exponent, List.cons_append]
      rw [← List.cons_append, takeWhile_append_stop more (isDigit_stop stops),
        dropWhile_append_stop more (isDigit_stop stops),
        takeWhile_append_stop more (isDigit_stop stops),
        dropWhile_append_stop more (isDigit_stop stops)]
      split
      · split
        · rfl
        · split <;> rfl
      · rfl

end

/-! ## Lexemes -/

/-- A lexeme with more text behind it. -/
def Lexeme.before (found : Lexeme) (more : List Char) : Lexeme :=
  { found with rest := found.rest ++ more }

/-- A body with more text behind it. -/
def Body.before (body : Body) (more : List Char) : Body := { body with rest := body.rest ++ more }

theorem isNameRest_of_isHexDigit {char : Char} (isHex : isHexDigit char = true) :
    isNameRest char = true := by
  simp only [isHexDigit, Bool.or_eq_true, Bool.and_eq_true, decide_eq_true_eq, Char.le_def] at isHex
  unfold isNameRest isNameStart Char.isAlpha Char.isUpper Char.isLower
  simp only [Bool.or_eq_true, Bool.and_eq_true, decide_eq_true_eq]
  rcases isHex with (isDigit | isLower) | isUpper
  · exact .inr isDigit
  · exact .inl (.inl (.inl (.inl (.inr ⟨isLower.1, UInt32.le_trans isLower.2 (by decide)⟩))))
  · exact .inl (.inl (.inl (.inl (.inl ⟨isUpper.1, UInt32.le_trans isUpper.2 (by decide)⟩))))

/-- The marks of a radix and its digits may all continue a name. -/
theorem isNameRest_of_radixDigits
    {mark : Char}
    {isRadixDigit : Char → Bool}
    (isMark : radixDigits? mark = some isRadixDigit) :
    isNameRest mark = true ∧ ∀ char, isRadixDigit char = true → isNameRest char = true := by
  have isMarked {upper lower : Char} (one : (mark = lower || mark = upper) = true)
      (lowers : isNameRest lower = true) (uppers : isNameRest upper = true) :
      isNameRest mark = true := by
    rcases (Bool.or_eq_true _ _).mp one with isOne | isOne <;> rw [of_decide_eq_true isOne]
    · exact lowers
    · exact uppers
  unfold radixDigits? at isMark
  split at isMark
  · obtain rfl := Option.some.inj isMark
    exact ⟨isMarked ‹_› rfl rfl, fun _ => isNameRest_of_isHexDigit⟩
  · split at isMark
    · obtain rfl := Option.some.inj isMark
      refine ⟨isMarked ‹_› rfl rfl, fun char isOctal => ?_⟩
      simp only [Bool.and_eq_true, decide_eq_true_eq, Char.le_def] at isOctal
      simp only [isNameRest, Char.isDigit, Bool.or_eq_true, Bool.and_eq_true, decide_eq_true_eq]
      exact .inr ⟨isOctal.1, UInt32.le_trans isOctal.2 (by decide)⟩
    · split at isMark
      · obtain rfl := Option.some.inj isMark
        refine ⟨isMarked ‹_› rfl rfl, fun char isBinary => ?_⟩
        simp only [Bool.or_eq_true, beq_iff_eq] at isBinary
        rcases isBinary with rfl | rfl <;> rfl
      · cases isMark

section

variable (more : List Char) (stops : isNameRest stop = false)

include stops

theorem decimalLexeme_stop
    (noPoint : text.dropWhile Char.isDigit = [] → stop ≠ '.')
    (noSign :
      (fraction (text.takeWhile Char.isDigit).isEmpty (text.dropWhile Char.isDigit)).2.length = 1 →
        stop ≠ '+' ∧ stop ≠ '-') :
    decimalLexeme (text ++ stop :: more) = (decimalLexeme text).before (stop :: more) := by
  unfold decimalLexeme
  simp only [takeWhile_append_stop more (isDigit_stop stops),
    dropWhile_append_stop more (isDigit_stop stops), fraction_stop more stops _ noPoint,
    exponent_stop more stops noSign]
  rfl

theorem numberLexeme_stop
    (decimal : numberLexeme text = decimalLexeme text →
      decimalLexeme (text ++ stop :: more) = (decimalLexeme text).before (stop :: more)) :
    numberLexeme (text ++ stop :: more) = (numberLexeme text).before (stop :: more) := by
  have notDigit := isDigit_stop stops
  have noRadixStop : radixDigits? stop = none := by
    cases isMark : radixDigits? stop with
    | none => rfl
    | some isRadixDigit =>
        rw [(isNameRest_of_radixDigits isMark).1] at stops
        cases stops
  rcases radix_cases text with ⟨mark, rest, isRadixDigit, rfl, isMark⟩ | noRadix
  · have stops : isRadixDigit stop = false :=
      Bool.eq_false_iff.mpr fun isDigit => by
        rw [(isNameRest_of_radixDigits isMark).2 stop isDigit] at stops
        cases stops
    simp only [List.cons_append, numberLexeme, isMark, takeWhile_append_stop more stops,
      dropWhile_append_stop more stops]
    rfl
  · have noRadixBehind : ∀ mark rest,
        text ++ stop :: more = '0' :: mark :: rest → radixDigits? mark = none := by
      intro mark rest isText
      rcases text with _ | ⟨first, _ | ⟨second, others⟩⟩
      · obtain ⟨rfl, -⟩ := List.cons.inj isText
        cases notDigit
      · obtain ⟨-, isRest⟩ := List.cons.inj isText
        obtain ⟨rfl, -⟩ := List.cons.inj isRest
        exact noRadixStop
      · obtain ⟨rfl, isRest⟩ := List.cons.inj isText
        obtain ⟨rfl, -⟩ := List.cons.inj isRest
        exact noRadix _ _ rfl
    have isDecimal := numberLexeme_of_no_radix noRadix
    rw [isDecimal, numberLexeme_of_no_radix noRadixBehind]
    exact decimal isDecimal

theorem nameLexeme_stop (text : List Char) :
    nameLexeme (text ++ stop :: more) = (nameLexeme text).before (stop :: more) := by
  unfold nameLexeme
  simp only [takeWhile_append_stop more stops, dropWhile_append_stop more stops]
  rfl

/-- The letters behind a regular expression are its flags. -/
theorem regexLexeme_of_body
    (stable : regexBody false (text ++ stop :: more) =
      (regexBody false text).before (stop :: more)) :
    regexLexeme (text ++ stop :: more) = (regexLexeme text).before (stop :: more) := by
  have notFlag := isNameStart_stop stops
  unfold regexLexeme
  simp only [stable]
  cases isClosed : (regexBody false text).closed with
  | true =>
      obtain ⟨rest, isRest⟩ := regexBody_closed false text isClosed
      simp only [Body.before, isRest, isClosed, List.cons_append,
        takeWhile_append_stop more notFlag, dropWhile_append_stop more notFlag]
      rfl
  | false =>
      simp only [Body.before, isClosed]
      rfl

end

section

variable (more : List Char) (notInside : ∀ entry ∈ marks, stop ∉ entry.1.tail)

include notInside

theorem punctuator?_stop (first : Char) (rest : List Char) :
    punctuator? (first :: (rest ++ stop :: more)) = punctuator? (first :: rest) := by
  have same : ∀ entry ∈ marks,
      entry.1.isPrefixOf (first :: (rest ++ stop :: more)) = entry.1.isPrefixOf (first :: rest) := by
    rintro ⟨mark, kind⟩ member
    cases mark with
    | nil => simp
    | cons char mark =>
        have notInside : stop ∉ mark := notInside _ member
        rw [List.isPrefixOf, List.isPrefixOf, isPrefixOf_append_stop more notInside rest]
  unfold punctuator?
  rw [← List.head?_filter, ← List.head?_filter, List.filter_congr same]

theorem punctuatorLexeme_stop (first : Char) (rest : List Char) :
    punctuatorLexeme first (rest ++ stop :: more) =
      (punctuatorLexeme first rest).before (stop :: more) := by
  unfold punctuatorLexeme
  rw [punctuator?_stop more notInside]
  cases found : punctuator? (first :: rest) with
  | none => rfl
  | some entry =>
      obtain ⟨kind, length⟩ := entry
      obtain ⟨mark, others, -, rfl, isText⟩ := mark_of_punctuator? found
      have fits : mark.length ≤ (first :: rest).length := by simp [isText]
      dsimp only
      rw [← List.cons_append, List.take_append_of_le_length fits,
        List.drop_append_of_le_length fits]
      rfl

end

/-- A regular expression that is closed, or that a line break ends, stays so whatever follows. -/
theorem regexBody_before
    {inClass : Bool} {more : List Char}
    (ends : (regexBody inClass text).closed = true ∨
      ∃ stop rest, more = stop :: rest ∧ isBreak stop = true) :
    regexBody inClass (text ++ more) = (regexBody inClass text).before more := by
  fun_induction regexBody inClass text with
  | case1 | case2 =>
      obtain isClosed | ⟨stop, rest, rfl, breaks⟩ := ends
      · cases isClosed
      · have notEscape : stop ≠ '\\' := by rcases isBreak_cases breaks with rfl | rfl <;> decide
        have ends : (isNul stop || stop == '\n') = true := by
          rwa [Bool.or_comm]
        simp [regexBody, notEscape, ends, Body.before]
  | case3 inClass hidden rest stops => simp [regexBody, stops, Body.before]
  | case4 inClass hidden rest goesOn inductionHypothesis =>
      simp [regexBody, goesOn, inductionHypothesis ends, Body.cons, Body.before]
  | case5 inClass char rest notLast notHiding stops =>
      have notEscape := not_escape notLast notHiding
      simp [regexBody, notEscape, stops, Body.before]
  | case6 inClass char rest notLast notHiding goesOn closes =>
      have notEscape := not_escape notLast notHiding
      simp [regexBody, notEscape, goesOn, closes, Body.before]
  | case7 inClass char rest notLast notHiding goesOn staysOpen inside inductionHypothesis =>
      have notEscape := not_escape notLast notHiding
      have step (text : List Char) :
          regexBody inClass (char :: text) = (regexBody inside text).cons [char] := by
        simp [regexBody, notEscape, goesOn, staysOpen, inside]
      rw [List.cons_append, step, inductionHypothesis ends]
      rfl

section

variable (more : List Char) (breaks : isBreak stop = true)

include breaks

theorem numberLexeme_break (text : List Char) :
    numberLexeme (text ++ stop :: more) = (numberLexeme text).before (stop :: more) := by
  have noMark : stop ≠ '.' ∧ stop ≠ '+' ∧ stop ≠ '-' := by
    rcases isBreak_cases breaks with rfl | rfl <;> decide
  have stops := isNameRest_break breaks
  exact numberLexeme_stop more stops fun _ =>
    decimalLexeme_stop more stops (fun _ => noMark.1) fun _ => noMark.2

theorem punctuatorLexeme_break (first : Char) (rest : List Char) :
    punctuatorLexeme first (rest ++ stop :: more) =
      (punctuatorLexeme first rest).before (stop :: more) := by
  refine punctuatorLexeme_stop more ?_ first rest
  rcases isBreak_cases breaks with rfl | rfl <;> decide

theorem regexLexeme_break (text : List Char) :
    regexLexeme (text ++ stop :: more) = (regexLexeme text).before (stop :: more) :=
  regexLexeme_of_body more (isNameRest_break breaks)
    (regexBody_before (.inr ⟨stop, more, rfl, breaks⟩))

end

/-! ## Strings -/

/--
A string that ends in the middle of an escape: the quote right behind its other
characters would close it, but a backslash stands there.
-/
def EndsInEscape (quote : Char) (text : List Char) : Prop :=
  ∃ body, text = body ++ ['\\'] ∧ stringBody quote (body ++ [quote]) = ⟨body, [quote], true⟩

theorem stringBody_nul (quote : Char) (isQuote : quote ∈ quotes) (text more : List Char) :
    stringBody quote (text ++ '\x00' :: more) = (stringBody quote text).before ('\x00' :: more) := by
  have notQuote : '\x00' ≠ quote := by
    rintro rfl
    exact absurd isQuote (by decide)
  fun_induction stringBody quote text with
  | case1 => simp [stringBody, notQuote, Body.before, isNul]
  | case2 => simp [stringBody, Body.before, isNul]
  | case3 hidden rest stops => simp [stringBody, stops, Body.before]
  | case4 hidden rest goesOn inductionHypothesis =>
      simp [stringBody, goesOn, inductionHypothesis, Body.cons, Body.before]
  | case5 rest notLast notHiding =>
      have notEscape := not_escape notLast notHiding
      simp [stringBody, notEscape, Body.before]
  | case6 char rest notLast notHiding notClosing stops =>
      have notEscape := not_escape notLast notHiding
      simp [stringBody, notEscape, notClosing, stops, Body.before]
  | case7 char rest notLast notHiding notClosing goesOn inductionHypothesis =>
      have notEscape := not_escape notLast notHiding
      simp [stringBody, notEscape, notClosing, goesOn, inductionHypothesis, Body.cons, Body.before]

/-- Behind a line feed a string goes on only if it ended in an escape. -/
theorem stringBody_newline (quote : Char) (isQuote : quote ∈ quotes) (text : List Char) :
    EndsInEscape quote text ∧ stringBody quote text = ⟨text, [], false⟩ ∨
      ∀ more, stringBody quote (text ++ '\n' :: more) =
        (stringBody quote text).before ('\n' :: more) := by
  have notQuote : '\n' ≠ quote := by
    rintro rfl
    exact absurd isQuote (by decide)
  have notEscapeQuote : quote ≠ '\\' := by
    rintro rfl
    exact absurd isQuote (by decide)
  fun_induction stringBody quote text with
  | case1 => exact .inr fun more => by simp [stringBody, notQuote, Body.before]
  | case2 => exact .inl ⟨⟨[], rfl, by simp [stringBody, notEscapeQuote]⟩, rfl⟩
  | case3 hidden rest stops => exact .inr fun more => by simp [stringBody, stops, Body.before]
  | case4 hidden rest goesOn inductionHypothesis =>
      rcases inductionHypothesis with ⟨⟨body, rfl, closes⟩, isBody⟩ | stable
      · refine .inl ⟨⟨'\\' :: hidden :: body, rfl, ?_⟩, ?_⟩
        · simp [stringBody, goesOn, closes, Body.cons]
        · simp [isBody, Body.cons]
      · exact .inr fun more => by
          simp [stringBody, goesOn, stable more, Body.cons, Body.before]
  | case5 rest notLast notHiding =>
      have notEscape := not_escape notLast notHiding
      exact .inr fun more => by simp [stringBody, notEscape, Body.before]
  | case6 char rest notLast notHiding notClosing stops =>
      have notEscape := not_escape notLast notHiding
      exact .inr fun more => by simp [stringBody, notEscape, notClosing, stops, Body.before]
  | case7 char rest notLast notHiding notClosing goesOn inductionHypothesis =>
      have notEscape := not_escape notLast notHiding
      rcases inductionHypothesis with ⟨⟨body, rfl, closes⟩, isBody⟩ | stable
      · refine .inl ⟨⟨char :: body, rfl, ?_⟩, ?_⟩
        · simp [stringBody, notEscape, notClosing, goesOn, closes, Body.cons]
        · simp [isBody, Body.cons]
      · exact .inr fun more => by
          simp [stringBody, notEscape, notClosing, goesOn, stable more, Body.cons, Body.before]

theorem stringLexeme_of_body
    {quote : Char} {behind : List Char} {more : List Char}
    (stable : stringBody quote behind = (stringBody quote text).before more) :
    stringLexeme quote behind = (stringLexeme quote text).before more := by
  unfold stringLexeme
  simp only [stable]
  cases isClosed : (stringBody quote text).closed with
  | true =>
      obtain ⟨rest, isRest⟩ := stringBody_closed quote text isClosed
      simp only [Body.before, isRest, isClosed, List.cons_append]
      rfl
  | false =>
      simp only [Body.before, isClosed]
      rfl

/-! ## Any lexeme -/

/-- What a lexeme is read from when it is a string that the text ended in the escape of. -/
def IsCutString (text : List Char) : Prop :=
  ∃ quote ∈ quotes, ∃ body, text = quote :: body ∧ EndsInEscape quote body ∧
    stringBody quote body = ⟨body, [], false⟩

theorem startsWithDigit_append
    (more : List Char) (breaks : isBreak stop = true) (text : List Char) :
    startsWithDigit (text ++ stop :: more) = startsWithDigit text := by
  cases text with
  | nil => exact isDigit_stop (isNameRest_break breaks)
  | cons first rest => rfl

/-- A lexeme stays when the text goes on, unless it is a string. -/
theorem lexeme_of_string
    {more : List Char}
    (breaks : isBreak stop = true)
    (previous : Option TokenKind)
    {first : Char}
    {rest : List Char}
    (strings : first ∈ quotes →
      stringLexeme first (rest ++ stop :: more) = (stringLexeme first rest).before (stop :: more)) :
    lexeme previous (first :: rest ++ stop :: more) =
      (lexeme previous (first :: rest)).before (stop :: more) := by
  unfold lexeme
  simp only [List.cons_append, startsWithDigit_append more breaks]
  split
  · rfl
  · split
    · rename_i isQuote
      exact strings (by simpa [quotes] using isQuote)
    · split
      · exact regexLexeme_break more breaks rest
      · split
        · exact numberLexeme_break more breaks (first :: rest)
        · split
          · exact nameLexeme_stop more (isNameRest_break breaks) (first :: rest)
          · split
            · exact numberLexeme_break more breaks (first :: rest)
            · exact punctuatorLexeme_break more breaks first rest

theorem lexeme_nul (previous : Option TokenKind) (text more : List Char) :
    lexeme previous (text ++ '\x00' :: more) = (lexeme previous text).before ('\x00' :: more) := by
  cases text with
  | nil => rfl
  | cons first rest =>
      exact lexeme_of_string rfl previous fun isQuote =>
        stringLexeme_of_body (stringBody_nul first isQuote rest more)

theorem lexeme_newline (previous : Option TokenKind) (some : text ≠ []) :
    IsCutString text ∨
      ∀ more, lexeme previous (text ++ '\n' :: more) =
        (lexeme previous text).before ('\n' :: more) := by
  obtain ⟨first, rest, rfl⟩ := List.exists_cons_of_ne_nil some
  by_cases isQuote : first ∈ quotes
  · rcases stringBody_newline first isQuote rest with ⟨inEscape, isBody⟩ | stable
    · exact .inl ⟨first, isQuote, rest, rfl, inEscape, isBody⟩
    · exact .inr fun more => lexeme_of_string rfl previous fun _ =>
        stringLexeme_of_body (stable more)
  · exact .inr fun more => lexeme_of_string rfl previous fun quoted => absurd quoted isQuote

/-! ## Gaps -/

/-- A gap with more text behind it. -/
def Gap.before (gap : Gap) (more : List Char) : Gap := { gap with rest := gap.rest ++ more }

/-- What does not start with a mark does not when the text goes on behind another character. -/
theorem not_append_of_not
    {condition : Prop}
    {mark stop : Char}
    (apart : stop ≠ mark)
    (more : List Char)
    {text : List Char}
    (other : ∀ rest, condition → text = mark :: rest → False) :
    ∀ rest, condition → text ++ stop :: more = mark :: rest → False := by
  intro rest holds same
  cases text with
  | nil => exact apart (List.cons.inj same).1
  | cons first text =>
      obtain ⟨rfl, -⟩ := List.cons.inj same
      exact other text holds rfl

theorem gapFrom_nul (mode : BlankMode) (text more : List Char) :
    gapFrom mode (text ++ '\x00' :: more) = (gapFrom mode text).before ('\x00' :: more) := by
  fun_induction gapFrom mode text with
  | case1 | case7 | case11 => rfl
  | case2 rest inductionHypothesis
  | case3 rest inductionHypothesis
  | case4 rest _ _ inductionHypothesis
  | case8 rest inductionHypothesis
  | case12 rest inductionHypothesis => simp [gapFrom, inductionHypothesis, Gap.cons, Gap.before]
  | case5 char rest notLine notBlock notFeed space inductionHypothesis =>
      have notLine := @not_append_of_not _ _ '\x00' (by decide) more _ notLine
      have notBlock := @not_append_of_not _ _ '\x00' (by decide) more _ notBlock
      simp [gapFrom, notFeed, space, inductionHypothesis, Gap.cons, Gap.before]
  | case6 char rest notLine notBlock notFeed notSpace =>
      have notLine := @not_append_of_not _ _ '\x00' (by decide) more _ notLine
      have notBlock := @not_append_of_not _ _ '\x00' (by decide) more _ notBlock
      simp [gapFrom, notFeed, notSpace, Gap.before]
  | case9 char rest notFeed nul => simp [gapFrom, notFeed, nul, Gap.before]
  | case10 char rest notFeed notNul inductionHypothesis =>
      simp [gapFrom, notFeed, notNul, inductionHypothesis, Gap.cons, Gap.before]
  | case13 char rest notClosing nul =>
      have notClosing := @not_append_of_not _ _ '\x00' (by decide) more _ notClosing
      simp [gapFrom, nul, Gap.before]
  | case14 char rest notClosing notNul inductionHypothesis =>
      have notClosing := @not_append_of_not _ _ '\x00' (by decide) more _ notClosing
      simp [gapFrom, notNul, inductionHypothesis, Gap.cons, Gap.before]

/--
What becomes of a gap when the text goes on behind a line feed: it stays when something
stands behind it, it goes on when nothing does, and a comment that is open goes on up to
where it is closed.
-/
inductive GoesOn (mode : BlankMode) (text : List Char) : Prop where
  | stays :
      (gapFrom mode text).closed = true →
      (gapFrom mode text).rest ≠ [] →
      (∀ more, gapFrom mode (text ++ '\n' :: more) = (gapFrom mode text).before ('\n' :: more)) →
      GoesOn mode text
  | ends :
      gapFrom mode text = ⟨text, [], text.contains '\n', true⟩ →
      (∀ more, gapFrom mode (text ++ '\n' :: more) =
        (gapFrom .between more).cons (text ++ ['\n']) true) →
      GoesOn mode text
  | unclosed :
      gapFrom mode text = ⟨text, [], text.contains '\n', false⟩ →
      (∀ more, gapFrom mode (text ++ '\n' :: '*' :: '/' :: more) =
        (gapFrom .between more).cons (text ++ ['\n', '*', '/']) true) →
      GoesOn mode text

/-- A gap goes on as what follows its first characters does. -/
theorem GoesOn.cons
    {mode other : BlankMode}
    {text : List Char}
    (goesOn : GoesOn other text)
    (front : List Char)
    (newline : Bool)
    (hasNewline : newline = front.contains '\n')
    (step : gapFrom mode (front ++ text) = (gapFrom other text).cons front newline)
    (steps : ∀ more, gapFrom mode (front ++ text ++ '\n' :: more) =
      (gapFrom other (text ++ '\n' :: more)).cons front newline) :
    GoesOn mode (front ++ text) := by
  subst newline
  cases goesOn with
  | stays closed some stays =>
      refine .stays (by rwa [step]) (by rwa [step]) fun more => ?_
      rw [steps, stays, step]
      rfl
  | ends isGap goes =>
      refine .ends ?_ fun more => ?_
      · rw [step, isGap]
        simp [Gap.cons]
      · rw [steps, goes]
        simp [Gap.cons]
  | unclosed isGap goes =>
      refine .unclosed ?_ fun more => ?_
      · rw [step, isGap]
        simp [Gap.cons]
      · rw [steps, goes]
        simp [Gap.cons]

theorem gapFrom_goesOn
    (mode : BlankMode) (noNul : ∀ char ∈ text, isNul char = false) :
    GoesOn mode text := by
  fun_induction gapFrom mode text with
  | case1 | case7 => exact .ends rfl fun _ => rfl
  | case11 => exact .unclosed rfl fun _ => rfl
  | case2 rest inductionHypothesis =>
      have goesOn := inductionHypothesis fun char member => noNul char (by simp [member])
      exact goesOn.cons ['/', '/'] false (by decide) (by rfl) fun _ => by rfl
  | case3 rest inductionHypothesis =>
      have goesOn := inductionHypothesis fun char member => noNul char (by simp [member])
      exact goesOn.cons ['/', '*'] false (by decide) (by rfl) fun _ => by rfl
  | case4 rest _ _ inductionHypothesis
  | case8 rest inductionHypothesis =>
      have goesOn := inductionHypothesis fun char member => noNul char (by simp [member])
      exact goesOn.cons ['\n'] true (by decide) (by simp [gapFrom]) fun _ => by simp [gapFrom]
  | case12 rest inductionHypothesis =>
      have goesOn := inductionHypothesis fun char member => noNul char (by simp [member])
      exact goesOn.cons ['*', '/'] false (by decide) (by simp [gapFrom]) fun _ => by simp [gapFrom]
  | case5 char rest notLine notBlock notFeed space inductionHypothesis =>
      have goesOn := inductionHypothesis fun char member => noNul char (by simp [member])
      have unbroken : false = [char].contains '\n' := by simp [Ne.symm notFeed]
      refine goesOn.cons [char] false unbroken (by simp [gapFrom, notFeed, space]) fun more => ?_
      have notLine := @not_append_of_not _ _ '\n' (by decide) more _ notLine
      have notBlock := @not_append_of_not _ _ '\n' (by decide) more _ notBlock
      simp [gapFrom, notFeed, space]
  | case6 char rest notLine notBlock notFeed notSpace =>
      have isGap : gapFrom .between (char :: rest) = ⟨[], char :: rest, false, true⟩ := by
        simp [gapFrom, notFeed, notSpace]
      refine .stays (by rw [isGap]) (by simp [isGap]) fun more => ?_
      have notLine := @not_append_of_not _ _ '\n' (by decide) more _ notLine
      have notBlock := @not_append_of_not _ _ '\n' (by decide) more _ notBlock
      simp [gapFrom, notFeed, notSpace, Gap.before]
  | case10 char rest notFeed notNul inductionHypothesis =>
      have goesOn := inductionHypothesis fun char member => noNul char (by simp [member])
      have unbroken : false = [char].contains '\n' := by simp [Ne.symm notFeed]
      exact goesOn.cons [char] false unbroken (by simp [gapFrom, notFeed, notNul])
        fun more => by simp [gapFrom, notFeed, notNul]
  | case14 char rest notClosing notNul inductionHypothesis =>
      have goesOn := inductionHypothesis fun char member => noNul char (by simp [member])
      have hasNewline : (char == '\n') = [char].contains '\n' := by
        rw [List.contains_cons, List.contains_nil, Bool.or_false, BEq.comm]
      refine goesOn.cons [char] _ hasNewline (by simp [gapFrom, notNul]) fun more => ?_
      have notClosing := @not_append_of_not _ _ '\n' (by decide) more _ notClosing
      simp [gapFrom, notNul]
  | case9 char rest _ nul
  | case13 char rest _ nul =>
      rw [noNul char List.mem_cons_self] at nul
      cases nul

/-! ## Tokens -/

/-- The tokens of a text that stands behind another, and behind a token of a kind. -/
def tokensFrom
    (width : Char → Nat)
    (previous : Option TokenKind)
    (front text : List Char) : List Token :=
  scanFrom width (text.length + 1) previous (Place.origin.past width front) text

variable {width : Char → Nat} {previous : Option TokenKind} {front : List Char} {token : Token}
  {place : Place} {rest : List Char}

theorem tokensFrom_of_end
    (isNext : next width previous (Place.origin.past width front) text = (token, place, rest))
    (isEnd : token.kind = .endOfInput) :
    tokensFrom width previous front text = [token] := by
  unfold tokensFrom scanFrom
  rw [isNext]
  dsimp only
  rw [if_pos isEnd]

theorem tokensFrom_of_token
    (isNext : next width previous (Place.origin.past width front) text = (token, place, rest))
    (goesOn : token.kind ≠ .endOfInput) :
    ∃ taken, taken ≠ [] ∧ text = taken ++ rest ∧
      tokensFrom width previous front text =
        token :: tokensFrom width (some token.kind) (front ++ taken) rest := by
  have step := next_lies width previous front text
  rw [isNext] at step
  obtain ⟨gap, covered, isText, isPlace, lies⟩ := step
  have some : gap ++ covered ≠ [] := by simp [lies.takes goesOn]
  have positive := List.length_pos_iff.mpr some
  refine ⟨gap ++ covered, some, isText, ?_⟩
  unfold tokensFrom
  rw [scanFrom, isNext]
  dsimp only
  rw [if_neg goesOn, isPlace, List.append_assoc]
  congr 1
  refine scanFrom_of_enough width _ _ (Nat.lt_succ_self _) ?_
  rw [isText, List.length_append]
  omega

theorem tokensFrom_ne_nil (width : Char → Nat) (previous : Option TokenKind)
    (front text : List Char) :
    tokensFrom width previous front text ≠ [] := by
  unfold tokensFrom scanFrom
  dsimp only
  split <;> simp

/-- The next token behind a gap that is closed. -/
theorem next_of_gap
    {gap : Gap}
    (isGap : gapFrom .between text = gap)
    (closed : gap.closed = true)
    (place : Place) :
    next width previous place text =
      let start := place.past width gap.taken
      let found := lexeme previous gap.rest
      let stop := start.past width found.taken
      (⟨found.kind, found.literal, start.line, start.column, start.offset, stop.offset, gap.newline,
        found.quote⟩, stop, found.rest) := by
  unfold next
  rw [isGap]
  dsimp only
  rw [if_pos closed]

theorem tokensFrom_nil (width : Char → Nat) (previous : Option TokenKind) (front : List Char) :
    ∃ last, tokensFrom width previous front [] = [last] ∧
      last.kind = .endOfInput ∧ last.literal = "" :=
  ⟨_, tokensFrom_of_end (next_of_gap rfl rfl _) rfl, rfl, rfl⟩

/-- A token that stays when the text goes on is taken from both. -/
theorem tokensFrom_of_stays
    (isNext : next width previous (Place.origin.past width front) text = (token, place, rest))
    (goesOn : token.kind ≠ .endOfInput) :
    ∃ taken, rest.length < text.length ∧ text = taken ++ rest ∧
      tokensFrom width previous front text =
        token :: tokensFrom width (some token.kind) (front ++ taken) rest ∧
      ∀ more,
        next width previous (Place.origin.past width front) (text ++ more) =
            (token, place, rest ++ more) →
          tokensFrom width previous front (text ++ more) =
            token :: tokensFrom width (some token.kind) (front ++ taken) (rest ++ more) := by
  obtain ⟨taken, some, isText, isTokens⟩ := tokensFrom_of_token isNext goesOn
  have positive := List.length_pos_iff.mpr some
  refine ⟨taken, ?_, isText, isTokens, fun more isNextBehind => ?_⟩
  · rw [isText, List.length_append]
    omega
  · obtain ⟨takenBehind, -, isTextBehind, isTokensBehind⟩ :=
      tokensFrom_of_token isNextBehind goesOn
    rw [isText, List.append_assoc] at isTextBehind
    obtain rfl := List.append_cancel_right isTextBehind
    exact isTokensBehind

/-- A text does not go on behind a NUL. -/
theorem tokensFrom_nul
    (width : Char → Nat)
    (previous : Option TokenKind)
    (front text more : List Char) :
    tokensFrom width previous front (text ++ '\x00' :: more) =
      tokensFrom width previous front text := by
  obtain ⟨token, place, rest, isNext⟩ :
      ∃ token place rest,
        next width previous (Place.origin.past width front) text = (token, place, rest) :=
    ⟨_, _, _, rfl⟩
  have isNextBehind :
      next width previous (Place.origin.past width front) (text ++ '\x00' :: more) =
        (token, place, rest ++ '\x00' :: more) := by
    unfold next at isNext ⊢
    rw [gapFrom_nul]
    dsimp only [Gap.before] at isNext ⊢
    split at isNext
    · rename_i closed
      rw [if_pos closed, lexeme_nul]
      cases isNext
      rfl
    · rename_i unclosed
      rw [if_neg unclosed]
      cases isNext
      rfl
  by_cases isEnd : token.kind = .endOfInput
  · rw [tokensFrom_of_end isNext isEnd, tokensFrom_of_end isNextBehind isEnd]
  · obtain ⟨taken, shorter, isText, isTokens, behind⟩ := tokensFrom_of_stays isNext isEnd
    rw [isTokens, behind _ isNextBehind, tokensFrom_nul width _ _ rest more]
termination_by text.length

/-- What a text may end in so that the tokens there depend on how it goes on. -/
inductive EndsOpen (text : List Char) : Prop where
  | blank :
      gapFrom .between text = ⟨text, [], text.contains '\n', true⟩ →
      (∀ more, gapFrom .between (text ++ '\n' :: more) =
        (gapFrom .between more).cons (text ++ ['\n']) true) →
      EndsOpen text
  | comment :
      gapFrom .between text = ⟨text, [], text.contains '\n', false⟩ →
      (∀ more, gapFrom .between (text ++ '\n' :: '*' :: '/' :: more) =
        (gapFrom .between more).cons (text ++ ['\n', '*', '/']) true) →
      EndsOpen text
  | string :
      (gapFrom .between text).closed = true →
      IsCutString (gapFrom .between text).rest →
      EndsOpen text

theorem lexeme_goesOn
    (previous : Option TokenKind) (some : text ≠ [])
    (noNul : ∀ char ∈ text, isNul char = false) :
    (lexeme previous text).kind ≠ .endOfInput := by
  intro isEnd
  obtain ⟨isEmpty, atEnd⟩ := (fits_lexeme previous text).ends isEnd
  have isRest := lexeme_append previous text
  rw [isEmpty, List.nil_append] at isRest
  rw [isRest] at atEnd
  obtain ⟨first, rest, rfl⟩ := List.exists_cons_of_ne_nil some
  have nul := atEnd first rfl
  rw [noNul first List.mem_cons_self] at nul
  cases nul

/-- A lexeme that is no unclosed comment. -/
def Lexeme.NoComment (found : Lexeme) : Prop :=
  found.kind = .illegal → found.literal ≠ unclosedComment

theorem noComment_of_plain {found : Lexeme} (plain : isPlain found.kind = true) :
    found.NoComment := by
  intro isIllegal
  rw [isIllegal] at plain
  cases plain

theorem lexeme_noComment (previous : Option TokenKind) (text : List Char) :
    (lexeme previous text).NoComment := by
  have number (text : List Char) : (numberLexeme text).NoComment := by
    refine noComment_of_plain ?_
    unfold numberLexeme
    split
    · split <;> rfl
    · rfl
  unfold lexeme
  split
  · simp [Lexeme.NoComment]
  · rename_i first rest
    split
    · simp [Lexeme.NoComment]
    · split
      · unfold stringLexeme
        dsimp only
        split
        · simp [Lexeme.NoComment]
        · exact fun _ => show unclosedString ≠ unclosedComment by decide
      · split
        · unfold regexLexeme
          dsimp only
          split
          · simp [Lexeme.NoComment, Lexeme.verbatim]
          · exact fun _ => show unclosedRegex ≠ unclosedComment by decide
        · split
          · exact number _
          · split
            · exact noComment_of_plain (isPlain_ofName _)
            · split
              · exact number _
              · unfold punctuatorLexeme
                split
                · rename_i kind length found
                  exact noComment_of_plain (plain_of_punctuator? found).1
                · intro _ same
                  have lengths := congrArg (fun literal => literal.toList.length) same
                  exact absurd lengths (by simp [Lexeme.verbatim]; decide)

/--
The tokens of a text that stay when it goes on behind a line feed, and the part behind
them that they do not cover: it is what the text ends in.
-/
inductive Stay
    (width : Char → Nat)
    (previous : Option TokenKind)
    (front text : List Char) : Prop where
  | upTo (tokens : List Token) (seen left : List Char) (kind : Option TokenKind) :
      text = seen ++ left →
      EndsOpen left →
      (∀ token ∈ tokens, token.kind ≠ .endOfInput ∧ ¬token.IsUnclosedComment) →
      tokensFrom width previous front text =
        tokens ++ tokensFrom width kind (front ++ seen) left →
      (∀ more, tokensFrom width previous front (text ++ '\n' :: more) =
        tokens ++ tokensFrom width kind (front ++ seen) (left ++ '\n' :: more)) →
      Stay width previous front text

/-- The next token stays, unless it is the end of the input, a comment or a string that is cut. -/
theorem next_stays
    (width : Char → Nat)
    (previous : Option TokenKind)
    (place : Place)
    (noNul : ∀ char ∈ text, isNul char = false) :
    EndsOpen text ∨
      ∃ token after rest,
        token.kind ≠ .endOfInput ∧ ¬token.IsUnclosedComment ∧
          next width previous place text = (token, after, rest) ∧
          ∀ more, next width previous place (text ++ '\n' :: more) =
            (token, after, rest ++ '\n' :: more) := by
  cases gapFrom_goesOn .between noNul with
  | ends isGap goes => exact .inl (.blank isGap goes)
  | unclosed isGap goes => exact .inl (.comment isGap goes)
  | stays closed some stays =>
      rcases lexeme_newline previous some with isCut | isStable
      · exact .inl (.string closed isCut)
      refine .inr ⟨_, _, _, ?_, ?_, next_of_gap rfl closed place, fun more => ?_⟩
      · refine lexeme_goesOn previous some fun char member => noNul char ?_
        rw [← gapFrom_append .between text]
        exact List.mem_append_right _ member
      · rintro ⟨isIllegal, isComment⟩
        exact lexeme_noComment previous _ isIllegal isComment
      · rw [next_of_gap (stays more) closed]
        simp only [Gap.before, isStable]
        rfl

theorem tokens_stay
    (width : Char → Nat) (previous : Option TokenKind) (front text : List Char)
    (noNul : ∀ char ∈ text, isNul char = false) :
    Stay width previous front text := by
  rcases next_stays width previous (Place.origin.past width front) noNul with
    endsOpen | ⟨token, place, rest, goesOn, noComment, isNext, isNextBehind⟩
  · exact .upTo [] [] text previous rfl endsOpen (by simp) (by simp) (by simp)
  obtain ⟨taken, shorter, isText, isTokens, behind⟩ := tokensFrom_of_stays isNext goesOn
  have noNulRest : ∀ char ∈ rest, isNul char = false := by
    intro char member
    rw [isText] at noNul
    exact noNul char (List.mem_append_right _ member)
  obtain ⟨tokens, seen, left, kind, isRest, endsOpen, othersStay, isRestTokens, restBehind⟩ :=
    tokens_stay width (some token.kind) (front ++ taken) rest noNulRest
  refine .upTo (token :: tokens) (taken ++ seen) left kind ?_ endsOpen ?_ ?_ fun more => ?_
  · rw [List.append_assoc, ← isRest]
    exact isText
  · rw [List.forall_mem_cons]
    exact ⟨⟨goesOn, noComment⟩, othersStay⟩
  · rw [isTokens, isRestTokens, List.append_assoc]
    rfl
  · rw [behind _ (isNextBehind more), restBehind more, List.append_assoc]
    rfl
termination_by text.length

end ScriptEngine.Token
