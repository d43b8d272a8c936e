import ScriptEngine.Proofs.Program.Writing
import ScriptEngine.Proofs.Token.Kinds

namespace ScriptEngine.Token

/-!
# Texts that something is written behind

The tokens of a text are still there when a blank or a dot is written behind it, unless
they are illegal: no token but a number takes a dot at its end.  What is written there is
read, too, unless the text ends in a line comment or at a NUL.
-/

variable {text : List Char} {quote : Char} {string : Token}

/-- Whether a character may be written behind a text without going on with its last token. -/
def isApart (char : Char) : Bool := char == ' ' || char == '.'

section

variable {stop : Char} (apart : isApart stop = true) (more : List Char)

include apart

theorem isApart_cases : stop = ' ' ∨ stop = '.' := by
  simpa [isApart] using apart

theorem isNameRest_apart : isNameRest stop = false := by
  rcases isApart_cases apart with rfl | rfl <;> rfl

/-! ## Lexemes -/

theorem punctuatorLexeme_apart (first : Char) (rest : List Char) :
    punctuatorLexeme first (rest ++ stop :: more) =
      (punctuatorLexeme first rest).before (stop :: more) := by
  refine punctuatorLexeme_stop more ?_ first rest
  rcases isApart_cases apart with rfl | rfl <;> decide

theorem regexLexeme_apart (legal : (regexLexeme text).kind ≠ .illegal) :
    regexLexeme (text ++ stop :: more) = (regexLexeme text).before (stop :: more) := by
  have closed : (regexBody false text).closed = true := by
    unfold regexLexeme at legal
    dsimp only at legal
    split at legal
    · assumption
    · exact absurd rfl legal
  exact regexLexeme_of_body more (isNameRest_apart apart) (regexBody_before (.inl closed))

omit apart in
theorem stringLexeme_before
    (legal : (stringLexeme quote text).kind ≠ .illegal) :
    stringLexeme quote (text ++ more) = (stringLexeme quote text).before more := by
  have closed : (stringBody quote text).closed = true := by
    unfold stringLexeme at legal
    dsimp only at legal
    split at legal
    · assumption
    · exact absurd rfl legal
  exact stringLexeme_of_body (stringBody_follower closed more)

/-- Whether a text is made of digits, and so goes on with a dot. -/
def IsDigits (text : List Char) : Prop := text ≠ [] ∧ ∀ char ∈ text, char.isDigit = true

/-- A number stays when a blank or a dot is written behind it, unless a dot goes on with it. -/
theorem numberLexeme_apart
    (some : text ≠ [])
    (goesOn : stop = '.' → ¬IsDigits text) :
    numberLexeme (text ++ stop :: more) = (numberLexeme text).before (stop :: more) := by
  have stops := isNameRest_apart apart
  have notSign : stop ≠ '+' ∧ stop ≠ '-' := by
    rcases isApart_cases apart with rfl | rfl <;> decide
  refine numberLexeme_stop more stops fun _ =>
    decimalLexeme_stop more stops (fun allDigits isDot => ?_) fun _ => notSign
  have whole := List.takeWhile_append_dropWhile (p := Char.isDigit) (l := text)
  rw [allDigits, List.append_nil] at whole
  refine goesOn isDot ⟨some, fun char member => ?_⟩
  rw [← whole] at member
  exact List.all_eq_true.mp List.all_takeWhile char member

/-- A legal lexeme stays when a blank or a dot is written behind it, unless a dot goes on with it. -/
theorem lexeme_apart
    (previous : Option TokenKind)
    (some : text ≠ [])
    (legal : (lexeme previous text).kind ≠ .illegal)
    (goesOn : stop = '.' → ¬IsDigits text) :
    lexeme previous (text ++ stop :: more) = (lexeme previous text).before (stop :: more) := by
  obtain ⟨first, rest, rfl⟩ := List.exists_cons_of_ne_nil some
  have sameDigit : startsWithDigit (rest ++ stop :: more) = startsWithDigit rest := by
    cases rest with
    | nil => exact isDigit_stop (isNameRest_apart apart)
    | cons _ _ => rfl
  have number := numberLexeme_apart apart more some goesOn
  unfold lexeme at legal ⊢
  simp only [List.cons_append, sameDigit] at number legal ⊢
  split
  · rfl
  · rename_i notNul
    rw [if_neg notNul] at legal
    split
    · rename_i isQuote
      rw [if_pos isQuote] at legal
      exact stringLexeme_before (stop :: more) legal
    · rename_i notQuote
      rw [if_neg notQuote] at legal
      split
      · rename_i isRegex
        rw [if_pos isRegex] at legal
        exact regexLexeme_apart apart more legal
      · split
        · exact number
        · split
          · exact nameLexeme_stop more (isNameRest_apart apart) (first :: rest)
          · split
            · exact number
            · exact punctuatorLexeme_apart apart more first rest

end

theorem radixDigits?_of_isDigit {mark : Char} (isDigit : mark.isDigit = true) :
    radixDigits? mark = none := by
  have apart (letter : Char) (notDigit : letter.isDigit = false) : mark ≠ letter := by
    rintro rfl
    rw [notDigit] at isDigit
    cases isDigit
  simp [radixDigits?, apart 'x' rfl, apart 'X' rfl, apart 'o' rfl, apart 'O' rfl, apart 'b' rfl,
    apart 'B' rfl]

theorem numberLexeme_digits (digits : IsDigits text) :
    numberLexeme text = .verbatim .number text [] := by
  have noRadix : ∀ mark others, text = '0' :: mark :: others → radixDigits? mark = none := by
    rintro mark others rfl
    exact radixDigits?_of_isDigit (digits.2 mark (by simp))
  have isWhole : text.takeWhile Char.isDigit = text := by
    simpa using @List.takeWhile_append_of_pos _ Char.isDigit text [] digits.2
  have isRest : text.dropWhile Char.isDigit = [] := by
    simpa using @List.dropWhile_append_of_pos _ Char.isDigit text [] digits.2
  rw [numberLexeme_of_no_radix noRadix, decimalLexeme]
  simp [isWhole, isRest, fraction, exponent]

/-- Digits take the dot behind them when neither a digit nor a name follows. -/
theorem lexeme_digits
    (previous : Option TokenKind)
    {following : Char}
    (more : List Char)
    (digits : IsDigits text)
    (stops : isNameRest following = false) :
    lexeme previous (text ++ '.' :: following :: more) =
      .verbatim .number (text ++ ['.']) (following :: more) := by
  obtain ⟨some, allDigits⟩ := digits
  have noRadix : ∀ mark others, text ++ '.' :: following :: more = '0' :: mark :: others →
      radixDigits? mark = none := by
    intro mark others isText
    match text with
    | [] => exact absurd rfl some
    | [_] =>
        obtain ⟨-, isRest⟩ := List.cons.inj isText
        obtain ⟨rfl, -⟩ := List.cons.inj isRest
        rfl
    | _ :: second :: _ =>
        obtain ⟨-, isRest⟩ := List.cons.inj isText
        obtain ⟨rfl, -⟩ := List.cons.inj isRest
        exact radixDigits?_of_isDigit (allDigits second (by simp))
  have isWhole : (text ++ '.' :: following :: more).takeWhile Char.isDigit = text := by
    rw [List.takeWhile_append_of_pos allDigits, List.takeWhile_cons_of_neg (by decide),
      List.append_nil]
  have isRest : (text ++ '.' :: following :: more).dropWhile Char.isDigit =
      '.' :: following :: more := by
    rw [List.dropWhile_append_of_pos allDigits]
    rfl
  have isFraction : fraction false ('.' :: following :: more) = (['.'], following :: more) := by
    simp [fraction, isDigit_stop stops, isNameStart_stop stops]
  have noExponent : exponent (following :: more) = ([], following :: more) := by
    have apart (mark : Char) (isMark : isNameRest mark = true) : following ≠ mark := by
      rintro rfl
      rw [isMark] at stops
      cases stops
    cases more with
    | nil => rfl
    | cons next more => simp [exponent, apart 'e' rfl, apart 'E' rfl]
  have isNumber : numberLexeme (text ++ '.' :: following :: more) =
      .verbatim .number (text ++ ['.']) (following :: more) := by
    rw [numberLexeme_of_no_radix noRadix, decimalLexeme]
    simp only [isWhole, isRest, List.isEmpty_eq_false_iff.mpr some, isFraction, noExponent,
      List.append_nil]
  obtain ⟨first, rest, rfl⟩ := List.exists_cons_of_ne_nil some
  rw [← isNumber]
  exact lexeme_of_isDigit previous (allDigits first List.mem_cons_self) _

/-! ## Gaps -/

/-- Whether nothing is read on the line that a gap ends on, whatever is written there. -/
def EndsLine (mode : BlankMode) (text : List Char) : Prop :=
  ∀ more, '\n' ∉ more →
    (gapFrom mode (text ++ more)).closed = true ∧ AtEnd (gapFrom mode (text ++ more)).rest

/--
What becomes of a gap when a blank or a dot is written behind it: it stays when something
stands behind it, it goes on when nothing does, and so does a line comment.
-/
inductive WrittenBehind (mode : BlankMode) (text : List Char) : Prop where
  | stays :
      (gapFrom mode text).rest ≠ [] →
      (∀ stop more, isApart stop = true →
        gapFrom mode (text ++ stop :: more) = (gapFrom mode text).before (stop :: more)) →
      WrittenBehind mode text
  | blank :
      (∀ more, gapFrom mode (text ++ more) =
        (gapFrom .between more).cons text (text.contains '\n')) →
      WrittenBehind mode text
  | comment :
      EndsLine mode text →
      WrittenBehind mode text

/-- What is written behind a gap is taken as behind its last part. -/
theorem WrittenBehind.cons
    {mode other : BlankMode}
    (behind : WrittenBehind other text)
    (front : List Char)
    (newline : Bool)
    (hasNewline : newline = front.contains '\n')
    (steps : ∀ more, gapFrom mode (front ++ text ++ more) =
      (gapFrom other (text ++ more)).cons front newline) :
    WrittenBehind mode (front ++ text) := by
  subst newline
  have step : gapFrom mode (front ++ text) =
      (gapFrom other text).cons front (front.contains '\n') := by
    simpa only [List.append_nil] using steps []
  cases behind with
  | stays some stays =>
      refine .stays (by rwa [step]) fun stop more apart => ?_
      rw [steps, stays stop more apart, step]
      rfl
  | blank goes =>
      refine .blank fun more => ?_
      rw [steps, goes]
      simp [Gap.cons, Bool.or_assoc]
  | comment swallows =>
      refine .comment fun more sameLine => ?_
      rw [steps]
      exact swallows more sameLine

theorem gapFrom_lineComment (sameLine : '\n' ∉ text) :
    (gapFrom .lineComment text).closed = true ∧ AtEnd (gapFrom .lineComment text).rest := by
  induction text with
  | nil => exact ⟨rfl, nofun⟩
  | cons char text inductionHypothesis =>
      rw [List.mem_cons, not_or] at sameLine
      unfold gapFrom
      rw [if_neg (Ne.symm sameLine.1)]
      split
      · rename_i nul
        refine ⟨rfl, ?_⟩
        rintro _ ⟨⟩
        exact nul
      · exact inductionHypothesis sameLine.2

theorem gapFrom_written
    (mode : BlankMode)
    (text : List Char)
    (closed : (gapFrom mode text).closed = true) :
    WrittenBehind mode text := by
  have apartFrom {stop : Char} (apart : isApart stop = true) (mark : Char)
      (notApart : isApart mark = false) : stop ≠ mark := by
    rintro rfl
    rw [notApart] at apart
    cases apart
  fun_induction gapFrom mode text with
  | case1 => exact .blank fun _ => rfl
  | case7 => exact .comment fun more sameLine => gapFrom_lineComment sameLine
  | case11 => cases closed
  | case2 rest inductionHypothesis =>
      exact (inductionHypothesis closed).cons ['/', '/'] false (by decide) fun _ => by rfl
  | case3 rest inductionHypothesis =>
      exact (inductionHypothesis closed).cons ['/', '*'] false (by decide) fun _ => by rfl
  | case4 rest _ _ inductionHypothesis
  | case8 rest inductionHypothesis =>
      exact (inductionHypothesis closed).cons ['\n'] true (by decide) fun _ => by simp [gapFrom]
  | case12 rest inductionHypothesis =>
      exact (inductionHypothesis closed).cons ['*', '/'] false (by decide)
        fun _ => by simp [gapFrom]
  | case5 char rest notLine notBlock notFeed space inductionHypothesis =>
      have notSlash : char ≠ '/' := by
        rintro rfl
        cases space
      have unbroken : false = [char].contains '\n' := by simp [Ne.symm notFeed]
      exact (inductionHypothesis closed).cons [char] false unbroken
        fun more => by simp [gapFrom, notFeed, notSlash, space]
  | case6 char rest notLine notBlock notFeed notSpace =>
      have isGap : gapFrom .between (char :: rest) = ⟨[], char :: rest, false, true⟩ := by
        simp [gapFrom, notFeed, notSpace]
      refine .stays (by simp [isGap]) fun stop more apart => ?_
      have notLine := not_append_of_not (apartFrom apart '/' rfl) more notLine
      have notBlock := not_append_of_not (apartFrom apart '*' rfl) more notBlock
      simp [gapFrom, notFeed, notSpace, Gap.before]
  | case9 char rest notFeed nul =>
      refine .stays (by simp [gapFrom, notFeed, nul]) fun stop more apart => ?_
      simp [gapFrom, notFeed, nul, Gap.before]
  | case10 char rest notFeed notNul inductionHypothesis =>
      have unbroken : false = [char].contains '\n' := by simp [Ne.symm notFeed]
      exact (inductionHypothesis closed).cons [char] false unbroken
        fun more => by simp [gapFrom, notFeed, notNul]
  | case13 char rest notClosing nul => cases closed
  | case14 char rest notClosing notNul inductionHypothesis =>
      have hasNewline : (char == '\n') = [char].contains '\n' := by
        rw [List.contains_cons, List.contains_nil, Bool.or_false, BEq.comm]
      have closed : (gapFrom .blockComment rest).closed = true := closed
      refine (inductionHypothesis closed).cons [char] _ hasNewline fun more => ?_
      -- Something stands behind the character, for nothing does not close a comment.
      cases rest with
      | nil => cases closed
      | cons second rest =>
          have notClosing : ∀ others, char = '*' → second :: (rest ++ more) = '/' :: others → False := by
            intro others isStar isRest
            obtain ⟨rfl, -⟩ := List.cons.inj isRest
            exact notClosing rest isStar rfl
          simp [gapFrom, notNul]

/-! ## Tokens -/

/-- Blanks and closed comments, behind which a gap goes on. -/
def IsBlank (text : List Char) : Prop :=
  ∀ more, gapFrom .between (text ++ more) =
    (gapFrom .between more).cons text (text.contains '\n')

theorem isBlank_nil : IsBlank [] := fun _ => rfl

/--
What stands behind the tokens that stay when a blank or a dot is written behind: blanks
that go on, a comment or a NUL that swallows what is written, or digits.
-/
inductive LeftOver (text : List Char) : Prop where
  | blank :
      IsBlank text →
      LeftOver text
  | cutOff :
      (∀ more, (∀ stop ∈ more.head?, isApart stop = true) → '\n' ∉ more →
        (gapFrom .between (text ++ more)).closed = true ∧
          AtEnd (gapFrom .between (text ++ more)).rest) →
      LeftOver text
  | digits :
      (gapFrom .between text).closed = true →
      IsDigits (gapFrom .between text).rest →
      (∀ stop more, isApart stop = true →
        gapFrom .between (text ++ stop :: more) = (gapFrom .between text).before (stop :: more)) →
      LeftOver text

/-- The tokens of a text that stay when a blank or a dot is written behind it. -/
inductive Behind
    (width : Char → Nat)
    (previous : Option TokenKind)
    (front text : List Char) : Prop where
  | upTo (tokens : List Token) (seen left : List Char) (kind : Option TokenKind) :
      text = seen ++ left →
      LeftOver left →
      (tokens.getLast?.map Token.kind).or previous = kind →
      (∀ token ∈ tokens, token.kind ≠ .endOfInput) →
      tokensFrom width previous front text =
        tokens ++ tokensFrom width kind (front ++ seen) left →
      (∀ stop more, isApart stop = true →
        tokensFrom width previous front (text ++ stop :: more) =
          tokens ++ tokensFrom width kind (front ++ seen) (left ++ stop :: more)) →
      Behind width previous front text

variable {width : Char → Nat} {previous : Option TokenKind} {front : List Char}

theorem gapFrom_closed_of_legal
    (legal : ∀ token ∈ tokensFrom width previous front text, token.kind ≠ .illegal) :
    (gapFrom .between text).closed = true := by
  refine Classical.byContradiction fun unclosed => ?_
  refine legal (next width previous (Place.origin.past width front) text).1 ?_ ?_
  · unfold tokensFrom scanFrom
    dsimp only
    split <;> exact List.mem_cons_self
  · unfold next
    dsimp only
    rw [if_neg unclosed]

/-- The next token stays if it is legal, unless there is none or a dot goes on with it. -/
theorem next_behind
    (width : Char → Nat)
    (previous : Option TokenKind)
    (place : Place)
    (closed : (gapFrom .between text).closed = true) :
    LeftOver text ∨
      ∃ token after rest,
        token.kind ≠ .endOfInput ∧
          next width previous place text = (token, after, rest) ∧
          (token.kind ≠ .illegal → ∀ stop more, isApart stop = true →
            next width previous place (text ++ stop :: more) =
              (token, after, rest ++ stop :: more)) := by
  cases gapFrom_written .between text closed with
  | blank goes => exact .inl (.blank goes)
  | comment swallows => exact .inl (.cutOff fun more _ sameLine => swallows more sameLine)
  | stays some stays =>
      by_cases isEnd : (lexeme previous (gapFrom .between text).rest).kind = .endOfInput
      · -- What stands there and is no token is a NUL.
        have atEnd : AtEnd (gapFrom .between text).rest := by
          obtain ⟨isEmpty, atEnd⟩ := (fits_lexeme previous (gapFrom .between text).rest).ends isEnd
          have isRest := lexeme_append previous (gapFrom .between text).rest
          rw [isEmpty, List.nil_append] at isRest
          rwa [isRest] at atEnd
        refine .inl (.cutOff fun more apart _ => ?_)
        cases more with
        | nil =>
            rw [List.append_nil]
            exact ⟨closed, atEnd⟩
        | cons stop more =>
            rw [stays stop more (apart stop rfl)]
            obtain ⟨first, rest, isRest⟩ := List.exists_cons_of_ne_nil some
            rw [isRest] at atEnd
            refine ⟨closed, ?_⟩
            rw [Gap.before, isRest]
            exact atEnd
      · by_cases digits : IsDigits (gapFrom .between text).rest
        · exact .inl (.digits closed digits stays)
        · refine .inr ⟨_, _, _, isEnd, next_of_gap rfl closed place, fun legal stop more apart => ?_⟩
          rw [next_of_gap (stays stop more apart) closed]
          simp only [Gap.before, lexeme_apart apart more previous some legal fun _ => digits]
          rfl

/-- Legal tokens stay when a blank or a dot is written behind them. -/
theorem tokens_behind
    (width : Char → Nat)
    (previous : Option TokenKind)
    (front text : List Char)
    (legal : ∀ token ∈ tokensFrom width previous front text, token.kind ≠ .illegal) :
    Behind width previous front text := by
  rcases next_behind width previous (Place.origin.past width front)
    (gapFrom_closed_of_legal legal) with
    leftOver | ⟨token, place, rest, goesOn, isNext, isNextBehind⟩
  · exact .upTo [] [] text previous rfl leftOver rfl (by simp) (by simp) (by simp)
  obtain ⟨taken, shorter, isText, isTokens, behind⟩ := tokensFrom_of_stays isNext goesOn
  rw [isTokens, List.forall_mem_cons] at legal
  obtain ⟨tokens, seen, left, kind, isRest, leftOver, isKind, othersGoOn, isRestTokens,
    restBehind⟩ := tokens_behind width (some token.kind) (front ++ taken) rest legal.2
  refine .upTo (token :: tokens) (taken ++ seen) left kind ?_ leftOver ?_ ?_ ?_ ?_
  · rw [List.append_assoc, ← isRest]
    exact isText
  · rw [← isKind, List.getLast?_cons]
    cases tokens.getLast? <;> rfl
  · exact List.forall_mem_cons.mpr ⟨goesOn, othersGoOn⟩
  · rw [isTokens, isRestTokens, List.append_assoc]
    rfl
  · intro stop more apart
    rw [behind _ (isNextBehind legal.1 stop more apart), restBehind stop more apart,
      List.append_assoc]
    rfl
termination_by text.length

/-! ## What is written behind -/

/-- A text behind which nothing is read on its last line, for it ends in a comment or at a NUL. -/
def IsCutOff (width : Char → Nat) (text : List Char) : Prop :=
  ∀ stop more, isApart stop = true → '\n' ∉ more →
    (scanChars width (text ++ stop :: more)).map unplaced = (scanChars width text).map unplaced

theorem tokensFrom_atEnd
    (closed : (gapFrom .between text).closed = true)
    (atEnd : AtEnd (gapFrom .between text).rest) :
    ∃ last, tokensFrom width previous front text = [last] ∧
      last.unplaced = .plain .endOfInput "" := by
  have isLexeme : lexeme previous (gapFrom .between text).rest =
      ⟨.endOfInput, "", [], (gapFrom .between text).rest, none⟩ := by
    cases isRest : (gapFrom .between text).rest with
    | nil => rfl
    | cons first rest =>
        rw [isRest] at atEnd
        simp only [lexeme, atEnd first rfl, if_true]
  refine ⟨_, tokensFrom_of_end (next_of_gap rfl closed _) ?_, ?_⟩
  · rw [isLexeme]
  · simp only [isLexeme]
    rfl

/-- Blanks hold no token but the end of input. -/
theorem tokensFrom_of_isBlank (isBlank : IsBlank text) :
    ∃ last, tokensFrom width previous front text = [last] ∧
      last.unplaced = .plain .endOfInput "" := by
  have isGap := isBlank []
  rw [List.append_nil] at isGap
  exact tokensFrom_atEnd (by rw [isGap]; rfl) (by rw [isGap]; nofun)

/-- The last token of a text in front of the end of input. -/
def finalToken? (width : Char → Nat) (text : List Char) : Option Token :=
  (scanChars width text).dropLast.getLast?

section

variable {more : List Char} (isBlank : IsBlank text)
  (closed : (gapFrom .between more).closed = true)

include isBlank closed

theorem next_behind_blank :
    ∃ token place rest newline,
      next width previous (Place.origin.past width (front ++ text)) more = (token, place, rest) ∧
        next width previous (Place.origin.past width front) (text ++ more) =
          ({ token with newlineBefore := newline }, place, rest) := by
  have isNext := @next_of_gap more width previous _ rfl closed
    (Place.origin.past width (front ++ text))
  have isNextBehind := @next_of_gap _ width previous _ (isBlank more) closed
    (Place.origin.past width front)
  simp only [Gap.cons, Place.past_past, ← List.append_assoc] at isNext isNextBehind
  exact ⟨_, _, _, _, isNext, isNextBehind⟩

/-- Behind blanks the same tokens are scanned, and only the first may stand on another line. -/
theorem tokensFrom_behind_blank :
    ∃ first other others,
      tokensFrom width previous (front ++ text) more = first :: others ∧
        tokensFrom width previous front (text ++ more) = other :: others ∧
        other.unplaced = first.unplaced := by
  obtain ⟨token, place, rest, newline, isNext, isNextBehind⟩ :=
    @next_behind_blank text width previous front more isBlank closed
  by_cases isEnd : token.kind = .endOfInput
  · exact ⟨_, _, [], tokensFrom_of_end isNext isEnd, tokensFrom_of_end isNextBehind isEnd, rfl⟩
  · obtain ⟨taken, -, rfl, isTokens⟩ := tokensFrom_of_token isNext isEnd
    obtain ⟨takenBehind, -, isText, isTokensBehind⟩ := tokensFrom_of_token isNextBehind isEnd
    have isTaken : text ++ taken = takenBehind :=
      List.append_cancel_right ((List.append_assoc _ _ _).trans isText)
    rw [← isTaken, ← List.append_assoc front] at isTokensBehind
    exact ⟨_, _, _, isTokens, isTokensBehind, rfl⟩

end

theorem isCutOff_of_swallows
    {tokens : List Token}
    {seen left : List Char}
    {kind : Option TokenKind}
    (isScan : scanChars width text = tokens ++ tokensFrom width kind seen left)
    (behind : ∀ stop more, isApart stop = true →
      scanChars width (text ++ stop :: more) =
        tokens ++ tokensFrom width kind seen (left ++ stop :: more))
    (swallows : ∀ more, (∀ stop ∈ more.head?, isApart stop = true) → '\n' ∉ more →
      (gapFrom .between (left ++ more)).closed = true ∧
        AtEnd (gapFrom .between (left ++ more)).rest) :
    IsCutOff width text := by
  intro stop more apart sameLine
  have notFeed : '\n' ≠ stop := by
    rintro rfl
    cases apart
  obtain ⟨closed, atEnd⟩ := swallows [] nofun List.not_mem_nil
  obtain ⟨closedBehind, atEndBehind⟩ := swallows (stop :: more)
    (fun first isFirst => by cases isFirst; exact apart) (by simp [notFeed, sameLine])
  rw [List.append_nil] at closed atEnd
  obtain ⟨last, isLast, isEnd⟩ := @tokensFrom_atEnd left width kind seen closed atEnd
  obtain ⟨other, isOther, isOtherEnd⟩ :=
    @tokensFrom_atEnd (left ++ stop :: more) width kind seen closedBehind atEndBehind
  rw [behind stop more apart, isScan, isLast, isOther]
  simp [isEnd, isOtherEnd]

section

variable
  (closed : (gapFrom .between text).closed = true)
  (digits : IsDigits (gapFrom .between text).rest)
  (stays : ∀ stop more, isApart stop = true →
    gapFrom .between (text ++ stop :: more) = (gapFrom .between text).before (stop :: more))

include closed digits stays

theorem tokensFrom_digits :
    ∃ number, number.kind = .number ∧
      tokensFrom width previous front text =
        number :: tokensFrom width (some .number) (front ++ text) [] ∧
      ∀ more, tokensFrom width previous front (text ++ ' ' :: more) =
        number :: tokensFrom width (some .number) (front ++ text) (' ' :: more) := by
  have isLexeme : lexeme previous (gapFrom .between text).rest =
      .verbatim .number (gapFrom .between text).rest [] := by
    obtain ⟨first, rest, isRest⟩ := List.exists_cons_of_ne_nil digits.1
    rw [isRest] at digits ⊢
    rw [lexeme_of_isDigit previous (digits.2 first List.mem_cons_self),
      numberLexeme_digits digits]
  have isNext := @next_of_gap text width previous _ rfl closed (Place.origin.past width front)
  simp only [isLexeme] at isNext
  obtain ⟨taken, -, isText, isTokens, behind⟩ := tokensFrom_of_stays isNext nofun
  obtain rfl : text = taken := isText.trans (List.append_nil taken)
  refine ⟨_, rfl, isTokens, fun more => behind _ ?_⟩
  have isLexemeBehind := lexeme_apart rfl more previous digits.1 (by rw [isLexeme]; nofun)
    (show ' ' = '.' → ¬IsDigits (gapFrom .between text).rest from nofun)
  rw [next_of_gap (stays ' ' more rfl) closed]
  simp only [Gap.before, isLexemeBehind, isLexeme]
  rfl

omit stays in
theorem tokensFrom_digits_dot
    {following : Char}
    (more : List Char)
    (stops : isNameRest following = false)
    (stays : gapFrom .between (text ++ '.' :: following :: more) =
      (gapFrom .between text).before ('.' :: following :: more)) :
    ∃ number, number.kind = .number ∧
      tokensFrom width previous front (text ++ '.' :: following :: more) =
        number :: tokensFrom width (some .number) (front ++ (text ++ ['.'])) (following :: more) := by
  have isNext := @next_of_gap _ width previous _ stays closed (Place.origin.past width front)
  simp only [Gap.before, lexeme_digits previous more digits stops] at isNext
  obtain ⟨taken, -, isText, isTokens⟩ := tokensFrom_of_token isNext (by rintro ⟨⟩)
  have isTaken : text ++ ['.'] = taken := by
    refine List.append_cancel_right (Eq.trans ?_ isText)
    rw [List.append_assoc]
    rfl
  rw [← isTaken] at isTokens
  exact ⟨_, rfl, isTokens⟩

end

/-- The tokens of a text that stay when a blank or a dot is written behind it. -/
theorem scanChars_behind (legal : ∀ token ∈ scanChars width text, token.kind ≠ .illegal) :
    ∃ tokens seen left,
      (∀ token ∈ tokens, token.kind ≠ .endOfInput) ∧
        LeftOver left ∧
        scanChars width text =
          tokens ++ tokensFrom width (tokens.getLast?.map Token.kind) seen left ∧
        ∀ stop more, isApart stop = true →
          scanChars width (text ++ stop :: more) =
            tokens ++ tokensFrom width (tokens.getLast?.map Token.kind) seen
              (left ++ stop :: more) := by
  obtain ⟨tokens, seen, left, kind, isText, leftOver, isKind, areTokens, isScan, behind⟩ :=
    tokens_behind width none [] text legal
  rw [Option.or_none] at isKind
  subst kind
  exact ⟨tokens, seen, left, areTokens, leftOver, isScan, behind⟩

/-- Where nothing is cut off, all tokens stay behind which a blank is written. -/
theorem scanChars_behind_blank
    (legal : ∀ token ∈ scanChars width text, token.kind ≠ .illegal)
    (goesOn : ¬IsCutOff width text) :
    ∃ tokens seen left,
      (∀ token ∈ tokens, token.kind ≠ .endOfInput) ∧
        IsBlank left ∧
        scanChars width text =
          tokens ++ tokensFrom width (tokens.getLast?.map Token.kind) seen left ∧
        ∀ more, scanChars width (text ++ ' ' :: more) =
          tokens ++ tokensFrom width (tokens.getLast?.map Token.kind) seen (left ++ ' ' :: more) := by
  obtain ⟨tokens, seen, left, areTokens, leftOver, isScan, behind⟩ := scanChars_behind legal
  cases leftOver with
  | blank isBlank =>
      exact ⟨tokens, seen, left, areTokens, isBlank, isScan, fun more => behind ' ' more rfl⟩
  | cutOff swallows => exact absurd (isCutOff_of_swallows isScan behind swallows) goesOn
  | digits closed digits stays =>
      obtain ⟨number, isNumber, isTokens, isTokensBehind⟩ := @tokensFrom_digits left width
        (tokens.getLast?.map Token.kind) seen closed digits stays
      have isLast : ((tokens ++ [number]).getLast?.map Token.kind) = some .number := by
        simp [isNumber]
      refine ⟨tokens ++ [number], seen ++ left, [], ?_, isBlank_nil, ?_, fun more => ?_⟩
      · exact List.forall_mem_append.mpr ⟨areTokens, by simp [isNumber]⟩
      · rw [isLast, isScan, isTokens, List.append_assoc]
        rfl
      · rw [isLast, behind ' ' more rfl, isTokensBehind, List.append_assoc]
        rfl

/-! ## Names and strings -/

/-- A name in front of what does not go on with it is scanned as an identifier. -/
theorem scans_identifier
    {name : String}
    (isIdentifier : IsIdentifier name)
    (previous : Option TokenKind)
    {rest : List Char}
    (stops : ∀ char ∈ rest.head?, isNameRest char = false) :
    Scans previous (name.toList ++ rest) [.plain .identifier name] (some .identifier) rest := by
  obtain ⟨notReserved, first, others, isName, starts, goesOn⟩ := isIdentifier
  have allName : ∀ char ∈ name.toList, isNameRest char = true := by
    rw [isName]
    exact List.forall_mem_cons.mpr ⟨by simp [isNameRest, starts], goesOn⟩
  have stopsThere : rest.takeWhile isNameRest = [] ∧ rest.dropWhile isNameRest = rest := by
    cases rest with
    | nil => exact ⟨rfl, rfl⟩
    | cons char rest =>
        rw [List.takeWhile_cons, List.dropWhile_cons, stops char rfl]
        exact ⟨rfl, rfl⟩
  have isKind : TokenKind.ofName name = .identifier := by
    unfold TokenKind.ofName
    rw [Option.not_isSome_iff_eq_none.mp (Bool.eq_false_iff.mp notReserved), Option.getD_none]
  have isLexeme : nameLexeme (name.toList ++ rest) =
      ⟨.identifier, name, name.toList, rest, none⟩ := by
    unfold nameLexeme
    simp only [List.takeWhile_append_of_pos allName, List.dropWhile_append_of_pos allName,
      stopsThere, List.append_nil, String.ofList_toList, isKind]
  have isWriting : (Token.plain .identifier name).writing = name.toList := rfl
  have isOther : TokenKind.identifier ≠ .endOfInput := by decide
  refine @Scans.token rest previous (.plain .identifier name) ?_ ?_ isOther
  · rw [isWriting, isName]
    exact gapFrom_startsOperand (startsOperand_of_isNameRest (by simp [isNameRest, starts])) _
  · refine Eq.trans ?_ isLexeme
    rw [isWriting, isName]
    exact lexeme_of_isNameStart previous starts _

theorem startsOperand_of_quote (isQuote : quote ∈ quotes) :
    startsOperand quote = true := by
  simp only [quotes, List.mem_cons, List.not_mem_nil, or_false] at isQuote
  obtain rfl | rfl := isQuote <;> rfl

theorem isNameRest_of_quote (isQuote : quote ∈ quotes) :
    isNameRest quote = false := by
  simp only [quotes, List.mem_cons, List.not_mem_nil, or_false] at isQuote
  obtain rfl | rfl := isQuote <;> rfl

/-- A string starts with a quote, and so it is read as one. -/
theorem writing_of_string (isString : string.kind = .string) (isScanned : string.IsScanned) :
    ∃ quote others, string.writing = quote :: others ∧ quote ∈ quotes ∧
      ∀ previous rest, lexeme previous (quote :: rest) = stringLexeme quote rest := by
  have leaf : isLeaf string.kind = true := by
    rw [isString]
    rfl
  obtain ⟨first, others, isWriting, leafFirst⟩ := exists_first_of_leaf leaf isScanned
  unfold IsScanned at isScanned
  rw [isWriting] at isScanned
  have isKind : (lexeme none (first :: others)).kind = .string := by rw [isScanned, isString]
  rcases lexeme_cases leafFirst with ⟨isQuote, reads⟩ | ⟨starts, reads⟩ | ⟨-, reads⟩
  · exact ⟨first, others, isWriting, isQuote, reads⟩
  · have plain := isPlain_ofName (String.ofList ((first :: others).takeWhile isNameRest))
    rw [reads] at isKind
    rw [show TokenKind.ofName _ = .string from isKind] at plain
    cases plain
  · rw [reads none others rfl, (numberLexeme_verbatim _).1] at isKind
    cases isKind

/-- A string is scanned as one token whatever stands behind it. -/
theorem scans_string
    (isString : string.kind = .string)
    (isScanned : string.IsScanned)
    (previous : Option TokenKind)
    (rest : List Char) :
    Scans previous (string.writing ++ rest) [string.unplaced] (some .string) rest := by
  obtain ⟨quote, others, isWriting, isQuote, reads⟩ := writing_of_string isString isScanned
  unfold IsScanned at isScanned
  rw [isWriting, reads] at isScanned
  have legal : (stringLexeme quote others).kind ≠ .illegal := by
    rw [isScanned, isString]
    nofun
  have isLexeme : lexeme previous (string.writing ++ rest) =
      ⟨string.kind, string.literal, string.writing, rest, string.quote⟩ := by
    rw [isWriting, List.cons_append, reads, stringLexeme_before rest legal, isScanned]
    rfl
  have isGap : gapFrom .between (string.writing ++ rest) =
      ⟨[], string.writing ++ rest, false, true⟩ := by
    rw [isWriting]
    exact gapFrom_startsOperand (startsOperand_of_quote isQuote) _
  exact isString ▸ Scans.token isGap isLexeme (by rw [isString]; nofun)

/-! ## What is scanned behind a text -/

/-- Behind blanks a text is scanned as some tokens, and only the first may be on another line. -/
theorem Scans.behind_blank
    {more rest : List Char}
    {mark : Token}
    {spelling : List Token}
    {last : Option TokenKind}
    (scans : Scans previous more (mark :: spelling) last rest)
    (isBlank : IsBlank text)
    (width : Char → Nat)
    (front : List Char) :
    ∃ (first : Token) (others : List Token) (behind : List Char),
      tokensFrom width previous front (text ++ more) =
          first :: (others ++ tokensFrom width last behind rest) ∧
        first.unplaced = mark ∧
        others.map unplaced = spelling ∧
        ∀ token ∈ others, token.newlineBefore = false := by
  obtain ⟨tokens, behind, isScan, isSpelling, sameLine⟩ := scans.scans width (front ++ text)
  obtain ⟨token, others, rfl, isMark, areOthers⟩ := List.map_eq_cons_iff.mp isSpelling
  obtain ⟨first, other, remaining, isFirst, isOther, same⟩ :=
    @tokensFrom_behind_blank text width previous front more isBlank scans.closed
  rw [isScan, List.cons_append] at isFirst
  obtain ⟨rfl, rfl⟩ := List.cons.inj isFirst
  exact ⟨other, others, behind, isOther, same.trans isMark, areOthers,
    fun token member => sameLine token (List.mem_cons_of_mem _ member)⟩

/-- A dot in front of a string is scanned as a dot. -/
theorem scans_dot_string
    (isString : string.kind = .string)
    (isScanned : string.IsScanned)
    (previous : Option TokenKind)
    (rest : List Char) :
    Scans previous ('.' :: (string.writing ++ rest)) [.plain .dot ".", string.unplaced]
      (some .string) rest := by
  obtain ⟨quote, others, isWriting, isQuote, -⟩ := writing_of_string isString isScanned
  have scansString := scans_string isString isScanned (some .dot) rest
  rw [isWriting, List.cons_append] at scansString ⊢
  have isDot : lexeme previous ('.' :: quote :: (others ++ rest)) =
      ⟨.dot, ".", ['.'], quote :: (others ++ rest), none⟩ := by
    have notDigit : startsWithDigit (quote :: (others ++ rest)) = false :=
      isDigit_stop (isNameRest_of_quote isQuote)
    simp only [lexeme, notDigit, Bool.and_false]
    rfl
  have dot : Scans previous ('.' :: quote :: (others ++ rest)) [.plain .dot "."] (some .dot)
      (quote :: (others ++ rest)) :=
    @Scans.token _ previous (.plain .dot ".") rfl isDot (by decide)
  exact dot.trans scansString

/--
What is scanned where a dot and a string are written behind a text: the dot and the
string, or digits that the text ends in with the dot, and the string.
-/
inductive BehindDot
    (width : Char → Nat)
    (text : List Char)
    (string : Token)
    (rest : List Char) : Prop where
  | dot (tokens : List Token) (seen left behind : List Char) (dot other : Token) :
      (∀ token ∈ tokens, token.kind ≠ .endOfInput) →
      IsBlank left →
      scanChars width text =
        tokens ++ tokensFrom width (tokens.getLast?.map Token.kind) seen left →
      scanChars width (text ++ '.' :: (string.writing ++ rest)) =
        tokens ++ dot :: other :: tokensFrom width (some .string) behind rest →
      dot.kind = .dot →
      other.unplaced = string.unplaced →
      BehindDot width text string rest
  | digits (tokens : List Token) (seen behind : List Char) (before number other : Token) :
      (∀ token ∈ tokens, token.kind ≠ .endOfInput) →
      scanChars width text = tokens ++ before :: tokensFrom width (some .number) seen [] →
      before.kind = .number →
      scanChars width (text ++ '.' :: (string.writing ++ rest)) =
        tokens ++ number :: other :: tokensFrom width (some .string) behind rest →
      number.kind = .number →
      other.unplaced = string.unplaced →
      other.newlineBefore = false →
      BehindDot width text string rest

/-- Where nothing is cut off, a string behind a dot is scanned as one. -/
theorem scanChars_behind_dot
    (legal : ∀ token ∈ scanChars width text, token.kind ≠ .illegal)
    (goesOn : ¬IsCutOff width text)
    (isString : string.kind = .string)
    (isScanned : string.IsScanned)
    (rest : List Char) :
    BehindDot width text string rest := by
  obtain ⟨tokens, seen, left, areTokens, leftOver, isScan, behind⟩ := scanChars_behind legal
  cases leftOver with
  | cutOff swallows => exact absurd (isCutOff_of_swallows isScan behind swallows) goesOn
  | blank isBlank =>
      obtain ⟨dot, others, after, isScanBehind, isDot, areOthers, -⟩ :=
        (scans_dot_string isString isScanned (tokens.getLast?.map Token.kind) rest).behind_blank
          isBlank width seen
      obtain ⟨other, rfl, isOther⟩ := List.map_eq_singleton_iff.mp areOthers
      refine .dot tokens seen left after dot other areTokens isBlank isScan ?_ ?_ isOther
      · rw [behind '.' _ rfl, isScanBehind]
        rfl
      · exact congrArg Token.kind isDot
  | digits closed digits stays =>
      obtain ⟨quote, others, isWriting, isQuote, -⟩ := writing_of_string isString isScanned
      obtain ⟨number, isNumber, isTokens⟩ := @tokensFrom_digits_dot left width
        (tokens.getLast?.map Token.kind) seen closed digits quote (others ++ rest)
        (isNameRest_of_quote isQuote) (stays '.' _ rfl)
      obtain ⟨strings, after, isScanString, areStrings, sameLine⟩ :=
        (scans_string isString isScanned (some .number) rest).scans width (seen ++ (left ++ ['.']))
      obtain ⟨other, rfl, isOther⟩ := List.map_eq_singleton_iff.mp areStrings
      obtain ⟨before, isBefore, isBeforeTokens, -⟩ := @tokensFrom_digits left width
        (tokens.getLast?.map Token.kind) seen closed digits stays
      refine .digits tokens (seen ++ left) after before number other areTokens
        (isScan.trans (congrArg _ isBeforeTokens)) isBefore ?_ isNumber isOther
        (sameLine other List.mem_cons_self)
      rw [behind '.' _ rfl]
      rw [isWriting, List.cons_append] at isScanString ⊢
      rw [isTokens, isScanString]
      rfl

end ScriptEngine.Token
