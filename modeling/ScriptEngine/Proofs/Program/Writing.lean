import Mathlib.Data.List.Forall2
import ScriptEngine.Proofs.Program.Operations
import ScriptEngine.Proofs.Token.Continuing

namespace ScriptEngine

/-!
# How operator expressions are scanned

The text of an operator expression is scanned as the tokens it is written with, whatever
stands in front of it and whatever may follow an operand.  No token runs into the next
one, no two marks make a comment, and a slash divides because an operand has ended there.
-/

variable {text rest tail : List Char} {char first : Char} {mark : Token}

namespace Token

/-! ## Operands and what follows them -/

/--
The marks that may stand right behind an operand: a blank, a bracket, a brace, a comma, a
colon, a semicolon, and the sign of an update.
-/
def followers : List Char := [' ', '(', ')', '[', ']', '}', ',', ':', ';', '+', '-']

/-- What may stand right behind an operand: such a mark, or a point with a name behind it. -/
inductive Follower : List Char → Prop where
  | mark {char : Char} (more : List Char) : char ∈ followers → Follower (char :: more)
  | point {first : Char} (more : List Char) :
      isNameStart first = true → Follower ('.' :: first :: more)

theorem isNameRest_of_mark (isMark : char ∈ followers) : isNameRest char = false := by
  have others : followers.any isNameRest = false := by decide
  exact Bool.eq_false_iff.mpr (List.any_eq_false.mp others char isMark)

theorem isDigit_of_isNameStart (starts : isNameStart char = true) :
    char.isDigit = false := by
  refine Bool.eq_false_iff.mpr fun isDigit => ?_
  unfold isNameStart Char.isAlpha Char.isUpper Char.isLower at starts
  simp only [Bool.or_eq_true, Bool.and_eq_true, decide_eq_true_eq, beq_iff_eq,
    UInt32.le_iff_toNat_le] at starts
  rcases starts with (((isUpper | isLower) | rfl) | rfl) | beyond
  · simp [Char.isDigit, UInt32.le_iff_toNat_le] at isDigit isUpper
    omega
  · simp [Char.isDigit, UInt32.le_iff_toNat_le] at isDigit isLower
    omega
  · cases isDigit
  · cases isDigit
  · simp [Char.isDigit, UInt32.le_iff_toNat_le] at isDigit
    omega

/-- A digit starts a number. -/
theorem lexeme_of_isDigit
    (previous : Option TokenKind)
    {first : Char}
    (isDigit : first.isDigit = true)
    (rest : List Char) :
    lexeme previous (first :: rest) = numberLexeme (first :: rest) := by
  have apart (mark : Char) (isMark : mark.isDigit = false) : first ≠ mark := by
    rintro rfl
    rw [isMark] at isDigit
    cases isDigit
  have notNul : isNul first = false := by
    refine Bool.eq_false_iff.mpr fun nul => apart (Char.ofNat 0) rfl ?_
    exact Char.ext (UInt32.toNat_inj.mp (beq_iff_eq.mp nul))
  have notName : isNameStart first = false := by
    refine Bool.eq_false_iff.mpr fun starts => ?_
    rw [isDigit_of_isNameStart starts] at isDigit
    cases isDigit
  simp [lexeme, notNul, notName, isDigit, apart '"' rfl, apart '\'' rfl, apart '/' rfl,
    apart '.' rfl]

/-- A decimal that is read to its end is read in front of a follower, too. -/
theorem decimalLexeme_follower
    (some : text ≠ [])
    (whole : (decimalLexeme text).rest = [])
    (follower : Follower rest) :
    decimalLexeme (text ++ rest) = (decimalLexeme text).before rest := by
  have noSign {stop : Char} :
      (fraction (text.takeWhile Char.isDigit).isEmpty (text.dropWhile Char.isDigit)).2.length = 1 →
        stop ≠ '+' ∧ stop ≠ '-' := by
    intro isOne
    obtain ⟨mark, isMark⟩ := List.length_eq_one_iff.mp isOne
    have whole : (exponent (fraction (text.takeWhile Char.isDigit).isEmpty
      (text.dropWhile Char.isDigit)).2).2 = [] := whole
    rw [isMark] at whole
    cases whole
  cases follower with
  | mark more isMark =>
      refine decimalLexeme_stop more (isNameRest_of_mark isMark) (fun _ => ?_) noSign
      rintro rfl
      exact absurd isMark (by decide)
  | @point first more starts =>
      by_cases allDigits : text.dropWhile Char.isDigit = []
      · have isWhole : text.takeWhile Char.isDigit = text := by
          have := List.takeWhile_append_dropWhile (p := Char.isDigit) (l := text)
          rwa [allDigits, List.append_nil] at this
        have isFraction : fraction false ('.' :: first :: more) = ([], '.' :: first :: more) := by
          simp [fraction, isDigit_of_isNameStart starts, starts]
        have isExponent : exponent ('.' :: first :: more) = ([], '.' :: first :: more) := rfl
        have isPoint : isNameRest '.' = false := rfl
        unfold decimalLexeme
        simp only [takeWhile_append_stop _ (isDigit_stop isPoint),
          dropWhile_append_stop _ (isDigit_stop isPoint), isWhole, allDigits, List.nil_append,
          List.isEmpty_eq_false_iff.mpr some, isFraction, isExponent]
        rfl
      · exact decimalLexeme_stop _ rfl (fun isEmpty => absurd isEmpty allDigits) noSign

theorem numberLexeme_follower
    (some : text ≠ [])
    (whole : (numberLexeme text).rest = [])
    (follower : Follower rest) :
    numberLexeme (text ++ rest) = (numberLexeme text).before rest := by
  have decimal (isDecimal : numberLexeme text = decimalLexeme text) :
      decimalLexeme (text ++ rest) = (decimalLexeme text).before rest :=
    decimalLexeme_follower some (isDecimal ▸ whole) follower
  cases follower with
  | mark more isMark => exact numberLexeme_stop more (isNameRest_of_mark isMark) decimal
  | point more starts => exact numberLexeme_stop _ rfl decimal

/-- A string that is closed stays so whatever follows. -/
theorem stringBody_follower
    {quote : Char}
    (closed : (stringBody quote text).closed = true)
    (rest : List Char) :
    stringBody quote (text ++ rest) = (stringBody quote text).before rest := by
  fun_induction stringBody quote text with
  | case1 | case2 | case3 | case6 => simp at closed
  | case4 hidden text goesOn inductionHypothesis =>
      have closed : (stringBody quote text).closed = true := closed
      simp [stringBody, goesOn, inductionHypothesis closed, Body.cons, Body.before]
  | case5 text notLast notHiding =>
      have notEscape := not_escape notLast notHiding
      simp [stringBody, notEscape, Body.before]
  | case7 char text notLast notHiding notClosing goesOn inductionHypothesis =>
      have closed : (stringBody quote text).closed = true := closed
      have notEscape := not_escape notLast notHiding
      simp [stringBody, notEscape, notClosing, goesOn, inductionHypothesis closed, Body.cons,
        Body.before]

/-- Whether a token of a kind is an operand of its own. -/
def isLeaf : TokenKind → Bool
  | .identifier | .number | .string | .trueWord | .falseWord | .thisWord => true
  | _ => false

theorem isLeaf_of_punctuator?
    {kind : TokenKind} {length : Nat}
    (found : punctuator? text = some (kind, length)) :
    isLeaf kind = false := by
  have all : ∀ entry ∈ marks, isLeaf entry.2 = false := by decide
  obtain ⟨entry, isEntry, isFound⟩ := Option.map_eq_some_iff.mp found
  obtain ⟨rfl, rfl⟩ := Prod.mk.inj isFound
  exact all entry (List.mem_of_find?_eq_some isEntry)

theorem isLeaf_punctuatorLexeme (first : Char) (rest : List Char) :
    isLeaf (punctuatorLexeme first rest).kind = false := by
  unfold punctuatorLexeme
  split
  · exact isLeaf_of_punctuator? ‹_›
  · rfl

theorem isLeaf_regexLexeme (text : List Char) : isLeaf (regexLexeme text).kind = false := by
  unfold regexLexeme
  dsimp only
  split <;> rfl

/-- Whether an operand may start with a character. -/
def startsOperand (char : Char) : Bool := !(blanks ++ ['/', '=', '+', '-']).contains char

/-- Whether an expression may start with a character: an operand, or a regular expression. -/
def startsExpression (char : Char) : Bool := !(blanks ++ ['=', '+', '-']).contains char

theorem startsExpression_of_startsOperand (starts : startsOperand char = true) :
    startsExpression char = true := by
  simp only [startsOperand, startsExpression, List.contains_eq_mem, Bool.not_eq_true',
    decide_eq_false_iff_not, List.mem_append, List.mem_cons, not_or] at starts ⊢
  exact ⟨starts.1, starts.2.2⟩

theorem startsOperand_of_isNameRest (isName : isNameRest char = true) :
    startsOperand char = true := by
  have others : (blanks ++ ['/', '=', '+', '-']).any isNameRest = false := by decide
  have apart : char ∉ blanks ++ ['/', '=', '+', '-'] := fun member =>
    List.any_eq_false.mp others char member isName
  rw [startsOperand, List.contains_eq_mem, decide_eq_false apart, Bool.not_false]

theorem numberLexeme_verbatim (text : List Char) :
    (numberLexeme text).kind = .number ∧ (numberLexeme text).quote = none := by
  unfold numberLexeme
  split
  · split <;> exact ⟨rfl, rfl⟩
  · exact ⟨rfl, rfl⟩

/-- Which reader the first character of an operand of one token calls for. -/
theorem lexeme_cases (leaf : isLeaf (lexeme none (first :: text)).kind = true) :
    (first ∈ quotes ∧
        ∀ previous others, lexeme previous (first :: others) = stringLexeme first others) ∨
      (isNameStart first = true ∧
        ∀ previous others, lexeme previous (first :: others) = nameLexeme (first :: others)) ∨
      ((first.isDigit = true ∨ first = '.') ∧
        ∀ previous others, startsWithDigit others = startsWithDigit text →
          lexeme previous (first :: others) = numberLexeme (first :: others)) := by
  by_cases isNul : isNul first = true
  · simp [lexeme, isNul, isLeaf] at leaf
  by_cases isQuote : (first = '"' || first = '\'') = true
  · refine .inl ⟨by simpa [quotes] using isQuote, fun previous others => ?_⟩
    simp only [lexeme, isNul, isQuote]
    rfl
  by_cases isSlash : first = '/'
  · have isRegex : lexeme none (first :: text) = regexLexeme text := by
      rw [isSlash]
      rfl
    rw [isRegex, isLeaf_regexLexeme] at leaf
    cases leaf
  by_cases isPoint : (first = '.' && startsWithDigit text) = true
  · refine .inr (.inr ⟨?_, fun previous others same => ?_⟩)
    · simp at isPoint
      exact .inr isPoint.1
    · simp only [lexeme, isNul, isQuote, isSlash, same, isPoint, decide_false, Bool.false_and]
      rfl
  by_cases isName : isNameStart first = true
  · refine .inr (.inl ⟨isName, fun previous others => ?_⟩)
    have notPoint : first ≠ '.' := by
      rintro rfl
      cases isName
    simp only [lexeme, isNul, isQuote, isSlash, notPoint, isName, decide_false, Bool.false_and]
    rfl
  by_cases isDigit : first.isDigit = true
  · refine .inr (.inr ⟨.inl isDigit, fun previous others same => ?_⟩)
    simp only [lexeme, isNul, isQuote, isSlash, same, isPoint, isName, isDigit, decide_false,
      Bool.false_and]
    rfl
  · have isMark : lexeme none (first :: text) = punctuatorLexeme first text := by
      simp only [lexeme, isNul, isQuote, isSlash, isPoint, isName, isDigit, decide_false,
        Bool.false_and]
      rfl
    rw [isMark, isLeaf_punctuatorLexeme] at leaf
    cases leaf

/-- An operand that is scanned on its own is scanned in front of a follower, too. -/
theorem lexeme_follower
    (previous : Option TokenKind)
    (leaf : isLeaf (lexeme none (first :: text)).kind = true)
    (whole : (lexeme none (first :: text)).rest = [])
    (follower : Follower rest) :
    lexeme previous (first :: (text ++ rest)) = (lexeme none (first :: text)).before rest := by
  rcases lexeme_cases leaf with ⟨isQuote, isString⟩ | ⟨starts, isName⟩ | ⟨-, isNumber⟩
  · rw [isString] at leaf ⊢
    rw [isString]
    have closed : (stringBody first text).closed = true := by
      unfold stringLexeme at leaf
      dsimp only at leaf
      split at leaf
      · assumption
      · cases leaf
    exact stringLexeme_of_body (stringBody_follower closed rest)
  · rw [isName, isName]
    cases follower with
    | mark more isMark => exact nameLexeme_stop more (isNameRest_of_mark isMark) (first :: text)
    | point more starts => exact nameLexeme_stop _ rfl (first :: text)
  · have sameDigit : startsWithDigit (text ++ rest) = startsWithDigit text := by
      cases text with
      | nil =>
          cases follower with
          | mark more isMark => exact isDigit_stop (isNameRest_of_mark isMark)
          | point more starts => rfl
      | cons _ _ => rfl
    rw [isNumber none text rfl] at whole ⊢
    rw [isNumber previous _ sameDigit]
    exact numberLexeme_follower (List.cons_ne_nil first text) whole follower

theorem startsOperand_of_leaf
    (leaf : isLeaf (lexeme none (first :: text)).kind = true) :
    startsOperand first = true := by
  rcases lexeme_cases leaf with ⟨isQuote, -⟩ | ⟨starts, -⟩ | ⟨isDigit | rfl, -⟩
  · simp only [quotes, List.mem_cons, List.not_mem_nil, or_false] at isQuote
    rcases isQuote with rfl | rfl <;> rfl
  · exact startsOperand_of_isNameRest (by simp [isNameRest, starts])
  · exact startsOperand_of_isNameRest (by simp [isNameRest, isDigit])
  · rfl

theorem gapFrom_startsOperand (starts : startsOperand first = true) (rest : List Char) :
    gapFrom .between (first :: rest) = ⟨[], first :: rest, false, true⟩ := by
  have apart : first ∉ blanks ++ ['/', '=', '+', '-'] := by
    simpa only [startsOperand, List.contains_eq_mem, Bool.not_eq_true', decide_eq_false_iff_not]
      using starts
  have notSlash : first ≠ '/' := by
    rintro rfl
    exact apart (by decide)
  have notFeed : first ≠ '\n' := by
    rintro rfl
    exact apart (by decide)
  have notSpace : isSpace first = false :=
    Bool.eq_false_iff.mpr fun space =>
      apart (List.mem_append_left _ (mem_blanks_of_isSpace space))
  simp [gapFrom, notSlash, notFeed, notSpace]

/-! ## Texts that are scanned as some tokens -/

/--
The front of a text is scanned as some tokens, apart from their places, and no line feed
stands between them.
-/
structure Scans
    (previous : Option TokenKind)
    (text : List Char)
    (spelling : List Token)
    (last : Option TokenKind)
    (rest : List Char) : Prop where
  closed : (gapFrom .between text).closed = true
  scans : ∀ width front, ∃ tokens behind,
    tokensFrom width previous front text = tokens ++ tokensFrom width last behind rest ∧
      tokens.map unplaced = spelling ∧ ∀ token ∈ tokens, token.newlineBefore = false

namespace Scans

variable {previous last final : Option TokenKind} {spelling more : List Token}

theorem none (closed : (gapFrom .between text).closed = true) :
    Scans previous text [] previous text :=
  ⟨closed, fun _ front => ⟨[], front, rfl, rfl, by simp⟩⟩

theorem trans
    (scans : Scans previous text spelling last rest) (scansMore : Scans last rest more final tail) :
    Scans previous text (spelling ++ more) final tail := by
  refine ⟨scans.closed, fun width front => ?_⟩
  obtain ⟨tokens, behind, isText, rfl, noNewline⟩ := scans.scans width front
  obtain ⟨others, after, isRest, rfl, noOther⟩ := scansMore.scans width behind
  refine ⟨tokens ++ others, after, ?_, List.map_append, ?_⟩
  · rw [isText, isRest, List.append_assoc]
  · exact List.forall_mem_append.mpr ⟨noNewline, noOther⟩

theorem token
    {token : Token}
    (isGap : gapFrom .between (token.writing ++ rest) = ⟨[], token.writing ++ rest, false, true⟩)
    (isLexeme : lexeme previous (token.writing ++ rest) =
      ⟨token.kind, token.literal, token.writing, rest, token.quote⟩)
    (goesOn : token.kind ≠ .endOfInput) :
    Scans previous (token.writing ++ rest) [token.unplaced] (some token.kind) rest := by
  refine ⟨by rw [isGap], fun width front => ?_⟩
  have isNext := @next_of_gap _ width previous _ isGap rfl (Place.origin.past width front)
  dsimp only at isNext
  rw [isLexeme] at isNext
  obtain ⟨taken, -, -, isTokens⟩ := tokensFrom_of_token isNext goesOn
  exact ⟨[_], _, isTokens, rfl, fun found isFound => by rw [List.mem_singleton.mp isFound]⟩

/-- A blank in front changes nothing but the places. -/
theorem blank (scans : Scans previous text spelling last rest) :
    Scans previous (' ' :: text) spelling last rest := by
  have isGap : gapFrom .between (' ' :: text) = (gapFrom .between text).cons [' '] false := rfl
  refine ⟨by rw [isGap]; exact scans.closed, fun width front => ?_⟩
  obtain ⟨tokens, behind, isText, isSpelling, noNewline⟩ := scans.scans width (front ++ [' '])
  refine ⟨tokens, behind, ?_, isSpelling, noNewline⟩
  rw [← isText]
  have isNext : next width previous (Place.origin.past width front) (' ' :: text) =
      next width previous (Place.origin.past width (front ++ [' '])) text := by
    rw [next_of_gap isGap scans.closed, next_of_gap rfl scans.closed, ← Place.past_past]
    rfl
  unfold tokensFrom
  rw [← scanFrom_of_enough width previous (front ++ [' ']) (Nat.lt_succ_self _) (Nat.le_succ _)]
  unfold scanFrom
  rw [isNext]
  rfl

theorem leftParen (previous : Option TokenKind) (rest : List Char) :
    Scans previous ('(' :: rest) [.plain .leftParen "("] (some .leftParen) rest :=
  @Scans.token rest previous (.plain .leftParen "(") rfl rfl nofun

theorem rightParen (previous : Option TokenKind) (rest : List Char) :
    Scans previous (')' :: rest) [.plain .rightParen ")"] (some .rightParen) rest :=
  @Scans.token rest previous (.plain .rightParen ")") rfl rfl nofun

theorem leftBracket (previous : Option TokenKind) (rest : List Char) :
    Scans previous ('[' :: rest) [.plain .leftBracket "["] (some .leftBracket) rest :=
  @Scans.token rest previous (.plain .leftBracket "[") rfl rfl nofun

theorem rightBracket (previous : Option TokenKind) (rest : List Char) :
    Scans previous (']' :: rest) [.plain .rightBracket "]"] (some .rightBracket) rest :=
  @Scans.token rest previous (.plain .rightBracket "]") rfl rfl nofun

theorem comma (previous : Option TokenKind) (rest : List Char) :
    Scans previous (',' :: rest) [.plain .comma ","] (some .comma) rest :=
  @Scans.token rest previous (.plain .comma ",") rfl rfl nofun

end Scans

section

variable {token : Token}

section

variable (leaf : isLeaf token.kind = true) (isScanned : token.IsScanned)

include leaf isScanned

theorem exists_first_of_leaf : ∃ first others, token.writing = first :: others ∧
      isLeaf (lexeme none (first :: others)).kind = true := by
  unfold IsScanned at isScanned
  cases isWriting : token.writing with
  | nil =>
      rw [isWriting] at isScanned
      have isEnd : token.kind = .endOfInput := congrArg Lexeme.kind isScanned.symm
      rw [isEnd] at leaf
      cases leaf
  | cons first others =>
      rw [isWriting] at isScanned
      exact ⟨first, others, rfl, by rw [isScanned]; exact leaf⟩

/-- An operand of one token is scanned in front of a follower. -/
theorem scans_leaf
    (previous : Option TokenKind)
    (follower : Follower rest) :
    Scans previous (token.writing ++ rest) [token.unplaced] (some token.kind) rest := by
  obtain ⟨first, others, isWriting, leafFirst⟩ := exists_first_of_leaf leaf isScanned
  unfold IsScanned at isScanned
  refine Scans.token ?_ ?_ ?_
  · rw [isWriting]
    exact gapFrom_startsOperand (startsOperand_of_leaf leafFirst) _
  · have whole : (lexeme none (first :: others)).rest = [] := by rw [← isWriting, isScanned]
    have isLexeme := lexeme_follower previous leafFirst whole follower
    rw [← isWriting, ← List.cons_append, ← isWriting] at isLexeme
    rw [isLexeme, isScanned]
    rfl
  · intro isEnd
    rw [isEnd] at leaf
    cases leaf

/-- Names and numbers are written without quotes, and names start as names do. -/
theorem leaf_starts (notString : token.kind ≠ .string) : token.quote = none ∧
      ∃ first others, token.writing = first :: others ∧
        (token.kind = .identifier → isNameStart first = true) := by
  obtain ⟨first, others, isWriting, leafFirst⟩ := exists_first_of_leaf leaf isScanned
  unfold IsScanned at isScanned
  rw [isWriting] at isScanned
  have isKind : (lexeme none (first :: others)).kind = token.kind := by rw [isScanned]
  have isQuote : (lexeme none (first :: others)).quote = token.quote := by rw [isScanned]
  rcases lexeme_cases leafFirst with ⟨-, isString⟩ | ⟨starts, isName⟩ | ⟨-, isNumber⟩
  · rw [isString] at isKind
    unfold stringLexeme at isKind
    dsimp only at isKind
    split at isKind
    · exact absurd isKind.symm notString
    · rw [← isKind] at leaf
      cases leaf
  · rw [isName] at isQuote
    exact ⟨isQuote.symm, first, others, isWriting, fun _ => starts⟩
  · rw [isNumber none others rfl] at isKind isQuote
    obtain ⟨isNumeric, noQuote⟩ := numberLexeme_verbatim (first :: others)
    refine ⟨by rw [← isQuote, noQuote], first, others, isWriting, fun isName => ?_⟩
    rw [isName, isNumeric] at isKind
    cases isKind

end

end

end Token

/-! ## Operator expressions -/

theorem UnaryOperator.toList_text (operator : UnaryOperator) :
    operator.text.toList = operator.mark.writing := by
  cases operator <;> rfl

theorem UpdateOperator.toList_text (operator : UpdateOperator) :
    operator.text.toList = operator.mark.writing := by
  cases operator <;> rfl

theorem InfixOperator.toList_text (operator : InfixOperator) :
    operator.text.toList = operator.mark.writing := by
  rcases operator with operator | _ | _
  · cases operator <;> rfl
  · rfl
  · rfl

namespace Expression

open Token

/--
How a text is scanned that stands for an expression, with a last token of a kind.  A text
that starts with a regular expression is scanned where its slash does not divide.
-/
structure IsWritten
    (regexFirst : Bool)
    (last : TokenKind)
    (text : List Char)
    (spelling : List Token) : Prop where
  starts : ∃ first others, text = first :: others ∧ startsExpression first = true
  scans : ∀ previous rest, (regexFirst = true → allowsRegex previous = true) → Follower rest →
    Scans previous (text ++ rest) spelling (some last) rest

section

variable {regexFirst regexOther : Bool} {kind kindOther : TokenKind} {other : List Char}
  {spelling more : List Token}

theorem isWritten_leaf
    {token : Token} (leaf : isLeaf token.kind = true) (isScanned : token.IsScanned) :
    IsWritten regexFirst token.kind token.writing [token.unplaced] := by
  refine ⟨?_, fun previous rest _ follower => scans_leaf leaf isScanned previous follower⟩
  obtain ⟨first, others, isWriting, leafFirst⟩ := exists_first_of_leaf leaf isScanned
  exact ⟨first, others, isWriting, startsExpression_of_startsOperand
    (startsOperand_of_leaf leafFirst)⟩

theorem isWritten_unquoted
    {token : Token} (leaf : isLeaf token.kind = true) (isScanned : token.IsScanned)
    (notString : token.kind ≠ .string) :
    IsWritten regexFirst token.kind token.literal.toList [token.unplaced] := by
  have written := @isWritten_leaf regexFirst token leaf isScanned
  unfold writing at written
  rwa [(leaf_starts leaf isScanned notString).1] at written

/-- A text in parentheses is an operand. -/
theorem isWritten_grouped
    (scans : ∀ rest, ∃ last, Scans (some .leftParen) (text ++ ')' :: rest) spelling last
      (')' :: rest)) :
    IsWritten regexFirst .rightParen ('(' :: (text ++ [')']))
      (.plain .leftParen "(" :: (spelling ++ [Token.plain .rightParen ")"])) := by
  refine ⟨⟨'(', _, rfl, rfl⟩, fun previous rest _ _ => ?_⟩
  obtain ⟨last, scans⟩ := scans rest
  rw [List.cons_append, List.append_assoc]
  exact (Scans.leftParen previous _).trans (scans.trans (.rightParen last rest))

theorem follower_parenthesis (rest : List Char) : Follower (')' :: rest) :=
  .mark rest (by decide)

theorem isWritten_prefixed
    (written : IsWritten regexOther kind text spelling)
    (opens : regexOther = true → allowsRegex (some mark.kind) = true)
    (scansMark : ∀ first others, startsExpression first = true →
      Scans (some .leftParen) (mark.writing ++ first :: others) [mark] (some mark.kind)
        (first :: others)) :
    IsWritten regexFirst .rightParen ('(' :: (mark.writing ++ (text ++ [')'])))
      (.plain .leftParen "(" :: mark :: (spelling ++ [Token.plain .rightParen ")"])) := by
  have grouped := @isWritten_grouped (mark.writing ++ text) regexFirst (mark :: spelling)
    fun rest => by
      have scans := written.scans (some mark.kind) (')' :: rest) opens (follower_parenthesis rest)
      obtain ⟨first, others, rfl, starts⟩ := written.starts
      rw [List.append_assoc]
      exact ⟨some kind, (scansMark first _ starts).trans scans⟩
  rwa [List.append_assoc] at grouped

/-- A word in front of an operand stands apart from it. -/
theorem isWritten_word
    {word : Token}
    (written : IsWritten regexOther kind text spelling)
    (opens : allowsRegex (some word.kind) = true)
    (scansWord : ∀ others,
      Scans (some .leftParen) (word.writing ++ ' ' :: others) [word] (some word.kind)
        (' ' :: others)) :
    IsWritten regexFirst .rightParen ('(' :: (word.writing ++ ' ' :: (text ++ [')'])))
      (.plain .leftParen "(" :: word :: (spelling ++ [Token.plain .rightParen ")"])) := by
  have grouped := @isWritten_grouped (word.writing ++ ' ' :: text) regexFirst (word :: spelling)
    fun rest => by
      have scans := written.scans (some word.kind) (')' :: rest) (fun _ => opens)
        (follower_parenthesis rest)
      rw [List.append_assoc]
      exact ⟨some kind, (scansWord _).trans scans.blank⟩
  rwa [List.append_assoc] at grouped

theorem isWritten_postfixed
    (written : IsWritten regexOther kind text spelling)
    (follows : ∀ rest, Follower (mark.writing ++ ')' :: rest))
    (scansMark : ∀ kind rest,
      Scans (some kind) (mark.writing ++ ')' :: rest) [mark] (some mark.kind) (')' :: rest)) :
    IsWritten regexFirst .rightParen ('(' :: (text ++ (mark.writing ++ [')'])))
      (.plain .leftParen "(" :: (spelling ++ [mark, .plain .rightParen ")"])) := by
  have grouped := @isWritten_grouped (text ++ mark.writing) regexFirst (spelling ++ [mark])
    fun rest => by
      have scans := written.scans (some .leftParen) _ (fun _ => rfl) (follows rest)
      rw [List.append_assoc]
      exact ⟨some mark.kind, scans.trans (scansMark kind rest)⟩
  simpa only [List.append_assoc, List.cons_append, List.nil_append] using grouped

/-- An operator behind an operand stands between blanks. -/
theorem scans_operator
    {mark : Token}
    {previous : Option TokenKind}
    (written : IsWritten regexFirst kind text spelling)
    (opens : regexFirst = true → allowsRegex previous = true)
    (scansMark : ∀ rest,
      Scans (some kind) (mark.writing ++ ' ' :: rest) [mark] (some mark.kind) (' ' :: rest))
    (rest : List Char) :
    Scans previous (text ++ ' ' :: (mark.writing ++ ' ' :: rest)) (spelling ++ [mark])
      (some mark.kind) (' ' :: rest) := by
  have scans := written.scans previous (' ' :: (mark.writing ++ ' ' :: rest)) opens
    (.mark _ (by decide))
  exact scans.trans (scansMark rest).blank

theorem isWritten_binary
    (written : IsWritten regexFirst kind text spelling)
    (writtenOther : IsWritten regexOther kindOther other more)
    (opens : allowsRegex (some mark.kind) = true)
    (scansMark : ∀ rest,
      Scans (some kind) (mark.writing ++ ' ' :: rest) [mark] (some mark.kind) (' ' :: rest)) :
    IsWritten false .rightParen
      ('(' :: (text ++ ' ' :: (mark.writing ++ ' ' :: (other ++ [')']))))
      (.plain .leftParen "(" :: (spelling ++ mark :: (more ++ [Token.plain .rightParen ")"]))) := by
  have grouped := @isWritten_grouped (text ++ ' ' :: (mark.writing ++ ' ' :: other)) false
    (spelling ++ [mark] ++ more) fun rest => by
    have scansOther := writtenOther.scans (some mark.kind) (')' :: rest) (fun _ => opens)
      (follower_parenthesis rest)
    have scansFirst := @scans_operator _ _ _ _ mark (some .leftParen) written (fun _ => rfl)
      scansMark
    have all := (scansFirst _).trans scansOther.blank
    exact ⟨some kindOther, by simpa only [List.append_assoc, List.cons_append] using all⟩
  simpa only [List.append_assoc, List.cons_append, List.nil_append] using grouped

theorem isWritten_conditional
    {regexLast : Bool}
    {kindLast : TokenKind}
    {last : List Char}
    {final : List Token}
    (written : IsWritten regexFirst kind text spelling)
    (writtenOther : IsWritten regexOther kindOther other more)
    (writtenLast : IsWritten regexLast kindLast last final) :
    IsWritten false .rightParen
      ('(' :: (text ++ ' ' :: '?' :: ' ' :: (other ++ ' ' :: ':' :: ' ' :: (last ++ [')']))))
      (.plain .leftParen "(" :: (spelling ++ Token.plain .question "?" ::
        (more ++ Token.plain .colon ":" :: (final ++ [Token.plain .rightParen ")"])))) := by
  have grouped := @isWritten_grouped
    (text ++ ' ' :: '?' :: ' ' :: (other ++ ' ' :: ':' :: ' ' :: last)) false
    (spelling ++ [Token.plain .question "?"] ++ (more ++ [Token.plain .colon ":"] ++ final))
      fun rest => by
    have scansLast := writtenLast.scans (some .colon) (')' :: rest) (fun _ => rfl)
      (follower_parenthesis rest)
    have question (rest : List Char) : Scans (some .leftParen) (text ++ ' ' :: '?' :: ' ' :: rest)
        (spelling ++ [Token.plain .question "?"]) (some .question) (' ' :: rest) :=
      @scans_operator _ _ _ _ (.plain .question "?") _ written (fun _ => rfl)
        (fun rest => @Scans.token _ (some kind) (.plain .question "?") rfl rfl nofun) rest
    have colon (rest : List Char) : Scans (some .question) (other ++ ' ' :: ':' :: ' ' :: rest)
        (more ++ [Token.plain .colon ":"]) (some .colon) (' ' :: rest) :=
      @scans_operator _ _ _ _ (.plain .colon ":") _ writtenOther (fun _ => rfl)
        (fun rest => @Scans.token _ (some kindOther) (.plain .colon ":") rfl rfl nofun) rest
    have all := (question _).trans ((colon _).trans scansLast.blank).blank
    exact ⟨some kindLast, by simpa only [List.append_assoc, List.cons_append] using all⟩
  simpa only [List.append_assoc, List.cons_append, List.nil_append] using grouped

end

/-! ## Lists -/

/-- The text of the rest of a list, with a comma and a blank in front of each part. -/
def textMore : List (List Char) → List Char
  | [] => []
  | next :: rest => ',' :: ' ' :: (next ++ textMore rest)

/-- The text of a list of parts. -/
def textAll : List (List Char) → List Char
  | [] => []
  | first :: rest => first ++ textMore rest

/-- The tokens of the rest of a list, with a comma in front of each part. -/
def listMore : List (List Token) → List Token
  | [] => []
  | next :: rest => .plain .comma "," :: (next ++ listMore rest)

/-- The tokens of a list of parts. -/
def listAll : List (List Token) → List Token
  | [] => []
  | first :: rest => first ++ listMore rest

theorem toList_separated (parts : List String) :
    (separated ", " parts).toList = textAll (parts.map String.toList) := by
  cases parts with
  | nil => simp [separated, textAll]
  | cons first rest =>
      induction rest generalizing first with
      | nil => simp [separated, textAll, textMore]
      | cons next rest inductionHypothesis =>
          have later := inductionHypothesis next
          simp only [separated, List.map_cons, textAll, textMore, String.intercalate_cons_cons,
            String.toList_append] at later ⊢
          rw [later]
          simp

/-- A text is scanned as some tokens where an expression may stand. -/
def IsPart (text : List Char) (spelling : List Token) : Prop :=
  ∀ previous rest, allowsRegex previous = true → Follower rest →
    ∃ last, Scans previous (text ++ rest) spelling (some last) rest

theorem IsWritten.isPart
    {regexFirst : Bool} {last : TokenKind} {spelling : List Token}
    (written : IsWritten regexFirst last text spelling) :
    IsPart text spelling :=
  fun previous rest opens follower => ⟨last, written.scans previous rest (fun _ => opens) follower⟩

section

variable {texts : List (List Char)} {spellings : List (List Token)}
  (written : List.Forall₂ IsPart texts spellings)
  {close : Char} (closes : close ∈ [')', ']', '\x7d', ';'])

include closes

theorem closed_close (rest : List Char) : (gapFrom .between (close :: rest)).closed = true := by
  simp only [List.mem_cons, List.not_mem_nil, or_false] at closes
  rcases closes with rfl | rfl | rfl | rfl <;> rfl

theorem follower_close (rest : List Char) : Follower (close :: rest) := by
  refine .mark rest ?_
  simp only [List.mem_cons, List.not_mem_nil, or_false] at closes
  rcases closes with rfl | rfl | rfl | rfl <;> decide

theorem follower_more (texts : List (List Char)) (rest : List Char) :
    Follower (textMore texts ++ close :: rest) := by
  cases texts with
  | nil => exact follower_close closes rest
  | cons next others => exact .mark _ (by decide)

include written

theorem scans_more (previous : Option TokenKind) (rest : List Char) :
    ∃ last, Scans previous (textMore texts ++ close :: rest) (listMore spellings) last
      (close :: rest) := by
  induction written generalizing previous with
  | nil => exact ⟨previous, .none (closed_close closes rest)⟩
  | @cons next spelling others spellings writtenNext _ inductionHypothesis =>
      obtain ⟨kind, scansNext⟩ := writtenNext (some .comma) _ rfl (follower_more closes others rest)
      obtain ⟨last, scansOthers⟩ := inductionHypothesis (some kind)
      have all := (Scans.comma previous _).trans (scansNext.trans scansOthers).blank
      exact ⟨last, by simpa only [textMore, listMore, List.append_assoc, List.cons_append,
        List.nil_append] using all⟩

theorem scans_all
    {previous : Option TokenKind} (opens : allowsRegex previous = true) (rest : List Char) :
    ∃ last, Scans previous (textAll texts ++ close :: rest) (listAll spellings) last
      (close :: rest) := by
  cases written with
  | nil => exact ⟨previous, .none (closed_close closes rest)⟩
  | @cons first spelling others spellings writtenFirst writtenOthers =>
      obtain ⟨kind, scansFirst⟩ := writtenFirst previous _ opens (follower_more closes others rest)
      obtain ⟨last, scansOthers⟩ := scans_more writtenOthers closes (some kind) rest
      exact ⟨last, by simpa only [textAll, listAll, List.append_assoc] using
        scansFirst.trans scansOthers⟩

end

/-! ## Accesses and calls -/

section

variable {regexFirst regexOther : Bool} {kind kindOther : TokenKind} {other : List Char}
  {spelling more : List Token} {texts : List (List Char)} {spellings : List (List Token)}

theorem isWritten_array (written : List.Forall₂ IsPart texts spellings) :
    IsWritten regexFirst .rightBracket ('[' :: (textAll texts ++ [']']))
      (.plain .leftBracket "[" :: (listAll spellings ++ [Token.plain .rightBracket "]"])) := by
  refine ⟨⟨'[', _, rfl, rfl⟩, fun previous rest _ _ => ?_⟩
  obtain ⟨last, scans⟩ := @scans_all _ _ written ']' (by decide) (some .leftBracket) rfl rest
  rw [List.cons_append, List.append_assoc]
  exact (Scans.leftBracket previous _).trans (scans.trans (.rightBracket last rest))

theorem isWritten_call
    (written : IsWritten regexFirst kind text spelling)
    (writtenAll : List.Forall₂ IsPart texts spellings) :
    IsWritten regexFirst .rightParen (text ++ '(' :: (textAll texts ++ [')']))
      (spelling ++ Token.plain .leftParen "(" ::
        (listAll spellings ++ [Token.plain .rightParen ")"])) := by
  refine ⟨?_, fun previous rest opens _ => ?_⟩
  · obtain ⟨first, others, rfl, starts⟩ := written.starts
    exact ⟨first, _, rfl, starts⟩
  obtain ⟨last, scans⟩ := @scans_all _ _ writtenAll ')' (by decide) (some .leftParen) rfl rest
  have scansCallee := written.scans previous
    ('(' :: (textAll texts ++ ')' :: rest)) opens (.mark _ (by decide))
  have all := scansCallee.trans ((Scans.leftParen _ _).trans (scans.trans (.rightParen last rest)))
  simpa only [List.append_assoc, List.cons_append, List.nil_append] using all

theorem isWritten_construct
    (written : IsWritten regexOther kind text spelling)
    (writtenAll : List.Forall₂ IsPart texts spellings) :
    IsWritten regexFirst .rightParen
      ('n' :: 'e' :: 'w' :: ' ' :: (text ++ '(' :: (textAll texts ++ [')'])))
      (.plain .newWord "new" :: (spelling ++ Token.plain .leftParen "(" ::
        (listAll spellings ++ [Token.plain .rightParen ")"]))) := by
  refine ⟨⟨'n', _, rfl, rfl⟩, fun previous rest _ follower => ?_⟩
  have scans := (isWritten_call written writtenAll).scans (some .newWord) rest (fun _ => rfl) follower
  have opens (others : List Char) : Scans previous ('n' :: 'e' :: 'w' :: ' ' :: others)
      [.plain .newWord "new"] (some .newWord) (' ' :: others) :=
    @Scans.token _ previous (.plain .newWord "new") rfl rfl nofun
  exact (opens _).trans scans.blank

theorem isWritten_index
    (written : IsWritten regexFirst kind text spelling)
    (writtenKey : IsWritten regexOther kindOther other more) :
    IsWritten regexFirst .rightBracket (text ++ '[' :: (other ++ [']']))
      (spelling ++ Token.plain .leftBracket "[" :: (more ++ [Token.plain .rightBracket "]"])) := by
  refine ⟨?_, fun previous rest opens _ => ?_⟩
  · obtain ⟨first, others, rfl, starts⟩ := written.starts
    exact ⟨first, _, rfl, starts⟩
  have scansKey := writtenKey.scans (some .leftBracket) (']' :: rest) (fun _ => rfl)
    (.mark _ (by decide))
  have scansBase := written.scans previous ('[' :: (other ++ ']' :: rest)) opens
    (.mark _ (by decide))
  have all := scansBase.trans
    ((Scans.leftBracket _ _).trans (scansKey.trans (.rightBracket (some kindOther) rest)))
  simpa only [List.append_assoc, List.cons_append, List.nil_append] using all

/-- A name or a word behind a point. -/
theorem isWritten_member
    {property : Token}
    {initial : Char}
    (written : IsWritten regexFirst kind text spelling)
    (isWriting : property.writing = initial :: tail)
    (starts : isNameStart initial = true)
    (scansName : ∀ rest, Follower rest →
      Scans (some .dot) (property.writing ++ rest) [property.unplaced] (some property.kind) rest) :
    IsWritten regexFirst property.kind (text ++ '.' :: property.writing)
      (spelling ++ [Token.plain .dot ".", property.unplaced]) := by
  refine ⟨?_, fun previous rest opens follower => ?_⟩
  · obtain ⟨first, others, rfl, starts⟩ := written.starts
    exact ⟨first, _, rfl, starts⟩
  have scansName := scansName rest follower
  rw [isWriting] at scansName
  have scansBase := written.scans previous ('.' :: initial :: (tail ++ rest)) opens
    (.point _ starts)
  have isDot : lexeme (some kind) ('.' :: initial :: (tail ++ rest)) =
      ⟨.dot, ".", ['.'], initial :: (tail ++ rest), none⟩ := by
    have notDigit : startsWithDigit (initial :: (tail ++ rest)) = false :=
      isDigit_of_isNameStart starts
    simp only [lexeme, notDigit, Bool.and_false]
    rfl
  have dot : Scans (some kind) ('.' :: initial :: (tail ++ rest)) [.plain .dot "."] (some .dot)
      (initial :: (tail ++ rest)) :=
    @Scans.token _ (some kind) (.plain .dot ".") rfl isDot (by decide)
  have all := scansBase.trans (dot.trans scansName)
  simpa only [isWriting, List.append_assoc, List.cons_append, List.nil_append] using all

end

/-! ## The marks of operators -/

theorem scans_unary
    {operator : UnaryOperator}
    (notWord : operator ≠ .void)
    (others : List Char)
    (starts : startsExpression first = true) :
    Scans (some .leftParen) (operator.mark.writing ++ first :: others) [operator.mark]
      (some operator.mark.kind) (first :: others) := by
  have apart : first ∉ blanks ++ ['=', '+', '-'] := by
    simpa only [startsExpression, List.contains_eq_mem, Bool.not_eq_true',
      decide_eq_false_iff_not] using starts
  have isMark (mark : Char) (kind : TokenKind)
      (isOnly : punctuator? (mark :: first :: others) = some (kind, 1)) :
      punctuatorLexeme mark (first :: others) =
        ⟨kind, String.ofList [mark], [mark], first :: others, none⟩ := by
    unfold punctuatorLexeme
    rw [isOnly]
    rfl
  have notEqual : '=' ≠ first := by
    rintro rfl
    exact apart (by decide)
  have notPlus : '+' ≠ first := by
    rintro rfl
    exact apart (by decide)
  have notMinus : '-' ≠ first := by
    rintro rfl
    exact apart (by decide)
  cases operator with
  | not =>
      exact @Scans.token _ _ (.plain .bang "!") rfl
        (isMark '!' .bang (by simp [punctuator?, marks, List.isPrefixOf, notEqual])) nofun
  | negate =>
      exact @Scans.token _ _ (.plain .minus "-") rfl
        (isMark '-' .minus (by simp [punctuator?, marks, List.isPrefixOf, notEqual, notMinus])) nofun
  | toNumber =>
      exact @Scans.token _ _ (.plain .plus "+") rfl
        (isMark '+' .plus (by simp [punctuator?, marks, List.isPrefixOf, notEqual, notPlus])) nofun
  | void => exact absurd rfl notWord

theorem scans_update (operator : UpdateOperator) (previous : Option TokenKind) (rest : List Char) :
    Scans previous (operator.mark.writing ++ rest) [operator.mark] (some operator.mark.kind)
      rest := by
  cases operator with
  | increment => exact @Scans.token _ _ (.plain .increment "++") rfl rfl nofun
  | decrement => exact @Scans.token _ _ (.plain .decrement "--") rfl rfl nofun

theorem scans_between
    (operator : InfixOperator) {kind : TokenKind}
    (ends : operator = .strict .divide → kind.endsOperand = true) (rest : List Char) :
    Scans (some kind) (operator.mark.writing ++ ' ' :: rest) [operator.mark]
      (some operator.mark.kind) (' ' :: rest) := by
  have isLexeme : lexeme (some kind) (operator.mark.writing ++ ' ' :: rest) =
      ⟨operator.mark.kind, operator.mark.literal, operator.mark.writing, ' ' :: rest, none⟩ := by
    cases operator with
    | strict operator =>
        cases operator with
        | divide =>
            have noRegex : allowsRegex (some kind) = false := by simp [allowsRegex, ends rfl]
            have isMark : lexeme (some kind) ('/' :: ' ' :: rest) =
                punctuatorLexeme '/' (' ' :: rest) := by
              simp only [lexeme, noRegex, Bool.and_false]
              rfl
            exact isMark
        | _ => rfl
    | both => rfl
    | either => rfl
  have isGap : gapFrom .between (operator.mark.writing ++ ' ' :: rest) =
      ⟨[], operator.mark.writing ++ ' ' :: rest, false, true⟩ := by
    rcases operator with operator | _ | _
    · cases operator <;> rfl
    · rfl
    · rfl
  have isPlain : operator.mark.quote = none ∧ operator.mark.unplaced = operator.mark ∧
      operator.mark.kind ≠ .endOfInput := by
    rcases operator with operator | _ | _
    · cases operator <;> exact ⟨rfl, rfl, by decide⟩
    · exact ⟨rfl, rfl, by decide⟩
    · exact ⟨rfl, rfl, by decide⟩
  rw [← isPlain.1] at isLexeme
  have scans := Scans.token isGap isLexeme isPlain.2.2
  rwa [isPlain.2.1] at scans

theorem allowsRegex_mark (operator : InfixOperator) :
    allowsRegex (some operator.mark.kind) = true := by
  rcases operator with operator | _ | _
  · cases operator <;> rfl
  · rfl
  · rfl

theorem texts_eq_map (elements : List Expression) :
    texts elements = elements.map Expression.text := by
  induction elements with
  | nil => rfl
  | cons first rest inductionHypothesis => rw [texts, inductionHypothesis, List.map_cons]

theorem spellingMore_eq_listMore (elements : List Expression) :
    spellingMore elements = listMore (elements.map Expression.spelling) := by
  induction elements with
  | nil => rfl
  | cons first rest inductionHypothesis =>
      rw [spellingMore, inductionHypothesis, List.map_cons, listMore]

theorem spellingAll_eq_listAll (elements : List Expression) :
    spellingAll elements = listAll (elements.map Expression.spelling) := by
  cases elements with
  | nil => rfl
  | cons first rest => rw [spellingAll, spellingMore_eq_listMore, List.map_cons, listAll]

/-! ## Texts of expressions -/

section

variable {token : Token} {operand left right : Expression} {regexFirst regexOther : Bool}
  {kind kindOther : TokenKind} {spelling more : List Token}

theorem isWritten_string
    {quote : Char} (isString : token.kind = .string) (isScanned : token.IsScanned)
    (isQuote : token.quote = some quote) :
    IsWritten regexFirst .string (Expression.string token quote).text.toList [token.unplaced] := by
  rw [toList_text_string isQuote, ← isString]
  exact isWritten_leaf (by rw [isString]; rfl) isScanned

theorem isWritten_boolean
    {truth : Bool}
    (isMark : token.unplaced = if truth then .plain .trueWord "true" else .plain .falseWord "false") :
    IsWritten regexFirst (Expression.boolean token truth).closes
      (Expression.boolean token truth).text.toList [token.unplaced] := by
  rw [isMark]
  cases truth with
  | true => exact @isWritten_leaf _ (.plain .trueWord "true") rfl rfl
  | false => exact @isWritten_leaf _ (.plain .falseWord "false") rfl rfl

theorem isWritten_this (isMark : token.unplaced = .plain .thisWord "this") :
    IsWritten regexFirst .thisWord (Expression.this token).text.toList [token.unplaced] := by
  rw [isMark]
  exact @isWritten_leaf _ (.plain .thisWord "this") rfl rfl

section

variable (written : IsWritten regexOther kind operand.text.toList spelling)

include written

theorem isWritten_unary {operator : UnaryOperator} (isMark : token.unplaced = operator.mark) :
    IsWritten regexFirst .rightParen (Expression.unary token operator operand).text.toList
      (.plain .leftParen "(" :: token.unplaced :: (spelling ++ [Token.plain .rightParen ")"])) := by
  rw [isMark]
  by_cases isWord : operator = .void
  · subst isWord
    rw [text]
    simp only [String.toList_append]
    exact @isWritten_word _ _ _ _ _ (.plain .voidWord "void") written rfl fun others =>
      @Scans.token _ _ (.plain .voidWord "void") rfl rfl (by decide)
  · rw [text_unary isWord]
    simp only [String.toList_append, List.append_assoc, UnaryOperator.toList_text]
    refine isWritten_prefixed written (fun _ => ?_) fun _ others starts =>
      scans_unary isWord others starts
    cases operator <;> rfl

theorem isWritten_typeof (isMark : token.unplaced = .plain .typeofWord "typeof") :
    IsWritten regexFirst .rightParen (Expression.typeof token operand).text.toList
      (.plain .leftParen "(" :: token.unplaced :: (spelling ++ [Token.plain .rightParen ")"])) := by
  rw [text, isMark]
  simp only [String.toList_append]
  exact @isWritten_word _ _ _ _ _ (.plain .typeofWord "typeof") written rfl fun others =>
    @Scans.token _ _ (.plain .typeofWord "typeof") rfl rfl (by decide)

theorem isWritten_delete (isMark : token.unplaced = .plain .deleteWord "delete") :
    IsWritten regexFirst .rightParen (Expression.delete token operand).text.toList
      (.plain .leftParen "(" :: token.unplaced :: (spelling ++ [Token.plain .rightParen ")"])) := by
  rw [text, isMark]
  simp only [String.toList_append]
  exact @isWritten_word _ _ _ _ _ (.plain .deleteWord "delete") written rfl fun others =>
    @Scans.token _ _ (.plain .deleteWord "delete") rfl rfl (by decide)

/-- Behind the sign of an update a slash would divide. -/
theorem isWritten_update
    {operator : UpdateOperator}
    (fixity : Fixity)
    (noRegex : fixity = .before → regexOther = false)
    (isMark : token.unplaced = operator.mark) :
    IsWritten regexFirst .rightParen (Expression.update token operator fixity operand).text.toList
      (match fixity with
        | .before =>
            .plain .leftParen "(" :: token.unplaced :: (spelling ++ [Token.plain .rightParen ")"])
        | .after =>
            .plain .leftParen "(" :: (spelling ++ [token.unplaced, .plain .rightParen ")"])) := by
  cases fixity with
  | before =>
      rw [text, isMark]
      simp only [String.toList_append, List.append_assoc, UpdateOperator.toList_text]
      refine isWritten_prefixed written (fun isRegex => ?_) fun _ others _ => scans_update operator _ _
      rw [noRegex rfl] at isRegex
      cases isRegex
  | after =>
      rw [text, isMark]
      simp only [String.toList_append, List.append_assoc, UpdateOperator.toList_text]
      refine isWritten_postfixed written (fun rest => ?_) fun kind rest =>
        scans_update operator _ _
      cases operator <;> exact .mark _ (by decide)

end

section

variable (written : IsWritten regexFirst kind left.text.toList spelling)
  (writtenOther : IsWritten regexOther kindOther right.text.toList more)

include written writtenOther

theorem isWritten_between
    {operator : InfixOperator}
    (divides : operator = .strict .divide → kind.endsOperand = true)
    (isMark : token.unplaced = operator.mark) :
    IsWritten false .rightParen (Expression.binary token operator left right).text.toList
      (.plain .leftParen "(" ::
        (spelling ++ token.unplaced :: (more ++ [Token.plain .rightParen ")"]))) := by
  rw [text, isMark]
  simp only [String.toList_append, List.append_assoc, InfixOperator.toList_text]
  exact isWritten_binary written writtenOther (allowsRegex_mark operator) fun rest =>
    scans_between operator divides rest

theorem isWritten_choice
    {third : Expression}
    {regexLast : Bool}
    {kindLast : TokenKind}
    {final : List Token}
    (writtenLast : IsWritten regexLast kindLast third.text.toList final)
    (isMark : token.unplaced = .plain .question "?") :
    IsWritten false .rightParen (Expression.conditional token left right third).text.toList
      (.plain .leftParen "(" :: (spelling ++ token.unplaced ::
        (more ++ Token.plain .colon ":" :: (final ++ [Token.plain .rightParen ")"])))) := by
  rw [text, isMark]
  simp only [String.toList_append, List.append_assoc]
  exact isWritten_conditional written writtenOther writtenLast

end

theorem isWritten_access
    {property : Token}
    {initial : Char}
    (written : IsWritten regexFirst kind operand.text.toList spelling)
    (isWriting : property.literal.toList = initial :: tail)
    (starts : isNameStart initial = true)
    (scansName : ∀ rest, Follower rest → Scans (some .dot) (property.literal.toList ++ rest)
      [property.unplaced] (some property.kind) rest)
    (noQuote : property.quote = none)
    (isMark : token.unplaced = .plain .dot ".") :
    IsWritten regexFirst property.kind (Expression.member token operand property).text.toList
      (spelling ++ [token.unplaced, property.unplaced]) := by
  have isLiteral : property.literal.toList = property.writing := by
    unfold writing
    rw [noQuote]
  rw [text, isMark]
  simp only [String.toList_append, List.append_assoc, isLiteral]
  rw [isLiteral] at isWriting scansName
  exact isWritten_member written isWriting starts scansName

theorem isWritten_element
    {key : Expression}
    (written : IsWritten regexFirst kind operand.text.toList spelling)
    (writtenKey : IsWritten regexOther kindOther key.text.toList more)
    (isMark : token.unplaced = .plain .leftBracket "[") :
    IsWritten regexFirst .rightBracket (Expression.index token operand key).text.toList
      (spelling ++ token.unplaced :: (more ++ [Token.plain .rightBracket "]"])) := by
  rw [text, isMark]
  simp only [String.toList_append, List.append_assoc]
  exact isWritten_index written writtenKey

variable {elements : List Expression} {spellings : List (List Token)}
  (writtenAll : List.Forall₂ IsPart ((texts elements).map String.toList) spellings)

include writtenAll

theorem isWritten_elements
    (isMark : token.unplaced = .plain .leftBracket "[") :
    IsWritten regexFirst .rightBracket (Expression.array token elements).text.toList
      (token.unplaced :: (listAll spellings ++ [Token.plain .rightBracket "]"])) := by
  rw [text, isMark]
  simp only [String.toList_append, toList_separated, List.append_assoc]
  exact isWritten_array writtenAll

theorem isWritten_sequence (written : IsPart operand.text.toList spelling) :
    IsWritten regexFirst .rightParen (Expression.sequence token operand elements).text.toList
      (.plain .leftParen "(" ::
        (spelling ++ (listMore spellings ++ [Token.plain .rightParen ")"]))) := by
  have isText : (Expression.sequence token operand elements).text =
      "(" ++ separated ", " (texts (operand :: elements)) ++ ")" := by
    rw [text, texts]
  rw [isText, ← List.append_assoc]
  simp only [String.toList_append, toList_separated]
  exact @isWritten_grouped _ _ (listAll (spelling :: spellings)) fun behind =>
    scans_all (.cons written writtenAll) (by decide) rfl behind

theorem isWritten_calling
    (written : IsWritten regexFirst kind operand.text.toList spelling)
    (isMark : token.unplaced = .plain .leftParen "(") :
    IsWritten regexFirst .rightParen (Expression.call token operand elements).text.toList
      (spelling ++ token.unplaced :: (listAll spellings ++ [Token.plain .rightParen ")"])) := by
  rw [text, isMark]
  simp only [String.toList_append, toList_separated, List.append_assoc]
  exact isWritten_call written writtenAll

theorem isWritten_constructing
    (written : IsWritten regexOther kind operand.text.toList spelling)
    (isMark : token.unplaced = .plain .newWord "new") :
    IsWritten regexFirst .rightParen (Expression.construct token operand elements).text.toList
      (token.unplaced ::
        (spelling ++ Token.plain .leftParen "(" ::
          (listAll spellings ++ [Token.plain .rightParen ")"]))) := by
  rw [text, isMark]
  simp only [String.toList_append, toList_separated, List.append_assoc]
  exact isWritten_construct written writtenAll

end

/-! ## Every operator expression -/

/-- Every part of a list of expressions is written as it is spelled. -/
theorem areParts_of_isWritten
    {elements : List Expression}
    (written : ∀ element ∈ elements,
      IsWritten false element.closes element.text.toList element.spelling) :
    List.Forall₂ IsPart ((texts elements).map String.toList) (elements.map Expression.spelling) := by
  rw [texts_eq_map, List.map_map, List.forall₂_map_left_iff, List.forall₂_map_right_iff,
    List.forall₂_same]
  exact fun element member => (written element member).isPart

/-- A slash behind an operator expression divides. -/
theorem endsOperand_of_ofOperators
    {expression : Expression}
    (ofOperators : expression.OfOperators) :
    expression.closes.endsOperand = true := by
  cases ofOperators with
  | member _ _ isName _ =>
      rw [closes, isName]
      rfl
  | _ => rfl

/-- The text of an operator expression is scanned as the tokens it is written with. -/
theorem isWritten_of_ofOperators {expression : Expression} (ofOperators : expression.OfOperators) :
    IsWritten false expression.closes expression.text.toList expression.spelling := by
  induction ofOperators with
  | name isName isScanned =>
      rw [closes, ← isName]
      exact isWritten_unquoted (by rw [isName]; rfl) isScanned (by simp [isName])
  | number isNumber isScanned isRead =>
      rw [closes, ← isNumber]
      exact isWritten_unquoted (by rw [isNumber]; rfl) isScanned (by simp [isNumber])
  | string isString isScanned isQuote => exact isWritten_string isString isScanned isQuote
  | isTrue isMark => exact @isWritten_boolean _ _ true isMark
  | isFalse isMark => exact @isWritten_boolean _ _ false isMark
  | this isMark => exact isWritten_this isMark
  | array isMark _ writtenAll =>
      rw [spelling, spellingAll_eq_listAll]
      exact isWritten_elements (areParts_of_isWritten writtenAll) isMark
  | unary isMark _ written => exact isWritten_unary written isMark
  | typeof isMark _ written => exact isWritten_typeof written isMark
  | delete isMark _ written => exact isWritten_delete written isMark
  | update fixity isMark _ written =>
      cases fixity with
      | before => exact isWritten_update written .before (fun _ => rfl) isMark
      | after => exact isWritten_update written .after nofun isMark
  | binary isMark isLeft _ written writtenOther =>
      exact isWritten_between written writtenOther (fun _ => endsOperand_of_ofOperators isLeft) isMark
  | conditional isMark _ _ _ written writtenOther writtenLast =>
      exact isWritten_choice written writtenOther writtenLast isMark
  | sequence isMark _ _ _ _ written writtenAll =>
      rw [spelling, spellingMore_eq_listMore]
      exact isWritten_sequence (areParts_of_isWritten writtenAll) written.isPart
  | @member token property base isMark _ isName isScanned written =>
      have leaf : isLeaf property.kind = true := by
        rw [isName]
        rfl
      obtain ⟨noQuote, initial, tail, isWriting, starts⟩ :=
        leaf_starts leaf isScanned (by simp [isName])
      have scansName (rest : List Char) (follower : Follower rest) :=
        scans_leaf leaf isScanned (some .dot) follower
      unfold writing at isWriting scansName
      rw [noQuote] at isWriting scansName
      exact isWritten_access written isWriting (starts isName) scansName noQuote isMark
  | index isMark _ _ written writtenKey => exact isWritten_element written writtenKey isMark
  | call isMark _ _ written writtenAll =>
      rw [spelling, spellingAll_eq_listAll]
      exact isWritten_calling (areParts_of_isWritten writtenAll) written isMark
  | construct isMark _ _ _ written writtenAll =>
      rw [spelling, spellingAll_eq_listAll]
      exact isWritten_constructing (areParts_of_isWritten writtenAll) written isMark

end Expression

end ScriptEngine
