import ScriptEngine.Proofs.Program.Parsing
import ScriptEngine.Proofs.Token.Kinds

namespace ScriptEngine

/-!
# What the literal of a token tells

Reading and lowering both go by the literals of tokens.  In a scanned token the literal is
as the kind says: an operator is spelled as the operator that its kind stands for, a name is
not empty, no backslash stands alone in the body of a string, and a regular expression can
be taken apart.
-/

namespace Token

/-- The literal of a token is as its kind says. -/
def IsTold (token : Token) : Prop := Tells token.literal token.kind

/--
A table of operators that is as the tables of marks and of reserved words are: the
operator a kind stands for is spelled as the literals of that kind.
-/
structure Matches (operators : TokenKind → Option α) (text : α → String) : Prop where
  marks : ∀ entry ∈ marks, ∀ operator ∈ operators entry.2,
    text operator = String.ofList entry.1
  words : ∀ entry ∈ TokenKind.reservedWords, ∀ operator ∈ operators entry.2,
    text operator = entry.1
  others : ∀ kind ∈ [TokenKind.illegal, .endOfInput, .number, .identifier, .string, .regex],
    operators kind = none

namespace IsTold

variable {token : Token}

theorem paired (isTold : token.IsTold) (isString : token.kind = .string) :
    Paired token.literal.toList := by
  rw [IsTold, isString] at isTold
  exact isTold

theorem regex (isTold : token.IsTold) (isRegex : token.kind = .regex) :
    ∃ pattern flags, token.literal.toList = '/' :: (pattern ++ '/' :: flags) ∧ '/' ∉ flags := by
  rw [IsTold, isRegex] at isTold
  exact isTold

/-- A scanned operator is spelled as the operator that its kind stands for. -/
theorem literal_eq
    {operators : TokenKind → Option α}
    {text : α → String}
    {operator : α}
    (isTold : token.IsTold)
    (agrees : Matches operators text)
    (stands : operators token.kind = some operator) :
    token.literal = text operator := by
  have isFixed : IsFixed token.kind token.literal := by
    have noOther := agrees.others token.kind
    rw [stands] at noOther
    unfold IsTold Tells at isTold
    split at isTold <;> simp_all
  rcases isFixed with isMark | isWord
  · rw [agrees.marks _ isMark _ stands, String.ofList_toList]
  · exact (agrees.words _ isWord _ stands).symm

end IsTold

end Token

/-! ## The tables of operators -/

theorem UnaryOperator.matches : Token.Matches Parser.unaryOperator? text where
  marks := by decide
  words := by decide
  others := by decide

theorem InfixOperator.matches : Token.Matches ofKind? text where
  marks := by decide
  words := by decide
  others := by decide

theorem AssignmentOperator.matches : Token.Matches ofKind? text where
  marks := by decide
  words := by decide
  others := by decide

/-! ## Regular expressions -/

namespace Parser

/-- A regular expression is taken apart at its last slash. -/
theorem splitRegex?_closed
    {literal : String}
    {pattern flags : List Char}
    (isLiteral : literal.toList = '/' :: (pattern ++ '/' :: flags))
    (noSlash : '/' ∉ flags) :
    splitRegex? literal = some (String.ofList pattern, String.ofList flags) := by
  have isReversed :
      literal.toList.reverse = flags.reverse ++ '/' :: (pattern.reverse ++ ['/']) := by
    simp [isLiteral]
  have areFlags : ∀ char ∈ flags.reverse, (char != '/') = true := by
    intro char member
    rw [bne_iff_ne]
    rintro rfl
    exact noSlash (List.mem_reverse.mp member)
  have isFront : (literal.toList.reverse.takeWhile (· != '/')).reverse = flags := by
    rw [isReversed, List.takeWhile_append_of_pos areFlags]
    simp
  have isBack :
      literal.toList.reverse.dropWhile (· != '/') = '/' :: (pattern.reverse ++ ['/']) := by
    rw [isReversed, List.dropWhile_append_of_pos areFlags]
    simp
  unfold splitRegex?
  dsimp only
  rw [isFront, isBack]
  cases isLast : pattern.reverse ++ ['/'] with
  | nil => simp at isLast
  | cons first front =>
      have whole : (first :: front).reverse = '/' :: pattern := by simp [← isLast]
      simp [whole]

end Parser

/-- Among scanned tokens no regular expression is found malformed. -/
theorem Program.splits_ofTokens
    (source : Source)
    {tokens : List Token}
    (some : tokens ≠ [])
    (areTold : ∀ token ∈ tokens, token.IsTold) :
    ∀ failure ∈ (ofTokens source tokens).failures, failure.fault ≠ .malformedRegex := by
  intro failure member isMalformed
  obtain ⟨-, areKnown⟩ := Parser.statementsFrom_made (tokens.length + 1)
    (Parser.budget tokens.length) (Parser.Cursor.Holds.ofTokens some areTold)
  have isKnown := areKnown failure member
  obtain ⟨isRegex, unsplit⟩ := isKnown.unsplit isMalformed
  obtain ⟨pattern, flags, isLiteral, noSlash⟩ := isKnown.known.regex isRegex
  cases unsplit.symm.trans (Parser.splitRegex?_closed isLiteral noSlash)

end ScriptEngine
