import ScriptEngine.Proofs.Program.Faithful
import ScriptEngine.Proofs.Program.Legible
import ScriptEngine.Proofs.Program.Passages
import ScriptEngine.Proofs.Program.RereadingStatements

namespace ScriptEngine

/-!
# What texts show

The text of a tree that was read is scanned as tokens that are read as the same tree,
apart from where they stand, if the tree is legible.  The texts of the parts are put
together as the tree is, and so are the tokens and what is read from them.
-/

open Expression (IsWritten IsPart textAll listAll listMore outlines)
open ScriptEngine.Parser
  (Spelled Rereads IsReadAs IsElement OpensStatement kind_of_unplaced alike_of_unplaced)

/-! ## Expressions -/

namespace Expression

/-- The text of an expression is scanned as some tokens, and these are read as the expression. -/
structure Shows (expression : Expression) (spelling : List Token) : Prop where
  written : IsWritten expression.front.isRegex expression.closes expression.text.toList spelling
  reread : IsReadAs spelling expression.tightest fun value => value.outline = expression.outline
  opens : expression.front.opensBlock = false → OpensStatement spelling

/-- The text of an expression shows the expression. -/
def IsShown (expression : Expression) : Prop := ∃ spelling, expression.Shows spelling

theorem tightest_bounds (expression : Expression) :
    2 ≤ expression.tightest ∧ expression.tightest ≤ 13 := by
  unfold tightest
  split
  · decide
  · exact ⟨Nat.le_trans (by decide) (Parser.limitOf_bounds expression).1,
      (Parser.limitOf_bounds expression).2⟩

theorem le_tightest {expression : Expression} (notAssigned : expression.isAssignment = false) :
    12 ≤ expression.tightest := by
  unfold tightest
  rw [notAssigned]
  exact (Parser.limitOf_bounds expression).1

theorem tightest_eq
    {expression : Expression} (notAssigned : expression.isAssignment = false)
    (notCalled : expression.callsOnSpine = false) :
    expression.tightest = 13 := by
  unfold tightest Parser.limitOf
  rw [notAssigned, notCalled]
  rfl

/-- What starts with neither a brace nor the word of a function opens a statement. -/
theorem opensStatement_of_kind
    {first : Token}
    (isOther : first.kind ≠ .leftBrace ∧ first.kind ≠ .functionWord)
    (others : List Token) :
    OpensStatement (first :: others) :=
  ⟨first, others, rfl, isOther.1, fun isFunction => absurd isFunction isOther.2⟩

theorem opensStatement_append
    {spelling : List Token} (opens : OpensStatement spelling) (more : List Token) :
    OpensStatement (spelling ++ more) := by
  obtain ⟨first, others, rfl, notBrace, unnamed⟩ := opens
  refine ⟨first, others ++ more, rfl, notBrace, fun isFunction => ?_⟩
  obtain ⟨second, isSecond, notName⟩ := unnamed isFunction
  obtain ⟨rest, rfl⟩ := List.head?_eq_some_iff.mp isSecond
  exact ⟨second, rfl, notName⟩

/-- The parts of a list are scanned and read as they are shown. -/
theorem exists_spellings
    {elements : List Expression}
    (shown : ∀ element ∈ elements, element.IsShown) :
    ∃ spellings, List.Forall₂ IsPart ((texts elements).map String.toList) spellings ∧
      List.Forall₂ (IsElement fun element value => value.outline = element.outline) elements
        spellings := by
  induction elements with
  | nil => exact ⟨[], .nil, .nil⟩
  | cons first rest inductionHypothesis =>
      obtain ⟨⟨spelling, shows⟩, shownRest⟩ := List.forall_mem_cons.mp shown
      obtain ⟨spellings, parts, areElements⟩ := inductionHypothesis shownRest
      exact ⟨spelling :: spellings, .cons shows.written.isPart parts,
        .cons ⟨_, (tightest_bounds first).1, shows.reread⟩ areElements⟩

section

variable {token : Token} {operand left right third : Expression} {elements : List Expression}

theorem isShown_name (isVariable : token.IsVariable) : (Expression.name token).IsShown := by
  obtain ⟨isName, isNaming⟩ := isVariable
  refine ⟨[token.unplaced], ?_, ?_, fun _ => opensStatement_of_kind ?_ _⟩
  · rw [closes, ← isName]
    exact isWritten_unquoted (by rw [isName]; rfl) isNaming.isScanned (by simp [isName])
  · exact Parser.isReadAs_name isName fun found isFound => by simp only [outline, isFound]
  · rw [Token.unplaced, isName]
    decide

theorem isShown_number
    {value : Float} (isNumber : token.kind = .number) (isScanned : token.IsScanned)
    (isRead : Number.ofLiteral? token.literal.toList = some value) :
    (Expression.number token value).IsShown := by
  refine ⟨[token.unplaced], ?_, ?_, fun _ => opensStatement_of_kind ?_ _⟩
  · rw [closes, ← isNumber]
    exact isWritten_unquoted (by rw [isNumber]; rfl) isScanned (by simp [isNumber])
  · exact Parser.isReadAs_number isNumber isRead fun found isFound => by
      simp only [outline, isFound]
  · rw [Token.unplaced, isNumber]
    decide

theorem isShown_string
    {quote : Char} (isString : token.kind = .string) (isScanned : token.IsScanned)
    (isQuote : token.quote = some quote) :
    (Expression.string token quote).IsShown := by
  refine ⟨[token.unplaced], isWritten_string isString isScanned isQuote, ?_,
    fun _ => opensStatement_of_kind ?_ _⟩
  · exact Parser.isReadAs_string isString isQuote fun found isFound => by
      simp only [outline, isFound]
  · rw [Token.unplaced, isString]
    decide

theorem isShown_boolean {value : Bool} (isMark : token.unplaced = booleanMark value) :
    (Expression.boolean token value).IsShown := by
  refine ⟨[token.unplaced], isWritten_boolean isMark, ?_, fun _ => opensStatement_of_kind ?_ _⟩
  · refine @Parser.isReadAs_boolean _ _ value ?_ fun found isFound => by
      simp only [outline, isFound]
    rw [kind_of_unplaced isMark]
    cases value <;> rfl
  · rw [isMark]
    cases value <;> decide

theorem isShown_this (isMark : token.unplaced = .plain .thisWord "this") :
    (Expression.this token).IsShown := by
  refine ⟨[token.unplaced], isWritten_this isMark, ?_, fun _ => opensStatement_of_kind ?_ _⟩
  · exact Parser.isReadAs_this (kind_of_unplaced isMark) fun found isFound => by
      simp only [outline, isFound]
  · rw [isMark]
    decide

/-- A regular expression is made up of its pattern and its flags. -/
theorem writing_of_splitRegex?
    {literal pattern flags : String}
    {others : List Char}
    (starts : literal.toList = '/' :: others)
    (isSplit : Parser.splitRegex? literal = some (pattern, flags)) :
    ("/" ++ pattern ++ "/" ++ flags).toList = literal.toList := by
  unfold Parser.splitRegex? at isSplit
  dsimp only at isSplit
  have whole := List.takeWhile_append_dropWhile (p := (· != '/')) (l := literal.toList.reverse)
  have isSlash := List.head?_dropWhile_not (· != '/') literal.toList.reverse
  split at isSplit
  · rename_i slash first front isDropped
    cases isSplit
    rw [isDropped] at whole isSlash
    obtain rfl : slash = '/' := by simpa using isSlash
    generalize literal.toList.reverse.takeWhile (· != '/') = flags at whole ⊢
    have isText := congrArg List.reverse whole
    rw [List.reverse_append, List.reverse_cons, List.reverse_reverse] at isText
    -- The first slash is in front of the pattern.
    obtain ⟨opening, body, isFront⟩ := List.exists_cons_of_ne_nil
      (show (first :: front).reverse ≠ [] by simp)
    rw [isFront] at isText
    obtain ⟨rfl, -⟩ := List.cons.inj (isText.trans starts)
    simp only [String.toList_append, String.toList_ofList, isFront, ← isText]
    rfl
  · cases isSplit

theorem isShown_regex
    {pattern flags : String} (isRegex : token.IsRegex)
    (isSplit : Parser.splitRegex? token.literal = some (pattern, flags)) :
    (Expression.regex token pattern flags).IsShown := by
  have isText : (Expression.regex token pattern flags).text.toList = token.writing := by
    obtain ⟨others, starts⟩ := isRegex.starts
    unfold Token.writing at starts ⊢
    rw [isRegex.noQuote] at starts ⊢
    rw [text, writing_of_splitRegex? starts isSplit]
  refine ⟨[token.unplaced], ?_, ?_, fun _ => opensStatement_of_kind ?_ _⟩
  · rw [isText]
    exact isWritten_regex isRegex
  · intro tokens spelled
    obtain ⟨found, rfl, isFound, -⟩ := spelled.eq_singleton
    obtain ⟨sameKind, sameLiteral, -⟩ := alike_of_unplaced isFound
    exact ⟨_, found, Parser.rereads_regex (sameKind.trans isRegex.isKind)
      (by rw [sameLiteral, isSplit]), by simp only [outline, isFound]⟩
  · rw [Token.unplaced, isRegex.isKind]
    decide

theorem isShown_array
    (isMark : token.unplaced = .plain .leftBracket "[")
    (shown : ∀ element ∈ elements, element.IsShown) :
    (Expression.array token elements).IsShown := by
  obtain ⟨spellings, parts, areElements⟩ := exists_spellings shown
  refine ⟨_, isWritten_elements parts isMark, ?_, fun _ => opensStatement_of_kind ?_ _⟩
  · exact Parser.isReadAs_array areElements (kind_of_unplaced isMark)
      fun found values isFound areSame => by
        simp only [outline, outlines_of_forall₂ areSame, isFound]
  · rw [isMark]
    decide

/-- What stands in parentheses opens a statement. -/
theorem opensStatement_parenthesis (others : List Token) :
    OpensStatement (.plain .leftParen "(" :: others) :=
  opensStatement_of_kind (by decide) others

section

variable (shown : operand.IsShown) (notAssigned : operand.isAssignment = false)

include shown notAssigned

theorem isShown_unary {operator : UnaryOperator} (isMark : token.unplaced = operator.mark) :
    (Expression.unary token operator operand).IsShown := by
  obtain ⟨spelling, shows⟩ := shown
  refine ⟨_, isWritten_unary shows.written isMark, ?_, fun _ => opensStatement_parenthesis _⟩
  exact @Parser.isReadAs_unary token _ _ _ _ shows.reread (le_tightest notAssigned) _
    (fun found value isFound same => by simp only [outline, isFound, same]) operator
    (kind_of_unplaced isMark) rfl

theorem isShown_typeof (isMark : token.unplaced = .plain .typeofWord "typeof") :
    (Expression.typeof token operand).IsShown := by
  obtain ⟨spelling, shows⟩ := shown
  refine ⟨_, isWritten_typeof shows.written isMark, ?_, fun _ => opensStatement_parenthesis _⟩
  exact @Parser.isReadAs_word token _ _ _ _ shows.reread (le_tightest notAssigned) .typeof
    (fun found value isFound same => by simp only [outline, isFound, same])
    (.inl ⟨kind_of_unplaced isMark, rfl⟩)

theorem isShown_delete (isMark : token.unplaced = .plain .deleteWord "delete") :
    (Expression.delete token operand).IsShown := by
  obtain ⟨spelling, shows⟩ := shown
  refine ⟨_, isWritten_delete shows.written isMark, ?_, fun _ => opensStatement_parenthesis _⟩
  exact @Parser.isReadAs_word token _ _ _ _ shows.reread (le_tightest notAssigned) .delete
    (fun found value isFound same => by simp only [outline, isFound, same])
    (.inr ⟨kind_of_unplaced isMark, rfl⟩)

theorem isShown_update
    {operator : UpdateOperator} {fixity : Fixity}
    (noRegex : fixity = .before → operand.front.isRegex = false)
    (isMark : token.unplaced = operator.mark) :
    (Expression.update token operator fixity operand).IsShown := by
  obtain ⟨spelling, shows⟩ := shown
  have reread := @Parser.isReadAs_update token _
    (·.outline = (Expression.update token operator fixity operand).outline) _ _ shows.reread
    (le_tightest notAssigned) operator fixity (kind_of_unplaced isMark)
    fun found value isFound same => by simp only [outline, isFound, same]
  have written :=
    @isWritten_update token operand (update token operator fixity operand).front.isRegex
    _ _ _ shows.written operator fixity noRegex isMark
  cases fixity <;> exact ⟨_, written, reread, fun _ => opensStatement_parenthesis _⟩

theorem isShown_member
    {property : Token} (isMark : token.unplaced = .plain .dot ".") (isNaming : property.IsNaming) :
    (Expression.member token operand property).IsShown := by
  have sameLimit : (member token operand property).tightest = operand.tightest := by
    unfold tightest
    rw [notAssigned]
    rfl
  obtain ⟨spelling, shows⟩ := shown
  obtain ⟨first, others, isText, starts⟩ := isNaming.starts
  refine ⟨_, isWritten_access shows.written isText starts
    (fun rest follower => isNaming.scans (some .dot) follower) isNaming.noQuote isMark, ?_,
    fun isOther => opensStatement_append (shows.opens isOther) _⟩
  rw [sameLimit]
  exact Parser.isReadAs_member shows.reread (le_tightest notAssigned) (tightest_bounds operand).2
    (kind_of_unplaced isMark) isNaming.names fun found value name isFound same isProperty => by
      simp only [outline, isFound, same, isProperty]

theorem isShown_index
    (isMark : token.unplaced = .plain .leftBracket "[")
    (shownKey : right.IsShown) :
    (Expression.index token operand right).IsShown := by
  have sameLimit : (index token operand right).tightest = operand.tightest := by
    unfold tightest
    rw [notAssigned]
    rfl
  obtain ⟨spelling, shows⟩ := shown
  obtain ⟨more, showsKey⟩ := shownKey
  refine ⟨_, isWritten_element shows.written showsKey.written isMark, ?_,
    fun isOther => opensStatement_append (shows.opens isOther) _⟩
  rw [sameLimit]
  exact Parser.isReadAs_index shows.reread (le_tightest notAssigned) (tightest_bounds operand).2
    showsKey.reread (tightest_bounds right).1 (kind_of_unplaced isMark)
    fun found value key isFound same sameKey => by simp only [outline, isFound, same, sameKey]

theorem isShown_call
    (isMark : token.unplaced = .plain .leftParen "(")
    (shownAll : ∀ element ∈ elements, element.IsShown) :
    (Expression.call token operand elements).IsShown := by
  obtain ⟨spelling, shows⟩ := shown
  obtain ⟨spellings, parts, areElements⟩ := exists_spellings shownAll
  refine ⟨_, isWritten_calling parts shows.written isMark, ?_,
    fun isOther => opensStatement_append (shows.opens isOther) _⟩
  exact Parser.isReadAs_call areElements shows.reread (le_tightest notAssigned)
    (kind_of_unplaced isMark) fun found value values isFound same areSame => by
      simp only [outline, isFound, same, outlines_of_forall₂ areSame]

theorem isShown_construct
    (isMark : token.unplaced = .plain .newWord "new") (notCalled : operand.callsOnSpine = false)
    (shownAll : ∀ element ∈ elements, element.IsShown) :
    (Expression.construct token operand elements).IsShown := by
  obtain ⟨spelling, shows⟩ := shown
  obtain ⟨spellings, parts, areElements⟩ := exists_spellings shownAll
  refine ⟨_, isWritten_constructing parts shows.written isMark, ?_,
    fun _ => opensStatement_of_kind (by rw [isMark]; decide) _⟩
  exact Parser.isReadAs_construct areElements shows.reread (tightest_eq notAssigned notCalled)
    (kind_of_unplaced isMark) fun found value values isFound same areSame => by
      simp only [outline, isFound, same, outlines_of_forall₂ areSame]

end

theorem isShown_binary
    {operator : InfixOperator} (isMark : token.unplaced = operator.mark) (shown : left.IsShown)
    (notAssigned : left.isAssignment = false)
    (divides : operator = .strict .divide → left.mayDivide = true) (shownOther : right.IsShown)
    (notAssignedToo : right.isAssignment = false) :
    (Expression.binary token operator left right).IsShown := by
  obtain ⟨spelling, shows⟩ := shown
  obtain ⟨more, showsOther⟩ := shownOther
  refine ⟨_, isWritten_between shows.written showsOther.written divides isMark, ?_,
    fun _ => opensStatement_parenthesis _⟩
  exact Parser.isReadAs_binary shows.reread (le_tightest notAssigned) showsOther.reread
    (le_tightest notAssignedToo) (kind_of_unplaced isMark)
    fun found value other isFound same sameOther => by
      simp only [outline, isFound, same, sameOther]

theorem isShown_assign
    {operator : AssignmentOperator} (stands : AssignmentOperator.ofKind? token.kind = some operator)
    (isMark : token.unplaced = .plain token.kind operator.text) (shown : left.IsShown)
    (notAssigned : left.isAssignment = false)
    (divides : operator = .combine .divide → left.mayDivide = true) (shownOther : right.IsShown) :
    (Expression.assign token operator left right).IsShown := by
  obtain ⟨spelling, shows⟩ := shown
  obtain ⟨more, showsOther⟩ := shownOther
  have written := isWritten_assign shows.written showsOther.written stands divides
  refine ⟨spelling ++ token.unplaced :: more, ?_, ?_,
    fun isOther => opensStatement_append (shows.opens isOther) _⟩
  · rw [isMark, text]
    simp only [String.toList_append, List.append_assoc]
    exact written
  · intro tokens spelled
    obtain ⟨inner, rest, rfl, spelledInner, spelledRest⟩ := spelled.eq_append
    obtain ⟨mark, others, rfl, isFound, -, spelledOther⟩ := spelledRest.eq_cons
    obtain ⟨value, last, rereads, same⟩ := shows.reread inner spelledInner
    obtain ⟨other, final, rereadsOther, sameOther⟩ := showsOther.reread others spelledOther
    have standsToo : AssignmentOperator.ofKind? mark.kind = some operator := by
      rw [(alike_of_unplaced isFound).1, stands]
    exact ⟨_, final, Parser.rereads_assign rereads (le_tightest notAssigned) rereadsOther
      (tightest_bounds right).1 standsToo, by simp only [outline, isFound, same, sameOther]⟩

theorem isShown_conditional
    (isMark : token.unplaced = .plain .question "?") (shown : left.IsShown)
    (notAssigned : left.isAssignment = false) (shownOther : right.IsShown)
    (shownLast : third.IsShown) :
    (Expression.conditional token left right third).IsShown := by
  obtain ⟨spelling, shows⟩ := shown
  obtain ⟨more, showsOther⟩ := shownOther
  obtain ⟨final, showsLast⟩ := shownLast
  refine ⟨_, isWritten_choice shows.written showsOther.written showsLast.written isMark, ?_,
    fun _ => opensStatement_parenthesis _⟩
  exact Parser.isReadAs_conditional shows.reread (le_tightest notAssigned) showsOther.reread
    (tightest_bounds right).1 showsLast.reread (tightest_bounds third).1 (kind_of_unplaced isMark)
    fun found value other last isFound same sameOther sameLast => by
      simp only [outline, isFound, same, sameOther, sameLast]

theorem isShown_sequence
    (isMark : token.unplaced = .plain .comma ",") (shown : operand.IsShown)
    (notSequence : operand.isSequence = false) (some : elements ≠ [])
    (shownAll : ∀ element ∈ elements, element.IsShown) :
    (Expression.sequence token operand elements).IsShown := by
  obtain ⟨spelling, shows⟩ := shown
  obtain ⟨spellings, parts, areElements⟩ := exists_spellings shownAll
  refine ⟨_, isWritten_sequence parts shows.written.isPart, ?_,
    fun _ => opensStatement_parenthesis _⟩
  exact Parser.isReadAs_sequence areElements shows.reread (tightest_bounds operand).1
    (fun value same => (isSequence_of_outline same).trans notSequence) some
    fun comma value values isComma same areSame => by
      simp only [outline, isComma, isMark, same, outlines_of_forall₂ areSame]

end

end Expression

end ScriptEngine
