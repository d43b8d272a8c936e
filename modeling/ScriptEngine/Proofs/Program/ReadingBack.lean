import ScriptEngine.Proofs.Program.ShowingStatements

namespace ScriptEngine

/-!
# Legible trees are read back from their texts

The text of every tree that was read and is legible shows the tree.  So the text of such an
expression, alone between parentheses, is read as the expression.
-/

/-! ## Every legible tree is shown -/

theorem eq_true_of_bne_or
    [DecidableEq α]
    {first second : α}
    {other : Bool}
    (either : (first != second || other) = true)
    (same : first = second) :
    other = true := by
  subst same
  simpa using either

theorem FunctionLiteral.token_of_faithful
    {literal : FunctionLiteral}
    (faithful : literal.IsFaithful) :
    literal.token.unplaced = .plain .functionWord "function" := by
  cases literal
  exact faithful.1

mutual

/-- The text of a legible expression that was read shows the expression. -/
theorem Expression.isShown :
    ∀ expression : Expression, expression.IsFaithful → expression.isLegible = true →
      expression.IsShown
  | .name token, faithful, _ => Expression.isShown_name faithful
  | .number token value, faithful, _ =>
    Expression.isShown_number faithful.1 faithful.2.1 faithful.2.2
  | .string token quote, faithful, _ =>
    Expression.isShown_string faithful.1 faithful.2.1 faithful.2.2
  | .boolean token value, faithful, _ => Expression.isShown_boolean faithful
  | .regex token pattern flags, faithful, _ => Expression.isShown_regex faithful.1 faithful.2
  | .this token, faithful, _ => Expression.isShown_this faithful
  | .function literal, faithful, legible => by
      obtain ⟨text, spelling, shows⟩ := literal.exists_shown faithful legible
      exact Expression.isShown_function shows
  | .array token elements, faithful, legible =>
      Expression.isShown_array faithful.1 (Expression.areShown elements faithful.2 legible)
  | .object token properties, faithful, legible =>
      Expression.isShown_object faithful.1 (Property.areShown properties faithful.2 legible)
  | .unary token operator operand, faithful, legible => by
      simp only [Expression.isLegible, Bool.and_eq_true, Bool.not_eq_true'] at legible
      exact Expression.isShown_unary (operand.isShown faithful.2 legible.2) legible.1 faithful.1
  | .typeof token operand, faithful, legible => by
      simp only [Expression.isLegible, Bool.and_eq_true, Bool.not_eq_true'] at legible
      exact Expression.isShown_typeof (operand.isShown faithful.2 legible.2) legible.1 faithful.1
  | .delete token target, faithful, legible => by
      simp only [Expression.isLegible, Bool.and_eq_true, Bool.not_eq_true'] at legible
      exact Expression.isShown_delete (target.isShown faithful.2 legible.2) legible.1 faithful.1
  | .binary token operator left right, faithful, legible => by
      simp only [Expression.isLegible, Bool.and_eq_true, Bool.not_eq_true'] at legible
      obtain ⟨⟨⟨⟨notAssigned, notAssignedToo⟩, divides⟩, isLeft⟩, isRight⟩ := legible
      exact Expression.isShown_binary faithful.1 (left.isShown faithful.2.1 isLeft) notAssigned
        (eq_true_of_bne_or divides) (right.isShown faithful.2.2 isRight) notAssignedToo
  | .assign token operator target value, faithful, legible => by
      simp only [Expression.isLegible, Bool.and_eq_true, Bool.not_eq_true'] at legible
      obtain ⟨stands, isMark, faithfulTarget, faithfulValue⟩ := faithful
      obtain ⟨⟨⟨notAssigned, divides⟩, isTarget⟩, isValue⟩ := legible
      exact Expression.isShown_assign stands isMark (target.isShown faithfulTarget isTarget)
        notAssigned
        (eq_true_of_bne_or divides) (value.isShown faithfulValue isValue)
  | .update token operator fixity target, faithful, legible => by
      simp only [Expression.isLegible, Bool.and_eq_true, Bool.not_eq_true'] at legible
      obtain ⟨⟨notAssigned, noRegex⟩, isTarget⟩ := legible
      exact Expression.isShown_update (target.isShown faithful.2 isTarget) notAssigned
        (fun isBefore => by simpa using eq_true_of_bne_or noRegex isBefore) faithful.1
  | .conditional token condition consequence alternative, faithful, legible => by
      simp only [Expression.isLegible, Bool.and_eq_true, Bool.not_eq_true'] at legible
      obtain ⟨isMark, faithfulCondition, faithfulThen, faithfulElse⟩ := faithful
      obtain ⟨⟨⟨notAssigned, isCondition⟩, isThen⟩, isElse⟩ := legible
      exact Expression.isShown_conditional isMark
        (condition.isShown faithfulCondition isCondition) notAssigned
        (consequence.isShown faithfulThen isThen) (alternative.isShown faithfulElse isElse)
  | .sequence token first rest, faithful, legible => by
      simp only [Expression.isLegible, Bool.and_eq_true] at legible
      obtain ⟨isMark, faithfulFirst, notSequence, notEmpty, faithfulRest⟩ := faithful
      exact Expression.isShown_sequence isMark (first.isShown faithfulFirst legible.1) notSequence
        notEmpty
        (Expression.areShown rest faithfulRest legible.2)
  | .call token callee arguments, faithful, legible => by
      simp only [Expression.isLegible, Bool.and_eq_true, Bool.not_eq_true'] at legible
      obtain ⟨⟨notAssigned, isCallee⟩, areArguments⟩ := legible
      exact Expression.isShown_call (callee.isShown faithful.2.1 isCallee) notAssigned faithful.1
        (Expression.areShown arguments faithful.2.2 areArguments)
  | .construct token constructor arguments, faithful, legible => by
      simp only [Expression.isLegible, Bool.and_eq_true, Bool.not_eq_true'] at legible
      obtain ⟨⟨⟨notAssigned, notCalled⟩, isConstructor⟩, areArguments⟩ := legible
      exact Expression.isShown_construct (constructor.isShown faithful.2.1 isConstructor)
        notAssigned
        faithful.1 notCalled (Expression.areShown arguments faithful.2.2 areArguments)
  | .member token base property, faithful, legible => by
      simp only [Expression.isLegible, Bool.and_eq_true, Bool.not_eq_true', bne_iff_ne] at legible
      obtain ⟨⟨notAssigned, notString⟩, isBase⟩ := legible
      exact Expression.isShown_member (base.isShown faithful.2.1 isBase) notAssigned faithful.1
        (faithful.2.2.1 notString)
  | .index token base key, faithful, legible => by
      simp only [Expression.isLegible, Bool.and_eq_true, Bool.not_eq_true'] at legible
      obtain ⟨⟨notAssigned, isBase⟩, isKey⟩ := legible
      exact Expression.isShown_index (base.isShown faithful.2.1 isBase) notAssigned faithful.1
        (key.isShown faithful.2.2 isKey)

/-- The texts of legible expressions that were read show the expressions. -/
theorem Expression.areShown :
    ∀ elements : List Expression, Expression.AreFaithful elements →
      Expression.areLegible elements = true → ∀ element ∈ elements, element.IsShown
  | [], _, _ => by simp
  | first :: rest, faithful, legible => by
      simp only [Expression.areLegible, Bool.and_eq_true] at legible
      exact List.forall_mem_cons.mpr ⟨first.isShown faithful.1 legible.1,
        Expression.areShown rest faithful.2 legible.2⟩

/-- The text of a legible expression that was read shows it, if there is one. -/
theorem Expression.optionIsShown :
    ∀ value : Option Expression, Expression.OptionFaithful value →
      Expression.optionLegible value = true → Expression.OptionIsShown value
  | none, _, _ => Expression.optionIsShown_none
  | some value, faithful, legible => Expression.optionIsShown_some (value.isShown faithful legible)

/-- The texts of legible properties that were read show the properties. -/
theorem Property.areShown :
    ∀ properties : List Property, Property.AreFaithful properties →
      Property.areLegible properties = true → Property.AreShown properties
  | [], _, _ => Property.areShown_nil
  | .mk key value :: rest, faithful, legible => by
      simp only [Property.areLegible, Bool.and_eq_true] at legible
      exact Property.areShown_cons faithful.1 (value.isShown faithful.2.1 legible.1)
        (Property.areShown rest faithful.2.2 legible.2)

/-- The text of a legible function that was read shows the function. -/
theorem FunctionLiteral.exists_shown :
    ∀ literal : FunctionLiteral, literal.IsFaithful → literal.isLegible = true →
      ∃ text spelling, literal.Shows text spelling
  | .mk token name parameters body, faithful, legible => by
      obtain ⟨isMark, isName, areNames, faithfulBody⟩ := faithful
      exact FunctionLiteral.exists_shows isMark isName areNames
        (Statement.areShown body faithfulBody legible)

/-- The texts of legible variables that were declared show them. -/
theorem Declarator.areShown :
    ∀ declarators : List Declarator, declarators ≠ [] → Declarator.AreFaithful declarators →
      Declarator.areLegible declarators = true → Declarator.AreShown declarators
  | [], notEmpty, _, _ => absurd rfl notEmpty
  | .mk name value :: rest, _, faithful, legible => by
      simp only [Declarator.areLegible, Bool.and_eq_true] at legible
      obtain ⟨isVariable, faithfulValue, faithfulRest⟩ := faithful
      have shown : Declarator.IsShown name value := by
        cases value with
        | none => exact Declarator.isShown_bare isVariable
        | some value =>
          exact Declarator.isShown_given isVariable (value.isShown faithfulValue legible.1)
      cases rest with
      | nil => exact Declarator.areShown_last shown
      | cons second others =>
          exact Declarator.areShown_cons shown
            (Declarator.areShown (second :: others) nofun faithfulRest legible.2)

/-- The texts of legible clauses that were read show the clauses. -/
theorem Clause.areShown :
    ∀ (clauses : List Clause) (hasDefault : Bool), Clause.AreFaithful hasDefault clauses →
      Clause.areLegible clauses = true → Clause.AreShown hasDefault clauses
  | [], hasDefault, _, _ => Clause.areShown_nil hasDefault
  | .mk token (some condition) body :: rest, hasDefault, faithful, legible => by
      simp only [Clause.areLegible, Bool.and_eq_true] at legible
      obtain ⟨isMark, -, faithfulCondition, faithfulBody, faithfulRest⟩ := faithful
      rw [Option.isNone_some, Bool.or_false] at faithfulRest
      exact Clause.areShown_case (Statement.areShown body faithfulBody legible.1.2) isMark
        (condition.isShown faithfulCondition legible.1.1)
        (Clause.areShown rest hasDefault faithfulRest legible.2)
  | .mk token none body :: rest, hasDefault, faithful, legible => by
      simp only [Clause.areLegible, Bool.and_eq_true] at legible
      obtain ⟨isMark, isFirst, -, faithfulBody, faithfulRest⟩ := faithful
      cases hasDefault with
      | true => cases isFirst rfl
      | false =>
          exact Clause.areShown_default (Statement.areShown body faithfulBody legible.1.2) isMark
            (Clause.areShown rest true faithfulRest legible.2)

/-- The text of a legible statement that was read shows the statement. -/
theorem Statement.isShown :
    ∀ statement : Statement, statement.IsFaithful → statement.isLegible = true →
      statement.IsShown
  | .declare token declarators, faithful, legible =>
      Statement.isShown_declare faithful.1
        (Declarator.areShown declarators faithful.2.1 faithful.2.2 legible)
  | .giveBack token none, faithful, _ => Statement.isShown_giveBack_nothing faithful.1
  | .giveBack token (some value), faithful, legible =>
      Statement.isShown_giveBack faithful.1 (value.isShown faithful.2 legible)
  | .expression token value, faithful, legible => by
      simp only [Statement.isLegible, Bool.and_eq_true, Bool.not_eq_true'] at legible
      exact Statement.isShown_expression (value.isShown faithful legible.2) legible.1
  | .empty token, faithful, _ => Statement.isShown_empty faithful
  | .block token body, faithful, legible =>
      Statement.isShown_block faithful.1 (Statement.areShown body faithful.2 legible)
  | .branch token condition consequence none, faithful, legible => by
      simp only [Statement.isLegible, Bool.and_eq_true, Bool.not_eq_true'] at legible
      obtain ⟨isMark, faithfulCondition, faithfulThen, -, -⟩ := faithful
      obtain ⟨⟨⟨isCondition, noRegex⟩, isThen⟩, -⟩ := legible
      exact Statement.isShown_branch (condition.isShown faithfulCondition isCondition)
        (consequence.isShown faithfulThen isThen) noRegex isMark
  | .branch token condition consequence (some alternative), faithful, legible => by
      simp only [Statement.isLegible, Bool.and_eq_true, Bool.not_eq_true'] at legible
      obtain ⟨isMark, faithfulCondition, faithfulThen, closed, faithfulElse⟩ := faithful
      obtain ⟨⟨⟨isCondition, noRegex⟩, isThen⟩, isElse⟩ := legible
      exact Statement.isShown_else (condition.isShown faithfulCondition isCondition)
        (consequence.isShown faithfulThen isThen) noRegex isMark (closed rfl)
        (alternative.isShown faithfulElse isElse)
  | .whileLoop token condition body, faithful, legible => by
      simp only [Statement.isLegible, Bool.and_eq_true, Bool.not_eq_true'] at legible
      obtain ⟨⟨isCondition, noRegex⟩, isBody⟩ := legible
      exact Statement.isShown_while (condition.isShown faithful.2.1 isCondition)
        (body.isShown faithful.2.2 isBody) noRegex faithful.1
  | .forLoop token start condition update body, faithful, legible => by
      simp only [Statement.isLegible, Bool.and_eq_true, Bool.not_eq_true'] at legible
      obtain ⟨isMark, starts, faithfulStart, faithfulCondition, faithfulUpdate, faithfulBody⟩ :=
        faithful
      obtain ⟨⟨⟨⟨isStart, isCondition⟩, isUpdate⟩, noRegex⟩, isBody⟩ := legible
      exact Statement.isShown_for isMark (Statement.headIsShown start starts faithfulStart isStart)
        (Expression.optionIsShown condition faithfulCondition isCondition)
        (Expression.optionIsShown update faithfulUpdate isUpdate)
        (body.isShown faithfulBody isBody) noRegex
  | .forIn token name declares subject body, faithful, legible => by
      simp only [Statement.isLegible, Bool.and_eq_true, Bool.not_eq_true'] at legible
      obtain ⟨isMark, isVariable, faithfulSubject, faithfulBody⟩ := faithful
      obtain ⟨⟨isSubject, noRegex⟩, isBody⟩ := legible
      exact Statement.isShown_forIn isMark isVariable (subject.isShown faithfulSubject isSubject)
        (body.isShown faithfulBody isBody) noRegex
  | .labeled label body, faithful, legible =>
      Statement.isShown_labeled faithful.1 (body.isShown faithful.2 legible)
  | .leave token label, faithful, _ => Statement.isShown_leave faithful.1 faithful.2
  | .again token label, faithful, _ => Statement.isShown_again faithful.1 faithful.2
  | .select token subject clauses, faithful, legible => by
      simp only [Statement.isLegible, Bool.and_eq_true] at legible
      exact Statement.isShown_select faithful.1 (subject.isShown faithful.2.1 legible.1)
        (Clause.areShown clauses false faithful.2.2 legible.2)
  | .function token literal, faithful, legible => by
      obtain ⟨isMark, isNamed, faithfulLiteral⟩ := faithful
      obtain ⟨text, spelling, shows⟩ := literal.exists_shown faithfulLiteral legible
      exact Statement.isShown_function
        (isMark.trans (FunctionLiteral.token_of_faithful faithfulLiteral).symm) isNamed
        shows

/-- The texts of legible statements that were read show the statements. -/
theorem Statement.areShown :
    ∀ statements : List Statement, Statement.AreFaithful statements →
      Statement.areLegible statements = true → Statement.AreShown statements
  | [], _, _ => Statement.areShown_nil
  | first :: rest, faithful, legible => by
      simp only [Statement.areLegible, Bool.and_eq_true] at legible
      exact Statement.areShown_cons (first.isShown faithful.1 legible.1)
        (Statement.areShown rest faithful.2 legible.2)

/-- The text of what a loop starts with shows it, if it is legible and was read. -/
theorem Statement.headIsShown :
    ∀ start : Option Statement, start.all Statement.startsLoop = true →
      Statement.OptionFaithful start → Statement.headLegible start = true →
      Statement.HeadIsShown start
  | none, _, _, _ => Statement.headIsShown_none
  | some (.expression token value), _, faithful, legible =>
      Statement.headIsShown_expression (value.isShown faithful legible)
  | some (.declare token declarators), _, faithful, legible =>
      Statement.headIsShown_declare faithful.1
        (Declarator.areShown declarators faithful.2.1 faithful.2.2 legible)
  | some (.giveBack _ _), starts, _, _ | some (.empty _), starts, _, _
  | some (.block _ _), starts, _, _ | some (.branch _ _ _ _), starts, _, _
  | some (.whileLoop _ _ _), starts, _, _ | some (.forLoop _ _ _ _ _), starts, _, _
  | some (.forIn _ _ _ _ _), starts, _, _ | some (.labeled _ _), starts, _, _
  | some (.leave _ _), starts, _, _ | some (.again _ _), starts, _, _
  | some (.select _ _ _), starts, _, _ | some (.function _ _), starts, _, _ => by cases starts

end

/-! ## What stands in parentheses -/

namespace Parser

/-- An expression in parentheses is read as a statement up to the end of input. -/
theorem Rereads.parenthesized
    {tokens : List Token}
    {opening closing last final : Token}
    {value : Expression}
    {limit : Nat}
    (rereads : Rereads tokens final value limit)
    (within : 1 ≤ limit)
    (opens : opening.kind = .leftParen)
    (closes : closing.kind = .rightParen)
    (isEnd : last.kind = .endOfInput) :
    Yields (4 * tokens.length + 11) (Script.read .statement)
      (opening :: (tokens ++ [closing, last])) (.expression opening value) [closing, last] := by
  have grouped : Rereads (opening :: (tokens ++ [closing])) closing value 13 :=
    rereads_grouped opens closes fun follow =>
      (rereads.stops (show Precedence.lowest.rank ≤ limit from within) follow
        (rank_closing closes .lowest)).weaken (by omega)
  have isLowest : Precedence.ofKind last.kind = .lowest ∧ last.kind ≠ .colon := by
    rw [isEnd]
    exact ⟨rfl, nofun⟩
  have opensStatement : OpensStatement (opening :: (tokens ++ [closing])) :=
    Expression.opensStatement_of_kind (by rw [opens]; decide) _
  obtain ⟨start, isStart, yields⟩ := grouped.statement (by decide) opensStatement isLowest.1
    isLowest.2 (endStatement_endOfInput isEnd)
  obtain rfl : opening = start := by simpa using isStart
  rw [List.cons_append, List.append_assoc] at yields
  exact yields.weaken (by simp only [List.length_cons, List.length_append, List.length_nil]; omega)

end Parser

namespace Program

open Token ScriptEngine.Parser

/-- What is shown is read from its text in parentheses, apart from where its tokens stand. -/
theorem ofTokens_parenthesized
    {expression : Expression}
    (shown : expression.IsShown)
    (source : Source)
    (width : Char → Nat) :
    (ofTokens source (scanChars width ("(" ++ expression.text ++ ")").toList)).failures = [] ∧
      ∃ token value,
        (ofTokens source (scanChars width
          ("(" ++ expression.text ++ ")").toList)).program.statements =
            [.expression token value] ∧
          value.outline = expression.outline := by
  obtain ⟨spelling, shows⟩ := shown
  have leads : Leads none ("(" ++ expression.text ++ ")").toList
      (.plain .leftParen "(" :: (spelling ++ [Token.plain .rightParen ")"]))
      (some .rightParen) := by
    have fills : Statement.Fills ')' (.plain .rightParen ")") expression.text.toList spelling :=
      Statement.fills_part (by decide) (by decide) shows.written.isPart
    simp only [String.toList_append, List.append_assoc]
    exact (@Leads.single '(' (.plain .leftParen "(") (by decide) none).trans
      (fills (some .leftParen) rfl)
  have scans := leads.scans [] [] _ [] (.none rfl)
  rw [List.append_nil, List.append_nil] at scans
  obtain ⟨tokens, behind, isScan, isSpelling, sameLine⟩ := scans.scans width []
  obtain ⟨last, isLast, isEnd, -⟩ := tokensFrom_nil width (some .rightParen) behind
  have isScan : scanChars width ("(" ++ expression.text ++ ")").toList = tokens ++ [last] :=
    isLast ▸ isScan
  obtain ⟨opening, rest, rfl, isOpening, -, spelledRest⟩ := Spelled.eq_cons ⟨isSpelling, sameLine⟩
  obtain ⟨inner, closing, rfl, spelledInner, isClosing⟩ := spelledRest.eq_concat
  obtain ⟨value, final, rereads, same⟩ := shows.reread inner spelledInner
  have opens : opening.kind = .leftParen := kind_of_unplaced isOpening
  have within := (Expression.tightest_bounds expression).1
  have yields := rereads.parenthesized (by omega) opens (kind_of_unplaced isClosing) isEnd
  have isTokens :
      opening :: (inner ++ [closing]) ++ [last] = opening :: (inner ++ [closing, last]) := by
    simp
  rw [isTokens] at isScan
  have enough : 4 * inner.length + 11 ≤ budget (opening :: (inner ++ [closing, last])).length := by
    simp only [budget, List.length_append, List.length_cons]
    omega
  have follows : Follows (budget (opening :: (inner ++ [closing, last])).length)
      (.ofTokens (opening :: (inner ++ [closing, last]))) [.expression opening value]
      (.ofTokens [last]) :=
    follows_cons (by rw [opens]; decide) (List.cons_ne_nil last []) (yields _ enough) (.none _)
  have isParsed := @ofTokens_of_follows source _ _ _ (by simp) follows isEnd
  rw [isScan, isParsed]
  exact ⟨rfl, opening, value, rfl, same⟩

end Program

end ScriptEngine
