import ScriptEngine.Proofs.Code.Escapes
import ScriptEngine.Proofs.Code.Induction
import ScriptEngine.Proofs.Program.ReadingBack

namespace ScriptEngine

/-!
# Reading and lowering agree on the language

Lowering goes by the literals of tokens: it looks operators up by their spelling, decodes
the bodies of strings, and asks a declared function for its name.  Some of its faults are
for programs that reading should never have let through.  None of them befalls a tree
that was read from scanned tokens; what is left are the faults that a program has of its
own, such as a jump without a target.
-/

variable {fault : LoweringFault} (context : LoweringContext)

/-! ## Blame -/

/-- The openings of the messages for programs that reading should not let through. -/
def blamingReader : List String :=
  ["unsupported statement", "unsupported expression", "unsupported operator",
    "unsupported assignment operator", "not a loop", "invalid property name",
    "function declaration requires a name", "More than one default clause",
    "unterminated escape sequence in string literal"]

namespace LoweringFault

/-- A fault of lowering that is the fault of reading, by its message. -/
def BlamesReader (fault : LoweringFault) : Prop :=
  ∃ opening ∈ blamingReader, opening.toList <+: fault.message.toList

/-- The faults that reading has to rule out. -/
def OfReader : LoweringFault → Prop
  | unsupportedOperator _ | unsupportedAssignment _ | namelessFunction | repeatedDefault
  | unfinishedEscape => True
  | _ => False

/-- A message that goes on apart from those that blame reading is none of them. -/
theorem not_blamesReader
    {opening more : String}
    (isMessage : fault.message = opening ++ more)
    (apart : ∀ blaming ∈ blamingReader,
      ¬blaming.toList <+: opening.toList ∧ ¬opening.toList <+: blaming.toList) :
    ¬fault.BlamesReader := by
  rintro ⟨blaming, member, blamingOpens⟩
  obtain ⟨notInside, notAround⟩ := apart blaming member
  have opens : opening.toList <+: fault.message.toList := by
    rw [isMessage, String.toList_append]
    exact List.prefix_append _ _
  rcases List.prefix_or_prefix_of_prefix blamingOpens opens with inside | around
  · exact notInside inside
  · exact notAround around

theorem not_blamesReader_badPattern (fault : PatternFault) : ¬(badPattern fault).BlamesReader := by
  cases fault with
  | repeatedFlag flag => exact not_blamesReader rfl (by decide)
  | unknownFlag flag => exact not_blamesReader rfl (by decide)
  | malformed source fault =>
      have isMessage (opening between reason behind : String) :
          opening ++ source ++ between ++ reason ++ behind ++ source ++ "\x60" =
            opening ++ (source ++ between ++ reason ++ behind ++ source ++ "\x60") := by
        simp only [String.append_assoc]
      exact not_blamesReader (isMessage _ _ fault.message _) (by decide)

/-- By its message a fault blames reading only if reading has to rule it out. -/
theorem BlamesReader.ofReader (blames : fault.BlamesReader) : fault.OfReader := by
  cases fault with
  | unsupportedOperator _ => trivial
  | unsupportedAssignment _ => trivial
  | namelessFunction => trivial
  | repeatedDefault => trivial
  | unfinishedEscape => trivial
  | illegalBreak => exact not_blamesReader String.append_empty.symm (by decide) blames
  | illegalContinue => exact not_blamesReader String.append_empty.symm (by decide) blames
  | invalidAssignment => exact not_blamesReader String.append_empty.symm (by decide) blames
  | octalEscape => exact not_blamesReader String.append_empty.symm (by decide) blames
  | badHexEscape => exact not_blamesReader String.append_empty.symm (by decide) blames
  | badUnicodeEscape => exact not_blamesReader String.append_empty.symm (by decide) blames
  | assertArity count => exact not_blamesReader rfl (by decide) blames
  | invalidDelete target => exact not_blamesReader rfl (by decide) blames
  | unknownEscape char => exact not_blamesReader rfl (by decide) blames
  | undefinedLabel label => exact not_blamesReader String.append_assoc (by decide) blames
  | labelNotLoop label => exact not_blamesReader String.append_assoc (by decide) blames
  | repeatedLabel label => exact not_blamesReader String.append_assoc (by decide) blames
  | invalidUpdate fixity => exact not_blamesReader String.append_assoc (by decide) blames
  | badPattern fault => exact not_blamesReader_badPattern fault blames

end LoweringFault

/--
An error by which a stage blames the one before it: reading was given a regular expression
that it cannot take apart, or lowering a program that reading should not let through.
-/
def ScriptError.BlamesStageBefore (error : ScriptError) : Prop :=
  error.fault = .grammar .malformedRegex ∨
    ∃ fault, error.fault = .lowering fault ∧ fault.BlamesReader

/-! ## Escapes -/

/-- A hexadecimal digit is no backslash, so what stands behind digits is paired as well. -/
theorem paired_of_hexDigits
    {count value code : Nat}
    {text left : List Char}
    (isCode : hexDigits? count value text = some (code, left))
    (paired : Token.Paired text) :
    Token.Paired left := by
  fun_induction hexDigits? count value text with
  | case1 value rest =>
      cases isCode
      exact paired
  | case2 value count char rest isDigit inductionHypothesis =>
      have notEscape : char ≠ '\\' := by
        rintro rfl
        exact absurd isDigit (by decide)
      exact inductionHypothesis isCode (paired.behind_plain notEscape)
  | case3 | case4 => cases isCode

theorem paired_of_unicodeEscape (code : Nat) {text : List Char} (paired : Token.Paired text) :
    Token.Paired (unicodeEscape code text).2 := by
  unfold unicodeEscape
  split
  · split
    · rename_i isLow
      split
      · exact paired_of_hexDigits isLow paired.behind_escape
      · exact paired
    · exact paired
  · exact paired

theorem error_of_map
    {result : Except LoweringFault α}
    {change : α → β}
    (fails : result.map change = .error fault) :
    result = .error fault := by
  cases result with
  | error other =>
      cases fails
      rfl
  | ok value => cases fails

/-- Where no backslash stands alone, decoding does not end inside an escape. -/
theorem unescapeFrom_paired
    (budget : Nat)
    {text : List Char}
    (paired : Token.Paired text)
    (fails : unescapeFrom budget text = .error fault) :
    ¬fault.OfReader := by
  fun_induction unescapeFrom budget text with
  | case1 | case2 | case7 => cases fails
  | case3 => exact absurd paired Token.Paired.not_alone
  | case4 _ _ _ _ _ inductionHypothesis | case6 _ _ _ _ _ inductionHypothesis =>
      exact inductionHypothesis paired.behind_escape (error_of_map fails)
  | case5 | case12 | case14 | case15 =>
      cases fails
      exact id
  | case8 _ _ _ inductionHypothesis | case10 _ _ _ _ inductionHypothesis =>
      exact inductionHypothesis paired.behind_escape fails
  | case9 _ _ _ inductionHypothesis =>
      exact inductionHypothesis (paired.behind_escape.behind_plain (by decide)) fails
  | case11 _ _ _ _ isCode _ inductionHypothesis =>
      exact inductionHypothesis (paired_of_hexDigits isCode paired.behind_escape)
        (error_of_map fails)
  | case13 _ _ code after isCode _ _ isDecoded _ inductionHypothesis =>
      have pairedAfter := paired_of_hexDigits isCode paired.behind_escape
      have pairedRest := paired_of_unicodeEscape code pairedAfter
      rw [isDecoded] at pairedRest
      exact inductionHypothesis pairedRest (error_of_map fails)
  | case16 _ _ _ notEscape inductionHypothesis =>
      exact inductionHypothesis (paired.behind_plain notEscape) (error_of_map fails)

/-! ## Spellings -/

theorem Token.literal_of_unplaced {token mark : Token} (isMark : token.unplaced = mark) :
    token.literal = mark.literal :=
  isMark ▸ rfl

theorem Token.IsScanned.paired
    {token : Token}
    (isScanned : token.IsScanned)
    (isString : token.kind = .string) :
    Paired token.literal.toList := by
  have isTold := tells_lexeme none token.writing
  rw [isScanned] at isTold
  exact IsTold.paired isTold isString

theorem UnaryOperator.ofText?_mark (operator : UnaryOperator) :
    ofText? operator.mark.literal = some operator := by
  cases operator <;> rfl

theorem InfixOperator.ofText?_mark (operator : InfixOperator) :
    ofText? operator.mark.literal = some operator := by
  rcases operator with operator | _ | _
  · cases operator <;> rfl
  · rfl
  · rfl

theorem AssignmentOperator.ofText?_text (operator : AssignmentOperator) :
    ofText? operator.text = some operator := by
  rcases operator with _ | operator
  · rfl
  · cases operator <;> decide

namespace Lowering

/-- A lowering step does not blame the stage before it. -/
def Blameless (step : Lowering α) : Prop :=
  ∀ routines error, step routines = .error error → ¬error.BlamesStageBefore

/-- What a lowering step may give. -/
def MayGive (step : Lowering α) (value : α) : Prop :=
  ∃ routines after, step routines = .ok (value, after)

namespace Blameless

theorem pure (value : α) : Blameless (pure value) :=
  fun _ _ fails => nomatch fails

theorem bind
    {first : Lowering β}
    {later : β → Lowering α}
    (firstBlameless : Blameless first)
    (laterBlameless : ∀ value, first.MayGive value → Blameless (later value)) :
    Blameless (first >>= later) := by
  intro routines error fails
  change Except.bind (first routines) (fun result => later result.1 result.2) = _ at fails
  cases firstRun : first routines with
  | error other =>
      rw [firstRun] at fails
      cases fails
      exact firstBlameless routines error firstRun
  | ok result =>
      rw [firstRun] at fails
      exact laterBlameless result.1 ⟨routines, result.2, firstRun⟩ result.2 error fails

theorem refuse (token : Token) (isOther : ¬fault.OfReader) :
    Blameless (α := α) (context.refuse token fault) := by
  rintro routines error ⟨⟩ (isGrammar | ⟨_, ⟨⟩, blames⟩)
  · cases isGrammar
  · exact isOther blames.ofReader

theorem decode {token : Token} (paired : Token.Paired token.literal.toList) :
    Blameless (context.decode token) := by
  unfold LoweringContext.decode
  split
  · exact .pure _
  · rename_i fault fails
    refine .refuse context token ?_
    unfold unescape at fails
    dsimp only at fails
    split at fails
    · exact unescapeFrom_paired _ paired (error_of_map fails)
    · cases fails

theorem propertyName {key : PropertyKey} (isKey : key.IsFaithful) :
    Blameless (context.propertyName key) := by
  cases key with
  | name token => exact .pure _
  | string token quote => exact .decode context (isKey.2.1.paired isKey.1)
  | number token value => exact .pure _

theorem compilePattern (token : Token) (source flags : String) :
    Blameless (context.compilePattern token source flags) := by
  unfold LoweringContext.compilePattern
  split
  · exact .pure _
  · exact .refuse context token id

/-- What is found for a token is not refused. -/
theorem require
    (token : Token)
    (fault : LoweringFault)
    {found : Option α}
    {value : α}
    (isFound : found = some value) :
    Blameless (context.require token fault found) := by
  subst isFound
  exact .pure value

end Blameless

end Lowering

/-- A function that was read has no empty name. -/
theorem FunctionLiteral.name_ne_empty
    {name : Token}
    (literal : FunctionLiteral)
    (isFaithful : literal.IsFaithful)
    (isName : literal.name = some name) :
    name.literal ≠ "" := by
  obtain ⟨_, _, _, _⟩ := literal
  obtain ⟨first, others, isText, -⟩ := (isFaithful.2.1 name isName).isNaming.starts
  rintro isEmpty
  rw [isEmpty] at isText
  cases isText

/-- A function keeps its name when it is lowered. -/
theorem FunctionLiteral.name_of_lower
    {context : LoweringContext}
    {routine : Routine}
    {name : Token}
    (literal : FunctionLiteral)
    (given : (literal.lower context).MayGive routine)
    (isName : literal.name = some name) :
    routine.name = name.literal := by
  obtain ⟨routines, after, given⟩ := given
  obtain ⟨token, _, parameters, body⟩ := literal
  obtain rfl := isName
  unfold lower at given
  change Except.bind (Statement.lowerAll context.inFunction body routines) _ = _ at given
  cases run : Statement.lowerAll context.inFunction body routines with
  | error error =>
      rw [run] at given
      cases given
  | ok result =>
      rw [run] at given
      cases given
      rfl

namespace Lowering

/-- What is faithful to tokens is lowered, or refused for what reading cannot rule out. -/
def faithful : Claims where
  ofExpression expression step := ∀ context, expression.IsFaithful → Blameless (step context)
  ofPlace expression step := ∀ context, expression.IsFaithful → Blameless (step context)
  ofExpressions expressions step :=
    ∀ context, Expression.AreFaithful expressions → Blameless (step context)
  ofOption expression step :=
    ∀ context, Expression.OptionFaithful expression → Blameless (step context)
  ofProperties properties step :=
    ∀ context, Property.AreFaithful properties → Blameless (step context)
  ofFunction literal step := ∀ context, literal.IsFaithful → Blameless (step context)
  ofDeclarators declarators step :=
    ∀ context, Declarator.AreFaithful declarators → Blameless (step context)
  ofClauses clauses step := ∀ context hasDefault,
    Clause.AreFaithful hasDefault clauses → Blameless (step context hasDefault)
  ofStatement statement step :=
    ∀ context labels, statement.IsFaithful → Blameless (step context labels)
  ofStatements statements step :=
    ∀ context, Statement.AreFaithful statements → Blameless (step context)
  ofStatementOption statement step :=
    ∀ context, Statement.OptionFaithful statement → Blameless (step context)
  ofAlternative statement step :=
    ∀ context, Statement.OptionFaithful statement → Blameless (step context)

/-- Operators that were read are found again, and what is no place may be refused. -/
theorem faithful_expressions : faithful.ExpressionCases where
  name _ _ := .pure _
  number _ _ := .pure _
  string context := fun ⟨isString, isScanned, _⟩ =>
    .bind (.decode context (isScanned.paired isString)) fun _ _ => .pure _
  boolean _ _ := .pure _
  regex context _ := .bind (.compilePattern context _ _ _) fun _ _ => .pure _
  this _ _ := .pure _
  function blameless context isLiteral :=
    .bind (blameless context isLiteral) fun _ _ => .pure _
  array blameless context := fun ⟨_, areFaithful⟩ =>
    .bind (blameless context areFaithful) fun _ _ => .pure _
  object blameless context := fun ⟨_, areFaithful⟩ =>
    .bind (blameless context areFaithful) fun _ _ => .pure _
  signed {token operator _ _} context := by
    rintro ⟨isSpelled, -⟩
    have isFound : UnaryOperator.ofText? token.literal = some operator := by
      rw [Token.literal_of_unplaced isSpelled, operator.ofText?_mark]
    dsimp only
    split
    · exact .pure _
    · exact .bind (.require context _ _ isFound) fun _ _ => .pure _
  unary {token operator _} blameless context := by
    rintro ⟨isSpelled, isOperand⟩
    have isFound : UnaryOperator.ofText? token.literal = some operator := by
      rw [Token.literal_of_unplaced isSpelled, operator.ofText?_mark]
    refine .bind (blameless context isOperand) fun _ _ => ?_
    exact .bind (.require context _ _ isFound) fun _ _ => .pure _
  typeofName _ _ := .pure _
  typeof blameless context := fun ⟨_, isOperand⟩ =>
    .bind (blameless context isOperand) fun _ _ => .pure _
  delete _ blameless context := by
    rintro ⟨-, isTarget⟩
    refine .bind (blameless context isTarget) fun lowered _ => ?_
    split
    · exact .pure _
    · exact .refuse context _ id
  binary {token operator _ _} leftBlameless rightBlameless context := by
    rintro ⟨isSpelled, isLeft, isRight⟩
    have isFound : InfixOperator.ofText? token.literal = some operator := by
      rw [Token.literal_of_unplaced isSpelled, operator.ofText?_mark]
    refine .bind (leftBlameless context isLeft) fun _ _ => ?_
    refine .bind (rightBlameless context isRight) fun _ _ => ?_
    exact .bind (.require context _ _ isFound) fun _ _ => .pure _
  assign {token operator _ _} _ targetBlameless valueBlameless context := by
    rintro ⟨-, isSpelled, isTarget, isValue⟩
    have isFound : AssignmentOperator.ofText? token.literal = some operator := by
      rw [Token.literal_of_unplaced isSpelled]
      exact operator.ofText?_text
    refine .bind (targetBlameless context isTarget) fun lowered _ => ?_
    split
    · exact .refuse context _ id
    · refine .bind (valueBlameless context isValue) fun _ _ => ?_
      exact .bind (.require context _ _ isFound) fun _ _ => .pure _
  update _ blameless context := by
    rintro ⟨-, isTarget⟩
    refine .bind (blameless context isTarget) fun lowered _ => ?_
    split
    · exact .refuse context _ id
    · exact .pure _
  conditional tested met unmet context := fun ⟨_, isTested, isMet, isUnmet⟩ =>
    .bind (tested context isTested) fun _ _ => .bind (met context isMet) fun _ _ =>
      .bind (unmet context isUnmet) fun _ _ => .pure _
  sequence first rest context := fun ⟨_, isFirst, _, _, isRest⟩ =>
    .bind (first context isFirst) fun _ _ => .bind (rest context isRest) fun _ _ => .pure _
  callMember base arguments context := fun ⟨_, isCallee, areFaithful⟩ =>
    .bind (arguments context areFaithful) fun _ _ =>
      .bind (base context isCallee.2.1) fun _ _ => .pure _
  callIndex base key arguments context := fun ⟨_, isCallee, areFaithful⟩ =>
    .bind (arguments context areFaithful) fun _ _ => .bind (base context isCallee.2.1) fun _ _ =>
      .bind (key context isCallee.2.2) fun _ _ => .pure _
  call callee arguments context := fun ⟨_, isCallee, areFaithful⟩ =>
    .bind (arguments context areFaithful) fun _ _ =>
      .bind (callee context isCallee) fun _ _ => .pure _
  construct constructor arguments context := fun ⟨_, isConstructor, areFaithful⟩ =>
    .bind (constructor context isConstructor) fun _ _ =>
      .bind (arguments context areFaithful) fun _ _ => .pure _
  member base context := fun ⟨_, isBase, _⟩ => .bind (base context isBase) fun _ _ => .pure _
  index base key context := fun ⟨_, isBase, isKey⟩ =>
    .bind (base context isBase) fun _ _ => .bind (key context isKey) fun _ _ => .pure _

/-- There is one default clause at most among clauses that were read. -/
theorem faithful_parts : faithful.PartCases where
  variablePlace _ _ := .pure _
  memberPlace base context := fun ⟨_, isBase, _⟩ =>
    .bind (base context isBase) fun _ _ => .pure _
  indexPlace base key context := fun ⟨_, isBase, isKey⟩ =>
    .bind (base context isBase) fun _ _ => .bind (key context isKey) fun _ _ => .pure _
  noPlace _ _ := .pure _
  noExpressions _ _ := .pure _
  moreExpressions first rest context := fun ⟨isFirst, isRest⟩ =>
    .bind (first context isFirst) fun _ _ => .bind (rest context isRest) fun _ _ => .pure _
  noExpression _ _ := .pure _
  someExpression value context isValue := .bind (value context isValue) fun _ _ => .pure _
  noProperties _ _ := .pure _
  moreProperties value rest context := fun ⟨isKey, isValue, isRest⟩ =>
    .bind (.propertyName context isKey) fun _ _ => .bind (value context isValue) fun _ _ =>
      .bind (rest context isRest) fun _ _ => .pure _
  function body context := fun ⟨_, _, _, isBody⟩ =>
    .bind (body context.inFunction isBody) fun _ _ => by rintro routines error ⟨⟩
  noDeclarators _ _ := .pure _
  moreDeclarators value rest context := fun ⟨_, isValue, isRest⟩ =>
    .bind (value context isValue) fun _ _ => .bind (rest context isRest) fun _ _ => .pure _
  noClauses _ _ _ := .pure _
  moreClauses condition body rest context hasDefault := by
    rintro ⟨-, isFirst, isTested, isBody, isRest⟩
    dsimp only
    split
    · rename_i isSecond
      obtain ⟨hasOne, isDefault⟩ := Bool.and_eq_true_iff.mp isSecond
      obtain ⟨value, rfl⟩ := Option.isSome_iff_exists.mp (isFirst hasOne)
      cases isDefault
    · exact .bind (condition context isTested) fun _ _ => .bind (body context isBody) fun _ _ =>
        .bind (rest context _ isRest) fun _ _ => .pure _
  noStatements _ _ := .pure _
  moreStatements first rest context := fun ⟨isFirst, isRest⟩ =>
    .bind (first context [] isFirst) fun _ _ => .bind (rest context isRest) fun _ _ => .pure _
  noStatement _ _ := .pure _
  someStatement statement context isFaithful := statement context [] isFaithful
  noAlternative _ _ := .pure _
  someAlternative statement context isFaithful :=
    .bind (statement context [] isFaithful) fun _ _ => .pure _

/-- A function that stands as a statement has a name; jumps and assertions may be refused. -/
theorem faithful_statements : faithful.StatementCases where
  labeled body context labels := by
    rintro ⟨-, isBody⟩
    dsimp only
    split
    · exact .refuse context _ id
    · exact body context _ isBody
  whileLoop condition body context labels := fun ⟨_, isTested, isBody⟩ =>
    .bind (condition _ isTested) fun _ _ => .bind (body _ _ isBody) fun _ _ => .pure _
  forLoop start condition update body context labels :=
    fun ⟨_, _, isStart, isTested, isUpdate, isBody⟩ =>
      .bind (start _ isStart) fun _ _ => .bind (condition _ isTested) fun _ _ =>
        .bind (update _ isUpdate) fun _ _ => .bind (body _ _ isBody) fun _ _ => .pure _
  forIn subject body context labels := fun ⟨_, _, isSubject, isBody⟩ =>
    .bind (subject _ isSubject) fun _ _ => .bind (body _ _ isBody) fun _ _ => .pure _
  evaluated _ value context labels isValue := .bind (value _ isValue) fun _ _ => .pure _
  asserted _ value context labels isValue := by
    dsimp only
    split
    · exact .pure _
    · split
      · exact .bind (value _ isValue) fun _ _ => .pure _
      · exact .refuse _ _ id
  declare declarators context labels := fun ⟨_, _, areFaithful⟩ =>
    .bind (declarators _ areFaithful) fun _ _ => .pure _
  define {token literal} blameless context labels := by
    rintro ⟨-, isNamed, isLiteral⟩
    obtain ⟨name, isName⟩ := Option.isSome_iff_exists.mp isNamed
    have notEmpty : name.literal ≠ "" := literal.name_ne_empty isLiteral isName
    refine .bind (blameless _ isLiteral) fun routine given => ?_
    rw [if_neg (literal.name_of_lower given isName ▸ notEmpty)]
    exact .pure _
  giveBack value context labels := fun ⟨_, isValue⟩ =>
    .bind (value _ isValue) fun _ _ => .pure _
  empty _ _ _ := .pure _
  block body context labels := fun ⟨_, isBody⟩ => .bind (body _ isBody) fun _ _ => .pure _
  branch condition consequence alternative context labels :=
    fun ⟨_, isTested, isMet, _, isUnmet⟩ =>
      .bind (condition _ isTested) fun _ _ => .bind (consequence _ _ isMet) fun _ _ =>
        .bind (alternative _ isUnmet) fun _ _ => .pure _
  leave _ _ _ := by
    dsimp only
    split
    · exact .refuse _ _ id
    · exact .pure _
  leaveTo _ _ _ := by
    dsimp only
    split
    · exact .pure _
    · exact .refuse _ _ id
  again _ _ _ := by
    dsimp only
    split
    · exact .refuse _ _ id
    · exact .pure _
  againTo _ _ _ := by
    dsimp only
    split
    · split
      · exact .pure _
      · exact .refuse _ _ id
    · exact .refuse _ _ id
  select subject clauses context labels := fun ⟨_, isSubject, areFaithful⟩ =>
    .bind (subject _ isSubject) fun _ _ => .bind (clauses _ false areFaithful) fun _ _ => .pure _

theorem faithful_cases : faithful.Cases :=
  ⟨faithful_expressions, faithful_parts, faithful_statements⟩

end Lowering

namespace Code

/-- Neither reading some tokens nor lowering what was read blames the stage before it. -/
structure StagesAgree (source : Source) (tokens : List Token) : Prop where
  reads : ∀ error ∈ (Program.ofTokens source tokens).errors, ¬error.BlamesStageBefore
  lowers : ∀ assertions error,
    ofProgram assertions (Program.ofTokens source tokens).program = .error error →
      ¬error.BlamesStageBefore

theorem stagesAgree_scanChars (source : Source) (width : Char → Nat) (text : List Char) :
    StagesAgree source (Token.scanChars width text) := by
  have some : Token.scanChars width text ≠ [] := by
    unfold Token.scanChars Token.scanFrom
    dsimp only
    split <;> simp
  have splits := Program.splits_ofTokens source some fun _ => Token.tells_of_mem_scanFrom
  have areFaithful := Program.areFaithful_of_scanChars source width text
  refine ⟨fun error member => ?_, fun assertions error fails => ?_⟩
  · obtain ⟨failure, isFailure, rfl⟩ := List.mem_map.mp member
    rintro (isMalformed | ⟨_, ⟨⟩, _⟩)
    exact splits failure isFailure (Fault.grammar.inj isMalformed)
  let program := (Program.ofTokens source (Token.scanChars width text)).program
  have blameless : Lowering.Blameless (Statement.lowerAll (.fresh program.source assertions)
      program.statements) :=
    Lowering.faithful_cases.ofStatements program.statements _ areFaithful
  change Except.bind (Statement.lowerAll (.fresh program.source assertions)
    program.statements #[]) _ = _ at fails
  cases run : Statement.lowerAll (.fresh program.source assertions) program.statements #[] with
  | error other =>
      rw [run] at fails
      cases fails
      exact blameless #[] error run
  | ok result =>
      rw [run] at fails
      cases fails

/--
Reading and lowering agree on the language.  On any byte string neither blames the stage
before it, and no text that is read and lowered in one go ends in an error that does.
-/
theorem stages_agree :
    (∀ source bytes, StagesAgree source (Token.scanBytes bytes)) ∧
      ∀ assertions source errors, compile assertions source = .error errors →
        ∀ error ∈ errors, ¬error.BlamesStageBefore := by
  refine ⟨fun source bytes => stagesAgree_scanChars source Token.byteWidth _, ?_⟩
  intro assertions source errors fails error member
  obtain ⟨reads, lowers⟩ := stagesAgree_scanChars source Char.utf8Size source.content.toList
  unfold compile at fails
  dsimp only at fails
  split at fails
  · split at fails
    · cases fails
    · rename_i isError
      cases fails
      obtain rfl := List.mem_singleton.mp member
      exact lowers assertions _ isError
  · cases fails
    exact reads error member

theorem stages_agree_on_unknown_label :
    ∃ errors, compile true (Source.ofRepl "switch (a += '\\n') \x7bdefault: break b\x7d") =
        .error errors ∧
      errors.map ScriptError.message = ["Undefined label 'b'"] ∧
      ∀ error ∈ errors, ¬error.BlamesStageBefore := by
  refine ⟨_, rfl, rfl, ?_⟩
  exact stages_agree.2 true (Source.ofRepl "switch (a += '\\n') \x7bdefault: break b\x7d") _ rfl

end Code

end ScriptEngine
