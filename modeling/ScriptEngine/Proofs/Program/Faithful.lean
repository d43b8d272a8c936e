import ScriptEngine.Proofs.Program.Adjacency
import ScriptEngine.Proofs.Program.Everywhere
import ScriptEngine.Proofs.Program.Rereading
import ScriptEngine.Proofs.Token.Alone

namespace ScriptEngine

/-!
# What reading makes

A tree that was read keeps to each node the token that tells it, and this is known from
the node but for names and literals.  Names are scanned as they stand, literals are read
as their values, a function statement has a name, and no `else` is left to a branch that
is closed by another one.
-/

variable {left : Expression} {token : Token}

/-! ## Faithful trees -/

/-- Whether an `else` behind a statement would belong to it. -/
def Statement.isOpen : Statement → Bool
  | .branch _ _ _ none => true
  | .branch _ _ _ (some alternative) => alternative.isOpen
  | .whileLoop _ _ body | .forLoop _ _ _ _ body | .forIn _ _ _ _ body | .labeled _ body =>
    body.isOpen
  | _ => false

/-- Whether a statement may stand at the start of the head of a loop. -/
def Statement.startsLoop : Statement → Bool
  | .declare _ _ | .expression _ _ => true
  | _ => false

/-- The token of a boolean literal. -/
def booleanMark (value : Bool) : Token :=
  if value then .plain .trueWord "true" else .plain .falseWord "false"

/-- The token of a clause with a condition, or of one without. -/
def clauseMark (condition : Option Expression) : Token :=
  if condition.isSome then .plain .caseWord "case" else .plain .defaultWord "default"

/-- A token that is a name, but no word. -/
structure Token.IsVariable (token : Token) : Prop where
  isName : token.kind = .identifier
  isNaming : token.IsNaming

/-- A key that was read: a name, a word or a literal. -/
def PropertyKey.IsFaithful : PropertyKey → Prop
  | .name token => token.kind ≠ .string ∧ token.kind ≠ .number ∧ token.IsNaming
  | .string token quote => token.kind = .string ∧ token.IsScanned ∧ token.quote = some quote
  | .number token value =>
      token.kind = .number ∧ token.IsScanned ∧
        Number.ofLiteral? token.literal.toList = some value

mutual

/-- An expression as reading makes it. -/
def Expression.IsFaithful : Expression → Prop
  | .name token => token.IsVariable
  | .number token value =>
      token.kind = .number ∧ token.IsScanned ∧ Number.ofLiteral? token.literal.toList = some value
  | .string token quote => token.kind = .string ∧ token.IsScanned ∧ token.quote = some quote
  | .boolean token value => token.unplaced = booleanMark value
  | .regex token pattern flags =>
      token.IsRegex ∧ Parser.splitRegex? token.literal = some (pattern, flags)
  | .this token => token.unplaced = .plain .thisWord "this"
  | .function literal => literal.IsFaithful
  | .array token elements =>
      token.unplaced = .plain .leftBracket "[" ∧ Expression.AreFaithful elements
  | .object token properties =>
      token.unplaced = .plain .leftBrace "\x7b" ∧ Property.AreFaithful properties
  | .unary token operator operand => token.unplaced = operator.mark ∧ operand.IsFaithful
  | .typeof token operand => token.unplaced = .plain .typeofWord "typeof" ∧ operand.IsFaithful
  | .delete token target => token.unplaced = .plain .deleteWord "delete" ∧ target.IsFaithful
  | .binary token operator left right =>
      token.unplaced = operator.mark ∧ left.IsFaithful ∧ right.IsFaithful
  | .assign token operator target value =>
      AssignmentOperator.ofKind? token.kind = some operator ∧
        token.unplaced = .plain token.kind operator.text ∧ target.IsFaithful ∧ value.IsFaithful
  | .update token operator _ target => token.unplaced = operator.mark ∧ target.IsFaithful
  | .conditional token condition consequence alternative =>
      token.unplaced = .plain .question "?" ∧ condition.IsFaithful ∧ consequence.IsFaithful ∧
        alternative.IsFaithful
  | .sequence token first rest =>
      token.unplaced = .plain .comma "," ∧ first.IsFaithful ∧ first.isSequence = false ∧
        rest ≠ [] ∧ Expression.AreFaithful rest
  | .call token callee arguments =>
      token.unplaced = .plain .leftParen "(" ∧ callee.IsFaithful ∧ Expression.AreFaithful arguments
  | .construct token constructor arguments =>
      token.unplaced = .plain .newWord "new" ∧ constructor.IsFaithful ∧
        Expression.AreFaithful arguments
  | .member token base property =>
      token.unplaced = .plain .dot "." ∧ base.IsFaithful ∧
        (property.kind ≠ .string → property.IsNaming) ∧ property.NamesProperty
  | .index token base key =>
      token.unplaced = .plain .leftBracket "[" ∧ base.IsFaithful ∧ key.IsFaithful

/-- Expressions as reading makes them. -/
def Expression.AreFaithful : List Expression → Prop
  | [] => True
  | first :: rest => first.IsFaithful ∧ Expression.AreFaithful rest

/-- An expression that may be missing, as reading makes it. -/
def Expression.OptionFaithful : Option Expression → Prop
  | none => True
  | some value => value.IsFaithful

/-- Properties as reading makes them. -/
def Property.AreFaithful : List Property → Prop
  | [] => True
  | .mk key value :: rest => key.IsFaithful ∧ value.IsFaithful ∧ Property.AreFaithful rest

/-- A function as reading makes it. -/
def FunctionLiteral.IsFaithful : FunctionLiteral → Prop
  | .mk token name parameters body =>
      token.unplaced = .plain .functionWord "function" ∧ (∀ token ∈ name, token.IsVariable) ∧
        (∀ parameter ∈ parameters, parameter.IsVariable) ∧ Statement.AreFaithful body

/-- Declared variables as reading makes them. -/
def Declarator.AreFaithful : List Declarator → Prop
  | [] => True
  | .mk name value :: rest =>
      name.IsVariable ∧ Expression.OptionFaithful value ∧ Declarator.AreFaithful rest

/-- Clauses as reading makes them, of which a default clause may have gone before. -/
def Clause.AreFaithful (hasDefault : Bool) : List Clause → Prop
  | [] => True
  | .mk token condition body :: rest =>
      token.unplaced = clauseMark condition ∧ (hasDefault = true → condition.isSome = true) ∧
        Expression.OptionFaithful condition ∧ Statement.AreFaithful body ∧
        Clause.AreFaithful (hasDefault || condition.isNone) rest

/-- A statement as reading makes it. -/
def Statement.IsFaithful : Statement → Prop
  | .declare token declarators =>
      token.unplaced = .plain .varWord "var" ∧ declarators ≠ [] ∧ Declarator.AreFaithful declarators
  | .giveBack token value =>
      token.unplaced = .plain .returnWord "return" ∧ Expression.OptionFaithful value
  | .expression _ value => value.IsFaithful
  | .empty token => token.unplaced = .plain .semicolon ";"
  | .block token body => token.unplaced = .plain .leftBrace "\x7b" ∧ Statement.AreFaithful body
  | .branch token condition consequence alternative =>
      token.unplaced = .plain .ifWord "if" ∧ condition.IsFaithful ∧ consequence.IsFaithful ∧
        (alternative.isSome = true → consequence.isOpen = false) ∧
        Statement.OptionFaithful alternative
  | .whileLoop token condition body =>
      token.unplaced = .plain .whileWord "while" ∧ condition.IsFaithful ∧ body.IsFaithful
  | .forLoop token start condition update body =>
      token.unplaced = .plain .forWord "for" ∧ start.all Statement.startsLoop = true ∧
        Statement.OptionFaithful start ∧ Expression.OptionFaithful condition ∧
        Expression.OptionFaithful update ∧ body.IsFaithful
  | .forIn token name _ subject body =>
      token.unplaced = .plain .forWord "for" ∧ name.IsVariable ∧ subject.IsFaithful ∧
        body.IsFaithful
  | .labeled label body => label.IsVariable ∧ body.IsFaithful
  | .leave token label =>
      token.unplaced = .plain .breakWord "break" ∧ ∀ name ∈ label, name.IsVariable
  | .again token label =>
      token.unplaced = .plain .continueWord "continue" ∧ ∀ name ∈ label, name.IsVariable
  | .select token subject clauses =>
      token.unplaced = .plain .switchWord "switch" ∧ subject.IsFaithful ∧
        Clause.AreFaithful false clauses
  | .function token literal =>
      token.unplaced = .plain .functionWord "function" ∧ literal.name.isSome = true ∧
        literal.IsFaithful

/-- Statements as reading makes them. -/
def Statement.AreFaithful : List Statement → Prop
  | [] => True
  | first :: rest => first.IsFaithful ∧ Statement.AreFaithful rest

/-- A statement that may be missing, as reading makes it. -/
def Statement.OptionFaithful : Option Statement → Prop
  | none => True
  | some statement => statement.IsFaithful

end

/-! ## The tokens of operators -/

theorem UpdateOperator.matches : Token.Matches Parser.updateOperator? text where
  marks := by decide
  words := by decide
  others := by decide

namespace Token.IsFound

/-- A token that is found and stands for an operator is spelled as the operator. -/
theorem unplaced_of_matches
    {operators : TokenKind → Option α}
    {text : α → String}
    {operator : α}
    (isFound : token.IsFound)
    (agrees : Matches operators text)
    (stands : operators token.kind = some operator) :
    token.unplaced = .plain token.kind (text operator) := by
  have apart :
      token.kind ∉ [TokenKind.illegal, .endOfInput, .number, .identifier, .string, .regex] := by
    intro isOther
    rw [agrees.others _ isOther] at stands
    cases stands
  have noQuote := isFound.noQuote (fun isString => apart (by simp [isString]))
    fun isIllegal => apart (by simp [isIllegal])
  rw [unplaced, IsTold.literal_eq isFound.isTold agrees stands, noQuote]
  rfl

theorem unary
    {operator : UnaryOperator}
    (isFound : token.IsFound)
    (stands : Parser.unaryOperator? token.kind = some operator) :
    token.unplaced = operator.mark := by
  rw [isFound.unplaced_of_matches UnaryOperator.matches stands]
  revert stands
  cases token.kind <;> rintro ⟨⟩ <;> rfl

theorem update
    {operator : UpdateOperator}
    (isFound : token.IsFound)
    (stands : Parser.updateOperator? token.kind = some operator) :
    token.unplaced = operator.mark := by
  rw [isFound.unplaced_of_matches UpdateOperator.matches stands]
  revert stands
  cases token.kind <;> rintro ⟨⟩ <;> rfl

theorem between
    {operator : InfixOperator}
    (isFound : token.IsFound)
    (stands : InfixOperator.ofKind? token.kind = some operator) :
    token.unplaced = operator.mark := by
  rw [isFound.unplaced_of_matches InfixOperator.matches stands]
  revert stands
  cases token.kind <;> rintro ⟨⟩ <;> rfl

theorem isVariable (isFound : token.IsFound) (isName : token.kind = .identifier) :
    token.IsVariable :=
  ⟨isName, isFound.isNaming (by rw [isName]; rfl) (by rw [isName]; nofun)⟩

end Token.IsFound

namespace Parser

open Script (current next advance read)
open Cursor (Anywhere On)

variable {answers : Answers}

/-! ## Scripts and what they build -/

/--
When a script gives a value, from a cursor that is as it should be, then the value and the
cursor that it leaves are as they should be.
-/
def Builds
    (answers : Answers)
    (before : Cursor → Prop)
    (script : Script α)
    (after : α → Cursor → Prop) : Prop :=
  ∀ reading value later, reading.cursor.Holds Token.IsFound → before reading.cursor →
    script.run answers reading = (some value, later) →
      after value later.cursor ∧ later.cursor.Holds Token.IsFound

namespace Builds

variable {before : Cursor → Prop} {after : α → Cursor → Prop}

theorem pure {value : α} (holds : ∀ cursor, before cursor → after value cursor) :
    Builds answers before (pure value) after := by
  rintro reading _ _ found isBefore ⟨⟩
  exact ⟨holds _ isBefore, found⟩

theorem bind
    {first : Script β}
    {later : β → Script α}
    {between : β → Cursor → Prop}
    (builds : Builds answers before first between)
    (buildsOn : ∀ value, Builds answers (between value) (later value) after) :
    Builds answers before (first >>= later) after := by
  intro reading value last found isBefore isRun
  rw [Script.run_bind] at isRun
  split at isRun
  · rename_i given reached isFirst
    obtain ⟨isBetween, foundLater⟩ := builds reading given reached found isBefore isFirst
    exact buildsOn given reached value last foundLater isBetween isRun
  · cases isRun

/-- What is known of a value wherever the cursor stands is known from there on. -/
theorem andThen
    {first : Script β}
    {later : β → Script α}
    {between : β → Prop}
    (builds : Builds answers before first fun value _ => between value)
    (buildsOn : ∀ value, between value → Builds answers Anywhere (later value) after) :
    Builds answers before (first >>= later) after :=
  builds.bind fun value reading result last found isBetween isRun =>
    buildsOn value isBetween reading result last found trivial isRun

section

variable {script : Script α} {earlier : Cursor → Prop} (builds : Builds answers before script after)
  (starts : ∀ cursor, earlier cursor → before cursor)

include builds starts

theorem weaken
    {wider : α → Cursor → Prop}
    (stops : ∀ value cursor, after value cursor → wider value cursor) :
    Builds answers earlier script wider := by
  intro reading value later found isEarlier isRun
  obtain ⟨isAfter, foundLater⟩ := builds reading value later found (starts _ isEarlier) isRun
  exact ⟨stops _ _ isAfter, foundLater⟩

theorem starting : Builds answers earlier script after :=
  builds.weaken starts fun _ _ isAfter => isAfter

end

/-- A script that builds from anywhere builds from where it is. -/
theorem anywhere {script : Script α} (builds : Builds answers Anywhere script after) :
    Builds answers before script after :=
  builds.starting fun _ _ => trivial

/-- What follows from where the cursor stands may be used. -/
theorem known
    {script : Script α}
    (fact : Prop)
    (knows : ∀ cursor, before cursor → fact)
    (builds : fact → Builds answers before script after) :
    Builds answers before script after :=
  fun reading value later found isBefore isRun =>
    builds (knows _ isBefore) reading value later found isBefore isRun

theorem refuse (token : Token) (fault : GrammarFault) :
    Builds answers before (Parser.refuse token fault) after := by
  rintro reading _ _ - - ⟨⟩

theorem refuseNext (wanted : TokenKind) :
    Builds answers before (Parser.refuseNext wanted) after := by
  rintro reading _ _ - - ⟨⟩

theorem current
    {later : Token → Script α}
    (builds : ∀ token, token.IsFound →
      Builds answers (fun cursor => before cursor ∧ cursor.current = token) (later token) after) :
    Builds answers before (current >>= later) after :=
  fun reading value last found isBefore isRun =>
    builds reading.cursor.current found.current reading value last found ⟨isBefore, rfl⟩ isRun

/-- The current token is of the kind that the cursor stands on. -/
theorem currentOn
    {later : Token → Script α}
    {kind : TokenKind}
    (isOn : ∀ cursor, before cursor → cursor.On kind)
    (builds : ∀ token, token.IsFound → token.kind = kind →
      Builds answers Anywhere (later token) after) :
    Builds answers before (Script.current >>= later) after :=
  fun reading value last found isBefore isRun =>
    builds reading.cursor.current found.current (isOn _ isBefore) reading value last found trivial
      isRun

theorem next
    {later : Token → Script α}
    (builds : ∀ token, token.IsFound →
      Builds answers (fun cursor => before cursor ∧ cursor.next = token) (later token) after) :
    Builds answers before (next >>= later) after :=
  fun reading value last found isBefore isRun =>
    builds reading.cursor.next found.next reading value last found ⟨isBefore, rfl⟩ isRun

theorem advance {after : Cursor → Prop} (reaches : ∀ cursor, before cursor → after cursor.advance) :
    Builds answers before advance fun _ => after := by
  rintro reading _ _ found isBefore ⟨⟩
  exact ⟨reaches _ isBefore, found.advance⟩

/-- The cursor moves on, to anywhere. -/
theorem pass
    {later : Unit → Script α}
    (builds : Builds answers Anywhere (later ()) after) :
    Builds answers before (Script.advance >>= later) after :=
  .bind (.advance fun _ _ => trivial) fun _ => builds

theorem expect (kind : TokenKind) :
    Builds answers before (Parser.expect kind) fun _ => On kind := by
  refine .next fun token _ => ?_
  split
  · rename_i isKind
    refine .advance ?_
    rintro cursor ⟨-, rfl⟩
    rw [On, Cursor.current_advance]
    exact isKind
  · exact .refuseNext kind

/-- A token of a kind is expected and passed. -/
theorem passing
    {later : Unit → Script α}
    (kind : TokenKind)
    (builds : Builds answers Anywhere (later ()) after) :
    Builds answers before (Parser.expect kind >>= later) after :=
  .bind (expect kind) fun _ => builds.anywhere

theorem endStatement : Builds answers before Parser.endStatement fun _ => Anywhere := by
  refine .next fun token _ => ?_
  split
  · exact .advance fun _ _ => trivial
  · split
    · exact .pure fun _ _ => trivial
    · exact .refuseNext _

theorem jumpLabel :
    Builds answers before Parser.jumpLabel fun label _ => ∀ name ∈ label, name.IsVariable := by
  refine .next fun token isFound => ?_
  split
  · rename_i isLabel
    have isName : token.kind = .identifier := by
      simp only [Bool.and_eq_true, decide_eq_true_eq] at isLabel
      exact isLabel.1
    refine .pass (.pure fun _ _ => ?_)
    rintro _ ⟨⟩
    exact isFound.isVariable isName
  · exact .pure fun _ _ => by simp

theorem numberValue (token : Token) :
    Builds answers before (Parser.numberValue token) fun value _ =>
      Number.ofLiteral? token.literal.toList = some value := by
  unfold Parser.numberValue
  split
  · rename_i isRead
    exact .pure fun _ _ => isRead
  · exact .refuse _ _

theorem propertyKey : Builds answers before Parser.propertyKey fun key _ => key.IsFaithful := by
  refine .current fun token isFound => ?_
  split
  · rename_i isString
    have isScanned := isFound.isScanned (by rw [isString]; rfl)
    obtain ⟨quote, isQuote⟩ := Token.exists_quote isString isScanned
    refine .pure fun _ _ => ⟨isString, isScanned, ?_⟩
    rw [quoteOf, isQuote]
    rfl
  · rename_i notString
    split
    · rename_i isNumber
      exact .andThen (numberValue token) fun value isRead => .pure fun _ _ =>
        ⟨isNumber, isFound.isScanned (by rw [isNumber]; rfl), isRead⟩
    · rename_i notNumber
      split
      · rename_i names
        exact .pure fun _ _ => ⟨notString, notNumber, isFound.isNaming names notString⟩
      · split
        · exact .refuse _ _
        · exact .refuse _ _

theorem betweenProperties : Builds answers before Parser.betweenProperties fun _ => Anywhere := by
  refine .next fun token _ => ?_
  split
  · exact .pure fun _ _ => trivial
  · exact (expect _).weaken (fun _ isBefore => isBefore.1) fun _ _ _ => trivial

end Builds

theorem areFaithful_append
    {front back : List Expression}
    (areFront : Expression.AreFaithful front)
    (areBack : Expression.AreFaithful back) :
    Expression.AreFaithful (front ++ back) := by
  induction front with
  | nil => exact areBack
  | cons first rest inductionHypothesis => exact ⟨areFront.1, inductionHypothesis areFront.2⟩

theorem isFaithful_extendSequence
    {right : Expression}
    (isComma : token.unplaced = .plain .comma ",")
    (isLeft : left.IsFaithful)
    (isRight : right.IsFaithful) :
    (extendSequence token left right).IsFaithful := by
  by_cases isSequence : left.isSequence = true
  · cases left with
    | sequence mark first rest =>
        obtain ⟨isMark, isFirst, notSequence, -, areRest⟩ := isLeft
        exact ⟨isMark, isFirst, notSequence, by simp, areFaithful_append areRest ⟨isRight, trivial⟩⟩
    | _ => cases isSequence
  · rw [extendSequence_of_not_sequence (Bool.eq_false_iff.mpr isSequence)]
    exact ⟨isComma, isLeft, Bool.eq_false_iff.mpr isSequence, List.cons_ne_nil _ _, isRight,
      trivial⟩

namespace Task

/-- Where a reader starts that relies on it. -/
def StartsOn : {α : Type} → Task α → Cursor → Prop
  | _, declarators => On .identifier
  | _, _ => Anywhere

/-- What a reader has been given already. -/
def GivenFaithful : {α : Type} → Task α → Prop
  | _, operators _ left => left.IsFaithful
  | _, _ => True

/-- What a reader makes, and what comes next behind an open statement. -/
def MakesFaithful : {α : Type} → Task α → α → Cursor → Prop
  | _, statement => fun made cursor =>
      made.IsFaithful ∧ (made.isOpen = true → cursor.next.kind ≠ .elseWord)
  | _, declarators => fun made _ => made ≠ [] ∧ Declarator.AreFaithful made
  | _, block => fun made _ => Statement.AreFaithful made
  | _, clauses hasDefault => fun made _ => Clause.AreFaithful hasDefault made
  | _, clauseBody => fun made _ => Statement.AreFaithful made
  | _, parameters => fun made _ => ∀ parameter ∈ made, parameter.IsVariable
  | _, expression _ => fun made _ => made.IsFaithful
  | _, operators _ _ => fun made _ => made.IsFaithful
  | _, list _ => fun made _ => Expression.AreFaithful made
  | _, properties => fun made _ => Property.AreFaithful made

end Task

/-- Every task is answered as its reader should. -/
def Answers.Build (answers : Answers) : Prop :=
  ∀ {α : Type} (task : Task α), task.GivenFaithful →
    Builds answers task.StartsOn (read task) task.MakesFaithful

section

variable (calls : answers.Build)

include calls

/-! ## Expressions -/

theorem expression_builds (before : Cursor → Prop) (bound : Precedence) :
    Builds answers before (read (.expression bound)) fun value _ => value.IsFaithful :=
  (calls (.expression bound) trivial).anywhere

/-- An expression behind a token. -/
theorem nextExpression_builds
    {make : Expression → α}
    {holds : α → Prop}
    (before : Cursor → Prop)
    (bound : Precedence)
    (made : ∀ value : Expression, value.IsFaithful → holds (make value)) :
    Builds answers before
      (advance >>= fun _ => read (.expression bound) >>= fun value => pure (make value))
      fun value _ => holds value :=
  .pass (.andThen (expression_builds calls _ bound) fun value isValue =>
    .pure fun _ _ => made value isValue)

theorem expressionList_builds (before : Cursor → Prop) (closing : TokenKind) :
    Builds answers before (expressionList closing) fun values _ =>
      Expression.AreFaithful values := by
  refine .next fun following _ => ?_
  split
  · exact .pass (.pure fun _ _ => trivial)
  · exact (calls (.list closing) trivial).anywhere

theorem list_builds (closing : TokenKind) :
    Builds answers Anywhere (list closing) fun values _ => Expression.AreFaithful values := by
  refine .pass (.andThen (expression_builds calls _ .comma) fun first isFirst => ?_)
  refine .next fun following _ => ?_
  split
  · refine .pass (.next fun following _ => ?_)
    split
    · exact .pass (.pure fun _ _ => ⟨isFirst, trivial⟩)
    · exact .andThen (calls (.list closing) trivial).anywhere fun rest areRest =>
        .pure fun _ _ => ⟨isFirst, areRest⟩
  · exact .passing closing (.pure fun _ _ => ⟨isFirst, trivial⟩)

theorem properties_builds :
    Builds answers Anywhere properties fun values _ => Property.AreFaithful values := by
  refine .next fun following _ => ?_
  split
  · exact .pass (.pure fun _ _ => trivial)
  · refine .pass (.andThen .propertyKey fun key isKey => ?_)
    refine .passing .colon (.pass (.andThen (expression_builds calls _ .comma)
      fun value isValue => .bind .betweenProperties fun _ => ?_))
    exact .andThen (calls .properties trivial) fun rest areRest =>
      .pure fun _ _ => ⟨isKey, isValue, areRest⟩

theorem parameters_builds :
    Builds answers Anywhere parameters fun values _ =>
      ∀ parameter ∈ values, parameter.IsVariable := by
  refine .bind (.expect .identifier) fun _ => ?_
  refine .currentOn (fun _ isOn => isOn) fun parameter isFound isName => ?_
  have isVariable := isFound.isVariable isName
  refine .next fun following _ => ?_
  split
  · exact .pass (.andThen (calls .parameters trivial) fun rest areRest =>
      .pure fun _ _ => List.forall_mem_cons.mpr ⟨isVariable, areRest⟩)
  · exact .passing .rightParen (.pure fun _ _ => by simpa using isVariable)

theorem parameterList_builds (before : Cursor → Prop) :
    Builds answers before parameterList fun values _ =>
      ∀ parameter ∈ values, parameter.IsVariable := by
  refine .next fun following _ => ?_
  split
  · exact .pass (.pure fun _ _ => by simp)
  · exact (calls .parameters trivial).anywhere

theorem blockBody_builds (before : Cursor → Prop) :
    Builds answers before blockBody fun body _ => Statement.AreFaithful body :=
  .pass (calls .block trivial)

section

variable {before : Cursor → Prop} {named : Bool}
  (isNamed : ∀ cursor, before cursor → named = true → cursor.next.kind = .identifier)

include isNamed

omit calls in
theorem functionName_builds :
    Builds answers before functionName fun name _ =>
      (named = true → name.isSome = true) ∧ ∀ token ∈ name, token.IsVariable := by
  refine .next fun following isFound => ?_
  split
  · rename_i isName
    refine .pass (.pure fun _ _ => ⟨fun _ => rfl, ?_⟩)
    rintro _ ⟨⟩
    exact isFound.isVariable isName
  · rename_i notName
    refine .known (named = true → False) ?_ fun unnamed => .pure fun _ _ =>
      ⟨fun isNamed => (unnamed isNamed).elim, by simp⟩
    rintro cursor ⟨isBefore, rfl⟩ isNamedToo
    exact notName (isNamed cursor isBefore isNamedToo)

/-- A function literal that a name follows is named. -/
theorem functionLiteral_builds (isOn : ∀ cursor, before cursor → cursor.On .functionWord) :
    Builds answers before functionLiteral fun literal _ =>
      (named = true → literal.name.isSome = true) ∧ literal.IsFaithful := by
  refine .current fun token isFound => .known (token.kind = .functionWord) ?_ fun isWord => ?_
  · rintro cursor ⟨isBefore, rfl⟩
    exact isOn cursor isBefore
  have isMark : token.unplaced = .plain .functionWord "function" :=
    isFound.unplaced_eq isWord (by decide)
  refine .andThen (functionName_builds fun cursor isBefore => isNamed cursor isBefore.1)
    fun name isName => .passing .leftParen ?_
  refine .andThen (parameterList_builds calls _) fun names areNames => .passing .leftBrace ?_
  exact .andThen (blockBody_builds calls _) fun inner isInner => .pure fun _ _ =>
    ⟨isName.1, isMark, isName.2, areNames, isInner⟩

end

theorem constructorArguments_builds (before : Cursor → Prop) :
    Builds answers before constructorArguments fun values _ => Expression.AreFaithful values := by
  refine .next fun following _ => ?_
  split
  · exact .pass (expressionList_builds calls _ .rightParen)
  · exact .pure fun _ _ => trivial

theorem operand_builds : Builds answers Anywhere operand fun value _ => value.IsFaithful := by
  refine .current fun token isFound => ?_
  split
  · rename_i operator stands
    exact nextExpression_builds calls _ .unary fun _ isInner => ⟨isFound.unary stands, isInner⟩
  · rename_i operator _ stands
    exact nextExpression_builds calls _ .unary fun _ isInner => ⟨isFound.update stands, isInner⟩
  · split
    · rename_i isName
      exact .pure fun _ _ => isFound.isVariable isName
    · rename_i isNumber
      exact .andThen (.numberValue token) fun _ isRead => .pure fun _ _ =>
        ⟨isNumber, isFound.isScanned (by rw [isNumber]; rfl), isRead⟩
    · rename_i isString
      have isScanned := isFound.isScanned (by rw [isString]; rfl)
      obtain ⟨quote, isQuote⟩ := Token.exists_quote isString isScanned
      refine .pure fun _ _ => ⟨isString, isScanned, ?_⟩
      rw [quoteOf, isQuote]
      rfl
    · rename_i isRegex
      unfold regexLiteral
      split
      · rename_i isSplit
        exact .pure fun _ _ => ⟨isFound.isRegex isRegex, isSplit⟩
      · exact .refuse _ _
    · rename_i isTrue
      exact .pure fun _ _ => isFound.unplaced_eq isTrue (by decide)
    · rename_i isFalse
      exact .pure fun _ _ => isFound.unplaced_eq isFalse (by decide)
    · rename_i isThis
      exact .pure fun _ _ => isFound.unplaced_eq isThis (by decide)
    · rename_i isWord
      refine .andThen (@functionLiteral_builds _ calls _ false ?_ ?_) fun literal isLiteral =>
        .pure fun _ _ => isLiteral.2
      · intro _ _ isNamed
        cases isNamed
      · rintro cursor ⟨-, rfl⟩
        exact isWord
    · rename_i isBracket
      exact .andThen (expressionList_builds calls _ .rightBracket) fun elements areElements =>
        .pure fun _ _ =>
          ⟨isFound.unplaced_eq isBracket (by decide), areElements⟩
    · rename_i isBrace
      exact .andThen (calls .properties trivial).anywhere fun parts areParts => .pure fun _ _ =>
        ⟨isFound.unplaced_eq isBrace (by decide), areParts⟩
    · exact .pass (.andThen (expression_builds calls _ _) fun value isValue =>
        .passing .rightParen (.pure fun _ _ => isValue))
    · rename_i isTypeof
      exact nextExpression_builds calls _ .unary fun _ isInner =>
        ⟨isFound.unplaced_eq isTypeof (by decide), isInner⟩
    · rename_i isDelete
      exact nextExpression_builds calls _ .unary fun _ isInner =>
        ⟨isFound.unplaced_eq isDelete (by decide), isInner⟩
    · rename_i isNew
      refine .pass (.andThen (expression_builds calls _ .call) fun constructor isConstructor => ?_)
      exact .andThen (constructorArguments_builds calls _) fun arguments areArguments =>
        .pure fun _ _ => ⟨isFound.unplaced_eq isNew (by decide),
          isConstructor, areArguments⟩
    · exact .refuse _ _
    · exact .refuse _ _
    · exact .refuse _ _

/-- An operator makes something faithful of its faithful left operand. -/
theorem operator_builds
    {before : Cursor → Prop}
    (isFound : token.IsFound)
    (binds : Precedence.ofKind token.kind ≠ .lowest)
    (isLeft : left.IsFaithful) :
    Builds answers before (operator token left) fun value _ => value.IsFaithful := by
  unfold operator
  split
  · rename_i operator stands
    exact nextExpression_builds calls _ _ fun _ isRight => ⟨isFound.between stands, isLeft, isRight⟩
  · rename_i operator _ stands
    exact nextExpression_builds calls _ .comma fun _ isValue =>
      ⟨stands, isFound.unplaced_of_matches AssignmentOperator.matches stands, isLeft, isValue⟩
  · rename_i operator _ _ stands
    exact .pure fun _ _ => ⟨isFound.update stands, isLeft⟩
  · rename_i notInfix notAssigned notUpdate
    split
    · rename_i isQuestion
      refine .pass (.andThen (expression_builds calls _ .comma) fun consequence isMet => ?_)
      exact .passing .colon (nextExpression_builds calls _ .comma fun _ isUnmet =>
        ⟨isFound.unplaced_eq isQuestion (by decide), isLeft, isMet,
          isUnmet⟩)
    · rename_i isComma
      exact nextExpression_builds calls _ .comma fun _ isRight => isFaithful_extendSequence
        (isFound.unplaced_eq isComma (by decide)) isLeft isRight
    · rename_i isParen
      exact .andThen (expressionList_builds calls _ .rightParen) fun arguments areArguments =>
        .pure fun _ _ => ⟨isFound.unplaced_eq isParen (by decide), isLeft,
          areArguments⟩
    · rename_i isDot
      refine .next fun property isFoundToo => ?_
      split
      · rename_i names
        exact .pass (.pure fun _ _ => ⟨isFound.unplaced_eq isDot (by decide), isLeft,
          isFoundToo.isNaming names, isFoundToo.isSpelled.namesProperty names⟩)
      · exact .refuseNext _
    · rename_i notQuestion notComma notParen notDot
      -- The operators that bind are all gone through but the bracket.
      have isBracket : token.kind = .leftBracket := by
        revert binds notInfix notAssigned notUpdate notQuestion notComma notParen notDot
        cases token.kind <;> simp [Precedence.ofKind, InfixOperator.ofKind?,
          AssignmentOperator.ofKind?, updateOperator?]
      refine .pass (.andThen (expression_builds calls _ .lowest) fun key isKey => ?_)
      exact .passing .rightBracket (.pure fun _ _ =>
        ⟨isFound.unplaced_eq isBracket (by decide), isLeft, isKey⟩)

theorem operators_builds (bound : Precedence) (isLeft : left.IsFaithful) :
    Builds answers Anywhere (operators bound left) fun value _ => value.IsFaithful := by
  refine .next fun token isFound => ?_
  split
  · exact .pure fun _ _ => isLeft
  · rename_i tighter
    have binds : Precedence.ofKind token.kind ≠ .lowest := by
      intro isLowest
      rw [isLowest] at tighter
      exact tighter (by cases bound <;> decide)
    split
    · exact .pure fun _ _ => isLeft
    · refine .pass (.andThen (operator_builds calls isFound binds isLeft)
        fun extended isExtended => ?_)
      exact calls (.operators bound extended) isExtended

/-! ## Statements -/

theorem expressionStatement_builds (before : Cursor → Prop) :
    Builds answers before expressionStatement fun made _ =>
      made.IsFaithful ∧ made.isOpen = false := by
  refine .current fun token _ =>
    .andThen (expression_builds calls _ .lowest) fun value isValue => ?_
  exact .bind .endStatement fun _ => .pure fun _ _ => ⟨isValue, rfl⟩

theorem initialValue_builds (before : Cursor → Prop) :
    Builds answers before initialValue fun value _ => Expression.OptionFaithful value := by
  refine .next fun following _ => ?_
  split
  · exact .pass (nextExpression_builds calls _ .comma fun _ isValue => isValue)
  · exact .pure fun _ _ => trivial

theorem declarators_builds :
    Builds answers (On .identifier) declarators fun made _ =>
      made ≠ [] ∧ Declarator.AreFaithful made := by
  refine .currentOn (fun _ isOn => isOn) fun name isFound isName => ?_
  have isVariable := isFound.isVariable isName
  refine .andThen (initialValue_builds calls _) fun value isValue => .next fun following _ => ?_
  split
  · refine .pass (.bind (.expect .identifier) fun _ => ?_)
    exact .andThen (calls .declarators trivial) fun rest areRest => .pure fun _ _ =>
      ⟨List.cons_ne_nil _ _, isVariable, isValue, areRest.2⟩
  · exact .pure fun _ _ => ⟨List.cons_ne_nil _ _, isVariable, isValue, trivial⟩

theorem condition_builds (before : Cursor → Prop) :
    Builds answers before condition fun value _ => value.IsFaithful :=
  .passing .leftParen (.pass (.andThen (expression_builds calls _ .lowest) fun _ isValue =>
    .passing .rightParen (.pure fun _ _ => isValue)))

/-- What a control word governs is a statement, and no `else` is left to an open one. -/
theorem body_builds (before : Cursor → Prop) :
    Builds answers before body fun made cursor =>
      made.IsFaithful ∧ (made.isOpen = true → cursor.next.kind ≠ .elseWord) := by
  refine .pass (.current fun token _ => ?_)
  split
  · exact .refuse _ _
  · exact (calls .statement trivial).anywhere

theorem statement_builds_faithful (before : Cursor → Prop) :
    Builds answers before (read .statement) fun made _ => made.IsFaithful :=
  (calls .statement trivial).weaken (fun _ _ => trivial) fun _ _ isMade => isMade.1

theorem block_builds : Builds answers Anywhere block fun made _ => Statement.AreFaithful made := by
  refine .current fun token _ => ?_
  split
  · exact .pure fun _ _ => trivial
  · split
    · exact .refuse _ _
    · refine .andThen (statement_builds_faithful calls _) fun first isFirst => .pass ?_
      exact .andThen (calls .block trivial) fun rest areRest => .pure fun _ _ => ⟨isFirst, areRest⟩

/-- What stands behind a branch that may be open is its own `else`, if it is one. -/
theorem alternative_builds (token : Token) (condition : Expression) (consequence : Statement) :
    Builds answers
      (fun cursor => consequence.IsFaithful ∧
        (consequence.isOpen = true → cursor.next.kind ≠ .elseWord))
      alternative fun made cursor =>
        (consequence.IsFaithful ∧ (made.isSome = true → consequence.isOpen = false) ∧
          Statement.OptionFaithful made) ∧
        ((Statement.branch token condition consequence made).isOpen = true →
          cursor.next.kind ≠ .elseWord) := by
  refine .known consequence.IsFaithful (fun _ isBefore => isBefore.1) fun isConsequence => ?_
  refine .next fun following _ => ?_
  split
  · rename_i isElse
    refine .known (consequence.isOpen = false) ?_ fun isClosed => ?_
    · rintro cursor ⟨⟨-, notElse⟩, rfl⟩
      exact Bool.eq_false_iff.mpr fun isOpen => notElse isOpen isElse
    · refine .pass (.bind (body_builds calls _) fun inner => .pure fun cursor isInner => ?_)
      exact ⟨⟨isConsequence, fun _ => isClosed, isInner.1⟩, isInner.2⟩
  · rename_i notElse
    refine .pure ?_
    rintro cursor ⟨-, rfl⟩
    exact ⟨⟨isConsequence, nofun, trivial⟩, fun _ => notElse⟩

theorem expressionUnless_builds (before : Cursor → Prop) (kind : TokenKind) :
    Builds answers before (expressionUnless kind) fun value _ =>
      Expression.OptionFaithful value := by
  refine .next fun following _ => ?_
  split
  · exact .pure fun _ _ => trivial
  · exact nextExpression_builds calls _ .lowest fun _ isValue => isValue

section

variable (isFor : token.unplaced = .plain .forWord "for")

include isFor

theorem forRest_builds
    (start : Option Statement)
    (starts : start.all Statement.startsLoop = true)
    (isStart : Statement.OptionFaithful start)
    (before : Cursor → Prop) :
    Builds answers before (forRest token start) fun made cursor =>
      made.IsFaithful ∧ (made.isOpen = true → cursor.next.kind ≠ .elseWord) := by
  refine .andThen (expressionUnless_builds calls _ _) fun tested isTested => ?_
  refine .passing .semicolon
    (.andThen (expressionUnless_builds calls _ _) fun update isUpdate => ?_)
  refine .passing .rightParen (.bind (body_builds calls _) fun inner => ?_)
  exact .pure fun _ isInner =>
    ⟨⟨isFor, starts, isStart, isTested, isUpdate, isInner.1⟩, isInner.2⟩

theorem forInRest_builds (declares : Bool) :
    Builds answers (On .identifier) (forInRest token declares) fun made cursor =>
      made.IsFaithful ∧ (made.isOpen = true → cursor.next.kind ≠ .elseWord) := by
  refine .currentOn (fun _ isOn => isOn) fun name isFound isName => .pass (.pass ?_)
  refine .andThen (expression_builds calls _ .lowest) fun subject isSubject => ?_
  refine .passing .rightParen (.bind (body_builds calls _) fun inner => ?_)
  exact .pure fun _ isInner =>
    ⟨⟨isFor, isFound.isVariable isName, isSubject, isInner.1⟩, isInner.2⟩

theorem forDeclared_builds :
    Builds answers (On .varWord) (forDeclared token) fun made cursor =>
      made.IsFaithful ∧ (made.isOpen = true → cursor.next.kind ≠ .elseWord) := by
  refine .currentOn (fun _ isOn => isOn) fun word isFound isVar => ?_
  have isMark : word.unplaced = .plain .varWord "var" := isFound.unplaced_eq isVar (by decide)
  refine .bind (.expect .identifier) fun _ => .next fun following _ => ?_
  split
  · exact (forInRest_builds calls isFor true).starting fun _ isBefore => isBefore.1
  · refine .andThen ((calls .declarators trivial).starting fun _ isBefore => isBefore.1)
      fun parts areParts => .passing .semicolon ?_
    exact forRest_builds calls isFor (some (.declare word parts)) rfl ⟨isMark, areParts⟩ _

theorem forEvaluated_builds (first : Token) (before : Cursor → Prop) :
    Builds answers before (forEvaluated token first) fun made cursor =>
      made.IsFaithful ∧ (made.isOpen = true → cursor.next.kind ≠ .elseWord) :=
  .andThen (expression_builds calls _ .lowest) fun value isValue =>
    .passing .semicolon (forRest_builds calls isFor (some (.expression first value)) rfl isValue _)

theorem forStatement_builds (before : Cursor → Prop) :
    Builds answers before (forStatement token) fun made cursor =>
      made.IsFaithful ∧ (made.isOpen = true → cursor.next.kind ≠ .elseWord) := by
  refine .passing .leftParen (.next fun following _ => ?_)
  split
  · exact .pass (forRest_builds calls isFor none rfl trivial _)
  · split
    · rename_i isVar
      refine .bind (.advance ?_) fun _ => forDeclared_builds calls isFor
      rintro cursor ⟨-, rfl⟩
      rw [On, Cursor.current_advance]
      exact isVar
    · refine .pass (.current fun first _ => ?_)
      split
      · rename_i isName
        refine .next fun following _ => ?_
        split
        · refine (forInRest_builds calls isFor false).starting ?_
          rintro cursor ⟨⟨-, rfl⟩, -⟩
          exact isName
        · exact forEvaluated_builds calls isFor first _
      · exact forEvaluated_builds calls isFor first _

end

theorem clauseBody_builds :
    Builds answers Anywhere clauseBody fun made _ => Statement.AreFaithful made := by
  refine .current fun token _ => ?_
  split
  · exact .pure fun _ _ => trivial
  · exact .pure fun _ _ => trivial
  · exact .pure fun _ _ => trivial
  · exact .refuse _ _
  · refine .andThen (statement_builds_faithful calls _) fun first isFirst => .pass ?_
    exact .andThen (calls .clauseBody trivial) fun rest areRest =>
      .pure fun _ _ => ⟨isFirst, areRest⟩

theorem clauses_builds (hasDefault : Bool) :
    Builds answers Anywhere (clauses hasDefault) fun made _ =>
      Clause.AreFaithful hasDefault made := by
  refine .current fun token isFound => ?_
  have clauseBehind {before : Cursor → Prop} {tested : Option Expression}
      (isMark : token.unplaced = clauseMark tested)
      (once : hasDefault = true → tested.isSome = true)
      (isTested : Expression.OptionFaithful tested) :
      Builds answers before
        (expect .colon >>= fun _ => advance >>= fun _ => read .clauseBody >>= fun inner =>
          read (.clauses (hasDefault || tested.isNone)) >>= fun rest =>
            pure (Clause.mk token tested inner :: rest))
        fun made _ => Clause.AreFaithful hasDefault made := by
    refine .passing .colon (.pass (.andThen (calls .clauseBody trivial) fun inner isInner => ?_))
    exact .andThen (calls (.clauses (hasDefault || tested.isNone)) trivial)
      fun rest areRest => .pure fun _ _ =>
      ⟨isMark, once, isTested, isInner, areRest⟩
  split
  · exact .pure fun _ _ => trivial
  · rename_i isCase
    refine .pass (.andThen (expression_builds calls _ .lowest) fun tested isTested => ?_)
    have behind := @clauseBehind Anywhere (some tested) (isFound.unplaced_eq isCase (by decide))
      (fun _ => rfl) isTested
    rwa [Option.isNone_some, Bool.or_false] at behind
  · rename_i isDefault
    split
    · exact .refuse _ _
    · rename_i first
      have behind := @clauseBehind Anywhere none (isFound.unplaced_eq isDefault (by decide))
        (fun second => absurd second first) trivial
      rw [Option.isNone_none, Bool.or_true] at behind
      exact behind.anywhere
  · exact .refuse _ _
  · exact .refuse _ _

/-- No `else` comes next behind an open statement, which would have taken it. -/
theorem statement_builds :
    Builds answers Anywhere statement fun made cursor =>
      made.IsFaithful ∧ (made.isOpen = true → cursor.next.kind ≠ .elseWord) := by
  refine .current fun token isFound => ?_
  have evaluates (before : Cursor → Prop) :
      Builds answers before expressionStatement fun made cursor =>
        made.IsFaithful ∧ (made.isOpen = true → cursor.next.kind ≠ .elseWord) := by
    refine (expressionStatement_builds calls before).weaken (fun _ isBefore => isBefore) ?_
    rintro made _ ⟨isMade, isClosed⟩
    exact ⟨isMade, fun isOpen => nomatch isClosed.symm.trans isOpen⟩
  split
  · rename_i isVar
    refine .bind (.expect .identifier) fun _ => .andThen (calls .declarators trivial)
      fun parts areParts => .bind .endStatement fun _ => .pure fun _ _ => ?_
    exact ⟨⟨isFound.unplaced_eq isVar (by decide), areParts⟩, nofun⟩
  · rename_i isReturn
    have isMark : token.unplaced = .plain .returnWord "return" :=
      isFound.unplaced_eq isReturn (by decide)
    refine .next fun following _ => ?_
    split
    · exact .bind .endStatement fun _ => .pure fun _ _ => ⟨⟨isMark, trivial⟩, nofun⟩
    · refine .pass (.andThen (expression_builds calls _ .lowest) fun value isValue => ?_)
      exact .bind .endStatement fun _ => .pure fun _ _ => ⟨⟨isMark, isValue⟩, nofun⟩
  · rename_i isIf
    refine .andThen (condition_builds calls _) fun tested isTested => ?_
    refine .bind (body_builds calls _) fun consequence => ?_
    refine .bind (alternative_builds calls token tested consequence) fun otherwise => ?_
    exact .pure fun _ isMade =>
      ⟨⟨isFound.unplaced_eq isIf (by decide), isTested, isMade.1⟩, isMade.2⟩
  · rename_i isWhile
    refine .andThen (condition_builds calls _) fun tested isTested => ?_
    refine .bind (body_builds calls _) fun inner => .pure fun _ isInner => ?_
    exact ⟨⟨isFound.unplaced_eq isWhile (by decide), isTested, isInner.1⟩, isInner.2⟩
  · rename_i isFor
    exact forStatement_builds calls (isFound.unplaced_eq isFor (by decide)) _
  · rename_i isBreak
    refine .andThen .jumpLabel fun label isLabel => .bind .endStatement fun _ => .pure fun _ _ => ?_
    exact ⟨⟨isFound.unplaced_eq isBreak (by decide), isLabel⟩, nofun⟩
  · rename_i isContinue
    refine .andThen .jumpLabel fun label isLabel => .bind .endStatement fun _ => .pure fun _ _ => ?_
    exact ⟨⟨isFound.unplaced_eq isContinue (by decide), isLabel⟩, nofun⟩
  · rename_i isSwitch
    refine .andThen (condition_builds calls _) fun subject isSubject => ?_
    refine .passing .leftBrace (.pass (.andThen (calls (.clauses false) trivial)
      fun parts areParts => .pure fun _ _ => ?_))
    exact ⟨⟨isFound.unplaced_eq isSwitch (by decide), isSubject, areParts⟩, nofun⟩
  · rename_i isBrace
    refine .andThen (blockBody_builds calls _) fun inner isInner => .pure fun _ _ => ?_
    exact ⟨⟨isFound.unplaced_eq isBrace (by decide), isInner⟩, nofun⟩
  · rename_i isSemicolon
    exact .pure fun _ _ => ⟨isFound.unplaced_eq isSemicolon (by decide), nofun⟩
  · rename_i isWord
    refine .next fun following _ => ?_
    split
    · rename_i isName
      refine .andThen (@functionLiteral_builds _ calls _ true ?_ ?_) fun literal isLiteral =>
        .pure fun _ _ => ⟨⟨isFound.unplaced_eq isWord (by decide), isLiteral.1 rfl, isLiteral.2⟩,
          nofun⟩
      · rintro cursor ⟨-, rfl⟩ -
        exact isName
      · rintro cursor ⟨⟨-, rfl⟩, -⟩
        exact isWord
    · exact evaluates _
  · rename_i isName
    refine .next fun following _ => ?_
    split
    · refine .pass (.bind (body_builds calls _) fun inner => .pure fun _ isInner => ?_)
      exact ⟨⟨isFound.isVariable isName, isInner.1⟩, isInner.2⟩
    · exact evaluates _
  · exact evaluates _

/-- Every reader builds what is faithful when the readers that it calls do. -/
theorem script_builds (task : Task α) (given : task.GivenFaithful) :
    Builds answers task.StartsOn task.script task.MakesFaithful := by
  cases task with
  | statement => exact statement_builds calls
  | declarators => exact declarators_builds calls
  | block => exact block_builds calls
  | clauses hasDefault => exact clauses_builds calls hasDefault
  | clauseBody => exact clauseBody_builds calls
  | parameters => exact parameters_builds calls
  | expression bound =>
      exact .andThen (operand_builds calls) fun left isLeft => calls (.operators bound left) isLeft
  | operators bound left => exact operators_builds calls bound given
  | list closing => exact list_builds calls closing
  | properties => exact properties_builds calls

end

/-! ## Programs -/

/-- With any budget every reader builds what is faithful. -/
theorem answers_build (budget : Nat) : (Task.answers budget).Build := by
  induction budget with
  | zero => rintro α task given reading _ _ - - ⟨⟩
  | succ budget inductionHypothesis =>
      intro α task given reading value later found starts isRun
      rw [Script.run_read] at isRun
      exact script_builds inductionHypothesis task given reading value later found starts isRun

/-- Statements that follow each other are faithful. -/
theorem Follows.areFaithful
    {budget : Nat}
    {start stop : Cursor}
    {statements : List Statement}
    (follows : Follows budget start statements stop)
    (found : start.Holds Token.IsFound) :
    Statement.AreFaithful statements := by
  induction follows with
  | none cursor => trivial
  | @more start stop last first rest _ gives _ inductionHypothesis =>
      obtain ⟨⟨isFirst, -⟩, foundLater⟩ :=
        answers_build budget .statement trivial ⟨start, [], false⟩ first _ found trivial
          (gives ⟨start, [], false⟩ rfl)
      exact ⟨isFirst, inductionHypothesis foundLater.advance⟩

end Parser

namespace Program

open Token ScriptEngine.Parser

/-- Every statement of a text that is read is faithful. -/
theorem areFaithful_of_scanChars (source : Source) (width : Char → Nat) (text : List Char) :
    Statement.AreFaithful (ofTokens source (scanChars width text)).program.statements := by
  have found : (Cursor.ofTokens (scanChars width text)).Holds Token.IsFound := by
    obtain ⟨before, last, isScan, -⟩ :=
      (scanFrom_cut width none [] (Nat.lt_succ_self text.length)).ends_once
    have notEmpty : scanChars width text ≠ [] := by
      rw [show scanChars width text = before ++ [last] from isScan]
      exact List.concat_ne_nil last before
    exact .ofTokens notEmpty fun token member => isFound_of_mem_scanFrom member
  obtain ⟨last, follows, -⟩ :=
    statementsFrom_follows ((scanChars width text).length + 1)
      (budget (scanChars width text).length)
      (show (⟨.ofTokens (scanChars width text), [], false⟩ : Reading).failures = [] from rfl)
  exact follows.areFaithful found

end Program

/-! ## Expressions in faithful trees -/

section

variable {holds : Expression → Prop}

mutual

/-- What holds of faithful expressions holds of every expression in one. -/
theorem Expression.faithful_everywhere
    (given : ∀ expression : Expression, expression.IsFaithful → holds expression) :
    ∀ {expression : Expression}, expression.IsFaithful →
      expression.Everywhere holds
  | .name _, faithful | .number _ _, faithful | .string _ _, faithful | .boolean _ _, faithful
  | .regex _ _ _, faithful | .this _, faithful => given _ faithful
  | .function _, faithful => ⟨given _ faithful, FunctionLiteral.faithful_everywhere given faithful⟩
  | .array _ _, faithful => ⟨given _ faithful, Expression.faithful_allEverywhere given faithful.2⟩
  | .object _ _, faithful => ⟨given _ faithful, Property.faithful_allEverywhere given faithful.2⟩
  | .unary _ _ _, faithful | .typeof _ _, faithful | .delete _ _, faithful
  | .update _ _ _ _, faithful => ⟨given _ faithful, Expression.faithful_everywhere given faithful.2⟩
  | .binary _ _ _ _, faithful =>
      ⟨given _ faithful, Expression.faithful_everywhere given faithful.2.1,
        Expression.faithful_everywhere given faithful.2.2⟩
  | .assign _ _ _ _, faithful =>
      ⟨given _ faithful, Expression.faithful_everywhere given faithful.2.2.1,
        Expression.faithful_everywhere given faithful.2.2.2⟩
  | .conditional _ _ _ _, faithful =>
      ⟨given _ faithful, Expression.faithful_everywhere given faithful.2.1,
        Expression.faithful_everywhere given faithful.2.2.1,
        Expression.faithful_everywhere given faithful.2.2.2⟩
  | .sequence _ _ _, faithful =>
      ⟨given _ faithful, Expression.faithful_everywhere given faithful.2.1,
        Expression.faithful_allEverywhere given faithful.2.2.2.2⟩
  | .call _ _ _, faithful | .construct _ _ _, faithful =>
      ⟨given _ faithful, Expression.faithful_everywhere given faithful.2.1,
        Expression.faithful_allEverywhere given faithful.2.2⟩
  | .member _ _ _, faithful => ⟨given _ faithful, Expression.faithful_everywhere given faithful.2.1⟩
  | .index _ _ _, faithful =>
      ⟨given _ faithful, Expression.faithful_everywhere given faithful.2.1,
        Expression.faithful_everywhere given faithful.2.2⟩

/-- What holds of faithful expressions holds of every expression in some. -/
theorem Expression.faithful_allEverywhere
    (given : ∀ expression : Expression, expression.IsFaithful → holds expression) :
    ∀ {expressions : List Expression}, Expression.AreFaithful expressions →
      Expression.AllEverywhere holds expressions
  | [], _ => trivial
  | _ :: _, faithful =>
      ⟨Expression.faithful_everywhere given faithful.1,
        Expression.faithful_allEverywhere given faithful.2⟩

/-- What holds of faithful expressions holds of every expression in one, if any. -/
theorem Expression.faithful_optionEverywhere
    (given : ∀ expression : Expression, expression.IsFaithful → holds expression) :
    ∀ {expression : Option Expression}, Expression.OptionFaithful expression →
      Expression.OptionEverywhere holds expression
  | none, _ => trivial
  | some _, faithful => Expression.faithful_everywhere given faithful

/-- What holds of faithful expressions holds of every expression in faithful properties. -/
theorem Property.faithful_allEverywhere
    (given : ∀ expression : Expression, expression.IsFaithful → holds expression) :
    ∀ {properties : List Property}, Property.AreFaithful properties →
      Property.AllEverywhere holds properties
  | [], _ => trivial
  | .mk _ _ :: _, faithful =>
      ⟨Expression.faithful_everywhere given faithful.2.1,
        Property.faithful_allEverywhere given faithful.2.2⟩

/-- What holds of faithful expressions holds of every expression in a faithful function. -/
theorem FunctionLiteral.faithful_everywhere
    (given : ∀ expression : Expression, expression.IsFaithful → holds expression) :
    ∀ {literal : FunctionLiteral}, literal.IsFaithful → literal.Everywhere holds
  | .mk _ _ _ _, faithful => Statement.faithful_allEverywhere given faithful.2.2.2

/-- What holds of faithful expressions holds of every expression in faithful declared variables. -/
theorem Declarator.faithful_allEverywhere
    (given : ∀ expression : Expression, expression.IsFaithful → holds expression) :
    ∀ {declarators : List Declarator}, Declarator.AreFaithful declarators →
      Declarator.AllEverywhere holds declarators
  | [], _ => trivial
  | .mk _ _ :: _, faithful =>
      ⟨Expression.faithful_optionEverywhere given faithful.2.1,
        Declarator.faithful_allEverywhere given faithful.2.2⟩

/-- What holds of faithful expressions holds of every expression in faithful clauses. -/
theorem Clause.faithful_allEverywhere
    (given : ∀ expression : Expression, expression.IsFaithful → holds expression) :
    ∀ {clauses : List Clause} {hasDefault : Bool}, Clause.AreFaithful hasDefault clauses →
      Clause.AllEverywhere holds clauses
  | [], _, _ => trivial
  | .mk _ _ _ :: _, _, faithful =>
      ⟨Expression.faithful_optionEverywhere given faithful.2.2.1,
        Statement.faithful_allEverywhere given faithful.2.2.2.1,
        Clause.faithful_allEverywhere given faithful.2.2.2.2⟩

/-- What holds of faithful expressions holds of every expression in a faithful statement. -/
theorem Statement.faithful_everywhere
    (given : ∀ expression : Expression, expression.IsFaithful → holds expression) :
    ∀ {statement : Statement}, statement.IsFaithful → statement.Everywhere holds
  | .declare _ _, faithful => Declarator.faithful_allEverywhere given faithful.2.2
  | .giveBack _ _, faithful => Expression.faithful_optionEverywhere given faithful.2
  | .expression _ _, faithful => Expression.faithful_everywhere given faithful
  | .empty _, _ | .leave _ _, _ | .again _ _, _ => trivial
  | .block _ _, faithful => Statement.faithful_allEverywhere given faithful.2
  | .branch _ _ _ _, faithful =>
      ⟨Expression.faithful_everywhere given faithful.2.1,
        Statement.faithful_everywhere given faithful.2.2.1,
        Statement.faithful_optionEverywhere given faithful.2.2.2.2⟩
  | .whileLoop _ _ _, faithful =>
      ⟨Expression.faithful_everywhere given faithful.2.1,
        Statement.faithful_everywhere given faithful.2.2⟩
  | .forLoop _ _ _ _ _, faithful =>
      ⟨Statement.faithful_optionEverywhere given faithful.2.2.1,
        Expression.faithful_optionEverywhere given faithful.2.2.2.1,
        Expression.faithful_optionEverywhere given faithful.2.2.2.2.1,
        Statement.faithful_everywhere given faithful.2.2.2.2.2⟩
  | .forIn _ _ _ _ _, faithful =>
      ⟨Expression.faithful_everywhere given faithful.2.2.1,
        Statement.faithful_everywhere given faithful.2.2.2⟩
  | .labeled _ body, faithful =>
      show body.Everywhere holds from Statement.faithful_everywhere given faithful.2
  | .select _ _ _, faithful =>
      ⟨Expression.faithful_everywhere given faithful.2.1,
        Clause.faithful_allEverywhere given faithful.2.2⟩
  | .function _ _, faithful => FunctionLiteral.faithful_everywhere given faithful.2.2

/-- What holds of faithful expressions holds of every expression in faithful statements. -/
theorem Statement.faithful_allEverywhere
    (given : ∀ expression : Expression, expression.IsFaithful → holds expression) :
    ∀ {statements : List Statement}, Statement.AreFaithful statements →
      Statement.AllEverywhere holds statements
  | [], _ => trivial
  | _ :: _, faithful =>
      ⟨Statement.faithful_everywhere given faithful.1,
        Statement.faithful_allEverywhere given faithful.2⟩

/-- What holds of faithful expressions holds of every expression in a faithful statement, if any. -/
theorem Statement.faithful_optionEverywhere
    (given : ∀ expression : Expression, expression.IsFaithful → holds expression) :
    ∀ {statement : Option Statement}, Statement.OptionFaithful statement →
      Statement.OptionEverywhere holds statement
  | none, _ => trivial
  | some _, faithful => Statement.faithful_everywhere given faithful

end

end

end ScriptEngine
