import ScriptEngine.Proofs.Code.Induction
import ScriptEngine.Proofs.Code.Rewriting
import ScriptEngine.Proofs.Program.Everywhere

namespace ScriptEngine

/-!
# Programs that are lowered twice

A program may be lowered twice: for another source, beside other functions, or without its
assertions.  A comparison says how the code of either lowering is rewritten so that both are the
same.  What is lowered of a program keeps to a comparison if that does which lowering knows of the
program around it: its source, the functions finished before, and whether it checks assertions.
-/

/-- The context of the same statement in a program of another source. -/
def LoweringContext.within
    (context : LoweringContext)
    (source : Source)
    (assertions : Bool) :
    LoweringContext :=
  { context with source, assertions }

namespace Lowering

/-- What stands in the syntax is as known. -/
def Claims.standing (holds : Expression → Prop) : Claims where
  ofExpression expression _ := expression.Standing holds
  ofPlace _ _ := True
  ofExpressions expressions _ := Expression.AllStanding holds expressions
  ofOption expression _ := Expression.OptionStanding holds expression
  ofProperties properties _ := Property.AllStanding holds properties
  ofFunction literal _ := literal.Standing holds
  ofDeclarators declarators _ := Declarator.AllStanding holds declarators
  ofClauses clauses _ := Clause.AllStanding holds clauses
  ofStatement statement _ := statement.Standing holds
  ofStatements statements _ := Statement.AllStanding holds statements
  ofStatementOption statement _ := Statement.OptionStanding holds statement
  ofAlternative statement _ := Statement.OptionStanding holds statement

/-- What holds of every expression holds of what stands anywhere. -/
theorem Claims.standing_cases
    {holds : Expression → Prop}
    (all : ∀ expression, holds expression) :
    (standing holds).Cases := by
  refine ⟨?_, ?_, ?_⟩ <;> constructor <;> intros <;>
    simp_all [standing, Expression.Standing, Expression.AllStanding, Expression.OptionStanding,
      Property.AllStanding, FunctionLiteral.Standing, Declarator.AllStanding, Clause.AllStanding,
      Statement.Standing, Statement.AllStanding, Statement.OptionStanding]

/-- How two lowerings are compared.  Statements that assert something are looked at apart. -/
structure Comparison where
  first : Rewriting
  second : Rewriting
  /-- The functions that are finished in front. -/
  beside : Array Routine → Array Routine → Prop
  /-- The sources of the programs, and whether their assertions are checked. -/
  around : Source → Bool → Source → Bool → Prop
  /-- The errors by which both are refused. -/
  refuses : ScriptError → ScriptError → Prop
  /-- Whether nothing is said of what the first lowering refuses. -/
  ignores : Prop
  /-- What is known of the expressions that are statements. -/
  standing : Expression → Prop
  places : ∀ {source checks other otherChecks}, around source checks other otherChecks →
    ∀ token : Token, first.position (token.position source) = second.position (token.position other)
  errors : ∀ {source checks other otherChecks}, around source checks other otherChecks →
    ∀ (token : Token) fault, refuses ⟨.lowering fault, some (token.position source)⟩
      ⟨.lowering fault, some (token.position other)⟩
  numbers : ∀ {routines others}, beside routines others →
    first.number routines.size = second.number others.size
  keeps : ∀ {routines others routine other}, beside routines others →
    Routine.rewritten first routine = Routine.rewritten second other →
    beside (routines.push routine) (others.push other)

namespace Comparison

/-- Two lowerings come to results that are the same in a comparison. -/
inductive Alike (comparison : Comparison) (core : Rewriting → α → β) :
    Except ScriptError (α × Array Routine) → Except ScriptError (α × Array Routine) → Prop where
  | accepted {value twin : α} {after left : Array Routine} :
      core comparison.first value = core comparison.second twin →
      comparison.beside after left →
      Alike comparison core (.ok (value, after)) (.ok (twin, left))
  | refused {error failure : ScriptError} :
      comparison.refuses error failure →
      Alike comparison core (.error error) (.error failure)
  | ignored {error : ScriptError} {result : Except ScriptError (α × Array Routine)} :
      comparison.ignores →
      Alike comparison core (.error error) result

/-- Two steps of lowering are the same in a comparison. -/
def Agree
    (comparison : Comparison)
    (core : Rewriting → α → β)
    (step other : Lowering α) :
    Prop :=
  ∀ routines others, comparison.beside routines others →
    comparison.Alike core (step routines) (other others)

/-- What two contexts know of the programs around, whatever targets jumps have in them. -/
abbrev Around (comparison : Comparison) (context other : LoweringContext) : Prop :=
  comparison.around context.source context.assertions other.source other.assertions

namespace Agree

variable {comparison : Comparison} {core : Rewriting → α → β} {later : Rewriting → γ → δ}

theorem pure {value twin : α} (same : core comparison.first value = core comparison.second twin) :
    comparison.Agree core (pure value) (pure twin) :=
  fun _ _ beside => .accepted same beside

/-- Steps that go on from results of which a part is compared. -/
theorem bind
    {step other : Lowering α}
    {next following : α → Lowering γ}
    (firstAgrees : comparison.Agree core step other)
    (nextAgrees : ∀ value twin, core comparison.first value = core comparison.second twin →
      comparison.Agree later (next value) (following twin)) :
    comparison.Agree later (step >>= next) (other >>= following) := by
  intro routines others beside
  have alike := firstAgrees routines others beside
  change comparison.Alike later (Except.bind (step routines) fun result => next result.1 result.2)
    (Except.bind (other others) fun result => following result.1 result.2)
  revert alike
  generalize step routines = result, other others = twin
  intro alike
  cases alike with
  | accepted same beside => exact nextAgrees _ _ same _ _ beside
  | refused refuses => exact .refused refuses
  | ignored ignores => exact .ignored ignores

/-- Steps that go on from the same result. -/
theorem bindSame
    {step other : Lowering α}
    {next following : α → Lowering γ}
    (firstAgrees : comparison.Agree (fun _ => id) step other)
    (nextAgrees : ∀ value, comparison.Agree later (next value) (following value)) :
    comparison.Agree later (step >>= next) (other >>= following) := by
  refine firstAgrees.bind fun value twin same => ?_
  obtain rfl : value = twin := same
  exact nextAgrees value

/-- Steps that go on from a place, if there is one. -/
theorem bindPlace
    {step other : Lowering (Option Place)}
    {next following : Option Place → Lowering γ}
    (firstAgrees : comparison.Agree (fun rewriting => Option.map (Place.rewritten rewriting))
      step other)
    (noneAgrees : comparison.Agree later (next none) (following none))
    (someAgrees : ∀ place twin,
      Place.rewritten comparison.first place = Place.rewritten comparison.second twin →
      comparison.Agree later (next (some place)) (following (some twin))) :
    comparison.Agree later (step >>= next) (other >>= following) := by
  refine firstAgrees.bind fun value twin same => ?_
  cases value with
  | none =>
      cases twin with
      | none => exact noneAgrees
      | some twin => cases same
  | some value =>
      cases twin with
      | none => cases same
      | some twin => exact someAgrees value twin (Option.some.inj same)

/-- A statement that is never left out, under labels or with its own. -/
theorem underLabels
    (labels : List String)
    {action twin : Action}
    (same : action.rewritten comparison.first = twin.rewritten comparison.second)
    (kept : action.isLeftOut comparison.first = false)
    (twinKept : twin.isLeftOut comparison.second = false) :
    comparison.Agree Action.rewrittenOption
      (Pure.pure (ScriptEngine.underLabels labels (some action)))
      (Pure.pure (ScriptEngine.underLabels labels (some twin))) := by
  refine .pure ?_
  rw [Action.rewrittenOption_underLabels, Action.rewrittenOption_underLabels,
    Action.rewrittenOption, Action.rewrittenOption, kept, twinKept, same]

/-- A choice by what both programs have in common. -/
theorem choose
    {condition : Prop}
    [Decidable condition]
    {met meeting unmet missing : Lowering α}
    (metAgrees : comparison.Agree core met meeting)
    (unmetAgrees : comparison.Agree core unmet missing) :
    comparison.Agree core (if condition then met else unmet)
      (if condition then meeting else missing) := by
  split
  · exact metAgrees
  · exact unmetAgrees

variable {context other : LoweringContext} (around : comparison.Around context other)
include around

theorem refuse (token : Token) (fault : LoweringFault) :
    comparison.Agree core (context.refuse token fault) (other.refuse token fault) :=
  fun _ _ _ => .refused (comparison.errors around token fault)

theorem decode (token : Token) :
    comparison.Agree (fun _ => id) (context.decode token) (other.decode token) := by
  unfold LoweringContext.decode
  split
  · exact .pure rfl
  · exact .refuse around token _

theorem propertyName (key : PropertyKey) :
    comparison.Agree (fun _ => id) (context.propertyName key) (other.propertyName key) := by
  cases key with
  | name token => exact .pure rfl
  | string token quote => exact .decode around token
  | number token value => exact .pure rfl

theorem compilePattern (token : Token) (source flags : String) :
    comparison.Agree (fun _ => id) (context.compilePattern token source flags)
      (other.compilePattern token source flags) := by
  unfold LoweringContext.compilePattern
  split
  · exact .pure rfl
  · exact .refuse around token _

theorem require (token : Token) (fault : LoweringFault) (found : Option γ) :
    comparison.Agree (fun _ => id) (context.require token fault found)
      (other.require token fault found) := by
  cases found with
  | some value => exact .pure rfl
  | none => exact .refuse around token fault

end Agree

/-- A function is kept on both sides, under the next number. -/
theorem agree_keepRoutine
    {comparison : Comparison}
    (name : String)
    (parameters : List String)
    {body twin : List Action}
    (same : Action.rewrittenAll comparison.first body = Action.rewrittenAll comparison.second twin)
    (endsInReturn : Bool) :
    comparison.Agree Routine.rewritten (keepRoutine name parameters body endsInReturn)
      (keepRoutine name parameters twin endsInReturn) := by
  intro routines others beside
  have sameRoutine :
      Routine.rewritten comparison.first ⟨routines.size, name, parameters, body, endsInReturn⟩ =
        Routine.rewritten comparison.second ⟨others.size, name, parameters, twin, endsInReturn⟩ := by
    rw [Routine.rewritten, Routine.rewritten, comparison.numbers beside, same]
  exact .accepted sameRoutine (comparison.keeps beside sameRoutine)

/-- Two lowerings of any syntax agree, where the expressions that are statements are as known.
A statement is lowered twice among the same targets of jumps, an expression anywhere. -/
def claims (comparison : Comparison) : Claims where
  ofExpression expression step := ∀ context other, comparison.Around context other →
    expression.Standing comparison.standing →
    comparison.Agree Term.rewritten (step context) (step other)
  ofPlace expression step := ∀ context other, comparison.Around context other →
    expression.Standing comparison.standing →
    comparison.Agree (fun rewriting => Option.map (Place.rewritten rewriting)) (step context)
      (step other)
  ofExpressions expressions step := ∀ context other, comparison.Around context other →
    Expression.AllStanding comparison.standing expressions →
    comparison.Agree Term.rewrittenAll (step context) (step other)
  ofOption expression step := ∀ context other, comparison.Around context other →
    Expression.OptionStanding comparison.standing expression →
    comparison.Agree Term.rewrittenOption (step context) (step other)
  ofProperties properties step := ∀ context other, comparison.Around context other →
    Property.AllStanding comparison.standing properties →
    comparison.Agree Entry.rewrittenAll (step context) (step other)
  ofFunction literal step := ∀ context other, comparison.Around context other →
    literal.Standing comparison.standing →
    comparison.Agree Routine.rewritten (step context) (step other)
  ofDeclarators declarators step := ∀ context other, comparison.Around context other →
    Declarator.AllStanding comparison.standing declarators →
    comparison.Agree Binding.rewrittenAll (step context) (step other)
  ofClauses clauses step := ∀ context source assertions hasDefault,
    comparison.Around context (context.within source assertions) →
    Clause.AllStanding comparison.standing clauses →
    comparison.Agree Case.rewrittenAll (step context hasDefault)
      (step (context.within source assertions) hasDefault)
  ofStatement statement step := ∀ context source assertions labels,
    comparison.Around context (context.within source assertions) →
    statement.Standing comparison.standing →
    comparison.Agree Action.rewrittenOption (step context labels)
      (step (context.within source assertions) labels)
  ofStatements statements step := ∀ context source assertions,
    comparison.Around context (context.within source assertions) →
    Statement.AllStanding comparison.standing statements →
    comparison.Agree Action.rewrittenAll (step context) (step (context.within source assertions))
  ofStatementOption statement step := ∀ context source assertions,
    comparison.Around context (context.within source assertions) →
    Statement.OptionStanding comparison.standing statement →
    comparison.Agree Action.rewrittenOption (step context)
      (step (context.within source assertions))
  ofAlternative statement step := ∀ context source assertions,
    comparison.Around context (context.within source assertions) →
    Statement.OptionStanding comparison.standing statement →
    comparison.Agree Action.rewrittenAlternative (step context)
      (step (context.within source assertions))

variable {comparison : Comparison}

/-- An expression is lowered twice to the same if its parts are. -/
theorem expressionCases : comparison.claims.ExpressionCases where
  name context other around _ := by
    refine .pure ?_
    split
    · rfl
    · exact congrArg _ (comparison.places around _)
  number _ _ _ _ := .pure rfl
  string _ _ around _ := .bindSame (.decode around _) fun _ => .pure rfl
  boolean _ _ _ _ := .pure rfl
  regex _ _ around _ := .bindSame (.compilePattern around _ _ _) fun _ => .pure rfl
  this _ _ _ _ := .pure rfl
  function agrees context other around standing := by
    refine .bind (agrees context other around standing) fun _ _ isRoutine => .pure ?_
    simp only [Term.rewritten, isRoutine]
  array agrees context other around standing := by
    refine .bind (agrees context other around standing) fun _ _ areElements => .pure ?_
    simp only [Term.rewritten, areElements]
  object agrees context other around standing := by
    refine .bind (agrees context other around standing) fun _ _ areEntries => .pure ?_
    simp only [Term.rewritten, areEntries]
  signed {token _ _ _} _ _ around _ := by
    refine .choose (.pure rfl) (.bindSame (.require around _ _ _) fun _ => .pure ?_)
    exact congrArg _ (comparison.places around token)
  unary {token _ _} agrees context other around standing := by
    have isPlace := comparison.places around token
    refine .bind (agrees context other around standing) fun _ _ isOperand => ?_
    refine .bindSame (.require around _ _ _) fun _ => .pure ?_
    simp only [Term.rewritten, isOperand, LoweringContext.positionOf, isPlace]
  typeofName _ _ _ _ := by
    refine .pure ?_
    split <;> rfl
  typeof agrees context other around standing := by
    refine .bind (agrees context other around standing) fun _ _ isOperand => .pure ?_
    simp only [Term.rewritten, isOperand]
  delete {token _} _ agrees context other around standing := by
    have isPlace := comparison.places around token
    refine .bindPlace (agrees context other around standing) (.refuse around _ _) ?_
    intro _ _ isTarget
    refine .pure ?_
    simp only [Term.rewritten, isTarget, LoweringContext.positionOf, isPlace]
  binary {token _ _ _} leftAgrees rightAgrees context other around standing := by
    have isPlace := comparison.places around token
    refine .bind (leftAgrees context other around standing.1) fun _ _ isLeft => ?_
    refine .bind (rightAgrees context other around standing.2) fun _ _ isRight => ?_
    refine .bindSame (.require around _ _ _) fun operator => .pure ?_
    cases operator <;>
      simp only [Term.rewritten, isLeft, isRight, LoweringContext.positionOf, isPlace]
  assign {token _ _ _} _ targetAgrees valueAgrees context other around standing := by
    have isPlace := comparison.places around token
    refine .bindPlace (targetAgrees context other around standing.1) (.refuse around _ _) ?_
    intro _ _ isTarget
    refine .bind (valueAgrees context other around standing.2) fun _ _ isValue => ?_
    refine .bindSame (.require around _ _ _) fun operator => .pure ?_
    cases operator <;>
      simp only [Term.rewritten, isTarget, isValue, LoweringContext.positionOf, isPlace]
  update _ agrees context other around standing := by
    refine .bindPlace (agrees context other around standing) (.refuse around _ _) ?_
    intro _ _ isTarget
    refine .pure ?_
    simp only [Term.rewritten, isTarget, LoweringContext.positionOf, comparison.places around]
  conditional testedAgrees metAgrees unmetAgrees context other around standing := by
    refine .bind (testedAgrees context other around standing.1) fun _ _ isTested => ?_
    refine .bind (metAgrees context other around standing.2.1) fun _ _ isMet => ?_
    refine .bind (unmetAgrees context other around standing.2.2) fun _ _ isUnmet => .pure ?_
    simp only [Term.rewritten, isTested, isMet, isUnmet]
  sequence firstAgrees restAgrees context other around standing := by
    refine .bind (firstAgrees context other around standing.1) fun _ _ isFirst => ?_
    refine .bind (restAgrees context other around standing.2) fun _ _ isRest => .pure ?_
    simp only [Term.rewritten, Term.rewrittenAll, isFirst, isRest]
  callMember baseAgrees argumentsAgree context other around standing := by
    refine .bind (argumentsAgree context other around standing.2) fun _ _ areArguments => ?_
    refine .bind (baseAgrees context other around standing.1) fun _ _ isBase => .pure ?_
    simp only [Term.rewritten, Key.rewritten, areArguments, isBase, LoweringContext.positionOf,
      comparison.places around]
  callIndex baseAgrees keyAgrees argumentsAgree context other around standing := by
    refine .bind (argumentsAgree context other around standing.2) fun _ _ areArguments => ?_
    refine .bind (baseAgrees context other around standing.1.1) fun _ _ isBase => ?_
    refine .bind (keyAgrees context other around standing.1.2) fun _ _ isKey => .pure ?_
    simp only [Term.rewritten, Key.rewritten, areArguments, isBase, isKey,
      LoweringContext.positionOf, comparison.places around]
  call calleeAgrees argumentsAgree context other around standing := by
    refine .bind (argumentsAgree context other around standing.2) fun _ _ areArguments => ?_
    refine .bind (calleeAgrees context other around standing.1) fun _ _ isCallee => .pure ?_
    simp only [Term.rewritten, areArguments, isCallee, LoweringContext.positionOf,
      comparison.places around]
  construct constructorAgrees argumentsAgree context other around standing := by
    refine .bind (constructorAgrees context other around standing.1) fun _ _ isConstructor => ?_
    refine .bind (argumentsAgree context other around standing.2) fun _ _ areArguments => .pure ?_
    simp only [Term.rewritten, isConstructor, areArguments, LoweringContext.positionOf,
      comparison.places around]
  member agrees context other around standing := by
    refine .bind (agrees context other around standing) fun _ _ isBase => .pure ?_
    simp only [Term.rewritten, Place.rewritten, Key.rewritten, isBase,
      LoweringContext.positionOf, comparison.places around]
  index baseAgrees keyAgrees context other around standing := by
    refine .bind (baseAgrees context other around standing.1) fun _ _ isBase => ?_
    refine .bind (keyAgrees context other around standing.2) fun _ _ isKey => .pure ?_
    simp only [Term.rewritten, Place.rewritten, Key.rewritten, isBase, isKey,
      LoweringContext.positionOf, comparison.places around]

/-- Lists, functions and what may be missing are lowered twice to the same. -/
theorem partCases : comparison.claims.PartCases where
  variablePlace _ _ _ _ := .pure rfl
  memberPlace agrees context other around standing := by
    refine .bind (agrees context other around standing) fun _ _ isBase => .pure ?_
    simp only [Option.map_some, Place.rewritten, Key.rewritten, isBase]
  indexPlace baseAgrees keyAgrees context other around standing := by
    refine .bind (baseAgrees context other around standing.1) fun _ _ isBase => ?_
    refine .bind (keyAgrees context other around standing.2) fun _ _ isKey => .pure ?_
    simp only [Option.map_some, Place.rewritten, Key.rewritten, isBase, isKey]
  noPlace _ _ _ _ := .pure rfl
  noExpressions _ _ _ _ := .pure rfl
  moreExpressions firstAgrees restAgrees context other around standing := by
    refine .bind (firstAgrees context other around standing.1) fun _ _ isFirst => ?_
    refine .bind (restAgrees context other around standing.2) fun _ _ isRest => .pure ?_
    simp only [Term.rewrittenAll, isFirst, isRest]
  noExpression _ _ _ _ := .pure rfl
  someExpression agrees context other around standing := by
    refine .bind (agrees context other around standing) fun _ _ isValue => .pure ?_
    simp only [Term.rewrittenOption, isValue]
  noProperties _ _ _ _ := .pure rfl
  moreProperties valueAgrees restAgrees context other around standing := by
    refine .bindSame (.propertyName around _) fun _ => ?_
    refine .bind (valueAgrees context other around standing.1) fun _ _ isValue => ?_
    refine .bind (restAgrees context other around standing.2) fun _ _ areRest => .pure ?_
    simp only [Entry.rewrittenAll, isValue, areRest]
  function agrees context other around standing :=
    .bind (agrees context.inFunction other.source other.assertions around standing)
      fun _ _ isBody => agree_keepRoutine _ _ isBody _
  noDeclarators _ _ _ _ := .pure rfl
  moreDeclarators valueAgrees restAgrees context other around standing := by
    refine .bind (valueAgrees context other around standing.1) fun _ _ isValue => ?_
    refine .bind (restAgrees context other around standing.2) fun _ _ areRest => .pure ?_
    simp only [Binding.rewrittenAll, isValue, areRest]
  noClauses _ _ _ _ _ _ := .pure rfl
  moreClauses testedAgrees bodyAgrees restAgrees context source assertions hasDefault around
      standing := by
    refine .choose (.refuse around _ _) ?_
    refine .bind (testedAgrees context _ around standing.1) fun _ _ isTested => ?_
    refine .bind (bodyAgrees context _ _ around standing.2.1) fun _ _ isBody => ?_
    refine .bind (restAgrees context _ _ _ around standing.2.2) fun _ _ areRest => .pure ?_
    simp only [Case.rewrittenAll, isTested, isBody, areRest]
  noStatements _ _ _ _ _ := .pure rfl
  moreStatements firstAgrees restAgrees context source assertions around standing := by
    refine .bind (firstAgrees context _ _ [] around standing.1) fun _ _ isFirst => ?_
    refine .bind (restAgrees context _ _ around standing.2) fun _ _ isRest => .pure ?_
    simp only [Action.rewrittenAll_append, Action.rewrittenAll_toList, isFirst, isRest]
  noStatement _ _ _ _ _ := .pure rfl
  someStatement agrees context source assertions around standing :=
    agrees context source assertions [] around standing
  noAlternative _ _ _ _ _ := .pure rfl
  someAlternative agrees context source assertions around standing := by
    refine .bind (agrees context _ _ [] around standing) fun _ _ isBody => .pure ?_
    simp only [Action.rewrittenAlternative, Action.rewrittenAll_asBody, isBody]

/-- A statement that asserts something is lowered twice to the same, if its expression is. -/
def ComparesAssertions (comparison : Comparison) : Prop :=
  ∀ {context : LoweringContext} {source : Source} {assertions : Bool} {value : Expression}
    {callee : Token} {arguments : List Expression} (token : Token) (labels : List String),
    comparison.Around context (context.within source assertions) →
    comparison.standing value →
    value.assertion? = some (callee, arguments) →
    comparison.Agree Term.rewritten (value.lower (context.under labels false))
      (value.lower ((context.within source assertions).under labels false)) →
    comparison.Agree Action.rewrittenOption ((Statement.expression token value).lower context labels)
      ((Statement.expression token value).lower (context.within source assertions) labels)

/-- A statement is lowered twice to the same if its parts are. -/
theorem statementCases (ofAssertions : comparison.ComparesAssertions) :
    comparison.claims.StatementCases where
  labeled agrees context source assertions labels around standing :=
    .choose (.refuse around _ _) (agrees context source assertions _ around standing)
  whileLoop testedAgrees bodyAgrees context source assertions labels around standing := by
    refine .bind (testedAgrees (context.under labels true) _ around standing.1) ?_
    intro _ _ isTested
    refine .bind (bodyAgrees (context.under labels true).inLoop _ _ [] around standing.2) ?_
    intro _ _ isBody
    refine .underLabels [] ?_ rfl rfl
    simp only [Action.rewritten, isTested, Action.rewrittenAll_asBody, isBody]
  forLoop startAgrees testedAgrees updateAgrees bodyAgrees context source assertions labels around
      standing := by
    let inside := context.under labels true
    refine .bind (startAgrees inside _ _ around standing.1) fun _ _ isStart => ?_
    refine .bind (testedAgrees inside _ around standing.2.1) fun _ _ isTested => ?_
    refine .bind (updateAgrees inside _ around standing.2.2.1) fun _ _ isUpdate => ?_
    refine .bind (bodyAgrees inside.inLoop _ _ [] around standing.2.2.2) fun _ _ isBody => ?_
    refine .underLabels [] ?_ rfl rfl
    simp only [Action.rewritten, isStart, isTested, isUpdate, Action.rewrittenAll_asBody, isBody]
  forIn subjectAgrees bodyAgrees context source assertions labels around standing := by
    refine .bind (subjectAgrees (context.under labels true) _ around standing.1) ?_
    intro _ _ isSubject
    refine .bind (bodyAgrees (context.under labels true).inLoop _ _ [] around standing.2) ?_
    intro _ _ isBody
    refine .underLabels [] ?_ rfl rfl
    simp only [Action.rewritten, isSubject, Action.rewrittenAll_asBody, isBody]
  evaluated _ agrees context source assertions labels around standing := by
    refine .bind (agrees (context.under labels false) _ around standing.2) fun _ _ isValue => ?_
    refine .underLabels labels ?_ rfl rfl
    simp only [Action.rewritten, isValue]
  asserted {token _ _ _} isAssertion agrees context source assertions labels around standing := by
    have ofAssertion := ofAssertions token labels around standing.1 isAssertion
      (agrees (context.under labels false) _ around standing.2)
    simp only [Statement.lower, isAssertion] at ofAssertion
    exact ofAssertion
  declare agrees context source assertions labels around standing := by
    refine .bind (agrees (context.under labels false) _ around standing) fun _ _ areBindings => ?_
    refine .underLabels labels ?_ rfl rfl
    simp only [Action.rewritten, areBindings]
  define agrees context source assertions labels around standing := by
    refine .bind (agrees (context.under labels false) _ around standing) ?_
    intro routine twin isRoutine
    have isName : routine.name = twin.name := by
      rw [← Routine.name_rewritten comparison.first, isRoutine, Routine.name_rewritten]
    rw [isName]
    refine .choose (.refuse around _ _) (.underLabels labels ?_ rfl rfl)
    simp only [Action.rewritten, isRoutine]
  giveBack agrees context source assertions labels around standing := by
    refine .bind (agrees (context.under labels false) _ around standing) fun _ _ isValue => ?_
    refine .underLabels labels ?_ rfl rfl
    simp only [Action.rewritten, isValue]
  empty _ _ _ _ _ _ := .pure (by simp only [Action.rewrittenOption_underLabels]; rfl)
  block agrees context source assertions labels around standing := by
    refine .bind (agrees (context.under labels false) _ _ around standing) fun _ _ isBody => ?_
    refine .underLabels labels ?_ rfl rfl
    simp only [Action.rewritten, isBody]
  branch testedAgrees metAgrees unmetAgrees context source assertions labels around standing := by
    let inside := context.under labels false
    refine .bind (testedAgrees inside _ around standing.1) fun _ _ isTested => ?_
    refine .bind (metAgrees inside _ _ [] around standing.2.1) fun _ _ isMet => ?_
    refine .bind (unmetAgrees inside _ _ around standing.2.2) fun _ _ isUnmet => ?_
    refine .underLabels labels ?_ rfl rfl
    simp only [Action.rewritten, isTested, Action.rewrittenAll_asBody, isMet, isUnmet]
  leave _ _ _ labels around _ := .choose (.refuse around _ _) (.underLabels labels rfl rfl rfl)
  leaveTo {_ label} context source assertions labels around _ := by
    have isLabel : ((context.within source assertions).under labels false).findLabel? label.literal =
        (context.under labels false).findLabel? label.literal := rfl
    simp only [isLabel]
    split
    · exact .underLabels labels rfl rfl rfl
    · exact .refuse around _ _
  again _ _ _ labels around _ := .choose (.refuse around _ _) (.underLabels labels rfl rfl rfl)
  againTo {_ label} context source assertions labels around _ := by
    have isLabel : ((context.within source assertions).under labels false).findLabel? label.literal =
        (context.under labels false).findLabel? label.literal := rfl
    simp only [isLabel]
    split
    · exact .choose (.underLabels labels rfl rfl rfl) (.refuse around _ _)
    · exact .refuse around _ _
  select subjectAgrees clausesAgree context source assertions labels around standing := by
    let inside := context.under labels false
    refine .bind (subjectAgrees inside _ around standing.1) fun _ _ isSubject => ?_
    refine .bind (clausesAgree inside.inSelect _ _ false around standing.2) fun _ _ areCases => ?_
    refine .underLabels labels ?_ rfl rfl
    simp only [Action.rewritten, isSubject, areCases]

theorem cases (ofAssertions : comparison.ComparesAssertions) : comparison.claims.Cases :=
  ⟨expressionCases, partCases, statementCases ofAssertions⟩

/-- An assertion is compared as it is lowered, if either program checks its assertions. -/
theorem comparesAssertions
    (same : ∀ {source checks other otherChecks},
      comparison.around source checks other otherChecks → checks = otherChecks)
    (keepsAll : ∀ action : Action, action.isLeftOut comparison.first = false ∧
      action.isLeftOut comparison.second = false) :
    comparison.ComparesAssertions := by
  intro context source assertions value callee arguments token labels around _ isAssertion agrees
  obtain rfl : context.assertions = assertions := same around
  rw [Statement.lower, Statement.lower]
  simp only [isAssertion]
  refine .choose (.pure ?_) (.choose ?_ (.refuse around _ _))
  · simp only [Action.rewrittenOption_underLabels]
    rfl
  · refine .bind agrees fun term twin isTerm => ?_
    refine .underLabels labels ?_ (keepsAll _).1 (keepsAll _).2
    have isCondition : term.soleArgument.rewritten comparison.first =
        twin.soleArgument.rewritten comparison.second := by
      rw [← Term.soleArgument_rewritten, isTerm, Term.soleArgument_rewritten]
    simp only [Action.rewritten, isCondition]
    exact congrArg _ (comparison.places around callee)

end Comparison

end Lowering

end ScriptEngine
