import ScriptEngine.Code.Lowering

namespace ScriptEngine

/-!
# Induction along lowering

Lowering goes through all kinds of syntax at once: functions are among the expressions, and
statements are in the functions.  So does every proof about it.  What a proof claims of each kind
of syntax, and of the steps by which it is lowered in the contexts, is one record here.  The claims
hold if they pass from the parts to the whole in the case of each constructor.  A case shows the
step that lowers the constructor, and in it the steps that lower its parts.
-/

namespace Lowering

/-- What is claimed of each kind of syntax and of the steps that lower it. -/
structure Claims where
  ofExpression : Expression → (LoweringContext → Lowering Term) → Prop
  ofPlace : Expression → (LoweringContext → Lowering (Option Place)) → Prop
  ofExpressions : List Expression → (LoweringContext → Lowering (List Term)) → Prop
  ofOption : Option Expression → (LoweringContext → Lowering (Option Term)) → Prop
  ofProperties : List Property → (LoweringContext → Lowering (List Entry)) → Prop
  ofFunction : FunctionLiteral → (LoweringContext → Lowering Routine) → Prop
  ofDeclarators : List Declarator → (LoweringContext → Lowering (List Binding)) → Prop
  ofClauses : List Clause → (LoweringContext → Bool → Lowering (List Case)) → Prop
  ofStatement : Statement → (LoweringContext → List String → Lowering (Option Action)) → Prop
  ofStatements : List Statement → (LoweringContext → Lowering (List Action)) → Prop
  ofStatementOption : Option Statement → (LoweringContext → Lowering (Option Action)) → Prop
  ofAlternative : Option Statement → (LoweringContext → Lowering (Option (List Action))) → Prop

namespace Claims

/-- Nothing is claimed. -/
def nothing : Claims :=
  ⟨fun _ _ => True, fun _ _ => True, fun _ _ => True, fun _ _ => True, fun _ _ => True,
    fun _ _ => True, fun _ _ => True, fun _ _ => True, fun _ _ => True, fun _ _ => True,
    fun _ _ => True, fun _ _ => True⟩

/-- The claims pass from the parts of an expression to the expression. -/
structure ExpressionCases (claims : Claims) : Prop where
  name : ∀ {token}, claims.ofExpression (.name token) fun context => pure <|
    if token.literal = "undefined" then .constant .undefined
    else .read (.variable token.literal) (context.positionOf token)
  number : ∀ {token value}, claims.ofExpression (.number token value) fun _ =>
    pure (.constant (.number value))
  string : ∀ {token quote}, claims.ofExpression (.string token quote) fun context => do
    pure (.constant (.string (← context.decode token)))
  boolean : ∀ {token value}, claims.ofExpression (.boolean token value) fun _ =>
    pure (.constant (.boolean value))
  regex : ∀ {token source flags}, claims.ofExpression (.regex token source flags) fun context => do
    pure (.pattern (← context.compilePattern token source flags))
  this : ∀ {token}, claims.ofExpression (.this token) fun _ => pure .this
  function : ∀ {literal}, claims.ofFunction literal (literal.lower ·) →
    claims.ofExpression (.function literal) fun context => do
      pure (.closure (← literal.lower context))
  array : ∀ {token elements}, claims.ofExpressions elements (Expression.lowerAll · elements) →
    claims.ofExpression (.array token elements) fun context => do
      pure (.array (← Expression.lowerAll context elements))
  object : ∀ {token properties}, claims.ofProperties properties (Property.lowerAll · properties) →
    claims.ofExpression (.object token properties) fun context => do
      pure (.object (← Property.lowerAll context properties))
  /-- An operator in front of a number, which a minus sign belongs to. -/
  signed : ∀ {token operator start value},
    claims.ofExpression (.unary token operator (.number start value)) fun context =>
      if token.literal = "-" then pure (.constant (.number (-value)))
      else do
        let operator ← context.require token (.unsupportedOperator token.literal)
          (UnaryOperator.ofText? token.literal)
        pure (.unary operator (.constant (.number value)) (context.positionOf token))
  unary : ∀ {token operator operand}, claims.ofExpression operand (operand.lower ·) →
    claims.ofExpression (.unary token operator operand) fun context => do
      let operand ← operand.lower context
      let operator ← context.require token (.unsupportedOperator token.literal)
        (UnaryOperator.ofText? token.literal)
      pure (.unary operator operand (context.positionOf token))
  typeofName : ∀ {token name}, claims.ofExpression (.typeof token (.name name)) fun _ => pure <|
    if name.literal = "undefined" then .typeof (.constant .undefined)
    else .typeofVariable name.literal
  typeof : ∀ {token operand}, claims.ofExpression operand (operand.lower ·) →
    claims.ofExpression (.typeof token operand) fun context => do
      pure (.typeof (← operand.lower context))
  delete : ∀ {token target}, claims.ofExpression target (target.lower ·) →
    claims.ofPlace target (target.lowerPlace ·) →
    claims.ofExpression (.delete token target) fun context => do
      match ← target.lowerPlace context with
      | some place => pure (.delete place (context.positionOf token))
      | none => context.refuse target.startToken (.invalidDelete target.text)
  binary : ∀ {token operator left right}, claims.ofExpression left (left.lower ·) →
    claims.ofExpression right (right.lower ·) →
    claims.ofExpression (.binary token operator left right) fun context => do
      let start := left.startToken
      let left ← left.lower context
      let right ← right.lower context
      let operator ← context.require start (.unsupportedOperator token.literal)
        (InfixOperator.ofText? token.literal)
      pure <|
        match operator with
        | .strict operator => .strict operator left right (context.positionOf token)
        | .both => .both left right
        | .either => .either left right
  assign : ∀ {token operator target value}, claims.ofExpression target (target.lower ·) →
    claims.ofPlace target (target.lowerPlace ·) → claims.ofExpression value (value.lower ·) →
    claims.ofExpression (.assign token operator target value) fun context => do
      match ← target.lowerPlace context with
      | none => context.refuse target.startToken .invalidAssignment
      | some place =>
          let value ← value.lower context
          let operator ← context.require target.startToken
            (.unsupportedAssignment token.literal) (AssignmentOperator.ofText? token.literal)
          pure <|
            match operator with
            | .plain => .assign place value (context.positionOf token)
            | .combine operator => .combine operator place value (context.positionOf token)
  update : ∀ {token operator fixity target}, claims.ofExpression target (target.lower ·) →
    claims.ofPlace target (target.lowerPlace ·) →
    claims.ofExpression (.update token operator fixity target) fun context => do
      match ← target.lowerPlace context with
      | none => context.refuse target.startToken (.invalidUpdate fixity.text)
      | some place =>
          let start := match fixity with
            | .before => token
            | .after => target.startToken
          pure (.update operator fixity place (context.positionOf start))
  conditional : ∀ {token condition consequence alternative},
    claims.ofExpression condition (condition.lower ·) →
    claims.ofExpression consequence (consequence.lower ·) →
    claims.ofExpression alternative (alternative.lower ·) →
    claims.ofExpression (.conditional token condition consequence alternative) fun context => do
      let condition ← condition.lower context
      let consequence ← consequence.lower context
      let alternative ← alternative.lower context
      pure (.conditional condition consequence alternative)
  sequence : ∀ {token first rest}, claims.ofExpression first (first.lower ·) →
    claims.ofExpressions rest (Expression.lowerAll · rest) →
    claims.ofExpression (.sequence token first rest) fun context => do
      let first ← first.lower context
      let rest ← Expression.lowerAll context rest
      pure (.sequence (first :: rest))
  callMember : ∀ {token dot base property arguments}, claims.ofExpression base (base.lower ·) →
    claims.ofExpressions arguments (Expression.lowerAll · arguments) →
    claims.ofExpression (.call token (.member dot base property) arguments) fun context => do
      let arguments ← Expression.lowerAll context arguments
      let term ← base.lower context
      pure (.callMethod term (.fixed property.literal) arguments
        (base.text ++ "." ++ property.literal) (context.positionOf base.startToken))
  callIndex : ∀ {token bracket base key arguments}, claims.ofExpression base (base.lower ·) →
    claims.ofExpression key (key.lower ·) →
    claims.ofExpressions arguments (Expression.lowerAll · arguments) →
    claims.ofExpression (.call token (.index bracket base key) arguments) fun context => do
      let arguments ← Expression.lowerAll context arguments
      let term ← base.lower context
      let name ← key.lower context
      pure (.callMethod term (.computed name) arguments
        (base.text ++ "[" ++ key.text ++ "]") (context.positionOf base.startToken))
  call : ∀ {token callee arguments}, claims.ofExpression callee (callee.lower ·) →
    claims.ofExpressions arguments (Expression.lowerAll · arguments) →
    claims.ofExpression (.call token callee arguments) fun context => do
      let arguments ← Expression.lowerAll context arguments
      let term ← callee.lower context
      pure (.call term arguments callee.text (context.positionOf callee.startToken))
  construct : ∀ {token constructor arguments},
    claims.ofExpression constructor (constructor.lower ·) →
    claims.ofExpressions arguments (Expression.lowerAll · arguments) →
    claims.ofExpression (.construct token constructor arguments) fun context => do
      let constructor ← constructor.lower context
      let arguments ← Expression.lowerAll context arguments
      pure (.construct constructor arguments (context.positionOf token))
  member : ∀ {token base property}, claims.ofExpression base (base.lower ·) →
    claims.ofExpression (.member token base property) fun context => do
      let term ← base.lower context
      pure (.read (.property term (.fixed property.literal)) (context.positionOf base.startToken))
  index : ∀ {token base key}, claims.ofExpression base (base.lower ·) →
    claims.ofExpression key (key.lower ·) →
    claims.ofExpression (.index token base key) fun context => do
      let term ← base.lower context
      let name ← key.lower context
      pure (.read (.property term (.computed name)) (context.positionOf base.startToken))

/-- The claims pass to places, lists and functions, and to what may be missing. -/
structure PartCases (claims : Claims) : Prop where
  variablePlace : ∀ {token}, claims.ofPlace (.name token) fun _ =>
    pure (some (.variable token.literal))
  memberPlace : ∀ {token base property}, claims.ofExpression base (base.lower ·) →
    claims.ofPlace (.member token base property) fun context => do
      let base ← base.lower context
      pure (some (.property base (.fixed property.literal)))
  indexPlace : ∀ {token base key}, claims.ofExpression base (base.lower ·) →
    claims.ofExpression key (key.lower ·) →
    claims.ofPlace (.index token base key) fun context => do
      let base ← base.lower context
      let key ← key.lower context
      pure (some (.property base (.computed key)))
  noPlace : ∀ {expression}, claims.ofPlace expression fun _ => pure none
  noExpressions : claims.ofExpressions [] fun _ => pure []
  moreExpressions : ∀ {first rest}, claims.ofExpression first (first.lower ·) →
    claims.ofExpressions rest (Expression.lowerAll · rest) →
    claims.ofExpressions (first :: rest) fun context => do
      let first ← first.lower context
      let rest ← Expression.lowerAll context rest
      pure (first :: rest)
  noExpression : claims.ofOption none fun _ => pure none
  someExpression : ∀ {value}, claims.ofExpression value (value.lower ·) →
    claims.ofOption (some value) fun context => do pure (some (← value.lower context))
  noProperties : claims.ofProperties [] fun _ => pure []
  moreProperties : ∀ {key value rest}, claims.ofExpression value (value.lower ·) →
    claims.ofProperties rest (Property.lowerAll · rest) →
    claims.ofProperties (.mk key value :: rest) fun context => do
      let key ← context.propertyName key
      let value ← value.lower context
      let rest ← Property.lowerAll context rest
      pure (.mk key value :: rest)
  function : ∀ {token name parameters body},
    claims.ofStatements body (Statement.lowerAll · body) →
    claims.ofFunction (.mk token name parameters body) fun context => do
      let lowered ← Statement.lowerAll context.inFunction body
      keepRoutine (name.elim "" Token.literal) (parameters.map Token.literal) lowered
        (endsInReturn body)
  noDeclarators : claims.ofDeclarators [] fun _ => pure []
  moreDeclarators : ∀ {name value rest},
    claims.ofOption value (Expression.lowerOption · value) →
    claims.ofDeclarators rest (Declarator.lowerAll · rest) →
    claims.ofDeclarators (.mk name value :: rest) fun context => do
      let value ← Expression.lowerOption context value
      let rest ← Declarator.lowerAll context rest
      pure (.mk name.literal value :: rest)
  noClauses : claims.ofClauses [] fun _ _ => pure []
  moreClauses : ∀ {token condition body rest},
    claims.ofOption condition (Expression.lowerOption · condition) →
    claims.ofStatements body (Statement.lowerAll · body) →
    claims.ofClauses rest (Clause.lowerAll · · rest) →
    claims.ofClauses (.mk token condition body :: rest) fun context hasDefault =>
      if hasDefault && condition.isNone then context.refuse token .repeatedDefault
      else do
        let condition' ← Expression.lowerOption context condition
        let body ← Statement.lowerAll context body
        let rest ← Clause.lowerAll context (hasDefault || condition.isNone) rest
        pure (.mk condition' body :: rest)
  noStatements : claims.ofStatements [] fun _ => pure []
  moreStatements : ∀ {first rest}, claims.ofStatement first (first.lower · ·) →
    claims.ofStatements rest (Statement.lowerAll · rest) →
    claims.ofStatements (first :: rest) fun context => do
      let first ← first.lower context []
      let rest ← Statement.lowerAll context rest
      pure (first.toList ++ rest)
  noStatement : claims.ofStatementOption none fun _ => pure none
  someStatement : ∀ {statement}, claims.ofStatement statement (statement.lower · ·) →
    claims.ofStatementOption (some statement) (statement.lower · [])
  noAlternative : claims.ofAlternative none fun _ => pure none
  someAlternative : ∀ {statement}, claims.ofStatement statement (statement.lower · ·) →
    claims.ofAlternative (some statement) fun context => do
      let lowered ← statement.lower context []
      pure (some (Action.asBody lowered))

/-- The claims pass from the parts of a statement to the statement. -/
structure StatementCases (claims : Claims) : Prop where
  labeled : ∀ {label body}, claims.ofStatement body (body.lower · ·) →
    claims.ofStatement (.labeled label body) fun context labels =>
      if (context.findLabel? label.literal).isSome || labels.contains label.literal then
        context.refuse label (.repeatedLabel label.literal)
      else body.lower context (labels ++ [label.literal])
  whileLoop : ∀ {token condition body}, claims.ofExpression condition (condition.lower ·) →
    claims.ofStatement body (body.lower · ·) →
    claims.ofStatement (.whileLoop token condition body) fun context labels => do
      let condition ← condition.lower (context.under labels true)
      let body ← body.lower (context.under labels true).inLoop []
      pure (some (.whileLoop labels condition (Action.asBody body)))
  forLoop : ∀ {token start condition update body},
    claims.ofStatementOption start (Statement.lowerOption · start) →
    claims.ofOption condition (Expression.lowerOption · condition) →
    claims.ofOption update (Expression.lowerOption · update) →
    claims.ofStatement body (body.lower · ·) →
    claims.ofStatement (.forLoop token start condition update body) fun context labels => do
      let start ← Statement.lowerOption (context.under labels true) start
      let condition ← Expression.lowerOption (context.under labels true) condition
      let update ← Expression.lowerOption (context.under labels true) update
      let body ← body.lower (context.under labels true).inLoop []
      pure (some (.forLoop labels start condition update (Action.asBody body)))
  forIn : ∀ {token name declares subject body}, claims.ofExpression subject (subject.lower ·) →
    claims.ofStatement body (body.lower · ·) →
    claims.ofStatement (.forIn token name declares subject body) fun context labels => do
      let subject ← subject.lower (context.under labels true)
      let body ← body.lower (context.under labels true).inLoop []
      pure (some (.forIn labels name.literal declares subject (Action.asBody body)))
  evaluated : ∀ {token value}, value.assertion? = none →
    claims.ofExpression value (value.lower ·) →
    claims.ofStatement (.expression token value) fun context labels => do
      let term ← value.lower (context.under labels false)
      pure (underLabels labels (some (.evaluate term)))
  asserted : ∀ {token value callee arguments}, value.assertion? = some (callee, arguments) →
    claims.ofExpression value (value.lower ·) →
    claims.ofStatement (.expression token value) fun context labels =>
      if !context.assertions then pure (underLabels labels none)
      else if arguments.length = 1 then do
        let term ← value.lower (context.under labels false)
        pure (underLabels labels (some (.check term.soleArgument
          (String.join (Expression.texts arguments))
          ((context.under labels false).positionOf callee))))
      else (context.under labels false).refuse callee (.assertArity arguments.length)
  declare : ∀ {token declarators},
    claims.ofDeclarators declarators (Declarator.lowerAll · declarators) →
    claims.ofStatement (.declare token declarators) fun context labels => do
      let bindings ← Declarator.lowerAll (context.under labels false) declarators
      pure (underLabels labels (some (.declare bindings)))
  define : ∀ {token literal}, claims.ofFunction literal (literal.lower ·) →
    claims.ofStatement (.function token literal) fun context labels => do
      let routine ← literal.lower (context.under labels false)
      if routine.name = "" then (context.under labels false).refuse token .namelessFunction
      else pure (underLabels labels (some (.define routine)))
  giveBack : ∀ {token value}, claims.ofOption value (Expression.lowerOption · value) →
    claims.ofStatement (.giveBack token value) fun context labels => do
      let value ← Expression.lowerOption (context.under labels false) value
      pure (underLabels labels (some (.giveBack value)))
  empty : ∀ {token}, claims.ofStatement (.empty token) fun _ labels =>
    pure (underLabels labels none)
  block : ∀ {token body}, claims.ofStatements body (Statement.lowerAll · body) →
    claims.ofStatement (.block token body) fun context labels => do
      let body ← Statement.lowerAll (context.under labels false) body
      pure (underLabels labels (some (.block body)))
  branch : ∀ {token condition consequence alternative},
    claims.ofExpression condition (condition.lower ·) →
    claims.ofStatement consequence (consequence.lower · ·) →
    claims.ofAlternative alternative (Statement.lowerAlternative · alternative) →
    claims.ofStatement (.branch token condition consequence alternative) fun context labels => do
      let condition ← condition.lower (context.under labels false)
      let consequence ← consequence.lower (context.under labels false) []
      let alternative ← Statement.lowerAlternative (context.under labels false) alternative
      pure (underLabels labels
        (some (.branch condition (Action.asBody consequence) alternative)))
  leave : ∀ {token}, claims.ofStatement (.leave token none) fun context labels =>
    if context.loops = 0 ∧ context.switches = 0 then
      (context.under labels false).refuse token .illegalBreak
    else pure (underLabels labels (some (.leave none)))
  leaveTo : ∀ {token label}, claims.ofStatement (.leave token (some label)) fun context labels =>
    match (context.under labels false).findLabel? label.literal with
    | some _ => pure (underLabels labels (some (.leave (some label.literal))))
    | none => (context.under labels false).refuse label (.undefinedLabel label.literal)
  again : ∀ {token}, claims.ofStatement (.again token none) fun context labels =>
    if context.loops = 0 then (context.under labels false).refuse token .illegalContinue
    else pure (underLabels labels (some (.again none)))
  againTo : ∀ {token label}, claims.ofStatement (.again token (some label)) fun context labels =>
    match (context.under labels false).findLabel? label.literal with
    | some active =>
        if active.isLoop then pure (underLabels labels (some (.again (some label.literal))))
        else (context.under labels false).refuse label (.labelNotLoop label.literal)
    | none => (context.under labels false).refuse label (.undefinedLabel label.literal)
  select : ∀ {token subject clauses}, claims.ofExpression subject (subject.lower ·) →
    claims.ofClauses clauses (Clause.lowerAll · · clauses) →
    claims.ofStatement (.select token subject clauses) fun context labels => do
      let subject ← subject.lower (context.under labels false)
      let cases ← Clause.lowerAll (context.under labels false).inSelect false clauses
      pure (underLabels labels (some (.select subject cases)))

/-- The claims pass from parts to wholes. -/
structure Cases (claims : Claims) : Prop where
  expressions : claims.ExpressionCases
  parts : claims.PartCases
  statements : claims.StatementCases

namespace Cases

variable {claims : Claims} (cases : claims.Cases)
include cases

mutual

/-- Every expression is as claimed. -/
theorem ofExpression :
    ∀ expression : Expression, claims.ofExpression expression (expression.lower ·)
  | .name token => cases.expressions.name
  | .number token value => cases.expressions.number
  | .string token quote => cases.expressions.string
  | .boolean token value => cases.expressions.boolean
  | .regex token source flags => cases.expressions.regex
  | .this token => cases.expressions.this
  | .function literal => cases.expressions.function (ofFunction literal)
  | .array token elements => cases.expressions.array (ofExpressions elements)
  | .object token properties => cases.expressions.object (ofProperties properties)
  | .unary token operator operand => by
      have ofOperand := ofExpression operand
      cases operand with
      | number start value => exact cases.expressions.signed
      | _ => exact cases.expressions.unary ofOperand
  | .typeof token operand => by
      have ofOperand := ofExpression operand
      cases operand with
      | name name => exact cases.expressions.typeofName
      | _ => exact cases.expressions.typeof ofOperand
  | .delete token target => cases.expressions.delete (ofExpression target) (ofPlace target)
  | .binary token operator left right =>
      cases.expressions.binary (ofExpression left) (ofExpression right)
  | .assign token operator target value =>
      cases.expressions.assign (ofExpression target) (ofPlace target) (ofExpression value)
  | .update token operator fixity target =>
      cases.expressions.update (ofExpression target) (ofPlace target)
  | .conditional token condition consequence alternative =>
      cases.expressions.conditional (ofExpression condition) (ofExpression consequence)
        (ofExpression alternative)
  | .sequence token first rest =>
      cases.expressions.sequence (ofExpression first) (ofExpressions rest)
  | .call token callee arguments => by
      have ofCallee := ofExpression callee
      have ofArguments := ofExpressions arguments
      cases callee with
      | member dot base property =>
          exact cases.expressions.callMember (ofExpression base) ofArguments
      | index bracket base key =>
          exact cases.expressions.callIndex (ofExpression base) (ofExpression key) ofArguments
      | _ => exact cases.expressions.call ofCallee ofArguments
  | .construct token constructor arguments =>
      cases.expressions.construct (ofExpression constructor) (ofExpressions arguments)
  | .member token base property => cases.expressions.member (ofExpression base)
  | .index token base key => cases.expressions.index (ofExpression base) (ofExpression key)

/-- Every place is as claimed. -/
theorem ofPlace :
    ∀ expression : Expression, claims.ofPlace expression (expression.lowerPlace ·)
  | .name _ => cases.parts.variablePlace
  | .member _ base _ => cases.parts.memberPlace (ofExpression base)
  | .index _ base key => cases.parts.indexPlace (ofExpression base) (ofExpression key)
  | .number _ _ | .string _ _ | .boolean _ _ | .regex _ _ _ | .this _ | .function _
  | .array _ _ | .object _ _ | .unary _ _ _ | .typeof _ _ | .delete _ _ | .binary _ _ _ _
  | .assign _ _ _ _ | .update _ _ _ _ | .conditional _ _ _ _ | .sequence _ _ _ | .call _ _ _
  | .construct _ _ _ => cases.parts.noPlace

/-- All of some expressions are as claimed. -/
theorem ofExpressions :
    ∀ expressions : List Expression,
      claims.ofExpressions expressions (Expression.lowerAll · expressions)
  | [] => cases.parts.noExpressions
  | first :: rest => cases.parts.moreExpressions (ofExpression first) (ofExpressions rest)

/-- An expression that may be missing is as claimed. -/
theorem ofOption :
    ∀ expression : Option Expression,
      claims.ofOption expression (Expression.lowerOption · expression)
  | none => cases.parts.noExpression
  | some value => cases.parts.someExpression (ofExpression value)

/-- All properties of an object are as claimed. -/
theorem ofProperties :
    ∀ properties : List Property, claims.ofProperties properties (Property.lowerAll · properties)
  | [] => cases.parts.noProperties
  | .mk key value :: rest => by
      simp only [Property.lowerAll, Property.lower, bind_assoc, pure_bind]
      exact cases.parts.moreProperties (ofExpression value) (ofProperties rest)

/-- Every function is as claimed. -/
theorem ofFunction :
    ∀ literal : FunctionLiteral, claims.ofFunction literal (literal.lower ·)
  | .mk token name parameters body => by
      cases name <;> exact cases.parts.function (ofStatements body)

/-- All variables that are declared are as claimed. -/
theorem ofDeclarators :
    ∀ declarators : List Declarator,
      claims.ofDeclarators declarators (Declarator.lowerAll · declarators)
  | [] => cases.parts.noDeclarators
  | .mk name value :: rest => by
      simp only [Declarator.lowerAll, Declarator.lower, bind_assoc, pure_bind]
      exact cases.parts.moreDeclarators (ofOption value) (ofDeclarators rest)

/-- All clauses are as claimed. -/
theorem ofClauses :
    ∀ clauses : List Clause, claims.ofClauses clauses (Clause.lowerAll · · clauses)
  | [] => cases.parts.noClauses
  | .mk token condition body :: rest => by
      simp only [Clause.lowerAll, Clause.lower, Clause.isDefault, Clause.token, bind_assoc,
        pure_bind]
      exact cases.parts.moreClauses (ofOption condition) (ofStatements body) (ofClauses rest)

/-- Every statement is as claimed. -/
theorem ofStatement :
    ∀ statement : Statement, claims.ofStatement statement (statement.lower · ·)
  | .labeled label body => cases.statements.labeled (ofStatement body)
  | .whileLoop token condition body =>
      cases.statements.whileLoop (ofExpression condition) (ofStatement body)
  | .forLoop token start condition update body =>
      cases.statements.forLoop (ofStatementOption start) (ofOption condition) (ofOption update)
        (ofStatement body)
  | .forIn token name declares subject body =>
      cases.statements.forIn (ofExpression subject) (ofStatement body)
  | .expression token value => by
      have ofValue := ofExpression value
      cases isAssertion : value.assertion? with
      | none =>
          simp only [Statement.lower, isAssertion]
          exact cases.statements.evaluated isAssertion ofValue
      | some found =>
          simp only [Statement.lower, isAssertion]
          exact cases.statements.asserted isAssertion ofValue
  | .declare token declarators => cases.statements.declare (ofDeclarators declarators)
  | .function token literal => cases.statements.define (ofFunction literal)
  | .giveBack token value => cases.statements.giveBack (ofOption value)
  | .empty token => cases.statements.empty
  | .block token body => cases.statements.block (ofStatements body)
  | .branch token condition consequence alternative =>
      cases.statements.branch (ofExpression condition) (ofStatement consequence)
        (ofAlternative alternative)
  | .leave token none => cases.statements.leave
  | .leave token (some label) => cases.statements.leaveTo
  | .again token none => cases.statements.again
  | .again token (some label) => cases.statements.againTo
  | .select token subject clauses =>
      cases.statements.select (ofExpression subject) (ofClauses clauses)

/-- All statements of a body are as claimed. -/
theorem ofStatements :
    ∀ statements : List Statement,
      claims.ofStatements statements (Statement.lowerAll · statements)
  | [] => cases.parts.noStatements
  | first :: rest => cases.parts.moreStatements (ofStatement first) (ofStatements rest)

/-- A statement that may be missing is as claimed. -/
theorem ofStatementOption :
    ∀ statement : Option Statement,
      claims.ofStatementOption statement (Statement.lowerOption · statement)
  | none => cases.parts.noStatement
  | some statement => cases.parts.someStatement (ofStatement statement)

/-- An alternative that may be missing is as claimed. -/
theorem ofAlternative :
    ∀ statement : Option Statement,
      claims.ofAlternative statement (Statement.lowerAlternative · statement)
  | none => cases.parts.noAlternative
  | some statement => cases.parts.someAlternative (ofStatement statement)

end

end Cases

end Claims

end Lowering

end ScriptEngine
