import ScriptEngine.Proofs.Code.FunctionPlaces
import ScriptEngine.Proofs.Code.Induction

namespace ScriptEngine

/-!
# The numbers of functions

Lowering numbers a function when its body ends.  This module shows that it numbers them as the
program lists them: the functions that are kept are, one by one, what the functions of the program
become, and where a function has its place in the program, the code mentions its number.
-/

/-! ## The functions that code mentions -/

mutual

/--
The numbers of the functions that a term mentions, from left to right.  Where a place is both read
and written, it is mentioned twice.
-/
def Term.mentions : Term → List Nat
  | .constant _ | .this | .pattern _ | .typeofVariable _ => []
  | .array elements => Term.mentionsOf elements
  | .object entries => Entry.mentionsOf entries
  | .closure routine => [routine.number]
  | .unary _ operand _ | .typeof operand => operand.mentions
  | .delete place _ | .read place _ | .update _ _ place _ => place.mentions
  | .strict _ left right _ | .both left right | .either left right =>
      left.mentions ++ right.mentions
  | .assign place value _ => place.mentions ++ value.mentions
  | .combine _ place value _ => place.mentions ++ (place.mentions ++ value.mentions)
  | .conditional condition consequence alternative =>
      condition.mentions ++ (consequence.mentions ++ alternative.mentions)
  | .sequence terms => Term.mentionsOf terms
  | .call callee arguments _ _ => callee.mentions ++ Term.mentionsOf arguments
  | .callMethod base key arguments _ _ =>
      base.mentions ++ (key.mentions ++ Term.mentionsOf arguments)
  | .construct constructor arguments _ => constructor.mentions ++ Term.mentionsOf arguments

/-- The functions that a key mentions. -/
def Key.mentions : Key → List Nat
  | .fixed _ => []
  | .computed term => term.mentions

/-- The functions that a place mentions. -/
def Place.mentions : Place → List Nat
  | .variable _ => []
  | .property base key => base.mentions ++ key.mentions

/-- The functions that terms mention. -/
def Term.mentionsOf : List Term → List Nat
  | [] => []
  | first :: rest => first.mentions ++ Term.mentionsOf rest

/-- The functions that a term mentions that may be missing. -/
def Term.mentionsOfOption : Option Term → List Nat
  | none => []
  | some term => term.mentions

/-- The functions that the properties of an object mention. -/
def Entry.mentionsOf : List Entry → List Nat
  | [] => []
  | .mk _ value :: rest => value.mentions ++ Entry.mentionsOf rest

/-- The functions that bindings mention. -/
def Binding.mentionsOf : List Binding → List Nat
  | [] => []
  | .mk _ value :: rest => Term.mentionsOfOption value ++ Binding.mentionsOf rest

/-- The functions that cases mention. -/
def Case.mentionsOf : List Case → List Nat
  | [] => []
  | .mk condition body :: rest =>
      Term.mentionsOfOption condition ++ (Action.mentionsOf body ++ Case.mentionsOf rest)

/-- The functions that a lowered statement mentions. -/
def Action.mentions : Action → List Nat
  | .evaluate term => term.mentions
  | .check condition _ _ => condition.mentions
  | .declare bindings => Binding.mentionsOf bindings
  | .define routine => [routine.number]
  | .giveBack value => Term.mentionsOfOption value
  | .block body => Action.mentionsOf body
  | .branch condition consequence alternative =>
      condition.mentions ++
        (Action.mentionsOf consequence ++ Action.mentionsOfAlternative alternative)
  | .whileLoop _ condition body => condition.mentions ++ Action.mentionsOf body
  | .forLoop _ start condition update body =>
      Action.mentionsOfOption start ++ (Term.mentionsOfOption condition ++
        (Term.mentionsOfOption update ++ Action.mentionsOf body))
  | .forIn _ _ _ subject body => subject.mentions ++ Action.mentionsOf body
  | .labeled _ body => Action.mentionsOf body
  | .leave _ | .again _ => []
  | .select subject cases => subject.mentions ++ Case.mentionsOf cases

/-- The functions that lowered statements mention. -/
def Action.mentionsOf : List Action → List Nat
  | [] => []
  | first :: rest => first.mentions ++ Action.mentionsOf rest

/-- The functions that a lowered statement mentions that may be missing. -/
def Action.mentionsOfOption : Option Action → List Nat
  | none => []
  | some action => action.mentions

/-- The functions that an alternative mentions that may be missing. -/
def Action.mentionsOfAlternative : Option (List Action) → List Nat
  | none => []
  | some body => Action.mentionsOf body

end

namespace Action

theorem mentionsOf_append (front back : List Action) :
    mentionsOf (front ++ back) = mentionsOf front ++ mentionsOf back := by
  induction front with
  | nil => rfl
  | cons first rest inductionHypothesis =>
      rw [List.cons_append, mentionsOf, mentionsOf, inductionHypothesis, List.append_assoc]

theorem mentionsOf_toList (lowered : Option Action) :
    mentionsOf lowered.toList = mentionsOfOption lowered := by
  cases lowered with
  | none => rfl
  | some action => exact List.append_nil _

@[simp] theorem mentionsOf_asBody (lowered : Option Action) :
    mentionsOf (asBody lowered) = mentionsOfOption lowered := by
  unfold asBody
  split
  · rw [mentionsOfOption, mentions]
  · exact mentionsOf_toList (some _)
  · rfl

@[simp] theorem mentionsOfOption_underLabels (labels : List String) (lowered : Option Action) :
    mentionsOfOption (underLabels labels lowered) = mentionsOfOption lowered := by
  unfold underLabels
  split
  · rfl
  · rw [mentionsOfOption, mentions, mentionsOf_asBody]

end Action

/-! ## What functions become -/

/--
What a function with its number becomes: it keeps its name and its parameters, and its body
mentions the functions with their places in it.
-/
structure FunctionLiteral.Becomes
    (assertions : Bool)
    (place : FunctionLiteral × Nat)
    (routine : Routine) :
    Prop where
  number : routine.number = place.2
  name : routine.name = place.1.nameText
  parameters : routine.parameters = place.1.parameterNames
  mentions : Action.mentionsOf routine.body =
    (place.1.innerPlaces assertions true place.2).map Prod.snd

namespace Lowering

/--
A lowering step that keeps, behind `start` others, what certain functions of the program become,
in their order and with numbers that go on from `start`.
-/
def Numbers
    (assertions : Bool)
    (start : Nat)
    (functions : List FunctionLiteral)
    (holds : α → Prop)
    (step : Lowering α) :
    Prop :=
  ∀ routines value after, routines.size = start → step routines = .ok (value, after) →
    (∃ kept, after.toList = routines.toList ++ kept ∧
      List.Forall₂ (FunctionLiteral.Becomes assertions) (functions.zipIdx start) kept) ∧
    holds value

namespace Numbers

variable {assertions : Bool} {start : Nat} {functions : List FunctionLiteral} {holds : α → Prop}

theorem pure {value : α} (holdsValue : holds value) :
    Numbers assertions start [] holds (pure value) := by
  rintro routines _ _ - ⟨⟩
  exact ⟨⟨[], (List.append_nil _).symm, .nil⟩, holdsValue⟩

theorem refuse (context : LoweringContext) (token : Token) (fault : LoweringFault) :
    Numbers assertions start functions holds (context.refuse token fault) :=
  fun _ _ _ _ lowered => nomatch lowered

section

variable {first : Lowering β} {next : β → Lowering α} {between : β → Prop}
  (firstNumbers : Numbers assertions start functions between first)

include firstNumbers

/-- Steps one after the other keep what they keep one after the other. -/
theorem bind
    {laterFunctions : List FunctionLiteral}
    (nextNumbers : ∀ value, between value →
      Numbers assertions (start + functions.length) laterFunctions holds (next value)) :
    Numbers assertions start (functions ++ laterFunctions) holds (first >>= next) := by
  intro routines value after isStart lowered
  change Except.bind (first routines) (fun result => next result.1 result.2) = _ at lowered
  cases ran : first routines with
  | error error =>
      rw [ran] at lowered
      cases lowered
  | ok result =>
      rw [ran] at lowered
      obtain ⟨middle, between⟩ := result
      obtain ⟨⟨kept, isKept, becomes⟩, holdsMiddle⟩ :=
        firstNumbers routines middle between isStart ran
      have isLater : between.size = start + functions.length := by
        have isLength := congrArg List.length isKept
        rw [List.length_append, ← becomes.length_eq, List.length_zipIdx] at isLength
        simpa [isStart] using isLength
      obtain ⟨⟨later, isAfter, laterBecomes⟩, holdsValue⟩ :=
        nextNumbers middle holdsMiddle between value after isLater lowered
      refine ⟨⟨kept ++ later, ?_, ?_⟩, holdsValue⟩
      · rw [isAfter, isKept, List.append_assoc]
      · rw [List.zipIdx_append]
        exact List.rel_append becomes laterBecomes

/-- A step is followed by one that keeps nothing. -/
theorem finish
    (nextNumbers : ∀ value, between value →
      Numbers assertions (start + functions.length) [] holds (next value)) :
    Numbers assertions start functions holds (first >>= next) := by
  have together := firstNumbers.bind nextNumbers
  rwa [List.append_nil] at together

end

/-- A step gives only what it can give. -/
theorem given {step : Lowering α} (numbers : Numbers assertions start functions holds step) :
    Numbers assertions start functions
      (fun value => holds value ∧ ∃ routines after, step routines = .ok (value, after)) step :=
  fun routines value after isStart lowered =>
    (numbers routines value after isStart lowered).imp_right fun holdsValue =>
      ⟨holdsValue, routines, after, lowered⟩

/-- The result of a step is built into another one. -/
theorem map
    {first : Lowering β}
    {change : β → α}
    {between : β → Prop}
    (firstNumbers : Numbers assertions start functions between first)
    (holdsChanged : ∀ value, between value → holds (change value)) :
    Numbers assertions start functions holds (first >>= fun value => Pure.pure (change value)) :=
  firstNumbers.finish fun value isBetween => .pure (holdsChanged value isBetween)

theorem decode (context : LoweringContext) (token : Token) :
    Numbers assertions start [] (fun _ => True) (context.decode token) := by
  unfold LoweringContext.decode
  split
  · exact .pure trivial
  · exact .refuse context token _

theorem propertyName (context : LoweringContext) (key : PropertyKey) :
    Numbers assertions start [] (fun _ => True) (context.propertyName key) := by
  cases key with
  | name token => exact .pure trivial
  | string token quote => exact .decode context token
  | number token value => exact .pure trivial

theorem compilePattern (context : LoweringContext) (token : Token) (source flags : String) :
    Numbers assertions start [] (fun _ => True) (context.compilePattern token source flags) := by
  unfold LoweringContext.compilePattern
  split
  · exact .pure trivial
  · exact .refuse context token _

theorem require
    (context : LoweringContext)
    (token : Token)
    (fault : LoweringFault)
    (found : Option α) :
    Numbers assertions start [] (found = some ·) (context.require token fault found) := by
  cases found with
  | some value => exact .pure rfl
  | none => exact .refuse context token fault

/-- A function is kept behind those in its body, and its number is the next one. -/
theorem keepRoutine
    {literal : FunctionLiteral}
    {lowerBody : Lowering (List Action)}
    (ends : Bool)
    (bodyNumbers : Numbers assertions start (Statement.functionsOf assertions literal.body)
      (fun body => Action.mentionsOf body =
        (Statement.placesOf assertions true literal.body start).map Prod.snd) lowerBody) :
    Numbers assertions start (literal.functions assertions)
      (fun routine => routine.number = (literal.place assertions start).2)
      (do
        let lowered ← lowerBody
        ScriptEngine.keepRoutine literal.nameText literal.parameterNames lowered ends) := by
  obtain ⟨token, name, parameters, body⟩ := literal
  refine bodyNumbers.bind fun lowered isBody => ?_
  rintro routines _ _ isStart ⟨⟩
  refine ⟨⟨[_], Array.toList_push, .cons ⟨isStart, rfl, rfl, ?_⟩ .nil⟩, isStart⟩
  rw [FunctionLiteral.innerPlaces]
  dsimp only [FunctionLiteral.body] at isBody ⊢
  rw [Nat.add_sub_cancel]
  exact isBody

end Numbers

end Lowering

/-! ## Lowering numbers functions -/

namespace LoweringContext

variable (context : LoweringContext)

@[simp] theorem assertions_under (names : List String) (isLoop : Bool) :
    (context.under names isLoop).assertions = context.assertions :=
  rfl

@[simp] theorem assertions_inLoop : context.inLoop.assertions = context.assertions :=
  rfl

@[simp] theorem assertions_inSelect : context.inSelect.assertions = context.assertions :=
  rfl

end LoweringContext

theorem AssignmentOperator.ofText?_eq_some_plain_iff (text : String) :
    AssignmentOperator.ofText? text = some .plain ↔ text = "=" := by
  unfold AssignmentOperator.ofText?
  split
  · simp_all
  · split <;> simp_all

/-- A call that asserts something mentions what this mentions. -/
theorem Expression.mentions_soleArgument
    {assertion : Expression}
    {callee : Token}
    {arguments : List Expression}
    {context : LoweringContext}
    {routines after : Array Routine}
    {term : Term}
    (isAssertion : assertion.assertion? = some (callee, arguments))
    (isOne : arguments.length = 1)
    (lowered : assertion.lower context routines = .ok (term, after)) :
    term.soleArgument.mentions = term.mentions := by
  obtain ⟨asserted, rfl⟩ := List.length_eq_one_iff.mp isOne
  unfold assertion? at isAssertion
  split at isAssertion
  · split at isAssertion
    · cases isAssertion
      simp only [lower, lowerAll, bind, StateT.bind] at lowered
      cases ran : asserted.lower context routines with
      | error error =>
          rw [ran] at lowered
          cases lowered
      | ok result =>
          rw [ran] at lowered
          cases lowered
          -- The name that is called stands for no function.
          split <;> simp [Term.soleArgument, Term.mentions, Term.mentionsOf, Place.mentions]
    · cases isAssertion
  · cases isAssertion

namespace Lowering

/-- The functions of any syntax are kept in their order, and where one has its place in it the
code mentions its number.  What is no place of a value is refused by what follows. -/
def numbering : Claims where
  ofExpression expression step := ∀ (context : LoweringContext) start,
    Numbers context.assertions start (expression.functions context.assertions)
      (fun term => term.mentions =
        (expression.places context.assertions true start).map Prod.snd) (step context)
  ofPlace expression step := ∀ (context : LoweringContext) start (functions : List FunctionLiteral)
      (holds : Term → Prop) (next : Option Place → Lowering Term),
    (∀ place, place.mentions = (expression.places context.assertions true start).map Prod.snd →
      Numbers context.assertions (start + (expression.functions context.assertions).length)
        functions holds (next (some place))) →
    (∀ start functions, Numbers context.assertions start functions holds (next none)) →
    Numbers context.assertions start (expression.functions context.assertions ++ functions) holds
      (step context >>= next)
  ofExpressions expressions step := ∀ (context : LoweringContext) start,
    Numbers context.assertions start (Expression.functionsOf context.assertions expressions)
      (fun terms => Term.mentionsOf terms =
        (Expression.placesOf context.assertions true expressions start).map Prod.snd)
      (step context)
  ofOption expression step := ∀ (context : LoweringContext) start,
    Numbers context.assertions start (Expression.functionsOfOption context.assertions expression)
      (fun term => Term.mentionsOfOption term =
        (Expression.placesOfOption context.assertions true expression start).map Prod.snd)
      (step context)
  ofProperties properties step := ∀ (context : LoweringContext) start,
    Numbers context.assertions start (Property.functionsOf context.assertions properties)
      (fun entries => Entry.mentionsOf entries =
        (Property.placesOf context.assertions true properties start).map Prod.snd)
      (step context)
  ofFunction literal step := ∀ (context : LoweringContext) start,
    Numbers context.assertions start (literal.functions context.assertions)
      (fun routine => routine.number = (literal.place context.assertions start).2) (step context)
  ofDeclarators declarators step := ∀ (context : LoweringContext) start,
    Numbers context.assertions start (Declarator.functionsOf context.assertions declarators)
      (fun bindings => Binding.mentionsOf bindings =
        (Declarator.placesOf context.assertions true declarators start).map Prod.snd)
      (step context)
  ofClauses clauses step := ∀ (context : LoweringContext) hasDefault start,
    Numbers context.assertions start (Clause.functionsOf context.assertions clauses)
      (fun cases => Case.mentionsOf cases =
        (Clause.placesOf context.assertions true clauses start).map Prod.snd)
      (step context hasDefault)
  ofStatement statement step := ∀ (context : LoweringContext) labels start,
    Numbers context.assertions start (statement.functions context.assertions)
      (fun action => Action.mentionsOfOption action =
        (statement.places context.assertions true start).map Prod.snd) (step context labels)
  ofStatements statements step := ∀ (context : LoweringContext) start,
    Numbers context.assertions start (Statement.functionsOf context.assertions statements)
      (fun body => Action.mentionsOf body =
        (Statement.placesOf context.assertions true statements start).map Prod.snd)
      (step context)
  ofStatementOption statement step := ∀ (context : LoweringContext) start,
    Numbers context.assertions start (Statement.functionsOfOption context.assertions statement)
      (fun action => Action.mentionsOfOption action =
        (Statement.placesOfOption context.assertions true statement start).map Prod.snd)
      (step context)
  ofAlternative statement step := ∀ (context : LoweringContext) start,
    Numbers context.assertions start (Statement.functionsOfOption context.assertions statement)
      (fun body => Action.mentionsOfAlternative body =
        (Statement.placesOfOption context.assertions true statement start).map Prod.snd)
      (step context)

/-- The functions of an expression are those of its parts, in the order of evaluation. -/
theorem numbering_expressions : numbering.ExpressionCases where
  name _ _ := by
    refine .pure ?_
    split <;> rfl
  number _ _ := .pure rfl
  string context _ := .map (.decode context _) fun _ _ => rfl
  boolean _ _ := .pure rfl
  regex context _ := .map (.compilePattern context _ _ _) fun _ _ => rfl
  this _ _ := .pure rfl
  function numbers context start :=
    .map (numbers context start) fun _ isNumber => congrArg (fun number => [number]) isNumber
  array numbers context start := .map (numbers context start) fun _ mentions => mentions
  object numbers context start := .map (numbers context start) fun _ mentions => mentions
  signed context start := by
    dsimp only
    split
    · exact .pure rfl
    · exact .map (.require context _ _ _) fun _ _ => rfl
  unary numbers context start :=
    (numbers context start).finish fun _ mentions =>
      .map (.require context _ _ _) fun _ _ => mentions
  typeofName _ _ := by
    refine .pure ?_
    split <;> rfl
  typeof numbers context start := .map (numbers context start) fun _ mentions => mentions
  delete {_ target} _ numbers context start := by
    rw [Expression.functions, ← List.append_nil (target.functions context.assertions)]
    exact numbers context start _ _ _ (fun place isPlace => .pure isPlace)
      fun _ _ => .refuse _ _ _
  binary left right context start := by
    refine (left context start).bind fun left isLeft =>
      (right context _).finish fun right isRight =>
        .map (.require context _ _ _) fun operator _ => ?_
    cases operator <;> simp [Term.mentions, Expression.places, isLeft, isRight]
  assign {token _ _ _} _ target value context start := by
    rw [Expression.functions]
    refine target context start _ _ _ (fun place isPlace => ?_) fun _ _ => .refuse _ _ _
    refine (value context _).finish fun value isValue =>
      .map (.require context _ _ _) fun operator isOperator => ?_
    have isPlain := AssignmentOperator.ofText?_eq_some_plain_iff token.literal
    rw [isOperator, Option.some_inj] at isPlain
    cases operator with
    | plain => simp [Term.mentions, Expression.places, isPlace, isValue, isPlain.mp rfl]
    | combine operator =>
        have isCombined : token.literal ≠ "=" := fun same => nomatch isPlain.mpr same
        simp [Term.mentions, Expression.places, isPlace, isValue, isCombined]
  update {_ _ _ target} _ numbers context start := by
    rw [Expression.functions, ← List.append_nil (target.functions context.assertions)]
    exact numbers context start _ _ _ (fun place isPlace => .pure isPlace)
      fun _ _ => .refuse _ _ _
  conditional condition consequence alternative context start :=
    (condition context start).bind fun _ isCondition =>
      (consequence context _).bind fun _ isConsequence =>
        .map (alternative context _) fun _ isAlternative => by
          simp [Term.mentions, Expression.places, isCondition, isConsequence, isAlternative]
  sequence first rest context start :=
    (first context start).bind fun _ isFirst => .map (rest context _) fun _ isRest => by
      simp [Term.mentions, Term.mentionsOf, Expression.places, isFirst, isRest]
  callMember base arguments context start :=
    (arguments context start).bind fun _ areArguments =>
      .map (base context _) fun _ isBase => by
        simp [Term.mentions, Key.mentions, Expression.places, isBase, areArguments]
  callIndex base key arguments context start := by
    refine (arguments context start).bind fun _ areArguments =>
      (base context _).bind fun _ isBase => .map (key context _) fun _ isKey => ?_
    simp [Term.mentions, Key.mentions, Expression.places, isBase, isKey, areArguments]
  call callee arguments context start :=
    (arguments context start).bind fun _ areArguments =>
      .map (callee context _) fun _ isCallee => by
        rw [Term.mentions, Expression.places, List.map_append, isCallee, areArguments]
  construct constructor arguments context start :=
    (constructor context start).bind fun _ isConstructor =>
      .map (arguments context _) fun _ areArguments => by
        simp [Term.mentions, Expression.places, isConstructor, areArguments]
  member base context start := .map (base context start) fun _ isBase => by
    simp [Term.mentions, Place.mentions, Key.mentions, Expression.places, isBase]
  index base key context start :=
    (base context start).bind fun _ isBase => .map (key context _) fun _ isKey => by
      simp [Term.mentions, Place.mentions, Key.mentions, Expression.places, isBase, isKey]

/-- The functions of a list are those of its elements, and a function comes behind its inner ones. -/
theorem numbering_parts : numbering.PartCases where
  variablePlace _ _ _ _ _ found _ := found _ rfl
  memberPlace base context start functions holds next found _ := by
    rw [bind_assoc]
    refine (base context start).bind fun lowered isBase => found (.property lowered (.fixed _)) ?_
    rw [Place.mentions, Key.mentions, List.append_nil, isBase, Expression.places]
  indexPlace base key context start functions holds next found _ := by
    rw [bind_assoc, Expression.functions, List.append_assoc]
    refine (base context start).bind fun lowered isBase => ?_
    rw [bind_assoc]
    refine (key context _).bind fun name isKey => ?_
    rw [Nat.add_assoc, ← List.length_append]
    refine found (.property lowered (.computed name)) ?_
    rw [Place.mentions, Key.mentions, isBase, isKey, Expression.places, List.map_append]
  noPlace _ _ _ _ _ _ refused := refused _ _
  noExpressions _ _ := .pure rfl
  moreExpressions first rest context start :=
    (first context start).bind fun _ isFirst => .map (rest context _) fun _ isRest => by
      rw [Term.mentionsOf, Expression.placesOf, List.map_append, isFirst, isRest]
  noExpression _ _ := .pure rfl
  someExpression value context start := .map (value context start) fun _ isValue => isValue
  noProperties _ _ := .pure rfl
  moreProperties value rest context start :=
    (Numbers.propertyName context _).bind fun _ _ =>
      (value context start).bind fun _ isValue => .map (rest context _) fun _ isRest => by
        rw [Entry.mentionsOf, Property.placesOf, List.map_append, isValue, isRest]
  function {_ name _ body} numbers context start := by
    cases name with
    | none => exact .keepRoutine (endsInReturn body) (numbers context.inFunction start)
    | some name => exact .keepRoutine (endsInReturn body) (numbers context.inFunction start)
  noDeclarators _ _ := .pure rfl
  moreDeclarators value rest context start :=
    (value context start).bind fun _ isValue => .map (rest context _) fun _ isRest => by
      rw [Binding.mentionsOf, Declarator.placesOf, List.map_append, isValue, isRest]
  noClauses _ _ _ := .pure rfl
  moreClauses condition body rest context hasDefault start := by
    dsimp only
    split
    · exact .refuse _ _ _
    · exact (condition context start).bind fun _ isCondition =>
        (body context _).bind fun _ isBody => .map (rest context _ _) fun _ isRest => by
          simp [Case.mentionsOf, Clause.placesOf, isCondition, isBody, isRest]
  noStatements _ _ := .pure rfl
  moreStatements first rest context start := by
    refine (first context [] start).bind fun _ isFirst =>
      .map (rest context _) fun _ isRest => ?_
    rw [Action.mentionsOf_append, Action.mentionsOf_toList, Statement.placesOf,
      List.map_append, isFirst, isRest]
  noStatement _ _ := .pure rfl
  someStatement statement context start := statement context [] start
  noAlternative _ _ := .pure rfl
  someAlternative statement context start :=
    .map (statement context [] start) fun lowered isLowered =>
      (Action.mentionsOf_asBody lowered).trans isLowered

/-- An assertion has functions only if it is checked. -/
theorem numbering_statements : numbering.StatementCases where
  labeled body context labels start := by
    dsimp only
    split
    · exact .refuse _ _ _
    · exact body context _ start
  whileLoop condition body context labels start :=
    (condition (context.under labels true) start).bind fun _ isCondition =>
      .map (body _ _ _) fun _ isBody => by
        simp [Action.mentionsOfOption, Action.mentions, Statement.places, isCondition, isBody]
  forLoop first condition update body context labels start :=
    (first (context.under labels true) start).bind fun _ isFirst =>
      (condition _ _).bind fun _ isCondition => (update _ _).bind fun _ isUpdate =>
        .map (body _ [] _) fun _ isBody => by
          simp [Action.mentionsOfOption, Action.mentions, Statement.places, isFirst,
            isCondition, isUpdate, isBody]
  forIn subject body context labels start :=
    (subject (context.under labels true) start).bind fun _ isSubject =>
      .map (body _ _ _) fun _ isBody => by
        simp [Action.mentionsOfOption, Action.mentions, Statement.places, isSubject, isBody]
  evaluated {_ value} isAssertion numbers context labels start := by
    have valueNumbers := numbers (context.under labels false) start
    simp only [Statement.functions, Statement.places, isAssertion, Option.isSome_none,
      Bool.false_and, Bool.false_eq_true, if_false]
    refine valueNumbers.map fun _ isValue => ?_
    rw [Action.mentionsOfOption_underLabels]
    exact isValue
  asserted isAssertion numbers context labels start := by
    have valueNumbers := numbers (context.under labels false) start
    rw [LoweringContext.assertions_under] at valueNumbers
    simp only [Statement.functions, Statement.places, isAssertion, Option.isSome_some,
      Bool.true_and]
    split
    · exact .pure (Action.mentionsOfOption_underLabels labels none)
    · split
      · rename_i isOne
        refine valueNumbers.given.map fun term found => ?_
        obtain ⟨isValue, routines, after, lowered⟩ := found
        rw [Action.mentionsOfOption_underLabels]
        exact (Expression.mentions_soleArgument isAssertion isOne lowered).trans isValue
      · exact .refuse _ _ _
  declare numbers context labels start := by
    refine .map (numbers (context.under labels false) start) fun _ areDeclared => ?_
    rw [Action.mentionsOfOption_underLabels]
    exact areDeclared
  define numbers context labels start := by
    refine (numbers (context.under labels false) start).finish fun routine isNumber => ?_
    split
    · exact .refuse _ _ _
    · refine .pure ?_
      rw [Action.mentionsOfOption_underLabels]
      exact congrArg (fun number => [number]) isNumber
  giveBack numbers context labels start := by
    refine .map (numbers (context.under labels false) start) fun _ isValue => ?_
    rw [Action.mentionsOfOption_underLabels]
    exact isValue
  empty _ labels _ := .pure (Action.mentionsOfOption_underLabels labels none)
  block numbers context labels start := by
    refine .map (numbers (context.under labels false) start) fun _ isBody => ?_
    rw [Action.mentionsOfOption_underLabels]
    exact isBody
  branch condition consequence alternative context labels start :=
    (condition (context.under labels false) start).bind fun _ isCondition =>
      (consequence _ _ _).bind fun _ isConsequence =>
        .map (alternative _ _) fun _ isAlternative => by
          simp [Action.mentionsOfOption, Action.mentions, Statement.places, isCondition,
            isConsequence, isAlternative]
  leave _ labels _ := by
    dsimp only
    split
    · exact .refuse _ _ _
    · exact .pure (Action.mentionsOfOption_underLabels labels _)
  leaveTo _ labels _ := by
    dsimp only
    split
    · exact .pure (Action.mentionsOfOption_underLabels labels _)
    · exact .refuse _ _ _
  again _ labels _ := by
    dsimp only
    split
    · exact .refuse _ _ _
    · exact .pure (Action.mentionsOfOption_underLabels labels _)
  againTo _ labels _ := by
    dsimp only
    split
    · split
      · exact .pure (Action.mentionsOfOption_underLabels labels _)
      · exact .refuse _ _ _
    · exact .refuse _ _ _
  select subject clauses context labels start :=
    (subject (context.under labels false) start).bind fun _ isSubject =>
      .map (clauses _ false _) fun _ areCases => by
        simp [Action.mentionsOfOption, Action.mentions, Statement.places, isSubject, areCases]

theorem numbering_cases : numbering.Cases :=
  ⟨numbering_expressions, numbering_parts, numbering_statements⟩

end Lowering

/-- The functions of code are what those of the program become, and it mentions the same places. -/
theorem Code.numbers_ofProgram
    {assertions : Bool}
    {program : Program}
    {code : Code}
    (compiled : ofProgram assertions program = .ok code) :
    List.Forall₂ (FunctionLiteral.Becomes assertions)
      (Statement.functionsOf assertions program.statements).zipIdx code.routines ∧
    Action.mentionsOf code.main =
      (Statement.placesOf assertions true program.statements 0).map Prod.snd := by
  have numbers := Lowering.numbering_cases.ofStatements program.statements
    (.fresh program.source assertions) 0
  unfold ofProgram ofStatements at compiled
  change Except.bind (Statement.lowerAll _ program.statements #[])
    (fun result => Except.ok (Code.mk result.2.toList result.1)) = _ at compiled
  cases ran : Statement.lowerAll (.fresh program.source assertions) program.statements #[] with
  | error error =>
      rw [ran] at compiled
      cases compiled
  | ok result =>
      rw [ran] at compiled
      cases compiled
      obtain ⟨⟨kept, isKept, becomes⟩, mentions⟩ := numbers #[] result.1 result.2 rfl ran
      refine ⟨?_, mentions⟩
      rw [isKept]
      exact becomes

end ScriptEngine
