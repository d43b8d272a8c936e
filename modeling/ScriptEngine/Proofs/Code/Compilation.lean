import ScriptEngine.Proofs.Code.Induction
import ScriptEngine.Proofs.Code.Jumps
import ScriptEngine.Proofs.Program.Parts

namespace ScriptEngine

/-!
# Lowered programs fit

Lowering keeps track of labels, loops and selections.  This module shows that what
it lets pass is code that fits: a jump it accepts has a target among the
statements around it.  The places in the code, and the places of the errors of
lowering, are those of tokens of the program.
-/

variable {context : LoweringContext} {token : Token}

/-- An error has a place, and one from a set. -/
def ScriptError.PlacedAt (place : Position → Prop) (error : ScriptError) : Prop :=
  ∃ position, error.position = some position ∧ place position

namespace Lowering

/--
What a lowering step does: it fails with an error that has a place, or it gives a
value that satisfies a predicate, and every routine it keeps fits.
-/
def Gives
    (place : Position → Prop)
    (free : Jump → Prop)
    (holds : α → Prop)
    (step : Lowering α) :
    Prop :=
  ∀ routines, (∀ routine ∈ routines, routine.Fits place free) →
    match step routines with
    | .ok (value, after) => holds value ∧ ∀ routine ∈ after, routine.Fits place free
    | .error error => error.PlacedAt place

variable {place : Position → Prop} {free : Jump → Prop} {holds : α → Prop}

theorem Gives.pure {value : α} (holdsValue : holds value) : Gives place free holds (pure value) :=
  fun _ fit => ⟨holdsValue, fit⟩

theorem Gives.bind
    {first : Lowering β}
    {next : β → Lowering α}
    {between : β → Prop}
    (givesFirst : Gives place free between first)
    (givesNext : ∀ value, between value → Gives place free holds (next value)) :
    Gives place free holds (first >>= next) := by
  intro routines fit
  have firstDone := givesFirst routines fit
  change match Except.bind (first routines) fun result => next result.1 result.2 with
    | .ok (value, after) => holds value ∧ ∀ routine ∈ after, routine.Fits place free
    | .error error => error.PlacedAt place
  cases firstRun : first routines with
  | error error =>
      rw [firstRun] at firstDone
      exact firstDone
  | ok result =>
      rw [firstRun] at firstDone
      exact givesNext result.1 firstDone.1 result.2 firstDone.2

/-- Refusing a program gives an error at a token of it. -/
theorem Gives.refuse (known : place (context.positionOf token)) (fault : LoweringFault) :
    Gives place free holds (context.refuse token fault) :=
  fun _ _ => ⟨_, rfl, known⟩

theorem Gives.decode (known : place (context.positionOf token)) :
    Gives place free (fun _ => True) (context.decode token) := by
  unfold LoweringContext.decode
  split
  · exact .pure trivial
  · exact .refuse known _

theorem Gives.propertyName {key : PropertyKey} (known : place (context.positionOf key.token)) :
    Gives place free (fun _ => True) (context.propertyName key) := by
  cases key with
  | name token => exact .pure trivial
  | string token quote => exact .decode known
  | number token value => exact .pure trivial

theorem Gives.compilePattern (known : place (context.positionOf token)) (source flags : String) :
    Gives place free (fun _ => True) (context.compilePattern token source flags) := by
  unfold LoweringContext.compilePattern
  split
  · exact .pure trivial
  · exact .refuse known _

theorem Gives.require
    (known : place (context.positionOf token))
    (fault : LoweringFault)
    (found : Option α) :
    Gives place free (fun _ => True) (context.require token fault found) := by
  cases found with
  | some value => exact .pure trivial
  | none => exact .refuse known fault

/-- A function whose body fits on its own is kept. -/
theorem Gives.keepRoutine
    (name : String)
    (parameters : List String)
    {body : List Action}
    (endsInReturn : Bool)
    (fits : ∀ action ∈ body, action.Fits place free free) :
    Gives place free (Routine.Fits place free) (keepRoutine name parameters body endsInReturn) := by
  intro routines fit
  refine ⟨.mk fits, fun routine member => ?_⟩
  rcases Array.mem_push.mp member with earlier | isNew
  · exact fit routine earlier
  · rw [isNew]
    exact .mk fits

end Lowering

namespace LoweringContext

/-- The jumps that lowering lets pass in a context. -/
def permits (context : LoweringContext) : Jump → Prop
  | .leave none => ¬(context.loops = 0 ∧ context.switches = 0)
  | .leave (some label) => (context.findLabel? label).isSome = true
  | .again none => context.loops ≠ 0
  | .again (some label) => ∃ active, context.findLabel? label = some active ∧ active.isLoop = true

/-- A function starts without targets, so nothing is permitted that needs one. -/
theorem permits_fresh
    (source : Source)
    (assertions : Bool)
    (jumps : Jump → Prop)
    (jump : Jump) :
    (fresh source assertions).permits jump → jumps jump := by
  rcases jump with (_ | label) | (_ | label) <;> simp [permits, fresh, findLabel?]

/-- The innermost label of a name is one of those just added, or it is as before. -/
theorem findLabel?_under
    (context : LoweringContext)
    (labels : List String)
    (isLoop : Bool)
    (label : String) :
    (context.under labels isLoop).findLabel? label =
      if label ∈ labels then some ⟨label, isLoop⟩ else context.findLabel? label := by
  have added :
      List.find? (·.name == label) (labels.map (ActiveLabel.mk · isLoop)).reverse =
        if label ∈ labels then some ⟨label, isLoop⟩ else none := by
    rw [← List.map_reverse]
    by_cases member : label ∈ labels
    · rw [if_pos member]
      obtain ⟨found, isFound⟩ :=
        Option.isSome_iff_exists.mp
          (List.find?_isSome.mpr
            ⟨⟨label, isLoop⟩, List.mem_map_of_mem (List.mem_reverse.mpr member), by simp⟩ :
            (List.find? (·.name == label)
              (labels.reverse.map (ActiveLabel.mk · isLoop))).isSome = true)
      obtain ⟨name, _, isNamed⟩ := List.mem_map.mp (List.mem_of_find?_eq_some isFound)
      have named := List.find?_some isFound
      subst isNamed
      rw [isFound, ← eq_of_beq named]
    · rw [if_neg member, List.find?_eq_none]
      intro active isActive
      obtain ⟨name, isName, rfl⟩ := List.mem_map.mp isActive
      simp only [beq_iff_eq]
      rintro rfl
      exact member (List.mem_reverse.mp isName)
  unfold findLabel? under
  rw [List.find?_append, added]
  split <;> simp

/-- What is permitted in the body of a loop has the loop or something around it as its target. -/
theorem permits_loop
    {jumps : Jump → Prop}
    (action : Action)
    (isLoop : action.isLoop = true)
    (allowed : ∀ jump, context.permits jump → jumps jump)
    (jump : Jump)
    (permitted : (context.under action.labels true).inLoop.permits jump) :
    action.inside jumps jump := by
  have sameLabels (label : String) :
      (context.under action.labels true).inLoop.findLabel? label =
        (context.under action.labels true).findLabel? label := rfl
  rcases jump with (_ | label) | (_ | label)
  · exact .inl (by simp [Action.catches, isLoop])
  · by_cases member : label ∈ action.labels
    · exact .inl (by simp [Action.catches, member])
    · refine .inr (allowed _ ?_)
      simpa [permits, sameLabels, findLabel?_under, member] using permitted
  · exact .inl (by simp [Action.catches, isLoop])
  · by_cases member : label ∈ action.labels
    · exact .inl (by simp [Action.catches, isLoop, member])
    · refine .inr (allowed _ ?_)
      simpa [permits, sameLabels, findLabel?_under, member] using permitted

/-- What is permitted under labels has one of them or something around as its target. -/
theorem permits_under
    {jumps : Jump → Prop}
    (action : Action)
    {labels : List String}
    {isLoop : Bool}
    (carries : action.labels = labels)
    (loops : isLoop = true → action.isLoop = true)
    (allowed : ∀ jump, context.permits jump → jumps jump)
    (jump : Jump)
    (permitted : (context.under labels isLoop).permits jump) :
    action.inside jumps jump := by
  subst carries
  rcases jump with (_ | label) | (_ | label)
  · exact .inr (allowed _ permitted)
  · by_cases member : label ∈ action.labels
    · exact .inl (by simp [Action.catches, member])
    · refine .inr (allowed _ ?_)
      simpa [permits, findLabel?_under, member] using permitted
  · exact .inr (allowed _ permitted)
  · by_cases member : label ∈ action.labels
    · have looping : isLoop = true := by
        simpa [permits, findLabel?_under, member] using permitted
      exact .inl (by simp [Action.catches, loops looping, member])
    · refine .inr (allowed _ ?_)
      simpa [permits, findLabel?_under, member] using permitted

/-- What is permitted under the labels of a statement that is no loop has a target. -/
theorem permits_labeled
    {jumps : Jump → Prop}
    (labels : List String)
    (allowed : ∀ jump, context.permits jump → jumps jump) :
    ∀ jump, (context.under labels false).permits jump →
      (Action.labeled labels []).inside jumps jump :=
  permits_under _ rfl (fun loops => nomatch loops) allowed

/-- What is permitted in a selection has it or something around it as its target. -/
theorem permits_select
    {jumps : Jump → Prop}
    (action : Action)
    (isSelect : action.isSelect = true)
    (allowed : ∀ jump, context.permits jump → jumps jump)
    (jump : Jump)
    (permitted : context.inSelect.permits jump) :
    action.inside jumps jump := by
  rcases jump with (_ | label) | (_ | label)
  · exact .inl (by simp [Action.catches, isSelect])
  · exact .inr (allowed _ permitted)
  · exact .inr (allowed _ permitted)
  · exact .inr (allowed _ permitted)

end LoweringContext

/-- A token has its place in a source in a set. -/
abbrev Token.StandsAt (place : Position → Prop) (source : Source) (token : Token) : Prop :=
  place (token.position source)

/-- The tokens of a piece of syntax have their places in a set. -/
abbrev LoweringContext.Knows
    (context : LoweringContext)
    (place : Position → Prop)
    (tokens : List Token) :
    Prop :=
  Token.Known (Token.StandsAt place context.source) tokens

/-- The token an expression starts with is known with the others. -/
theorem Expression.known_startToken
    {place : Position → Prop}
    {source : Source}
    {expression : Expression}
    (known : Token.Known (Token.StandsAt place source) expression.tokens) :
    place (expression.startToken.position source) :=
  known _ expression.startToken_mem_tokens

/-- The name of an assertion is known with the other tokens. -/
theorem Expression.known_assertion
    {place : Position → Prop}
    {source : Source}
    {expression : Expression}
    {callee : Token}
    {arguments : List Expression}
    (isAssertion : expression.assertion? = some (callee, arguments))
    (known : Token.Known (Token.StandsAt place source) expression.tokens) :
    place (callee.position source) := by
  unfold assertion? at isAssertion
  split at isAssertion
  · split at isAssertion
    · cases isAssertion
      simp only [tokens, Token.known_cons, Token.known_append] at known
      exact known.2.1.1
    · cases isAssertion
  · cases isAssertion

/-- The argument of a fitting call fits. -/
theorem Term.Fits.soleArgument
    {place : Position → Prop}
    {free : Jump → Prop}
    {term : Term}
    (fits : term.Fits place free) :
    term.soleArgument.Fits place free := by
  unfold Term.soleArgument
  split
  · cases fits with
    | call _ fitsArguments _ => exact fitsArguments _ (by simp)
  · exact fits

namespace Action

variable {place : Position → Prop} {free jumps : Jump → Prop}

/-- The statements of a body fit where the lowered statement does. -/
theorem fits_asBody
    {lowered : Option Action}
    (fits : ∀ action ∈ lowered, action.Fits place free jumps) :
    ∀ action ∈ asBody lowered, action.Fits place free jumps := by
  intro action member
  unfold asBody at member
  split at member
  · cases fits _ rfl with
    | block body => exact body action member
  · rw [List.mem_singleton.mp member]
    exact fits _ rfl
  · simp at member

theorem fits_some {action : Action} (fits : action.Fits place free jumps) :
    ∀ other ∈ some action, other.Fits place free jumps := by
  rintro other ⟨⟩
  exact fits

/-- What fits under labels may be put under them. -/
theorem fits_underLabels
    {labels : List String}
    {lowered : Option Action}
    (fits : ∀ action ∈ lowered, action.Fits place free ((Action.labeled labels []).inside jumps)) :
    ∀ action ∈ underLabels labels lowered, action.Fits place free jumps := by
  intro action member
  unfold underLabels at member
  split at member
  · rename_i noLabels
    have none : labels = [] := by simpa using noLabels
    subst none
    rw [inside_eq_self rfl rfl rfl] at fits
    exact fits action member
  · rw [← Option.mem_some.mp member]
    exact .labeled (fits_asBody fits)

end Action

open Lowering (Gives)

namespace Lowering

variable (place : Position → Prop) (free : Jump → Prop)

/-- What is lowered fits, if its tokens have their places in a set.  A statement fits where what
its context permits has a target. -/
def fitting : Claims where
  ofExpression expression step := ∀ context : LoweringContext,
    context.Knows place expression.tokens →
      Gives place free (Term.Fits place free) (step context)
  ofPlace expression step := ∀ context : LoweringContext,
    context.Knows place expression.tokens →
      Gives place free (fun lowered => ∀ target ∈ lowered, Place.Fits place free target)
        (step context)
  ofExpressions expressions step := ∀ context : LoweringContext,
    context.Knows place (Expression.tokensAll expressions) →
      Gives place free (fun terms => ∀ term ∈ terms, Term.Fits place free term) (step context)
  ofOption expression step := ∀ context : LoweringContext,
    context.Knows place (Expression.tokensOption expression) →
      Gives place free (fun lowered => ∀ term ∈ lowered, Term.Fits place free term) (step context)
  ofProperties properties step := ∀ context : LoweringContext,
    context.Knows place (Property.tokensAll properties) →
      Gives place free (fun entries => ∀ entry ∈ entries, Entry.Fits place free entry)
        (step context)
  ofFunction literal step := ∀ context : LoweringContext,
    context.Knows place literal.tokens →
      Gives place free (Routine.Fits place free) (step context)
  ofDeclarators declarators step := ∀ context : LoweringContext,
    context.Knows place (Declarator.tokensAll declarators) →
      Gives place free (fun bindings => ∀ binding ∈ bindings, Binding.Fits place free binding)
        (step context)
  ofClauses clauses step := ∀ (context : LoweringContext) (jumps : Jump → Prop) hasDefault,
    (∀ jump, context.permits jump → jumps jump) →
    context.Knows place (Clause.tokensAll clauses) →
      Gives place free (fun cases => ∀ clause ∈ cases, Case.Fits place free jumps clause)
        (step context hasDefault)
  ofStatement statement step := ∀ (context : LoweringContext) (jumps : Jump → Prop) labels,
    (∀ jump, context.permits jump → jumps jump) →
    context.Knows place statement.tokens →
      Gives place free (fun lowered => ∀ action ∈ lowered, action.Fits place free jumps)
        (step context labels)
  ofStatements statements step := ∀ (context : LoweringContext) (jumps : Jump → Prop),
    (∀ jump, context.permits jump → jumps jump) →
    context.Knows place (Statement.tokensAll statements) →
      Gives place free (fun body => ∀ action ∈ body, action.Fits place free jumps) (step context)
  ofStatementOption statement step := ∀ (context : LoweringContext) (jumps : Jump → Prop),
    (∀ jump, context.permits jump → jumps jump) →
    context.Knows place (Statement.tokensOption statement) →
      Gives place free (fun lowered => ∀ action ∈ lowered, action.Fits place free jumps)
        (step context)
  ofAlternative statement step := ∀ (context : LoweringContext) (jumps : Jump → Prop),
    (∀ jump, context.permits jump → jumps jump) →
    context.Knows place (Statement.tokensOption statement) →
      Gives place free (fun lowered => ∀ action ∈ lowered.getD [], action.Fits place free jumps)
        (step context)

variable {place free}

/-- An expression fits if its parts do. -/
theorem fitting_expressions : (fitting place free).ExpressionCases where
  name context known := by
    refine .pure ?_
    split
    · exact .constant _
    · refine .read (.variable _) ?_
      simpa [Expression.tokens, LoweringContext.positionOf] using known
  number _ _ := .pure (.constant _)
  string context known := by
    refine .bind (.decode ?_) fun _ _ => .pure (.constant _)
    simpa [Expression.tokens, LoweringContext.positionOf] using known
  boolean _ _ := .pure (.constant _)
  regex context known := by
    refine .bind (.compilePattern ?_ _ _) fun _ _ => .pure (.pattern _)
    simpa [Expression.tokens, LoweringContext.positionOf] using known
  this _ _ := .pure .this
  function gives context known :=
    .bind (gives context (by simpa [Expression.tokens] using known))
      fun _ fits => .pure (.closure fits)
  array gives context known := by
    simp only [Expression.tokens, Token.known_cons] at known
    exact .bind (gives context known.2) fun _ fits => .pure (.array fits)
  object gives context known := by
    simp only [Expression.tokens, Token.known_cons] at known
    exact .bind (gives context known.2) fun _ fits => .pure (.object fits)
  signed context known := by
    simp only [Expression.tokens, Token.known_cons] at known
    dsimp only
    split
    · exact .pure (.constant _)
    · exact .bind (.require known.1 _ _) fun _ _ => .pure (.unary (.constant _) known.1)
  unary gives context known := by
    simp only [Expression.tokens, Token.known_cons] at known
    refine .bind (gives context known.2) fun _ fits => ?_
    exact .bind (.require known.1 _ _) fun _ _ => .pure (.unary fits known.1)
  typeofName context _ := by
    refine .pure ?_
    split
    · exact .typeof (.constant _)
    · exact .typeofVariable _
  typeof gives context known := by
    simp only [Expression.tokens, Token.known_cons] at known
    exact .bind (gives context known.2) fun _ fits => .pure (.typeof fits)
  delete _ gives context known := by
    simp only [Expression.tokens, Token.known_cons] at known
    refine .bind (gives context known.2) fun lowered fits => ?_
    split
    · exact .pure (.delete (fits _ rfl) known.1)
    · exact .refuse (Expression.known_startToken known.2) _
  binary leftGives rightGives context known := by
    simp only [Expression.tokens, Token.known_cons, Token.known_append] at known
    refine .bind (leftGives context known.2.1) fun _ fitsLeft => ?_
    refine .bind (rightGives context known.2.2) fun _ fitsRight => ?_
    refine .bind (.require (Expression.known_startToken known.2.1) _ _) fun operator _ => .pure ?_
    cases operator with
    | strict operator => exact .strict fitsLeft fitsRight known.1
    | both => exact .both fitsLeft fitsRight
    | either => exact .either fitsLeft fitsRight
  assign _ targetGives valueGives context known := by
    simp only [Expression.tokens, Token.known_cons, Token.known_append] at known
    have start := Expression.known_startToken known.2.1
    refine .bind (targetGives context known.2.1) fun lowered fits => ?_
    split
    · exact .refuse start _
    · refine .bind (valueGives context known.2.2) fun _ fitsValue => ?_
      refine .bind (.require start _ _) fun operator _ => .pure ?_
      cases operator with
      | plain => exact .assign (fits _ rfl) fitsValue known.1
      | combine operator => exact .combine (fits _ rfl) fitsValue known.1
  update {_ _ fixity _} _ gives context known := by
    simp only [Expression.tokens, Token.known_cons] at known
    have start := Expression.known_startToken known.2
    refine .bind (gives context known.2) fun lowered fits => ?_
    split
    · exact .refuse start _
    · refine .pure (.update (fits _ rfl) ?_)
      cases fixity with
      | before => exact known.1
      | after => exact start
  conditional isTested isMet isUnmet context known := by
    simp only [Expression.tokens, Token.known_cons, Token.known_append] at known
    refine .bind (isTested context known.2.1.1) fun _ fitsFirst => ?_
    refine .bind (isMet context known.2.1.2) fun _ fitsThen => ?_
    refine .bind (isUnmet context known.2.2) fun _ fitsElse => ?_
    exact .pure (.conditional fitsFirst fitsThen fitsElse)
  sequence firstGives restGives context known := by
    simp only [Expression.tokens, Token.known_cons, Token.known_append] at known
    refine .bind (firstGives context known.2.1) fun _ fitsFirst => ?_
    refine .bind (restGives context known.2.2) fun _ fitsRest => ?_
    exact .pure (.sequence (List.forall_mem_cons.mpr ⟨fitsFirst, fitsRest⟩))
  callMember baseGives argumentsGive context known := by
    simp only [Expression.tokens, Token.known_cons, Token.known_append] at known
    have start := Expression.known_startToken known.2.1.2.2
    refine .bind (argumentsGive context known.2.2) fun _ fitsAll => ?_
    refine .bind (baseGives context known.2.1.2.2) fun _ fits => ?_
    exact .pure (.callMethod fits (.fixed _) fitsAll start)
  callIndex baseGives keyGives argumentsGive context known := by
    simp only [Expression.tokens, Token.known_cons, Token.known_append] at known
    have start := Expression.known_startToken known.2.1.2.1
    refine .bind (argumentsGive context known.2.2) fun _ fitsAll => ?_
    refine .bind (baseGives context known.2.1.2.1) fun _ fits => ?_
    refine .bind (keyGives context known.2.1.2.2) fun _ fitsKey => ?_
    exact .pure (.callMethod fits (.computed fitsKey) fitsAll start)
  call calleeGives argumentsGive context known := by
    simp only [Expression.tokens, Token.known_cons, Token.known_append] at known
    have start := Expression.known_startToken known.2.1
    refine .bind (argumentsGive context known.2.2) fun _ fitsAll => ?_
    exact .bind (calleeGives context known.2.1) fun _ fits => .pure (.call fits fitsAll start)
  construct constructorGives argumentsGive context known := by
    simp only [Expression.tokens, Token.known_cons, Token.known_append] at known
    refine .bind (constructorGives context known.2.1) fun _ fits => ?_
    refine .bind (argumentsGive context known.2.2) fun _ fitsAll => ?_
    exact .pure (.construct fits fitsAll known.1)
  member gives context known := by
    simp only [Expression.tokens, Token.known_cons] at known
    refine .bind (gives context known.2.2) fun _ fits => ?_
    exact .pure (.read (.property fits (.fixed _)) (Expression.known_startToken known.2.2))
  index baseGives keyGives context known := by
    simp only [Expression.tokens, Token.known_cons, Token.known_append] at known
    refine .bind (baseGives context known.2.1) fun _ fits => ?_
    refine .bind (keyGives context known.2.2) fun _ fitsKey => ?_
    exact .pure (.read (.property fits (.computed fitsKey))
      (Expression.known_startToken known.2.1))

/-- Lists fit if their elements do, and a function fits since its body starts without targets. -/
theorem fitting_parts : (fitting place free).PartCases where
  variablePlace _ _ := .pure (by rintro _ ⟨⟩; exact .variable _)
  memberPlace gives context known := by
    simp only [Expression.tokens, Token.known_cons] at known
    refine .bind (gives context known.2.2) fun _ fits => .pure ?_
    rintro _ ⟨⟩
    exact .property fits (.fixed _)
  indexPlace baseGives keyGives context known := by
    simp only [Expression.tokens, Token.known_cons, Token.known_append] at known
    refine .bind (baseGives context known.2.1) fun _ fits => ?_
    refine .bind (keyGives context known.2.2) fun _ fitsKey => .pure ?_
    rintro _ ⟨⟩
    exact .property fits (.computed fitsKey)
  noPlace _ _ := .pure (by simp)
  noExpressions _ _ := .pure (by simp)
  moreExpressions firstGives restGives context known := by
    simp only [Expression.tokensAll, Token.known_append] at known
    refine .bind (firstGives context known.1) fun _ fitsFirst => ?_
    refine .bind (restGives context known.2) fun _ fitsRest => ?_
    exact .pure (List.forall_mem_cons.mpr ⟨fitsFirst, fitsRest⟩)
  noExpression _ _ := .pure (by simp)
  someExpression gives context known := by
    refine .bind (gives context (by simpa [Expression.tokensOption] using known)) fun _ fits => ?_
    exact .pure (by simpa using fits)
  noProperties _ _ := .pure (by simp)
  moreProperties valueGives restGives context known := by
    simp only [Property.tokensAll, Token.known_cons, Token.known_append] at known
    refine .bind (.propertyName known.1) fun _ _ => ?_
    refine .bind (valueGives context known.2.1) fun _ fitsValue => ?_
    refine .bind (restGives context known.2.2) fun _ fitsRest => ?_
    exact .pure (List.forall_mem_cons.mpr ⟨.mk fitsValue, fitsRest⟩)
  function gives context known := by
    simp only [FunctionLiteral.tokens, Token.known_cons, Token.known_append] at known
    refine .bind (gives context.inFunction free
      (LoweringContext.permits_fresh context.source context.assertions free) known.2.2)
      fun _ fits => ?_
    exact .keepRoutine _ _ _ fits
  noDeclarators _ _ := .pure (by simp)
  moreDeclarators valueGives restGives context known := by
    simp only [Declarator.tokensAll, Token.known_cons, Token.known_append] at known
    refine .bind (valueGives context known.2.1) fun _ fitsValue => ?_
    refine .bind (restGives context known.2.2) fun _ fitsRest => ?_
    exact .pure (List.forall_mem_cons.mpr ⟨.mk fitsValue, fitsRest⟩)
  noClauses _ _ _ _ _ := .pure (by simp)
  moreClauses isTested bodyGives restGives context jumps hasDefault allowed known := by
    simp only [Clause.tokensAll, Token.known_cons, Token.known_append] at known
    dsimp only
    split
    · exact .refuse known.1 _
    · refine .bind (isTested context known.2.1.1) fun _ fitsCondition => ?_
      refine .bind (bodyGives context jumps allowed known.2.1.2) fun _ fits => ?_
      refine .bind (restGives context jumps _ allowed known.2.2) fun _ fitsRest => ?_
      exact .pure (List.forall_mem_cons.mpr ⟨.mk fitsCondition fits, fitsRest⟩)
  noStatements _ _ _ _ := .pure (by simp)
  moreStatements firstGives restGives context jumps allowed known := by
    simp only [Statement.tokensAll, Token.known_append] at known
    refine .bind (firstGives context jumps [] allowed known.1) fun _ fitsFirst => ?_
    refine .bind (restGives context jumps allowed known.2) fun _ fitsRest => ?_
    refine .pure fun action member => ?_
    rcases List.mem_append.mp member with inFirst | inRest
    · exact fitsFirst action (Option.mem_toList.mp inFirst)
    · exact fitsRest action inRest
  noStatement _ _ _ _ := .pure (by simp)
  someStatement gives context jumps allowed known :=
    gives context jumps [] allowed (by simpa [Statement.tokensOption] using known)
  noAlternative _ _ _ _ := .pure (by simp)
  someAlternative gives context jumps allowed known := by
    refine .bind (gives context jumps [] allowed
      (by simpa [Statement.tokensOption] using known)) fun _ fits => ?_
    exact .pure (Action.fits_asBody fits)

/-- A statement fits if its parts do. -/
theorem fitting_statements : (fitting place free).StatementCases where
  labeled gives context jumps labels allowed known := by
    simp only [Statement.tokens, Token.known_cons] at known
    dsimp only
    split
    · exact .refuse known.1 _
    · exact gives context jumps _ allowed known.2
  whileLoop isTested bodyGives context jumps labels allowed known := by
    simp only [Statement.tokens, Token.known_cons, Token.known_append] at known
    refine .bind (isTested (context.under labels true) known.2.1) fun condition fitsCondition => ?_
    refine .bind (bodyGives _ _ _ (LoweringContext.permits_loop
      (.whileLoop labels condition []) rfl allowed) known.2.2) fun _ fits => ?_
    exact .pure (Action.fits_some (.whileLoop fitsCondition (Action.fits_asBody fits)))
  forLoop startGives isTested updateGives bodyGives context jumps labels allowed known := by
    simp only [Statement.tokens, Token.known_cons, Token.known_append] at known
    let loop := Action.forLoop labels none none none []
    refine .bind (startGives _ _ (LoweringContext.permits_under
      loop rfl (fun _ => rfl) allowed) known.2.1.1.1) fun _ fitsStart => ?_
    refine .bind (isTested _ known.2.1.1.2) fun _ fitsCondition => ?_
    refine .bind (updateGives _ known.2.1.2) fun _ fitsUpdate => ?_
    refine .bind (bodyGives _ _ _ (LoweringContext.permits_loop loop rfl allowed) known.2.2)
      fun _ fits => ?_
    exact .pure (Action.fits_some
      (.forLoop fitsStart fitsCondition fitsUpdate (Action.fits_asBody fits)))
  forIn {_ name declares _ _} subjectGives bodyGives context jumps labels allowed known := by
    simp only [Statement.tokens, Token.known_cons, Token.known_append] at known
    refine .bind (subjectGives _ known.2.2.1) fun subject fitsSubject => ?_
    refine .bind (bodyGives _ _ _ (LoweringContext.permits_loop
      (.forIn labels name.literal declares subject []) rfl allowed) known.2.2.2) fun _ fits => ?_
    exact .pure (Action.fits_some (.forIn fitsSubject (Action.fits_asBody fits)))
  evaluated _ gives context jumps labels allowed known := by
    simp only [Statement.tokens, Token.known_cons] at known
    exact .bind (gives (context.under labels false) known.2) fun _ fits =>
      .pure (Action.fits_underLabels (Action.fits_some (.evaluate fits)))
  asserted isAssertion gives context jumps labels allowed known := by
    simp only [Statement.tokens, Token.known_cons] at known
    have knownCallee := Expression.known_assertion isAssertion known.2
    dsimp only
    split
    · exact .pure (Action.fits_underLabels (by simp))
    · split
      · exact .bind (gives (context.under labels false) known.2) fun _ fits =>
          .pure (Action.fits_underLabels
            (Action.fits_some (.check fits.soleArgument knownCallee)))
      · exact .refuse knownCallee _
  declare gives context jumps labels allowed known := by
    simp only [Statement.tokens, Token.known_cons] at known
    refine .bind (gives _ known.2) fun _ fits => ?_
    exact .pure (Action.fits_underLabels (Action.fits_some (.declare fits)))
  define gives context jumps labels allowed known := by
    simp only [Statement.tokens, Token.known_cons] at known
    refine .bind (gives _ known.2) fun _ fits => ?_
    split
    · exact .refuse known.1 _
    · exact .pure (Action.fits_underLabels (Action.fits_some (.define fits)))
  giveBack gives context jumps labels allowed known := by
    simp only [Statement.tokens, Token.known_cons] at known
    refine .bind (gives _ known.2) fun _ fits => ?_
    exact .pure (Action.fits_underLabels (Action.fits_some (.giveBack fits)))
  empty _ _ _ _ _ := .pure (Action.fits_underLabels (by simp))
  block gives context jumps labels allowed known := by
    simp only [Statement.tokens, Token.known_cons] at known
    refine .bind (gives _ _ (context.permits_labeled labels allowed) known.2) fun _ fits => ?_
    exact .pure (Action.fits_underLabels (Action.fits_some (.block fits)))
  branch isTested isMet isUnmet context jumps labels allowed known := by
    simp only [Statement.tokens, Token.known_cons, Token.known_append] at known
    have allowed := context.permits_labeled labels allowed
    refine .bind (isTested _ known.2.1.1) fun _ fitsCondition => ?_
    refine .bind (isMet _ _ _ allowed known.2.1.2) fun _ fitsThen => ?_
    refine .bind (isUnmet _ _ allowed known.2.2) fun _ fitsElse => ?_
    exact .pure (Action.fits_underLabels (Action.fits_some
      (.branch fitsCondition (Action.fits_asBody fitsThen) fitsElse)))
  leave context jumps labels allowed known := by
    simp only [Statement.tokens, Token.known_cons] at known
    dsimp only
    split
    · exact .refuse known.1 _
    · rename_i inside
      exact .pure (Action.fits_underLabels (Action.fits_some
        (.leave (context.permits_labeled labels allowed _ inside))))
  leaveTo {_ label} context jumps labels allowed known := by
    simp only [Statement.tokens, Token.known_cons] at known
    dsimp only
    split
    · rename_i active found
      refine .pure (Action.fits_underLabels (Action.fits_some
        (.leave (context.permits_labeled labels allowed _ ?_))))
      simp [LoweringContext.permits, found]
    · have knownLabel : place (label.position context.source) := by simpa using known.2
      exact .refuse knownLabel _
  again context jumps labels allowed known := by
    simp only [Statement.tokens, Token.known_cons] at known
    dsimp only
    split
    · exact .refuse known.1 _
    · rename_i inside
      exact .pure (Action.fits_underLabels (Action.fits_some
        (.again (context.permits_labeled labels allowed _ inside))))
  againTo {_ label} context jumps labels allowed known := by
    simp only [Statement.tokens, Token.known_cons] at known
    have knownLabel : place (label.position context.source) := by simpa using known.2
    dsimp only
    split
    · rename_i active found
      split
      · rename_i isLoop
        exact .pure (Action.fits_underLabels (Action.fits_some
          (.again (context.permits_labeled labels allowed _ ⟨active, found, isLoop⟩))))
      · exact .refuse knownLabel _
    · exact .refuse knownLabel _
  select subjectGives clausesGive context jumps labels allowed known := by
    simp only [Statement.tokens, Token.known_cons, Token.known_append] at known
    have allowed := context.permits_labeled labels allowed
    refine .bind (subjectGives _ known.2.1) fun subject fitsSubject => ?_
    refine .bind (clausesGive _ _ _ (LoweringContext.permits_select
      (.select subject []) rfl allowed) known.2.2) fun _ fits => ?_
    exact .pure (Action.fits_underLabels (Action.fits_some (.select fitsSubject fits)))

theorem fitting_cases : (fitting place free).Cases :=
  ⟨fitting_expressions, fitting_parts, fitting_statements⟩

end Lowering

namespace Code

/-- The statements and the functions of a program fit, with no target around them. -/
structure Fits
    (place : Position → Prop)
    (free : Jump → Prop)
    (code : Code) :
    Prop where
  main : ∀ action ∈ code.main, action.Fits place free free
  routines : ∀ routine ∈ code.routines, routine.Fits place free

/-- What lowering may come to: code that fits, or an error with a place from a set. -/
inductive LowersTo
    (place : Position → Prop)
    (free : Jump → Prop) :
    Except ScriptError Code → Prop where
  | code {code : Code} :
      code.Fits place free →
      LowersTo place free (.ok code)
  | error {error : ScriptError} :
      error.PlacedAt place →
      LowersTo place free (.error error)

/-- Lowering a program gives code that fits, or an error at a token of the program. -/
theorem ofProgram_lowersTo
    {place : Position → Prop}
    {free : Jump → Prop}
    (assertions : Bool)
    {program : Program}
    (known :
      Token.Known (Token.StandsAt place program.source)
        (Statement.tokensAll program.statements)) :
    LowersTo place free (ofProgram assertions program) := by
  have allowed := LoweringContext.permits_fresh program.source assertions free
  have lowers :
      Gives place free (fun body => ∀ action ∈ body, action.Fits place free free)
        (Statement.lowerAll (LoweringContext.fresh program.source assertions)
          program.statements) :=
    Lowering.fitting_cases.ofStatements program.statements _ free allowed known
  have gives := lowers #[] (by simp)
  unfold ofProgram
  change LowersTo place free (Except.bind
    (Statement.lowerAll (LoweringContext.fresh program.source assertions)
      program.statements #[]) fun result => Except.ok (Code.mk result.2.toList result.1))
  cases run : Statement.lowerAll (LoweringContext.fresh program.source assertions)
      program.statements #[] with
  | error error =>
      rw [run] at gives
      exact .error gives
  | ok result =>
      rw [run] at gives
      exact .code ⟨gives.1, fun routine member => gives.2 routine (by simpa using member)⟩

/-- Every program that can be lowered gives code that fits, whatever its places are. -/
theorem Fits.ofProgram
    {assertions : Bool}
    {program : Program}
    {code : Code}
    (lowered : ofProgram assertions program = .ok code) :
    code.Fits (fun _ => True) free := by
  have known :
      Token.Known (Token.StandsAt (fun _ => True) program.source)
        (Statement.tokensAll program.statements) :=
    fun _ _ => trivial
  have lowersTo := @ofProgram_lowersTo (fun _ => True) free assertions program known
  rw [lowered] at lowersTo
  cases lowersTo with
  | code fits => exact fits

end Code

end ScriptEngine
