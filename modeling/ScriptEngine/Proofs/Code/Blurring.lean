import ScriptEngine.Proofs.Code.Comparison

namespace ScriptEngine

/-!
# Code up to numbers and sources

One statement is lowered to different code in different programs: the functions in it
get other numbers, and its places point into another source.  Blurred code has neither.
Its functions have no numbers, and of the source of a place it keeps what a view of the
source shows; a view that shows all keeps the places as they are.

Lowering knows nothing else of the program around a statement.  So the same statements
are lowered to the same blurred code in any two programs whose sources look the same,
and refused by the same blurred error.
-/

/-- A place, of whose source only a view is kept. -/
def Position.blurred (view : Source → Source) (position : Position) : Position :=
  { position with source := view position.source }

/-- An error with a blurred place. -/
def ScriptError.blurred (view : Source → Source) (error : ScriptError) : ScriptError :=
  { error with position := error.position.map (Position.blurred view) }

/-- Numbers are left away, and of the sources of places only a view is kept. -/
def Rewriting.blurring (view : Source → Source) : Rewriting where
  position := Position.blurred view
  number _ := 0
  leavesOut _ := false

namespace Action

variable (view : Source → Source) (action : Action)

@[simp] theorem isLeftOut_blurring : action.isLeftOut (.blurring view) = false := by
  cases action <;> rfl

@[simp] theorem rewrittenAll_blurring (rest : List Action) :
    rewrittenAll (.blurring view) (action :: rest) =
      action.rewritten (.blurring view) :: rewrittenAll (.blurring view) rest := by
  rw [rewrittenAll, isLeftOut_blurring, if_neg Bool.false_ne_true]

end Action

namespace Lowering

/-- What a lowering step comes to, of which a core is looked at. -/
def outcome (view : Source → Source) (core : α → β) (step : Lowering α)
    (routines : Array Routine) : Except ScriptError β :=
  match step routines with
  | .ok (value, _) => .ok (core value)
  | .error error => .error (error.blurred view)

section

variable {view : Source → Source} {core : α → β} {first : Lowering γ} {next : γ → Lowering α}
  {routines : Array Routine}

theorem outcome_of_ok
    {result : γ × Array Routine}
    (ran : first routines = .ok result) :
    outcome view core (first >>= next) routines = outcome view core (next result.1) result.2 := by
  have same : (first >>= next) routines = next result.1 result.2 := by
    change Except.bind (first routines) _ = _
    rw [ran]
    rfl
  unfold outcome
  rw [same]

theorem outcome_of_error
    {error : ScriptError}
    (ran : first routines = .error error) :
    outcome view core (first >>= next) routines = .error (error.blurred view) := by
  have same : (first >>= next) routines = .error error := by
    change Except.bind (first routines) _ = _
    rw [ran]
    rfl
  unfold outcome
  rw [same]

end

/-- Code is compared blurred, whatever functions are finished before it. -/
def Comparison.blurring (view : Source → Source) : Comparison where
  first := .blurring view
  second := .blurring view
  beside _ _ := True
  around source checks other otherChecks := view source = view other ∧ checks = otherChecks
  refuses error failure := error.blurred view = failure.blurred view
  ignores := False
  standing _ := True
  places around token :=
    congrArg (Position.mk token.line token.column token.start token.stop) around.1
  errors around token fault :=
    congrArg (fun source => ScriptError.mk (.lowering fault)
      (some (Position.mk token.line token.column token.start token.stop source))) around.1
  numbers _ := rfl
  keeps _ _ := trivial

variable {view : Source → Source} {context : LoweringContext} {source : Source}

/-- Steps that agree come to the same, whatever functions are finished. -/
theorem Comparison.Agree.outcome_eq
    {core : Rewriting → α → β}
    {step other : Lowering α}
    (agrees : (Comparison.blurring view).Agree core step other)
    (routines others : Array Routine) :
    outcome view (core (.blurring view)) step routines =
      outcome view (core (.blurring view)) other others := by
  have alike := agrees routines others trivial
  unfold outcome
  revert alike
  generalize step routines = result, other others = twin
  intro alike
  cases alike with
  | accepted same _ => exact congrArg Except.ok same
  | refused same => exact congrArg Except.error same
  | ignored ignores => exact ignores.elim

/-- Whatever is lowered agrees with itself in programs whose sources look the same. -/
theorem blurring_cases (view : Source → Source) : (Comparison.blurring view).claims.Cases :=
  Comparison.cases <| Comparison.comparesAssertions And.right fun action =>
    ⟨action.isLeftOut_blurring view, action.isLeftOut_blurring view⟩

theorem standing_anywhere : (Claims.standing (Comparison.blurring view).standing).Cases :=
  Claims.standing_cases fun _ => trivial

variable (context) (same : view context.source = view source)
include same

theorem lowerOption_agrees (expression : Option Expression) :
    (Comparison.blurring view).Agree Term.rewrittenOption
      (Expression.lowerOption context expression)
      (Expression.lowerOption (context.within source context.assertions) expression) :=
  (blurring_cases view).ofOption expression context _ ⟨same, rfl⟩
    (standing_anywhere.ofOption expression)

theorem lower_agrees (labels : List String) (statement : Statement) :
    (Comparison.blurring view).Agree Action.rewrittenOption (statement.lower context labels)
      (statement.lower (context.within source context.assertions) labels) :=
  (blurring_cases view).ofStatement statement context _ _ labels ⟨same, rfl⟩
    (standing_anywhere.ofStatement statement)

theorem lowerStart_agrees (statement : Option Statement) :
    (Comparison.blurring view).Agree Action.rewrittenOption
      (Statement.lowerOption context statement)
      (Statement.lowerOption (context.within source context.assertions) statement) :=
  (blurring_cases view).ofStatementOption statement context _ _ ⟨same, rfl⟩
    (standing_anywhere.ofStatementOption statement)

theorem lowerAll_agrees (statements : List Statement) :
    (Comparison.blurring view).Agree Action.rewrittenAll (Statement.lowerAll context statements)
      (Statement.lowerAll (context.within source context.assertions) statements) :=
  (blurring_cases view).ofStatements statements context _ _ ⟨same, rfl⟩
    (standing_anywhere.ofStatements statements)

end Lowering

end ScriptEngine
