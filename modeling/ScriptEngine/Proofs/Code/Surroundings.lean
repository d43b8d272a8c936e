import ScriptEngine.Proofs.Code.Blurring
import ScriptEngine.Proofs.Program.Parts

namespace ScriptEngine

/-!
# What lowering knows of the surroundings

Labels, loops and selections around a statement decide which jumps it may hold, and nothing
else.  An expression holds no jump but in the bodies of its functions, and jumps do not cross
the border of a function.  So an expression, or a list of declared variables, is lowered
anywhere as it is lowered at the start of a function.

What a step comes to up to the numbers of functions does not depend on the routines that are
finished before it.  So the steps of lowering can be looked at one by one, whatever their order.
-/

namespace Lowering

/-- Code is compared as it is, behind the same functions. -/
def Comparison.identical : Comparison where
  first := .keeping
  second := .keeping
  beside := Eq
  around source checks other otherChecks := source = other ∧ checks = otherChecks
  refuses := Eq
  ignores := False
  standing _ := True
  places := by
    rintro _ _ _ _ ⟨rfl, rfl⟩ token
    rfl
  errors := by
    rintro _ _ _ _ ⟨rfl, rfl⟩ token fault
    rfl
  numbers := by
    rintro _ _ rfl
    rfl
  keeps := by
    rintro _ _ _ _ rfl same
    rw [Routine.rewritten_keeping, Routine.rewritten_keeping] at same
    rw [same]

/-- What is lowered in one program is the same among all targets of jumps. -/
theorem identical_cases : Comparison.identical.claims.Cases :=
  Comparison.cases <| Comparison.comparesAssertions And.right fun action =>
    ⟨action.isLeftOut_keeping, action.isLeftOut_keeping⟩

/-- Steps that agree on code as it is are the same. -/
theorem Comparison.Agree.eq
    {core : Rewriting → α → α}
    {step other : Lowering α}
    (kept : ∀ value, core .keeping value = value)
    (agrees : Comparison.identical.Agree core step other) :
    step = other := by
  funext routines
  have alike := agrees routines routines rfl
  revert alike
  generalize step routines = result, other routines = twin
  intro alike
  cases alike with
  | accepted same beside =>
      obtain rfl := (kept _).symm.trans (same.trans (kept _))
      cases beside
      rfl
  | refused same =>
      cases same
      rfl
  | ignored ignores => exact ignores.elim

end Lowering

section

variable (context : LoweringContext)

open Lowering

/-- An expression is lowered as at the start of a function. -/
theorem Expression.lower_inFunction (expression : Expression) :
    expression.lower context = expression.lower context.inFunction :=
  Comparison.Agree.eq Term.rewritten_keeping <|
    identical_cases.ofExpression expression _ _ ⟨rfl, rfl⟩ <|
    (Claims.standing_cases fun _ => trivial).ofExpression expression

/-- An expression that may be missing is lowered as at the start of a function. -/
theorem Expression.lowerOption_inFunction (expression : Option Expression) :
    Expression.lowerOption context expression =
      Expression.lowerOption context.inFunction expression :=
  Comparison.Agree.eq Term.rewrittenOption_keeping <|
    identical_cases.ofOption expression _ _ ⟨rfl, rfl⟩ <|
    (Claims.standing_cases fun _ => trivial).ofOption expression

/-- An expression that may be missing is lowered alike in all of one function. -/
theorem Expression.lowerOption_within_function
    {context other : LoweringContext}
    (same : context.inFunction = other.inFunction)
    (expression : Option Expression) :
    Expression.lowerOption context expression = Expression.lowerOption other expression := by
  rw [Expression.lowerOption_inFunction context, Expression.lowerOption_inFunction other, same]

/-- Declared variables are lowered as at the start of a function. -/
theorem Declarator.lowerAll_inFunction (declarators : List Declarator) :
    Declarator.lowerAll context declarators =
      Declarator.lowerAll context.inFunction declarators :=
  Comparison.Agree.eq Binding.rewrittenAll_keeping <|
    identical_cases.ofDeclarators declarators _ _ ⟨rfl, rfl⟩ <|
    (Claims.standing_cases fun _ => trivial).ofDeclarators declarators

end

/-- The start of a loop is lowered as in front of the loop: no label is meant for it. -/
theorem Statement.lowerOption_start
    (context : LoweringContext)
    (labels : List String)
    {start : Option Statement}
    (starts : ∀ statement ∈ start, statement.StartsLoop) :
    Statement.lowerOption (context.under labels true) start =
      Statement.lowerOption context start := by
  cases start with
  | none => rw [Statement.lowerOption, Statement.lowerOption]
  | some statement =>
      rw [Statement.lowerOption, Statement.lowerOption]
      have isStart := starts statement rfl
      cases statement with
      | declare token declarators =>
          rw [Statement.lower, Statement.lower, Declarator.lowerAll_inFunction,
            Declarator.lowerAll_inFunction (context.under [] false)]
          rfl
      | expression token value =>
          rw [Statement.lower, Statement.lower]
          dsimp only
          rw [Expression.lower_inFunction, Expression.lower_inFunction (context.under [] false)]
          rfl
      | _ => exact isStart.elim

namespace Lowering

/-- What comes behind a step that succeeds is the rest of the whole. -/
theorem exists_of_bind
    {first : Lowering α}
    {next : α → Lowering β}
    {routines : Array Routine}
    {result : β × Array Routine}
    (ran : (first >>= next) routines = .ok result) :
    ∃ middle, first routines = .ok middle ∧ next middle.1 middle.2 = .ok result := by
  change Except.bind (first routines) (fun middle => next middle.1 middle.2) = _ at ran
  cases firstRun : first routines with
  | error error =>
      rw [firstRun] at ran
      cases ran
  | ok middle =>
      rw [firstRun] at ran
      exact ⟨middle, rfl, ran⟩

variable {core : α → β} {later : γ → δ}

/-- A step comes to what looks like a value, whatever routines are finished before it. -/
def ComesTo (core : α → β) (step : Lowering α) (value : α) : Prop :=
  ∀ routines, outcome id core step routines = .ok (core value)

namespace ComesTo

/-- A step that agrees with itself comes to what it once came to. -/
theorem of_ok
    {core : Rewriting → α → β}
    {step : Lowering α}
    (steady : (Comparison.blurring id).Agree core step step)
    {routines : Array Routine}
    {result : α × Array Routine}
    (ran : step routines = .ok result) :
    ComesTo (core (.blurring id)) step result.1 := by
  intro others
  rw [steady.outcome_eq others routines]
  unfold outcome
  rw [ran]

theorem exists_ok
    {step : Lowering α}
    {value : α}
    (comes : ComesTo core step value)
    (routines : Array Routine) :
    ∃ result, step routines = .ok result ∧ core result.1 = core value := by
  have isOk := comes routines
  unfold outcome at isOk
  cases ran : step routines with
  | error error =>
      rw [ran] at isOk
      cases isOk
  | ok result =>
      rw [ran] at isOk
      exact ⟨result, rfl, Except.ok.inj isOk⟩

theorem pure {value other : α} (same : core value = core other) : ComesTo core (pure value) other :=
  fun _ => congrArg Except.ok same

theorem bind
    {first : Lowering α}
    {next : α → Lowering γ}
    {value : α}
    {result : γ}
    (firstComes : ComesTo core first value)
    (nextComes : ∀ other, core other = core value → ComesTo later (next other) result) :
    ComesTo later (first >>= next) result := by
  intro routines
  obtain ⟨middle, ran, same⟩ := firstComes.exists_ok routines
  rw [outcome_of_ok ran]
  exact nextComes middle.1 same middle.2

end ComesTo

end Lowering

end ScriptEngine
