import ScriptEngine.Proofs.Code.Pruning
import ScriptEngine.Proofs.Session.Composition

namespace ScriptEngine

/-!
# Programs without their assertions

A program that passes, its assertions being checked, passes as well if they are dropped, and
does the same to the machine.  An assertion is an expression statement, though, and its value
is undefined.  So where an assertion is the last expression statement of a program, the result
may change when it is dropped; elsewhere it does not.
-/

variable {action : Action}

/-! ## Which statement gives the result -/

/-- The expression of the last expression statement, or the one of those before. -/
def Statement.lastExpression? (before : Option Expression) : List Statement → Option Expression
  | [] => before
  | .expression _ value :: rest => lastExpression? (some value) rest
  | _ :: rest => lastExpression? before rest

/-- Whether an expression is a call that asserts something. -/
def Expression.isAssertion (expression : Expression) : Bool := expression.assertion?.isSome

/-- Whether the last statement that gives a result is left out, or the one of those before. -/
def Action.endsLeftOut (before : Bool) : List Action → Bool
  | [] => before
  | action :: rest =>
      endsLeftOut (if action.yieldsResult then action.isLeftOut .pruning else before) rest

namespace Lowering

/-- A lowering step that only gives what satisfies a predicate. -/
def GivesOnly (holds : α → Prop) (step : Lowering α) : Prop :=
  ∀ routines value after, step routines = .ok (value, after) → holds value

namespace GivesOnly

variable {holds : α → Prop}

theorem pure {value : α} (holdsValue : holds value) : GivesOnly holds (pure value) := by
  rintro routines _ _ ⟨⟩
  exact holdsValue

theorem bind
    {first : Lowering β}
    {next : β → Lowering α}
    (nextGives : ∀ value, GivesOnly holds (next value)) :
    GivesOnly holds (first >>= next) := by
  intro routines value after lowered
  obtain ⟨middle, -, rest⟩ := exists_of_bind lowered
  exact nextGives middle.1 middle.2 value after rest

theorem refuse (context : LoweringContext) (token : Token) (fault : LoweringFault) :
    GivesOnly holds (context.refuse token fault) :=
  fun _ _ _ lowered => nomatch lowered

end GivesOnly

end Lowering

open Lowering (GivesOnly)

/-- A statement that may be missing gives no result. -/
def Action.YieldsNothing (action : Option Action) : Prop :=
  ∀ lowered ∈ action, lowered.yieldsResult = false

/-- A statement that gives no result gives none under labels. -/
theorem Action.yieldsNothing_underLabels
    (labels : List String)
    (yieldsNothing : action.yieldsResult = false) :
    Action.YieldsNothing (underLabels labels (some action)) := by
  unfold underLabels
  split
  · rintro _ ⟨⟩
    exact yieldsNothing
  · rintro _ ⟨⟩
    rfl

/-- Under labels no statement gives a result. -/
theorem Action.yieldsNothing_of_labels
    {labels : List String}
    (labeled : labels ≠ [])
    (action : Option Action) :
    Action.YieldsNothing (underLabels labels action) := by
  rw [underLabels, if_neg fun isEmpty => labeled (List.isEmpty_iff.mp isEmpty)]
  rintro _ ⟨⟩
  rfl

namespace Lowering

/-- Only an expression statement without labels gives a result. -/
def yieldingNothing : Claims :=
  { Claims.nothing with
    ofStatement := fun statement step => ∀ context labels,
      (labels ≠ [] ∨ ∀ token value, statement ≠ .expression token value) →
      GivesOnly Action.YieldsNothing (step context labels) }

theorem yieldingNothing_statements : yieldingNothing.StatementCases where
  labeled body context labels _ := by
    dsimp only
    split
    · exact .refuse _ _ _
    · exact body context _ (.inl (by simp))
  whileLoop _ _ _ _ _ :=
    .bind fun _ => .bind fun _ => .pure (Action.yieldsNothing_underLabels [] rfl)
  forLoop _ _ _ _ _ _ _ :=
    .bind fun _ => .bind fun _ => .bind fun _ => .bind fun _ =>
      .pure (Action.yieldsNothing_underLabels [] rfl)
  forIn _ _ _ _ _ :=
    .bind fun _ => .bind fun _ => .pure (Action.yieldsNothing_underLabels [] rfl)
  evaluated _ _ _ _ spares :=
    .bind fun _ => .pure (Action.yieldsNothing_of_labels
      (spares.resolve_right fun other => other _ _ rfl) _)
  asserted _ _ _ labels spares := by
    have labeled : labels ≠ [] := spares.resolve_right fun other => other _ _ rfl
    dsimp only
    split
    · exact .pure (Action.yieldsNothing_of_labels labeled _)
    · split
      · exact .bind fun _ => .pure (Action.yieldsNothing_of_labels labeled _)
      · exact .refuse _ _ _
  declare _ _ labels _ := .bind fun _ => .pure (Action.yieldsNothing_underLabels labels rfl)
  define _ _ labels _ := by
    refine .bind fun routine => ?_
    split
    · exact .refuse _ _ _
    · exact .pure (Action.yieldsNothing_underLabels labels rfl)
  giveBack _ _ labels _ := .bind fun _ => .pure (Action.yieldsNothing_underLabels labels rfl)
  empty _ labels _ := by
    by_cases isEmpty : labels = []
    · subst isEmpty
      exact .pure (by rintro _ ⟨⟩)
    · exact .pure (Action.yieldsNothing_of_labels isEmpty none)
  block _ _ labels _ := .bind fun _ => .pure (Action.yieldsNothing_underLabels labels rfl)
  branch _ _ _ _ labels _ :=
    .bind fun _ => .bind fun _ => .bind fun _ =>
      .pure (Action.yieldsNothing_underLabels labels rfl)
  leave _ labels _ := by
    dsimp only
    split
    · exact .refuse _ _ _
    · exact .pure (Action.yieldsNothing_underLabels labels rfl)
  leaveTo _ labels _ := by
    dsimp only
    split
    · exact .pure (Action.yieldsNothing_underLabels labels rfl)
    · exact .refuse _ _ _
  again _ labels _ := by
    dsimp only
    split
    · exact .refuse _ _ _
    · exact .pure (Action.yieldsNothing_underLabels labels rfl)
  againTo _ labels _ := by
    dsimp only
    split
    · split
      · exact .pure (Action.yieldsNothing_underLabels labels rfl)
      · exact .refuse _ _ _
    · exact .refuse _ _ _
  select _ _ _ labels _ :=
    .bind fun _ => .bind fun _ => .pure (Action.yieldsNothing_underLabels labels rfl)

theorem yieldingNothing_cases : yieldingNothing.Cases := by
  refine ⟨?_, ?_, yieldingNothing_statements⟩ <;> constructor <;> intros <;> trivial

end Lowering

/-- A check is among the statements that give a result. -/
theorem Action.yieldsResult_of_isLeftOut
    {rewriting : Rewriting}
    (leftOut : action.isLeftOut rewriting = true) :
    action.yieldsResult = true := by
  cases action with
  | check condition shown position => rfl
  | _ => cases leftOut

/-- The last statement that gives a result is left out if the last expression asserts something. -/
theorem Statement.endsLeftOut_lowerAll
    {context : LoweringContext}
    (isOn : context.assertions = true)
    {statements : List Statement}
    (plain : Statement.AllStanding Expression.AssertsPlainly statements)
    (before : Option Expression)
    {routines after : Array Routine}
    {main : List Action}
    (lowered : Statement.lowerAll context statements routines = .ok (main, after)) :
    Action.endsLeftOut (before.any Expression.isAssertion) main =
      (Statement.lastExpression? before statements).any Expression.isAssertion := by
  induction statements generalizing before routines main with
  | nil =>
      rw [Statement.lowerAll] at lowered
      cases lowered
      rfl
  | cons first rest inductionHypothesis =>
      rw [Statement.lowerAll] at lowered
      obtain ⟨⟨action, middle⟩, firstLowered, behind⟩ := Lowering.exists_of_bind lowered
      obtain ⟨⟨others, later⟩, restLowered, built⟩ := Lowering.exists_of_bind behind
      cases built
      by_cases isExpression : ∃ token value, first = .expression token value
      · obtain ⟨token, value, rfl⟩ := isExpression
        rw [Statement.lastExpression?, ← inductionHypothesis plain.2 (some value) restLowered]
        cases isAssertion : value.assertion? with
        | some assertion =>
            obtain ⟨check, rfl, leftOut, -⟩ :=
              plain.1.1.lower_isLeftOut isAssertion context token [] isOn firstLowered
            change Action.endsLeftOut _ (check :: others) = _
            rw [Action.endsLeftOut, if_pos (Action.yieldsResult_of_isLeftOut leftOut), leftOut,
              Option.any_some, Expression.isAssertion, isAssertion]
            rfl
        | none =>
            rw [Statement.lower] at firstLowered
            simp only [isAssertion] at firstLowered
            obtain ⟨⟨term, last⟩, -, built⟩ := Lowering.exists_of_bind firstLowered
            cases built
            rw [Option.any_some, Expression.isAssertion, isAssertion]
            rfl
      · have yieldsNothing := Lowering.yieldingNothing_cases.ofStatement first context []
          (.inr fun token value same => isExpression ⟨token, value, same⟩)
          routines action middle firstLowered
        have skipped : Statement.lastExpression? before (first :: rest) =
            Statement.lastExpression? before rest := by
          rw [Statement.lastExpression?]
          exact fun token value same => isExpression ⟨token, value, same⟩
        rw [skipped, ← inductionHypothesis plain.2 before restLowered]
        cases action with
        | none => rfl
        | some action =>
            change Action.endsLeftOut _ (action :: others) = _
            rw [Action.endsLeftOut, yieldsNothing action rfl, if_neg Bool.false_ne_true]

/-! ## Programs end alike -/

/-- Functions are kept as they are or lose their checks, and runs that fail do not matter. -/
def Likeness.pruning : Likeness where
  rewrites rewriting := rewriting = .keeping ∨ rewriting = .pruning
  isStrict := False
  aborts _ _ := True
  fails _ := trivial
  breaks _ := trivial
  locates _ _ _ _ _ := trivial
  leavesOut := by
    rintro _ (rfl | rfl) condition leftOut
    · cases leftOut
    · exact ⟨id, Term.exists_eval_of_isPlain leftOut⟩

theorem Likeness.pruning_keeps : Likeness.pruning.rewrites .keeping :=
  Or.inl rfl

theorem Likeness.pruning_prunes : Likeness.pruning.rewrites .pruning :=
  Or.inr rfl

/-- Every machine resembles itself, as its functions may be kept. -/
theorem Machine.resembles_pruning (machine : Machine) : machine.Resembles .pruning machine := by
  refine ⟨machine.heap, fun id => ?_, rfl⟩
  cases machine.heap[id]? with
  | none => exact .none
  | some object =>
      refine .some ⟨rfl, rfl, ?_⟩
      cases object.body with
      | closure routine scope =>
          have kept : (ObjectBody.closure routine scope).Resembles .pruning
              (.closure (routine.rewritten .keeping) scope) :=
            .closure Likeness.pruning_keeps routine scope
          rwa [Routine.rewritten_keeping] at kept
      | plain => exact .plain
      | array storage => exact .array storage
      | builtin function => exact .builtin function
      | pattern expression => exact .pattern expression

namespace Code

/--
A program without its checks ends as the program does: by the same return, or with the same last
value unless the last one is that of a check.
-/
def Ending.Matches (leftOut : Bool) : Ending → Ending → Prop
  | .returned value, .returned other => other = value
  | .finished last, .finished other => if leftOut then last = some .undefined else other = last
  | _, _ => False

/-- A statement that gives a result comes to its end. -/
theorem completes_of_yieldsResult
    {frame : Frame}
    {scope : Nat}
    (yields : action.yieldsResult = true)
    {machine after : Machine}
    {completion : Completion}
    (ran : action.run frame scope machine = .ok completion after) :
    ∃ value, completion = .normal value := by
  cases action with
  | evaluate term =>
      rw [Action.run] at ran
      obtain ⟨value, middle, -, completed⟩ := Run.ok_of_bind ran
      cases completed
      exact ⟨value, rfl⟩
  | check condition shown position =>
      rw [Action.run] at ran
      obtain ⟨value, middle, -, completed⟩ := Run.ok_of_bind ran
      cases holds : value.isTruthy with
      | true =>
          rw [holds] at completed
          cases completed
          exact ⟨.undefined, rfl⟩
      | false =>
          rw [holds] at completed
          cases completed
  | _ => cases yields

/-- A check that is left out has passed without any effect, if the run goes on behind it. -/
theorem passes_of_isLeftOut
    {frame : Frame}
    {scope : Nat}
    (leftOut : action.isLeftOut .pruning = true)
    {machine after : Machine}
    {completion : Completion}
    (ran : action.run frame scope machine = .ok completion after) :
    completion = .normal .undefined ∧ after = machine := by
  cases action with
  | check condition shown position =>
      obtain ⟨value, evaluated⟩ := Term.exists_eval_of_isPlain leftOut frame scope machine
      rw [Action.run, Run.bind_of_ok evaluated] at ran
      cases holds : value.isTruthy with
      | true =>
          rw [holds] at ran
          cases ran
          exact ⟨rfl, rfl⟩
      | false =>
          rw [holds] at ran
          cases ran
  | _ => cases leftOut

/-- Run the statements of a program from a value on, which checks that are left out leave as it
is; tells how they end. -/
def endBesides (frame : Frame) (scope : Nat) : Option Value → List Action → Run Ending
  | last, [] => pure (.finished last)
  | last, action :: rest => do
      match ← action.run frame scope with
      | .normal value =>
          let counts := action.yieldsResult && !action.isLeftOut .pruning
          endBesides frame scope (if counts then some value else last) rest
      | .returned value => pure (.returned value)
      | _ => endBesides frame scope last rest

/-- Run code in a scope; the result is the value of the last expression statement that is no
check that is left out. -/
def runBesides (code : Code) (scope : Nat) : Run Value :=
  Ending.value <$> endBesides frame scope none code.main

/-- Statements of which the checks are left out end as they do with them, if the values of the
checks do not count. -/
theorem endMain_follows (scope : Nat) (last : Option Value) (main : List Action) :
    Run.Follows .pruning (endBesides frame scope last main)
      (endMain frame scope last (Action.rewrittenAll .pruning main)) := by
  induction main generalizing last with
  | nil => exact .pure _
  | cons action rest inductionHypothesis =>
      rw [endBesides, Action.rewrittenAll]
      split
      case isTrue leftOut =>
        refine .pastLeftOut Likeness.pruning_prunes leftOut ?_
        dsimp only
        rw [leftOut, Bool.not_true, Bool.and_false, if_neg Bool.false_ne_true]
        exact inductionHypothesis last
      case isFalse kept =>
        rw [endMain, action.yieldsResult_rewritten]
        refine .bind (Action.run_rewritten (Run.Steady.callUpTo Run.unlimited)
          Likeness.pruning_prunes scope action) fun completion => ?_
        cases completion with
        | normal value =>
            dsimp only
            rw [Bool.eq_false_iff.mpr kept, Bool.not_false, Bool.and_true]
            exact inductionHypothesis _
        | returned value => exact .pure _
        | left label | again label => exact inductionHypothesis last

/-- Statements that pass end alike whether the values of checks count or not. -/
theorem endMain_besides
    (scope : Nat)
    {main : List Action}
    {last other : Option Value}
    (leftOut : Bool)
    (same : if leftOut then last = some .undefined else other = last)
    {machine after : Machine}
    {ending : Ending}
    (ends : endMain frame scope last main machine = .ok ending after) :
    ∃ besides, endBesides frame scope other main machine = .ok besides after ∧
      ending.Matches (Action.endsLeftOut leftOut main) besides := by
  induction main generalizing last other leftOut machine with
  | nil =>
      cases ends
      exact ⟨.finished other, rfl, same⟩
  | cons action rest inductionHypothesis =>
      rw [endMain] at ends
      obtain ⟨completion, middle, ran, goesOn⟩ := Run.ok_of_bind ends
      rw [endBesides, Action.endsLeftOut, Run.bind_of_ok ran]
      cases isLeftOut : action.isLeftOut .pruning with
      | true =>
          have yields := Action.yieldsResult_of_isLeftOut isLeftOut
          obtain ⟨rfl, rfl⟩ := passes_of_isLeftOut isLeftOut ran
          rw [if_pos yields]
          rw [yields] at goesOn
          dsimp only
          rw [Bool.not_true, Bool.and_false, if_neg Bool.false_ne_true]
          exact inductionHypothesis true rfl goesOn
      | false =>
          cases completion with
          | normal value =>
              dsimp only
              rw [Bool.not_false, Bool.and_true]
              refine inductionHypothesis _ ?_ goesOn
              split
              · rfl
              · exact same
          | returned value =>
              cases goesOn
              exact ⟨.returned value, rfl, rfl⟩
          | left label | again label =>
              have yields : action.yieldsResult = false := by
                rw [Bool.eq_false_iff]
                intro yields
                obtain ⟨value, isNormal⟩ := completes_of_yieldsResult yields ran
                cases isNormal
              rw [yields, if_neg Bool.false_ne_true]
              exact inductionHypothesis leftOut same goesOn

/-- Endings that match have the same value, unless the last value is that of a check. -/
theorem Ending.Matches.value
    {leftOut : Bool}
    {ending silent : Ending}
    (same : ending.Matches leftOut silent) :
    silent.value = ending.value ∨ leftOut = true ∧ ending.value = .undefined := by
  cases ending with
  | returned value =>
      cases silent with
      | returned other => exact .inl same
      | finished other => exact same.elim
  | finished last =>
      cases silent with
      | returned other => exact same.elim
      | finished other =>
          cases leftOut with
          | true =>
              obtain rfl : last = some .undefined := same
              exact .inr ⟨rfl, rfl⟩
          | false =>
              obtain rfl : other = last := same
              exact .inl rfl

/--
Dropping assertions that have no effect changes nothing about a program that passes.  If each
assertion that stands as a statement in it is one of a plain expression, and the program runs
to its end with its assertions, in whatever scope and on whatever machine, then it is accepted
without them and runs to its end from the same machine.  It leaves the same scopes and the same
output, and the same heap but for the checks in the code of the functions on it.  Its result is
the value of the last expression statement that is no assertion.  That is the result with
assertions as well, unless the last expression statement of the program is an assertion: with
assertions, its value is undefined.
-/
theorem passes_without_assertions
    {program : Program}
    (plain : Statement.AllStanding Expression.AssertsPlainly program.statements)
    {checked : Code}
    (compiled : ofProgram true program = .ok checked)
    {scope : Nat}
    {machine after : Machine}
    {value : Value}
    (passes : checked.runIn scope machine = .ok value after) :
    ∃ silent result left,
      ofProgram false program = .ok silent ∧
      silent.runIn scope machine = .ok result left ∧
      after.Resembles .pruning left ∧
      checked.runBesides scope machine = .ok result after ∧
      (result = value ∨
        (Statement.lastExpression? none program.statements).any Expression.isAssertion = true ∧
          value = .undefined) := by
  rw [runIn_eq, ← bind_pure_comp] at passes
  obtain ⟨ending, _, ends, valued⟩ := Run.ok_of_bind passes
  cases valued
  obtain ⟨routines, lowered, -⟩ := exists_of_ofProgram compiled
  obtain ⟨besides, endsBesides, same⟩ := endMain_besides scope false rfl ends
  have outcomes := endMain_follows scope none checked.main machine machine
    machine.resembles_pruning
  rw [endsBesides] at outcomes
  generalize silentEnds : endMain frame scope none (Action.rewrittenAll .pruning checked.main)
    machine = silent at outcomes
  cases outcomes with
  | done resembles =>
      refine ⟨checked.pruned, besides.value, _, ofProgram_pruned plain compiled,
        runIn_of_ok silentEnds, resembles, ?_, ?_⟩
      · rw [runBesides, ← bind_pure_comp]
        exact Run.bind_of_ok endsBesides
      · rw [← Statement.endsLeftOut_lowerAll rfl plain none lowered]
        exact same.value

end Code

/-- A program of which the last expression statement is an assertion. -/
def Program.assertedLast : Program := (Program.parse (Source.ofRepl "5; assert(true)")).program

/-- A program that asserts an array, which stays on the heap. -/
def Program.assertedArray : Program := (Program.parse (Source.ofRepl "assert([])")).program

/--
Dropping an assertion may change the result of a program that passes: where it is the last
expression statement, its value is undefined, and the result is undefined with it only.  And
where an array is asserted, there is one object less on the heap without the assertion.
-/
theorem Code.result_changes_without_assertion :
    Statement.AllStanding Expression.AssertsPlainly Program.assertedLast.statements ∧
    (∃ checked silent number after left,
      ofProgram true Program.assertedLast = .ok checked ∧
      ofProgram false Program.assertedLast = .ok silent ∧
      checked.runIn 0 (Machine.bare 0) = .ok .undefined after ∧
      silent.runIn 0 (Machine.bare 0) = .ok (.number number) left ∧
      Value.undefined ≠ .number number) ∧
    ∃ checked silent value result after left,
      ofProgram true Program.assertedArray = .ok checked ∧
      ofProgram false Program.assertedArray = .ok silent ∧
      checked.runIn 0 (Machine.bare 0) = .ok value after ∧
      silent.runIn 0 (Machine.bare 0) = .ok result left ∧
      after.heap.size = left.heap.size + 1 := by
  refine ⟨⟨⟨?_, trivial⟩, ⟨?_, trivial, trivial, trivial⟩, trivial⟩,
    ⟨_, _, _, _, _, rfl, rfl, rfl, rfl, nofun⟩, ⟨_, _, _, _, _, _, rfl, rfl, rfl, rfl, rfl⟩⟩
  · intro callee arguments isAssertion
    cases isAssertion
  · rintro callee arguments ⟨⟩
    exact ⟨_, rfl, rfl⟩

/-- A program with an assertion of its own and one in a function that it calls. -/
def Program.assertedTwice : Program :=
  (Program.parse (Source.ofRepl
    "function f() \x7b assert(!false); return true \x7d assert(true === true); f()")).program

theorem Program.assertedTwice_plain :
    Statement.AllStanding Expression.AssertsPlainly assertedTwice.statements := by
  refine ⟨⟨⟨?inside, trivial, trivial, trivial⟩, trivial, trivial⟩,
    ⟨?outside, trivial, ⟨trivial, trivial⟩, trivial⟩, ⟨?call, trivial, trivial⟩, trivial⟩
  case inside =>
    rintro callee arguments ⟨⟩
    exact ⟨_, rfl, rfl⟩
  case outside =>
    rintro callee arguments ⟨⟩
    exact ⟨_, rfl, rfl⟩
  case call =>
    intro callee arguments isAssertion
    cases isAssertion

/-- Whether a run gives `true`. -/
def Run.endsInTrue : EStateM.Result Abort Machine Value → Bool
  | .ok (.boolean true) _ => true
  | _ => false

theorem Code.passes_without_assertions_of_two :
    Statement.AllStanding Expression.AssertsPlainly Program.assertedTwice.statements ∧
    ∃ checked silent after left,
      ofProgram true Program.assertedTwice = .ok checked ∧
      checked.runIn 0 (Machine.bare 0) = .ok (.boolean true) after ∧
      ofProgram false Program.assertedTwice = .ok silent ∧
      silent.runIn 0 (Machine.bare 0) = .ok (.boolean true) left ∧
      after.Resembles .pruning left := by
  have isTrue : ((ofProgram true Program.assertedTwice).toOption.any fun checked =>
      Run.endsInTrue (checked.runIn 0 (Machine.bare 0))) = true := by
    decide +kernel
  cases compiled : ofProgram true Program.assertedTwice with
  | error error =>
      rw [compiled] at isTrue
      cases isTrue
  | ok checked =>
      rw [compiled] at isTrue
      change Run.endsInTrue (checked.runIn 0 (Machine.bare 0)) = true at isTrue
      unfold Run.endsInTrue at isTrue
      split at isTrue
      · rename_i after passes
        obtain ⟨silent, result, left, isSilent, runs, resembles, -, same⟩ :=
          passes_without_assertions Program.assertedTwice_plain compiled passes
        refine ⟨Program.assertedTwice_plain, checked, silent, after, left, rfl, passes, isSilent,
          ?_, resembles⟩
        rcases same with rfl | ⟨-, isUndefined⟩
        · exact runs
        · cases isUndefined
      · cases isTrue

end ScriptEngine
