import ScriptEngine.Proofs.Machine.Building
import ScriptEngine.Proofs.Machine.Completion

namespace ScriptEngine

/-!
# The turns of a loop and its last statement

A loop with an update runs the update after its body, unless the body ends the loop.  A
statement at the end of the body is run when the body gets there.  The two differ only where
the body goes on with the loop before its end: the update is run then, the statement is not.

So a body that never goes on with its loop can take the update as its last statement, and the
loop turns as before, however often it turns and however it ends.
-/

/-!
## Who goes on with a loop

A `continue` without a label is meant for the innermost loop around it, and one with a label
for the loop that carries it.  Whether a statement holds one that is meant for a certain loop
can be seen in the statement: those without a label count up to the next loop inside, those
with a label everywhere, and none counts in the body of a function.

A statement that holds none is lowered to code that never completes by such a jump.
-/

mutual

/--
Whether a statement holds a `continue` that is meant for a loop around it.  The loop carries
the given labels, and `innermost` tells whether it is the innermost loop around the statement.
-/
def Statement.goesOn (labels : List String) (innermost : Bool) : Statement → Bool
  | .again _ none => innermost
  | .again _ (some label) => labels.contains label.literal
  | .block _ body => Statement.anyGoesOn labels innermost body
  | .branch _ _ consequence alternative =>
      consequence.goesOn labels innermost || Statement.optionGoesOn labels innermost alternative
  | .whileLoop _ _ body => body.goesOn labels false
  | .forLoop _ start _ _ body =>
      Statement.optionGoesOn labels innermost start || body.goesOn labels false
  | .forIn _ _ _ _ body => body.goesOn labels false
  | .labeled _ body => body.goesOn labels innermost
  | .select _ _ clauses => Clause.anyGoesOn labels innermost clauses
  | .declare _ _ | .giveBack _ _ | .expression _ _ | .empty _ | .leave _ _ | .function _ _ => false

/-- Whether one of some statements holds such a `continue`. -/
def Statement.anyGoesOn (labels : List String) (innermost : Bool) : List Statement → Bool
  | [] => false
  | first :: rest => first.goesOn labels innermost || Statement.anyGoesOn labels innermost rest

/-- Whether a statement that may be missing holds such a `continue`. -/
def Statement.optionGoesOn (labels : List String) (innermost : Bool) : Option Statement → Bool
  | none => false
  | some statement => statement.goesOn labels innermost

/-- Whether one of some clauses holds such a `continue`. -/
def Clause.anyGoesOn (labels : List String) (innermost : Bool) : List Clause → Bool
  | [] => false
  | .mk _ _ body :: rest =>
      Statement.anyGoesOn labels innermost body || Clause.anyGoesOn labels innermost rest

end

/-- The jumps that do not go on with a loop, which carries labels and may be the innermost one. -/
def Jump.Spares (labels : List String) (innermost : Bool) : Jump → Prop
  | .leave _ => True
  | .again none => innermost = false
  | .again (some label) => label ∉ labels

/-- A loop inside catches what goes on without a label. -/
theorem Jump.Spares.inside
    {labels : List String}
    {innermost : Bool}
    {jumps : Jump → Prop}
    {action : Action}
    (isLoop : action.isLoop = true)
    (allowed : ∀ jump : Jump, jump.Spares labels innermost → jumps jump)
    (jump : Jump)
    (spares : jump.Spares labels false) :
    action.inside jumps jump := by
  cases jump with
  | leave label => exact .inr (allowed _ trivial)
  | again label =>
      cases label with
      | none => exact .inl isLoop
      | some label => exact .inr (allowed _ spares)

/-- What has a target around a statement has one inside it too. -/
theorem Jump.Spares.around
    {labels : List String}
    {innermost : Bool}
    {jumps : Jump → Prop}
    (action : Action)
    (allowed : ∀ jump : Jump, jump.Spares labels innermost → jumps jump)
    (jump : Jump)
    (spares : jump.Spares labels innermost) :
    action.inside jumps jump :=
  .inr (allowed jump spares)

namespace Lowering

/-- A statement that holds no `continue` for a loop is lowered to code that spares the loop. -/
def sparing (labels : List String) : Claims :=
  { Claims.nothing with
    ofClauses := fun clauses step => ∀ (jumps : Jump → Prop) innermost context hasDefault,
      (∀ jump : Jump, jump.Spares labels innermost → jumps jump) →
      Clause.anyGoesOn labels innermost clauses = false →
      Gives (fun _ => True) (fun _ => True)
        (fun cases => ∀ clause ∈ cases, clause.Fits (fun _ => True) (fun _ => True) jumps)
        (step context hasDefault)
    ofStatement := fun statement step => ∀ (jumps : Jump → Prop) innermost context names,
      (∀ jump : Jump, jump.Spares labels innermost → jumps jump) →
      statement.goesOn labels innermost = false →
      Gives (fun _ => True) (fun _ => True)
        (fun lowered => ∀ action ∈ lowered, action.Fits (fun _ => True) (fun _ => True) jumps)
        (step context names)
    ofStatements := fun statements step => ∀ (jumps : Jump → Prop) innermost context,
      (∀ jump : Jump, jump.Spares labels innermost → jumps jump) →
      Statement.anyGoesOn labels innermost statements = false →
      Gives (fun _ => True) (fun _ => True)
        (fun body => ∀ action ∈ body, action.Fits (fun _ => True) (fun _ => True) jumps)
        (step context)
    ofStatementOption := fun statement step => ∀ (jumps : Jump → Prop) innermost context,
      (∀ jump : Jump, jump.Spares labels innermost → jumps jump) →
      Statement.optionGoesOn labels innermost statement = false →
      Gives (fun _ => True) (fun _ => True)
        (fun lowered => ∀ action ∈ lowered, action.Fits (fun _ => True) (fun _ => True) jumps)
        (step context)
    ofAlternative := fun statement step => ∀ (jumps : Jump → Prop) innermost context,
      (∀ jump : Jump, jump.Spares labels innermost → jumps jump) →
      Statement.optionGoesOn labels innermost statement = false →
      Gives (fun _ => True) (fun _ => True)
        (fun lowered => ∀ action ∈ lowered.getD [],
          action.Fits (fun _ => True) (fun _ => True) jumps)
        (step context) }

variable {labels : List String}

theorem sparing_parts : (sparing labels).PartCases where
  variablePlace := trivial
  memberPlace _ := trivial
  indexPlace _ _ := trivial
  noPlace := trivial
  noExpressions := trivial
  moreExpressions _ _ := trivial
  noExpression := trivial
  someExpression _ := trivial
  noProperties := trivial
  moreProperties _ _ := trivial
  function _ := trivial
  noDeclarators := trivial
  moreDeclarators _ _ := trivial
  noClauses _ _ _ _ _ _ := .pure (by simp)
  moreClauses _ bodySpares restSpares jumps innermost context hasDefault allowed spares := by
    rw [Clause.anyGoesOn, Bool.or_eq_false_iff] at spares
    dsimp only
    split
    · exact .refuse trivial _
    · refine .bind (fitting_cases.ofOption _ _ fun _ _ => trivial) fun _ fitsCondition => ?_
      refine .bind (bodySpares _ _ context allowed spares.1) fun _ fits => ?_
      refine .bind (restSpares _ _ context _ allowed spares.2) fun _ fitsRest => ?_
      exact .pure (List.forall_mem_cons.mpr ⟨.mk fitsCondition fits, fitsRest⟩)
  noStatements _ _ _ _ _ := .pure (by simp)
  moreStatements firstSpares restSpares jumps innermost context allowed spares := by
    rw [Statement.anyGoesOn, Bool.or_eq_false_iff] at spares
    refine .bind (firstSpares _ _ context [] allowed spares.1) fun _ fitsFirst => ?_
    refine .bind (restSpares _ _ context allowed spares.2) fun _ fitsRest => ?_
    refine .pure fun action member => ?_
    rcases List.mem_append.mp member with inFirst | inRest
    · exact fitsFirst action (Option.mem_toList.mp inFirst)
    · exact fitsRest action inRest
  noStatement _ _ _ _ _ := .pure (by simp)
  someStatement spared jumps innermost context allowed spares :=
    spared jumps innermost context [] allowed spares
  noAlternative _ _ _ _ _ := .pure (by simp)
  someAlternative spared jumps innermost context allowed spares :=
    .bind (spared jumps innermost context [] allowed spares)
      fun _ fits => .pure (Action.fits_asBody fits)

/-- Only a `continue` can fail to spare a loop, and a loop inside catches some. -/
theorem sparing_statements : (sparing labels).StatementCases where
  labeled spared jumps innermost context names allowed spares := by
    rw [Statement.goesOn] at spares
    dsimp only
    split
    · exact .refuse trivial _
    · exact spared jumps innermost context _ allowed spares
  whileLoop _ bodySpares jumps innermost context names allowed spares := by
    rw [Statement.goesOn] at spares
    refine .bind (fitting_cases.ofExpression _ _ fun _ _ => trivial) fun condition fitsCondition => ?_
    have inside := Jump.Spares.inside
      (show (Action.whileLoop names condition []).isLoop = true from rfl) allowed
    refine .bind (bodySpares _ _ _ [] inside spares) fun _ fits => ?_
    exact .pure (Action.fits_some (.whileLoop fitsCondition (Action.fits_asBody fits)))
  forLoop startSpares _ _ bodySpares jumps innermost context names allowed spares := by
    rw [Statement.goesOn, Bool.or_eq_false_iff] at spares
    let loop := Action.forLoop names none none none []
    have inside := Jump.Spares.inside (show loop.isLoop = true from rfl) allowed
    refine .bind (startSpares _ _ _ (Jump.Spares.around loop allowed) spares.1)
      fun _ fitsStart => ?_
    refine .bind (fitting_cases.ofOption _ _ fun _ _ => trivial) fun _ fitsCondition => ?_
    refine .bind (fitting_cases.ofOption _ _ fun _ _ => trivial) fun _ fitsUpdate => ?_
    refine .bind (bodySpares _ _ _ [] inside spares.2) fun _ fits => ?_
    exact .pure (Action.fits_some
      (.forLoop fitsStart fitsCondition fitsUpdate (Action.fits_asBody fits)))
  forIn {_ name declares _ _} _ bodySpares jumps innermost context names allowed spares := by
    rw [Statement.goesOn] at spares
    refine .bind (fitting_cases.ofExpression _ _ fun _ _ => trivial) fun subject fitsSubject => ?_
    have inside := Jump.Spares.inside
      (show (Action.forIn names name.literal declares subject []).isLoop = true from rfl) allowed
    refine .bind (bodySpares _ _ _ [] inside spares) fun _ fits => ?_
    exact .pure (Action.fits_some (.forIn fitsSubject (Action.fits_asBody fits)))
  evaluated _ _ _ _ _ _ _ _ :=
    .bind (fitting_cases.ofExpression _ _ fun _ _ => trivial) fun _ fits =>
      .pure (Action.fits_underLabels (Action.fits_some (.evaluate fits)))
  asserted _ _ _ _ _ _ _ _ := by
    dsimp only
    split
    · exact .pure (Action.fits_underLabels (by simp))
    · split
      · exact .bind (fitting_cases.ofExpression _ _ fun _ _ => trivial) fun _ fits =>
          .pure (Action.fits_underLabels (Action.fits_some (.check fits.soleArgument trivial)))
      · exact .refuse trivial _
  declare _ _ _ _ _ _ _ :=
    .bind (fitting_cases.ofDeclarators _ _ fun _ _ => trivial) fun _ fits =>
      .pure (Action.fits_underLabels (Action.fits_some (.declare fits)))
  define _ _ _ _ _ _ _ := by
    refine .bind (fitting_cases.ofFunction _ _ fun _ _ => trivial) fun _ fits => ?_
    split
    · exact .refuse trivial _
    · exact .pure (Action.fits_underLabels (Action.fits_some (.define fits)))
  giveBack _ _ _ _ _ _ _ :=
    .bind (fitting_cases.ofOption _ _ fun _ _ => trivial) fun _ fits =>
      .pure (Action.fits_underLabels (Action.fits_some (.giveBack fits)))
  empty _ _ _ _ _ _ := .pure (Action.fits_underLabels (by simp))
  block bodySpares jumps innermost context names allowed spares := by
    rw [Statement.goesOn] at spares
    have around := Jump.Spares.around (.labeled names []) allowed
    refine .bind (bodySpares _ _ _ around spares) fun _ fits => ?_
    exact .pure (Action.fits_underLabels (Action.fits_some (.block fits)))
  branch _ metSpares unmetSpares jumps innermost context names allowed spares := by
    rw [Statement.goesOn, Bool.or_eq_false_iff] at spares
    have around := Jump.Spares.around (.labeled names []) allowed
    refine .bind (fitting_cases.ofExpression _ _ fun _ _ => trivial) fun _ fitsCondition => ?_
    refine .bind (metSpares _ _ _ [] around spares.1) fun _ fitsThen => ?_
    refine .bind (unmetSpares _ _ _ around spares.2) fun _ fitsElse => ?_
    exact .pure (Action.fits_underLabels (Action.fits_some
      (.branch fitsCondition (Action.fits_asBody fitsThen) fitsElse)))
  leave _ _ _ names allowed _ := by
    dsimp only
    split
    · exact .refuse trivial _
    · exact .pure (Action.fits_underLabels (Action.fits_some
        (.leave (Jump.Spares.around (.labeled names []) allowed _ trivial))))
  leaveTo _ _ _ names allowed _ := by
    dsimp only
    split
    · exact .pure (Action.fits_underLabels (Action.fits_some
        (.leave (Jump.Spares.around (.labeled names []) allowed _ trivial))))
    · exact .refuse trivial _
  again jumps innermost context names allowed spares := by
    have notMeant : innermost = false := by simpa [Statement.goesOn] using spares
    dsimp only
    split
    · exact .refuse trivial _
    · exact .pure (Action.fits_underLabels (Action.fits_some
        (.again (Jump.Spares.around (.labeled names []) allowed _ notMeant))))
  againTo {_ label} jumps innermost context names allowed spares := by
    have notMeant : label.literal ∉ labels := by simpa [Statement.goesOn] using spares
    dsimp only
    split
    · split
      · exact .pure (Action.fits_underLabels (Action.fits_some
          (.again (Jump.Spares.around (.labeled names []) allowed _ notMeant))))
      · exact .refuse trivial _
    · exact .refuse trivial _
  select _ clausesSpare jumps innermost context names allowed spares := by
    rw [Statement.goesOn] at spares
    refine .bind (fitting_cases.ofExpression _ _ fun _ _ => trivial) fun subject fitsSubject => ?_
    have inside := Jump.Spares.around (.select subject [])
      (Jump.Spares.around (.labeled names []) allowed)
    refine .bind (clausesSpare _ _ _ false inside spares) fun _ fits => ?_
    exact .pure (Action.fits_underLabels (Action.fits_some (.select fitsSubject fits)))

theorem sparing_cases : (sparing labels).Cases :=
  ⟨by constructor <;> intros <;> trivial, sparing_parts, sparing_statements⟩

end Lowering

/-- A body without a `continue` for its loop never completes by one, wherever it is run. -/
theorem Statement.asBody_yields
    {labels : List String}
    {body : Statement}
    (spares : body.goesOn labels true = false)
    {context : LoweringContext}
    {names : List String}
    {routines after : Array Routine}
    {lowered : Option Action}
    (isLowered : body.lower context names routines = .ok (lowered, after))
    (frame : Frame)
    (scope : Nat) :
    Run.Yields (Completion.Within (Jump.Spares labels true))
      (Action.runAll frame scope (Action.asBody lowered)) := by
  have gives := Lowering.sparing_cases.ofStatement body _ true context names (fun _ => id) spares
    routines fun routine _ => routine.fits_of_free (fun _ => trivial) fun _ => trivial
  dsimp only at gives
  rw [isLowered] at gives
  exact Action.runAll_yields frame scope (Action.fits_asBody gives.1)

end ScriptEngine

namespace ScriptEngine

namespace Run

/-- What follows a run matters only for the values that the run yields. -/
theorem bind_congr_of_yields
    {holds : α → Prop}
    {first : Run α}
    {next other : α → Run β}
    (yields : Yields holds first)
    (same : ∀ value, holds value → next value = other value) :
    first >>= next = first >>= other := by
  funext machine
  cases ran : first machine with
  | ok value middle => rw [bind_of_ok ran, bind_of_ok ran, same value (yields _ _ _ ran)]
  | error abort middle => rw [bind_of_error ran, bind_of_error ran]

end Run

namespace Completion

/-- Go on behind a statement unless it completed by a jump or a return. -/
def andThen (next : Run Completion) : Completion → Run Completion
  | .normal _ => next
  | completion => pure completion

/-- A statement ran to its end, whatever it gave. -/
def IsNormal (completion : Completion) : Prop := ∃ value, completion = .normal value

/-- A list of statements that ran to its end gives no value. -/
def GivesNothing (completion : Completion) : Prop :=
  ∀ value, completion = .normal value → value = .undefined

theorem andThen_andThen (first second : Run Completion) (completion : Completion) :
    andThen first completion >>= andThen second =
      andThen (first >>= andThen second) completion := by
  cases completion <;> rfl

theorem andThen_end {completion : Completion} (nothing : completion.GivesNothing) :
    andThen (pure (.normal .undefined)) completion = pure completion := by
  cases completion with
  | normal value => rw [nothing value rfl]; rfl
  | _ => rfl

end Completion

open Completion (andThen)

namespace Action

variable (frame : Frame) (scope : Nat)

theorem runAll_cons (first : Action) (rest : List Action) :
    runAll frame scope (first :: rest) =
      first.run frame scope >>= andThen (runAll frame scope rest) := by
  rw [runAll]
  refine congrArg (first.run frame scope >>= ·) (funext fun completion => ?_)
  cases completion <;> rfl

/-- Statements are run behind those in front of them. -/
theorem runAll_append (first second : List Action) :
    runAll frame scope (first ++ second) =
      runAll frame scope first >>= andThen (runAll frame scope second) := by
  induction first with
  | nil =>
      rw [List.nil_append, runAll, pure_bind]
      rfl
  | cons action rest inductionHypothesis =>
      rw [List.cons_append, runAll_cons, runAll_cons, inductionHypothesis, bind_assoc]
      simp only [Completion.andThen_andThen]

theorem runAll_yields_nothing (body : List Action) :
    Run.Yields Completion.GivesNothing (runAll frame scope body) := by
  induction body with
  | nil =>
      rw [runAll]
      refine .pure ?_
      rintro value ⟨⟩
      rfl
  | cons first rest inductionHypothesis =>
      rw [runAll_cons]
      refine .bind fun completion => ?_
      cases completion with
      | normal value => exact inductionHypothesis
      | _ =>
          refine .pure ?_
          rintro value ⟨⟩

theorem runAll_singleton
    {action : Action}
    (nothing : Run.Yields Completion.GivesNothing (action.run frame scope)) :
    runAll frame scope [action] = action.run frame scope := by
  rw [runAll_cons, runAll]
  exact (Run.bind_congr_of_yields nothing fun _ => Completion.andThen_end).trans (bind_pure _)

/-- A statement is run in a list as it is run as the body of a loop. -/
theorem runAll_toList (lowered : Option Action) :
    runAll frame scope lowered.toList = runAll frame scope (asBody lowered) := by
  cases lowered with
  | none => rfl
  | some action =>
      cases action with
      | block body =>
          have nothing := runAll_yields_nothing frame scope body
          have isBlock : (block body).run frame scope = runAll frame scope body := by
            rw [run]
          exact (runAll_singleton frame scope (isBlock ▸ nothing)).trans isBlock
      | _ => rfl

end Action

namespace Run

/-- The turns of a loop are the same with the update at the end of a body that never goes on
with the loop. -/
theorem turns_update
    {labels : List String}
    (test : Run Bool)
    {body last : Run Completion}
    {update : Run Unit}
    (bodyYields : Yields (Completion.Within (Jump.Spares labels true)) body)
    (isLast : last = (do update; pure (.normal .undefined)))
    (budget : Nat) :
    turns labels test body update budget =
      turns labels test (body >>= andThen last) (pure ()) budget := by
  induction budget with
  | zero => rfl
  | succ budget inductionHypothesis =>
      rw [turns, turns]
      refine congrArg (test >>= ·) (funext fun goesOn => ?_)
      cases goesOn with
      | false => rfl
      | true =>
          simp only [↓reduceIte, bind_assoc]
          refine bind_congr_of_yields bodyYields fun completion within => ?_
          cases completion with
          | normal value =>
              simp only [Completion.andThen, isLast, bind_assoc, pure_bind]
              change (update >>= fun _ => turns labels test body update budget) = _
              rw [inductionHypothesis, isLast]
              rfl
          | returned value => rfl
          | left label => rfl
          | again label =>
              have notMeant : Completion.targets labels label = false := by
                cases label with
                | none => simp [Jump.Spares] at within
                | some label => simpa [Jump.Spares, Completion.targets] using within
              simp only [Completion.andThen, pure_bind, Completion.leavesLoop?, notMeant,
                Bool.false_eq_true, ↓reduceIte]

end Run

/-- Run the update of a loop, whatever it gives. -/
def Term.advance (frame : Frame) (scope : Nat) (update : Option Term) : Run Unit := do
  let _ ← Term.evalOption frame scope update

namespace Action

/-- The statements that do what a `for` loop does: its start, and a `while` loop with the update
at the end of its body. -/
def spelledOut
    (labels : List String)
    (start : Option Action)
    (condition update : Option Term)
    (body : Option Action) :
    List Action :=
  start.toList ++ [.whileLoop labels (condition.getD (.constant (.boolean true)))
    (body.toList ++ (update.map .evaluate).toList)]

variable (frame : Frame) (scope : Nat)

/-- An update that is run as a statement. -/
theorem runAll_update (update : Option Term) :
    runAll frame scope (update.map .evaluate).toList = (do
      Term.advance frame scope update
      pure (.normal .undefined)) := by
  cases update with
  | none =>
      rw [Option.map_none, Option.toList_none, runAll, Term.advance, Term.evalOption, pure_bind,
        pure_bind]
  | some term =>
      rw [Option.map_some, Option.toList_some, runAll_cons, runAll, run, Term.advance,
        Term.evalOption, bind_assoc, bind_assoc]
      rfl

/-- A condition that is missing holds. -/
theorem test_getD (condition : Option Term) :
    Term.test frame scope condition = (do
      let value ← (condition.getD (.constant (.boolean true))).eval frame scope
      return value.isTruthy) := by
  cases condition with
  | none =>
      rw [Term.test, Option.getD_none, Term.eval, pure_bind]
      rfl
  | some term => rw [Term.test, Option.getD_some]

/-- A `for` loop whose body never goes on with it does what its spelled out form does. -/
theorem runAll_spelledOut
    {labels : List String}
    {start : Option Action}
    (condition update : Option Term)
    {body : Option Action}
    (startYields : Run.Yields Completion.IsNormal (Action.start frame scope start))
    (bodyYields : ∀ inner, Run.Yields (Completion.Within (Jump.Spares labels true))
      (runAll frame inner (asBody body))) :
    runAll frame scope [.forLoop labels start condition update (asBody body)] =
      runAll frame scope (spelledOut labels start condition update body) := by
  have sameTurns (inner : Nat) := Run.turns_update (Term.test frame inner condition)
    (bodyYields inner) (runAll_update frame inner update) frame.patience
  have sameLoop : (do
      let inner ← Run.makeScope (some scope) false
      Run.turns labels (Term.test frame inner condition) (runAll frame inner (asBody body))
        (Term.advance frame inner update) frame.patience) =
      (whileLoop labels (condition.getD (.constant (.boolean true)))
        (body.toList ++ (update.map .evaluate).toList)).run frame scope := by
    rw [run]
    refine congrArg (Run.makeScope (some scope) false >>= ·) (funext fun inner => ?_)
    rw [runAll_append, runAll_toList, ← test_getD]
    exact sameTurns inner
  have sameFor : (forLoop labels start condition update (asBody body)).run frame scope = (do
      let _ ← Action.start frame scope start
      (whileLoop labels (condition.getD (.constant (.boolean true)))
        (body.toList ++ (update.map .evaluate).toList)).run frame scope) := by
    rw [← sameLoop, run]
    rfl
  rw [runAll_cons, sameFor, bind_assoc, ← runAll_cons, spelledOut]
  cases start with
  | none =>
      rw [Action.start, pure_bind]
      rfl
  | some action =>
      rw [Option.toList_some, List.singleton_append, runAll_cons, Action.start]
      refine Run.bind_congr_of_yields startYields fun completion isNormal => ?_
      obtain ⟨value, rfl⟩ := isNormal
      rfl

end Action

end ScriptEngine
