import ScriptEngine.Proofs.Code.Surroundings
import ScriptEngine.Proofs.Machine.LoopTurns
import ScriptEngine.Proofs.Session.Composition

namespace ScriptEngine

/-!
# Two ways to write a loop

A `for` statement can be written with `while`: its start goes in front, and its update becomes
the last statement of the body.  Both ways are accepted together, and both do the same when
they are run, as long as nothing in the body goes on with the loop before the update is
reached, and the update is not a call that becomes an assertion where it is a statement.

The clauses are lowered in another order, so the functions in them get other numbers.  But for
those the machines that both leave are the same.
-/

variable {routines after : Array Routine}

/-- A `for` statement, with the labels in front of it. -/
structure LabeledLoop where
  labels : List Token
  token : Token
  start : Option Statement
  condition : Option Expression
  update : Option Expression
  body : Statement

namespace LabeledLoop

variable (loop : LabeledLoop)

/-- The names of the labels. -/
def names : List String := loop.labels.map Token.literal

/-- A statement behind the labels. -/
def behindLabels (statement : Statement) : Statement := loop.labels.foldr .labeled statement

/-- The loop as it is written. -/
def asFor : Statement :=
  loop.behindLabels (.forLoop loop.token loop.start loop.condition loop.update loop.body)

/-- The body and behind it the update as a statement. -/
def bodyAndUpdate : Statement :=
  .block loop.token (loop.body :: (loop.update.map (.expression loop.token)).toList)

/-- The loop written with `while`. -/
def asWhile : List Statement :=
  loop.start.toList ++ [loop.behindLabels
    (.whileLoop loop.token (loop.condition.getD (.boolean loop.token true)) loop.bodyAndUpdate)]

/--
A loop that can be written with `while`.  Like every loop it starts with a declaration or an
expression, if with anything; its body holds no `continue` that is meant for it, and its update
is no assertion.
-/
structure Rewritable : Prop where
  starts : ∀ statement ∈ loop.start, statement.StartsLoop
  spares : loop.body.goesOn loop.names true = false
  noAssertion : ∀ value ∈ loop.update, value.assertion? = none

end LabeledLoop

/-! ## What both ways are lowered to -/

/-- Clauses that look the same look the same where they are spelled out. -/
theorem Action.rewrittenAll_spelledOut
    {view : Source → Source} {labels : List String}
    {start otherStart body otherBody : Option Action}
    {condition otherCondition update otherUpdate : Option Term}
    (sameStart : rewrittenOption (.blurring view) start = rewrittenOption (.blurring view) otherStart)
    (sameCondition : Term.rewrittenOption (.blurring view) condition =
      Term.rewrittenOption (.blurring view) otherCondition)
    (sameUpdate : Term.rewrittenOption (.blurring view) update =
      Term.rewrittenOption (.blurring view) otherUpdate)
    (sameBody : rewrittenOption (.blurring view) body = rewrittenOption (.blurring view) otherBody) :
    rewrittenAll (.blurring view) (spelledOut labels start condition update body) =
      rewrittenAll (.blurring view)
        (spelledOut labels otherStart otherCondition otherUpdate otherBody) := by
  have isCondition (condition : Option Term) :
      (condition.getD (.constant (.boolean true))).rewritten (.blurring view) =
        (Term.rewrittenOption (.blurring view) condition).getD (.constant (.boolean true)) := by
    cases condition <;> rfl
  have isUpdate (update : Option Term) :
      rewrittenAll (.blurring view) (update.map .evaluate).toList =
        ((Term.rewrittenOption (.blurring view) update).map .evaluate).toList := by
    cases update <;> rfl
  simp only [spelledOut, rewrittenAll_append, rewrittenAll_toList, rewrittenAll, rewritten,
    isLeftOut_blurring, Bool.false_eq_true, if_false, isCondition, isUpdate, sameStart,
    sameCondition, sameUpdate, sameBody]

namespace LoweringContext

/-- Take labels into a context, behind some that are there already. -/
def checkLabels (context : LoweringContext) : List String → List Token → Lowering Unit
  | _, [] => pure ()
  | names, label :: labels =>
      if (context.findLabel? label.literal).isSome || names.contains label.literal then
        context.refuse label (.repeatedLabel label.literal)
      else context.checkLabels (names ++ [label.literal]) labels

theorem checkLabels_agrees (context : LoweringContext) (names : List String) (labels : List Token) :
    (Lowering.Comparison.blurring id).Agree (fun _ => id) (context.checkLabels names labels)
      (context.checkLabels names labels) := by
  induction labels generalizing names with
  | nil => exact .pure rfl
  | cons label labels inductionHypothesis =>
      rw [checkLabels]
      exact .choose (.refuse (show (Lowering.Comparison.blurring id).Around context context from
        ⟨rfl, rfl⟩) label _) (inductionHypothesis _)

end LoweringContext

namespace Statement

/-- A statement behind labels is lowered once all labels are taken. -/
theorem lower_labeled
    (context : LoweringContext)
    (names : List String)
    (labels : List Token)
    (statement : Statement) :
    (labels.foldr .labeled statement).lower context names = (do
      context.checkLabels names labels
      statement.lower context (names ++ labels.map Token.literal)) := by
  induction labels generalizing names with
  | nil =>
      rw [LoweringContext.checkLabels, pure_bind, List.map_nil, List.append_nil]
      rfl
  | cons label labels inductionHypothesis =>
      rw [List.foldr_cons, Statement.lower, LoweringContext.checkLabels]
      split
      · rfl
      · rw [inductionHypothesis, List.map_cons, List.append_assoc]
        rfl

theorem lowerAll_toList (context : LoweringContext) (statement : Option Statement) :
    Statement.lowerAll context statement.toList =
      (do pure (← Statement.lowerOption context statement).toList) := by
  cases statement with
  | none =>
      rw [Option.toList_none, Statement.lowerAll, Statement.lowerOption, pure_bind]
      rfl
  | some statement =>
      rw [Option.toList_some, Statement.lowerAll, Statement.lowerAll, Statement.lowerOption]
      simp only [pure_bind, List.append_nil]

/-- The update of a loop is lowered as a statement of its own. -/
theorem lowerAll_update
    (context : LoweringContext)
    (token : Token)
    {update : Option Expression}
    (noAssertion : ∀ value ∈ update, value.assertion? = none) :
    Statement.lowerAll context (update.map (.expression token)).toList = (do
      let update ← Expression.lowerOption context update
      pure (update.map .evaluate).toList) := by
  rw [lowerAll_toList]
  cases update with
  | none =>
      rw [Option.map_none, Statement.lowerOption, Expression.lowerOption, pure_bind, pure_bind]
      rfl
  | some value =>
      have isLowered : (Statement.expression token value).lower context [] = (do
          let term ← value.lower context
          pure (some (.evaluate term))) := by
        rw [Statement.lower, noAssertion value rfl]
        rfl
      rw [Option.map_some, Statement.lowerOption, Expression.lowerOption, isLowered]
      simp only [bind_assoc, pure_bind]
      rfl

/-- The start of a loop is lowered to something that runs to its end. -/
theorem start_yields
    {start : Option Statement}
    (starts : ∀ statement ∈ start, statement.StartsLoop)
    {context : LoweringContext}
    {lowered : Option Action}
    (isLowered : Statement.lowerOption context start routines = .ok (lowered, after))
    (frame : Frame)
    (scope : Nat) :
    Run.Yields Completion.IsNormal (Action.start frame scope lowered) := by
  have nothing : Run.Yields Completion.IsNormal (Action.start frame scope none) := .pure ⟨_, rfl⟩
  cases start with
  | none =>
      rw [Statement.lowerOption] at isLowered
      cases isLowered
      exact nothing
  | some statement =>
      have isStart := starts statement rfl
      rw [Statement.lowerOption] at isLowered
      cases statement with
      | declare token declarators =>
          rw [Statement.lower] at isLowered
          obtain ⟨bindings, -, isDeclared⟩ := Lowering.exists_of_bind isLowered
          cases isDeclared
          change Run.Yields _ ((Action.declare bindings.1).run frame scope)
          rw [Action.run]
          exact .bind fun _ => .pure ⟨_, rfl⟩
      | expression token value =>
          rw [Statement.lower] at isLowered
          cases isAssertion : value.assertion? with
          | none =>
              rw [isAssertion] at isLowered
              obtain ⟨term, -, isEvaluated⟩ := Lowering.exists_of_bind isLowered
              cases isEvaluated
              change Run.Yields _ ((Action.evaluate term.1).run frame scope)
              rw [Action.run]
              exact .bind fun _ => .pure ⟨_, rfl⟩
          | some assertion =>
              obtain ⟨callee, arguments⟩ := assertion
              rw [isAssertion] at isLowered
              dsimp only at isLowered
              split at isLowered
              · cases isLowered
                exact nothing
              · split at isLowered
                · obtain ⟨term, -, isChecked⟩ := Lowering.exists_of_bind isLowered
                  cases isChecked
                  change Run.Yields _ ((Action.check term.1.soleArgument _ _).run frame scope)
                  rw [Action.run]
                  refine .bind fun _ => ?_
                  split
                  · exact .pure ⟨_, rfl⟩
                  · exact .throw _
                · cases isLowered
      | _ => exact isStart.elim

end Statement

namespace LabeledLoop

variable {loop : LabeledLoop} (context : LoweringContext)

theorem lower_asFor (rewritable : loop.Rewritable) :
    Statement.lowerAll context [loop.asFor] = (do
      context.checkLabels [] loop.labels
      let start ← Statement.lowerOption context loop.start
      let condition ← Expression.lowerOption context loop.condition
      let update ← Expression.lowerOption context loop.update
      let body ← loop.body.lower (context.under loop.names true).inLoop []
      pure [.forLoop loop.names start condition update (Action.asBody body)]) := by
  have within := @Expression.lowerOption_within_function (context.under loop.names true) context rfl
  rw [Statement.lowerAll, Statement.lowerAll, asFor, behindLabels, Statement.lower_labeled,
    List.nil_append, ← names, Statement.lower,
    Statement.lowerOption_start context _ rewritable.starts, within, within]
  simp only [bind_assoc, pure_bind]
  rfl

/-- Where the condition is missing, `true` stands for it. -/
theorem lower_condition :
    (loop.condition.getD (.boolean loop.token true)).lower (context.under loop.names true) = (do
      let condition ← Expression.lowerOption context loop.condition
      pure (condition.getD (.constant (.boolean true)))) := by
  rw [← @Expression.lowerOption_within_function (context.under loop.names true) context rfl]
  cases loop.condition with
  | none =>
      rw [Option.getD_none, Expression.lower, Expression.lowerOption, pure_bind]
      rfl
  | some condition =>
      rw [Option.getD_some, Expression.lowerOption]
      simp only [bind_assoc, pure_bind, Option.getD_some, bind_pure]

theorem lower_bodyAndUpdate (rewritable : loop.Rewritable) :
    loop.bodyAndUpdate.lower (context.under loop.names true).inLoop [] = (do
      let body ← loop.body.lower (context.under loop.names true).inLoop []
      let update ← Expression.lowerOption context loop.update
      pure (some (.block (body.toList ++ (update.map .evaluate).toList)))) := by
  let inside := (context.under loop.names true).inLoop
  have isUpdate : Statement.lowerAll inside
      (loop.update.map (.expression loop.token)).toList = (do
        let update ← Expression.lowerOption context loop.update
        pure (update.map .evaluate).toList) := by
    rw [Statement.lowerAll_update _ _ rewritable.noAssertion,
      @Expression.lowerOption_within_function inside context rfl]
  have isBlock : loop.bodyAndUpdate.lower inside [] = (do
      let body ← Statement.lowerAll inside
        (loop.body :: (loop.update.map (.expression loop.token)).toList)
      pure (some (.block body))) := by
    rw [bodyAndUpdate, Statement.lower]
    rfl
  rw [isBlock, Statement.lowerAll, isUpdate]
  simp only [bind_assoc, pure_bind, inside]

theorem lower_asWhile (rewritable : loop.Rewritable) :
    Statement.lowerAll context loop.asWhile = (do
      let start ← Statement.lowerOption context loop.start
      context.checkLabels [] loop.labels
      let condition ← Expression.lowerOption context loop.condition
      let body ← loop.body.lower (context.under loop.names true).inLoop []
      let update ← Expression.lowerOption context loop.update
      pure (Action.spelledOut loop.names start condition update body)) := by
  rw [asWhile, Statement.lowerAll_append, Statement.lowerAll_toList, Statement.lowerAll,
    Statement.lowerAll, behindLabels, Statement.lower_labeled, List.nil_append, ← names,
    Statement.lower, lower_bodyAndUpdate context rewritable, lower_condition]
  simp only [bind_assoc, pure_bind]
  rfl

/-- What the clauses of a loop are lowered to, up to the numbers of functions. -/
structure Lowered
    (loop : LabeledLoop)
    (context : LoweringContext)
    (start : Option Action)
    (condition update : Option Term)
    (body : Option Action) :
    Prop where
  labels : Lowering.ComesTo id (context.checkLabels [] loop.labels) ()
  start : Lowering.ComesTo (Action.rewrittenOption (.blurring id))
    (Statement.lowerOption context loop.start) start
  condition : Lowering.ComesTo (Term.rewrittenOption (.blurring id))
    (Expression.lowerOption context loop.condition) condition
  update : Lowering.ComesTo (Term.rewrittenOption (.blurring id))
    (Expression.lowerOption context loop.update) update
  body : Lowering.ComesTo (Action.rewrittenOption (.blurring id))
    (loop.body.lower (context.under loop.names true).inLoop []) body

section

variable {context : LoweringContext} {start : Option Action} {condition update : Option Term}
  {body : Option Action}

/-- The loop as it is written is lowered if its clauses are. -/
theorem Lowered.asFor
    (lowered : loop.Lowered context start condition update body)
    (rewritable : loop.Rewritable) :
    Lowering.ComesTo (Action.rewrittenAll (.blurring id)) (Statement.lowerAll context [loop.asFor])
      [.forLoop loop.names start condition update (Action.asBody body)] := by
  rw [lower_asFor context rewritable]
  refine lowered.labels.bind fun _ _ => lowered.start.bind fun _ isStart => ?_
  refine lowered.condition.bind fun _ isCondition => lowered.update.bind fun _ isUpdate => ?_
  refine lowered.body.bind fun _ isBody => .pure ?_
  simp only [Action.rewrittenAll, Action.rewritten, Action.isLeftOut_blurring,
    Bool.false_eq_true, if_false, isStart, isCondition, isUpdate, Action.rewrittenAll_asBody,
    isBody]

/-- The loop written with `while` is lowered if the clauses of the loop are. -/
theorem Lowered.asWhile
    (lowered : loop.Lowered context start condition update body)
    (rewritable : loop.Rewritable) :
    Lowering.ComesTo (Action.rewrittenAll (.blurring id)) (Statement.lowerAll context loop.asWhile)
      (Action.spelledOut loop.names start condition update body) := by
  rw [lower_asWhile context rewritable]
  refine lowered.start.bind fun _ isStart => lowered.labels.bind fun _ _ => ?_
  refine lowered.condition.bind fun _ isCondition => lowered.body.bind fun _ isBody => ?_
  refine lowered.update.bind fun _ isUpdate => .pure ?_
  exact Action.rewrittenAll_spelledOut isStart isCondition isUpdate isBody

/-- What the loop as it is written is lowered to is made of what its clauses are lowered to. -/
theorem exists_of_asFor
    (rewritable : loop.Rewritable)
    {code : List Action}
    (isCode : Statement.lowerAll context [loop.asFor] routines = .ok (code, after)) :
    ∃ start condition update body,
      loop.Lowered context start condition update body ∧
      code = [.forLoop loop.names start condition update (Action.asBody body)] ∧
      ∀ frame scope,
        Run.Yields Completion.IsNormal (Action.start frame scope start) ∧
        Run.Yields (Completion.Within (Jump.Spares loop.names true))
          (Action.runAll frame scope (Action.asBody body)) := by
  rw [lower_asFor context rewritable] at isCode
  obtain ⟨labels, areLabels, isCode⟩ := Lowering.exists_of_bind isCode
  obtain ⟨start, isStart, isCode⟩ := Lowering.exists_of_bind isCode
  obtain ⟨condition, isCondition, isCode⟩ := Lowering.exists_of_bind isCode
  obtain ⟨update, isUpdate, isCode⟩ := Lowering.exists_of_bind isCode
  obtain ⟨body, isBody, isCode⟩ := Lowering.exists_of_bind isCode
  cases isCode
  refine ⟨start.1, condition.1, update.1, body.1, ⟨?_, ?_, ?_, ?_, ?_⟩, rfl, ?_⟩
  · exact .of_ok (context.checkLabels_agrees [] loop.labels) areLabels
  · exact .of_ok (Lowering.lowerStart_agrees context rfl loop.start) isStart
  · exact .of_ok (Lowering.lowerOption_agrees context rfl loop.condition) isCondition
  · exact .of_ok (Lowering.lowerOption_agrees context rfl loop.update) isUpdate
  · exact .of_ok (Lowering.lower_agrees _ rfl [] loop.body) isBody
  · intro frame scope
    exact ⟨Statement.start_yields rewritable.starts isStart frame scope,
      Statement.asBody_yields rewritable.spares isBody frame scope⟩

/-- If the loop written with `while` is lowered, so are the clauses of the loop. -/
theorem exists_of_asWhile
    (rewritable : loop.Rewritable)
    {code : List Action}
    (isCode : Statement.lowerAll context loop.asWhile routines = .ok (code, after)) :
    ∃ start condition update body, loop.Lowered context start condition update body := by
  rw [lower_asWhile context rewritable] at isCode
  obtain ⟨start, isStart, isCode⟩ := Lowering.exists_of_bind isCode
  obtain ⟨labels, areLabels, isCode⟩ := Lowering.exists_of_bind isCode
  obtain ⟨condition, isCondition, isCode⟩ := Lowering.exists_of_bind isCode
  obtain ⟨body, isBody, isCode⟩ := Lowering.exists_of_bind isCode
  obtain ⟨update, isUpdate, -⟩ := Lowering.exists_of_bind isCode
  refine ⟨start.1, condition.1, update.1, body.1, ?_, ?_, ?_, ?_, ?_⟩
  · exact .of_ok (context.checkLabels_agrees [] loop.labels) areLabels
  · exact .of_ok (Lowering.lowerStart_agrees context rfl loop.start) isStart
  · exact .of_ok (Lowering.lowerOption_agrees context rfl loop.condition) isCondition
  · exact .of_ok (Lowering.lowerOption_agrees context rfl loop.update) isUpdate
  · exact .of_ok (Lowering.lower_agrees _ rfl [] loop.body) isBody

/-- Both ways to write the loop are accepted together. -/
theorem accepted_iff (rewritable : loop.Rewritable) (routines others : Array Routine) :
    (∃ result, Statement.lowerAll context [loop.asFor] routines = .ok result) ↔
      ∃ result, Statement.lowerAll context loop.asWhile others = .ok result := by
  constructor
  · rintro ⟨⟨code, after⟩, isCode⟩
    obtain ⟨_, _, _, _, lowered, -⟩ := exists_of_asFor rewritable isCode
    obtain ⟨result, isResult, -⟩ := (lowered.asWhile rewritable).exists_ok others
    exact ⟨result, isResult⟩
  · rintro ⟨⟨code, after⟩, isCode⟩
    obtain ⟨_, _, _, _, lowered⟩ := exists_of_asWhile rewritable isCode
    obtain ⟨result, isResult, -⟩ := (lowered.asFor rewritable).exists_ok routines
    exact ⟨result, isResult⟩

end

end LabeledLoop

/-! ## What both ways do -/

/-- Machines that differ in the numbers of the functions on their heaps, and in nothing else. -/
structure Machine.Alike (machine other : Machine) : Prop where
  heap : machine.heap.blurred id = other.heap.blurred id
  rest : machine = { other with heap := machine.heap }

/-- Runs that end alike: both by the same completion or both by the same error, at the same
place, and on machines that are alike. -/
inductive Run.EndAlike :
    EStateM.Result Abort Machine Completion → EStateM.Result Abort Machine Completion → Prop where
  | completed {completion : Completion} {machine other : Machine} :
      machine.Alike other →
      EndAlike (.ok completion machine) (.ok completion other)
  | failed {abort : Abort} {machine other : Machine} :
      machine.Alike other →
      EndAlike (.error abort machine) (.error abort other)

/-- A view that shows all leaves the places of errors as they are. -/
theorem Abort.blurred_id (abort : Abort) : abort.blurred id = abort := by
  cases abort with
  | broken fault => rfl
  | raised error =>
      obtain ⟨fault, place⟩ := error
      cases place <;> rfl

theorem Machine.alike_of_blurred
    {machine other : Machine}
    (same : machine.blurred id = other.blurred id) :
    machine.Alike other := by
  obtain ⟨heap, scopes, global, output, depth, maxDepth, seed⟩ := machine
  obtain ⟨otherHeap, otherScopes, otherGlobal, otherOutput, otherDepth, otherMax, otherSeed⟩ :=
    other
  unfold Machine.blurred at same
  obtain ⟨sameHeap, rfl, rfl, rfl, rfl, rfl, rfl⟩ := Machine.mk.inj same
  exact ⟨sameHeap, rfl⟩

theorem Run.endAlike_of_blurred
    {run other : EStateM.Result Abort Machine Completion}
    (same : Run.blurred id run = Run.blurred id other) :
    EndAlike run other := by
  cases run with
  | ok completion machine =>
      cases other with
      | ok value left =>
          obtain ⟨rfl, sameMachine⟩ := EStateM.Result.ok.inj same
          exact .completed (Machine.alike_of_blurred sameMachine)
      | error failure left => cases same
  | error abort machine =>
      cases other with
      | ok value left => cases same
      | error failure left =>
          obtain ⟨sameAbort, sameMachine⟩ := EStateM.Result.error.inj same
          rw [Abort.blurred_id, Abort.blurred_id] at sameAbort
          subst sameAbort
          exact .failed (Machine.alike_of_blurred sameMachine)

/--
A `for` statement means what its clauses mean in the order they are run.  Written with `while`,
its start in front and its update at the end of the body, it is accepted in the same contexts.
Whatever machine it is run on, in whatever scope, for whatever receiver and with whatever
patience, it ends as when it is written with `while`: normally, by a return, a jump, or an error
in any of its clauses, and it leaves the same scopes, the same output and the same heap, but for
the numbers of functions.
-/
theorem LabeledLoop.for_statement_is_while_statement
    (loop : LabeledLoop)
    (rewritable : loop.Rewritable)
    (context : LoweringContext)
    (routines others : Array Routine) :
    ((∃ result, Statement.lowerAll context [loop.asFor] routines = .ok result) ↔
      ∃ result, Statement.lowerAll context loop.asWhile others = .ok result) ∧
    ∀ code after written left,
      Statement.lowerAll context [loop.asFor] routines = .ok (code, after) →
      Statement.lowerAll context loop.asWhile others = .ok (written, left) →
      ∀ nesting patience this scope machine,
        Run.EndAlike
          (Action.runAll ⟨Run.callUpTo nesting, patience, this⟩ scope code machine)
          (Action.runAll ⟨Run.callUpTo nesting, patience, this⟩ scope written machine) := by
  refine ⟨accepted_iff rewritable routines others, ?_⟩
  intro code after written left isCode isWritten nesting patience this scope machine
  obtain ⟨start, condition, update, body, lowered, rfl, yields⟩ :=
    exists_of_asFor rewritable isCode
  obtain ⟨result, isResult, sameCode⟩ := (lowered.asWhile rewritable).exists_ok others
  rw [isWritten] at isResult
  cases isResult
  let frame : Frame := ⟨Run.callUpTo nesting, patience, this⟩
  have calls : ∀ callee this arguments, Run.Blind id (frame.call callee this arguments) :=
    Run.Blind.callUpTo nesting
  have spelled := Action.runAll_spelledOut frame scope condition update
    (yields frame scope).1 fun inner => (yields frame inner).2
  refine Run.endAlike_of_blurred ?_
  calc Run.blurred id (Action.runAll frame scope
          [.forLoop loop.names start condition update (Action.asBody body)] machine)
      = Run.blurred id (Action.runAll frame scope
          (Action.spelledOut loop.names start condition update body) machine) := by
        rw [spelled]
    _ = Action.runAll frame scope (Action.rewrittenAll (.blurring id)
          (Action.spelledOut loop.names start condition update body)) (machine.blurred id) :=
        (Action.runAll_blurred calls scope _ machine).symm
    _ = Action.runAll frame scope (Action.rewrittenAll (.blurring id) written) (machine.blurred id) := by
        rw [sameCode]
    _ = Run.blurred id (Action.runAll frame scope written machine) :=
        Action.runAll_blurred calls scope written machine

/-- A loop without a condition, left by its label in the second turn. -/
def LabeledLoop.leaving : LabeledLoop :=
  let token (literal : String) : Token :=
    { kind := .identifier, literal, line := 1, column := 1, start := 0, stop := 1,
      newlineBefore := false }
  { labels := [token "outer"]
    token := token "for"
    start := some (.declare (token "var")
      [.mk (token "stop") (some (.boolean (token "false") false))])
    condition := none
    update := some
      (.assign (token "=") .plain (.name (token "stop")) (.boolean (token "true") true))
    body := .branch (token "if") (.name (token "stop"))
      (.leave (token "break") (some (token "outer"))) none }

theorem LabeledLoop.leaving_rewritable : leaving.Rewritable where
  starts := by
    rintro statement ⟨⟩
    trivial
  spares := by decide
  noAssertion := by
    rintro value ⟨⟩
    rfl

theorem LabeledLoop.for_statement_is_while_statement_of_leaving :
    leaving.Rewritable ∧
    ∃ code after written left machine,
      Statement.lowerAll (.fresh default true) [leaving.asFor] #[] = .ok (code, after) ∧
      Statement.lowerAll (.fresh default true) leaving.asWhile #[] = .ok (written, left) ∧
      Action.runAll ⟨Run.callUpTo 0, 2, .undefined⟩ 0 code (Machine.bare 0) =
        .ok (.normal .undefined) machine ∧
      Run.EndAlike (Action.runAll ⟨Run.callUpTo 0, 2, .undefined⟩ 0 code (Machine.bare 0))
        (Action.runAll ⟨Run.callUpTo 0, 2, .undefined⟩ 0 written (Machine.bare 0)) := by
  have forms := for_statement_is_while_statement leaving leaving_rewritable (.fresh default true)
    #[] #[]
  obtain ⟨code, after, isCode⟩ : ∃ code after,
      Statement.lowerAll (.fresh default true) [leaving.asFor] #[] = .ok (code, after) :=
    ⟨_, _, rfl⟩
  obtain ⟨⟨written, left⟩, isWritten⟩ := forms.1.mp ⟨_, isCode⟩
  have alike := forms.2 code after written left isCode isWritten 0 2 .undefined 0 (Machine.bare 0)
  obtain ⟨machine, ends⟩ : ∃ machine,
      Action.runAll ⟨Run.callUpTo 0, 2, .undefined⟩ 0 code (Machine.bare 0) =
        .ok (.normal .undefined) machine := by
    cases isCode
    exact ⟨_, rfl⟩
  exact ⟨leaving_rewritable, code, after, written, left, machine, isCode, isWritten, ends, alike⟩

end ScriptEngine
