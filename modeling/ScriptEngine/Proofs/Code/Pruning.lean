import ScriptEngine.Proofs.Code.Surroundings
import ScriptEngine.Proofs.Machine.AssertedTexts
import ScriptEngine.Proofs.Machine.Building

namespace ScriptEngine

/-!
# Code without its assertions

A plain expression is built from literals that make no object by the logical operators and the
two strict equalities.  It comes to a value on every machine and changes nothing on it.  Where
all that a program asserts is plain, lowering it without its assertions gives the code it is
lowered to with them, from which the checks of plain conditions are left out, in the program
and in all functions alike.
-/

/-! ## Plain expressions -/

/-- Whether a term is built from constants by the logical operators and the strict equalities. -/
def Term.isPlain : Term → Bool
  | .constant _ => true
  | .unary .not operand _ => operand.isPlain
  | .strict .strictEqual left right _ | .strict .strictNotEqual left right _
  | .both left right | .either left right => left.isPlain && right.isPlain
  | _ => false

/-- A plain term comes to a value, and the machine stays as it is. -/
theorem Term.exists_eval_of_isPlain
    {term : Term}
    (plain : term.isPlain = true)
    (frame : Frame)
    (scope : Nat)
    (machine : Machine) :
    ∃ value, term.eval frame scope machine = .ok value machine := by
  fun_induction Term.isPlain term with
  | case1 constant => exact ⟨_, by rw [eval]; rfl⟩
  | case2 operand position inductionHypothesis =>
      obtain ⟨value, evaluated⟩ := inductionHypothesis plain
      exact ⟨.boolean (!value.isTruthy), by rw [eval, Run.bind_of_ok evaluated]; rfl⟩
  | case3 left right position leftHypothesis rightHypothesis =>
      rw [Bool.and_eq_true] at plain
      obtain ⟨first, leftEvaluated⟩ := leftHypothesis plain.1
      obtain ⟨second, rightEvaluated⟩ := rightHypothesis plain.2
      exact ⟨_, by rw [eval, Run.bind_of_ok leftEvaluated, Run.bind_of_ok rightEvaluated]; rfl⟩
  | case4 left right position leftHypothesis rightHypothesis =>
      rw [Bool.and_eq_true] at plain
      obtain ⟨first, leftEvaluated⟩ := leftHypothesis plain.1
      obtain ⟨second, rightEvaluated⟩ := rightHypothesis plain.2
      exact ⟨_, by rw [eval, Run.bind_of_ok leftEvaluated, Run.bind_of_ok rightEvaluated]; rfl⟩
  | case5 left right leftHypothesis rightHypothesis =>
      rw [Bool.and_eq_true] at plain
      obtain ⟨first, leftEvaluated⟩ := leftHypothesis plain.1
      rw [eval, Run.bind_of_ok leftEvaluated]
      split
      · exact rightHypothesis plain.2
      · exact ⟨first, rfl⟩
  | case6 left right leftHypothesis rightHypothesis =>
      rw [Bool.and_eq_true] at plain
      obtain ⟨first, leftEvaluated⟩ := leftHypothesis plain.1
      rw [eval, Run.bind_of_ok leftEvaluated]
      split
      · exact ⟨first, rfl⟩
      · exact rightHypothesis plain.2
  | case7 => cases plain

/-- Whether an expression is a literal that makes no object.  A number may have a sign. -/
def Expression.isSimpleLiteral : Expression → Bool
  | .number _ _ | .string _ _ | .boolean _ _ => true
  | .name token => token.literal = "undefined"
  | .unary token _ (.number _ _) => token.literal = "-"
  | _ => false

/--
Whether an expression is built from literals that make no object by the logical operators and
the strict equalities.
-/
def Expression.isPlain : Expression → Bool
  | .unary token operator operand =>
      (Expression.unary token operator operand).isSimpleLiteral ||
        (UnaryOperator.ofText? token.literal = some .not && operand.isPlain)
  | .binary token _ left right =>
      (match InfixOperator.ofText? token.literal with
        | some .both | some .either => true
        | some (.strict operator) => operator = .strictEqual || operator = .strictNotEqual
        | none => false) && (left.isPlain && right.isPlain)
  | expression => expression.isSimpleLiteral

/-- What asserts something asserts one plain expression. -/
def Expression.AssertsPlainly (expression : Expression) : Prop :=
  ∀ callee arguments, expression.assertion? = some (callee, arguments) →
    ∃ asserted, arguments = [asserted] ∧ asserted.isPlain = true

section

variable {context : LoweringContext} {routines after : Array Routine} {term : Term}

/-- What is required was found, and no function is kept for it. -/
theorem LoweringContext.ok_of_require
    {token : Token}
    {fault : LoweringFault}
    {found : Option α}
    {value : α}
    (required : context.require token fault found routines = .ok (value, after)) :
    found = some value ∧ after = routines := by
  cases found with
  | none => cases required
  | some value =>
      cases required
      exact ⟨rfl, rfl⟩

/-- A literal that makes no object is lowered to a constant. -/
theorem Expression.isSimpleLiteral_lower
    {expression : Expression}
    (simple : expression.isSimpleLiteral = true)
    (lowered : expression.lower context routines = .ok (term, after)) :
    (∃ constant, term = .constant constant) ∧ after = routines := by
  unfold isSimpleLiteral at simple
  split at simple
  · rw [lower] at lowered
    cases lowered
    exact ⟨⟨_, rfl⟩, rfl⟩
  · rename_i token quote
    rw [lower] at lowered
    obtain ⟨⟨text, middle⟩, decoded, lowered⟩ := Lowering.exists_of_bind lowered
    cases lowered
    unfold LoweringContext.decode at decoded
    cases unescaped : unescape token.literal with
    | ok text =>
        rw [unescaped] at decoded
        cases decoded
        exact ⟨⟨_, rfl⟩, rfl⟩
    | error fault =>
        rw [unescaped] at decoded
        cases decoded
  · rw [lower] at lowered
    cases lowered
    exact ⟨⟨_, rfl⟩, rfl⟩
  · rw [lower, if_pos (of_decide_eq_true simple)] at lowered
    cases lowered
    exact ⟨⟨_, rfl⟩, rfl⟩
  · rw [lower, if_pos (of_decide_eq_true simple)] at lowered
    cases lowered
    exact ⟨⟨_, rfl⟩, rfl⟩
  · cases simple

/-- An operator that is no sign is lowered behind its operand. -/
theorem Expression.lower_unary_of_not_sign
    {token : Token}
    (notSign : token.literal ≠ "-")
    (operator : UnaryOperator)
    (operand : Expression) :
    (Expression.unary token operator operand).lower context = (do
      let term ← operand.lower context
      let operator ← context.require token (.unsupportedOperator token.literal)
        (UnaryOperator.ofText? token.literal)
      pure (.unary operator term (context.positionOf token))) := by
  by_cases isNumber : ∃ digits value, operand = .number digits value
  · obtain ⟨digits, value, rfl⟩ := isNumber
    rw [lower, lower, if_neg notSign, pure_bind]
  · rw [lower]
    exact fun digits value same => isNumber ⟨digits, value, same⟩

/-- A plain expression is lowered to a plain term, and no function is kept for it. -/
theorem Expression.isPlain_lower
    {expression : Expression}
    (plain : expression.isPlain = true)
    (lowered : expression.lower context routines = .ok (term, after)) :
    term.isPlain = true ∧ after = routines := by
  fun_induction Expression.isPlain expression generalizing term after with
  | case1 token operator operand inductionHypothesis =>
      rcases Bool.or_eq_true_iff.mp plain with simple | plain
      · obtain ⟨⟨constant, rfl⟩, same⟩ := isSimpleLiteral_lower simple lowered
        exact ⟨rfl, same⟩
      · obtain ⟨isNot, plainOperand⟩ := Bool.and_eq_true_iff.mp plain
        have isNot : UnaryOperator.ofText? token.literal = some .not := of_decide_eq_true isNot
        have notSign : token.literal ≠ "-" := by
          intro isSign
          rw [isSign] at isNot
          cases isNot
        rw [lower_unary_of_not_sign notSign operator operand] at lowered
        obtain ⟨⟨operandTerm, middle⟩, operandLowered, behind⟩ := Lowering.exists_of_bind lowered
        obtain ⟨⟨found, later⟩, required, built⟩ := Lowering.exists_of_bind behind
        obtain ⟨isOperator, rfl⟩ := LoweringContext.ok_of_require required
        obtain ⟨isOperand, rfl⟩ := inductionHypothesis plainOperand operandLowered
        cases isNot.symm.trans isOperator
        cases built
        exact ⟨isOperand, rfl⟩
  | case2 token operator left right leftHypothesis rightHypothesis =>
      rw [lower] at lowered
      obtain ⟨⟨leftTerm, middle⟩, leftLowered, behindLeft⟩ := Lowering.exists_of_bind lowered
      obtain ⟨⟨rightTerm, later⟩, rightLowered, behind⟩ := Lowering.exists_of_bind behindLeft
      obtain ⟨⟨found, last⟩, required, built⟩ := Lowering.exists_of_bind behind
      obtain ⟨isOperator, rfl⟩ := LoweringContext.ok_of_require required
      rw [isOperator] at plain
      obtain ⟨plainOperator, plainOperands⟩ := Bool.and_eq_true_iff.mp plain
      obtain ⟨plainLeft, plainRight⟩ := Bool.and_eq_true_iff.mp plainOperands
      obtain ⟨isLeft, rfl⟩ := leftHypothesis plainLeft leftLowered
      obtain ⟨isRight, rfl⟩ := rightHypothesis plainRight rightLowered
      cases built
      refine ⟨?_, rfl⟩
      have operands : (leftTerm.isPlain && rightTerm.isPlain) = true :=
        Bool.and_eq_true_iff.mpr ⟨isLeft, isRight⟩
      cases found with
      | strict operator =>
          rcases Bool.or_eq_true_iff.mp plainOperator with isStrict | isStrict
          · cases of_decide_eq_true isStrict
            exact operands
          · cases of_decide_eq_true isStrict
            exact operands
      | both => exact operands
      | either => exact operands
  | case3 expression notUnary notBinary =>
      obtain ⟨⟨constant, rfl⟩, same⟩ := isSimpleLiteral_lower plain lowered
      exact ⟨rfl, same⟩

end

/-! ## Lowering without assertions -/

/-- Checks of plain conditions are left out, and all else is kept. -/
def Rewriting.pruning : Rewriting where
  position := id
  number := id
  leavesOut := Term.isPlain

/-- Code is compared without the checks that are left out, if assertions are not checked in the
second program.  Where the first one is refused nothing is said. -/
def Lowering.Comparison.pruning : Comparison where
  first := .pruning
  second := .keeping
  beside routines others := others = routines.map (Routine.rewritten .pruning)
  around source _ other checks := source = other ∧ checks = false
  refuses _ _ := True
  ignores := True
  standing := Expression.AssertsPlainly
  places := by
    rintro _ _ _ _ ⟨rfl, -⟩ token
    rfl
  errors _ _ _ := trivial
  numbers := by
    rintro routines _ rfl
    rw [Array.size_map]
    rfl
  keeps := by
    rintro routines _ routine other rfl same
    rw [Array.map_push, same, Routine.rewritten_keeping]

section

variable {assertion : Expression} {callee : Token} {arguments : List Expression}
  (plainly : assertion.AssertsPlainly)
  (isAssertion : assertion.assertion? = some (callee, arguments))
  (context : LoweringContext) (token : Token) (labels : List String)

include plainly isAssertion

/-- What is asserted plainly is lowered to a check that is left out, and no function is kept. -/
theorem Expression.AssertsPlainly.lower_isLeftOut
    (isOn : context.assertions = true)
    {routines after : Array Routine}
    {action : Option Action}
    (lowered : (Statement.expression token assertion).lower context labels routines =
      .ok (action, after)) :
    ∃ check : Action, action = underLabels labels (some check) ∧
      check.isLeftOut .pruning = true ∧ after = routines := by
  obtain ⟨asserted, rfl, plain⟩ := plainly callee arguments isAssertion
  rw [Expression.lower_statement_of_assertion? isAssertion context isOn] at lowered
  cases ran : asserted.lower (context.under labels false) routines with
  | error error =>
      rw [ran] at lowered
      cases lowered
  | ok result =>
      rw [ran] at lowered
      obtain ⟨term, later⟩ := result
      obtain ⟨plainTerm, rfl⟩ := asserted.isPlain_lower plain ran
      cases lowered
      exact ⟨_, rfl, plainTerm, rfl⟩

/-- What is asserted plainly is checked only if assertions are on, and the check is left out. -/
theorem Expression.AssertsPlainly.lower_prunes :
    Lowering.Comparison.pruning.Agree Action.rewrittenOption
      ((Statement.expression token assertion).lower context labels)
      ((Statement.expression token assertion).lower (context.within context.source false)
        labels) := by
  have silent (routines : Array Routine) :
      (Statement.expression token assertion).lower (context.within context.source false) labels
        routines = .ok (underLabels labels none, routines) := by
    rw [Statement.lower, isAssertion]
    rfl
  rintro routines _ rfl
  rw [silent]
  cases lowered : (Statement.expression token assertion).lower context labels routines with
  | error error => exact .ignored trivial
  | ok result =>
      obtain ⟨action, after⟩ := result
      cases isOn : context.assertions with
      | true =>
          obtain ⟨check, rfl, leftOut, rfl⟩ :=
            plainly.lower_isLeftOut isAssertion context token labels isOn lowered
          refine .accepted ?_ rfl
          rw [Action.rewrittenOption_underLabels, Action.rewrittenOption_underLabels]
          exact congrArg (underLabels labels) (if_pos leftOut)
      | false =>
          have isSilent : context.within context.source false = context := by
            rw [LoweringContext.within, ← isOn]
          rw [← isSilent, silent] at lowered
          cases lowered
          refine .accepted ?_ rfl
          rw [Action.rewrittenOption_underLabels, Action.rewrittenOption_underLabels]
          rfl

end

/-- Any syntax is lowered to the same code without its assertions, but for their checks. -/
theorem Lowering.pruning_cases : Comparison.pruning.claims.Cases := by
  refine Comparison.cases ?_
  rintro context _ _ value callee arguments token labels ⟨rfl, rfl⟩ plainly isAssertion -
  exact plainly.lower_prunes isAssertion context token labels

/-- The code without the checks of plain conditions. -/
def Code.pruned (code : Code) : Code :=
  ⟨code.routines.map (Routine.rewritten .pruning), Action.rewrittenAll .pruning code.main⟩

/-- The code of a program is what its statements are lowered to, beside the functions kept. -/
theorem Code.exists_of_ofProgram
    {assertions : Bool}
    {program : Program}
    {code : Code}
    (compiled : ofProgram assertions program = .ok code) :
    ∃ routines, Statement.lowerAll (.fresh program.source assertions) program.statements #[] =
        .ok (code.main, routines) ∧
      code.routines = routines.toList := by
  unfold ofProgram ofStatements at compiled
  change Except.bind (Statement.lowerAll _ program.statements #[]) _ = _ at compiled
  cases ran : Statement.lowerAll (.fresh program.source assertions) program.statements #[] with
  | error error =>
      rw [ran] at compiled
      cases compiled
  | ok result =>
      rw [ran] at compiled
      cases compiled
      exact ⟨result.2, rfl, rfl⟩

/-- Lowering a program without its assertions takes their checks away, and nothing else. -/
theorem Code.ofProgram_pruned
    {program : Program}
    (plain : Statement.AllStanding Expression.AssertsPlainly program.statements)
    {code : Code}
    (compiled : ofProgram true program = .ok code) :
    ofProgram false program = .ok code.pruned := by
  obtain ⟨routines, lowered, isKept⟩ := exists_of_ofProgram compiled
  have alike := Lowering.pruning_cases.ofStatements program.statements
    (.fresh program.source true) program.source false ⟨rfl, rfl⟩ plain #[] #[]
    Array.map_empty.symm
  dsimp only at alike
  rw [lowered] at alike
  unfold ofProgram ofStatements pruned
  change Except.bind (Statement.lowerAll ((LoweringContext.fresh program.source true).within
    program.source false) program.statements #[]) _ = _
  revert alike
  generalize Statement.lowerAll ((LoweringContext.fresh program.source true).within
    program.source false) program.statements #[] = silent
  intro alike
  cases alike with
  | accepted same beside =>
      rw [isKept, ← Array.toList_map, beside.symm]
      exact congrArg (fun main => Except.ok (Code.mk _ main))
        ((Action.rewrittenAll_keeping _).symm.trans same.symm)

end ScriptEngine
