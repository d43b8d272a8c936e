import ScriptEngine.Code.Lowering
import ScriptEngine.Machine.Evaluation
import ScriptEngine.Proofs.Program.ReadingBack

namespace ScriptEngine

/-!
# The texts of failing assertions

An assertion fails with the text of the expression that it asserts.  The text is read back
as the expression if this is legible.  It need not be: an assignment is shown without
parentheses, so as an operand it takes in what stands behind it.
-/

open Token ScriptEngine.Parser

namespace Expression

/--
The text of an expression in parentheses, as a text or as a byte string, is read without
errors as one expression, which is the same apart from where its tokens stand.
-/
structure IsReadBack (expression : Expression) : Prop where
  inText : ∀ source : Source, source.content = "(" ++ expression.text ++ ")" →
    (Program.parse source).errors = [] ∧
      ∃ token value, (Program.parse source).program.statements = [.expression token value] ∧
        value.outline = expression.outline
  inBytes : ∀ (source : Source) (bytes : List UInt8),
    bytes.map letter = ("(" ++ expression.text ++ ")").toList →
    (Program.ofTokens source (scanBytes bytes)).failures = [] ∧
      ∃ token value,
        (Program.ofTokens source (scanBytes bytes)).program.statements = [.expression token value] ∧
          value.outline = expression.outline

/--
A statement that asserts an expression is lowered to a check of it, and where the value is
not true the check fails with the text of the expression.
-/
def Asserts (assertion asserted : Expression) : Prop :=
  ∀ token context labels routines action after, context.assertions = true →
    (Statement.expression token assertion).lower context labels routines = .ok (action, after) →
    ∃ term position, asserted.lower (context.under labels false) routines = .ok (term, after) ∧
      action = underLabels labels (some (.check term asserted.text position)) ∧
      ∀ frame scope machine value later, term.eval frame scope machine = .ok value later →
        value.isTruthy = false →
        (Action.check term asserted.text position).run frame scope machine =
          .error (.raised ⟨.assertion asserted.text, some position⟩) later

/--
Where an expression asserts another one, it fails with the text of this one, and if this one
is legible, it is read back from the text.
-/
def TellsAsserted (assertion : Expression) : Prop :=
  ∀ callee asserted, assertion.assertion? = some (callee, [asserted]) →
    assertion.Asserts asserted ∧ (asserted.isLegible = true → asserted.IsReadBack)

theorem IsShown.isReadBack {expression : Expression} (shown : expression.IsShown) :
    expression.IsReadBack := by
  refine ⟨fun source isText => ?_, fun source bytes isText => ?_⟩
  · obtain ⟨noFailure, reads⟩ := Program.ofTokens_parenthesized shown source Char.utf8Size
    unfold Program.parse
    rw [isText, scan]
    exact ⟨List.map_eq_nil_iff.mpr noFailure, reads⟩
  · rw [scanBytes, isText]
    exact Program.ofTokens_parenthesized shown source byteWidth

section

variable {assertion asserted : Expression} {callee : Token}
  (isAssertion : assertion.assertion? = some (callee, [asserted])) (context : LoweringContext)

include isAssertion

/-- A call that asserts something is lowered to a call with what this is lowered to. -/
theorem lower_of_assertion? :
    ∃ called shown position, ∀ routines, assertion.lower context routines =
      (asserted.lower context routines).map fun lowered =>
        (.call called [lowered.1] shown position, lowered.2) := by
  unfold assertion? at isAssertion
  split at isAssertion
  · split at isAssertion
    · cases isAssertion
      refine ⟨if callee.literal = "undefined" then .constant .undefined
        else .read (.variable callee.literal) (context.positionOf callee), callee.literal,
        context.positionOf callee, fun routines => ?_⟩
      simp only [lower, lowerAll, bind, StateT.bind]
      cases asserted.lower context routines <;> rfl
    · cases isAssertion
  · cases isAssertion

/-- A statement that asserts something is lowered to a check of what this is lowered to. -/
theorem lower_statement_of_assertion?
    (isOn : context.assertions = true)
    (token : Token)
    (labels : List String)
    (routines : Array Routine) :
    (Statement.expression token assertion).lower context labels routines =
      (asserted.lower (context.under labels false) routines).map fun lowered =>
        (underLabels labels (some (.check lowered.1 asserted.text
          ((context.under labels false).positionOf callee))), lowered.2) := by
  obtain ⟨called, shown, position, isCall⟩ :=
    lower_of_assertion? isAssertion (context.under labels false)
  have isOn : (context.under labels false).assertions = true := isOn
  have isText : String.join (texts [asserted]) = asserted.text := by simp [texts]
  rw [Statement.lower, isAssertion]
  simp only [isOn, isText, Bool.not_true, Bool.false_eq_true, if_false, List.length_singleton,
    if_true]
  change Except.bind (assertion.lower (context.under labels false) routines) _ = _
  rw [isCall]
  cases asserted.lower (context.under labels false) routines <;> rfl

theorem asserts_of_assertion? : assertion.Asserts asserted := by
  intro token context labels routines action after isOn isLowered
  rw [lower_statement_of_assertion? isAssertion context isOn] at isLowered
  cases isRun : asserted.lower (context.under labels false) routines with
  | error error =>
      rw [isRun] at isLowered
      cases isLowered
  | ok lowered =>
      rw [isRun] at isLowered
      cases isLowered
      refine ⟨lowered.1, _, rfl, rfl, fun frame scope machine value later isValue isFalse => ?_⟩
      rw [Action.run]
      simp [bind, EStateM.bind, isValue, isFalse]
      rfl

/-- What is asserted by a call that was read, was read, too. -/
theorem isFaithful_of_assertion? (faithful : assertion.IsFaithful) : asserted.IsFaithful := by
  unfold assertion? at isAssertion
  split at isAssertion
  · split at isAssertion
    · cases isAssertion
      exact faithful.2.2.1
    · cases isAssertion
  · cases isAssertion

end

theorem tellsAsserted_of_isFaithful (assertion : Expression) (faithful : assertion.IsFaithful) :
    assertion.TellsAsserted := fun _ asserted isAssertion =>
  ⟨asserts_of_assertion? isAssertion, fun legible =>
    (asserted.isShown (isFaithful_of_assertion? isAssertion faithful) legible).isReadBack⟩

end Expression

namespace Program

/--
In every program, given as a text or as a byte string, each statement `assert(e)` fails
with the text of `e`, and the text in parentheses is read back as `e` if `e` is legible.
-/
theorem asserted_text_read_back_if_legible
    (source : Source)
    (bytes : List UInt8) :
    Statement.AllEverywhere Expression.TellsAsserted (parse source).program.statements ∧
      Statement.AllEverywhere Expression.TellsAsserted
        (ofTokens source (scanBytes bytes)).program.statements :=
  ⟨Statement.faithful_allEverywhere Expression.tellsAsserted_of_isFaithful
      (areFaithful_of_scanChars source Char.utf8Size _),
    Statement.faithful_allEverywhere Expression.tellsAsserted_of_isFaithful
      (areFaithful_of_scanChars source byteWidth _)⟩

theorem asserted_text_read_back_if_legible_of_call :
    ∃ token paren callee asserted,
      (parse (Source.ofRepl "assert(!o.f(typeof o, [o]))")).program.statements =
          [.expression token (.call paren (.name callee) [asserted])] ∧
        callee.literal = "assert" ∧ asserted.text = "(!o.f((typeof o), [o]))" ∧
        asserted.isLegible = true ∧
        (Expression.call paren (.name callee) [asserted]).Asserts asserted ∧
        asserted.IsReadBack := by
  obtain ⟨token, paren, callee, asserted, isProgram, isAssert, isText, legible⟩ :
      ∃ token paren callee asserted,
        (parse (Source.ofRepl "assert(!o.f(typeof o, [o]))")).program.statements =
            [.expression token (.call paren (.name callee) [asserted])] ∧
          callee.literal = "assert" ∧ asserted.text = "(!o.f((typeof o), [o]))" ∧
          asserted.isLegible = true :=
    ⟨_, _, _, _, rfl, rfl, rfl, rfl⟩
  have tells :=
    (asserted_text_read_back_if_legible (Source.ofRepl "assert(!o.f(typeof o, [o]))") []).1
  rw [isProgram] at tells
  obtain ⟨asserts, readBack⟩ := tells.1.1 callee asserted
    (by rw [Expression.assertion?, if_pos isAssert])
  exact ⟨token, paren, callee, asserted, isProgram, isAssert, isText, legible, asserts,
    readBack legible⟩

-- In `(a = 0) + 0` the assignment loses its parentheses.
example :
    let sum (zero : Float) : Expression :=
      .binary (.plain .plus "+") (.strict .add)
        (.assign (.plain .assign "=") .plain (.name (.plain .identifier "a"))
          (.number (.plain .number "0") zero))
        (.number (.plain .number "0") zero)
    ∀ zero, (sum zero).text = "(a = 0 + 0)" ∧ (sum zero).isLegible = false :=
  fun _ => ⟨rfl, rfl⟩

end Program

end ScriptEngine
