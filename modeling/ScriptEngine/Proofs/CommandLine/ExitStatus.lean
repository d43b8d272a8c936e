import ScriptEngine.CommandLine.Report
import ScriptEngine.Proofs.Machine.Errors

namespace ScriptEngine

/-!
# How a failed script is reported

The program exits with one status for scripts that do not compile and with another
one for scripts that failed.  Which of them it is goes by the kind of the error.
All errors of running code are of kinds that arise while code runs, but for one:
the error of a regular expression that is made from a text while code runs and
refused is of the same kind as the error of a text that is no program.
-/

/-- An error about a text that is no regular expression. -/
def ScriptError.RefusesPattern (error : ScriptError) : Prop :=
  ∃ source flags fault,
    Pattern.compile source flags = .error fault ∧ error.fault = .grammar (.badPattern fault)

/-- Of the causes that arise while code runs, only a refused pattern is taken for another kind. -/
theorem ScriptError.isRuntime_iff_of_arises {error : ScriptError} (arises : error.fault.Arises) :
    error.isRuntime = true ↔ ¬error.RefusesPattern := by
  obtain ⟨fault, position⟩ := error
  cases arises with
  | badPattern refused =>
      constructor
      · intro runtime
        cases runtime
      · intro notRefused
        exact (notRefused ⟨_, _, _, refused, rfl⟩).elim
  | unbound | type | range | internal | assertion =>
      constructor
      · rintro - ⟨_, _, _, -, ⟨⟩⟩
      · intro
        rfl

/-- No cause of refusing a program arises while code runs. -/
theorem Fault.Arises.kind_ne_lowering {fault : Fault} (arises : fault.Arises) :
    fault.kind ≠ .lowering := by
  cases arises <;> nofun

/-- The kind of a text that is no program is the kind of what is no runtime error. -/
theorem ScriptError.kind_eq_grammar_iff
    {error : ScriptError}
    (notLowering : error.kind ≠ .lowering) :
    error.kind = .grammar ↔ ¬error.isRuntime = true := by
  unfold isRuntime
  cases same : error.kind with
  | lowering => exact (notLowering same).elim
  | grammar | reference | type | range | internal | assertion => simp [ErrorKind.isRuntime]

namespace Code

/-- Running any code from any machine ends in an error of a cause that arises while code runs. -/
theorem run_error_arises
    {code : Code}
    {machine after : Machine}
    {abort : Abort}
    (failed : code.run machine = .error abort after) :
    abort.error.fault.Arises := by
  have ended := (code.runIn_built_of_any machine.global).endsSoundly machine.heap.allSound_of_any
  change code.runIn machine.global machine = .error abort after at failed
  rw [failed] at ended
  cases abort with
  | raised error => exact ended.1.1
  | broken fault => exact .internal fault

end Code

namespace Session

/-- A source that compiles fails with the one error its code ended in. -/
theorem run_eq_error
    {session : Session}
    {options : DumpOptions}
    {source : Source}
    {code : Code}
    {errors : List ScriptError}
    (parsed : (Program.parse source).errors = [])
    (compiled : Code.ofProgram session.assertions (Program.parse source).program = .ok code)
    (failed : (session.run options source).1 = .error errors) :
    ∃ abort after, code.run { session.machine with output := "" } = .error abort after ∧
      errors = [abort.error] := by
  unfold run runCode at failed
  simp only [parsed, compiled, List.isEmpty_nil, Bool.not_true, Bool.false_eq_true,
    ↓reduceIte] at failed
  cases ran : code.run { session.machine with output := "" } with
  | ok value after =>
      rw [ran] at failed
      cases failed
  | error abort after =>
      rw [ran] at failed
      cases failed
      exact ⟨abort, after, rfl, rfl⟩

/--
A source that compiles and then fails is reported as a failed script, with status
70, unless the error is a refused pattern; then it is reported with status 65, as
if it had not compiled.
-/
theorem run_status_of_compiled
    {session : Session}
    {options : DumpOptions}
    {source : Source}
    {code : Code}
    {errors : List ScriptError}
    (parsed : (Program.parse source).errors = [])
    (compiled : Code.ofProgram session.assertions (Program.parse source).program = .ok code)
    (failed : (session.run options source).1 = .error errors) :
    ∃ error, errors = [error] ∧
      (error.isRuntime = true ↔ ¬error.RefusesPattern) ∧
      (error.kind = .grammar ↔ error.RefusesPattern) ∧
      error.kind ≠ .lowering ∧
      (¬error.RefusesPattern → (ExitStatus.ofErrors errors).code = 70) ∧
      (error.RefusesPattern → (ExitStatus.ofErrors errors).code = 65) := by
  obtain ⟨abort, after, ran, rfl⟩ := run_eq_error parsed compiled failed
  have arises := Code.run_error_arises ran
  have runtime := ScriptError.isRuntime_iff_of_arises arises
  have grammar := ScriptError.kind_eq_grammar_iff arises.kind_ne_lowering
  have status :
      ExitStatus.ofErrors [abort.error] = if abort.error.isRuntime then .failed else .refused := by
    simp [ExitStatus.ofErrors]
  refine ⟨abort.error, rfl, runtime, ?_, arises.kind_ne_lowering, ?_, ?_⟩
  · rw [grammar, runtime, Classical.not_not]
  · intro notRefused
    rw [status, if_pos (runtime.mpr notRefused)]
    rfl
  · intro refused
    rw [status, if_neg fun isRuntime => runtime.mp isRuntime refused]
    rfl

/-- In a new session, making a regular expression from an open parenthesis. -/
theorem run_status_of_open_parenthesis :
    let source := Source.ofEval "new RegExp('(')"
    ∃ session code errors, start {} = .ok session ∧
      (Program.parse source).errors = [] ∧
      Code.ofProgram session.assertions (Program.parse source).program = .ok code ∧
      (session.run {} source).1 = .error errors ∧
      (∃ error, errors = [error] ∧ error.RefusesPattern ∧ error.isRuntime = false) ∧
      (ExitStatus.ofErrors errors).code = 65 := by
  intro source
  have facts :
      ∃ session, start {} = .ok session ∧ (Program.parse source).errors = [] ∧
        (Code.ofProgram session.assertions (Program.parse source).program).isOk = true ∧
        (match (session.run {} source).1 with
          | .ok _ => false
          | .error errors => errors.all fun error => error.kind = .grammar) = true :=
    ⟨⟨Machine.realm 10000, true⟩, rfl, by decide +kernel, by decide +kernel, by decide +kernel⟩
  clear_value source
  obtain ⟨session, started, parsed, compiles, fails⟩ := facts
  cases compiled : Code.ofProgram session.assertions (Program.parse source).program with
  | error error =>
      rw [compiled] at compiles
      cases compiles
  | ok code =>
      cases failed : (session.run {} source).1 with
      | ok value =>
          rw [failed] at fails
          cases fails
      | error errors =>
          obtain ⟨error, rfl, runtime, grammar, -, -, status⟩ :=
            run_status_of_compiled parsed compiled failed
          have isGrammar : error.kind = .grammar := by
            simpa [failed] using fails
          have refused := grammar.mp isGrammar
          have notRuntime : error.isRuntime = false := by
            rw [Bool.eq_false_iff]
            exact fun isRuntime => runtime.mp isRuntime refused
          exact ⟨session, code, [error], started, parsed, compiled, failed,
            ⟨error, rfl, refused, notRuntime⟩, status refused⟩

end Session

end ScriptEngine
