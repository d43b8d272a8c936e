import ScriptEngine.Proofs.Machine.Blurring
import ScriptEngine.Proofs.Machine.CallDepth

namespace ScriptEngine

/-!
# Programs one after the other

Two programs on one machine, one after the other, do what the program of both does.  It
is accepted if both are, and once the first one has come to its end without a return, it
goes on as the second one does from the machine the first one has left.

For that no statement leaves a trace but on the machine.  A compiler that has lowered a
program lowers the next one like a new compiler; the numbers of the functions and the
sources of the places, which tell the programs apart, are blurred.  And what the
statements of a program hand on to one another besides the machine is the value of the
last expression statement.
-/

variable {scope : Nat} {machine after : Machine} {code : Code} {view : Source → Source}

namespace Code

/-! ## How programs end -/

/-- How the statements of a program end: by a return, or with the value of the last
expression statement among them that was executed. -/
inductive Ending where
  | returned (value : Value)
  | finished (last : Option Value)

namespace Ending

/-- The result of a program that ends so. -/
def value : Ending → Value
  | returned value => value
  | finished last => last.getD .undefined

/-- Whether the result is given by a return or by an expression statement. -/
def isValued : Ending → Bool
  | returned _ => true
  | finished last => last.isSome

/-- The ending of statements that go on from an earlier value. -/
def behind (earlier : Option Value) : Ending → Ending
  | returned value => returned value
  | finished last => finished (last.or earlier)

/-- An ending with a value of its own gives it behind any other value. -/
theorem value_behind {ending : Ending} (valued : ending.isValued = true) (earlier : Option Value) :
    (ending.behind earlier).value = ending.value := by
  cases ending with
  | returned value => rfl
  | finished last =>
      obtain ⟨value, rfl⟩ := Option.isSome_iff_exists.mp valued
      rfl

end Ending

/-- Run the statements of a program from a value on; tells how they end. -/
def endMain (frame : Frame) (scope : Nat) : Option Value → List Action → Run Ending
  | last, [] => pure (.finished last)
  | last, action :: rest => do
      match ← action.run frame scope with
      | .normal value => endMain frame scope (if action.yieldsResult then some value else last) rest
      | .returned value => pure (.returned value)
      | _ => endMain frame scope last rest

/-- What the statements of a program share. -/
def frame : Frame := ⟨Run.callUpTo Run.unlimited, Run.unlimited, .undefined⟩

/-- Run code in a scope; tells how it ends. -/
def ending (code : Code) (scope : Nat) : Run Ending := endMain frame scope none code.main

theorem runMain_eq
    (frame : Frame)
    (scope : Nat)
    (last : Option Value)
    (main : List Action) :
    runMain frame scope (last.getD .undefined) main =
      Ending.value <$> endMain frame scope last main := by
  induction main generalizing last with
  | nil =>
      rw [runMain, endMain, map_pure]
      rfl
  | cons action rest inductionHypothesis =>
      rw [runMain, endMain, map_bind]
      congr 1
      funext completion
      cases completion with
      | normal value =>
          dsimp only
          rw [← inductionHypothesis]
          split
          · rfl
          · rfl
      | returned value => rw [map_pure]; rfl
      | left label => exact inductionHypothesis last
      | again label => exact inductionHypothesis last

/-- The result of a program is the value it ends with. -/
theorem runIn_eq (code : Code) (scope : Nat) :
    code.runIn scope = Ending.value <$> code.ending scope :=
  runMain_eq _ scope none code.main

theorem runIn_of_ok
    {ending : Ending}
    (ends : code.ending scope machine = .ok ending after) :
    code.runIn scope machine = .ok ending.value after := by
  rw [runIn_eq]
  exact Run.bind_of_ok ends

theorem runIn_of_error
    {abort : Abort}
    (fails : code.ending scope machine = .error abort after) :
    code.runIn scope machine = .error abort after := by
  rw [runIn_eq]
  exact Run.bind_of_error fails

/-- Statements go on where those before them have ended. -/
theorem endMain_append
    (frame : Frame)
    (scope : Nat)
    (last : Option Value)
    (first second : List Action) :
    endMain frame scope last (first ++ second) = (do
      match ← endMain frame scope last first with
      | .returned value => pure (.returned value)
      | .finished last => endMain frame scope last second) := by
  induction first generalizing last with
  | nil =>
      rw [endMain, pure_bind]
      rfl
  | cons action rest inductionHypothesis =>
      rw [List.cons_append, endMain, endMain, bind_assoc]
      congr 1
      funext completion
      cases completion with
      | normal value => exact inductionHypothesis _
      | returned value => rw [pure_bind]
      | left label => exact inductionHypothesis last
      | again label => exact inductionHypothesis last

/-- An earlier value is what is left where no statement gives one. -/
theorem endMain_behind
    (frame : Frame)
    (scope : Nat)
    (earlier last : Option Value)
    (main : List Action) :
    endMain frame scope (last.or earlier) main =
      Ending.behind earlier <$> endMain frame scope last main := by
  induction main generalizing last with
  | nil =>
      rw [endMain, endMain, map_pure]
      rfl
  | cons action rest inductionHypothesis =>
      rw [endMain, endMain, map_bind]
      congr 1
      funext completion
      cases completion with
      | normal value =>
          dsimp only
          rw [← inductionHypothesis]
          split
          · rfl
          · rfl
      | returned value => rw [map_pure]; rfl
      | left label => exact inductionHypothesis last
      | again label => exact inductionHypothesis last

/-- Blurred statements end as the statements do. -/
theorem endMain_blurred
    {frame : Frame}
    (calls : ∀ callee this arguments, Run.Blind view (frame.call callee this arguments))
    (scope : Nat)
    (last : Option Value)
    (main : List Action) :
    Run.Mirrors view (endMain frame scope last main)
      (endMain frame scope last (Action.rewrittenAll (.blurring view) main)) := by
  induction main generalizing last with
  | nil => exact .pure _
  | cons action rest inductionHypothesis =>
      rw [Action.rewrittenAll_blurring, endMain, endMain, Action.yieldsResult_rewritten]
      refine .bind (Action.run_blurred calls scope action) fun completion => ?_
      cases completion with
      | normal value => exact inductionHypothesis _
      | returned value => exact .pure _
      | left label => exact inductionHypothesis last
      | again label => exact inductionHypothesis last

variable {whole first second : Code} {middle : Machine} {last : Option Value}

/-- Code that is blurred to the code of two programs goes on from the end of the first one as
the second one does. -/
theorem ending_of_parts
    (isWhole : Action.rewrittenAll (.blurring view) whole.main =
      Action.rewrittenAll (.blurring view) (first.main ++ second.main))
    (ends : first.ending scope machine = .ok (.finished last) middle) :
    Run.blurred view (whole.ending scope machine) =
      Run.blurred view ((Ending.behind last <$> second.ending scope) middle) := by
  have calls : ∀ callee this arguments, Run.Blind view (frame.call callee this arguments) :=
    Run.Blind.callUpTo Run.unlimited
  have wholeMirrored := endMain_blurred calls scope none whole.main machine
  have partsMirrored := endMain_blurred calls scope none (first.main ++ second.main) machine
  rw [isWhole] at wholeMirrored
  have goesOn : endMain frame scope none (first.main ++ second.main) machine =
      (Ending.behind last <$> second.ending scope) middle := by
    unfold ending at ends
    rw [endMain_append, Run.bind_of_ok ends]
    exact congrFun (endMain_behind frame scope last none second.main) middle
  rw [← goesOn]
  exact wholeMirrored.symm.trans partsMirrored

/-! ## How programs are lowered -/

/-- The statements a program is lowered to, or the error it is refused by, blurred. -/
def blurred (view : Source → Source) (lowered : Except ScriptError Code) :
    Except ScriptError (List Action) :=
  match lowered with
  | .ok code => .ok (Action.rewrittenAll (.blurring view) code.main)
  | .error error => .error (error.blurred view)

end Code

/-- Statements are lowered beside the routines of those before them. -/
theorem Statement.lowerAll_append (context : LoweringContext) (first second : List Statement) :
    Statement.lowerAll context (first ++ second) = (do
      let front ← Statement.lowerAll context first
      let back ← Statement.lowerAll context second
      pure (front ++ back)) := by
  induction first with
  | nil =>
      rw [Statement.lowerAll]
      simp
  | cons statement rest inductionHypothesis =>
      rw [List.cons_append, Statement.lowerAll, Statement.lowerAll, inductionHypothesis]
      simp only [bind_assoc, pure_bind, List.append_assoc]

theorem Code.blurred_ofStatements
    (view : Source → Source)
    (context : LoweringContext)
    (routines : Array Routine)
    (statements : List Statement) :
    Code.blurred view (Code.ofStatements context routines statements) =
      Lowering.outcome view (Action.rewrittenAll (.blurring view)) (Statement.lowerAll context statements)
        routines := by
  unfold Code.ofStatements Lowering.outcome
  change Code.blurred view (Except.bind (Statement.lowerAll context statements routines) _) = _
  cases Statement.lowerAll context statements routines with
  | error error => rfl
  | ok result => rfl

/-- Two programs one after the other are lowered, up to blurring, to the code of the first one
and the code of the second one, or refused by the error of the first one that is refused. -/
theorem Compiler.lower_append
    (compiler : Compiler)
    {whole first second : Program}
    (isWhole : whole.statements = first.statements ++ second.statements)
    (firstLooks : view whole.source = view first.source)
    (secondLooks : view whole.source = view second.source) :
    Code.blurred view (compiler.lower whole).1 = (do
      let front ← Code.blurred view (compiler.lower first).1
      let back ← Code.blurred view ((compiler.lower first).2.lower second).1
      pure (front ++ back)) := by
  let context := LoweringContext.fresh whole.source compiler.context.assertions
  have firstAgrees := (Lowering.lowerAll_agrees context firstLooks first.statements).outcome_eq
  have secondAgrees := (Lowering.lowerAll_agrees context secondLooks second.statements).outcome_eq
  change Code.blurred view (Code.ofStatements context #[] whole.statements) = (do
    let front ← Code.blurred view
      (Code.ofStatements (context.within first.source context.assertions) #[] first.statements)
    let back ← Code.blurred view
      (Code.ofStatements (context.within second.source context.assertions) #[] second.statements)
    pure (front ++ back))
  rw [isWhole, Code.blurred_ofStatements, Code.blurred_ofStatements, Code.blurred_ofStatements,
    Statement.lowerAll_append, ← firstAgrees #[] #[]]
  cases firstRun : Statement.lowerAll context first.statements #[] with
  | error error =>
      rw [Lowering.outcome_of_error firstRun]
      unfold Lowering.outcome
      rw [firstRun]
      rfl
  | ok result =>
      rw [Lowering.outcome_of_ok firstRun, ← secondAgrees result.2 #[]]
      cases secondRun : Statement.lowerAll context second.statements result.2 with
      | error error =>
          rw [Lowering.outcome_of_error secondRun]
          unfold Lowering.outcome
          rw [firstRun, secondRun]
          rfl
      | ok later =>
          rw [Lowering.outcome_of_ok secondRun]
          unfold Lowering.outcome
          rw [firstRun, secondRun]
          exact congrArg Except.ok (Action.rewrittenAll_append _ result.1 later.1)

theorem Code.isOk_blurred (view : Source → Source) (lowered : Except ScriptError Code) :
    (Code.blurred view lowered).isOk = lowered.isOk := by
  cases lowered <;> rfl

/-! ## The global scope -/

namespace Code

/-- A program that comes to an end leaves the global scope in its place. -/
theorem global_of_ending
    {ending : Ending}
    (ends : code.ending scope machine = .ok ending after) :
    after.global = machine.global := by
  have kept := (code.runIn_built_of_any scope).keepsFixed Heap.allSound_of_any machine
  rw [runIn_of_ok ends] at kept
  exact congrArg (·.2.2) kept

/-- A program returns, or executes an expression statement, as it runs to its end. -/
def GivesValue (code : Code) (scope : Nat) (machine : Machine) : Prop :=
  ∃ ending after, code.ending scope machine = .ok ending after ∧ ending.isValued = true

/--
What a run comes to is what another one comes to: the machines are the same up to
blurring, and so are the errors, of the same kind and with the same message.  Values
are the same where that is asked for.
-/
structure SameOutcome
    (view : Source → Source)
    (givesValue : Prop)
    (run other : EStateM.Result Abort Machine Value) : Prop where
  failed : ∀ abort after, other = .error abort after →
    ∃ failure left, run = .error failure left ∧
      failure.error.kind = abort.error.kind ∧ failure.error.message = abort.error.message ∧
      failure.blurred view = abort.blurred view ∧ left.blurred view = after.blurred view
  ended : ∀ value after, other = .ok value after →
    ∃ result left, run = .ok result left ∧
      left.blurred view = after.blurred view ∧ (givesValue → result = value)

/-- Code that is blurred to the code of two programs comes to what the second one comes to. -/
theorem sameOutcome_of_parts
    {whole first second : Code}
    {middle : Machine}
    {last : Option Value}
    (isWhole : Action.rewrittenAll (.blurring view) whole.main =
      Action.rewrittenAll (.blurring view) (first.main ++ second.main))
    (ends : first.ending scope machine = .ok (.finished last) middle) :
    SameOutcome view (second.GivesValue scope middle) (whole.runIn scope machine)
      (second.runIn scope middle) := by
  have same : Run.blurred view (whole.ending scope machine) =
      Run.blurred view ((Ending.behind last <$> second.ending scope) middle) :=
    ending_of_parts isWhole ends
  cases secondEnds : second.ending scope middle with
  | ok ending after =>
      have parts : (Ending.behind last <$> second.ending scope) middle =
          .ok (ending.behind last) after := Run.bind_of_ok secondEnds
      rw [parts] at same
      cases wholeEnds : whole.ending scope machine with
      | error failure left =>
          rw [wholeEnds] at same
          cases same
      | ok reached left =>
          rw [wholeEnds] at same
          obtain ⟨rfl, sameMachine⟩ := EStateM.Result.ok.inj same
          rw [runIn_of_ok wholeEnds, runIn_of_ok secondEnds]
          refine ⟨(fun _ _ isError => nomatch isError), ?_⟩
          rintro _ _ ⟨⟩
          refine ⟨_, left, rfl, sameMachine, ?_⟩
          rintro ⟨other, later, otherEnds, valued⟩
          rw [secondEnds] at otherEnds
          obtain ⟨rfl, rfl⟩ := EStateM.Result.ok.inj otherEnds
          exact Ending.value_behind valued last
  | error abort after =>
      have parts : (Ending.behind last <$> second.ending scope) middle = .error abort after :=
        Run.bind_of_error secondEnds
      rw [parts] at same
      cases wholeEnds : whole.ending scope machine with
      | ok reached left =>
          rw [wholeEnds] at same
          cases same
      | error failure left =>
          rw [wholeEnds] at same
          obtain ⟨sameAbort, sameMachine⟩ := EStateM.Result.error.inj same
          rw [runIn_of_error wholeEnds, runIn_of_error secondEnds]
          refine ⟨?_, (fun _ _ isValue => nomatch isValue)⟩
          rintro _ _ ⟨⟩
          have sameFault := Abort.fault_of_blurred sameAbort
          refine ⟨failure, left, rfl, ?_, ?_, sameAbort, sameMachine⟩
          · rw [ScriptError.kind, sameFault]
            rfl
          · rw [ScriptError.message, sameFault]
            rfl

end Code

/--
A session is sequential composition.  Any compiler accepts two programs as one exactly when
it accepts the first one and then the second one.  If the first one runs to its end, without
an error or a return, then both as one come to what the second one comes to on the machine
that the first one has left: to the same machine, and to the same error or, if the second one
returns or executes an expression statement, to the same value.  What is the same is so up to
the numbers of functions and a view of the sources in which the three programs look the same.
-/
theorem Compiler.programs_run_in_sequence
    (compiler : Compiler)
    (view : Source → Source)
    {whole first second : Program}
    (isWhole : whole.statements = first.statements ++ second.statements)
    (firstLooks : view whole.source = view first.source)
    (secondLooks : view whole.source = view second.source) :
    ((compiler.lower whole).1.isOk = true ↔
      (compiler.lower first).1.isOk = true ∧
        ((compiler.lower first).2.lower second).1.isOk = true) ∧
    ∀ wholeCode firstCode secondCode : Code,
      (compiler.lower whole).1 = .ok wholeCode →
      (compiler.lower first).1 = .ok firstCode →
      ((compiler.lower first).2.lower second).1 = .ok secondCode →
      (∀ scope machine last middle,
        firstCode.ending scope machine = .ok (.finished last) middle →
        Code.SameOutcome view (secondCode.GivesValue scope middle)
          (wholeCode.runIn scope machine) (secondCode.runIn scope middle)) ∧
      ∀ machine last middle,
        firstCode.ending machine.global machine = .ok (.finished last) middle →
        Code.SameOutcome view (secondCode.GivesValue middle.global middle)
          (wholeCode.run machine) (secondCode.run middle) := by
  have lowered := compiler.lower_append isWhole firstLooks secondLooks
  refine ⟨?_, fun wholeCode firstCode secondCode isWholeCode isFirst isSecond => ?_⟩
  · rw [← Code.isOk_blurred view, lowered, ← Code.isOk_blurred view,
      ← Code.isOk_blurred view ((compiler.lower first).2.lower second).1]
    cases Code.blurred view (compiler.lower first).1 with
    | error error => simp [bind, Except.bind, Except.isOk, Except.toBool]
    | ok front =>
        cases Code.blurred view ((compiler.lower first).2.lower second).1 with
        | error error => simp [bind, Except.bind, Except.isOk, Except.toBool]
        | ok back => simp [bind, Except.bind, Except.isOk, Except.toBool, pure, Except.pure]
  · rw [isWholeCode, isFirst, isSecond] at lowered
    have isWholeMain : Action.rewrittenAll (.blurring view) wholeCode.main =
        Action.rewrittenAll (.blurring view) (firstCode.main ++ secondCode.main) := by
      rw [Action.rewrittenAll_append]
      exact Except.ok.inj lowered
    refine ⟨fun scope machine last middle ends => ?_, fun machine last middle ends => ?_⟩
    · exact Code.sameOutcome_of_parts isWholeMain ends
    · have sameGlobal := Code.global_of_ending ends
      have wholeRun : wholeCode.run machine = wholeCode.runIn middle.global machine := by
        rw [sameGlobal]
        rfl
      rw [← sameGlobal] at ends
      rw [wholeRun]
      exact Code.sameOutcome_of_parts isWholeMain ends

/-- A program that defines a function. -/
def Program.greeting : Program :=
  (Program.parse (Source.ofEval "function greet() \x7b return 'hello' \x7d")).program

/-- A program that calls a function of an earlier one. -/
def Program.greeted : Program := (Program.parse (Source.ofRepl "greet()")).program

/-- A program that defines a function and calls it. -/
def Program.greetingAndGreeted : Program :=
  ⟨Program.greeting.statements ++ Program.greeted.statements, Source.ofFile "greet.js" ""⟩

theorem Compiler.programs_run_in_sequence_of_greeting :
    ∃ wholeCode firstCode secondCode last middle,
      ((Compiler.new true).lower Program.greetingAndGreeted).1 = .ok wholeCode ∧
      ((Compiler.new true).lower Program.greeting).1 = .ok firstCode ∧
      (((Compiler.new true).lower Program.greeting).2.lower Program.greeted).1 = .ok secondCode ∧
      firstCode.ending 0 (Machine.bare 0) = .ok (.finished last) middle ∧
      secondCode.GivesValue 0 middle ∧
      Code.SameOutcome (fun _ => default) (secondCode.GivesValue 0 middle)
        (wholeCode.runIn 0 (Machine.bare 0)) (secondCode.runIn 0 middle) := by
  have sequence := @programs_run_in_sequence (Compiler.new true) (fun _ => default)
    Program.greetingAndGreeted Program.greeting Program.greeted rfl rfl rfl
  obtain ⟨wholeCode, isWhole⟩ :
      ∃ code, ((Compiler.new true).lower Program.greetingAndGreeted).1 = .ok code := ⟨_, rfl⟩
  obtain ⟨firstCode, last, middle, secondCode, isFirst, ends, isSecond, givesValue⟩ :
      ∃ firstCode last middle secondCode,
        ((Compiler.new true).lower Program.greeting).1 = .ok firstCode ∧
        firstCode.ending 0 (Machine.bare 0) = .ok (.finished last) middle ∧
        (((Compiler.new true).lower Program.greeting).2.lower Program.greeted).1 =
          .ok secondCode ∧
        secondCode.GivesValue 0 middle := ⟨_, _, _, _, rfl, rfl, rfl, _, _, rfl, rfl⟩
  have runs := (sequence.2 wholeCode firstCode secondCode isWhole isFirst isSecond).1
  exact ⟨wholeCode, firstCode, secondCode, last, middle, isWhole, isFirst, isSecond, ends,
    givesValue, runs 0 (Machine.bare 0) last middle ends⟩

end ScriptEngine
