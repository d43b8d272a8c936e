import ScriptEngine.Proofs.Machine.Evaluation
import ScriptEngine.Proofs.Machine.Likeness

namespace ScriptEngine

/-!
# Rewritten code does the same

On a machine that resembles another one, rewritten code does what the code does on the other
one.  The numbers of functions and the places in code are carried along and never looked at,
neither by the code nor by the calls made from it; and a check that is left out would have done
nothing where it would have let the run go on.
-/

@[simp] theorem Case.defaultIndex?_rewrittenAll (rewriting : Rewriting) (cases : List Case) :
    Case.defaultIndex? (Case.rewrittenAll rewriting cases) = Case.defaultIndex? cases := by
  unfold Case.defaultIndex?
  induction cases with
  | nil => rfl
  | cons first rest inductionHypothesis =>
      obtain ⟨condition, body⟩ := first
      change List.findIdx? _ (.mk (Term.rewrittenOption rewriting condition) _ ::
        Case.rewrittenAll rewriting rest) = _
      rw [List.findIdx?_cons, List.findIdx?_cons, inductionHypothesis]
      cases condition <;> rfl

namespace Run

variable {likeness : Likeness} {rewriting : Rewriting}

namespace Follows

/-- The turns of a loop follow those of another one if its test, its body and its update do. -/
theorem turns
    (labels : List String)
    {test otherTest : Run Bool}
    {body otherBody : Run Completion}
    {update otherUpdate : Run Unit}
    (testFollows : Follows likeness test otherTest)
    (bodyFollows : Follows likeness body otherBody)
    (updateFollows : Follows likeness update otherUpdate)
    (budget : Nat) :
    Follows likeness (Run.turns labels test body update budget)
      (Run.turns labels otherTest otherBody otherUpdate budget) := by
  induction budget with
  | zero => exact Steady.broken _
  | succ budget inductionHypothesis =>
      refine .bind testFollows fun goesOn => ?_
      split
      · refine .bind bodyFollows fun completion => ?_
        split
        · exact .pure _
        · exact .bind updateFollows fun _ => inductionHypothesis
      · exact .pure _

/-- The rounds of a loop follow those of another one if its body does. -/
theorem rounds
    (labels : List String)
    (scope : Nat)
    (name : String)
    {body otherBody : Run Completion}
    (bodyFollows : Follows likeness body otherBody)
    (keys : List String) :
    Follows likeness (Run.rounds labels scope name body keys)
      (Run.rounds labels scope name otherBody keys) := by
  induction keys with
  | nil => exact .pure _
  | cons key keys inductionHypothesis =>
      refine .bind (Steady.changeScopes _) fun _ => .bind bodyFollows fun completion => ?_
      split
      · exact .pure _
      · exact inductionHypothesis

theorem callNamed
    {call : Caller}
    (calls : ∀ callee this arguments, Steady likeness (call callee this arguments))
    (rewrites : likeness.rewrites rewriting)
    (callee this : Value)
    (arguments : List Value)
    (shown : String)
    (position : Position) :
    Follows likeness (Run.callNamed call callee this arguments shown position)
      (Run.callNamed call callee this arguments shown (rewriting.position position)) := by
  refine .locate rewrites position ?_
  split
  · exact calls _ _ _
  · exact Steady.failType _

/-- What comes after a check that is left out comes right away in its place. -/
theorem pastLeftOut
    (rewrites : likeness.rewrites rewriting)
    {frame : Frame}
    {scope : Nat}
    {action : Action}
    (leftOut : action.isLeftOut rewriting = true)
    {next : Completion → Run α}
    {follower : Run α}
    (follows : Follows likeness (next (.normal .undefined)) follower) :
    Follows likeness (action.run frame scope >>= next) follower := by
  cases action with
  | check condition shown position =>
      intro machine other resembles
      obtain ⟨loose, comes⟩ := likeness.leavesOut rewrites leftOut
      obtain ⟨value, evaluated⟩ := comes frame scope machine
      cases holds : value.isTruthy with
      | true =>
          have passes : (Action.check condition shown position).run frame scope machine =
              .ok (.normal .undefined) machine := by
            rw [Action.run, bind_of_ok evaluated, holds]
            rfl
          rw [bind_of_ok passes]
          exact follows machine other resembles
      | false =>
          have aborts : (Action.check condition shown position).run frame scope machine =
              .error (.raised ⟨.assertion shown, some position⟩) machine := by
            rw [Action.run, bind_of_ok evaluated, holds]
            rfl
          rw [bind_of_error aborts]
          exact .givenUp loose
  | _ => cases leftOut

end Follows

end Run

open Run (Follows Steady Uniform)

section

variable {likeness : Likeness} {rewriting : Rewriting} {frame : Frame} {scope : Nat}

/-- Rewritten code follows the code in any scope. -/
def Code.following (likeness : Likeness) (rewriting : Rewriting) (frame : Frame) : Code.Claims where
  ofTerm term := ∀ scope,
    Follows likeness (term.eval frame scope) ((term.rewritten rewriting).eval frame scope)
  ofKey key := ∀ scope,
    Follows likeness (key.eval frame scope) ((key.rewritten rewriting).eval frame scope)
  ofPlace target := ∀ scope,
    Follows likeness (target.eval frame scope) ((target.rewritten rewriting).eval frame scope)
  ofRoutine _ := True
  ofAction action := ∀ scope,
    Follows likeness (action.run frame scope) ((action.rewritten rewriting).run frame scope)

namespace Code.following

/-! ## Lists of code -/

/-- Rewritten terms follow if each of them does. -/
theorem evalAll
    {terms : List Term}
    (parts : ∀ term ∈ terms, (following likeness rewriting frame).ofTerm term) :
    Follows likeness (Term.evalAll frame scope terms)
      (Term.evalAll frame scope (Term.rewrittenAll rewriting terms)) := by
  induction terms with
  | nil =>
      rw [Term.rewrittenAll, Term.evalAll]
      exact .pure _
  | cons first rest inductionHypothesis =>
      obtain ⟨ofFirst, ofRest⟩ := List.forall_mem_cons.mp parts
      rw [Term.rewrittenAll, Term.evalAll, Term.evalAll]
      refine .bind (ofFirst scope) fun _ => ?_
      exact .bind (inductionHypothesis ofRest) fun _ => .pure _

/-- Rewritten properties of an object follow if their values do. -/
theorem evalEntries
    {entries : List Entry}
    (id : Nat)
    (parts : ∀ entry ∈ entries, (following likeness rewriting frame).ofEntry entry) :
    Follows likeness (Entry.evalAll frame scope id entries)
      (Entry.evalAll frame scope id (Entry.rewrittenAll rewriting entries)) := by
  induction entries with
  | nil =>
      rw [Entry.rewrittenAll, Entry.evalAll]
      exact .pure _
  | cons first rest inductionHypothesis =>
      obtain ⟨key, value⟩ := first
      obtain ⟨ofFirst, ofRest⟩ := List.forall_mem_cons.mp parts
      rw [Entry.rewrittenAll, Entry.evalAll, Entry.evalAll]
      refine .bind (ofFirst scope) fun _ => ?_
      refine .bind (Steady.changeHeap (Heap.spares_setOwn id key _)) fun _ => ?_
      exact inductionHypothesis ofRest

theorem evalOption
    {value : Option Term}
    (part : ∀ term ∈ value, (following likeness rewriting frame).ofTerm term) :
    Follows likeness (Term.evalOption frame scope value)
      (Term.evalOption frame scope (Term.rewrittenOption rewriting value)) := by
  cases value with
  | none => exact .pure _
  | some term =>
      rw [Term.rewrittenOption, Term.evalOption, Term.evalOption]
      exact part term rfl scope

theorem test
    {condition : Option Term}
    (part : ∀ term ∈ condition, (following likeness rewriting frame).ofTerm term) :
    Follows likeness (Term.test frame scope condition)
      (Term.test frame scope (Term.rewrittenOption rewriting condition)) := by
  cases condition with
  | none => exact .pure _
  | some term =>
      rw [Term.rewrittenOption, Term.test, Term.test]
      exact .bind (part term rfl scope) fun _ => .pure _

/-- Declaring rewritten variables follows if their values do. -/
theorem declareAll
    {bindings : List Binding}
    (parts : ∀ binding ∈ bindings, (following likeness rewriting frame).ofBinding binding) :
    Follows likeness (Binding.declareAll frame scope bindings)
      (Binding.declareAll frame scope (Binding.rewrittenAll rewriting bindings)) := by
  induction bindings with
  | nil => exact .pure _
  | cons first rest inductionHypothesis =>
      obtain ⟨name, value⟩ := first
      obtain ⟨ofFirst, ofRest⟩ := List.forall_mem_cons.mp parts
      cases value with
      | none =>
          rw [Binding.rewrittenAll, Term.rewrittenOption, Binding.declareAll, Binding.declareAll]
          exact .bind (Steady.changeScopes _) fun _ => inductionHypothesis ofRest
      | some term =>
          rw [Binding.rewrittenAll, Term.rewrittenOption, Binding.declareAll, Binding.declareAll]
          refine .bind (ofFirst term rfl scope) fun value => ?_
          exact .bind (Steady.changeScopes _) fun _ => inductionHypothesis ofRest

/-- Looking for a rewritten case follows if the conditions do. -/
theorem find
    (value : Value)
    (index : Nat)
    {cases : List Case}
    (parts : ∀ clause ∈ cases, (following likeness rewriting frame).ofCase clause) :
    Follows likeness (Case.find frame scope value index cases)
      (Case.find frame scope value index (Case.rewrittenAll rewriting cases)) := by
  induction cases generalizing index with
  | nil => exact .pure _
  | cons first rest inductionHypothesis =>
      obtain ⟨condition, body⟩ := first
      obtain ⟨⟨ofCondition, -⟩, ofRest⟩ := List.forall_mem_cons.mp parts
      cases condition with
      | none =>
          rw [Case.rewrittenAll, Term.rewrittenOption, Case.find, Case.find]
          exact inductionHypothesis (index + 1) ofRest
      | some term =>
          rw [Case.rewrittenAll, Term.rewrittenOption, Case.find, Case.find]
          refine .bind (ofCondition term rfl scope) fun tested => ?_
          split
          · exact .pure _
          · exact inductionHypothesis (index + 1) ofRest

/-- Rewritten statements follow if each of them does, and a check that is left out is passed. -/
theorem runAll
    (rewrites : likeness.rewrites rewriting)
    {body : List Action}
    (parts : ∀ action ∈ body, (following likeness rewriting frame).ofAction action) :
    Follows likeness (Action.runAll frame scope body)
      (Action.runAll frame scope (Action.rewrittenAll rewriting body)) := by
  induction body with
  | nil =>
      rw [Action.rewrittenAll, Action.runAll]
      exact .pure _
  | cons first rest inductionHypothesis =>
      obtain ⟨ofFirst, ofRest⟩ := List.forall_mem_cons.mp parts
      rw [Action.rewrittenAll, Action.runAll]
      split
      case isTrue leftOut => exact .pastLeftOut rewrites leftOut (inductionHypothesis ofRest)
      case isFalse =>
        rw [Action.runAll]
        refine .bind (ofFirst scope) fun completion => ?_
        split
        · exact inductionHypothesis ofRest
        · exact .pure _

theorem runOption
    (rewrites : likeness.rewrites rewriting)
    {alternative : Option (List Action)}
    (parts : ∀ action ∈ alternative.getD [],
      (following likeness rewriting frame).ofAction action) :
    Follows likeness (Action.runOption frame scope alternative)
      (Action.runOption frame scope (Action.rewrittenAlternative rewriting alternative)) := by
  cases alternative with
  | none =>
      rw [Action.rewrittenAlternative, Action.runOption]
      exact .pure _
  | some body =>
      rw [Action.rewrittenAlternative, Action.runOption, Action.runOption]
      exact runAll rewrites parts

theorem start
    (rewrites : likeness.rewrites rewriting)
    {start : Option Action}
    (part : ∀ action ∈ start, (following likeness rewriting frame).ofAction action) :
    Follows likeness (Action.start frame scope start)
      (Action.start frame scope (Action.rewrittenOption rewriting start)) := by
  cases start with
  | none =>
      rw [Action.rewrittenOption, Action.start]
      exact .pure _
  | some action =>
      rw [Action.rewrittenOption, Action.start]
      split
      case isTrue leftOut =>
        rw [← bind_pure (action.run frame scope)]
        exact .pastLeftOut rewrites leftOut (.pure _)
      case isFalse => exact part action rfl scope

/-- The rewritten cases of a selection follow if the statements in them do. -/
theorem runFrom
    (rewrites : likeness.rewrites rewriting)
    (skipped : Nat)
    {cases : List Case}
    (parts : ∀ clause ∈ cases, (following likeness rewriting frame).ofCase clause) :
    Follows likeness (Case.runFrom frame scope skipped cases)
      (Case.runFrom frame scope skipped (Case.rewrittenAll rewriting cases)) := by
  induction cases generalizing skipped with
  | nil =>
      rw [Case.rewrittenAll, Case.runFrom]
      exact .pure _
  | cons first rest inductionHypothesis =>
      obtain ⟨condition, body⟩ := first
      obtain ⟨⟨-, ofBody⟩, ofRest⟩ := List.forall_mem_cons.mp parts
      cases skipped with
      | succ skipped =>
          rw [Case.rewrittenAll, Case.runFrom, Case.runFrom]
          exact inductionHypothesis skipped ofRest
      | zero =>
          rw [Case.rewrittenAll, Case.runFrom, Case.runFrom]
          refine .bind (runAll rewrites ofBody) fun completion => ?_
          split
          · exact inductionHypothesis 0 ofRest
          · exact .pure _
          · exact .pure _

/-! ## Each term and each statement -/

/-- A rewritten term follows the term if its parts do. -/
theorem termCases
    (calls : ∀ callee this arguments, Steady likeness (frame.call callee this arguments))
    (rewrites : likeness.rewrites rewriting) :
    (following likeness rewriting frame).TermCases where
  constant scope := by
    rw [Term.rewritten, Term.eval]
    exact .pure _
  this scope := by
    rw [Term.rewritten, Term.eval]
    exact .pure _
  pattern scope := by
    rw [Term.rewritten, Term.eval]
    exact Steady.makePattern _
  array parts scope := by
    rw [Term.rewritten, Term.eval, Term.eval]
    exact .bind (evalAll parts) fun _ => Steady.makeArray _
  object parts scope := by
    rw [Term.rewritten, Term.eval, Term.eval]
    refine .bind (.makeObject ⟨rfl, rfl, .plain⟩) fun id => ?_
    exact .bind (evalEntries id parts) fun _ => .pure _
  closure {routine} _ scope := by
    rw [Term.rewritten, Term.eval, Term.eval, Routine.name_rewritten]
    split
    · exact .makeClosure rewrites routine scope
    · refine .bind (Steady.makeScope _ _) fun inner => ?_
      refine .bind (.makeClosure rewrites routine inner) fun value => ?_
      exact .bind (Steady.changeScopes _) fun _ => .pure _
  unary operand scope := by
    rw [Term.rewritten, Term.eval, Term.eval]
    refine .bind (operand scope) fun _ => ?_
    exact .locate rewrites _ ((Uniform.unary _ _).steady calls)
  typeofVariable scope := by
    rw [Term.rewritten, Term.eval]
    exact Steady.scopes (fun machine other same => by rw [same]) fun _ => .pure _
  typeof operand scope := by
    rw [Term.rewritten, Term.eval, Term.eval]
    exact .bind (operand scope) fun _ => .pure _
  delete target scope := by
    rw [Term.rewritten, Term.eval, Term.eval]
    refine .locate rewrites _ (.bind (target scope) fun reference => ?_)
    exact .bind ((Uniform.eraseReference scope reference).steady calls) fun _ => .pure _
  strict left right scope := by
    rw [Term.rewritten, Term.eval, Term.eval]
    refine .bind (left scope) fun _ => .bind (right scope) fun _ => ?_
    exact .locate rewrites _ ((Uniform.binary _ _ _).steady calls)
  both left right scope := by
    rw [Term.rewritten, Term.eval, Term.eval]
    refine .bind (left scope) fun value => ?_
    split
    · exact right scope
    · exact .pure _
  either left right scope := by
    rw [Term.rewritten, Term.eval, Term.eval]
    refine .bind (left scope) fun value => ?_
    split
    · exact .pure _
    · exact right scope
  read target scope := by
    rw [Term.rewritten, Term.eval, Term.eval]
    refine .locate rewrites _ (.bind (target scope) fun reference => ?_)
    exact (Uniform.readReference scope reference).steady calls
  assign target value scope := by
    rw [Term.rewritten, Term.eval, Term.eval]
    refine .locate rewrites _ (.bind (target scope) fun reference => ?_)
    refine .bind (value scope) fun _ => ?_
    exact .bind ((Uniform.writeReference scope _ reference).steady calls) fun _ => .pure _
  combine target value scope := by
    rw [Term.rewritten, Term.eval, Term.eval]
    refine .locate rewrites _ (.bind (target scope) fun reference => ?_)
    refine .bind ((Uniform.readReference scope reference).steady calls) fun current => ?_
    refine .bind (value scope) fun _ => ?_
    refine .bind ((Uniform.binary _ current _).steady calls) fun result => ?_
    exact .bind ((Uniform.writeReference scope _ reference).steady calls) fun _ => .pure _
  update target scope := by
    rw [Term.rewritten, Term.eval, Term.eval]
    refine .locate rewrites _ (.bind (target scope) fun reference => ?_)
    exact (Uniform.updateReference scope _ _ reference).steady calls
  conditional condition consequence alternative scope := by
    rw [Term.rewritten, Term.eval, Term.eval]
    refine .bind (condition scope) fun value => ?_
    split
    · exact consequence scope
    · exact alternative scope
  sequence parts scope := by
    rw [Term.rewritten, Term.eval, Term.eval]
    exact .bind (evalAll parts) fun _ => .pure _
  call callee parts scope := by
    rw [Term.rewritten, Term.eval, Term.eval]
    refine .bind (callee scope) fun _ => .bind (evalAll parts) fun _ => ?_
    exact .callNamed calls rewrites _ _ _ _ _
  callMethod base key parts scope := by
    rw [Term.rewritten, Term.eval, Term.eval]
    refine .bind (base scope) fun receiver => ?_
    refine .bind (.locate rewrites _ (.bind (key scope) fun name => ?_)) fun method => ?_
    · exact (Uniform.read receiver name).steady calls
    · exact .bind (evalAll parts) fun _ => .callNamed calls rewrites _ _ _ _ _
  construct constructor parts scope := by
    rw [Term.rewritten, Term.eval, Term.eval]
    refine .bind (constructor scope) fun _ => .bind (evalAll parts) fun _ => ?_
    exact .locate rewrites _ ((Uniform.construct _ _).steady calls)
  fixed scope := by
    rw [Key.rewritten, Key.eval]
    exact .pure _
  computed term scope := by
    rw [Key.rewritten, Key.eval, Key.eval]
    exact .bind (term scope) fun _ => (Uniform.toText _).steady calls
  variablePlace scope := by
    rw [Place.rewritten, Place.eval]
    exact .pure _
  propertyPlace base key scope := by
    rw [Place.rewritten, Place.eval, Place.eval]
    exact .bind (base scope) fun _ => .bind (key scope) fun _ => .pure _

/-- A rewritten statement follows the statement if its parts do. -/
theorem actionCases (rewrites : likeness.rewrites rewriting) :
    (following likeness rewriting frame).ActionCases where
  routine _ := trivial
  evaluate term scope := by
    rw [Action.rewritten, Action.run, Action.run]
    exact .bind (term scope) fun _ => .pure _
  check condition scope := by
    rw [Action.rewritten, Action.run, Action.run]
    refine .bind (condition scope) fun value => ?_
    split
    · exact .pure _
    · exact .raise rewrites (.assertion _) _
  declare parts scope := by
    rw [Action.rewritten, Action.run, Action.run]
    exact .bind (declareAll parts) fun _ => .pure _
  define {routine} _ scope := by
    rw [Action.rewritten, Action.run, Action.run, Routine.name_rewritten]
    refine .bind (.makeClosure rewrites routine scope) fun value => ?_
    exact .bind (Steady.changeScopes _) fun _ => .pure _
  giveBack part scope := by
    rw [Action.rewritten, Action.run, Action.run]
    exact .bind (evalOption part) fun _ => .pure _
  block parts scope := by
    rw [Action.rewritten, Action.run, Action.run]
    exact runAll rewrites parts
  branch condition consequence alternative scope := by
    rw [Action.rewritten, Action.run, Action.run]
    refine .bind (condition scope) fun value => ?_
    split
    · exact runAll rewrites consequence
    · exact runOption rewrites alternative
  whileLoop condition parts scope := by
    rw [Action.rewritten, Action.run, Action.run]
    refine .bind (Steady.makeScope _ _) fun inner => ?_
    exact .turns _ (.bind (condition inner) fun _ => .pure _) (runAll rewrites parts) (.pure _) _
  forLoop first condition update parts scope := by
    rw [Action.rewritten, Action.run, Action.run]
    refine .bind (start rewrites first) fun _ => .bind (Steady.makeScope _ _) fun inner => ?_
    exact .turns _ (test condition) (runAll rewrites parts)
      (.bind (evalOption update) fun _ => .pure _) _
  forIn {labels name _ subject body} ofSubject parts scope := by
    rw [Action.rewritten, Action.run, Action.run]
    have visit : Follows likeness
        (do
          let value ← subject.eval frame scope
          let inner ← Run.makeScope (some scope) false
          let keys := (← Run.heap).keys value
          Run.rounds labels inner name (Action.runAll frame inner body) keys)
        (do
          let value ← (subject.rewritten rewriting).eval frame scope
          let inner ← Run.makeScope (some scope) false
          let keys := (← Run.heap).keys value
          Run.rounds labels inner name
            (Action.runAll frame inner (Action.rewrittenAll rewriting body)) keys) := by
      refine .bind (ofSubject scope) fun value => ?_
      refine .bind (Steady.makeScope _ _) fun inner => .heap fun heap other resembles => ?_
      rw [← Heap.keys_outlined other, resembles.outlined, Heap.keys_outlined]
      exact .rounds labels inner name (runAll rewrites parts) _
    split
    · exact .bind (Steady.changeScopes _) fun _ => visit
    · exact visit
  labeled parts scope := by
    rw [Action.rewritten, Action.run, Action.run]
    refine .bind (Steady.makeScope _ _) fun inner => ?_
    exact .bind (runAll rewrites parts) fun _ => .pure _
  leave scope := by
    rw [Action.rewritten, Action.run]
    exact .pure _
  again scope := by
    rw [Action.rewritten, Action.run]
    exact .pure _
  select subject parts scope := by
    rw [Action.rewritten, Action.run, Action.run, Case.defaultIndex?_rewrittenAll]
    refine .bind (subject scope) fun value => .bind (find value 0 parts) fun found => ?_
    split
    · exact runFrom rewrites _ parts
    · split
      · exact runFrom rewrites _ parts
      · exact .pure _

/-- Rewritten code follows the code if the calls from it are steady. -/
theorem holds
    (calls : ∀ callee this arguments, Steady likeness (frame.call callee this arguments))
    (rewrites : likeness.rewrites rewriting) :
    (following likeness rewriting frame).Cases :=
  ⟨termCases calls rewrites, actionCases rewrites⟩

end Code.following

/-- Running a rewritten statement. -/
theorem Action.run_rewritten
    (calls : ∀ callee this arguments, Steady likeness (frame.call callee this arguments))
    (rewrites : likeness.rewrites rewriting)
    (scope : Nat)
    (action : Action) :
    Follows likeness (action.run frame scope) ((action.rewritten rewriting).run frame scope) :=
  (Code.following.holds calls rewrites).ofAction action scope

/-- Running rewritten statements. -/
theorem Action.runAll_rewritten
    (calls : ∀ callee this arguments, Steady likeness (frame.call callee this arguments))
    (rewrites : likeness.rewrites rewriting)
    (scope : Nat)
    (body : List Action) :
    Follows likeness (Action.runAll frame scope body)
      (Action.runAll frame scope (Action.rewrittenAll rewriting body)) :=
  Code.following.runAll rewrites fun action _ =>
    (Code.following.holds calls rewrites).ofAction action

end

namespace Run

variable {likeness : Likeness} {rewriting : Rewriting}

/-- Calling a function of rewritten code. -/
theorem Follows.invoke
    {call : Caller}
    (calls : ∀ callee this arguments, Steady likeness (call callee this arguments))
    (rewrites : likeness.rewrites rewriting)
    (patience : Nat)
    (callee this : Value)
    (arguments : List Value)
    (routine : Routine)
    (scope : Nat) :
    Follows likeness (Run.invoke call patience callee this arguments routine scope)
      (Run.invoke call patience callee this arguments (routine.rewritten rewriting) scope) := by
  unfold Run.invoke
  rw [Routine.parameters_rewritten, Routine.body_rewritten]
  refine .bind (.makeObject ⟨rfl, rfl, .array _⟩) fun list => ?_
  refine .bind (Steady.makeScope _ _) fun inner => .bind (Steady.changeScopes _) fun _ => ?_
  refine .bind ((Uniform.bindParameters inner _ _).steady calls) fun _ => ?_
  exact .bind (Action.runAll_rewritten calls rewrites inner _) fun completion => .pure _

/-- A call is steady if the calls made by it are. -/
theorem Steady.callWithin
    {call : Caller}
    (calls : ∀ callee this arguments, Steady likeness (call callee this arguments))
    (patience : Nat)
    (callee this : Value)
    (arguments : List Value) :
    Steady likeness (Run.callWithin call patience callee this arguments) := by
  have refuses (value : Value) :
      Steady likeness
        (do Run.failType (.notCallable ((← Run.heap).describe value)) : Run Value) :=
    .heap (by simp) fun heap => .failType _
  unfold Run.callWithin
  split
  · rename_i id
    refine Follows.heap fun heap other resembles => ?_
    have related := resembles.body id
    revert related
    generalize heap.body id = body
    generalize other.body id = otherBody
    intro related
    cases related with
    | closure rewrites routine scope =>
        simp only [nested_eq_deeper]
        exact .deeper (.invoke calls rewrites patience _ this arguments routine scope)
    | _ => exact refuses _
  · rename_i id
    refine Follows.heap fun heap other resembles => ?_
    have related := resembles.body id
    revert related
    generalize heap.body id = body
    generalize other.body id = otherBody
    intro related
    cases related with
    | builtin function =>
        simp only [nested_eq_deeper]
        exact .deeper ((Uniform.builtin_run_uniform this arguments function).steady calls)
    | _ => exact refuses _
  · exact refuses _

/-- Calls are steady, however deeply they may nest. -/
theorem Steady.callUpTo (patience : Nat) (callee this : Value) (arguments : List Value) :
    Steady likeness (Run.callUpTo patience callee this arguments) := by
  induction patience generalizing callee this arguments with
  | zero => exact .broken _
  | succ patience inductionHypothesis =>
      exact .callWithin inductionHypothesis patience callee this arguments

end Run

end ScriptEngine
