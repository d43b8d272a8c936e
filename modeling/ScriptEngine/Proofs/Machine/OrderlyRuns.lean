import ScriptEngine.Proofs.Builtin.Orderly
import ScriptEngine.Proofs.Machine.CallDepth

namespace ScriptEngine

/-!
# Running code keeps order

Terms and statements keep order, whatever the code.  What a function is called with and what
it gives back is known, and so are the values that references and completions carry.

To keep all arrays within the greatest length the code has to be narrow, and calls have to look
at lengths where nobody else does.
-/

variable {reference : Reference} {callee this : Value} {terms : List Term} {machine : Machine}
  {limited : Bool} {scope : Nat} {call : Caller} {arguments : List Value}

/-!
## Narrow code

Running code makes an array of every list of elements in it, and a constructor may make one
of its arguments.  Nobody looks at how long these lists are.  In narrow code none is longer
than an array may be.

The body of a function is not part of the code around it.  It is looked at by whoever calls
the function.
-/

mutual

/-- Whether the lists in a term are no longer than an array may be. -/
def Term.isNarrow : Term → Bool
  | .constant _ | .this | .pattern _ | .closure _ | .typeofVariable _ => true
  | .array elements => elements.length ≤ Storage.maxLength && Term.allNarrow elements
  | .object entries => Entry.allNarrow entries
  | .unary _ operand _ | .typeof operand => operand.isNarrow
  | .delete target _ | .read target _ | .update _ _ target _ => target.isNarrow
  | .strict _ left right _ | .both left right | .either left right =>
      left.isNarrow && right.isNarrow
  | .assign target value _ | .combine _ target value _ => target.isNarrow && value.isNarrow
  | .conditional condition consequence alternative =>
      condition.isNarrow && (consequence.isNarrow && alternative.isNarrow)
  | .sequence terms => Term.allNarrow terms
  | .call callee arguments _ _ => callee.isNarrow && Term.allNarrow arguments
  | .callMethod base key arguments _ _ =>
      base.isNarrow && (key.isNarrow && Term.allNarrow arguments)
  | .construct constructor arguments _ =>
      constructor.isNarrow &&
        (arguments.length ≤ Storage.maxLength && Term.allNarrow arguments)

/-- Whether the lists in a key are no longer than an array may be. -/
def Key.isNarrow : Key → Bool
  | .fixed _ => true
  | .computed term => term.isNarrow

/-- Whether the lists in a place are no longer than an array may be. -/
def Place.isNarrow : Place → Bool
  | .variable _ => true
  | .property base key => base.isNarrow && key.isNarrow

/-- Whether all terms of a list are narrow. -/
def Term.allNarrow : List Term → Bool
  | [] => true
  | first :: rest => first.isNarrow && Term.allNarrow rest

/-- Whether the values of all entries are narrow. -/
def Entry.allNarrow : List Entry → Bool
  | [] => true
  | .mk _ value :: rest => value.isNarrow && Entry.allNarrow rest

end

/-- Whether a term that may be missing is narrow. -/
def Term.isNarrowOption : Option Term → Bool
  | none => true
  | some term => term.isNarrow

/-- Whether the values of all variables are narrow. -/
def Binding.allNarrow : List Binding → Bool
  | [] => true
  | .mk _ value :: rest => Term.isNarrowOption value && Binding.allNarrow rest

mutual

/-- Whether the lists in a statement are no longer than an array may be. -/
def Action.isNarrow : Action → Bool
  | .define _ | .leave _ | .again _ => true
  | .evaluate term | .check term _ _ => term.isNarrow
  | .declare bindings => Binding.allNarrow bindings
  | .giveBack value => Term.isNarrowOption value
  | .block body | .labeled _ body => Action.allNarrow body
  | .branch condition consequence alternative =>
      condition.isNarrow && (Action.allNarrow consequence && Action.isNarrowBranch alternative)
  | .whileLoop _ condition body => condition.isNarrow && Action.allNarrow body
  | .forLoop _ start condition update body =>
      Action.isNarrowOption start &&
        (Term.isNarrowOption condition && (Term.isNarrowOption update && Action.allNarrow body))
  | .forIn _ _ _ subject body => subject.isNarrow && Action.allNarrow body
  | .select subject cases => subject.isNarrow && Case.allNarrow cases

/-- Whether all statements of a list are narrow. -/
def Action.allNarrow : List Action → Bool
  | [] => true
  | first :: rest => first.isNarrow && Action.allNarrow rest

/-- Whether the statements of a branch that may be missing are narrow. -/
def Action.isNarrowBranch : Option (List Action) → Bool
  | none => true
  | some body => Action.allNarrow body

/-- Whether a statement that may be missing is narrow. -/
def Action.isNarrowOption : Option Action → Bool
  | none => true
  | some action => action.isNarrow

/-- Whether the conditions and the bodies of all cases are narrow. -/
def Case.allNarrow : List Case → Bool
  | [] => true
  | .mk condition body :: rest =>
      Term.isNarrowOption condition && (Action.allNarrow body && Case.allNarrow rest)

end

/-- Where narrow code is asked for, both parts of it must be narrow. -/
theorem narrow_parts
    {first second : Bool}
    (narrow : limited = true → (first && second) = true) :
    (limited = true → first = true) ∧ (limited = true → second = true) :=
  ⟨fun isLimited => (Bool.and_eq_true_iff.mp (narrow isLimited)).1,
    fun isLimited => (Bool.and_eq_true_iff.mp (narrow isLimited)).2⟩

/-- The value whose property a reference names is known. -/
def Reference.KnownTo (heap : Heap) : Reference → Prop
  | .variable _ => True
  | .property base _ => base.KnownTo heap

/-- The value of a completion is known. -/
def Completion.KnownTo (heap : Heap) : Completion → Prop
  | .normal value | .returned value => value.KnownTo heap
  | .left _ | .again _ => True

theorem Reference.KnownTo.mono
    {older newer : Heap}
    (known : reference.KnownTo older)
    (grows : older.GrowsInto newer) :
    reference.KnownTo newer := by
  cases reference with
  | «variable» name => trivial
  | property base key => exact Value.KnownTo.mono known grows

namespace Completion.KnownTo

variable {heap : Heap} {completion : Completion}

theorem of_leavesLoop?
    {labels : List String}
    {outcome : Completion}
    (known : completion.KnownTo heap)
    (leaves : completion.leavesLoop? labels = some outcome) :
    outcome.KnownTo heap := by
  cases completion with
  | normal value => cases leaves
  | returned value =>
      cases leaves
      exact known
  | left label =>
      rw [Completion.leavesLoop?] at leaves
      cases leaves
      split
      · trivial
      · trivial
  | again label =>
      rw [Completion.leavesLoop?] at leaves
      split at leaves
      · cases leaves
      · cases leaves
        trivial

theorem underLabels (known : completion.KnownTo heap) (labels : List String) :
    (completion.underLabels labels).KnownTo heap := by
  unfold Completion.underLabels
  split
  · split
    · trivial
    · trivial
  · exact known

theorem result (known : completion.KnownTo heap) : completion.result.KnownTo heap := by
  cases completion with
  | returned value => exact known
  | normal _ | left _ | again _ => trivial

end Completion.KnownTo

namespace Run.Keeps

theorem readReference (scope : Nat) (reference : Reference) :
    Keeps limited Value.KnownTo (Run.readReference scope reference) machine := by
  cases reference with
  | «variable» name =>
      refine .get fun orderly => ?_
      split
      · rename_i value found
        exact .pure (orderly.scopes.of_lookup? found)
      · exact .error _
  | property base key => exact read base key

theorem eraseReference (scope : Nat) (reference : Reference) :
    Keeps limited Anything (Run.eraseReference scope reference) machine := by
  cases reference with
  | «variable» name =>
      exact .get fun _ => .bind (.changeScopes fun known => known.erase _ _) fun _ _ _ _ => .done _
  | property base key => exact erase base key

/-- Parameters are bound one after the other. -/
theorem bindParameters (scope : Nat) (known : machine.heap.Knows arguments) (names : List String) :
    Keeps limited Anything (Run.invoke.bindParameters scope arguments names) machine := by
  induction names generalizing arguments machine with
  | nil => exact .done _
  | cons name names inductionHypothesis =>
      refine .bind (.changeScopes fun old => old.bind _ _ ?_) fun _ after grows _ => ?_
      · cases arguments with
        | nil => trivial
        | cons first rest => exact known first (.head rest)
      · exact inductionHypothesis fun value member =>
          known.mono grows value (List.mem_of_mem_tail member)

/-- A loop keeps order if its test, its body and its update do, on whatever its heap grows into. -/
theorem turns
    (labels : List String)
    {base : Heap}
    {test : Run Bool}
    {body : Run Completion}
    {update : Run Unit}
    (testKeeps : ∀ machine, base.GrowsInto machine.heap → Keeps limited Anything test machine)
    (bodyKeeps : ∀ machine, base.GrowsInto machine.heap →
      Keeps limited Completion.KnownTo body machine)
    (updateKeeps : ∀ machine, base.GrowsInto machine.heap → Keeps limited Anything update machine)
    (budget : Nat)
    (grows : base.GrowsInto machine.heap) :
    Keeps limited Completion.KnownTo (Run.turns labels test body update budget) machine := by
  induction budget generalizing machine with
  | zero => exact .error _
  | succ budget inductionHypothesis =>
      refine .bind (testKeeps machine grows) fun goesOn tested growsTested _ => ?_
      split
      · have further := grows.trans growsTested
        refine .bind (bodyKeeps tested further) fun completion ran growsRan known => ?_
        split
        · rename_i outcome leaves
          exact .pure (known.of_leavesLoop? leaves)
        · have further := further.trans growsRan
          exact .bind (updateKeeps ran further) fun _ _ growsUpdated _ =>
            inductionHypothesis (further.trans growsUpdated)
      · exact .pure trivial

theorem rounds
    (labels : List String)
    (scope : Nat)
    (name : String)
    {base : Heap}
    {body : Run Completion}
    (bodyKeeps : ∀ machine, base.GrowsInto machine.heap →
      Keeps limited Completion.KnownTo body machine)
    (keys : List String)
    (grows : base.GrowsInto machine.heap) :
    Keeps limited Completion.KnownTo (Run.rounds labels scope name body keys) machine := by
  induction keys generalizing machine with
  | nil => exact .pure trivial
  | cons key keys inductionHypothesis =>
      refine .bind (.changeScopes fun old => old.bind _ _ trivial) fun _ bound growsBound _ => ?_
      have further := grows.trans growsBound
      refine .bind (bodyKeeps bound further) fun completion ran growsRan known => ?_
      split
      · rename_i outcome leaves
        exact .pure (known.of_leavesLoop? leaves)
      · exact inductionHypothesis (further.trans growsRan)

variable (calls : Caller.Keeps limited call)

include calls

theorem writeReference
    (scope : Nat)
    {value : Value}
    (known : value.KnownTo machine.heap)
    (referenceKnown : reference.KnownTo machine.heap) :
    Keeps limited Anything (Run.writeReference call scope value reference) machine := by
  cases reference with
  | «variable» name =>
      rw [Run.writeReference]
      exact .changeScopes fun old => old.bind _ _ known
  | property base key => exact write calls referenceKnown key known

theorem updateReference
    (scope : Nat)
    (change : Float)
    (fixity : Fixity)
    (known : reference.KnownTo machine.heap) :
    Keeps limited Value.KnownTo (Run.updateReference call scope change fixity reference)
      machine := by
  refine .bind (readReference scope reference) fun value middle grows isKnown => ?_
  refine .bind (toNumber calls isKnown) fun old after further _ => ?_
  have referenceKnown := (known.mono grows).mono further
  have newKnown : (Value.number (old + change)).KnownTo after.heap := trivial
  exact .bind (writeReference calls scope newKnown referenceKnown) fun _ _ _ _ => .pure trivial

theorem callNamed
    (calleeKnown : callee.KnownTo machine.heap)
    (thisKnown : this.KnownTo machine.heap)
    (known : machine.heap.Knows arguments)
    (shown : String)
    (position : Position) :
    Keeps limited Value.KnownTo (Run.callNamed call callee this arguments shown position)
      machine := by
  refine .locate position ?_
  split
  · exact calls _ _ _ _ calleeKnown thisKnown known
  · exact .error _

/-- What a constructor has made is known, be it the object made for it or one of its own. -/
theorem construct
    {constructor : Value}
    (constructorKnown : constructor.KnownTo machine.heap)
    (known : machine.heap.Knows arguments)
    (short : limited = true → arguments.length ≤ Storage.maxLength) :
    Keeps limited Value.KnownTo (Run.construct call constructor arguments) machine := by
  unfold Run.construct
  split
  · refine .heap fun _ => ?_
    split
    · split
      · rename_i function _ constructs
        -- What gives an array of any length constructs nothing.
        have isChecked (isUnchecked : function.isUnchecked = true) :
            function.isConstructor = false := by
          cases function <;> first | rfl | cases isUnchecked
        refine .deeper fun _ => builtin_run_keeps calls ?_ ?_ short function fun _ isUnchecked => ?_
        · trivial
        · exact known
        · rw [isChecked isUnchecked] at constructs
          cases constructs
      · exact .heap fun _ => .error _
    · exact .heap fun _ => .error _
  · refine .heap fun _ => .bind (makePlain _) fun created middle grows createdKnown => ?_
    have calleeKnown := constructorKnown.mono grows
    refine .bind (calls _ _ _ _ calleeKnown createdKnown (known.mono grows)) ?_
    intro result after further resultKnown
    refine .pure ?_
    split
    · exact resultKnown
    · exact createdKnown.mono further
  · exact .heap fun _ => .error _

end Run.Keeps

open Run (Keeps Anything)

section

variable {frame : Frame}

section

variable {values : List Value} {after : Machine}
  (ran : Term.evalAll frame scope terms machine = .ok values after)

include ran

/-- There is one value for each term. -/
theorem Term.length_of_evalAll : values.length = terms.length := by
  induction terms generalizing values machine with
  | nil =>
      rw [Term.evalAll] at ran
      cases ran
      rfl
  | cons first rest inductionHypothesis =>
      rw [Term.evalAll] at ran
      obtain ⟨value, middle, -, ran⟩ := Run.ok_of_bind ran
      obtain ⟨restValues, last, isRest, ran⟩ := Run.ok_of_bind ran
      cases ran
      exact congrArg (· + 1) (inductionHypothesis isRest)

theorem Term.short_of_evalAll
    (short : limited = true → decide (terms.length ≤ Storage.maxLength) = true) :
    limited = true → values.length ≤ Storage.maxLength :=
  fun isLimited => (Nat.le_of_eq (Term.length_of_evalAll ran)).trans
    (of_decide_eq_true (short isLimited))

end

/-- Running narrow code keeps order, and what it gives is known. -/
def Code.keeping (limited : Bool) (frame : Frame) : Code.Claims where
  ofTerm term := ∀ scope {machine : Machine}, (limited = true → term.isNarrow = true) →
    frame.this.KnownTo machine.heap → Keeps limited Value.KnownTo (term.eval frame scope) machine
  ofKey key := ∀ scope {machine : Machine}, (limited = true → key.isNarrow = true) →
    frame.this.KnownTo machine.heap → Keeps limited Anything (key.eval frame scope) machine
  ofPlace target := ∀ scope {machine : Machine}, (limited = true → target.isNarrow = true) →
    frame.this.KnownTo machine.heap →
    Keeps limited Reference.KnownTo (target.eval frame scope) machine
  ofRoutine _ := True
  ofAction action := ∀ scope {machine : Machine}, (limited = true → action.isNarrow = true) →
    frame.this.KnownTo machine.heap →
    Keeps limited Completion.KnownTo (action.run frame scope) machine

/-- A variable that is declared anew starts out undefined. -/
theorem Scopes.KnownTo.declareUndefined
    {heap : Heap}
    {scopes : Scopes}
    (known : scopes.KnownTo heap)
    (scope : Nat)
    (name : String) :
    Scopes.KnownTo heap
      (if scopes.isDeclared scope name then scopes else scopes.declare scope name .undefined) := by
  split
  · exact known
  · exact known.bind _ name trivial

namespace Code.keeping

/-! ## Lists of code -/

/-- Evaluating terms keeps order, and their values are known. -/
theorem evalAll
    (parts : ∀ term ∈ terms, (keeping limited frame).ofTerm term)
    (narrow : limited = true → Term.allNarrow terms = true)
    (this : frame.this.KnownTo machine.heap) :
    Keeps limited Heap.Knows (Term.evalAll frame scope terms) machine := by
  induction terms generalizing machine with
  | nil =>
      rw [Term.evalAll]
      exact .pure (List.forall_mem_nil _)
  | cons first rest inductionHypothesis =>
      obtain ⟨ofFirst, ofRest⟩ := List.forall_mem_cons.mp parts
      obtain ⟨firstNarrow, restNarrow⟩ := narrow_parts narrow
      rw [Term.evalAll]
      refine .bind (ofFirst scope firstNarrow this) fun value _ grows known => ?_
      refine .bind (inductionHypothesis ofRest restNarrow (this.mono grows)) ?_
      exact fun values _ further restKnown =>
        .pure (List.forall_mem_cons.mpr ⟨known.mono further, restKnown⟩)

/-- The properties of a new object are written one after the other; it is no array. -/
theorem evalEntries
    {entries : List Entry}
    (parts : ∀ entry ∈ entries, (keeping limited frame).ofEntry entry)
    (narrow : limited = true → Entry.allNarrow entries = true)
    (this : frame.this.KnownTo machine.heap)
    {id : Nat}
    (isPlain : machine.heap.Has .plain id) :
    Keeps limited Anything (Entry.evalAll frame scope id entries) machine := by
  induction entries generalizing machine with
  | nil =>
      rw [Entry.evalAll]
      exact .done _
  | cons first rest inductionHypothesis =>
      obtain ⟨key, value⟩ := first
      obtain ⟨ofFirst, ofRest⟩ := List.forall_mem_cons.mp parts
      obtain ⟨valueNarrow, restNarrow⟩ := narrow_parts narrow
      rw [Entry.evalAll]
      refine .bind (ofFirst scope valueNarrow this) fun result middle grows known => ?_
      have stillPlain := isPlain.mono grows
      refine .bind (.changeHeap fun orderly => orderly.heap.setOwn known fun isArray _ => ?_) ?_
      · cases isArray.unique stillPlain
      · exact fun _ _ further _ => inductionHypothesis ofRest restNarrow
          ((this.mono grows).mono further) (stillPlain.mono further)

theorem evalOption
    {value : Option Term}
    (part : ∀ term ∈ value, (keeping limited frame).ofTerm term)
    (narrow : limited = true → Term.isNarrowOption value = true)
    (this : frame.this.KnownTo machine.heap) :
    Keeps limited Value.KnownTo (Term.evalOption frame scope value) machine := by
  cases value with
  | none =>
      rw [Term.evalOption]
      exact .pure trivial
  | some term =>
      rw [Term.evalOption]
      exact part term rfl scope narrow this

theorem test
    {condition : Option Term}
    (part : ∀ term ∈ condition, (keeping limited frame).ofTerm term)
    (narrow : limited = true → Term.isNarrowOption condition = true)
    (this : frame.this.KnownTo machine.heap) :
    Keeps limited Anything (Term.test frame scope condition) machine := by
  cases condition with
  | none =>
      rw [Term.test]
      exact .done _
  | some term =>
      rw [Term.test]
      exact .bind (part term rfl scope narrow this) fun _ _ _ _ => .done _

/-- Variables are declared one after the other. -/
theorem declareAll
    {bindings : List Binding}
    (parts : ∀ binding ∈ bindings, (keeping limited frame).ofBinding binding)
    (narrow : limited = true → Binding.allNarrow bindings = true)
    (this : frame.this.KnownTo machine.heap) :
    Keeps limited Anything (Binding.declareAll frame scope bindings) machine := by
  induction bindings generalizing machine with
  | nil =>
      rw [Binding.declareAll]
      exact .done _
  | cons first rest inductionHypothesis =>
      obtain ⟨name, value⟩ := first
      obtain ⟨ofFirst, ofRest⟩ := List.forall_mem_cons.mp parts
      obtain ⟨valueNarrow, restNarrow⟩ := narrow_parts narrow
      cases value with
      | none =>
          rw [Binding.declareAll]
          exact .bind (.changeScopes fun known => known.declareUndefined scope name)
            fun _ _ grows _ => inductionHypothesis ofRest restNarrow (this.mono grows)
      | some term =>
          rw [Binding.declareAll]
          refine .bind (ofFirst term rfl scope valueNarrow this) fun value _ grows known => ?_
          exact .bind (.changeScopes fun old => old.bind _ name known) fun _ _ further _ =>
            inductionHypothesis ofRest restNarrow ((this.mono grows).mono further)

theorem find
    (value : Value)
    (index : Nat)
    {cases : List Case}
    (parts : ∀ clause ∈ cases, (keeping limited frame).ofCase clause)
    (narrow : limited = true → Case.allNarrow cases = true)
    (this : frame.this.KnownTo machine.heap) :
    Keeps limited Anything (Case.find frame scope value index cases) machine := by
  induction cases generalizing index machine with
  | nil =>
      rw [Case.find]
      exact .done _
  | cons first rest inductionHypothesis =>
      obtain ⟨condition, body⟩ := first
      obtain ⟨⟨ofCondition, -⟩, ofRest⟩ := List.forall_mem_cons.mp parts
      obtain ⟨conditionNarrow, narrow⟩ := narrow_parts narrow
      obtain ⟨-, restNarrow⟩ := narrow_parts narrow
      cases condition with
      | none =>
          rw [Case.find]
          exact inductionHypothesis (index + 1) ofRest restNarrow this
      | some term =>
          rw [Case.find]
          refine .bind (ofCondition term rfl scope conditionNarrow this) fun tested _ grows _ => ?_
          split
          · exact .done _
          · exact inductionHypothesis (index + 1) ofRest restNarrow (this.mono grows)

/-- Statements are run until one completes by a jump. -/
theorem runAll
    {body : List Action}
    (parts : ∀ action ∈ body, (keeping limited frame).ofAction action)
    (narrow : limited = true → Action.allNarrow body = true)
    (this : frame.this.KnownTo machine.heap) :
    Keeps limited Completion.KnownTo (Action.runAll frame scope body) machine := by
  induction body generalizing machine with
  | nil =>
      rw [Action.runAll]
      exact .pure trivial
  | cons first rest inductionHypothesis =>
      obtain ⟨ofFirst, ofRest⟩ := List.forall_mem_cons.mp parts
      obtain ⟨firstNarrow, restNarrow⟩ := narrow_parts narrow
      rw [Action.runAll]
      refine .bind (ofFirst scope firstNarrow this) fun completion _ grows known => ?_
      split
      · exact inductionHypothesis ofRest restNarrow (this.mono grows)
      · exact .pure known

theorem runOption
    {alternative : Option (List Action)}
    (parts : ∀ action ∈ alternative.getD [], (keeping limited frame).ofAction action)
    (narrow : limited = true → Action.isNarrowBranch alternative = true)
    (this : frame.this.KnownTo machine.heap) :
    Keeps limited Completion.KnownTo (Action.runOption frame scope alternative) machine := by
  cases alternative with
  | none =>
      rw [Action.runOption]
      exact .pure trivial
  | some body =>
      rw [Action.runOption]
      exact runAll parts narrow this

theorem start
    {start : Option Action}
    (part : ∀ action ∈ start, (keeping limited frame).ofAction action)
    (narrow : limited = true → Action.isNarrowOption start = true)
    (this : frame.this.KnownTo machine.heap) :
    Keeps limited Completion.KnownTo (Action.start frame scope start) machine := by
  cases start with
  | none =>
      rw [Action.start]
      exact .pure trivial
  | some action =>
      rw [Action.start]
      exact part action rfl scope narrow this

/-- The cases of a selection are run from one on. -/
theorem runFrom
    (skipped : Nat)
    {cases : List Case}
    (parts : ∀ clause ∈ cases, (keeping limited frame).ofCase clause)
    (narrow : limited = true → Case.allNarrow cases = true)
    (this : frame.this.KnownTo machine.heap) :
    Keeps limited Completion.KnownTo (Case.runFrom frame scope skipped cases) machine := by
  induction cases generalizing skipped machine with
  | nil =>
      rw [Case.runFrom]
      exact .pure trivial
  | cons first rest inductionHypothesis =>
      obtain ⟨condition, body⟩ := first
      obtain ⟨⟨-, ofBody⟩, ofRest⟩ := List.forall_mem_cons.mp parts
      obtain ⟨-, narrow⟩ := narrow_parts narrow
      obtain ⟨bodyNarrow, restNarrow⟩ := narrow_parts narrow
      cases skipped with
      | succ skipped =>
          rw [Case.runFrom]
          exact inductionHypothesis skipped ofRest restNarrow this
      | zero =>
          rw [Case.runFrom]
          refine .bind (runAll ofBody bodyNarrow this) fun completion _ grows known => ?_
          split
          · exact inductionHypothesis 0 ofRest restNarrow (this.mono grows)
          · exact .pure trivial
          · exact .pure known

/-! ## Each term and each statement -/

/-- Evaluating a term keeps order if evaluating its parts does. -/
theorem termCases (calls : Caller.Keeps limited frame.call) :
    (keeping limited frame).TermCases where
  constant {constant} scope _ _ _ := by
    rw [Term.eval]
    refine .pure ?_
    cases constant with
    | undefined | number _ | string _ | boolean _ => trivial
  this scope _ _ this := by
    rw [Term.eval]
    exact .pure this
  pattern scope _ _ _ := by
    rw [Term.eval]
    exact .makePattern _
  array parts scope _ narrow this := by
    obtain ⟨short, narrow⟩ := narrow_parts narrow
    rw [Term.eval]
    refine .bindRan (evalAll parts narrow this) fun values after _ known ran => ?_
    refine .makeArray (fun value holds => ?_) (Term.short_of_evalAll ran short)
    exact known value (List.mem_toArray.mp (Storage.holds_start holds))
  object parts scope _ narrow this := by
    rw [Term.eval]
    refine .bind (.makeEmpty _) fun id middle grows isPlain => ?_
    refine .bind (evalEntries parts narrow (this.mono grows) isPlain) ?_
    exact fun _ _ further _ => .pure (isPlain.mono further).known
  closure {routine} _ scope _ _ _ := by
    rw [Term.eval]
    split
    · exact .makeClosure routine scope
    · refine .bind (.makeScope _ _) fun inner _ _ _ => ?_
      refine .bind (.makeClosure routine inner) fun value after _ known => ?_
      exact .bind (.changeScopes fun old => old.bind _ _ known) fun _ _ grows _ =>
        .pure (known.mono grows)
  unary operand scope _ narrow this := by
    rw [Term.eval]
    refine .bind (operand scope narrow this) fun value _ _ known => ?_
    exact .locate _ (.unary calls _ known)
  typeofVariable scope _ _ _ := by
    rw [Term.eval]
    exact .get fun _ => .pure trivial
  typeof operand scope _ narrow this := by
    rw [Term.eval]
    exact .bind (operand scope narrow this) fun _ _ _ _ => .pure trivial
  delete target scope _ narrow this := by
    rw [Term.eval]
    refine .locate _ (.bind (target scope narrow this) fun reference _ _ _ => ?_)
    exact .bind (.eraseReference scope reference) fun _ _ _ _ => .pure trivial
  strict left right scope _ narrow this := by
    obtain ⟨leftNarrow, rightNarrow⟩ := narrow_parts narrow
    rw [Term.eval]
    refine .bind (left scope leftNarrow this) fun first _ grows firstKnown => ?_
    refine .bind (right scope rightNarrow (this.mono grows)) fun second _ further secondKnown => ?_
    exact .locate _ (.binary calls _ (firstKnown.mono further) secondKnown)
  both left right scope _ narrow this := by
    obtain ⟨leftNarrow, rightNarrow⟩ := narrow_parts narrow
    rw [Term.eval]
    refine .bind (left scope leftNarrow this) fun value _ grows known => ?_
    split
    · exact right scope rightNarrow (this.mono grows)
    · exact .pure known
  either left right scope _ narrow this := by
    obtain ⟨leftNarrow, rightNarrow⟩ := narrow_parts narrow
    rw [Term.eval]
    refine .bind (left scope leftNarrow this) fun value _ grows known => ?_
    split
    · exact .pure known
    · exact right scope rightNarrow (this.mono grows)
  read target scope _ narrow this := by
    rw [Term.eval]
    refine .locate _ (.bind (target scope narrow this) ?_)
    exact fun reference _ _ _ => .readReference scope reference
  assign target value scope _ narrow this := by
    obtain ⟨targetNarrow, valueNarrow⟩ := narrow_parts narrow
    rw [Term.eval]
    refine .locate _ (.bind (target scope targetNarrow this) ?_)
    intro reference middle grows referenceKnown
    refine .bind (value scope valueNarrow (this.mono grows)) fun assigned after further known => ?_
    refine .bind (.writeReference calls scope known (referenceKnown.mono further)) ?_
    exact fun _ _ last _ => .pure (known.mono last)
  combine target value scope _ narrow this := by
    obtain ⟨targetNarrow, valueNarrow⟩ := narrow_parts narrow
    rw [Term.eval]
    refine .locate _ (.bind (target scope targetNarrow this) ?_)
    intro reference placed growsPlaced referenceKnown
    refine .bind (.readReference scope reference) fun current looked growsRead currentKnown => ?_
    have thisKnown := (this.mono growsPlaced).mono growsRead
    refine .bind (value scope valueNarrow thisKnown) ?_
    intro operand evaluated growsValue operandKnown
    refine .bind (.binary calls _ (currentKnown.mono growsValue) operandKnown) ?_
    intro result combined growsResult known
    have referenceKnown := ((referenceKnown.mono growsRead).mono growsValue).mono growsResult
    refine .bind (.writeReference calls scope known referenceKnown) ?_
    exact fun _ _ last _ => .pure (known.mono last)
  update target scope _ narrow this := by
    rw [Term.eval]
    refine .locate _ (.bind (target scope narrow this) ?_)
    exact fun reference _ _ known => .updateReference calls scope _ _ known
  conditional condition consequence alternative scope _ narrow this := by
    obtain ⟨conditionNarrow, narrow⟩ := narrow_parts narrow
    obtain ⟨consequenceNarrow, alternativeNarrow⟩ := narrow_parts narrow
    rw [Term.eval]
    refine .bind (condition scope conditionNarrow this) fun value _ grows _ => ?_
    split
    · exact consequence scope consequenceNarrow (this.mono grows)
    · exact alternative scope alternativeNarrow (this.mono grows)
  sequence parts scope _ narrow this := by
    rw [Term.eval]
    refine .bind (evalAll parts narrow this) fun values _ _ known => .pure ?_
    cases isLast : values.getLast? with
    | none => trivial
    | some last => exact known last (List.mem_of_getLast? isLast)
  call callee parts scope _ narrow this := by
    obtain ⟨calleeNarrow, argumentsNarrow⟩ := narrow_parts narrow
    rw [Term.eval]
    refine .bind (callee scope calleeNarrow this) fun function _ grows calleeKnown => ?_
    refine .bind (evalAll parts argumentsNarrow (this.mono grows)) ?_
    intro values after further known
    have undefinedKnown : Value.undefined.KnownTo after.heap := trivial
    exact .callNamed calls (calleeKnown.mono further) undefinedKnown known _ _
  callMethod base key parts scope _ narrow this := by
    obtain ⟨baseNarrow, narrow⟩ := narrow_parts narrow
    obtain ⟨keyNarrow, argumentsNarrow⟩ := narrow_parts narrow
    rw [Term.eval]
    refine .bind (base scope baseNarrow this) fun receiver _ growsBase baseKnown => ?_
    have thisKnown := this.mono growsBase
    refine .bind (.locate _ (.bind (key scope keyNarrow thisKnown) fun name _ _ _ =>
      .read receiver name)) ?_
    intro method _ growsMethod methodKnown
    refine .bind (evalAll parts argumentsNarrow (thisKnown.mono growsMethod)) ?_
    intro values _ further known
    exact .callNamed calls (methodKnown.mono further)
      ((baseKnown.mono growsMethod).mono further) known _ _
  construct constructor parts scope _ narrow this := by
    obtain ⟨constructorNarrow, narrow⟩ := narrow_parts narrow
    obtain ⟨short, argumentsNarrow⟩ := narrow_parts narrow
    rw [Term.eval]
    refine .bind (constructor scope constructorNarrow this) ?_
    intro function _ grows constructorKnown
    refine .bindRan (evalAll parts argumentsNarrow (this.mono grows)) ?_
    intro values _ further known ran
    exact .locate _ (.construct calls (constructorKnown.mono further) known
      (Term.short_of_evalAll ran short))
  fixed scope _ _ _ := by
    rw [Key.eval]
    exact .done _
  computed term scope _ narrow this := by
    rw [Key.eval]
    exact .bind (term scope narrow this) fun _ _ _ known => .toText calls known
  variablePlace scope _ _ _ := by
    rw [Place.eval]
    exact .pure trivial
  propertyPlace base key scope _ narrow this := by
    obtain ⟨baseNarrow, keyNarrow⟩ := narrow_parts narrow
    rw [Place.eval]
    refine .bind (base scope baseNarrow this) fun value _ grows known => ?_
    exact .bind (key scope keyNarrow (this.mono grows)) fun _ _ further _ =>
      .pure (known.mono further)

/-- Running a statement keeps order if its parts do. -/
theorem actionCases : (keeping limited frame).ActionCases where
  routine _ := trivial
  evaluate term scope _ narrow this := by
    rw [Action.run]
    exact .bind (term scope narrow this) fun _ _ _ known => .pure known
  check condition scope _ narrow this := by
    rw [Action.run]
    refine .bind (condition scope narrow this) fun value _ _ _ => ?_
    split
    · exact .pure trivial
    · exact .error _
  declare parts scope _ narrow this := by
    rw [Action.run]
    exact .bind (declareAll parts narrow this) fun _ _ _ _ => .pure trivial
  define {routine} _ scope _ _ _ := by
    rw [Action.run]
    refine .bind (.makeClosure routine scope) fun value _ _ known => ?_
    exact .bind (.changeScopes fun old => old.bind _ _ known) fun _ _ _ _ => .pure trivial
  giveBack part scope _ narrow this := by
    rw [Action.run]
    exact .bind (evalOption part narrow this) fun _ _ _ known => .pure known
  block parts scope _ narrow this := by
    rw [Action.run]
    exact runAll parts narrow this
  branch condition consequence alternative scope _ narrow this := by
    obtain ⟨conditionNarrow, narrow⟩ := narrow_parts narrow
    obtain ⟨consequenceNarrow, alternativeNarrow⟩ := narrow_parts narrow
    rw [Action.run]
    refine .bind (condition scope conditionNarrow this) fun value _ grows _ => ?_
    split
    · exact runAll consequence consequenceNarrow (this.mono grows)
    · exact runOption alternative alternativeNarrow (this.mono grows)
  whileLoop condition parts scope _ narrow this := by
    obtain ⟨conditionNarrow, bodyNarrow⟩ := narrow_parts narrow
    rw [Action.run]
    refine .bind (.makeScope _ _) fun inner _ grows _ => ?_
    have thisKnown := this.mono grows
    refine .turns _ (fun _ further => ?_) (fun _ further => ?_) (fun _ _ => .done _) _ (.refl _)
    · exact .bind (condition inner conditionNarrow (thisKnown.mono further)) fun _ _ _ _ => .done _
    · exact runAll parts bodyNarrow (thisKnown.mono further)
  forLoop first condition update parts scope _ narrow this := by
    obtain ⟨startNarrow, narrow⟩ := narrow_parts narrow
    obtain ⟨conditionNarrow, narrow⟩ := narrow_parts narrow
    obtain ⟨updateNarrow, bodyNarrow⟩ := narrow_parts narrow
    rw [Action.run]
    refine .bind (start first startNarrow this) fun _ _ growsStart _ => ?_
    refine .bind (.makeScope _ _) fun inner _ growsScope _ => ?_
    have thisKnown := (this.mono growsStart).mono growsScope
    refine .turns _ (fun _ further => ?_) (fun _ further => ?_) (fun _ further => ?_) _ (.refl _)
    · exact test condition conditionNarrow (thisKnown.mono further)
    · exact runAll parts bodyNarrow (thisKnown.mono further)
    · exact .bind (evalOption update updateNarrow (thisKnown.mono further)) fun _ _ _ _ => .done _
  forIn {labels name _ subject body} ofSubject parts scope machine narrow this := by
    obtain ⟨subjectNarrow, bodyNarrow⟩ := narrow_parts narrow
    rw [Action.run]
    have visit (machine : Machine) (this : frame.this.KnownTo machine.heap) :
        Keeps limited Completion.KnownTo (do
          let value ← subject.eval frame scope
          let inner ← Run.makeScope (some scope) false
          let keys := (← Run.heap).keys value
          Run.rounds labels inner name (Action.runAll frame inner body) keys) machine := by
      refine .bind (ofSubject scope subjectNarrow this) fun value _ growsValue _ => ?_
      refine .bind (.makeScope _ _) fun inner _ growsScope _ => .heap fun _ => ?_
      have thisKnown := (this.mono growsValue).mono growsScope
      refine .rounds labels inner name (fun _ further => ?_) _ (.refl _)
      exact runAll parts bodyNarrow (thisKnown.mono further)
    split
    · exact .bind (.changeScopes fun known => known.declareUndefined scope name)
        fun _ after grows _ => visit after (this.mono grows)
    · exact visit machine this
  labeled parts scope _ narrow this := by
    rw [Action.run]
    refine .bind (.makeScope _ _) fun inner _ grows _ => ?_
    exact .bind (runAll parts narrow (this.mono grows)) fun _ _ _ known =>
      .pure (known.underLabels _)
  leave scope _ _ _ := by
    rw [Action.run]
    exact .pure trivial
  again scope _ _ _ := by
    rw [Action.run]
    exact .pure trivial
  select subject parts scope _ narrow this := by
    obtain ⟨subjectNarrow, casesNarrow⟩ := narrow_parts narrow
    rw [Action.run]
    refine .bind (subject scope subjectNarrow this) fun value _ growsValue _ => ?_
    have thisKnown := this.mono growsValue
    refine .bind (find value 0 parts casesNarrow thisKnown) fun found _ growsFound _ => ?_
    split
    · exact runFrom _ parts casesNarrow (thisKnown.mono growsFound)
    · split
      · exact runFrom _ parts casesNarrow (thisKnown.mono growsFound)
      · exact .pure trivial

/-- Running narrow code keeps order if the calls from it do. -/
theorem holds (calls : Caller.Keeps limited frame.call) : (keeping limited frame).Cases :=
  ⟨termCases calls, actionCases⟩

end Code.keeping

end

namespace Run

/-- Nobody looks at the number of arguments. -/
theorem Keeps.invoke
    (calls : Caller.Keeps limited call)
    (patience : Nat)
    (calleeKnown : callee.KnownTo machine.heap)
    (thisKnown : this.KnownTo machine.heap)
    (known : machine.heap.Knows arguments)
    (short : limited = true → arguments.length ≤ Storage.maxLength)
    {routine : Routine}
    (narrow : limited = true → Action.allNarrow routine.body = true)
    (scope : Nat) :
    Keeps limited Value.KnownTo (Run.invoke call patience callee this arguments routine scope)
      machine := by
  refine .bind (.makeObject ?_ (fun _ => id) short) ?_
  · refine ⟨fun slot member => ?_, ?_, fun _ => List.nodup_singleton _, fun _ _ name member => ?_⟩
    · rw [List.mem_singleton.mp member]
      exact calleeKnown
    · rintro _ ⟨⟩ value holds
      exact known value (List.mem_toArray.mp (Storage.holds_start holds))
    · rw [List.mem_singleton.mp member]
      exact (by decide : IsApart "callee")
  · intro list _ growsList isArray
    refine .bind (.makeScope _ _) fun inner _ growsScope _ => ?_
    refine .bind (.changeScopes fun old => old.bind _ _ (isArray.mono growsScope).known) ?_
    intro _ _ growsBound _
    have argumentsKnown := known.mono ((growsList.trans growsScope).trans growsBound)
    refine .bind (bindParameters inner argumentsKnown _) fun _ ready growsParameters _ => ?_
    have growsReady := ((growsList.trans growsScope).trans growsBound).trans growsParameters
    have bodyKeeps : Keeps limited Completion.KnownTo
        (Action.runAll ⟨call, patience, this⟩ inner routine.body) ready :=
      Code.keeping.runAll (fun action _ => (Code.keeping.holds calls).ofAction action) narrow
        (thisKnown.mono growsReady)
    exact .bind bodyKeeps fun completion _ _ completionKnown => .pure completionKnown.result

end Run

/-! ## Calls -/

namespace Heap

/-- Whether the body of a function is narrow. -/
def runsNarrow (heap : Heap) : Value → Bool
  | .object .closure id =>
      match heap.body id with
      | .closure routine _ => Action.allNarrow routine.body
      | _ => true
  | _ => true

/-- Whether a value is a builtin function that gives an array without a look at its length. -/
def isUnchecked (heap : Heap) : Value → Bool
  | .object .builtin id =>
      match heap.body id with
      | .builtin builtin => builtin.isUnchecked
      | _ => false
  | _ => false

end Heap

namespace Run

theorem givesOverlong_leaving (outcome : EStateM.Result Abort Machine Value) :
    givesOverlong (leaving outcome) = givesOverlong outcome := by
  cases outcome with
  | ok value after =>
      cases value with
      | object kind id => cases kind <;> rfl
      | undefined | number _ | string _ | boolean _ => rfl
  | error abort after => rfl

/-- A call keeps order, if nothing too long comes in, is in the function or comes out. -/
theorem Keeps.callWithin
    (calls : Caller.Keeps limited call)
    (patience : Nat)
    (calleeKnown : callee.KnownTo machine.heap)
    (thisKnown : this.KnownTo machine.heap)
    (known : machine.heap.Knows arguments)
    (short : limited = true → arguments.length ≤ Storage.maxLength)
    (narrow : limited = true → machine.heap.runsNarrow callee = true)
    (notOverlong : limited = true → machine.heap.isUnchecked callee = true →
      givesOverlong (Run.callWithin call patience callee this arguments machine) = false) :
    Keeps limited Value.KnownTo (Run.callWithin call patience callee this arguments) machine := by
  unfold Run.callWithin
  split
  · rename_i id
    refine .heap fun _ => ?_
    split
    · rename_i routine scope isClosure
      rw [nested_eq_deeper]
      refine .deeper fun _ => .invoke calls patience ?_ ?_ ?_ short (fun isLimited => ?_) scope
      · exact calleeKnown
      · exact thisKnown
      · exact known
      · have isNarrow := narrow isLimited
        simp only [Heap.runsNarrow, isClosure] at isNarrow
        exact isNarrow
    · exact .heap fun _ => .error _
  · rename_i id
    refine .heap fun _ => ?_
    split
    · rename_i builtin isBuiltin
      rw [nested_eq_deeper]
      refine .deeper fun room =>
        .builtin_run_keeps calls ?_ ?_ short builtin fun isLimited isUnchecked => ?_
      · exact thisKnown
      · exact known
      · have given := notOverlong isLimited (by simpa only [Heap.isUnchecked, isBuiltin])
        rw [callWithin_eq] at given
        simp only [work?, isBuiltin] at given
        rwa [deeper_of_room _ _ room, givesOverlong_leaving] at given
    · exact .heap fun _ => .error _
  · exact .heap fun _ => .error _

/-- Calls keep order, however deeply they may nest. -/
theorem callUpTo_keeps (patience : Nat) : Caller.Keeps false (callUpTo patience) := by
  induction patience with
  | zero => exact fun _ _ _ _ _ _ _ => .error _
  | succ patience inductionHypothesis =>
      intro callee this arguments machine calleeKnown thisKnown known
      exact .callWithin inductionHypothesis patience calleeKnown thisKnown known nofun nofun nofun

/--
A call that looks at lengths where nobody else does.  It refuses too many arguments, a body
that is not narrow, and an array that is too long from a builtin function that gives one of
any length.
-/
def checked (call : Caller) : Caller := fun callee this arguments machine =>
  if Storage.maxLength < arguments.length || !machine.heap.runsNarrow callee then
    failRange .arrayLength machine
  else
    let outcome := call callee this arguments machine
    if machine.heap.isUnchecked callee && givesOverlong outcome then failRange .arrayLength machine
    else outcome

/-- Calls that look at lengths, with a bound on how deeply they nest. -/
def callChecked : Nat → Caller
  | 0 => callUpTo 0
  | patience + 1 => checked (callWithin (callChecked patience) patience)

/-- Calls that look at lengths keep all arrays within the greatest one. -/
theorem callChecked_keeps (patience : Nat) : Caller.Keeps true (callChecked patience) := by
  induction patience with
  | zero => exact fun _ _ _ _ _ _ _ => .error _
  | succ patience inductionHypothesis =>
      intro callee this arguments machine calleeKnown thisKnown known
      rw [callChecked]
      intro orderly
      unfold checked
      split
      · exact ⟨.refl _, orderly⟩
      · rename_i admitted
        obtain ⟨short, narrow⟩ := Bool.or_eq_false_iff.mp (Bool.eq_false_of_not_eq_true admitted)
        dsimp only
        split
        · exact ⟨.refl _, orderly⟩
        · rename_i given
          refine Keeps.callWithin inductionHypothesis patience calleeKnown thisKnown known
            (fun _ => ?_) (fun _ => ?_) (fun _ isUnchecked => ?_) orderly
          · exact Nat.le_of_not_lt (of_decide_eq_false short)
          · exact (Bool.not_eq_false' _).mp narrow
          · simpa [isUnchecked] using given

end Run

namespace Code

/-- The statements of a program are run one after the other. -/
theorem runMain_keeps
    {frame : Frame}
    (calls : Caller.Keeps limited frame.call)
    (scope : Nat)
    {main : List Action}
    (narrow : limited = true → Action.allNarrow main = true)
    {result : Value}
    (this : frame.this.KnownTo machine.heap)
    (known : result.KnownTo machine.heap) :
    Keeps limited Value.KnownTo (runMain frame scope result main) machine := by
  induction main generalizing result machine with
  | nil => exact .pure known
  | cons action rest inductionHypothesis =>
      obtain ⟨actionNarrow, restNarrow⟩ := narrow_parts narrow
      refine .bind ((keeping.holds calls).ofAction action scope actionNarrow this) ?_
      intro completion _ grows valueKnown
      have thisKnown := this.mono grows
      have resultKnown := known.mono grows
      split
      · refine inductionHypothesis restNarrow thisKnown ?_
        split
        · exact valueKnown
        · exact resultKnown
      · exact .pure valueKnown
      · exact inductionHypothesis restNarrow thisKnown resultKnown

/-- Any code keeps order in any scope. -/
theorem runIn_keeps (code : Code) (scope : Nat) (machine : Machine) :
    Keeps false Value.KnownTo (code.runIn scope) machine := by
  have narrow : false = true → Action.allNarrow code.main = true := nofun
  exact runMain_keeps (Run.callUpTo_keeps _) scope narrow trivial trivial

/-- Run code in a scope, with calls that look at lengths. -/
def runChecked (code : Code) (scope : Nat) : Run Value :=
  runMain ⟨Run.callChecked Run.unlimited, Run.unlimited, .undefined⟩ scope .undefined code.main

/-- Narrow code that runs as it would if all calls looked at lengths. -/
structure PassesChecks (code : Code) (scope : Nat) (machine : Machine) : Prop where
  narrow : Action.allNarrow code.main = true
  same : code.runIn scope machine = code.runChecked scope machine

/-- Narrow code with calls that look at lengths keeps all arrays within the greatest one. -/
theorem runChecked_keeps
    {code : Code}
    (narrow : Action.allNarrow code.main = true)
    (scope : Nat)
    (machine : Machine) :
    Keeps true Value.KnownTo (code.runChecked scope) machine :=
  runMain_keeps (Run.callChecked_keeps _) scope (fun _ => narrow) trivial trivial

end Code

end ScriptEngine
