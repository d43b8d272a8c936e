import ScriptEngine.Proofs.Builtin.Functions

namespace ScriptEngine

/-!
# Running fitting code is built from steps

Terms and statements that fit are run by steps of the machine, and every error
leaves them with a place.  Calls are built from steps as well, but an error may
leave a call without a place; the term that makes the call gives it one.
-/

namespace Run.Built

variable {place : Position → Prop} {sound : Routine → Prop} {caller : Caller → Prop} {bare : Bool}

/-- The turns of a loop are built from steps if its test, its body and its update are. -/
theorem turns
    (labels : List String)
    {test : Run Bool}
    {body : Run Completion}
    {update : Run Unit}
    (testBuilt : Built place sound caller bare test)
    (bodyBuilt : Built place sound caller bare body)
    (updateBuilt : Built place sound caller bare update)
    (budget : Nat) :
    Built place sound caller bare (Run.turns labels test body update budget) := by
  induction budget with
  | zero => exact .broken _
  | succ budget inductionHypothesis =>
      refine .bind testBuilt fun goesOn => ?_
      split
      · refine .bind bodyBuilt fun completion => ?_
        split
        · exact .pure _
        · exact .bind updateBuilt fun _ => inductionHypothesis
      · exact .pure _

/-- The rounds of a loop are built from steps if its body is. -/
theorem rounds
    (labels : List String)
    (scope : Nat)
    (name : String)
    {body : Run Completion}
    (bodyBuilt : Built place sound caller bare body)
    (keys : List String) :
    Built place sound caller bare (Run.rounds labels scope name body keys) := by
  induction keys with
  | nil => exact .pure _
  | cons key keys inductionHypothesis =>
      refine .bind (.changeScopes _) fun _ => .bind bodyBuilt fun completion => ?_
      split
      · exact .pure _
      · exact inductionHypothesis

variable {call : Caller}
  (calls : ∀ callee this arguments, Built place sound caller true (call callee this arguments))

include calls

theorem callNamed
    (callee this : Value)
    (arguments : List Value)
    (shown : String)
    {position : Position}
    (isPlace : place position) :
    Built place sound caller bare (Run.callNamed call callee this arguments shown position) := by
  refine .locate isPlace ?_
  split
  · exact calls _ _ _
  · exact failType _

end Run.Built

/-! ## Lists of code -/

namespace Run.Built

variable {place : Position → Prop} {sound : Routine → Prop} {caller : Caller → Prop}
  {frame : Frame} {scope : Nat}

/-- Evaluating terms is built from steps if evaluating each of them is. -/
theorem evalAll
    {terms : List Term}
    (parts : ∀ term ∈ terms, Built place sound caller false (term.eval frame scope)) :
    Built place sound caller false (Term.evalAll frame scope terms) := by
  induction terms with
  | nil =>
      rw [Term.evalAll]
      exact .pure _
  | cons first rest inductionHypothesis =>
      obtain ⟨ofFirst, ofRest⟩ := List.forall_mem_cons.mp parts
      rw [Term.evalAll]
      exact .bind ofFirst fun _ => .bind (inductionHypothesis ofRest) fun _ => .pure _

/-- Evaluating the properties of an object is built from steps. -/
theorem evalEntries
    {entries : List Entry}
    (id : Nat)
    (parts : ∀ key value, .mk key value ∈ entries →
      Built place sound caller false (value.eval frame scope)) :
    Built place sound caller false (Entry.evalAll frame scope id entries) := by
  induction entries with
  | nil =>
      rw [Entry.evalAll]
      exact .pure _
  | cons first rest inductionHypothesis =>
      obtain ⟨key, value⟩ := first
      rw [Entry.evalAll]
      refine .bind (parts key value (.head _)) fun _ => ?_
      refine .bind (.changeHeap (Heap.isStep_setOwn id key _)) fun _ => ?_
      exact inductionHypothesis fun key value member => parts key value (.tail _ member)

theorem evalOption
    {value : Option Term}
    (part : ∀ term ∈ value, Built place sound caller false (term.eval frame scope)) :
    Built place sound caller false (Term.evalOption frame scope value) := by
  cases value with
  | none =>
      rw [Term.evalOption]
      exact .pure _
  | some term =>
      rw [Term.evalOption]
      exact part term rfl

theorem test
    {condition : Option Term}
    (part : ∀ term ∈ condition, Built place sound caller false (term.eval frame scope)) :
    Built place sound caller false (Term.test frame scope condition) := by
  cases condition with
  | none =>
      rw [Term.test]
      exact .pure _
  | some term =>
      rw [Term.test]
      exact .bind (part term rfl) fun _ => .pure _

/-- Declaring variables is built from steps. -/
theorem declareAll
    {bindings : List Binding}
    (parts : ∀ name term, .mk name (some term) ∈ bindings →
      Built place sound caller false (term.eval frame scope)) :
    Built place sound caller false (Binding.declareAll frame scope bindings) := by
  induction bindings with
  | nil =>
      rw [Binding.declareAll]
      exact .pure _
  | cons first rest inductionHypothesis =>
      obtain ⟨name, value⟩ := first
      have ofRest := inductionHypothesis fun name term member => parts name term (.tail _ member)
      cases value with
      | none =>
          rw [Binding.declareAll]
          exact .bind (.changeScopes _) fun _ => ofRest
      | some term =>
          rw [Binding.declareAll]
          refine .bind (parts name term (.head _)) fun value => ?_
          exact .bind (.changeScopes _) fun _ => ofRest

/-- Looking for a case is built from steps. -/
theorem find
    {cases : List Case}
    (value : Value)
    (index : Nat)
    (parts : ∀ term body, .mk (some term) body ∈ cases →
      Built place sound caller false (term.eval frame scope)) :
    Built place sound caller false (Case.find frame scope value index cases) := by
  induction cases generalizing index with
  | nil =>
      rw [Case.find]
      exact .pure _
  | cons first rest inductionHypothesis =>
      obtain ⟨condition, body⟩ := first
      have ofRest := inductionHypothesis (index + 1) fun term body member =>
        parts term body (.tail _ member)
      cases condition with
      | none =>
          rw [Case.find]
          exact ofRest
      | some term =>
          rw [Case.find]
          refine .bind (parts term body (.head _)) fun tested => ?_
          split
          · exact .pure _
          · exact ofRest

/-- Running statements is built from steps if running each of them is. -/
theorem runAll
    {body : List Action}
    (parts : ∀ action ∈ body, Built place sound caller false (action.run frame scope)) :
    Built place sound caller false (Action.runAll frame scope body) := by
  induction body with
  | nil =>
      rw [Action.runAll]
      exact .pure _
  | cons first rest inductionHypothesis =>
      obtain ⟨ofFirst, ofRest⟩ := List.forall_mem_cons.mp parts
      rw [Action.runAll]
      refine .bind ofFirst fun completion => ?_
      split
      · exact inductionHypothesis ofRest
      · exact .pure _

theorem runOption
    {alternative : Option (List Action)}
    (parts : ∀ action ∈ alternative.getD [],
      Built place sound caller false (action.run frame scope)) :
    Built place sound caller false (Action.runOption frame scope alternative) := by
  cases alternative with
  | none =>
      rw [Action.runOption]
      exact .pure _
  | some body =>
      rw [Action.runOption]
      exact .runAll parts

theorem start
    {start : Option Action}
    (part : ∀ action ∈ start, Built place sound caller false (action.run frame scope)) :
    Built place sound caller false (Action.start frame scope start) := by
  cases start with
  | none =>
      rw [Action.start]
      exact .pure _
  | some action =>
      rw [Action.start]
      exact part action rfl

/-- Running the cases of a selection is built from steps. -/
theorem runFrom
    {cases : List Case}
    (skipped : Nat)
    (parts : ∀ condition body, .mk condition body ∈ cases → ∀ action ∈ body,
      Built place sound caller false (action.run frame scope)) :
    Built place sound caller false (Case.runFrom frame scope skipped cases) := by
  induction cases generalizing skipped with
  | nil =>
      rw [Case.runFrom]
      exact .pure _
  | cons first rest inductionHypothesis =>
      obtain ⟨condition, body⟩ := first
      have ofRest (skipped : Nat) := inductionHypothesis skipped fun condition body member =>
        parts condition body (.tail _ member)
      cases skipped with
      | succ skipped =>
          rw [Case.runFrom]
          exact ofRest skipped
      | zero =>
          rw [Case.runFrom]
          refine .bind (.runAll (parts condition body (.head _))) fun completion => ?_
          split
          · exact ofRest 0
          · exact .pure _
          · exact .pure _

end Run.Built

/-! ## Each term and each statement -/

open Run (Built Uniform)

section

variable {place : Position → Prop} {free : Jump → Prop} {sound : Routine → Prop}
  {caller : Caller → Prop} {frame : Frame}

/-- Where it fits, code is built from steps when it runs, and its errors have a place. -/
def Code.building
    (place : Position → Prop)
    (free : Jump → Prop)
    (sound : Routine → Prop)
    (caller : Caller → Prop)
    (frame : Frame) : Code.Claims where
  ofTerm term := term.Fits place free → ∀ scope,
    Built place sound caller false (term.eval frame scope)
  ofKey key := key.Fits place free → ∀ scope,
    Built place sound caller true (key.eval frame scope)
  ofPlace target := target.Fits place free → ∀ scope,
    Built place sound caller true (target.eval frame scope)
  ofRoutine _ := True
  ofAction action := ∀ {jumps}, action.Fits place free jumps → ∀ scope,
    Built place sound caller false (action.run frame scope)

namespace Code.building

section

variable (sounds : ∀ routine, Routine.Fits place free routine → sound routine)

include sounds

/-- Evaluating a fitting term is built from steps. -/
theorem termCases
    (calls : ∀ callee this arguments,
      Built place sound caller true (frame.call callee this arguments)) :
    (building place free sound caller frame).TermCases where
  constant _ scope := by
    rw [Term.eval]
    exact .pure _
  this _ scope := by
    rw [Term.eval]
    exact .pure _
  pattern _ scope := by
    rw [Term.eval]
    exact .makePattern _
  array parts fits scope := by
    cases fits with
    | array fits =>
      rw [Term.eval]
      exact .bind (.evalAll fun term member => parts term member (fits term member) scope)
        fun _ => .makeArray _
  object parts fits scope := by
    cases fits with
    | object fits =>
      rw [Term.eval]
      refine .bind (.makeObject fun _ _ isClosure => nomatch isClosure) fun id => ?_
      refine .bind (.evalEntries id fun key value member => ?_) fun _ => .pure _
      cases fits _ member with
      | mk fitsValue => exact parts _ member fitsValue scope
  closure _ fits scope := by
    cases fits with
    | closure fits =>
      rw [Term.eval]
      split
      · exact .makeClosure (sounds _ fits) scope
      · refine .bind (.makeScope _ _) fun inner => ?_
        refine .bind (.makeClosure (sounds _ fits) inner) fun value => ?_
        exact .bind (.changeScopes _) fun _ => .pure _
  unary operand fits scope := by
    cases fits with
    | unary fits isPlace =>
      rw [Term.eval]
      refine .bind (operand fits scope) fun _ => ?_
      exact .locate isPlace ((Uniform.unary _ _).built calls)
  typeofVariable _ scope := by
    rw [Term.eval]
    exact .scopes (fun machine other same => by rw [same]) fun _ => .pure _
  typeof operand fits scope := by
    cases fits with
    | typeof fits =>
      rw [Term.eval]
      exact .bind (operand fits scope) fun _ => .pure _
  delete target fits scope := by
    cases fits with
    | delete fits isPlace =>
      rw [Term.eval]
      refine .locate isPlace (.bind (target fits scope) fun reference => ?_)
      exact .bind ((Uniform.eraseReference scope reference).built calls) fun _ => .pure _
  strict left right fits scope := by
    cases fits with
    | strict fitsLeft fitsRight isPlace =>
      rw [Term.eval]
      refine .bind (left fitsLeft scope) fun _ => .bind (right fitsRight scope) fun _ => ?_
      exact .locate isPlace ((Uniform.binary _ _ _).built calls)
  both left right fits scope := by
    cases fits with
    | both fitsLeft fitsRight =>
      rw [Term.eval]
      refine .bind (left fitsLeft scope) fun value => ?_
      split
      · exact right fitsRight scope
      · exact .pure _
  either left right fits scope := by
    cases fits with
    | either fitsLeft fitsRight =>
      rw [Term.eval]
      refine .bind (left fitsLeft scope) fun value => ?_
      split
      · exact .pure _
      · exact right fitsRight scope
  read target fits scope := by
    cases fits with
    | read fits isPlace =>
      rw [Term.eval]
      refine .locate isPlace (.bind (target fits scope) fun reference => ?_)
      exact (Uniform.readReference scope reference).built calls
  assign target value fits scope := by
    cases fits with
    | assign fits fitsValue isPlace =>
      rw [Term.eval]
      refine .locate isPlace (.bind (target fits scope) fun reference => ?_)
      refine .bind (value fitsValue scope).toBare fun _ => ?_
      exact .bind ((Uniform.writeReference scope _ reference).built calls) fun _ => .pure _
  combine target value fits scope := by
    cases fits with
    | combine fits fitsValue isPlace =>
      rw [Term.eval]
      refine .locate isPlace (.bind (target fits scope) fun reference => ?_)
      refine .bind ((Uniform.readReference scope reference).built calls) fun current => ?_
      refine .bind (value fitsValue scope).toBare fun _ => ?_
      refine .bind ((Uniform.binary _ current _).built calls) fun result => ?_
      exact .bind ((Uniform.writeReference scope _ reference).built calls) fun _ => .pure _
  update target fits scope := by
    cases fits with
    | update fits isPlace =>
      rw [Term.eval]
      refine .locate isPlace (.bind (target fits scope) fun reference => ?_)
      exact (Uniform.updateReference scope _ _ reference).built calls
  conditional condition consequence alternative fits scope := by
    cases fits with
    | conditional fits fitsThen fitsElse =>
      rw [Term.eval]
      refine .bind (condition fits scope) fun value => ?_
      split
      · exact consequence fitsThen scope
      · exact alternative fitsElse scope
  sequence parts fits scope := by
    cases fits with
    | sequence fits =>
      rw [Term.eval]
      exact .bind (.evalAll fun term member => parts term member (fits term member) scope)
        fun _ => .pure _
  call callee parts fits scope := by
    cases fits with
    | call fits fitsAll isPlace =>
      rw [Term.eval]
      refine .bind (callee fits scope) fun _ => ?_
      refine .bind (.evalAll fun term member => parts term member (fitsAll term member) scope) ?_
      exact fun _ => .callNamed calls _ _ _ _ isPlace
  callMethod base key parts fits scope := by
    cases fits with
    | callMethod fits fitsKey fitsAll isPlace =>
      rw [Term.eval]
      refine .bind (base fits scope) fun receiver => ?_
      refine .bind (.locate isPlace (.bind (key fitsKey scope) fun name => ?_)) fun method => ?_
      · exact (Uniform.read receiver name).built calls
      · refine .bind (.evalAll fun term member => parts term member (fitsAll term member) scope) ?_
        exact fun _ => .callNamed calls _ _ _ _ isPlace
  construct constructor parts fits scope := by
    cases fits with
    | construct fits fitsAll isPlace =>
      rw [Term.eval]
      refine .bind (constructor fits scope) fun _ => ?_
      refine .bind (.evalAll fun term member => parts term member (fitsAll term member) scope) ?_
      exact fun _ => .locate isPlace ((Uniform.construct _ _).built calls)
  fixed _ scope := by
    rw [Key.eval]
    exact .pure _
  computed term fits scope := by
    cases fits with
    | computed fits =>
      rw [Key.eval]
      exact .bind (term fits scope).toBare fun _ => (Uniform.toText _).built calls
  variablePlace _ scope := by
    rw [Place.eval]
    exact .pure _
  propertyPlace base key fits scope := by
    cases fits with
    | property fits fitsKey =>
      rw [Place.eval]
      refine .bind (base fits scope).toBare fun _ => ?_
      exact .bind (key fitsKey scope) fun _ => .pure _

/-- Running a fitting statement is built from steps. -/
theorem actionCases : (building place free sound caller frame).ActionCases where
  routine _ := trivial
  evaluate term _ fits scope := by
    cases fits with
    | evaluate fits =>
      rw [Action.run]
      exact .bind (term fits scope) fun _ => .pure _
  check condition _ fits scope := by
    cases fits with
    | check fits isPlace =>
      rw [Action.run]
      refine .bind (condition fits scope) fun value => ?_
      split
      · exact .pure _
      · exact .raise (.assertion _) isPlace
  declare parts _ fits scope := by
    cases fits with
    | declare fits =>
      rw [Action.run]
      refine .bind (.declareAll fun name term member => ?_) fun _ => .pure _
      cases fits _ member with
      | mk fitsValue => exact parts _ member term rfl (fitsValue term rfl) scope
  define _ _ fits scope := by
    cases fits with
    | define fits =>
      rw [Action.run]
      refine .bind (.makeClosure (sounds _ fits) scope) fun value => ?_
      exact .bind (.changeScopes _) fun _ => .pure _
  giveBack part _ fits scope := by
    cases fits with
    | giveBack fits =>
      rw [Action.run]
      exact .bind (.evalOption fun term isTerm => part term isTerm (fits term isTerm) scope)
        fun _ => .pure _
  block parts _ fits scope := by
    cases fits with
    | block fits =>
      rw [Action.run]
      exact .runAll fun action member => parts action member (fits action member) scope
  branch condition consequence alternative _ fits scope := by
    cases fits with
    | branch fits fitsThen fitsElse =>
      rw [Action.run]
      refine .bind (condition fits scope) fun value => ?_
      split
      · exact .runAll fun action member => consequence action member (fitsThen action member) scope
      · exact .runOption fun action member =>
          alternative action member (fitsElse action member) scope
  whileLoop condition parts _ fits scope := by
    cases fits with
    | whileLoop fits fitsBody =>
      rw [Action.run]
      refine .bind (.makeScope _ _) fun inner => ?_
      refine .turns _ (.bind (condition fits inner) fun _ => .pure _) (.runAll ?_) (.pure _) _
      exact fun action member => parts action member (fitsBody action member) inner
  forLoop start condition update parts _ fits scope := by
    cases fits with
    | forLoop fitsStart fits fitsUpdate fitsBody =>
      rw [Action.run]
      refine .bind (.start fun action isStart => start action isStart (fitsStart _ isStart) scope) ?_
      refine fun _ => .bind (.makeScope _ _) fun inner => ?_
      refine .turns _ (.test ?_) (.runAll ?_) (.bind (.evalOption ?_) fun _ => .pure _) _
      · exact fun term isTerm => condition term isTerm (fits term isTerm) inner
      · exact fun action member => parts action member (fitsBody action member) inner
      · exact fun term isTerm => update term isTerm (fitsUpdate term isTerm) inner
  forIn {labels name _ subject body} ofSubject parts _ fits scope := by
    cases fits with
    | forIn fits fitsBody =>
      rw [Action.run]
      have visit : Built place sound caller false (do
          let value ← subject.eval frame scope
          let inner ← Run.makeScope (some scope) false
          let keys := (← Run.heap).keys value
          Run.rounds labels inner name (Action.runAll frame inner body) keys) := by
        refine .bind (ofSubject fits scope) fun value => ?_
        refine .bind (.makeScope _ _) fun inner => .heap fun heap _ => ?_
        refine .rounds labels inner name (.runAll ?_) _
        exact fun action member => parts action member (fitsBody action member) inner
      split
      · exact .bind (.changeScopes _) fun _ => visit
      · exact visit
  labeled parts _ fits scope := by
    cases fits with
    | labeled fits =>
      rw [Action.run]
      refine .bind (.makeScope _ _) fun inner => .bind (.runAll ?_) fun _ => .pure _
      exact fun action member => parts action member (fits action member) inner
  leave _ scope := by
    rw [Action.run]
    exact .pure _
  again _ scope := by
    rw [Action.run]
    exact .pure _
  select subject parts _ fits scope := by
    cases fits with
    | select fits fitsCases =>
      have runs (index : Nat) :
          Built place sound caller false (Case.runFrom frame scope index _) :=
        .runFrom index fun condition body member action inside => by
          cases fitsCases _ member with
          | mk _ fitsBody => exact (parts _ member).2 action inside (fitsBody action inside) scope
      rw [Action.run]
      refine .bind (subject fits scope) fun value => ?_
      refine .bind (.find value 0 fun term body member => ?_) fun found => ?_
      · cases fitsCases _ member with
        | mk fitsTerm _ => exact (parts _ member).1 term rfl (fitsTerm term rfl) scope
      · split
        · exact runs _
        · split
          · exact runs _
          · exact .pure _

/-- Running fitting code is built from steps if the calls from it are. -/
theorem holds
    (calls : ∀ callee this arguments,
      Built place sound caller true (frame.call callee this arguments)) :
    (building place free sound caller frame).Cases :=
  ⟨termCases sounds calls, actionCases sounds⟩

end

end Code.building

/-- Running fitting statements is built from steps. -/
theorem Action.runAll_built
    (sounds : ∀ routine, Routine.Fits place free routine → sound routine)
    (calls : ∀ callee this arguments,
      Built place sound caller true (frame.call callee this arguments))
    {jumps : Jump → Prop}
    (scope : Nat)
    {body : List Action}
    (fits : ∀ action ∈ body, action.Fits place free jumps) :
    Built place sound caller false (Action.runAll frame scope body) :=
  .runAll fun action member =>
    (Code.building.holds sounds calls).ofAction action (fits action member) scope

end

namespace Run

variable {place : Position → Prop} {free : Jump → Prop} {caller : Caller → Prop}

/-- Calling a fitting function is built from steps if the calls from its body are. -/
theorem Built.invoke
    {sound : Routine → Prop}
    {call : Caller}
    (sounds : ∀ routine, Routine.Fits place free routine → sound routine)
    (calls : ∀ callee this arguments,
      Built place sound caller true (call callee this arguments))
    (patience : Nat)
    (callee this : Value)
    (arguments : List Value)
    {routine : Routine}
    (fits : routine.Fits place free)
    (scope : Nat) :
    Built place sound caller true
      (Run.invoke call patience callee this arguments routine scope) := by
  cases fits with
  | mk fitsBody =>
      refine .bind (.makeObject fun _ _ isClosure => nomatch isClosure) fun list => ?_
      refine .bind (.makeScope _ _) fun inner => .bind (.changeScopes _) fun _ => ?_
      refine .bind ((Uniform.bindParameters inner _ _).built calls) fun _ => ?_
      have bodyBuilt :
          Built place sound caller false (Action.runAll ⟨call, patience, this⟩ inner _) :=
        Action.runAll_built sounds calls inner fitsBody
      exact .bind bodyBuilt.toBare fun completion => .pure _

/-- A call on a fresh stack is a call like any other. -/
theorem nested_eq_deeper (run : Run α) : nested run = deeper run := by
  funext machine
  unfold nested
  split
  · rfl
  · rfl

/-- A call is built from steps if the calls made by it are. -/
theorem Built.callWithin
    {call : Caller}
    (calls : ∀ callee this arguments,
      Built place (Routine.Fits place free) caller true (call callee this arguments))
    (patience : Nat)
    (callee this : Value)
    (arguments : List Value) :
    Built place (Routine.Fits place free) caller true
      (Run.callWithin call patience callee this arguments) := by
  unfold Run.callWithin
  split
  · refine .heap fun heap fits => ?_
    split
    · rename_i isClosure
      rw [nested_eq_deeper]
      exact .deeper (.invoke (fun _ fits => fits) calls patience _ this arguments
        (fits _ _ _ isClosure) _)
    · exact .heap fun heap _ => .failType _
  · refine .heap fun heap _ => ?_
    split
    · rw [nested_eq_deeper]
      exact .deeper ((Uniform.builtin_run_uniform this arguments _).built calls)
    · exact .heap fun heap _ => .failType _
  · exact .heap fun heap _ => .failType _

/-- Calls are built from steps, however deeply they may nest. -/
theorem Built.callUpTo (patience : Nat) (callee this : Value) (arguments : List Value) :
    Built place (Routine.Fits place free) caller true
      (Run.callUpTo patience callee this arguments) := by
  induction patience generalizing callee this arguments with
  | zero => exact .broken _
  | succ patience inductionHypothesis =>
      exact .callWithin inductionHypothesis patience callee this arguments

end Run

namespace Code

variable {place : Position → Prop} {free : Jump → Prop} {sound : Routine → Prop}
  {caller : Caller → Prop}

/-- The statements of a program are run one after the other. -/
theorem runMain_built
    {frame : Frame}
    (sounds : ∀ routine, Routine.Fits place free routine → sound routine)
    (calls : ∀ callee this arguments,
      Built place sound caller true (frame.call callee this arguments))
    (scope : Nat)
    (result : Value)
    {main : List Action}
    (fits : ∀ action ∈ main, action.Fits place free free) :
    Built place sound caller false (runMain frame scope result main) := by
  induction main generalizing result with
  | nil => exact .pure _
  | cons action rest inductionHypothesis =>
      obtain ⟨fitsFirst, fitsRest⟩ := List.forall_mem_cons.mp fits
      refine .bind ((building.holds sounds calls).ofAction action fitsFirst scope) fun completion => ?_
      split
      · exact inductionHypothesis _ fitsRest
      · exact .pure _
      · exact inductionHypothesis _ fitsRest

/-- Running statements that fit is built from steps, and every error has a place. -/
theorem runIn_built
    {code : Code}
    (fits : ∀ action ∈ code.main, action.Fits place free free)
    (scope : Nat) :
    Built place (Routine.Fits place free) caller false (code.runIn scope) :=
  runMain_built (fun _ fits => fits) (Built.callUpTo Run.unlimited) scope _ fits

/-- With all places allowed and all jumps free, any code fits. -/
theorem runIn_built_of_any (code : Code) (scope : Nat) :
    Built (fun _ => True) (Routine.Fits (fun _ => True) (fun _ => True)) caller false
      (code.runIn scope) :=
  runIn_built
    (fun action _ => action.fits_of_free (fun _ => trivial) (fun _ => trivial) fun _ => trivial)
    scope

end Code

/-- With all places allowed and all jumps free, any function fits. -/
theorem Heap.allSound_of_any (heap : Heap) :
    heap.AllSound (Routine.Fits (fun _ => True) (fun _ => True)) :=
  fun _ routine _ _ => routine.fits_of_free (fun _ => trivial) fun _ => trivial

end ScriptEngine
