import ScriptEngine.Machine.Evaluation
import ScriptEngine.Proofs.Code.TreeInduction

namespace ScriptEngine

/-!
# Code whose jumps have a target

A jump out of a statement is meant for a statement around it: a loop, a selection
or a statement under a label.  Code fits its surroundings when every jump in it
has such a target, and functions fit on their own, since no jump crosses the
border of a function.  Fitting code also shows only places from a given set, so
that what is known of places in the code is known of the errors it raises.

The rules follow the constructors of code, one rule for each.  They leave open
which jumps are free to stand in a function without a target.  Lowered code fits
with none free; with all of them free and all places allowed every code fits.
-/

/-- A way out of a statement that is neither its end nor a return. -/
inductive Jump where
  | leave (label : Option String)
  | again (label : Option String)
  deriving DecidableEq, Repr

/-- The jump a statement completed by, if it was one. -/
def Completion.jump? : Completion → Option Jump
  | .normal _ | .returned _ => none
  | .left label => some (.leave label)
  | .again label => some (.again label)

namespace Action

/-- The labels a statement carries. -/
def labels : Action → List String
  | .whileLoop labels _ _ | .forLoop labels _ _ _ _ | .forIn labels _ _ _ _
  | .labeled labels _ => labels
  | _ => []

/-- Whether a statement is a loop. -/
def isLoop : Action → Bool
  | .whileLoop _ _ _ | .forLoop _ _ _ _ _ | .forIn _ _ _ _ _ => true
  | _ => false

/-- Whether a statement is a selection. -/
def isSelect : Action → Bool
  | .select _ _ => true
  | _ => false

/--
Whether a statement is the target of a jump from inside it.  A jump without a
label is meant for a loop or, when it leaves, also for a selection; one with a
label is meant for a statement that carries it, which has to be a loop to go on
with.
-/
def catches (action : Action) : Jump → Bool
  | .leave none => action.isLoop || action.isSelect
  | .leave (some label) => action.labels.contains label
  | .again none => action.isLoop
  | .again (some label) => action.isLoop && action.labels.contains label

/-- The jumps that have a target inside a statement, given those that have one around it. -/
def inside
    (action : Action)
    (jumps : Jump → Prop) :
    Jump → Prop :=
  fun jump => action.catches jump = true ∨ jumps jump

/-- The statements directly inside a statement, in the same function. -/
def parts : Action → List Action
  | .block body => body
  | .branch _ consequence alternative => consequence ++ alternative.getD []
  | .whileLoop _ _ body => body
  | .forLoop _ start _ _ body => start.toList ++ body
  | .forIn _ _ _ _ body => body
  | .labeled _ body => body
  | .select _ cases => cases.flatMap fun
      | .mk _ body => body
  | _ => []

end Action

mutual

/-- Terms whose places are all from a set and whose functions fit. -/
inductive Term.Fits (place : Position → Prop) (free : Jump → Prop) : Term → Prop where
  | constant (value : Constant) : Term.Fits place free (.constant value)
  | this : Term.Fits place free .this
  | pattern (pattern : Pattern) : Term.Fits place free (.pattern pattern)
  | array {elements : List Term} :
      (∀ element ∈ elements, Term.Fits place free element) →
      Term.Fits place free (.array elements)
  | object {entries : List Entry} :
      (∀ entry ∈ entries, Entry.Fits place free entry) →
      Term.Fits place free (.object entries)
  | closure {routine : Routine} :
      Routine.Fits place free routine →
      Term.Fits place free (.closure routine)
  | unary {operator : UnaryOperator} {operand : Term} {position : Position} :
      Term.Fits place free operand →
      place position →
      Term.Fits place free (.unary operator operand position)
  | typeofVariable (name : String) : Term.Fits place free (.typeofVariable name)
  | typeof {operand : Term} :
      Term.Fits place free operand →
      Term.Fits place free (.typeof operand)
  | delete {target : Place} {position : Position} :
      Place.Fits place free target →
      place position →
      Term.Fits place free (.delete target position)
  | strict {operator : BinaryOperator} {left right : Term} {position : Position} :
      Term.Fits place free left →
      Term.Fits place free right →
      place position →
      Term.Fits place free (.strict operator left right position)
  | both {left right : Term} :
      Term.Fits place free left →
      Term.Fits place free right →
      Term.Fits place free (.both left right)
  | either {left right : Term} :
      Term.Fits place free left →
      Term.Fits place free right →
      Term.Fits place free (.either left right)
  | read {target : Place} {position : Position} :
      Place.Fits place free target →
      place position →
      Term.Fits place free (.read target position)
  | assign {target : Place} {value : Term} {position : Position} :
      Place.Fits place free target →
      Term.Fits place free value →
      place position →
      Term.Fits place free (.assign target value position)
  | combine {operator : BinaryOperator} {target : Place} {value : Term} {position : Position} :
      Place.Fits place free target →
      Term.Fits place free value →
      place position →
      Term.Fits place free (.combine operator target value position)
  | update {operator : UpdateOperator} {fixity : Fixity} {target : Place} {position : Position} :
      Place.Fits place free target →
      place position →
      Term.Fits place free (.update operator fixity target position)
  | conditional {condition consequence alternative : Term} :
      Term.Fits place free condition →
      Term.Fits place free consequence →
      Term.Fits place free alternative →
      Term.Fits place free (.conditional condition consequence alternative)
  | sequence {terms : List Term} :
      (∀ term ∈ terms, Term.Fits place free term) →
      Term.Fits place free (.sequence terms)
  | call {callee : Term} {arguments : List Term} {shown : String} {position : Position} :
      Term.Fits place free callee →
      (∀ argument ∈ arguments, Term.Fits place free argument) →
      place position →
      Term.Fits place free (.call callee arguments shown position)
  | callMethod {base : Term} {key : Key} {arguments : List Term} {shown : String}
      {position : Position} :
      Term.Fits place free base →
      Key.Fits place free key →
      (∀ argument ∈ arguments, Term.Fits place free argument) →
      place position →
      Term.Fits place free (.callMethod base key arguments shown position)
  | construct {constructor : Term} {arguments : List Term} {position : Position} :
      Term.Fits place free constructor →
      (∀ argument ∈ arguments, Term.Fits place free argument) →
      place position →
      Term.Fits place free (.construct constructor arguments position)

/-- Keys whose term fits. -/
inductive Key.Fits (place : Position → Prop) (free : Jump → Prop) : Key → Prop where
  | fixed (name : String) : Key.Fits place free (.fixed name)
  | computed {term : Term} :
      Term.Fits place free term →
      Key.Fits place free (.computed term)

/-- Places to assign to whose terms fit. -/
inductive Place.Fits (place : Position → Prop) (free : Jump → Prop) : Place → Prop where
  | variable (name : String) : Place.Fits place free (.variable name)
  | property {base : Term} {key : Key} :
      Term.Fits place free base →
      Key.Fits place free key →
      Place.Fits place free (.property base key)

/-- Properties whose value fits. -/
inductive Entry.Fits (place : Position → Prop) (free : Jump → Prop) : Entry → Prop where
  | mk {key : String} {value : Term} :
      Term.Fits place free value →
      Entry.Fits place free (.mk key value)

/-- Functions whose body fits with no target around it but for free jumps. -/
inductive Routine.Fits (place : Position → Prop) (free : Jump → Prop) : Routine → Prop where
  | mk {number : Nat} {name : String} {parameters : List String} {body : List Action}
      {endsInReturn : Bool} :
      (∀ action ∈ body, Action.Fits place free free action) →
      Routine.Fits place free (.mk number name parameters body endsInReturn)

/-- Declared variables whose value fits. -/
inductive Binding.Fits (place : Position → Prop) (free : Jump → Prop) : Binding → Prop where
  | mk {name : String} {value : Option Term} :
      (∀ term ∈ value, Term.Fits place free term) →
      Binding.Fits place free (.mk name value)

/-- Cases whose condition fits and whose body fits among jumps. -/
inductive Case.Fits (place : Position → Prop) (free : Jump → Prop) :
    (Jump → Prop) → Case → Prop where
  | mk {jumps : Jump → Prop} {condition : Option Term} {body : List Action} :
      (∀ term ∈ condition, Term.Fits place free term) →
      (∀ action ∈ body, Action.Fits place free jumps action) →
      Case.Fits place free jumps (.mk condition body)

/-- Statements that fit where the given jumps have a target around them. -/
inductive Action.Fits (place : Position → Prop) (free : Jump → Prop) :
    (Jump → Prop) → Action → Prop where
  | evaluate {jumps : Jump → Prop} {term : Term} :
      Term.Fits place free term →
      Action.Fits place free jumps (.evaluate term)
  | check {jumps : Jump → Prop} {condition : Term} {shown : String} {position : Position} :
      Term.Fits place free condition →
      place position →
      Action.Fits place free jumps (.check condition shown position)
  | declare {jumps : Jump → Prop} {bindings : List Binding} :
      (∀ binding ∈ bindings, Binding.Fits place free binding) →
      Action.Fits place free jumps (.declare bindings)
  | define {jumps : Jump → Prop} {routine : Routine} :
      Routine.Fits place free routine →
      Action.Fits place free jumps (.define routine)
  | giveBack {jumps : Jump → Prop} {value : Option Term} :
      (∀ term ∈ value, Term.Fits place free term) →
      Action.Fits place free jumps (.giveBack value)
  | block {jumps : Jump → Prop} {body : List Action} :
      (∀ action ∈ body, Action.Fits place free jumps action) →
      Action.Fits place free jumps (.block body)
  | branch {jumps : Jump → Prop} {condition : Term} {consequence : List Action}
      {alternative : Option (List Action)} :
      Term.Fits place free condition →
      (∀ action ∈ consequence, Action.Fits place free jumps action) →
      (∀ action ∈ alternative.getD [], Action.Fits place free jumps action) →
      Action.Fits place free jumps (.branch condition consequence alternative)
  | whileLoop {jumps : Jump → Prop} {labels : List String} {condition : Term}
      {body : List Action} :
      Term.Fits place free condition →
      (∀ action ∈ body,
        Action.Fits place free ((Action.whileLoop labels condition body).inside jumps) action) →
      Action.Fits place free jumps (.whileLoop labels condition body)
  | forLoop {jumps : Jump → Prop} {labels : List String} {start : Option Action}
      {condition update : Option Term} {body : List Action} :
      (∀ action ∈ start,
        Action.Fits place free
          ((Action.forLoop labels start condition update body).inside jumps) action) →
      (∀ term ∈ condition, Term.Fits place free term) →
      (∀ term ∈ update, Term.Fits place free term) →
      (∀ action ∈ body,
        Action.Fits place free
          ((Action.forLoop labels start condition update body).inside jumps) action) →
      Action.Fits place free jumps (.forLoop labels start condition update body)
  | forIn {jumps : Jump → Prop} {labels : List String} {name : String} {declares : Bool}
      {subject : Term} {body : List Action} :
      Term.Fits place free subject →
      (∀ action ∈ body,
        Action.Fits place free
          ((Action.forIn labels name declares subject body).inside jumps) action) →
      Action.Fits place free jumps (.forIn labels name declares subject body)
  | labeled {jumps : Jump → Prop} {labels : List String} {body : List Action} :
      (∀ action ∈ body,
        Action.Fits place free ((Action.labeled labels body).inside jumps) action) →
      Action.Fits place free jumps (.labeled labels body)
  | leave {jumps : Jump → Prop} {label : Option String} :
      jumps (.leave label) →
      Action.Fits place free jumps (.leave label)
  | again {jumps : Jump → Prop} {label : Option String} :
      jumps (.again label) →
      Action.Fits place free jumps (.again label)
  | select {jumps : Jump → Prop} {subject : Term} {cases : List Case} :
      Term.Fits place free subject →
      (∀ clause ∈ cases,
        Case.Fits place free ((Action.select subject cases).inside jumps) clause) →
      Action.Fits place free jumps (.select subject cases)

end

section

variable {place : Position → Prop} {free : Jump → Prop}

/-- Code fits, and statements fit wherever all jumps have a target. -/
def Code.fittingFree (place : Position → Prop) (free : Jump → Prop) : Code.Claims where
  ofTerm term := term.Fits place free
  ofKey key := key.Fits place free
  ofPlace target := target.Fits place free
  ofRoutine routine := routine.Fits place free
  ofAction action := ∀ jumps : Jump → Prop, (∀ jump, jumps jump) → action.Fits place free jumps

section

variable (anyPlace : ∀ position, place position) (anyJump : ∀ jump, free jump)

include anyPlace anyJump

/-- All code fits where all places are allowed and all jumps are free. -/
theorem Code.fittingFree_cases : (Code.fittingFree place free).Cases where
  terms := {
    constant := .constant _
    this := .this
    pattern := .pattern _
    array := .array
    object := fun parts => .object fun | .mk _ _, member => .mk (parts _ member)
    closure := .closure
    unary := fun operand => .unary operand (anyPlace _)
    typeofVariable := .typeofVariable _
    typeof := .typeof
    delete := fun target => .delete target (anyPlace _)
    strict := fun left right => .strict left right (anyPlace _)
    both := .both
    either := .either
    read := fun target => .read target (anyPlace _)
    assign := fun target value => .assign target value (anyPlace _)
    combine := fun target value => .combine target value (anyPlace _)
    update := fun target => .update target (anyPlace _)
    conditional := .conditional
    sequence := .sequence
    call := fun callee parts => .call callee parts (anyPlace _)
    callMethod := fun base key parts => .callMethod base key parts (anyPlace _)
    construct := fun constructor parts => .construct constructor parts (anyPlace _)
    fixed := .fixed _
    computed := .computed
    variablePlace := .variable _
    propertyPlace := .property }
  actions := {
    routine := fun body => .mk fun action member => body action member _ anyJump
    evaluate := fun term _ _ => .evaluate term
    check := fun condition _ _ => .check condition (anyPlace _)
    declare := fun parts _ _ => .declare fun | .mk _ _, member => .mk (parts _ member)
    define := fun routine _ _ => .define routine
    giveBack := fun value _ _ => .giveBack value
    block := fun body _ any => .block fun action member => body action member _ any
    branch := fun condition consequence alternative _ any =>
      .branch condition (fun action member => consequence action member _ any)
        fun action member => alternative action member _ any
    whileLoop := fun condition body _ any =>
      .whileLoop condition fun action member => body action member _ fun _ => .inr (any _)
    forLoop := fun start condition update body _ any =>
      .forLoop (fun action member => start action member _ fun _ => .inr (any _)) condition update
        fun action member => body action member _ fun _ => .inr (any _)
    forIn := fun subject body _ any =>
      .forIn subject fun action member => body action member _ fun _ => .inr (any _)
    labeled := fun body _ any =>
      .labeled fun action member => body action member _ fun _ => .inr (any _)
    leave := fun _ any => .leave (any _)
    again := fun _ any => .again (any _)
    select := fun subject parts _ any => .select subject fun
      | .mk _ _, member =>
          .mk (parts _ member).1 fun action inside =>
            (parts _ member).2 action inside _ fun _ => .inr (any _) }

/-- Every function fits where all places are allowed and all jumps are free. -/
theorem Routine.fits_of_free (routine : Routine) : routine.Fits place free :=
  (Code.fittingFree_cases anyPlace anyJump).ofRoutine routine

/-- Every statement fits where all places are allowed and all jumps have a target. -/
theorem Action.fits_of_free
    {jumps : Jump → Prop}
    (anyTarget : ∀ jump, jumps jump)
    (action : Action) :
    action.Fits place free jumps :=
  (Code.fittingFree_cases anyPlace anyJump).ofAction action jumps anyTarget

end

end

namespace Action

variable {place : Position → Prop} {free jumps : Jump → Prop}

/-- A statement that is no target adds none. -/
theorem inside_eq_self
    {action : Action}
    (noLabels : action.labels = [])
    (noLoop : action.isLoop = false)
    (noSelect : action.isSelect = false) :
    action.inside jumps = jumps := by
  funext jump
  rcases jump with (_ | label) | (_ | label) <;>
    simp [inside, catches, noLabels, noLoop, noSelect]

/-- What stands inside a fitting statement fits where that statement is a target too. -/
theorem Fits.part
    {outer inner : Action}
    (fits : outer.Fits place free jumps)
    (member : inner ∈ outer.parts) :
    inner.Fits place free (outer.inside jumps) := by
  cases fits with
  | block body =>
      rw [inside_eq_self rfl rfl rfl]
      exact body inner member
  | branch _ consequence alternative =>
      rw [inside_eq_self rfl rfl rfl]
      rcases List.mem_append.mp member with inConsequence | inAlternative
      · exact consequence inner inConsequence
      · exact alternative inner inAlternative
  | whileLoop _ body => exact body inner member
  | forLoop start _ _ body =>
      rcases List.mem_append.mp member with inStart | inBody
      · exact start inner (by simpa using inStart)
      · exact body inner inBody
  | forIn _ body => exact body inner member
  | labeled body => exact body inner member
  | select _ cases =>
      obtain ⟨⟨condition, body⟩, inCases, inBody⟩ := List.mem_flatMap.mp member
      rcases cases _ inCases with ⟨-, fitsBody⟩
      exact fitsBody inner inBody
  | evaluate | check | declare | define | giveBack | leave | again => simp [parts] at member

/--
A statement stands in the body of a function inside some of its statements, the
innermost of them first.
-/
inductive Stands (body : List Action) : List Action → Action → Prop where
  | top {action : Action} :
      action ∈ body →
      Stands body [] action
  | inner {around : List Action} {outer action : Action} :
      Stands body around outer →
      action ∈ outer.parts →
      Stands body (outer :: around) action

/-- The jumps that have a target among the statements around. -/
def caughtBy (around : List Action) : Jump → Prop :=
  fun jump => ∃ outer ∈ around, outer.catches jump = true

/-- One more statement around adds its own targets. -/
theorem caughtBy_cons (outer : Action) (around : List Action) :
    caughtBy (outer :: around) = outer.inside (caughtBy around) := by
  funext jump
  simp [caughtBy, inside]

/-- In a fitting body every statement fits among the targets around it. -/
theorem Stands.fits
    {body around : List Action}
    {action : Action}
    (stands : Stands body around action)
    (bodyFits : ∀ first ∈ body, first.Fits place free (fun _ => False)) :
    action.Fits place free (caughtBy around) := by
  induction stands with
  | top member =>
      have nowhere : caughtBy [] = fun _ => False := by
        funext jump
        simp [caughtBy]
      rw [nowhere]
      exact bodyFits _ member
  | inner _ member inductionHypothesis =>
      rw [caughtBy_cons]
      exact inductionHypothesis.part member

end Action

end ScriptEngine
