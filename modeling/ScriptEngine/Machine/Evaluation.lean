import ScriptEngine.Builtin.Run

namespace ScriptEngine

/-!
# Running code

Terms are evaluated from left to right and statements run one after the other.
A jump is a way for a statement to complete; loops, selections and labels stop the
jumps that are meant for them.  The evaluator follows the code; the bodies of
functions are reached through a `Caller`, and how often calls may nest and loops
may turn is bounded by a number that stands for unlimited patience.
-/

/-- How a statement completed. -/
inductive Completion where
  | normal (value : Value)
  | returned (value : Value)
  | left (label : Option String)
  | again (label : Option String)

namespace Completion

/-- Whether a jump without a label or with one of the given ones is meant. -/
def targets (labels : List String) : Option String → Bool
  | none => true
  | some label => labels.contains label

/-- How a loop under labels completes after a round, if it does. -/
def leavesLoop? (labels : List String) : Completion → Option Completion
  | normal _ => none
  | returned value => some (returned value)
  | left label => some (if targets labels label then normal .undefined else left label)
  | again label => if targets labels label then none else some (again label)

/-- How a statement under labels completes. -/
def underLabels (labels : List String) : Completion → Completion
  | left (some label) => if labels.contains label then normal .undefined else left (some label)
  | completion => completion

/-- The result of a function whose body completed so. -/
def result : Completion → Value
  | returned value => value
  | _ => .undefined

end Completion

/-- An evaluated place: a variable or a property of a value. -/
inductive Reference where
  | variable (name : String)
  | property (base : Value) (key : String)

namespace Run

/-- Read a reference from a scope. -/
def readReference (scope : Nat) : Reference → Run Value
  | .variable name => do
      match (← get).scopes.lookup? scope name with
      | some value => pure value
      | none => fail (.unbound name)
  | .property base key => read base key

/-- Write a reference from a scope. -/
def writeReference (call : Caller) (scope : Nat) (value : Value) : Reference → Run Unit
  | .variable name => changeScopes (·.assign scope name value)
  | .property base key => write call base key value

/-- Remove what a reference names; tells whether there was a variable or that is allowed. -/
def eraseReference (scope : Nat) : Reference → Run Bool
  | .variable name => do
      let present := (← get).scopes.has scope name
      changeScopes (·.erase scope name)
      return present
  | .property base key => erase base key

/-- Change a reference by a number; gives the old number or the new one. -/
def updateReference (call : Caller) (scope : Nat) (change : Float) (fixity : Fixity)
    (reference : Reference) : Run Value := do
  let old ← toNumber call (← readReference scope reference)
  let new := old + change
  writeReference call scope (.number new) reference
  return .number (match fixity with
    | .before => new
    | .after => old)

/-- Call what the code of a call names; anything but a function is reported by that name. -/
def callNamed (call : Caller) (callee this : Value) (arguments : List Value) (shown : String)
    (position : Position) : Run Value :=
  locate position <|
    if callee.isCallable then call callee this arguments
    else failType (.notFunction shown)

/-- The turns of a loop: a test, a body and an update. -/
def turns (labels : List String) (test : Run Bool) (body : Run Completion) (update : Run Unit) :
    Nat → Run Completion
  | 0 => throw (.broken .outOfFuel)
  | budget + 1 => do
      if ← test then
        let completion ← body
        match completion.leavesLoop? labels with
        | some outcome => pure outcome
        | none =>
            update
            turns labels test body update budget
      else pure (.normal .undefined)

/-- The rounds of a loop over keys, each bound to a name in the scope of the loop. -/
def rounds (labels : List String) (scope : Nat) (name : String) (body : Run Completion) :
    List String → Run Completion
  | [] => pure (.normal .undefined)
  | key :: keys => do
      changeScopes (·.bind scope name (.string key))
      let completion ← body
      match completion.leavesLoop? labels with
      | some outcome => pure outcome
      | none => rounds labels scope name body keys

/-- Construct by a function: a builtin one makes the object, any other gets a new one. -/
def construct (call : Caller) (constructor : Value) (arguments : List Value) : Run Value := do
  match constructor with
  | .object .builtin id =>
      match (← heap).body id with
      | .builtin builtin =>
          if builtin.isConstructor then deeper (builtin.run call .undefined arguments)
          else failType (.notConstructor builtin.name ((← heap).describe constructor))
      | _ => failType (.notConstructor "" ((← heap).describe constructor))
  | .object .closure id =>
      let prototype := match (← heap).lookup? id "prototype" with
        | some (.object _ prototype) => prototype
        | _ => Heap.objectPrototype
      let created ← makePlain (some prototype)
      let result ← call constructor created arguments
      return if result.isObject then result else created
  | other => failType (.notConstructor "" ((← heap).describe other))

end Run

namespace Constant

/-- The value of a constant. -/
def value : Constant → Value
  | undefined => .undefined
  | number value => .number value
  | string text => .string text
  | boolean value => .boolean value

end Constant

namespace UpdateOperator

/-- The number an operator adds. -/
def change : UpdateOperator → Float
  | increment => 1.0
  | decrement => -1.0

end UpdateOperator

/-- What the code of one function call shares: how to call, a bound on turns, and the receiver. -/
structure Frame where
  call : Caller
  patience : Nat
  this : Value

/-- The place of the default case, if there is one. -/
def Case.defaultIndex? (cases : List Case) : Option Nat :=
  cases.findIdx? fun
    | .mk none _ => true
    | .mk (some _) _ => false

mutual

/-- Evaluate a term. -/
def Term.eval (frame : Frame) (scope : Nat) : Term → Run Value
  | .constant constant => pure constant.value
  | .this => pure frame.this
  | .pattern pattern => Run.makePattern pattern
  | .array elements => do
      let values ← Term.evalAll frame scope elements
      Run.makeArray (Storage.exact values.toArray)
  | .object entries => do
      let id ← Run.makeObject ⟨some Heap.objectPrototype, [], .plain⟩
      Entry.evalAll frame scope id entries
      return .object .plain id
  | .closure routine => do
      if routine.name.isEmpty then Run.makeClosure routine scope
      else
        let inner ← Run.makeScope (some scope) false
        let value ← Run.makeClosure routine inner
        Run.changeScopes (·.bind inner routine.name value)
        return value
  | .unary operator operand position => do
      let value ← operand.eval frame scope
      Run.locate position (Run.unary frame.call operator value)
  | .typeofVariable name => do
      let value := ((← get).scopes.lookup? scope name).getD .undefined
      return .string value.typeof
  | .typeof operand => do
      let value ← operand.eval frame scope
      return .string value.typeof
  | .delete place position => Run.locate position do
      let reference ← place.eval frame scope
      return .boolean (← Run.eraseReference scope reference)
  | .strict operator left right position => do
      let left ← left.eval frame scope
      let right ← right.eval frame scope
      Run.locate position (Run.binary frame.call operator left right)
  | .both left right => do
      let value ← left.eval frame scope
      if value.isTruthy then right.eval frame scope else pure value
  | .either left right => do
      let value ← left.eval frame scope
      if value.isTruthy then pure value else right.eval frame scope
  | .read place position => Run.locate position do
      let reference ← place.eval frame scope
      Run.readReference scope reference
  | .assign place value position => Run.locate position do
      let reference ← place.eval frame scope
      let value ← value.eval frame scope
      Run.writeReference frame.call scope value reference
      return value
  | .combine operator place value position => Run.locate position do
      let reference ← place.eval frame scope
      let current ← Run.readReference scope reference
      let value ← value.eval frame scope
      let result ← Run.binary frame.call operator current value
      Run.writeReference frame.call scope result reference
      return result
  | .update operator fixity place position => Run.locate position do
      let reference ← place.eval frame scope
      Run.updateReference frame.call scope operator.change fixity reference
  | .conditional condition consequence alternative => do
      let value ← condition.eval frame scope
      if value.isTruthy then consequence.eval frame scope else alternative.eval frame scope
  | .sequence terms => do
      let values ← Term.evalAll frame scope terms
      return values.getLast?.getD .undefined
  | .call callee arguments shown position => do
      let callee ← callee.eval frame scope
      let arguments ← Term.evalAll frame scope arguments
      Run.callNamed frame.call callee .undefined arguments shown position
  | .callMethod base key arguments shown position => do
      let base ← base.eval frame scope
      let method ← Run.locate position do
        let name ← key.eval frame scope
        Run.read base name
      let arguments ← Term.evalAll frame scope arguments
      Run.callNamed frame.call method base arguments shown position
  | .construct constructor arguments position => do
      let constructor ← constructor.eval frame scope
      let arguments ← Term.evalAll frame scope arguments
      Run.locate position (Run.construct frame.call constructor arguments)

/-- Evaluate a key to the name of a property. -/
def Key.eval (frame : Frame) (scope : Nat) : Key → Run String
  | .fixed name => pure name
  | .computed term => do
      let value ← term.eval frame scope
      Run.toKey frame.call value

/-- Evaluate a place to a reference. -/
def Place.eval (frame : Frame) (scope : Nat) : Place → Run Reference
  | .variable name => pure (.variable name)
  | .property base key => do
      let base ← base.eval frame scope
      let name ← key.eval frame scope
      return .property base name

/-- Evaluate terms from left to right. -/
def Term.evalAll (frame : Frame) (scope : Nat) : List Term → Run (List Value)
  | [] => pure []
  | first :: rest => do
      let value ← first.eval frame scope
      let values ← Term.evalAll frame scope rest
      return value :: values

/-- Evaluate the properties of a new object from left to right. -/
def Entry.evalAll (frame : Frame) (scope id : Nat) : List Entry → Run Unit
  | [] => pure ()
  | .mk key term :: rest => do
      let value ← term.eval frame scope
      Run.changeHeap (·.setOwn id key value)
      Entry.evalAll frame scope id rest

/-- Evaluate a term that may be missing to a truth value, true if it is. -/
def Term.test (frame : Frame) (scope : Nat) : Option Term → Run Bool
  | none => pure true
  | some term => do
      let value ← term.eval frame scope
      return value.isTruthy

/-- Evaluate a term that may be missing, undefined if it is. -/
def Term.evalOption (frame : Frame) (scope : Nat) : Option Term → Run Value
  | none => pure .undefined
  | some term => term.eval frame scope

/-- Declare variables; one without a value keeps the value it has. -/
def Binding.declareAll (frame : Frame) (scope : Nat) : List Binding → Run Unit
  | [] => pure ()
  | .mk name none :: rest => do
      Run.changeScopes fun scopes =>
        if scopes.isDeclared scope name then scopes else scopes.declare scope name .undefined
      Binding.declareAll frame scope rest
  | .mk name (some term) :: rest => do
      let value ← term.eval frame scope
      Run.changeScopes (·.declare scope name value)
      Binding.declareAll frame scope rest

/-- Run a statement. -/
def Action.run (frame : Frame) (scope : Nat) : Action → Run Completion
  | .evaluate term => do
      let value ← term.eval frame scope
      return .normal value
  | .check condition shown position => do
      let value ← condition.eval frame scope
      if value.isTruthy then pure (.normal .undefined)
      else throw (.raised ⟨.assertion shown, some position⟩)
  | .declare bindings => do
      Binding.declareAll frame scope bindings
      return .normal .undefined
  | .define routine => do
      let value ← Run.makeClosure routine scope
      Run.changeScopes (·.declare scope routine.name value)
      return .normal .undefined
  | .giveBack value => do
      let value ← Term.evalOption frame scope value
      return .returned value
  | .block body => Action.runAll frame scope body
  | .branch condition consequence alternative => do
      let value ← condition.eval frame scope
      if value.isTruthy then Action.runAll frame scope consequence
      else Action.runOption frame scope alternative
  | .whileLoop labels condition body => do
      let inner ← Run.makeScope (some scope) false
      let test := do
        let value ← condition.eval frame inner
        return value.isTruthy
      Run.turns labels test (Action.runAll frame inner body) (pure ()) frame.patience
  | .forLoop labels start condition update body => do
      let _ ← Action.start frame scope start
      let inner ← Run.makeScope (some scope) false
      let advance := do
        let _ ← Term.evalOption frame inner update
      Run.turns labels (Term.test frame inner condition) (Action.runAll frame inner body)
        advance frame.patience
  | .forIn labels name declares subject body => do
      if declares then
        Run.changeScopes fun scopes =>
          if scopes.isDeclared scope name then scopes else scopes.declare scope name .undefined
      let value ← subject.eval frame scope
      let inner ← Run.makeScope (some scope) false
      let keys := (← Run.heap).keys value
      Run.rounds labels inner name (Action.runAll frame inner body) keys
  | .labeled labels body => do
      let inner ← Run.makeScope (some scope) false
      let completion ← Action.runAll frame inner body
      return completion.underLabels labels
  | .leave label => pure (.left label)
  | .again label => pure (.again label)
  | .select subject cases => do
      let value ← subject.eval frame scope
      match ← Case.find frame scope value 0 cases with
      | some index => Case.runFrom frame scope index cases
      | none =>
          match Case.defaultIndex? cases with
          | some index => Case.runFrom frame scope index cases
          | none => pure (.normal .undefined)

/-- Run statements until one completes by a jump. -/
def Action.runAll (frame : Frame) (scope : Nat) : List Action → Run Completion
  | [] => pure (.normal .undefined)
  | first :: rest => do
      match ← first.run frame scope with
      | .normal _ => Action.runAll frame scope rest
      | jump => pure jump

/-- Run the statements of an alternative that may be missing. -/
def Action.runOption (frame : Frame) (scope : Nat) : Option (List Action) → Run Completion
  | none => pure (.normal .undefined)
  | some body => Action.runAll frame scope body

/-- Run the start of a loop, if there is one. -/
def Action.start (frame : Frame) (scope : Nat) : Option Action → Run Completion
  | none => pure (.normal .undefined)
  | some action => action.run frame scope

/-- The place of the first case whose condition equals a value. -/
def Case.find (frame : Frame) (scope : Nat) (value : Value) (index : Nat) :
    List Case → Run (Option Nat)
  | [] => pure none
  | .mk none _ :: rest => Case.find frame scope value (index + 1) rest
  | .mk (some condition) _ :: rest => do
      let tested ← condition.eval frame scope
      if value.strictEquals tested then pure (some index)
      else Case.find frame scope value (index + 1) rest

/-- Run the cases from a place on until a jump out of them. -/
def Case.runFrom (frame : Frame) (scope skipped : Nat) : List Case → Run Completion
  | [] => pure (.normal .undefined)
  | .mk _ body :: rest => do
      match skipped with
      | skipped + 1 => Case.runFrom frame scope skipped rest
      | 0 =>
          match ← Action.runAll frame scope body with
          | .normal _ => Case.runFrom frame scope 0 rest
          | .left none => pure (.normal .undefined)
          | jump => pure jump

end

namespace Run

/-- Run a function body with its arguments in a new scope under the one it was made in. -/
def invoke (call : Caller) (patience : Nat) (callee this : Value) (arguments : List Value)
    (routine : Routine) (scope : Nat) : Run Value := do
  let list ← makeObject
    ⟨some Heap.arrayPrototype, [⟨"callee", callee, true⟩],
      .array (Storage.copied arguments.toArray)⟩
  let inner ← makeScope (some scope) true
  changeScopes (·.bind inner "arguments" (.object .array list))
  bindParameters inner arguments routine.parameters
  let completion ← Action.runAll ⟨call, patience, this⟩ inner routine.body
  return completion.result
where
  /-- Bind parameters to arguments; a parameter without one is undefined. -/
  bindParameters (scope : Nat) : List Value → List String → Run Unit
    | _, [] => pure ()
    | arguments, name :: names => do
        changeScopes (·.bind scope name (arguments.head?.getD .undefined))
        bindParameters scope arguments.tail names

/-- Run on a stack of its own, so that deep calls do not use up one stack. -/
def onFreshStack (run : Run α) : Run α := fun machine =>
  (Task.spawn (fun _ => run machine) Task.Priority.dedicated).get

/-- The number of nested calls that share a stack. -/
def callsPerStack : Nat :=
  100

/-- Run one call deeper, on a fresh stack now and then. -/
def nested (run : Run α) : Run α := fun machine =>
  if machine.depth % callsPerStack = callsPerStack - 1 then
    onFreshStack (deeper run) machine
  else deeper run machine

/-- Call a function, given how functions called from it are called. -/
def callWithin (call : Caller) (patience : Nat) : Caller := fun callee this arguments => do
  match callee with
  | .object .closure id =>
      match (← heap).body id with
      | .closure routine scope =>
          nested (invoke call patience callee this arguments routine scope)
      | _ => failType (.notCallable ((← heap).describe callee))
  | .object .builtin id =>
      match (← heap).body id with
      | .builtin builtin => nested (builtin.run call this arguments)
      | _ => failType (.notCallable ((← heap).describe callee))
  | other => failType (.notCallable ((← heap).describe other))

/-- Call a function with a bound on how deeply calls nest. -/
def callUpTo : Nat → Caller
  | 0 => fun _ _ _ => throw (.broken .outOfFuel)
  | patience + 1 => callWithin (callUpTo patience) patience

/-- A bound that no run of a script reaches. -/
def unlimited : Nat :=
  Nat.pow 2 62

/-- Call a function. -/
def call : Caller :=
  callUpTo unlimited

end Run

namespace Code

/-- Run the statements of a program from a result on; a return ends them. -/
def runMain (frame : Frame) (scope : Nat) : Value → List Action → Run Value
  | result, [] => pure result
  | result, action :: rest => do
      match ← action.run frame scope with
      | .normal value =>
          runMain frame scope (if action.yieldsResult then value else result) rest
      | .returned value => pure value
      | _ => runMain frame scope result rest

/-- Run code in a scope, with a bound on nested calls and turns of loops. -/
def runWithin (patience : Nat) (code : Code) (scope : Nat) : Run Value :=
  runMain ⟨Run.callUpTo patience, patience, .undefined⟩ scope .undefined code.main

/-- Run code in a scope. -/
def runIn (code : Code) (scope : Nat) : Run Value :=
  code.runWithin Run.unlimited scope

/-- Run code in the global scope. -/
def run (code : Code) : Run Value := do
  code.runIn (← get).global

end Code

end ScriptEngine
