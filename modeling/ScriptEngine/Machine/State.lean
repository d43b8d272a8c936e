import ScriptEngine.Machine.Heap
import ScriptEngine.Machine.Scope

namespace ScriptEngine

/-!
# The machine

A machine is everything a running script can change: the heap, the scopes, what
was written to the console, and how deep calls are nested.  A run takes a machine
to a result or to the reason why there is none, and to the machine afterwards.
-/

/-- Why a run ended without a result. -/
inductive Abort where
  /-- An error of the script. -/
  | raised (error : ScriptError)
  /-- A failure of the machine itself; it has no place in the script. -/
  | broken (fault : InternalFault)
  deriving DecidableEq, Repr

namespace Abort

/-- Give an error a place unless it has one. -/
def locate (position : Position) : Abort → Abort
  | raised error => raised (error.locate position)
  | broken fault => broken fault

/-- The error a run is reported by. -/
def error : Abort → ScriptError
  | raised error => error
  | broken fault => ⟨.internal fault, none⟩

end Abort

/-- The state of a running script.  A limit of zero lets calls nest without bound. -/
structure Machine where
  heap : Heap
  scopes : Scopes
  global : Nat
  output : String
  depth : Nat
  maxDepth : Nat
  seed : Nat

/-- A run from machine to machine. -/
abbrev Run :=
  EStateM Abort Machine

/-- How to call a function: the function, its receiver and its arguments. -/
abbrev Caller :=
  Value → Value → List Value → Run Value

namespace Run

/-- End a run by an error that has no place yet. -/
def fail (fault : Fault) : Run α :=
  throw (.raised ⟨fault, none⟩)

/-- End a run by a type error. -/
def failType (fault : TypeFault) : Run α :=
  fail (.type fault)

/-- End a run by a range error. -/
def failRange (fault : RangeFault) : Run α :=
  fail (.range fault)

/-- Give the error of a run a place unless it has one. -/
def locate (position : Position) (run : Run α) : Run α := fun machine =>
  match run machine with
  | .ok value machine => .ok value machine
  | .error abort machine => .error (abort.locate position) machine

/-- The heap. -/
def heap : Run Heap := do
  return (← get).heap

theorem heap_bind (next : Heap → Run α) (machine : Machine) :
    (heap >>= next) machine = next machine.heap machine :=
  rfl

/-- Change the heap. -/
def changeHeap (change : Heap → Heap) : Run Unit :=
  modify fun machine => { machine with heap := change machine.heap }

/-- Change the scopes. -/
def changeScopes (change : Scopes → Scopes) : Run Unit :=
  modify fun machine => { machine with scopes := change machine.scopes }

/-- Make an object. -/
def makeObject (object : HeapObject) : Run Nat :=
  modifyGet fun machine =>
    let (id, heap) := machine.heap.make object
    (id, { machine with heap := heap })

/-- Make a scope. -/
def makeScope (parent : Option Nat) (isFunction : Bool) : Run Nat :=
  modifyGet fun machine =>
    let (id, scopes) := machine.scopes.make parent isFunction
    (id, { machine with scopes := scopes })

/-- Make a plain object. -/
def makePlain (prototype : Option Nat) : Run Value := do
  return .object .plain (← makeObject ⟨prototype, [], .plain⟩)

/-- Make an array. -/
def makeArray (storage : Storage) : Run Value := do
  return .object .array (← makeObject ⟨some Heap.arrayPrototype, [], .array storage⟩)

/-- Make a function and the object its instances inherit from. -/
def makeClosure (routine : Routine) (scope : Nat) : Run Value := do
  let id ← makeObject ⟨some Heap.functionPrototype, [], .closure routine scope⟩
  let value := Value.object .closure id
  let prototype ← makeObject
    ⟨some Heap.objectPrototype, [⟨"constructor", value, true⟩], .plain⟩
  changeHeap (·.modify id fun object =>
    { object with
      properties := [
        ⟨"prototype", .object .plain prototype, true⟩,
        ⟨"length", .ofNat routine.parameters.length, true⟩,
        ⟨"name", .string routine.name, true⟩] })
  return value

/-- Make a regular expression. -/
def makePattern (pattern : Pattern) : Run Value := do
  let properties : Properties := [
    ⟨"source", .string pattern.source, true⟩,
    ⟨"global", .boolean pattern.isGlobal, true⟩,
    ⟨"ignoreCase", .boolean pattern.ignoresCase, true⟩,
    ⟨"multiline", .boolean pattern.isMultiline, true⟩,
    ⟨"lastIndex", .ofNat 0, true⟩]
  return .object .pattern
    (← makeObject ⟨some Heap.patternPrototype, properties, .pattern pattern⟩)

/-- Write a line to the console. -/
def printLine (line : String) : Run Unit :=
  modify fun machine => { machine with output := machine.output ++ line ++ "\n" }

/-- Run one call deeper: the depth is counted up before and down afterwards, whatever the
outcome. -/
def deeper (run : Run α) : Run α := fun machine =>
  let entered := { machine with depth := machine.depth + 1 }
  if entered.maxDepth ≠ 0 ∧ entered.maxDepth < entered.depth then
    .error (.raised ⟨.range .callDepth, none⟩) { entered with depth := entered.depth - 1 }
  else
    match run entered with
    | .ok value after => .ok value { after with depth := after.depth - 1 }
    | .error abort after => .error abort { after with depth := after.depth - 1 }

end Run

end ScriptEngine
