import ScriptEngine.Machine.Evaluation

namespace ScriptEngine

/-!
# Realms

A realm is a machine on which the standard library is installed and nothing has
run yet.  The library comes in parts.  Each part gives a prototype its methods and
names a constructor for it, or puts functions into an object of their own, or names
values of the global scope.  What the library installs is hidden: it can be read,
replaced and removed, but it is not listed.
-/

/-- A member of the library: a value under a name, or a function under its own name. -/
inductive Member where
  | constant (name : String) (value : Value)
  | function (builtin : Builtin)

/-- What a part of the library installs. -/
inductive Provision where
  /-- A prototype with methods, and a constructor with members of its own. -/
  | type (prototype : Nat) (constructor : Builtin) (methods : List Builtin) (members : List Member)
  /-- An object that holds members. -/
  | collection (members : List Member)
  /-- Names of the global scope. -/
  | globals (members : List Member)

/-- A part of the standard library; parts of lower priority are installed first. -/
structure LibraryPart where
  name : String
  priority : Nat
  provision : Provision

namespace LibraryPart

/-- Objects, their prototypes and their keys. -/
def objects : LibraryPart :=
  ⟨"Object", 0, .type Heap.objectPrototype .objectNew
    [.hasOwnProperty, .objectToString, .objectValueOf]
    [.function .objectKeys, .function .objectCreate, .function .getPrototypeOf]⟩

/-- Functions. -/
def functions : LibraryPart :=
  ⟨"Function", 1, .type Heap.functionPrototype .functionNew
    [.functionApply, .functionCall, .functionToString] []⟩

/-- Arrays. -/
def arrays : LibraryPart :=
  ⟨"Array", 3, .type Heap.arrayPrototype .arrayNew
    [.arrayPush, .arrayPop, .arrayShift, .arrayUnshift, .arrayConcat, .arrayJoin, .arrayToString,
      .arraySlice, .arrayIndexOf]
    [.function .isArray]⟩

/-- The constants and functions of the global scope. -/
def globals : LibraryPart :=
  ⟨"Globals", 5, .globals [
    .constant "true" (.boolean true),
    .constant "false" (.boolean false),
    .constant "NaN" (.number Number.notANumber),
    .constant "undefined" .undefined,
    .constant "Infinity" (.number Number.infinity),
    .function .isNaN,
    .function .parseFloat,
    .function .parseInt]⟩

/-- Texts. -/
def strings : LibraryPart :=
  ⟨"String", 10, .type Heap.stringPrototype .stringNew
    [.stringToString, .stringValueOf, .charAt, .charCodeAt, .substring, .stringIndexOf,
      .toUpperCase, .toLowerCase, .normalize, .split, .replace] []⟩

/-- Numbers and their limits. -/
def numbers : LibraryPart :=
  ⟨"Number", 11, .type Heap.numberPrototype .numberNew
    [.numberToString, .toFixed, .numberValueOf] [
    .constant "NaN" (.number Number.notANumber),
    .constant "POSITIVE_INFINITY" (.number Number.infinity),
    .constant "NEGATIVE_INFINITY" (.number (-Number.infinity)),
    .constant "MAX_VALUE" (.number (Float.ofBits 0x7FEFFFFFFFFFFFFF)),
    .constant "MIN_VALUE" (.number (Float.ofBits 1))]⟩

/-- Truth values. -/
def booleans : LibraryPart :=
  ⟨"Boolean", 12, .type Heap.booleanPrototype .booleanNew [.booleanToString, .booleanValueOf] []⟩

/-- Regular expressions. -/
def patterns : LibraryPart :=
  ⟨"RegExp", 13, .type Heap.patternPrototype .patternNew
    [.patternTest, .patternExec, .patternToString] []⟩

/-- Mathematical constants and functions. -/
def mathematics : LibraryPart :=
  ⟨"Math", 100, .collection [
    .constant "E" (.number 2.718281828459045),
    .constant "LN2" (.number 0.6931471805599453),
    .constant "LN10" (.number 2.302585092994046),
    .constant "PI" (.number 3.141592653589793),
    .constant "SQRT2" (.number 1.4142135623730951),
    .function .mathAbs,
    .function .mathFloor,
    .function .mathCeil,
    .function .mathRound,
    .function .mathSqrt,
    .function .mathPow,
    .function .mathMax,
    .function .mathMin,
    .function .mathRandom]⟩

/-- Writing of JSON documents. -/
def json : LibraryPart :=
  ⟨"JSON", 101, .collection [.function .jsonStringify]⟩

/-- Output to the console. -/
def console : LibraryPart :=
  ⟨"console", 102, .collection [
    .function .consoleLog,
    .function .consoleInfo,
    .function .consoleWarn,
    .function .consoleError]⟩

/-- The standard library in the order its parts are installed. -/
def standard : List LibraryPart :=
  [objects, functions, arrays, globals, strings, numbers, booleans, patterns, mathematics, json,
    console]

/-- The parts of the library are installed by ascending priority. -/
theorem standard_pairwise_priority :
    (standard.map LibraryPart.priority).Pairwise (· < ·) := by
  decide

end LibraryPart

namespace Machine

/-- A machine with bare prototypes and an empty global scope. -/
def bare (maxDepth : Nat) : Machine where
  heap := #[⟨none, [], .plain⟩] ++
    Array.replicate Heap.patternPrototype ⟨some Heap.objectPrototype, [], .plain⟩
  scopes := #[⟨[], none, true⟩]
  global := 0
  output := ""
  depth := 0
  maxDepth := maxDepth
  seed := 1

/-- Bind a name in the global scope. -/
def declare (machine : Machine) (name : String) (value : Value) : Machine :=
  { machine with scopes := machine.scopes.declare machine.global name value }

/-- Write a hidden property of an object. -/
def hide (machine : Machine) (id : Nat) (name : String) (value : Value) : Machine :=
  { machine with heap := machine.heap.setHidden id name value }

/-- Make the function object of a builtin. -/
def makeBuiltin (machine : Machine) (builtin : Builtin) : Value × Machine :=
  let properties : Properties := [
    ⟨"length", .ofNat builtin.arity, true⟩,
    ⟨"name", .string builtin.name, true⟩]
  let (id, heap) := machine.heap.make
    ⟨some Heap.functionPrototype, properties, .builtin builtin⟩
  (.object .builtin id, { machine with heap := heap })

/-- Make the value of a member; gives it with its name. -/
def makeMember (machine : Machine) : Member → (String × Value) × Machine
  | .constant name value => ((name, value), machine)
  | .function builtin =>
      let (value, machine) := machine.makeBuiltin builtin
      ((builtin.name, value), machine)

/-- Install a member as a hidden property of an object. -/
def addMember (id : Nat) (machine : Machine) (member : Member) : Machine :=
  let ((name, value), machine) := machine.makeMember member
  machine.hide id name value

/-- Install a member as a name of the global scope. -/
def addGlobal (machine : Machine) (member : Member) : Machine :=
  let ((name, value), machine) := machine.makeMember member
  machine.declare name value

/-- Install a part of the library. -/
def install (machine : Machine) (part : LibraryPart) : Machine :=
  match part.provision with
  | .globals members => members.foldl addGlobal machine
  | .collection members =>
      let (id, heap) := machine.heap.make ⟨some Heap.objectPrototype, [], .plain⟩
      let machine := members.foldl (addMember id) { machine with heap := heap }
      machine.declare part.name (.object .plain id)
  | .type prototype constructor methods members =>
      let machine := (methods.map Member.function).foldl (addMember prototype) machine
      let id := machine.heap.size
      let (value, machine) := machine.makeBuiltin constructor
      let machine := machine.hide id "prototype" (.object .plain prototype)
      let machine := machine.hide prototype "constructor" value
      let machine := members.foldl (addMember id) machine
      machine.declare part.name value

/-- A realm: the standard library is installed and calls nest up to a limit. -/
def realm (maxDepth : Nat) : Machine :=
  LibraryPart.standard.foldl install (bare maxDepth)

/-- The names bound in the global scope. -/
def globalNames (machine : Machine) : List String :=
  machine.scopes.names machine.global

/-- The names bound in the global scope that the library does not bind. -/
def addedNames (machine : Machine) : List String :=
  let installed := (realm 0).globalNames
  machine.globalNames.filter fun name => !installed.contains name

end Machine

end ScriptEngine
