import ScriptEngine.Builtin.Name
import ScriptEngine.Code.Tree
import ScriptEngine.Machine.Storage
import ScriptEngine.Machine.Value

namespace ScriptEngine

/-!
# The heap

Objects live on the heap and are known by their place.  Every object has
properties and perhaps a prototype; arrays, functions and regular expressions
have something more.  Reading a property goes along the prototypes.
-/

/-!
## Properties

An object owns properties in the order they were added.  A hidden property can be
read and written but is left out when properties are listed.  Writing keeps the
place and the visibility of a property that is there.
-/

/-- One property of an object. -/
structure PropertySlot where
  name : String
  value : Value
  hidden : Bool

/-- The properties of an object in the order they were added. -/
abbrev Properties :=
  List PropertySlot

namespace Properties

/-- The property of a name. -/
def find? (name : String) : Properties → Option PropertySlot
  | [] => none
  | slot :: rest => if slot.name = name then some slot else find? name rest

/-- The value of a property. -/
def get? (properties : Properties) (name : String) : Option Value :=
  (properties.find? name).map PropertySlot.value

/-- Whether there is a property of a name. -/
def has (properties : Properties) (name : String) : Bool :=
  (properties.find? name).isSome

/-- Write a property, at the end if it is new. -/
def set (name : String) (value : Value) : Properties → Properties
  | [] => [⟨name, value, false⟩]
  | slot :: rest =>
      if slot.name = name then { slot with value := value } :: rest
      else slot :: set name value rest

/-- Write a property and hide it. -/
def setHidden (name : String) (value : Value) : Properties → Properties
  | [] => [⟨name, value, true⟩]
  | slot :: rest =>
      if slot.name = name then ⟨name, value, true⟩ :: rest
      else slot :: setHidden name value rest

/-- Remove a property. -/
def erase (name : String) : Properties → Properties
  | [] => []
  | slot :: rest => if slot.name = name then rest else slot :: erase name rest

/-- Whether there is a property of a name that is not hidden. -/
def isListed (properties : Properties) (name : String) : Bool :=
  match properties.find? name with
  | some slot => !slot.hidden
  | none => false

/-- The names of the properties that are not hidden, in order. -/
def names (properties : Properties) : List String :=
  (properties.filter (!·.hidden)).map PropertySlot.name

/-- The properties that are not hidden, in order. -/
def listed (properties : Properties) : List (String × Value) :=
  (properties.filter (!·.hidden)).map fun slot => (slot.name, slot.value)

@[simp] theorem find?_set_self (properties : Properties) (name : String) (value : Value) :
    (properties.set name value).get? name = some value := by
  induction properties with
  | nil => simp [set, get?, find?]
  | cons slot rest inductionHypothesis =>
      by_cases same : slot.name = name
      · simp [set, get?, find?, same]
      · simpa [set, get?, find?, same] using inductionHypothesis

end Properties

/-! ## Objects -/

/-- What an object has besides its properties. -/
inductive ObjectBody where
  | plain
  | array (storage : Storage)
  | closure (routine : Routine) (scope : Nat)
  | builtin (builtin : Builtin)
  | pattern (pattern : Pattern)

/-- An object. -/
structure HeapObject where
  prototype : Option Nat
  properties : Properties
  body : ObjectBody

/-- All objects made so far. -/
abbrev Heap :=
  Array HeapObject

namespace Heap

/-- The places of the prototypes that every realm has. -/
def objectPrototype : Nat := 0

@[inherit_doc objectPrototype]
def functionPrototype : Nat := 1

@[inherit_doc objectPrototype]
def arrayPrototype : Nat := 2

@[inherit_doc objectPrototype]
def stringPrototype : Nat := 3

@[inherit_doc objectPrototype]
def numberPrototype : Nat := 4

@[inherit_doc objectPrototype]
def booleanPrototype : Nat := 5

@[inherit_doc objectPrototype]
def patternPrototype : Nat := 6

/-- Make an object. -/
def make (heap : Heap) (object : HeapObject) : Nat × Heap :=
  (heap.size, heap.push object)

/-- The properties an object owns. -/
def properties (heap : Heap) (id : Nat) : Properties :=
  match heap[id]? with
  | some object => object.properties
  | none => []

/-- The prototype of an object. -/
def prototype? (heap : Heap) (id : Nat) : Option Nat :=
  match heap[id]? with
  | some object => object.prototype
  | none => none

/-- The body of an object. -/
def body (heap : Heap) (id : Nat) : ObjectBody :=
  match heap[id]? with
  | some object => object.body
  | none => .plain

/-- An own property of an object. -/
def getOwn? (heap : Heap) (id : Nat) (name : String) : Option Value :=
  (heap.properties id).get? name

/-- A property found along the prototypes, within a budget of objects. -/
def lookupFrom (heap : Heap) (name : String) : Nat → Nat → Option Value
  | 0, _ => none
  | budget + 1, id =>
      match heap[id]? with
      | none => none
      | some object =>
          match object.properties.get? name with
          | some value => some value
          | none =>
              match object.prototype with
              | some prototype => heap.lookupFrom name budget prototype
              | none => none

/-- A property of an object or of its prototypes. -/
def lookup? (heap : Heap) (id : Nat) (name : String) : Option Value :=
  heap.lookupFrom name (heap.size + 1) id

/-- Whether an object is another one or one of its prototypes, within a budget of objects. -/
def reachesFrom (heap : Heap) (wanted : Nat) : Nat → Option Nat → Bool
  | 0, _ => false
  | _ + 1, none => false
  | budget + 1, some id =>
      id == wanted || heap.reachesFrom wanted budget (heap.prototype? id)

/-- Whether an object is the given one, if any, or one of its prototypes. -/
def reaches (heap : Heap) (start : Option Nat) (wanted : Nat) : Bool :=
  heap.reachesFrom wanted (heap.size + 1) start

/-- Write an own property. -/
def setOwn (heap : Heap) (id : Nat) (name : String) (value : Value) : Heap :=
  heap.modify id fun object =>
    { object with properties := Properties.set name value object.properties }

/-- Write an own property and hide it. -/
def setHidden (heap : Heap) (id : Nat) (name : String) (value : Value) : Heap :=
  heap.modify id fun object =>
    { object with properties := Properties.setHidden name value object.properties }

/-- Remove an own property. -/
def eraseOwn (heap : Heap) (id : Nat) (name : String) : Heap :=
  heap.modify id fun object =>
    { object with properties := Properties.erase name object.properties }

/-- Change the prototype of an object unless that would close a circle; tells whether it did. -/
def setPrototype (heap : Heap) (id : Nat) (prototype : Option Nat) : Bool × Heap :=
  if heap.reaches prototype id then (false, heap)
  else (true, heap.modify id fun object => { object with prototype := prototype })

/-- The storage of an array. -/
def storage (heap : Heap) (id : Nat) : Storage :=
  match heap.body id with
  | .array storage => storage
  | _ => Storage.exact #[]

/-- Change the storage of an array. -/
def modifyStorage (heap : Heap) (id : Nat) (change : Storage → Storage) : Heap :=
  heap.modify id fun object =>
    match object with
    | ⟨prototype, properties, .array storage⟩ => ⟨prototype, properties, .array (change storage)⟩
    | other => other

/-- The elements of an array. -/
def elements (heap : Heap) (id : Nat) : Array Value :=
  (heap.storage id).elements

/-- The length of an array. -/
def arrayLength (heap : Heap) (id : Nat) : Nat :=
  (heap.storage id).length

/-- The regular expression of an object. -/
def pattern? (heap : Heap) (id : Nat) : Option Pattern :=
  match heap.body id with
  | .pattern pattern => some pattern
  | _ => none

/-- The name of a function, empty for one without a name. -/
def functionName (heap : Heap) : Value → String
  | .object .closure id =>
      match heap.body id with
      | .closure routine _ => routine.name
      | _ => ""
  | .object .builtin id =>
      match heap.body id with
      | .builtin builtin => builtin.name
      | _ => ""
  | _ => ""

end Heap

end ScriptEngine
