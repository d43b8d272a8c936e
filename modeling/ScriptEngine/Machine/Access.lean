import ScriptEngine.Machine.Conversion

namespace ScriptEngine

/-!
# Access to properties

Texts and arrays have a length and elements besides their properties.  Primitive
values read from the prototype of their type and ignore writes; undefined has no
properties at all.
-/

namespace Heap

/-- The character of a text at an index. -/
def charAt? (text : String) (index : Nat) : Option String :=
  text.toList[index]?.map String.singleton

/-- A property of a value, unless it is undefined. -/
def read? (heap : Heap) (value : Value) (name : String) : Option Value :=
  match value with
  | .undefined => none
  | .number _ => some ((heap.lookup? numberPrototype name).getD .undefined)
  | .boolean _ => some ((heap.lookup? booleanPrototype name).getD .undefined)
  | .string text =>
      if name = "length" then some (.ofNat text.length)
      else
        match (arrayIndex? name).bind (charAt? text) with
        | some char => some (.string char)
        | none => some ((heap.lookup? stringPrototype name).getD .undefined)
  | .object .array id =>
      if name = "length" then some (.ofNat (heap.arrayLength id))
      else
        match (arrayIndex? name).bind ((heap.elements id)[·]?) with
        | some element => some element
        | none => some ((heap.lookup? id name).getD .undefined)
  | .object _ id => some ((heap.lookup? id name).getD .undefined)

/-- Whether a value owns a property, its length and elements included. -/
def owns (heap : Heap) (value : Value) (name : String) : Bool :=
  match value with
  | .undefined | .number _ | .boolean _ => false
  | .string text =>
      name == "length" || isIndexBelow name text.length
  | .object .array id =>
      name == "length" || isIndexBelow name (heap.arrayLength id) ||
        (heap.properties id).has name
  | .object _ id => (heap.properties id).has name

/-- The keys a loop over a value visits: indices first, then names in ascending order. -/
def keys (heap : Heap) : Value → List String
  | .undefined | .number _ | .boolean _ => []
  | .string text => (List.range text.length).map indexKey
  | .object .array id =>
      (List.range (heap.arrayLength id)).map indexKey ++
        Text.sorted (heap.properties id).names
  | .object _ id => Text.sorted (heap.properties id).names

/-- The keys of a value in the order they were added, indices first. -/
def ownKeys (heap : Heap) : Value → List String
  | .undefined | .number _ | .boolean _ => []
  | .string text => (List.range text.length).map indexKey
  | .object .array id =>
      (List.range (heap.arrayLength id)).map indexKey ++ (heap.properties id).names
  | .object _ id => (heap.properties id).names

end Heap

namespace Run

/-- The name of the property a key stands for. -/
def toKey (call : Caller) (key : Value) : Run String :=
  toText call key

/-- Read a property. -/
def read (value : Value) (name : String) : Run Value := do
  match (← heap).read? value name with
  | some found => pure found
  | none => failType (.readOfUndefined name)

/-- Set the length of an array to a number that has to be a length. -/
def setLength (id : Nat) (length : Float) : Run Unit := do
  match Number.toInteger? length with
  | some whole =>
      if whole < 0 || length != Number.truncate length then failRange .arrayLength
      else
        let count := whole.toNat
        if Storage.maxLength ≤ count then failRange .arrayLength
        else
          changeHeap (·.modifyStorage id (·.resize count))
  | none => failRange .arrayLength

/-- Write a property. -/
def write (call : Caller) (target : Value) (name : String) (value : Value) : Run Unit :=
  match target with
  | .undefined => failType (.writeOfUndefined name)
  | .number _ | .string _ | .boolean _ => pure ()
  | .object .array id => do
      if name = "length" then setLength id (← toNumber call value)
      else
        match arrayIndex? name with
        | some index =>
            if Storage.maxLength ≤ index then failRange .arrayLength
            else changeHeap (·.modifyStorage id (·.put index value))
        | none => changeHeap (·.setOwn id name value)
  | .object _ id => changeHeap (·.setOwn id name value)

/-- Delete a property; tells whether that is allowed. -/
def erase (target : Value) (name : String) : Run Bool :=
  match target with
  | .undefined => failType (.undefinedToObject name)
  | .number _ | .boolean _ => pure true
  | .string text =>
      pure (!(name == "length" || isIndexBelow name text.length))
  | .object .array id => do
      if name = "length" then pure false
      else
        match arrayIndex? name with
        | some index =>
            if index < (← heap).arrayLength id then
              changeHeap (·.modifyStorage id (·.put index .undefined))
            pure true
        | none =>
            changeHeap (·.eraseOwn id name)
            pure true
  | .object _ id => do
      changeHeap (·.eraseOwn id name)
      pure true

/-- Whether an object or one of its prototypes has a property. -/
def hasProperty (target : Value) (name : String) : Run Bool := do
  match target with
  | .object .array id =>
      let heap ← heap
      if name = "length" then pure true
      else if isIndexBelow name (heap.arrayLength id) then pure true
      else pure (heap.lookup? id name).isSome
  | .object _ id => return ((← heap).lookup? id name).isSome
  | primitive => failType (.notSearchable name primitive.primitiveText)

/-- Whether a value inherits from the prototype of a function. -/
def instanceOf (value constructor : Value) : Run Bool := do
  if !constructor.isCallable then failType .instanceofTarget
  else
    match value, constructor with
    | .object _ id, .object _ constructorId =>
        let heap ← heap
        match heap.lookup? constructorId "prototype" with
        | some (.object _ prototype) => pure (heap.reaches (heap.prototype? id) prototype)
        | _ => failType .instanceofPrototype
    | _, _ => pure false

end Run

end ScriptEngine
