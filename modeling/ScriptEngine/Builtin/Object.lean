import ScriptEngine.Builtin.Argument

namespace ScriptEngine.Run

/-!
# Functions of objects and functions

What `Object`, `Function` and their prototypes offer.
-/

/-- The name of the class of a value. -/
def classText : Value → String
  | .undefined => "Undefined"
  | .number _ => "Number"
  | .string _ => "String"
  | .boolean _ => "Boolean"
  | .object .plain _ => "Object"
  | .object .array _ => "Array"
  | .object .closure _ => "Function"
  | .object .builtin _ => "Function"
  | .object .pattern _ => "RegExp"

/-- A value as an object: undefined becomes a new one, all else is left as it is. -/
def toObject : Value → Run Value
  | .undefined => makePlain (some Heap.objectPrototype)
  | value => pure value

/-- Whether the receiver owns a property. -/
def hasOwnProperty (call : Caller) (this key : Value) : Run Value := do
  let name ← toKey call key
  return .boolean ((← heap).owns this name)

/-- The keys of a value as an array of texts. -/
def keysOf (value : Value) : Run Value := do
  if value.isUndefined then failType (.undefinedToObject "keys")
  else
    let keys := (← heap).ownKeys value
    makeArray (Storage.collected (keys.map Value.string).toArray)

/-- A new object that inherits from a given one, or from none. -/
def createFrom : Value → Run Value
  | .undefined => makePlain none
  | .object _ id => makePlain (some id)
  | value => failType (.badPrototype value.primitiveText)

/-- The prototype of a value as a plain object. -/
def prototypeOf (value : Value) : Run Value := do
  match value with
  | .undefined => failType (.undefinedToObject "getPrototypeOf")
  | .number _ => return .object .plain Heap.numberPrototype
  | .string _ => return .object .plain Heap.stringPrototype
  | .boolean _ => return .object .plain Heap.booleanPrototype
  | .object _ id =>
      match (← heap).prototype? id with
      | some prototype => return .object .plain prototype
      | none => return .undefined

/-- Call a function with the elements of an array as its arguments. -/
def apply (call : Caller) (function this arguments : Value) : Run Value := do
  if !function.isCallable then failType (.applyReceiver ((← heap).describe function))
  else
    match arguments with
    | .undefined => call function this []
    | .object .array id => call function this ((← heap).elements id).toList
    | _ => failType .applyArguments

/-- Call the receiver with a given receiver and arguments. -/
def callWith (call : Caller) (this : Value) (arguments : List Value) : Run Value :=
  if !this.isCallable then failType (.callReceiver this.typeof)
  else call this (argument arguments 0) (arguments.drop 1)

/-- The text of a function. -/
def functionToText (this : Value) : Run Value := do
  if !this.isCallable then failType .functionText
  else return .string (← defaultText this)

end ScriptEngine.Run
