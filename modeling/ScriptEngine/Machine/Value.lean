import ScriptEngine.Number.Layout

namespace ScriptEngine

/-!
# Values

A value is undefined, a number, a text, a truth value or an object.  An object
value names an object on the heap and the kind it is used as.  Two object values
are the same only if both agree, so the plain view of an array is not the array.
-/

/-- The kinds of objects. -/
inductive ObjectKind where
  | plain
  | array
  | closure
  | builtin
  | pattern
  deriving DecidableEq, Repr

namespace ObjectKind

/-- The name of a kind. -/
def text : ObjectKind → String
  | plain => "object"
  | array => "array"
  | closure => "function"
  | builtin => "native function"
  | pattern => "regexp"

/-- Whether objects of a kind can be called. -/
def isCallable : ObjectKind → Bool
  | closure | builtin => true
  | _ => false

end ObjectKind

/-- The values of scripts. -/
inductive Value where
  | undefined
  | number (value : Float)
  | string (text : String)
  | boolean (value : Bool)
  | object (kind : ObjectKind) (id : Nat)
  deriving Inhabited, Repr

namespace Value

/-- Whether a value is undefined. -/
def isUndefined : Value → Bool
  | undefined => true
  | _ => false

/-- Whether a value is a text. -/
def isString : Value → Bool
  | string _ => true
  | _ => false

/-- Whether a value is a number. -/
def isNumber : Value → Bool
  | number _ => true
  | _ => false

/-- Whether a value is a truth value. -/
def isBoolean : Value → Bool
  | boolean _ => true
  | _ => false

/-- Whether a value is an object. -/
def isObject : Value → Bool
  | object _ _ => true
  | _ => false

/-- Whether a value is no object. -/
def isPrimitive (value : Value) : Bool :=
  !value.isObject

/-- Whether a value can be called. -/
def isCallable : Value → Bool
  | object kind _ => kind.isCallable
  | _ => false

/-- Whether a value is an array. -/
def isArray : Value → Bool
  | object .array _ => true
  | _ => false

/-- Whether a value is a regular expression. -/
def isPattern : Value → Bool
  | object .pattern _ => true
  | _ => false

/-- The object behind a value. -/
def objectId? : Value → Option Nat
  | object _ id => some id
  | _ => none

/-- The name of the type of a value, with the kinds of objects told apart. -/
def typeText : Value → String
  | undefined => "undefined"
  | number _ => "number"
  | string _ => "string"
  | boolean _ => "boolean"
  | object kind _ => kind.text

/-- What the operator `typeof` gives. -/
def typeof : Value → String
  | undefined => "undefined"
  | number _ => "number"
  | string _ => "string"
  | boolean _ => "boolean"
  | object kind _ => if kind.isCallable then "function" else "object"

/-- Whether a value counts as true: all but undefined, false, the zeros, not-a-number and "". -/
def isTruthy : Value → Bool
  | undefined => false
  | number value => !(value == 0 || Number.isNaN value)
  | string text => !text.isEmpty
  | boolean value => value
  | object _ _ => true

/-- Equality without conversion. -/
def strictEquals : Value → Value → Bool
  | undefined, undefined => true
  | number left, number right => left == right
  | string left, string right => left == right
  | boolean left, boolean right => left == right
  | object leftKind left, object rightKind right => leftKind == rightKind && left == right
  | _, _ => false

/-- A whole number as a value. -/
def ofNat (value : Nat) : Value :=
  number (Number.ofNat value)

end Value

end ScriptEngine
