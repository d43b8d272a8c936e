import ScriptEngine.Machine.State
import ScriptEngine.Number.Coercion

namespace ScriptEngine

/-!
# Conversions

Values become texts and numbers in two ways.  The default conversions run no
script.  The full ones first turn an object into a primitive value by its own
methods.  A default conversion of arrays that hold one another in a circle has no
end, and nothing cuts it off: its bound is beyond the number of objects and beyond
the room that any run has for nested arrays.
-/

namespace Heap

/-- The text of a function. -/
def functionText (name kind : String) : String :=
  "function " ++ name ++ "() \x7b [" ++ kind ++ " code] \x7d"

/-- The default text of a value, if it ends within a budget of nested arrays. -/
def textWithin (heap : Heap) : Nat → Value → Option String
  | _, .undefined => some "undefined"
  | _, .number value => some (Number.text value)
  | _, .string text => some text
  | _, .boolean value => some (if value then "true" else "false")
  | _, .object .plain _ => some "[object Object]"
  | _, .object .closure id => some (functionText (heap.functionName (.object .closure id)) "compiled")
  | _, .object .builtin id => some (functionText (heap.functionName (.object .builtin id)) "native")
  | _, .object .pattern id => some ((heap.pattern? id).elim "" Pattern.text)
  | 0, .object .array _ => none
  | budget + 1, .object .array id => do
      let parts ← (heap.elements id).toList.mapM fun element =>
        match element with
        | .undefined => some ""
        | element => heap.textWithin budget element
      some (",".intercalate parts)

/-- A bound on nested arrays that only arrays in a circle reach. -/
def boundlessNesting (heap : Heap) : Nat :=
  heap.size + Nat.pow 2 62

/-- The default text of a value; nothing if the conversion does not end. -/
def text? (heap : Heap) (value : Value) : Option String :=
  heap.textWithin heap.boundlessNesting value

/-- A value as error messages show it. -/
def describe (heap : Heap) : Value → String
  | .string text => Text.quoted text
  | .object kind id =>
      if kind.isCallable then
        match heap.functionName (.object kind id) with
        | "" => "function"
        | name => name
      else "object"
  | .undefined => "undefined"
  | .number value => Number.text value
  | .boolean value => if value then "true" else "false"

end Heap

namespace Value

/-- The number a primitive value stands for; an object is not a number. -/
def toFloat : Value → Float
  | undefined => Number.notANumber
  | number value => value
  | string text => Number.ofText text
  | boolean value => if value then Number.ofNat 1 else Number.ofNat 0
  | object _ _ => Number.notANumber

/-- The text of a primitive value. -/
def primitiveText : Value → String
  | undefined => "undefined"
  | number value => Number.text value
  | string text => text
  | boolean value => if value then "true" else "false"
  | object _ _ => ""

end Value

/-- What a primitive value is wanted for. -/
inductive Hint where
  | default
  | number
  | string
  deriving DecidableEq, Repr

namespace Hint

/-- The hint of a name; any other name leaves the choice open. -/
def ofName : String → Hint
  | "string" => string
  | "number" => number
  | _ => default

/-- The methods to try, in order. -/
def methods : Hint → List String
  | string => ["toString", "valueOf"]
  | _ => ["valueOf", "toString"]

end Hint

namespace Run

/-- The default text of a value. -/
def defaultText (value : Value) : Run String := do
  match (← heap).text? value with
  | some text => pure text
  | none => throw (.broken .outOfFuel)

/-- Try methods until one gives a primitive value; `found` tells whether one was called. -/
def tryMethods (call : Caller) (value : Value) (id : Nat) : Bool → List String → Run Value
  | found, [] => do
      if found then failType .noPrimitive
      else return .string (← defaultText value)
  | found, name :: rest => do
      match (← heap).lookup? id name with
      | some method =>
          if method.isCallable then
            let result ← call method value []
            if result.isPrimitive then pure result
            else tryMethods call value id true rest
          else tryMethods call value id found rest
      | none => tryMethods call value id found rest

/-- The primitive value of a value. -/
def toPrimitive (call : Caller) (hint : Hint) : Value → Run Value
  | .object kind id => tryMethods call (.object kind id) id false hint.methods
  | primitive => pure primitive

/-- The text of a value. -/
def toText (call : Caller) (value : Value) : Run String := do
  return (← toPrimitive call .string value).primitiveText

/-- The number of a value. -/
def toNumber (call : Caller) (value : Value) : Run Float := do
  return (← toPrimitive call .number value).toFloat

/-- The number of a value cut toward zero; not-a-number becomes zero. -/
def toInteger (call : Caller) (value : Value) : Run Float := do
  let number ← toNumber call value
  return if Number.isNaN number then Number.ofNat 0 else Number.truncate number

end Run

end ScriptEngine
