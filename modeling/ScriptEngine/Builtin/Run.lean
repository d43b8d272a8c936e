import ScriptEngine.Builtin.Array
import ScriptEngine.Builtin.Number
import ScriptEngine.Builtin.Object
import ScriptEngine.Builtin.Text
import ScriptEngine.Machine.Json
import ScriptEngine.Text.LowerCase

namespace ScriptEngine

/-!
# Calling builtin functions

What each builtin function does when it is called, and which of them can be used
to construct.
-/

namespace Run

/-- The indentation an argument of `stringify` asks for, at most ten characters. -/
def jsonIndent (call : Caller) (value : Value) : Run String := do
  match value with
  | .number _ =>
      let count ← toInteger call value
      return Text.repeated " " (clampIndex count 10)
  | .string text => return String.ofList (text.toList.take 10)
  | _ => return ""

/-- A value as a JSON document. -/
def jsonText (indent : String) (value : Value) : Run (Option String) := do
  let heap ← heap
  if indent.isEmpty then
    match heap.writeJson [] "" value with
    | .ok text => return text
    | .error fault => failType fault
  else
    match heap.json value with
    | .ok none => return none
    | .ok (some tree) =>
        match tree.text indent with
        | .ok text => return some text
        | .error fault => fail (.internal fault)
    | .error fault => failType fault

/-- The text of a JSON document, undefined for a value without one. -/
def jsonStringify (call : Caller) (arguments : List Value) : Run Value := do
  let indent ← jsonIndent call (argument arguments 2)
  match ← jsonText indent (argument arguments 0) with
  | some text => return .string text
  | none => return .undefined

/-- Write the arguments to the console on one line. -/
def consolePrint (mark : String) (arguments : List Value) : Run Value := do
  let heap ← heap
  printLine (mark ++ " ".intercalate (arguments.map heap.inspect))
  return .undefined

end Run

namespace Builtin

/-- Whether a builtin function can be used to construct. -/
def isConstructor : Builtin → Bool
  | objectNew | functionNew | arrayNew | stringNew | numberNew | booleanNew | patternNew => true
  | _ => false

/-- What a builtin function does with its receiver and its arguments. -/
def run (call : Caller) (this : Value) (arguments : List Value) : Builtin → Run Value
  | objectNew => Run.toObject (argument arguments 0)
  | hasOwnProperty => Run.hasOwnProperty call this (argument arguments 0)
  | objectToString => pure (.string ("[object " ++ Run.classText this ++ "]"))
  | objectValueOf => pure this
  | objectKeys => Run.keysOf (argument arguments 0)
  | objectCreate => Run.createFrom (argument arguments 0)
  | getPrototypeOf => Run.prototypeOf (argument arguments 0)
  | functionNew => Run.failType .dynamicCode
  | functionApply => Run.apply call this (argument arguments 0) (argument arguments 1)
  | functionCall => Run.callWith call this arguments
  | functionToString => Run.functionToText this
  | arrayNew => Run.arrayNew arguments
  | arrayPush => Run.arrayPush this arguments
  | arrayPop => Run.arrayPop this
  | arrayShift => Run.arrayShift this
  | arrayUnshift => Run.arrayUnshift this arguments
  | arrayConcat => Run.arrayConcat this arguments
  | arrayJoin => Run.arrayJoin call this arguments
  | arrayToString => Run.arrayJoin call this []
  | arraySlice => Run.arraySlice call this arguments
  | arrayIndexOf => Run.arrayIndexOf call this arguments
  | isArray => pure (.boolean (argument arguments 0).isArray)
  | isNaN => return .boolean (Number.isNaN (← Run.toNumber call (argument arguments 0)))
  | parseFloat => Run.parseDecimal call arguments
  | parseInt => Run.parseInteger call arguments
  | stringNew => Run.textNew call arguments
  | stringToString => Run.textValueOf this
  | stringValueOf => Run.textValueOf this
  | charAt => Run.charAt call this arguments
  | charCodeAt => Run.charCodeAt call this arguments
  | substring => Run.substring call this arguments
  | stringIndexOf => Run.textIndexOf call this arguments
  | toUpperCase => Run.changeCase call "toUpperCase" Text.upper this
  | toLowerCase => Run.changeCase call "toLowerCase" Text.lower this
  | normalize => Run.normalize call this arguments
  | split => Run.split call this arguments
  | replace => Run.replace call this arguments
  | numberNew => Run.numberNew call arguments
  | numberToString => Run.numberToText call this arguments
  | toFixed => Run.toFixed call this arguments
  | numberValueOf => return .number (← Run.receivingNumber "valueOf" this)
  | booleanNew => pure (.boolean (argument arguments 0).isTruthy)
  | booleanToString => do
      let value ← Run.receivingBoolean "toString" this
      return .string (if value then "true" else "false")
  | booleanValueOf => return .boolean (← Run.receivingBoolean "valueOf" this)
  | patternNew => Run.patternNew call arguments
  | patternTest => Run.patternTest call this arguments
  | patternExec => Run.patternExec call this arguments
  | patternToString => Run.patternToText this
  | mathAbs => Run.mathUnary call Float.abs arguments
  | mathFloor => Run.mathUnary call Float.floor arguments
  | mathCeil => Run.mathUnary call Float.ceil arguments
  | mathRound => Run.mathUnary call Number.roundHalfUpward arguments
  | mathSqrt => Run.mathUnary call Float.sqrt arguments
  | mathPow => Run.mathPower call arguments
  | mathMax => Run.mathExtremum call Run.isAbove (-Number.infinity) arguments
  | mathMin => Run.mathExtremum call Run.isBelow Number.infinity arguments
  | mathRandom => Run.random
  | jsonStringify => Run.jsonStringify call arguments
  | consoleLog => Run.consolePrint "" arguments
  | consoleInfo => Run.consolePrint "" arguments
  | consoleWarn => Run.consolePrint "WARN: " arguments
  | consoleError => Run.consolePrint "ERROR: " arguments

end Builtin

end ScriptEngine
