namespace ScriptEngine

/-!
# Builtin functions

The functions every realm has from the start.  Each has a name and the number of
arguments it is declared with.
-/

/-- The builtin functions. -/
inductive Builtin where
  | objectNew
  | hasOwnProperty
  | objectToString
  | objectValueOf
  | objectKeys
  | objectCreate
  | getPrototypeOf
  | functionNew
  | functionApply
  | functionCall
  | functionToString
  | arrayNew
  | arrayPush
  | arrayPop
  | arrayShift
  | arrayUnshift
  | arrayConcat
  | arrayJoin
  | arrayToString
  | arraySlice
  | arrayIndexOf
  | isArray
  | isNaN
  | parseFloat
  | parseInt
  | stringNew
  | stringToString
  | stringValueOf
  | charAt
  | charCodeAt
  | substring
  | stringIndexOf
  | toUpperCase
  | toLowerCase
  | normalize
  | split
  | replace
  | numberNew
  | numberToString
  | toFixed
  | numberValueOf
  | booleanNew
  | booleanToString
  | booleanValueOf
  | patternNew
  | patternTest
  | patternExec
  | patternToString
  | mathAbs
  | mathFloor
  | mathCeil
  | mathRound
  | mathSqrt
  | mathPow
  | mathMax
  | mathMin
  | mathRandom
  | jsonStringify
  | consoleLog
  | consoleInfo
  | consoleWarn
  | consoleError
  deriving DecidableEq, Repr

namespace Builtin

/-- The name of a builtin function. -/
def name : Builtin → String
  | objectNew => "Object"
  | hasOwnProperty => "hasOwnProperty"
  | objectToString => "toString"
  | objectValueOf => "valueOf"
  | objectKeys => "keys"
  | objectCreate => "create"
  | getPrototypeOf => "getPrototypeOf"
  | functionNew => "Function"
  | functionApply => "apply"
  | functionCall => "call"
  | functionToString => "toString"
  | arrayNew => "Array"
  | arrayPush => "push"
  | arrayPop => "pop"
  | arrayShift => "shift"
  | arrayUnshift => "unshift"
  | arrayConcat => "concat"
  | arrayJoin => "join"
  | arrayToString => "toString"
  | arraySlice => "slice"
  | arrayIndexOf => "indexOf"
  | isArray => "isArray"
  | isNaN => "isNaN"
  | parseFloat => "parseFloat"
  | parseInt => "parseInt"
  | stringNew => "String"
  | stringToString => "toString"
  | stringValueOf => "valueOf"
  | charAt => "charAt"
  | charCodeAt => "charCodeAt"
  | substring => "substring"
  | stringIndexOf => "indexOf"
  | toUpperCase => "toUpperCase"
  | toLowerCase => "toLowerCase"
  | normalize => "normalize"
  | split => "split"
  | replace => "replace"
  | numberNew => "Number"
  | numberToString => "toString"
  | toFixed => "toFixed"
  | numberValueOf => "valueOf"
  | booleanNew => "Boolean"
  | booleanToString => "toString"
  | booleanValueOf => "valueOf"
  | patternNew => "RegExp"
  | patternTest => "test"
  | patternExec => "exec"
  | patternToString => "toString"
  | mathAbs => "abs"
  | mathFloor => "floor"
  | mathCeil => "ceil"
  | mathRound => "round"
  | mathSqrt => "sqrt"
  | mathPow => "pow"
  | mathMax => "max"
  | mathMin => "min"
  | mathRandom => "random"
  | jsonStringify => "stringify"
  | consoleLog => "log"
  | consoleInfo => "info"
  | consoleWarn => "warn"
  | consoleError => "error"

/-- The number of arguments a builtin function is declared with. -/
def arity : Builtin → Nat
  | objectToString | objectValueOf | functionToString | arrayPop | arrayShift | arrayToString
  | stringToString | stringValueOf | toUpperCase | toLowerCase | normalize | numberValueOf
  | booleanToString | booleanValueOf | patternToString | mathRandom | consoleLog | consoleInfo
  | consoleWarn | consoleError => 0
  | functionApply | arraySlice | parseInt | substring | split | replace | patternNew | mathPow
  | mathMax | mathMin => 2
  | jsonStringify => 3
  | _ => 1

end Builtin

end ScriptEngine
