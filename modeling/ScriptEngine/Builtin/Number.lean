import ScriptEngine.Builtin.Argument
import ScriptEngine.Number.Layout
import ScriptEngine.Number.Power

namespace ScriptEngine.Run

/-!
# Functions of numbers and truth values

What `Number`, `Boolean`, `Math` and the global number readers offer.
-/

/-- The number a method is called on. -/
def receivingNumber (method : String) : Value → Run Float
  | .number value => pure value
  | _ => failType (.numberReceiver method)

/-- The truth value a method is called on. -/
def receivingBoolean (method : String) : Value → Run Bool
  | .boolean value => pure value
  | _ => failType (.booleanReceiver method)

/-- The text of a number in a base. -/
def numberToText (call : Caller) (this : Value) (arguments : List Value) : Run Value := do
  let value ← receivingNumber "toString" this
  match argument arguments 0 with
  | .undefined => return .string (Number.text value)
  | radix =>
      let radix ← toInteger call radix
      if radix < 2 || radix > 36 then failRange .radix
      else return .string (Number.radixText value (Number.wholeMagnitude radix))

/-- The text of a number with a fixed number of places. -/
def toFixed (call : Caller) (this : Value) (arguments : List Value) : Run Value := do
  let value ← receivingNumber "toFixed" this
  let places ← toInteger call (argument arguments 0)
  if places < 0 || places > 100 then failRange .places
  else return .string (Number.fixedText value (Number.wholeMagnitude places))

/-- A new number. -/
def numberNew (call : Caller) : List Value → Run Value
  | [] => pure (.ofNat 0)
  | value :: _ => return .number (← toNumber call value)

/-- A function of one number. -/
def mathUnary (call : Caller) (function : Float → Float) (arguments : List Value) : Run Value := do
  return .number (function (← toNumber call (argument arguments 0)))

/-- A power; one to an infinite exponent is not a number. -/
def mathPower (call : Caller) (arguments : List Value) : Run Value := do
  let base ← toNumber call (argument arguments 0)
  let exponent ← toNumber call (argument arguments 1)
  if Number.isNaN exponent || (base.abs == 1 && Number.isInfinite exponent) then
    return .number Number.notANumber
  else return .number (Number.power base exponent)

/-- The best of some numbers; not-a-number is the best of all once it is met. -/
def mathExtremum (call : Caller) (better : Float → Float → Bool) : Float → List Value → Run Value
  | best, [] => pure (.number best)
  | best, value :: rest => do
      let candidate ← toNumber call value
      let best :=
        if Number.isNaN candidate then candidate
        else if !Number.isNaN best && better candidate best then candidate
        else best
      mathExtremum call better best rest

/-- Whether a number is above another, positive zero above negative zero. -/
def isAbove (candidate best : Float) : Bool :=
  candidate > best || (candidate == 0 && best == 0 && !Number.isNegative candidate)

/-- Whether a number is below another, negative zero below positive zero. -/
def isBelow (candidate best : Float) : Bool :=
  candidate < best || (candidate == 0 && best == 0 && Number.isNegative candidate)

/-- The next state of the source of random numbers. -/
def nextSeed (seed : Nat) : Nat :=
  (seed * 6364136223846793005 + 1442695040888963407) % Nat.pow 2 64

/-- A random number from zero up to but not including one. -/
def random : Run Value :=
  modifyGet fun machine =>
    let seed := nextSeed machine.seed
    (.number (Number.Binary64.ofRatio false (seed / Nat.pow 2 11) (Nat.pow 2 53)), { machine with seed := seed })

/-- The base given by an argument, zero if there is none. -/
def radixArgument (call : Caller) (value : Value) : Run Int := do
  if value.isUndefined then pure 0
  else return (Number.toInteger? (← toInteger call value)).getD (-1)

/-- The whole number at the front of a text. -/
def parseInteger (call : Caller) (arguments : List Value) : Run Value := do
  let text ← toText call (argument arguments 0)
  let radix ← radixArgument call (argument arguments 1)
  return .number (Number.integerOfFront text radix)

/-- The number at the front of a text. -/
def parseDecimal (call : Caller) (arguments : List Value) : Run Value := do
  let text ← toText call (argument arguments 0)
  return .number (Number.ofFront text)

end ScriptEngine.Run
