import ScriptEngine.Machine.Inspection
import ScriptEngine.Machine.Operation

namespace ScriptEngine

/-!
# Arguments of builtin functions

A missing argument is undefined.  Positions may lie outside a text or an array and
are brought inside; negative ones may count from the end.
-/

/-- The argument at a place. -/
def argument (arguments : List Value) (index : Nat) : Value :=
  arguments[index]?.getD .undefined

/-- A position brought between zero and a length. -/
def clampIndex (position : Float) (length : Nat) : Nat :=
  if position < 0 then 0
  else if position > Number.ofNat length then length
  else Number.wholeMagnitude position

/-- A position brought between zero and a length, a negative one counted from the end. -/
def relativeIndex (position : Float) (length : Nat) : Nat :=
  clampIndex (if position < 0 then position + Number.ofNat length else position) length

end ScriptEngine
