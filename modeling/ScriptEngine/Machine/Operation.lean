import ScriptEngine.Machine.Access
import ScriptEngine.Number.Binary64

namespace ScriptEngine

/-!
# Operators

The operators on values.  Operands are converted from left to right before
anything is computed.
-/

namespace Run

/-- Addition: joining if one of the primitive operands is a text. -/
def add (call : Caller) (left right : Value) : Run Value := do
  let left ← toPrimitive call .default left
  let right ← toPrimitive call .default right
  return if left.isString || right.isString then
    .string (left.primitiveText ++ right.primitiveText)
  else .number (left.toFloat + right.toFloat)

/-- An operation on two numbers. -/
def arithmetic (call : Caller) (operation : Float → Float → Float) (left right : Value) :
    Run Value := do
  let left ← toNumber call left
  let right ← toNumber call right
  return .number (operation left right)

/-- A comparison: of texts if both primitive operands are, of numbers otherwise. -/
def compare (call : Caller) (texts : String → String → Bool) (numbers : Float → Float → Bool)
    (left right : Value) : Run Bool := do
  let left ← toPrimitive call .number left
  let right ← toPrimitive call .number right
  return match left, right with
    | .string left, .string right => texts left right
    | left, right => numbers left.toFloat right.toFloat

/-- The operation on numbers a sign stands for. -/
def arithmeticOperation? : String → Option (Float → Float → Float)
  | "-" => some (· - ·)
  | "*" => some (· * ·)
  | "/" => some (· / ·)
  | "%" => some Number.remainder
  | _ => none

/-- An operation on two numbers by its sign; an unknown sign fails after the conversions. -/
def arithmeticBySign (call : Caller) (sign : String) (left right : Value) : Run Value := do
  match arithmeticOperation? sign with
  | some operation => arithmetic call operation left right
  | none =>
      let _ ← arithmetic call (· + ·) left right
      fail (.internal (.unknownArithmetic sign))

/-- The comparisons of texts and of numbers a sign stands for. -/
def comparison? : String → Option ((String → String → Bool) × (Float → Float → Bool))
  | "<" => some (Text.before, (· < ·))
  | ">" => some (fun x y => Text.before y x, (· > ·))
  | "<=" => some (fun x y => !Text.before y x, (· ≤ ·))
  | ">=" => some (fun x y => !Text.before x y, (· ≥ ·))
  | _ => none

/-- A comparison by its sign; an unknown sign fails after the conversions. -/
def compareBySign (call : Caller) (sign : String) (left right : Value) : Run Bool := do
  match comparison? sign with
  | some (texts, numbers) => compare call texts numbers left right
  | none =>
      let _ ← compare call Text.before (· < ·) left right
      fail (.internal (.unknownComparison sign))

/-- One step of equality with conversion: an answer, or operands to go on with. -/
def looseStep (call : Caller) (left right : Value) : Run (Bool ⊕ (Value × Value)) :=
  match left, right with
  | .undefined, .undefined => pure (.inl true)
  | .undefined, _ => pure (.inl false)
  | _, .undefined => pure (.inl false)
  | .number left, .number right => pure (.inl (left == right))
  | .string left, .string right => pure (.inl (left == right))
  | .boolean left, .boolean right => pure (.inl (left == right))
  | .number left, .string right => pure (.inl (left == Number.ofText right))
  | .string left, .number right => pure (.inl (Number.ofText left == right))
  | .boolean left, right => pure (.inr (.number (Value.boolean left).toFloat, right))
  | left, .boolean right => pure (.inr (left, .number (Value.boolean right).toFloat))
  | .object leftKind left, .object rightKind right =>
      pure (.inl ((Value.object leftKind left).strictEquals (.object rightKind right)))
  | .object kind id, right => do
      return .inr (← toPrimitive call .default (.object kind id), right)
  | left, .object kind id => do
      return .inr (left, ← toPrimitive call .default (.object kind id))

/-- Equality with conversion, within a budget of steps. -/
def looseFrom (call : Caller) : Nat → Value → Value → Run Bool
  | 0, _, _ => pure false
  | budget + 1, left, right => do
      match ← looseStep call left right with
      | .inl answer => pure answer
      | .inr (left, right) => looseFrom call budget left right

/-- Equality with conversion; at most three operands are converted before an answer. -/
def looseEquals (call : Caller) (left right : Value) : Run Bool :=
  looseFrom call 4 left right

/-- An operator between two evaluated operands. -/
def binary (call : Caller) (operator : BinaryOperator) (left right : Value) : Run Value :=
  match operator with
  | .add => add call left right
  | .subtract => arithmetic call (· - ·) left right
  | .multiply => arithmetic call (· * ·) left right
  | .divide => arithmetic call (· / ·) left right
  | .remainder => arithmetic call Number.remainder left right
  | .less => return .boolean (← compare call Text.before (· < ·) left right)
  | .greater =>
      return .boolean (← compare call (fun x y => Text.before y x) (· > ·) left right)
  | .lessEqual =>
      return .boolean (← compare call (fun x y => !Text.before y x) (· ≤ ·) left right)
  | .greaterEqual =>
      return .boolean (← compare call (fun x y => !Text.before x y) (· ≥ ·) left right)
  | .equal => return .boolean (← looseEquals call left right)
  | .notEqual => return .boolean (!(← looseEquals call left right))
  | .strictEqual => pure (.boolean (left.strictEquals right))
  | .strictNotEqual => pure (.boolean (!left.strictEquals right))
  | .within => do
      let name ← toKey call left
      return .boolean (← hasProperty right name)
  | .instanceof => return .boolean (← instanceOf left right)

/-- An operator in front of an evaluated operand. -/
def unary (call : Caller) (operator : UnaryOperator) (value : Value) : Run Value :=
  match operator with
  | .not => pure (.boolean (!value.isTruthy))
  | .negate => return .number (-(← toNumber call value))
  | .toNumber => return .number (← toNumber call value)
  | .void => pure .undefined

end Run

end ScriptEngine
