namespace ScriptEngine.Number

/-!
# Numbers as exact binary fractions

A script number is a double.  Here it is taken apart into an integer multiple of
a power of two, on which exact arithmetic is done with natural numbers, and an
exact quotient is rounded back to the nearest double, a tie going to the even
neighbour.
-/

/-- What a double stands for: `significand * 2 ^ exponent` with a sign, or a special value. -/
inductive Binary64 where
  | nan
  | infinite (negative : Bool)
  | finite (negative : Bool) (significand : Nat) (exponent : Int)
  deriving DecidableEq, Repr

namespace Binary64

/-- The exponent of the least significant bit of the smallest doubles. -/
def leastExponent : Int :=
  -1074

/-- Take a bit pattern apart. -/
def ofBits (bits : UInt64) : Binary64 :=
  let pattern := bits.toNat
  let negative := Nat.pow 2 63 ≤ pattern
  let biased := pattern / Nat.pow 2 52 % Nat.pow 2 11
  let fraction := pattern % Nat.pow 2 52
  if biased = 2047 then
    if fraction = 0 then .infinite negative else .nan
  else if biased = 0 then .finite negative fraction leastExponent
  else .finite negative (fraction + Nat.pow 2 52) (Int.ofNat biased - 1075)

/-- Take a double apart. -/
def ofFloat (value : Float) : Binary64 :=
  ofBits value.toBits

/-- The power of two just below or at a positive quotient. -/
def log2Ratio (numerator denominator : Nat) : Int :=
  let guess := Int.ofNat numerator.log2 - Int.ofNat denominator.log2
  let reached :=
    if 0 ≤ guess then denominator * Nat.pow 2 guess.toNat ≤ numerator
    else denominator ≤ numerator * Nat.pow 2 (-guess).toNat
  if reached then guess else guess - 1

/-- A quotient rounded to the nearest natural number, a tie going to the even one. -/
def roundHalfEven (numerator denominator : Nat) : Nat :=
  let whole := numerator / denominator
  let twice := 2 * (numerator % denominator)
  if twice < denominator then whole
  else if denominator < twice then whole + 1
  else if whole % 2 = 0 then whole
  else whole + 1

/-- The bits of positive infinity. -/
def infinityBits : Nat :=
  2047 * Nat.pow 2 52

/-- The bits of the double nearest to a quotient of natural numbers. -/
def ratioBits (numerator denominator : Nat) : Nat :=
  if numerator = 0 then 0
  else
    let unit := max (log2Ratio numerator denominator - 52) leastExponent
    let rounded :=
      if 0 ≤ unit then roundHalfEven numerator (denominator * Nat.pow 2 unit.toNat)
      else roundHalfEven (numerator * Nat.pow 2 (-unit).toNat) denominator
    let biased := (unit - leastExponent).toNat
    min (biased * Nat.pow 2 52 + rounded) infinityBits

/-- The double nearest to a signed quotient of natural numbers. -/
def ofRatio (negative : Bool) (numerator denominator : Nat) : Float :=
  let magnitude := ratioBits numerator denominator
  Float.ofBits (UInt64.ofNat (if negative then Nat.pow 2 63 + magnitude else magnitude))

/-- The double nearest to a signed multiple of a power of two. -/
def ofScaled (negative : Bool) (significand : Nat) (exponent : Int) : Float :=
  if 0 ≤ exponent then ofRatio negative (significand * Nat.pow 2 exponent.toNat) 1
  else ofRatio negative significand (Nat.pow 2 (-exponent).toNat)

/-- Numerator and denominator of a multiple of a power of two. -/
def ratio (significand : Nat) (exponent : Int) : Nat × Nat :=
  if 0 ≤ exponent then (significand * Nat.pow 2 exponent.toNat, 1)
  else (significand, Nat.pow 2 (-exponent).toNat)

end Binary64

/-- Positive infinity. -/
def infinity : Float :=
  Float.ofBits (UInt64.ofNat Binary64.infinityBits)

/-- The number that is not equal to itself. -/
def notANumber : Float :=
  Float.ofBits 0x7FF8000000000001

/-- Negative zero. -/
def negativeZero : Float :=
  Float.ofBits 0x8000000000000000

/-- Whether the sign bit is set. -/
def isNegative (value : Float) : Bool :=
  Nat.pow 2 63 ≤ value.toBits.toNat

/-- Whether a number is an infinity. -/
def isInfinite (value : Float) : Bool :=
  match Binary64.ofFloat value with
  | .infinite _ => true
  | _ => false

/-- Whether a number is not a number. -/
def isNaN (value : Float) : Bool :=
  match Binary64.ofFloat value with
  | .nan => true
  | _ => false

/-- The whole part of the magnitude of a finite number. -/
def wholeMagnitude (value : Float) : Nat :=
  match Binary64.ofFloat value with
  | .finite _ significand exponent =>
      let (numerator, denominator) := Binary64.ratio significand exponent
      numerator / denominator
  | _ => 0

/-- A number cut toward zero, which keeps its sign; the special values are left as they are. -/
def truncate (value : Float) : Float :=
  match Binary64.ofFloat value with
  | .finite negative _ _ => Binary64.ofRatio negative (wholeMagnitude value) 1
  | _ => value

/-- A number cut toward zero, as an integer; nothing for the special values. -/
def toInteger? (value : Float) : Option Int :=
  match Binary64.ofFloat value with
  | .finite negative _ _ =>
      let magnitude := Int.ofNat (wholeMagnitude value)
      some (if negative then -magnitude else magnitude)
  | _ => none

/-- The double nearest to a natural number. -/
def ofNat (value : Nat) : Float :=
  Binary64.ofRatio false value 1

/-- The double nearest to an integer. -/
def ofInt (value : Int) : Float :=
  if value = 0 then ofNat 0 else Binary64.ofRatio (value < 0) value.natAbs 1

/-! ## Remainders

The remainder has the sign of the dividend and is exact: both operands are
multiples of one power of two, and so is what is left over.
-/

/-- The remainder of a division of numbers. -/
def remainder (dividend divisor : Float) : Float :=
  match Binary64.ofFloat dividend, Binary64.ofFloat divisor with
  | .finite negative left leftExponent, .finite _ right rightExponent =>
      if right = 0 then notANumber
      else
        let unit := min leftExponent rightExponent
        let scaledLeft := left * Nat.pow 2 (leftExponent - unit).toNat
        let scaledRight := right * Nat.pow 2 (rightExponent - unit).toNat
        Binary64.ofScaled negative (scaledLeft % scaledRight) unit
  | .finite .., .infinite _ => dividend
  | _, _ => notANumber

end ScriptEngine.Number
