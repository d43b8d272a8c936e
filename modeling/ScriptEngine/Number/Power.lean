import ScriptEngine.Number.Binary64

namespace ScriptEngine.Number

/-!
# Powers

A power is found by repeated squaring of the significand, with the exponent of
two kept apart so that nothing overflows on the way.  The fraction of the
exponent goes through the logarithm.
-/

/-!
## Exponentials and logarithms

Both functions reduce their argument by a multiple of the logarithm of two and sum
a fixed series for what remains.  Where a product is added to something, the exponential
rounds once.  So each has one value for an argument, whatever computes it.
-/

namespace Binary64

/-- The signed multiple of `2 ^ unit` that a double is, for a unit not above its own. -/
def units (unit : Int) (negative : Bool) (significand : Nat) (exponent : Int) : Int :=
  let size := Int.ofNat (significand * Nat.pow 2 (exponent - unit).toNat)
  if negative then -size else size

/-- The double nearest to a signed multiple of `2 ^ unit`. -/
def ofUnits (unit count : Int) : Float :=
  ofScaled (count < 0) count.natAbs unit

end Binary64

/-- A product plus a number, rounded once; the operands have to be finite. -/
def multiplyAdd (left right addend : Float) : Float :=
  match Binary64.ofFloat left, Binary64.ofFloat right, Binary64.ofFloat addend with
  | .finite leftSign leftSize leftPower, .finite rightSign rightSize rightPower,
      .finite sign size power =>
      let unit := min (leftPower + rightPower) power
      let product := Binary64.units unit (leftSign != rightSign) (leftSize * rightSize)
        (leftPower + rightPower)
      Binary64.ofUnits unit (product + Binary64.units unit sign size power)
  | _, _, _ => left * right + addend

/-- The nearest whole number, a half going to the even one. -/
def nearestWhole (value : Float) : Int :=
  match Binary64.ofFloat value with
  | .finite negative significand exponent =>
      let (numerator, denominator) := Binary64.ratio significand exponent
      let size := Int.ofNat (Binary64.roundHalfEven numerator denominator)
      if negative then -size else size
  | _ => 0

/-- A whole number as a double. -/
def ofWhole (value : Int) : Float :=
  Binary64.ofUnits 0 value

namespace Exponential

/-- One over the logarithm of two. -/
def perDoubling : Float :=
  1.4426950408889634073599246810018920

/-- The upper part of the logarithm of two. -/
def doublingHigh : Float :=
  0.69314718055966295651160180568695068359375

/-- The rest of the logarithm of two. -/
def doublingLow : Float :=
  0.00000000000028235290563031577122588448175013436025525412068

/-- The coefficients of the series after the first, the one of the highest power first. -/
def coefficients : List Float := [
  0.00019841269841269841270, 0.0013888888888888888889, 0.0083333333333333333333,
  0.041666666666666666667, 0.16666666666666666667, 0.5, 1.0]

/-- The coefficient of the highest power. -/
def highest : Float :=
  0.000024801587301587301587

/-- The exponential less one of twice what has the exponential less one `part`. -/
def double (part : Float) : Float :=
  part * (part + 2.0)

end Exponential

/-- The power of the base of natural logarithms to a number, if it is a normal double. -/
def naturalPower (value : Float) : Float :=
  let scale := nearestWhole (Exponential.perDoubling * value)
  let reduced := multiplyAdd (-Exponential.doublingHigh) (ofWhole scale) value
  let reduced := multiplyAdd (-Exponential.doublingLow) (ofWhole scale) reduced
  let small := reduced * 0.0625
  let series := Exponential.coefficients.foldl
    (fun total coefficient => multiplyAdd total small coefficient) Exponential.highest
  let part := Exponential.double (Exponential.double (Exponential.double (small * series)))
  (multiplyAdd part (part + 2.0) 1.0).scaleB scale

namespace Logarithm

/-- The square root of one half. -/
def rootOfHalf : Float :=
  0.70710678118654752440

/-- The upper part of the logarithm of two. -/
def doublingHigh : Float :=
  0.693147180369123816490

/-- The rest of the logarithm of two. -/
def doublingLow : Float :=
  0.000000000190821492927058770002

/-- The even part of the series in the square of `square`. -/
def evenPart (square fourth : Float) : Float :=
  square * (0.6666666666666735130 +
    fourth * (0.2857142874366239149 + fourth * (0.1818357216161805012 +
      fourth * 0.1479819860511658591)))

/-- The odd part of the series in the square of `square`. -/
def oddPart (fourth : Float) : Float :=
  fourth * (0.3999999999940941908 +
    fourth * (0.2222219843214978396 + fourth * 0.1531383769920937332))

/--
The significand of a positive number between one half and one, and its power of
two, read off its fields.  The smallest numbers are taken for normal ones, so their
logarithm is that of a number with the same fraction and a leading one before it.
-/
def fieldsOf (value : Float) : Float × Int :=
  let bits := value.toBits.toNat
  let fraction := bits % Nat.pow 2 52
  let scale := Int.ofNat (bits / Nat.pow 2 52 % 2048) - 1022
  (Binary64.ofScaled false (Nat.pow 2 52 + fraction) (-53), scale)

end Logarithm

/-- The natural logarithm of a positive number. -/
def naturalLogarithm (value : Float) : Float :=
  let (significand, scale) := Logarithm.fieldsOf value
  let (significand, scale) :=
    if significand ≤ Logarithm.rootOfHalf then (significand * 2.0, scale - 1)
    else (significand, scale)
  let rest := significand - 1.0
  let doublings := ofWhole scale
  let quotient := rest / (2.0 + rest)
  let square := quotient * quotient
  let fourth := square * square
  let series := Logarithm.evenPart square fourth + Logarithm.oddPart fourth
  let half := 0.5 * rest * rest
  doublings * Logarithm.doublingHigh -
    ((half - (quotient * (half + series) + doublings * Logarithm.doublingLow)) - rest)

/-! ## Repeated squaring -/

/-- Whether a number is an odd integer. -/
def isOddInteger (value : Float) : Bool :=
  truncate value == value && wholeMagnitude value % 2 == 1

/-- Repeated squaring: result with its power of two, base with its power of two, exponent. -/
def powerSteps : Nat → Float → Int → Float → Int → Nat → Float × Int
  | 0, result, scale, _, _, _ => (result, scale)
  | budget + 1, result, scale, base, baseScale, exponent =>
      if exponent = 0 then (result, scale)
      else if baseScale < -4096 || 4096 < baseScale then (result, scale + baseScale)
      else
        let (result, scale) :=
          if exponent % 2 = 1 then (result * base, scale + baseScale) else (result, scale)
        let squared := base * base
        let (base, baseScale) :=
          if squared < 0.5 then (squared + squared, baseScale * 2 - 1) else (squared, baseScale * 2)
        powerSteps budget result scale base baseScale (exponent / 2)

/-- A power of a finite base that is not zero to a finite exponent that is not zero. -/
def finitePower (base exponent : Float) : Float :=
  let magnitude := exponent.abs
  let whole := wholeMagnitude magnitude
  let fraction := magnitude - ofNat whole
  if fraction != 0 && base < 0 then notANumber
  else if Nat.pow 2 63 ≤ whole then
    if base == -1 then 1
    else if (base.abs < 1) == (exponent > 0) then 0
    else infinity
  else
    let (whole, fraction) :=
      if fraction > 0.5 then (whole + 1, fraction - 1) else (whole, fraction)
    let start := if fraction == 0 then 1 else naturalPower (fraction * naturalLogarithm base)
    let (significand, scale) := base.frExp
    let (result, scale) := powerSteps 64 start 0 significand scale whole
    if exponent < 0 then (1 / result).scaleB (-scale) else result.scaleB scale

/-- A power, with the usual values at zero, one and the infinities. -/
def power (base exponent : Float) : Float :=
  if exponent == 0 || base == 1 then 1
  else if exponent == 1 then base
  else if isNaN base || isNaN exponent then notANumber
  else if base == 0 then
    let signed := isNegative base && isOddInteger exponent
    if exponent < 0 then (if signed then -infinity else infinity)
    else if signed then base else 0
  else if isInfinite exponent then
    if base == -1 then 1
    else if (base.abs < 1) == (exponent > 0) then 0
    else infinity
  else if isInfinite base then
    if base < 0 then
      let signed := isOddInteger exponent
      if exponent < 0 then (if signed then negativeZero else 0)
      else if signed then -infinity else infinity
    else if exponent < 0 then 0
    else infinity
  else if exponent == 0.5 then base.sqrt
  else if exponent == -0.5 then 1 / base.sqrt
  else finitePower base exponent

/-- Round to the nearest integer, a half upward. -/
def roundHalfUpward (value : Float) : Float :=
  if isNaN value || isInfinite value || value == truncate value then value
  else if value < 0 && value ≥ -0.5 then negativeZero
  else (value + 0.5).floor

end ScriptEngine.Number
