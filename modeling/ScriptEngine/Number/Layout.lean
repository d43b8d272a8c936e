import ScriptEngine.Number.Shortest

namespace ScriptEngine.Number

/-!
# The text of a number

The digits of a number are laid out with a point in their middle while the
magnitude is moderate, and with an exponent otherwise.
-/

/-- The decisions of a number format: where positional writing starts and ends, counted in digits
before the point, the least number of digits of an exponent, and the texts of the special
values. -/
structure Layout where
  leastPoint : Int
  greatestPoint : Int
  exponentWidth : Nat
  notANumber : String
  infinity : String
  negativeInfinity : String
  zero : String
  negativeZero : String

/-- Numbers of a script: positional from a millionth up to 10^21, both zeros written alike. -/
def Layout.script : Layout where
  leastPoint := -5
  greatestPoint := 21
  exponentWidth := 1
  notANumber := "NaN"
  infinity := "Infinity"
  negativeInfinity := "-Infinity"
  zero := "0"
  negativeZero := "0"

/-- The decimal digits of a natural number. -/
def digitsText (value : Nat) : List Char :=
  Nat.toDigits 10 value

/-- Digits with a point after the first `point` of them, filled up with zeros. -/
def positional (digits : List Char) (point : Int) : List Char :=
  if point ≤ 0 then
    '0' :: '.' :: (List.replicate (-point).toNat '0' ++ digits)
  else if digits.length ≤ point.toNat then
    digits ++ List.replicate (point.toNat - digits.length) '0'
  else
    digits.take point.toNat ++ '.' :: digits.drop point.toNat

/-- Digits with a point after the first of them and an exponent of at least `width` digits. -/
def exponential (width : Nat) (digits : List Char) (point : Int) : List Char :=
  let shown := point - 1
  let exponent := digitsText shown.natAbs
  let mantissa :=
    match digits with
    | first :: second :: rest => first :: '.' :: second :: rest
    | short => short
  let sign := if shown < 0 then '-' else '+'
  mantissa ++ 'e' :: sign :: (List.replicate (width - exponent.length) '0' ++ exponent)

/-- The magnitude of a finite number as text. -/
def Layout.magnitude (layout : Layout) (significand : Nat) (exponent : Int) : List Char :=
  let decimal := Shortest.decimal significand exponent
  let digits := digitsText decimal.digits
  let point := Int.ofNat digits.length + decimal.power
  if layout.leastPoint ≤ point ∧ point ≤ layout.greatestPoint then positional digits point
  else exponential layout.exponentWidth digits point

/-- A number as text. -/
def Layout.text (layout : Layout) (value : Float) : String :=
  match Binary64.ofFloat value with
  | .nan => layout.notANumber
  | .infinite negative => if negative then layout.negativeInfinity else layout.infinity
  | .finite negative significand exponent =>
      if significand = 0 then if negative then layout.negativeZero else layout.zero
      else
        let digits := layout.magnitude significand exponent
        String.ofList (if negative then '-' :: digits else digits)

/-- The text of a number in a script. -/
def text (value : Float) : String :=
  Layout.script.text value

/-! ## A set number of places

A number with a set number of fraction digits is cut out of its exact decimal
expansion.  The first digit that is left out decides whether one is added to the
digits in front of it; the carry runs through the nines at their end.
-/

/-- How many digits the expansion of a double has behind the point at most. -/
def expansionPlaces : Nat :=
  1074

/-- The exact decimal expansion of a double's magnitude, before and behind the point. -/
def expansion (significand : Nat) (exponent : Int) : List Char × List Char :=
  let (numerator, denominator) := Binary64.ratio significand exponent
  let behind := digitsText (numerator % denominator * Nat.pow 10 expansionPlaces / denominator)
  (digitsText (numerator / denominator),
    List.replicate (expansionPlaces - behind.length) '0' ++ behind)

/-- Add one to digits that are given from the last one on. -/
def addOne : List Char → List Char
  | [] => ['1']
  | digit :: rest =>
      if digit = '9' then '0' :: addOne rest
      else Char.ofNat (digit.toNat + 1) :: rest

/-- The digits of an expansion up to a place behind the point, rounded by the digit that follows. -/
def keptDigits (whole fraction : List Char) (places : Nat) : List Char :=
  let kept := whole ++ fraction.take places
  if '5' ≤ fraction.getD places '0' then (addOne kept.reverse).reverse else kept

/-- Digits with a point in front of the last `places` of them. -/
def placePoint (digits : List Char) (places : Nat) : List Char :=
  let whole := digits.length - places
  digits.take whole ++ if places = 0 then [] else '.' :: digits.drop whole

/-- A number with `places` fraction digits; the special values and very large numbers are written
as usual. -/
def fixedText (value : Float) (places : Nat) : String :=
  match Binary64.ofFloat value with
  | .finite _ significand exponent =>
      let (numerator, denominator) := Binary64.ratio significand exponent
      if denominator * Nat.pow 10 21 ≤ numerator then text value
      else
        let (whole, fraction) := expansion significand exponent
        let digits := placePoint (keptDigits whole fraction places) places
        String.ofList (if value < 0 then '-' :: digits else digits)
  | _ => text value

end ScriptEngine.Number
