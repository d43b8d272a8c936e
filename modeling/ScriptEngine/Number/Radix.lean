import ScriptEngine.Number.Binary64
import ScriptEngine.Number.Layout

namespace ScriptEngine.Number

/-!
# Numbers in other bases

Digits beyond nine are letters; reading takes either case and writing uses the
small ones.
-/

/-- The value of a digit or letter in the largest base, 36 for anything else. -/
def digitValue (char : Char) : Nat :=
  if char.isDigit then char.toNat - '0'.toNat
  else if 'a' ≤ char && char ≤ 'z' then char.toNat - 'a'.toNat + 10
  else if 'A' ≤ char && char ≤ 'Z' then char.toNat - 'A'.toNat + 10
  else 36

/-- The digit of a value below 36. -/
def digitChar (value : Nat) : Char :=
  if value < 10 then Char.ofNat ('0'.toNat + value) else Char.ofNat ('a'.toNat + (value - 10))

/-- The digits of a natural number in a base, the last one first, with a budget of steps. -/
def radixDigitsReversed (radix : Nat) : Nat → Nat → List Char
  | 0, _ => []
  | budget + 1, value =>
      if value < radix then [digitChar value]
      else digitChar (value % radix) :: radixDigitsReversed radix budget (value / radix)

/-- The digits of a natural number in a base. -/
def radixDigits (radix value : Nat) : List Char :=
  (radixDigitsReversed radix (value.log2 + 1) value).reverse

/-- The digits of a large whole number, found by repeated division of doubles, the last first. -/
def largeDigitsReversed (radix : Nat) : Nat → Float → List Char
  | 0, _ => []
  | budget + 1, value =>
      if value ≥ 1 then
        digitChar (wholeMagnitude (remainder value (ofNat radix))) ::
          largeDigitsReversed radix budget (truncate (value / ofNat radix))
      else []

/-- The digits of a fraction in a base, at most as many as the budget. -/
def fractionDigits (radix : Nat) : Nat → Float → List Char
  | 0, _ => []
  | budget + 1, fraction =>
      if fraction > 0 then
        let scaled := fraction * ofNat radix
        let digit := wholeMagnitude scaled
        digitChar digit :: fractionDigits radix budget (scaled - ofNat digit)
      else []

/-- The most fraction digits that are written in another base. -/
def fractionBudget : Nat :=
  52

/-- A number in a base from 2 to 36. -/
def radixText (value : Float) (radix : Nat) : String :=
  match Binary64.ofFloat value with
  | .finite negative significand _ =>
      if radix = 10 then text value
      else
        let magnitude := value.abs
        let whole := truncate magnitude
        let fraction := magnitude - whole
        let wholeDigits :=
          if wholeMagnitude magnitude < Nat.pow 2 63 then radixDigits radix (wholeMagnitude magnitude)
          else (largeDigitsReversed radix 1100 whole).reverse
        let digits :=
          if fraction > 0 then wholeDigits ++ '.' :: fractionDigits radix fractionBudget fraction
          else wholeDigits
        String.ofList (if negative && significand ≠ 0 then '-' :: digits else digits)
  | _ => text value

/-- Digits in a base read one after the other in double arithmetic. -/
def accumulate (radix : Nat) (digits : List Char) : Float :=
  digits.foldl (fun total digit => total * ofNat radix + ofNat (digitValue digit)) (ofNat 0)

/-- The exact value of digits in a base. -/
def radixValue (radix : Nat) (digits : List Char) : Nat :=
  digits.foldl (fun total digit => total * radix + digitValue digit) 0

end ScriptEngine.Number
