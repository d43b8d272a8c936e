import ScriptEngine.Number.Radix
import ScriptEngine.Number.Shortest

namespace ScriptEngine.Number

/-!
# Reading decimals

A decimal text is a sign, digits with at most one point among them, and an
exponent.  It is read exactly and then rounded once to the nearest double.
-/

/-- A decimal text taken apart: its sign and its exact magnitude. -/
structure Reading where
  negative : Bool
  decimal : Decimal
  deriving DecidableEq, Repr

/-- The value of a list of decimal digits. -/
def digitsValue (digits : List Char) : Nat :=
  digits.foldl (fun total digit => total * 10 + (digit.toNat - '0'.toNat)) 0

/-- Split an optional sign from a text. -/
def splitSign : List Char → Bool × List Char
  | '+' :: rest => (false, rest)
  | '-' :: rest => (true, rest)
  | rest => (false, rest)

/-- The size of an exponent: digits count until the number they make has five of them. -/
def exponentSize (digits : List Char) : Nat :=
  digits.foldl (fun total digit =>
    if total < 10000 then total * 10 + (digit.toNat - '0'.toNat) else total) 0

/-- The exponent at the end of a decimal: nothing, or a mark, an optional sign and digits. -/
def readExponent? : List Char → Option Int
  | [] => some 0
  | mark :: rest =>
      if mark = 'e' || mark = 'E' then
        let (negative, digits) := splitSign rest
        if digits.isEmpty || !digits.all Char.isDigit then none
        else
          let size := Int.ofNat (exponentSize digits)
          some (if negative then -size else size)
      else none

/-- Read a magnitude: digits, an optional point with more digits, and an exponent. -/
def readMagnitude? (text : List Char) : Option Decimal :=
  let whole := text.takeWhile Char.isDigit
  let afterWhole := text.dropWhile Char.isDigit
  let (fraction, afterFraction) :=
    match afterWhole with
    | '.' :: rest => (rest.takeWhile Char.isDigit, rest.dropWhile Char.isDigit)
    | rest => ([], rest)
  if whole.isEmpty && fraction.isEmpty then none
  else
    (readExponent? afterFraction).map fun exponent =>
      ⟨digitsValue (whole ++ fraction), exponent - Int.ofNat fraction.length⟩

/-- Read a decimal text. -/
def readDecimal? (text : List Char) : Option Reading :=
  let (negative, magnitude) := splitSign text
  (readMagnitude? magnitude).map (Reading.mk negative)

/-- The bits of the double nearest to a decimal; magnitudes far out of range are not expanded. -/
def Decimal.bits (decimal : Decimal) : Nat :=
  let reach := Int.ofNat (decimal.digits.log2 / 3) + decimal.power
  if decimal.digits = 0 then 0
  else if 400 < decimal.power then Binary64.infinityBits
  else if reach < -800 then 0
  else
    let (numerator, denominator) := decimal.ratio
    Binary64.ratioBits numerator denominator

/-- The double nearest to a reading. -/
def Reading.toFloat (reading : Reading) : Float :=
  let magnitude := reading.decimal.bits
  Float.ofBits (UInt64.ofNat (if reading.negative then Nat.pow 2 63 + magnitude else magnitude))

/-- Read a decimal text as a number, infinite when it is out of range. -/
def ofDecimal? (text : List Char) : Option Float :=
  (readDecimal? text).map Reading.toFloat

/-- Read a decimal text as a number, refusing one that is out of range. -/
def ofFiniteDecimal? (text : List Char) : Option Float :=
  match ofDecimal? text with
  | some value => if isInfinite value then none else some value
  | none => none

/-!
## Number literals

A literal of a program is a decimal or an integer with a radix mark.
-/

/-- The radix that a leading zero and this letter mark. -/
def radixOfMark? (letter : Char) : Option Nat :=
  if letter = 'x' || letter = 'X' then some 16
  else if letter = 'o' || letter = 'O' then some 8
  else if letter = 'b' || letter = 'B' then some 2
  else none

/-- The value of an integer in a radix: exact and rounded once while it fits 64 bits, and
accumulated digit by digit beyond. -/
def integerLiteral (radix : Nat) (digits : List Char) : Float :=
  let exact := radixValue radix digits
  if exact < Nat.pow 2 64 then ofNat exact else accumulate radix digits

/-- The value of a decimal literal; a point at its end is dropped. -/
def decimalLiteral? (literal : List Char) : Option Float :=
  ofDecimal? (if literal.getLast? = some '.' then literal.dropLast else literal)

/-- The value of a number literal; nothing when digits are missing. -/
def ofLiteral? (literal : List Char) : Option Float :=
  match literal with
  | '0' :: letter :: digits =>
      match radixOfMark? letter with
      | some radix => if digits.isEmpty then none else some (integerLiteral radix digits)
      | none => decimalLiteral? literal
  | _ => decimalLiteral? literal

end ScriptEngine.Number
