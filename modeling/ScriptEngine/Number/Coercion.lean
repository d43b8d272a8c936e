import ScriptEngine.Number.Radix
import ScriptEngine.Number.Reader
import ScriptEngine.Text.Blank

namespace ScriptEngine.Number

/-!
# Numbers in texts

Three ways to read a number from a text: the whole text as a number, the longest
decimal at its front, and the longest row of digits of a base at its front.
Blanks around the text do not count.
-/

/-- The base a marked number is written in, with its digits. -/
def marked? : List Char → Option (Nat × List Char)
  | '0' :: mark :: first :: rest =>
      if mark = 'x' || mark = 'X' then some (16, first :: rest)
      else if mark = 'o' || mark = 'O' then some (8, first :: rest)
      else if mark = 'b' || mark = 'B' then some (2, first :: rest)
      else none
  | _ => none

/-- Digits of a base as a number, if they are and if it is below 2^64. -/
def unsigned? (radix : Nat) (digits : List Char) : Option Float :=
  if digits.isEmpty || !digits.all (digitValue · < radix) then none
  else
    let value := radixValue radix digits
    if value < Nat.pow 2 64 then some (ofNat value) else none

/-- A whole text as a number: zero if it is blank, not-a-number if it is anything else. -/
def ofText (text : String) : Float :=
  let trimmed := Text.trimChars text.toList
  if trimmed.isEmpty then ofNat 0
  else
    match marked? trimmed with
    | some (radix, digits) => (unsigned? radix digits).getD notANumber
    | none =>
        match String.ofList trimmed with
        | "Infinity" | "+Infinity" => infinity
        | "-Infinity" => -infinity
        | _ => (ofFiniteDecimal? trimmed).getD notANumber

/-- Whether a character can stand in a decimal. -/
def isDecimalChar (char : Char) : Bool :=
  char.isDigit || char == '.' || char == '+' || char == '-' || char == 'e' || char == 'E'

/-- The longest front part, given in reverse, that is a finite decimal. -/
def longestDecimal : List Char → Float
  | [] => notANumber
  | last :: earlier =>
      match ofFiniteDecimal? (last :: earlier).reverse with
      | some value => value
      | none => longestDecimal earlier

/-- The number at the front of a text. -/
def ofFront (text : String) : Float :=
  let trimmed := Text.trimChars text.toList
  let unsigned := trimmed.dropWhile fun char => char == '+' || char == '-'
  if "Infinity".toList.isPrefixOf unsigned then
    if trimmed.head? = some '-' then -infinity else infinity
  else longestDecimal (trimmed.takeWhile isDecimalChar).reverse

/-- The digits of a base at the front of a text as a number. -/
def digitsAtFront (radix : Nat) (text : List Char) : Float :=
  let digits := text.takeWhile (digitValue · < radix)
  if digits.isEmpty then notANumber else accumulate radix digits

/-- Drop the mark of hexadecimal numbers. -/
def dropHexMark? : List Char → Option (List Char)
  | '0' :: 'x' :: rest => some rest
  | '0' :: 'X' :: rest => some rest
  | _ => none

/-- The whole number at the front of a text; a radix of zero stands for ten or a mark. -/
def integerOfFront (text : String) (radix : Int) : Float :=
  let (negative, digits) := splitSign (Text.trimChars text.toList)
  let (base, digits) :=
    match if radix = 0 ∨ radix = 16 then dropHexMark? digits else none with
    | some rest => ((16 : Int), rest)
    | none => (if radix = 0 then 10 else radix, digits)
  if base < 2 ∨ 36 < base then notANumber
  else
    let value := digitsAtFront base.toNat digits
    if negative then -1.0 * value else value

end ScriptEngine.Number
