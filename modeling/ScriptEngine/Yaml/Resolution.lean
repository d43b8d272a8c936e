import ScriptEngine.Number.Coercion
import ScriptEngine.Text.Utf8
import ScriptEngine.Yaml.Fault
import ScriptEngine.Yaml.Moment
import ScriptEngine.Yaml.Node

namespace ScriptEngine.Yaml

/-!
# What YAML scalars stand for

The text of a plain scalar decides what it stands for: nothing, a truth value, a
number, a point in time or a text.  A tag of one of these demands it, and under any
other tag a scalar stands for its text.
-/

/-- What a scalar stands for. -/
inductive Scalar where
  | null
  | boolean (value : Bool)
  | integer (value : Int)
  | float (value : Float)
  | moment (value : Moment)
  | string (text : String)

namespace Scalar

/-- The tag of what a scalar stands for. -/
def tag : Scalar → String
  | null => Tag.null
  | boolean _ => Tag.boolean
  | integer _ => Tag.integer
  | float _ => Tag.float
  | moment _ => Tag.moment
  | string _ => Tag.string

/-- The scalars that are known by their whole text. -/
def ofWord? : String → Option Scalar
  | "" | "~" | "null" | "Null" | "NULL" => some null
  | "true" | "True" | "TRUE" => some (boolean true)
  | "false" | "False" | "FALSE" => some (boolean false)
  | ".nan" | ".NaN" | ".NAN" => some (float Number.notANumber)
  | ".inf" | ".Inf" | ".INF" | "+.inf" | "+.Inf" | "+.INF" => some (float Number.infinity)
  | "-.inf" | "-.Inf" | "-.INF" => some (float (-Number.infinity))
  | _ => none

/-! ## Numbers -/

/-- A number of digits in a base. -/
def digits? (radix : Nat) (digits : List Char) : Option Nat :=
  if digits.isEmpty || !digits.all (Number.digitValue · < radix) then none
  else some (Number.radixValue radix digits)

/-- A whole number without a sign: a mark or a leading zero tells its base. -/
def natural? (text : List Char) : Option Nat :=
  match text with
  | '0' :: mark :: rest =>
      if mark == 'x' || mark == 'X' then digits? 16 rest
      else if mark == 'o' || mark == 'O' then digits? 8 rest
      else if mark == 'b' || mark == 'B' then digits? 2 rest
      else digits? 8 (mark :: rest)
  | _ => digits? 10 text

/-- A whole number of 64 bits with a sign. -/
def signed? (negative : Bool) (size : Nat) : Option Int :=
  if negative then if size ≤ Nat.pow 2 63 then some (-Int.ofNat size) else none
  else if size < Nat.pow 2 63 then some (Int.ofNat size)
  else none

/-- A whole number of 64 bits in a base, with a sign or without one. -/
def inRadix? (radix : Nat) (text : List Char) : Option Int :=
  match text with
  | '-' :: digits => (digits? radix digits).bind (signed? true)
  | '+' :: digits => (digits? radix digits).bind (signed? false)
  | digits => (digits? radix digits).bind (signed? false)

/-- A whole number whose sign stands behind the mark of its base. -/
def innerSigned? : List Char → Option Int
  | '0' :: 'b' :: rest => inRadix? 2 rest
  | '0' :: 'o' :: rest => inRadix? 8 rest
  | _ => none

/-- A whole number that fits 64 bits, with a sign or without one. -/
def integer? (text : List Char) : Option Int :=
  match text with
  | '-' :: rest => (natural? rest).bind (signed? true)
  | '+' :: rest => (natural? rest).bind (signed? false)
  | _ => (natural? text).bind fun size => if size < Nat.pow 2 64 then some (Int.ofNat size) else none

/-- A text without the underscores between its digits, unless one stands elsewhere. -/
def withoutSeparators? : Char → List Char → Option (List Char)
  | previous, [] => if previous == '_' then none else some []
  | previous, char :: rest =>
      if char == '_' then
        if previous.isDigit then withoutSeparators? '_' rest else none
      else if previous == '_' && !char.isDigit then none
      else (withoutSeparators? char rest).map (char :: ·)

/-! ## Resolution -/

/-- What a text that starts with a digit or a sign stands for, if it is a number. -/
def number? (text : List Char) : Option Scalar :=
  (integer? text).map integer <|> (Number.ofFiniteDecimal? text).map float <|>
    (innerSigned? text).map integer

/-- What a text that starts with a digit or a sign stands for. -/
def ofDigits (momentAllowed : Bool) (text : String) : Scalar :=
  let read := if momentAllowed then Moment.ofText? text.toList else none
  match read with
  | some value => moment value
  | none => (number? (text.toList.filter (· != '_'))).getD (string text)

/-- What a text that starts with a point stands for. -/
def ofPoint (text : String) : Scalar :=
  match (withoutSeparators? ' ' text.toList).bind Number.ofFiniteDecimal? with
  | some value => float value
  | none => string text

/-- What a plain text stands for. -/
def ofText (momentAllowed : Bool) (text : String) : Scalar :=
  match ofWord? text with
  | some scalar => scalar
  | none =>
      match text.toList with
      | first :: _ =>
          if first.isDigit || first == '+' || first == '-' then ofDigits momentAllowed text
          else if first == '.' then ofPoint text
          else string text
      | [] => null

/-- Whether a tag demands that a scalar stands for something else than its text. -/
def isDemanding (tag : String) : Bool :=
  tag == "" || tag == Tag.boolean || tag == Tag.integer || tag == Tag.float ||
    tag == Tag.null || tag == Tag.moment

/-- What a text stands for under a tag; only a whole number can stand for another kind. -/
def resolve (tag text : String) : Except Fault Scalar :=
  if !isDemanding tag then .ok (string text)
  else
    let scalar := ofText (tag == "" || tag == Tag.moment) text
    if tag == "" || tag == scalar.tag then .ok scalar
    else
      match scalar with
      | integer value =>
          if tag == Tag.float && value < Int.ofNat (Nat.pow 2 63) then .ok (float (Number.ofInt value))
          else .error (.unplaced (.wrongKind scalar.tag text tag))
      | _ => .error (.unplaced (.wrongKind scalar.tag text tag))

/-- The value of a digit of base 64. -/
def base64Digit? (char : Char) : Option Nat :=
  if 'A' ≤ char && char ≤ 'Z' then some (char.toNat - 'A'.toNat)
  else if 'a' ≤ char && char ≤ 'z' then some (char.toNat - 'a'.toNat + 26)
  else if char.isDigit then some (char.toNat - '0'.toNat + 52)
  else if char == '+' then some 62
  else if char == '/' then some 63
  else none

/-- The bytes of groups of four digits of base 64, of which the last may be padded. -/
def base64Groups : List Char → Option (List UInt8)
  | [] => some []
  | [a, b, '=', '='] => do
      let value := (← base64Digit? a) * 64 + (← base64Digit? b)
      return [UInt8.ofNat (value / 16)]
  | [a, b, c, '='] => do
      let value := ((← base64Digit? a) * 64 + (← base64Digit? b)) * 64 + (← base64Digit? c)
      return [UInt8.ofNat (value / 1024), UInt8.ofNat (value / 4 % 256)]
  | a :: b :: c :: d :: rest => do
      let front := (← base64Digit? a) * 64 + (← base64Digit? b)
      let value := (front * 64 + (← base64Digit? c)) * 64 + (← base64Digit? d)
      let more ← base64Groups rest
      return UInt8.ofNat (value / 65536) :: UInt8.ofNat (value / 256 % 256) ::
        UInt8.ofNat (value % 256) :: more
  | _ => none

/-- The text written in base 64; line breaks do not count. -/
def ofBase64 (text : String) : Except Fault String :=
  match base64Groups (text.toList.filter fun char => char != '\n' && char != '\r') with
  | some bytes => .ok (Text.decodeLossy (ByteArray.mk bytes.toArray))
  | none => .error (.unplaced .badBase64)

end Scalar

end ScriptEngine.Yaml
