import ScriptEngine.Text.Category

namespace ScriptEngine.Text

/-!
# Quoted texts

A quoted text stands between quotes, with its quote and the backslash escaped
and every character that is not printable written as an escape.
-/

/-- A value in hexadecimal with at least the given number of digits. -/
def hexText (width value : Nat) : String :=
  let digits := Nat.toDigits 16 value
  String.ofList (List.replicate (width - digits.length) '0' ++ digits)

/-- The letter that follows the backslash in a short escape. -/
def shortEscape? (code : Nat) : Option Char :=
  match code with
  | 7 => some 'a'
  | 8 => some 'b'
  | 9 => some 't'
  | 10 => some 'n'
  | 11 => some 'v'
  | 12 => some 'f'
  | 13 => some 'r'
  | _ => none

/-- One character inside the given quotes. -/
def quotedChar (quote char : Char) : String :=
  if char = quote || char = '\\' then String.ofList ['\\', char]
  else if isPrintable char then String.singleton char
  else
    let code := char.toNat
    match shortEscape? code with
    | some letter => String.ofList ['\\', letter]
    | none =>
        if code < 0x20 || code == 0x7F then "\\x" ++ hexText 2 code
        else if code < 0x10000 then "\\u" ++ hexText 4 code
        else "\\U" ++ hexText 8 code

/-- A text in double quotes. -/
def quoted (text : String) : String :=
  "\"" ++ String.join (text.toList.map (quotedChar '"')) ++ "\""

/-- A character in single quotes. -/
def quotedSingle (char : Char) : String :=
  "'" ++ quotedChar '\'' char ++ "'"

end ScriptEngine.Text
