import ScriptEngine.Error
import ScriptEngine.Number.Radix

namespace ScriptEngine

/-!
# Escapes in string literals

The text between the quotes of a string literal is decoded from left to right.
A pair of escaped surrogates makes one character; a surrogate alone is replaced.
-/

/-- The character of a one-letter escape. -/
def simpleEscape? : Char → Option Char
  | 'n' => some '\n'
  | 't' => some '\t'
  | 'r' => some '\r'
  | 'b' => some (Char.ofNat 8)
  | 'f' => some (Char.ofNat 12)
  | 'v' => some (Char.ofNat 11)
  | '\'' => some '\''
  | '"' => some '"'
  | '\\' => some '\\'
  | '/' => some '/'
  | _ => none

/-- The value of exactly `count` hexadecimal digits, with what follows them. -/
def hexDigits? : Nat → Nat → List Char → Option (Nat × List Char)
  | 0, value, rest => some (value, rest)
  | count + 1, value, char :: rest =>
      if Number.digitValue char < 16 then
        hexDigits? count (value * 16 + Number.digitValue char) rest
      else none
  | _ + 1, _, [] => none

/-- The character of a code point, with a replacement mark for a surrogate. -/
def charOfCode (code : Nat) : Char :=
  if code.isValidChar then Char.ofNat code else Text.replacementMark

/-- The code point of a high and a low surrogate. -/
def joinSurrogates? (high low : Nat) : Option Nat :=
  if 0xD800 ≤ high ∧ high < 0xDC00 ∧ 0xDC00 ≤ low ∧ low < 0xE000 then
    some (0x10000 + (high - 0xD800) * 0x400 + (low - 0xDC00))
  else none

/-- The character of a four-digit escape, joined with an escape after it if they are a pair. -/
def unicodeEscape (code : Nat) (rest : List Char) : Char × List Char :=
  match rest with
  | '\\' :: 'u' :: digits =>
      match hexDigits? 4 0 digits with
      | some (low, after) =>
          match joinSurrogates? code low with
          | some joined => (charOfCode joined, after)
          | none => (charOfCode code, rest)
      | none => (charOfCode code, rest)
  | _ => (charOfCode code, rest)

/-- Decode with a budget of one step per character. -/
def unescapeFrom : Nat → List Char → Except LoweringFault (List Char)
  | 0, _ => .ok []
  | _ + 1, [] => .ok []
  | budget + 1, '\\' :: rest =>
      match rest with
      | [] => .error .unfinishedEscape
      | char :: after =>
          match simpleEscape? char with
          | some decoded => (unescapeFrom budget after).map (decoded :: ·)
          | none =>
              match char with
              | '0' =>
                  match after with
                  | next :: _ =>
                      if next.isDigit then .error .octalEscape
                      else (unescapeFrom budget after).map (Char.ofNat 0 :: ·)
                  | [] => .ok [Char.ofNat 0]
              | '\n' => unescapeFrom budget after
              | '\r' =>
                  match after with
                  | '\n' :: left => unescapeFrom budget left
                  | _ => unescapeFrom budget after
              | 'x' =>
                  match hexDigits? 2 0 after with
                  | some (code, left) => (unescapeFrom budget left).map (charOfCode code :: ·)
                  | none => .error .badHexEscape
              | 'u' =>
                  match hexDigits? 4 0 after with
                  | some (code, left) =>
                      let (decoded, remaining) := unicodeEscape code left
                      (unescapeFrom budget remaining).map (decoded :: ·)
                  | none => .error .badUnicodeEscape
              | _ => .error (.unknownEscape char)
  | budget + 1, char :: rest => (unescapeFrom budget rest).map (char :: ·)

/-- Decode the text between the quotes of a string literal. -/
def unescape (raw : String) : Except LoweringFault String :=
  let chars := raw.toList
  if chars.contains '\\' then (unescapeFrom (chars.length + 1) chars).map String.ofList
  else .ok raw

end ScriptEngine
