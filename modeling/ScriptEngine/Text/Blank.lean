import ScriptEngine.Text.Utf8

namespace ScriptEngine.Text

/-!
# White space

The characters with the Unicode property White_Space, and trimming them from
both ends of a text.
-/

/-- Whether a character has the property White_Space. -/
def isBlank (char : Char) : Bool :=
  let code := char.toNat
  (0x09 ≤ code && code ≤ 0x0D) || code == 0x20 || code == 0x85 || code == 0xA0 ||
    code == 0x1680 || (0x2000 ≤ code && code ≤ 0x200A) || code == 0x2028 || code == 0x2029 ||
    code == 0x202F || code == 0x205F || code == 0x3000

/-- A list of characters without the blanks at both ends. -/
def trimChars (text : List Char) : List Char :=
  trimEnd isBlank (text.dropWhile isBlank)

/-- A text without the blanks at both ends. -/
def trim (text : String) : String :=
  String.ofList (trimChars text.toList)

end ScriptEngine.Text
