namespace ScriptEngine.Text

/-!
# Texts as bytes

Offsets into a source text count the bytes of its UTF-8 form, while scripts
count code points.  This module converts between the two views and decodes byte
strings, strictly, with a replacement mark for each byte that fits nowhere, or with
one for each ill-formed subpart.
-/

/-- The character that stands for a byte or code point that cannot be decoded. -/
def replacementMark : Char :=
  Char.ofNat 0xFFFD

/-- The mark that may open a text file to tell its byte order. -/
def byteOrderMark : Char :=
  Char.ofNat 0xFEFF

/-- The number of UTF-8 bytes of a list of characters. -/
def byteCount (text : List Char) : Nat :=
  text.foldr (fun char count => char.utf8Size + count) 0

/-- Decode a byte string, refusing anything that is not well-formed UTF-8. -/
def decodeUtf8? (bytes : ByteArray) : Option String :=
  String.fromUTF8? bytes

/-- The value of a continuation byte, or nothing for any other byte. -/
def continuation? (byte : UInt8) : Option Nat :=
  if 0x80 ≤ byte.toNat ∧ byte.toNat < 0xC0 then some (byte.toNat - 0x80) else none

/-- The number of continuation bytes a leading byte asks for, with its own payload. -/
def leading? (byte : UInt8) : Option (Nat × Nat) :=
  let value := byte.toNat
  if value < 0x80 then some (0, value)
  else if 0xC2 ≤ value ∧ value < 0xE0 then some (1, value - 0xC0)
  else if 0xE0 ≤ value ∧ value < 0xF0 then some (2, value - 0xE0)
  else if 0xF0 ≤ value ∧ value < 0xF5 then some (3, value - 0xF0)
  else none

/-- Read `count` continuation bytes onto an accumulated value. -/
def continuations : Nat → Nat → List UInt8 → Option (Nat × List UInt8)
  | 0, value, rest => some (value, rest)
  | _ + 1, _, [] => none
  | count + 1, value, byte :: rest =>
      match continuation? byte with
      | some payload => continuations count (value * 64 + payload) rest
      | none => none

/-- The least code point that needs the given number of continuation bytes. -/
def leastCode : Nat → Nat
  | 0 => 0
  | 1 => 0x80
  | 2 => 0x800
  | _ => 0x10000

/-- Decode one character from the front of a byte string. -/
def decodeOne? : List UInt8 → Option (Char × List UInt8)
  | [] => none
  | byte :: rest =>
      match leading? byte with
      | none => none
      | some (count, payload) =>
          match continuations count payload rest with
          | none => none
          | some (code, after) =>
              if valid : code.isValidChar then
                if leastCode count ≤ code then
                  some (Char.ofNatAux code valid, after)
                else none
              else none

/-- Decode with a budget of one step per byte, replacing each stray byte. -/
def decodeLossyFrom : Nat → List UInt8 → List Char
  | 0, _ => []
  | _ + 1, [] => []
  | budget + 1, byte :: rest =>
      match decodeOne? (byte :: rest) with
      | some (char, after) => char :: decodeLossyFrom budget after
      | none => replacementMark :: decodeLossyFrom budget rest

/-- Decode a byte string, writing a replacement mark for each stray byte. -/
def decodeLossy (bytes : ByteArray) : String :=
  match decodeUtf8? bytes with
  | some text => text
  | none =>
      let listed := bytes.toList
      String.ofList (decodeLossyFrom listed.length listed)

/-- The bytes that may follow a leading byte, which shut out surrogates, codes above the last
one and forms that are longer than they need to be. -/
def secondByteRange (leading : UInt8) : UInt8 × UInt8 :=
  match leading with
  | 0xE0 => (0xA0, 0xBF)
  | 0xED => (0x80, 0x9F)
  | 0xF0 => (0x90, 0xBF)
  | 0xF4 => (0x80, 0x8F)
  | _ => (0x80, 0xBF)

/-- The number of bytes after an ill-formed leading byte that a well-formed character could
have begun with: they share its replacement mark. -/
def subpartTail (leading : UInt8) (rest : List UInt8) : Nat :=
  match leading? leading, rest with
  | some (count + 1, _), second :: others =>
      let (low, high) := secondByteRange leading
      if low ≤ second ∧ second ≤ high then
        1 + ((others.take (count - 1)).takeWhile fun byte => (continuation? byte).isSome).length
      else 0
  | _, _ => 0

/-- Decode with a budget of one step per byte, replacing each longest ill-formed subpart. -/
def decodeSubpartsFrom : Nat → List UInt8 → List Char
  | 0, _ => []
  | _ + 1, [] => []
  | budget + 1, byte :: rest =>
      match decodeOne? (byte :: rest) with
      | some (char, after) => char :: decodeSubpartsFrom budget after
      | none =>
          replacementMark :: decodeSubpartsFrom budget (rest.drop (subpartTail byte rest))

/-- Decode a byte string, writing one replacement mark for each longest run of bytes that a
well-formed character could have begun with. -/
def decodeSubparts (bytes : ByteArray) : String :=
  match decodeUtf8? bytes with
  | some text => text
  | none =>
      let listed := bytes.toList
      String.ofList (decodeSubpartsFrom listed.length listed)

/-- The text between two byte offsets. -/
def byteSlice (text : String) (start stop : Nat) : String :=
  decodeLossy (text.toUTF8.extract start stop)

/-- Drop a byte order mark from the front of a text. -/
def dropByteOrderMark (text : String) : String :=
  match text.toList with
  | first :: rest => if first = byteOrderMark then String.ofList rest else text
  | [] => text

/-- Split a text at every occurrence of one character; a text without it is one piece. -/
def splitAt (separator : Char) : List Char → List (List Char)
  | [] => [[]]
  | first :: rest =>
      if first = separator then
        [] :: splitAt separator rest
      else
        match splitAt separator rest with
        | piece :: pieces => (first :: piece) :: pieces
        | [] => [[first]]

/-- The lines of a text, without the line feeds between them. -/
def lines (text : String) : List String :=
  (splitAt '\n' text.toList).map String.ofList

/-- Drop the characters of a class from the end of a list. -/
def trimEnd (drop : Char → Bool) (text : List Char) : List Char :=
  (text.reverse.dropWhile drop).reverse

/-- A text repeated a number of times. -/
def repeated (text : String) : Nat → String
  | 0 => ""
  | count + 1 => text ++ repeated text count

/-- Whether a text starts with another. -/
def startsWith (text front : String) : Bool :=
  front.toList.isPrefixOf text.toList

/-- Whether a text holds a character. -/
def holds (text : String) (char : Char) : Bool :=
  text.toList.contains char

/-- Order of texts by code points, which is also the order of their UTF-8 bytes. -/
def before (left right : String) : Bool :=
  decide (left < right)

/-- A list of names in ascending order. -/
def sorted (names : List String) : List String :=
  names.mergeSort fun left right => !before right left

end ScriptEngine.Text
