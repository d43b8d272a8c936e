import ScriptEngine.Encoding.Grid
import ScriptEngine.Text.Utf8

namespace ScriptEngine.Encoding

/-!
# Encodings of several bytes per character

Two encodings of Japanese texts and the two byte orders of UTF-16.  What fits
nowhere becomes a replacement mark; where it is followed by a byte that can start
a character, decoding goes on with that byte.
-/

/-- The narrow katakana a byte stands for. -/
def narrowKana? (byte : UInt8) : Option Char :=
  if 0xA1 ≤ byte && byte < 0xE0 then some (Char.ofNat (0xFF61 + (byte.toNat - 0xA1))) else none

/-- The character of a cell of the grid, or the replacement mark. -/
def gridChar (row cell : Nat) : Char :=
  (gridChar? row cell).getD Text.replacementMark

/-- The first of the two rows a leading byte of Shift JIS stands for. -/
def shiftedRow? (byte : UInt8) : Option Nat :=
  if 0x81 ≤ byte && byte < 0xA0 then some (2 * (byte.toNat - 0x81))
  else if 0xE0 ≤ byte && byte < 0xFD then some (2 * (byte.toNat - 0xC1))
  else none

/-- The row, of two, and the cell a trailing byte of Shift JIS stands for. -/
def shiftedCell? (byte : UInt8) : Option (Nat × Nat) :=
  let value := byte.toNat
  if value < 0x40 || value == 0x7F then none
  else if value < 0x7F then some (0, value - 0x40)
  else if value < 0x9F then some (0, value - 0x41)
  else if value < 0xFD then some (1, value - 0x9F)
  else none

/-- Decode Shift JIS. -/
def decodeShiftJis : List UInt8 → List Char
  | [] => []
  | byte :: rest =>
      match shiftedRow? byte with
      | some row =>
          match rest with
          | [] => [Text.replacementMark]
          | second :: after =>
              match shiftedCell? second with
              | some (offset, cell) => gridChar (row + offset) cell :: decodeShiftJis after
              | none =>
                  if second < 0x80 then
                    Text.replacementMark :: decodeShiftJis (second :: after)
                  else Text.replacementMark :: decodeShiftJis after
      | none =>
          let char :=
            if byte ≤ 0x80 then Char.ofNat byte.toNat
            else (narrowKana? byte).getD Text.replacementMark
          char :: decodeShiftJis rest

/-- Whether a byte is part of a pair in EUC-JP. -/
def isPaired (byte : UInt8) : Bool :=
  0xA1 ≤ byte && byte ≤ 0xFE

/-- Decode EUC-JP; characters of the supplementary grid become replacement marks. -/
def decodeEucJp : List UInt8 → List Char
  | [] => []
  | byte :: rest =>
      if byte < 0x80 then Char.ofNat byte.toNat :: decodeEucJp rest
      else
        match rest with
        | [] => [Text.replacementMark]
        | second :: after =>
            if byte == 0x8E then
              match narrowKana? second with
              | some kana => kana :: decodeEucJp after
              | none =>
                  if 0xDF < second && second < 0xFF then
                    Text.replacementMark :: decodeEucJp after
                  else Text.replacementMark :: decodeEucJp (second :: after)
            else if byte == 0x8F then
              if isPaired second then
                match after with
                | [] =>
                    if second < 0xFE then [Text.replacementMark]
                    else Text.replacementMark :: decodeEucJp [second]
                | third :: last =>
                    if isPaired third then Text.replacementMark :: decodeEucJp last
                    else Text.replacementMark :: decodeEucJp (third :: last)
              else Text.replacementMark :: decodeEucJp (second :: after)
            else if isPaired byte && isPaired second then
              gridChar (byte.toNat - 0xA1) (second.toNat - 0xA1) :: decodeEucJp after
            else Text.replacementMark :: decodeEucJp (second :: after)

/-- Which byte of a unit comes first. -/
inductive ByteOrder where
  | bigEndian
  | littleEndian
  deriving DecidableEq, Repr

namespace ByteOrder

/-- The unit of two bytes. -/
def unit (order : ByteOrder) (first second : UInt8) : Nat :=
  match order with
  | bigEndian => first.toNat * 256 + second.toNat
  | littleEndian => second.toNat * 256 + first.toNat

end ByteOrder

/-- Whether a unit of UTF-16 is half of a pair. -/
def isSurrogate (unit : Nat) : Bool :=
  0xD800 ≤ unit && unit < 0xE000

/-- Whether a unit of UTF-16 ends a pair. -/
def isPairEnd (unit : Nat) : Bool :=
  0xDC00 ≤ unit && unit < 0xE000

/-- The character of a pair; a pair of two ends has none. -/
def pairChar (first second : Nat) : Char :=
  if first < 0xDC00 then
    Char.ofNat (0x10000 + (first - 0xD800) * 0x400 + (second - 0xDC00))
  else Text.replacementMark

/-- The units of UTF-16 in a byte string, and whether a byte is left over. -/
def units (order : ByteOrder) : List UInt8 → List Nat × Bool
  | [] => ([], false)
  | [_] => ([], true)
  | first :: second :: rest =>
      let (more, odd) := units order rest
      (order.unit first second :: more, odd)

/-- The characters of units of UTF-16. -/
def unitChars : List Nat → List Char
  | [] => []
  | [unit] => [if isSurrogate unit then Text.replacementMark else Char.ofNat unit]
  | unit :: next :: rest =>
      if isSurrogate unit then
        if isPairEnd next then pairChar unit next :: unitChars rest
        else Text.replacementMark :: unitChars (next :: rest)
      else Char.ofNat unit :: unitChars (next :: rest)

/-- Decode UTF-16; a byte left over at the end becomes a replacement mark. -/
def decodeUtf16 (order : ByteOrder) (bytes : List UInt8) : List Char :=
  let (listed, odd) := units order bytes
  unitChars listed ++ if odd then [Text.replacementMark] else []

end ScriptEngine.Encoding
