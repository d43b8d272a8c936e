import ScriptEngine.Encoding.MultiByte
import ScriptEngine.Yaml.Fault

namespace ScriptEngine.Yaml

/-!
# Taking in the bytes of a YAML text

A text comes in portions of 512 bytes, and a portion is decoded as a whole when more
characters are wanted than are there.  A fault among the bytes is therefore noticed
with the portion it lies in, and not before a fault in an earlier portion.
-/

/-- How the bytes of a text stand for its characters. -/
inductive ByteForm where
  | utf8
  | utf16 (order : Encoding.ByteOrder)
  deriving DecidableEq, Repr

/-- What the front of a byte string holds. -/
inductive ByteFront where
  | char (char : Char) (rest : List UInt8)
  /-- The beginning of a character, with the problem there is if nothing follows. -/
  | cut (problem : Problem)
  | broken (problem : Problem)
  deriving DecidableEq, Repr

/-- Whether a character may stand in a text. -/
def isAllowed (char : Char) : Bool :=
  let code := char.toNat
  code == 0x09 || code == 0x0A || code == 0x0D || (0x20 ≤ code && code ≤ 0x7E) ||
    code == 0x85 || (0xA0 ≤ code && code ≤ 0xFFFD) || 0x10000 ≤ code

/-- The number of bytes of the character that a byte starts. -/
def sequenceWidth? (byte : UInt8) : Option Nat :=
  if byte < 0x80 then some 1
  else if 0xC0 ≤ byte && byte < 0xE0 then some 2
  else if 0xE0 ≤ byte && byte < 0xF0 then some 3
  else if 0xF0 ≤ byte && byte < 0xF8 then some 4
  else none

namespace ByteFront

/-- The front that stands for a code point. -/
def ofCode (code : Nat) (rest : List UInt8) : ByteFront :=
  if !code.isValidChar then broken .unicodeCharacter
  else if isAllowed (Char.ofNat code) then char (Char.ofNat code) rest
  else broken .controlCharacter

/-- What the first byte of a sequence contributes to its code point. -/
def leadingBits (width : Nat) (first : UInt8) : Nat :=
  match width with
  | 1 => first.toNat
  | 2 => first.toNat % 32
  | 3 => first.toNat % 16
  | _ => first.toNat % 8

/-- The front of a text in UTF-8. -/
def ofUtf8 (first : UInt8) (rest : List UInt8) : ByteFront :=
  match sequenceWidth? first with
  | none => broken .leadingOctet
  | some width =>
      let trailing := rest.take (width - 1)
      if trailing.length < width - 1 then cut .incompleteSequence
      else if trailing.any fun byte => (Text.continuation? byte).isNone then broken .trailingOctet
      else
        let code := trailing.foldl (fun value byte => value * 64 + byte.toNat % 64)
          (leadingBits width first)
        if code < Text.leastCode (width - 1) then broken .sequenceLength
        else ofCode code (rest.drop (width - 1))

/-- The front of a text in UTF-16. -/
def ofUtf16 (order : Encoding.ByteOrder) : List UInt8 → ByteFront
  | first :: second :: rest =>
      let unit := order.unit first second
      if Encoding.isPairEnd unit then broken .loneLowSurrogate
      else if Encoding.isSurrogate unit then
        match rest with
        | third :: fourth :: after =>
            let next := order.unit third fourth
            if Encoding.isPairEnd next then ofCode (Encoding.pairChar unit next).toNat after
            else broken .missingLowSurrogate
        | _ => cut .incompletePair
      else ofCode unit rest
  | _ => cut .incompleteUnit

end ByteFront

namespace ByteForm

/-- What the front of a byte string that is not empty holds. -/
def front (form : ByteForm) (first : UInt8) (rest : List UInt8) : ByteFront :=
  match form with
  | utf8 => .ofUtf8 first rest
  | utf16 order => .ofUtf16 order (first :: rest)

/-- The form of a text, and the number of bytes of the mark that tells it. -/
def detect : List UInt8 → ByteForm × Nat
  | 0xFF :: 0xFE :: _ => (utf16 .littleEndian, 2)
  | 0xFE :: 0xFF :: _ => (utf16 .bigEndian, 2)
  | 0xEF :: 0xBB :: 0xBF :: _ => (utf8, 3)
  | _ => (utf8, 0)

/--
The characters of a portion in reverse, within a budget of one step per byte, with the
bytes after them and what is wrong with these, if it is not only that more must follow.
-/
def decodePortion (form : ByteForm) :
    Nat → List Char → List UInt8 → List Char × List UInt8 × Option Problem
  | 0, done, bytes => (done, bytes, none)
  | _ + 1, done, [] => (done, [], none)
  | budget + 1, done, first :: rest =>
      match form.front first rest with
      | .char char after => decodePortion form budget (char :: done) after
      | .cut _ => (done, first :: rest, none)
      | .broken problem => (done, first :: rest, some problem)

end ByteForm

/-- The characters that can be read, the number of them in each portion, and what keeps the
rest from being read; the portion in which that is found does not count. -/
structure Intake where
  chars : List Char := []
  sizes : List Nat := []
  fault : Option Problem := none

namespace Intake

/-- The number of bytes of a portion. -/
def portionSize : Nat :=
  512

/-- What remains when no more bytes come: the beginning of a character is a fault. -/
def ended (form : ByteForm) : List UInt8 → Intake
  | [] => {}
  | first :: rest =>
      match form.front first rest with
      | .cut problem => { fault := some problem }
      | _ => {}

/--
Take in bytes after those of a character that is not finished; there is room for a
number of them in the next portion.
-/
def portions (form : ByteForm) : Nat → Nat → List UInt8 → List UInt8 → Intake
  | 0, _, _, _ => {}
  | budget + 1, room, left, bytes =>
      if bytes.isEmpty then ended form left
      else
        let portion := left ++ bytes.take room
        match form.decodePortion portion.length [] portion with
        | (done, _, some problem) => { chars := done.reverse, fault := some problem }
        | (done, left, none) =>
            let more := portions form budget (portionSize - left.length) left (bytes.drop room)
            { chars := done.reverse ++ more.chars
              sizes := done.length :: more.sizes
              fault := more.fault }

/-- Take in a byte string; a mark that tells the byte order is no part of the text. -/
def ofBytes (bytes : ByteArray) : Intake :=
  let listed := bytes.toList
  let (form, markSize) := ByteForm.detect listed
  portions form (listed.length + 1) (portionSize - markSize) [] (listed.drop markSize)

end Intake

end ScriptEngine.Yaml
