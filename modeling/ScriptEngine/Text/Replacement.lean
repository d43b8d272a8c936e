import ScriptEngine.Text.Utf8

namespace ScriptEngine.Text

/-!
# Searching, splitting and replacing

Texts are searched from left to right.  A replacement template may stand for the
match, for the text before or after it and for what its groups took.

A text is a row of characters, or a row of bytes, which need not be the bytes of
characters.  A separator and the marks of a template are looked for among the units of
a row; the characters of a text and the places of occurrences are counted after decoding.
-/

/-- The first place at or after a start where a list occurs, within a budget of places. -/
def indexFrom (wanted : List Char) : Nat → Nat → List Char → Option Nat
  | 0, _, _ => none
  | budget + 1, place, text =>
      if wanted.isPrefixOf text then some place
      else
        match text with
        | _ :: rest => indexFrom wanted budget (place + 1) rest
        | [] => none

/-- The first place at or after a start where a text occurs in another. -/
def indexOf? (text wanted : List Char) (start : Nat) : Option Nat :=
  indexFrom wanted (text.length + 1 - start) start (text.drop start)

/-! ## Units -/

/-- The units a text is made of: the character a unit is read as where a mark is looked for, the
characters of a row of units, and the units of a row of characters. -/
structure Units (α : Type) where
  mark : α → Char
  decode : List α → List Char
  encode : List Char → List α

namespace Units

/-- Texts as rows of characters. -/
def chars : Units Char where
  mark := id
  decode := id
  encode := id

/-- Texts as rows of bytes; a byte that belongs to no character is decoded to a replacement
mark. -/
def bytes : Units UInt8 where
  mark byte := Char.ofNat byte.toNat
  decode text := decodeLossyFrom text.length text
  encode text := text.flatMap String.utf8EncodeChar

end Units

/-! ## Splitting -/

/-- Split at the leftmost occurrences of a separator that is not empty, within a budget. -/
def splitFrom {α : Type} [BEq α] (separator : List α) :
    Nat → List α → List α → List (List α)
  | 0, piece, _ => [piece.reverse]
  | budget + 1, piece, text =>
      match text with
      | [] => [piece.reverse]
      | first :: rest =>
          if separator.isPrefixOf text then
            piece.reverse :: splitFrom separator budget [] (text.drop separator.length)
          else splitFrom separator budget (first :: piece) rest

/-- The pieces of a text between the occurrences of a separator.  An empty separator parts all
characters and leaves no piece of an empty text. -/
def Units.split {α : Type} [BEq α] (units : Units α) (text separator : List α) : List (List α) :=
  if text.isEmpty then (if separator.isEmpty then [] else [[]])
  else if separator.isEmpty then (units.decode text).map fun char => units.encode [char]
  else splitFrom separator (text.length + 1) [] text

/-! ## Replacing -/

/-- An occurrence to be replaced: its place among the characters, its text and what its groups
took. -/
structure Occurrence (α : Type) where
  place : Nat
  text : List α
  groups : List (Option (List α))
  deriving DecidableEq, Repr

/-- The value of a decimal digit. -/
def digit? (char : Char) : Option Nat :=
  if char.isDigit then some (char.toNat - '0'.toNat) else none

namespace Units

variable {α : Type} (units : Units α)

/-- The first occurrence of a text among characters. -/
def occurrence? (text : List Char) (wanted : List α) : Option (Occurrence α) :=
  (indexOf? text (units.decode wanted) 0).map fun place => ⟨place, wanted, []⟩

/-- The place among the characters behind an occurrence. -/
def stop (found : Occurrence α) : Nat :=
  found.place + (units.decode found.text).length

/-- The group a number after a dollar sign names, with the units after the number. -/
def groupReference? (groups : Nat) : List α → Option (Nat × List α)
  | first :: rest => do
      let high ← digit? (units.mark first)
      let double : Option (Nat × List α) := do
        let second ← rest.head?
        let low ← digit? (units.mark second)
        let number := high * 10 + low
        if 1 ≤ number ∧ number ≤ groups then some (number, rest.drop 1) else none
      match double with
      | some found => some found
      | none => if 1 ≤ high ∧ high ≤ groups then some (high, rest) else none
  | [] => none

/-- What a reference after a dollar sign stands for, with the units after the reference. -/
def reference? (text : List Char) (found : Occurrence α) : List α → Option (List α × List α)
  | [] => none
  | next :: after =>
      match units.mark next with
      | '$' => some ([next], after)
      | '&' => some (found.text, after)
      | '\x60' => some (units.encode (text.take found.place), after)
      | '\'' => some (units.encode (text.drop (units.stop found)), after)
      | _ =>
          (units.groupReference? found.groups.length (next :: after)).map fun (number, after) =>
            (((found.groups[number - 1]?).bind fun group => group).getD [], after)

/-- A template with its references filled in, within a budget of units. -/
def expandFrom (text : List Char) (found : Occurrence α) : Nat → List α → List α
  | 0, _ => []
  | _ + 1, [] => []
  | budget + 1, unit :: rest =>
      if units.mark unit = '$' then
        match units.reference? text found rest with
        | some (inserted, after) => inserted ++ expandFrom text found budget after
        | none => unit :: expandFrom text found budget rest
      else unit :: expandFrom text found budget rest

/-- A template with its references filled in. -/
def expand (text : List Char) (found : Occurrence α) (template : List α) : List α :=
  units.expandFrom text found (template.length + 1) template

/-- The units of the characters from a place on, with a text put in for each occurrence. -/
def fill (text : Array Char) : Nat → List (Occurrence α × List α) → List α
  | last, [] => units.encode (text.extract last text.size).toList
  | last, (found, inserted) :: rest =>
      units.encode (text.extract last found.place).toList ++
        (inserted ++ fill text (units.stop found) rest)

/-- A text whose occurrences are replaced by what a template is expanded to. -/
def replaceAll (text : List Char) (found : List (Occurrence α)) (template : List α) : List α :=
  units.fill text.toArray 0 (found.map fun taken => (taken, units.expand text taken template))

/-- A text with the first occurrence of another one replaced. -/
def replaceFirst (text wanted template : List α) : List α :=
  let chars := units.decode text
  units.replaceAll chars (units.occurrence? chars wanted).toList template

end Units

end ScriptEngine.Text
