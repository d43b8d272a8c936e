import ScriptEngine.Text.Casing

namespace ScriptEngine

/-!
# Searching for a text

A text that every match of a pattern begins with is searched for from its end: where a
character does not fit, the search moves on by as much as the rest of the text allows.
Two tables tell how far: one by what has fitted already, one by the character found.
-/

/-- A look-up behind the end of a table while searching. -/
structure LookupFault where
  index : Nat
  length : Nat
  deriving DecidableEq, Repr

/-- The most characters of a text that are searched for. -/
def longestLiteral : Nat :=
  50

/-- A text to search for, and how far to move on where its end from a place on has fitted. -/
structure Literal where
  codes : Array Nat
  shifts : Array Nat
  folded : Bool
  deriving DecidableEq, Repr

namespace Literal

/-- How long two ends of a text agree, going back from two places. -/
def agreement (codes : Array Nat) : Nat → Nat → Nat → Nat
  | 0, _, agreed => agreed
  | budget + 1, distance, agreed =>
      let last := codes.size - 1
      if last < distance + agreed then agreed
      else if codes[last - agreed]? = codes[last - agreed - distance]? then
        agreement codes budget distance (agreed + 1)
      else agreed

/-- How far to move on where the end of a text has fitted down to a place. -/
def shiftsOf (codes : Array Nat) : Array Nat :=
  let last := codes.size - 1
  let start := (Array.replicate codes.size 0).setIfInBounds last 1
  let noted := (List.range last).foldl (fun shifts before =>
    let distance := before + 1
    let agreed := agreement codes codes.size distance 0
    let place := last - agreed
    if agreed ≠ 0 ∧ shifts.getD place 0 = 0 then shifts.setIfInBounds place distance
    else shifts) start
  noted.map fun shift => if shift = 0 then 1 else shift

/-- A text to search for, unless it has characters above the basic plane. -/
def of? (folded : Bool) (codes : List Nat) : Option Literal :=
  let codes := (if folded then codes.map Text.lowerCode else codes).toArray
  if codes.isEmpty || codes.any (0xFFFF < ·) then none
  else some ⟨codes, shiftsOf codes, folded⟩

/-- The code point at a place of a text. -/
def codeAt (literal : Literal) (text : Array Char) (place : Nat) : Nat :=
  let code := (text.getD place ' ').toNat
  if literal.folded then Text.lowerCode code else code

/-- Whether the text stands at a place. -/
def standsAt (literal : Literal) (text : Array Char) (place : Nat) : Bool :=
  place + literal.codes.size ≤ text.size &&
    (List.range literal.codes.size).all fun offset =>
      literal.codes[offset]? == some (literal.codeAt text (place + offset))

/-- How far the end of the text lies behind the last place of a code point in it. -/
def fromEnd (literal : Literal) (code : Nat) : Nat :=
  let listed := literal.codes.toList.reverse
  (listed.findIdx? (· == code)).getD literal.codes.size

/-- How far to move on from a character that is not the last of the text. -/
def skip (literal : Literal) (code : Nat) : Nat :=
  if code < 0xFFFF then literal.fromEnd code else literal.codes.size

/-- The size of the table for the first code points. -/
def tableSize (literal : Literal) : Nat :=
  if literal.codes.any (fun code => 0x80 ≤ code && code < 0x100) then 256 else 128

/-- Whether there is a table for a code point beyond the first ones. -/
def hasTable (literal : Literal) (code : Nat) : Bool :=
  code < 0xFFFF && literal.codes.any (fun known => 0x80 ≤ known && known / 256 == code / 256)

/-- How far to move on where the text fits down to a place but not before it. -/
def shift (literal : Literal) (place code : Nat) : Except LookupFault Nat :=
  let least := literal.shifts.getD place 1
  let farther := max least (literal.fromEnd code + place + 1 - literal.codes.size)
  if code % 0x10000 < 0x80 then
    if literal.tableSize ≤ code then .error ⟨code, literal.tableSize⟩ else .ok farther
  else if literal.hasTable code then .ok farther
  else .ok least

/-- The place of the text that ends at a place, or how far to move on; `fitted` characters have
been compared. -/
def compareFrom (literal : Literal) (text : Array Char) (stop : Nat) :
    Nat → Nat → Except LookupFault (Option Nat)
  | 0, _ => .ok none
  | budget + 1, fitted =>
      if literal.codes.size ≤ fitted then .ok none
      else
        let place := literal.codes.size - 1 - fitted
        let code := literal.codeAt text (stop - fitted)
        if literal.codes[place]? = some code then literal.compareFrom text stop budget (fitted + 1)
        else (literal.shift place code).map some

/-- The first place from which on the text stands, given the place its end is looked for at. -/
def findFrom (literal : Literal) (text : Array Char) :
    Nat → Nat → Except LookupFault (Option Nat)
  | 0, _ => .ok none
  | budget + 1, stop =>
      if text.size ≤ stop then .ok none
      else
        let code := literal.codeAt text stop
        if literal.codes.back? = some code then do
          match ← literal.compareFrom text stop literal.codes.size 1 with
          | none => .ok (some (stop + 1 - literal.codes.size))
          | some distance => literal.findFrom text budget (stop + distance)
        else literal.findFrom text budget (stop + literal.skip code)

/-- The first place from a given one on at which the text stands. -/
def find (literal : Literal) (text : Array Char) (place : Nat) :
    Except LookupFault (Option Nat) :=
  literal.findFrom text (text.size + 1) (place + literal.codes.size - 1)

end Literal

end ScriptEngine
