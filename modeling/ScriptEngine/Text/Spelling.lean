import ScriptEngine.Text.Composition

namespace ScriptEngine.Text

/-!
# Spelling characters out

A character may be spelled out as a letter with marks.  This module knows the
spellings, the classes by which marks are ordered, and which pairs of characters
are joined again.
-/

/-- The composed characters of a row, each with its letter and the mark of the row. -/
def composedRow (mark : Nat) (row : String) : List (Nat × List Nat) :=
  (words row).filterMap fun
    | [composed, letter] => some (composed.toNat, [letter.toNat, mark])
    | _ => none

/-- The composed characters with their pairs, in ascending order. -/
def compositions : Array (Nat × List Nat) :=
  ((compositionRows.flatMap fun (mark, row) => composedRow mark row).mergeSort
    fun left right => left.1 ≤ right.1).toArray

/-- The characters with a canonical spelling of their own. -/
def canonicalSpellings : Array (Nat × List Nat) :=
  spellings canonicalRows

/-- The characters with a compatible spelling. -/
def compatibleSpellings : Array (Nat × List Nat) :=
  spellings compatibleRows

/-- Ranges of marks with their class. -/
def markRangesFrom : Nat → List Nat → List (Nat × Nat × Nat)
  | next, gap :: length :: order :: rest =>
      (next + gap, next + gap + length - 1, order) :: markRangesFrom (next + gap + length) rest
  | _, _ => []

/-- The ranges of marks. -/
def markRanges : Array (Nat × Nat × Nat) :=
  (markRangesFrom 0 (numbers markTable)).toArray

/-- The class of a mark, found between two bounds on the index within a budget of halvings. -/
def searchMark (code : Nat) : Nat → Nat → Nat → Nat
  | 0, _, _ => 0
  | budget + 1, low, high =>
      if high ≤ low then 0
      else
        let middle := (low + high) / 2
        match markRanges[middle]? with
        | none => 0
        | some (first, last, order) =>
            if code < first then searchMark code budget low middle
            else if last < code then searchMark code budget (middle + 1) high
            else order

/-- The class of a mark, zero for any other character. -/
def markClass (code : Nat) : Nat :=
  if code < 0x300 then 0 else searchMark code 12 0 markRanges.size

/-- The first Hangul syllable. -/
def firstSyllable : Nat :=
  0xAC00

/-- The letters of a Hangul syllable. -/
def syllableLetters? (code : Nat) : Option (List Nat) :=
  if firstSyllable ≤ code ∧ code < firstSyllable + 11172 then
    let index := code - firstSyllable
    let lead := 0x1100 + index / 588
    let vowel := 0x1161 + index % 588 / 28
    if index % 28 = 0 then some [lead, vowel] else some [lead, vowel, 0x11A7 + index % 28]
  else none

/-- The Hangul syllable of two parts. -/
def joinSyllable? (first second : Nat) : Option Nat :=
  if 0x1100 ≤ first ∧ first < 0x1113 ∧ 0x1161 ≤ second ∧ second < 0x1176 then
    some (firstSyllable + ((first - 0x1100) * 21 + (second - 0x1161)) * 28)
  else if firstSyllable ≤ first ∧ first < firstSyllable + 11172 ∧
      (first - firstSyllable) % 28 = 0 ∧ 0x11A8 ≤ second ∧ second < 0x11C3 then
    some (first + (second - 0x11A7))
  else none

/-- One step of spelling out a character. -/
def spelling? (compatible : Bool) (code : Nat) : Option (List Nat) :=
  if code < 0xA0 then none
  else
    match syllableLetters? code with
    | some letters => some letters
    | none =>
        match expansion? compositions code with
        | some letters => some letters
        | none =>
            match expansion? canonicalSpellings code with
            | some letters => some letters
            | none => if compatible then expansion? compatibleSpellings code else none

/-- A character spelled out completely, within a budget of steps. -/
def spellOut (compatible : Bool) : Nat → Nat → List Nat
  | 0, code => [code]
  | budget + 1, code =>
      match spelling? compatible code with
      | some letters => letters.flatMap (spellOut compatible budget)
      | none => [code]

/-- The key by which a pair is looked up: the low halves of both code points. -/
def pairKey (first second : Nat) : Nat :=
  first % 0x10000 * 0x10000 + second % 0x10000

/-- The composed characters by the keys of their pairs, in ascending order. -/
def compositionsByKey : Array (Nat × List Nat) :=
  ((compositions.toList.filterMap fun
      | (code, [first, second]) => some (pairKey first second, [code])
      | _ => none).mergeSort fun left right => left.1 ≤ right.1).toArray

/-- The composed character of a pair. -/
def compose? (first second : Nat) : Option Nat :=
  (expansion? compositionsByKey (pairKey first second)).bind List.head?

/-- The characters that stand second in a pair, in ascending order. -/
def joiners : Array (Nat × List Nat) :=
  (((compositions.toList.filterMap fun entry => entry.2[1]?).mergeSort.eraseDups).map
    fun code => (code, [])).toArray

/-- Whether a character may be joined to one before it. -/
def joinsBack (code : Nat) : Bool :=
  (0x1161 ≤ code && code < 0x1176) || (0x11A7 ≤ code && code < 0x11C3) ||
    (0x300 ≤ code && (expansion? joiners code).isSome)

end ScriptEngine.Text
