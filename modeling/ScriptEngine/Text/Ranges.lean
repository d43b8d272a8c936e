namespace ScriptEngine.Text

/-!
# Sets of code points

A property of characters is a list of disjoint ranges in ascending order.  A
table is written as a text of numbers: for every range the gap before it and the
number of its code points.
-/

/-- Disjoint ranges of code points in ascending order, each with both of its ends. -/
structure Ranges where
  entries : Array (Nat × Nat)
  deriving DecidableEq, Repr

/-- The number that digits stand for. -/
def ofDigits (digits : List Char) : Nat :=
  digits.foldl (fun number digit => number * 10 + (digit.toNat - '0'.toNat)) 0

/-- The words of a text that blanks and line ends divide.  A star with a count behind a word
repeats it. -/
def words (text : String) : List (List Char) :=
  let parts := text.toList.splitOnP fun char => char = ' ' || char = '\n'
  (parts.filter (!·.isEmpty)).flatMap fun part =>
    match part.splitOn '*' with
    | [first :: rest, count] => List.replicate (ofDigits count) (first :: rest)
    | _ => [part]

/-- The numbers of a text of words. -/
def numbers (text : String) : List Nat :=
  (words text).map ofDigits

namespace Ranges

/-- The ranges described by gaps and lengths, from a first free code point on. -/
def entriesFrom : Nat → List Nat → List (Nat × Nat)
  | first, gap :: length :: rest =>
      (first + gap, first + gap + length - 1) :: entriesFrom (first + gap + length) rest
  | _, _ => []

/-- Read a table of gaps and lengths. -/
def ofTable (table : String) : Ranges :=
  ⟨(entriesFrom 0 (numbers table)).toArray⟩

/-- The ranges before, between and after entries in ascending order, from a first code point on. -/
def gapsFrom (first : Nat) : List (Nat × Nat) → List (Nat × Nat)
  | [] => if first ≤ 0x10FFFF then [(first, 0x10FFFF)] else []
  | (next, last) :: rest =>
      if first < next then (first, next - 1) :: gapsFrom (last + 1) rest
      else gapsFrom (last + 1) rest

/-- The code points in none of several disjoint sets. -/
def outside (sets : List Ranges) : Ranges :=
  let entries := sets.flatMap (·.entries.toList)
  ⟨(gapsFrom 0 (entries.mergeSort fun left right => left.1 ≤ right.1)).toArray⟩

/-- Search a code point between two bounds on the index, with a budget of halvings. -/
def search (ranges : Ranges) (code : Nat) : Nat → Nat → Nat → Bool
  | 0, _, _ => false
  | budget + 1, low, high =>
      if high ≤ low then false
      else
        let middle := (low + high) / 2
        match ranges.entries[middle]? with
        | none => false
        | some (first, last) =>
            if code < first then ranges.search code budget low middle
            else if last < code then ranges.search code budget (middle + 1) high
            else true

/-- Whether a code point lies in one of the ranges. -/
def containsCode (ranges : Ranges) (code : Nat) : Bool :=
  ranges.search code (ranges.entries.size.log2 + 2) 0 ranges.entries.size

/-- Whether a character lies in one of the ranges. -/
def contains (ranges : Ranges) (char : Char) : Bool :=
  ranges.containsCode char.toNat

end Ranges

end ScriptEngine.Text
