import ScriptEngine.Pattern.LetterRule
import ScriptEngine.Text.Attribute
import ScriptEngine.Text.Casing
import ScriptEngine.Text.Category
import ScriptEngine.Text.Script

namespace ScriptEngine

/-!
# Sets of code points in patterns

A set is made of ranges and named classes, possibly inverted as a whole, and another
set may be taken away from it.  The ranges of a set are kept disjoint, apart and in
ascending order.
-/

/-!
## Classes of code points with a name

A name stands for a general category, for the categories that share its letter,
for a script or for an attribute.  Names are taken as they are written.
-/

namespace Text

/-- The table of a name, if there is one. -/
def tableNamed? (tables : List (String × String)) (name : String) : Option Ranges :=
  (tables.find? (·.1 == name)).map fun (_, table) => Ranges.ofTable table

/-- The code points of the common script: they are assigned and belong to no other script. -/
def commonRanges : Ranges :=
  .outside ((scriptTables.map fun (_, table) => .ofTable table) ++
    [Category.surrogate, .privateUse, .unassigned].map Category.ranges)

/-- The code points a name stands for, in one or more pieces. -/
def namedClass? (name : String) : Option (List Ranges) :=
  match Category.named name with
  | [] =>
      if name = "Common" then some [commonRanges]
      else
        match tableNamed? scriptTables name with
        | some ranges => some [ranges]
        | none => (tableNamed? attributeTables name).map ([·])
  | categories => some (categories.map Category.ranges)

end Text

/-! ## Sets -/

/-- A named class of code points, or all code points outside it. -/
structure ClassTest where
  name : String
  inverted : Bool
  pieces : List Text.Ranges
  deriving DecidableEq, Repr

namespace ClassTest

/-- Whether a code point is in the class the name stands for. -/
def isNamed (test : ClassTest) (code : Nat) : Bool :=
  test.pieces.any (·.containsCode code)

/--
Whether one of the tests admits a code point.  A class decides about its own
members and an inverted class about all code points, so later tests are not asked.
-/
def anyAdmits : List ClassTest → Nat → Bool
  | [], _ => false
  | test :: rest, code =>
      if test.isNamed code then !test.inverted else test.inverted || anyAdmits rest code

end ClassTest

/-- The greatest code point. -/
def lastCode : Nat :=
  0x10FFFF

/-- Join the ranges that meet, given in ascending order of their first code points. -/
def joinRanges : List (Nat × Nat) → List (Nat × Nat)
  | [] => []
  | (first, last) :: rest =>
      match joinRanges rest with
      | [] => [(first, last)]
      | (next, stop) :: others =>
          if next ≤ last + 1 then (first, max last stop) :: others
          else (first, last) :: (next, stop) :: others

/-- Ranges in ascending order, without those that meet. -/
def orderRanges (members : List (Nat × Nat)) : List (Nat × Nat) :=
  joinRanges (members.mergeSort fun left right => left.1 ≤ right.1)

/-- The ranges and classes of a set before anything is taken away. -/
structure SetCore where
  inverted : Bool
  members : List (Nat × Nat)
  classes : List ClassTest
  everything : Bool
  deriving DecidableEq, Repr

namespace SetCore

/-- A set without members, or with all of them. -/
def start (inverted : Bool) : SetCore :=
  ⟨inverted, [], [], false⟩

/-- The set of some ranges. -/
def ofRanges (members : List (Nat × Nat)) : SetCore :=
  ⟨false, members, [], false⟩

/-- A set grown to every code point. -/
def fill (core : SetCore) : SetCore :=
  { core with members := [(0, lastCode)], classes := [], everything := true }

/-- Add ranges. -/
def addRanges (core : SetCore) (members : List (Nat × Nat)) : SetCore :=
  if core.everything then core else { core with members := orderRanges (core.members ++ members) }

/-- Add a class; a class and its inversion together are everything. -/
def addClass (core : SetCore) (test : ClassTest) : SetCore :=
  if core.everything then core
  else
    match core.classes.find? (·.name == test.name) with
    | some known => if known.inverted = test.inverted then core else core.fill
    | none => { core with classes := core.classes ++ [test] }

/-- Add the members of another set. -/
def addAll (core other : SetCore) : SetCore :=
  if core.everything then core
  else if other.everything then core.fill
  else (other.classes.foldl addClass core).addRanges other.members

/-- A set made fit for comparing in lower case. -/
def fold (core : SetCore) : SetCore :=
  if core.everything then core
  else
    { core with
      members := orderRanges <| core.members.flatMap fun (first, last) =>
        if first = last then [(Text.lowerCode first, Text.lowerCode first)]
        else (first, last) :: LetterRule.images first last }

/-- Whether a code point belongs to a set. -/
def contains (core : SetCore) (code : Nat) : Bool :=
  (core.members.any (fun (first, last) => first ≤ code && code ≤ last) ||
    ClassTest.anyAdmits core.classes code) != core.inverted

/-- The only code point in the ranges of a set without classes. -/
def only? (core : SetCore) : Option Nat :=
  match core.members, core.classes with
  | [(first, last)], [] => if first = last then some first else none
  | _, _ => none

/-- Whether a set has neither ranges nor classes. -/
def isBare (core : SetCore) : Bool :=
  core.members.isEmpty && core.classes.isEmpty

end SetCore

/-- A set of code points. -/
inductive CharSet where
  | plain (core : SetCore)
  | without (core : SetCore) (removed : CharSet)
  deriving DecidableEq, Repr

namespace CharSet

/-- The set of some ranges. -/
def ofRanges (members : List (Nat × Nat)) : CharSet :=
  .plain (SetCore.ofRanges members)

/-- Whether a code point belongs to a set. -/
def contains : CharSet → Nat → Bool
  | plain core, code => core.contains code
  | without core removed, code => core.contains code && !removed.contains code

/-- The ranges and classes of a set that others can be added to. -/
def mergeable? : CharSet → Option SetCore
  | plain core => if core.inverted then none else some core
  | without _ _ => none

/-- The name of a set in a pattern.  Code points that are no characters have a name in common. -/
def label : CharSet → List (Bool × List Nat × List (String × Bool))
  | plain core => [labelOf core]
  | without core removed => labelOf core :: removed.label
where
  labelOf (core : SetCore) : Bool × List Nat × List (String × Bool) :=
    (core.inverted,
      core.members.flatMap fun (first, last) => [shown first, shown last],
      core.classes.map fun test => (test.name, test.inverted))
  shown (code : Nat) : Nat :=
    if code.isValidChar then code else 0xFFFD

/-- The ranges between given ones, which are disjoint and ascending. -/
def complementFrom : Nat → List (Nat × Nat) → List (Nat × Nat)
  | next, [] => if next ≤ lastCode then [(next, lastCode)] else []
  | next, (first, last) :: rest =>
      let remaining := complementFrom (last + 1) rest
      if next < first then (next, first - 1) :: remaining else remaining

/-- The digits. -/
def digitRanges : List (Nat × Nat) :=
  [(0x30, 0x39)]

/-- The characters of words. -/
def wordRanges : List (Nat × Nat) :=
  [(0x30, 0x39), (0x41, 0x5A), (0x5F, 0x5F), (0x61, 0x7A)]

/-- The characters of white space in patterns. -/
def spaceRanges : List (Nat × Nat) :=
  [(0x09, 0x0D), (0x20, 0x20), (0xA0, 0xA0), (0x1680, 0x1680), (0x2000, 0x200A),
    (0x2028, 0x2029), (0x202F, 0x202F), (0x205F, 0x205F), (0x3000, 0x3000), (0xFEFF, 0xFEFF)]

/-- The ranges a class letter stands for; a capital letter stands for all others. -/
def classRanges? : Char → Option (List (Nat × Nat))
  | 'd' => some digitRanges
  | 'D' => some (complementFrom 0 digitRanges)
  | 'w' => some wordRanges
  | 'W' => some (complementFrom 0 wordRanges)
  | 's' => some spaceRanges
  | 'S' => some (complementFrom 0 spaceRanges)
  | _ => none

/-- What a dot stands for: everything but the ends of lines. -/
def dot : CharSet :=
  ofRanges (complementFrom 0 [(0x0A, 0x0A), (0x0D, 0x0D)])

/-- Every code point. -/
def anything : CharSet :=
  ofRanges [(0, lastCode)]

end CharSet

end ScriptEngine
