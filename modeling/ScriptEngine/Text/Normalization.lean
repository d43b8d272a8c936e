import ScriptEngine.Text.Spelling

namespace ScriptEngine.Text

/-!
# Normal forms

A text is brought to a normal form segment by segment: a letter with the marks that
may join it.  The characters of a segment are spelled out, the marks ordered by their
class and, for the composed forms, letters and marks joined again.  A segment takes up
at most thirty marks; where more follow, an invisible joiner opens a new segment.
Stretches that are in normal form already are passed over.
-/

/-- The normal forms. -/
inductive NormalForm where
  | composed
  | decomposed
  | compatibleComposed
  | compatibleDecomposed
  deriving DecidableEq, Repr

namespace NormalForm

/-- The form of a name. -/
def ofName? : String → Option NormalForm
  | "NFC" => some composed
  | "NFD" => some decomposed
  | "NFKC" => some compatibleComposed
  | "NFKD" => some compatibleDecomposed
  | _ => none

/-- Whether compatible spellings are used. -/
def isCompatible : NormalForm → Bool
  | compatibleComposed | compatibleDecomposed => true
  | _ => false

/-- Whether characters are composed again. -/
def composes : NormalForm → Bool
  | composed | compatibleComposed => true
  | _ => false

end NormalForm

/-- What the normal forms need to know of a character: its spelling in the form, the class of
the first character of that, how many marks lead and trail its widest spelling, and whether it may
stand in the form as it is. -/
structure Traits where
  code : Nat
  letters : List Nat
  order : Nat
  leading : Nat
  trailing : Nat
  joinsBack : Bool
  settled : Bool
  deriving Repr

/-- Whether a character of a spelling may attach to one before it. -/
def attaches (code : Nat) : Bool :=
  markClass code != 0 || joinsBack code

/-- The traits of a character that is spelled as itself and attaches to nothing. -/
def Traits.plain (code : Nat) : Traits :=
  { code, letters := [code], order := 0, leading := 0, trailing := 0, joinsBack := false,
    settled := true }

/-- The traits of a character in a form. -/
def Traits.of (form : NormalForm) (code : Nat) : Traits :=
  if code < 0xA0 then .plain code
  else
    match syllableLetters? code with
    | some letters =>
        { Traits.plain code with letters, trailing := letters.length - 1, settled := form.composes }
    | none =>
        let widest := spellOut true 8 code
        let canonical := spellOut false 8 code
        let letters := if form.isCompatible then widest else canonical
        let back := Text.joinsBack code
        let settled :=
          if form.composes then
            !back && (expansion? canonicalSpellings code).isNone && letters == canonical
          else letters == [code]
        { code
          letters
          order := markClass (letters.headD code)
          leading := (widest.takeWhile attaches).length
          trailing := (widest.reverse.takeWhile attaches).length
          joinsBack := back
          settled }

/-- How a character goes on with a segment. -/
inductive Continuation where
  | starts
  | belongs
  | overflows
  deriving DecidableEq, Repr

/-- The most marks of a segment. -/
def markLimit : Nat :=
  30

/-- How a character goes on with a segment of so many marks, and the number of marks after it. -/
def Traits.continues (traits : Traits) (marks : Nat) : Continuation × Nat :=
  if markLimit < marks + traits.leading then (.overflows, 0)
  else if traits.leading = 0 then (.starts, traits.trailing)
  else (.belongs, marks + traits.leading)

/-- The front of a text that is in normal form, in reverse, with the rest of the text from the
start of the segment that is not.  `pending` is the segment looked at, in reverse, `last` the class
of its last mark, and `marks` their number. -/
def settledFront (form : NormalForm) (last marks : Nat) (done pending : List Char) :
    List Char → List Char × List Char
  | [] => (pending ++ done, [])
  | char :: rest =>
      let traits := Traits.of form char.toNat
      match traits.continues marks with
      | (.overflows, _) => (done, pending.reverse ++ char :: rest)
      | (.starts, marks) =>
          if traits.settled then settledFront form traits.order marks (pending ++ done) [char] rest
          else (pending ++ done, char :: rest)
      | (.belongs, marks) =>
          if traits.settled ∧ last ≤ traits.order then
            settledFront form traits.order marks done (char :: pending) rest
          else (done, pending.reverse ++ char :: rest)

/-- A character of a segment, with its class as a mark. -/
structure Slot where
  code : Nat
  order : Nat
  joinsBack : Bool
  deriving Repr

/-- Put a character into a segment, in reverse: a mark goes before the marks of higher classes. -/
def insertSlot (slot : Slot) (segment : List Slot) : List Slot :=
  if slot.order = 0 then slot :: segment
  else
    segment.takeWhile (fun other => slot.order < other.order) ++
      slot :: segment.dropWhile (fun other => slot.order < other.order)

/-- The place of the last letter, when the last character kept is one. -/
def letterPlace (kept : Array Slot) (place : Nat) : Nat :=
  if (kept.back?.map Slot.order).getD 0 = 0 then kept.size - 1 else place

/-- Whether a character is cut off from the last letter by marks of its class or a higher one. -/
def isBlocked (kept : Array Slot) (place : Nat) (slot : Slot) : Bool :=
  let last := (kept.back?.map Slot.order).getD 0
  place != kept.size - 1 && slot.order ≤ last

/-- Replace the letter of a segment by a composed one. -/
def replaceLetter (kept : Array Slot) (place code : Nat) : Array Slot :=
  kept.setIfInBounds place ⟨code, 0, false⟩

/-- The letter at a place. -/
def letterAt (kept : Array Slot) (place : Nat) : Nat :=
  (kept[place]?.map Slot.code).getD 0

/-- Join the parts of Hangul syllables. -/
def joinSyllables (kept : Array Slot) (place : Nat) : List Slot → Array Slot
  | [] => kept
  | slot :: rest =>
      let place := letterPlace kept place
      if isBlocked kept place slot then joinSyllables (kept.push slot) place rest
      else
        match joinSyllable? (letterAt kept place) slot.code with
        | some code => joinSyllables (replaceLetter kept place code) place rest
        | none => joinSyllables (kept.push slot) place rest

/-- Join the letters and marks of a segment.  From the first part of a Hangul syllable on only
such parts are joined. -/
def joinSlots (kept : Array Slot) (place : Nat) : List Slot → Array Slot
  | [] => kept
  | slot :: rest =>
      if 0x1100 ≤ slot.code ∧ slot.code ≤ 0x11FF then joinSyllables kept place (slot :: rest)
      else if slot.joinsBack then
        let place := letterPlace kept place
        let joined :=
          if isBlocked kept place slot then none
          else compose? (letterAt kept place) slot.code
        match joined with
        | some code => joinSlots (replaceLetter kept place code) place rest
        | none => joinSlots (kept.push slot) place rest
      else joinSlots (kept.push slot) place rest

/-- The text of a segment, which is given in reverse. -/
def segmentText (form : NormalForm) (segment : List Slot) : List Char :=
  let slots :=
    match segment.reverse with
    | [] => []
    | first :: rest => if form.composes then (joinSlots #[first] 0 rest).toList else first :: rest
  slots.map fun slot => Char.ofNat slot.code

/-- Put a spelling into a segment, character by character; one that attaches to nothing ends the
segment before it, of which the text is appended. -/
def insertLetters (form : NormalForm) (done : List Char) (segment : List Slot) :
    List Nat → List Char × List Slot
  | [] => (done, segment)
  | code :: rest =>
      let slot : Slot := ⟨code, markClass code, joinsBack code⟩
      if slot.order = 0 ∧ !slot.joinsBack ∧ !segment.isEmpty then
        insertLetters form (done ++ segmentText form segment) [slot] rest
      else insertLetters form done (insertSlot slot segment) rest

/-- Put a character into a segment. -/
def insertTraits (form : NormalForm) (done : List Char) (segment : List Slot) (traits : Traits) :
    List Char × List Slot :=
  if (syllableLetters? traits.code).isSome then
    (done, traits.letters.reverse.map (⟨·, 0, false⟩) ++ segment)
  else if traits.letters == [traits.code] then
    (done, insertSlot ⟨traits.code, traits.order, traits.joinsBack⟩ segment)
  else insertLetters form done segment traits.letters

/-- The joiner that opens a new segment inside a long run of marks. -/
def segmentJoiner : Slot :=
  ⟨0x34F, 0, false⟩

/-- The text of a segment that has begun, with the text after it. -/
def finishSegment (form : NormalForm) (marks : Nat) (done : List Char) (segment : List Slot) :
    List Char → List Char × List Char
  | [] => (done ++ segmentText form segment, [])
  | char :: rest =>
      let traits := Traits.of form char.toNat
      match traits.continues marks with
      | (.starts, _) => (done ++ segmentText form segment, char :: rest)
      | (.overflows, _) =>
          (done ++ segmentText form (insertSlot segmentJoiner segment), char :: rest)
      | (.belongs, marks) =>
          let (done, segment) := insertTraits form done segment traits
          finishSegment form marks done segment rest

/-- The text of the first segment, with the text after it. -/
def firstSegment (form : NormalForm) : List Char → List Char × List Char
  | [] => ([], [])
  | char :: rest =>
      let traits := Traits.of form char.toNat
      let (done, segment) := insertTraits form [] [] traits
      finishSegment form (traits.continues 0).2 done segment rest

/-- Bring a text to a normal form within a budget of segments. -/
def normalizeFrom (form : NormalForm) : Nat → String → List Char → String
  | 0, done, _ => done
  | _ + 1, done, [] => done
  | budget + 1, done, text =>
      let (segment, rest) := firstSegment form text
      let (front, rest) := settledFront form 0 0 [] [] rest
      normalizeFrom form budget (done ++ String.ofList segment ++ String.ofList front.reverse) rest

/-- A text in a normal form. -/
def normalize (form : NormalForm) (text : String) : String :=
  let (front, rest) := settledFront form 0 0 [] [] text.toList
  normalizeFrom form rest.length (String.ofList front.reverse) rest

end ScriptEngine.Text
