import ScriptEngine.Pattern.Members

namespace ScriptEngine.Pattern

/-!
# The slots of groups

A pattern is passed once before it is read, to find its groups.  A group has a
number: one it is written with, or the next free one in the order of the opening
parentheses.  Groups with a name get the numbers after those.  The slots of a
match are the numbers in ascending order; number zero is the whole match.
-/

/-- Whether blanks between parts include a character. -/
def isGapChar (char : Char) : Bool :=
  char = ' ' || ('\t' ≤ char && char ≤ '\r')

/-- Skip comments in parentheses and, where blanks say nothing, blanks and comments of a line. -/
def skipGaps (spaced : Bool) : Nat → List Char → Read (List Char)
  | 0, rest => .ok rest
  | budget + 1, rest =>
      let rest := if spaced then rest.dropWhile isGapChar else rest
      match rest with
      | '(' :: '?' :: '#' :: after =>
          match after.dropWhile (· != ')') with
          | _ :: left => skipGaps spaced budget left
          | [] => .error .unterminatedComment
      | '#' :: after =>
          if spaced then skipGaps spaced budget (after.dropWhile (· != '\n')) else .ok rest
      | _ => .ok rest

/-- Skip what stands between two parts. -/
def skipGap (options : Options) (rest : List Char) : Read (List Char) :=
  skipGaps options.spaced (rest.length + 1) rest

/-- The numbers of groups in ascending order and the numbers of their names. -/
structure Slots where
  numbers : List Nat
  names : List (String × Nat)
  deriving DecidableEq, Repr

namespace Slots

/-- Whether there is a group of a number. -/
def has (slots : Slots) (number : Nat) : Bool :=
  slots.numbers.contains number

/-- The slot of a number; a number without a group gets a slot that is never filled. -/
def slotOf (slots : Slots) (number : Nat) : Nat :=
  (slots.numbers.findIdx? (· == number)).getD slots.numbers.length

/-- The number of a name. -/
def numberOf? (slots : Slots) (name : String) : Option Nat :=
  slots.names.lookup name

/-- The number of slots with that of the whole match. -/
def size (slots : Slots) : Nat :=
  slots.numbers.length

/-- Whether groups can be referred to by what stands between angle brackets. -/
def hasNames (slots : Slots) : Bool :=
  !slots.names.isEmpty || slots.numbers != List.range slots.size

end Slots

/-- What has been found of the groups so far. -/
structure SlotDraft where
  next : Nat
  numbers : List Nat
  names : List String
  options : Options
  outer : List Options
  bare : Bool

namespace SlotDraft

/-- Before the first group. -/
def start (options : Options) : SlotDraft :=
  ⟨1, [0], [], options, [], false⟩

/-- Note a group with a number. -/
def note (draft : SlotDraft) (number : Nat) : SlotDraft :=
  if draft.numbers.contains number then draft
  else { draft with numbers := number :: draft.numbers }

/-- Note a group with a name. -/
def noteName (draft : SlotDraft) (name : String) : SlotDraft :=
  if draft.names.contains name then draft
  else { draft with names := draft.names ++ [name] }

/-- Note a group that gets the next number. -/
def noteNext (draft : SlotDraft) : SlotDraft :=
  { draft.note draft.next with next := draft.next + 1 }

/-- Keep the settings for after a group that begins. -/
def enter (draft : SlotDraft) : SlotDraft :=
  { draft with outer := draft.options :: draft.outer, bare := false }

/-- Take up the settings from before a group that ends. -/
def leave (draft : SlotDraft) : SlotDraft :=
  match draft.outer with
  | options :: outer => { draft with options := options, outer := outer }
  | [] => draft

/-- The first free number from one on, within a budget. -/
def freeFrom (numbers : List Nat) : Nat → Nat → Nat
  | 0, number => number
  | budget + 1, number =>
      if numbers.contains number then freeFrom numbers budget (number + 1) else number

/-- Give numbers to the names in their order. -/
def assign : List String → Nat → List Nat → List (String × Nat) → List Nat × List (String × Nat)
  | [], _, numbers, named => (numbers, named)
  | name :: rest, next, numbers, named =>
      let number := freeFrom numbers (numbers.length + 1) next
      assign rest (number + 1) (number :: numbers) (named ++ [(name, number)])

/-- The slots that were found. -/
def slots (draft : SlotDraft) : Slots :=
  let (numbers, names) := assign draft.names draft.next draft.numbers []
  ⟨numbers.mergeSort (· ≤ ·), names⟩

end SlotDraft

/-- Note the group whose name or number stands at the front. -/
def surveyName (draft : SlotDraft) (rest : List Char) : Read (SlotDraft × List Char) :=
  match rest with
  | first :: _ =>
      if first = '0' || !Text.isNameChar first then .ok (draft, rest)
      else if first.isDigit then
        (readNumber rest).map fun (number, left) => (draft.note number, left)
      else
        let name := rest.takeWhile Text.isNameChar
        .ok (draft.noteName (String.ofList name), rest.drop name.length)
  | [] => .ok (draft, [])

/-- Find the groups of the rest of a pattern. -/
def surveyFrom : Nat → SlotDraft → List Char → Read SlotDraft
  | 0, draft, _ => .ok draft
  | budget + 1, draft, rest =>
      match rest with
      | [] => .ok draft
      | '\\' :: char :: after =>
          surveyFrom budget draft <|
            if char = 'p' || char = 'P' then skipProperty after
            else skipEscape draft.options char after
      | '[' :: after => surveyFrom budget draft (skipSet draft.options after)
      | ')' :: after => surveyFrom budget draft.leave after
      | '#' :: after =>
          surveyFrom budget draft <|
            if draft.options.spaced then after.dropWhile (· != '\n') else after
      | '(' :: '?' :: '#' :: after =>
          surveyFrom budget { draft with bare := false } ((after.dropWhile (· != ')')).drop 1)
      | '(' :: '?' :: after =>
          let entered := draft.enter
          let named := match after with
            | mark :: _ :: _ => mark = '<' || mark = '\''
            | _ => false
          if named then do
            let (noted, left) ← surveyName entered (after.drop 1)
            surveyFrom budget noted left
          else
            let (changed, left) := Options.read true entered.options after
            match left with
            | ')' :: more =>
                surveyFrom budget { entered with options := changed, outer := draft.outer } more
            | '(' :: _ => surveyFrom budget { entered with options := changed, bare := true } left
            | _ => surveyFrom budget { entered with options := changed } left
      | '(' :: after =>
          let entered := draft.enter
          surveyFrom budget
            (if draft.options.unnumbered || draft.bare then entered else entered.noteNext) after
      | _ :: after => surveyFrom budget draft after

/-- The slots of a pattern. -/
def survey (options : Options) (chars : List Char) : Read Slots :=
  (surveyFrom (chars.length + 1) (SlotDraft.start options) chars).map SlotDraft.slots

end ScriptEngine.Pattern
