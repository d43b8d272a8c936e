import ScriptEngine.Pattern.Program
import ScriptEngine.Text.Category

namespace ScriptEngine

/-!
# Carrying out programs

A program is carried out from a place in a text on.  Instructions that leave another
way open note on a trail how to take it up; when an instruction fails, the last note is
taken back.  A second stack holds what belongs to loops and groups that are open: marks
of places, counts of rounds, and the lengths of the trail to go back to.
-/

/-- The piece of a text between two offsets. -/
structure Span where
  start : Nat
  stop : Nat
  deriving DecidableEq, Repr

namespace Span

/-- The piece between two places in either order. -/
def between (first second : Nat) : Span :=
  ⟨min first second, max first second⟩

/-- What lies between two pieces, or what they share if they meet. -/
def inner (span other : Span) : Span :=
  if other.stop ≤ span.start then ⟨other.stop, span.start⟩
  else if span.stop ≤ other.start then ⟨other.start, span.stop⟩
  else ⟨max span.start other.start, min span.stop other.stop⟩

end Span

/-- The text that is searched and where the search began. -/
structure MatchSubject where
  text : Array Char
  origin : Nat

namespace MatchSubject

/-- The code point at a place, in lower case if so wanted. -/
def codeAt (subject : MatchSubject) (mode : Mode) (place : Nat) : Nat :=
  let code := (subject.text.getD place ' ').toNat
  if mode.folded then Text.lowerCode code else code

/-- The number of characters that are left to take. -/
def room (subject : MatchSubject) (mode : Mode) (place : Nat) : Nat :=
  if mode.backward then place else subject.text.size - place

/-- The place after so many characters. -/
def ahead (mode : Mode) (place count : Nat) : Nat :=
  if mode.backward then place - count else place + count

/-- The place before the last of the characters taken. -/
def back (mode : Mode) (place : Nat) : Nat :=
  if mode.backward then place + 1 else place - 1

/-- The place of the character that is taken next. -/
def nextPlace (mode : Mode) (place : Nat) : Nat :=
  if mode.backward then place - 1 else place

/-- Whether the next character is there and admitted. -/
def admitsNext (subject : MatchSubject) (mode : Mode) (test : OneTest) (place : Nat) : Bool :=
  0 < subject.room mode place && test.admits (subject.codeAt mode (nextPlace mode place))

/-- How many of the next characters are admitted, at most `limit`. -/
def countNext (subject : MatchSubject) (mode : Mode) (test : OneTest) : Nat → Nat → Nat → Nat
  | 0, _, found => found
  | limit + 1, place, found =>
      if subject.admitsNext mode test place then
        subject.countNext mode test limit (ahead mode place 1) (found + 1)
      else found

/-- Whether a piece of the text spells some code points. -/
def spells (subject : MatchSubject) (mode : Mode) : Nat → List Nat → Bool
  | _, [] => true
  | place, code :: rest =>
      subject.codeAt mode place == code && subject.spells mode (place + 1) rest

/-- Whether two pieces of the text of some length are equal. -/
def samePiece (subject : MatchSubject) (mode : Mode) : Nat → Nat → Nat → Bool
  | 0, _, _ => true
  | length + 1, left, right =>
      subject.codeAt mode left == subject.codeAt mode right &&
        subject.samePiece mode length (left + 1) (right + 1)

/-- Where the next characters begin in the text, if there are so many. -/
def pieceStart? (subject : MatchSubject) (mode : Mode) (place length : Nat) : Option Nat :=
  if subject.room mode place < length then none
  else some (if mode.backward then place - length else place)

/-- Whether the character at a place is a line feed. -/
def isLineFeed (subject : MatchSubject) (place : Nat) : Bool :=
  subject.text[place]? == some '\n'

/-- Whether the character at a place belongs to words. -/
def isWordAt (subject : MatchSubject) (place : Nat) : Bool :=
  match subject.text[place]? with
  | some char => Text.isWordChar char
  | none => false

/-- Whether a place lies on the edge of a word. -/
def isWordEdge (subject : MatchSubject) (place : Nat) : Bool :=
  (0 < place && subject.isWordAt (place - 1)) != subject.isWordAt place

/-- Whether a condition on a place holds. -/
def holdsAt (subject : MatchSubject) (place : Nat) : Anchor → Bool
  | .textStart => place == 0
  | .textEnd => subject.text.size ≤ place
  | .lineStart => place == 0 || subject.isLineFeed (place - 1)
  | .lineEnd => subject.text.size ≤ place || subject.isLineFeed place
  | .searchStart => place == subject.origin
  | .wordEdge => subject.isWordEdge place
  | .noWordEdge => !subject.isWordEdge place

end MatchSubject

/-- Where the work on a program stands: the cell of the next instruction and whether the last one
failed, the place in the text, the trail and the stack.  `groups` holds for every group what it had
taken after each change, the last change first; `changes` are the groups in the order they were
changed. -/
structure MatchState where
  cell : Nat
  failed : Bool
  place : Nat
  trail : Array Int
  stack : Array Int
  changes : Array Nat
  groups : Array (List (List Span))
  deriving Repr

namespace MatchState

/-- The start of the work at a place. -/
def start (slots place : Nat) : MatchState :=
  ⟨0, false, place, #[], #[], #[], Array.replicate slots []⟩

/-- Go on at another cell. -/
def goTo (state : MatchState) (cell : Nat) : MatchState :=
  { state with cell := cell }

/-- Go on behind the instruction, which takes up so many cells. -/
def advance (state : MatchState) (width : Nat) : MatchState :=
  { state with cell := state.cell + width }

/-- Give the present way up. -/
def fail (state : MatchState) : MatchState :=
  { state with failed := true }

/-- Move to a place. -/
def moveTo (state : MatchState) (place : Nat) : MatchState :=
  { state with place := place }

/-- The pieces a group holds, the last one first. -/
def pieces (state : MatchState) (slot : Nat) : List Span :=
  (state.groups.getD slot []).headD []

/-- What a group took last. -/
def taken? (state : MatchState) (slot : Nat) : Option Span :=
  (state.pieces slot).head?

/-- Note a change of a group. -/
def change (state : MatchState) (slot : Nat) (pieces : List Span) : MatchState :=
  { state with
    groups := state.groups.modify slot (pieces :: ·)
    changes := state.changes.push slot }

/-- Note what a group took. -/
def take (state : MatchState) (slot : Nat) (span : Span) : MatchState :=
  state.change slot (span :: state.pieces slot)

/-- Forget what a group took last. -/
def giveBack (state : MatchState) (slot : Nat) : MatchState :=
  state.change slot (state.pieces slot).tail

/-- Take the last change of a group back. -/
def revert (state : MatchState) : MatchState :=
  match state.changes.back? with
  | some slot =>
      { state with
        groups := state.groups.modify slot List.tail
        changes := state.changes.pop }
  | none => state

/-- Take changes back until so many are left. -/
def revertTo (count : Nat) : Nat → MatchState → MatchState
  | 0, state => state
  | budget + 1, state =>
      if state.changes.size ≤ count then state else revertTo count budget state.revert

/-- Put a number on the trail. -/
def write (state : MatchState) (number : Int) : MatchState :=
  { state with trail := state.trail.push number }

/-- Note on the trail to come back to the instruction. -/
def note (state : MatchState) : MatchState :=
  { state with trail := state.trail.push state.cell }

/-- Note on the trail to come back to the other side of the instruction. -/
def noteOther (state : MatchState) : MatchState :=
  { state with trail := state.trail.push (-(state.cell : Int)) }

/-- A number on the trail, counted from the last one. -/
def noted (state : MatchState) (depth : Nat) : Int :=
  state.trail.getD (state.trail.size - 1 - depth) 0

/-- Take the last number from the trail. -/
def erase (state : MatchState) : MatchState :=
  { state with trail := state.trail.pop }

/-- Shorten the trail to a length. -/
def trailTo (state : MatchState) (length : Int) : MatchState :=
  { state with trail := state.trail.shrink length.toNat }

/-- Put a number on the stack. -/
def push (state : MatchState) (number : Int) : MatchState :=
  { state with stack := state.stack.push number }

/-- A number on the stack, counted from the last one. -/
def pushed (state : MatchState) (depth : Nat) : Int :=
  state.stack.getD (state.stack.size - 1 - depth) 0

/-- Take the last number from the stack. -/
def pop (state : MatchState) : MatchState :=
  { state with stack := state.stack.pop }

end MatchState

namespace Instruction

/-- Carry out an instruction that notes what a group took. -/
def runCapture (slot given : Option Nat) (state : MatchState) : MatchState :=
  let mark := state.pushed 0
  let span := Span.between mark.toNat state.place
  let finish := fun (state : MatchState) => ((state.pop.write mark).note).advance 3
  match given with
  | none =>
      match slot with
      | some slot => finish (state.take slot span)
      | none => finish state
  | some given =>
      match state.taken? given with
      | none => state.fail
      | some earlier =>
          let left := state.giveBack given
          match slot with
          | some slot => finish (left.take slot (span.inner earlier))
          | none => finish left

/-- Carry out the end of a round of a loop without a count. -/
def runLoopMark (greed : Greed) (target : Nat) (state : MatchState) : MatchState :=
  let mark := state.pushed 0
  let place : Int := state.place
  match greed with
  | .greedy =>
      if place ≠ mark then
        ((((state.pop.write mark).write place).note).push place).goTo target
      else ((state.pop.write mark).noteOther).advance 2
  | .lazy =>
      if place ≠ mark then
        (((state.pop.write (if mark = -1 then place else mark)).write place).note).advance 2
      else ((state.write mark).noteOther).advance 2

/-- Carry out the end of a round of a loop with a count. -/
def runLoopCount (greed : Greed) (target limit : Nat) (state : MatchState) : MatchState :=
  let count := state.pushed 0
  let mark := state.pushed 1
  let place : Int := state.place
  let state := state.pop.pop
  match greed with
  | .greedy =>
      if (limit : Int) ≤ count ∨ (place = mark ∧ 0 ≤ count) then
        (((state.write mark).write count).noteOther).advance 3
      else ((((state.write mark).note).push place).push (count + 1)).goTo target
  | .lazy =>
      if count < 0 then
        ((((state.write mark).noteOther).push place).push (count + 1)).goTo target
      else ((((state.write mark).write count).write place).note).advance 3

/-- Carry out a test for a text of some length that starts at a place. -/
def runPiece (subject : MatchSubject) (mode : Mode) (length : Nat) (fits : Nat → Bool)
    (state : MatchState) : MatchState :=
  match subject.pieceStart? mode state.place length with
  | some start =>
      if fits start then (state.moveTo (MatchSubject.ahead mode state.place length)).advance 2
      else state.fail
  | none => state.fail

/-- Carry out a repetition of a test for one character. -/
def runLoop (subject : MatchSubject) (mode : Mode) (greed : Greed) (test : OneTest) (limit : Nat)
    (state : MatchState) : MatchState :=
  let limit := min limit (subject.room mode state.place)
  match greed with
  | .greedy =>
      let found := subject.countNext mode test limit state.place 0
      let place := MatchSubject.ahead mode state.place found
      let state := state.moveTo place
      if found = 0 then state.advance 3
      else
        (((state.write ((found : Int) - 1)).write (MatchSubject.back mode place)).note).advance 3
  | .lazy =>
      if limit = 0 then state.advance 3
      else (((state.write ((limit : Int) - 1)).write state.place).note).advance 3

/-- Carry out an instruction. -/
def run (subject : MatchSubject) (state : MatchState) : Instruction → MatchState
  | stop | fail => state.fail
  | jump target => state.goTo target
  | fork _ => ((state.write state.place).note).advance 2
  | taken slot => if (state.taken? slot).isSome then state.advance 2 else state.fail
  | mark => ((state.push state.place).note).advance 1
  | blankMark => ((state.push (-1)).note).advance 1
  | toMark =>
      let mark := state.pushed 0
      (((state.pop.write mark).note).moveTo mark.toNat).advance 1
  | capture slot given => runCapture slot given state
  | loopMark greed target => runLoopMark greed target state
  | count start => (((state.push state.place).push start).note).advance 2
  | blankCount => (((state.push (-1)).push 0).note).advance 2
  | loopCount greed target limit => runLoopCount greed target limit state
  | enter => (((state.push state.trail.size).push state.changes.size).note).advance 1
  | refuse =>
      let count := (state.pushed 0).toNat
      let left := state.pop.pop.trailTo (state.pushed 1)
      (left.revertTo count left.changes.size).fail
  | leave =>
      let count := state.pushed 0
      (((state.pop.pop.trailTo (state.pushed 1)).write count).note).advance 1
  | anchor condition =>
      if subject.holdsAt state.place condition then state.advance 1 else state.fail
  | one mode test =>
      if subject.admitsNext mode test state.place then
        (state.moveTo (MatchSubject.ahead mode state.place 1)).advance 2
      else state.fail
  | literal mode codes =>
      runPiece subject mode codes.length (subject.spells mode · codes) state
  | reference mode slot =>
      match state.taken? slot with
      | none => state.advance 2
      | some span =>
          let length := span.stop - span.start
          runPiece subject mode length (subject.samePiece mode length span.start ·) state
  | exact mode test rounds =>
      if subject.room mode state.place < rounds then state.fail
      else if subject.countNext mode test rounds state.place 0 = rounds then
        (state.moveTo (MatchSubject.ahead mode state.place rounds)).advance 3
      else state.fail
  | loop mode greed test limit => runLoop subject mode greed test limit state

/-- Take up the way that an instruction left open; the numbers it noted are on the trail. -/
def resume (subject : MatchSubject) (state : MatchState) : Instruction → MatchState
  | fork target =>
      let place := (state.noted 0).toNat
      (state.erase.moveTo place).goTo target
  | mark | blankMark => state.pop.fail
  | toMark =>
      let mark := state.noted 0
      (state.erase.push mark).fail
  | capture slot given =>
      let mark := state.noted 0
      let back := (state.erase.push mark).revert
      (if slot.isSome && given.isSome then back.revert else back).fail
  | loopMark .greedy _ =>
      let place := (state.noted 0).toNat
      let mark := state.noted 1
      (((state.erase.erase.pop.moveTo place).write mark).noteOther).advance 2
  | loopMark .lazy target =>
      let place := state.noted 0
      let mark := state.noted 1
      ((((state.erase.erase.write mark).noteOther).push place).moveTo place.toNat).goTo target
  | count _ | blankCount | enter => state.pop.pop.fail
  | loopCount .greedy _ _ =>
      let mark := state.noted 0
      let count := state.pushed 0
      let place := (state.pushed 1).toNat
      let left := state.erase.pop.pop
      if 0 < count then
        ((((left.moveTo place).write mark).write (count - 1)).noteOther).advance 3
      else ((left.push mark).push (count - 1)).fail
  | loopCount .lazy target limit =>
      let place := state.noted 0
      let count := state.noted 1
      let mark := state.noted 2
      let left := state.erase.erase.erase
      if count < (limit : Int) ∧ place ≠ mark then
        (((((left.moveTo place.toNat).push place).push (count + 1)).write mark).noteOther).goTo
          target
      else ((left.push mark).push count).fail
  | leave =>
      let count := (state.noted 0).toNat
      let left := state.erase
      (left.revertTo count left.changes.size).fail
  | loop mode .greedy _ _ =>
      let place := (state.noted 0).toNat
      let count := state.noted 1
      let left := state.erase.erase.moveTo place
      if 0 < count then
        (((left.write (count - 1)).write (MatchSubject.back mode place)).note).advance 3
      else left.advance 3
  | loop mode .lazy test _ =>
      let place := (state.noted 0).toNat
      let count := state.noted 1
      let left := state.erase.erase
      if subject.admitsNext mode test place then
        let after := MatchSubject.ahead mode place 1
        let left := left.moveTo after
        if 0 < count then (((left.write (count - 1)).write after).note).advance 3
        else left.advance 3
      else left.fail
  | _ => state.fail

/-- Take up the other way that a loop left open. -/
def resumeOther (state : MatchState) : Instruction → MatchState
  | loopMark .greedy _ =>
      let mark := state.noted 0
      (state.erase.push mark).fail
  | loopMark .lazy _ =>
      let mark := state.noted 0
      (state.erase.pop.push mark).fail
  | loopCount .greedy _ _ =>
      let count := state.noted 0
      let mark := state.noted 1
      ((state.erase.erase.push mark).push count).fail
  | loopCount .lazy _ _ =>
      let mark := state.noted 0
      let count := state.pushed 0
      ((state.erase.pop.pop.push mark).push (count - 1)).fail
  | _ => state.fail

end Instruction

/-- The way in which an instruction is carried out: as it comes, or taken up again from the trail
on one of its sides. -/
inductive Approach where
  | first
  | again
  | other
  deriving DecidableEq, Repr

/-- Carry out a program until it stops, within a budget of steps. -/
def runProgram (program : Array Instruction) (subject : MatchSubject) :
    Nat → Approach → MatchState → MatchState
  | 0, _, state => state
  | budget + 1, approach, state =>
      let instruction := program.getD state.cell .stop
      let next := match approach with
        | .first => instruction.run subject state
        | .again => instruction.resume subject state
        | .other => instruction.resumeOther state
      if next.failed then
        if approach = .first ∧ next.cell + 1 = program.size then next
        else if next.trail.isEmpty then next
        else
          let noted := next.noted 0
          let back := { next with
            trail := next.trail.pop, failed := false, cell := noted.natAbs }
          runProgram program subject budget (if noted < 0 then .other else .again) back
      else runProgram program subject budget .first next

end ScriptEngine
