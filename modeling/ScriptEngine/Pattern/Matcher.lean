import ScriptEngine.Pattern.Machine
import ScriptEngine.Pattern.Parser

namespace ScriptEngine

/-!
# Searching for matches

A search tries the program of a pattern at one place after the other, passing over the
places where the start of the pattern cannot fit.
-/

/-- A match: the piece of the text it covers, what each group took, and the place the program came
to. -/
structure PatternMatch where
  span : Span
  groups : List (Option Span)
  reached : Nat
  deriving DecidableEq, Repr

/-- What a search finds: a match, nothing, or a fault on the way. -/
abbrev SearchResult :=
  Except LookupFault (Option PatternMatch)

/-- Where a search goes on: it tries a place, or has passed over all places before one. -/
inductive NextPlace where
  | tryAt (place : Nat)
  | passed (place : Nat)
  deriving DecidableEq, Repr

namespace MatchLead

/-- The first place from a given one on whose character is in a set. -/
def findFirst (first : FirstSet) (text : Array Char) : Nat → Nat → NextPlace
  | 0, _ => .passed text.size
  | budget + 1, place =>
      match text[place]? with
      | none => .passed text.size
      | some char =>
          let code := if first.folded then Text.lowerCode char.toNat else char.toNat
          if first.set.contains code then .tryAt place
          else findFirst first text budget (place + 1)

/-- The place an anchored pattern can be tried at, from a given one on; nothing if there is none. -/
def anchored? (subject : MatchSubject) (place : Nat) : Anchor → Option (Option Nat)
  | .textStart => some (if 0 < place then none else some place)
  | .searchStart => some (if subject.origin < place then none else some place)
  | .textEnd => some (some (max place subject.text.size))
  | _ => none

/-- Where to try a pattern next. -/
def next (lead : MatchLead) (subject : MatchSubject) (place : Nat) :
    Except LookupFault NextPlace :=
  let text := subject.text
  match lead.anchor.bind (anchored? subject place) with
  | some none => .ok (.passed text.size)
  | some (some place) =>
      match lead.literal with
      | some literal =>
          .ok (if literal.standsAt text place then .tryAt place else .passed place)
      | none => .ok (.tryAt place)
  | none =>
      match lead.literal, lead.first with
      | some literal, _ =>
          (literal.find text place).map fun
            | some found => .tryAt found
            | none => .passed text.size
      | none, some first => .ok (findFirst first text (text.size + 1) place)
      | none, none => .ok (.tryAt place)

end MatchLead

namespace Pattern

/-- The most steps of a program. -/
def stepLimit : Nat :=
  4611686018427387904

/-- What a group took in the end; a piece that ends before it starts does not count. -/
def lastPiece (state : MatchState) (slot : Nat) : Option Span :=
  (state.pieces slot).find? fun span => span.start ≤ span.stop

/-- The match that is found from a place, if there is one. -/
def matchAt? (pattern : Pattern) (subject : MatchSubject) (place : Nat) : Option PatternMatch :=
  let state :=
    runProgram pattern.program subject stepLimit .first (MatchState.start pattern.slots place)
  (state.taken? 0).map fun span =>
    { span
      groups := (List.range (pattern.slots - 1)).map fun slot => lastPiece state (slot + 1)
      reached := state.place }

/-- The first match from a place on, within a budget of places. -/
def findWithin (pattern : Pattern) (subject : MatchSubject) : Nat → Nat → SearchResult
  | 0, _ => .ok none
  | budget + 1, place => do
      let goOn := fun (place : Nat) =>
        if subject.text.size ≤ place then .ok none
        else findWithin pattern subject budget (place + 1)
      match ← pattern.lead.next subject place with
      | .passed place => goOn place
      | .tryAt place =>
          match pattern.matchAt? subject place with
          | some found => .ok (some found)
          | none => goOn place

/-- The first match from a place on. -/
def find (pattern : Pattern) (text : Array Char) (start : Nat) : SearchResult :=
  pattern.findWithin ⟨text, start⟩ (text.size + 1 - start) start

/-- The match after another one; after an empty one the search goes on one place later. -/
def findAfter (pattern : Pattern) (text : Array Char) (found : PatternMatch) : SearchResult :=
  if found.span.start = found.span.stop then
    if found.reached = text.size then .ok none else pattern.find text (found.reached + 1)
  else pattern.find text found.reached

/-- The matches after one, within a budget. -/
def matchesFrom (pattern : Pattern) (text : Array Char) :
    Nat → Option PatternMatch → Except LookupFault (List PatternMatch)
  | 0, _ => .ok []
  | _ + 1, none => .ok []
  | budget + 1, some found => do
      let next ← pattern.findAfter text found
      let later ← matchesFrom pattern text budget next
      .ok (found :: later)

/-- All matches from left to right. -/
def findAll (pattern : Pattern) (text : Array Char) : Except LookupFault (List PatternMatch) := do
  let first ← pattern.find text 0
  pattern.matchesFrom text (text.size + 2) first

end Pattern

end ScriptEngine
