import ScriptEngine.Pattern.Escape

namespace ScriptEngine.Pattern

/-!
# Sets in brackets

A set lists characters, ranges and classes between brackets.  It may end in a set
that is taken away from it.  A set is read once for its members and, when the
groups of a pattern are counted, passed without a look at them.
-/

/-- The part of a set read so far. -/
structure SetDraft where
  core : SetCore
  pending : Option Nat
  isFirst : Bool
  removed : Option CharSet

namespace SetDraft

/-- An empty set. -/
def start (inverted : Bool) : SetDraft :=
  ⟨SetCore.start inverted, none, true, none⟩

/-- Add ranges. -/
def add (draft : SetDraft) (members : List (Nat × Nat)) : SetDraft :=
  { draft with core := draft.core.addRanges members, isFirst := false }

/-- Add a class. -/
def addClass (draft : SetDraft) (test : ClassTest) : SetDraft :=
  { draft with core := draft.core.addClass test, isFirst := false }

/-- The finished set. -/
def close (folded : Bool) (draft : SetDraft) : CharSet :=
  let core := if folded then draft.core.fold else draft.core
  match draft.removed with
  | some removed => .without core removed
  | none => .plain core

end SetDraft

/-- The characters after a bracket that names a class of characters between colons. -/
def skipNamedClass (rest : List Char) : List Char :=
  match rest with
  | ':' :: after =>
      let named := match after with
        | '^' :: more => more
        | _ => after
      match named.dropWhile Text.isNameChar with
      | ':' :: ']' :: tail => tail
      | _ => rest
  | _ => rest

/-- Whether a set is inverted, with the characters after the mark of it. -/
def readInversion : List Char → Bool × List Char
  | '^' :: rest => (true, rest)
  | rest => (false, rest)

/-- Read a set after its opening bracket and a possible inversion. -/
def readSetFrom (options : Options) : Nat → SetDraft → List Char → Read (CharSet × List Char)
  | 0, _, _ => .error .unterminatedSet
  | budget + 1, draft, rest =>
      let ordinary := fun (code : Nat) (plain : Option Char) (after : List Char) =>
        let subtract := fun (members : List (Nat × Nat)) (inner : List Char) => do
          let (inverted, begun) := readInversion inner
          let (removed, left) ← readSetFrom options budget (SetDraft.start inverted) begun
          match left with
          | ']' :: _ | [] =>
              readSetFrom options budget
                { draft.add members with pending := none, removed := some removed } left
          | _ => .error .misplacedSubtraction
        match draft.pending with
        | some low =>
            if plain = some '[' && !draft.isFirst then subtract [(low, low)] after
            else if code < low then .error (.reversedRange low code)
            else
              readSetFrom options budget
                { draft.add [(low, code)] with pending := none } after
        | none =>
            match after with
            | '-' :: next :: _ =>
                if next != ']' then
                  readSetFrom options budget
                    { draft with pending := some code, isFirst := false } (after.drop 1)
                else readSetFrom options budget (draft.add [(code, code)]) after
            | '[' :: inner =>
                if plain = some '-' && !draft.isFirst then subtract [] inner
                else readSetFrom options budget (draft.add [(code, code)]) after
            | _ => readSetFrom options budget (draft.add [(code, code)]) after
      match rest with
      | [] => .error .unterminatedSet
      | ']' :: after => .ok (draft.close options.folded, after)
      | '\\' :: char :: after =>
          match CharSet.classRanges? char with
          | some members =>
              if draft.pending.isSome then .error (.classInRange char)
              else readSetFrom options budget (draft.add members) after
          | none =>
              if char = 'p' || char = 'P' then
                if draft.pending.isSome then .error (.classInRange char)
                else do
                  let (test, left) ← readProperty (char = 'P') after
                  let grown := (foldedClasses options.folded test).foldl SetDraft.addClass draft
                  readSetFrom options budget grown left
              else if char = '-' then readSetFrom options budget (draft.add [(0x2D, 0x2D)]) after
              else do
                let (code, left) ← readEscape options char after
                ordinary code none left
      | '[' :: after =>
          ordinary 0x5B (some '[') (if draft.pending.isNone then skipNamedClass after else after)
      | char :: after => ordinary char.toNat (some char) after

/-- Read a set after its opening bracket. -/
def readSet (options : Options) (rest : List Char) : Read (CharSet × List Char) :=
  let (inverted, begun) := readInversion rest
  readSetFrom options (rest.length + 1) (SetDraft.start inverted) begun

/-- The characters after the name of a class. -/
def skipProperty (rest : List Char) : List Char :=
  match rest with
  | '\x7b' :: _ => rest
  | _ => rest.drop 1

/-- Pass a set after its opening bracket and a possible inversion. -/
def skipSetFrom (options : Options) : Nat → Bool → Bool → List Char → List Char
  | 0, _, _, rest => rest
  | budget + 1, isFirst, inRange, rest =>
      let ordinary := fun (plain : Option Char) (after : List Char) =>
        if inRange then skipSetFrom options budget false false after
        else
          match after with
          | '-' :: next :: more =>
              skipSetFrom options budget false (next != ']')
                (if next != ']' then next :: more else after)
          | '[' :: inner =>
              skipSetFrom options budget false false <|
                if plain = some '-' && !isFirst then
                  skipSetFrom options budget true false (readInversion inner).2
                else after
          | _ => skipSetFrom options budget false false after
      match rest with
      | [] => []
      | ']' :: after => after
      | '\\' :: char :: after =>
          if (CharSet.classRanges? char).isSome || char = '-' then
            skipSetFrom options budget false inRange after
          else if char = 'p' || char = 'P' then
            skipSetFrom options budget false inRange (skipProperty after)
          else ordinary none (skipEscape options char after)
      | '[' :: after => ordinary (some '[') (if inRange then after else skipNamedClass after)
      | char :: after => ordinary (some char) after

/-- Pass a set after its opening bracket. -/
def skipSet (options : Options) (rest : List Char) : List Char :=
  skipSetFrom options (rest.length + 1) true false (readInversion rest).2

end ScriptEngine.Pattern
