import ScriptEngine.Pattern.Literal
import ScriptEngine.Pattern.Tree

namespace ScriptEngine

/-!
# How matches begin

What a pattern tells about the start of its matches: a condition on the place, a text
that every match begins with, or a set that holds the first character of every match.
A search uses the first of these it is told.
-/

/-- A set that holds first characters, with whether the part can be empty and whether characters
are compared in lower case. -/
structure FirstSet where
  set : CharSet
  nullable : Bool
  folded : Bool
  deriving DecidableEq, Repr

namespace FirstSet

/-- The first characters of a part that takes none. -/
def none : FirstSet :=
  ⟨.ofRanges [], true, false⟩

/-- The first characters of two parts, one after the other or one of them; nothing if a set cannot
be added to. -/
def join? (inSequence : Bool) (first second : FirstSet) : Option FirstSet :=
  match first.set.mergeable?, second.set.mergeable? with
  | some left, some right =>
      if inSequence && !first.nullable then some first
      else
        some {
          set := .plain (left.addAll right)
          nullable :=
            if inSequence then first.nullable && second.nullable
            else first.nullable || second.nullable
          folded := first.folded || second.folded }
  | _, _ => Option.none

/-- The characters a test admits.  Of those around a single exception, the ones behind it are told
only for an exception below U+FFFF. -/
def ofTest (nullable folded : Bool) (test : OneTest) : FirstSet :=
  let members : CharSet := match test with
    | .exactly code => .ofRanges [(code, code)]
    | .except code =>
        .ofRanges ((if 0 < code then [(0, code - 1)] else []) ++
          (if code < 0xFFFF then [(code + 1, lastCode)] else []))
    | .among set => set
  ⟨members, nullable, folded⟩

/-- A set made ready for a search. -/
def ready (first : FirstSet) : FirstSet :=
  if first.folded then
    let set := match first.set with
      | .plain core => .plain core.fold
      | .without core removed => .without core.fold removed
    { first with set }
  else first

/-- Whether a search can be told to look for the set. -/
def isTelling (first : FirstSet) : Bool :=
  !first.nullable &&
    match first.set with
    | .plain core => !core.isBare
    | .without _ _ => true

end FirstSet

namespace PatternNode

mutual

/-- The first characters of a part; nothing if the sets cannot be joined. -/
def firstSet? : PatternNode → Option FirstSet
  | empty | nothing | anchor _ => some .none
  | one mode test => some (.ofTest false mode.folded test)
  | literal mode codes =>
      match if mode.backward then codes.getLast? else codes.head? with
      | some code => some (.ofTest false mode.folded (.exactly code))
      | none => some .none
  | oneLoop mode _ test least _ => some (.ofTest (least = 0) mode.folded test)
  | sequence parts => sequenceFirst? parts
  | choice branches => choiceFirst? branches
  | repetition _ least _ body =>
      (firstSet? body).map fun first => { first with nullable := first.nullable || least = 0 }
  | plain body | group _ _ body | atomic body => firstSet? body
  | reference _ _ => some ⟨.anything, true, false⟩
  | look _ _ => some .none
  | whenTaken _ branches | whenMatched _ branches => choiceFirst? branches

/-- The first characters of parts one after the other. -/
def sequenceFirst? : List PatternNode → Option FirstSet
  | [] => some .none
  | [part] => firstSet? part
  | part :: rest =>
      match firstSet? part with
      | none => none
      | some first =>
          if first.nullable then (sequenceFirst? rest).bind (first.join? true ·) else some first

/-- The first characters of several branches. -/
def choiceFirst? : List PatternNode → Option FirstSet
  | [] => some .none
  | branch :: rest => (firstSet? branch).bind fun first => restFirst? first rest

/-- The first characters of branches, joined to those of the branches before them. -/
def restFirst? (first : FirstSet) : List PatternNode → Option FirstSet
  | [] => some first
  | branch :: rest =>
      (firstSet? branch).bind fun next =>
        (first.join? false next).bind fun joined => restFirst? joined rest

end

/-- What the start of a part tells, looked for part by part: something, nothing yet, or nothing at
all. -/
inductive Hint (α : Type) where
  | found (value : α)
  | passed
  | unknown

mutual

/-- The first hint in a part.  A group without one hides what comes after it. -/
def hint {α : Type} (look : PatternNode → Hint α) : PatternNode → Hint α
  | sequence parts => hintOfParts look parts
  | group _ _ body | atomic body =>
      match hint look body with
      | .passed => .unknown
      | other => other
  | part => look part

/-- The first hint in parts one after the other. -/
def hintOfParts {α : Type} (look : PatternNode → Hint α) : List PatternNode → Hint α
  | [] => .unknown
  | part :: rest =>
      match hint look part with
      | .passed => hintOfParts look rest
      | other => other

end

/-- The text at the start of a part. -/
def textHint : PatternNode → Hint (Mode × List Nat)
  | one mode (.exactly code) => .found (mode, [code])
  | literal mode codes => .found (mode, codes)
  | oneLoop mode _ (.exactly code) least _ =>
      if 0 < least then .found (mode, List.replicate (min least longestLiteral) code) else .unknown
  | empty | look _ _ => .passed
  | anchor .noWordEdge => .unknown
  | anchor _ => .passed
  | _ => .unknown

/-- The condition at the start of a part. -/
def anchorHint : PatternNode → Hint Anchor
  | empty | look _ _ => .passed
  | anchor .noWordEdge => .unknown
  | anchor condition => .found condition
  | _ => .unknown

end PatternNode

/-- What a pattern tells about the start of its matches. -/
structure MatchLead where
  anchor : Option Anchor
  literal : Option Literal
  first : Option FirstSet
  deriving DecidableEq, Repr

namespace MatchLead

/-- What the root of a pattern tells. -/
def ofRoot (root : PatternNode) : MatchLead where
  anchor :=
    match root.hint PatternNode.anchorHint with
    | .found condition => some condition
    | _ => none
  literal :=
    match root.hint PatternNode.textHint with
    | .found (mode, codes) => Literal.of? mode.folded (codes.take longestLiteral)
    | _ => none
  first :=
    match root.firstSet? with
    | some first => if first.isTelling then some first.ready else none
    | none => none

end MatchLead

end ScriptEngine
