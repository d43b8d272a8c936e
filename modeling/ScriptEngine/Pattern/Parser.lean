import ScriptEngine.Pattern.Program
import ScriptEngine.Pattern.Slots

namespace ScriptEngine.Pattern

/-!
# Reading patterns

A pattern is read from left to right in one pass, once its groups are known.
Groups nest, so reading a group calls the reader of patterns again; a budget of
steps per character bounds it.
-/

/-- Whether a counted repetition stands at the front. -/
def isCounted (rest : List Char) : Bool :=
  match rest with
  | '\x7b' :: after =>
      let digits := after.takeWhile Char.isDigit
      if digits.isEmpty then false
      else
        match after.drop digits.length with
        | '\x7d' :: _ => true
        | ',' :: more => (more.dropWhile Char.isDigit).head? = some '\x7d'
        | _ => false
  | _ => false

/-- Whether a repetition operator stands at the front. -/
def isRepetition (rest : List Char) : Bool :=
  match rest with
  | '*' :: _ | '+' :: _ | '?' :: _ => true
  | _ => isCounted rest

/-- The bounds of the repetition operator at the front. -/
def readBounds (rest : List Char) : Read ((Nat × Nat) × List Char) :=
  match rest with
  | '*' :: after => .ok ((0, noLimit), after)
  | '+' :: after => .ok ((1, noLimit), after)
  | '?' :: after => .ok ((0, 1), after)
  | _ :: after => do
      let (least, left) ← readNumber after
      match left with
      | ',' :: '\x7d' :: more => .ok ((least, noLimit), more)
      | ',' :: more =>
          let (most, closing) ← readNumber more
          .ok ((least, most), closing.drop 1)
      | _ => .ok ((least, least), left.drop 1)
  | [] => .ok ((1, 1), [])

/-- Read the repetition operator after a part, if there is one. -/
def readRepetition (options : Options) (body : PatternNode) (rest : List Char) :
    Read ((PatternNode × Bool) × List Char) := do
  let rest ← skipGap options rest
  if isRepetition rest then
    let ((least, most), after) ← readBounds rest
    let after ← skipGap options after
    let (greed, left) : Greed × List Char := match after with
      | '?' :: left => (.lazy, left)
      | _ => (.greedy, after)
    if most < least then .error .repeatCount
    else .ok ((body.repeated greed least most, true), left)
  else .ok ((body, false), rest)

/--
What an opening parenthesis begins: a group that takes a piece of the text, gives
one back or both, a group without a slot, a look around, a group that is not
entered again, a change of settings, or a choice by a condition.
-/
inductive Opening where
  | taking (number : Nat)
  | exchanging (number : Option Nat) (given : Nat)
  | plain
  | look (backward wanted : Bool)
  | atomic
  | settings
  | whenTaken (number : Nat)
  | whenMatched
  deriving DecidableEq, Repr

/-- The next number of a group, and whether the next plain parenthesis gets none. -/
structure Progress where
  next : Nat
  bare : Bool
  deriving DecidableEq, Repr

/-- The fault of an unknown group, given the text from its opening on and what is left of it. -/
def unknownGroup (start left : List Char) : PatternGrammarFault :=
  .unknownGroup (String.ofList (start.take (start.length - left.length)))

/-- The number of the group that gives its piece back, read after a minus sign. -/
def readGiven (slots : Slots) (closing : Char) (rest : List Char) : Read (Nat × List Char) := do
  let ends := fun (left : List Char) => left.head?.all (· == closing)
  match rest with
  | [] => .error .groupName
  | first :: _ =>
      if first.isDigit then
        let (number, left) ← readNumber rest
        if !slots.has number then .error (.undefinedNumber number)
        else if ends left then .ok (number, left)
        else .error .groupName
      else if Text.isNameChar first then
        let name := rest.takeWhile Text.isNameChar
        let left := rest.drop name.length
        match slots.numberOf? (String.ofList name) with
        | none => .error (.undefinedReference (String.ofList name))
        | some number => if ends left then .ok (number, left) else .error .groupName
      else .error .groupName

/-- Finish the opening of a group with a number or a name. -/
def closeName (closing : Char) (start : List Char) (opening : Opening) (rest : List Char) :
    Read (Opening × List Char) :=
  match rest with
  | next :: left => if next = closing then .ok (opening, left) else .error (unknownGroup start left)
  | [] => .error (unknownGroup start [])

/-- Read a name or a number between its mark and the closing one. -/
def readGroupName (slots : Slots) (closing : Char) (start rest : List Char) :
    Read (Opening × List Char) := do
  let finish := fun (number : Option Nat) (left : List Char) => do
    match left with
    | [] =>
        if number = some 0 then .error .groupZero else .error (unknownGroup start [])
    | next :: more =>
        if next != closing && next != '-' then .error .groupName
        else
          match number with
          | none => .error (unknownGroup start left)
          | some 0 => .error .groupZero
          | some number =>
              if next = '-' then
                let (given, after) ← readGiven slots closing more
                closeName closing start (.exchanging (some number) given) after
              else .ok (.taking number, more)
  match rest with
  | [] => .error (unknownGroup start [])
  | first :: after =>
      if first.isDigit then
        let (number, left) ← readNumber rest
        finish (if slots.has number then some number else none) left
      else if Text.isNameChar first then
        let name := rest.takeWhile Text.isNameChar
        finish (slots.numberOf? (String.ofList name)) (rest.drop name.length)
      else if first = '-' then
        let (given, left) ← readGiven slots closing after
        closeName closing start (.exchanging none given) left
      else .error .groupName

/-- Read a condition after its opening parenthesis: a group by number or name, or a pattern. -/
def readCondition (slots : Slots) (rest : List Char) : Read (Opening × List Char) := do
  let asPattern : Read (Opening × List Char) := match rest with
    | '?' :: '#' :: _ => .error .conditionComment
    | '?' :: '\'' :: _ => .error .conditionCapture
    | '?' :: '<' :: mark :: _ =>
        if mark = '!' || mark = '=' then .ok (.whenMatched, '(' :: rest)
        else .error .conditionCapture
    | _ => .ok (.whenMatched, '(' :: rest)
  match rest with
  | [] => asPattern
  | first :: _ =>
      if first.isDigit then
        let (number, left) ← readNumber rest
        match left with
        | ')' :: more =>
            if slots.has number then .ok (.whenTaken number, more)
            else .error (.undefinedCondition number)
        | _ => .error (.malformedCondition number)
      else if Text.isNameChar first then
        let name := rest.takeWhile Text.isNameChar
        match slots.numberOf? (String.ofList name), rest.drop name.length with
        | some number, ')' :: more => .ok (.whenTaken number, more)
        | _, _ => asPattern
      else asPattern

/-- Read what follows an opening parenthesis inside a group of the given kind. -/
def readOpening (slots : Slots) (within : Opening) (options : Options) (progress : Progress)
    (start : List Char) : Read ((Opening × Options × Progress) × List Char) := do
  let numbered : Opening × Options × Progress :=
    if options.unnumbered || progress.bare then (.plain, options, { progress with bare := false })
    else (.taking progress.next, options, { progress with next := progress.next + 1 })
  let keep := fun (opening : Opening) (left : List Char) =>
    Except.ok ((opening, options, progress), left)
  match start with
  | '?' :: ')' :: _ => .ok (numbered, start)
  | '?' :: rest =>
      match rest with
      | [] => .error (unknownGroup start [])
      | ':' :: after => keep .plain after
      | '=' :: after => keep (.look false true) after
      | '!' :: after => keep (.look false false) after
      | '>' :: after => keep .atomic after
      | '<' :: '=' :: after => keep (.look true true) after
      | '<' :: '!' :: after => keep (.look true false) after
      | '<' :: after =>
          let (opening, left) ← readGroupName slots '>' start after
          keep opening left
      | '\'' :: '=' :: after => .error (unknownGroup start after)
      | '\'' :: '!' :: after => .error (unknownGroup start after)
      | '\'' :: after =>
          let (opening, left) ← readGroupName slots '\'' start after
          keep opening left
      | '(' :: after =>
          let (opening, left) ← readCondition slots after
          .ok ((opening, options, { progress with bare := opening = .whenMatched || progress.bare }),
            left)
      | _ =>
          let (changed, after) :=
            if within = .whenMatched then (options, rest) else Options.read true options rest
          match after with
          | [] => .error (unknownGroup start [])
          | ')' :: left => .ok ((.settings, changed, progress), left)
          | ':' :: left => .ok ((.plain, changed, progress), left)
          | _ :: left => .error (unknownGroup start left)
  | _ => .ok (numbered, start)

/-- The settings inside a group. -/
def Opening.settingsOf (opening : Opening) (options : Options) : Options :=
  match opening with
  | .look backward _ => { options with backward := backward }
  | _ => options

/-- A test for one code point. -/
def codeNode (options : Options) (code : Nat) : PatternNode :=
  .one options.mode (.exactly (if options.folded then Text.lowerCode code else code))

/-- Read a reference by name or number after its letter; nothing if it is none after all. -/
def readNamedReference (slots : Slots) (options : Options) (rest : List Char) :
    Read (Option (PatternNode × List Char)) := do
  let reference := fun (number : Nat) (left : List Char) =>
    some (PatternNode.reference options.mode (slots.slotOf number), left)
  match rest with
  | '<' :: first :: more =>
      if first.isDigit then
        let (number, left) ← readNumber (first :: more)
        match left with
        | '>' :: after =>
            if slots.has number then .ok (reference number after)
            else .error (.undefinedNumber number)
        | _ => .ok none
      else
        let name := (first :: more).takeWhile Text.isNameChar
        match (first :: more).drop name.length with
        | '>' :: after =>
            if name.isEmpty then .error .malformedReference
            else
              match slots.numberOf? (String.ofList name) with
              | some number => .ok (reference number after)
              | none => .error (.undefinedReference (String.ofList name))
        | _ => .error .malformedReference
  | _ => .error .malformedReference

/-- Read the part of a pattern that a backslash begins. -/
def readBackslash (slots : Slots) (options : Options) (rest : List Char) :
    Read (PatternNode × List Char) :=
  match rest with
  | [] => .error .finalBackslash
  | char :: after =>
      match char with
      | 'b' => .ok (.anchor .wordEdge, after)
      | 'B' => .ok (.anchor .noWordEdge, after)
      | 'A' => .ok (.anchor .textStart, after)
      | 'z' | 'Z' => .ok (.anchor .textEnd, after)
      | 'G' => .ok (.anchor .searchStart, after)
      | _ =>
          let single := do
            let (code, left) ← readEscape options char after
            .ok (codeNode options code, left)
          match CharSet.classRanges? char with
          | some members => .ok (.one options.mode (.among (.ofRanges members)), after)
          | none =>
              if char = 'p' || char = 'P' then do
                let (test, left) ← readProperty (char = 'P') after
                let core := (foldedClasses options.folded test).foldl SetCore.addClass (.start false)
                .ok (.one options.mode (.among (.plain core)), left)
              else if char = 'k' && slots.hasNames then do
                match ← readNamedReference slots options after with
                | some (node, left) => .ok (node, left)
                | none => single
              else if char.isDigit && char != '0' then do
                let (number, left) ← readNumber rest
                if slots.has number then
                  .ok (.reference options.mode (slots.slotOf number), left)
                else single
              else single

/-- The part of a group read so far: finished branches and the parts of the current one. -/
structure Frame where
  opening : Opening
  options : Options
  condition : Option PatternNode
  branches : List PatternNode
  parts : List PatternNode
  repeated : Bool

namespace Frame

/-- The start of a group. -/
def start (opening : Opening) (options : Options) : Frame :=
  ⟨opening, options, none, [], [], false⟩

/-- Add a part, telling whether it ended in a repetition operator. -/
def push (frame : Frame) (part : PatternNode) (repeated : Bool) : Frame :=
  { frame with parts := part.simplified :: frame.parts, repeated := repeated }

/-- The parts of the current branch in the order they are taken in. -/
def sequence (frame : Frame) : PatternNode :=
  .joined (if frame.options.backward then frame.parts else frame.parts.reverse)

/-- Begin the next branch. -/
def branch (frame : Frame) : Frame :=
  { frame with branches := frame.sequence :: frame.branches, parts := [], repeated := false }

/-- Whether the next group is the condition of a choice. -/
def wantsCondition (frame : Frame) : Bool :=
  frame.opening = .whenMatched && frame.condition.isNone

/-- The finished group. -/
def close (slots : Slots) (frame : Frame) : Read PatternNode := do
  let branches := (frame.sequence :: frame.branches).reverse
  let body := PatternNode.chosen branches
  match frame.opening with
  | .taking number => .ok (.group (some (slots.slotOf number)) none body)
  | .exchanging number given =>
      .ok (.group (number.map slots.slotOf) (some (slots.slotOf given)) body)
  | .plain | .settings => .ok (.plain body)
  | .look _ wanted => .ok (.look wanted body)
  | .atomic => .ok (.atomic body)
  | .whenTaken number =>
      if 2 < branches.length then .error .conditionBranches
      else .ok (.whenTaken (slots.slotOf number) branches)
  | .whenMatched =>
      if 2 < branches.length then .error .conditionBranches
      else .ok (.whenMatched (frame.condition.getD .empty) branches)

end Frame

/--
Read the parts of a group up to its closing parenthesis, or of the whole pattern
up to its end.
-/
def readParts (slots : Slots) :
    Nat → Bool → Frame → Progress → List Char → Read ((PatternNode × Progress) × List Char)
  | 0, _, _, _, _ => .error .missingParen
  | budget + 1, nested, frame, progress, rest => do
      let options := frame.options
      let rest ← skipGap options rest
      let finish := fun (part : PatternNode) (progress : Progress) (after : List Char) => do
        let ((part, repeated), left) ← readRepetition options part after
        readParts slots budget nested (frame.push part repeated) progress left
      match rest with
      | [] =>
          if nested then .error .missingParen
          else
            let tree ← frame.close slots
            .ok ((tree, progress), [])
      | char :: after =>
          if isRepetition rest then
            .error (if frame.repeated then .nestedRepetition else .nothingToRepeat)
          else
            match char with
            | ')' =>
                if nested then
                  let tree ← frame.close slots
                  .ok ((tree, progress), after)
                else .error .unexpectedParen
            | '|' => readParts slots budget nested frame.branch progress after
            | '(' =>
                let ((opening, inner, moved), body) ←
                  readOpening slots frame.opening options progress after
                if opening = .settings then
                  readParts slots budget nested
                    { frame with options := inner, repeated := false } moved body
                else
                  let ((tree, reached), left) ←
                    readParts slots budget true (Frame.start opening (opening.settingsOf inner)) moved
                      body
                  if frame.wantsCondition then
                    readParts slots budget nested
                      { frame with condition := some tree.simplified, repeated := false } reached left
                  else finish tree reached left
            | '[' =>
                let (set, left) ← readSet options after
                finish (.one options.mode (.among set)) progress left
            | '\\' =>
                let (part, left) ← readBackslash slots options after
                finish part progress left
            | '^' =>
                finish (.anchor (if options.multiline then .lineStart else .textStart))
                  progress after
            | '$' =>
                finish (.anchor (if options.multiline then .lineEnd else .textEnd))
                  progress after
            | '.' =>
                finish
                  (.one options.mode (.among (if options.dotAll then .anything else .dot)))
                  progress after
            | _ =>
                -- a comment that does not end is passed over after an ordinary character
                let left := match skipGap options after with
                  | .ok left => left
                  | .error _ => []
                finish (codeNode options char.toNat) progress left

/-- Check flags from left to right: only `g`, `i` and `m`, each at most once. -/
def checkFlags (seen : List Char) : List Char → Except PatternFault Unit
  | [] => .ok ()
  | flag :: rest =>
      if seen.contains flag then .error (.repeatedFlag flag)
      else if flag = 'g' || flag = 'i' || flag = 'm' then checkFlags (flag :: seen) rest
      else .error (.unknownFlag flag)

/-- The slots and the tree of a pattern. -/
def readPattern (options : Options) (chars : List Char) : Read (Slots × PatternNode) := do
  let slots ← survey options chars
  let ((root, _), _) ←
    readParts slots (2 * chars.length + 2) false (Frame.start .plain options) ⟨1, false⟩ chars
  .ok (slots, root.simplified)

/-- Compile a regular expression. -/
def compile (source flags : String) : Except PatternFault Pattern := do
  checkFlags [] flags.toList
  let ignoresCase := Text.holds flags 'i'
  let isMultiline := Text.holds flags 'm'
  match readPattern (Options.start ignoresCase isMultiline) source.toList with
  | .error fault => .error (.malformed source fault)
  | .ok (slots, root) =>
      .ok {
        source := source
        flags := flags
        isGlobal := Text.holds flags 'g'
        ignoresCase := ignoresCase
        isMultiline := isMultiline
        slots := slots.size
        program := programOf (.group (some 0) none root)
        lead := MatchLead.ofRoot (.group (some 0) none root)
      }

end ScriptEngine.Pattern
