import ScriptEngine.Yaml.Cursor

namespace ScriptEngine.Yaml

/-!
# YAML scalars

A scalar is written plainly, in quotes, or as a block of lines.  A line break inside
a plain or quoted scalar becomes a space, and each further one a line feed.  A block
keeps its lines or folds them in the same way.
-/

open Scan

/-- How a scalar is written. -/
inductive ScalarStyle where
  | plain
  | quoted
  | block
  deriving DecidableEq, Repr

/-- The gaps and breaks between two parts of a scalar. -/
structure Gap where
  spaces : List Char := []
  firstBreak : List Char := []
  moreBreaks : List Char := []
  broken : Bool := false

namespace Gap

/-- What a gap contributes to the text of its scalar. -/
def text (gap : Gap) : List Char :=
  if gap.broken then
    if gap.firstBreak.head? = some '\n' then
      if gap.moreBreaks.isEmpty then [' '] else gap.moreBreaks
    else gap.firstBreak ++ gap.moreBreaks
  else gap.spaces

/--
Collect gaps and breaks in a scalar that starts at a mark.  After a break, tabs in
front of the given column are refused.
-/
def collect (start : Mark) (column : Nat) : Nat → Gap → Scan Gap
  | 0, gap => pure gap
  | budget + 1, gap => do
      demand 1
      match ← rest with
      | [] => return gap
      | char :: _ =>
          if isGap char then
            if gap.broken then
              if char == '\t' && (← mark).column < column then refuse start .tabInPlain
              step
              collect start column budget gap
            else
              step
              collect start column budget { gap with spaces := gap.spaces ++ [char] }
          else if isBreak char then
            let taken ← takeBreak
            if gap.broken then
              collect start column budget { gap with moreBreaks := gap.moreBreaks ++ taken }
            else
              collect start column budget
                { gap with spaces := [], firstBreak := taken, broken := true }
          else return gap

end Gap

/-! ## Plain scalars -/

/-- Whether a character ends a plain scalar inside brackets. -/
def isFlowIndicator (char : Char) : Bool :=
  char == ',' || char == '?' || char == '[' || char == ']' || char == '\x7b' || char == '\x7d'

/-- Whether a plain scalar ends here. -/
def plainEndsHere (inFlow : Bool) : List Char → Bool
  | [] => true
  | ':' :: rest => endsHere rest
  | char :: _ => isGap char || isBreak char || (inFlow && isFlowIndicator char)

/-- Read the characters of a plain scalar up to a gap; the text so far is in reverse. -/
def plainPart (inFlow : Bool) : Nat → List Char → Scan (List Char)
  | 0, done => pure done
  | budget + 1, done => do
      match ← rest with
      | [] => return done
      | char :: after =>
          if plainEndsHere inFlow (char :: after) then return done
          else
            step
            demand 2
            plainPart inFlow budget (char :: done)

/--
Read a plain scalar from a gap on; the text so far is in reverse.  Outside brackets
its lines are indented to the given column.  Tells whether it ends after a break.
-/
def plainFrom (inFlow : Bool) (start : Mark) (column : Nat) :
    Nat → Gap → List Char → Scan (List Char × Bool)
  | 0, gap, done => pure (done, gap.broken)
  | budget + 1, gap, done => do
      demand 4
      let cursor ← get
      if cursor.isAtDocumentBoundary || cursor.rest.head? == some '#' then
        return (done, gap.broken)
      else
        let (done, gap) ←
          if plainEndsHere inFlow cursor.rest then pure (done, gap)
          else do
            let done ← plainPart inFlow (cursor.rest.length + 1) (gap.text.reverse ++ done)
            pure (done, {})
        if ← isIn fun char => isGap char || isBreak char then
          let gap ← Gap.collect start column ((← rest).length + 1) gap
          if !inFlow && (← mark).column < column then return (done, gap.broken)
          else plainFrom inFlow start column budget gap done
        else return (done, gap.broken)

/-- Read a plain scalar; tells whether it ends after a break. -/
def plainScalar (inFlow : Bool) (column : Nat) : Scan (String × Bool) := do
  let cursor ← get
  let (done, broken) ←
    plainFrom inFlow cursor.mark column (cursor.rest.length + 1) {} []
  return (String.ofList done.reverse, broken)

/-! ## Quoted scalars -/

/-- The character of a short escape. -/
def escapedChar? : Char → Option Char
  | '0' => some (Char.ofNat 0)
  | 'a' => some (Char.ofNat 7)
  | 'b' => some (Char.ofNat 8)
  | 't' => some '\t'
  | '\t' => some '\t'
  | 'n' => some '\n'
  | 'v' => some (Char.ofNat 11)
  | 'f' => some (Char.ofNat 12)
  | 'r' => some '\r'
  | 'e' => some (Char.ofNat 27)
  | ' ' => some ' '
  | '"' => some '"'
  | '\'' => some '\''
  | '\\' => some '\\'
  | 'N' => some (Char.ofNat 0x85)
  | '_' => some (Char.ofNat 0xA0)
  | 'L' => some (Char.ofNat 0x2028)
  | 'P' => some (Char.ofNat 0x2029)
  | _ => none

/-- The number of digits of an escape by code. -/
def escapeWidth? : Char → Option Nat
  | 'x' => some 2
  | 'u' => some 4
  | 'U' => some 8
  | _ => none

/-- The value of a hexadecimal digit. -/
def hexDigit? (char : Char) : Option Nat :=
  if char.isDigit then some (char.toNat - '0'.toNat)
  else if 'a' ≤ char && char ≤ 'f' then some (char.toNat - 'a'.toNat + 10)
  else if 'A' ≤ char && char ≤ 'F' then some (char.toNat - 'A'.toNat + 10)
  else none

/-- The value of hexadecimal digits. -/
def hexValue? : Nat → List Char → Option Nat
  | value, [] => some value
  | value, char :: rest =>
      match hexDigit? char with
      | some digit => hexValue? (value * 16 + digit) rest
      | none => none

/-- Read an escape by code whose digits come next, in a scalar that starts at a mark. -/
def codeEscape (start : Mark) (width : Nat) : Scan Char := do
  demand width
  let digits := (← rest).take width
  if digits.length < width then refuse start .badHexEscape
  else
    match hexValue? 0 digits with
    | none => refuse start .badHexEscape
    | some code =>
        if code.isValidChar then
          steps width
          return Char.ofNat code
        else refuse start .badCodeEscape

/-- Read an escape whose backslash comes next, in a scalar that starts at a mark. -/
def escape (start : Mark) : Scan Char := do
  match ← rest with
  | _ :: letter :: _ =>
      match escapedChar? letter with
      | some char =>
          steps 2
          return char
      | none =>
          match escapeWidth? letter with
          | some width =>
              steps 2
              codeEscape start width
          | none => refuse start .unknownEscape
  | _ => refuse start .unknownEscape

/--
Read the characters of a quoted scalar up to a gap or the quote; the text so far is
in reverse.  Tells whether an escaped line break was passed.
-/
def quotedPart (start : Mark) (quote : Char) : Nat → List Char → Scan (List Char × Bool)
  | 0, done => pure (done, false)
  | budget + 1, done => do
      match ← rest with
      | [] => return (done, false)
      | char :: after =>
          if isGap char || isBreak char then return (done, false)
          else if char == quote then
            if quote == '\'' && after.head? == some '\'' then
              steps 2
              demand 2
              quotedPart start quote budget ('\'' :: done)
            else return (done, false)
          else if quote == '"' && char == '\\' then
            if after.head?.any isBreak then
              demand 3
              step
              let _ ← takeBreakHere
              return (done, true)
            else
              let char ← escape start
              demand 2
              quotedPart start quote budget (char :: done)
          else
            step
            demand 2
            quotedPart start quote budget (char :: done)

/-- Read a quoted scalar after its opening quote; the text so far is in reverse. -/
def quotedFrom (start : Mark) (quote : Char) : Nat → List Char → Scan (List Char)
  | 0, _ => refuse start .openScalar
  | budget + 1, done => do
      demand 4
      let cursor ← get
      if cursor.isAtDocumentBoundary then refuse start .documentInScalar
      else if cursor.rest.isEmpty then refuse start .openScalar
      else
        let (done, escaped) ← quotedPart start quote (cursor.rest.length + 1) done
        demand 1
        if ← isAt quote then
          step
          return done
        else
          let gap ← Gap.collect start 0 ((← rest).length + 1) { broken := escaped }
          quotedFrom start quote budget (gap.text.reverse ++ done)

/-- Read a quoted scalar. -/
def quotedScalar (quote : Char) : Scan String := do
  let start ← mark
  step
  let done ← quotedFrom start quote ((← rest).length + 1) []
  return String.ofList done.reverse

/-! ## Blocks -/

/-- What becomes of the line breaks at the end of a block. -/
inductive Chomping where
  | strip
  | clip
  | keep
  deriving DecidableEq, Repr

/-- The chomping a sign asks for. -/
def chomping? : Char → Option Chomping
  | '+' => some .keep
  | '-' => some .strip
  | _ => none

/-- Read the chomping of a block, if it is given. -/
def blockChomping : Scan (Option Chomping) := do
  demand 1
  match (← rest).head?.bind chomping? with
  | some chomping =>
      step
      return some chomping
  | none => return none

/-- Read the indentation of a block that starts at a mark, zero if it is not given. -/
def blockIncrement (start : Mark) : Scan Nat := do
  demand 1
  match ← rest with
  | char :: _ =>
      if char == '0' then refuse start .zeroIndentation
      else if char.isDigit then
        step
        return char.toNat - '0'.toNat
      else return 0
  | [] => return 0

/-- Read what follows the mark of a block on its line. -/
def blockHeader (start : Mark) : Scan (Chomping × Nat) := do
  let early ← blockChomping
  let increment ← blockIncrement start
  let late ← if early.isNone && increment ≠ 0 then blockChomping else pure none
  dropWhile isGap
  if ← isAt '#' then dropLine
  if lineEndsHere (← rest) then
    dropBreak
    return ((early <|> late).getD .clip, increment)
  else refuse start .blockHeaderEnd

/--
Step over indentation and empty lines.  Gives the breaks and the largest column
reached; a column of zero stands for one that is not known yet.
-/
def blockBreaks (start : Mark) (column : Nat) :
    Nat → Nat → List Char → Scan (List Char × Nat)
  | 0, widest, breaks => pure (breaks, widest)
  | budget + 1, widest, breaks => do
      let before := (← mark).column
      if column = 0 then dropWhile (· == ' ')
      else
        let _ ← takeFrom (· == ' ') (column - before) []
        demand 1
      let reached := (← mark).column
      let widest := max widest reached
      if (column = 0 || reached < column) && (← isAt '\t') then refuse start .tabInBlock
      else if ← isIn isBreak then
        let taken ← takeBreak
        blockBreaks start column budget widest (breaks ++ taken)
      else return (breaks, widest)

/-- The lines of a block so far: the text in reverse and the breaks after it. -/
structure BlockLines where
  done : List Char := []
  lastBreak : List Char := []
  moreBreaks : List Char := []
  startsBlank : Bool := false

/-- Read the lines of a block that are indented to a column. -/
def blockLines (literal : Bool) (start : Mark) (column : Nat) :
    Nat → BlockLines → Scan BlockLines
  | 0, lines => pure lines
  | budget + 1, lines => do
      let cursor ← get
      if cursor.mark.column ≠ column || cursor.rest.isEmpty then return lines
      else
        let blank ← isIn isGap
        let folds := !literal && !lines.startsBlank && !blank &&
          lines.lastBreak.head? == some '\n'
        let joint :=
          if folds then if lines.moreBreaks.isEmpty then [' '] else []
          else lines.lastBreak
        let line ← takeWhile (!isBreak ·)
        let lastBreak ← takeBreak
        let (moreBreaks, _) ← blockBreaks start column ((← rest).length + 1) 0 []
        blockLines literal start column budget
          { done := (joint ++ lines.moreBreaks ++ line).reverse ++ lines.done
            lastBreak := lastBreak
            moreBreaks := moreBreaks
            startsBlank := blank }

/-- Read a block; the lines around it are indented to a column, or below zero to none. -/
def blockScalar (literal : Bool) (indent : Int) : Scan String := do
  let start ← mark
  step
  let (chomping, increment) ← blockHeader start
  let given := if increment = 0 then 0 else (max indent 0).toNat + increment
  let (breaks, widest) ← blockBreaks start given ((← rest).length + 1) 0 []
  let column := if given = 0 then max (max widest (indent + 1).toNat) 1 else given
  let lines ← blockLines literal start column ((← rest).length + 1) { moreBreaks := breaks }
  let ending := match chomping with
    | .strip => []
    | .clip => lines.lastBreak
    | .keep => lines.lastBreak ++ lines.moreBreaks
  return String.ofList (lines.done.reverse ++ ending)

end ScriptEngine.Yaml
