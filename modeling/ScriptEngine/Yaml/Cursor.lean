import ScriptEngine.Yaml.Intake

namespace ScriptEngine.Yaml

/-!
# Reading YAML characters

A cursor is what is left of a text, the place it starts at, and how much of it was
taken in so far.  A scan is a step of reading that moves the cursor or finds a fault.
Before a scan looks at characters it demands that they are there; that may take in
another portion of the text, and so come upon a fault among its bytes.  A fault that
is met while only a comment is looked for is put off: the scan goes on with what was
taken in up to the fault.
-/

/-- What is left of a text, where it starts, and how much of it was taken in. -/
structure Cursor where
  rest : List Char
  mark : Mark := {}
  /-- The number of characters that were taken in; past the end of the text one stands for the end. -/
  ready : Nat := 0
  /-- The numbers of characters of the portions to come. -/
  portions : List Nat := []
  /-- What comes after these portions, if it is not the end of the text. -/
  fault : Option Problem := none
  /-- Whether a byte order mark stood here when more was taken in for the last time. -/
  opensWithMark : Bool := false
  /-- A fault that was met while looking for a comment and is put off. -/
  deferred : Option Problem := none

/-- Whether a character breaks a line. -/
def isBreak (char : Char) : Bool :=
  char == '\r' || char == '\n' || char.toNat == 0x85 || char.toNat == 0x2028 ||
    char.toNat == 0x2029

/-- Whether a character is a space or a tab. -/
def isGap (char : Char) : Bool :=
  char == ' ' || char == '\t'

/-- Whether a character can stand in the name of an anchor or a directive. -/
def isNameChar (char : Char) : Bool :=
  char.isAlphanum || char == '_' || char == '-'

/-- Whether a text is at an end: a gap, a break or nothing more. -/
def endsHere : List Char → Bool
  | [] => true
  | char :: _ => isGap char || isBreak char

/-- Whether a text is at the end of a line or of everything. -/
def lineEndsHere : List Char → Bool
  | [] => true
  | char :: _ => isBreak char

namespace Cursor

/-- A cursor at the start of a text. -/
def start (intake : Intake) : Cursor :=
  { rest := intake.chars, portions := intake.sizes, fault := intake.fault }

/-- Step over one character. -/
def step (cursor : Cursor) : Cursor :=
  match cursor.rest with
  | [] => cursor
  | _ :: rest => { cursor with
      rest := rest
      mark := { cursor.mark with
        index := cursor.mark.index + 1
        column := cursor.mark.column + 1 }
      ready := cursor.ready - 1 }

/-- Step over a number of characters. -/
def stepMany : Nat → Cursor → Cursor
  | 0, cursor => cursor
  | count + 1, cursor => stepMany count cursor.step

/-- The start of the next line after a number of characters. -/
def nextLine (cursor : Cursor) (rest : List Char) (count : Nat) : Cursor :=
  { cursor with
    rest := rest
    mark := ⟨cursor.mark.index + count, cursor.mark.line + 1, 0⟩
    ready := cursor.ready - count }

/-- Step over a line break; gives the break, a line feed unless it is a separator. -/
def takeBreak (cursor : Cursor) : List Char × Cursor :=
  match cursor.rest with
  | '\r' :: '\n' :: rest => (['\n'], cursor.nextLine rest 2)
  | char :: rest =>
      if isBreak char then
        let kept := if char.toNat == 0x2028 || char.toNat == 0x2029 then char else '\n'
        ([kept], cursor.nextLine rest 1)
      else ([], cursor)
  | [] => ([], cursor)

/-- Whether a mark of a document, three times the character, stands at the start of a line. -/
def isAtDocumentMark (cursor : Cursor) (char : Char) : Bool :=
  cursor.mark.column == 0 &&
    match cursor.rest with
    | first :: second :: third :: rest =>
        first == char && second == char && third == char && endsHere rest
    | _ => false

/-- Whether a document starts or ends here. -/
def isAtDocumentBoundary (cursor : Cursor) : Bool :=
  cursor.isAtDocumentMark '-' || cursor.isAtDocumentMark '.'

/-- Take in portions until a number of characters is there or the text ends. -/
def takeIn (wanted : Nat) : List Nat → Cursor → Except Fault Cursor
  | size :: sizes, cursor =>
      let cursor := { cursor with ready := cursor.ready + size, portions := sizes }
      if wanted ≤ cursor.ready then .ok cursor else takeIn wanted sizes cursor
  | [], cursor =>
      match cursor.fault with
      | some problem => .error (.unplaced problem)
      | none => .ok { cursor with ready := cursor.ready + 1 }

/-- Note whether a byte order mark stands here. -/
def noteMark (cursor : Cursor) : Cursor :=
  { cursor with opensWithMark := cursor.rest.head? == some Text.byteOrderMark }

/-- Have a number of characters there, unless the text ends before. -/
def supply (cursor : Cursor) (wanted : Nat) : Except Fault Cursor :=
  if wanted ≤ cursor.ready then .ok cursor else takeIn wanted cursor.portions cursor.noteMark

/-- Put off the fault after the portions; what comes before it is there. -/
def putOff (cursor : Cursor) : Cursor :=
  { cursor.noteMark with
    ready := cursor.rest.length
    portions := []
    deferred := cursor.fault }

end Cursor

/-- A step of reading. -/
abbrev Scan :=
  StateT Cursor (Except Fault)

namespace Scan

/-- What is left of the text. -/
def rest : Scan (List Char) := do
  return (← get).rest

/-- Where the scan is. -/
def mark : Scan Mark := do
  return (← get).mark

/-- Find a fault in a construct that starts at a mark. -/
def refuse (start : Mark) (problem : Problem) : Scan α := do
  throw (.ofCharacters start (← mark) problem)

/-- Demand that a number of characters is there. -/
def demand (wanted : Nat) : Scan Unit := fun cursor =>
  (cursor.supply wanted).map fun supplied => ((), supplied)

/-- Ask for a number of characters in order to look for a comment; tells whether there is no
fault before them. -/
def ask (wanted : Nat) : Scan Bool := fun cursor =>
  match cursor.supply wanted with
  | .ok supplied => .ok (true, supplied)
  | .error _ => .ok (false, cursor.putOff)

/-- Step over one character. -/
def step : Scan Unit :=
  modify Cursor.step

/-- Step over a number of characters. -/
def steps (count : Nat) : Scan Unit :=
  modify (Cursor.stepMany count)

/-- Whether the next character is the given one. -/
def isAt (char : Char) : Scan Bool := do
  return (← rest).head? == some char

/-- Whether the next character is in a class. -/
def isIn (accepts : Char → Bool) : Scan Bool := do
  return (← rest).head?.any accepts

/-- Step over a line break of which all characters are there; gives the break. -/
def takeBreakHere : Scan (List Char) :=
  modifyGet Cursor.takeBreak

/-- Step over a line break; gives the break. -/
def takeBreak : Scan (List Char) := do
  demand 2
  takeBreakHere

/-- Step over the characters of a class, one at a time; gives them after those before. -/
def takeFrom (accepts : Char → Bool) : Nat → List Char → Scan (List Char)
  | 0, done => pure done.reverse
  | budget + 1, done => do
      demand 1
      match ← rest with
      | [] => return done.reverse
      | char :: _ =>
          if accepts char then
            step
            takeFrom accepts budget (char :: done)
          else return done.reverse

/-- Step over the characters of a class; gives them. -/
def takeWhile (accepts : Char → Bool) : Scan (List Char) := do
  takeFrom accepts ((← rest).length + 1) []

/-- Step over the characters of a class. -/
def dropWhile (accepts : Char → Bool) : Scan Unit := do
  let _ ← takeWhile accepts

/-- Step over the rest of a line. -/
def dropLine : Scan Unit :=
  dropWhile (!isBreak ·)

/-- Step over a line break if one comes next. -/
def dropBreak : Scan Unit := do
  if ← isIn isBreak then
    let _ ← takeBreak

/-! ## Comments -/

/-- The number of characters within which another comment is looked for. -/
def commentReach : Nat :=
  512

/-- How far away a comment starts on this line, looked for from an offset on. -/
def commentOnLine : Nat → Nat → Scan (Option Nat)
  | 0, _ => pure none
  | budget + 1, offset => do
      if !(← ask (offset + 1)) then return none
      match (← rest)[offset]? with
      | none => return none
      | some char =>
          if isGap char then commentOnLine budget (offset + 1)
          else return if char == '#' then some offset else none

/--
How far away a comment starts on this line or the ones after it, looked for from an
offset on.  Lines end with a line feed or a carriage return; a longer mark of a line
end is looked at but not passed.
-/
def commentAhead : Nat → Nat → Scan (Option Nat)
  | 0, _ => pure none
  | budget + 1, offset => do
      if !(← ask (offset + 1)) then return none
      match (← rest)[offset]? with
      | none => return none
      | some char =>
          if char == '#' then return some offset
          else if isGap char || char == '\n' || char == '\r' then
            commentAhead budget (offset + 1)
          else
            if isBreak char && budget ≠ 0 then
              let _ ← ask (offset + 2)
            return none

/-- Step over breaks and other characters up to an index. -/
def stepTo (index : Nat) : Nat → Scan Unit
  | 0 => pure ()
  | budget + 1 => do
      if (← mark).index < index then
        demand 1
        if ← isIn isBreak then
          let _ ← takeBreak
        else step
        stepTo index budget

/-- Step over what comes before an offset. -/
def stepOver (offset : Nat) : Scan Unit := do
  stepTo ((← mark).index + offset) offset

/-- Step over a comment and over those on the lines after it that are close enough. -/
def comments : Nat → Scan Unit
  | 0 => pure ()
  | budget + 1 => do
      dropLine
      let ahead ←
        if ← isIn fun char => char == '\n' || char == '\r' then
          commentAhead (commentReach - 1) 1
        else do
          let _ ← ask 2
          pure none
      match ahead with
      | some offset =>
          stepOver offset
          comments budget
      | none => pure ()

/-- Step over a comment that follows on the same line, if there is one. -/
def lineComment : Scan Unit := do
  match ← commentOnLine commentReach 0 with
  | some offset =>
      stepOver offset
      dropLine
  | none => pure ()

/--
Step over gaps and comments, and over a line break after them; tells whether there was
one.  Tabs are gaps only if they are allowed.  When what was taken in last opened with
a byte order mark, the first character of a line does not count.
-/
def dropGap (tabs : Bool) : Scan Bool := do
  demand 1
  let cursor ← get
  if cursor.mark.column == 0 && cursor.opensWithMark then step
  dropWhile fun char => char == ' ' || (tabs && char == '\t')
  if ← isAt '#' then comments ((← rest).length + 1)
  if ← isIn isBreak then
    let _ ← takeBreak
    return true
  else return false

end Scan

end ScriptEngine.Yaml
