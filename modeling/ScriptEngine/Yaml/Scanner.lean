import ScriptEngine.Yaml.Token

namespace ScriptEngine.Yaml

/-!
# Finding YAML tokens

A key may be found to be one only by the colon after it.  A place where a key may
have started is therefore remembered, and when the colon comes, the token of the key
is put in front of what was read since.  A token that may be a key is awaited: it is
handed out once nothing can be put in front of it any more.  Three tokens are kept
ready.  A bracket pair without anything that may be a key in it is not awaited; when
the colon after it comes too late, the token of the key goes to the end.
-/

/-- A place where a key may have started. -/
structure PossibleKey where
  isPossible : Bool := false
  isRequired : Bool := false
  number : Nat := 0
  mark : Mark := {}

/-- The state of finding tokens: what is left of the text, and the tokens that are ready. -/
structure Scanner where
  cursor : Cursor
  ready : List Token := []
  taken : Nat := 0
  started : Bool := false
  flowLevel : Nat := 0
  indent : Int := -1
  indents : List Int := []
  keyAllowed : Bool := false
  key : PossibleKey := {}
  outerKeys : List PossibleKey := []
  /-- The numbers of the tokens that are awaited, with the levels of the keys they may be. -/
  awaited : List (Nat × Nat) := []

namespace Scanner

/-- The most levels that blocks or brackets may nest. -/
def maxNesting : Nat :=
  10000

/-- Whether the scanner is inside brackets. -/
def inFlow (scanner : Scanner) : Bool :=
  scanner.flowLevel ≠ 0

/-- Where the scanner is. -/
def mark (scanner : Scanner) : Mark :=
  scanner.cursor.mark

/-- The fault of a character that may not stand here. -/
def fault (scanner : Scanner) (problem : Problem) : Fault :=
  .ofCharacters scanner.mark scanner.mark problem

/-- Put a token at the end. -/
def append (scanner : Scanner) (token : Token) : Scanner :=
  { scanner with ready := scanner.ready ++ [token] }

/-- Put a token in front of the one of a number, or at the end if that one is gone. -/
def insert (scanner : Scanner) (number : Nat) (token : Token) : Scanner :=
  if number < scanner.taken then scanner.append token
  else
    let place := number - scanner.taken
    { scanner with ready := scanner.ready.take place ++ token :: scanner.ready.drop place }

/-- The number of the token that comes next. -/
def nextNumber (scanner : Scanner) : Nat :=
  scanner.taken + scanner.ready.length

/-- Read characters. -/
def read (scanner : Scanner) (scan : Scan α) : Except Fault (α × Scanner) := do
  let (result, cursor) ← scan.run scanner.cursor
  return (result, { scanner with cursor := cursor })

/-- Pass characters. -/
def pass (scanner : Scanner) (scan : Scan Unit) : Except Fault Scanner := do
  let (_, scanner) ← scanner.read scan
  return scanner

/-- Go on after a token that ends before a cursor. -/
def produce (scanner : Scanner) (kind : TokenKind) (cursor : Cursor) : Scanner :=
  ({ scanner with cursor := cursor }).append ⟨kind, scanner.mark, cursor.mark⟩

/-- Go on after a token of a number of characters. -/
def produceMany (scanner : Scanner) (kind : TokenKind) (count : Nat) : Scanner :=
  scanner.produce kind (scanner.cursor.stepMany count)

/-- Go on after a token and a comment on the same line. -/
def produceSign (scanner : Scanner) (kind : TokenKind) : Except Fault Scanner :=
  (scanner.produceMany kind 1).pass Scan.lineComment

/-! ## Possible keys -/

/-- The fault of a key that has to be one and is not followed by a colon. -/
def missingColon (scanner : Scanner) (key : PossibleKey) : Fault :=
  .ofCharacters key.mark scanner.mark .missingColon

/-- Whether a key can still be one: a key stays on its line and is not too long. -/
def isFresh (scanner : Scanner) (key : PossibleKey) : Bool :=
  key.mark.line == scanner.mark.line && scanner.mark.index ≤ key.mark.index + 1024

/-- Whether a possible key is still one; a required one has to be. -/
def keyHolds (scanner : Scanner) (key : PossibleKey) : Except Fault Bool :=
  if !key.isPossible then .ok false
  else if scanner.isFresh key then .ok true
  else if key.isRequired then .error (scanner.missingColon key)
  else .ok false

/-- Do not await the token of a number any more. -/
def forget (scanner : Scanner) (number : Nat) : Scanner :=
  { scanner with awaited := scanner.awaited.filter fun entry => entry.1 != number }

/-- The possible key of a level. -/
def keyAt? (scanner : Scanner) (level : Nat) : Option PossibleKey :=
  if level ≤ scanner.flowLevel then
    (scanner.key :: scanner.outerKeys)[scanner.flowLevel - level]?
  else none

/-- Give up the possible key of this level. -/
def dropKey (scanner : Scanner) : Except Fault Scanner :=
  if scanner.key.isPossible && scanner.key.isRequired then
    .error (scanner.missingColon scanner.key)
  else if scanner.key.isPossible then
    .ok ({ scanner with key := { scanner.key with isPossible := false } }.forget scanner.key.number)
  else .ok scanner

/-- Remember that a key may start here. -/
def saveKey (scanner : Scanner) : Except Fault Scanner := do
  if scanner.keyAllowed then
    let required := !scanner.inFlow && scanner.indent == Int.ofNat scanner.mark.column
    let scanner ← scanner.dropKey
    let number := scanner.nextNumber
    return { scanner.forget number with
      key := ⟨true, required, number, scanner.mark⟩
      awaited := (number, scanner.flowLevel) :: (scanner.forget number).awaited }
  else return scanner

/-! ## Indentation -/

/-- Start a block at a column if it is deeper; its token goes in front of a number, if given. -/
def openBlock (scanner : Scanner) (mark : Mark) (number : Option Nat) (kind : TokenKind) :
    Except Fault Scanner :=
  if !scanner.inFlow && scanner.indent < Int.ofNat mark.column then
    let opened := { scanner with
      indents := scanner.indent :: scanner.indents
      indent := Int.ofNat mark.column }
    if maxNesting < opened.indents.length then
      .error (.ofCharacters scanner.key.mark scanner.mark .nestedTooDeep)
    else
      let token : Token := ⟨kind, mark, mark⟩
      .ok (match number with
        | some number => opened.insert number token
        | none => opened.append token)
  else .ok scanner

/-- End the blocks that are deeper than a column; `indents` are the columns around them. -/
def closeBlocksTo (column : Int) (mark : Mark) : List Int → Scanner → Scanner
  | [], scanner => scanner
  | outer :: rest, scanner =>
      if column < scanner.indent then
        closeBlocksTo column mark rest
          ({ scanner with indent := outer, indents := rest }.append ⟨.blockEnd, mark, mark⟩)
      else scanner

/-- End the blocks that are deeper than a column. -/
def closeBlocks (scanner : Scanner) (column : Int) (mark : Mark) : Scanner :=
  if scanner.inFlow then scanner else closeBlocksTo column mark scanner.indents scanner

/-! ## Between tokens -/

/-- Step over gaps, comments and line breaks to the next token. -/
def toNextToken : Nat → Scanner → Except Fault Scanner
  | 0, scanner => .ok scanner
  | budget + 1, scanner => do
      let (broken, passed) ← scanner.read (Scan.dropGap (scanner.inFlow || !scanner.keyAllowed))
      if broken then
        toNextToken budget { passed with keyAllowed := scanner.keyAllowed || !scanner.inFlow }
      else return passed

/-! ## Tokens -/

/-- The end of the text. -/
def fetchEnd (scanner : Scanner) : Except Fault Scanner := do
  let cursor := scanner.cursor
  let cursor := if cursor.mark.column = 0 then cursor else cursor.nextLine cursor.rest 0
  let scanner := { scanner with cursor := cursor }
  let scanner ← (scanner.closeBlocks (-1) scanner.mark).dropKey
  return ({ scanner with keyAllowed := false }).produce .streamEnd cursor

/-- A directive or a mark of a document, which ends all blocks. -/
def fetchBoundary (scanner : Scanner) (read : Scanner → Except Fault Scanner) :
    Except Fault Scanner := do
  let scanner ← (scanner.closeBlocks (-1) scanner.mark).dropKey
  read { scanner with keyAllowed := false }

/-- An opening bracket. -/
def fetchOpening (scanner : Scanner) (kind : TokenKind) : Except Fault Scanner := do
  let scanner ← scanner.saveKey
  if maxNesting ≤ scanner.flowLevel then
    throw (.ofCharacters scanner.mark scanner.mark .nestedTooDeep)
  let inner := { scanner with
    outerKeys := scanner.key :: scanner.outerKeys
    key := { number := scanner.nextNumber, mark := scanner.mark }
    flowLevel := scanner.flowLevel + 1
    keyAllowed := true }
  inner.produceSign kind

/-- A closing bracket. -/
def fetchClosing (scanner : Scanner) (kind : TokenKind) : Except Fault Scanner := do
  let scanner ← scanner.dropKey
  let outer := match scanner.outerKeys with
    | key :: keys => { scanner.forget scanner.key.number with
        key := key
        outerKeys := keys
        flowLevel := scanner.flowLevel - 1 }
    | [] => scanner
  ({ outer with keyAllowed := false }).produceSign kind

/-- A comma. -/
def fetchComma (scanner : Scanner) : Except Fault Scanner := do
  let scanner ← scanner.dropKey
  ({ scanner with keyAllowed := true }).produceSign .flowEntry

/-- The dash of a list; a comment after it belongs to what follows. -/
def fetchDash (scanner : Scanner) : Except Fault Scanner := do
  let scanner ←
    if scanner.inFlow then pure scanner
    else if scanner.keyAllowed then scanner.openBlock scanner.mark none .blockSequenceStart
    else throw (scanner.fault .entryNotAllowed)
  let scanner ← scanner.dropKey
  return ({ scanner with keyAllowed := true }).produceMany .blockEntry 1

/-- The mark of a key. -/
def fetchKey (scanner : Scanner) : Except Fault Scanner := do
  let scanner ←
    if scanner.inFlow then pure scanner
    else if scanner.keyAllowed then scanner.openBlock scanner.mark none .blockMappingStart
    else throw (scanner.fault .keyNotAllowed)
  let scanner ← scanner.dropKey
  ({ scanner with keyAllowed := !scanner.inFlow }).produceSign .key

/-- The colon before a value. -/
def fetchValue (scanner : Scanner) : Except Fault Scanner := do
  let key := scanner.key
  if ← scanner.keyHolds key then
    let scanner := scanner.insert key.number ⟨.key, key.mark, key.mark⟩
    let scanner ← scanner.openBlock key.mark (some key.number) .blockMappingStart
    ({ scanner.forget key.number with
      key := { scanner.key with isPossible := false }
      keyAllowed := false }).produceSign .value
  else
    let scanner := { scanner with key := { scanner.key with isPossible := false } }
    let scanner ←
      if scanner.inFlow then pure scanner
      else if scanner.keyAllowed then scanner.openBlock scanner.mark none .blockMappingStart
      else throw (scanner.fault .valueNotAllowed)
    ({ scanner with keyAllowed := !scanner.inFlow }).produceSign .value

/-- A token that may start a key. -/
def fetchKeyable (scanner : Scanner) (scan : Scan TokenKind) : Except Fault Scanner := do
  let scanner ← scanner.saveKey
  let (kind, cursor) ← scan.run scanner.cursor
  (({ scanner with keyAllowed := false }).produce kind cursor).pass Scan.lineComment

/-- A plain scalar. -/
def fetchPlain (scanner : Scanner) : Except Fault Scanner := do
  let scanner ← scanner.saveKey
  let ((text, broken), cursor) ←
    (plainScalar scanner.inFlow (scanner.indent + 1).toNat).run scanner.cursor
  let scanner := ({ scanner with keyAllowed := broken }).produce (.scalar .plain text) cursor
  if broken then return scanner else scanner.pass Scan.lineComment

/-- A block of lines. -/
def fetchBlock (scanner : Scanner) (literal : Bool) : Except Fault Scanner := do
  let scanner ← scanner.dropKey
  let (text, cursor) ← (blockScalar literal scanner.indent).run scanner.cursor
  return ({ scanner with keyAllowed := true }).produce (.scalar .block text) cursor

/-- Whether a character never starts a plain scalar, unless it is one of `-?:` before a letter. -/
def isIndicator (char : Char) : Bool :=
  "-?:,[]\x7b\x7d#&*!|>'\"%@\x60".toList.contains char

/-- Whether a plain scalar starts here. -/
def startsPlain (scanner : Scanner) : Bool :=
  match scanner.cursor.rest with
  | [] => false
  | '-' :: rest => !rest.head?.any isGap
  | char :: rest =>
      if (char == '?' || char == ':') && !scanner.inFlow then !endsHere rest
      else !(isGap char || isBreak char || isIndicator char)

/-- Find the token that starts here. -/
def fetchHere (scanner : Scanner) : Except Fault Scanner :=
  match scanner.cursor.rest with
  | [] => scanner.fetchEnd
  | char :: rest =>
      if scanner.mark.column == 0 && char == '%' then
        scanner.fetchBoundary fun scanner => do
          let (kind, cursor) ← directiveToken.run scanner.cursor
          return scanner.produce kind cursor
      else if scanner.cursor.isAtDocumentMark '-' then
        scanner.fetchBoundary fun scanner => .ok (scanner.produceMany .documentStart 3)
      else if scanner.cursor.isAtDocumentMark '.' then
        scanner.fetchBoundary fun scanner => .ok (scanner.produceMany .documentEnd 3)
      else
        let ends := endsHere rest
        match char with
        | '[' => scanner.fetchOpening .flowSequenceStart
        | '\x7b' => scanner.fetchOpening .flowMappingStart
        | ']' => scanner.fetchClosing .flowSequenceEnd
        | '\x7d' => scanner.fetchClosing .flowMappingEnd
        | ',' => scanner.fetchComma
        | '*' => scanner.fetchKeyable do return .reference (← anchorName)
        | '&' => scanner.fetchKeyable do return .anchor (← anchorName)
        | '!' => scanner.fetchKeyable tagToken
        | '\'' => scanner.fetchKeyable do return .scalar .quoted (← quotedScalar '\'')
        | '"' => scanner.fetchKeyable do return .scalar .quoted (← quotedScalar '"')
        | _ =>
            if char == '-' && ends then scanner.fetchDash
            else if char == '?' && (scanner.inFlow || ends) then scanner.fetchKey
            else if char == ':' && (scanner.inFlow || ends) then scanner.fetchValue
            else if char == '|' && !scanner.inFlow then scanner.fetchBlock true
            else if char == '>' && !scanner.inFlow then scanner.fetchBlock false
            else if scanner.startsPlain then scanner.fetchPlain
            else .error (scanner.fault .strayCharacter)

/-- Find the next token. -/
def fetch (scanner : Scanner) : Except Fault Scanner := do
  let scanner ← scanner.pass (Scan.demand 1)
  if !scanner.started then
    return ({ scanner with started := true, keyAllowed := true }).produce .streamStart
      scanner.cursor
  else
    let before := scanner.mark
    let scanner ← toNextToken (scanner.cursor.rest.length + 1) scanner
    let scanner := scanner.closeBlocks (Int.ofNat scanner.mark.column) before
    let scanner ← scanner.pass (Scan.demand 4)
    scanner.fetchHere

/-- Whether the first ready token may turn out to be a key. -/
def firstMayBeKey (scanner : Scanner) : Except Fault Bool :=
  match (scanner.awaited.lookup scanner.taken).bind scanner.keyAt? with
  | some key => scanner.keyHolds key
  | none => .ok false

/-- Find tokens until the first one is certain, within a budget. -/
def fill : Nat → Scanner → Except Fault Scanner
  | 0, scanner => .ok scanner
  | budget + 1, scanner => do
      let waits ← if scanner.ready.length ≤ 2 then pure true else scanner.firstMayBeKey
      if waits then fill budget (← scanner.fetch) else return scanner

/-- The token that comes next, with the scanner that has it ready. -/
def peek (scanner : Scanner) : Except Fault (Token × Scanner) := do
  let scanner ← fill (scanner.cursor.rest.length + 8) scanner
  match scanner.ready with
  | token :: _ => return (token, scanner)
  | [] => return (⟨.streamEnd, scanner.mark, scanner.mark⟩, scanner)

/-- Take the token that comes next. -/
def skip (scanner : Scanner) : Scanner :=
  { scanner with ready := scanner.ready.tail, taken := scanner.taken + 1 }

/-- A scanner at the start of a text. -/
def start (intake : Intake) : Scanner :=
  { cursor := Cursor.start intake }

end Scanner

end ScriptEngine.Yaml
