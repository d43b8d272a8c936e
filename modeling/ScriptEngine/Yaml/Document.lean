import ScriptEngine.Yaml.Resolution
import ScriptEngine.Yaml.Scanner

namespace ScriptEngine.Yaml

/-!
# Reading YAML documents

The first document of a stream of tokens is read as a node.  Every step of the
reading takes a token or ends, so a budget of one step per character and a few more
is never used up.
-/

/-- The state of reading a document: what anchors name, and the anchored nodes that are read. -/
structure Reader where
  scanner : Scanner
  anchors : List (String × Anchored) := []
  anchored : List (Nat × Node) := []
  references : Nat := 0
  handles : List (String × String) := []

/-- A step of reading. -/
abbrev Reading :=
  StateT Reader (Except Fault)

/-- What stands in front of a node: where it starts, its anchor and its tag. -/
structure NodeHead where
  start : Mark
  anchor : Option String
  tag : String

namespace Reading

/-- The token that comes next. -/
def peek : Reading Token := fun reader => do
  let (token, scanner) ← reader.scanner.peek
  return (token, { reader with scanner := scanner })

/-- Take the token that comes next. -/
def skip : Reading Unit :=
  modify fun reader => { reader with scanner := reader.scanner.skip }

/-- Take the token that comes next and look at the one after it. -/
def next : Reading Token := do
  skip
  peek

/-- Hand on a part of the document, unless a fault was put off. -/
def handOn : Reading Unit := do
  if let some problem := (← get).scanner.cursor.deferred then throw (.unplaced problem)

/-- Fail at a token, in a construct that starts at `context`. -/
def refuse (context : Mark) (token : Token) (problem : Problem) : Reading α :=
  throw (.ofTokens context token.start problem)

/-- Let the anchor of a node, if it has one, name it from now on. -/
def name (head : NodeHead) (form : NodeForm) (tag : String) : Reading Unit :=
  match head.anchor with
  | some name => modify fun reader =>
      { reader with anchors := (name, ⟨head.start.index, form, tag⟩) :: reader.anchors }
  | none => pure ()

/-- Keep a node if it has an anchor. -/
def finish (head : NodeHead) (node : Node) : Reading Node := do
  if head.anchor.isSome then
    modify fun reader => { reader with anchored := (head.start.index, node) :: reader.anchored }
  return node

/-- The line of a mark, counted from one. -/
def lineAt (mark : Mark) : Nat :=
  mark.line + 1

/-- The tag of a node: the one that is given, or else the one that is usual. -/
def tagOr (given usual : String) : String :=
  if given == "" || given == "!" then usual else Tag.short given

/-- An empty scalar. -/
def empty (mark : Mark) : Reading Node := do
  handOn
  return .scalar Tag.null true "" (lineAt mark)

/-- The usual tag of a scalar. -/
def usualTag (isPlain : Bool) (text : String) : String :=
  if !isPlain then Tag.string
  else if text == "<<" then Tag.merge
  else (Scalar.ofText true text).tag

/-- A scalar. -/
def scalar (head : NodeHead) (isPlain : Bool) (text : String) : Reading Node := do
  handOn
  let tag := tagOr head.tag (usualTag isPlain text)
  name head .scalar tag
  finish head (.scalar tag isPlain text (lineAt head.start))

/-- A list whose items are read next. -/
def sequence (head : NodeHead) (items : Reading (List Node)) : Reading Node := do
  handOn
  let tag := tagOr head.tag Tag.sequence
  name head .sequence tag
  let items ← items
  handOn
  finish head (.sequence tag items (lineAt head.start))

/-- A mapping whose pairs are read next. -/
def mapping (head : NodeHead) (pairs : Reading (List Pair)) : Reading Node := do
  handOn
  let tag := tagOr head.tag Tag.mapping
  name head .mapping tag
  let pairs ← pairs
  handOn
  finish head (.mapping tag pairs (lineAt head.start))

/-- A reference to an anchored node. -/
def reference (anchor : String) (mark : Mark) : Reading Node := do
  handOn
  match (← get).anchors.lookup anchor with
  | some target =>
      modify fun reader => { reader with references := reader.references + 1 }
      return .reference mark.index anchor target (lineAt mark)
  | none => throw (.unplaced (.unknownAnchor anchor))

/-- The whole tag of a handle and a suffix. -/
def wholeTag (start place : Mark) (handle suffix : String) : Reading String := do
  if handle.isEmpty then return suffix
  match (← get).handles.lookup handle with
  | some front => return front ++ suffix
  | none => throw (.ofTokens start place .undefinedTagHandle)

/-- Read the anchor and the tag in front of a node, in either order. -/
def head : Reading NodeHead := do
  let first ← peek
  match first.kind with
  | .anchor name =>
      let second ← next
      match second.kind with
      | .tag handle suffix =>
          let _ ← next
          return ⟨first.start, some name, ← wholeTag first.start second.start handle suffix⟩
      | _ => return ⟨first.start, some name, ""⟩
  | .tag handle suffix =>
      let second ← next
      match second.kind with
      | .anchor name =>
          let _ ← next
          return ⟨first.start, some name, ← wholeTag first.start first.start handle suffix⟩
      | _ => return ⟨first.start, none, ← wholeTag first.start first.start handle suffix⟩
  | _ => return ⟨first.start, none, ""⟩

end Reading

/-- Whether a token ends or continues a block mapping, so that a key or value is missing. -/
def TokenKind.endsBlockPart : TokenKind → Bool
  | .key | .value | .blockEnd => true
  | _ => false

/-- Whether a token ends an entry of a block sequence, so that the entry is missing. -/
def TokenKind.endsBlockEntry : TokenKind → Bool
  | .blockEntry | .blockEnd => true
  | _ => false

/-- Whether a token ends an entry of a sequence without its own indentation. -/
def TokenKind.endsIndentlessEntry : TokenKind → Bool
  | .blockEntry | .key | .value | .blockEnd => true
  | _ => false

namespace Reading

mutual

/-- Read a node; `inBlock` allows blocks and `indentless` a list without indentation. -/
def node (inBlock indentless : Bool) : Nat → Reading Node
  | 0 => throw (.unplaced .nestedTooDeep)
  | budget + 1 => do
      let first ← peek
      match first.kind with
      | .reference name =>
          skip
          reference name first.start
      | _ =>
          let head ← head
          let token ← peek
          match token.kind with
          | .blockEntry =>
              if indentless then sequence head (indentlessItems budget)
              else content inBlock head token budget
          | _ => content inBlock head token budget

/-- Read what a node holds after its anchor and tag. -/
def content (inBlock : Bool) (head : NodeHead) (token : Token) : Nat → Reading Node
  | 0 => throw (.unplaced .nestedTooDeep)
  | budget + 1 => do
      let nothing : Reading Node := do
        if head.anchor.isSome || !head.tag.isEmpty then scalar head true ""
        else refuse head.start token .missingContent
      match token.kind with
      | .scalar style text =>
          skip
          scalar head (style == .plain) text
      | .flowSequenceStart => sequence head do
          skip
          flowItems token.start true budget
      | .flowMappingStart => mapping head do
          skip
          flowPairs token.start true budget
      | .blockSequenceStart =>
          if inBlock then
            sequence head do
              skip
              blockItems token.start budget
          else nothing
      | .blockMappingStart =>
          if inBlock then
            mapping head do
              skip
              blockPairs token.start budget
          else nothing
      | _ => nothing

/-- Read the items of a block sequence. -/
def blockItems (context : Mark) : Nat → Reading (List Node)
  | 0 => throw (.unplaced .nestedTooDeep)
  | budget + 1 => do
      let token ← peek
      match token.kind with
      | .blockEntry =>
          let following ← next
          let item ← if following.kind.endsBlockEntry then empty token.stop else node true false budget
          return item :: (← blockItems context budget)
      | .blockEnd =>
          skip
          return []
      | _ => refuse context token .missingDash

/-- Read the items of a sequence that has no indentation of its own. -/
def indentlessItems : Nat → Reading (List Node)
  | 0 => throw (.unplaced .nestedTooDeep)
  | budget + 1 => do
      let token ← peek
      match token.kind with
      | .blockEntry =>
          let following ← next
          let item ←
            if following.kind.endsIndentlessEntry then empty token.stop else node true false budget
          return item :: (← indentlessItems budget)
      | _ => return []

/-- Read the pairs of a block mapping. -/
def blockPairs (context : Mark) : Nat → Reading (List Pair)
  | 0 => throw (.unplaced .nestedTooDeep)
  | budget + 1 => do
      let token ← peek
      match token.kind with
      | .key =>
          let following ← next
          let key ← if following.kind.endsBlockPart then empty token.stop else node true true budget
          let value ← blockValue budget
          return .mk key value :: (← blockPairs context budget)
      | .blockEnd =>
          skip
          return []
      | _ => refuse context token .missingKey

/-- Read the value of a pair of a block mapping. -/
def blockValue : Nat → Reading Node
  | 0 => throw (.unplaced .nestedTooDeep)
  | budget + 1 => do
      let token ← peek
      match token.kind with
      | .value =>
          let following ← next
          if following.kind.endsBlockPart then empty token.stop else node true true budget
      | _ => empty token.start

/-- Read the items of a bracketed sequence. -/
def flowItems (context : Mark) (first : Bool) : Nat → Reading (List Node)
  | 0 => throw (.unplaced .nestedTooDeep)
  | budget + 1 => do
      let token ← flowSeparated context first .flowSequenceEnd .missingCommaOrBracket
      match token.kind with
      | .flowSequenceEnd =>
          skip
          return []
      | .key =>
          skip
          handOn
          let pair ← flowSinglePair budget
          let _ ← peek
          handOn
          let item := Node.mapping Tag.mapping [pair] (lineAt token.start)
          return item :: (← flowItems context false budget)
      | _ =>
          let item ← node false false budget
          return item :: (← flowItems context false budget)

/-- Take the comma in front of the next entry; gives the token after it. -/
def flowSeparated (context : Mark) (first : Bool) (closing : TokenKind) (problem : Problem) :
    Reading Token := do
  let token ← peek
  if first || token.kind == closing then return token
  else if token.kind == .flowEntry then next
  else refuse context token problem

/-- Read a pair that stands as an item of a bracketed sequence. -/
def flowSinglePair : Nat → Reading Pair
  | 0 => throw (.unplaced .nestedTooDeep)
  | budget + 1 => do
      let token ← peek
      let key ← match token.kind with
        | .value | .flowEntry | .flowSequenceEnd => do
            skip
            empty token.stop
        | _ => node false false budget
      let value ← flowValue .flowSequenceEnd budget
      return .mk key value

/-- Read the value of a pair inside brackets. -/
def flowValue (closing : TokenKind) : Nat → Reading Node
  | 0 => throw (.unplaced .nestedTooDeep)
  | budget + 1 => do
      let token ← peek
      match token.kind with
      | .value =>
          let following ← next
          if following.kind == .flowEntry || following.kind == closing then empty following.start
          else node false false budget
      | _ => empty token.start

/-- Read the pairs of a bracketed mapping. -/
def flowPairs (context : Mark) (first : Bool) : Nat → Reading (List Pair)
  | 0 => throw (.unplaced .nestedTooDeep)
  | budget + 1 => do
      let token ← flowSeparated context first .flowMappingEnd .missingCommaOrBrace
      match token.kind with
      | .flowMappingEnd =>
          skip
          return []
      | .key =>
          let following ← next
          let key ← match following.kind with
            | .value | .flowEntry | .flowMappingEnd => empty following.start
            | _ => node false false budget
          let value ← flowValue .flowMappingEnd budget
          return .mk key value :: (← flowPairs context false budget)
      | _ =>
          let key ← node false false budget
          let after ← peek
          let value ← empty after.start
          return .mk key value :: (← flowPairs context false budget)

end

/-- The handles that every document has. -/
def standardHandles : List (String × String) :=
  [("!", "!"), ("!!", String.ofList Tag.standardStart)]

/-- Read directives; a version and every handle is given at most once. -/
def directives : Nat → Bool → Reading Unit
  | 0, _ => pure ()
  | budget + 1, versioned => do
      let token ← peek
      match token.kind with
      | .version major minor =>
          if versioned then refuse {} token .repeatedVersion
          if major ≠ 1 || minor ≠ 1 then refuse {} token .unknownVersion
          skip
          directives budget true
      | .tagDirective handle uri =>
          if ((← get).handles.lookup handle).isSome then refuse {} token .repeatedTagDirective
          modify fun reader => { reader with handles := (handle, uri) :: reader.handles }
          skip
          directives budget versioned
      | _ => pure ()

/-- Let the standard handles stand for themselves unless they are given otherwise. -/
def addStandardHandles : Reading Unit :=
  modify fun reader => { reader with handles := reader.handles ++ standardHandles }

/-- Look past the end of a document. -/
def close : Reading Unit := do
  let token ← peek
  if token.kind == .documentEnd then skip
  handOn

/-- Read a document that has a start mark. -/
def explicitDocument (budget : Nat) : Reading Node := do
  directives budget false
  addStandardHandles
  let token ← peek
  if token.kind ≠ .documentStart then refuse {} token .missingDocumentStart
  handOn
  let first ← next
  let read ← match first.kind with
    | .version .. | .tagDirective .. | .documentStart | .documentEnd | .streamEnd =>
        empty first.start
    | _ => node true false budget
  close
  return read

/-- Read the first document, if there is one. -/
def document (budget : Nat) : Reading (Option Node) := do
  let _ ← peek
  handOn
  let first ← next
  match first.kind with
  | .streamEnd =>
      handOn
      return none
  | .version .. | .tagDirective .. | .documentStart => return some (← explicitDocument budget)
  | _ =>
      addStandardHandles
      handOn
      let read ← node true false budget
      close
      return some read

end Reading

/-- The first document of a text, if there is one. -/
def readDocument (intake : Intake) : Except Fault (Option Document) := do
  let (root, reader) ←
    (Reading.document (4 * intake.chars.length + 16)).run { scanner := Scanner.start intake }
  return root.map fun root =>
    { root := root, anchored := reader.anchored, references := reader.references }

end ScriptEngine.Yaml
