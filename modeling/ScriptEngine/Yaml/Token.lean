import ScriptEngine.Yaml.Scalar

namespace ScriptEngine.Yaml

/-!
# YAML tokens

The tokens of a YAML text, with the place each starts at.  Blocks have no brackets
in the text; their start and end are tokens of their own all the same.
-/

/-- What a token is. -/
inductive TokenKind where
  | streamStart
  | streamEnd
  | version (major minor : Nat)
  | tagDirective (handle uri : String)
  | documentStart
  | documentEnd
  | blockSequenceStart
  | blockMappingStart
  | blockEnd
  | flowSequenceStart
  | flowSequenceEnd
  | flowMappingStart
  | flowMappingEnd
  | blockEntry
  | flowEntry
  | key
  | value
  | reference (name : String)
  | anchor (name : String)
  | tag (handle suffix : String)
  | scalar (style : ScalarStyle) (text : String)
  deriving DecidableEq, Repr

/-- A token and the places where it starts and ends. -/
structure Token where
  kind : TokenKind
  start : Mark
  stop : Mark
  deriving DecidableEq, Repr

/-! ## Names, tags and directives -/

open Scan

/-- Whether a character may follow the name of an anchor. -/
def endsAnchor : List Char → Bool
  | char :: rest => "?:,]\x7d%@\x60".toList.contains char || endsHere (char :: rest)
  | [] => true

/-- Read the name of an anchor or alias after its mark. -/
def anchorName : Scan String := do
  let start ← mark
  step
  let name ← takeWhile isNameChar
  if name.isEmpty || !endsAnchor (← rest) then refuse start .anchorName
  else return String.ofList name

/-- Whether a character may stand in a tag. -/
def isTagChar (char : Char) : Bool :=
  isNameChar char || ";/?:@&=+$,.!~*'()[]".toList.contains char

/-- The byte that an escape at the front of a text stands for: a percent sign and two digits. -/
def escapedByte? : List Char → Option UInt8
  | '%' :: first :: second :: _ => (hexValue? 0 [first, second]).map UInt8.ofNat
  | _ => none

/-- Read an escaped byte of a tag that starts at a mark. -/
def tagByte (start : Mark) : Scan UInt8 := do
  demand 3
  match escapedByte? (← rest) with
  | some byte => return byte
  | none => refuse start .tagEscape

/-- Read the escaped bytes that continue a character of a tag; the bytes so far are in reverse. -/
def tagTail (start : Mark) : Nat → List UInt8 → Scan (List UInt8)
  | 0, done => pure done
  | count + 1, done => do
      let byte ← tagByte start
      if (Text.continuation? byte).isNone then refuse start .tagTrailingOctet
      steps 3
      tagTail start count (byte :: done)

/-- Read an escaped character of a tag; the bytes so far are in reverse. -/
def tagEscape (start : Mark) (done : List UInt8) : Scan (List UInt8) := do
  let byte ← tagByte start
  match sequenceWidth? byte with
  | none => refuse start .tagLeadingOctet
  | some width =>
      steps 3
      tagTail start (width - 1) (byte :: done)

/-- Read the characters of a tag; the bytes so far are in reverse. -/
def tagChars (start : Mark) : Nat → List UInt8 → Scan (List UInt8)
  | 0, done => pure done
  | budget + 1, done => do
      demand 1
      match ← rest with
      | [] => return done
      | char :: _ =>
          if char == '%' then tagChars start budget (← tagEscape start done)
          else if isTagChar char then
            step
            tagChars start budget (UInt8.ofNat char.toNat :: done)
          else return done

/-- Read the rest of a tag after what was taken for its handle. -/
def tagUri (start : Mark) (head : List Char) : Scan String := do
  let before := (← mark).index
  let known := head.tail.map fun char => UInt8.ofNat char.toNat
  let done ← tagChars start ((← rest).length + 1) known.reverse
  if head.isEmpty && (← mark).index == before then refuse start .missingTagUri
  else return Text.decodeLossy (ByteArray.mk done.reverse.toArray)

/-- Read the handle of a tag, or what looks like one. -/
def tagHandle (start : Mark) (inDirective : Bool) : Scan (List Char) := do
  demand 1
  if !(← isAt '!') then refuse start .missingTagMark
  else
    step
    let name ← takeWhile isNameChar
    if ← isAt '!' then
      step
      return '!' :: name ++ ['!']
    else if inDirective && !name.isEmpty then refuse start .missingTagMark
    else return '!' :: name

/-- Read a tag that stands between angle brackets. -/
def verbatimTag (start : Mark) : Scan TokenKind := do
  steps 2
  let suffix ← tagUri start []
  if ← isAt '>' then
    step
    return .tag "" suffix
  else refuse start .tagClose

/-- Read a tag with a handle or without one. -/
def shorthandTag (start : Mark) : Scan TokenKind := do
  let handle ← tagHandle start false
  if 1 < handle.length && handle.getLast? == some '!' then
    return .tag (String.ofList handle) (← tagUri start [])
  else
    let suffix ← tagUri start handle
    return if suffix.isEmpty then .tag "" "!" else .tag "!" suffix

/-- Read a tag. -/
def tagToken : Scan TokenKind := do
  let start ← mark
  demand 2
  let kind ← if (← rest)[1]? == some '<' then verbatimTag start else shorthandTag start
  demand 1
  if endsHere (← rest) then return kind
  else refuse start .tagEnd

/-- Read the digits of a number that has at most two; what is read so far is their number and value. -/
def versionDigits (start : Mark) : Nat → Nat → Nat → Scan (Nat × Nat)
  | 0, count, value => pure (count, value)
  | budget + 1, count, value => do
      demand 1
      match ← rest with
      | [] => return (count, value)
      | char :: _ =>
          if !char.isDigit then return (count, value)
          else if count = 2 then refuse start .longVersion
          else
            step
            versionDigits start budget (count + 1) (value * 10 + (char.toNat - '0'.toNat))

/-- Read a number of at most two digits. -/
def versionNumber (start : Mark) : Scan Nat := do
  let (count, value) ← versionDigits start 3 0 0
  if count = 0 then refuse start .missingVersion else return value

/-- Read the version of a directive. -/
def versionDirective (start : Mark) : Scan TokenKind := do
  dropWhile isGap
  let major ← versionNumber start
  if !(← isAt '.') then refuse start .missingVersionPoint
  step
  let minor ← versionNumber start
  return .version major minor

/-- Read the handle and the tag of a directive. -/
def tagDirective (start : Mark) : Scan TokenKind := do
  dropWhile isGap
  let handle ← tagHandle start true
  demand 1
  if !(← isIn isGap) then refuse start .directiveBlank
  dropWhile isGap
  let uri ← tagUri start []
  demand 1
  if !endsHere (← rest) then refuse start .directiveBlankOrBreak
  return .tagDirective (String.ofList handle) uri

/-- Read the name of a directive that starts at a mark. -/
def directiveName (start : Mark) : Scan String := do
  let name ← takeWhile isNameChar
  if name.isEmpty then refuse start .missingDirectiveName
  else if !endsHere (← rest) then refuse start .directiveNameEnd
  else return String.ofList name

/-- Read a directive with its line. -/
def directiveToken : Scan TokenKind := do
  let start ← mark
  step
  let kind ← match ← directiveName start with
    | "YAML" => versionDirective start
    | "TAG" => tagDirective start
    | _ => refuse start .unknownDirective
  dropWhile isGap
  if ← isAt '#' then dropLine
  if lineEndsHere (← rest) then
    dropBreak
    return kind
  else refuse start .directiveEnd

end ScriptEngine.Yaml
