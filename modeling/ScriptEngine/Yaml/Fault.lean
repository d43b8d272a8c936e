import ScriptEngine.Text.Utf8

namespace ScriptEngine.Yaml

/-!
# Faults in YAML texts

What can be wrong with a YAML text, with the line it is reported at.  Lines count
from zero.  A fault among the characters is reported with the next line, a fault
among the tokens with its own one, and the first line is never mentioned.
-/

/-- A place in a text: the number of characters before it, its line and its column. -/
structure Mark where
  index : Nat := 0
  line : Nat := 0
  column : Nat := 0
  deriving DecidableEq, Repr, Inhabited

/-- What is wrong with a text. -/
inductive Problem where
  | controlCharacter
  | leadingOctet
  | incompleteSequence
  | trailingOctet
  | sequenceLength
  | unicodeCharacter
  | incompleteUnit
  | loneLowSurrogate
  | incompletePair
  | missingLowSurrogate
  | strayCharacter
  | entryNotAllowed
  | keyNotAllowed
  | valueNotAllowed
  | missingColon
  | unknownDirective
  | missingDirectiveName
  | directiveNameEnd
  | missingVersion
  | longVersion
  | missingVersionPoint
  | missingTagMark
  | missingTagUri
  | tagEscape
  | tagLeadingOctet
  | tagTrailingOctet
  | directiveBlank
  | directiveBlankOrBreak
  | directiveEnd
  | anchorName
  | tagClose
  | tagEnd
  | zeroIndentation
  | blockHeaderEnd
  | tabInBlock
  | documentInScalar
  | openScalar
  | unknownEscape
  | badHexEscape
  | badCodeEscape
  | tabInPlain
  | nestedTooDeep
  | missingDocumentStart
  | repeatedVersion
  | unknownVersion
  | repeatedTagDirective
  | undefinedTagHandle
  | missingContent
  | missingDash
  | missingKey
  | missingCommaOrBracket
  | missingCommaOrBrace
  | unknownAnchor (name : String)
  | selfContained (name : String)
  | excessiveAliases
  | wrongKind (found value wanted : String)
  | badBase64
  | badMerge
  | badKey (shown : String)
  | unusableKey (kind : String)
  deriving DecidableEq, Repr

namespace Problem

/-- The wording of a problem. -/
def message : Problem → String
  | controlCharacter => "control characters are not allowed"
  | leadingOctet => "invalid leading UTF-8 octet"
  | incompleteSequence => "incomplete UTF-8 octet sequence"
  | trailingOctet => "invalid trailing UTF-8 octet"
  | sequenceLength => "invalid length of a UTF-8 sequence"
  | unicodeCharacter => "invalid Unicode character"
  | incompleteUnit => "incomplete UTF-16 character"
  | loneLowSurrogate => "unexpected low surrogate area"
  | incompletePair => "incomplete UTF-16 surrogate pair"
  | missingLowSurrogate => "expected low surrogate area"
  | strayCharacter => "found character that cannot start any token"
  | entryNotAllowed => "block sequence entries are not allowed in this context"
  | keyNotAllowed => "mapping keys are not allowed in this context"
  | valueNotAllowed => "mapping values are not allowed in this context"
  | missingColon => "could not find expected ':'"
  | unknownDirective => "found unknown directive name"
  | missingDirectiveName => "could not find expected directive name"
  | directiveNameEnd => "found unexpected non-alphabetical character"
  | missingVersion => "did not find expected version number"
  | longVersion => "found extremely long version number"
  | missingVersionPoint => "did not find expected digit or '.' character"
  | missingTagMark => "did not find expected '!'"
  | missingTagUri => "did not find expected tag URI"
  | tagEscape => "did not find URI escaped octet"
  | tagLeadingOctet => "found an incorrect leading UTF-8 octet"
  | tagTrailingOctet => "found an incorrect trailing UTF-8 octet"
  | directiveBlank => "did not find expected whitespace"
  | directiveBlankOrBreak => "did not find expected whitespace or line break"
  | directiveEnd => "did not find expected comment or line break"
  | anchorName => "did not find expected alphabetic or numeric character"
  | tagClose => "did not find the expected '>'"
  | tagEnd => "did not find expected whitespace or line break"
  | zeroIndentation => "found an indentation indicator equal to 0"
  | blockHeaderEnd => "did not find expected comment or line break"
  | tabInBlock => "found a tab character where an indentation space is expected"
  | documentInScalar => "found unexpected document indicator"
  | openScalar => "found unexpected end of stream"
  | unknownEscape => "found unknown escape character"
  | badHexEscape => "did not find expected hexdecimal number"
  | badCodeEscape => "found invalid Unicode character escape code"
  | tabInPlain => "found a tab character that violates indentation"
  | nestedTooDeep => "exceeded max depth of 10000"
  | missingDocumentStart => "did not find expected <document start>"
  | repeatedVersion => "found duplicate %YAML directive"
  | unknownVersion => "found incompatible YAML document"
  | repeatedTagDirective => "found duplicate %TAG directive"
  | undefinedTagHandle => "found undefined tag handle"
  | missingContent => "did not find expected node content"
  | missingDash => "did not find expected '-' indicator"
  | missingKey => "did not find expected key"
  | missingCommaOrBracket => "did not find expected ',' or ']'"
  | missingCommaOrBrace => "did not find expected ',' or '\x7d'"
  | unknownAnchor name => "unknown anchor '" ++ name ++ "' referenced"
  | selfContained name => "anchor '" ++ name ++ "' value contains itself"
  | excessiveAliases => "document contains excessive aliasing"
  | wrongKind found value wanted =>
      "cannot decode " ++ found ++ " \x60" ++ value ++ "\x60 as a " ++ wanted
  | badBase64 => "!!binary value contains invalid base64 data"
  | badMerge => "map merge requires map or sequence of maps as the value"
  | badKey shown => "invalid map key: " ++ shown
  | unusableKey kind => "runtime error: hash of unhashable type " ++ kind

end Problem

/-- A problem with the line it is reported at, if any. -/
structure Fault where
  line : Option Nat
  problem : Problem
  deriving DecidableEq, Repr

namespace Fault

/-- The line of the first of two marks that is not on the first line. -/
def lineOf (context place : Mark) : Option Nat :=
  if context.line ≠ 0 then some context.line
  else if place.line ≠ 0 then some place.line
  else none

/-- A fault without a place. -/
def unplaced (problem : Problem) : Fault :=
  ⟨none, problem⟩

/-- A fault among the characters, in a construct that starts at `context`. -/
def ofCharacters (context place : Mark) (problem : Problem) : Fault :=
  ⟨(lineOf context place).map (· + 1), problem⟩

/-- A fault among the tokens, in a construct that starts at `context`. -/
def ofTokens (context place : Mark) (problem : Problem) : Fault :=
  ⟨lineOf context place, problem⟩

/-- The wording of a fault. -/
def message (fault : Fault) : String :=
  let place := match fault.line with
    | some line => s!"line {line}: "
    | none => ""
  "yaml: " ++ place ++ fault.problem.message

end Fault

end ScriptEngine.Yaml
