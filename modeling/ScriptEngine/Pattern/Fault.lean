import ScriptEngine.Text.Quoted
import ScriptEngine.Text.Utf8

namespace ScriptEngine

/-!
# Faults of regular expressions

A regular expression is refused for one of its flags or for its pattern.  The
wording of a refusal quotes the pattern.
-/

/-- Why a text is not a pattern. -/
inductive PatternGrammarFault where
  | missingParen
  | unexpectedParen
  | unterminatedSet
  | nestedRepetition
  | nothingToRepeat
  | repeatCount
  | reversedRange (first last : Nat)
  | classInRange (letter : Char)
  | finalBackslash
  | unknownGroup (opened : String)
  | groupName
  | groupZero
  | unterminatedComment
  | numberTooLarge
  | malformedReference
  | undefinedReference (name : String)
  | undefinedNumber (number : Nat)
  | malformedCondition (number : Nat)
  | undefinedCondition (number : Nat)
  | conditionComment
  | conditionCapture
  | conditionBranches
  | misplacedSubtraction
  | missingBrace
  | missingHex
  | hexTooLarge
  | incompleteProperty
  | unknownProperty (name : String)
  deriving DecidableEq, Repr

namespace PatternGrammarFault

/-- A code point as a text, with a replacement mark for one that is no character. -/
def codeText (code : Nat) : String :=
  if code.isValidChar then String.singleton (Char.ofNat code)
  else String.singleton Text.replacementMark

/-- The wording of a fault. -/
def message : PatternGrammarFault → String
  | missingParen => "missing closing )"
  | unexpectedParen => "unexpected )"
  | unterminatedSet => "unterminated [] set"
  | nestedRepetition => "invalid nested repetition operator"
  | nothingToRepeat => "missing argument to repetition operator"
  | repeatCount => "invalid repeat count"
  | reversedRange first last =>
      "[" ++ codeText first ++ "-" ++ codeText last ++ "] range in reverse order"
  | classInRange letter => s!"cannot include class \\{letter.toNat} in character range"
  | finalBackslash => "illegal \\ at end of pattern"
  | unknownGroup opened => "unrecognized grouping construct: (" ++ opened
  | groupName =>
      "invalid group name: group names must begin with a word character and have a " ++
        "matching terminator"
  | groupZero => "capture number cannot be zero"
  | unterminatedComment => "unterminated comment"
  | numberTooLarge => "capture group number out of range"
  | malformedReference => "malformed \\k<...> named back reference"
  | undefinedReference name => "reference to undefined group name " ++ name
  | undefinedNumber number => "reference to undefined group number " ++ toString number
  | malformedCondition number => "(?(" ++ toString number ++ ") ) malformed"
  | undefinedCondition number =>
      "(?(" ++ toString number ++ ") ) reference to undefined group"
  | conditionComment => "alternation conditions cannot be comments"
  | conditionCapture => "alternation conditions do not capture and cannot be named"
  | conditionBranches => "too many | in (?()|)"
  | misplacedSubtraction => "a subtraction must be the last element in a character class"
  | missingBrace => "missing closing \x7d"
  | missingHex => "insufficient hexadecimal digits"
  | hexTooLarge => "hex values may not be larger than 0x10FFFF"
  | incompleteProperty => "incomplete \\p\x7bX\x7d character escape"
  | unknownProperty name =>
      "unknown unicode category, script, or property '" ++ name ++ "'"

end PatternGrammarFault

/-- Why a pattern and its flags are refused. -/
inductive PatternFault where
  | repeatedFlag (flag : Char)
  | unknownFlag (flag : Char)
  | malformed (source : String) (fault : PatternGrammarFault)
  deriving DecidableEq, Repr

namespace PatternFault

/-- The wording of a refusal. -/
def message : PatternFault → String
  | repeatedFlag flag => "duplicate regular expression flag " ++ Text.quotedSingle flag
  | unknownFlag flag => "unsupported regular expression flag " ++ Text.quotedSingle flag
  | malformed source fault =>
      "invalid regular expression /" ++ source ++ "/: error parsing regexp: " ++ fault.message ++
        " in \x60" ++ source ++ "\x60"

end PatternFault

end ScriptEngine
