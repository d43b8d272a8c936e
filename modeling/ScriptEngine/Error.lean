import ScriptEngine.Pattern.Fault
import ScriptEngine.Text.Blank
import ScriptEngine.Text.Quoted
import ScriptEngine.Token

namespace ScriptEngine

/-!
# Errors of a script

An error is a cause with the place it was found at, if it has one.  Causes are
grouped by the kind of error they are reported as; the wording of each stands
in the `message` function of its group.
-/

/-- The kinds of errors. -/
inductive ErrorKind where
  | grammar
  | lowering
  | reference
  | type
  | range
  | internal
  | assertion
  deriving DecidableEq, Repr

namespace ErrorKind

/-- The name of a kind in error texts. -/
def text : ErrorKind → String
  | grammar => "Syntax"
  | lowering => "Compile"
  | reference => "Reference"
  | type => "Type"
  | range => "Range"
  | internal => "Internal"
  | assertion => "Assertion"

/-- Whether errors of this kind arise while code runs. -/
def isRuntime : ErrorKind → Bool
  | grammar | lowering => false
  | _ => true

end ErrorKind

/-- Why a text is not a program. -/
inductive GrammarFault where
  | expected (wanted : TokenKind) (found : String)
  | noOperand (found : TokenKind)
  | endOfInput
  | unreadableNumber (literal : String)
  | strayCharacter (literal : String)
  | unclosed (message : String)
  | openBlock
  | openSwitch
  | openObject
  | missingStatement
  | expectedCase (found : TokenKind)
  | repeatedDefault
  | badPropertyName (literal : String)
  | malformedRegex
  | badPattern (fault : PatternFault)
  | tooDeep
  deriving DecidableEq, Repr

namespace GrammarFault

/-- The wording of a fault. -/
def message : GrammarFault → String
  | expected wanted found => s!"expected next token to be {wanted.text}, got {found} instead"
  | noOperand found => s!"no prefix parse function for {found.text} found"
  | endOfInput => "unexpected end of input"
  | unreadableNumber literal => "could not parse " ++ Text.quoted literal ++ " as number"
  | strayCharacter literal => "unexpected character " ++ Text.quoted literal
  | unclosed message => message
  | openBlock => "expected \x7d to close block"
  | openSwitch => "expected \x7d to close switch"
  | openObject => "expected \x7d to close object literal"
  | missingStatement => "expected statement"
  | expectedCase found => s!"expected case or default, got {found.text} instead"
  | repeatedDefault => "more than one default clause in switch statement"
  | badPropertyName literal => "invalid property name " ++ literal
  | malformedRegex => "malformed regular expression literal"
  | badPattern fault => fault.message
  | tooDeep => "program is nested too deeply"

end GrammarFault

/-- Why a program cannot be lowered to code. -/
inductive LoweringFault where
  | illegalBreak
  | illegalContinue
  | undefinedLabel (label : String)
  | labelNotLoop (label : String)
  | repeatedLabel (label : String)
  | assertArity (count : Nat)
  | invalidDelete (target : String)
  | invalidAssignment
  | invalidUpdate (fixity : String)
  | unsupportedOperator (text : String)
  | unsupportedAssignment (text : String)
  | namelessFunction
  | repeatedDefault
  | unfinishedEscape
  | octalEscape
  | badHexEscape
  | badUnicodeEscape
  | unknownEscape (char : Char)
  | badPattern (fault : PatternFault)
  deriving DecidableEq, Repr

namespace LoweringFault

/-- The wording of a fault. -/
def message : LoweringFault → String
  | illegalBreak => "Illegal break statement"
  | illegalContinue => "Illegal continue statement: no surrounding iteration statement"
  | undefinedLabel label => "Undefined label '" ++ label ++ "'"
  | labelNotLoop label =>
      "Illegal continue statement: '" ++ label ++ "' does not denote an iteration statement"
  | repeatedLabel label => "Label '" ++ label ++ "' has already been declared"
  | assertArity count => s!"assert expects exactly one argument, got {count}"
  | invalidDelete target => "Invalid delete target " ++ target
  | invalidAssignment => "Invalid left-hand side in assignment"
  | invalidUpdate fixity => s!"Invalid left-hand side expression in {fixity} operation"
  | unsupportedOperator text => "unsupported operator " ++ text
  | unsupportedAssignment text => "unsupported assignment operator " ++ text
  | namelessFunction => "function declaration requires a name"
  | repeatedDefault => "More than one default clause in switch statement"
  | unfinishedEscape => "unterminated escape sequence in string literal"
  | octalEscape => "octal escape sequences are not supported"
  | badHexEscape => "invalid hexadecimal escape sequence"
  | badUnicodeEscape => "invalid Unicode escape sequence"
  | unknownEscape char => "unknown escape sequence \\" ++ String.singleton char
  | badPattern fault => fault.message

end LoweringFault

/-- How a value was used against its type. -/
inductive TypeFault where
  | notFunction (callee : String)
  | notCallable (described : String)
  | notConstructor (name described : String)
  | readOfUndefined (key : String)
  | writeOfUndefined (key : String)
  | undefinedToObject (name : String)
  | notSearchable (key shown : String)
  | instanceofTarget
  | instanceofPrototype
  | noPrimitive
  | applyReceiver (described : String)
  | applyArguments
  | callReceiver (shown : String)
  | functionText
  | dynamicCode
  | arrayReceiver (method shown : String)
  | undefinedString (method : String)
  | stringReceiver
  | numberReceiver (method : String)
  | booleanReceiver (method : String)
  | regexReceiver (method shown : String)
  | badPrototype (shown : String)
  | circularStructure
  deriving DecidableEq, Repr

namespace TypeFault

/-- The property or identifier involved, or nothing. -/
def name : TypeFault → String
  | notFunction callee => callee
  | notCallable _ => ""
  | notConstructor name _ => name
  | readOfUndefined key => key
  | writeOfUndefined key => key
  | undefinedToObject name => name
  | notSearchable key _ => key
  | instanceofTarget => ""
  | instanceofPrototype => "prototype"
  | noPrimitive => ""
  | applyReceiver _ => "apply"
  | applyArguments => "apply"
  | callReceiver _ => "call"
  | functionText => "toString"
  | dynamicCode => "Function"
  | arrayReceiver method _ => method
  | undefinedString method => method
  | stringReceiver => "toString"
  | numberReceiver method => method
  | booleanReceiver method => method
  | regexReceiver method _ => method
  | badPrototype _ => "create"
  | circularStructure => ""

/-- The wording of a fault. -/
def message : TypeFault → String
  | notFunction callee => callee ++ " is not a function"
  | notCallable described => described ++ " is not a function"
  | notConstructor _ described => described ++ " is not a constructor"
  | readOfUndefined key => "Cannot read property '" ++ key ++ "' of undefined"
  | writeOfUndefined key => "Cannot set property '" ++ key ++ "' of undefined"
  | undefinedToObject _ => "Cannot convert undefined to object"
  | notSearchable key shown =>
      "Cannot use 'in' operator to search for '" ++ key ++ "' in " ++ shown
  | instanceofTarget => "Right-hand side of 'instanceof' is not callable"
  | instanceofPrototype => "Function has non-object prototype in instanceof check"
  | noPrimitive => "Cannot convert object to primitive value"
  | applyReceiver described =>
      "Function.prototype.apply was called on " ++ described ++ ", which is not a function"
  | applyArguments => "second argument to Function.prototype.apply must be an array"
  | callReceiver shown =>
      "Function.prototype.call was called on " ++ shown ++ ", which is not a function"
  | functionText => "Function.prototype.toString requires that 'this' be a Function"
  | dynamicCode => "Function constructor is not supported: code cannot be compiled at runtime"
  | arrayReceiver method shown => "Array.prototype." ++ method ++ " called on " ++ shown
  | undefinedString method => "String.prototype." ++ method ++ " called on undefined"
  | stringReceiver => "String.prototype.toString requires that 'this' be a String"
  | numberReceiver method =>
      "Number.prototype." ++ method ++ " requires that 'this' be a Number"
  | booleanReceiver method =>
      "Boolean.prototype." ++ method ++ " requires that 'this' be a Boolean"
  | regexReceiver method shown =>
      "RegExp.prototype." ++ method ++ " called on incompatible receiver " ++ shown
  | badPrototype shown => "Object prototype may only be an Object: " ++ shown
  | circularStructure => "Converting circular structure to JSON"

end TypeFault

/-- Which bound was crossed. -/
inductive RangeFault where
  | callDepth
  | arrayLength
  | radix
  | places
  | normalForm
  deriving DecidableEq, Repr

namespace RangeFault

/-- The wording of a fault. -/
def message : RangeFault → String
  | callDepth => "Maximum call stack size exceeded"
  | arrayLength => "Invalid array length"
  | radix => "toString() radix must be between 2 and 36"
  | places => "toFixed() digits argument must be between 0 and 100"
  | normalForm => "The normalization form should be one of NFC, NFD, NFKC, NFKD."

end RangeFault

/-- What failed in the host rather than in the script. -/
inductive InternalFault where
  | unreadableFile (path reason : String)
  | undecodableFile (path reason : String)
  | unknownArithmetic (operator : String)
  | unknownComparison (operator : String)
  | nestedTooDeep (bracket : Char)
  | storageBounds (stop capacity : Nat)
  | lookupBounds (index length : Nat)
  | outOfFuel
  deriving DecidableEq, Repr

namespace InternalFault

/-- The wording of a failure underneath, without saying what it stopped. -/
def reason : InternalFault → String
  | nestedTooDeep bracket =>
      "invalid character " ++ Text.quotedSingle bracket ++ " exceeded max depth"
  | storageBounds stop capacity =>
      "runtime error: slice bounds out of range [:" ++ toString stop ++ "] with capacity " ++
        toString capacity
  | lookupBounds index length =>
      "runtime error: index out of range [" ++ toString index ++ "] with length " ++
        toString length
  | outOfFuel => "execution did not finish"
  | _ => ""

/-- The wording of a fault. -/
def message : InternalFault → String
  | unreadableFile path reason => "failed to read file '" ++ path ++ "': " ++ reason
  | undecodableFile path reason => path ++ ": " ++ reason
  | unknownArithmetic operator => "unknown arithmetic operator " ++ operator
  | unknownComparison operator => "unknown comparison operator " ++ operator
  | nestedTooDeep bracket => "JSON indent: " ++ reason (nestedTooDeep bracket)
  | storageBounds stop capacity =>
      "panic during execution: " ++ reason (storageBounds stop capacity)
  | lookupBounds index length =>
      "panic during execution: " ++ reason (lookupBounds index length)
  | outOfFuel => "panic during execution: " ++ reason outOfFuel

/-- The failure underneath. -/
def cause? : InternalFault → Option String
  | unreadableFile _ reason => some reason
  | undecodableFile _ reason => some reason
  | nestedTooDeep bracket => some (reason (nestedTooDeep bracket))
  | _ => none

end InternalFault

/-- The cause of an error. -/
inductive Fault where
  | grammar (fault : GrammarFault)
  | lowering (fault : LoweringFault)
  | unbound (name : String)
  | type (fault : TypeFault)
  | range (fault : RangeFault)
  | internal (fault : InternalFault)
  | assertion (text : String)
  deriving DecidableEq, Repr

namespace Fault

/-- The kind an error of this cause is reported as. -/
def kind : Fault → ErrorKind
  | grammar _ => .grammar
  | lowering _ => .lowering
  | unbound _ => .reference
  | type _ => .type
  | range _ => .range
  | internal _ => .internal
  | assertion _ => .assertion

/-- The wording of a cause. -/
def message : Fault → String
  | grammar fault => fault.message
  | lowering fault => fault.message
  | unbound name => name ++ " is not defined"
  | type fault => fault.message
  | range fault => fault.message
  | internal fault => fault.message
  | assertion text => "assertion failed: " ++ text

/-- The property or identifier involved, for the kinds that have one. -/
def name? : Fault → Option String
  | unbound name => some name
  | type fault => some fault.name
  | _ => none

/-- The failure underneath, if there is one. -/
def cause? : Fault → Option String
  | grammar (.badPattern fault) => some fault.message
  | lowering (.badPattern fault) => some fault.message
  | internal fault => fault.cause?
  | _ => none

end Fault

/-- An error of a script: its cause and its place. -/
structure ScriptError where
  fault : Fault
  position : Option Position
  deriving DecidableEq, Repr

namespace ScriptError

/-- The kind of an error. -/
def kind (error : ScriptError) : ErrorKind :=
  error.fault.kind

/-- The message of an error, without its place. -/
def message (error : ScriptError) : String :=
  error.fault.message

/-- Whether an error arose while code ran. -/
def isRuntime (error : ScriptError) : Bool :=
  error.kind.isRuntime

/-- The full text of an error with its place. -/
def text (error : ScriptError) : String :=
  let place := match error.position with
    | some position => " at " ++ position.text
    | none => ""
  error.kind.text ++ "Error" ++ place ++ ": " ++ error.message

/-- The text of an error without its place. -/
def brief (error : ScriptError) : String :=
  error.kind.text ++ "Error: " ++ Text.trim error.message

/-- Give an error a place unless it has one. -/
def locate (position : Position) (error : ScriptError) : ScriptError :=
  { error with position := error.position <|> some position }

/-- An error keeps the place it has. -/
theorem locate_of_located
    (error : ScriptError)
    (inner outer : Position)
    (located : error.position = some inner) :
    error.locate outer = error := by
  cases error
  simp_all [locate]

/-- The content of the source an error points into. -/
def sourceContent (error : ScriptError) : String :=
  match error.position with
  | some position => position.source.content
  | none => ""

/-- The content of the source the first of some errors points into. -/
def firstContent (errors : List ScriptError) : String :=
  (errors.head?.map sourceContent).getD ""

/-- Whether a character is dropped at the end of a shown line. -/
def isLineEnd (char : Char) : Bool :=
  char == '\r' || char == '\n' || char == '\t' || char == ' '

/-- An error with the line it points to, taken from `content`, and a caret below its column. -/
def display (content : String) (error : ScriptError) : String :=
  let plain := error.kind.text ++ "Error: " ++ error.message ++ "\n"
  match error.position with
  | none => plain
  | some position =>
      match (Text.lines content)[position.line - 1]? with
      | none => plain
      | some line =>
          let shown := String.ofList (Text.trimEnd isLineEnd line.toList)
          error.kind.text ++ s!"Error at {position.line}:{position.column}: " ++ error.message ++
            "\n  " ++ shown ++ "\n  " ++ Text.repeated " " (position.column - 1) ++ "^\n\n"

/-- Several errors one after the other. -/
def displayAll (content : String) (errors : List ScriptError) : String :=
  String.join (errors.map (display content))

end ScriptError

end ScriptEngine
