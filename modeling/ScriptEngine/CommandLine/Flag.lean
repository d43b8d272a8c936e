import ScriptEngine.Text.Quoted
import ScriptEngine.Text.Utf8

namespace ScriptEngine

/-!
# Flags

A command line starts with flags: a name after one or two dashes, with its value
after an equals sign or, unless the flag is a switch, in the next argument.  Flags
end at the first argument that is none, or after two dashes on their own.
-/

/-!
## Counts on the command line

A count is a whole number of 64 bits.  A mark or a leading zero tells its base, and
underscores may stand between its digits.
-/

/-- Why a text is no count. -/
inductive CountFault where
  | malformed
  | outOfRange
  deriving DecidableEq, Repr

namespace CountFault

/-- The wording of a fault. -/
def message : CountFault → String
  | malformed => "parse error"
  | outOfRange => "value out of range"

end CountFault

namespace Count

/-- The value of a digit or letter. -/
def digit? (char : Char) : Option Nat :=
  if char.isDigit then some (char.toNat - '0'.toNat)
  else if 'a' ≤ char && char ≤ 'z' then some (char.toNat - 'a'.toNat + 10)
  else if 'A' ≤ char && char ≤ 'Z' then some (char.toNat - 'A'.toNat + 10)
  else none

/-- The base of a text and its digits; `true` tells that they come after a digit or a mark. -/
def split (text : List Char) : Nat × Bool × List Char :=
  match text with
  | '0' :: mark :: first :: rest =>
      if mark == 'b' || mark == 'B' then (2, true, first :: rest)
      else if mark == 'o' || mark == 'O' then (8, true, first :: rest)
      else if mark == 'x' || mark == 'X' then (16, true, first :: rest)
      else (8, true, mark :: first :: rest)
  | '0' :: rest => (8, true, rest)
  | _ => (10, false, text)

/-- The value of digits after those that make `value`; underscores are passed over. -/
def readDigits (base : Nat) : Nat → List Char → Except CountFault Nat
  | value, [] => .ok value
  | value, char :: rest =>
      if char == '_' then readDigits base value rest
      else
        match digit? char with
        | none => .error .malformed
        | some digit =>
            if base ≤ digit then .error .malformed
            else if Nat.pow 2 64 ≤ value * base + digit then .error .outOfRange
            else readDigits base (value * base + digit) rest

/-- Whether every underscore stands between two digits. -/
def separatorsFit : Bool → List Char → Bool
  | afterDigit, [] => afterDigit
  | afterDigit, char :: rest =>
      if char == '_' then afterDigit && separatorsFit false rest else separatorsFit true rest

/-- The count without a sign that a text tells. -/
def readUnsigned (text : List Char) : Except CountFault Nat :=
  if text.isEmpty then .error .malformed
  else
    let (base, afterDigit, digits) := split text
    match readDigits base 0 digits with
    | .error fault => .error fault
    | .ok value =>
        if digits.contains '_' && !separatorsFit afterDigit digits then .error .malformed
        else .ok value

/-- The count that a text tells. -/
def read (text : List Char) : Except CountFault Int :=
  match text with
  | '-' :: rest =>
      match readUnsigned rest with
      | .ok size => if size ≤ Nat.pow 2 63 then .ok (-Int.ofNat size) else .error .outOfRange
      | .error fault => .error fault
  | _ =>
      match readUnsigned (if text.head? == some '+' then text.drop 1 else text) with
      | .ok size => if size < Nat.pow 2 63 then .ok (Int.ofNat size) else .error .outOfRange
      | .error fault => .error fault

end Count

/-! ## Flags and what they take -/

/-- What a flag takes. -/
inductive FlagKind where
  | switch
  | text
  | count
  deriving DecidableEq, Repr

/-- A flag that is known. -/
structure Flag where
  name : String
  kind : FlagKind
  description : String
  deriving DecidableEq, Repr

/-- The value a flag was given. -/
inductive FlagValue where
  | switch (value : Bool)
  | text (value : String)
  | count (value : Int)
  deriving DecidableEq, Repr

/-- Why the flags of a command line cannot be read. -/
inductive FlagFault where
  | help
  | malformed (argument : String)
  | unknown (name : String)
  | noValue (name : String)
  | badSwitch (name value : String)
  | badCount (name value : String) (fault : CountFault)
  deriving DecidableEq, Repr

namespace FlagFault

/-- The wording of a fault; asking for help is none. -/
def message : FlagFault → String
  | help => ""
  | malformed argument => "bad flag syntax: " ++ argument ++ "\n"
  | unknown name => "flag provided but not defined: -" ++ name ++ "\n"
  | noValue name => "flag needs an argument: -" ++ name ++ "\n"
  | badSwitch name value =>
      "invalid boolean value " ++ Text.quoted value ++ " for -" ++ name ++ ": parse error\n"
  | badCount name value fault =>
      "invalid value " ++ Text.quoted value ++ " for flag -" ++ name ++ ": " ++ fault.message ++ "\n"

end FlagFault

namespace FlagKind

/-- The word for the value of a flag. -/
def word : FlagKind → String
  | switch => ""
  | text => " string"
  | count => " int"

end FlagKind

namespace Flag

/-- The lines on a flag in a summary. -/
def summary (flag : Flag) : String :=
  "  -" ++ flag.name ++ flag.kind.word ++ "\n    \t" ++ flag.description ++ "\n"

/-- The truth value a text tells. -/
def truth? (text : String) : Option Bool :=
  if ["1", "t", "T", "true", "TRUE", "True"].contains text then some true
  else if ["0", "f", "F", "false", "FALSE", "False"].contains text then some false
  else none

/-- The value of a flag that a text tells. -/
def value (flag : Flag) (text : String) : Except FlagFault FlagValue :=
  match flag.kind with
  | .switch =>
      match truth? text with
      | some value => .ok (.switch value)
      | none => .error (.badSwitch flag.name text)
  | .text => .ok (.text text)
  | .count =>
      match Count.read text.toList with
      | .ok value => .ok (.count value)
      | .error fault => .error (.badCount flag.name text fault)

end Flag

/-- What an argument is among flags. -/
inductive Argument where
  | operand
  | separator
  | malformed
  | flag (name : String) (value : Option String)
  deriving DecidableEq, Repr

namespace Argument

/-- A flag with its value after an equals sign, if there is one. -/
def ofFlagText (text : List Char) : Argument :=
  let name := text.takeWhile (· != '=')
  match text.drop name.length with
  | _ :: value => flag (String.ofList name) (some (String.ofList value))
  | [] => flag (String.ofList name) none

/-- A flag behind its dashes, which has to have a name. -/
def ofDashed : List Char → Argument
  | [] => malformed
  | first :: rest => if first == '-' || first == '=' then malformed else ofFlagText (first :: rest)

/-- Tell what an argument is. -/
def ofText (text : String) : Argument :=
  match text.toList with
  | ['-', '-'] => separator
  | '-' :: '-' :: rest => ofDashed rest
  | '-' :: first :: rest => ofDashed (first :: rest)
  | _ => operand

end Argument

/-- The values of the flags in front of a command line, and the other arguments. -/
structure FlagReading where
  values : List (String × FlagValue)
  operands : List String
  deriving DecidableEq, Repr

namespace FlagReading

/-- Read a value of a flag in front of what is read already. -/
def give (flag : Flag) (text : String) (reading : Except FlagFault FlagReading) :
    Except FlagFault FlagReading :=
  match flag.value text with
  | .error fault => .error fault
  | .ok value =>
      match reading with
      | .error fault => .error fault
      | .ok reading => .ok { reading with values := (flag.name, value) :: reading.values }

/-- Read the flags in front of a command line. -/
def ofArguments (flags : List Flag) : List String → Except FlagFault FlagReading
  | [] => .ok ⟨[], []⟩
  | argument :: rest =>
      match Argument.ofText argument with
      | .operand => .ok ⟨[], argument :: rest⟩
      | .separator => .ok ⟨[], rest⟩
      | .malformed => .error (.malformed argument)
      | .flag name given =>
          match flags.find? (·.name == name), given with
          | none, _ => .error (if name == "help" || name == "h" then .help else .unknown name)
          | some flag, some text => give flag text (ofArguments flags rest)
          | some flag, none =>
              if flag.kind = .switch then give flag "true" (ofArguments flags rest)
              else
                match rest with
                | [] => .error (.noValue name)
                | text :: rest => give flag text (ofArguments flags rest)

/-- The value that a flag was given last. -/
def last? (reading : FlagReading) (name : String) : Option FlagValue :=
  (reading.values.reverse.find? (·.1 == name)).map Prod.snd

/-- The text that a flag was given. -/
def text? (reading : FlagReading) (name : String) : Option String :=
  match reading.last? name with
  | some (.text value) => some value
  | _ => none

/-- The truth value that a flag was given. -/
def switch? (reading : FlagReading) (name : String) : Option Bool :=
  match reading.last? name with
  | some (.switch value) => some value
  | _ => none

/-- The count that a flag was given. -/
def count? (reading : FlagReading) (name : String) : Option Int :=
  match reading.last? name with
  | some (.count value) => some value
  | _ => none

end FlagReading

end ScriptEngine
