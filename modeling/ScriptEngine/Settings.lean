import ScriptEngine.Log
import ScriptEngine.Settings.Data

namespace ScriptEngine

/-!
# Settings

The settings of a session: what is logged, how files are decoded, whether
assertions are checked, how deeply calls may nest, where the console writes, and
which names scripts find bound.  Settings are valid if the log level is known, the
depth is not negative, and every bound name is an identifier.
-/

/-- The settings of a session.  A depth that is not positive stands for no limit. -/
structure Settings where
  logLevel : String := "warn"
  encoding : String := "utf-8"
  assertions : Bool := true
  maxCallDepth : Int := 10000
  console : String := "stdout"
  globals : List DataEntry := []

/-- What makes settings invalid. -/
inductive SettingsIssue where
  | logLevel (name : String)
  | maxCallDepth (depth : Int)
  | globalName (name : String)
  deriving DecidableEq, Repr

namespace SettingsIssue

/-- The wording of an issue. -/
def message : SettingsIssue → String
  | logLevel name => "invalid log level: " ++ name
  | maxCallDepth depth => s!"max_call_depth must not be negative, got {depth}"
  | globalName name => "globals: " ++ Text.quoted name ++ " is not an identifier"

/-- The wording of several issues. -/
def messageAll (issues : List SettingsIssue) : String :=
  "config validation failed:" ++ String.join (issues.map fun issue => "\n- " ++ issue.message)

end SettingsIssue

namespace Settings

/-- Whether a character can start an identifier. -/
def isIdentifierStart (char : Char) : Bool :=
  char == '_' || char == '$' || ('a' ≤ char && char ≤ 'z') || ('A' ≤ char && char ≤ 'Z')

/-- Whether a character can continue an identifier. -/
def isIdentifierPart (char : Char) : Bool :=
  isIdentifierStart char || ('0' ≤ char && char ≤ '9')

/-- Whether a name is an identifier. -/
def isIdentifier (name : String) : Bool :=
  match name.toList with
  | [] => false
  | first :: rest => isIdentifierStart first && rest.all isIdentifierPart

/-- What makes the settings invalid, in order. -/
def issues (settings : Settings) : List SettingsIssue :=
  (match LogLevel.ofName? settings.logLevel with
    | some _ => []
    | none => [.logLevel settings.logLevel]) ++
  (if settings.maxCallDepth < 0 then [.maxCallDepth settings.maxCallDepth] else []) ++
  ((settings.globals.map DataEntry.name).filter (!isIdentifier ·)).map .globalName

/-- Bind entries in the global scope of a machine. -/
def bindGlobals (machine : Machine) : List DataEntry → Except (String × DataFault) Machine
  | [] => .ok machine
  | entry :: rest =>
      match entry.value.toValue machine with
      | .error fault => .error (entry.name, fault)
      | .ok (value, machine) => bindGlobals (machine.declare entry.name value) rest

/-- A realm with the settings' limit and globals, or the global that has no value. -/
def realm (settings : Settings) : Except (String × DataFault) Machine :=
  bindGlobals (Machine.realm settings.maxCallDepth.toNat) settings.globals

/-- The wording for a global that has no value. -/
def globalFaultMessage (fault : String × DataFault) : String :=
  "global " ++ fault.1 ++ ": " ++ fault.2.message

end Settings

end ScriptEngine
