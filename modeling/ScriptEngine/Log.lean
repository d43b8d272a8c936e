import ScriptEngine.Text.Blank
import ScriptEngine.Text.Casing
import ScriptEngine.Text.Quoted

namespace ScriptEngine

/-!
# Log records

A record tells what happens on one line of fields.  Records have a level and are
kept only from a chosen level on.
-/

/-- How important a record is. -/
inductive LogLevel where
  | debug
  | info
  | warn
  | error
  deriving DecidableEq, Repr

namespace LogLevel

/-- The level of a name, whatever its case; no name stands for `info`. -/
def ofName? (name : String) : Option LogLevel :=
  match Text.lowerEach name with
  | "debug" => some debug
  | "info" | "" => some info
  | "warn" | "warning" => some warn
  | "error" => some error
  | _ => none

/-- The name of a level in a record. -/
def text : LogLevel → String
  | debug => "DEBUG"
  | info => "INFO"
  | warn => "WARN"
  | error => "ERROR"

/-- The rank of a level. -/
def rank : LogLevel → Nat
  | debug => 0
  | info => 1
  | warn => 2
  | error => 3

end LogLevel

/-- A record: its level, its message and its named fields.  A timed record also tells how
long something took. -/
structure LogRecord where
  level : LogLevel
  message : String
  fields : List (String × String)
  isTimed : Bool := false
  deriving DecidableEq, Repr

namespace LogRecord

/-- A record at the lowest level. -/
def debug (message : String) (fields : List (String × String)) : LogRecord :=
  { level := .debug, message, fields }

/-- Whether a character can stand in a field without quotes. -/
def isBare (char : Char) : Bool :=
  if char.toNat < 0x80 then 0x20 < char.toNat && char != '=' && char != '"'
  else char != Text.replacementMark && !Text.isBlank char && Text.isPrintable char

/-- A field as a record shows it. -/
def fieldText (text : String) : String :=
  if text.isEmpty || text.toList.any (!isBare ·) then Text.quoted text else text

/-- The line of a record that is made at a time, about something that took as long as told. -/
def line (time duration : String) (record : LogRecord) : String :=
  let fields := [("time", time), ("level", record.level.text), ("msg", record.message)] ++
    record.fields ++ (if record.isTimed then [("time", duration)] else [])
  " ".intercalate (fields.map fun (name, text) => name ++ "=" ++ fieldText text) ++ "\n"

/-- Whether a record is kept from a level on. -/
def isKept (level : LogLevel) (record : LogRecord) : Bool :=
  level.rank ≤ record.level.rank

end LogRecord

end ScriptEngine
