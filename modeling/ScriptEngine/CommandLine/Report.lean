import ScriptEngine.Files
import ScriptEngine.Session

namespace ScriptEngine

/-!
# Reports of the command line

What a run of the program writes, and where, one piece after the other, and the
status it exits with.
-/

/-- A piece that is written. -/
inductive Emission where
  /-- A text on the standard output. -/
  | output (text : String)
  /-- A text among the error messages. -/
  | errors (text : String)
  /-- A record among the error messages. -/
  | logged (record : LogRecord)
  /-- A text of the console on the standard error stream. -/
  | consoleErrors (text : String)
  /-- A text of the console at the end of a file. -/
  | appended (path text : String)
  deriving DecidableEq, Repr

/-- How the program ends. -/
inductive ExitStatus where
  | success
  /-- The command line or the settings are wrong. -/
  | misused
  /-- A script does not compile. -/
  | refused
  /-- A script failed. -/
  | failed
  deriving DecidableEq, Repr

namespace ExitStatus

/-- The number of a status. -/
def code : ExitStatus → Nat
  | success => 0
  | misused => 64
  | refused => 65
  | failed => 70

/-- The status for some errors: a script failed only if every one of them arose while
code ran. -/
def ofErrors (errors : List ScriptError) : ExitStatus :=
  if errors.all ScriptError.isRuntime then failed else refused

end ExitStatus

/-- What a run of the program writes and how it ends. -/
structure Report where
  emissions : List Emission := []
  status : ExitStatus := .success

namespace Report

/-- A report of what is wrong with the use of the program. -/
def misuse (message : String) : Report :=
  ⟨[.errors message], .misused⟩

/-- A report with pieces written before. -/
def after (report : Report) (emissions : List Emission) : Report :=
  { report with emissions := emissions ++ report.emissions }

/-- What stands on the standard output. -/
def outputText (report : Report) : String :=
  String.join (report.emissions.filterMap fun
    | .output text => some text
    | _ => none)

/-- What stands among the error messages; `line` writes a record. -/
def errorText (report : Report) (line : LogRecord → String) : String :=
  String.join (report.emissions.filterMap fun
    | .errors text => some text
    | .logged record => some (line record)
    | _ => none)

/-- What the console wrote on the standard error stream. -/
def consoleErrorText (report : Report) : String :=
  String.join (report.emissions.filterMap fun
    | .consoleErrors text => some text
    | _ => none)

/-- A tree after the console has written its files. -/
def appendAll (report : Report) (tree : FileTree) : FileTree :=
  report.emissions.foldl (fun tree emission =>
    match emission with
    | .appended path text =>
        match tree.append path text with
        | .ok tree => tree
        | .error _ => tree
    | _ => tree) tree

end Report

end ScriptEngine
