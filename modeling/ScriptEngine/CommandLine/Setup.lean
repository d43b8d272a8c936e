import ScriptEngine.CommandLine.Flag
import ScriptEngine.CommandLine.Report
import ScriptEngine.Settings.Loading

namespace ScriptEngine

/-!
# Setting up a run

The settings of a run come from a file, if the options name one, and from options
that override them.  A run can start once its log level is known.
-/

/-!
## Options of the command line

The options say what is run, a file, an expression or the entries of a prompt, and
how.  Some combinations of them mean nothing.
-/

/-- What a command line asks for. -/
structure Options where
  config : String
  expression : String
  encoding : Option String
  logLevel : Option String
  noAssertions : Option Bool
  dumpProgram : Bool
  dumpListing : Bool
  print : Bool
  check : Bool
  jobs : Int
  operands : List String
  deriving DecidableEq, Repr

namespace Options

/-- The known flags, by name. -/
def flags : List Flag := [
  ⟨"ast", .switch, "Show the AST before running"⟩,
  ⟨"check", .switch, "Compile the given files without running them"⟩,
  ⟨"config", .text, "Load settings from the given YAML file"⟩,
  ⟨"e", .text, "Run the given expression and exit"⟩,
  ⟨"encoding", .text, "Source file encoding (e.g. shift_jis, windows-1251)"⟩,
  ⟨"j", .count, "Parallel compile jobs for -check (0: one per CPU)"⟩,
  ⟨"listing", .switch, "Show the compiled listing before running"⟩,
  ⟨"log-level", .text, "Log level: debug, info, warn, error"⟩,
  ⟨"no-assert", .switch, "Drop assert() statements"⟩,
  ⟨"print", .switch, "Print the result value of a script file"⟩]

/-- How the program is used. -/
def usage : String :=
  "Usage: bemjs [flags] [script.js] or bemjs -e \"expression\" or bemjs -check files...\n" ++
    String.join (flags.map Flag.summary)

/-- The options that flags and operands tell. -/
def ofReading (reading : FlagReading) : Options where
  config := (reading.text? "config").getD ""
  expression := (reading.text? "e").getD ""
  encoding := reading.text? "encoding"
  logLevel := reading.text? "log-level"
  noAssertions := reading.switch? "no-assert"
  dumpProgram := (reading.switch? "ast").getD false
  dumpListing := (reading.switch? "listing").getD false
  print := (reading.switch? "print").getD false
  check := (reading.switch? "check").getD false
  jobs := (reading.count? "j").getD 0
  operands := reading.operands

/-- Whether options do not go together. -/
def isMisused (options : Options) : Bool :=
  (!options.check && 1 < options.operands.length) ||
    (options.expression != "" && !options.operands.isEmpty) ||
    (options.check && options.operands.isEmpty)

end Options

/-! ## Settings of a run -/

/-- Why a file gives no settings. -/
inductive SettingsFileFault where
  | unreadable (fault : FileFault)
  | unusable (path : String) (fault : SettingsFault)
  deriving DecidableEq, Repr

namespace SettingsFileFault

/-- The wording of a fault. -/
def message : SettingsFileFault → String
  | unreadable ⟨.opening, path, problem⟩ =>
      "config: open " ++ path ++ ": " ++ FileFault.message ⟨.opening, path, problem⟩
  | unreadable ⟨.reading, path, problem⟩ =>
      "config: " ++ path ++ ": parse: yaml: input error: " ++
        FileFault.message ⟨.reading, path, problem⟩
  | unusable path fault => "config: " ++ path ++ ": " ++ fault.message

end SettingsFileFault

namespace Settings

/-- The settings in the file a path leads to. -/
def load (tree : FileTree) (path : String) : Except SettingsFileFault Settings :=
  let absolute := Path.absolute tree.directory path
  match tree.read absolute with
  | .error fault => .error (.unreadable fault)
  | .ok bytes =>
      match ofYaml bytes with
      | .error fault => .error (.unusable absolute fault)
      | .ok settings => .ok settings

/-- The settings with those that options override. -/
def override (settings : Settings) (options : Options) : Settings :=
  { settings with
    encoding := options.encoding.getD settings.encoding
    logLevel := options.logLevel.getD settings.logLevel
    assertions := (options.noAssertions.map (!·)).getD settings.assertions }

end Settings

/-- All that a run starts from. -/
structure Setup where
  options : Options
  settings : Settings
  level : LogLevel

namespace Setup

/-- The set-up for options, or the report that ends the run. -/
def ofOptions (tree : FileTree) (options : Options) : Except Report Setup := do
  let settings ←
    if options.config = "" then .ok {}
    else
      match Settings.load tree options.config with
      | .ok settings => .ok settings
      | .error fault => .error (.misuse (fault.message ++ "\n"))
  let settings := settings.override options
  match LogLevel.ofName? settings.logLevel with
  | some level => .ok ⟨options, settings, level⟩
  | none => .error (.misuse ((SettingsIssue.logLevel settings.logLevel).message ++ "\n"))

/-- The set-up for a command line, or the report that ends the run. -/
def ofArguments (tree : FileTree) (arguments : List String) : Except Report Setup :=
  match FlagReading.ofArguments Options.flags arguments with
  | .error .help => .error ⟨[.errors Options.usage], .success⟩
  | .error fault => .error (.misuse (fault.message ++ Options.usage))
  | .ok reading =>
      let options := Options.ofReading reading
      if options.isMisused then .error (.misuse Options.usage) else ofOptions tree options

/-- A record, if it is kept. -/
def log (setup : Setup) (record : LogRecord) : List Emission :=
  if record.isKept setup.level then [.logged record] else []

/-- A text that the console writes. -/
def console (setup : Setup) (text : String) : Emission :=
  if setup.settings.console = "" || setup.settings.console = "stdout" then .output text
  else if setup.settings.console = "stderr" then .consoleErrors text
  else .appended setup.settings.console text

/-- What is written for the notices of a session. -/
def emit (setup : Setup) : List Notice → List Emission
  | [] => []
  | .logged record :: rest => setup.log record ++ setup.emit rest
  | .dumped text :: rest => .errors text :: setup.emit rest
  | .printed text :: rest => setup.console text :: setup.emit rest

/-- The record of a run that starts. -/
def startRecord (setup : Setup) : LogRecord :=
  .debug "starting" [("config", setup.options.config), ("encoding", setup.settings.encoding),
    ("assertions", toString setup.settings.assertions)]

/-- The forms of a source that are dumped. -/
def dumps (setup : Setup) : DumpOptions :=
  ⟨setup.options.dumpProgram, setup.options.dumpListing⟩

/-- Open the file of the console, if it has one. -/
def openConsole (setup : Setup) (tree : FileTree) : Except FileFault (List Emission) :=
  match setup.console "" with
  | .appended path text => (tree.append path text).map fun _ => [.appended path text]
  | _ => .ok []

/-- A session and what is written to start it, or the report that ends the run. -/
def startSession (setup : Setup) (tree : FileTree) : Except Report (Session × List Emission) :=
  match Session.start setup.settings with
  | .error fault => .error (.misuse (Settings.globalFaultMessage fault ++ "\n"))
  | .ok session =>
      match setup.openConsole tree with
      | .error fault => .error (.misuse ("config: console: " ++ fault.message ++ "\n"))
      | .ok emissions => .ok (session, emissions)

end Setup

end ScriptEngine
