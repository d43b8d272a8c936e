import ScriptEngine.Check
import ScriptEngine.CommandLine.Prompt

namespace ScriptEngine

/-!
# The command line

A command line checks files, runs an expression or a file, or starts the prompt.
-/

namespace Setup

/-- The records that checking a file leaves. -/
def checkRecords (setup : Setup) (tree : FileTree) (path : String) : List LogRecord :=
  match Source.load tree setup.settings.encoding path with
  | .error _ => []
  | .ok source =>
      let parsed := Program.parse source
      Session.parsingRecord source ::
        (if !parsed.errors.isEmpty then [Session.refusedRecord source parsed.errors]
        else
          match Code.ofProgram setup.settings.assertions parsed.program with
          | .ok code => [Session.compiledRecord source code]
          | .error _ => [])

/-- The record of a check that is done. -/
def checkedRecord (report : CheckReport) : LogRecord :=
  { LogRecord.debug "check finished" [("files", toString report.tally.submitted),
      ("failed", toString report.tally.failed), ("workers", toString report.workers)] with
    isTimed := true }

/-- The errors of an entry of a report. -/
def entryErrors : Option Verdict → List ScriptError
  | some verdict => verdict.errors
  | none => []

/-- The lines on a checked file. -/
def entryEmissions (path : String) (errors : List ScriptError) : List Emission :=
  if errors.isEmpty then [.output ("ok   " ++ path ++ "\n")]
  else [.output ("FAIL " ++ path ++ "\n"),
    .errors (ScriptError.displayAll (ScriptError.firstContent errors) errors)]

/-- Check the files of a command line. -/
def check (setup : Setup) (tree : FileTree) (processors : Nat) : Report :=
  let request : CheckRequest := ⟨setup.options.operands, setup.options.jobs,
    setup.settings.encoding, setup.settings.assertions⟩
  match request.run tree processors false with
  | .error fault => ⟨[.errors (fault.message ++ "\n")], .failed⟩
  | .ok report =>
      let records := (request.paths.map (setup.checkRecords tree)).flatten ++
        [checkedRecord report]
      let errors := (report.entries.map fun entry => entryErrors entry.2).flatten
      ⟨(records.map setup.log).flatten ++
        (report.entries.map fun entry => entryEmissions entry.1 (entryErrors entry.2)).flatten,
        if errors.isEmpty then .success else .ofErrors errors⟩

/-- Report how a run ended; `content` is what errors are shown with. -/
def reportOutcome (setup : Setup) (session : Session) (content : String) (shows : Bool)
    (outcome : Outcome) (notices : List Notice) : Report :=
  match outcome with
  | .error errors =>
      ⟨setup.emit notices ++ [.errors (ScriptError.displayAll content errors)], .ofErrors errors⟩
  | .ok value =>
      ⟨setup.emit notices ++
        (if shows then [.output (session.display content (.ok value))] else []), .success⟩

/-- Run the expression of a command line. -/
def runExpression (setup : Setup) (session : Session) : Report :=
  let content := setup.options.expression
  let (outcome, notices, session) := session.run setup.dumps (Source.ofEval content)
  setup.reportOutcome session content true outcome notices

/-- Run the file a path leads to. -/
def runFile (setup : Setup) (tree : FileTree) (session : Session) (path : String) : Report :=
  match Source.load tree setup.settings.encoding path with
  | .error error => setup.reportOutcome session "" false (.error [error]) []
  | .ok source =>
      let (outcome, notices, session) := session.run setup.dumps source
      let content := match outcome with
        | .error errors => ScriptError.firstContent errors
        | .ok _ => ""
      setup.reportOutcome session content setup.options.print outcome notices

/-- Run the entries of an input at the prompt; gives the marks of the prompt too. -/
def runPrompt (setup : Setup) (session : Session) (input : List String) : Report × List String :=
  let (emissions, marks) := Prompt.run setup { session } input
  (⟨.output Prompt.banner :: emissions, .success⟩, marks)

/-- Whether a command line names nothing to run, so that the prompt starts. -/
def startsPrompt (setup : Setup) : Bool :=
  setup.options.expression = "" && setup.options.operands.isEmpty

/-- Do what a command line asks for in a session. -/
def runSession (setup : Setup) (tree : FileTree) (session : Session) (input : List String) :
    Report × List String :=
  if setup.options.expression ≠ "" then (setup.runExpression session, [])
  else
    match setup.options.operands with
    | path :: _ => (setup.runFile tree session path, [])
    | [] => setup.runPrompt session input

/-- Do what a command line asks for once it is set up. -/
def run (setup : Setup) (tree : FileTree) (processors : Nat) (input : List String) :
    Report × List String :=
  let started := setup.log setup.startRecord
  if setup.options.check then ((setup.check tree processors).after started, [])
  else
    match setup.startSession tree with
    | .error report => (report.after started, [])
    | .ok (session, opened) =>
        let (report, marks) := setup.runSession tree session input
        (report.after (started ++ opened), marks)

end Setup

namespace CommandLine

/-- Run a command line on a tree with an input; gives the marks of the prompt too. -/
def run (tree : FileTree) (processors : Nat) (arguments : List String) (input : ByteArray) :
    Report × List String :=
  match Setup.ofArguments tree arguments with
  | .error report => (report, [])
  | .ok setup => setup.run tree processors (InputLines.ofBytes input.toList)

end CommandLine

end ScriptEngine
