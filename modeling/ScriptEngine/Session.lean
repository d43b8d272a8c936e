import ScriptEngine.Code.Listing
import ScriptEngine.Code.Lowering
import ScriptEngine.Settings

namespace ScriptEngine

/-!
# Sessions

A session runs sources one after the other on one machine, so that what one source
binds the next one finds.  A run reports, in order, what it logs, what it dumps and
what the script writes to the console, and it ends in a value or in errors.
-/

/-- What is written while a source runs. -/
inductive Notice where
  | logged (record : LogRecord)
  | dumped (text : String)
  | printed (text : String)
  deriving DecidableEq, Repr

namespace Notice

/-- What the script wrote to the console. -/
def printedText (notices : List Notice) : String :=
  String.join (notices.filterMap fun
    | printed text => some text
    | _ => none)

/-- What was dumped on demand. -/
def dumpedText (notices : List Notice) : String :=
  String.join (notices.filterMap fun
    | dumped text => some text
    | _ => none)

end Notice

/-- Which forms of a source are dumped before it runs. -/
structure DumpOptions where
  program : Bool := false
  listing : Bool := false

/-- How the run of a source ended. -/
abbrev Outcome :=
  Except (List ScriptError) Value

/-- A machine and whether assertions are checked on it. -/
structure Session where
  machine : Machine
  assertions : Bool

namespace Session

/-- A session with the given settings, or the global that has no value. -/
def start (settings : Settings) : Except (String × DataFault) Session :=
  match settings.realm with
  | .ok machine => .ok ⟨machine, settings.assertions⟩
  | .error fault => .error fault

/-- The record of a source being read. -/
def parsingRecord (source : Source) : LogRecord :=
  .debug "parsing"
    [("source", source.displayPath), ("bytes", toString source.content.utf8ByteSize)]

/-- The record of a source that is not a program. -/
def refusedRecord (source : Source) (errors : List ScriptError) : LogRecord :=
  .debug "syntax errors"
    [("source", source.displayPath), ("count", toString errors.length)]

/-- The record of a source whose code is ready. -/
def compiledRecord (source : Source) (code : Code) : LogRecord :=
  .debug "compiled"
    [("source", source.displayPath), ("functions", toString code.routines.length)]

/-- The record of code that starts to run. -/
def runningRecord (source : Source) : LogRecord :=
  .debug "running" [("component", "driver"), ("source", source.displayPath)]

/-- The records of code that failed. -/
def failedRecords (source : Source) (abort : Abort) : List LogRecord :=
  (match abort with
    | .raised _ => []
    | .broken fault => [.debug "recovered panic" [("panic", fault.reason)]]) ++
  [.debug "run failed" [("component", "driver"), ("source", source.displayPath),
    ("kind", abort.error.kind.text)]]

/-- The program of a source as it is dumped. -/
def programDump (source : Source) (program : Program) : String :=
  "--- AST (" ++ source.displayPath ++ ") ---\n" ++ program.text ++ "\n"

/-- The listing of a source as it is dumped. -/
def listingDump (source : Source) (code : Code) : String :=
  "--- Listing (" ++ source.displayPath ++ ") ---\n" ++ code.listing

/-- Run code on the machine of a session; gives the outcome and what was printed. -/
def runCode (session : Session) (code : Code) :
    Except Abort Value × String × Session :=
  match code.run { session.machine with output := "" } with
  | .ok value machine => (.ok value, machine.output, { session with machine := machine })
  | .error abort machine => (.error abort, machine.output, { session with machine := machine })

/-- Read, lower and run a source. -/
def run (session : Session) (options : DumpOptions) (source : Source) :
    Outcome × List Notice × Session :=
  let parsed := Program.parse source
  let reading := [Notice.logged (parsingRecord source)]
  if !parsed.errors.isEmpty then
    (.error parsed.errors,
      reading ++ [.logged (refusedRecord source parsed.errors)], session)
  else
    let reading := reading ++
      (if options.program then [.dumped (programDump source parsed.program)] else [])
    match Code.ofProgram session.assertions parsed.program with
    | .error error => (.error [error], reading, session)
    | .ok code =>
        let reading := reading ++ [.logged (compiledRecord source code)] ++
          (if options.listing then [.dumped (listingDump source code)] else []) ++
          [.logged (runningRecord source)]
        match session.runCode code with
        | (.ok value, printed, session) =>
            (.ok value, reading ++ [.printed printed], session)
        | (.error abort, printed, session) =>
            (.error [abort.error],
              reading ++ [.printed printed] ++
                (failedRecords source abort).map Notice.logged, session)

/-- The text an outcome is shown by: errors with lines of `content`, or the value. -/
def display (session : Session) (content : String) : Outcome → String
  | .error errors => ScriptError.displayAll content errors
  | .ok .undefined => ""
  | .ok value => session.machine.heap.inspect value ++ "\n"

end Session

end ScriptEngine
