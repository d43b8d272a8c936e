import ScriptEngine.CommandLine
import Std.Time

/-!
# The program

The outer layer of the command line: it reads the files that the arguments name and
the lines of the prompt, and writes what the report says.
-/

namespace ScriptEngine.Main

/-- The present time as records show it. -/
def presentTime : IO String := do
  let now ← Std.Time.Timestamp.now
  return (Std.Time.DateTime.ofTimestamp now .UTC).format "uuuu-MM-dd'T'HH:mm:ss.SSSXXX"

/-- Write a record, with the time since the program started if it is a timed one. -/
def writeRecord (started : Nat) (record : LogRecord) : IO Unit := do
  let elapsed := (← IO.monoMsNow) - started
  (← IO.getStderr).putStr (record.line (← presentTime) s!"{elapsed}ms")

/-- Write a piece of a report. -/
def write (started : Nat) : Emission → IO Unit
  | .output text => do (← IO.getStdout).putStr text
  | .errors text | .consoleErrors text => do (← IO.getStderr).putStr text
  | .logged record => writeRecord started record
  | .appended path text => IO.FS.withFile path .append fun handle => handle.putStr text

/-- Write a report; gives the code to exit with. -/
def writeReport (started : Nat) (report : Report) : IO UInt32 := do
  report.emissions.forM (write started)
  return report.status.code.toUInt32

/-- Whether a path leads to a folder on the disk. -/
def isFolder (path : String) : IO Bool := do
  try
    (← IO.FS.realPath path).isDir
  catch _ => return false

/-- The content of the file that a path leads to on the disk. -/
def fileContent? (path : String) : IO (Option ByteArray) := do
  try
    return some (← IO.FS.readBinFile path)
  catch _ => return none

/-- Add what a path leads to on the disk to a tree. -/
def loadPath (tree : FileTree) (path : String) : IO FileTree := do
  let place := Path.absolute tree.directory path
  match ← fileContent? path with
  | some content => return tree.add place content
  | none =>
      if ← isFolder path then
        return { tree with entries := ((Path.names place).filter (· ≠ ""), .folder) :: tree.entries }
      return tree

/-- Add the folder of a path to a tree. -/
def loadFolder (tree : FileTree) (path : String) : IO FileTree :=
  let names := Path.names (Path.absolute tree.directory path)
  loadPath tree ("/".intercalate names.dropLast ++ "/")

/-- The tree of the files that a command line names. -/
def loadTree (arguments : List String) : IO FileTree := do
  let tree : FileTree := { directory := (← IO.currentDir).toString }
  match FlagReading.ofArguments Options.flags arguments with
  | .error _ => return tree
  | .ok reading =>
      let options := Options.ofReading reading
      (options.config :: options.operands).foldlM loadPath tree

/-- Ask for a line; there is none at the end of the input. -/
def askLine (mark : String) : IO (Option String) := do
  let output ← IO.getStdout
  output.putStr mark
  output.flush
  let line ← (← IO.getStdin).getLine
  if line.isEmpty then return none
  let text := if line.endsWith "\n" then (line.dropEnd 1).toString else line
  return some (if text.endsWith "\r" then (text.dropEnd 1).toString else text)

/-- Take in lines until the end of the input or until one asks to leave. -/
partial def converse (started : Nat) (setup : Setup) (prompt : Prompt) : IO Unit := do
  match ← askLine prompt.mark with
  | none => (← IO.getStdout).putStr "\n"
  | some line =>
      match prompt.feed setup line with
      | .left => return
      | .went next emissions =>
          emissions.forM (write started)
          converse started setup next

/-- Start the prompt in a session. -/
def startPrompt (started : Nat) (setup : Setup) (session : Session) : IO UInt32 := do
  (← IO.getStdout).putStr Prompt.banner
  converse started setup { session }
  return 0

/-- Do what a command line asks for once it is set up. -/
def perform (started : Nat) (setup : Setup) (tree : FileTree) : IO UInt32 := do
  (setup.log setup.startRecord).forM (write started)
  if setup.options.check then writeReport started (setup.check tree 1)
  else
    let tree ← loadPath (← loadFolder tree setup.settings.console) setup.settings.console
    match setup.startSession tree with
    | .error report => writeReport started report
    | .ok (session, opened) =>
        opened.forM (write started)
        if setup.startsPrompt then startPrompt started setup session
        else writeReport started (setup.runSession tree session []).1

end ScriptEngine.Main

/-- Run the command line. -/
def main (arguments : List String) : IO UInt32 := do
  let started ← IO.monoMsNow
  let tree ← ScriptEngine.Main.loadTree arguments
  match ScriptEngine.Setup.ofArguments tree arguments with
  | .error report => ScriptEngine.Main.writeReport started report
  | .ok setup => ScriptEngine.Main.perform started setup tree
