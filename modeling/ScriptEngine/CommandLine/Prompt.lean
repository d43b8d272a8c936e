import ScriptEngine.CommandLine.Setup

namespace ScriptEngine

/-!
# The prompt

The prompt reads entries line by line.  An entry goes on as long as it ends inside a
construct.  Entries run one after the other in one session; those that start with a
colon are commands to the prompt itself.
-/

/-! ## The lines of an input as they reach the prompt -/

namespace InputLines

/-- The most bytes that are read as one line. -/
def lineLimit : Nat :=
  4096

/-- Cut what is too long for one line; a carriage return is never cut off its line feed. -/
def cut : Nat → List UInt8 → List (List UInt8)
  | 0, bytes => [bytes]
  | fuel + 1, bytes =>
      if bytes.length < lineLimit then [bytes]
      else
        let size := if bytes[lineLimit - 1]? == some 13 then lineLimit - 1 else lineLimit
        bytes.take size :: cut fuel (bytes.drop size)

/-- Drop the carriage return in front of a line feed. -/
def dropReturn (bytes : List UInt8) : List UInt8 :=
  if bytes.getLast? == some 13 then bytes.dropLast else bytes

/-- The lines in front of each line feed, and what is left after the last one. -/
def splitFeeds : List UInt8 → List (List UInt8) × List UInt8
  | [] => ([], [])
  | byte :: rest =>
      match splitFeeds rest with
      | ([], left) => if byte == 10 then ([[]], left) else ([], byte :: left)
      | (line :: lines, left) =>
          if byte == 10 then ([] :: line :: lines, left) else ((byte :: line) :: lines, left)

/-- The pieces of a line that ends in a line feed. -/
def ofFedLine (bytes : List UInt8) : List (List UInt8) :=
  let pieces := cut bytes.length bytes
  pieces.dropLast ++ (pieces.getLast?.map dropReturn).toList

/-- The lines of an input. -/
def ofBytes (bytes : List UInt8) : List String :=
  let (fed, left) := splitFeeds bytes
  let pieces := (fed.map ofFedLine).flatten ++ (cut left.length left).filter (!·.isEmpty)
  pieces.map fun piece => Text.decodeLossy ⟨piece.toArray⟩

end InputLines

/-! ## Entries -/

/-- The state of the prompt: its session and the lines of an entry that goes on. -/
structure Prompt where
  session : Session
  pending : String := ""

namespace Prompt

/-- What the prompt writes when it starts. -/
def banner : String :=
  "bemjs (Ctrl+D to exit, :quit to leave)\n"

/-- What the prompt asks for the next line with. -/
def mark (prompt : Prompt) : String :=
  if prompt.pending.isEmpty then "> " else "... "

/-- What the prompt does with an entry. -/
inductive Reply where
  | went (prompt : Prompt) (emissions : List Emission)
  | left

/-- Run a complete entry. -/
def enter (setup : Setup) (session : Session) (entry : String) : Reply :=
  let trimmed := Text.trim entry
  if trimmed = "" then .went { session } []
  else if trimmed = ":quit" then .left
  else if Text.startsWith trimmed ":" then
    .went { session } [.output "unknown command. Type :quit to exit.\n"]
  else
    let (outcome, notices, session) := session.run setup.dumps (Source.ofRepl entry)
    let shown := session.display entry outcome
    let result := match outcome with
      | .error _ => Emission.errors shown
      | .ok _ => Emission.output shown
    .went { session } (setup.emit notices ++ [result])

/-- Take in a line. -/
def feed (setup : Setup) (prompt : Prompt) (line : String) : Reply :=
  let entry := if prompt.pending.isEmpty then line else prompt.pending ++ "\n" ++ line
  if Program.needsMore entry then .went { prompt with pending := entry } []
  else enter setup prompt.session entry

/-- Take in lines to the end, or until one asks to leave; gives what was written and the marks
that asked for the lines. -/
def run (setup : Setup) (prompt : Prompt) : List String → List Emission × List String
  | [] => ([.output "\n"], [prompt.mark])
  | line :: rest =>
      match prompt.feed setup line with
      | .left => ([], [prompt.mark])
      | .went next emissions =>
          let (later, marks) := next.run setup rest
          (emissions ++ later, prompt.mark :: marks)

end Prompt

end ScriptEngine
