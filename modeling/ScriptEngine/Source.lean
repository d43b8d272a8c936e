import ScriptEngine.Text.Utf8

namespace ScriptEngine

/-!
# Sources

A source is a script text together with the name it is shown under and the path
it was read from, if any.
-/

/-- A script text with its display name and, for a file, its path. -/
structure Source where
  name : String
  path : String
  content : String
  deriving DecidableEq, Repr, Inhabited

namespace Source

/-- A text given on the command line or by a program. -/
def ofEval (content : String) : Source :=
  ⟨"<eval>", "", content⟩

/-- A text entered at the interactive prompt. -/
def ofRepl (content : String) : Source :=
  ⟨"<repl>", "", content⟩

/-- The last element of a path; trailing slashes do not count. -/
def baseName (path : String) : String :=
  if path.isEmpty then "."
  else
    match Text.trimEnd (· == '/') path.toList with
    | [] => "/"
    | trimmed => String.ofList (trimmed.reverse.takeWhile (· != '/')).reverse

/-- The decoded content of a file. -/
def ofFile (path content : String) : Source :=
  ⟨baseName path, path, content⟩

/-- The path when there is one, otherwise the name. -/
def displayPath (source : Source) : String :=
  if source.path.isEmpty then source.name else source.path

/-- The lines of the content. -/
def lines (source : Source) : List String :=
  Text.lines source.content

/-- The line of a one-based number without its carriage returns, or nothing to show. -/
def line (source : Source) (number : Int) : String :=
  if number < 1 then ""
  else
    match source.lines[(number - 1).toNat]? with
    | some text => String.ofList (Text.trimEnd (· == '\r') text.toList)
    | none => ""

/-- The content between two byte offsets, cut to its bounds. -/
def slice (source : Source) (start stop : Int) : String :=
  let first := start.toNat
  let last := min stop.toNat source.content.utf8ByteSize
  if first < last then Text.byteSlice source.content first last else ""

end Source

/-- A place in a source: one-based line and column, and the bytes it covers. -/
structure Position where
  line : Nat
  column : Nat
  start : Nat
  stop : Nat
  source : Source
  deriving DecidableEq, Repr, Inhabited

namespace Position

/-- The place as error texts show it. -/
def text (position : Position) : String :=
  s!"{position.source.displayPath}:{position.line}:{position.column}"

end Position

end ScriptEngine
