import ScriptEngine.Code.Lowering
import ScriptEngine.Encoding
import ScriptEngine.Error
import ScriptEngine.Files
import ScriptEngine.Log

namespace ScriptEngine

/-!
# Verdicts on files

A file is checked by compiling it without running it.  The verdict is its code or
the errors in it.
-/

/-!
## Sources from files

A source file is read as bytes and decoded by the label of an encoding.
-/

namespace Source

/-- The source in the file a path leads to, or why there is none. -/
def load (tree : FileTree) (encoding path : String) : Except ScriptError Source :=
  match tree.read path with
  | .error fault => .error ⟨.internal (.unreadableFile path fault.message), none⟩
  | .ok bytes =>
      match Encoding.decodeSource encoding bytes with
      | .error fault => .error ⟨.internal (.undecodableFile path fault.message), none⟩
      | .ok content => .ok (ofFile path content)

end Source

/-! ## Verdicts -/

/-- What came of checking a file: its code, or the errors in it. -/
inductive Verdict where
  | accepted (code : Code)
  | refused (errors : List ScriptError)

namespace Verdict

/-- The errors of a verdict. -/
def errors : Verdict → List ScriptError
  | accepted _ => []
  | refused errors => errors

/-- The code of a verdict. -/
def code? : Verdict → Option Code
  | accepted code => some code
  | refused _ => none

/-- Whether a verdict counts as a failure. -/
def isFailure (verdict : Verdict) : Bool :=
  !verdict.errors.isEmpty

/-- The verdict that lowering came to. -/
def ofLowered : Except ScriptError Code → Verdict
  | .ok code => accepted code
  | .error error => refused [error]

/-- The verdict that compiling came to. -/
def ofCompiled : Except (List ScriptError) Code → Verdict
  | .ok code => accepted code
  | .error errors => refused errors

/-- The verdict on the file a path leads to, and the compiler it was compiled with as it
is left.  A file that cannot be read or that has syntax errors does not reach the
compiler. -/
def inspect (tree : FileTree) (encoding : String) (compiler : Compiler) (path : String) :
    Verdict × Compiler :=
  match Source.load tree encoding path with
  | .error error => (refused [error], compiler)
  | .ok source =>
      let parsed := Program.parse source
      match parsed.errors with
      | [] =>
          let (lowered, compiler) := compiler.lower parsed.program
          (ofLowered lowered, compiler)
      | errors => (refused errors, compiler)

/-- The verdict on a file that is checked alone. -/
def ofFile (tree : FileTree) (encoding : String) (assertions : Bool) (path : String) : Verdict :=
  match Source.load tree encoding path with
  | .error error => refused [error]
  | .ok source => ofCompiled (Code.compile assertions source)

end Verdict

end ScriptEngine
