import ScriptEngine.Check.Pool

namespace ScriptEngine

/-!
# Checking files

A check compiles files without running them, several at a time, and reports on them
in the order they were given in.
-/

/-- What to check and how. -/
structure CheckRequest where
  paths : List String
  workers : Int
  encoding : String
  assertions : Bool

/-- The report on the files: an entry for each of them, and the counts. -/
structure CheckReport where
  entries : List (String × Option Verdict)
  tally : CheckTally
  workers : Nat

/-- A check that was given up. -/
inductive CheckFault where
  | withdrawn
  deriving DecidableEq, Repr

namespace CheckFault

/-- The wording of a fault. -/
def message : CheckFault → String
  | withdrawn => "context canceled"

end CheckFault

namespace CheckRequest

/-- How many workers there are: no more than files, and one per processor unless a
number is asked for. -/
def workerCount (request : CheckRequest) (processors : Nat) : Nat :=
  let wanted := min request.workers request.paths.length
  if wanted ≤ 0 then max processors 1 else wanted.toNat

/-- The plan of a check on a tree. -/
def plan (request : CheckRequest) (tree : FileTree) (processors : Nat) : CheckPlan where
  paths := request.paths
  workers := request.workerCount processors
  compiler := Compiler.new request.assertions
  inspect := Verdict.inspect tree request.encoding

/-- Check files, unless the request is withdrawn from the start. -/
def run (request : CheckRequest) (tree : FileTree) (processors : Nat) (withdrawn : Bool) :
    Except CheckFault CheckReport :=
  let plan := request.plan tree processors
  let pool := plan.run withdrawn
  match pool.requester with
  | .finished false => .ok ⟨pool.entries, pool.tally, plan.workers⟩
  | _ => .error .withdrawn

end CheckRequest

end ScriptEngine
