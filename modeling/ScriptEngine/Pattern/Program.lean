import ScriptEngine.Pattern.Lead
import ScriptEngine.Pattern.Tree

namespace ScriptEngine

/-!
# Patterns as programs

A pattern is carried out as a program of instructions.  An instruction takes up one
cell, and one more for every number it carries; jumps name cells.  A program begins
with a way out to its last cell, which is taken when nothing else is left to try.
-/

/-- An instruction of a pattern. -/
inductive Instruction where
  | stop
  | fail
  | jump (target : Nat)
  | fork (target : Nat)
  | taken (slot : Nat)
  | mark
  | blankMark
  | toMark
  | capture (slot given : Option Nat)
  | loopMark (greed : Greed) (target : Nat)
  | count (start : Int)
  | blankCount
  | loopCount (greed : Greed) (target limit : Nat)
  | enter
  | refuse
  | leave
  | anchor (condition : Anchor)
  | one (mode : Mode) (test : OneTest)
  | literal (mode : Mode) (codes : List Nat)
  | reference (mode : Mode) (slot : Nat)
  | exact (mode : Mode) (test : OneTest) (rounds : Nat)
  | loop (mode : Mode) (greed : Greed) (test : OneTest) (limit : Nat)
  deriving DecidableEq, Repr

namespace Instruction

/-- The number of cells an instruction takes up. -/
def width : Instruction → Nat
  | jump _ | fork _ | taken _ | loopMark _ _ | count _ | blankCount | one _ _ | literal _ _
  | reference _ _ => 2
  | capture _ _ | loopCount _ _ _ | exact _ _ _ | loop _ _ _ _ => 3
  | _ => 1

/-- The cells of an instruction; those after the first are never carried out by themselves. -/
def cells (instruction : Instruction) : List Instruction :=
  instruction :: List.replicate (instruction.width - 1) stop

end Instruction

/-- The cells of several instructions. -/
def cellsOf (instructions : List Instruction) : List Instruction :=
  instructions.flatMap Instruction.cells

namespace PatternNode

/-- The instructions for a repetition of a test for one character. -/
def loopCells (mode : Mode) (greed : Greed) (test : OneTest) (least most : Nat) :
    List Instruction :=
  let must := if 0 < least then [.exact mode test least] else []
  let may :=
    if least < most then
      [Instruction.loop mode greed test (if most = noLimit then noLimit else most - least)]
    else []
  cellsOf (must ++ may)

/-- Whether the rounds of a repetition are counted. -/
def isCounted (least most : Nat) : Bool :=
  most < noLimit || 1 < least

/-- The cells in front of the body of a repetition that starts at a cell. -/
def repetitionHead (start least most : Nat) (bodySize : Nat) : List Instruction :=
  let opening :=
    if isCounted least most then
      if least = 0 then Instruction.blankCount else .count (1 - (least : Int))
    else if least = 0 then .blankMark else .mark
  if least = 0 then
    cellsOf [opening, .jump (start + opening.width + 2 + bodySize)]
  else opening.cells

/-- The cells behind the body of a repetition. -/
def repetitionTail (greed : Greed) (least most target : Nat) : List Instruction :=
  if isCounted least most then
    let limit := if most = noLimit then noLimit else most - least
    (Instruction.loopCount greed target limit).cells
  else (Instruction.loopMark greed target).cells

mutual

/-- The cells of a part that starts at a cell. -/
def code (start : Nat) : PatternNode → List Instruction
  | empty => []
  | nothing => [.fail]
  | one mode test => (Instruction.one mode test).cells
  | literal mode codes => (Instruction.literal mode codes).cells
  | oneLoop mode greed test least most => loopCells mode greed test least most
  | sequence parts => sequenceCode start parts
  | choice branches => choiceCode start branches
  | repetition greed least most body =>
      let head := (repetitionHead start least most 0).length
      let inner := code (start + head) body
      repetitionHead start least most inner.length ++ inner ++
        repetitionTail greed least most (start + head)
  | plain body => code start body
  | group slot given body =>
      .mark :: code (start + 1) body ++ (Instruction.capture slot given).cells
  | reference mode slot => (Instruction.reference mode slot).cells
  | look true body => .enter :: .mark :: code (start + 2) body ++ [.toMark, .leave]
  | look false body =>
      let inner := code (start + 3) body
      .enter :: (Instruction.fork (start + 4 + inner.length)).cells ++ inner ++ [.refuse, .leave]
  | atomic body => .enter :: code (start + 1) body ++ [.leave]
  | whenTaken slot branches =>
      let (yes, no) := branchCodes (start + 6) 1 branches
      .enter :: (Instruction.fork (start + 8 + yes.length)).cells ++
        (Instruction.taken slot).cells ++ [.leave] ++ yes ++
        (Instruction.jump (start + 9 + yes.length + no.length)).cells ++ [.leave] ++ no
  | whenMatched condition branches =>
      let test := code (start + 4) condition
      let (yes, no) := branchCodes (start + 6 + test.length) 2 branches
      let size := test.length + yes.length
      .enter :: .mark :: (Instruction.fork (start + 8 + size)).cells ++ test ++
        [.toMark, .leave] ++ yes ++ (Instruction.jump (start + 10 + size + no.length)).cells ++
        [.toMark, .leave] ++ no
  | anchor condition => [.anchor condition]

/-- The cells of parts one after the other. -/
def sequenceCode (start : Nat) : List PatternNode → List Instruction
  | [] => []
  | part :: rest =>
      let first := code start part
      first ++ sequenceCode (start + first.length) rest

/-- The cells of branches to try one after the other. -/
def choiceCode (start : Nat) : List PatternNode → List Instruction
  | [] => []
  | [last] => code start last
  | branch :: rest =>
      let first := code (start + 2) branch
      let after := start + 4 + first.length
      let others := choiceCode after rest
      (Instruction.fork after).cells ++ first ++
        (Instruction.jump (after + others.length)).cells ++ others

/-- The cells of the first branch of a condition and those of the second, which stands a jump and
a number of cells behind it. -/
def branchCodes (start gap : Nat) : List PatternNode → List Instruction × List Instruction
  | [] => ([], [])
  | [yes] => (code start yes, [])
  | yes :: no :: _ =>
      let first := code start yes
      (first, code (start + first.length + 2 + gap) no)

end

end PatternNode

/-- The cells of a program, in which sets of one label and texts of one spelling are the same. -/
def shareSets : List (List (Bool × List Nat × List (String × Bool)) × CharSet) →
    List (List Nat × List Nat) → List Instruction → List Instruction
  | _, _, [] => []
  | sets, texts, instruction :: rest =>
      let shared := fun (set : CharSet) => (sets.lookup set.label).getD set
      let noted := fun (set : CharSet) =>
        if (sets.lookup set.label).isSome then sets else (set.label, set) :: sets
      match instruction with
      | .one mode (.among set) =>
          .one mode (.among (shared set)) :: shareSets (noted set) texts rest
      | .exact mode (.among set) rounds =>
          .exact mode (.among (shared set)) rounds :: shareSets (noted set) texts rest
      | .loop mode greed (.among set) limit =>
          .loop mode greed (.among (shared set)) limit :: shareSets (noted set) texts rest
      | .literal mode codes =>
          let spelling := codes.map CharSet.label.shown
          match texts.lookup spelling with
          | some known => .literal mode known :: shareSets sets texts rest
          | none => .literal mode codes :: shareSets sets ((spelling, codes) :: texts) rest
      | other => other :: shareSets sets texts rest

/-- The program of a pattern. -/
def programOf (root : PatternNode) : Array Instruction :=
  let body := root.code 2
  let cells := (Instruction.fork (2 + body.length)).cells ++ body ++ [.stop]
  (shareSets [] [] cells).toArray

/-!
## Regular expressions

A regular expression keeps the two texts it was written with beside the program it is
carried out by and what it tells about the start of its matches.
-/

/-- A compiled regular expression. -/
structure Pattern where
  source : String
  flags : String
  isGlobal : Bool
  ignoresCase : Bool
  isMultiline : Bool
  slots : Nat
  program : Array Instruction
  lead : MatchLead
  deriving DecidableEq, Repr

namespace Pattern

/-- A regular expression as it is written in a script. -/
def text (pattern : Pattern) : String :=
  "/" ++ pattern.source ++ "/" ++ pattern.flags

end Pattern

end ScriptEngine
