import ScriptEngine.Pattern.CharSet
import ScriptEngine.Pattern.Fault

namespace ScriptEngine

/-!
# Patterns as trees

A pattern is a tree of tests on single code points, on places and on what groups
took before.  A part that is put under another one is simplified first: tests in a
row become a literal, choices between single characters a set, and repetitions of
repetitions are multiplied.
-/

/-- Conditions on a place in a text. -/
inductive Anchor where
  | textStart
  | textEnd
  | lineStart
  | lineEnd
  | searchStart
  | wordEdge
  | noWordEdge
  deriving DecidableEq, Repr

/-- How characters are taken: compared in lower case or not, and backward or forward. -/
structure Mode where
  folded : Bool
  backward : Bool
  deriving DecidableEq, Repr

/-- A test for one character. -/
inductive OneTest where
  | exactly (code : Nat)
  | except (code : Nat)
  | among (set : CharSet)
  deriving DecidableEq, Repr

namespace OneTest

/-- Whether a test admits a code point. -/
def admits : OneTest → Nat → Bool
  | exactly wanted, code => code == wanted
  | except unwanted, code => code != unwanted
  | among set, code => set.contains code

/-- A test that names a single code point instead of a set, if it can. -/
def simplified : OneTest → OneTest
  | among (.plain core) =>
      match core.only? with
      | some code => if core.inverted then except code else exactly code
      | none => among (.plain core)
  | test => test

end OneTest

/-- How eagerly a repetition takes further rounds. -/
inductive Greed where
  | greedy
  | lazy
  deriving DecidableEq, Repr

/-- The number of rounds that stands for any number of them. -/
def noLimit : Nat :=
  2147483647

/-- A part of a pattern. -/
inductive PatternNode where
  | empty
  | nothing
  | one (mode : Mode) (test : OneTest)
  | literal (mode : Mode) (codes : List Nat)
  | oneLoop (mode : Mode) (greed : Greed) (test : OneTest) (least most : Nat)
  | sequence (parts : List PatternNode)
  | choice (branches : List PatternNode)
  | repetition (greed : Greed) (least most : Nat) (body : PatternNode)
  | plain (body : PatternNode)
  | group (slot given : Option Nat) (body : PatternNode)
  | reference (mode : Mode) (slot : Nat)
  | look (wanted : Bool) (body : PatternNode)
  | atomic (body : PatternNode)
  | whenTaken (slot : Nat) (branches : List PatternNode)
  | whenMatched (condition : PatternNode) (branches : List PatternNode)
  | anchor (condition : Anchor)
  deriving Repr

namespace PatternNode

/-- The mode and the code points of a part that stands for a fixed text. -/
def text? : PatternNode → Option (Mode × List Nat)
  | one mode (.exactly code) => some (mode, [code])
  | literal mode codes => some (mode, codes)
  | _ => none

/-- Put a fixed text behind another one, or before it where characters are taken backward. -/
def joinTexts (mode : Mode) (earlier later : List Nat) : PatternNode :=
  literal mode (if mode.backward then later ++ earlier else earlier ++ later)

/-- Add a part to those before it, given in reverse; `last` is the mode of a fixed text that was
added last. -/
def addPart (done : List PatternNode × Option Mode) (part : PatternNode) :
    List PatternNode × Option Mode :=
  match part, part.text? with
  | empty, _ => done
  | _, none => (part :: done.1, none)
  | _, some (mode, codes) =>
      match done with
      | (previous :: earlier, some last) =>
          match previous.text? with
          | some (_, before) =>
              if last = mode then (joinTexts mode before codes :: earlier, some mode)
              else (part :: previous :: earlier, some mode)
          | none => (part :: previous :: earlier, some mode)
      | (earlier, _) => (part :: earlier, some mode)

/-- The parts of a sequence, or the part itself. -/
def parts : PatternNode → List PatternNode
  | sequence parts => parts
  | part => [part]

/-- Parts in the order they are taken in. -/
def joined (parts : List PatternNode) : PatternNode :=
  match ((parts.flatMap PatternNode.parts).foldl addPart ([], none)).1.reverse with
  | [] => empty
  | [part] => part
  | several => sequence several

/-- The mode of a test for one character that stands in a choice, and the set others can be added
to. -/
def choosable? : PatternNode → Option (Mode × Option SetCore)
  | one mode (.exactly code) => some (mode, some (SetCore.ofRanges [(code, code)]))
  | one mode (.among set) => some (mode, set.mergeable?)
  | _ => none

/-- Add a branch to those before it, given in reverse; `last` says how the branch that was added
last can take up others. -/
def addBranch (done : List PatternNode × Option (Mode × Option SetCore)) (branch : PatternNode) :
    List PatternNode × Option (Mode × Option SetCore) :=
  match branch, branch.choosable? with
  | nothing, _ => done
  | _, none => (branch :: done.1, none)
  | _, some (mode, core) =>
      match done, core with
      | (_ :: earlier, some (last, some before)), some core =>
          if last = mode then
            let merged := before.addAll core
            (one mode (.among (.plain merged)) :: earlier, some (mode, some merged))
          else (branch :: done.1, some (mode, some core))
      | _, _ => (branch :: done.1, some (mode, core))

/-- The branches of a choice, or the part itself. -/
def branches : PatternNode → List PatternNode
  | choice branches => branches
  | part => [part]

/-- Branches in the order they are tried in. -/
def chosen (branches : List PatternNode) : PatternNode :=
  match ((branches.flatMap PatternNode.branches).foldl addBranch ([], none)).1.reverse with
  | [] => nothing
  | [branch] => branch
  | several => choice several

/-- A number of rounds of so many rounds each. -/
def timesRounds (inner outer : Nat) : Nat :=
  if inner = 0 then 0 else if (noLimit - 1) / inner < outer then noLimit else inner * outer

/-- Whether rounds of an inner repetition cannot be counted together with those of an outer one. -/
def isLumpy (outerLeast least most : Nat) : Bool :=
  (outerLeast = 0 && 1 < least) || most < least * 2

/-- A repetition, counted together with one of the same greed under it. -/
def multiplied (greed : Greed) (least most : Nat) (body : PatternNode) : PatternNode :=
  let kept := repetition greed least most body
  let rounds := match body with
    | repetition inner innerLeast innerMost innerBody =>
        if inner = greed ∧ !isLumpy least innerLeast innerMost then
          repetition greed (timesRounds innerLeast least) (timesRounds innerMost most) innerBody
        else kept
    | oneLoop mode inner test innerLeast innerMost =>
        if inner = greed ∧ !isLumpy least innerLeast innerMost then
          oneLoop mode greed test (timesRounds innerLeast least) (timesRounds innerMost most)
        else kept
    | _ => kept
  if least = noLimit then nothing else rounds

/-- A part in the form it has under another one. -/
def simplified : PatternNode → PatternNode
  | sequence parts => joined parts
  | choice branches => chosen branches
  | repetition greed least most body => multiplied greed least most body
  | plain body => body
  | one mode test => one mode test.simplified
  | oneLoop mode .greedy test least most => oneLoop mode .greedy test.simplified least most
  | part => part

/-- A part under a repetition operator, without the operators that say nothing. -/
def repeated (greed : Greed) (least most : Nat) (body : PatternNode) : PatternNode :=
  if most = 0 then empty
  else if least = 1 ∧ most = 1 then body
  else
    match body with
    | one mode test => oneLoop mode greed test least most
    | _ => repetition greed least most body.simplified

end PatternNode

end ScriptEngine
