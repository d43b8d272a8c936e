import ScriptEngine.Code.Tree
import ScriptEngine.Number.Layout
import ScriptEngine.Program.Printer
import ScriptEngine.Text.Quoted

namespace ScriptEngine

/-!
# Listings

A listing writes code as a text: every operation by its name, every function by
its number, and the statements of the program last.
-/

namespace Constant

/-- The text of a constant. -/
def text : Constant → String
  | undefined => "undefined"
  | number value => Number.text value
  | string value => Text.quoted value
  | boolean value => if value then "true" else "false"

end Constant

namespace BinaryOperator

/-- The name of an operator in listings. -/
def label : BinaryOperator → String
  | add => "add"
  | subtract => "sub"
  | multiply => "mul"
  | divide => "div"
  | remainder => "mod"
  | less => "lt"
  | greater => "gt"
  | lessEqual => "le"
  | greaterEqual => "ge"
  | equal => "eq"
  | notEqual => "ne"
  | strictEqual => "stricteq"
  | strictNotEqual => "strictne"
  | within => "in"
  | instanceof => "instanceof"

end BinaryOperator

namespace UnaryOperator

/-- The name of an operator in listings. -/
def label : UnaryOperator → String
  | not => "not"
  | negate => "neg"
  | toNumber => "tonumber"
  | void => "void"

end UnaryOperator

namespace UpdateOperator

/-- The change an operator makes, in listings. -/
def label : UpdateOperator → String
  | increment => "+1"
  | decrement => "-1"

end UpdateOperator

/-- The text of an operation applied to operands. -/
def applied (operation : String) (operands : List String) : String :=
  operation ++ "(" ++ separated ", " operands ++ ")"

/-- Texts as a list in brackets. -/
def bracketed (parts : List String) : String :=
  "[" ++ separated ", " parts ++ "]"

mutual

/-- The text of a term. -/
def Term.text : Term → String
  | .constant value => value.text
  | .this => "this"
  | .pattern pattern => applied "regexp" [Text.quoted pattern.source, Text.quoted pattern.flags]
  | .array elements => applied "array" [bracketed (Term.texts elements)]
  | .object entries => "object(\x7b" ++ separated ", " (Entry.texts entries) ++ "\x7d)"
  | .closure routine =>
      if routine.name.isEmpty then applied "closure" [routine.label]
      else applied "closure" [routine.label, Text.quoted routine.name]
  | .unary operator operand _ => applied operator.label [operand.text]
  | .typeofVariable name => "typeof(lookup(" ++ Text.quoted name ++ "))"
  | .typeof operand => applied "typeof" [operand.text]
  | .delete (.variable name) _ => applied "delete" [Text.quoted name]
  | .delete (.property base key) _ => applied "deleteprop" [base.text, key.text]
  | .strict operator left right _ => applied operator.label [left.text, right.text]
  | .both left right => applied "and" [left.text, right.text]
  | .either left right => applied "or" [left.text, right.text]
  | .read place _ => place.readText
  | .assign place value _ => place.writeText value.text
  | .combine operator place value _ =>
      place.writeText (applied operator.label [place.readText, value.text])
  | .update operator fixity place _ =>
      applied "update" [place.referenceText, operator.label, fixity.text]
  | .conditional condition consequence alternative =>
      applied "cond" [condition.text, consequence.text, alternative.text]
  | .sequence terms => applied "comma" (Term.texts terms)
  | .call callee arguments _ _ =>
      applied "call" [callee.text, "undefined", bracketed (Term.texts arguments)]
  | .callMethod base key arguments _ _ =>
      applied "callmethod" [base.text, key.text, bracketed (Term.texts arguments)]
  | .construct constructor arguments _ =>
      applied "new" [constructor.text, bracketed (Term.texts arguments)]

/-- The text of a key. -/
def Key.text : Key → String
  | .fixed name => Text.quoted name
  | .computed term => term.text

/-- The text of reading a place. -/
def Place.readText : Place → String
  | .variable name => applied "get" [Text.quoted name]
  | .property base key => applied "getprop" [base.text, key.text]

/-- The text of writing a place. -/
def Place.writeText (value : String) : Place → String
  | .variable name => applied "set" [Text.quoted name, value]
  | .property base key => applied "setprop" [base.text, key.text, value]

/-- The text of a place that is both read and written. -/
def Place.referenceText : Place → String
  | .variable name => applied "ref" [Text.quoted name]
  | .property base key => applied "propref" [base.text, key.text]

/-- The texts of terms. -/
def Term.texts : List Term → List String
  | [] => []
  | first :: rest => first.text :: Term.texts rest

/-- The text of a property. -/
def Entry.text : Entry → String
  | .mk key value => Text.quoted key ++ ": " ++ value.text

/-- The texts of properties. -/
def Entry.texts : List Entry → List String
  | [] => []
  | first :: rest => first.text :: Entry.texts rest

end

/-- A line with its depth of indentation. -/
def indented (depth : Nat) (text : String) : String :=
  Text.repeated "    " depth ++ text

/-- The labels of a statement inside brackets, or nothing. -/
def labelsText (labels : List String) : List String :=
  if labels.isEmpty then [] else ["labels=" ++ bracketed (labels.map Text.quoted)]

/-- The text of a term that may be missing. -/
def optionalText (missing : String) : Option Term → String
  | some term => term.text
  | none => missing

namespace Binding

/-- The line that declares a variable. -/
def line : Binding → String
  | .mk name none => applied "declare" [Text.quoted name]
  | .mk name (some value) => applied "declare" [Text.quoted name, value.text]

end Binding

mutual

/-- The lines of a statement. -/
def Action.lines (depth : Nat) : Action → List String
  | .evaluate term => [indented depth term.text]
  | .check condition shown _ =>
      [indented depth (applied "assert" [condition.text, Text.quoted shown])]
  | .declare bindings => bindings.map fun binding => indented depth binding.line
  | .define routine =>
      [indented depth
        (applied "declare" [Text.quoted routine.name, applied "closure" [routine.label]])]
  | .giveBack value => [indented depth ("return " ++ optionalText "undefined" value)]
  | .block body =>
      indented depth "\x7b" :: Action.linesOf (depth + 1) body ++ [indented depth "\x7d"]
  | .branch condition consequence none =>
      indented depth ("if truthy(" ++ condition.text ++ ") \x7b") ::
        Action.linesOf (depth + 1) consequence ++ [indented depth "\x7d"]
  | .branch condition consequence (some alternative) =>
      indented depth ("if truthy(" ++ condition.text ++ ") \x7b") ::
        Action.linesOf (depth + 1) consequence ++
        indented depth "\x7d else \x7b" :: Action.linesOf (depth + 1) alternative ++
        [indented depth "\x7d"]
  | .whileLoop labels condition body =>
      indented depth (applied "whileloop" (condition.text :: labelsText labels) ++ " \x7b") ::
        Action.linesOf (depth + 1) body ++ [indented depth "\x7d"]
  | .forLoop labels start condition update body =>
      let head := [optionalText "true" condition,
        "update=" ++ optionalText "undefined" update] ++ labelsText labels
      Action.linesOfOption depth start ++
        indented depth (applied "whileloop" head ++ " \x7b") ::
        Action.linesOf (depth + 1) body ++ [indented depth "\x7d"]
  | .forIn labels name declares subject body =>
      (if declares then [indented depth (applied "declare" [Text.quoted name])] else []) ++
        indented depth
          (applied "forinloop" (Text.quoted name :: subject.text :: labelsText labels) ++ " \x7b") ::
        Action.linesOf (depth + 1) body ++ [indented depth "\x7d"]
  | .labeled labels body =>
      indented depth (applied "block" (labelsText labels) ++ " \x7b") ::
        Action.linesOf (depth + 1) body ++ [indented depth "\x7d"]
  | .leave label => [indented depth ("return " ++ applied "brk" (label.toList.map Text.quoted))]
  | .again label => [indented depth ("return " ++ applied "cont" (label.toList.map Text.quoted))]
  | .select subject cases =>
      indented depth ("switch " ++ subject.text ++ " \x7b") ::
        Case.linesOf (depth + 1) cases ++ [indented depth "\x7d"]

/-- The lines of statements. -/
def Action.linesOf (depth : Nat) : List Action → List String
  | [] => []
  | first :: rest => first.lines depth ++ Action.linesOf depth rest

/-- The lines of a statement that may be missing. -/
def Action.linesOfOption (depth : Nat) : Option Action → List String
  | none => []
  | some action => action.lines depth

/-- The lines of a case. -/
def Case.lines (depth : Nat) : Case → List String
  | .mk none body => indented depth "default:" :: Action.linesOf (depth + 1) body
  | .mk (some condition) body =>
      indented depth ("case stricteq(" ++ condition.text ++ "):") ::
        Action.linesOf (depth + 1) body

/-- The lines of cases. -/
def Case.linesOf (depth : Nat) : List Case → List String
  | [] => []
  | first :: rest => first.lines depth ++ Case.linesOf depth rest

end

/-- Lines as a text; every line ends in a line feed. -/
def linesText (lines : List String) : String :=
  String.join (lines.map (· ++ "\n"))

namespace Routine

/-- The lines of a routine. -/
def lines : Routine → List String
  | routine@(.mk _ name parameters body endsInReturn) =>
      let head := "function " ++ applied routine.label parameters ++ " \x7b" ++
        (if name.isEmpty then "" else " // " ++ name)
      let closing := if endsInReturn then [] else [indented 1 "return undefined"]
      head :: Action.linesOf 1 body ++ closing ++ ["\x7d"]

end Routine

namespace Code

/-- The first line of every listing. -/
def preamble : String :=
  "// runtime: bemjs/pkg/vm (scope chain, operators, loop helpers) + bemjs/pkg/builtins"

/-- The listing of code: the first line, every function and then the statements. -/
def listing (code : Code) : String :=
  preamble ++ "\n" ++
    String.join (code.routines.map fun routine => "\n" ++ linesText routine.lines) ++
    "\n" ++ linesText (Action.linesOf 0 code.main)

end Code

end ScriptEngine
