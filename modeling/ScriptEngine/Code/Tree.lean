import ScriptEngine.Pattern.Program
import ScriptEngine.Program.Tree

namespace ScriptEngine

/-!
# Code

Code is what a program is lowered to: its strings are decoded, its patterns
compiled, its jumps known to have a target, and every part that can fail carries
the place it is reported at.  Running code needs nothing but the code.
-/

/-- Values that stand in code. -/
inductive Constant where
  | undefined
  | number (value : Float)
  | string (text : String)
  | boolean (value : Bool)

mutual

/-- Lowered expressions. -/
inductive Term where
  | constant (value : Constant)
  | this
  | pattern (pattern : Pattern)
  | array (elements : List Term)
  | object (entries : List Entry)
  | closure (routine : Routine)
  | unary (operator : UnaryOperator) (operand : Term) (position : Position)
  | typeofVariable (name : String)
  | typeof (operand : Term)
  | delete (place : Place) (position : Position)
  | strict (operator : BinaryOperator) (left right : Term) (position : Position)
  | both (left right : Term)
  | either (left right : Term)
  | read (place : Place) (position : Position)
  | assign (place : Place) (value : Term) (position : Position)
  | combine (operator : BinaryOperator) (place : Place) (value : Term) (position : Position)
  | update (operator : UpdateOperator) (fixity : Fixity) (place : Place) (position : Position)
  | conditional (condition consequence alternative : Term)
  | sequence (terms : List Term)
  | call (callee : Term) (arguments : List Term) (shown : String) (position : Position)
  | callMethod (base : Term) (key : Key) (arguments : List Term) (shown : String)
      (position : Position)
  | construct (constructor : Term) (arguments : List Term) (position : Position)

/-- The key of a property: a name in the program or a value computed from it. -/
inductive Key where
  | fixed (name : String)
  | computed (term : Term)

/-- What can be assigned to: a variable or a property. -/
inductive Place where
  | variable (name : String)
  | property (base : Term) (key : Key)

/-- One property of an object that code builds. -/
inductive Entry where
  | mk (key : String) (value : Term)

/--
The code of a function.  `number` counts the functions of a program in the order
their bodies end, and `endsInReturn` tells whether the program text ends the body
by a return.
-/
inductive Routine where
  | mk (number : Nat) (name : String) (parameters : List String) (body : List Action)
      (endsInReturn : Bool)

/-- A variable with the value it is declared with, if there is one. -/
inductive Binding where
  | mk (name : String) (value : Option Term)

/-- A case of a selection; the default case has no condition. -/
inductive Case where
  | mk (condition : Option Term) (body : List Action)

/-- Lowered statements. -/
inductive Action where
  | evaluate (term : Term)
  | check (condition : Term) (shown : String) (position : Position)
  | declare (bindings : List Binding)
  | define (routine : Routine)
  | giveBack (value : Option Term)
  | block (body : List Action)
  | branch (condition : Term) (consequence : List Action) (alternative : Option (List Action))
  | whileLoop (labels : List String) (condition : Term) (body : List Action)
  | forLoop (labels : List String) (start : Option Action) (condition update : Option Term)
      (body : List Action)
  | forIn (labels : List String) (name : String) (declares : Bool) (subject : Term)
      (body : List Action)
  | labeled (labels : List String) (body : List Action)
  | leave (label : Option String)
  | again (label : Option String)
  | select (subject : Term) (cases : List Case)

end

namespace Term

/-- The argument of a call with exactly one; any other term stands for itself. -/
def soleArgument : Term → Term
  | .call _ [argument] _ _ => argument
  | term => term

end Term

namespace Routine

/-- The number of a routine. -/
def number : Routine → Nat
  | .mk number _ _ _ _ => number

/-- The declared name of a routine, empty for one without a name. -/
def name : Routine → String
  | .mk _ name _ _ _ => name

/-- The names of the parameters. -/
def parameters : Routine → List String
  | .mk _ _ parameters _ _ => parameters

/-- The statements of the body. -/
def body : Routine → List Action
  | .mk _ _ _ body _ => body

/-- The name of a routine in listings. -/
def label (routine : Routine) : String :=
  "f" ++ toString routine.number

end Routine

namespace Action

/-- Whether the value of a statement becomes the result of a program. -/
def yieldsResult : Action → Bool
  | evaluate _ | check _ _ _ => true
  | _ => false

/-- The statements inside a block, or the statement itself. -/
def asBody : Option Action → List Action
  | some (.block body) => body
  | some action => [action]
  | none => []

end Action

/-- A lowered program: its routines in order of their numbers and its statements. -/
structure Code where
  routines : List Routine
  main : List Action

end ScriptEngine
