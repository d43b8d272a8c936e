import ScriptEngine.Token

namespace ScriptEngine

/-!
# Programs as trees

The tree of a program keeps, for every node, the token it is told by, so that
errors can point at the source.  Operators are closed sets; each knows its
spelling and how tightly it binds.
-/

/-- How tightly an operator binds, from the loosest to the tightest. -/
inductive Precedence where
  | lowest
  | comma
  | assignment
  | conditional
  | logicalOr
  | logicalAnd
  | equality
  | comparison
  | sum
  | product
  | unary
  | postfixUpdate
  | call
  | member
  deriving DecidableEq, Repr

namespace Precedence

/-- The place of a precedence in their order. -/
def rank : Precedence → Nat
  | lowest => 1
  | comma => 2
  | assignment => 3
  | conditional => 4
  | logicalOr => 5
  | logicalAnd => 6
  | equality => 7
  | comparison => 8
  | sum => 9
  | product => 10
  | unary => 11
  | postfixUpdate => 12
  | call => 13
  | member => 14

/-- The precedence of the operator a token stands for after an operand. -/
def ofKind : TokenKind → Precedence
  | .comma => comma
  | .assign | .plusAssign | .minusAssign | .asteriskAssign | .slashAssign | .percentAssign =>
      assignment
  | .question => conditional
  | .logicalOr => logicalOr
  | .logicalAnd => logicalAnd
  | .equal | .notEqual | .strictEqual | .strictNotEqual => equality
  | .less | .greater | .lessEqual | .greaterEqual | .inWord | .instanceofWord => comparison
  | .plus | .minus => sum
  | .asterisk | .slash | .percent => product
  | .increment | .decrement => postfixUpdate
  | .leftParen => call
  | .dot | .leftBracket => member
  | _ => lowest

end Precedence

/-- The operators in front of one operand that yield a value of it. -/
inductive UnaryOperator where
  | not
  | negate
  | toNumber
  | void
  deriving DecidableEq, Repr

namespace UnaryOperator

/-- The spelling of an operator. -/
def text : UnaryOperator → String
  | not => "!"
  | negate => "-"
  | toNumber => "+"
  | void => "void"

/-- The operator of a spelling. -/
def ofText? : String → Option UnaryOperator
  | "!" => some not
  | "-" => some negate
  | "+" => some toNumber
  | "void" => some void
  | _ => none

end UnaryOperator

/-- The operators that always evaluate both operands. -/
inductive BinaryOperator where
  | add
  | subtract
  | multiply
  | divide
  | remainder
  | less
  | greater
  | lessEqual
  | greaterEqual
  | equal
  | notEqual
  | strictEqual
  | strictNotEqual
  | within
  | instanceof
  deriving DecidableEq, Repr

namespace BinaryOperator

/-- The spelling of an operator. -/
def text : BinaryOperator → String
  | add => "+"
  | subtract => "-"
  | multiply => "*"
  | divide => "/"
  | remainder => "%"
  | less => "<"
  | greater => ">"
  | lessEqual => "<="
  | greaterEqual => ">="
  | equal => "=="
  | notEqual => "!="
  | strictEqual => "==="
  | strictNotEqual => "!=="
  | within => "in"
  | instanceof => "instanceof"

/-- The operator of a spelling. -/
def ofText? : String → Option BinaryOperator
  | "+" => some add
  | "-" => some subtract
  | "*" => some multiply
  | "/" => some divide
  | "%" => some remainder
  | "<" => some less
  | ">" => some greater
  | "<=" => some lessEqual
  | ">=" => some greaterEqual
  | "==" => some equal
  | "!=" => some notEqual
  | "===" => some strictEqual
  | "!==" => some strictNotEqual
  | "in" => some within
  | "instanceof" => some instanceof
  | _ => none

end BinaryOperator

/-- The operators between two operands: strict ones and the two that may skip the second. -/
inductive InfixOperator where
  | strict (operator : BinaryOperator)
  | both
  | either
  deriving DecidableEq, Repr

namespace InfixOperator

/-- The spelling of an operator. -/
def text : InfixOperator → String
  | strict operator => operator.text
  | both => "&&"
  | either => "||"

/-- The operator of a spelling. -/
def ofText? : String → Option InfixOperator
  | "&&" => some both
  | "||" => some either
  | text => (BinaryOperator.ofText? text).map strict

/-- The operator a token stands for between two operands. -/
def ofKind? : TokenKind → Option InfixOperator
  | .plus => some (strict .add)
  | .minus => some (strict .subtract)
  | .asterisk => some (strict .multiply)
  | .slash => some (strict .divide)
  | .percent => some (strict .remainder)
  | .less => some (strict .less)
  | .greater => some (strict .greater)
  | .lessEqual => some (strict .lessEqual)
  | .greaterEqual => some (strict .greaterEqual)
  | .equal => some (strict .equal)
  | .notEqual => some (strict .notEqual)
  | .strictEqual => some (strict .strictEqual)
  | .strictNotEqual => some (strict .strictNotEqual)
  | .inWord => some (strict .within)
  | .instanceofWord => some (strict .instanceof)
  | .logicalAnd => some both
  | .logicalOr => some either
  | _ => none

end InfixOperator

/-- The assignment operators: a plain one and those that first combine with the old value. -/
inductive AssignmentOperator where
  | plain
  | combine (operator : BinaryOperator)
  deriving DecidableEq, Repr

namespace AssignmentOperator

/-- The spelling of an operator. -/
def text : AssignmentOperator → String
  | plain => "="
  | combine operator => operator.text ++ "="

/-- The operator of a spelling: the plain one, or one in front of an equals sign. -/
def ofText? (text : String) : Option AssignmentOperator :=
  if text = "=" then some plain
  else
    match text.toList.reverse with
    | '=' :: front => (BinaryOperator.ofText? (String.ofList front.reverse)).map combine
    | _ => (BinaryOperator.ofText? text).map combine

/-- The assignment operator a token stands for. -/
def ofKind? : TokenKind → Option AssignmentOperator
  | .assign => some plain
  | .plusAssign => some (combine .add)
  | .minusAssign => some (combine .subtract)
  | .asteriskAssign => some (combine .multiply)
  | .slashAssign => some (combine .divide)
  | .percentAssign => some (combine .remainder)
  | _ => none

end AssignmentOperator

/-- Counting up or down by one. -/
inductive UpdateOperator where
  | increment
  | decrement
  deriving DecidableEq, Repr

namespace UpdateOperator

/-- The spelling of an operator. -/
def text : UpdateOperator → String
  | increment => "++"
  | decrement => "--"

end UpdateOperator

/-- Whether an update stands in front of its target or after it. -/
inductive Fixity where
  | before
  | after
  deriving DecidableEq, Repr

namespace Fixity

/-- The name of a fixity in messages and listings. -/
def text : Fixity → String
  | before => "prefix"
  | after => "postfix"

end Fixity

/-- The key of a property in an object literal. -/
inductive PropertyKey where
  | name (token : Token)
  | string (token : Token) (quote : Char)
  | number (token : Token) (value : Float)

mutual

/-- Expressions. -/
inductive Expression where
  | name (token : Token)
  | number (token : Token) (value : Float)
  | string (token : Token) (quote : Char)
  | boolean (token : Token) (value : Bool)
  | regex (token : Token) (pattern flags : String)
  | this (token : Token)
  | function (literal : FunctionLiteral)
  | array (token : Token) (elements : List Expression)
  | object (token : Token) (properties : List Property)
  | unary (token : Token) (operator : UnaryOperator) (operand : Expression)
  | typeof (token : Token) (operand : Expression)
  | delete (token : Token) (target : Expression)
  | binary (token : Token) (operator : InfixOperator) (left right : Expression)
  | assign (token : Token) (operator : AssignmentOperator) (target value : Expression)
  | update (token : Token) (operator : UpdateOperator) (fixity : Fixity) (target : Expression)
  | conditional (token : Token) (condition consequence alternative : Expression)
  | sequence (token : Token) (first : Expression) (rest : List Expression)
  | call (token : Token) (callee : Expression) (arguments : List Expression)
  | construct (token : Token) (constructor : Expression) (arguments : List Expression)
  | member (token : Token) (object : Expression) (property : Token)
  | index (token : Token) (object key : Expression)

/-- One `key: value` entry of an object literal. -/
inductive Property where
  | mk (key : PropertyKey) (value : Expression)

/-- A function with its optional name, its parameters and the statements between its braces. -/
inductive FunctionLiteral where
  | mk (token : Token) (name : Option Token) (parameters : List Token) (body : List Statement)

/-- One `name = value` part of a `var` statement. -/
inductive Declarator where
  | mk (name : Token) (value : Option Expression)

/-- One `case` or `default` clause of a `switch` statement. -/
inductive Clause where
  | mk (token : Token) (condition : Option Expression) (body : List Statement)

/-- Statements. -/
inductive Statement where
  | declare (token : Token) (declarators : List Declarator)
  | giveBack (token : Token) (value : Option Expression)
  | expression (token : Token) (value : Expression)
  | empty (token : Token)
  | block (token : Token) (body : List Statement)
  | branch (token : Token) (condition : Expression) (consequence : Statement)
      (alternative : Option Statement)
  | whileLoop (token : Token) (condition : Expression) (body : Statement)
  | forLoop (token : Token) (initializer : Option Statement) (condition update : Option Expression)
      (body : Statement)
  | forIn (token : Token) (name : Token) (declares : Bool) (subject : Expression)
      (body : Statement)
  | labeled (label : Token) (body : Statement)
  | leave (token : Token) (label : Option Token)
  | again (token : Token) (label : Option Token)
  | select (token : Token) (subject : Expression) (clauses : List Clause)
  | function (token : Token) (literal : FunctionLiteral)

end

end ScriptEngine
