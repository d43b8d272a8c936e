import ScriptEngine.Program.Tree

namespace ScriptEngine

/-!
# The text of a program

A tree is written back as a text with every operator in parentheses.  The text
shows in assertion messages and in the dump of a program.
-/

/-- Texts with a separator between them. -/
def separated (separator : String) (parts : List String) : String :=
  separator.intercalate parts

namespace PropertyKey

/-- A key as it was written. -/
def text : PropertyKey → String
  | name token => token.literal
  | string token quote => String.singleton quote ++ token.literal ++ String.singleton quote
  | number token _ => token.literal

end PropertyKey

mutual

/-- The text of an expression. -/
def Expression.text : Expression → String
  | .name token => token.literal
  | .number token _ => token.literal
  | .string token quote => String.singleton quote ++ token.literal ++ String.singleton quote
  | .boolean _ value => if value then "true" else "false"
  | .regex _ pattern flags => "/" ++ pattern ++ "/" ++ flags
  | .this _ => "this"
  | .function literal => literal.text
  | .array _ elements => "[" ++ separated ", " (Expression.texts elements) ++ "]"
  | .object _ properties => "\x7b" ++ separated ", " (Property.texts properties) ++ "\x7d"
  | .unary _ .void operand => "(void " ++ operand.text ++ ")"
  | .unary _ operator operand => "(" ++ operator.text ++ operand.text ++ ")"
  | .typeof _ operand => "(typeof " ++ operand.text ++ ")"
  | .delete _ target => "(delete " ++ target.text ++ ")"
  | .binary _ operator left right =>
      "(" ++ left.text ++ " " ++ operator.text ++ " " ++ right.text ++ ")"
  | .assign _ operator target value => target.text ++ " " ++ operator.text ++ " " ++ value.text
  | .update _ operator .before target => "(" ++ operator.text ++ target.text ++ ")"
  | .update _ operator .after target => "(" ++ target.text ++ operator.text ++ ")"
  | .conditional _ condition consequence alternative =>
      "(" ++ condition.text ++ " ? " ++ consequence.text ++ " : " ++ alternative.text ++ ")"
  | .sequence _ first rest => "(" ++ separated ", " (first.text :: Expression.texts rest) ++ ")"
  | .call _ callee arguments =>
      callee.text ++ "(" ++ separated ", " (Expression.texts arguments) ++ ")"
  | .construct _ constructor arguments =>
      "new " ++ constructor.text ++ "(" ++ separated ", " (Expression.texts arguments) ++ ")"
  | .member _ object property => object.text ++ "." ++ property.literal
  | .index _ object key => object.text ++ "[" ++ key.text ++ "]"

/-- The texts of a list of expressions. -/
def Expression.texts : List Expression → List String
  | [] => []
  | first :: rest => first.text :: Expression.texts rest

/-- The text of a property. -/
def Property.text : Property → String
  | .mk key value => key.text ++ ": " ++ value.text

/-- The texts of a list of properties. -/
def Property.texts : List Property → List String
  | [] => []
  | first :: rest => first.text :: Property.texts rest

/-- The text of a function. -/
def FunctionLiteral.text : FunctionLiteral → String
  | .mk _ name parameters body =>
      let shownName := match name with
        | some token => " " ++ token.literal
        | none => ""
      "function" ++ shownName ++ "(" ++ separated ", " (parameters.map Token.literal) ++ ") \x7b " ++
        String.join (Statement.spaced body) ++ "\x7d"

/-- The text of a declarator. -/
def Declarator.text : Declarator → String
  | .mk name none => name.literal
  | .mk name (some value) => name.literal ++ " = " ++ value.text

/-- The texts of a list of declarators. -/
def Declarator.texts : List Declarator → List String
  | [] => []
  | first :: rest => first.text :: Declarator.texts rest

/-- The text of a clause. -/
def Clause.text : Clause → String
  | .mk _ none body => "default:" ++ String.join (Statement.leading body)
  | .mk _ (some condition) body =>
      "case " ++ condition.text ++ ":" ++ String.join (Statement.leading body)

/-- The texts of a list of clauses, each with a blank after it. -/
def Clause.spaced : List Clause → List String
  | [] => []
  | first :: rest => (first.text ++ " ") :: Clause.spaced rest

/-- The text of a statement. -/
def Statement.text : Statement → String
  | .declare _ declarators => "var " ++ separated ", " (Declarator.texts declarators) ++ ";"
  | .giveBack _ none => "return;"
  | .giveBack _ (some value) => "return " ++ value.text ++ ";"
  | .expression _ value => value.text ++ ";"
  | .empty _ => ";"
  | .block _ body => "\x7b " ++ String.join (Statement.spaced body) ++ "\x7d"
  | .branch _ condition consequence none => "if (" ++ condition.text ++ ") " ++ consequence.text
  | .branch _ condition consequence (some alternative) =>
      "if (" ++ condition.text ++ ") " ++ consequence.text ++ " else " ++ alternative.text
  | .whileLoop _ condition body => "while (" ++ condition.text ++ ") " ++ body.text
  | .forLoop _ initializer condition update body =>
      "for (" ++ Statement.headText initializer ++ "; " ++ Expression.optionText condition ++ "; " ++
        Expression.optionText update ++ ") " ++ body.text
  | .forIn _ name declares subject body =>
      "for (" ++ (if declares then "var " else "") ++ name.literal ++ " in " ++ subject.text ++ ") " ++
        body.text
  | .labeled label body => label.literal ++ ": " ++ body.text
  | .leave _ none => "break;"
  | .leave _ (some label) => "break " ++ label.literal ++ ";"
  | .again _ none => "continue;"
  | .again _ (some label) => "continue " ++ label.literal ++ ";"
  | .select _ subject clauses =>
      "switch (" ++ subject.text ++ ") \x7b " ++ String.join (Clause.spaced clauses) ++ "\x7d"
  | .function _ literal => literal.text

/-- The text of an optional expression, empty when there is none. -/
def Expression.optionText : Option Expression → String
  | none => ""
  | some expression => expression.text

/-- The text of the first clause of a loop head, without its semicolon. -/
def Statement.headText : Option Statement → String
  | none => ""
  | some statement =>
      let chars := statement.text.toList
      String.ofList (if chars.getLast? = some ';' then chars.dropLast else chars)

/-- The texts of a list of statements, each with a blank after it. -/
def Statement.spaced : List Statement → List String
  | [] => []
  | first :: rest => (first.text ++ " ") :: Statement.spaced rest

/-- The texts of a list of statements, each with a blank before it. -/
def Statement.leading : List Statement → List String
  | [] => []
  | first :: rest => (" " ++ first.text) :: Statement.leading rest

end

namespace FunctionLiteral

/-- The token of the word `function`. -/
def token : FunctionLiteral → Token
  | .mk token _ _ _ => token

/-- The name of a function, if it has one. -/
def name : FunctionLiteral → Option Token
  | .mk _ name _ _ => name

end FunctionLiteral

namespace Expression

/-- The token an expression is told by. -/
def token : Expression → Token
  | .name token | .number token _ | .string token _ | .boolean token _ | .regex token _ _
  | .this token | .array token _ | .object token _ | .unary token _ _ | .typeof token _
  | .delete token _ | .binary token _ _ _ | .assign token _ _ _ | .update token _ _ _
  | .conditional token _ _ _ | .sequence token _ _ | .call token _ _ | .construct token _ _
  | .member token _ _ | .index token _ _ => token
  | .function literal => literal.token

/-- The first token of an expression. -/
def startToken : Expression → Token
  | .binary _ _ left _ => left.startToken
  | .assign _ _ target _ => target.startToken
  | .update _ _ .after target => target.startToken
  | .conditional _ condition _ _ => condition.startToken
  | .sequence _ first _ => first.startToken
  | .call _ callee _ => callee.startToken
  | .member _ base _ => base.startToken
  | .index _ base _ => base.startToken
  | .update token _ .before _ => token
  | .name token | .number token _ | .string token _ | .boolean token _ | .regex token _ _
  | .this token | .array token _ | .object token _ | .unary token _ _ | .typeof token _
  | .delete token _ | .construct token _ _ => token
  | .function literal => literal.token

end Expression

namespace Statement

/-- The first token of a statement, which is also the one it is told by. -/
def token : Statement → Token
  | .declare token _ | .giveBack token _ | .expression token _ | .empty token | .block token _
  | .branch token _ _ _ | .whileLoop token _ _ | .forLoop token _ _ _ _ | .forIn token _ _ _ _
  | .labeled token _ | .leave token _ | .again token _ | .select token _ _ | .function token _ =>
      token

end Statement

/-- A program: its statements and the source they were read from. -/
structure Program where
  statements : List Statement
  source : Source

namespace Program

/-- The text of a program, one statement a line. -/
def text (program : Program) : String :=
  String.join (program.statements.map fun statement => statement.text ++ "\n")

/-- The first token of a program, the end of input when it is empty. -/
def startToken (program : Program) : Token :=
  match program.statements with
  | first :: _ => first.token
  | [] => Token.absent

end Program

end ScriptEngine
