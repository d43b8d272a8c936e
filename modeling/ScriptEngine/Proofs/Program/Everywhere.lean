import ScriptEngine.Program.Tree

namespace ScriptEngine

/-!
# What holds everywhere in a tree

A property of expressions holds everywhere in a program if it holds of every expression
that stands in it, however deep, and also of those in the bodies of functions.
-/

variable (holds : Expression → Prop)

mutual

/-- It holds of an expression and of all expressions in it. -/
@[simp] def Expression.Everywhere : Expression → Prop
  | .name token => holds (.name token)
  | .number token value => holds (.number token value)
  | .string token quote => holds (.string token quote)
  | .boolean token value => holds (.boolean token value)
  | .regex token pattern flags => holds (.regex token pattern flags)
  | .this token => holds (.this token)
  | .function literal => holds (.function literal) ∧ literal.Everywhere
  | .array token elements => holds (.array token elements) ∧ Expression.AllEverywhere elements
  | .object token properties => holds (.object token properties) ∧ Property.AllEverywhere properties
  | .unary token operator operand => holds (.unary token operator operand) ∧ operand.Everywhere
  | .typeof token operand => holds (.typeof token operand) ∧ operand.Everywhere
  | .delete token target => holds (.delete token target) ∧ target.Everywhere
  | .binary token operator left right =>
      holds (.binary token operator left right) ∧ left.Everywhere ∧ right.Everywhere
  | .assign token operator target value =>
      holds (.assign token operator target value) ∧ target.Everywhere ∧ value.Everywhere
  | .update token operator fixity target =>
      holds (.update token operator fixity target) ∧ target.Everywhere
  | .conditional token condition consequence alternative =>
      holds (.conditional token condition consequence alternative) ∧ condition.Everywhere ∧
        consequence.Everywhere ∧ alternative.Everywhere
  | .sequence token first rest =>
      holds (.sequence token first rest) ∧ first.Everywhere ∧ Expression.AllEverywhere rest
  | .call token callee arguments =>
      holds (.call token callee arguments) ∧ callee.Everywhere ∧
        Expression.AllEverywhere arguments
  | .construct token constructor arguments =>
      holds (.construct token constructor arguments) ∧ constructor.Everywhere ∧
        Expression.AllEverywhere arguments
  | .member token object property => holds (.member token object property) ∧ object.Everywhere
  | .index token object key => holds (.index token object key) ∧ object.Everywhere ∧ key.Everywhere

/-- It holds of all expressions in a list. -/
@[simp] def Expression.AllEverywhere : List Expression → Prop
  | [] => True
  | first :: rest => first.Everywhere ∧ Expression.AllEverywhere rest

/-- It holds of all expressions in one that may be left out. -/
@[simp] def Expression.OptionEverywhere : Option Expression → Prop
  | none => True
  | some value => value.Everywhere

/-- It holds of all expressions in properties. -/
@[simp] def Property.AllEverywhere : List Property → Prop
  | [] => True
  | .mk _ value :: rest => value.Everywhere ∧ Property.AllEverywhere rest

/-- It holds of all expressions in a function. -/
@[simp] def FunctionLiteral.Everywhere : FunctionLiteral → Prop
  | .mk _ _ _ body => Statement.AllEverywhere body

/-- It holds of all expressions in declared variables. -/
@[simp] def Declarator.AllEverywhere : List Declarator → Prop
  | [] => True
  | .mk _ value :: rest => Expression.OptionEverywhere value ∧ Declarator.AllEverywhere rest

/-- It holds of all expressions in clauses. -/
@[simp] def Clause.AllEverywhere : List Clause → Prop
  | [] => True
  | .mk _ condition body :: rest =>
      Expression.OptionEverywhere condition ∧ Statement.AllEverywhere body ∧
        Clause.AllEverywhere rest

/-- It holds of all expressions in a statement. -/
@[simp] def Statement.Everywhere : Statement → Prop
  | .declare _ declarators => Declarator.AllEverywhere declarators
  | .giveBack _ value => Expression.OptionEverywhere value
  | .expression _ value => value.Everywhere
  | .empty _ | .leave _ _ | .again _ _ => True
  | .block _ body => Statement.AllEverywhere body
  | .branch _ condition consequence alternative =>
      condition.Everywhere ∧ consequence.Everywhere ∧ Statement.OptionEverywhere alternative
  | .whileLoop _ condition body => condition.Everywhere ∧ body.Everywhere
  | .forLoop _ start condition update body =>
      Statement.OptionEverywhere start ∧ Expression.OptionEverywhere condition ∧
        Expression.OptionEverywhere update ∧ body.Everywhere
  | .forIn _ _ _ subject body => subject.Everywhere ∧ body.Everywhere
  | .labeled _ body => body.Everywhere
  | .select _ subject clauses => subject.Everywhere ∧ Clause.AllEverywhere clauses
  | .function _ literal => literal.Everywhere

/-- It holds of all expressions in statements. -/
@[simp] def Statement.AllEverywhere : List Statement → Prop
  | [] => True
  | first :: rest => first.Everywhere ∧ Statement.AllEverywhere rest

/-- It holds of all expressions in a statement that may be left out. -/
@[simp] def Statement.OptionEverywhere : Option Statement → Prop
  | none => True
  | some statement => statement.Everywhere

end

end ScriptEngine

namespace ScriptEngine

/-!
## Expressions that stand as statements

A property of expressions holds of what stands in a program if it holds of every expression
that is a statement of it, however deep, and also in the bodies of functions.  Of an expression
inside another one nothing is asked, only of the functions in it.
-/

variable (holds : Expression → Prop)

mutual

/-- It holds of what stands in the functions of an expression. -/
def Expression.Standing : Expression → Prop
  | .name _ | .number _ _ | .string _ _ | .boolean _ _ | .regex _ _ _ | .this _ => True
  | .function literal => literal.Standing
  | .array _ elements => Expression.AllStanding elements
  | .object _ properties => Property.AllStanding properties
  | .unary _ _ operand | .typeof _ operand | .delete _ operand | .update _ _ _ operand =>
      operand.Standing
  | .binary _ _ left right | .assign _ _ left right => left.Standing ∧ right.Standing
  | .conditional _ condition consequence alternative =>
      condition.Standing ∧ consequence.Standing ∧ alternative.Standing
  | .sequence _ first rest => first.Standing ∧ Expression.AllStanding rest
  | .call _ callee arguments | .construct _ callee arguments =>
      callee.Standing ∧ Expression.AllStanding arguments
  | .member _ object _ => object.Standing
  | .index _ object key => object.Standing ∧ key.Standing

/-- It holds of what stands in expressions. -/
def Expression.AllStanding : List Expression → Prop
  | [] => True
  | first :: rest => first.Standing ∧ Expression.AllStanding rest

/-- It holds of what stands in an expression that may be left out. -/
def Expression.OptionStanding : Option Expression → Prop
  | none => True
  | some value => value.Standing

/-- It holds of what stands in properties. -/
def Property.AllStanding : List Property → Prop
  | [] => True
  | .mk _ value :: rest => value.Standing ∧ Property.AllStanding rest

/-- It holds of what stands in a function. -/
def FunctionLiteral.Standing : FunctionLiteral → Prop
  | .mk _ _ _ body => Statement.AllStanding body

/-- It holds of what stands in declared variables. -/
def Declarator.AllStanding : List Declarator → Prop
  | [] => True
  | .mk _ value :: rest => Expression.OptionStanding value ∧ Declarator.AllStanding rest

/-- It holds of what stands in clauses. -/
def Clause.AllStanding : List Clause → Prop
  | [] => True
  | .mk _ condition body :: rest =>
      Expression.OptionStanding condition ∧ Statement.AllStanding body ∧ Clause.AllStanding rest

/-- It holds of an expression that is a statement, and of what stands in other statements. -/
def Statement.Standing : Statement → Prop
  | .declare _ declarators => Declarator.AllStanding declarators
  | .giveBack _ value => Expression.OptionStanding value
  | .expression _ value => holds value ∧ value.Standing
  | .empty _ | .leave _ _ | .again _ _ => True
  | .block _ body => Statement.AllStanding body
  | .branch _ condition consequence alternative =>
      condition.Standing ∧ consequence.Standing ∧ Statement.OptionStanding alternative
  | .whileLoop _ condition body => condition.Standing ∧ body.Standing
  | .forLoop _ start condition update body =>
      Statement.OptionStanding start ∧ Expression.OptionStanding condition ∧
        Expression.OptionStanding update ∧ body.Standing
  | .forIn _ _ _ subject body => subject.Standing ∧ body.Standing
  | .labeled _ body => body.Standing
  | .select _ subject clauses => subject.Standing ∧ Clause.AllStanding clauses
  | .function _ literal => literal.Standing

/-- It holds of what stands in statements. -/
def Statement.AllStanding : List Statement → Prop
  | [] => True
  | first :: rest => first.Standing ∧ Statement.AllStanding rest

/-- It holds of what stands in a statement that may be left out. -/
def Statement.OptionStanding : Option Statement → Prop
  | none => True
  | some statement => statement.Standing

end

end ScriptEngine
