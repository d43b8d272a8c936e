import ScriptEngine.Program.Printer

namespace ScriptEngine

/-!
# The parts that no tree is without

Most parts of a node are there by its type.  What the type leaves open is said here: a
`var` statement declares something, a sequence has two elements, a declared function has
a name, and a loop starts with a declaration or an expression, if with anything.
-/

/-- A statement that may stand in front of the first semicolon of a loop. -/
def Statement.StartsLoop : Statement → Prop
  | .declare _ _ | .expression _ _ => True
  | _ => False

mutual

/-- No part is missing from an expression. -/
@[simp] def Expression.Complete : Expression → Prop
  | .name _ | .number _ _ | .string _ _ | .boolean _ _ | .regex _ _ _ | .this _ => True
  | .function literal => literal.Complete
  | .array _ elements => Expression.AllComplete elements
  | .object _ properties => Property.AllComplete properties
  | .unary _ _ operand => operand.Complete
  | .typeof _ operand => operand.Complete
  | .delete _ target => target.Complete
  | .binary _ _ left right => left.Complete ∧ right.Complete
  | .assign _ _ target value => target.Complete ∧ value.Complete
  | .update _ _ _ target => target.Complete
  | .conditional _ condition consequence alternative =>
      condition.Complete ∧ consequence.Complete ∧ alternative.Complete
  | .sequence _ first rest => first.Complete ∧ rest ≠ [] ∧ Expression.AllComplete rest
  | .call _ callee arguments => callee.Complete ∧ Expression.AllComplete arguments
  | .construct _ constructor arguments => constructor.Complete ∧ Expression.AllComplete arguments
  | .member _ object _ => object.Complete
  | .index _ object key => object.Complete ∧ key.Complete

/-- No part is missing from expressions. -/
@[simp] def Expression.AllComplete : List Expression → Prop
  | [] => True
  | first :: rest => first.Complete ∧ Expression.AllComplete rest

/-- No part is missing from an expression that may be left out. -/
@[simp] def Expression.OptionComplete : Option Expression → Prop
  | none => True
  | some value => value.Complete

/-- No part is missing from properties. -/
@[simp] def Property.AllComplete : List Property → Prop
  | [] => True
  | .mk _ value :: rest => value.Complete ∧ Property.AllComplete rest

/-- No part is missing from a function. -/
@[simp] def FunctionLiteral.Complete : FunctionLiteral → Prop
  | .mk _ _ _ body => Statement.AllComplete body

/-- No part is missing from declared variables. -/
@[simp] def Declarator.AllComplete : List Declarator → Prop
  | [] => True
  | .mk _ value :: rest => Expression.OptionComplete value ∧ Declarator.AllComplete rest

/-- No part is missing from clauses. -/
@[simp] def Clause.AllComplete : List Clause → Prop
  | [] => True
  | .mk _ condition body :: rest =>
      Expression.OptionComplete condition ∧ Statement.AllComplete body ∧ Clause.AllComplete rest

/-- No part is missing from a statement. -/
@[simp] def Statement.Complete : Statement → Prop
  | .declare _ declarators => declarators ≠ [] ∧ Declarator.AllComplete declarators
  | .giveBack _ value => Expression.OptionComplete value
  | .expression _ value => value.Complete
  | .empty _ | .leave _ _ | .again _ _ => True
  | .block _ body => Statement.AllComplete body
  | .branch _ condition consequence alternative =>
      condition.Complete ∧ consequence.Complete ∧ Statement.OptionComplete alternative
  | .whileLoop _ condition body => condition.Complete ∧ body.Complete
  | .forLoop _ start condition update body =>
      (∀ statement ∈ start, statement.StartsLoop) ∧ Statement.OptionComplete start ∧
        Expression.OptionComplete condition ∧ Expression.OptionComplete update ∧ body.Complete
  | .forIn _ _ _ subject body => subject.Complete ∧ body.Complete
  | .labeled _ body => body.Complete
  | .select _ subject clauses => subject.Complete ∧ Clause.AllComplete clauses
  | .function _ literal => literal.name.isSome ∧ literal.Complete

/-- No part is missing from statements. -/
@[simp] def Statement.AllComplete : List Statement → Prop
  | [] => True
  | first :: rest => first.Complete ∧ Statement.AllComplete rest

/-- No part is missing from a statement that may be left out. -/
@[simp] def Statement.OptionComplete : Option Statement → Prop
  | none => True
  | some statement => statement.Complete

end

theorem Expression.allComplete_iff (expressions : List Expression) :
    Expression.AllComplete expressions ↔ ∀ expression ∈ expressions, expression.Complete := by
  induction expressions with
  | nil => simp
  | cons first rest inductionHypothesis => simp [inductionHypothesis]

/-!
## The tokens of a tree

Every node of a program keeps the tokens it was read from.  What is known of all
tokens of a program is therefore known of every token that an error of the
program is told by.
-/

namespace Token

/-- All tokens of a list are known. -/
def Known (known : Token → Prop) (tokens : List Token) : Prop := ∀ token ∈ tokens, known token

variable {known : Token → Prop}

@[simp] theorem known_nil : Known known [] := by
  simp [Known]

@[simp] theorem known_cons (token : Token) (tokens : List Token) :
    Known known (token :: tokens) ↔ known token ∧ Known known tokens :=
  List.forall_mem_cons

@[simp] theorem known_append (front back : List Token) :
    Known known (front ++ back) ↔ Known known front ∧ Known known back :=
  List.forall_mem_append

end Token

/-- The token of a key. -/
def PropertyKey.token : PropertyKey → Token
  | .name token | .string token _ | .number token _ => token

mutual

/-- The tokens kept in an expression. -/
def Expression.tokens : Expression → List Token
  | .name token | .number token _ | .string token _ | .boolean token _ | .regex token _ _
  | .this token => [token]
  | .function literal => literal.tokens
  | .array token elements => token :: Expression.tokensAll elements
  | .object token properties => token :: Property.tokensAll properties
  | .unary token _ operand => token :: operand.tokens
  | .typeof token operand => token :: operand.tokens
  | .delete token target => token :: target.tokens
  | .binary token _ left right => token :: (left.tokens ++ right.tokens)
  | .assign token _ target value => token :: (target.tokens ++ value.tokens)
  | .update token _ _ target => token :: target.tokens
  | .conditional token condition consequence alternative =>
      token :: (condition.tokens ++ consequence.tokens ++ alternative.tokens)
  | .sequence token first rest => token :: (first.tokens ++ Expression.tokensAll rest)
  | .call token callee arguments => token :: (callee.tokens ++ Expression.tokensAll arguments)
  | .construct token constructor arguments =>
      token :: (constructor.tokens ++ Expression.tokensAll arguments)
  | .member token object property => token :: property :: object.tokens
  | .index token object key => token :: (object.tokens ++ key.tokens)

/-- The tokens kept in expressions. -/
def Expression.tokensAll : List Expression → List Token
  | [] => []
  | first :: rest => first.tokens ++ Expression.tokensAll rest

/-- The tokens kept in an expression that may be missing. -/
def Expression.tokensOption : Option Expression → List Token
  | none => []
  | some value => value.tokens

/-- The tokens kept in properties. -/
def Property.tokensAll : List Property → List Token
  | [] => []
  | .mk key value :: rest => key.token :: (value.tokens ++ Property.tokensAll rest)

/-- The tokens kept in a function. -/
def FunctionLiteral.tokens : FunctionLiteral → List Token
  | .mk token name parameters body =>
      token :: (name.toList ++ parameters ++ Statement.tokensAll body)

/-- The tokens kept in declared variables. -/
def Declarator.tokensAll : List Declarator → List Token
  | [] => []
  | .mk name value :: rest => name :: (Expression.tokensOption value ++ Declarator.tokensAll rest)

/-- The tokens kept in clauses. -/
def Clause.tokensAll : List Clause → List Token
  | [] => []
  | .mk token condition body :: rest =>
      token :: (Expression.tokensOption condition ++ Statement.tokensAll body ++
        Clause.tokensAll rest)

/-- The tokens kept in a statement. -/
def Statement.tokens : Statement → List Token
  | .declare token declarators => token :: Declarator.tokensAll declarators
  | .giveBack token value => token :: Expression.tokensOption value
  | .expression token value => token :: value.tokens
  | .empty token => [token]
  | .block token body => token :: Statement.tokensAll body
  | .branch token condition consequence alternative =>
      token :: (condition.tokens ++ consequence.tokens ++ Statement.tokensOption alternative)
  | .whileLoop token condition body => token :: (condition.tokens ++ body.tokens)
  | .forLoop token start condition update body =>
      token :: (Statement.tokensOption start ++ Expression.tokensOption condition ++
        Expression.tokensOption update ++ body.tokens)
  | .forIn token name _ subject body => token :: name :: (subject.tokens ++ body.tokens)
  | .labeled label body => label :: body.tokens
  | .leave token label => token :: label.toList
  | .again token label => token :: label.toList
  | .select token subject clauses => token :: (subject.tokens ++ Clause.tokensAll clauses)
  | .function token literal => token :: literal.tokens

/-- The tokens kept in statements. -/
def Statement.tokensAll : List Statement → List Token
  | [] => []
  | first :: rest => first.tokens ++ Statement.tokensAll rest

/-- The tokens kept in a statement that may be missing. -/
def Statement.tokensOption : Option Statement → List Token
  | none => []
  | some statement => statement.tokens

end

/-- The token an expression starts with is kept in it. -/
theorem Expression.startToken_mem_tokens :
    ∀ expression : Expression, expression.startToken ∈ expression.tokens
  | .name _ | .number _ _ | .string _ _ | .boolean _ _ | .regex _ _ _ | .this _ => by
      simp [startToken, tokens]
  | .function (.mk _ _ _ _) => by
      simp [startToken, tokens, FunctionLiteral.token, FunctionLiteral.tokens]
  | .array _ _ | .object _ _ | .unary _ _ _ | .typeof _ _ | .delete _ _ | .construct _ _ _
  | .update _ _ .before _ => by
      simp [startToken, tokens]
  | .binary _ _ left _ => by
      simp [startToken, tokens, startToken_mem_tokens left]
  | .assign _ _ target _ => by
      simp [startToken, tokens, startToken_mem_tokens target]
  | .update _ _ .after target => by
      simp [startToken, tokens, startToken_mem_tokens target]
  | .conditional _ condition _ _ => by
      simp [startToken, tokens, startToken_mem_tokens condition]
  | .sequence _ first _ => by
      simp [startToken, tokens, startToken_mem_tokens first]
  | .call _ callee _ => by
      simp [startToken, tokens, startToken_mem_tokens callee]
  | .member _ base _ => by
      simp [startToken, tokens, startToken_mem_tokens base]
  | .index _ base _ => by
      simp [startToken, tokens, startToken_mem_tokens base]

end ScriptEngine
