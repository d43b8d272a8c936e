import ScriptEngine.Proofs.Program.Rereading
import ScriptEngine.Proofs.Token.Alone

namespace ScriptEngine

/-!
# Trees that their texts show

The outline of a tree is the tree apart from where its tokens stand.  A tree need not be
shown by its text: where the text leaves out parentheses that are needed, or takes the
quotes from a name, another tree is shown, or none.  A tree is legible if this happens
nowhere in it.
-/

/-! ## Outlines -/

/-- A key apart from where its token stands. -/
def PropertyKey.outline : PropertyKey → PropertyKey
  | .name token => .name token.unplaced
  | .string token quote => .string token.unplaced quote
  | .number token value => .number token.unplaced value

mutual

/-- An expression apart from where its tokens stand. -/
def Expression.outline : Expression → Expression
  | .name token => .name token.unplaced
  | .number token value => .number token.unplaced value
  | .string token quote => .string token.unplaced quote
  | .boolean token value => .boolean token.unplaced value
  | .regex token pattern flags => .regex token.unplaced pattern flags
  | .this token => .this token.unplaced
  | .function literal => .function literal.outline
  | .array token elements => .array token.unplaced (Expression.outlines elements)
  | .object token properties => .object token.unplaced (Property.outlines properties)
  | .unary token operator operand => .unary token.unplaced operator operand.outline
  | .typeof token operand => .typeof token.unplaced operand.outline
  | .delete token target => .delete token.unplaced target.outline
  | .binary token operator left right => .binary token.unplaced operator left.outline right.outline
  | .assign token operator target value =>
      .assign token.unplaced operator target.outline value.outline
  | .update token operator fixity target => .update token.unplaced operator fixity target.outline
  | .conditional token condition consequence alternative =>
      .conditional token.unplaced condition.outline consequence.outline alternative.outline
  | .sequence token first rest => .sequence token.unplaced first.outline (Expression.outlines rest)
  | .call token callee arguments =>
      .call token.unplaced callee.outline (Expression.outlines arguments)
  | .construct token constructor arguments =>
      .construct token.unplaced constructor.outline (Expression.outlines arguments)
  | .member token object property => .member token.unplaced object.outline property.unplaced
  | .index token object key => .index token.unplaced object.outline key.outline

/-- Expressions apart from where their tokens stand. -/
def Expression.outlines : List Expression → List Expression
  | [] => []
  | first :: rest => first.outline :: Expression.outlines rest

/-- An expression that may be missing, apart from where its tokens stand. -/
def Expression.outlineOption : Option Expression → Option Expression
  | none => none
  | some value => some value.outline

/-- Properties apart from where their tokens stand. -/
def Property.outlines : List Property → List Property
  | [] => []
  | .mk key value :: rest => .mk key.outline value.outline :: Property.outlines rest

/-- A function apart from where its tokens stand. -/
def FunctionLiteral.outline : FunctionLiteral → FunctionLiteral
  | .mk token name parameters body =>
      .mk token.unplaced (name.map Token.unplaced) (parameters.map Token.unplaced)
        (Statement.outlines body)

/-- Declared variables apart from where their tokens stand. -/
def Declarator.outlines : List Declarator → List Declarator
  | [] => []
  | .mk name value :: rest =>
      .mk name.unplaced (Expression.outlineOption value) :: Declarator.outlines rest

/-- Clauses apart from where their tokens stand. -/
def Clause.outlines : List Clause → List Clause
  | [] => []
  | .mk token condition body :: rest =>
      .mk token.unplaced (Expression.outlineOption condition) (Statement.outlines body) ::
        Clause.outlines rest

/--
A statement apart from where its tokens stand.  An expression as a statement keeps the
token in front of it, which only tells where it starts.
-/
def Statement.outline : Statement → Statement
  | .declare token declarators => .declare token.unplaced (Declarator.outlines declarators)
  | .giveBack token value => .giveBack token.unplaced (Expression.outlineOption value)
  | .expression _ value => .expression Token.absent value.outline
  | .empty token => .empty token.unplaced
  | .block token body => .block token.unplaced (Statement.outlines body)
  | .branch token condition consequence alternative =>
      .branch token.unplaced condition.outline consequence.outline
        (Statement.outlineOption alternative)
  | .whileLoop token condition body => .whileLoop token.unplaced condition.outline body.outline
  | .forLoop token start condition update body =>
      .forLoop token.unplaced (Statement.outlineOption start) (Expression.outlineOption condition)
        (Expression.outlineOption update) body.outline
  | .forIn token name declares subject body =>
      .forIn token.unplaced name.unplaced declares subject.outline body.outline
  | .labeled label body => .labeled label.unplaced body.outline
  | .leave token label => .leave token.unplaced (label.map Token.unplaced)
  | .again token label => .again token.unplaced (label.map Token.unplaced)
  | .select token subject clauses => .select token.unplaced subject.outline (Clause.outlines clauses)
  | .function token literal => .function token.unplaced literal.outline

/-- Statements apart from where their tokens stand. -/
def Statement.outlines : List Statement → List Statement
  | [] => []
  | first :: rest => first.outline :: Statement.outlines rest

/-- A statement that may be missing, apart from where its tokens stand. -/
def Statement.outlineOption : Option Statement → Option Statement
  | none => none
  | some statement => some statement.outline

end

section

-- Marked here, the equations of outlines are made once and not anew in every proof.
attribute [local simp] Expression.outline FunctionLiteral.outline Statement.outline

theorem FunctionLiteral.token_outline (literal : FunctionLiteral) :
    literal.outline.token = literal.token.unplaced := by
  cases literal
  simp [FunctionLiteral.token]

/-- A function that stands as a statement is outlined as its outline. -/
theorem Statement.outline_function
    {token : Token}
    {literal : FunctionLiteral}
    (isSame : token.unplaced = literal.token.unplaced) :
    (Statement.function token literal).outline =
      .function literal.outline.token literal.outline := by
  simp [FunctionLiteral.token_outline, isSame]

namespace Expression

theorem outlines_of_forall₂
    {elements values : List Expression}
    (same : List.Forall₂ (fun element value => value.outline = element.outline) elements values) :
    outlines values = outlines elements := by
  induction same with
  | nil => rfl
  | cons isSame _ inductionHypothesis => rw [outlines, isSame, inductionHypothesis, ← outlines]

theorem isSequence_outline (expression : Expression) :
    expression.outline.isSequence = expression.isSequence := by
  cases expression <;> simp [isSequence]

theorem isSequence_of_outline
    {value expression : Expression}
    (same : value.outline = expression.outline) :
    value.isSequence = expression.isSequence := by
  rw [← isSequence_outline value, same, isSequence_outline]

end Expression

end

/-! ## Trees that are shown -/

namespace Expression

/-- The expression that the text of an expression starts with, with no mark in front of it. -/
def front : Expression → Expression
  | .assign _ _ target _ => target.front
  | .call _ callee _ => callee.front
  | .member _ base _ => base.front
  | .index _ base _ => base.front
  | other => other

/-- Whether an expression is a regular expression. -/
def isRegex : Expression → Bool
  | .regex _ _ _ => true
  | _ => false

/-- Whether an expression would open a block or declare a function as a statement. -/
def opensBlock : Expression → Bool
  | .object _ _ => true
  | .function literal => literal.name.isSome
  | _ => false

/-- Whether an expression is an assignment, which is shown without parentheses. -/
def isAssignment : Expression → Bool
  | .assign _ _ _ _ => true
  | _ => false

/-- Whether a slash behind the text of an expression divides. -/
def mayDivide (expression : Expression) : Bool := expression.closes.endsOperand

/-- The tightest binding in front of the text of an expression that does not cut it. -/
def tightest (expression : Expression) : Nat :=
  if expression.isAssignment then 2 else Parser.limitOf expression

end Expression

/-- Whether a statement is an expression that starts with a regular expression. -/
def Statement.startsRegex : Statement → Bool
  | .expression _ value => value.front.isRegex
  | _ => false

mutual

/--
Whether the text of an expression shows it.  No assignment is an operand, no called
constructor is called in between, no quotient starts with a brace or a word, no regular
expression stands right behind a sign, no string names a member, and functions are
legible.
-/
def Expression.isLegible : Expression → Bool
  | .name _ | .number _ _ | .string _ _ | .boolean _ _ | .regex _ _ _ | .this _ => true
  | .function literal => literal.isLegible
  | .array _ elements => Expression.areLegible elements
  | .object _ properties => Property.areLegible properties
  | .unary _ _ operand | .typeof _ operand | .delete _ operand =>
      !operand.isAssignment && operand.isLegible
  | .binary _ operator left right =>
      !left.isAssignment && !right.isAssignment &&
        (operator != .strict .divide || left.mayDivide) && left.isLegible && right.isLegible
  | .assign _ operator target value =>
      !target.isAssignment && (operator != .combine .divide || target.mayDivide) &&
        target.isLegible && value.isLegible
  | .update _ _ fixity target =>
      !target.isAssignment && (fixity != .before || !target.front.isRegex) && target.isLegible
  | .conditional _ condition consequence alternative =>
      !condition.isAssignment && condition.isLegible && consequence.isLegible &&
        alternative.isLegible
  | .sequence _ first rest => first.isLegible && Expression.areLegible rest
  | .call _ callee arguments =>
      !callee.isAssignment && callee.isLegible && Expression.areLegible arguments
  | .construct _ constructor arguments =>
      !constructor.isAssignment && !constructor.callsOnSpine && constructor.isLegible &&
        Expression.areLegible arguments
  | .member _ base property => !base.isAssignment && property.kind != .string && base.isLegible
  | .index _ base key => !base.isAssignment && base.isLegible && key.isLegible

/-- Whether the texts of expressions show them. -/
def Expression.areLegible : List Expression → Bool
  | [] => true
  | first :: rest => first.isLegible && Expression.areLegible rest

/-- Whether the text of an expression, if there is one, shows it. -/
def Expression.optionLegible : Option Expression → Bool
  | none => true
  | some value => value.isLegible

/-- Whether the texts of properties show them. -/
def Property.areLegible : List Property → Bool
  | [] => true
  | .mk _ value :: rest => value.isLegible && Property.areLegible rest

/-- Whether the text of a function shows it. -/
def FunctionLiteral.isLegible : FunctionLiteral → Bool
  | .mk _ _ _ body => Statement.areLegible body

/-- Whether the texts of declared variables show them. -/
def Declarator.areLegible : List Declarator → Bool
  | [] => true
  | .mk _ value :: rest => Expression.optionLegible value && Declarator.areLegible rest

/-- Whether the texts of clauses show them. -/
def Clause.areLegible : List Clause → Bool
  | [] => true
  | .mk _ condition body :: rest =>
      Expression.optionLegible condition && Statement.areLegible body && Clause.areLegible rest

/--
Whether the text of a statement shows it.  No expression opens a block or declares a
function, and no regular expression stands right behind a parenthesis.
-/
def Statement.isLegible : Statement → Bool
  | .declare _ declarators => Declarator.areLegible declarators
  | .giveBack _ value => Expression.optionLegible value
  | .expression _ value => !value.front.opensBlock && value.isLegible
  | .empty _ | .leave _ _ | .again _ _ => true
  | .block _ body => Statement.areLegible body
  | .branch _ condition consequence alternative =>
      condition.isLegible && !consequence.startsRegex && consequence.isLegible &&
        Statement.optionLegible alternative
  | .whileLoop _ condition body => condition.isLegible && !body.startsRegex && body.isLegible
  | .forLoop _ start condition update body =>
      Statement.headLegible start && Expression.optionLegible condition &&
        Expression.optionLegible update && !body.startsRegex && body.isLegible
  | .forIn _ _ _ subject body => subject.isLegible && !body.startsRegex && body.isLegible
  | .labeled _ body => body.isLegible
  | .select _ subject clauses => subject.isLegible && Clause.areLegible clauses
  | .function _ literal => literal.isLegible

/-- Whether the texts of statements show them. -/
def Statement.areLegible : List Statement → Bool
  | [] => true
  | first :: rest => first.isLegible && Statement.areLegible rest

/-- Whether the text of a statement, if there is one, shows it. -/
def Statement.optionLegible : Option Statement → Bool
  | none => true
  | some statement => statement.isLegible

/-- Whether the text of the start of a loop shows it; an expression may open anything there. -/
def Statement.headLegible : Option Statement → Bool
  | none => true
  | some (.expression _ value) => value.isLegible
  | some (.declare _ declarators) => Declarator.areLegible declarators
  | some _ => true

end

end ScriptEngine
