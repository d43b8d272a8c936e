import ScriptEngine.Number.Reader
import ScriptEngine.Program.Printer
import ScriptEngine.Token.Scanner

namespace ScriptEngine

/-!
# Operator expressions

The expressions that are made of operands and operators, their trees apart from the
places of their tokens, and the tokens that they are written with.
-/

/-! ## Trees without places -/

namespace Token

/-- A token without the place it stands at. -/
def unplaced (token : Token) : Token :=
  { token with line := 0, column := 0, start := 0, stop := 0, newlineBefore := false }

end Token

/-- A key without the place of its token. -/
def PropertyKey.unplaced : PropertyKey → PropertyKey
  | .name token => .name token.unplaced
  | .string token quote => .string token.unplaced quote
  | .number token value => .number token.unplaced value

mutual

/-- An expression without the places of its tokens. -/
def Expression.unplaced : Expression → Expression
  | .name token => .name token.unplaced
  | .number token value => .number token.unplaced value
  | .string token quote => .string token.unplaced quote
  | .boolean token value => .boolean token.unplaced value
  | .regex token pattern flags => .regex token.unplaced pattern flags
  | .this token => .this token.unplaced
  | .function literal => .function literal.unplaced
  | .array token elements => .array token.unplaced (Expression.unplacedAll elements)
  | .object token properties => .object token.unplaced (Property.unplacedAll properties)
  | .unary token operator operand => .unary token.unplaced operator operand.unplaced
  | .typeof token operand => .typeof token.unplaced operand.unplaced
  | .delete token target => .delete token.unplaced target.unplaced
  | .binary token operator left right =>
      .binary token.unplaced operator left.unplaced right.unplaced
  | .assign token operator target value =>
      .assign token.unplaced operator target.unplaced value.unplaced
  | .update token operator fixity target => .update token.unplaced operator fixity target.unplaced
  | .conditional token condition consequence alternative =>
      .conditional token.unplaced condition.unplaced consequence.unplaced alternative.unplaced
  | .sequence token first rest =>
      .sequence token.unplaced first.unplaced (Expression.unplacedAll rest)
  | .call token callee arguments =>
      .call token.unplaced callee.unplaced (Expression.unplacedAll arguments)
  | .construct token constructor arguments =>
      .construct token.unplaced constructor.unplaced (Expression.unplacedAll arguments)
  | .member token object property => .member token.unplaced object.unplaced property.unplaced
  | .index token object key => .index token.unplaced object.unplaced key.unplaced

/-- Expressions without the places of their tokens. -/
def Expression.unplacedAll : List Expression → List Expression
  | [] => []
  | first :: rest => first.unplaced :: Expression.unplacedAll rest

/-- An expression that may be missing, without the places of its tokens. -/
def Expression.unplacedOption : Option Expression → Option Expression
  | none => none
  | some value => some value.unplaced

/-- Properties without the places of their tokens. -/
def Property.unplacedAll : List Property → List Property
  | [] => []
  | .mk key value :: rest => .mk key.unplaced value.unplaced :: Property.unplacedAll rest

/-- A function without the places of its tokens. -/
def FunctionLiteral.unplaced : FunctionLiteral → FunctionLiteral
  | .mk token name parameters body =>
      .mk token.unplaced (name.map Token.unplaced) (parameters.map Token.unplaced)
        (Statement.unplacedAll body)

/-- Declared variables without the places of their tokens. -/
def Declarator.unplacedAll : List Declarator → List Declarator
  | [] => []
  | .mk name value :: rest =>
      .mk name.unplaced (Expression.unplacedOption value) :: Declarator.unplacedAll rest

/-- Clauses without the places of their tokens. -/
def Clause.unplacedAll : List Clause → List Clause
  | [] => []
  | .mk token condition body :: rest =>
      .mk token.unplaced (Expression.unplacedOption condition) (Statement.unplacedAll body) ::
        Clause.unplacedAll rest

/-- A statement without the places of its tokens. -/
def Statement.unplaced : Statement → Statement
  | .declare token declarators => .declare token.unplaced (Declarator.unplacedAll declarators)
  | .giveBack token value => .giveBack token.unplaced (Expression.unplacedOption value)
  | .expression token value => .expression token.unplaced value.unplaced
  | .empty token => .empty token.unplaced
  | .block token body => .block token.unplaced (Statement.unplacedAll body)
  | .branch token condition consequence alternative =>
      .branch token.unplaced condition.unplaced consequence.unplaced
        (Statement.unplacedOption alternative)
  | .whileLoop token condition body => .whileLoop token.unplaced condition.unplaced body.unplaced
  | .forLoop token start condition update body =>
      .forLoop token.unplaced (Statement.unplacedOption start)
        (Expression.unplacedOption condition) (Expression.unplacedOption update) body.unplaced
  | .forIn token name declares subject body =>
      .forIn token.unplaced name.unplaced declares subject.unplaced body.unplaced
  | .labeled label body => .labeled label.unplaced body.unplaced
  | .leave token label => .leave token.unplaced (label.map Token.unplaced)
  | .again token label => .again token.unplaced (label.map Token.unplaced)
  | .select token subject clauses =>
      .select token.unplaced subject.unplaced (Clause.unplacedAll clauses)
  | .function token literal => .function token.unplaced literal.unplaced

/-- Statements without the places of their tokens. -/
def Statement.unplacedAll : List Statement → List Statement
  | [] => []
  | first :: rest => first.unplaced :: Statement.unplacedAll rest

/-- A statement that may be missing, without the places of its tokens. -/
def Statement.unplacedOption : Option Statement → Option Statement
  | none => none
  | some statement => some statement.unplaced

end

/-! ## Operator expressions -/

namespace Token

/-- A mark or a word at no place. -/
def plain (kind : TokenKind) (literal : String) : Token := ⟨kind, literal, 0, 0, 0, 0, false, none⟩

/-- How a token is written: a string between its quotes, another token as its literal. -/
def writing (token : Token) : List Char :=
  match token.quote with
  | some quote => quote :: (token.literal.toList ++ [quote])
  | none => token.literal.toList

/-- The text that a token is written as is scanned as this one token. -/
def IsScanned (token : Token) : Prop :=
  lexeme none token.writing = ⟨token.kind, token.literal, token.writing, [], token.quote⟩

instance (token : Token) : Decidable token.IsScanned :=
  decidable_of_iff
    ((lexeme none token.writing).kind = token.kind ∧
      (lexeme none token.writing).literal = token.literal ∧
      (lexeme none token.writing).taken = token.writing ∧
      (lexeme none token.writing).rest = [] ∧
      (lexeme none token.writing).quote = token.quote)
    (by
      unfold IsScanned
      cases lexeme none token.writing
      simp)

end Token

/-- The token of a unary operator. -/
def UnaryOperator.mark : UnaryOperator → Token
  | not => .plain .bang "!"
  | negate => .plain .minus "-"
  | toNumber => .plain .plus "+"
  | void => .plain .voidWord "void"

/-- The token of an update operator. -/
def UpdateOperator.mark : UpdateOperator → Token
  | increment => .plain .increment "++"
  | decrement => .plain .decrement "--"

/-- The token of an operator between two operands. -/
def InfixOperator.mark : InfixOperator → Token
  | strict .add => .plain .plus "+"
  | strict .subtract => .plain .minus "-"
  | strict .multiply => .plain .asterisk "*"
  | strict .divide => .plain .slash "/"
  | strict .remainder => .plain .percent "%"
  | strict .less => .plain .less "<"
  | strict .greater => .plain .greater ">"
  | strict .lessEqual => .plain .lessEqual "<="
  | strict .greaterEqual => .plain .greaterEqual ">="
  | strict .equal => .plain .equal "=="
  | strict .notEqual => .plain .notEqual "!="
  | strict .strictEqual => .plain .strictEqual "==="
  | strict .strictNotEqual => .plain .strictNotEqual "!=="
  | strict .within => .plain .inWord "in"
  | strict .instanceof => .plain .instanceofWord "instanceof"
  | both => .plain .logicalAnd "&&"
  | either => .plain .logicalOr "||"

namespace Expression

/-- Whether an expression is a sequence. -/
def isSequence : Expression → Bool
  | .sequence _ _ _ => true
  | _ => false

/-- Whether an expression is a call, or an access of a member or an element of one, and so on. -/
def callsOnSpine : Expression → Bool
  | .call _ _ _ => true
  | .member _ base _ => base.callsOnSpine
  | .index _ base _ => base.callsOnSpine
  | _ => false

/-- The kind of the token that an expression is written with at its end. -/
def closes : Expression → TokenKind
  | .name _ => .identifier
  | .number _ _ => .number
  | .string _ _ => .string
  | .boolean _ value => if value then .trueWord else .falseWord
  | .regex _ _ _ => .regex
  | .this _ => .thisWord
  | .function _ | .object _ _ => .rightBrace
  | .array _ _ | .index _ _ _ => .rightBracket
  | .assign _ _ _ value => value.closes
  | .member _ _ property => property.kind
  | .unary _ _ _ | .typeof _ _ | .delete _ _ | .binary _ _ _ _ | .update _ _ _ _
  | .conditional _ _ _ _ | .sequence _ _ _ | .call _ _ _ | .construct _ _ _ => .rightParen

/--
The expressions that are made of operands and operators.  Each keeps the token it is told
by, wherever this stands; the names are no reserved words, and the literals are read.
-/
inductive OfOperators : Expression → Prop where
  | name {token : Token} : token.kind = .identifier → token.IsScanned → OfOperators (.name token)
  | number {token : Token} {value : Float} :
      token.kind = .number → token.IsScanned →
      Number.ofLiteral? token.literal.toList = some value → OfOperators (.number token value)
  | string {token : Token} {quote : Char} :
      token.kind = .string → token.IsScanned →
      token.quote = some quote → OfOperators (.string token quote)
  | isTrue {token : Token} :
      token.unplaced = .plain .trueWord "true" → OfOperators (.boolean token true)
  | isFalse {token : Token} :
      token.unplaced = .plain .falseWord "false" → OfOperators (.boolean token false)
  | this {token : Token} : token.unplaced = .plain .thisWord "this" → OfOperators (.this token)
  | array {token : Token} {elements : List Expression} :
      token.unplaced = .plain .leftBracket "[" →
      (∀ element ∈ elements, OfOperators element) → OfOperators (.array token elements)
  | unary {token : Token} {operator : UnaryOperator} {operand : Expression} :
      token.unplaced = operator.mark →
      OfOperators operand → OfOperators (.unary token operator operand)
  | typeof {token : Token} {operand : Expression} :
      token.unplaced = .plain .typeofWord "typeof" →
      OfOperators operand → OfOperators (.typeof token operand)
  | delete {token : Token} {target : Expression} :
      token.unplaced = .plain .deleteWord "delete" →
      OfOperators target → OfOperators (.delete token target)
  | update {token : Token} {operator : UpdateOperator} {target : Expression} (fixity : Fixity) :
      token.unplaced = operator.mark →
      OfOperators target → OfOperators (.update token operator fixity target)
  | binary {token : Token} {operator : InfixOperator} {left right : Expression} :
      token.unplaced = operator.mark →
      OfOperators left → OfOperators right → OfOperators (.binary token operator left right)
  | conditional {token : Token} {condition consequence alternative : Expression} :
      token.unplaced = .plain .question "?" →
      OfOperators condition → OfOperators consequence → OfOperators alternative →
      OfOperators (.conditional token condition consequence alternative)
  | sequence {token : Token} {first : Expression} {rest : List Expression} :
      token.unplaced = .plain .comma "," →
      OfOperators first → first.isSequence = false →
      (∀ element ∈ rest, OfOperators element) → rest ≠ [] →
      OfOperators (.sequence token first rest)
  | member {token property : Token} {base : Expression} :
      token.unplaced = .plain .dot "." →
      OfOperators base → property.kind = .identifier → property.IsScanned →
      OfOperators (.member token base property)
  | index {token : Token} {base key : Expression} :
      token.unplaced = .plain .leftBracket "[" →
      OfOperators base → OfOperators key → OfOperators (.index token base key)
  | call {token : Token} {callee : Expression} {arguments : List Expression} :
      token.unplaced = .plain .leftParen "(" →
      OfOperators callee → (∀ argument ∈ arguments, OfOperators argument) →
      OfOperators (.call token callee arguments)
  | construct {token : Token} {constructor : Expression} {arguments : List Expression} :
      token.unplaced = .plain .newWord "new" →
      OfOperators constructor → constructor.callsOnSpine = false →
      (∀ argument ∈ arguments, OfOperators argument) →
      OfOperators (.construct token constructor arguments)

/-! ## How they are written -/

/-- A string is shown as it is written. -/
theorem toList_text_string {token : Token} {quote : Char} (isQuote : token.quote = some quote) :
    (Expression.string token quote).text.toList = token.writing := by
  unfold Token.writing
  rw [text, isQuote, String.toList_append, String.toList_append, String.toList_singleton,
    List.append_assoc]
  rfl

/-- Every unary operator but the one that gives nothing stands right in front of its operand. -/
theorem text_unary
    {operator : UnaryOperator}
    (notVoid : operator ≠ .void)
    (token : Token)
    (operand : Expression) :
    (Expression.unary token operator operand).text =
      "(" ++ operator.text ++ operand.text ++ ")" := by
  rw [text]
  exact fun isVoid => absurd isVoid notVoid

mutual

/-- The tokens that an operator expression is written with; other expressions have none here. -/
def spelling : Expression → List Token
  | .name token | .number token _ | .string token _ | .boolean token _ | .this token =>
      [token.unplaced]
  | .array token elements => token.unplaced :: (spellingAll elements ++ [.plain .rightBracket "]"])
  | .unary token _ operand | .typeof token operand | .delete token operand
  | .update token _ .before operand =>
      .plain .leftParen "(" :: token.unplaced :: (operand.spelling ++ [.plain .rightParen ")"])
  | .update token _ .after target =>
      .plain .leftParen "(" :: (target.spelling ++ [token.unplaced, .plain .rightParen ")"])
  | .binary token _ left right =>
      .plain .leftParen "(" ::
        (left.spelling ++ token.unplaced :: (right.spelling ++ [.plain .rightParen ")"]))
  | .conditional token condition consequence alternative =>
      .plain .leftParen "(" ::
        (condition.spelling ++ token.unplaced ::
          (consequence.spelling ++ .plain .colon ":" ::
            (alternative.spelling ++ [.plain .rightParen ")"])))
  | .sequence _ first rest =>
      .plain .leftParen "(" :: (first.spelling ++ (spellingMore rest ++ [.plain .rightParen ")"]))
  | .member token base property => base.spelling ++ [token.unplaced, property.unplaced]
  | .index token base key =>
      base.spelling ++ token.unplaced :: (key.spelling ++ [.plain .rightBracket "]"])
  | .call token callee arguments =>
      callee.spelling ++ token.unplaced :: (spellingAll arguments ++ [.plain .rightParen ")"])
  | .construct token constructor arguments =>
      token.unplaced :: (constructor.spelling ++ .plain .leftParen "(" ::
        (spellingAll arguments ++ [.plain .rightParen ")"]))
  | _ => []

/-- The tokens of a list with a comma between two expressions. -/
def spellingAll : List Expression → List Token
  | [] => []
  | first :: rest => first.spelling ++ spellingMore rest

/-- The tokens of the rest of a list, with a comma in front of each expression. -/
def spellingMore : List Expression → List Token
  | [] => []
  | next :: rest => .plain .comma "," :: (next.spelling ++ spellingMore rest)

end

end Expression

end ScriptEngine
