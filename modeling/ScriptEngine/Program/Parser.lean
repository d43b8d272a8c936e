import ScriptEngine.Error
import ScriptEngine.Number.Reader
import ScriptEngine.Program.Printer
import ScriptEngine.Token.Scanner

namespace ScriptEngine

/-!
# Reading programs

Statements are read by recursive descent and expressions by the binding strength
of their operators.  Every reader leaves the cursor on the last token of what it
read.  A reader that finds a fault records it and gives up, and so does every
reader that called it.

A reader is a script of steps.  Where it needs another reader it names the task of
that reader, and tasks are read with a budget that goes down by one at each call.  A
budget of `Parser.budget` for the tokens at hand is never used up, because no more
than a few calls pass between two tokens.
-/

namespace Parser

/-- A look at the tokens: the current one, the next one and those after it.  The end of input is
its own successor. -/
structure Cursor where
  current : Token
  next : Token
  rest : List Token

namespace Cursor

/-- The cursor on the first of some tokens. -/
def ofTokens : List Token → Cursor
  | first :: second :: rest => ⟨first, second, rest⟩
  | [only] => ⟨only, only, []⟩
  | [] => ⟨Token.absent, Token.absent, []⟩

/-- The cursor one token further. -/
def advance (cursor : Cursor) : Cursor :=
  match cursor.rest with
  | token :: rest => ⟨cursor.next, token, rest⟩
  | [] => ⟨cursor.next, cursor.next, []⟩

end Cursor

/-- A fault and the token it was found at. -/
structure Failure where
  token : Token
  fault : GrammarFault
  deriving DecidableEq, Repr

namespace Failure

/-- Whether more input might complete the program. -/
def isIncomplete (failure : Failure) : Bool :=
  failure.token.kind == .endOfInput ||
    (failure.token.kind == .illegal && failure.token.literal == Token.unclosedComment)

/-- The error a failure is reported as. -/
def toError (source : Source) (failure : Failure) : ScriptError :=
  ⟨.grammar failure.fault, some (failure.token.position source)⟩

end Failure

/-- What a parser knows: the tokens at hand, the failures it recorded, and whether one of them was
for want of more input. -/
structure Reading where
  cursor : Cursor
  failures : List Failure := []
  incomplete : Bool := false

namespace Reading

/-- The most failures that are kept. -/
def failureLimit : Nat :=
  1000

/-- Record a failure. -/
def record (reading : Reading) (failure : Failure) : Reading :=
  { reading with
    failures :=
      if reading.failures.length < failureLimit then reading.failures ++ [failure]
      else reading.failures
    incomplete := reading.incomplete || failure.isIncomplete }

/-- Move to the next token. -/
def advance (reading : Reading) : Reading :=
  { reading with cursor := reading.cursor.advance }

end Reading

/-! ## Scripts -/

/-- The readers that others call, each with what it gives. -/
inductive Task : Type → Type where
  | statement : Task Statement
  | declarators : Task (List Declarator)
  | block : Task (List Statement)
  | clauses (hasDefault : Bool) : Task (List Clause)
  | clauseBody : Task (List Statement)
  | parameters : Task (List Token)
  | expression (bound : Precedence) : Task Expression
  | operators (bound : Precedence) (left : Expression) : Task Expression
  | list (closing : TokenKind) : Task (List Expression)
  | properties : Task (List Property)

/-- The steps of a reader. -/
inductive Script : Type → Type 1 where
  | give {α : Type} (value : α) : Script α
  | giveUp {α : Type} : Script α
  | record (failure : Failure) : Script Unit
  | current : Script Token
  | next : Script Token
  | advance : Script Unit
  | read {α : Type} (task : Task α) : Script α
  | andThen {α β : Type} (first : Script β) (later : β → Script α) : Script α

/-- How each task is answered: with what it gives, or nothing, and what is known after it. -/
abbrev Answers :=
  (α : Type) → Task α → Reading → Option α × Reading

namespace Script

instance : Monad Script where
  pure := give
  bind := andThen

/-- Take the steps of a script; when a step gives nothing, those after it are not taken. -/
def run (answers : Answers) : {α : Type} → Script α → Reading → Option α × Reading
  | _, give value, reading => (some value, reading)
  | _, giveUp, reading => (none, reading)
  | _, record failure, reading => (some (), reading.record failure)
  | _, current, reading => (some reading.cursor.current, reading)
  | _, next, reading => (some reading.cursor.next, reading)
  | _, advance, reading => (some (), reading.advance)
  | _, read task, reading => answers _ task reading
  | _, andThen first later, reading =>
      match run answers first reading with
      | (some value, after) => run answers (later value) after
      | (none, after) => (none, after)

end Script

open Script (current next advance read)

/-- Record a failure at a token and give up. -/
def refuse (token : Token) (fault : GrammarFault) : Script α := do
  .record ⟨token, fault⟩
  .giveUp

/-- Fail because the next token is not the one wanted. -/
def refuseNext (wanted : TokenKind) : Script α := do
  let token ← next
  let found := if token.kind = .illegal then token.literal else token.kind.text
  refuse token (.expected wanted found)

/-- Move to the next token, which has to be of a kind. -/
def expect (kind : TokenKind) : Script Unit := do
  if (← next).kind = kind then advance else refuseNext kind

/-- Whether a simple statement may end before this token without a semicolon. -/
def endsStatement (token : Token) : Bool :=
  token.kind == .rightBrace || token.kind == .endOfInput || token.newlineBefore

/-- End a simple statement: with a semicolon, or where one may be left out. -/
def endStatement : Script Unit := do
  let token ← next
  if token.kind = .semicolon then advance
  else if endsStatement token then return
  else refuseNext .semicolon

/-- The label after a jump word, which has to stand on the same line. -/
def jumpLabel : Script (Option Token) := do
  let token ← next
  if token.kind = .identifier && !token.newlineBefore then
    advance
    return some token
  else return none

/-! ## Expressions -/

/-- A number literal. -/
def numberValue (token : Token) : Script Float :=
  match Number.ofLiteral? token.literal.toList with
  | some value => return value
  | none => refuse token (.unreadableNumber token.literal)

/-- The quote a string token was written with. -/
def quoteOf (token : Token) : Char :=
  token.quote.getD '"'

/-- The pattern and the flags of a regular expression literal. -/
def splitRegex? (literal : String) : Option (String × String) :=
  let reversed := literal.toList.reverse
  let flags := (reversed.takeWhile (· != '/')).reverse
  match reversed.dropWhile (· != '/') with
  | _ :: first :: front =>
      some (String.ofList ((first :: front).reverse.drop 1), String.ofList flags)
  | _ => none

/-- A regular expression literal. -/
def regexLiteral (token : Token) : Script Expression :=
  match splitRegex? token.literal with
  | some (pattern, flags) => return .regex token pattern flags
  | none => refuse token .malformedRegex

/-- The fault of an illegal token. -/
def illegalFault (token : Token) : GrammarFault :=
  if token.literal.utf8ByteSize ≤ 1 then .strayCharacter token.literal else .unclosed token.literal

/-- The unary operator a token stands for in front of an operand. -/
def unaryOperator? : TokenKind → Option UnaryOperator
  | .bang => some .not
  | .minus => some .negate
  | .plus => some .toNumber
  | .voidWord => some .void
  | _ => none

/-- The update operator a token stands for. -/
def updateOperator? : TokenKind → Option UpdateOperator
  | .increment => some .increment
  | .decrement => some .decrement
  | _ => none

/-- A sequence with one more element; a sequence in front takes the element in. -/
def extendSequence (token : Token) (left right : Expression) : Expression :=
  match left with
  | .sequence first head rest => .sequence first head (rest ++ [right])
  | other => .sequence token other [right]

/-- The key of a property. -/
def propertyKey : Script PropertyKey := do
  let token ← current
  if token.kind = .string then return .string token (quoteOf token)
  else if token.kind = .number then return .number token (← numberValue token)
  else if token.kind = .identifier || TokenKind.isReserved token.literal then return .name token
  else if token.kind = .endOfInput then refuse token .openObject
  else refuse token (.badPropertyName token.literal)

/-- The expressions of a list up to its closing token; a comma before it is allowed. -/
def expressionList (closing : TokenKind) : Script (List Expression) := do
  if (← next).kind = closing then
    advance
    return []
  else read (.list closing)

/-- The expressions of a list, of which there is at least one. -/
def list (closing : TokenKind) : Script (List Expression) := do
  advance
  let first ← read (.expression .comma)
  if (← next).kind = .comma then
    advance
    if (← next).kind = closing then
      advance
      return [first]
    else return first :: (← read (.list closing))
  else
    expect closing
    return [first]

/-- What stands between two properties: a comma, unless the object ends. -/
def betweenProperties : Script Unit := do
  if (← next).kind = .rightBrace then return
  else expect .comma

/-- The properties of an object literal up to its closing brace. -/
def properties : Script (List Property) := do
  if (← next).kind = .rightBrace then
    advance
    return []
  else
    advance
    let key ← propertyKey
    expect .colon
    advance
    let value ← read (.expression .comma)
    betweenProperties
    return .mk key value :: (← read .properties)

/-- The parameters of a function, of which there is at least one, up to the closing parenthesis. -/
def parameters : Script (List Token) := do
  expect .identifier
  let parameter ← current
  if (← next).kind = .comma then
    advance
    return parameter :: (← read .parameters)
  else
    expect .rightParen
    return [parameter]

/-- The parameters of a function after its opening parenthesis. -/
def parameterList : Script (List Token) := do
  if (← next).kind = .rightParen then
    advance
    return []
  else read .parameters

/-- The name of a function, which may be missing. -/
def functionName : Script (Option Token) := do
  let following ← next
  if following.kind = .identifier then
    advance
    return some following
  else return none

/-- The statements between braces, with the cursor on the opening one. -/
def blockBody : Script (List Statement) := do
  advance
  read .block

/-- A function from its word on. -/
def functionLiteral : Script FunctionLiteral := do
  let token ← current
  let name ← functionName
  expect .leftParen
  let parameters ← parameterList
  expect .leftBrace
  return .mk token name parameters (← blockBody)

/-- The arguments of a constructor, which may be left out. -/
def constructorArguments : Script (List Expression) := do
  if (← next).kind = .leftParen then
    advance
    expressionList .rightParen
  else return []

/-- An operand: a literal, a name, or an operator in front of an operand. -/
def operand : Script Expression := do
  let token ← current
  match unaryOperator? token.kind, updateOperator? token.kind with
  | some operator, _ =>
      advance
      return .unary token operator (← read (.expression .unary))
  | none, some operator =>
      advance
      return .update token operator .before (← read (.expression .unary))
  | none, none =>
      match token.kind with
      | .identifier => return .name token
      | .number => return .number token (← numberValue token)
      | .string => return .string token (quoteOf token)
      | .regex => regexLiteral token
      | .trueWord => return .boolean token true
      | .falseWord => return .boolean token false
      | .thisWord => return .this token
      | .functionWord => return .function (← functionLiteral)
      | .leftBracket => return .array token (← expressionList .rightBracket)
      | .leftBrace => return .object token (← read .properties)
      | .leftParen =>
          advance
          let value ← read (.expression .lowest)
          expect .rightParen
          return value
      | .typeofWord =>
          advance
          return .typeof token (← read (.expression .unary))
      | .deleteWord =>
          advance
          return .delete token (← read (.expression .unary))
      | .newWord =>
          advance
          let constructor ← read (.expression .call)
          return .construct token constructor (← constructorArguments)
      | .illegal => refuse token (illegalFault token)
      | .endOfInput => refuse token .endOfInput
      | other => refuse token (.noOperand other)

/-- The expression made by one operator after its left operand, with the cursor on the operator. -/
def operator (token : Token) (left : Expression) : Script Expression := do
  match InfixOperator.ofKind? token.kind, AssignmentOperator.ofKind? token.kind,
      updateOperator? token.kind with
  | some operator, _, _ =>
      advance
      return .binary token operator left (← read (.expression (Precedence.ofKind token.kind)))
  | none, some operator, _ =>
      advance
      return .assign token operator left (← read (.expression .comma))
  | none, none, some operator => return .update token operator .after left
  | none, none, none =>
      match token.kind with
      | .question =>
          advance
          let consequence ← read (.expression .comma)
          expect .colon
          advance
          return .conditional token left consequence (← read (.expression .comma))
      | .comma =>
          advance
          return extendSequence token left (← read (.expression .comma))
      | .leftParen => return .call token left (← expressionList .rightParen)
      | .dot =>
          let property ← next
          if property.kind = .identifier || TokenKind.isReserved property.literal then
            advance
            return .member token left property
          else refuseNext .identifier
      | _ =>
          advance
          let key ← read (.expression .lowest)
          expect .rightBracket
          return .index token left key

/-- Take in operators after an operand as long as they bind tighter than a bound. -/
def operators (bound : Precedence) (left : Expression) : Script Expression := do
  let token ← next
  if (Precedence.ofKind token.kind).rank ≤ bound.rank then return left
  else if (updateOperator? token.kind).isSome && token.newlineBefore then return left
  else
    advance
    let extended ← operator token left
    read (.operators bound extended)

/-- An expression whose operators all bind tighter than a bound. -/
def expression (bound : Precedence) : Script Expression := do
  let left ← operand
  read (.operators bound left)

/-! ## Statements -/

/-- An expression as a statement. -/
def expressionStatement : Script Statement := do
  let token ← current
  let value ← read (.expression .lowest)
  endStatement
  return .expression token value

/-- The value of a declared variable, which may be missing. -/
def initialValue : Script (Option Expression) := do
  if (← next).kind = .assign then
    advance
    advance
    return some (← read (.expression .comma))
  else return none

/-- The parts of a `var` statement, with the cursor on the first name. -/
def declarators : Script (List Declarator) := do
  let name ← current
  let value ← initialValue
  if (← next).kind = .comma then
    advance
    expect .identifier
    return .mk name value :: (← read .declarators)
  else return [.mk name value]

/-- An expression in parentheses after a control word. -/
def condition : Script Expression := do
  expect .leftParen
  advance
  let value ← read (.expression .lowest)
  expect .rightParen
  return value

/-- The statement a control word governs. -/
def body : Script Statement := do
  advance
  let token ← current
  if token.kind = .endOfInput then refuse token .missingStatement
  else read .statement

/-- The statement after `else`, when there is one. -/
def alternative : Script (Option Statement) := do
  if (← next).kind = .elseWord then
    advance
    return some (← body)
  else return none

/-- The statements up to a closing brace. -/
def block : Script (List Statement) := do
  let token ← current
  if token.kind = .rightBrace then return []
  else if token.kind = .endOfInput then refuse token .openBlock
  else
    let first ← read .statement
    advance
    return first :: (← read .block)

/-- An expression that is left out where a token of a kind comes next. -/
def expressionUnless (kind : TokenKind) : Script (Option Expression) := do
  if (← next).kind = kind then return none
  else
    advance
    return some (← read (.expression .lowest))

/-- The condition, the update and the body of a `for` statement, from its first semicolon on. -/
def forRest (token : Token) (initializer : Option Statement) : Script Statement := do
  let condition ← expressionUnless .semicolon
  expect .semicolon
  let update ← expressionUnless .rightParen
  expect .rightParen
  return .forLoop token initializer condition update (← body)

/-- The rest of a loop over keys, with the cursor on its variable. -/
def forInRest (token : Token) (declares : Bool) : Script Statement := do
  let name ← current
  advance
  advance
  let subject ← read (.expression .lowest)
  expect .rightParen
  return .forIn token name declares subject (← body)

/-- A `for` statement that starts with a declaration, with the cursor on `var`. -/
def forDeclared (token : Token) : Script Statement := do
  let word ← current
  expect .identifier
  if (← next).kind = .inWord then forInRest token true
  else
    let declarators ← read .declarators
    expect .semicolon
    forRest token (some (.declare word declarators))

/-- A `for` statement that starts with an expression, with the cursor on its first token. -/
def forEvaluated (token first : Token) : Script Statement := do
  let value ← read (.expression .lowest)
  expect .semicolon
  forRest token (some (.expression first value))

/-- A `for` statement of either form. -/
def forStatement (token : Token) : Script Statement := do
  expect .leftParen
  let following ← next
  if following.kind = .semicolon then
    advance
    forRest token none
  else if following.kind = .varWord then
    advance
    forDeclared token
  else
    advance
    let first ← current
    if first.kind = .identifier then
      if (← next).kind = .inWord then forInRest token false
      else forEvaluated token first
    else forEvaluated token first

/-- The statements of one clause. -/
def clauseBody : Script (List Statement) := do
  let token ← current
  match token.kind with
  | .caseWord | .defaultWord | .rightBrace => return []
  | .endOfInput => refuse token .openSwitch
  | _ =>
      let first ← read .statement
      advance
      return first :: (← read .clauseBody)

/-- The clauses of a `switch` statement up to its closing brace. -/
def clauses (hasDefault : Bool) : Script (List Clause) := do
  let token ← current
  match token.kind with
  | .rightBrace => return []
  | .caseWord =>
      advance
      let condition ← read (.expression .lowest)
      expect .colon
      advance
      let body ← read .clauseBody
      return .mk token (some condition) body :: (← read (.clauses hasDefault))
  | .defaultWord =>
      if hasDefault then refuse token .repeatedDefault
      else
        expect .colon
        advance
        let body ← read .clauseBody
        return .mk token none body :: (← read (.clauses true))
  | .endOfInput => refuse token .openSwitch
  | other => refuse token (.expectedCase other)

/-- A statement. -/
def statement : Script Statement := do
  let token ← current
  match token.kind with
  | .varWord =>
      expect .identifier
      let declarators ← read .declarators
      endStatement
      return .declare token declarators
  | .returnWord =>
      let following ← next
      if following.kind = .semicolon || endsStatement following then
        endStatement
        return .giveBack token none
      else
        advance
        let value ← read (.expression .lowest)
        endStatement
        return .giveBack token (some value)
  | .ifWord =>
      let condition ← condition
      let consequence ← body
      return .branch token condition consequence (← alternative)
  | .whileWord =>
      let condition ← condition
      return .whileLoop token condition (← body)
  | .forWord => forStatement token
  | .breakWord =>
      let label ← jumpLabel
      endStatement
      return .leave token label
  | .continueWord =>
      let label ← jumpLabel
      endStatement
      return .again token label
  | .switchWord =>
      let subject ← condition
      expect .leftBrace
      advance
      return .select token subject (← read (.clauses false))
  | .leftBrace => return .block token (← blockBody)
  | .semicolon => return .empty token
  | .functionWord =>
      if (← next).kind = .identifier then return .function token (← functionLiteral)
      else expressionStatement
  | .identifier =>
      if (← next).kind = .colon then
        advance
        return .labeled token (← body)
      else expressionStatement
  | _ => expressionStatement

/-! ## Programs -/

namespace Task

/-- The script of a task. -/
def script : {α : Type} → Task α → Script α
  | _, statement => Parser.statement
  | _, declarators => Parser.declarators
  | _, block => Parser.block
  | _, clauses hasDefault => Parser.clauses hasDefault
  | _, clauseBody => Parser.clauseBody
  | _, parameters => Parser.parameters
  | _, expression bound => Parser.expression bound
  | _, operators bound left => Parser.operators bound left
  | _, list closing => Parser.list closing
  | _, properties => Parser.properties

/-- The answers to tasks within a budget of nested calls. -/
def answers : Nat → Answers
  | 0 => fun _ _ reading => (none, reading.record ⟨reading.cursor.current, .tooDeep⟩)
  | budget + 1 => fun _ task => task.script.run (answers budget)

end Task

/-- The statements of a program up to the end of input, and what is known where reading stopped. -/
def statementsFrom : Nat → Nat → Reading → List Statement × Reading
  | 0, _, reading => ([], reading.record ⟨reading.cursor.current, .tooDeep⟩)
  | steps + 1, budget, reading =>
      if reading.cursor.current.kind = .endOfInput then ([], reading)
      else
        match Task.answers budget _ .statement reading with
        | (some first, after) =>
            let (rest, last) := statementsFrom steps budget after.advance
            (first :: rest, last)
        | (none, after) =>
            if after.failures.isEmpty then statementsFrom steps budget after.advance else ([], after)

/-- A budget that reading this many tokens never uses up. -/
def budget (tokens : Nat) : Nat :=
  8 * tokens + 64

end Parser

/-- The outcome of reading a program: the statements before the first fault, and what the parser
knew where it stopped. -/
structure Parsed where
  program : Program
  last : Parser.Reading

namespace Parsed

/-- The failures of a reading. -/
def failures (parsed : Parsed) : List Parser.Failure :=
  parsed.last.failures

/-- The errors of a reading. -/
def errors (parsed : Parsed) : List ScriptError :=
  parsed.failures.map (Parser.Failure.toError parsed.program.source)

/-- Whether the text ended inside a construct. -/
def isIncomplete (parsed : Parsed) : Bool :=
  parsed.last.incomplete

end Parsed

namespace Program

/-- Read a program from a list of tokens. -/
def ofTokens (source : Source) (tokens : List Token) : Parsed :=
  let (statements, last) :=
    Parser.statementsFrom (tokens.length + 1) (Parser.budget tokens.length)
      ⟨Parser.Cursor.ofTokens tokens, [], false⟩
  ⟨⟨statements, source⟩, last⟩

/-- Read the program of a source. -/
def parse (source : Source) : Parsed :=
  ofTokens source (Token.scan source.content)

/-- Whether a text fails to be a program because it ends inside a construct, so that more lines may
complete it. -/
def needsMore (content : String) : Bool :=
  let parsed := parse (Source.ofRepl content)
  !parsed.errors.isEmpty && parsed.isIncomplete

end Program

end ScriptEngine
