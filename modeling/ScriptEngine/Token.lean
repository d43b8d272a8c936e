import ScriptEngine.Source

namespace ScriptEngine

/-!
# Tokens

A token has a kind, the text it was written with and the place it was found at.
String tokens keep the raw body between the quotes; escapes are decoded later.
-/

/-- The kinds of tokens: classes of literals, operators, delimiters and reserved words. -/
inductive TokenKind where
  | illegal
  | endOfInput
  | identifier
  | number
  | string
  | regex
  | assign
  | plus
  | minus
  | bang
  | asterisk
  | slash
  | percent
  | less
  | greater
  | lessEqual
  | greaterEqual
  | equal
  | notEqual
  | strictEqual
  | strictNotEqual
  | dot
  | plusAssign
  | minusAssign
  | asteriskAssign
  | slashAssign
  | percentAssign
  | increment
  | decrement
  | logicalAnd
  | logicalOr
  | question
  | comma
  | semicolon
  | colon
  | leftParen
  | rightParen
  | leftBrace
  | rightBrace
  | leftBracket
  | rightBracket
  | varWord
  | functionWord
  | returnWord
  | ifWord
  | elseWord
  | whileWord
  | forWord
  | inWord
  | breakWord
  | continueWord
  | switchWord
  | caseWord
  | defaultWord
  | newWord
  | typeofWord
  | deleteWord
  | voidWord
  | instanceofWord
  | thisWord
  | trueWord
  | falseWord
  deriving DecidableEq, Repr, Inhabited

namespace TokenKind

/-- The reserved words with their spelling. -/
def reservedWords : List (String × TokenKind) :=
  [("var", varWord), ("function", functionWord), ("return", returnWord), ("if", ifWord),
    ("else", elseWord), ("while", whileWord), ("for", forWord), ("in", inWord),
    ("break", breakWord), ("continue", continueWord), ("switch", switchWord),
    ("case", caseWord), ("default", defaultWord), ("new", newWord), ("typeof", typeofWord),
    ("delete", deleteWord), ("void", voidWord), ("instanceof", instanceofWord),
    ("this", thisWord), ("true", trueWord), ("false", falseWord)]

/-- The kind of a name: a reserved word or an identifier. -/
def ofName (name : String) : TokenKind :=
  (reservedWords.lookup name).getD identifier

/-- Whether a name is reserved. -/
def isReserved (name : String) : Bool :=
  (reservedWords.lookup name).isSome

/-- The name of a kind in messages: operators by their spelling, classes in capitals. -/
def text : TokenKind → String
  | illegal => "ILLEGAL"
  | endOfInput => "EOF"
  | identifier => "IDENT"
  | number => "NUMBER"
  | string => "STRING"
  | regex => "REGEX"
  | assign => "="
  | plus => "+"
  | minus => "-"
  | bang => "!"
  | asterisk => "*"
  | slash => "/"
  | percent => "%"
  | less => "<"
  | greater => ">"
  | lessEqual => "<="
  | greaterEqual => ">="
  | equal => "=="
  | notEqual => "!="
  | strictEqual => "==="
  | strictNotEqual => "!=="
  | dot => "."
  | plusAssign => "+="
  | minusAssign => "-="
  | asteriskAssign => "*="
  | slashAssign => "/="
  | percentAssign => "%="
  | increment => "++"
  | decrement => "--"
  | logicalAnd => "&&"
  | logicalOr => "||"
  | question => "?"
  | comma => ","
  | semicolon => ";"
  | colon => ":"
  | leftParen => "("
  | rightParen => ")"
  | leftBrace => "\x7b"
  | rightBrace => "\x7d"
  | leftBracket => "["
  | rightBracket => "]"
  | varWord => "VAR"
  | functionWord => "FUNCTION"
  | returnWord => "RETURN"
  | ifWord => "IF"
  | elseWord => "ELSE"
  | whileWord => "WHILE"
  | forWord => "FOR"
  | inWord => "IN"
  | breakWord => "BREAK"
  | continueWord => "CONTINUE"
  | switchWord => "SWITCH"
  | caseWord => "CASE"
  | defaultWord => "DEFAULT"
  | newWord => "NEW"
  | typeofWord => "TYPEOF"
  | deleteWord => "DELETE"
  | voidWord => "VOID"
  | instanceofWord => "INSTANCEOF"
  | thisWord => "THIS"
  | trueWord => "TRUE"
  | falseWord => "FALSE"

/-- Whether a token of this kind may end an operand, so that a slash after it divides. -/
def endsOperand : TokenKind → Bool
  | identifier | number | string | regex | rightParen | rightBracket | thisWord | trueWord
  | falseWord | increment | decrement => true
  | _ => false

end TokenKind

/-- A token with its text, its place and whether a line feed stands before it.  A string token also
knows the quote it was written with. -/
structure Token where
  kind : TokenKind
  literal : String
  line : Nat
  column : Nat
  start : Nat
  stop : Nat
  newlineBefore : Bool
  quote : Option Char := none
  deriving DecidableEq, Repr, Inhabited

namespace Token

/-- The place of a token in a source. -/
def position (source : Source) (token : Token) : Position :=
  ⟨token.line, token.column, token.start, token.stop, source⟩

/-- A token of a kind that was never scanned. -/
def absent : Token :=
  ⟨.endOfInput, "", 0, 0, 0, 0, false, none⟩

end Token

end ScriptEngine
