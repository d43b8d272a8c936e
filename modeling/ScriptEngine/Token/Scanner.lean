import ScriptEngine.Token

namespace ScriptEngine.Token

/-!
# Scanning

A text is cut into tokens from left to right.  Every reader below returns the
characters it took and the characters it left, so nothing is lost between two
tokens but blanks and comments.

Offsets and columns count code units; `width` gives the number of units of a
character.  For a text kept as UTF-8 it is `Char.utf8Size`.  A NUL character
ends the input wherever it stands.
-/

/-- Whether a character may start a name: a letter, `_`, `$` or anything beyond ASCII. -/
def isNameStart (char : Char) : Bool :=
  char.isAlpha || char == '_' || char == '$' || 0x80 ≤ char.toNat

/-- Whether a character may continue a name. -/
def isNameRest (char : Char) : Bool :=
  isNameStart char || char.isDigit

/-- Whether a character ends the input. -/
def isNul (char : Char) : Bool :=
  char.toNat == 0

/-- Whether a character is a blank that is not a line feed. -/
def isSpace (char : Char) : Bool :=
  char == ' ' || char == '\t' || char == '\r' || char.toNat == 0x0B || char.toNat == 0x0C

/-! ## Places -/

/-- An offset with its one-based line and column. -/
structure Place where
  offset : Nat
  line : Nat
  column : Nat
  deriving DecidableEq, Repr

namespace Place

/-- The place before the first character. -/
def origin : Place :=
  ⟨0, 1, 1⟩

/-- The place after one more character. -/
def step (width : Char → Nat) (place : Place) (char : Char) : Place :=
  if char = '\n' then
    ⟨place.offset + width char, place.line + 1, 1⟩
  else
    ⟨place.offset + width char, place.line, place.column + width char⟩

/-- The place after a list of characters. -/
def past (width : Char → Nat) (place : Place) (taken : List Char) : Place :=
  taken.foldl (step width) place

end Place

/-! ## Blanks and comments -/

/-- What a blank reader is inside of. -/
inductive BlankMode where
  | between
  | lineComment
  | blockComment
  deriving DecidableEq, Repr

/-- The stretch in front of a token. -/
structure Gap where
  taken : List Char
  rest : List Char
  newline : Bool
  closed : Bool

namespace Gap

/-- Put characters in front of what was taken. -/
def cons (front : List Char) (newline : Bool) (gap : Gap) : Gap :=
  { gap with taken := front ++ gap.taken, newline := newline || gap.newline }

end Gap

/-- Read blanks and comments up to the next token. -/
def gapFrom : BlankMode → List Char → Gap
  | .between, [] => ⟨[], [], false, true⟩
  | .between, '/' :: '/' :: rest => (gapFrom .lineComment rest).cons ['/', '/'] false
  | .between, '/' :: '*' :: rest => (gapFrom .blockComment rest).cons ['/', '*'] false
  | .between, char :: rest =>
      if char = '\n' then (gapFrom .between rest).cons [char] true
      else if isSpace char then (gapFrom .between rest).cons [char] false
      else ⟨[], char :: rest, false, true⟩
  | .lineComment, [] => ⟨[], [], false, true⟩
  | .lineComment, char :: rest =>
      if char = '\n' then (gapFrom .between rest).cons [char] true
      else if isNul char then ⟨[], char :: rest, false, true⟩
      else (gapFrom .lineComment rest).cons [char] false
  | .blockComment, [] => ⟨[], [], false, false⟩
  | .blockComment, '*' :: '/' :: rest => (gapFrom .between rest).cons ['*', '/'] false
  | .blockComment, char :: rest =>
      if isNul char then ⟨[], char :: rest, false, false⟩
      else (gapFrom .blockComment rest).cons [char] (char == '\n')

/-! ## Lexemes -/

/-- A lexeme: its kind, its literal, the characters it covers and those after it. -/
structure Lexeme where
  kind : TokenKind
  literal : String
  taken : List Char
  rest : List Char
  quote : Option Char := none

namespace Lexeme

/-- A lexeme whose literal is what it covers. -/
def verbatim (kind : TokenKind) (taken rest : List Char) : Lexeme :=
  ⟨kind, String.ofList taken, taken, rest, none⟩

end Lexeme

/-- What a reader of a delimited body found: the body, the rest, and whether it was closed. -/
structure Body where
  taken : List Char
  rest : List Char
  closed : Bool

namespace Body

/-- Put characters in front of the body. -/
def cons (front : List Char) (body : Body) : Body :=
  { body with taken := front ++ body.taken }

end Body

/-- Read up to a closing quote, which is left in the rest; a backslash hides what follows it. -/
def stringBody (quote : Char) : List Char → Body
  | [] => ⟨[], [], false⟩
  | '\\' :: [] => ⟨['\\'], [], false⟩
  | '\\' :: hidden :: rest =>
      if isNul hidden then ⟨['\\'], hidden :: rest, false⟩
      else (stringBody quote rest).cons ['\\', hidden]
  | char :: rest =>
      if char = quote then ⟨[], char :: rest, true⟩
      else if isNul char || char == '\n' then ⟨[], char :: rest, false⟩
      else (stringBody quote rest).cons [char]

/-- The message of a string that is not closed on its line. -/
def unclosedString : String :=
  "unterminated string literal"

/-- Read a string literal that starts with a quote. -/
def stringLexeme (quote : Char) (afterQuote : List Char) : Lexeme :=
  let body := stringBody quote afterQuote
  match body.closed, body.rest with
  | true, closing :: rest =>
      ⟨.string, String.ofList body.taken, quote :: (body.taken ++ [closing]), rest, some quote⟩
  | _, rest => ⟨.illegal, unclosedString, quote :: body.taken, rest, none⟩

/-- Read the body of a regular expression up to its closing slash, which is left in the rest.
Slashes inside a class or after a backslash do not close it. -/
def regexBody : Bool → List Char → Body
  | _, [] => ⟨[], [], false⟩
  | _, '\\' :: [] => ⟨['\\'], [], false⟩
  | inClass, '\\' :: hidden :: rest =>
      if isNul hidden || hidden == '\n' then ⟨['\\'], hidden :: rest, false⟩
      else (regexBody inClass rest).cons ['\\', hidden]
  | inClass, char :: rest =>
      if isNul char || char == '\n' then ⟨[], char :: rest, false⟩
      else if char = '/' && !inClass then ⟨[], char :: rest, true⟩
      else
        let inside := if char = '[' then true else if char = ']' then false else inClass
        (regexBody inside rest).cons [char]

/-- The message of a regular expression that is not closed on its line. -/
def unclosedRegex : String :=
  "unterminated regular expression literal"

/-- Read a regular expression literal after its opening slash. -/
def regexLexeme (afterSlash : List Char) : Lexeme :=
  let body := regexBody false afterSlash
  match body.closed, body.rest with
  | true, closing :: rest =>
      let flags := rest.takeWhile isNameStart
      Lexeme.verbatim .regex ('/' :: (body.taken ++ closing :: flags)) (rest.dropWhile isNameStart)
  | _, rest => ⟨.illegal, unclosedRegex, '/' :: body.taken, rest, none⟩

/-- Read a name or reserved word. -/
def nameLexeme (text : List Char) : Lexeme :=
  let taken := text.takeWhile isNameRest
  ⟨TokenKind.ofName (String.ofList taken), String.ofList taken, taken, text.dropWhile isNameRest,
    none⟩

/-- Whether a character is a hexadecimal digit. -/
def isHexDigit (char : Char) : Bool :=
  char.isDigit || ('a' ≤ char && char ≤ 'f') || ('A' ≤ char && char ≤ 'F')

/-- The digits allowed after a leading `0` and this letter, if it marks a radix. -/
def radixDigits? (letter : Char) : Option (Char → Bool) :=
  if letter = 'x' || letter = 'X' then some isHexDigit
  else if letter = 'o' || letter = 'O' then some fun char => '0' ≤ char && char ≤ '7'
  else if letter = 'b' || letter = 'B' then some fun char => char == '0' || char == '1'
  else none

/-- The fraction after the whole digits of a number: a point and digits, or a point alone when
nothing after it could be a property name. -/
def fraction (wholeIsEmpty : Bool) : List Char → List Char × List Char
  | '.' :: rest =>
      let digits := rest.takeWhile Char.isDigit
      if !digits.isEmpty || wholeIsEmpty then ('.' :: digits, rest.dropWhile Char.isDigit)
      else
        match rest with
        | next :: _ => if isNameStart next then ([], '.' :: rest) else (['.'], rest)
        | [] => (['.'], [])
  | rest => ([], rest)

/-- The exponent of a number: a mark, an optional sign and digits. -/
def exponent : List Char → List Char × List Char
  | mark :: next :: rest =>
      if mark = 'e' || mark = 'E' then
        if next = '+' || next = '-' then
          (mark :: next :: rest.takeWhile Char.isDigit, rest.dropWhile Char.isDigit)
        else if next.isDigit then
          (mark :: (next :: rest).takeWhile Char.isDigit, (next :: rest).dropWhile Char.isDigit)
        else ([], mark :: next :: rest)
      else ([], mark :: next :: rest)
  | rest => ([], rest)

/-- Read a decimal number. -/
def decimalLexeme (text : List Char) : Lexeme :=
  let whole := text.takeWhile Char.isDigit
  let (fractionPart, afterFraction) := fraction whole.isEmpty (text.dropWhile Char.isDigit)
  let (exponentPart, rest) := exponent afterFraction
  Lexeme.verbatim .number (whole ++ fractionPart ++ exponentPart) rest

/-- Read a number: decimal, or an integer with a radix mark. -/
def numberLexeme : List Char → Lexeme
  | '0' :: letter :: rest =>
      match radixDigits? letter with
      | some isDigit =>
          Lexeme.verbatim .number ('0' :: letter :: rest.takeWhile isDigit) (rest.dropWhile isDigit)
      | none => decimalLexeme ('0' :: letter :: rest)
  | text => decimalLexeme text

/-- The operators and delimiters as they are written, each before those it starts with. -/
def marks : List (List Char × TokenKind) :=
  [(['=', '=', '='], .strictEqual), (['=', '='], .equal), (['='], .assign),
    (['!', '=', '='], .strictNotEqual), (['!', '='], .notEqual), (['!'], .bang),
    (['+', '+'], .increment), (['+', '='], .plusAssign), (['+'], .plus),
    (['-', '-'], .decrement), (['-', '='], .minusAssign), (['-'], .minus),
    (['*', '='], .asteriskAssign), (['*'], .asterisk),
    (['/', '='], .slashAssign), (['/'], .slash),
    (['%', '='], .percentAssign), (['%'], .percent),
    (['<', '='], .lessEqual), (['<'], .less),
    (['>', '='], .greaterEqual), (['>'], .greater),
    (['&', '&'], .logicalAnd), (['|', '|'], .logicalOr),
    (['?'], .question), ([':'], .colon), ([';'], .semicolon), ([','], .comma), (['.'], .dot),
    (['('], .leftParen), ([')'], .rightParen), (['{'], .leftBrace), (['}'], .rightBrace),
    (['['], .leftBracket), ([']'], .rightBracket)]

/-- The operator or delimiter at the front of a text, the longest that fits, with its length. -/
def punctuator? (text : List Char) : Option (TokenKind × Nat) :=
  (marks.find? fun (mark, _) => mark.isPrefixOf text).map fun (mark, kind) => (kind, mark.length)

/-- Read an operator or delimiter; any other character is a token of its own that fits nowhere. -/
def punctuatorLexeme (first : Char) (rest : List Char) : Lexeme :=
  match punctuator? (first :: rest) with
  | some (kind, length) => Lexeme.verbatim kind ((first :: rest).take length) ((first :: rest).drop length)
  | none => Lexeme.verbatim .illegal [first] rest

/-- Whether a slash after this token starts a regular expression. -/
def allowsRegex (previous : Option TokenKind) : Bool :=
  match previous with
  | some kind => !kind.endsOperand
  | none => true

/-- Whether the text starts with a digit. -/
def startsWithDigit : List Char → Bool
  | first :: _ => first.isDigit
  | [] => false

/-- Read the lexeme at the front of a text that starts with no blank. -/
def lexeme (previous : Option TokenKind) : List Char → Lexeme
  | [] => ⟨.endOfInput, "", [], [], none⟩
  | first :: rest =>
      if isNul first then ⟨.endOfInput, "", [], first :: rest, none⟩
      else if first = '"' || first = '\'' then stringLexeme first rest
      else if first = '/' && allowsRegex previous then regexLexeme rest
      else if first = '.' && startsWithDigit rest then numberLexeme (first :: rest)
      else if isNameStart first then nameLexeme (first :: rest)
      else if first.isDigit then numberLexeme (first :: rest)
      else punctuatorLexeme first rest

/-! ## Tokens -/

/-- The message of a block comment that is never closed. -/
def unclosedComment : String :=
  "unterminated multiline comment"

/-- Read one token with its place, leaving the place after it and the unread text.  An unclosed
comment is placed where the blanks before it begin. -/
def next (width : Char → Nat) (previous : Option TokenKind) (place : Place) (text : List Char) :
    Token × Place × List Char :=
  let gap := gapFrom .between text
  let start := place.past width gap.taken
  if gap.closed then
    let found := lexeme previous gap.rest
    let stop := start.past width found.taken
    (⟨found.kind, found.literal, start.line, start.column, start.offset, stop.offset, gap.newline,
      found.quote⟩,
      stop, found.rest)
  else
    (⟨.illegal, unclosedComment, place.line, place.column, place.offset, start.offset, gap.newline,
      none⟩,
      start, gap.rest)

/-- Read tokens up to the end of the input, which is the last of them, with a budget of steps. -/
def scanFrom (width : Char → Nat) : Nat → Option TokenKind → Place → List Char → List Token
  | 0, _, _, _ => []
  | budget + 1, previous, place, text =>
      let (token, after, rest) := next width previous place text
      if token.kind = .endOfInput then [token]
      else token :: scanFrom width budget (some token.kind) after rest

/-- The tokens of a list of characters: each but the last takes at least one of them. -/
def scanChars (width : Char → Nat) (text : List Char) : List Token :=
  scanFrom width (text.length + 1) none .origin text

/-- The tokens of a text with offsets in UTF-8 bytes. -/
def scan (text : String) : List Token :=
  scanChars Char.utf8Size text.toList

end ScriptEngine.Token
