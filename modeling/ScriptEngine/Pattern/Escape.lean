import ScriptEngine.Pattern.Tree
import ScriptEngine.Text.Category

namespace ScriptEngine.Pattern

/-!
# Escapes in patterns

Numbers, escapes of single code points and names of classes, and the settings
that change how a pattern is read.  Every reader gets the characters that are left
and gives back those after what it took.
-/

/-- What a step of reading gives: a result, mostly with the characters left, or a fault. -/
abbrev Read :=
  Except PatternGrammarFault

/--
The settings that change how parts of a pattern are read: letters without their
case, every line on its own, a dot for every character, parentheses without a
number, blanks that say nothing, and code points in braces; and the direction in
which characters are taken.
-/
structure Options where
  folded : Bool
  multiline : Bool
  dotAll : Bool
  unnumbered : Bool
  spaced : Bool
  braced : Bool
  backward : Bool
  deriving DecidableEq, Repr

namespace Options

/-- How characters are taken under the settings. -/
def mode (options : Options) : Mode :=
  ⟨options.folded, options.backward⟩

/-- The settings a pattern starts with. -/
def start (folded multiline : Bool) : Options :=
  ⟨folded, multiline, false, false, false, false, false⟩

/-- Change one setting by its letter. -/
def change? (options : Options) (letter : Char) (value : Bool) : Option Options :=
  match letter.toLower with
  | 'i' => some { options with folded := value }
  | 'm' => some { options with multiline := value }
  | 's' => some { options with dotAll := value }
  | 'n' => some { options with unnumbered := value }
  | 'x' => some { options with spaced := value }
  | 'u' => some { options with braced := value }
  | 'd' => some options
  | _ => none

/-- Read letters of settings, switched off after a minus sign. -/
def read : Bool → Options → List Char → Options × List Char
  | _, options, [] => (options, [])
  | value, options, char :: rest =>
      if char = '-' then read false options rest
      else if char = '+' then read true options rest
      else
        match options.change? char value with
        | some changed => read value changed rest
        | none => (options, char :: rest)

end Options

/-- The value of a digit of a base. -/
def digitOf? (base : Nat) (char : Char) : Option Nat :=
  let value :=
    if char.isDigit then char.toNat - '0'.toNat
    else if 'a' ≤ char ∧ char ≤ 'f' then char.toNat - 'a'.toNat + 10
    else if 'A' ≤ char ∧ char ≤ 'F' then char.toNat - 'A'.toNat + 10
    else base
  if value < base then some value else none

/-- The greatest number that may stand in a pattern. -/
def greatestNumber : Nat :=
  2147483647

/-- The decimal number at the front, zero if there is none. -/
def readNumber (rest : List Char) : Read (Nat × List Char) :=
  let digits := rest.takeWhile Char.isDigit
  let value := digits.foldl (fun total char => total * 10 + (char.toNat - '0'.toNat)) 0
  if greatestNumber < value then .error .numberTooLarge
  else .ok (value, rest.drop digits.length)

/-- Octal digits at the front, which stop once the value needs two of them. -/
def readOctal : Nat → Nat → List Char → Nat × List Char
  | budget + 1, value, char :: rest =>
      match digitOf? 8 char with
      | some digit =>
          if value < 0x20 then readOctal budget (value * 8 + digit) rest
          else (value, char :: rest)
      | none => (value, char :: rest)
  | _, value, rest => (value, rest)

/-- Exactly the given number of hexadecimal digits. -/
def readHex? : Nat → Nat → List Char → Option (Nat × List Char)
  | 0, value, rest => some (value, rest)
  | count + 1, value, char :: rest =>
      match digitOf? 16 char with
      | some digit => readHex? count (value * 16 + digit) rest
      | none => none
  | _ + 1, _, [] => none

/-- Hexadecimal digits up to a closing brace; `value` is what the digits so far stand for. -/
def readBraced : Option Nat → List Char → Read (Nat × List Char)
  | _, [] => .error .missingBrace
  | value, char :: rest =>
      if char = '\x7d' then
        match value with
        | some value => .ok (value, rest)
        | none => .error .missingHex
      else
        match digitOf? 16 char with
        | none => .error .missingBrace
        | some digit =>
            let longer := value.getD 0 * 16 + digit
            if lastCode < longer then .error .hexTooLarge
            else readBraced (some longer) rest

/-- The control character of a letter. -/
def controlCode? (char : Char) : Option Nat :=
  let code := if 'a' ≤ char ∧ char ≤ 'z' then char.toNat - 32 else char.toNat
  if 0x40 ≤ code ∧ code < 0x60 then some (code - 0x40) else none

/-- The code point of an escape, given the character after the backslash. -/
def readEscape (options : Options) (char : Char) (rest : List Char) : Read (Nat × List Char) :=
  if (digitOf? 8 char).isSome then .ok (readOctal 3 0 (char :: rest))
  else
    match char with
    | 'x' => .ok ((readHex? 2 0 rest).getD (char.toNat, rest))
    | 'u' =>
        match options.braced, rest with
        | true, '\x7b' :: after => readBraced none after
        | _, _ => .ok ((readHex? 4 0 rest).getD (char.toNat, rest))
    | 'a' => .ok (0x07, rest)
    | 'b' => .ok (0x08, rest)
    | 'e' => .ok (0x1B, rest)
    | 'f' => .ok (0x0C, rest)
    | 'n' => .ok (0x0A, rest)
    | 'r' => .ok (0x0D, rest)
    | 't' => .ok (0x09, rest)
    | 'v' => .ok (0x0B, rest)
    | 'c' =>
        match rest with
        | letter :: after =>
            match controlCode? letter with
            | some code => .ok (code, after)
            | none => .ok (char.toNat, rest)
        | [] => .ok (char.toNat, rest)
    | _ => .ok (char.toNat, rest)

/-- The characters after an escape, whatever it stands for. -/
def skipEscape (options : Options) (char : Char) (rest : List Char) : List Char :=
  match readEscape options char rest with
  | .ok (_, after) => after
  | .error _ => rest

/-- The class of a name. -/
def classNamed (inverted : Bool) (name : String) : Read ClassTest :=
  match Text.namedClass? name with
  | some pieces => .ok ⟨name, inverted, pieces⟩
  | none => .error (.unknownProperty name)

/-- Read the name of a class: one letter, or a name in braces. -/
def readProperty (inverted : Bool) (rest : List Char) : Read (ClassTest × List Char) :=
  match rest with
  | [] => .error .incompleteProperty
  | '\x7b' :: after =>
      if rest.length < 3 then .error .incompleteProperty
      else
        let name := after.takeWhile fun char => Text.isNameChar char || char == '-'
        match after.drop name.length with
        | '\x7d' :: left => (classNamed inverted (String.ofList name)).map (·, left)
        | _ => .error .incompleteProperty
  | letter :: after => (classNamed inverted (String.singleton letter)).map (·, after)

/-- The classes a named one brings into a set: letters of any case if case is left aside. -/
def foldedClasses (folded : Bool) (test : ClassTest) : List ClassTest :=
  if folded && ["Ll", "Lu", "Lt"].contains test.name then
    ["Ll", "Lu", "Lt"].filterMap fun name =>
      (Text.namedClass? name).map (⟨name, test.inverted, ·⟩)
  else [test]

end ScriptEngine.Pattern
