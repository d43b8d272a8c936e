import ScriptEngine.Code.Listing
import ScriptEngine.Proofs.Code.Numbering
import ScriptEngine.Proofs.Number.RoundTrip
import ScriptEngine.Proofs.Program.ReadingBack

namespace ScriptEngine

/-!
# The functions that listings refer to

A reader of a listing finds the functions it refers to by `closure(` outside of quotes; the label
of the function follows.  This module shows that the reader finds in the text of code just the
functions that the code mentions, in this order.  It stumbles neither over quoted texts, whatever
they quote, nor over the names in the head of a function.
-/

variable {numbers others : List Nat} {text first : String} {char stop : Char} {rest : List String}

/-- The label of a number in listings. -/
def functionLabel (number : Nat) : String := "f" ++ toString number

namespace Listing

/-- What a reader of a listing is in. -/
inductive Part where
  | code
  | quotes
  /-- Behind a backslash in quotes. -/
  | escape

/-- What stands before the label of a function. -/
def opening : List Char := ['c', 'l', 'o', 's', 'u', 'r', 'e', '(']

/-- The labels of the functions that a text refers to. -/
def referencesFrom : Part → List Char → List String
  | _, [] => []
  | .code, '"' :: rest => referencesFrom .quotes rest
  | .code, char :: rest =>
      if opening.isPrefixOf (char :: rest) then
        String.ofList (((char :: rest).drop opening.length).takeWhile fun char =>
          char != ',' && char != ')') :: referencesFrom .code rest
      else referencesFrom .code rest
  | .quotes, '\\' :: rest => referencesFrom .escape rest
  | .quotes, '"' :: rest => referencesFrom .code rest
  | .quotes, _ :: rest => referencesFrom .quotes rest
  | .escape, _ :: rest => referencesFrom .quotes rest

/-- The labels of the functions that a listing refers to, in the order of the references. -/
def references (listing : String) : List String := referencesFrom .code listing.toList

example : references "call(closure(f1, \"closure(f0)\"), undefined, [closure(f0)])\n" =
    ["f1", "f0"] :=
  rfl

/-! ## Texts that refer to functions -/

/-- A text refers to the functions with certain numbers, whatever follows it. -/
def Refers (text : String) (numbers : List Nat) : Prop :=
  ∀ rest, referencesFrom .code (text.toList ++ rest) =
    numbers.map functionLabel ++ referencesFrom .code rest

theorem Refers.references_eq (refers : Refers text numbers) :
    references text = numbers.map functionLabel := by
  have all := refers []
  rwa [List.append_nil, referencesFrom, List.append_nil] at all

namespace Refers

theorem empty : Refers "" [] :=
  fun _ => rfl

theorem append
    {more : String}
    (refers : Refers text numbers)
    (moreRefers : Refers more others) :
    Refers (text ++ more) (numbers ++ others) := by
  intro rest
  rw [String.toList_append, List.append_assoc, refers, moreRefers, List.map_append,
    List.append_assoc]

theorem of_eq (refers : Refers text numbers) (same : numbers = others) :
    Refers text others :=
  same ▸ refers

end Refers

/-! ## Texts without references -/

theorem referencesFrom_code_cons
    {rest : List Char}
    (noQuote : char ≠ '"')
    (notOpening : ¬ opening <+: char :: rest) :
    referencesFrom .code (char :: rest) = referencesFrom .code rest := by
  rw [referencesFrom, if_neg (by rwa [List.isPrefixOf_iff_prefix])]
  exact noQuote

/-- Nothing starts with the opening in a text without a bracket that ends in something else. -/
theorem not_opening_of_forall_ne
    {text rest : List Char}
    (noBracket : '(' ∉ text)
    (stops : stop ∉ opening) :
    ¬ opening <+: text ++ stop :: rest := by
  intro starts
  rcases Nat.lt_or_ge text.length opening.length with isShort | isLong
  · have isStop : opening[text.length]? = some stop := by
      obtain ⟨more, isText⟩ := starts
      have same := congrArg (·[text.length]?) isText
      rwa [List.getElem?_append_left isShort, List.getElem?_append_right (Nat.le_refl _),
        Nat.sub_self] at same
    exact stops (List.mem_of_getElem? isStop)
  · have isPrefix : opening <+: text :=
      List.prefix_of_prefix_length_le starts (List.prefix_append _ _) isLong
    exact noBracket (isPrefix.subset (by decide))

/-- A text refers to no function if it has no quotes and brackets and ends in a fitting mark. -/
theorem refers_of_forall_ne
    {mark : String}
    (plain : ∀ char ∈ text.toList, char ≠ '(' ∧ char ≠ '"')
    (isMark : mark.toList = [stop])
    (stops : stop ∉ opening)
    (noQuote : stop ≠ '"') :
    Refers (text ++ mark) [] := by
  intro rest
  rw [String.toList_append, isMark, List.append_assoc, List.singleton_append]
  generalize text.toList = chars at plain
  induction chars with
  | nil =>
      have notOpening : ¬ opening <+: [] ++ stop :: rest :=
        not_opening_of_forall_ne List.not_mem_nil stops
      exact referencesFrom_code_cons noQuote notOpening
  | cons char others inductionHypothesis =>
      have isPlain := List.forall_mem_cons.mp plain
      rw [List.cons_append, referencesFrom_code_cons isPlain.1.2, inductionHypothesis isPlain.2]
      rw [← List.cons_append]
      exact not_opening_of_forall_ne (fun member => (plain _ member).1 rfl) stops

/-- A text refers to no function if it lacks the first letter of the opening and has no quotes. -/
theorem refers_of_forall_ne_c
    (plain : ∀ char ∈ text.toList, char ≠ 'c' ∧ char ≠ '"') :
    Refers text [] := by
  intro rest
  generalize text.toList = chars at plain
  induction chars with
  | nil => rfl
  | cons char others inductionHypothesis =>
      have isPlain := List.forall_mem_cons.mp plain
      rw [List.cons_append, referencesFrom_code_cons isPlain.1.2, inductionHypothesis isPlain.2]
      intro starts
      exact isPlain.1.1 (List.cons_prefix_cons.mp starts).1.symm

/-! ## Quoted texts -/

/-- Characters that do not end the quotes are passed over. -/
theorem referencesFrom_quotes_append
    {chars : List Char}
    (inner : ∀ char ∈ chars, char ≠ '\\' ∧ char ≠ '"')
    (rest : List Char) :
    referencesFrom .quotes (chars ++ rest) = referencesFrom .quotes rest := by
  induction chars with
  | nil => rfl
  | cons char others inductionHypothesis =>
      have isInner := List.forall_mem_cons.mp inner
      rw [List.cons_append, referencesFrom, inductionHypothesis isInner.2]
      · exact isInner.1.1
      · exact isInner.1.2

theorem referencesFrom_escaped (char : Char) (rest : List Char) :
    referencesFrom .quotes ('\\' :: char :: rest) = referencesFrom .quotes rest := by
  rw [referencesFrom, referencesFrom]

theorem exists_digitChar_of_mem_toDigits
    {base value : Nat}
    (isBase : 1 < base)
    (member : char ∈ Nat.toDigits base value) :
    ∃ digit, char = Nat.digitChar digit := by
  induction value using Nat.strongRecOn with
  | ind value inductionHypothesis =>
      rw [Nat.toDigits_eq_if isBase] at member
      split at member
      · exact ⟨_, List.mem_singleton.mp member⟩
      · rename_i isLarge
        rcases List.mem_append.mp member with isFront | isLast
        · exact inductionHypothesis _ (Nat.div_lt_self (by omega) isBase) isFront
        · exact ⟨_, List.mem_singleton.mp isLast⟩

/-- The digits of a value in hexadecimal do not end quotes. -/
theorem referencesFrom_hexText (width value : Nat) (rest : List Char) :
    referencesFrom .quotes ((Text.hexText width value).toList ++ rest) =
      referencesFrom .quotes rest := by
  refine referencesFrom_quotes_append (fun char member => ?_) rest
  rw [Text.hexText, String.toList_ofList] at member
  rcases List.mem_append.mp member with isFill | isDigit
  · rw [List.eq_of_mem_replicate isFill]
    decide
  · obtain ⟨digit, rfl⟩ := exists_digitChar_of_mem_toDigits (by decide) isDigit
    simp

theorem referencesFrom_escapedDigits
    {mark : String}
    {letter : Char}
    (isMark : mark.toList = ['\\', letter])
    (width value : Nat)
    (rest : List Char) :
    referencesFrom .quotes ((mark ++ Text.hexText width value).toList ++ rest) =
      referencesFrom .quotes rest := by
  rw [String.toList_append, isMark, List.append_assoc, List.cons_append, List.cons_append,
    List.nil_append, referencesFrom_escaped, referencesFrom_hexText]

/-- A character in double quotes does not end them. -/
theorem referencesFrom_quotedChar (char : Char) (rest : List Char) :
    referencesFrom .quotes ((Text.quotedChar '"' char).toList ++ rest) =
      referencesFrom .quotes rest := by
  unfold Text.quotedChar
  split
  · rw [String.toList_ofList]
    exact referencesFrom_escaped char rest
  · rename_i notMark
    have isInner : char ≠ '\\' ∧ char ≠ '"' := by simpa [and_comm] using notMark
    split
    · rw [String.toList_singleton]
      exact referencesFrom_quotes_append (by simpa using isInner) rest
    · dsimp only
      split
      · rw [String.toList_ofList]
        exact referencesFrom_escaped _ rest
      · split
        · exact referencesFrom_escapedDigits rfl 2 _ rest
        · split
          · exact referencesFrom_escapedDigits rfl 4 _ rest
          · exact referencesFrom_escapedDigits rfl 8 _ rest

/-- Nothing in quotes is taken for a reference. -/
theorem refers_quoted (text : String) : Refers (Text.quoted text) [] := by
  have inner (chars : List Char) (rest : List Char) :
      referencesFrom .quotes
        ((String.join (chars.map (Text.quotedChar '"'))).toList ++ '"' :: rest) =
          referencesFrom .code rest := by
    induction chars with
    | nil => rfl
    | cons char others inductionHypothesis =>
        rw [List.map_cons, String.join_cons, String.toList_append, List.append_assoc,
          referencesFrom_quotedChar, inductionHypothesis]
  intro rest
  unfold Text.quoted
  rw [String.toList_append, String.toList_append, List.append_assoc, List.append_assoc]
  have ended := inner text.toList rest
  generalize String.join (text.toList.map (Text.quotedChar '"')) = body at ended ⊢
  exact ended

/-! ## Numbers, constants and labels -/

theorem plain_of_mem_signed
    {numeral : Number.Numeral}
    {minus : Bool}
    (proper : numeral.IsProper)
    (member : char ∈ Number.signed minus numeral) :
    char ≠ 'c' ∧ char ≠ '"' := by
  have plain_digit (digit : Char) (isDigit : digit.isDigit = true) : digit ≠ 'c' ∧ digit ≠ '"' :=
    ⟨fun same => absurd (same ▸ isDigit) (by decide),
      fun same => absurd (same ▸ isDigit) (by decide)⟩
  have plain_text (char : Char) (member : char ∈ numeral.text) : char ≠ 'c' ∧ char ≠ '"' := by
    unfold Number.Numeral.text at member
    rcases List.mem_append.mp member with isWhole | isOther
    · exact plain_digit char (proper.whole char isWhole)
    · rcases List.mem_append.mp isOther with isPointed | isScaled
      · unfold Number.Numeral.pointed at isPointed
        split at isPointed
        · cases isPointed
        · rcases List.mem_cons.mp isPointed with rfl | isFraction
          · decide
          · exact plain_digit char (proper.fraction char isFraction)
      · unfold Number.Numeral.scaled at isScaled
        split at isScaled
        · cases isScaled
        · rename_i negative digits isExponent
          rcases List.mem_cons.mp isScaled with rfl | isLater
          · decide
          · rcases List.mem_cons.mp isLater with rfl | isDigit
            · split <;> decide
            · exact plain_digit char ((proper.exponent negative digits isExponent).2 char isDigit)
  unfold Number.signed at member
  split at member
  · rcases List.mem_cons.mp member with rfl | isText
    · decide
    · exact plain_text char isText
  · exact plain_text char member

theorem refers_numberText (value : Float) : Refers (Number.text value) [] := by
  have isText : Number.text value = Number.Layout.script.text value := rfl
  unfold Number.Layout.text at isText
  split at isText
  · rw [isText]
    exact fun _ => rfl
  · rw [isText]
    split <;> exact fun _ => rfl
  · rename_i finite
    obtain ⟨minus, numeral, read, proper, isNumeral, -⟩ := Number.text_reads_back finite
    refine refers_of_forall_ne_c fun char member => ?_
    rw [isNumeral] at member
    exact plain_of_mem_signed proper member

theorem refers_constant (constant : Constant) : Refers constant.text [] := by
  cases constant with
  | undefined => exact fun _ => rfl
  | number value => exact refers_numberText value
  | string value => exact refers_quoted value
  | boolean value => cases value <;> exact fun _ => rfl

theorem isDigit_of_mem_functionLabel
    {number : Nat}
    (member : char ∈ (functionLabel number).toList) :
    char = 'f' ∨ char.isDigit = true := by
  rw [functionLabel, String.toList_append] at member
  rcases List.mem_append.mp member with isLetter | isDigit
  · exact .inl (List.mem_singleton.mp isLetter)
  · rw [Nat.toString_eq_ofList_toDigits, String.toList_ofList] at isDigit
    exact .inr (Nat.isDigit_of_mem_toDigits (by decide) (by decide) isDigit)

/-- The label behind the opening is read up to a comma or a bracket. -/
theorem referencesFrom_opening
    (number : Nat)
    (stops : stop = ',' ∨ stop = ')')
    (rest : List Char) :
    referencesFrom .code (opening ++ ((functionLabel number).toList ++ stop :: rest)) =
      functionLabel number :: referencesFrom .code (stop :: rest) := by
  have noOther (char : Char) (member : char ∈ (functionLabel number).toList) :
      char ≠ ',' ∧ char ≠ ')' ∧ char ≠ 'c' ∧ char ≠ '"' := by
    rcases isDigit_of_mem_functionLabel member with rfl | isDigit
    · decide
    · refine ⟨?_, ?_, ?_, ?_⟩ <;>
        exact fun same => absurd (same ▸ isDigit) (by decide)
  have isLabel : ((functionLabel number).toList ++ stop :: rest).takeWhile
      (fun char => char != ',' && char != ')') = (functionLabel number).toList := by
    rw [List.takeWhile_append_of_pos]
    · rcases stops with rfl | rfl <;> simp
    · intro char member
      simp [noOther char member]
  have remaining : Refers ("losure(" ++ functionLabel number) [] := by
    refine refers_of_forall_ne_c fun char member => ?_
    rw [String.toList_append] at member
    rcases List.mem_append.mp member with isOpening | isLabel
    · have all : ∀ char ∈ "losure(".toList, char ≠ 'c' ∧ char ≠ '"' := by simp
      exact all char isOpening
    · exact (noOther char isLabel).2.2
  have passed := remaining (stop :: rest)
  rw [String.toList_append, List.append_assoc] at passed
  change referencesFrom .code ('c' :: ("losure(".toList ++ _)) = _
  rw [referencesFrom, if_pos, passed]
  · change String.ofList (List.takeWhile _ ((functionLabel number).toList ++ stop :: rest)) :: _ = _
    rw [isLabel, String.ofList_toList]
    rfl
  · rw [List.isPrefixOf_iff_prefix]
    exact List.prefix_append opening _
  · decide

/-! ## The texts of operations -/

theorem refers_separated_cons
    (isFirst : Refers first numbers)
    (isRest : Refers (separated ", " rest) others) :
    Refers (separated ", " (first :: rest)) (numbers ++ others) := by
  unfold separated at isRest ⊢
  cases rest with
  | nil =>
      rw [String.intercalate_singleton]
      rw [String.intercalate_nil] at isRest
      have none : others.map functionLabel = [] := isRest.references_eq.symm
      rw [List.map_eq_nil_iff.mp none, List.append_nil]
      exact isFirst
  | cons second later =>
      rw [String.intercalate_cons_cons]
      have isComma : Refers ", " [] := fun _ => rfl
      exact ((isFirst.append isComma).append isRest).of_eq (by rw [List.append_nil])

theorem refers_applied
    {operation : String}
    {operands : List String}
    (isOperation : Refers operation [])
    (areOperands : Refers (separated ", " operands) numbers) :
    Refers (applied operation operands) numbers := by
  have isOpening : Refers "(" [] := fun _ => rfl
  have isClosing : Refers ")" [] := fun _ => rfl
  exact (((isOperation.append isOpening).append areOperands).append isClosing).of_eq
    (by rw [List.append_nil, List.nil_append, List.nil_append])

theorem refers_bracketed
    {parts : List String}
    (areParts : Refers (separated ", " parts) numbers) :
    Refers (bracketed parts) numbers := by
  have isOpening : Refers "[" [] := fun _ => rfl
  have isClosing : Refers "]" [] := fun _ => rfl
  exact ((isOpening.append areParts).append isClosing).of_eq (by simp)

theorem refers_single {operand : String} (isOperand : Refers operand numbers) :
    Refers (separated ", " [operand]) numbers := by
  rw [separated, String.intercalate_singleton]
  exact isOperand

theorem refers_quotedNames (names : List String) :
    Refers (separated ", " (names.map Text.quoted)) [] := by
  induction names with
  | nil => exact .empty
  | cons first rest inductionHypothesis =>
      exact refers_separated_cons (refers_quoted first) inductionHypothesis

/-- A function is referred to by its label. -/
theorem refers_closure (number : Nat) :
    Refers (applied "closure" [functionLabel number]) [number] := by
  intro rest
  have isText : (applied "closure" [functionLabel number]).toList ++ rest =
      opening ++ ((functionLabel number).toList ++ ')' :: rest) := by
    rw [applied, separated, String.intercalate_singleton]
    simp [opening]
  rw [isText, referencesFrom_opening number (.inr rfl)]
  rfl

/-- A function is also referred to by its label in front of something else. -/
theorem refers_namedClosure
    {name : String}
    (number : Nat)
    (isName : Refers name []) :
    Refers (applied "closure" [functionLabel number, name]) [number] := by
  intro rest
  have isText : (applied "closure" [functionLabel number, name]).toList ++ rest =
      opening ++ ((functionLabel number).toList ++ ',' :: ' ' ::
        (name.toList ++ ')' :: rest)) := by
    rw [applied, separated, String.intercalate_cons_cons, String.intercalate_singleton]
    simp [opening]
  rw [isText, referencesFrom_opening number (.inl rfl)]
  exact congrArg _ (isName (')' :: rest))

/-- Two operands. -/
theorem refers_pair
    {second : String}
    (isFirst : Refers first numbers)
    (isSecond : Refers second others) :
    Refers (separated ", " [first, second]) (numbers ++ others) :=
  refers_separated_cons isFirst (refers_single isSecond)

/-- Three operands. -/
theorem refers_triple
    {second third : String}
    {more : List Nat}
    (isFirst : Refers first numbers)
    (isSecond : Refers second others)
    (isThird : Refers third more) :
    Refers (separated ", " [first, second, third]) (numbers ++ (others ++ more)) :=
  refers_separated_cons isFirst (refers_pair isSecond isThird)

theorem refers_binaryLabel (operator : BinaryOperator) : Refers operator.label [] := by
  cases operator <;> exact fun _ => rfl

theorem refers_unaryLabel (operator : UnaryOperator) : Refers operator.label [] := by
  cases operator <;> exact fun _ => rfl

end Listing

/-! ## The texts of terms -/

section

open Listing

mutual

/-- A term refers to the functions it mentions. -/
theorem Term.refers :
    ∀ term : Term, Refers term.text term.mentions
  | .constant value => refers_constant value
  | .this => fun _ => rfl
  | .pattern pattern => by
      have isOperation : Refers "regexp" [] := fun _ => rfl
      exact refers_applied isOperation (refers_pair (refers_quoted _) (refers_quoted _))
  | .array elements => by
      have isOperation : Refers "array" [] := fun _ => rfl
      exact refers_applied isOperation (refers_single (refers_bracketed (Term.refersOf elements)))
  | .object entries => by
      have isOpening : Refers "object(\x7b" [] := fun _ => rfl
      have isClosing : Refers "\x7d)" [] := fun _ => rfl
      exact ((isOpening.append (Entry.refersOf entries)).append isClosing).of_eq
        (List.append_nil _)
  | .closure routine => by
      change Refers (if routine.name.isEmpty then _ else _) [routine.number]
      split
      · exact refers_closure routine.number
      · exact refers_namedClosure routine.number (refers_quoted routine.name)
  | .unary operator operand _ =>
      refers_applied (refers_unaryLabel operator) (refers_single (Term.refers operand))
  | .typeofVariable name => by
      have isOpening : Refers "typeof(lookup(" [] := fun _ => rfl
      have isClosing : Refers "))" [] := fun _ => rfl
      exact (isOpening.append (refers_quoted name)).append isClosing
  | .typeof operand => by
      have isOperation : Refers "typeof" [] := fun _ => rfl
      exact refers_applied isOperation (refers_single (Term.refers operand))
  | .delete (.variable name) _ => by
      have isOperation : Refers "delete" [] := fun _ => rfl
      exact refers_applied isOperation (refers_single (refers_quoted name))
  | .delete (.property base key) _ => by
      have isOperation : Refers "deleteprop" [] := fun _ => rfl
      exact refers_applied isOperation (refers_pair (Term.refers base) (Key.refers key))
  | .strict operator left right _ =>
      refers_applied (refers_binaryLabel operator)
        (refers_pair (Term.refers left) (Term.refers right))
  | .both left right => by
      have isOperation : Refers "and" [] := fun _ => rfl
      exact refers_applied isOperation (refers_pair (Term.refers left) (Term.refers right))
  | .either left right => by
      have isOperation : Refers "or" [] := fun _ => rfl
      exact refers_applied isOperation (refers_pair (Term.refers left) (Term.refers right))
  | .read place _ => Place.refers_readText place
  | .assign place value _ => Place.refers_writeText place (Term.refers value)
  | .combine operator place value _ =>
      Place.refers_writeText place (refers_applied (refers_binaryLabel operator)
        (refers_pair (Place.refers_readText place) (Term.refers value)))
  | .update operator fixity place _ => by
      have isOperation : Refers "update" [] := fun _ => rfl
      have isLabel : Refers operator.label [] := by cases operator <;> exact fun _ => rfl
      have isFixity : Refers fixity.text [] := by cases fixity <;> exact fun _ => rfl
      exact (refers_applied isOperation
        (refers_triple (Place.refers_referenceText place) isLabel isFixity)).of_eq
          (List.append_nil _)
  | .conditional condition consequence alternative => by
      have isOperation : Refers "cond" [] := fun _ => rfl
      exact refers_applied isOperation
        (refers_triple (Term.refers condition) (Term.refers consequence) (Term.refers alternative))
  | .sequence terms => by
      have isOperation : Refers "comma" [] := fun _ => rfl
      exact refers_applied isOperation (Term.refersOf terms)
  | .call callee arguments _ _ => by
      have isOperation : Refers "call" [] := fun _ => rfl
      have isThis : Refers "undefined" [] := fun _ => rfl
      exact refers_applied isOperation
        (refers_triple (Term.refers callee) isThis (refers_bracketed (Term.refersOf arguments)))
  | .callMethod base key arguments _ _ => by
      have isOperation : Refers "callmethod" [] := fun _ => rfl
      exact refers_applied isOperation
        (refers_triple (Term.refers base) (Key.refers key)
          (refers_bracketed (Term.refersOf arguments)))
  | .construct constructor arguments _ => by
      have isOperation : Refers "new" [] := fun _ => rfl
      exact refers_applied isOperation
        (refers_pair (Term.refers constructor) (refers_bracketed (Term.refersOf arguments)))

theorem Key.refers :
    ∀ key : Key, Refers key.text key.mentions
  | .fixed name => refers_quoted name
  | .computed term => Term.refers term

theorem Place.refers_readText :
    ∀ place : Place, Refers place.readText place.mentions
  | .variable name => by
      have isOperation : Refers "get" [] := fun _ => rfl
      exact refers_applied isOperation (refers_single (refers_quoted name))
  | .property base key => by
      have isOperation : Refers "getprop" [] := fun _ => rfl
      exact refers_applied isOperation (refers_pair (Term.refers base) (Key.refers key))

theorem Place.refers_writeText {value : String} {numbers : List Nat} :
    ∀ place : Place, Refers value numbers →
      Refers (place.writeText value) (place.mentions ++ numbers)
  | .variable name, isValue => by
      have isOperation : Refers "set" [] := fun _ => rfl
      exact refers_applied isOperation (refers_pair (refers_quoted name) isValue)
  | .property base key, isValue => by
      have isOperation : Refers "setprop" [] := fun _ => rfl
      exact (refers_applied isOperation
        (refers_triple (Term.refers base) (Key.refers key) isValue)).of_eq
          (List.append_assoc _ _ _).symm

theorem Place.refers_referenceText :
    ∀ place : Place, Refers place.referenceText place.mentions
  | .variable name => by
      have isOperation : Refers "ref" [] := fun _ => rfl
      exact refers_applied isOperation (refers_single (refers_quoted name))
  | .property base key => by
      have isOperation : Refers "propref" [] := fun _ => rfl
      exact refers_applied isOperation (refers_pair (Term.refers base) (Key.refers key))

theorem Term.refersOf :
    ∀ terms : List Term, Refers (separated ", " (Term.texts terms)) (Term.mentionsOf terms)
  | [] => .empty
  | first :: rest => refers_separated_cons (Term.refers first) (Term.refersOf rest)

theorem Entry.refersOf :
    ∀ entries : List Entry,
      Refers (separated ", " (Entry.texts entries)) (Entry.mentionsOf entries)
  | [] => .empty
  | .mk key value :: rest => by
      have isColon : Refers ": " [] := fun _ => rfl
      exact refers_separated_cons (((refers_quoted key).append isColon).append (Term.refers value))
        (Entry.refersOf rest)

end

end

/-! ## The lines of statements -/

namespace Listing

theorem refers_linesCons
    {line : String}
    (isLine : Refers line numbers)
    (areLines : Refers (linesText rest) others) :
    Refers (linesText (line :: rest)) (numbers ++ others) := by
  have isEnd : Refers "\n" [] := fun _ => rfl
  rw [linesText, List.map_cons, String.join_cons]
  exact ((isLine.append isEnd).append areLines).of_eq (by rw [List.append_nil])

theorem refers_line {line : String} (isLine : Refers line numbers) :
    Refers (linesText [line]) numbers := by
  have noLines : Refers (linesText []) [] := .empty
  exact (refers_linesCons isLine noLines).of_eq (List.append_nil _)

theorem refers_linesAppend
    {lines : List String}
    (areLines : Refers (linesText lines) numbers)
    (areOthers : Refers (linesText rest) others) :
    Refers (linesText (lines ++ rest)) (numbers ++ others) := by
  rw [linesText, List.map_append, String.join_append]
  exact areLines.append areOthers

theorem refers_indented
    (depth : Nat)
    (isText : Refers text numbers) :
    Refers (indented depth text) numbers := by
  have isBlank : Refers "    " [] := fun _ => rfl
  have areBlanks : Refers (Text.repeated "    " depth) [] := by
    induction depth with
    | zero => exact .empty
    | succ depth inductionHypothesis => exact isBlank.append inductionHypothesis
  exact areBlanks.append isText

/-- The lines of a body stand between two lines, and only the first of these refers to functions. -/
theorem refers_enclosed
    {front back : String}
    {body : List String}
    (depth : Nat)
    (isFront : Refers front numbers)
    (isBody : Refers (linesText body) others)
    (isBack : Refers back []) :
    Refers (linesText (indented depth front :: body ++ [indented depth back]))
      (numbers ++ others) :=
  (refers_linesAppend (refers_linesCons (refers_indented depth isFront) isBody)
    (refers_line (refers_indented depth isBack))).of_eq (List.append_nil _)

theorem refers_labelsText (labels : List String) :
    Refers (separated ", " (labelsText labels)) [] := by
  unfold labelsText
  split
  · exact .empty
  · have isWord : Refers "labels=" [] := fun _ => rfl
    exact refers_single (isWord.append (refers_bracketed (refers_quotedNames labels)))

theorem refers_optionalText {missing : String} (isMissing : Refers missing []) :
    ∀ term : Option Term, Refers (optionalText missing term) (Term.mentionsOfOption term) := by
  rintro (_ | term)
  · exact isMissing
  · exact term.refers

theorem refers_bindings (depth : Nat) :
    ∀ bindings : List Binding,
      Refers (linesText (bindings.map fun binding => indented depth binding.line))
        (Binding.mentionsOf bindings)
  | [] => .empty
  | .mk name none :: rest => by
      have isOperation : Refers "declare" [] := fun _ => rfl
      exact refers_linesCons
        (refers_indented depth (refers_applied isOperation (refers_single (refers_quoted name))))
        (refers_bindings depth rest)
  | .mk name (some value) :: rest => by
      have isOperation : Refers "declare" [] := fun _ => rfl
      exact refers_linesCons (refers_indented depth
        (refers_applied isOperation (refers_pair (refers_quoted name) value.refers)))
          (refers_bindings depth rest)

/-- Jumps refer to no function. -/
theorem refers_jump
    {operation : String}
    (isOperation : Refers operation [])
    (depth : Nat)
    (label : Option String) :
    Refers (linesText
      [indented depth ("return " ++ applied operation (label.toList.map Text.quoted))]) [] := by
  have isReturn : Refers "return " [] := fun _ => rfl
  exact refers_line (refers_indented depth
    (isReturn.append (refers_applied isOperation (refers_quotedNames label.toList))))

end Listing

section

open Listing

mutual

/-- A statement refers to the functions it mentions. -/
theorem Action.refers :
    ∀ (action : Action) (depth : Nat), Refers (linesText (action.lines depth)) action.mentions
  | .evaluate term, depth => refers_line (refers_indented depth term.refers)
  | .check condition shown _, depth => by
      have isOperation : Refers "assert" [] := fun _ => rfl
      exact refers_line (refers_indented depth ((refers_applied isOperation
        (refers_pair condition.refers (refers_quoted shown))).of_eq (List.append_nil _)))
  | .declare bindings, depth => refers_bindings depth bindings
  | .define routine, depth => by
      have isOperation : Refers "declare" [] := fun _ => rfl
      exact refers_line (refers_indented depth (refers_applied isOperation
        (refers_pair (refers_quoted routine.name) (refers_closure routine.number))))
  | .giveBack value, depth => by
      have isReturn : Refers "return " [] := fun _ => rfl
      have isMissing : Refers "undefined" [] := fun _ => rfl
      exact refers_line
        (refers_indented depth (isReturn.append (refers_optionalText isMissing value)))
  | .block body, depth => by
      have isFront : Refers "\x7b" [] := fun _ => rfl
      have isBack : Refers "\x7d" [] := fun _ => rfl
      exact refers_enclosed depth isFront (Action.refersOf body (depth + 1)) isBack
  | .branch condition consequence none, depth => by
      have isIf : Refers "if truthy(" [] := fun _ => rfl
      have isThen : Refers ") \x7b" [] := fun _ => rfl
      have isBack : Refers "\x7d" [] := fun _ => rfl
      exact (refers_enclosed depth ((isIf.append condition.refers).append isThen)
        (Action.refersOf consequence (depth + 1)) isBack).of_eq (by simp [Action.mentions,
          Action.mentionsOfAlternative])
  | .branch condition consequence (some alternative), depth => by
      have isIf : Refers "if truthy(" [] := fun _ => rfl
      have isThen : Refers ") \x7b" [] := fun _ => rfl
      have isElse : Refers "\x7d else \x7b" [] := fun _ => rfl
      have isBack : Refers "\x7d" [] := fun _ => rfl
      have areThen := refers_linesCons
        (refers_indented depth ((isIf.append condition.refers).append isThen))
        (Action.refersOf consequence (depth + 1))
      have areElse := refers_enclosed depth isElse (Action.refersOf alternative (depth + 1)) isBack
      rw [Action.lines, List.append_assoc]
      exact (refers_linesAppend areThen areElse).of_eq (by simp [Action.mentions,
        Action.mentionsOfAlternative])
  | .whileLoop labels condition body, depth => by
      have isOperation : Refers "whileloop" [] := fun _ => rfl
      have isThen : Refers " \x7b" [] := fun _ => rfl
      have isBack : Refers "\x7d" [] := fun _ => rfl
      have isHead := refers_applied isOperation
        (refers_separated_cons condition.refers (refers_labelsText labels))
      exact (refers_enclosed depth (isHead.append isThen)
        (Action.refersOf body (depth + 1)) isBack).of_eq (by simp [Action.mentions])
  | .forLoop labels start condition update body, depth => by
      have isOperation : Refers "whileloop" [] := fun _ => rfl
      have isTrue : Refers "true" [] := fun _ => rfl
      have isUpdate : Refers "update=" [] := fun _ => rfl
      have isUndefined : Refers "undefined" [] := fun _ => rfl
      have isThen : Refers " \x7b" [] := fun _ => rfl
      have isBack : Refers "\x7d" [] := fun _ => rfl
      have isHead := refers_applied isOperation
        (refers_separated_cons (refers_optionalText isTrue condition)
          (refers_separated_cons (isUpdate.append (refers_optionalText isUndefined update))
            (refers_labelsText labels)))
      have isLoop := refers_enclosed depth (isHead.append isThen)
        (Action.refersOf body (depth + 1)) isBack
      rw [Action.lines, List.append_assoc]
      exact (refers_linesAppend (Action.refersOfOption start depth) isLoop).of_eq
        (by simp [Action.mentions])
  | .forIn labels name declares subject body, depth => by
      have isDeclare : Refers "declare" [] := fun _ => rfl
      have isOperation : Refers "forinloop" [] := fun _ => rfl
      have isThen : Refers " \x7b" [] := fun _ => rfl
      have isBack : Refers "\x7d" [] := fun _ => rfl
      have isHead := refers_applied isOperation (refers_separated_cons (refers_quoted name)
        (refers_separated_cons subject.refers (refers_labelsText labels)))
      have isLoop := refers_enclosed depth (isHead.append isThen)
        (Action.refersOf body (depth + 1)) isBack
      have isDeclared : Refers (linesText
          (if declares then [indented depth (applied "declare" [Text.quoted name])]
          else [])) [] := by
        split
        · exact refers_line
            (refers_indented depth (refers_applied isDeclare (refers_single (refers_quoted name))))
        · exact .empty
      rw [Action.lines, List.append_assoc]
      exact (refers_linesAppend isDeclared isLoop).of_eq (by simp [Action.mentions])
  | .labeled labels body, depth => by
      have isOperation : Refers "block" [] := fun _ => rfl
      have isThen : Refers " \x7b" [] := fun _ => rfl
      have isBack : Refers "\x7d" [] := fun _ => rfl
      exact refers_enclosed depth
        ((refers_applied isOperation (refers_labelsText labels)).append isThen)
          (Action.refersOf body (depth + 1)) isBack
  | .leave label, depth => refers_jump (fun _ => rfl) depth label
  | .again label, depth => refers_jump (fun _ => rfl) depth label
  | .select subject cases, depth => by
      have isSwitch : Refers "switch " [] := fun _ => rfl
      have isThen : Refers " \x7b" [] := fun _ => rfl
      have isBack : Refers "\x7d" [] := fun _ => rfl
      exact (refers_enclosed depth ((isSwitch.append subject.refers).append isThen)
        (Case.refersOf cases (depth + 1)) isBack).of_eq (by simp [Action.mentions])

theorem Action.refersOf :
    ∀ (actions : List Action) (depth : Nat),
      Refers (linesText (Action.linesOf depth actions)) (Action.mentionsOf actions)
  | [], _ => .empty
  | first :: rest, depth => refers_linesAppend (Action.refers first depth)
      (Action.refersOf rest depth)

theorem Action.refersOfOption :
    ∀ (action : Option Action) (depth : Nat),
      Refers (linesText (Action.linesOfOption depth action)) (Action.mentionsOfOption action)
  | none, _ => .empty
  | some action, depth => Action.refers action depth

theorem Case.refersOf :
    ∀ (cases : List Case) (depth : Nat),
      Refers (linesText (Case.linesOf depth cases)) (Case.mentionsOf cases)
  | [], _ => .empty
  | .mk none body :: rest, depth => by
      have isDefault : Refers "default:" [] := fun _ => rfl
      exact (refers_linesAppend (refers_linesCons (refers_indented depth isDefault)
        (Action.refersOf body (depth + 1))) (Case.refersOf rest depth)).of_eq (by
          simp [Case.mentionsOf, Term.mentionsOfOption])
  | .mk (some condition) body :: rest, depth => by
      have isCase : Refers "case stricteq(" [] := fun _ => rfl
      have isThen : Refers "):" [] := fun _ => rfl
      exact (refers_linesAppend (refers_linesCons
        (refers_indented depth ((isCase.append condition.refers).append isThen))
          (Action.refersOf body (depth + 1))) (Case.refersOf rest depth)).of_eq
            (by simp [Case.mentionsOf, Term.mentionsOfOption])

end

end

end ScriptEngine
