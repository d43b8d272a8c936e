import ScriptEngine.Machine.Json
import ScriptEngine.Proofs.Code.Escapes
import ScriptEngine.Proofs.Number.RoundTrip

namespace ScriptEngine.JsonTree

/-!
# Reading documents

A JSON text is read by its grammar: blanks between the parts, words for the constants and
the numbers, strings with their escapes, and brackets around items and members with a comma
between any two of them and none elsewhere.  What the writer makes of constants, numbers,
strings and parts that can be read is read again.
-/

variable {char : Char} {text : List Char} {texts : List (List Char)}

/-- A part of a text that was read, with what follows it. -/
abbrev Reader (α : Type) := List Char → Option (α × List Char)

/-- The blanks that may stand between the parts of a document. -/
def isBlank (char : Char) : Bool := char == ' ' || char == '\t' || char == '\n' || char == '\r'

def skipBlanks (text : List Char) : List Char := text.dropWhile isBlank

/-- The characters that end a word. -/
def isMark (char : Char) : Bool :=
  char == '"' || char == ',' || char == ':' || char == '[' || char == ']' || char == '\x7b' ||
    char == '\x7d' || isBlank char

/-- The character of a short escape. -/
def shortEscaped? : Char → Option Char
  | '"' => some '"'
  | '\\' => some '\\'
  | '/' => some '/'
  | 'b' => some (Char.ofNat 8)
  | 'f' => some (Char.ofNat 12)
  | 'n' => some '\n'
  | 'r' => some '\r'
  | 't' => some '\t'
  | _ => none

/-- The character of an escape whose backslash has been read.  Surrogates come in pairs. -/
def readEscape? : Reader Char
  | 'u' :: digits => do
      let (code, rest) ← hexDigits? 4 0 digits
      if code.isValidChar then some (Char.ofNat code, rest)
      else
        match rest with
        | '\\' :: 'u' :: digits => do
            let (low, rest) ← hexDigits? 4 0 digits
            let joined ← joinSurrogates? code low
            some (Char.ofNat joined, rest)
        | _ => none
  | letter :: rest => (shortEscaped? letter).map fun char => (char, rest)
  | [] => none

/-- A string whose opening quote has been read, with a budget of one step for a character. -/
def readString? : Nat → Reader (List Char)
  | 0, _ => none
  | _ + 1, [] => none
  | budget + 1, first :: rest =>
      if first = '"' then some ([], rest)
      else if first = '\\' then do
        let (char, rest) ← readEscape? rest
        let (chars, rest) ← readString? budget rest
        some (char :: chars, rest)
      else if first.toNat < 0x20 then none
      else do
        let (chars, rest) ← readString? budget rest
        some (first :: chars, rest)

/-- Whether a text is some digits. -/
def areDigits (text : List Char) : Bool := !text.isEmpty && text.all Char.isDigit

/-- Whether a text is nothing, or an exponent with its mark. -/
def isExponent : List Char → Bool
  | [] => true
  | mark :: rest => (mark == 'e' || mark == 'E') && areDigits (Number.splitSign rest).2

/-- A text without the minus in front of it. -/
def unsigned : List Char → List Char
  | '-' :: rest => rest
  | rest => rest

/-- Whether a text is a number by the grammar: no needless zero in front, and digits on both
sides of a point. -/
def isNumeral (word : List Char) : Bool :=
  let whole := (unsigned word).takeWhile Char.isDigit
  areDigits whole && (whole.head? != some '0' || whole == ['0']) &&
    match (unsigned word).dropWhile Char.isDigit with
    | '.' :: rest =>
        areDigits (rest.takeWhile Char.isDigit) && isExponent (rest.dropWhile Char.isDigit)
    | rest => isExponent rest

/-- What a word stands for: a constant or a number. -/
def ofWord? (word : List Char) : Option JsonTree :=
  if word = "null".toList then some .null
  else if word = "true".toList then some (.boolean true)
  else if word = "false".toList then some (.boolean false)
  else if isNumeral word then (Number.ofDecimal? word).map .number
  else none

/-- Parts with a comma after each but the last one, and the closing bracket after it. -/
def readParts? (closing : Char) (readPart : Reader α) : Nat → Reader (List α)
  | 0, _ => none
  | budget + 1, text => do
      let (part, rest) ← readPart text
      match skipBlanks rest with
      | [] => none
      | mark :: rest =>
          if mark = closing then some ([part], rest)
          else if mark = ',' then do
            let (parts, rest) ← readParts? closing readPart budget rest
            some (part :: parts, rest)
          else none

/-- The parts between two brackets of which the first one has been read. -/
def readBetween? (closing : Char) (readPart : Reader α) (budget : Nat) : Reader (List α) :=
  fun text =>
    match skipBlanks text with
    | [] => none
    | first :: rest =>
        if first = closing then some ([], rest) else readParts? closing readPart budget text

/-- A member: a name, a colon and a value. -/
def readMember? (readValue : Reader JsonTree) (budget : Nat) : Reader JsonMember :=
  fun text =>
    match skipBlanks text with
    | [] => none
    | first :: rest =>
        if first = '"' then do
          let (name, rest) ← readString? budget rest
          match skipBlanks rest with
          | [] => none
          | mark :: rest =>
              if mark = ':' then do
                let (value, rest) ← readValue rest
                some (.mk (String.ofList name) value, rest)
              else none
        else none

/-- A value, with a budget of one step for a character. -/
def readValue? : Nat → Reader JsonTree
  | 0, _ => none
  | budget + 1, text =>
      match skipBlanks text with
      | [] => none
      | first :: rest =>
          if first = '"' then
            (readString? budget rest).map fun (chars, rest) => (.string (String.ofList chars), rest)
          else if first = '[' then
            (readBetween? ']' (readValue? budget) budget rest).map fun (items, rest) =>
              (.array items, rest)
          else if first = '\x7b' then
            (readBetween? '\x7d' (readMember? (readValue? budget) budget) budget rest).map
              fun (members, rest) => (.object members, rest)
          else
            let word := (first :: rest).takeWhile (!isMark ·)
            (ofWord? word).map fun tree => (tree, (first :: rest).dropWhile (!isMark ·))

/-- The document of a JSON text, with nothing but blanks around it. -/
def read? (text : String) : Option JsonTree :=
  match readValue? (text.length + 1) text.toList with
  | some (tree, rest) => if (skipBlanks rest).isEmpty then some tree else none
  | none => none

-- A comma stands between two parts and nowhere else.
example : (read? "[1, 2]").isSome ∧ (read? "[1,]").isNone ∧ (read? "[,1]").isNone := by
  decide +kernel

/-! ## Strings -/

/-- The characters that are written with their code. -/
theorem hexDigits?_hexText {code : Nat} (isCoded : code < 0x20 ∨ code = 0x2028 ∨ code = 0x2029) :
    hexDigits? 4 0 (Text.hexText 4 code).toList = some (code, []) ∧ code.isValidChar := by
  rw [Text.hexText, String.toList_ofList]
  have small : ∀ code < 0x20,
      hexDigits? 4 0 (List.replicate (4 - (Nat.toDigits 16 code).length) '0' ++
        Nat.toDigits 16 code) = some (code, []) ∧ code.isValidChar := by
    decide
  rcases isCoded with isSmall | rfl | rfl
  · exact small code isSmall
  · decide
  · decide

theorem readEscape?_short
    {letter : Char}
    (isShort : shortEscape? char.toNat = some letter)
    (rest : List Char) :
    readEscape? (letter :: rest) = some (char, rest) := by
  have isChar : char = Char.ofNat char.toNat := (Char.ofNat_toNat char).symm
  generalize char.toNat = code at *
  unfold shortEscape? at isShort
  split at isShort <;> cases isShort <;> rw [isChar] <;> rfl

theorem readEscape?_coded
    (isCoded : char.toNat < 0x20 ∨ char.toNat = 0x2028 ∨ char.toNat = 0x2029)
    (rest : List Char) :
    readEscape? ('u' :: ((Text.hexText 4 char.toNat).toList ++ rest)) = some (char, rest) := by
  obtain ⟨isCode, isValid⟩ := hexDigits?_hexText isCoded
  rw [readEscape?, hexDigits?_append isCode rest]
  simp [isValid]

theorem readString?_escape
    {budget : Nat}
    {rest : List Char}
    (reads : readEscape? text = some (char, rest)) :
    readString? (budget + 1) ('\\' :: text) =
      (readString? budget rest).map fun (chars, rest) => (char :: chars, rest) := by
  rw [readString?, if_neg (by decide), if_pos rfl, reads]
  simp only [Option.bind_eq_bind, Option.bind_some]
  cases readString? budget rest <;> rfl

/-- A character of a string is read as it was written. -/
theorem readString?_escaped (budget : Nat) (char : Char) (rest : List Char) :
    readString? (budget + 1) ((escaped char).toList ++ rest) =
      (readString? budget rest).map fun (chars, rest) => (char :: chars, rest) := by
  unfold escaped
  cases isShort : shortEscape? char.toNat with
  | some letter =>
      simp only [String.toList_ofList, List.cons_append, List.nil_append]
      exact readString?_escape (readEscape?_short isShort rest)
  | none =>
      simp only
      split
      · rename_i isCoded
        have coded : char.toNat < 0x20 ∨ char.toNat = 0x2028 ∨ char.toNat = 0x2029 := by
          simpa [or_assoc] using isCoded
        rw [String.toList_append]
        exact readString?_escape (readEscape?_coded coded rest)
      · rename_i isPlain
        have notQuote : char ≠ '"' := by
          rintro rfl
          cases isShort
        have notBackslash : char ≠ '\\' := by
          rintro rfl
          cases isShort
        have visible : ¬ char.toNat < 0x20 := by
          intro hidden
          simp [hidden] at isPlain
        rw [String.toList_singleton, List.singleton_append, readString?, if_neg notQuote,
          if_neg notBackslash, if_neg visible]
        cases readString? budget rest <;> rfl

theorem escaped_nonEmpty (char : Char) : 0 < (escaped char).toList.length := by
  unfold escaped
  split
  · simp
  · split
    · rw [String.toList_append]
      simp
    · simp

/-- A string is read as it was written. -/
theorem readString?_quoted
    (chars : List Char)
    (budget : Nat)
    (rest : List Char)
    (enough : (chars.flatMap fun char => (escaped char).toList).length < budget) :
    readString? budget ((chars.flatMap fun char => (escaped char).toList) ++ '"' :: rest) =
      some (chars, rest) := by
  induction chars generalizing budget with
  | nil =>
      cases budget with
      | zero => exact absurd enough (Nat.not_lt_zero _)
      | succ budget => rw [List.flatMap_nil, List.nil_append, readString?, if_pos rfl]
  | cons char chars inductionHypothesis =>
      have nonEmpty := escaped_nonEmpty char
      rw [List.flatMap_cons, List.length_append] at enough
      cases budget with
      | zero => exact absurd enough (Nat.not_lt_zero _)
      | succ budget =>
          rw [List.flatMap_cons, List.append_assoc, readString?_escaped,
            inductionHypothesis budget (by omega)]
          rfl

theorem toList_quoted (text : String) :
    (quoted text).toList = '"' :: ((text.toList.flatMap fun char => (escaped char).toList) ++ ['"']) := by
  rw [quoted, String.toList_append, String.toList_append, String.toList_join, List.flatMap_map]
  rfl

/-! ## Parts -/

/-- What may follow a part: nothing, or a mark. -/
def Ends (rest : List Char) : Prop := ∀ char ∈ rest.head?, isMark char = true

/-- A text that starts with neither a blank nor a closing bracket. -/
structure Starts (text : List Char) : Prop where
  nonEmpty : text ≠ []
  first : ∀ char ∈ text.head?, isBlank char = false ∧ char ≠ ']' ∧ char ≠ '\x7d'

/-- A text is read as a part, whatever ends it. -/
structure Reads (read : Nat → Reader α) (text : List Char) (part : α) : Prop where
  starts : Starts text
  reads : ∀ budget rest, text.length < budget → Ends rest →
    read budget (text ++ rest) = some (part, rest)

theorem skipBlanks_cons {first : Char} (visible : isBlank first = false) (rest : List Char) :
    skipBlanks (first :: rest) = first :: rest := by
  rw [skipBlanks, List.dropWhile_cons_of_neg (by simp [visible])]

theorem isBlank_of_isMark (ordinary : isMark char = false) :
    isBlank char = false := by
  simp only [isMark, Bool.or_eq_false_iff] at ordinary
  exact ordinary.2

/-- A word is read as what it stands for. -/
theorem reads_word
    {word : List Char}
    {tree : JsonTree}
    (nonEmpty : word ≠ [])
    (ordinary : ∀ char ∈ word, isMark char = false)
    (means : ofWord? word = some tree) :
    Reads readValue? word tree := by
  obtain ⟨first, others, rfl⟩ := List.exists_cons_of_ne_nil nonEmpty
  have isOrdinary : isMark first = false := ordinary first (.head _)
  have notMark (char : Char) (mark : isMark char = true) : first ≠ char := by
    rintro rfl
    rw [isOrdinary] at mark
    cases mark
  have visible := isBlank_of_isMark isOrdinary
  refine ⟨⟨nofun, ?_⟩, ?_⟩
  · rintro _ ⟨⟩
    exact ⟨visible, notMark ']' rfl, notMark '\x7d' rfl⟩
  · intro budget rest enough ends
    cases budget with
    | zero => exact absurd enough (Nat.not_lt_zero _)
    | succ budget =>
        have allOrdinary : ∀ char ∈ first :: others, (!isMark char) = true := by
          intro char member
          rw [ordinary char member]
          rfl
        have stops : rest.takeWhile (!isMark ·) = [] ∧ rest.dropWhile (!isMark ·) = rest := by
          cases rest with
          | nil => exact ⟨rfl, rfl⟩
          | cons mark rest =>
              have isEnd : isMark mark = true := ends mark rfl
              simp [isEnd]
        rw [readValue?, List.cons_append, skipBlanks_cons visible]
        simp only [if_neg (notMark '"' rfl), if_neg (notMark '[' rfl), if_neg (notMark '\x7b' rfl)]
        rw [← List.cons_append, List.takeWhile_append_of_pos allOrdinary,
          List.dropWhile_append_of_pos allOrdinary, stops.1, stops.2, List.append_nil, means]
        rfl

theorem reads_null : Reads readValue? "null".toList .null :=
  reads_word (by decide) (by simp [isMark, isBlank]) rfl

theorem reads_boolean (value : Bool) :
    Reads readValue? (if value then "true" else "false").toList (.boolean value) := by
  cases value with
  | true => exact reads_word (by decide) (by simp [isMark, isBlank]) rfl
  | false => exact reads_word (by decide) (by simp [isMark, isBlank]) rfl

section Numerals

open Number (Numeral signed)

variable {numeral : Numeral}

theorem areDigits_iff (text : List Char) :
    areDigits text = true ↔ text ≠ [] ∧ ∀ digit ∈ text, digit.isDigit = true := by
  simp [areDigits]

theorem unsigned_signed (minus : Bool) (proper : numeral.IsProper) :
    unsigned (signed minus numeral) = numeral.text := by
  cases minus with
  | true => rfl
  | false =>
      obtain ⟨first, rest, isWhole⟩ := List.exists_cons_of_ne_nil proper.nonEmpty
      have isDigit : first.isDigit = true := proper.whole first (isWhole ▸ .head _)
      change unsigned numeral.text = _
      rw [Numeral.text, isWhole, List.cons_append]
      unfold unsigned
      split
      · rename_i starts
        rw [(List.cons.inj starts).1] at isDigit
        cases isDigit
      · rfl

theorem isExponent_scaled (proper : numeral.IsProper) : isExponent numeral.scaled = true := by
  unfold Numeral.scaled
  cases exponent : numeral.exponent with
  | none => rfl
  | some parts =>
      obtain ⟨negative, digits⟩ := parts
      have allDigits := (areDigits_iff digits).mpr (proper.exponent negative digits exponent)
      cases negative <;> simpa [isExponent, Number.splitSign] using allDigits

/-- A proper numeral is a number by the grammar. -/
theorem isNumeral_signed (minus : Bool) (proper : numeral.IsProper) :
    isNumeral (signed minus numeral) = true := by
  obtain ⟨takesWhole, dropsWhole⟩ := Numeral.span_digits proper.whole numeral.head_pointed
  have leading : (numeral.whole.head? != some '0' || numeral.whole == ['0']) = true := by
    by_cases zero : numeral.whole.head? = some '0'
    · simp [proper.leading zero]
    · simp [zero]
  have whole : areDigits numeral.whole = true :=
    (areDigits_iff _).mpr ⟨proper.nonEmpty, proper.whole⟩
  unfold isNumeral
  rw [unsigned_signed minus proper, Numeral.text]
  simp only [takesWhole, dropsWhole, whole, leading, Bool.true_and]
  by_cases noFraction : numeral.fraction = []
  · have noPoint : numeral.pointed = [] := by simp [Numeral.pointed, noFraction]
    have exponent := isExponent_scaled proper
    rw [noPoint, List.nil_append]
    rcases numeral.scaled_cases with isScaled | ⟨rest, isScaled⟩ <;>
      rw [isScaled] at exponent ⊢ <;> exact exponent
  · have isPoint : numeral.pointed = '.' :: numeral.fraction := by
      simp [Numeral.pointed, noFraction]
    obtain ⟨takesFraction, dropsFraction⟩ := Numeral.span_digits proper.fraction numeral.head_scaled
    rw [isPoint]
    simp [takesFraction, dropsFraction, isExponent_scaled proper,
      (areDigits_iff _).mpr ⟨noFraction, proper.fraction⟩]

theorem isMark_of_isDigit (isDigit : char.isDigit = true) : isMark char = false := by
  cases isMarked : isMark char with
  | false => rfl
  | true =>
      simp only [isMark, isBlank, Bool.or_eq_true, beq_iff_eq, or_assoc] at isMarked
      rcases isMarked with
        rfl | rfl | rfl | rfl | rfl | rfl | rfl | rfl | rfl | rfl | rfl <;> cases isDigit

theorem isMark_signed (minus : Bool) (proper : numeral.IsProper) :
    ∀ char ∈ signed minus numeral, isMark char = false := by
  have magnitude : ∀ char ∈ numeral.text, isMark char = false := by
    intro char member
    simp only [Numeral.text, List.mem_append] at member
    rcases member with inWhole | inPointed | inScaled
    · exact isMark_of_isDigit (proper.whole char inWhole)
    · unfold Numeral.pointed at inPointed
      split at inPointed
      · cases inPointed
      · rcases List.mem_cons.mp inPointed with rfl | inFraction
        · rfl
        · exact isMark_of_isDigit (proper.fraction char inFraction)
    · unfold Numeral.scaled at inScaled
      cases exponent : numeral.exponent with
      | none =>
          rw [exponent] at inScaled
          cases inScaled
      | some parts =>
          obtain ⟨negative, digits⟩ := parts
          rw [exponent] at inScaled
          rcases List.mem_cons.mp inScaled with rfl | inSigned
          · rfl
          · rcases List.mem_cons.mp inSigned with rfl | inDigits
            · cases negative <;> rfl
            · exact isMark_of_isDigit ((proper.exponent negative digits exponent).2 char inDigits)
  intro char member
  cases minus with
  | false => exact magnitude char member
  | true =>
      rcases List.mem_cons.mp member with rfl | inText
      · rfl
      · exact magnitude char inText

theorem ofWord?_of_isNumeral {word : List Char} (isNumber : isNumeral word = true) :
    ofWord? word = (Number.ofDecimal? word).map .number := by
  have notConstant (constant : List Char) (letters : isNumeral constant = false) :
      word ≠ constant := by
    rintro rfl
    rw [letters] at isNumber
    cases isNumber
  rw [ofWord?, if_neg (notConstant _ (by decide)), if_neg (notConstant _ (by decide)),
    if_neg (notConstant _ (by decide)), if_pos isNumber]

end Numerals

/-- The text of a finite number is read as a number equal to it. -/
theorem reads_number
    {value : Float}
    (notNaN : Number.isNaN value = false)
    (notInfinite : Number.isInfinite value = false) :
    ∃ read : Float, (read == value) = true ∧
      Reads readValue? (Number.text value).toList (.number read) := by
  cases parts : Number.Binary64.ofFloat value with
  | nan => simp [Number.isNaN, parts] at notNaN
  | infinite negative => simp [Number.isInfinite, parts] at notInfinite
  | finite negative significand exponent =>
      obtain ⟨minus, numeral, read, proper, isText, reads, equal⟩ := Number.text_reads_back parts
      have isNumber := isNumeral_signed minus proper
      rw [isText] at reads ⊢
      refine ⟨read, equal, reads_word ?_ (isMark_signed minus proper) ?_⟩
      · intro isEmpty
        rw [isEmpty] at isNumber
        cases isNumber
      · rw [ofWord?_of_isNumeral isNumber, reads]
        rfl

/-- What stands between two marks is read if it is behind the first, whatever comes later. -/
theorem reads_between
    {opening closing : Char}
    {inside : List Char}
    {value : JsonTree}
    (opens : isBlank opening = false ∧ opening ≠ ']' ∧ opening ≠ '\x7d')
    (reads : ∀ budget rest, inside.length < budget →
      readValue? (budget + 1) (opening :: (inside ++ closing :: rest)) = some (value, rest)) :
    Reads readValue? (opening :: (inside ++ [closing])) value where
  starts := ⟨nofun, fun _ isFirst => Option.some.inj isFirst ▸ opens⟩
  reads budget rest enough _ := by
    rw [List.length_cons, List.length_append] at enough
    obtain ⟨budget, rfl⟩ := Nat.exists_eq_succ_of_ne_zero (Nat.ne_zero_of_lt enough)
    rw [List.cons_append, List.append_assoc]
    exact reads budget rest (by omega)

/-- A string is read as it was written. -/
theorem reads_string (text : String) : Reads readValue? (quoted text).toList (.string text) := by
  rw [toList_quoted]
  refine reads_between (by decide) fun budget rest enough => ?_
  rw [readValue?, skipBlanks_cons rfl]
  simp only [if_true]
  rw [readString?_quoted text.toList budget rest (by omega)]
  simp

/-! ## Brackets -/

section Brackets

variable {read : Nat → Reader α} {parts : List α} {closing : Char}

/-- Parts between commas are as long as their number at least, and as each of them. -/
theorem length_intercalate
    (texts : List (List Char))
    (nonEmpty : ∀ text ∈ texts, text ≠ []) :
    texts.length ≤ ([','].intercalate texts).length ∧
      ∀ text ∈ texts, text.length ≤ ([','].intercalate texts).length := by
  induction texts with
  | nil => exact ⟨Nat.le_refl _, nofun⟩
  | cons first rest inductionHypothesis =>
      have firstLong : 0 < first.length := List.length_pos_iff.mpr (nonEmpty first (.head _))
      obtain ⟨many, long⟩ := inductionHypothesis fun text member => nonEmpty text (.tail _ member)
      cases rest with
      | nil =>
          rw [List.intercalate_singleton]
          refine ⟨firstLong, ?_⟩
          rintro text (_ | ⟨_, ⟨⟩⟩)
          exact Nat.le_refl _
      | cons second rest =>
          rw [List.intercalate_cons_cons, List.length_append, List.length_append]
          refine ⟨by rw [List.length_cons]; simp only [List.length_singleton]; omega, ?_⟩
          rintro text (_ | ⟨_, member⟩)
          · omega
          · have := long text member
            omega

theorem intercalate_cons (first : List Char) (texts : List (List Char)) :
    ∃ remaining, [','].intercalate (first :: texts) = first ++ remaining := by
  cases texts with
  | nil => exact ⟨[], by simp⟩
  | cons second texts => exact ⟨_, List.intercalate_cons_cons.trans (List.append_assoc ..)⟩

theorem starts_of_reads
    (reads : List.Forall₂ (Reads read) texts parts)
    (member : text ∈ texts) :
    Starts text := by
  induction reads with
  | nil => cases member
  | cons firstReads _ inductionHypothesis =>
      cases member with
      | head => exact firstReads.starts
      | tail _ member => exact inductionHypothesis member

theorem readParts?_intercalate
    {first : List Char}
    {part : α}
    (isClosing : closing = ']' ∨ closing = '\x7d')
    (reads : List.Forall₂ (Reads read) (first :: texts) (part :: parts))
    (size budget : Nat)
    (bounded : ∀ text ∈ first :: texts, text.length < size)
    (enough : texts.length < budget)
    (rest : List Char) :
    readParts? closing (read size) budget ([','].intercalate (first :: texts) ++ closing :: rest) =
      some (part :: parts, rest) := by
  have closes : isMark closing = true ∧ isBlank closing = false ∧ closing ≠ ',' := by
    rcases isClosing with rfl | rfl <;> decide
  induction budget generalizing first texts part parts with
  | zero => exact absurd enough (Nat.not_lt_zero _)
  | succ budget inductionHypothesis =>
      obtain ⟨firstReads, othersRead⟩ := List.forall₂_cons.mp reads
      have firstShort := bounded first (.head _)
      cases othersRead with
      | nil =>
          have ends : Ends (closing :: rest) := by
            rintro _ ⟨⟩
            exact closes.1
          rw [List.intercalate_singleton, readParts?, firstReads.reads size _ firstShort ends]
          simp only [Option.bind_eq_bind, Option.bind_some, skipBlanks_cons closes.2.1, if_true]
      | cons secondReads othersRead =>
          rename_i second secondPart others otherParts
          have ends : Ends ([','] ++ ([','].intercalate (second :: others) ++ closing :: rest)) := by
            rintro _ ⟨⟩
            rfl
          have remaining := inductionHypothesis (.cons secondReads othersRead)
            (fun text member => bounded text (.tail _ member)) (Nat.lt_of_succ_lt_succ enough)
          rw [List.intercalate_cons_cons, List.append_assoc, List.append_assoc, readParts?,
            firstReads.reads size _ firstShort ends]
          simp only [Option.bind_eq_bind, Option.bind_some, List.cons_append, List.nil_append,
            skipBlanks_cons (show isBlank ',' = false by decide),
            if_neg closes.2.2.symm, if_true, remaining]

/-- Parts between commas and brackets are read one after the other. -/
theorem readBetween?_intercalate
    (isClosing : closing = ']' ∨ closing = '\x7d')
    (reads : List.Forall₂ (Reads read) texts parts)
    (budget : Nat)
    (enough : ([','].intercalate texts).length < budget)
    (rest : List Char) :
    readBetween? closing (read budget) budget ([','].intercalate texts ++ closing :: rest) =
      some (parts, rest) := by
  have closes : isBlank closing = false := by
    rcases isClosing with rfl | rfl <;> decide
  cases reads with
  | nil =>
      rw [List.intercalate_nil, List.nil_append, readBetween?, skipBlanks_cons closes]
      simp only [if_true]
  | cons firstReads othersRead =>
      rename_i first part texts parts
      have allRead := List.Forall₂.cons firstReads othersRead
      obtain ⟨many, long⟩ :=
        length_intercalate (first :: texts) fun text member => (starts_of_reads allRead member).nonEmpty
      rw [List.length_cons] at many
      have parts := readParts?_intercalate isClosing allRead budget budget
        (fun text member => Nat.lt_of_le_of_lt (long text member) enough) (by omega) rest
      obtain ⟨remaining, isText⟩ := intercalate_cons first texts
      obtain ⟨char, others, rfl⟩ := List.exists_cons_of_ne_nil firstReads.starts.nonEmpty
      obtain ⟨visible, notBracket, notBrace⟩ := firstReads.starts.first char rfl
      have opens : char ≠ closing := by
        rcases isClosing with rfl | rfl
        · exact notBracket
        · exact notBrace
      rw [isText, List.append_assoc, List.cons_append] at parts ⊢
      rw [readBetween?, skipBlanks_cons visible]
      simp only [if_neg opens, parts]

end Brackets

/-- Items that are read make an array that is read. -/
theorem reads_array
    {items : List JsonTree}
    (reads : List.Forall₂ (Reads readValue?) texts items) :
    Reads readValue? ('[' :: ([','].intercalate texts ++ [']'])) (.array items) := by
  refine reads_between (by decide) fun budget rest enough => ?_
  have items := readBetween?_intercalate (.inl rfl) reads budget enough rest
  rw [readValue?, skipBlanks_cons rfl]
  simp only [if_neg (show ('[' : Char) ≠ '"' by decide), if_true, items, Option.map_some]

/-- A name and a value that is read make a member that is read. -/
theorem reads_member
    {value : JsonTree}
    (name : String)
    (reads : Reads readValue? text value) :
    Reads (fun budget => readMember? (readValue? budget) budget)
      ((quoted name).toList ++ ':' :: text) (.mk name value) := by
  rw [toList_quoted]
  refine ⟨⟨nofun, ?_⟩, ?_⟩
  · rintro _ ⟨⟩
    decide
  · intro budget rest enough ends
    simp only [List.length_cons, List.length_append] at enough
    have isName := readString?_quoted name.toList budget (':' :: (text ++ rest)) (by omega)
    have isValue := reads.reads budget rest (by omega) ends
    simp only [List.cons_append, List.append_assoc, List.nil_append, readMember?,
      skipBlanks_cons (show isBlank '"' = false by decide), if_true, isName, Option.bind_eq_bind,
      Option.bind_some, skipBlanks_cons (show isBlank ':' = false by decide), isValue,
      String.ofList_toList]

/-- Members that are read make an object that is read. -/
theorem reads_object
    {members : List JsonMember}
    (reads :
      List.Forall₂ (Reads fun budget => readMember? (readValue? budget) budget) texts members) :
    Reads readValue? ('\x7b' :: ([','].intercalate texts ++ ['\x7d'])) (.object members) := by
  refine reads_between (by decide) fun budget rest enough => ?_
  have members := readBetween?_intercalate (.inr rfl) reads budget enough rest
  rw [readValue?, skipBlanks_cons rfl]
  simp only [if_neg (show ('\x7b' : Char) ≠ '"' by decide),
    if_neg (show ('\x7b' : Char) ≠ '[' by decide), if_true, members, Option.map_some]

/-- A text that is read as a value is read as a document. -/
theorem read?_of_reads
    {text : String}
    {tree : JsonTree}
    (reads : Reads readValue? text.toList tree) :
    read? text = some tree := by
  have enough : text.toList.length < text.length + 1 := by
    rw [String.length_toList]
    exact Nat.lt_succ_self _
  have whole := reads.reads (text.length + 1) [] enough nofun
  rw [List.append_nil] at whole
  rw [read?, whole]
  rfl

end ScriptEngine.JsonTree
