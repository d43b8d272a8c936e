import ScriptEngine.Proofs.Token.Cutting

namespace ScriptEngine.Token

/-!
# Texts are scanned as their bytes

The scanner of a text looks at whole characters, and the scanner of a byte string
at one byte after the other.  Both find the same tokens in a text.  Every mark that
a reader looks for is ASCII, all bytes of other characters are beyond ASCII, and no
reader stops between two of those or tells one from another.
-/

variable {char mark quote : Char} {text units : List Char} {accepts : Char → Bool}

/-! ## Spelling -/

/-- A byte read as a character of its own. -/
def letter (byte : UInt8) : Char := Char.ofNat byte.toNat

/-- A text with a character for each of its bytes. -/
def spell (text : List Char) : List Char := (bytesOf text).map letter

theorem toNat_letter (byte : UInt8) : (letter byte).toNat = byte.toNat := by
  have small := byte.toNat_lt
  have isValid : byte.toNat.isValidChar := .inl (by omega)
  unfold letter Char.ofNat
  rw [dif_pos isValid]
  rfl

@[simp]
theorem spell_nil : spell [] = [] := rfl

theorem spell_append (front back : List Char) :
    spell (front ++ back) = spell front ++ spell back := by
  simp [spell, bytesOf_append]

/-- A character of ASCII is spelled by itself. -/
@[simp]
theorem spell_ascii (ascii : char.toNat < 128) (text : List Char) :
    spell (char :: text) = char :: spell text := by
  have code : char.val.toNat ≤ 127 := Nat.le_of_lt_succ ascii
  have encoded : String.utf8EncodeChar char = [UInt8.ofNat char.toNat] := by
    unfold String.utf8EncodeChar
    dsimp only
    rw [if_pos code]
    rfl
  have same : letter (UInt8.ofNat char.toNat) = char := by
    apply Char.toNat_inj.mp
    rw [toNat_letter, UInt8.toNat_ofNat_of_lt' (show char.toNat < 256 by omega)]
  simp [spell, bytesOf, encoded, same]

theorem le_toNat_ofNat {code : Nat} (beyond : 128 ≤ code % 256) :
    128 ≤ (UInt8.ofNat code).toNat := by
  rwa [UInt8.toNat_ofNat']

/-- All bytes of a character beyond ASCII are beyond ASCII. -/
theorem le_of_mem_encoding (beyond : 128 ≤ char.toNat) :
    ∀ byte ∈ String.utf8EncodeChar char, 128 ≤ byte.toNat := by
  have code : 128 ≤ char.val.toNat := beyond
  intro byte member
  unfold String.utf8EncodeChar at member
  dsimp only at member
  rw [if_neg (by omega)] at member
  split at member
  · simp only [List.mem_cons, List.not_mem_nil, or_false] at member
    rcases member with rfl | rfl <;> exact le_toNat_ofNat (by omega)
  · split at member
    · simp only [List.mem_cons, List.not_mem_nil, or_false] at member
      rcases member with rfl | rfl | rfl <;> exact le_toNat_ofNat (by omega)
    · simp only [List.mem_cons, List.not_mem_nil, or_false] at member
      rcases member with rfl | rfl | rfl | rfl <;> exact le_toNat_ofNat (by omega)

/-- Characters beyond ASCII. -/
def Beyond (text : List Char) : Prop := ∀ char ∈ text, 128 ≤ char.toNat

/-- Any other character is spelled by units beyond ASCII, one for each of its bytes. -/
theorem spell_beyond (beyond : 128 ≤ char.toNat) :
    ∃ units,
      units ≠ [] ∧ Beyond units ∧ units.length = char.utf8Size ∧
        ∀ text, spell (char :: text) = units ++ spell text := by
  refine ⟨(String.utf8EncodeChar char).map letter, ?_, ?_, ?_, ?_⟩
  · simp
  · intro unit member
    obtain ⟨byte, isByte, rfl⟩ := List.mem_map.mp member
    rw [toNat_letter]
    exact le_of_mem_encoding beyond byte isByte
  · rw [List.length_map, String.length_utf8EncodeChar]
  · intro text
    simp [spell, bytesOf]

/-- A spelled text starts with the same character if that is ASCII, or with one beyond. -/
theorem spell_cons_cases (char : Char) (rest : List Char) :
    char.toNat < 128 ∧ spell (char :: rest) = char :: spell rest ∨
      128 ≤ char.toNat ∧
        ∃ first others, 128 ≤ first.toNat ∧ spell (char :: rest) = first :: others := by
  rcases Nat.lt_or_ge char.toNat 128 with ascii | beyond
  · exact .inl ⟨ascii, spell_ascii ascii rest⟩
  · obtain ⟨units, nonempty, allBeyond, _, isSpelled⟩ := spell_beyond beyond
    obtain ⟨first, others, rfl⟩ := List.exists_cons_of_ne_nil nonempty
    exact .inr ⟨beyond, first, others ++ spell rest, allBeyond first List.mem_cons_self,
      isSpelled rest⟩

/-- A spelled text starts with a character of ASCII only where the text does. -/
theorem spell_eq_cons_iff (ascii : char.toNat < 128) {spelled : List Char} :
    spell text = char :: spelled ↔ ∃ rest, text = char :: rest ∧ spell rest = spelled := by
  constructor
  · intro same
    cases text with
    | nil => simp at same
    | cons head rest =>
        rcases spell_cons_cases head rest with
          ⟨_, isSpelled⟩ | ⟨_, first, others, firstBeyond, isSpelled⟩
        · rw [isSpelled] at same
          obtain ⟨rfl, isRest⟩ := List.cons.inj same
          exact ⟨rest, rfl, isRest⟩
        · rw [isSpelled] at same
          obtain ⟨rfl, _⟩ := List.cons.inj same
          exact absurd firstBeyond (Nat.not_le_of_lt ascii)
  · rintro ⟨rest, rfl, rfl⟩
    exact spell_ascii ascii rest

/-- Whether a word is all in ASCII. -/
def isAscii (word : List Char) : Bool := word.all fun char => char.toNat < 128

theorem isAscii_cons_iff {word : List Char} :
    isAscii (char :: word) = true ↔ char.toNat < 128 ∧ isAscii word = true := by
  simp [isAscii]

/-- A spelled text starts with a word of ASCII only where the text does. -/
theorem spell_eq_append_iff
    {word : List Char}
    (ascii : isAscii word = true)
    {text spelled : List Char} :
    spell text = word ++ spelled ↔ ∃ rest, text = word ++ rest ∧ spell rest = spelled := by
  induction word generalizing text with
  | nil => simp
  | cons char word inductionHypothesis =>
      rw [isAscii_cons_iff] at ascii
      rw [List.cons_append, spell_eq_cons_iff ascii.1]
      constructor
      · rintro ⟨rest, rfl, isRest⟩
        obtain ⟨back, rfl, isBack⟩ := (inductionHypothesis ascii.2).mp isRest
        exact ⟨back, rfl, isBack⟩
      · rintro ⟨back, rfl, isBack⟩
        exact ⟨word ++ back, rfl, (inductionHypothesis ascii.2).mpr ⟨back, rfl, isBack⟩⟩

/-- A word of ASCII is spelled by itself, and nothing else is spelled so. -/
theorem spell_eq_iff {word : List Char} (ascii : isAscii word = true) :
    spell text = word ↔ text = word := by
  have empty : ∀ rest, spell rest = [] ↔ rest = [] := by
    intro rest
    simpa [spell, bytesOf] using List.eq_nil_iff_forall_not_mem.symm
  have splits := @spell_eq_append_iff word ascii text []
  simpa [empty] using splits

/-! ## Gaps and bodies -/

/-- A gap in a spelled text. -/
def Gap.spelled (gap : Gap) : Gap := { gap with taken := spell gap.taken, rest := spell gap.rest }

/-- A body in a spelled text. -/
def Body.spelled (body : Body) : Body :=
  { body with taken := spell body.taken, rest := spell body.rest }

theorem ascii_of_isSpace (space : isSpace char = true) : char.toNat < 128 := by
  have all : isAscii blanks = true := by decide
  exact of_decide_eq_true (List.all_eq_true.mp all char (mem_blanks_of_isSpace space))

theorem ascii_of_isNul (nul : isNul char = true) : char.toNat < 128 := by
  have code : char.toNat = 0 := by simpa [isNul] using nul
  omega

theorem isNul_beyond (beyond : 128 ≤ char.toNat) : isNul char = false :=
  Bool.eq_false_iff.mpr fun nul => absurd (ascii_of_isNul nul) (Nat.not_lt_of_le beyond)

/-- A character beyond ASCII is none of ASCII. -/
theorem ne_of_beyond {char mark : Char} (beyond : 128 ≤ char.toNat) (ascii : mark.toNat < 128) :
    char ≠ mark := by
  rintro rfl
  omega

theorem gapFrom_between_beyond (beyond : 128 ≤ char.toNat) (text : List Char) :
    gapFrom .between (char :: text) = ⟨[], char :: text, false, true⟩ := by
  have notFeed := @ne_of_beyond char '\n' beyond (by decide)
  have notSlash := @ne_of_beyond char '/' beyond (by decide)
  have notSpace : ¬isSpace char = true := fun space =>
    absurd (ascii_of_isSpace space) (Nat.not_lt_of_le beyond)
  simp [gapFrom, notFeed, notSlash, notSpace]

theorem gapFrom_comment_beyond
    {mode : BlankMode}
    (inside : mode ≠ .between)
    {units : List Char}
    (beyond : Beyond units)
    (text : List Char) :
    gapFrom mode (units ++ text) = (gapFrom mode text).cons units false := by
  induction units with
  | nil => rfl
  | cons unit units inductionHypothesis =>
      obtain ⟨unitBeyond, unitsBeyond⟩ := List.forall_mem_cons.mp beyond
      have later := inductionHypothesis unitsBeyond
      have notFeed := @ne_of_beyond unit '\n' unitBeyond (by decide)
      have notStar := @ne_of_beyond unit '*' unitBeyond (by decide)
      cases mode with
      | between => exact absurd rfl inside
      | lineComment => simp [gapFrom, notFeed, isNul_beyond unitBeyond, later, Gap.cons]
      | blockComment => simp [gapFrom, notFeed, notStar, isNul_beyond unitBeyond, later, Gap.cons]

/-- What does not start with a character of ASCII is not spelled so. -/
theorem not_spell_of_not
    {condition : Prop}
    (ascii : mark.toNat < 128)
    (other : ∀ rest, condition → text = mark :: rest → False) :
    ∀ rest, condition → spell text = mark :: rest → False := by
  intro rest holds same
  obtain ⟨back, isText, _⟩ := (spell_eq_cons_iff ascii).mp same
  exact other back holds isText

theorem gapFrom_spell (mode : BlankMode) (text : List Char) :
    gapFrom mode (spell text) = (gapFrom mode text).spelled := by
  fun_induction gapFrom mode text with
  | case1 | case7 | case11 => simp [gapFrom, Gap.spelled]
  | case2 rest inductionHypothesis
  | case3 rest inductionHypothesis
  | case4 rest _ _ inductionHypothesis
  | case8 rest inductionHypothesis
  | case12 rest inductionHypothesis => simp [gapFrom, inductionHypothesis, Gap.cons, Gap.spelled]
  | case5 char rest notLine notBlock notFeed space inductionHypothesis =>
      have notLine := not_spell_of_not (by decide) notLine
      have notBlock := not_spell_of_not (by decide) notBlock
      simp [gapFrom, ascii_of_isSpace space, notFeed, space, inductionHypothesis, Gap.cons,
        Gap.spelled]
  | case6 char rest notLine notBlock notFeed notSpace =>
      rcases spell_cons_cases char rest with
        ⟨_, isSpelled⟩ | ⟨_, first, others, firstBeyond, isSpelled⟩
      · have notLine := not_spell_of_not (by decide) notLine
        have notBlock := not_spell_of_not (by decide) notBlock
        simp [gapFrom, isSpelled, notFeed, notSpace, Gap.spelled]
      · simp [isSpelled, gapFrom_between_beyond firstBeyond, Gap.spelled]
  | case9 char rest notFeed nul => simp [gapFrom, ascii_of_isNul nul, notFeed, nul, Gap.spelled]
  | case10 char rest notFeed notNul inductionHypothesis =>
      rcases Nat.lt_or_ge char.toNat 128 with ascii | beyond
      · simp [gapFrom, ascii, notFeed, notNul, inductionHypothesis, Gap.cons, Gap.spelled]
      · obtain ⟨units, _, allBeyond, _, isSpelled⟩ := spell_beyond beyond
        have readOver := @gapFrom_comment_beyond .lineComment (by decide) units allBeyond
        simp [isSpelled, readOver, inductionHypothesis, Gap.cons, Gap.spelled]
  | case13 char rest notClosing nul =>
      have notClosing := not_spell_of_not (by decide) notClosing
      simp [gapFrom, ascii_of_isNul nul, nul, Gap.spelled]
  | case14 char rest notClosing notNul inductionHypothesis =>
      rcases Nat.lt_or_ge char.toNat 128 with ascii | beyond
      · have notClosing := not_spell_of_not (by decide) notClosing
        simp [gapFrom, ascii, notNul, inductionHypothesis, Gap.cons, Gap.spelled]
      · obtain ⟨units, _, allBeyond, _, isSpelled⟩ := spell_beyond beyond
        have notFeed := @ne_of_beyond char '\n' beyond (by decide)
        have readOver := @gapFrom_comment_beyond .blockComment (by decide) units allBeyond
        simp [isSpelled, notFeed, readOver, inductionHypothesis, Gap.cons, Gap.spelled]

/-- What is no backslash before something or nothing is no backslash. -/
theorem not_escape
    {rest : List Char}
    (notLast : char = '\\' → rest = [] → False)
    (notHiding : ∀ hidden back, char = '\\' → rest = hidden :: back → False) :
    char ≠ '\\' := by
  intro isEscape
  cases rest with
  | nil => exact notLast isEscape rfl
  | cons hidden back => exact notHiding hidden back isEscape rfl

theorem ascii_of_stops (stops : (isNul char || char == '\n') = true) :
    char.toNat < 128 := by
  rw [Bool.or_eq_true, beq_iff_eq] at stops
  rcases stops with nul | rfl
  · exact ascii_of_isNul nul
  · decide

theorem stringBody_beyond
    (ascii : quote.toNat < 128)
    (beyond : Beyond units)
    (text : List Char) :
    stringBody quote (units ++ text) = (stringBody quote text).cons units := by
  induction units with
  | nil => rfl
  | cons unit units inductionHypothesis =>
      obtain ⟨unitBeyond, unitsBeyond⟩ := List.forall_mem_cons.mp beyond
      have notEscape := @ne_of_beyond unit '\\' unitBeyond (by decide)
      have notFeed := @ne_of_beyond unit '\n' unitBeyond (by decide)
      have notQuote := ne_of_beyond unitBeyond ascii
      simp [stringBody, notEscape, notFeed, notQuote, isNul_beyond unitBeyond,
        inductionHypothesis unitsBeyond, Body.cons]

theorem stringBody_spell (ascii : quote.toNat < 128) (text : List Char) :
    stringBody quote (spell text) = (stringBody quote text).spelled := by
  fun_induction stringBody quote text with
  | case1 | case2 => simp [stringBody, Body.spelled]
  | case3 hidden rest nul => simp [stringBody, ascii_of_isNul nul, nul, Body.spelled]
  | case4 hidden rest notNul inductionHypothesis =>
      rcases Nat.lt_or_ge hidden.toNat 128 with hiddenAscii | beyond
      · simp [stringBody, hiddenAscii, notNul, inductionHypothesis, Body.cons, Body.spelled]
      · -- The backslash hides the first unit only; the others are read over.
        obtain ⟨units, nonempty, allBeyond, _, isSpelled⟩ := spell_beyond beyond
        obtain ⟨first, others, rfl⟩ := List.exists_cons_of_ne_nil nonempty
        obtain ⟨firstBeyond, othersBeyond⟩ := List.forall_mem_cons.mp allBeyond
        simp [isSpelled, stringBody, isNul_beyond firstBeyond, stringBody_beyond ascii othersBeyond,
          inductionHypothesis, Body.cons, Body.spelled]
  | case5 rest notLast notHiding =>
      have notEscape := not_escape notLast notHiding
      simp [stringBody, ascii, notEscape, Body.spelled]
  | case6 char rest notLast notHiding notQuote stops =>
      have notEscape := not_escape notLast notHiding
      simp [stringBody, ascii_of_stops stops, notEscape, notQuote, stops, Body.spelled]
  | case7 char rest notLast notHiding notQuote goesOn inductionHypothesis =>
      have notEscape := not_escape notLast notHiding
      rcases Nat.lt_or_ge char.toNat 128 with charAscii | beyond
      · simp [stringBody, charAscii, notEscape, notQuote, goesOn, inductionHypothesis, Body.cons,
          Body.spelled]
      · obtain ⟨units, _, allBeyond, _, isSpelled⟩ := spell_beyond beyond
        simp [isSpelled, stringBody_beyond ascii allBeyond, inductionHypothesis, Body.cons,
          Body.spelled]

theorem regexBody_beyond
    (inClass : Bool)
    (beyond : Beyond units)
    (text : List Char) :
    regexBody inClass (units ++ text) = (regexBody inClass text).cons units := by
  induction units with
  | nil => rfl
  | cons unit units inductionHypothesis =>
      obtain ⟨unitBeyond, unitsBeyond⟩ := List.forall_mem_cons.mp beyond
      have notEscape := @ne_of_beyond unit '\\' unitBeyond (by decide)
      have notFeed := @ne_of_beyond unit '\n' unitBeyond (by decide)
      have notSlash := @ne_of_beyond unit '/' unitBeyond (by decide)
      have notOpening := @ne_of_beyond unit '[' unitBeyond (by decide)
      have notClosing := @ne_of_beyond unit ']' unitBeyond (by decide)
      simp [regexBody, notEscape, notFeed, notSlash, notOpening, notClosing,
        isNul_beyond unitBeyond, inductionHypothesis unitsBeyond, Body.cons]

theorem regexBody_spell (inClass : Bool) (text : List Char) :
    regexBody inClass (spell text) = (regexBody inClass text).spelled := by
  fun_induction regexBody inClass text with
  | case1 | case2 => simp [regexBody, Body.spelled]
  | case3 inClass hidden rest stops => simp [regexBody, ascii_of_stops stops, stops, Body.spelled]
  | case4 inClass hidden rest goesOn inductionHypothesis =>
      rcases Nat.lt_or_ge hidden.toNat 128 with ascii | beyond
      · simp [regexBody, ascii, goesOn, inductionHypothesis, Body.cons, Body.spelled]
      · obtain ⟨units, nonempty, allBeyond, _, isSpelled⟩ := spell_beyond beyond
        obtain ⟨first, others, rfl⟩ := List.exists_cons_of_ne_nil nonempty
        obtain ⟨firstBeyond, othersBeyond⟩ := List.forall_mem_cons.mp allBeyond
        have notFeed := @ne_of_beyond first '\n' firstBeyond (by decide)
        simp [isSpelled, regexBody, notFeed, isNul_beyond firstBeyond,
          regexBody_beyond inClass othersBeyond, inductionHypothesis, Body.cons, Body.spelled]
  | case5 inClass char rest notLast notHiding stops =>
      have notEscape := not_escape notLast notHiding
      simp [regexBody, ascii_of_stops stops, notEscape, stops, Body.spelled]
  | case6 inClass char rest notLast notHiding goesOn closes =>
      have notEscape := not_escape notLast notHiding
      have isSlash : char = '/' := by simpa using (Bool.and_eq_true_iff.mp closes).1
      have ascii : char.toNat < 128 := by rw [isSlash]; decide
      simp [regexBody, ascii, notEscape, goesOn, closes, Body.spelled]
  | case7 inClass char rest notLast notHiding goesOn staysOpen inside inductionHypothesis =>
      have notEscape := not_escape notLast notHiding
      rcases Nat.lt_or_ge char.toNat 128 with ascii | beyond
      · have step : regexBody inClass (char :: spell rest) =
            (regexBody inside (spell rest)).cons [char] := by
          simp [regexBody, notEscape, goesOn, staysOpen, inside]
        rw [spell_ascii ascii, step, inductionHypothesis]
        simp [ascii, Body.cons, Body.spelled]
      · obtain ⟨units, _, allBeyond, _, isSpelled⟩ := spell_beyond beyond
        have notOpening := @ne_of_beyond char '[' beyond (by decide)
        have notClosing := @ne_of_beyond char ']' beyond (by decide)
        have same : inside = inClass := by simp [inside, notOpening, notClosing]
        rw [same] at inductionHypothesis ⊢
        simp [isSpelled, regexBody_beyond inClass allBeyond, inductionHypothesis, Body.cons,
          Body.spelled]

/-! ## Runs of characters -/

/-- Whether a class of characters holds all characters beyond ASCII or none of them. -/
def Steady (accepts : Char → Bool) : Prop :=
  ∀ left right, 128 ≤ left.toNat → 128 ≤ right.toNat → accepts left = accepts right

theorem steady_of_true
    (all : ∀ char, 128 ≤ char.toNat → accepts char = true) :
    Steady accepts :=
  fun left right leftBeyond rightBeyond =>
    (all left leftBeyond).trans (all right rightBeyond).symm

theorem steady_of_false
    (none : ∀ char, 128 ≤ char.toNat → accepts char = false) :
    Steady accepts :=
  fun left right leftBeyond rightBeyond =>
    (none left leftBeyond).trans (none right rightBeyond).symm

theorem takeWhile_spell (steady : Steady accepts) (text : List Char) :
    (spell text).takeWhile accepts = spell (text.takeWhile accepts) := by
  induction text with
  | nil => simp
  | cons char rest inductionHypothesis =>
      rcases Nat.lt_or_ge char.toNat 128 with ascii | beyond
      · rw [spell_ascii ascii, List.takeWhile_cons, List.takeWhile_cons]
        split
        · rw [inductionHypothesis, spell_ascii ascii]
        · rfl
      · obtain ⟨units, nonempty, allBeyond, _, isSpelled⟩ := spell_beyond beyond
        have same : ∀ unit ∈ units, accepts unit = accepts char := fun unit member =>
          steady unit char (allBeyond unit member) beyond
        rw [isSpelled, List.takeWhile_cons]
        cases accepted : accepts char with
        | true =>
            rw [List.takeWhile_append_of_pos (fun unit member => (same unit member).trans accepted),
              inductionHypothesis, if_pos rfl, isSpelled]
        | false =>
            obtain ⟨first, others, rfl⟩ := List.exists_cons_of_ne_nil nonempty
            simp [same first, accepted]

theorem dropWhile_spell (steady : Steady accepts) (text : List Char) :
    (spell text).dropWhile accepts = spell (text.dropWhile accepts) := by
  rw [← List.append_right_inj ((spell text).takeWhile accepts), List.takeWhile_append_dropWhile,
    takeWhile_spell steady, ← spell_append, List.takeWhile_append_dropWhile]

theorem isNameStart_beyond (beyond : 128 ≤ char.toNat) : isNameStart char = true := by
  simp [isNameStart, beyond]

theorem isDigit_beyond (beyond : 128 ≤ char.toNat) : char.isDigit = false := by
  rw [Bool.eq_false_iff, Ne, Char.isDigit_iff_toNat]
  rintro ⟨_, small⟩
  exact absurd (Nat.le_trans beyond small) (by decide)

theorem not_le_of_beyond {char mark : Char} (beyond : 128 ≤ char.toNat) (ascii : mark.toNat < 128) :
    ¬char ≤ mark := by
  intro small
  have codes : char.toNat ≤ mark.toNat := small
  omega

theorem steady_isNameStart : Steady isNameStart := steady_of_true fun _ => isNameStart_beyond

theorem steady_isNameRest : Steady isNameRest :=
  steady_of_true fun _ beyond => by simp [isNameRest, isNameStart_beyond beyond]

theorem steady_isDigit : Steady Char.isDigit := steady_of_false fun _ => isDigit_beyond

/-- The digits of every radix are ASCII. -/
theorem steady_radixDigits
    {isRadixDigit : Char → Bool}
    (marks : radixDigits? mark = some isRadixDigit) :
    Steady isRadixDigit := by
  refine steady_of_false fun char beyond => ?_
  have small := fun mark => @not_le_of_beyond char mark beyond
  have other := fun mark => @ne_of_beyond char mark beyond
  unfold radixDigits? at marks
  split at marks
  · obtain rfl := Option.some.inj marks
    simp [isHexDigit, isDigit_beyond beyond, small]
  · split at marks
    · obtain rfl := Option.some.inj marks
      simp [small]
    · split at marks
      · obtain rfl := Option.some.inj marks
        simp [other]
      · simp at marks

/-! ## Lexemes -/

/-- A text as a string of its bytes. -/
def spelling (text : String) : String := String.ofList (spell text.toList)

/-- A lexeme in a spelled text. -/
def Lexeme.spelled (found : Lexeme) : Lexeme :=
  { found with
    literal := spelling found.literal
    taken := spell found.taken
    rest := spell found.rest }

theorem verbatim_spell (kind : TokenKind) (taken rest : List Char) :
    Lexeme.verbatim kind (spell taken) (spell rest) =
      (Lexeme.verbatim kind taken rest).spelled := by
  simp [Lexeme.verbatim, Lexeme.spelled, spelling]

theorem spelling_eq_iff {word : String} (ascii : isAscii word.toList = true) {text : String} :
    spelling text = word ↔ text = word := by
  rw [spelling, ← String.toList_inj, String.toList_ofList, spell_eq_iff ascii, String.toList_inj]

theorem ofName_spelling (name : String) :
    TokenKind.ofName (spelling name) = TokenKind.ofName name := by
  have ascii : ∀ entry ∈ TokenKind.reservedWords, isAscii entry.1.toList = true := by
    decide
  have same : ∀ words : List (String × TokenKind),
      (∀ entry ∈ words, isAscii entry.1.toList = true) →
        words.lookup (spelling name) = words.lookup name := by
    intro words wordsAscii
    induction words with
    | nil => rfl
    | cons entry words inductionHypothesis =>
        rw [List.forall_mem_cons] at wordsAscii
        have isWord : (spelling name == entry.1) = (name == entry.1) := by
          rw [Bool.eq_iff_iff, beq_iff_eq, beq_iff_eq, spelling_eq_iff wordsAscii.1]
        rw [List.lookup_cons, List.lookup_cons, isWord, inductionHypothesis wordsAscii.2]
  rw [TokenKind.ofName, TokenKind.ofName, same _ ascii]

theorem nameLexeme_spell (text : List Char) :
    nameLexeme (spell text) = (nameLexeme text).spelled := by
  have kind := ofName_spelling (String.ofList (text.takeWhile isNameRest))
  rw [spelling, String.toList_ofList] at kind
  simp [nameLexeme, takeWhile_spell steady_isNameRest, dropWhile_spell steady_isNameRest, kind,
    Lexeme.spelled, spelling]

theorem spell_isEmpty (text : List Char) : (spell text).isEmpty = text.isEmpty := by
  rw [Bool.eq_iff_iff, List.isEmpty_iff, List.isEmpty_iff, spell_eq_iff rfl]

theorem fraction_of_no_point
    (wholeIsEmpty : Bool)
    (noPoint : ∀ rest, text = '.' :: rest → False) :
    fraction wholeIsEmpty text = ([], text) := by
  unfold fraction
  split
  · rename_i rest
    exact absurd rfl (noPoint rest)
  · rfl

theorem fraction_spell (wholeIsEmpty : Bool) (text : List Char) :
    fraction wholeIsEmpty (spell text) =
      (spell (fraction wholeIsEmpty text).1, spell (fraction wholeIsEmpty text).2) := by
  by_cases isPoint : ∃ rest, text = '.' :: rest
  · obtain ⟨rest, rfl⟩ := isPoint
    rw [spell_ascii (by decide)]
    simp only [fraction, takeWhile_spell steady_isDigit, dropWhile_spell steady_isDigit,
      spell_isEmpty]
    split
    · simp
    · cases rest with
      | nil => simp
      | cons next back =>
          rcases spell_cons_cases next back with
            ⟨ascii, isSpelled⟩ | ⟨beyond, first, others, firstBeyond, isSpelled⟩
          · rw [isSpelled]
            dsimp only
            split <;> simp [ascii]
          · rw [isSpelled]
            simp [isNameStart_beyond, *]
  · have noPoint : ∀ rest, text = '.' :: rest → False := fun rest same => isPoint ⟨rest, same⟩
    have noPointSpelled : ∀ rest, spell text = '.' :: rest → False := by
      intro rest same
      obtain ⟨back, isText, -⟩ := (spell_eq_cons_iff (by decide)).mp same
      exact noPoint back isText
    rw [fraction_of_no_point _ noPoint, fraction_of_no_point _ noPointSpelled, spell_nil]

/-- Whether a character marks the exponent of a number. -/
def isExponentMark (char : Char) : Bool := char = 'e' || char = 'E'

theorem ascii_of_isExponentMark (isMark : isExponentMark char = true) :
    char.toNat < 128 := by
  simp only [isExponentMark, Bool.or_eq_true, decide_eq_true_eq] at isMark
  rcases isMark with rfl | rfl <;> decide

theorem exponent_of_no_mark
    (noMark : ¬isExponentMark mark = true)
    (text : List Char) :
    exponent (mark :: text) = ([], mark :: text) := by
  cases text with
  | nil => rfl
  | cons next rest => exact if_neg noMark

theorem exponent_of_mark
    (isMark : isExponentMark mark = true)
    (next : Char)
    (rest : List Char) :
    exponent (mark :: next :: rest) =
      if next = '+' || next = '-' then
        (mark :: next :: rest.takeWhile Char.isDigit, rest.dropWhile Char.isDigit)
      else if next.isDigit then
        (mark :: (next :: rest).takeWhile Char.isDigit, (next :: rest).dropWhile Char.isDigit)
      else ([], mark :: next :: rest) :=
  if_pos isMark

theorem exponent_spell (text : List Char) :
    exponent (spell text) = (spell (exponent text).1, spell (exponent text).2) := by
  rcases text with _ | ⟨mark, back⟩
  · simp [exponent]
  · by_cases isMark : isExponentMark mark = true
    · have ascii := ascii_of_isExponentMark isMark
      rw [spell_ascii ascii]
      rcases back with _ | ⟨next, rest⟩
      · simp [exponent, ascii]
      · have digits := takeWhile_spell steady_isDigit (next :: rest)
        have others := dropWhile_spell steady_isDigit (next :: rest)
        rcases spell_cons_cases next rest with
          ⟨nextAscii, isSpelled⟩ | ⟨beyond, first, back, firstBeyond, isSpelled⟩
        · rw [isSpelled] at digits others ⊢
          rw [exponent_of_mark isMark, exponent_of_mark isMark]
          split
          · simp [ascii, nextAscii, takeWhile_spell steady_isDigit, dropWhile_spell steady_isDigit]
          · split <;> simp [ascii, nextAscii, digits, others]
        · have noSign := fun mark => @ne_of_beyond next mark beyond
          have noSignFirst := fun mark => @ne_of_beyond first mark firstBeyond
          rw [isSpelled, exponent_of_mark isMark, exponent_of_mark isMark]
          simp [noSign, noSignFirst, isDigit_beyond, beyond, firstBeyond, ascii, isSpelled]
    · rw [exponent_of_no_mark isMark]
      rcases spell_cons_cases mark back with
        ⟨_, isSpelled⟩ | ⟨_, first, others, firstBeyond, isSpelled⟩
      · rw [isSpelled, exponent_of_no_mark isMark, spell_nil]
      · have noMark : ¬isExponentMark first = true := fun isMark =>
          absurd (ascii_of_isExponentMark isMark) (Nat.not_lt_of_le firstBeyond)
        rw [isSpelled, exponent_of_no_mark noMark, spell_nil]

theorem decimalLexeme_spell (text : List Char) :
    decimalLexeme (spell text) = (decimalLexeme text).spelled := by
  unfold decimalLexeme
  simp only [takeWhile_spell steady_isDigit, dropWhile_spell steady_isDigit, spell_isEmpty,
    fraction_spell, exponent_spell, ← spell_append]
  exact verbatim_spell _ _ _

/-- Either a mark behind a leading zero tells the radix, or there is none. -/
theorem radix_cases (text : List Char) :
    (∃ mark rest isRadixDigit,
      text = '0' :: mark :: rest ∧ radixDigits? mark = some isRadixDigit) ∨
    ∀ mark rest, text = '0' :: mark :: rest → radixDigits? mark = none := by
  refine Classical.or_iff_not_imp_left.mpr fun noMark mark rest isText => ?_
  cases isMark : radixDigits? mark with
  | none => rfl
  | some isRadixDigit => exact absurd ⟨mark, rest, isRadixDigit, isText, isMark⟩ noMark

theorem numberLexeme_of_no_radix
    (noRadix : ∀ mark rest, text = '0' :: mark :: rest → radixDigits? mark = none) :
    numberLexeme text = decimalLexeme text := by
  unfold numberLexeme
  split
  · rename_i mark rest
    rw [noRadix mark rest rfl]
  · rfl

theorem radixDigits?_beyond (beyond : 128 ≤ char.toNat) :
    radixDigits? char = none := by
  have other := fun mark => @ne_of_beyond char mark beyond
  simp [radixDigits?, other]

theorem numberLexeme_spell (text : List Char) :
    numberLexeme (spell text) = (numberLexeme text).spelled := by
  rcases radix_cases text with ⟨mark, rest, isRadixDigit, rfl, marks⟩ | noRadix
  · have steady := steady_radixDigits marks
    have ascii : mark.toNat < 128 := Nat.lt_of_not_le fun beyond => by
      simp [radixDigits?_beyond beyond] at marks
    rw [spell_ascii (by decide), spell_ascii ascii]
    simp only [numberLexeme, marks, takeWhile_spell steady, dropWhile_spell steady]
    rw [← verbatim_spell, spell_ascii (by decide), spell_ascii ascii]
  · have noRadixSpelled : ∀ mark rest, spell text = '0' :: mark :: rest →
        radixDigits? mark = none := by
      intro mark rest isSpelled
      rcases Nat.lt_or_ge mark.toNat 128 with ascii | beyond
      · obtain ⟨back, isText, isBack⟩ := (spell_eq_cons_iff (by decide)).mp isSpelled
        obtain ⟨behind, isRest, _⟩ := (spell_eq_cons_iff ascii).mp isBack
        exact noRadix mark behind (isRest ▸ isText)
      · exact radixDigits?_beyond beyond
    rw [numberLexeme_of_no_radix noRadix, numberLexeme_of_no_radix noRadixSpelled,
      decimalLexeme_spell]

theorem isAscii_of_mem_marks : ∀ entry ∈ marks, isAscii entry.1 = true := by
  decide

theorem punctuator?_spell (text : List Char) : punctuator? (spell text) = punctuator? text := by
  have same : ∀ entry ∈ marks, entry.1.isPrefixOf (spell text) = entry.1.isPrefixOf text := by
    intro entry member
    have ascii := isAscii_of_mem_marks entry member
    rw [Bool.eq_iff_iff, List.isPrefixOf_iff_prefix, List.isPrefixOf_iff_prefix]
    constructor
    · rintro ⟨back, isSpelled⟩
      obtain ⟨rest, rfl, _⟩ := (spell_eq_append_iff ascii).mp isSpelled.symm
      exact List.prefix_append _ _
    · rintro ⟨rest, rfl⟩
      rw [(spell_eq_append_iff ascii).mpr ⟨rest, rfl, rfl⟩]
      exact List.prefix_append _ _
  unfold punctuator?
  rw [← List.head?_filter, ← List.head?_filter, List.filter_congr same]

/-- The mark that was found stands at the front of the text. -/
theorem mark_of_punctuator?
    {kind : TokenKind}
    {length : Nat}
    (found : punctuator? text = some (kind, length)) :
    ∃ mark rest, isAscii mark = true ∧ mark.length = length ∧ text = mark ++ rest := by
  obtain ⟨entry, isEntry, isFound⟩ := Option.map_eq_some_iff.mp found
  obtain ⟨rfl, rfl⟩ := Prod.mk.inj isFound
  have stands := List.find?_some isEntry
  obtain ⟨rest, isText⟩ := List.isPrefixOf_iff_prefix.mp stands
  exact ⟨entry.1, rest, isAscii_of_mem_marks entry (List.mem_of_find?_eq_some isEntry), rfl,
    isText.symm⟩

theorem punctuatorLexeme_spell {first : Char} (ascii : first.toNat < 128) (rest : List Char) :
    punctuatorLexeme first (spell rest) = (punctuatorLexeme first rest).spelled := by
  have same := punctuator?_spell (first :: rest)
  rw [spell_ascii ascii] at same
  unfold punctuatorLexeme
  rw [same]
  cases found : punctuator? (first :: rest) with
  | none => simpa [ascii] using verbatim_spell .illegal [first] rest
  | some entry =>
      obtain ⟨kind, length⟩ := entry
      obtain ⟨mark, back, markAscii, rfl, isText⟩ := mark_of_punctuator? found
      have isMark : spell mark = mark := (spell_eq_iff markAscii).mpr rfl
      have isSpelled : first :: spell rest = mark ++ spell back := by
        rw [← spell_ascii ascii, isText, spell_append, isMark]
      dsimp only
      rw [isSpelled, isText, List.take_left, List.drop_left, List.take_left, List.drop_left,
        ← verbatim_spell, isMark]

theorem stringLexeme_spell (ascii : quote.toNat < 128) (text : List Char) :
    stringLexeme quote (spell text) = (stringLexeme quote text).spelled := by
  have body := stringBody_spell ascii text
  cases closed : (stringBody quote text).closed with
  | true =>
      obtain ⟨rest, isRest⟩ := stringBody_closed quote text closed
      simp [stringLexeme, body, Body.spelled, closed, isRest, ascii, Lexeme.spelled, spell_append,
        spelling]
  | false =>
      have message : spelling unclosedString = unclosedString :=
        (spelling_eq_iff (by decide)).mpr rfl
      simp [stringLexeme, body, Body.spelled, closed, ascii, Lexeme.spelled, message]

/-- A regular expression that is closed is closed by a slash. -/
theorem regexBody_closed
    (inClass : Bool)
    (text : List Char)
    (closed : (regexBody inClass text).closed = true) :
    ∃ rest, (regexBody inClass text).rest = '/' :: rest := by
  fun_induction regexBody inClass text with
  | case1 | case2 | case3 | case5 => simp at closed
  | case4 _ _ _ _ inductionHypothesis => exact inductionHypothesis closed
  | case6 inClass char rest _ _ _ closes =>
      have isSlash : char = '/' := by simpa using (Bool.and_eq_true_iff.mp closes).1
      exact ⟨rest, by rw [isSlash]⟩
  | case7 _ _ _ _ _ _ _ _ inductionHypothesis => exact inductionHypothesis closed

theorem regexLexeme_spell (text : List Char) :
    regexLexeme (spell text) = (regexLexeme text).spelled := by
  have body := regexBody_spell false text
  cases closed : (regexBody false text).closed with
  | true =>
      obtain ⟨rest, isRest⟩ := regexBody_closed false text closed
      simp [regexLexeme, body, Body.spelled, closed, isRest, ← verbatim_spell, spell_append,
        takeWhile_spell steady_isNameStart, dropWhile_spell steady_isNameStart]
  | false =>
      have message : spelling unclosedRegex = unclosedRegex := (spelling_eq_iff (by decide)).mpr rfl
      simp [regexLexeme, body, Body.spelled, closed, Lexeme.spelled, message]

theorem startsWithDigit_spell (text : List Char) :
    startsWithDigit (spell text) = startsWithDigit text := by
  rcases text with _ | ⟨char, rest⟩
  · simp
  · rcases spell_cons_cases char rest with
      ⟨_, isSpelled⟩ | ⟨beyond, first, others, firstBeyond, isSpelled⟩
    · rw [isSpelled]
      rfl
    · rw [isSpelled]
      exact (isDigit_beyond firstBeyond).trans (isDigit_beyond beyond).symm

/-- A character beyond ASCII starts a name. -/
theorem lexeme_beyond
    (previous : Option TokenKind)
    {first : Char}
    (beyond : 128 ≤ first.toNat)
    (rest : List Char) :
    lexeme previous (first :: rest) = nameLexeme (first :: rest) := by
  have other := fun mark => @ne_of_beyond first mark beyond
  simp [lexeme, other, isNul_beyond beyond, isNameStart_beyond beyond]

theorem lexeme_spell (previous : Option TokenKind) (text : List Char) :
    lexeme previous (spell text) = (lexeme previous text).spelled := by
  rcases text with _ | ⟨first, rest⟩
  · simp [lexeme, Lexeme.spelled, spelling]
  · rcases spell_cons_cases first rest with
      ⟨ascii, isSpelled⟩ | ⟨beyond, head, others, headBeyond, isSpelled⟩
    · have number := numberLexeme_spell (first :: rest)
      have name := nameLexeme_spell (first :: rest)
      rw [isSpelled] at number name ⊢
      unfold lexeme
      dsimp only
      have ending : Lexeme.spelled ⟨.endOfInput, "", [], first :: rest, none⟩ =
          ⟨.endOfInput, "", [], first :: spell rest, none⟩ := by
        simp [Lexeme.spelled, spelling, ascii]
      rw [startsWithDigit_spell, stringLexeme_spell ascii, regexLexeme_spell, number, name,
        punctuatorLexeme_spell ascii]
      simp only [apply_ite Lexeme.spelled, ending]
    · rw [lexeme_beyond previous beyond, ← nameLexeme_spell, isSpelled,
        lexeme_beyond previous headBeyond]

/-! ## Tokens -/

/-- A token of a spelled text. -/
def spelled (token : Token) : Token := { token with literal := spelling token.literal }

/-- The width of a character that stands for a byte. -/
def byteWidth (_ : Char) : Nat := 1

theorem past_beyond (place : Place) (beyond : Beyond units) :
    place.past byteWidth units =
      ⟨place.offset + units.length, place.line, place.column + units.length⟩ := by
  induction units generalizing place with
  | nil => rfl
  | cons head units inductionHypothesis =>
      obtain ⟨headBeyond, unitsBeyond⟩ := List.forall_mem_cons.mp beyond
      have notFeed := @ne_of_beyond head '\n' headBeyond (by decide)
      have step : place.step byteWidth head = ⟨place.offset + 1, place.line, place.column + 1⟩ :=
        if_neg notFeed
      calc place.past byteWidth (head :: units)
        _ = (place.step byteWidth head).past byteWidth units := rfl
        _ = _ := by
            rw [step, inductionHypothesis _ unitsBeyond]
            simp only [List.length_cons, Nat.add_assoc, Nat.add_comm 1]

/-- Bytes lead to the same place as the characters they spell. -/
theorem past_spell (place : Place) (text : List Char) :
    place.past byteWidth (spell text) = place.past Char.utf8Size text := by
  induction text generalizing place with
  | nil => rfl
  | cons char rest inductionHypothesis =>
      have step : place.past byteWidth (spell (char :: rest)) =
          (place.step Char.utf8Size char).past byteWidth (spell rest) := by
        rcases Nat.lt_or_ge char.toNat 128 with ascii | beyond
        · have size : char.utf8Size = 1 := Char.utf8Size_eq_one_iff.mpr (Nat.le_of_lt_succ ascii)
          have same : place.step byteWidth char = place.step Char.utf8Size char := by
            simp [Place.step, byteWidth, size]
          rw [spell_ascii ascii, ← same]
          rfl
        · obtain ⟨units, _, allBeyond, size, isSpelled⟩ := spell_beyond beyond
          have notFeed := @ne_of_beyond char '\n' beyond (by decide)
          have same : place.past byteWidth units = place.step Char.utf8Size char := by
            rw [past_beyond place allBeyond, size]
            exact (if_neg notFeed).symm
          rw [isSpelled, ← same]
          exact List.foldl_append
      rw [step, inductionHypothesis]
      rfl

theorem next_spell (previous : Option TokenKind) (place : Place) (text : List Char) :
    next byteWidth previous place (spell text) =
      let (token, after, rest) := next Char.utf8Size previous place text
      (token.spelled, after, spell rest) := by
  have message : spelling unclosedComment = unclosedComment := (spelling_eq_iff (by decide)).mpr rfl
  unfold next
  dsimp only
  simp only [gapFrom_spell, Gap.spelled, lexeme_spell, Lexeme.spelled, past_spell]
  split
  · rfl
  · simp [spelled, message]

theorem scanFrom_spell
    (budget : Nat)
    (previous : Option TokenKind)
    (place : Place)
    (text : List Char) :
    scanFrom byteWidth budget previous place (spell text) =
      (scanFrom Char.utf8Size budget previous place text).map spelled := by
  induction budget generalizing previous place text with
  | zero => rfl
  | succ budget inductionHypothesis =>
      unfold scanFrom
      rw [next_spell]
      generalize next Char.utf8Size previous place text = found
      obtain ⟨token, after, rest⟩ := found
      have sameKind : token.spelled.kind = token.kind := rfl
      dsimp only
      rw [sameKind, inductionHypothesis]
      split <;> rfl

theorem length_le_length_spell (text : List Char) : text.length ≤ (spell text).length := by
  induction text with
  | nil => exact Nat.le_refl 0
  | cons char rest inductionHypothesis =>
      rcases Nat.lt_or_ge char.toNat 128 with ascii | beyond
      · simpa [ascii] using inductionHypothesis
      · obtain ⟨units, nonempty, _, _, isSpelled⟩ := spell_beyond beyond
        have positive := List.length_pos_iff.mpr nonempty
        rw [isSpelled, List.length_append, List.length_cons]
        omega

/-- The tokens of a byte string, with offsets in its bytes. -/
def scanBytes (bytes : List UInt8) : List Token := scanChars byteWidth (bytes.map letter)

/-- The bytes of a text have the tokens of the text. -/
theorem scanBytes_text (content : String) :
    scanBytes content.toByteArray.data.toList = (scan content).map spelled := by
  have isSpelled : content.toByteArray.data.toList.map letter = spell content.toList := by
    rw [spell, bytesOf_toList]
  have enough : content.toList.length + 1 ≤ (spell content.toList).length + 1 :=
    Nat.succ_le_succ (length_le_length_spell content.toList)
  have same := scanFrom_of_enough Char.utf8Size none [] (Nat.lt_succ_self _) enough
  unfold scanBytes scan scanChars
  rw [isSpelled, scanFrom_spell]
  exact congrArg (List.map spelled) same

end ScriptEngine.Token
