import ScriptEngine.Proofs.Code.Escapes
import ScriptEngine.Proofs.Token.Spelling

namespace ScriptEngine

open Token (letter bytesOf spell)

/-!
# String literals decoded byte by byte

The text between the quotes of a string literal is a row of characters to a reader, and a row of
bytes in memory.  Decoding goes along either row in the same way.  A unit that is no backslash
is copied; behind a backslash the next units are read as marks, and what they stand for is
written in units again.

All marks are ASCII, and no byte of a character beyond ASCII looks like one.  So the bytes of a
text are decoded to the bytes of what the text is decoded to, or refused by the same fault.
-/

/-- How the units of a row are read and written: a single one as a mark, the first character of
a row, and the units of a decoded text. -/
structure UnitRow (α : Type) where
  mark : α → Char
  first : List α → Char
  write : List Char → List α

namespace UnitRow

/-- A row of characters. -/
def ofChars : UnitRow Char where
  mark char := char
  first text := text.headD Text.replacementMark
  write text := text

/-- A row of bytes. -/
def ofBytes : UnitRow UInt8 where
  mark := letter
  first bytes := (bytes.toByteArray.utf8DecodeChar? 0).getD Text.replacementMark
  write := bytesOf

variable {α : Type} (row : UnitRow α)

/-- The value of exactly `count` hexadecimal digits, with what follows them. -/
def hex? (count : Nat) (units : List α) : Option (Nat × List α) :=
  (hexDigits? count 0 (units.map row.mark)).map fun found => (found.1, units.drop count)

/-- The low half of a pair of surrogates, if an escape of it comes next. -/
def lowHalf? (rest : List α) : Option (Nat × List α) :=
  if ['\\', 'u'] <+: rest.map row.mark then row.hex? 4 (rest.drop 2) else none

/-- The character of a four-digit escape, joined with an escape after it if they are a pair. -/
def paired (code : Nat) (rest : List α) : List Char × List α :=
  match row.lowHalf? rest with
  | some (low, after) =>
      match joinSurrogates? code low with
      | some joined => ([charOfCode joined], after)
      | none => ([charOfCode code], rest)
  | none => ([charOfCode code], rest)

/-- What an escape with a mark behind its backslash stands for, and what is left behind it. -/
def escapeBehind (mark char : Char) (after : List α) : Except LoweringFault (List Char × List α) :=
  match simpleEscape? mark with
  | some decoded => .ok ([decoded], after)
  | none =>
      match mark with
      | '0' =>
          if after.head?.any fun next => (row.mark next).isDigit then .error .octalEscape
          else .ok ([Char.ofNat 0], after)
      | '\n' => .ok ([], after)
      | '\r' => .ok ([], if after.head?.map row.mark = some '\n' then after.tail else after)
      | 'x' =>
          match row.hex? 2 after with
          | some (code, left) => .ok ([charOfCode code], left)
          | none => .error .badHexEscape
      | 'u' =>
          match row.hex? 4 after with
          | some (code, left) => .ok (row.paired code left)
          | none => .error .badUnicodeEscape
      | _ => .error (.unknownEscape char)

/-- What an escape stands for, and what is left behind it. -/
def escape : List α → Except LoweringFault (List Char × List α)
  | [] => .error .unfinishedEscape
  | unit :: after => row.escapeBehind (row.mark unit) (row.first (unit :: after)) after

/-- Decode a row with a budget of one step per unit. -/
def unescape : Nat → List α → Except LoweringFault (List α)
  | 0, _ => .ok []
  | _ + 1, [] => .ok []
  | budget + 1, unit :: rest =>
      if row.mark unit = '\\' then
        (row.escape rest).bind fun found =>
          (unescape budget found.2).map (row.write found.1 ++ ·)
      else (unescape budget rest).map (unit :: ·)

end UnitRow

/-- Decode the bytes between the quotes of a string literal. -/
def unescapeBytes (bytes : List UInt8) : Except LoweringFault (List UInt8) :=
  if (bytes.map letter).contains '\\' then UnitRow.ofBytes.unescape (bytes.length + 1) bytes
  else .ok bytes

/-! ## Rows of characters -/

namespace UnitRow

theorem hex?_ofChars (count : Nat) (text : List Char) :
    ofChars.hex? count text = hexDigits? count 0 text := by
  have sameText : text.map ofChars.mark = text := List.map_id text
  unfold hex?
  rw [sameText]
  cases reads : hexDigits? count 0 text with
  | none => rfl
  | some found =>
      obtain ⟨code, rest⟩ := found
      obtain ⟨digits, rfl, isCode⟩ := exists_of_hexDigits? reads
      rw [Option.map_some, List.drop_left' (length_of_hexDigits? isCode)]

theorem paired_ofChars (code : Nat) (rest : List Char) :
    ofChars.paired code rest =
      ([(unicodeEscape code rest).1], (unicodeEscape code rest).2) := by
  unfold unicodeEscape
  split
  · rename_i digits
    have isLow : ofChars.lowHalf? ('\\' :: 'u' :: digits) = hexDigits? 4 0 digits := by
      unfold lowHalf?
      rw [if_pos ⟨_, rfl⟩, hex?_ofChars]
      rfl
    unfold paired
    rw [isLow]
    cases hexDigits? 4 0 digits with
    | none => rfl
    | some found =>
        obtain ⟨low, after⟩ := found
        dsimp only
        cases joinSurrogates? code low <;> rfl
  · rename_i notEscape
    have noLow : ofChars.lowHalf? rest = none := by
      unfold lowHalf?
      rw [if_neg]
      rintro ⟨digits, isRest⟩
      exact notEscape digits (isRest.trans (List.map_id rest)).symm
    unfold paired
    rw [noLow]

/-- Decoding a text goes on behind an escape as a row of characters does. -/
theorem unescapeFrom_backslash (budget : Nat) (rest : List Char) :
    unescapeFrom (budget + 1) ('\\' :: rest) =
      (ofChars.escape rest).bind fun found =>
        (unescapeFrom budget found.2).map (found.1 ++ ·) := by
  have mapId (result : Except LoweringFault (List Char)) : result = result.map ([] ++ ·) := by
    cases result <;> rfl
  cases rest with
  | nil => rfl
  | cons char after =>
      rw [unescapeFrom.eq_def]
      dsimp only
      rw [escape]
      unfold escapeBehind
      change (match simpleEscape? char with | some decoded => _ | none => _) =
        Except.bind (match simpleEscape? char with | some decoded => _ | none => _) _
      cases simpleEscape? char with
      | some decoded => rfl
      | none =>
          dsimp only
          split
          · cases after with
            | nil => cases budget <;> rfl
            | cons next tail =>
                change (if next.isDigit = true then _ else _) =
                  Except.bind (if next.isDigit = true then _ else _) _
                cases next.isDigit <;> rfl
          · exact mapId _
          · split
            · exact mapId _
            · rename_i notFeed
              have noFeed : after.head? ≠ some '\n' := by
                intro isFeed
                obtain ⟨left, isAfter⟩ := List.head?_eq_some_iff.mp isFeed
                exact notFeed left isAfter
              change _ = Except.map _ (unescapeFrom budget
                (if after.head?.map ofChars.mark = some '\n' then after.tail else after))
              rw [show after.head?.map ofChars.mark = after.head? from Option.map_id',
                if_neg noFeed]
              exact mapId _
          · simp only [hex?_ofChars]
            cases hexDigits? 2 0 after <;> rfl
          · simp only [hex?_ofChars, paired_ofChars]
            cases hexDigits? 4 0 after <;> rfl
          · split <;> first | rfl | contradiction

/-- Decoding a row of characters is decoding the text. -/
theorem unescape_ofChars (budget : Nat) (text : List Char) :
    ofChars.unescape budget text = unescapeFrom budget text := by
  induction budget generalizing text with
  | zero => rfl
  | succ budget inductionHypothesis =>
      cases text with
      | nil => rfl
      | cons char rest =>
          rw [unescape]
          split
          · rename_i isBackslash
            obtain rfl : char = '\\' := isBackslash
            rw [unescapeFrom_backslash]
            simp only [inductionHypothesis]
            rfl
          · rename_i notBackslash
            rw [unescapeFrom, inductionHypothesis]
            exact notBackslash

/-! ## Rows of bytes -/

theorem letter_injective : Function.Injective letter := by
  intro byte other same
  rw [← UInt8.toNat_inj, ← Token.toNat_letter, same, Token.toNat_letter]

/-- A character of ASCII has one byte, which is read as that character. -/
theorem bytesOf_ascii {char : Char} (ascii : char.toNat < 128) (rest : List Char) :
    ∃ byte, letter byte = char ∧ bytesOf (char :: rest) = byte :: bytesOf rest := by
  obtain ⟨byte, bytes, isRow, isMark, areRest⟩ :=
    List.map_eq_cons_iff.mp (Token.spell_ascii ascii rest)
  rw [(List.map_injective_iff.mpr letter_injective) areRest] at isRow
  exact ⟨byte, isMark, isRow⟩

/-- Every other character starts with a byte that is read as no mark. -/
theorem bytesOf_beyond {char : Char} (beyond : 128 ≤ char.toNat) (rest : List Char) :
    ∃ byte others, 128 ≤ (letter byte).toNat ∧ bytesOf (char :: rest) = byte :: others := by
  rcases Token.spell_cons_cases char rest with ⟨ascii, _⟩ | ⟨_, first, others, isBeyond, spelled⟩
  · exact absurd ascii (Nat.not_lt_of_le beyond)
  · obtain ⟨byte, bytes, isRow, isMark, -⟩ := List.map_eq_cons_iff.mp spelled
    exact ⟨byte, bytes, isMark ▸ isBeyond, isRow⟩

theorem ascii_of_digitValue {char : Char} (isDigit : Number.digitValue char < 16) :
    char.toNat < 128 := by
  by_contra beyond
  have beyond := Nat.le_of_not_lt beyond
  have notSmall : ¬char ≤ 'z' := Token.not_le_of_beyond beyond (by decide)
  have notLarge : ¬char ≤ 'Z' := Token.not_le_of_beyond beyond (by decide)
  simp [Number.digitValue, Token.isDigit_beyond beyond, notSmall, notLarge] at isDigit

/-- Digits are read from the bytes of a text as from the text. -/
theorem hex?_ofBytes (count : Nat) (text : List Char) :
    ofBytes.hex? count (bytesOf text) =
      (ofChars.hex? count text).map fun found => (found.1, bytesOf found.2) := by
  have ascii {digits : List Char} {code : Nat} (isCode : IsHex count digits code) :
      Token.isAscii digits = true :=
    List.all_eq_true.mpr fun char member =>
      decide_eq_true (ascii_of_digitValue (digitValue_lt_of_hexDigits? isCode char member))
  rw [hex?_ofChars]
  unfold hex?
  change (hexDigits? count 0 (spell text)).map _ = _
  cases reads : hexDigits? count 0 text with
  | some found =>
      obtain ⟨code, rest⟩ := found
      obtain ⟨digits, rfl, isCode⟩ := exists_of_hexDigits? reads
      have spelled : spell digits = digits := (Token.spell_eq_iff (ascii isCode)).mpr rfl
      have sameLength : (bytesOf digits).length = count := by
        rw [← List.length_map letter, ← length_of_hexDigits? isCode]
        exact congrArg List.length spelled
      rw [Token.spell_append, spelled, hexDigits?_append isCode, Token.bytesOf_append]
      simp only [Option.map_some, List.drop_left' sameLength]
  | none =>
      cases readsSpelled : hexDigits? count 0 (spell text) with
      | none => rfl
      | some found =>
          obtain ⟨code, spelled⟩ := found
          obtain ⟨digits, isText, isCode⟩ := exists_of_hexDigits? readsSpelled
          obtain ⟨rest, rfl, -⟩ := (Token.spell_eq_append_iff (ascii isCode)).mp isText
          rw [hexDigits?_append isCode] at reads
          cases reads

theorem lowHalf?_ofBytes (rest : List Char) :
    ofBytes.lowHalf? (bytesOf rest) =
      (ofChars.lowHalf? rest).map fun found => (found.1, bytesOf found.2) := by
  have opens : ['\\', 'u'] <+: (bytesOf rest).map ofBytes.mark ↔
      ['\\', 'u'] <+: rest.map ofChars.mark := by
    have sameText : rest.map ofChars.mark = rest := List.map_id rest
    rw [sameText]
    constructor
    · rintro ⟨spelled, isRow⟩
      obtain ⟨tail, rfl, -⟩ := (Token.spell_eq_append_iff (by decide)).mp isRow.symm
      exact ⟨tail, rfl⟩
    · rintro ⟨tail, rfl⟩
      exact ⟨spell tail, ((Token.spell_eq_append_iff (by decide)).mpr ⟨tail, rfl, rfl⟩).symm⟩
  unfold lowHalf?
  by_cases isEscape : ['\\', 'u'] <+: rest.map ofChars.mark
  · rw [if_pos isEscape, if_pos (opens.mpr isEscape)]
    obtain ⟨tail, isRest⟩ := isEscape
    obtain rfl : ['\\', 'u'] ++ tail = rest := isRest.trans (List.map_id rest)
    have left : (bytesOf (['\\', 'u'] ++ tail)).drop 2 = bytesOf tail := rfl
    rw [left, hex?_ofBytes]
    rfl
  · rw [if_neg isEscape, if_neg (mt opens.mp isEscape)]
    rfl

theorem paired_ofBytes (code : Nat) (rest : List Char) :
    ofBytes.paired code (bytesOf rest) =
      ((ofChars.paired code rest).1, bytesOf (ofChars.paired code rest).2) := by
  unfold paired
  rw [lowHalf?_ofBytes]
  cases ofChars.lowHalf? rest with
  | none => rfl
  | some found =>
      obtain ⟨low, after⟩ := found
      dsimp only [Option.map_some]
      cases joinSurrogates? code low <;> rfl

/-- A character is read from its bytes. -/
theorem first_ofBytes (char : Char) (rest : List Char) :
    ofBytes.first (bytesOf (char :: rest)) = char := by
  change ((char :: rest).utf8Encode.utf8DecodeChar? 0).getD Text.replacementMark = char
  rw [List.utf8DecodeChar?_utf8Encode_cons]
  rfl

/-- No character beyond ASCII is the mark of an escape. -/
theorem escapeBehind_beyond
    {mark : Char}
    (row : UnitRow α)
    (beyond : 128 ≤ mark.toNat)
    (char : Char)
    (after : List α) :
    row.escapeBehind mark char after = .error (.unknownEscape char) := by
  have notSimple : simpleEscape? mark = none := by
    unfold simpleEscape?
    split <;> first | rfl | exact absurd beyond (by decide)
  unfold escapeBehind
  rw [notSimple]
  dsimp only
  split <;> first | rfl | exact absurd beyond (by decide)

/-- A mark stands in front of the bytes of a text exactly where it stands in front of the text. -/
theorem head_ofBytes {mark : Char} (ascii : mark.toNat < 128) (text : List Char) :
    (bytesOf text).head?.map ofBytes.mark = some mark ↔ text.head? = some mark := by
  cases text with
  | nil => simp [bytesOf]
  | cons char rest =>
      rcases Nat.lt_or_ge char.toNat 128 with charAscii | beyond
      · obtain ⟨byte, isMark, row⟩ := bytesOf_ascii charAscii rest
        rw [row]
        change some (letter byte) = some mark ↔ some char = some mark
        rw [isMark]
      · obtain ⟨byte, others, byteBeyond, row⟩ := bytesOf_beyond beyond rest
        rw [row]
        change some (letter byte) = some mark ↔ some char = some mark
        simp only [Option.some.injEq, Token.ne_of_beyond byteBeyond ascii,
          Token.ne_of_beyond beyond ascii]

theorem startsWithDigit_ofBytes (text : List Char) :
    ((bytesOf text).head?.any fun next => (ofBytes.mark next).isDigit) =
      text.head?.any Char.isDigit := by
  cases text with
  | nil => rfl
  | cons char rest =>
      rcases Nat.lt_or_ge char.toNat 128 with ascii | beyond
      · obtain ⟨byte, isMark, row⟩ := bytesOf_ascii ascii rest
        rw [row]
        exact congrArg Char.isDigit isMark
      · obtain ⟨byte, others, byteBeyond, row⟩ := bytesOf_beyond beyond rest
        rw [row]
        exact (Token.isDigit_beyond byteBeyond).trans (Token.isDigit_beyond beyond).symm

theorem escapeBehind_ofBytes (mark char : Char) (after : List Char) :
    ofBytes.escapeBehind mark char (bytesOf after) =
      (ofChars.escapeBehind mark char after).map fun found => (found.1, bytesOf found.2) := by
  unfold escapeBehind
  rw [hex?_ofBytes, hex?_ofBytes]
  cases simpleEscape? mark with
  | some decoded => rfl
  | none =>
      dsimp only
      split
      · rw [startsWithDigit_ofBytes]
        change _ = Except.map _ (if after.head?.any Char.isDigit then _ else _)
        split <;> rfl
      · rfl
      · have sameHead : after.head?.map ofChars.mark = after.head? := Option.map_id'
        rw [sameHead]
        by_cases isFeed : after.head? = some '\n'
        · rw [if_pos isFeed, if_pos ((head_ofBytes (by decide) after).mpr isFeed)]
          obtain ⟨left, rfl⟩ := List.head?_eq_some_iff.mp isFeed
          rfl
        · rw [if_neg isFeed, if_neg (mt (head_ofBytes (by decide) after).mp isFeed)]
          rfl
      · cases ofChars.hex? 2 after <;> rfl
      · cases ofChars.hex? 4 after with
        | none => rfl
        | some found =>
            dsimp only [Option.map_some]
            rw [paired_ofBytes]
            rfl
      · rfl

/-- An escape is read from the bytes of a text as from the text. -/
theorem escape_ofBytes (text : List Char) :
    ofBytes.escape (bytesOf text) =
      (ofChars.escape text).map fun found => (found.1, bytesOf found.2) := by
  cases text with
  | nil => rfl
  | cons char after =>
      have isFirst := first_ofBytes char after
      rcases Nat.lt_or_ge char.toNat 128 with ascii | beyond
      · obtain ⟨byte, isMark, row⟩ := bytesOf_ascii ascii after
        rw [row] at isFirst ⊢
        have sameMark : ofBytes.mark byte = char := isMark
        rw [escape, escape, sameMark, isFirst]
        exact escapeBehind_ofBytes char char after
      · obtain ⟨byte, others, byteBeyond, row⟩ := bytesOf_beyond beyond after
        rw [row] at isFirst ⊢
        have unknown : ofChars.escape (char :: after) = .error (.unknownEscape char) :=
          escapeBehind_beyond ofChars beyond char after
        rw [unknown, escape, isFirst]
        exact escapeBehind_beyond ofBytes byteBeyond char others

/-! ## Whole rows -/

section

variable {α : Type} {row : UnitRow α}

theorem length_le_of_hex?
    {count code : Nat}
    {units left : List α}
    (reads : row.hex? count units = some (code, left)) :
    left.length ≤ units.length := by
  obtain ⟨found, -, isFound⟩ := Option.map_eq_some_iff.mp reads
  obtain ⟨-, rfl⟩ := Prod.mk.inj isFound
  rw [List.length_drop]
  exact Nat.sub_le _ _

theorem length_paired_le (row : UnitRow α) (code : Nat) (rest : List α) :
    (row.paired code rest).2.length ≤ rest.length := by
  unfold paired
  split
  · rename_i low after isLow
    split
    · unfold lowHalf? at isLow
      split at isLow
      · have shorter := length_le_of_hex? isLow
        rw [List.length_drop] at shorter
        exact Nat.le_trans shorter (Nat.sub_le _ _)
      · cases isLow
    · exact Nat.le_refl _
  · exact Nat.le_refl _

/-- An escape leaves no more than there was behind its backslash. -/
theorem length_le_of_escape
    {rest left : List α}
    {decoded : List Char}
    (reads : row.escape rest = .ok (decoded, left)) :
    left.length ≤ rest.length := by
  cases rest with
  | nil => cases reads
  | cons unit after =>
      refine Nat.le_trans ?_ (Nat.le_succ after.length)
      rw [escape] at reads
      unfold escapeBehind at reads
      split at reads
      · cases reads
        exact Nat.le_refl _
      · split at reads
        · split at reads <;> cases reads
          exact Nat.le_refl _
        · cases reads
          exact Nat.le_refl _
        · cases reads
          split
          · rw [List.length_tail]
            exact Nat.sub_le _ _
          · exact Nat.le_refl _
        · split at reads <;> cases reads
          rename_i isCode
          exact length_le_of_hex? isCode
        · split at reads
          · rename_i code left isCode
            have shorter := length_paired_le row code left
            rw [Except.ok.inj reads] at shorter
            exact Nat.le_trans shorter (length_le_of_hex? isCode)
          · cases reads
        · cases reads

/-- Units that are no backslash are copied. -/
theorem unescape_copied
    {copied : List α}
    (noEscape : ∀ unit ∈ copied, row.mark unit ≠ '\\')
    (budget : Nat)
    (rest : List α) :
    row.unescape (copied.length + budget) (copied ++ rest) =
      (row.unescape budget rest).map (copied ++ ·) := by
  induction copied with
  | nil =>
      rw [List.length_nil, Nat.zero_add, List.nil_append]
      cases row.unescape budget rest <;> rfl
  | cons unit copied inductionHypothesis =>
      obtain ⟨notEscape, noEscape⟩ := List.forall_mem_cons.mp noEscape
      have oneMore : (unit :: copied).length + budget = copied.length + budget + 1 := by
        rw [List.length_cons]
        omega
      rw [oneMore, List.cons_append, unescape, if_neg notEscape, inductionHypothesis noEscape]
      cases row.unescape budget rest <;> rfl

end

/-- No byte of another character is read as a mark of ASCII. -/
theorem mark_ne_of_mem_encoding
    {char mark : Char}
    (markAscii : mark.toNat < 128)
    (different : char ≠ mark) :
    ∀ byte ∈ String.utf8EncodeChar char, letter byte ≠ mark := by
  intro byte member isMarked
  rcases Nat.lt_or_ge char.toNat 128 with ascii | beyond
  · obtain ⟨only, isMark, row⟩ := bytesOf_ascii ascii []
    have isOnly : String.utf8EncodeChar char = [only] := by
      simpa [bytesOf] using row
    rw [isOnly, List.mem_singleton] at member
    exact different (isMark.symm.trans (member ▸ isMarked))
  · have byteBeyond := Token.le_of_mem_encoding beyond byte member
    rw [← Token.toNat_letter, isMarked] at byteBeyond
    exact absurd byteBeyond (Nat.not_le_of_lt markAscii)

/-- The bytes of a text are decoded to the bytes of what the text is decoded to. -/
theorem unescape_ofBytes
    {budget byteBudget : Nat}
    {text : List Char}
    (enough : text.length < budget)
    (enoughBytes : (bytesOf text).length < byteBudget) :
    ofBytes.unescape byteBudget (bytesOf text) = (ofChars.unescape budget text).map bytesOf := by
  induction budget generalizing byteBudget text with
  | zero => exact absurd enough (Nat.not_lt_zero _)
  | succ budget inductionHypothesis =>
      cases text with
      | nil => cases byteBudget <;> rfl
      | cons char rest =>
          rw [List.length_cons] at enough
          by_cases isBackslash : char = '\\'
          · subst isBackslash
            have ascii : '\\'.toNat < 128 := by decide
            obtain ⟨byte, isMark, row⟩ := bytesOf_ascii ascii rest
            rw [row] at enoughBytes ⊢
            rw [List.length_cons] at enoughBytes
            obtain ⟨byteBudget, rfl⟩ :=
              Nat.exists_eq_succ_of_ne_zero (Nat.ne_zero_of_lt enoughBytes)
            have escapes := escape_ofBytes rest
            rw [unescape, unescape, if_pos (show ofBytes.mark byte = '\\' from isMark),
              if_pos (show ofChars.mark '\\' = '\\' from rfl), escapes]
            cases reads : ofChars.escape rest with
            | error fault => rfl
            | ok found =>
                obtain ⟨decoded, left⟩ := found
                rw [reads] at escapes
                have shorter := length_le_of_escape reads
                have shorterBytes : (bytesOf left).length ≤ (bytesOf rest).length :=
                  length_le_of_escape escapes
                change (ofBytes.unescape byteBudget (bytesOf left)).map (bytesOf decoded ++ ·) =
                  ((ofChars.unescape budget left).map (decoded ++ ·)).map bytesOf
                rw [inductionHypothesis (by omega) (by omega)]
                cases ofChars.unescape budget left with
                | error fault => rfl
                | ok text => exact congrArg Except.ok (Token.bytesOf_append decoded text).symm
          · have row : bytesOf (char :: rest) = String.utf8EncodeChar char ++ bytesOf rest :=
              List.flatMap_cons
            rw [row, List.length_append] at enoughBytes
            obtain ⟨left, rfl⟩ := Nat.exists_eq_add_of_le
              (Nat.le_of_lt (Nat.lt_of_le_of_lt (Nat.le_add_right _ _) enoughBytes))
            rw [row, unescape_copied (mark_ne_of_mem_encoding (by decide) isBackslash), unescape,
              if_neg (show ofChars.mark char ≠ '\\' from isBackslash),
              inductionHypothesis (by omega) (by omega)]
            cases ofChars.unescape budget rest with
            | error fault => rfl
            | ok text => exact congrArg Except.ok List.flatMap_cons.symm

end UnitRow

theorem backslash_mem_bytesOf (text : List Char) :
    '\\' ∈ (bytesOf text).map letter ↔ '\\' ∈ text := by
  constructor
  · intro member
    obtain ⟨byte, isByte, isBackslash⟩ := List.mem_map.mp member
    obtain ⟨char, isChar, inEncoding⟩ := List.mem_flatMap.mp isByte
    by_cases same : char = '\\'
    · exact same ▸ isChar
    · exact absurd isBackslash (UnitRow.mark_ne_of_mem_encoding (by decide) same byte inEncoding)
  · intro member
    obtain ⟨front, back, rfl⟩ := List.mem_iff_append.mp member
    have ascii : '\\'.toNat < 128 := by decide
    obtain ⟨byte, isMark, row⟩ := UnitRow.bytesOf_ascii ascii back
    rw [Token.bytesOf_append, row]
    exact List.mem_map.mpr ⟨byte, List.mem_append_right _ List.mem_cons_self, isMark⟩

/-- The bytes of a text are decoded to the bytes of the decoded text, or refused as the text is. -/
theorem unescapeBytes_bytesOf (raw : String) :
    unescapeBytes (bytesOf raw.toList) =
      (unescape raw).map fun text => bytesOf text.toList := by
  unfold unescapeBytes unescape
  dsimp only
  by_cases escapes : '\\' ∈ raw.toList
  · rw [if_pos (List.contains_iff_mem.mpr escapes),
      if_pos (List.contains_iff_mem.mpr ((backslash_mem_bytesOf _).mpr escapes)),
      UnitRow.unescape_ofBytes (Nat.lt_succ_self _) (Nat.lt_succ_self _), UnitRow.unescape_ofChars]
    cases unescapeFrom (raw.toList.length + 1) raw.toList with
    | error fault => rfl
    | ok text => exact congrArg Except.ok (congrArg bytesOf String.toList_ofList.symm)
  · rw [if_neg (mt List.contains_iff_mem.mp escapes),
      if_neg (mt List.contains_iff_mem.mp (mt (backslash_mem_bytesOf _).mp escapes))]
    rfl

/-- Bytes are well-formed UTF-8 if they are the bytes of a text. -/
theorem isValidUTF8_iff (bytes : List UInt8) :
    bytes.toByteArray.IsValidUTF8 ↔ ∃ text, bytes = bytesOf text := by
  constructor
  · rintro ⟨text, isText⟩
    refine ⟨text, ?_⟩
    have sameData := congrArg ByteArray.data isText
    rw [List.data_toByteArray, List.utf8Encode, List.data_toByteArray] at sameData
    exact Array.toList_inj.mpr sameData
  · rintro ⟨text, rfl⟩
    exact ⟨text, rfl⟩

/-!
## Texts written as UTF-16 units

Every text can be written between quotes in ASCII alone, by an escape of four digits for each of
its UTF-16 units.  A character above U+FFFF has two units, which are halves of a pair, and no
other character has a unit that is such a half.  So a unit that is no half stands for itself
whatever follows, two halves find each other, and the text comes back as it was.

Escapes never leave anything but characters: decoding the bytes of a text gives the bytes of a
text, also where the halves of pairs stand alone.
-/

/-- The digit of a value below 16, a capital letter or a small one above nine. -/
def hexDigit (capital : Bool) (value : Nat) : Char :=
  if value < 10 then Char.ofNat ('0'.toNat + value)
  else Char.ofNat ((if capital then 'A' else 'a').toNat + (value - 10))

/-- The four digits of a unit; `capital` tells in which case each of them is written. -/
def unitDigits (capital : Nat → Bool) (unit : Nat) : List Char :=
  [hexDigit (capital 0) (unit / 0x1000), hexDigit (capital 1) (unit / 0x100 % 0x10),
    hexDigit (capital 2) (unit / 0x10 % 0x10), hexDigit (capital 3) (unit % 0x10)]

/-- The UTF-16 units of a character. -/
def unitsOf (char : Char) : List Nat :=
  if char.toNat < 0x10000 then [char.toNat]
  else [0xD800 + (char.toNat - 0x10000) / 0x400, 0xDC00 + (char.toNat - 0x10000) % 0x400]

/-- Units written as escapes; `capital` tells of each unit and each digit how it is written. -/
def unitEscapes (capital : Nat → Nat → Bool) : Nat → List Nat → List Char
  | _, [] => []
  | place, unit :: units =>
      '\\' :: 'u' :: (unitDigits (capital place) unit ++ unitEscapes capital (place + 1) units)

/-- A text with an escape for each of its UTF-16 units. -/
def writtenInUnits (capital : Nat → Nat → Bool) (text : List Char) : List Char :=
  unitEscapes capital 0 (text.flatMap unitsOf)

theorem digitValue_hexDigit :
    ∀ capital, ∀ value < 16, Number.digitValue (hexDigit capital value) = value := by
  decide

theorem isHex_unitDigits (capital : Nat → Bool) {unit : Nat} (isUnit : unit < 0x10000) :
    IsHex 4 (unitDigits capital unit) unit := by
  have first := digitValue_hexDigit (capital 0) (unit / 0x1000) (by omega)
  have second := digitValue_hexDigit (capital 1) (unit / 0x100 % 0x10) (by omega)
  have third := digitValue_hexDigit (capital 2) (unit / 0x10 % 0x10) (by omega)
  have fourth := digitValue_hexDigit (capital 3) (unit % 0x10) (by omega)
  have value : (((0 * 16 + unit / 0x1000) * 16 + unit / 0x100 % 0x10) * 16 +
      unit / 0x10 % 0x10) * 16 + unit % 0x10 = unit := by omega
  unfold IsHex unitDigits
  rw [hexDigits?, first, if_pos (by omega), hexDigits?, second, if_pos (by omega), hexDigits?,
    third, if_pos (by omega), hexDigits?, fourth, if_pos (by omega), hexDigits?, value]

theorem charOfCode_toNat (char : Char) : charOfCode char.toNat = char := by
  have isValid : char.toNat.isValidChar := char.valid
  unfold charOfCode
  rw [if_pos isValid]
  exact Char.ofNat_toNat char

/-- A unit that stands for a character is no half of a pair. -/
theorem joinSurrogates?_of_char (char : Char) (low : Nat) :
    joinSurrogates? char.toNat low = none := by
  have isValid : char.toNat.isValidChar := char.valid
  unfold joinSurrogates?
  rw [if_neg]
  rintro ⟨high, _⟩
  rcases isValid with small | ⟨large, _⟩ <;> omega

/-- A character of two units has the two halves of a pair. -/
theorem joinSurrogates?_of_large {char : Char} (large : 0x10000 ≤ char.toNat) :
    joinSurrogates? (0xD800 + (char.toNat - 0x10000) / 0x400)
      (0xDC00 + (char.toNat - 0x10000) % 0x400) = some char.toNat := by
  have isValid : char.toNat.isValidChar := char.valid
  have small : char.toNat < 0x110000 := by
    rcases isValid with small | ⟨_, small⟩ <;> omega
  unfold joinSurrogates?
  rw [if_pos (by omega)]
  exact congrArg some (by omega)

/-- The escapes of the units of a text are pieces that stand for the text. -/
theorem exists_pieces_of_units (capital : Nat → Nat → Bool) (place : Nat) (text : List Char) :
    ∃ pieces, Pieces (unitEscapes capital place (text.flatMap unitsOf)) pieces text := by
  induction text generalizing place with
  | nil => exact ⟨[], .done⟩
  | cons char rest inductionHypothesis =>
      have isChar := charOfCode_toNat char
      rw [List.flatMap_cons, unitsOf]
      split
      · rename_i small
        have alone : Escape (unitEscapes capital (place + 1) (rest.flatMap unitsOf))
            ('u' :: unitDigits (capital place) char.toNat) [charOfCode char.toNat] :=
          .unit (isHex_unitDigits (capital place) small)
            fun _ low _ _ => joinSurrogates?_of_char char low
        rw [isChar] at alone
        exact Pieces.exists_escape alone (inductionHypothesis (place + 1))
      · rename_i notSmall
        have large := Nat.le_of_not_lt notSmall
        have isValid : char.toNat.isValidChar := char.valid
        have high : 0xD800 + (char.toNat - 0x10000) / 0x400 < 0x10000 := by
          rcases isValid with small | ⟨_, small⟩ <;> omega
        have low : 0xDC00 + (char.toNat - 0x10000) % 0x400 < 0x10000 := by omega
        have paired : Escape (unitEscapes capital (place + 2) (rest.flatMap unitsOf)) _
            [charOfCode char.toNat] :=
          .pair (isHex_unitDigits (capital place) high) (isHex_unitDigits (capital (place + 1)) low)
            (joinSurrogates?_of_large large)
        rw [isChar] at paired
        have reads := Pieces.exists_escape paired (inductionHypothesis (place + 2))
        rw [List.cons_append, List.append_assoc] at reads
        exact reads

/--
Unicode escapes decode exactly.  A text that is written by its UTF-16 units, with digits in
either case, is decoded to the text, and its bytes to the bytes of the text.  Whatever the text
between the quotes is, its bytes are decoded as the text is: they are refused by the same fault,
or give the bytes of the decoded text.  So well-formed UTF-8 is refused or decoded to
well-formed UTF-8.
-/
theorem unit_escapes_decode_exactly :
    (∀ (capital : Nat → Nat → Bool) (text : String),
      unescape (String.ofList (writtenInUnits capital text.toList)) = .ok text ∧
      unescapeBytes (bytesOf (writtenInUnits capital text.toList)) = .ok (bytesOf text.toList)) ∧
    (∀ raw : String, unescapeBytes (bytesOf raw.toList) =
      (unescape raw).map fun text => bytesOf text.toList) ∧
    ∀ body : List UInt8, body.toByteArray.IsValidUTF8 →
      (∃ fault, unescapeBytes body = .error fault) ∨
      ∃ decoded, unescapeBytes body = .ok decoded ∧ decoded.toByteArray.IsValidUTF8 := by
  refine ⟨fun capital text => ?_, unescapeBytes_bytesOf, fun body isValid => ?_⟩
  · obtain ⟨pieces, reads⟩ := exists_pieces_of_units capital 0 text.toList
    have decodes : unescape (String.ofList (writtenInUnits capital text.toList)) = .ok text := by
      refine unescape_eq_ok_iff.mpr ⟨pieces, ?_⟩
      rw [String.toList_ofList]
      exact reads
    refine ⟨decodes, ?_⟩
    have sameBytes := unescapeBytes_bytesOf (String.ofList (writtenInUnits capital text.toList))
    rw [decodes, String.toList_ofList] at sameBytes
    exact sameBytes
  · obtain ⟨text, rfl⟩ := (isValidUTF8_iff body).mp isValid
    have sameBytes := unescapeBytes_bytesOf (String.ofList text)
    rw [String.toList_ofList] at sameBytes
    rw [sameBytes]
    cases unescape (String.ofList text) with
    | error fault => exact .inl ⟨fault, rfl⟩
    | ok decoded => exact .inr ⟨_, rfl, (isValidUTF8_iff _).mpr ⟨_, rfl⟩⟩

/-- A pair in mixed case is joined, and a half that stands alone gives a mark of three bytes. -/
theorem unit_escapes_decode_exactly_of_pair :
    writtenInUnits (fun place _ => place = 0) ['😀'] =
        ['\\', 'u', 'D', '8', '3', 'D', '\\', 'u', 'd', 'e', '0', '0'] ∧
      unescape (String.ofList ['\\', 'u', 'D', '8', '3', 'D', '\\', 'u', 'd', 'e', '0', '0']) =
        .ok (String.ofList ['😀']) ∧
      (bytesOf ['\\', 'u', 'd', '8', '3', 'd', '!']).toByteArray.IsValidUTF8 ∧
      unescapeBytes (bytesOf ['\\', 'u', 'd', '8', '3', 'd', '!']) = .ok [0xEF, 0xBF, 0xBD, 0x21] ∧
      [0xEF, 0xBF, 0xBD, 0x21].toByteArray.IsValidUTF8 := by
  obtain ⟨decodes, -, keeps⟩ := unit_escapes_decode_exactly
  have isWritten : writtenInUnits (fun place _ => place = 0) ['😀'] =
      ['\\', 'u', 'D', '8', '3', 'D', '\\', 'u', 'd', 'e', '0', '0'] := by decide
  have isPair := (decodes (fun place _ => place = 0) (String.ofList ['😀'])).1
  rw [String.toList_ofList, isWritten] at isPair
  have isValid := (isValidUTF8_iff (bytesOf ['\\', 'u', 'd', '8', '3', 'd', '!'])).mpr ⟨_, rfl⟩
  have isMarked : unescapeBytes (bytesOf ['\\', 'u', 'd', '8', '3', 'd', '!']) =
      .ok [0xEF, 0xBF, 0xBD, 0x21] := by rfl
  refine ⟨isWritten, isPair, isValid, isMarked, ?_⟩
  rcases keeps _ isValid with ⟨fault, refused⟩ | ⟨decoded, isDecoded, decodedIsValid⟩
  · rw [isMarked] at refused
    cases refused
  · rw [isMarked] at isDecoded
    cases isDecoded
    exact decodedIsValid

end ScriptEngine
