import Mathlib.Data.List.Infix
import ScriptEngine.Code.Escape

namespace ScriptEngine

/-!
# Pieces of string literals

The text between the quotes of a string literal is a row of pieces: characters that stand for
themselves, and escapes.  A text can be decoded exactly if it is such a row, and what it is
decoded to is what the pieces stand for, one after the other.

How far an escape goes is seen from the escape itself, but for two cases.  A carriage return
takes a line feed behind it along, and half of a surrogate pair the escape of the other half.
-/

variable {rest text digits remaining second behind here : List Char} {budget code count value : Nat}
  {decoded : Char} {pieces : List Piece}

/-! ## Hexadecimal digits -/

theorem hexDigits?_append
    (reads : hexDigits? count value digits = some (code, []))
    (rest : List Char) :
    hexDigits? count value (digits ++ rest) = some (code, rest) := by
  induction count generalizing value digits with
  | zero =>
      cases reads
      rfl
  | succ count inductionHypothesis =>
      cases digits with
      | nil => cases reads
      | cons digit digits =>
          rw [hexDigits?] at reads
          rw [List.cons_append, hexDigits?]
          split at reads
          · rename_i isDigit
            rw [if_pos isDigit]
            exact inductionHypothesis reads
          · cases reads

/-- The digits that were read are a part of the text in front of what is left. -/
theorem exists_of_hexDigits?
    (reads : hexDigits? count value text = some (code, rest)) :
    ∃ digits, text = digits ++ rest ∧ hexDigits? count value digits = some (code, []) := by
  fun_induction hexDigits? count value text with
  | case1 value rest =>
      cases reads
      exact ⟨[], rfl, rfl⟩
  | case2 value count char left isDigit inductionHypothesis =>
      obtain ⟨digits, rfl, isCode⟩ := inductionHypothesis reads
      exact ⟨char :: digits, rfl, by rwa [hexDigits?, if_pos isDigit]⟩
  | case3 | case4 => cases reads

theorem digitValue_lt_of_hexDigits?
    (reads : hexDigits? count value digits = some (code, [])) :
    ∀ char ∈ digits, Number.digitValue char < 16 := by
  fun_induction hexDigits? count value digits with
  | case1 value rest =>
      cases reads
      exact fun _ member => nomatch member
  | case2 value count char left isDigit inductionHypothesis =>
      exact List.forall_mem_cons.mpr ⟨isDigit, inductionHypothesis reads⟩
  | case3 | case4 => cases reads

theorem length_of_hexDigits?
    (reads : hexDigits? count value digits = some (code, [])) :
    digits.length = count := by
  fun_induction hexDigits? count value digits with
  | case1 value rest =>
      cases reads
      rfl
  | case2 value count char left isDigit inductionHypothesis =>
      rw [List.length_cons, inductionHypothesis reads]
  | case3 | case4 => cases reads

/-! ## Escapes -/

/-- The digits of an escape, and the number they stand for. -/
def IsHex (count : Nat) (digits : List Char) (code : Nat) : Prop :=
  hexDigits? count 0 digits = some (code, [])

/--
What stands behind a backslash as far as the escape goes, and what the escape stands for, in
front of the rest of a text.
-/
inductive Escape (rest : List Char) : List Char → List Char → Prop where
  | simple {char decoded : Char} :
      simpleEscape? char = some decoded →
      Escape rest [char] [decoded]
  | null :
      (∀ next ∈ rest.head?, next.isDigit = false) →
      Escape rest ['0'] [Char.ofNat 0]
  | lineFeed : Escape rest ['\n'] []
  | carriageReturn :
      rest.head? ≠ some '\n' →
      Escape rest ['\r'] []
  | lineBreak : Escape rest ['\r', '\n'] []
  | byte {digits : List Char} {code : Nat} :
      IsHex 2 digits code →
      Escape rest ('x' :: digits) [charOfCode code]
  | unit {digits : List Char} {code : Nat} :
      IsHex 4 digits code →
      (∀ others low, ('\\' :: 'u' :: others) <+: rest → IsHex 4 others low →
        joinSurrogates? code low = none) →
      Escape rest ('u' :: digits) [charOfCode code]
  | pair {first second : List Char} {high low joined : Nat} :
      IsHex 4 first high →
      IsHex 4 second low →
      joinSurrogates? high low = some joined →
      Escape rest ('u' :: (first ++ '\\' :: 'u' :: second)) [charOfCode joined]

/-- A piece of a string literal: a character, or an escape with what stands behind its backslash. -/
inductive Piece where
  | plain (char : Char)
  | escape (behind : List Char)
  deriving DecidableEq, Repr

/-- A text is made of pieces, and they stand for a text. -/
inductive Pieces : List Char → List Piece → List Char → Prop where
  | done : Pieces [] [] []
  | plain {char : Char} {rest decoded : List Char} {pieces : List Piece} :
      char ≠ '\\' →
      Pieces rest pieces decoded →
      Pieces (char :: rest) (.plain char :: pieces) (char :: decoded)
  | escape {behind rest here decoded : List Char} {pieces : List Piece} :
      Escape rest behind here →
      Pieces rest pieces decoded →
      Pieces ('\\' :: (behind ++ rest)) (.escape behind :: pieces) (here ++ decoded)

/-! ## Decoding -/

/-- The escape of a character, and of another half of it if it is there. -/
theorem escape_of_unicodeEscape
    (isCode : IsHex 4 digits code)
    (gives : unicodeEscape code rest = (decoded, remaining)) :
    ∃ behind, 'u' :: (digits ++ rest) = behind ++ remaining ∧ Escape remaining behind [decoded] := by
  have alone (notPaired : ∀ others low, ('\\' :: 'u' :: others) <+: rest → IsHex 4 others low →
        joinSurrogates? code low = none) :
      ∃ behind, 'u' :: (digits ++ rest) = behind ++ rest ∧
        Escape rest behind [charOfCode code] :=
    ⟨'u' :: digits, rfl, .unit isCode notPaired⟩
  unfold unicodeEscape at gives
  split at gives
  · rename_i text
    have readsOthers {others : List Char} {low : Nat}
        (isPrefix : ('\\' :: 'u' :: others) <+: '\\' :: 'u' :: text)
        (isLow : IsHex 4 others low) :
        ∃ after, hexDigits? 4 0 text = some (low, after) := by
      obtain ⟨after, isText⟩ := isPrefix
      obtain rfl : others ++ after = text := by simpa using isText
      exact ⟨after, hexDigits?_append isLow after⟩
    split at gives
    · rename_i low after isLow
      split at gives
      · rename_i joined isJoined
        cases gives
        obtain ⟨second, rfl, isSecond⟩ := exists_of_hexDigits? isLow
        exact ⟨'u' :: (digits ++ '\\' :: 'u' :: second), by simp, .pair isCode isSecond isJoined⟩
      · rename_i notJoined
        cases gives
        refine alone fun others other isPrefix isOther => ?_
        obtain ⟨_, isOther⟩ := readsOthers isPrefix isOther
        rw [isLow] at isOther
        cases isOther
        exact notJoined
    · rename_i notLow
      cases gives
      refine alone fun others other isPrefix isOther => ?_
      obtain ⟨_, isOther⟩ := readsOthers isPrefix isOther
      rw [notLow] at isOther
      cases isOther
  · rename_i notEscape
    cases gives
    refine alone fun others low isPrefix _ => ?_
    obtain ⟨tail, isRest⟩ := isPrefix
    exact absurd isRest.symm (notEscape _)

theorem unicodeEscape_of_unit
    (notPaired : ∀ others low, ('\\' :: 'u' :: others) <+: rest → IsHex 4 others low →
      joinSurrogates? code low = none) :
    unicodeEscape code rest = (charOfCode code, rest) := by
  unfold unicodeEscape
  split
  · split
    · rename_i low after isLow
      obtain ⟨others, rfl, isOthers⟩ := exists_of_hexDigits? isLow
      rw [notPaired others low ⟨after, by simp⟩ isOthers]
    · rfl
  · rfl

theorem unicodeEscape_of_pair
    {high low joined : Nat}
    (isLow : IsHex 4 second low)
    (isJoined : joinSurrogates? high low = some joined) :
    unicodeEscape high ('\\' :: 'u' :: (second ++ rest)) = (charOfCode joined, rest) := by
  simp only [unicodeEscape, hexDigits?_append isLow, isJoined]

attribute [local simp] unescapeFrom

theorem unescapeFrom_null
    {next : Char}
    (notDigit : next.isDigit = false) :
    unescapeFrom (budget + 1) ('\\' :: '0' :: next :: rest) =
      (unescapeFrom budget (next :: rest)).map (Char.ofNat 0 :: ·) := by
  simp [notDigit, simpleEscape?]

theorem unescapeFrom_carriageReturn
    (notFeed : rest.head? ≠ some '\n') :
    unescapeFrom (budget + 1) ('\\' :: '\r' :: rest) = unescapeFrom budget rest := by
  rw [unescapeFrom]
  · rfl
  · rintro left rfl
    exact notFeed rfl

theorem unescapeFrom_byte
    {left : List Char}
    (isCode : hexDigits? 2 0 text = some (code, left)) :
    unescapeFrom (budget + 1) ('\\' :: 'x' :: text) =
      (unescapeFrom budget left).map (charOfCode code :: ·) := by
  simp [isCode, simpleEscape?]

theorem unescapeFrom_unit
    {left : List Char}
    (isCode : hexDigits? 4 0 text = some (code, left))
    (gives : unicodeEscape code left = (decoded, remaining)) :
    unescapeFrom (budget + 1) ('\\' :: 'u' :: text) =
      (unescapeFrom budget remaining).map (decoded :: ·) := by
  simp [isCode, gives, simpleEscape?]

/-- What an escape stands for is put in front of what the rest is decoded to. -/
theorem unescapeFrom_escape
    (escape : Escape rest behind here)
    (budget : Nat) :
    unescapeFrom (budget + 1) ('\\' :: (behind ++ rest)) =
      (unescapeFrom budget rest).map (here ++ ·) := by
  have mapId (result : Except LoweringFault (List Char)) : result = result.map ([] ++ ·) := by
    cases result <;> rfl
  cases escape with
  | simple isSimple =>
      unfold simpleEscape? at isSimple
      split at isSimple <;> cases isSimple <;> rfl
  | null notDigit =>
      cases rest with
      | nil => cases budget <;> rfl
      | cons next rest => exact unescapeFrom_null (notDigit next rfl)
  | lineFeed => exact mapId _
  | carriageReturn notFeed => exact (unescapeFrom_carriageReturn notFeed).trans (mapId _)
  | lineBreak => exact mapId _
  | byte isCode => exact unescapeFrom_byte (hexDigits?_append isCode rest)
  | unit isCode notPaired =>
      exact unescapeFrom_unit (hexDigits?_append isCode rest) (unicodeEscape_of_unit notPaired)
  | pair isHigh isLow isJoined =>
      rw [List.cons_append, List.append_assoc]
      exact unescapeFrom_unit (hexDigits?_append isHigh _) (unicodeEscape_of_pair isLow isJoined)

theorem ok_of_map
    {α β : Type}
    {result : Except LoweringFault α}
    {change : α → β}
    {changed : β}
    (decodes : result.map change = .ok changed) :
    ∃ value, result = .ok value ∧ changed = change value := by
  cases result with
  | error fault => cases decodes
  | ok value =>
      cases decodes
      exact ⟨value, rfl, rfl⟩

theorem Pieces.exists_escape
    {decoded : List Char}
    (escape : Escape rest behind here)
    (reads : ∃ pieces, Pieces rest pieces decoded) :
    ∃ pieces, Pieces ('\\' :: (behind ++ rest)) pieces (here ++ decoded) := by
  obtain ⟨pieces, isRest⟩ := reads
  exact ⟨_, .escape escape isRest⟩

/-- A text that is decoded is made of pieces. -/
theorem exists_pieces_of_unescapeFrom
    {decoded : List Char}
    (enough : text.length < budget)
    (decodes : unescapeFrom budget text = .ok decoded) :
    ∃ pieces, Pieces text pieces decoded := by
  fun_induction unescapeFrom budget text generalizing decoded with
  | case1 => exact absurd enough (Nat.not_lt_zero _)
  | case2 =>
      cases decodes
      exact ⟨[], .done⟩
  | case3 | case5 | case12 | case14 | case15 => cases decodes
  | case4 _ _ _ _ isSimple inductionHypothesis =>
      obtain ⟨more, isMore, rfl⟩ := ok_of_map decodes
      simp only [List.length_cons] at enough
      exact Pieces.exists_escape (.simple isSimple) (inductionHypothesis (by omega) isMore)
  | case6 _ next tail notDigit _ inductionHypothesis =>
      obtain ⟨more, isMore, rfl⟩ := ok_of_map decodes
      simp only [List.length_cons] at enough inductionHypothesis
      refine Pieces.exists_escape (.null fun char isNext => ?_) (inductionHypothesis (by omega) isMore)
      cases isNext
      exact Bool.eq_false_iff.mpr notDigit
  | case7 =>
      cases decodes
      exact Pieces.exists_escape (.null fun _ isNext => absurd isNext (Option.not_mem_none _))
        ⟨[], .done⟩
  | case8 _ _ _ inductionHypothesis =>
      simp only [List.length_cons] at enough
      exact Pieces.exists_escape .lineFeed (inductionHypothesis (by omega) decodes)
  | case9 _ _ _ inductionHypothesis =>
      simp only [List.length_cons] at enough
      exact Pieces.exists_escape .lineBreak (inductionHypothesis (by omega) decodes)
  | case10 _ after notFeed _ inductionHypothesis =>
      simp only [List.length_cons] at enough
      refine Pieces.exists_escape (.carriageReturn fun isFeed => ?_)
        (inductionHypothesis (by omega) decodes)
      obtain ⟨left, isAfter⟩ := List.head?_eq_some_iff.mp isFeed
      exact notFeed left isAfter
  | case11 _ _ _ _ isCode _ inductionHypothesis =>
      obtain ⟨more, isMore, rfl⟩ := ok_of_map decodes
      obtain ⟨digits, rfl, isHex⟩ := exists_of_hexDigits? isCode
      simp only [List.length_cons, List.length_append] at enough
      exact Pieces.exists_escape (.byte isHex) (inductionHypothesis (by omega) isMore)
  | case13 _ _ _ _ isCode _ _ gives _ inductionHypothesis =>
      obtain ⟨more, isMore, rfl⟩ := ok_of_map decodes
      obtain ⟨digits, rfl, isHex⟩ := exists_of_hexDigits? isCode
      obtain ⟨behind, isBehind, escape⟩ := escape_of_unicodeEscape isHex gives
      rw [isBehind] at enough ⊢
      simp only [List.length_cons, List.length_append] at enough
      exact Pieces.exists_escape escape (inductionHypothesis (by omega) isMore)
  | case16 _ _ _ notEscape inductionHypothesis =>
      obtain ⟨more, isMore, rfl⟩ := ok_of_map decodes
      simp only [List.length_cons] at enough
      obtain ⟨pieces, isRest⟩ := inductionHypothesis (by omega) isMore
      exact ⟨_, .plain notEscape isRest⟩

/-- A text that is made of pieces is decoded. -/
theorem Pieces.unescapeFrom_eq
    {decoded : List Char}
    (reads : Pieces text pieces decoded)
    (enough : text.length < budget) :
    unescapeFrom budget text = .ok decoded := by
  induction reads generalizing budget with
  | done => cases budget <;> rfl
  | @plain char rest decoded pieces notEscape _ inductionHypothesis =>
      cases budget with
      | zero => exact absurd enough (Nat.not_lt_zero _)
      | succ budget =>
          rw [List.length_cons] at enough
          rw [unescapeFrom, inductionHypothesis (by omega)]
          · rfl
          · exact notEscape
  | escape escape _ inductionHypothesis =>
      cases budget with
      | zero => exact absurd enough (Nat.not_lt_zero _)
      | succ budget =>
          rw [List.length_cons, List.length_append] at enough
          rw [unescapeFrom_escape escape, inductionHypothesis (by omega)]
          rfl

/-- A text without a backslash stands for itself. -/
theorem pieces_of_plain (noEscape : '\\' ∉ text) :
    Pieces text (text.map .plain) text := by
  induction text with
  | nil => exact .done
  | cons char rest inductionHypothesis =>
      obtain ⟨notEscape, noEscape⟩ := not_or.mp (mt List.mem_cons.mpr noEscape)
      exact .plain (Ne.symm notEscape) (inductionHypothesis noEscape)

theorem Pieces.decoded_unique
    {first : List Char}
    {others : List Piece}
    (reads : Pieces text pieces first)
    (readsToo : Pieces text others second) :
    first = second := by
  have decodes := reads.unescapeFrom_eq (Nat.lt_succ_self _)
  rw [readsToo.unescapeFrom_eq (Nat.lt_succ_self _)] at decodes
  cases decodes
  rfl

/-- Decoding succeeds exactly on texts made of pieces and gives what these stand for. -/
theorem unescape_eq_ok_iff {raw text : String} :
    unescape raw = .ok text ↔ ∃ pieces, Pieces raw.toList pieces text.toList := by
  unfold unescape
  dsimp only
  split
  · constructor
    · intro decodes
      obtain ⟨decoded, isDecoded, rfl⟩ := ok_of_map decodes
      rw [String.toList_ofList]
      exact exists_pieces_of_unescapeFrom (Nat.lt_succ_self _) isDecoded
    · rintro ⟨pieces, reads⟩
      rw [reads.unescapeFrom_eq (Nat.lt_succ_self _)]
      exact congrArg Except.ok String.ofList_toList
  · rename_i noEscape
    have plain := pieces_of_plain (mt List.contains_iff_mem.mpr noEscape)
    constructor
    · intro decodes
      cases decodes
      exact ⟨_, plain⟩
    · rintro ⟨pieces, reads⟩
      rw [String.toList_inj.mp (plain.decoded_unique reads)]

/-! ## One way to take a text apart -/

/-- The number of characters that an escape takes of the text behind its backslash. -/
def escapeLength : List Char → Nat
  | '\r' :: '\n' :: _ => 2
  | 'x' :: _ => 3
  | 'u' :: text =>
      match hexDigits? 4 0 text with
      | some (code, rest) => text.length + 1 - (unicodeEscape code rest).2.length
      | none => 0
  | _ => 1

theorem escapeLength_unicode
    (isCode : hexDigits? 4 0 text = some (code, rest))
    (gives : unicodeEscape code rest = (decoded, remaining)) :
    escapeLength ('u' :: text) = text.length + 1 - remaining.length := by
  simp only [escapeLength, isCode, gives]

theorem Escape.length_eq (escape : Escape rest behind here) :
    behind.length = escapeLength (behind ++ rest) := by
  cases escape with
  | simple isSimple =>
      unfold simpleEscape? at isSimple
      split at isSimple <;> cases isSimple <;> rfl
  | null | lineFeed | lineBreak => rfl
  | carriageReturn notFeed =>
      unfold escapeLength
      split
      · rename_i isText
        obtain ⟨-, rfl⟩ := List.cons.inj isText
        exact absurd rfl notFeed
      · rename_i isText
        cases isText
      · rename_i isText
        cases isText
      · rfl
  | byte isHex => exact congrArg (· + 1) (length_of_hexDigits? isHex)
  | unit isHex notPaired =>
      rw [List.cons_append, escapeLength_unicode (hexDigits?_append isHex rest)
        (unicodeEscape_of_unit notPaired), List.length_append, List.length_cons]
      omega
  | pair isHigh isLow isJoined =>
      rw [List.cons_append, List.append_assoc, List.cons_append, List.cons_append,
        escapeLength_unicode (hexDigits?_append isHigh _) (unicodeEscape_of_pair isLow isJoined)]
      simp only [List.length_append, List.length_cons]
      omega

/-- A text is made of pieces in one way only. -/
theorem Pieces.unique
    {first : List Char}
    {others : List Piece}
    (reads : Pieces text pieces first)
    (readsToo : Pieces text others second) :
    pieces = others := by
  induction reads generalizing others second with
  | done =>
      cases readsToo
      rfl
  | plain notEscape _ inductionHypothesis =>
      cases readsToo with
      | plain _ readsRest => rw [inductionHypothesis readsRest]
      | escape => exact absurd rfl notEscape
  | @escape behind rest here decoded pieces escape _ inductionHypothesis =>
      generalize isText : '\\' :: (behind ++ rest) = text at readsToo
      cases readsToo with
      | done => cases isText
      | plain notEscape _ => exact absurd (List.cons.inj isText).1.symm notEscape
      | escape escapeToo readsRest =>
          have same := (List.cons.inj isText).2
          have lengths := congrArg escapeLength same
          rw [← escape.length_eq, ← escapeToo.length_eq] at lengths
          obtain ⟨rfl, rfl⟩ := List.append_inj same lengths
          rw [inductionHypothesis readsRest]

end ScriptEngine
