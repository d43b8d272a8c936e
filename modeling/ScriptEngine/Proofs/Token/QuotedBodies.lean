import ScriptEngine.Proofs.Code.Escapes
import ScriptEngine.Proofs.Token.Cutting

namespace ScriptEngine

/-!
# Bodies of string literals

The scanner and the decoder both look for the escapes in the body of a string literal.  The
scanner takes one character behind a backslash, whatever it is, and the decoder takes as much
as the escape has.  They agree about the end of the string, since what an escape has behind its
first character are digits and the letter of another escape.

The one escape for which this is not so is a backslash in front of a carriage return and a line
feed.  The decoder takes all of it to continue the line.  The scanner takes the carriage return,
and then the line feed ends a string that is not closed.
-/

variable {char : Char} {pieces : List Piece}

open Token

/-- What stands behind the backslash in front of a line break of two characters. -/
def Piece.lineBreak : Piece := .escape ['\r', '\n']

/-- No character that stands for itself ends a string: none is the quote or a line feed. -/
def KeepOpen (quote : Char) (pieces : List Piece) : Prop :=
  ∀ char, .plain char ∈ pieces → char ≠ quote ∧ char ≠ '\n'

namespace Token

/-! ## What the scanner passes -/

theorem cons_eq_iff {front taken rest : List Char} {closed : Bool} {body : Body} :
    body.cons front = ⟨front ++ taken, rest, closed⟩ ↔ body = ⟨taken, rest, closed⟩ := by
  obtain ⟨bodyTaken, bodyRest, bodyClosed⟩ := body
  simp [Body.cons]

theorem cons_cons (first second : List Char) (body : Body) :
    (body.cons second).cons first = body.cons (first ++ second) := by
  simp [Body.cons]

variable {quote : Char}

theorem stringBody_plain
    (notEscape : char ≠ '\\')
    (notQuote : char ≠ quote)
    (notFeed : char ≠ '\n')
    (notNul : isNul char = false)
    (text : List Char) :
    stringBody quote (char :: text) = (stringBody quote text).cons [char] := by
  simp [stringBody, notEscape, notQuote, notFeed, notNul]

theorem stringBody_hidden {hidden : Char} (notNul : isNul hidden = false) (text : List Char) :
    stringBody quote ('\\' :: hidden :: text) = (stringBody quote text).cons ['\\', hidden] := by
  simp [stringBody, notNul]

/-- A hexadecimal digit means nothing to the scanner of strings. -/
theorem stringBody_digit
    (isQuote : quote ∈ quotes)
    (isDigit : Number.digitValue char < 16)
    (text : List Char) :
    stringBody quote (char :: text) = (stringBody quote text).cons [char] := by
  have apart (other : Char) (notDigit : ¬ Number.digitValue other < 16) : char ≠ other := by
    rintro rfl
    exact notDigit isDigit
  refine stringBody_plain (apart _ (by decide)) (apart _ ?_) (apart _ (by decide)) ?_ text
  · rcases List.mem_pair.mp isQuote with rfl | rfl <;> decide
  · rw [← Bool.not_eq_true]
    intro nul
    refine apart '\x00' (by decide) (Char.toNat_inj.mp ?_)
    exact eq_of_beq nul

theorem stringBody_digits
    (isQuote : quote ∈ quotes)
    {digits : List Char}
    (areDigits : ∀ char ∈ digits, Number.digitValue char < 16)
    (text : List Char) :
    stringBody quote (digits ++ text) = (stringBody quote text).cons digits := by
  induction digits with
  | nil => rfl
  | cons digit digits inductionHypothesis =>
      obtain ⟨isDigit, areDigits⟩ := List.forall_mem_cons.mp areDigits
      rw [List.cons_append, stringBody_digit isQuote isDigit, inductionHypothesis areDigits,
        cons_cons]
      rfl

/-- The scanner passes every escape but that of a line break of two characters. -/
theorem stringBody_escape
    (isQuote : quote ∈ quotes)
    {behind rest here : List Char}
    (escape : Escape rest behind here)
    (notBreak : Piece.escape behind ≠ .lineBreak)
    (text : List Char) :
    stringBody quote ('\\' :: (behind ++ text)) =
      (stringBody quote text).cons ('\\' :: behind) := by
  cases escape with
  | simple isSimple =>
      refine stringBody_hidden ?_ text
      unfold simpleEscape? at isSimple
      split at isSimple <;> first | rfl | cases isSimple
  | null | lineFeed | carriageReturn => exact stringBody_hidden rfl text
  | lineBreak => exact absurd rfl notBreak
  | byte isHex | unit isHex _ =>
      rw [List.cons_append, stringBody_hidden rfl,
        stringBody_digits isQuote (digitValue_lt_of_hexDigits? isHex), cons_cons]
      rfl
  | pair isHigh isLow _ =>
      rw [List.cons_append, stringBody_hidden rfl, List.append_assoc,
        stringBody_digits isQuote (digitValue_lt_of_hexDigits? isHigh), List.cons_append,
        List.cons_append, stringBody_hidden rfl,
        stringBody_digits isQuote (digitValue_lt_of_hexDigits? isLow), cons_cons, cons_cons,
        cons_cons]
      simp

/-- At a line break of two characters a string is left open. -/
theorem stringBody_lineBreak (isQuote : quote ∈ quotes) (text : List Char) :
    (stringBody quote ('\\' :: '\r' :: '\n' :: text)).closed = false := by
  have feed : stringBody quote ('\n' :: text) = ⟨[], '\n' :: text, false⟩ := by
    have notQuote : '\n' ≠ quote := by
      rintro rfl
      exact absurd isQuote (by decide)
    simp [stringBody, notQuote]
  rw [stringBody_hidden rfl, feed]
  rfl

theorem keepOpen_plain_iff :
    KeepOpen quote (.plain char :: pieces) ↔
      (char ≠ quote ∧ char ≠ '\n') ∧ KeepOpen quote pieces := by
  simp [KeepOpen]

theorem keepOpen_escape_iff {behind : List Char} :
    KeepOpen quote (.escape behind :: pieces) ↔ KeepOpen quote pieces := by
  simp [KeepOpen]

/-- At a character that ends a string nothing more of the string is read. -/
theorem stringBody_stops
    (notEscape : char ≠ '\\')
    (ends : ¬(char ≠ quote ∧ char ≠ '\n'))
    (text : List Char) :
    (stringBody quote (char :: text)).taken = [] := by
  have reads : stringBody quote (char :: text) =
      if char = quote then ⟨[], char :: text, true⟩
      else if isNul char || char == '\n' then ⟨[], char :: text, false⟩
      else (stringBody quote text).cons [char] := by
    rw [stringBody] <;> simp [notEscape]
  rw [reads]
  split
  · rfl
  · rename_i notQuote
    have isFeed : char = '\n' := by tauto
    rw [if_pos (by simp [isFeed])]

section

variable (isQuote : quote ∈ quotes) {body decoded : List Char} (reads : Pieces body pieces decoded)
  (noNul : ∀ char ∈ body, isNul char = false)

include isQuote reads noNul

/--
A body of pieces is read up to the quote behind it exactly if none of its characters ends the
string and it has no line break of two characters.
-/
theorem stringBody_eq_iff (rest : List Char) :
    stringBody quote (body ++ quote :: rest) = ⟨body, quote :: rest, true⟩ ↔
      KeepOpen quote pieces ∧ Piece.lineBreak ∉ pieces := by
  induction reads with
  | done =>
      have notEscape : quote ≠ '\\' := by
        rintro rfl
        exact absurd isQuote (by decide)
      simp [stringBody, notEscape, KeepOpen]
  | @plain char text decoded pieces notEscape _ inductionHypothesis =>
      obtain ⟨notNul, noNul⟩ := List.forall_mem_cons.mp noNul
      rw [keepOpen_plain_iff]
      by_cases apart : char ≠ quote ∧ char ≠ '\n'
      · have notBreak : Piece.lineBreak ≠ .plain char := nofun
        rw [List.cons_append, stringBody_plain notEscape apart.1 apart.2 notNul]
        refine cons_eq_iff.trans ((inductionHypothesis noNul).trans ?_)
        simp [apart, notBreak]
      · refine iff_of_false (fun passed => ?_) fun keeps => apart keeps.1.1
        have stops := stringBody_stops notEscape apart (text ++ quote :: rest)
        rw [← List.cons_append, passed] at stops
        cases stops
  | @escape behind text here decoded pieces escape _ inductionHypothesis =>
      have noNul := fun char member => noNul char
        (List.mem_cons_of_mem _ (List.mem_append_right behind member))
      rw [keepOpen_escape_iff, List.mem_cons]
      by_cases isBreak : Piece.lineBreak = .escape behind
      · refine iff_of_false (fun passed => ?_) fun keeps => keeps.2 (.inl isBreak)
        cases isBreak
        have isOpen := stringBody_lineBreak isQuote (text ++ quote :: rest)
        have isClosed := congrArg Body.closed passed
        exact absurd (isClosed.symm.trans isOpen) nofun
      · rw [List.cons_append, List.append_assoc, stringBody_escape isQuote escape (Ne.symm isBreak)]
        refine cons_eq_iff.trans ((inductionHypothesis noNul).trans ?_)
        simp [isBreak]

/-- A string that nothing ends but a line break of two characters is left open there. -/
theorem stringBody_open
    (keeps : KeepOpen quote pieces)
    (isBroken : Piece.lineBreak ∈ pieces)
    (more : List Char) :
    (stringBody quote (body ++ more)).closed = false := by
  induction reads with
  | done => exact absurd isBroken List.not_mem_nil
  | @plain char text decoded pieces notEscape _ inductionHypothesis =>
      obtain ⟨notNul, noNul⟩ := List.forall_mem_cons.mp noNul
      obtain ⟨apart, keeps⟩ := keepOpen_plain_iff.mp keeps
      have isBroken := List.mem_of_ne_of_mem (nofun : Piece.lineBreak ≠ .plain char) isBroken
      rw [List.cons_append, stringBody_plain notEscape apart.1 apart.2 notNul]
      exact inductionHypothesis noNul keeps isBroken
  | @escape behind text here decoded pieces escape _ inductionHypothesis =>
      have noNul := fun char member => noNul char
        (List.mem_cons_of_mem _ (List.mem_append_right behind member))
      by_cases isBreak : Piece.lineBreak = .escape behind
      · cases isBreak
        exact stringBody_lineBreak isQuote (text ++ more)
      · rw [List.cons_append, List.append_assoc, stringBody_escape isQuote escape (Ne.symm isBreak)]
        exact inductionHypothesis noNul (keepOpen_escape_iff.mp keeps)
          (List.mem_of_ne_of_mem isBreak isBroken)

end

/-! ## What the scanner finds -/

theorem kind_stringLexeme_ne_endOfInput (quote : Char) (text : List Char) :
    (stringLexeme quote text).kind ≠ .endOfInput := by
  unfold stringLexeme
  dsimp only
  split <;> nofun

/-- A text that a quote opens starts with the string, or with what is left of one. -/
theorem scanChars_quote (isQuote : quote ∈ quotes) (width : Char → Nat) (text : List Char) :
    scanChars width (quote :: text) =
      let found := stringLexeme quote text
      let stop := Place.origin.past width found.taken
      ⟨found.kind, found.literal, 1, 1, 0, stop.offset, false, found.quote⟩ ::
        scanFrom width (text.length + 1) (some found.kind) stop found.rest := by
  have isLexeme : lexeme none (quote :: text) = stringLexeme quote text := by
    rcases List.mem_pair.mp isQuote with rfl | rfl <;> rfl
  have isGap : gapFrom .between (quote :: text) = ⟨[], quote :: text, false, true⟩ := by
    rcases List.mem_pair.mp isQuote with rfl | rfl <;> rfl
  unfold scanChars
  rw [List.length_cons, scanFrom]
  unfold next
  rw [isGap]
  dsimp only
  rw [if_pos rfl, isLexeme]
  dsimp only
  rw [if_neg (kind_stringLexeme_ne_endOfInput quote text)]
  rfl

/-- A string with its body as its literal, and the end of the input behind it. -/
def oneString (width : Char → Nat) (quote : Char) (body : List Char) : List Token :=
  let stop := Place.origin.past width (quote :: (body ++ [quote]))
  [⟨.string, String.ofList body, 1, 1, 0, stop.offset, false, some quote⟩,
    ⟨.endOfInput, "", stop.line, stop.column, stop.offset, stop.offset, false, none⟩]

/-- A text is scanned as one string exactly if the string ends at the last quote. -/
theorem scanChars_eq_oneString_iff
    (isQuote : quote ∈ quotes)
    (width : Char → Nat)
    (body : List Char) :
    scanChars width (quote :: (body ++ [quote])) = oneString width quote body ↔
      stringBody quote (body ++ [quote]) = ⟨body, [quote], true⟩ := by
  rw [scanChars_quote isQuote]
  constructor
  · intro isOne
    have first := (List.cons.inj isOne).1
    have isString := congrArg Token.kind first
    have isLiteral := congrArg Token.literal first
    have covers := stringBody_append quote (body ++ [quote])
    cases closed : (stringBody quote (body ++ [quote])).closed with
    | false => simp [stringLexeme, closed] at isString
    | true =>
        obtain ⟨rest, isRest⟩ := stringBody_closed quote (body ++ [quote]) closed
        simp only [stringLexeme, closed, isRest] at isLiteral
        have isTaken := String.ofList_injective isLiteral
        rw [isTaken, isRest] at covers
        have isRest := isRest.trans (List.append_cancel_left covers)
        calc stringBody quote (body ++ [quote])
          _ = ⟨(stringBody quote (body ++ [quote])).taken,
                (stringBody quote (body ++ [quote])).rest,
                (stringBody quote (body ++ [quote])).closed⟩ := rfl
          _ = ⟨body, [quote], true⟩ := by rw [isTaken, isRest, closed]
  · intro isBody
    simp only [stringLexeme, isBody]
    rfl

/--
A body that can be decoded is made of pieces in one way.  Between two quotes it is scanned as
one string exactly if no character of it ends the string and it has no line break of two
characters behind a backslash; with such a line break the text starts with a string that is not
closed.
-/
theorem quoted_body_scanned_as_decoded
    {body : List Char}
    {text : String}
    (isQuote : quote ∈ quotes)
    (noNul : ∀ char ∈ body, isNul char = false)
    (decodes : unescape (String.ofList body) = .ok text)
    (width : Char → Nat) :
    ∃ pieces,
      Pieces body pieces text.toList ∧
      (∀ others decoded, Pieces body others decoded → others = pieces) ∧
      (scanChars width (quote :: (body ++ [quote])) = oneString width quote body ↔
        KeepOpen quote pieces ∧ Piece.lineBreak ∉ pieces) ∧
      (KeepOpen quote pieces → Piece.lineBreak ∈ pieces →
        ∃ token ∈ (scanChars width (quote :: (body ++ [quote]))).head?,
          token.kind = .illegal ∧ token.literal = unclosedString) := by
  obtain ⟨pieces, reads⟩ := unescape_eq_ok_iff.mp decodes
  rw [String.toList_ofList] at reads
  refine ⟨pieces, reads, fun others decoded readsToo => readsToo.unique reads, ?_, ?_⟩
  · exact (scanChars_eq_oneString_iff isQuote width body).trans
      (stringBody_eq_iff isQuote reads noNul [])
  · intro keeps isBroken
    have isOpen := stringBody_open isQuote reads noNul keeps isBroken [quote]
    rw [scanChars_quote isQuote]
    exact ⟨_, rfl, by simp [stringLexeme, isOpen]⟩

/-- An escaped quote leaves a string whole, and a line break of two characters does not. -/
theorem quoted_body_of_quote_and_lineBreak :
    scanChars Char.utf8Size ['"', 'a', '\\', '"', 'b', '"'] =
        oneString Char.utf8Size '"' ['a', '\\', '"', 'b'] ∧
      unescape (String.ofList ['a', '\\', '\r', '\n', 'b']) = .ok "ab" ∧
      scanChars Char.utf8Size ['\'', 'a', '\\', '\r', '\n', 'b', '\''] ≠
        oneString Char.utf8Size '\'' ['a', '\\', '\r', '\n', 'b'] ∧
      ∃ token ∈ (scanChars Char.utf8Size ['\'', 'a', '\\', '\r', '\n', 'b', '\'']).head?,
        token.kind = .illegal ∧ token.literal = unclosedString := by
  have hidesQuote : Pieces ['a', '\\', '"', 'b']
      [.plain 'a', .escape ['"'], .plain 'b'] ['a', '"', 'b'] :=
    .plain (by decide) (.escape (.simple rfl) (.plain (by decide) .done))
  have breaksLine : Pieces ['a', '\\', '\r', '\n', 'b']
      [.plain 'a', .lineBreak, .plain 'b'] ['a', 'b'] :=
    .plain (by decide) (.escape .lineBreak (.plain (by decide) .done))
  have decodesQuote : unescape (String.ofList ['a', '\\', '"', 'b']) = .ok "a\"b" :=
    unescape_eq_ok_iff.mpr ⟨_, hidesQuote⟩
  have decodesBreak : unescape (String.ofList ['a', '\\', '\r', '\n', 'b']) = .ok "ab" :=
    unescape_eq_ok_iff.mpr ⟨_, breaksLine⟩
  obtain ⟨pieces, -, unique, isOne, -⟩ :=
    quoted_body_scanned_as_decoded (by decide : '"' ∈ quotes) (by simp [isNul]) decodesQuote
      Char.utf8Size
  obtain rfl := unique _ _ hidesQuote
  obtain ⟨pieces, -, unique, isNotOne, isOpen⟩ :=
    quoted_body_scanned_as_decoded (by decide : '\'' ∈ quotes) (by simp [isNul]) decodesBreak
      Char.utf8Size
  obtain rfl := unique _ _ breaksLine
  have keeps : KeepOpen '\'' [.plain 'a', .lineBreak, .plain 'b'] := by
    simp [KeepOpen, Piece.lineBreak]
  refine ⟨isOne.mpr ⟨?_, by decide⟩, decodesBreak, fun one => (isNotOne.mp one).2 ?_, ?_⟩
  · simp [KeepOpen]
  · decide
  · exact isOpen keeps (by decide)

end Token

end ScriptEngine
