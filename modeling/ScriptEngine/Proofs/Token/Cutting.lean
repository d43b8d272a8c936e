import ScriptEngine.Proofs.Token.Places

namespace ScriptEngine.Token

/-!
# Tokens cut a text without loss

Scanning cuts a text into gaps and tokens.  A gap holds blanks and comments only,
and a token covers the characters it was written with.  The characters may be
those of a text or stand for the single bytes of a byte string, and they are of any
width.
-/

variable (text : List Char) (rest : List Char) (previous : Option TokenKind)

/-! ## Gaps -/

/-- The characters between tokens that mean nothing. -/
def blanks : List Char := [' ', '\t', '\r', '\n', '\x0b', '\x0c']

/--
Blanks and comments in front of a rest.  A block comment is closed; a line comment
ends before a line feed, before a NUL or with the text.
-/
inductive Skipped (rest : List Char) : List Char → Prop where
  | none : Skipped rest []
  | blank {char : Char} {text : List Char} :
      char ∈ blanks →
      Skipped rest text →
      Skipped rest (char :: text)
  | line {body text : List Char} :
      (∀ char ∈ body, char ≠ '\n' ∧ isNul char = false) →
      (∀ char ∈ (text ++ rest).head?, char = '\n' ∨ isNul char = true) →
      Skipped rest text →
      Skipped rest ('/' :: '/' :: (body ++ text))
  | block {body text : List Char} :
      ¬['*', '/'] <:+: body →
      Skipped rest text →
      Skipped rest ('/' :: '*' :: (body ++ '*' :: '/' :: text))

/-- What a reader of blanks has taken when it began inside of something. -/
def Gap.Skips (gap : Gap) : BlankMode → Prop
  | .between => Skipped gap.rest gap.taken
  | .lineComment =>
      ∃ body text, gap.taken = body ++ text ∧
        (∀ char ∈ body, char ≠ '\n' ∧ isNul char = false) ∧
        (∀ char ∈ (text ++ gap.rest).head?, char = '\n' ∨ isNul char = true) ∧
        Skipped gap.rest text
  | .blockComment =>
      ∃ body text, gap.taken = body ++ '*' :: '/' :: text ∧ ¬['*', '/'] <:+: body ∧
        Skipped gap.rest text

theorem mem_blanks_of_isSpace {char : Char} (space : isSpace char = true) : char ∈ blanks := by
  simp only [isSpace, Bool.or_eq_true, beq_iff_eq] at space
  rcases space with (((rfl | rfl) | rfl) | code) | code
  · decide
  · decide
  · decide
  · have isTab : char = '\x0b' := Char.toNat_inj.mp code
    rw [isTab]
    decide
  · have isFeed : char = '\x0c' := Char.toNat_inj.mp code
    rw [isFeed]
    decide

/-- One more character of a block comment does not close it. -/
theorem not_closing_cons
    {char : Char}
    {body text : List Char}
    (notAtFront : ∀ rest, char = '*' → body ++ text = '/' :: rest → False)
    (inside : ¬['*', '/'] <:+: body) :
    ¬['*', '/'] <:+: char :: body := by
  intro closing
  rcases List.infix_cons_iff.mp closing with ⟨rest, atFront⟩ | later
  · obtain ⟨isStar, isBody⟩ := List.cons.inj atFront
    refine notAtFront (rest ++ text) isStar.symm ?_
    rw [← isBody]
    rfl
  · exact inside later

theorem gapFrom_skips
    (mode : BlankMode)
    (text : List Char)
    (closed : (gapFrom mode text).closed = true) :
    (gapFrom mode text).Skips mode := by
  fun_induction gapFrom mode text with
  | case1 => exact Skipped.none
  | case2 rest inductionHypothesis =>
      obtain ⟨body, text, isTaken, inLine, ends, skipped⟩ := inductionHypothesis closed
      have comment := Skipped.line inLine ends skipped
      rwa [← isTaken] at comment
  | case3 rest inductionHypothesis =>
      obtain ⟨body, text, isTaken, inBlock, skipped⟩ := inductionHypothesis closed
      have comment := Skipped.block inBlock skipped
      rwa [← isTaken] at comment
  | case4 rest _ _ inductionHypothesis =>
      exact Skipped.blank (by decide) (inductionHypothesis closed)
  | case5 char rest _ _ _ space inductionHypothesis =>
      exact Skipped.blank (mem_blanks_of_isSpace space) (inductionHypothesis closed)
  | case6 => exact Skipped.none
  | case7 => exact ⟨[], [], rfl, by simp, by simp, Skipped.none⟩
  | case8 rest inductionHypothesis =>
      refine ⟨[], '\n' :: (gapFrom .between rest).taken, rfl, by simp, by simp, ?_⟩
      exact Skipped.blank (by decide) (inductionHypothesis closed)
  | case9 char rest _ nul => exact ⟨[], [], rfl, by simp, by simp [nul], Skipped.none⟩
  | case10 char rest notFeed notNul inductionHypothesis =>
      obtain ⟨body, text, isTaken, inLine, ends, skipped⟩ := inductionHypothesis closed
      refine ⟨char :: body, text, by simp [Gap.cons, isTaken], ?_, ends, skipped⟩
      rw [List.forall_mem_cons]
      exact ⟨⟨notFeed, by simpa using notNul⟩, inLine⟩
  | case11 => exact absurd closed (by simp)
  | case12 rest inductionHypothesis =>
      exact ⟨[], (gapFrom .between rest).taken, rfl, by simp, inductionHypothesis closed⟩
  | case13 => exact absurd closed (by simp)
  | case14 char rest notClosing _ inductionHypothesis =>
      obtain ⟨body, text, isTaken, inBlock, skipped⟩ := inductionHypothesis closed
      refine ⟨char :: body, text, by simp [Gap.cons, isTaken], ?_, skipped⟩
      have covers := gapFrom_append .blockComment rest
      rw [isTaken, List.append_assoc] at covers
      exact not_closing_cons (covers ▸ notClosing) inBlock

theorem gapFrom_newline (mode : BlankMode) (text : List Char) :
    (gapFrom mode text).newline = (gapFrom mode text).taken.contains '\n' := by
  fun_induction gapFrom mode text <;> grind [Gap.cons]

/-- Only a comment that was opened can be left unclosed. -/
theorem gapFrom_opens
    (mode : BlankMode)
    (text : List Char)
    (outside : mode ≠ .blockComment)
    (unclosed : (gapFrom mode text).closed = false) :
    ['/', '*'] <:+: (gapFrom mode text).taken := by
  fun_induction gapFrom mode text with
  | case2 rest inductionHypothesis =>
      have opened := inductionHypothesis (by simp) unclosed
      exact opened.trans (List.suffix_append ['/', '/'] _).isInfix
  | case3 rest => exact (List.prefix_append ['/', '*'] _).isInfix
  | case4 rest _ _ inductionHypothesis
  | case5 char rest _ _ _ _ inductionHypothesis
  | case8 rest inductionHypothesis
  | case10 char rest _ _ inductionHypothesis =>
      have opened := inductionHypothesis (by simp) unclosed
      exact opened.trans (List.suffix_cons _ _).isInfix
  | case11 | case12 | case13 | case14 => exact absurd rfl outside
  | case1 | case6 | case7 | case9 => simp at unclosed

/-! ## Lexemes -/

/-- The characters that open and close a string. -/
def quotes : List Char := ['"', '\'']

/--
How a token of a kind with a literal is written.  A string stands between two equal
quotes.  A token that fits nowhere is a single character or what could not be read
to its end, and then its literal is a message.  Every other token is written as its
literal says.
-/
def Written (covered : List Char) (literal : String) : TokenKind → Prop
  | .string => ∃ quote ∈ quotes, covered = quote :: (literal.toList ++ [quote])
  | .illegal =>
      (∃ char, covered = [char] ∧ literal.toList = [char]) ∨
        (literal = unclosedString ∧ ∃ quote ∈ quotes, [quote] <+: covered) ∨
        (literal = unclosedRegex ∧ ['/'] <+: covered) ∨
        (literal = unclosedComment ∧ ['/', '*'] <:+: covered)
  | _ => covered = literal.toList

/-- Whether the input ends in front of a text. -/
def AtEnd (text : List Char) : Prop := ∀ char ∈ text.head?, isNul char = true

/-- A lexeme covers how it is written, and only the end of the input covers nothing. -/
structure Lexeme.Fits (found : Lexeme) : Prop where
  written : Written found.taken found.literal found.kind
  takes : found.kind ≠ .endOfInput → found.taken ≠ []
  ends : found.kind = .endOfInput → found.taken = [] ∧ AtEnd found.rest

/-- Whether tokens of a kind are written as their literal says, and are no end. -/
def isPlain : TokenKind → Bool
  | .illegal | .endOfInput | .string => false
  | _ => true

theorem written_of_plain {kind : TokenKind} (taken : List Char) (plain : isPlain kind = true) :
    Written taken (String.ofList taken) kind := by
  unfold Written
  split
  · simp [isPlain] at plain
  · simp [isPlain] at plain
  · exact String.toList_ofList.symm

theorem fits_of_plain
    {kind : TokenKind}
    {taken : List Char}
    (plain : isPlain kind = true)
    (takes : taken ≠ []) :
    (Lexeme.verbatim kind taken rest).Fits where
  written := written_of_plain taken plain
  takes _ := takes
  ends isEnd := by
    have isEnd : kind = .endOfInput := isEnd
    simp [isEnd, isPlain] at plain

theorem isPlain_ofName (name : String) : isPlain (TokenKind.ofName name) = true := by
  have words : ∀ entry ∈ TokenKind.reservedWords, isPlain entry.2 = true := by decide
  unfold TokenKind.ofName
  cases found : TokenKind.reservedWords.lookup name with
  | none => rfl
  | some kind =>
      obtain ⟨front, back, isSplit, _⟩ := List.lookup_eq_some_iff.mp found
      exact words (name, kind) (by simp [isSplit])

theorem fits_nameLexeme {first : Char} (starts : isNameStart first = true) :
    (nameLexeme (first :: rest)).Fits := by
  have takes : (first :: rest).takeWhile isNameRest ≠ [] := by
    simp [isNameRest, starts]
  exact fits_of_plain _ (isPlain_ofName _) takes

/-- A string that is closed is closed by its own quote. -/
theorem stringBody_closed
    (quote : Char)
    (text : List Char)
    (closed : (stringBody quote text).closed = true) :
    ∃ rest, (stringBody quote text).rest = quote :: rest := by
  fun_induction stringBody quote text with
  | case1 | case2 | case3 | case6 => simp at closed
  | case4 _ _ _ inductionHypothesis => exact inductionHypothesis closed
  | case5 rest => exact ⟨rest, rfl⟩
  | case7 _ _ _ _ _ _ inductionHypothesis => exact inductionHypothesis closed

theorem fits_stringLexeme {quote : Char} (isQuote : quote ∈ quotes) :
    (stringLexeme quote text).Fits := by
  have ownQuote := stringBody_closed quote text
  unfold stringLexeme
  dsimp only
  split
  · rename_i closed isRest
    obtain ⟨_, isOwn⟩ := ownQuote closed
    rw [isRest] at isOwn
    obtain ⟨rfl, rfl⟩ := List.cons.inj isOwn
    exact ⟨⟨_, isQuote, by simp⟩, by simp, by simp⟩
  · exact ⟨.inr (.inl ⟨rfl, quote, isQuote, List.prefix_append [quote] _⟩), by simp, by simp⟩

theorem fits_regexLexeme (text : List Char) : (regexLexeme text).Fits := by
  unfold regexLexeme
  dsimp only
  split
  · exact fits_of_plain _ rfl (by simp)
  · exact ⟨.inr (.inr (.inl ⟨rfl, List.prefix_append ['/'] _⟩)), by simp, by simp⟩

theorem fits_decimalLexeme {first : Char} (starts : first.isDigit = true ∨ first = '.') :
    (decimalLexeme (first :: rest)).Fits := by
  refine fits_of_plain _ rfl ?_
  rcases starts with digit | rfl
  · simp [digit]
  · simp

theorem fits_numberLexeme {first : Char} (starts : first.isDigit = true ∨ first = '.') :
    (numberLexeme (first :: rest)).Fits := by
  unfold numberLexeme
  split
  · rename_i isText
    obtain ⟨rfl, rfl⟩ := List.cons.inj isText
    split
    · exact fits_of_plain _ rfl (by simp)
    · exact fits_decimalLexeme _ starts
  · exact fits_decimalLexeme _ starts

theorem plain_of_punctuator?
    {text : List Char}
    {kind : TokenKind}
    {length : Nat}
    (found : punctuator? text = some (kind, length)) :
    isPlain kind = true ∧ 0 < length := by
  have all : ∀ entry ∈ marks, isPlain entry.2 = true ∧ 0 < entry.1.length := by decide
  obtain ⟨entry, isEntry, isFound⟩ := Option.map_eq_some_iff.mp found
  obtain ⟨rfl, rfl⟩ := Prod.mk.inj isFound
  exact all entry (List.mem_of_find?_eq_some isEntry)

theorem fits_punctuatorLexeme (first : Char) (rest : List Char) :
    (punctuatorLexeme first rest).Fits := by
  unfold punctuatorLexeme
  split
  · rename_i kind length found
    obtain ⟨plain, positive⟩ := plain_of_punctuator? found
    refine fits_of_plain _ plain ?_
    simp [Nat.ne_of_gt positive]
  · exact {
      written := .inl ⟨first, rfl, String.toList_ofList⟩
      takes := by simp [Lexeme.verbatim]
      ends := by simp [Lexeme.verbatim] }

theorem fits_lexeme (previous : Option TokenKind) (text : List Char) :
    (lexeme previous text).Fits := by
  unfold lexeme
  split
  · exact ⟨rfl, by simp, by simp [AtEnd]⟩
  · rename_i first rest
    split
    · rename_i nul
      exact ⟨rfl, by simp, by simp [AtEnd, nul]⟩
    · split
      · rename_i isQuote
        exact fits_stringLexeme rest (by simpa [quotes] using isQuote)
      · split
        · exact fits_regexLexeme rest
        · split
          · rename_i isPoint
            simp only [Bool.and_eq_true, decide_eq_true_eq] at isPoint
            exact fits_numberLexeme rest (.inr isPoint.1)
          · split
            · rename_i starts
              exact fits_nameLexeme rest starts
            · split
              · rename_i digit
                exact fits_numberLexeme rest (.inl digit)
              · exact fits_punctuatorLexeme first rest

/-! ## Tokens in their places -/

/-- Whether a token tells of a block comment that is never closed. -/
def IsUnclosedComment (token : Token) : Prop :=
  token.kind = .illegal ∧ token.literal = unclosedComment

/--
A token that covers some characters, with others in front of it, then a gap, and a
rest behind it.
-/
structure Lies (width : Char → Nat) (front gap covered rest : List Char) (token : Token) :
    Prop where
  starts :
    (⟨token.start, token.line, token.column⟩ : Place) = Place.origin.past width (front ++ gap)
  stops : token.stop = (Place.origin.past width (front ++ gap ++ covered)).offset
  skipped : Skipped (covered ++ rest) gap
  written : Written covered token.literal token.kind
  takes : token.kind ≠ .endOfInput → covered ≠ []
  ends : token.kind = .endOfInput → covered = [] ∧ AtEnd rest
  newline : ¬token.IsUnclosedComment → token.newlineBefore = gap.contains '\n'

theorem Place.past_past (width : Char → Nat) (front taken : List Char) :
    (Place.origin.past width front).past width taken = Place.origin.past width (front ++ taken) :=
  List.foldl_append.symm

/-- The next token lies behind a gap, and reading goes on behind what it covers. -/
theorem next_lies (width : Char → Nat) (previous : Option TokenKind) (front text : List Char) :
    let (token, place, rest) := next width previous (Place.origin.past width front) text
    ∃ gap covered,
      text = gap ++ covered ++ rest ∧
        place = Place.origin.past width (front ++ gap ++ covered) ∧
        token.Lies width front gap covered rest := by
  have isSplit := gapFrom_append .between text
  have newline := gapFrom_newline .between text
  unfold next
  dsimp only
  simp only [Place.past_past]
  cases closed : (gapFrom .between text).closed with
  | true =>
      have skipped : Skipped _ _ := gapFrom_skips .between text closed
      have covers := lexeme_append previous (gapFrom .between text).rest
      have fits := fits_lexeme previous (gapFrom .between text).rest
      rw [if_pos rfl]
      refine ⟨(gapFrom .between text).taken, _, ?_, rfl, ?_⟩
      · rw [List.append_assoc, covers, isSplit]
      · exact {
          starts := rfl
          stops := rfl
          skipped := by rwa [covers]
          written := fits.written
          takes := fits.takes
          ends := fits.ends
          newline := fun _ => newline }
  | false =>
      have opened := gapFrom_opens .between text (by simp) closed
      rw [if_neg (by simp)]
      refine ⟨[], (gapFrom .between text).taken, by simpa using isSplit.symm, by simp, ?_⟩
      exact {
        starts := by simp
        stops := by simp
        skipped := Skipped.none
        written := .inr (.inr (.inr ⟨rfl, opened⟩))
        takes := fun _ isEmpty => by simp [isEmpty] at opened
        ends := by simp
        newline := fun other => absurd ⟨rfl, rfl⟩ other }

/-- Where the last of some tokens stops, or a start when there is none. -/
def stopOf (start : Nat) (tokens : List Token) : Nat := tokens.getLast?.elim start Token.stop

theorem stopOf_cons (start : Nat) (token : Token) (tokens : List Token) :
    stopOf start (token :: tokens) = stopOf token.stop tokens := by
  cases tokens with
  | nil => rfl
  | cons next tokens => simp [stopOf, List.getLast?_cons]

/-- A text cut into gaps and tokens up to the end of the input, with the characters before it. -/
inductive Cut (width : Char → Nat) : List Char → List Char → List Token → Prop where
  | last {front gap rest : List Char} {token : Token} :
      token.Lies width front gap [] rest →
      token.kind = .endOfInput →
      Cut width front (gap ++ rest) [token]
  | more {front gap covered rest : List Char} {token : Token} {tokens : List Token} :
      token.Lies width front gap covered rest →
      token.kind ≠ .endOfInput →
      Cut width (front ++ gap ++ covered) rest tokens →
      Cut width front (gap ++ covered ++ rest) (token :: tokens)

/-- A budget beyond the length of a text is enough to cut all of it. -/
theorem scanFrom_cut
    (width : Char → Nat)
    {budget : Nat}
    (previous : Option TokenKind)
    (front : List Char)
    {text : List Char}
    (enough : text.length < budget) :
    Cut width front text
      (scanFrom width budget previous (Place.origin.past width front) text) := by
  induction budget generalizing previous front text with
  | zero => exact absurd enough (Nat.not_lt_zero _)
  | succ budget inductionHypothesis =>
      have step := next_lies width previous front text
      unfold scanFrom
      generalize next width previous (Place.origin.past width front) text = found at step
      obtain ⟨token, place, rest⟩ := found
      obtain ⟨gap, covered, rfl, rfl, lies⟩ := step
      dsimp only
      split
      · rename_i isEnd
        obtain ⟨rfl, _⟩ := lies.ends isEnd
        rw [List.append_nil]
        exact Cut.last lies isEnd
      · rename_i goesOn
        refine Cut.more lies goesOn (inductionHypothesis _ _ ?_)
        have positive := List.length_pos_iff.mpr (lies.takes goesOn)
        simp only [List.length_append] at enough
        omega

/-- A budget beyond the length of a text is not used up. -/
theorem scanFrom_of_enough
    (width : Char → Nat)
    {small large : Nat}
    (previous : Option TokenKind)
    (front : List Char)
    {text : List Char}
    (enough : text.length < small)
    (more : small ≤ large) :
    scanFrom width large previous (Place.origin.past width front) text =
      scanFrom width small previous (Place.origin.past width front) text := by
  induction small generalizing large previous front text with
  | zero => exact absurd enough (Nat.not_lt_zero _)
  | succ small inductionHypothesis =>
      obtain ⟨large, rfl⟩ := Nat.exists_eq_add_of_le' (Nat.le_trans (Nat.le_add_left 1 small) more)
      have step := next_lies width previous front text
      unfold scanFrom
      generalize next width previous (Place.origin.past width front) text = found at step
      obtain ⟨token, place, rest⟩ := found
      obtain ⟨gap, covered, rfl, rfl, lies⟩ := step
      dsimp only
      split
      · rfl
      · rename_i goesOn
        have positive := List.length_pos_iff.mpr (lies.takes goesOn)
        simp only [List.length_append] at enough
        rw [inductionHypothesis _ _ (by omega) (by omega)]

namespace Cut

/-- There is one end of the input, it comes last, and every other token takes a character. -/
theorem ends_once
    {width : Char → Nat}
    {front text : List Char}
    {tokens : List Token}
    (cut : Cut width front text tokens) :
    ∃ (before : List Token) (last : Token),
      tokens = before ++ [last] ∧
        last.kind = .endOfInput ∧
        (∀ token ∈ before, token.kind ≠ .endOfInput) ∧
        before.length ≤ text.length := by
  induction cut with
  | @last front gap rest token lies isEnd => exact ⟨[], token, rfl, isEnd, by simp, by simp⟩
  | @more front gap covered rest token tokens lies goesOn _ inductionHypothesis =>
      obtain ⟨before, last, rfl, isEnd, othersGoOn, short⟩ := inductionHypothesis
      have positive := List.length_pos_iff.mpr (lies.takes goesOn)
      refine ⟨token :: before, last, rfl, isEnd, ?_, ?_⟩
      · rw [List.forall_mem_cons]
        exact ⟨goesOn, othersGoOn⟩
      · simp only [List.length_append, List.length_cons]
        omega

/-- Every token lies in the text, and its gap begins where the token before it stops. -/
theorem lies
    {width : Char → Nat}
    {front text : List Char}
    {tokens earlier later : List Token}
    {token : Token}
    (cut : Cut width front text tokens)
    (isSplit : tokens = earlier ++ token :: later) :
    ∃ before gap covered rest,
      front ++ text = before ++ gap ++ covered ++ rest ∧
        token.Lies width before gap covered rest ∧
        stopOf (Place.origin.past width front).offset earlier =
          (Place.origin.past width before).offset := by
  induction cut generalizing earlier with
  | @last front gap rest first isLying isEnd =>
      cases earlier with
      | nil =>
          obtain ⟨rfl, rfl⟩ := List.cons.inj isSplit
          exact ⟨front, gap, [], rest, by simp, isLying, rfl⟩
      | cons head earlier => simp at isSplit
  | @more front gap covered rest first tokens isLying goesOn _ inductionHypothesis =>
      cases earlier with
      | nil =>
          obtain ⟨rfl, rfl⟩ := List.cons.inj isSplit
          exact ⟨front, gap, covered, rest, by simp, isLying, rfl⟩
      | cons head earlier =>
          obtain ⟨rfl, isRest⟩ := List.cons.inj isSplit
          obtain ⟨before, nextGap, nextCovered, behind, isText, nextLies, stop⟩ :=
            inductionHypothesis isRest
          refine ⟨before, nextGap, nextCovered, behind, ?_, nextLies, ?_⟩
          · rw [← isText]
            simp
          · rw [← stop, stopOf_cons, isLying.stops]

end Cut

end ScriptEngine.Token
