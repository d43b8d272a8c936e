import ScriptEngine.Proofs.Program.Totality
import ScriptEngine.Proofs.Token.Continuing

namespace ScriptEngine

/-!
# When more lines are asked for

The prompt asks for another line when a text fails to be a program because it ends too
early.  Then some text completes it.  Where another line could complete a text, the
prompt asks for one, unless the text was cut in the middle of an escape in a string.
-/

/-! ## What a text ends in -/

namespace Token

variable {width : Char → Nat} {previous : Option TokenKind} {front text : List Char}

theorem tokensFrom_blank
    {newline : Bool}
    (isGap : gapFrom .between text = ⟨text, [], newline, true⟩) :
    ∃ last, tokensFrom width previous front text = [last] ∧
      last.kind = .endOfInput ∧ last.literal = "" :=
  ⟨_, tokensFrom_of_end (next_of_gap isGap rfl _) rfl, rfl, rfl⟩

theorem tokensFrom_comment
    {newline : Bool}
    (isGap : gapFrom .between text = ⟨text, [], newline, false⟩) :
    ∃ comment last, tokensFrom width previous front text = [comment, last] ∧
      comment.IsUnclosedComment ∧ last.kind = .endOfInput := by
  obtain ⟨token, place, isNext, isComment⟩ :
      ∃ token place, next width previous (Place.origin.past width front) text = (token, place, []) ∧
        token.IsUnclosedComment := by
    unfold next
    rw [isGap]
    exact ⟨_, _, rfl, rfl, rfl⟩
  have goesOn : token.kind ≠ .endOfInput := by
    rw [isComment.1]
    nofun
  obtain ⟨taken, -, -, isTokens⟩ := tokensFrom_of_token isNext goesOn
  obtain ⟨last, isLast, isEnd, -⟩ := tokensFrom_nil width (some token.kind) (front ++ taken)
  exact ⟨token, last, by rw [isTokens, isLast], isComment, isEnd⟩

/--
The token of a string that its text cuts in the middle of an escape: the string begins
with a quote and goes up to the end of the text, another quote right behind its body
would close it, but a backslash stands there.
-/
structure IsCutInEscape (width : Char → Nat) (text : List Char) (token : Token) : Prop where
  kind : token.kind = .illegal
  literal : token.literal = unclosedString
  cut : ∃ before body, ∃ quote ∈ quotes,
    text = before ++ quote :: (body ++ ['\\']) ∧
      stringBody quote (body ++ [quote]) = ⟨body, [quote], true⟩ ∧
      token.start = (Place.origin.past width before).offset ∧
      token.stop = (Place.origin.past width text).offset

theorem tokensFrom_string
    (closed : (gapFrom .between text).closed = true)
    (isCut : IsCutString (gapFrom .between text).rest) :
    ∃ string last, tokensFrom width previous front text = [string, last] ∧
      string.IsCutInEscape width (front ++ text) ∧ last.kind = .endOfInput := by
  obtain ⟨quote, isQuote, tail, isRest, ⟨body, rfl, closes⟩, isBody⟩ := isCut
  have isText := gapFrom_append .between text
  rw [isRest] at isText
  have isLexeme : lexeme previous (quote :: (body ++ ['\\'])) =
      ⟨.illegal, unclosedString, quote :: (body ++ ['\\']), [], none⟩ := by
    have isString : lexeme previous (quote :: (body ++ ['\\'])) =
        stringLexeme quote (body ++ ['\\']) := by
      simp only [quotes, List.mem_cons, List.not_mem_nil, or_false] at isQuote
      rcases isQuote with rfl | rfl <;> rfl
    rw [isString]
    unfold stringLexeme
    rw [isBody]
  have isNext := @next_of_gap text width previous _ rfl closed (Place.origin.past width front)
  rw [isRest, isLexeme] at isNext
  obtain ⟨taken, -, -, isTokens⟩ := tokensFrom_of_token isNext (by rintro ⟨⟩)
  obtain ⟨last, isLast, isEnd, -⟩ := tokensFrom_nil width (some .illegal) (front ++ taken)
  refine ⟨_, last, by rw [isTokens, isLast], ?_, isEnd⟩
  refine ⟨rfl, rfl, front ++ (gapFrom .between text).taken, body, quote, isQuote, ?_, closes, ?_, ?_⟩
  · rw [List.append_assoc, isText]
  · simp only [Place.past_past]
  · simp only [Place.past_past, List.append_assoc, isText]

end Token

/-! ## Texts that complete a program -/

namespace Parser.Filler

/-- How a filler is written. -/
def text : Filler → List Char
  | identifier => ['x']
  | thisWord => ['t', 'h', 'i', 's']
  | inWord => ['i', 'n']
  | semicolon => [';']
  | colon => [':']
  | leftParen => ['(']
  | rightParen => [')']
  | leftBrace => ['{']
  | rightBrace => ['}']
  | rightBracket => [']']

/-- Fillers with a blank behind each. -/
def texts : List Filler → List Char
  | [] => []
  | filler :: fillers => filler.text ++ ' ' :: texts fillers

open Token

/-- Fillers are written in characters of one byte. -/
theorem exists_letters_texts (fillers : List Filler) :
    ∃ bytes : List UInt8, bytes.map letter = texts fillers := by
  induction fillers with
  | nil => exact ⟨[], rfl⟩
  | cons filler fillers inductionHypothesis =>
      obtain ⟨bytes, areTexts⟩ := inductionHypothesis
      refine ⟨filler.text.map (fun char => UInt8.ofNat char.toNat) ++ 32 :: bytes, ?_⟩
      rw [List.map_append, List.map_cons, areTexts, texts]
      cases filler <;> rfl

theorem gapFrom_texts (fillers : List Filler) :
    gapFrom .between (texts fillers) = ⟨[], texts fillers, false, true⟩ := by
  cases fillers with
  | nil => rfl
  | cons filler fillers => cases filler <;> rfl

theorem lexeme_text (previous : Option TokenKind) (filler : Filler) (rest : List Char) :
    lexeme previous (filler.text ++ ' ' :: rest) =
      ⟨filler.kind, String.ofList filler.text, filler.text, ' ' :: rest, none⟩ := by
  cases filler <;> rfl

/-- Fillers behind any gap are read as tokens of their kinds. -/
theorem kinds_of_texts
    (width : Char → Nat)
    (previous : Option TokenKind)
    (front : List Char)
    {text : List Char}
    {fillers : List Filler}
    (closed : (gapFrom .between text).closed = true)
    (isRest : (gapFrom .between text).rest = texts fillers) :
    ∃ (fill : List Token) (last : Token), tokensFrom width previous front text = fill ++ [last] ∧
      fill.map Token.kind = fillers.map kind ∧ last.kind = .endOfInput := by
  induction fillers generalizing previous front text with
  | nil =>
      have isNext := @next_of_gap text width previous _ rfl closed (Place.origin.past width front)
      rw [isRest] at isNext
      exact ⟨[], _, tokensFrom_of_end isNext rfl, rfl, rfl⟩
  | cons filler fillers inductionHypothesis =>
      obtain ⟨token, place, isNext, isKind⟩ :
          ∃ token place, Token.next width previous (Place.origin.past width front) text =
            (token, place, ' ' :: texts fillers) ∧ token.kind = filler.kind := by
        have isNext := @next_of_gap text width previous _ rfl closed (Place.origin.past width front)
        rw [isRest, texts, lexeme_text] at isNext
        exact ⟨_, _, isNext, rfl⟩
      have goesOn : token.kind ≠ .endOfInput := by
        rw [isKind]
        cases filler <;> nofun
      obtain ⟨taken, -, -, isTokens⟩ := tokensFrom_of_token isNext goesOn
      have isGap : gapFrom .between (' ' :: texts fillers) =
          (gapFrom .between (texts fillers)).cons [' '] false := rfl
      rw [gapFrom_texts] at isGap
      obtain ⟨fill, last, isFill, areKinds, isEnd⟩ :=
        inductionHypothesis (some token.kind) (front ++ taken) (by rw [isGap]; rfl)
          (by rw [isGap]; rfl)
      refine ⟨token :: fill, last, ?_, ?_, isEnd⟩
      · rw [isTokens, isFill, List.cons_append]
      · rw [List.map_cons, List.map_cons, isKind, areKinds]

end Parser.Filler

/-! ## Programs that go on -/

namespace Program

open ScriptEngine.Parser

variable {source : Source}

/--
What becomes of a program that goes on behind some tokens: the failure is settled, or
there are tokens that complete it, and on a token that no reader takes it ends or fails
at this token.
-/
inductive Prospect (front : List Token) : Prop where
  | settled (failure : Failure) :
      failure.token ∈ front →
      (∀ source tail, tail ≠ [] →
        (ofTokens source (front ++ tail)).failures = [failure] ∧
          (ofTokens source (front ++ tail)).isIncomplete = failure.isIncomplete) →
      Prospect front
  | open (fillers : List Filler) :
      (∀ source fill last, fill.map Token.kind = fillers.map Filler.kind →
        last.kind = .endOfInput → (ofTokens source (front ++ fill ++ [last])).failures = []) →
      (∀ source dead rest, IsDead dead →
        dead.kind = .endOfInput ∧ (ofTokens source (front ++ dead :: rest)).failures = [] ∨
          ∃ fault, (ofTokens source (front ++ dead :: rest)).failures = [⟨dead, fault⟩] ∧
            (ofTokens source (front ++ dead :: rest)).isIncomplete =
              Failure.isIncomplete ⟨dead, fault⟩) →
      Prospect front

theorem settled_or_open {front : List Token} (goesOn : ∀ token ∈ front, token.kind ≠ .endOfInput) :
    Prospect front := by
  have enough (tail : List Token) : 8 * front.length + 3 ≤ budget (front ++ tail).length := by
    simp only [budget, List.length_append]
    omega
  have longer (tail : List Token) : front.length ≤ (front ++ tail).length := by simp
  cases program_fate front goesOn (Nat.le_refl _) with
  | fails statements failure fewer notDeep fails =>
      have outcome (source : Source) (tail : List Token) (some : tail ≠ []) :
          (ofTokens source (front ++ tail)).failures = [failure] ∧
            (ofTokens source (front ++ tail)).isIncomplete = failure.isIncomplete := by
        obtain ⟨cursor, isParsed⟩ := @ofTokens_of_failsAfter source _ _ _
          (Nat.le_trans fewer (longer tail)) (fails tail _ some (enough tail))
        rw [isParsed]
        exact ⟨rfl, rfl⟩
      refine .settled failure ?_ outcome
      -- The failure is the same before two different tails, so its token is in neither.
      have atKnown (last : Token) : failure.token ∈ front ∨ failure.token = last := by
        have known := (known_ofTokens (Source.ofRepl "") (by simp)
          fun token (member : token ∈ front ++ [last]) => member).2
        rw [(outcome _ [last] (by simp)).1] at known
        simpa using known failure (List.mem_singleton.mpr rfl)
      rcases atKnown Token.absent with member | isAbsent
      · exact member
      · rcases atKnown { Token.absent with start := 1 } with member | isOther
        · exact member
        · rw [isAbsent] at isOther
          cases isOther
  | opens fillers completes starves =>
      refine .open fillers ?_ ?_
      · intro source fill last areFill isEnd
        rw [List.append_assoc]
        obtain ⟨statements, fewer, follows⟩ :=
          completes fill last _ (enough (fill ++ [last])) areFill isEnd
        rw [List.append_assoc] at follows
        rw [ofTokens_of_follows (Nat.le_trans fewer (longer _)) follows isEnd]
        rfl
      · intro source dead rest isDead
        obtain ⟨statements, fewer, outcome⟩ := starves dead rest _ (enough _) isDead
        have fewer := Nat.le_trans fewer (longer (dead :: rest))
        have failing {fault : GrammarFault}
            (fails : FailsAfter (budget (front ++ dead :: rest).length)
              (.ofTokens (front ++ dead :: rest)) statements ⟨dead, fault⟩) :
            (ofTokens source (front ++ dead :: rest)).failures = [⟨dead, fault⟩] ∧
              (ofTokens source (front ++ dead :: rest)).isIncomplete =
                Failure.isIncomplete ⟨dead, fault⟩ := by
          obtain ⟨cursor, isParsed⟩ := @ofTokens_of_failsAfter source _ _ _ fewer fails
          rw [isParsed]
          exact ⟨rfl, rfl⟩
        rcases outcome with follows | ⟨fault, -, fails⟩
        · rcases isDead.kind with isEnd | isIllegal
          · refine .inl ⟨isEnd, ?_⟩
            rw [ofTokens_of_follows fewer follows (by simpa using isEnd)]
            rfl
          · have goesOn : dead.kind ≠ .endOfInput := by
              rw [isIllegal]
              nofun
            obtain ⟨fault, -, fails⟩ := statement_refuses isDead rest _
              (show 0 + 2 ≤ budget (front ++ dead :: rest).length by unfold budget; omega)
            exact .inr ⟨fault, failing ⟨_, follows, by simpa using goesOn, fails⟩⟩
        · exact .inr ⟨fault, failing fails⟩

/-! ## Asking for more -/

open Token

section

variable {width : Char → Nat} {text : List Char}

/-- A failure is for want of more input at the end of input and at a comment without an end. -/
theorem isIncomplete_iff (failure : Failure) :
    failure.isIncomplete = true ↔
      failure.token.kind = .endOfInput ∨ failure.token.IsUnclosedComment := by
  simp [Failure.isIncomplete, IsUnclosedComment]

theorem isIncomplete_of_isCutInEscape
    {string : Token}
    (isCut : string.IsCutInEscape width text)
    (fault : GrammarFault) :
    Failure.isIncomplete ⟨string, fault⟩ = false := by
  simp only [Failure.isIncomplete, isCut.kind, isCut.literal]
  decide

/--
The token that a text ends open with and that no reader takes: fillers are read behind
some more characters, and a failure at the token is for want of more input; or the token
is a string that is cut in the middle of an escape.
-/
theorem exists_dead_of_endsOpen
    (previous : Option TokenKind)
    (front : List Char)
    (endsOpen : EndsOpen text) :
    ∃ dead rest, tokensFrom width previous front text = dead :: rest ∧ IsDead dead ∧
      ((∃ closer : List UInt8, ∀ fillers,
          (gapFrom .between (text ++ '\n' :: (closer.map letter ++ Filler.texts fillers))).closed =
              true ∧
            (gapFrom .between (text ++ '\n' :: (closer.map letter ++ Filler.texts fillers))).rest =
              Filler.texts fillers) ∧
          (dead.kind = .endOfInput ∨ dead.IsUnclosedComment) ∨
        dead.IsCutInEscape width (front ++ text)) := by
  cases endsOpen with
  | blank isGap goesOn =>
      obtain ⟨last, isLast, isEnd, isEmpty⟩ := @tokensFrom_blank width previous front _ _ isGap
      refine ⟨last, [], isLast, ⟨.inl isEnd, by rw [isEmpty]; decide⟩, .inl ⟨⟨[], ?_⟩, .inl isEnd⟩⟩
      intro fillers
      rw [List.map_nil, List.nil_append, goesOn, Filler.gapFrom_texts]
      exact ⟨rfl, rfl⟩
  | comment isGap goesOn =>
      obtain ⟨comment, last, isLast, isComment, -⟩ :=
        @tokensFrom_comment width previous front _ _ isGap
      refine ⟨comment, [last], isLast, ⟨.inr isComment.1, by rw [isComment.2]; decide⟩,
        .inl ⟨⟨[42, 47], ?_⟩, .inr isComment⟩⟩
      intro fillers
      have isGap : gapFrom .between (text ++ '\n' :: ([42, 47].map letter ++ Filler.texts fillers)) =
          (gapFrom .between (Filler.texts fillers)).cons _ true := goesOn (Filler.texts fillers)
      rw [isGap, Filler.gapFrom_texts]
      exact ⟨rfl, rfl⟩
  | string closed isCut =>
      obtain ⟨string, last, isLast, isString, -⟩ :=
        @tokensFrom_string width previous front _ closed isCut
      exact ⟨string, [last], isLast, ⟨.inr isString.kind, by rw [isString.literal]; decide⟩,
        .inr isString⟩

/--
What becomes of a program with a text in front that has no NUL: its failure is settled by
then; or the text ends between tokens or in a comment and some more completes it; or the
text cuts a string in the middle of an escape.
-/
inductive Outlook (width : Char → Nat) (text : List Char) : Prop where
  | settled (failure : Failure) :
      (∀ source more, (ofTokens source (scanChars width (text ++ '\n' :: more))).failures =
        [failure]) →
      (∀ source, (ofTokens source (scanChars width text)).isIncomplete = false) →
      Outlook width text
  | wanting (rest : List UInt8) :
      (∀ source, (ofTokens source
        (scanChars width (text ++ '\n' :: rest.map letter))).failures = []) →
      (∀ source, (ofTokens source (scanChars width text)).failures = [] ∨
        ∃ failure : Failure, (ofTokens source (scanChars width text)).failures = [failure] ∧
          failure.isIncomplete = true ∧
          (ofTokens source (scanChars width text)).isIncomplete = true) →
      Outlook width text
  | cut (string : Token) :
      string.IsCutInEscape width text →
      (∀ source, ∃ fault, (ofTokens source (scanChars width text)).failures = [⟨string, fault⟩] ∧
        (ofTokens source (scanChars width text)).isIncomplete = false) →
      Outlook width text

theorem settled_or_wanting_or_cut (width : Char → Nat) (noNul : ∀ char ∈ text, isNul char = false) :
    Outlook width text := by
  obtain ⟨tokens, seen, left, kind, rfl, endsOpen, stay, isScan, isScanBehind⟩ :=
    tokens_stay width none [] text noNul
  have isScan : scanChars width (seen ++ left) = _ := isScan
  have isScanBehind (more : List Char) : scanChars width (seen ++ left ++ '\n' :: more) = _ :=
    isScanBehind more
  obtain ⟨dead, rest, isLeft, isDead, atDead⟩ :=
    @exists_dead_of_endsOpen width left kind ([] ++ seen) endsOpen
  cases settled_or_open fun token member => (stay token member).1 with
  | settled failure member outcome =>
      have complete : failure.isIncomplete = false := by
        rw [Bool.eq_false_iff, Ne, isIncomplete_iff, not_or]
        exact stay _ member
      refine .settled failure (fun source more => ?_) fun source => ?_
      · rw [isScanBehind]
        exact (outcome source _ (tokensFrom_ne_nil _ _ _ _)).1
      · rw [isScan, ← complete]
        exact (outcome source _ (tokensFrom_ne_nil _ _ _ _)).2
  | «open» fillers completes starves =>
      rw [isLeft] at isScan
      rcases atDead with ⟨⟨closer, isClosed⟩, wants⟩ | isCut
      · obtain ⟨letters, areTexts⟩ := Filler.exists_letters_texts fillers
        refine .wanting (closer ++ letters) (fun source => ?_) fun source => ?_
        · rw [List.map_append, areTexts, isScanBehind]
          obtain ⟨fill, last, isFill, areKinds, isEnd⟩ := Filler.kinds_of_texts width kind
            ([] ++ seen) (isClosed fillers).1 (isClosed fillers).2
          rw [isFill, ← List.append_assoc]
          exact completes source fill last areKinds isEnd
        · rw [isScan]
          rcases starves source dead rest isDead with
            ⟨-, noFailure⟩ | ⟨fault, isFailure, isIncomplete⟩
          · exact .inl noFailure
          · have wants : Failure.isIncomplete ⟨dead, fault⟩ = true := (isIncomplete_iff _).mpr wants
            exact .inr ⟨_, isFailure, wants, isIncomplete.trans wants⟩
      · refine .cut dead isCut fun source => ?_
        rw [isScan]
        rcases starves source dead rest isDead with ⟨isEnd, -⟩ | ⟨fault, isFailure, isIncomplete⟩
        · rw [isCut.kind] at isEnd
          cases isEnd
        · exact ⟨fault, isFailure, isIncomplete.trans (isIncomplete_of_isCutInEscape isCut fault)⟩

theorem failures_ofTokens (source other : Source) (tokens : List Token) :
    (ofTokens source tokens).failures = (ofTokens other tokens).failures :=
  rfl

/-- A program that wants more input is completed by some more. -/
theorem exists_completion
    {source : Source}
    (other : Source)
    (noNul : ∀ char ∈ text, isNul char = false)
    (wants : (ofTokens source (scanChars width text)).isIncomplete = true) :
    ∃ rest : List UInt8,
      (ofTokens other (scanChars width (text ++ '\n' :: rest.map letter))).failures = [] := by
  cases settled_or_wanting_or_cut width noNul with
  | settled failure _ complete =>
      rw [complete source] at wants
      cases wants
  | wanting rest completes _ => exact ⟨rest, completes other⟩
  | cut string _ fails =>
      obtain ⟨fault, -, complete⟩ := fails source
      rw [complete] at wants
      cases wants

/--
A program that fails and that some more completes wants more input, unless it is cut in
the middle of an escape.
-/
theorem isIncomplete_iff_not_isCutInEscape
    {source other : Source}
    {more : List Char}
    (fails : (ofTokens source (scanChars width text)).failures ≠ [])
    (completed : (ofTokens other (scanChars width (text ++ '\n' :: more))).failures = []) :
    (ofTokens source (scanChars width text)).isIncomplete = true ↔
      ¬∃ string fault, (ofTokens source (scanChars width text)).failures = [⟨string, fault⟩] ∧
        string.IsCutInEscape width text := by
  rw [failures_ofTokens other source] at completed
  have noNul : ∀ char ∈ text, isNul char = false := by
    intro char member
    -- What stands behind a NUL changes nothing, and the longer program does not fail.
    refine Bool.eq_false_iff.mpr fun isNul => fails ?_
    obtain ⟨seen, hidden, rfl⟩ := List.append_of_mem member
    obtain rfl : char = '\x00' := Char.toNat_inj.mp (beq_iff_eq.mp isNul)
    have isScan : scanChars width (seen ++ '\x00' :: hidden) = scanChars width seen :=
      tokensFrom_nul width none [] seen hidden
    have isScanBehind : scanChars width (seen ++ '\x00' :: (hidden ++ '\n' :: more)) =
        scanChars width seen := tokensFrom_nul width none [] seen _
    rwa [List.append_assoc, List.cons_append, isScanBehind, ← isScan] at completed
  cases settled_or_wanting_or_cut width noNul with
  | settled failure failsBehind _ =>
      rw [failsBehind] at completed
      cases completed
  | wanting rest _ wants =>
      obtain ⟨failure, isFailure, wants, isIncomplete⟩ := (wants source).resolve_left fails
      refine iff_of_true isIncomplete ?_
      rintro ⟨string, fault, isOther, isCut⟩
      obtain rfl : failure = ⟨string, fault⟩ := List.singleton_inj.mp (isFailure.symm.trans isOther)
      rw [isIncomplete_of_isCutInEscape isCut] at wants
      cases wants
  | cut string isCut failsThere =>
      obtain ⟨fault, isFailure, complete⟩ := failsThere source
      exact iff_of_false (by rw [complete]; nofun) fun notCut =>
        notCut ⟨string, fault, isFailure, isCut⟩

end

theorem needsMore_iff (content : String) :
    needsMore content = true ↔
      (parse (Source.ofRepl content)).errors ≠ [] ∧
        (parse (Source.ofRepl content)).isIncomplete = true := by
  simp [needsMore]

theorem errors_eq_nil_iff (parsed : Parsed) : parsed.errors = [] ↔ parsed.failures = [] :=
  List.map_eq_nil_iff

theorem scan_line (content rest : String) :
    scan (content ++ "\n" ++ rest) =
      scanChars Char.utf8Size (content.toList ++ '\n' :: rest.toList) := by
  simp [scan]

theorem scanBytes_line (bytes rest : List UInt8) :
    scanBytes (bytes ++ lineFeed :: rest) =
      scanChars byteWidth (bytes.map letter ++ '\n' :: rest.map letter) := by
  rw [scanBytes, List.map_append]
  rfl

/-- Where more is asked for, some more completes the program, in texts and byte strings. -/
theorem asking_for_more_helps :
    (∀ content : String, '\x00' ∉ content.toList → needsMore content = true →
        ∃ rest : String, (parse (Source.ofRepl (content ++ "\n" ++ rest))).errors = []) ∧
      ∀ source bytes, 0 ∉ bytes →
        (ofTokens source (scanBytes bytes)).failures ≠ [] →
        (ofTokens source (scanBytes bytes)).isIncomplete = true →
          ∃ rest, (ofTokens source (scanBytes (bytes ++ lineFeed :: rest))).failures = [] := by
  constructor
  · intro content noNul asks
    have noNul : ∀ char ∈ content.toList, isNul char = false := by
      intro char member
      refine Bool.eq_false_iff.mpr fun isNul => noNul ?_
      rwa [Char.toNat_inj.mp (beq_iff_eq.mp isNul : char.toNat = '\x00'.toNat)] at member
    obtain ⟨rest, completes⟩ := exists_completion (Source.ofRepl "") noNul
      ((needsMore_iff content).mp asks).2
    refine ⟨String.ofList (rest.map letter), (errors_eq_nil_iff _).mpr ?_⟩
    unfold parse
    rwa [Source.content, Source.ofRepl, scan_line, String.toList_ofList]
  · intro source bytes noNul fails wants
    have noNul : ∀ char ∈ bytes.map letter, isNul char = false := by
      intro char member
      obtain ⟨byte, isByte, rfl⟩ := List.mem_map.mp member
      refine Bool.eq_false_iff.mpr fun isNul => noNul ?_
      have isZero : byte.toNat = 0 := by
        rw [← toNat_letter]
        exact beq_iff_eq.mp isNul
      obtain rfl : byte = 0 := UInt8.toNat_inj.mp isZero
      exact isByte
    obtain ⟨rest, completes⟩ := exists_completion source noNul wants
    exact ⟨rest, by rwa [scanBytes_line]⟩

theorem asking_for_more_helps_in_condition :
    needsMore "if (x /* or" = true ∧
      ∃ rest : String, (parse (Source.ofRepl ("if (x /* or" ++ "\n" ++ rest))).errors = [] :=
  have asks : needsMore "if (x /* or" = true := by decide +kernel
  ⟨asks, asking_for_more_helps.1 _ (by decide) asks⟩

/--
Where some more completes a program that fails, more is asked for, unless the program was
cut in the middle of an escape in a string, in texts and byte strings.
-/
theorem giving_up_only_in_escapes
    (content rest : String)
    (source : Source)
    (bytes behind : List UInt8) :
    ((parse (Source.ofRepl content)).errors ≠ [] →
      (parse (Source.ofRepl (content ++ "\n" ++ rest))).errors = [] →
        (needsMore content = true ↔
          ¬∃ string fault, (parse (Source.ofRepl content)).failures = [⟨string, fault⟩] ∧
            string.IsCutInEscape Char.utf8Size content.toList)) ∧
      ((ofTokens source (scanBytes bytes)).failures ≠ [] →
        (ofTokens source (scanBytes (bytes ++ lineFeed :: behind))).failures = [] →
          ((ofTokens source (scanBytes bytes)).isIncomplete = true ↔
            ¬∃ string fault, (ofTokens source (scanBytes bytes)).failures = [⟨string, fault⟩] ∧
              string.IsCutInEscape byteWidth (bytes.map letter))) := by
  constructor
  · intro fails completed
    have completed := (errors_eq_nil_iff _).mp completed
    unfold parse at completed
    rw [needsMore_iff, and_iff_right fails]
    exact isIncomplete_iff_not_isCutInEscape (mt (errors_eq_nil_iff _).mpr fails)
      (scan_line content rest ▸ completed)
  · intro fails completed
    rw [scanBytes_line] at completed
    exact isIncomplete_iff_not_isCutInEscape fails completed

theorem giving_up_in_continued_string :
    needsMore "'abc\\" = false ∧
      (parse (Source.ofRepl "'abc\\")).errors ≠ [] ∧
      (parse (Source.ofRepl ("'abc\\" ++ "\n" ++ "def'"))).errors = [] ∧
      ∃ string fault, (parse (Source.ofRepl "'abc\\")).failures = [⟨string, fault⟩] ∧
        string.IsCutInEscape Char.utf8Size "'abc\\".toList := by
  have givesUp : needsMore "'abc\\" = false := by decide +kernel
  have fails : (parse (Source.ofRepl "'abc\\")).errors ≠ [] := by decide +kernel
  have completed : (parse (Source.ofRepl ("'abc\\" ++ "\n" ++ "def'"))).errors = [] := by
    decide +kernel
  refine ⟨givesUp, fails, completed, Classical.byContradiction fun notCut => ?_⟩
  have asks :=
    ((giving_up_only_in_escapes _ _ (Source.ofRepl "") [] []).1 fails completed).mpr notCut
  rw [givesUp] at asks
  cases asks

end Program

end ScriptEngine
