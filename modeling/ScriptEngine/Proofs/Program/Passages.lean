import ScriptEngine.Proofs.Token.Alone

namespace ScriptEngine

/-!
# How functions and statements are scanned

Statements end with a semicolon or a brace, so whatever stands behind them is scanned as
if it stood alone.  Between their marks stand expressions, names and words, each of which
is scanned in front of the mark that closes it.
-/

namespace Token

/-! ## Fronts of texts -/

/--
A text and what stands behind it are scanned as its tokens and those of what stands
behind it, which comes after a token of a kind.
-/
structure Leads
    (previous : Option TokenKind)
    (text : List Char)
    (spelling : List Token)
    (last : Option TokenKind) : Prop where
  scans : ∀ rest more final tail, Scans last rest more final tail →
    Scans previous (text ++ rest) (spelling ++ more) final tail

/-- The marks of one character that no other mark starts with. -/
def singleMarks : List (Char × Token) :=
  [('(', .plain .leftParen "("), (')', .plain .rightParen ")"), ('[', .plain .leftBracket "["),
    (']', .plain .rightBracket "]"), ('\x7b', .plain .leftBrace "\x7b"),
    ('\x7d', .plain .rightBrace "\x7d"), (',', .plain .comma ","), (';', .plain .semicolon ";"),
    (':', .plain .colon ":")]

section

variable {previous last final : Option TokenKind} {text other : List Char}
  {spelling more : List Token} {char : Char} {mark : Token}

theorem Leads.trans
    (leads : Leads previous text spelling last)
    (leadsOn : Leads last other more final) :
    Leads previous (text ++ other) (spelling ++ more) final := by
  refine ⟨fun rest others ends tail scans => ?_⟩
  rw [List.append_assoc, List.append_assoc]
  exact leads.scans _ _ _ _ (leadsOn.scans _ _ _ _ scans)

theorem Leads.nothing (previous : Option TokenKind) : Leads previous [] [] previous :=
  ⟨fun _ _ _ _ scans => scans⟩

theorem Leads.blank (previous : Option TokenKind) : Leads previous [' '] [] previous :=
  ⟨fun _ _ _ _ scans => scans.blank⟩

theorem scans_single
    (isSingle : (char, mark) ∈ singleMarks)
    (previous : Option TokenKind)
    (rest : List Char) :
    Scans previous (char :: rest) [mark] (some mark.kind) rest := by
  simp only [singleMarks, List.mem_cons, Prod.mk.injEq, List.not_mem_nil, or_false] at isSingle
  rcases isSingle with ⟨rfl, rfl⟩ | ⟨rfl, rfl⟩ | ⟨rfl, rfl⟩ | ⟨rfl, rfl⟩ | ⟨rfl, rfl⟩ |
    ⟨rfl, rfl⟩ | ⟨rfl, rfl⟩ | ⟨rfl, rfl⟩ | ⟨rfl, rfl⟩
  · exact @Scans.token _ _ (.plain .leftParen "(") rfl rfl nofun
  · exact @Scans.token _ _ (.plain .rightParen ")") rfl rfl nofun
  · exact @Scans.token _ _ (.plain .leftBracket "[") rfl rfl nofun
  · exact @Scans.token _ _ (.plain .rightBracket "]") rfl rfl nofun
  · exact @Scans.token _ _ (.plain .leftBrace "\x7b") rfl rfl nofun
  · exact @Scans.token _ _ (.plain .rightBrace "\x7d") rfl rfl nofun
  · exact @Scans.token _ _ (.plain .comma ",") rfl rfl nofun
  · exact @Scans.token _ _ (.plain .semicolon ";") rfl rfl nofun
  · exact @Scans.token _ _ (.plain .colon ":") rfl rfl nofun

theorem follower_single
    (isSingle : (char, mark) ∈ singleMarks)
    (notBrace : char ≠ '\x7b')
    (rest : List Char) :
    Follower (char :: rest) := by
  have all : ∀ entry ∈ singleMarks, entry.1 ≠ '\x7b' → entry.1 ∈ followers := by decide
  exact .mark rest (all _ isSingle notBrace)

theorem Leads.single (isSingle : (char, mark) ∈ singleMarks) (previous : Option TokenKind) :
    Leads previous [char] [mark] (some mark.kind) :=
  ⟨fun _ _ _ _ scans => (scans_single isSingle previous _).trans scans⟩

/-- What is scanned in front of a mark is so with the mark. -/
theorem leads_of_scans
    (isSingle : (char, mark) ∈ singleMarks)
    (scans : ∀ rest, ∃ last, Scans previous (text ++ char :: rest) spelling last (char :: rest)) :
    Leads previous (text ++ [char]) (spelling ++ [mark]) (some mark.kind) := by
  refine ⟨fun rest more final tail scansRest => ?_⟩
  obtain ⟨last, scansText⟩ := scans rest
  rw [List.append_assoc, List.append_assoc]
  exact scansText.trans ((scans_single isSingle last rest).trans scansRest)

/-- Every reserved word is scanned as it stands. -/
theorem isNaming_of_reserved
    {kind : TokenKind}
    {literal : String}
    (isWord : (literal, kind) ∈ TokenKind.reservedWords) :
    (Token.plain kind literal).IsNaming := by
  have all : ∀ entry ∈ TokenKind.reservedWords,
      TokenKind.isReserved entry.1 = true ∧ (Token.plain entry.2 entry.1).IsScanned := by
    decide +kernel
  obtain ⟨isReserved, isScanned⟩ := all _ isWord
  obtain ⟨first, second, others, isText, starts⟩ := isNameStart_of_isReserved isReserved
  exact ⟨by simp [plain, isReserved], isScanned, rfl, first, _, isText, starts⟩

theorem IsNaming.leads {token : Token} (isNaming : token.IsNaming) (previous : Option TokenKind) :
    Leads previous (token.literal.toList ++ [' ']) [token.unplaced] (some token.kind) := by
  refine ⟨fun rest more final tail scans => ?_⟩
  rw [List.append_assoc]
  exact (isNaming.scans previous (.mark rest (by decide))).trans scans.blank

theorem IsNaming.leads_single
    {token : Token}
    (isNaming : token.IsNaming)
    (isSingle : (char, mark) ∈ singleMarks)
    (notBrace : char ≠ '\x7b')
    (previous : Option TokenKind) :
    Leads previous (token.literal.toList ++ [char]) [token.unplaced, mark] (some mark.kind) :=
  leads_of_scans isSingle fun rest =>
    ⟨_, isNaming.scans previous (follower_single isSingle notBrace rest)⟩

end

end Token

namespace Statement

open Token
open Expression (IsPart IsWritten textAll listAll scans_all)

/-! ## Up to a closing mark -/

/-- A text is scanned as its tokens up to the mark that closes it. -/
def Fills (char : Char) (mark : Token) (text : List Char) (spelling : List Token) : Prop :=
  ∀ previous, allowsRegex previous = true →
    Leads previous (text ++ [char]) (spelling ++ [mark]) (some mark.kind)

section

variable {char : Char} {mark : Token} (isSingle : (char, mark) ∈ singleMarks)

include isSingle

theorem fills_part
    {text : List Char}
    {spelling : List Token}
    (notBrace : char ≠ '\x7b')
    (part : IsPart text spelling) :
    Fills char mark text spelling := by
  refine fun previous opens => leads_of_scans isSingle fun rest => ?_
  obtain ⟨last, scans⟩ := part previous _ opens (follower_single isSingle notBrace rest)
  exact ⟨some last, scans⟩

theorem fills_nothing : Fills char mark [] [] := fun previous _ => .single isSingle previous

theorem fills_all
    {texts : List (List Char)}
    {spellings : List (List Token)}
    (closes : char ∈ [')', ']', '\x7d', ';'])
    (written : List.Forall₂ IsPart texts spellings) :
    Fills char mark (textAll texts) (listAll spellings) :=
  fun _ opens => leads_of_scans isSingle (scans_all written closes opens)

end

section

variable {char : Char} {mark : Token} {text other : List Char} {spelling more : List Token}
  (fills : Fills char mark text spelling)

include fills

/-- What stands behind a semicolon. -/
theorem fills_behind (fillsFirst : Fills ';' (.plain .semicolon ";") other more) :
    Fills char mark (other ++ ';' :: ' ' :: text)
      (more ++ Token.plain .semicolon ";" :: spelling) := by
  intro previous opens
  have all := (fillsFirst previous opens).trans
    ((Leads.blank _).trans (fills (some .semicolon) rfl))
  simpa only [List.append_assoc, List.cons_append, List.nil_append] using all

theorem fills_worded
    {word : Token}
    (isWord : word.IsNaming)
    (opens : allowsRegex (some word.kind) = true) :
    Fills char mark (word.literal.toList ++ ' ' :: text) (word.unplaced :: spelling) := by
  intro previous _
  have all := (isWord.leads previous).trans (fills _ opens)
  simpa only [List.append_assoc, List.cons_append, List.nil_append] using all

/-- A variable that goes through the keys of something. -/
theorem fills_in {name : Token} (isName : name.IsNaming) :
    Fills char mark (name.literal.toList ++ ' ' :: 'i' :: 'n' :: ' ' :: text)
      (name.unplaced :: .plain .inWord "in" :: spelling) := by
  intro previous _
  have isWord : (Token.plain .inWord "in").IsNaming := isNaming_of_reserved (by decide)
  have all := (isName.leads previous).trans ((isWord.leads _).trans (fills (some .inWord) rfl))
  simp only [List.append_assoc, List.cons_append, List.nil_append] at all ⊢
  exact all

end

/-! ## Statements -/

/--
A text is scanned as its tokens, whatever stands behind it, and where it ends no slash
divides.  If it starts with a regular expression it stands where none divides.
-/
def IsPassage (regexFirst : Bool) (text : List Char) (spelling : List Token) : Prop :=
  ∀ previous, (regexFirst = true → allowsRegex previous = true) →
    ∃ last, allowsRegex last = true ∧ Leads previous text spelling last

section

variable {regexFirst : Bool} {text other : List Char} {spelling more : List Token}

/-- Where no slash divides, every passage may stand. -/
theorem IsPassage.relax (passage : IsPassage regexFirst text spelling) :
    IsPassage true text spelling :=
  fun previous opens => passage previous fun _ => opens rfl

theorem isPassage_nothing : IsPassage true [] [] :=
  fun previous opens => ⟨previous, opens rfl, .nothing previous⟩

theorem isPassage_append
    (passage : IsPassage true text spelling)
    (passageOther : IsPassage true other more) :
    IsPassage true (text ++ ' ' :: other) (spelling ++ more) := by
  intro previous opens
  obtain ⟨last, opensLater, leads⟩ := passage previous opens
  obtain ⟨final, opensLast, leadsOther⟩ := passageOther last fun _ => opensLater
  exact ⟨final, opensLast, leads.trans ((Leads.blank last).trans leadsOther)⟩

/-- A passage with a blank in front of it, and another one right behind it. -/
theorem isPassage_behind
    (passage : IsPassage true text spelling)
    (passageOther : IsPassage true other more) :
    IsPassage true (' ' :: (text ++ other)) (spelling ++ more) := by
  intro previous opens
  obtain ⟨last, opensLater, leads⟩ := passage previous opens
  obtain ⟨final, opensLast, leadsOther⟩ := passageOther last fun _ => opensLater
  exact ⟨final, opensLast, (Leads.blank previous).trans (leads.trans leadsOther)⟩

theorem isPassage_empty : IsPassage regexFirst [';'] [.plain .semicolon ";"] :=
  fun previous _ => ⟨some .semicolon, rfl, .single (by decide) previous⟩

theorem isPassage_expression
    {kind : TokenKind}
    (written : IsWritten regexFirst kind text spelling) :
    IsPassage regexFirst (text ++ [';']) (spelling ++ [Token.plain .semicolon ";"]) :=
  fun previous opens => ⟨some .semicolon, rfl, leads_of_scans (by decide) fun rest =>
    ⟨_, written.scans previous _ opens (.mark rest (by decide))⟩⟩

section

variable {word : Token} (isWord : word.IsNaming)

include isWord

theorem isPassage_bare :
    IsPassage regexFirst (word.literal.toList ++ [';'])
      [word.unplaced, .plain .semicolon ";"] :=
  fun previous _ => ⟨some .semicolon, rfl, isWord.leads_single (by decide) (by decide) previous⟩

theorem isPassage_worded
    (opens : allowsRegex (some word.kind) = true)
    (fills : Fills ';' (.plain .semicolon ";") text spelling) :
    IsPassage regexFirst (word.literal.toList ++ ' ' :: (text ++ [';']))
      (word.unplaced :: (spelling ++ [Token.plain .semicolon ";"])) := by
  refine fun previous _ => ⟨some .semicolon, rfl, ?_⟩
  have all : Leads previous _ _ (some .semicolon) := (isWord.leads previous).trans (fills _ opens)
  simpa only [List.append_assoc, List.cons_append, List.nil_append] using all

theorem isPassage_labeled (passage : IsPassage true text spelling) :
    IsPassage regexFirst (word.literal.toList ++ ':' :: ' ' :: text)
      (word.unplaced :: .plain .colon ":" :: spelling) := by
  intro previous _
  obtain ⟨last, opens, leads⟩ := passage (some .colon) fun _ => rfl
  refine ⟨last, opens, ?_⟩
  simpa only [List.append_assoc, List.cons_append, List.nil_append] using
    (@IsNaming.leads_single ':' (.plain .colon ":") word isWord (by decide) (by decide)
      previous).trans
      ((Leads.blank _).trans leads)

/-- A word and what stands in parentheses behind it. -/
theorem leads_governing
    (fills : Fills ')' (.plain .rightParen ")") text spelling)
    (previous : Option TokenKind) :
    Leads previous (word.literal.toList ++ ' ' :: '(' :: (text ++ ')' :: [' ']))
      (word.unplaced :: .plain .leftParen "(" :: (spelling ++ [Token.plain .rightParen ")"]))
      (some .rightParen) := by
  have opening :=
    (isWord.leads previous).trans (@Leads.single '(' (.plain .leftParen "(") (by decide) _)
  have all : Leads previous _ _ (some .rightParen) :=
    opening.trans ((fills (some .leftParen) rfl).trans (.blank _))
  simpa only [List.append_assoc, List.cons_append, List.nil_append, List.append_nil] using all

theorem isPassage_governed
    (fills : Fills ')' (.plain .rightParen ")") text spelling)
    (passage : IsPassage false other more) :
    IsPassage regexFirst (word.literal.toList ++ ' ' :: '(' :: (text ++ ')' :: ' ' :: other))
      (word.unplaced :: .plain .leftParen "(" ::
        (spelling ++ Token.plain .rightParen ")" :: more)) := by
  intro previous _
  obtain ⟨last, opens, leads⟩ := passage (some .rightParen) nofun
  refine ⟨last, opens, ?_⟩
  simpa only [List.append_assoc, List.cons_append, List.nil_append] using
    (leads_governing isWord fills previous).trans leads

end

/-- A branch that is not taken stands behind its word. -/
theorem isPassage_else
    (passage : IsPassage regexFirst text spelling)
    (passageOther : IsPassage true other more) :
    IsPassage regexFirst (text ++ ' ' :: 'e' :: 'l' :: 's' :: 'e' :: ' ' :: other)
      (spelling ++ Token.plain .elseWord "else" :: more) := by
  intro previous opens
  obtain ⟨last, -, leads⟩ := passage previous opens
  obtain ⟨final, opensLast, leadsOther⟩ := passageOther (some .elseWord) fun _ => rfl
  have isWord : (Token.plain .elseWord "else").IsNaming := isNaming_of_reserved (by decide)
  refine ⟨final, opensLast, ?_⟩
  exact leads.trans ((Leads.blank last).trans ((isWord.leads last).trans leadsOther))

/-- What stands between braces. -/
theorem leads_braced (passage : IsPassage true text spelling) (previous : Option TokenKind) :
    ∃ last, Leads previous ('\x7b' :: ' ' :: text) (.plain .leftBrace "\x7b" :: spelling) last := by
  obtain ⟨last, -, leads⟩ := passage (some .leftBrace) fun _ => rfl
  have opening := @Leads.single '\x7b' (.plain .leftBrace "\x7b") (by decide) previous
  exact ⟨last, opening.trans ((Leads.blank _).trans leads)⟩

/-- A text that a closing brace ends. -/
theorem isPassage_closed (leads : ∀ previous, ∃ last, Leads previous text spelling last) :
    IsPassage regexFirst (text ++ ['\x7d']) (spelling ++ [Token.plain .rightBrace "\x7d"]) := by
  intro previous _
  obtain ⟨last, leads⟩ := leads previous
  exact ⟨some .rightBrace, rfl, leads.trans (.single (by decide) last)⟩

/-- A clause from its word up to its colon, its statements, and the clauses behind it. -/
theorem isPassage_clause
    {front : List Char}
    {marks : List Token}
    (leads : ∀ previous, Leads previous front marks (some .colon))
    (passage : IsPassage true text spelling)
    (passageOther : IsPassage true other more) :
    IsPassage true (front ++ (text ++ ' ' :: other)) (marks ++ (spelling ++ more)) := by
  intro previous _
  obtain ⟨last, opens, leadsOn⟩ := isPassage_append passage passageOther (some .colon) fun _ => rfl
  exact ⟨last, opens, (leads previous).trans leadsOn⟩

end

end Statement

namespace Expression

open Token
open Statement (Fills IsPassage fills_part fills_all leads_braced)

/-! ## Expressions with statements in them, and assignments -/

section

variable {regexFirst regexOther : Bool} {kind kindOther : TokenKind} {text other : List Char}
  {spelling more : List Token}

theorem isPart_name {token : Token} (isNaming : token.IsNaming) :
    IsPart token.literal.toList [token.unplaced] :=
  fun previous _ _ follower => ⟨_, isNaming.scans previous follower⟩

/-- Names and words between commas. -/
theorem areParts_names {tokens : List Token} (areNaming : ∀ token ∈ tokens, token.IsNaming) :
    List.Forall₂ IsPart ((tokens.map Token.literal).map String.toList)
      (tokens.map fun token => [token.unplaced]) := by
  rw [List.map_map, List.forall₂_map_left_iff, List.forall₂_map_right_iff, List.forall₂_same]
  exact fun token member => isPart_name (areNaming token member)

theorem isWritten_regex {token : Token} (isRegex : token.IsRegex) :
    IsWritten true .regex token.writing [token.unplaced] := by
  refine ⟨?_, fun previous rest opens follower => ?_⟩
  · obtain ⟨others, isWriting⟩ := isRegex.starts
    exact ⟨'/', others, isWriting, rfl⟩
  · have noFlag : ∀ char ∈ rest.head?, isNameStart char = false := by
      have none : followers.any isNameStart = false := by decide
      cases follower with
      | mark more isMark =>
          rintro _ ⟨⟩
          exact Bool.eq_false_iff.mpr (List.any_eq_false.mp none _ isMark)
      | point more _ =>
          rintro _ ⟨⟩
          rfl
    rw [← isRegex.isKind]
    refine Scans.token (isRegex.noGap rest) (isRegex.scans previous rest (opens rfl) noFlag) ?_
    rw [isRegex.isKind]
    nofun

/-- The sign of an assignment stands between blanks. -/
theorem scans_assigns
    {sign : TokenKind}
    {operator : AssignmentOperator}
    (stands : AssignmentOperator.ofKind? sign = some operator)
    (ends : operator = .combine .divide → kind.endsOperand = true)
    (rest : List Char) :
    Scans (some kind) (operator.text.toList ++ ' ' :: rest) [.plain sign operator.text] (some sign)
      (' ' :: rest) := by
  revert stands
  cases sign <;> rintro ⟨⟩
  case slashAssign =>
    have noRegex : allowsRegex (some kind) = false := by simp [allowsRegex, ends rfl]
    have isLexeme : lexeme (some kind) ('/' :: '=' :: ' ' :: rest) =
        punctuatorLexeme '/' ('=' :: ' ' :: rest) := by
      simp only [lexeme, noRegex, Bool.and_false]
      rfl
    exact @Scans.token _ _ (.plain .slashAssign "/=") rfl isLexeme (by decide)
  all_goals exact @Scans.token _ _ (.plain _ _) rfl rfl (by decide)

theorem isWritten_assign
    {sign : TokenKind}
    {operator : AssignmentOperator}
    (written : IsWritten regexFirst kind text spelling)
    (writtenOther : IsWritten regexOther kindOther other more)
    (stands : AssignmentOperator.ofKind? sign = some operator)
    (ends : operator = .combine .divide → kind.endsOperand = true) :
    IsWritten regexFirst kindOther (text ++ ' ' :: (operator.text.toList ++ ' ' :: other))
      (spelling ++ Token.plain sign operator.text :: more) := by
  refine ⟨?_, fun previous rest opens follower => ?_⟩
  · obtain ⟨first, others, rfl, starts⟩ := written.starts
    exact ⟨first, _, rfl, starts⟩
  · have opensOther : allowsRegex (some sign) = true := by
      revert stands
      cases sign <;> rintro ⟨⟩ <;> rfl
    have scans := @scans_operator _ _ _ _ (.plain sign operator.text) previous written opens
      (scans_assigns stands ends) (other ++ rest)
    have all :=
      scans.trans (writtenOther.scans (some sign) rest (fun _ => opensOther) follower).blank
    simp only [List.append_assoc, List.cons_append, List.nil_append] at all ⊢
    exact all

/-- A text that a closing brace ends is an operand. -/
theorem isWritten_closed
    {first : Char}
    (starts : startsExpression first = true)
    (leads : ∀ previous, ∃ last, Leads previous (first :: text) spelling last) :
    IsWritten regexFirst .rightBrace (first :: (text ++ ['\x7d']))
      (spelling ++ [Token.plain .rightBrace "\x7d"]) := by
  refine ⟨⟨first, _, rfl, starts⟩, fun previous rest _ _ => ?_⟩
  obtain ⟨last, leads⟩ := leads previous
  have all := leads.scans _ _ _ _ (@scans_single '\x7d' (.plain .rightBrace "\x7d")
    (by decide) last rest)
  simp only [List.append_assoc, List.cons_append, List.nil_append] at all ⊢
  exact all

theorem isWritten_object
    {texts : List (List Char)}
    {spellings : List (List Token)}
    (written : List.Forall₂ IsPart texts spellings) :
    IsWritten regexFirst .rightBrace ('\x7b' :: (textAll texts ++ ['\x7d']))
      (.plain .leftBrace "\x7b" :: (listAll spellings ++ [Token.plain .rightBrace "\x7d"])) := by
  refine ⟨⟨'\x7b', _, rfl, rfl⟩, fun previous rest _ _ => ?_⟩
  obtain ⟨last, scans⟩ := @scans_all _ _ written '\x7d' (by decide) (some .leftBrace) rfl rest
  have all := (@scans_single '\x7b' (.plain .leftBrace "\x7b") (by decide) previous _).trans
    (scans.trans (@scans_single '\x7d' (.plain .rightBrace "\x7d") (by decide) last rest))
  simp only [List.append_assoc, List.cons_append, List.nil_append] at all ⊢
  exact all

/-- A value stands behind what it is given to. -/
theorem isPart_given
    {mark : Token}
    {sign : List Char}
    (part : IsPart other more)
    (opens : allowsRegex (some mark.kind) = true)
    (scans : ∀ previous rest, Scans previous (text ++ (sign ++ ' ' :: rest)) (spelling ++ [mark])
      (some mark.kind) (' ' :: rest)) :
    IsPart (text ++ (sign ++ ' ' :: other)) (spelling ++ mark :: more) := by
  intro previous rest _ follower
  obtain ⟨last, scansOther⟩ := part (some mark.kind) rest opens follower
  refine ⟨last, ?_⟩
  have all := (scans previous (other ++ rest)).trans scansOther.blank
  simpa only [List.append_assoc, List.cons_append, List.nil_append] using all

/-- A function from its word up to its closing brace. -/
theorem leads_function
    {word : Token}
    {name : Option Token}
    {parameters : List Token}
    (isWord : word.unplaced = .plain .functionWord "function")
    (isName : ∀ token ∈ name, token.IsNaming)
    (areNames : ∀ parameter ∈ parameters, parameter.IsNaming)
    (passage : IsPassage true text spelling)
    (previous : Option TokenKind) :
    ∃ last, Leads previous
      ("function".toList ++ ((match name with
        | some token => " " ++ token.literal
        | none => "").toList ++
        '(' :: (textAll ((parameters.map Token.literal).map String.toList) ++
          ')' :: ' ' :: '\x7b' :: ' ' :: text)))
      (word.unplaced :: (name.toList.map Token.unplaced ++ Token.plain .leftParen "(" ::
        (listAll (parameters.map fun token => [token.unplaced]) ++ Token.plain .rightParen ")" ::
          .plain .leftBrace "\x7b" :: spelling)))
      last := by
  have isNaming : (Token.plain .functionWord "function").IsNaming :=
    isNaming_of_reserved (by decide)
  have fills : Fills ')' (.plain .rightParen ")") _ _ :=
    fills_all (by decide) (by decide) (areParts_names areNames)
  obtain ⟨last, braced⟩ := leads_braced passage (some .rightParen)
  have behind := (fills (some .leftParen) rfl).trans ((Leads.blank _).trans braced)
  refine ⟨last, ?_⟩
  rw [isWord]
  cases name with
  | none =>
      have front := @IsNaming.leads_single '(' (.plain .leftParen "(") _ isNaming (by decide)
        (by decide) previous
      have all := front.trans behind
      simp only [List.append_assoc, List.cons_append, List.nil_append] at all
      exact all
  | some token =>
      have front := (isNaming.leads previous).trans (@IsNaming.leads_single '('
        (.plain .leftParen "(") token (isName token rfl) (by decide) (by decide) _)
      have all := front.trans behind
      simp only [String.toList_append, List.append_assoc, List.cons_append, List.nil_append]
        at all ⊢
      exact all

end

end Expression

namespace Statement

/-! ## What loops start with -/

theorem headText_of_semicolon
    {statement : Statement}
    {text : String}
    (isText : statement.text = text ++ ";") :
    headText (some statement) = text := by
  have isChars : statement.text.toList = text.toList ++ [';'] := by
    rw [isText, String.toList_append]
    rfl
  simp [headText, isChars]

theorem headText_expression (token : Token) (value : Expression) :
    headText (some (.expression token value)) = value.text :=
  headText_of_semicolon (by rw [Statement.text])

theorem headText_declare (token : Token) (declarators : List Declarator) :
    headText (some (.declare token declarators)) =
      "var " ++ separated ", " (Declarator.texts declarators) :=
  headText_of_semicolon (by rw [Statement.text])

end Statement

end ScriptEngine
