import ScriptEngine.Program.Parser
import ScriptEngine.Proofs.Token.Spelling

namespace ScriptEngine.Token

/-!
# What the kind of a token says

The literal of a token is as its kind says.  A mark and a reserved word are spelled as
in their tables, a name is not empty, in the body of a string no backslash stands alone
at the end, and a regular expression has a slash that ends its pattern.
-/

variable {width : Char → Nat} {text : List Char} {token : Token}

/-- A text in which every backslash stands in front of a character that it hides. -/
inductive Paired : List Char → Prop where
  | nil : Paired []
  | plain {char : Char} {rest : List Char} :
      char ≠ '\\' →
      Paired rest →
      Paired (char :: rest)
  | escape {hidden : Char} {rest : List Char} :
      Paired rest →
      Paired ('\\' :: hidden :: rest)

namespace Paired

variable {char : Char} {rest : List Char}

theorem behind_plain (paired : Paired (char :: rest)) (notEscape : char ≠ '\\') : Paired rest := by
  cases paired with
  | plain _ pairedRest => exact pairedRest
  | escape _ => exact absurd rfl notEscape

theorem behind_escape (paired : Paired ('\\' :: char :: rest)) : Paired rest := by
  cases paired with
  | plain notEscape _ => exact absurd rfl notEscape
  | escape pairedRest => exact pairedRest

theorem not_alone : ¬Paired ['\\'] := by
  intro paired
  cases paired with
  | plain notEscape _ => exact absurd rfl notEscape

end Paired

/-- A literal that is spelled in the tables of marks and of reserved words. -/
def IsFixed (kind : TokenKind) (literal : String) : Prop :=
  (literal.toList, kind) ∈ marks ∨ (literal, kind) ∈ TokenKind.reservedWords

/-- What a kind says of a literal. -/
def Tells (literal : String) : TokenKind → Prop
  | .illegal | .endOfInput | .number => True
  | .identifier => literal ≠ ""
  | .string => Paired literal.toList
  | .regex => ∃ pattern flags, literal.toList = '/' :: (pattern ++ '/' :: flags) ∧ '/' ∉ flags
  | kind => IsFixed kind literal

theorem tells_of_isFixed {kind : TokenKind} {literal : String} (isFixed : IsFixed kind literal) :
    Tells literal kind := by
  -- No table holds one of the kinds that say something else.
  have others : kind ≠ .identifier ∧ kind ≠ .string ∧ kind ≠ .regex := by
    have inMarks : ∀ entry ∈ marks,
        entry.2 ≠ .identifier ∧ entry.2 ≠ .string ∧ entry.2 ≠ .regex := by decide
    have inWords : ∀ entry ∈ TokenKind.reservedWords,
        entry.2 ≠ .identifier ∧ entry.2 ≠ .string ∧ entry.2 ≠ .regex := by decide
    rcases isFixed with isMark | isWord
    · exact inMarks _ isMark
    · exact inWords _ isWord
  unfold Tells
  split
  · trivial
  · trivial
  · trivial
  · exact absurd rfl others.1
  · exact absurd rfl others.2.1
  · exact absurd rfl others.2.2
  · exact isFixed

/-! ## Lexemes -/

theorem paired_stringBody
    (quote : Char)
    (text : List Char)
    (closed : (stringBody quote text).closed = true) :
    Paired (stringBody quote text).taken := by
  fun_induction stringBody quote text with
  | case1 | case2 | case3 | case6 => simp at closed
  | case4 hidden rest _ inductionHypothesis => exact .escape (inductionHypothesis closed)
  | case5 => exact .nil
  | case7 char rest notLast notEscape _ _ inductionHypothesis =>
      refine .plain ?_ (inductionHypothesis closed)
      rintro rfl
      cases rest with
      | nil => exact notLast rfl rfl
      | cons hidden rest => exact notEscape hidden rest rfl rfl

theorem tells_stringLexeme (quote : Char) (text : List Char) :
    Tells (stringLexeme quote text).literal (stringLexeme quote text).kind := by
  have paired := paired_stringBody quote text
  unfold stringLexeme
  dsimp only
  split
  · rename_i closed _
    simpa [Tells] using paired closed
  · trivial

theorem tells_regexLexeme (text : List Char) :
    Tells (regexLexeme text).literal (regexLexeme text).kind := by
  unfold regexLexeme
  dsimp only
  split
  · rename_i closing rest closed isRest
    obtain ⟨_, isOwn⟩ := regexBody_closed false text closed
    rw [isRest] at isOwn
    obtain ⟨rfl, -⟩ := List.cons.inj isOwn
    refine ⟨(regexBody false text).taken, rest.takeWhile isNameStart, ?_, ?_⟩
    · rw [Lexeme.verbatim, String.toList_ofList]
    · intro isFlag
      have isName := List.all_eq_true.mp List.all_takeWhile _ isFlag
      cases isName
  · trivial

theorem tells_nameLexeme {first : Char} (rest : List Char) (starts : isNameStart first = true) :
    Tells (nameLexeme (first :: rest)).literal (nameLexeme (first :: rest)).kind := by
  have nonEmpty : String.ofList ((first :: rest).takeWhile isNameRest) ≠ "" := by
    simp [isNameRest, starts]
  unfold nameLexeme
  dsimp only
  generalize String.ofList ((first :: rest).takeWhile isNameRest) = name at nonEmpty
  unfold TokenKind.ofName
  cases found : TokenKind.reservedWords.lookup name with
  | none => exact nonEmpty
  | some kind =>
      obtain ⟨front, back, isSplit, _⟩ := List.lookup_eq_some_iff.mp found
      refine tells_of_isFixed (.inr ?_)
      simp [isSplit]

theorem tells_numberLexeme (text : List Char) :
    Tells (numberLexeme text).literal (numberLexeme text).kind := by
  unfold numberLexeme
  split
  · split
    · trivial
    · trivial
  · trivial

theorem tells_punctuatorLexeme (first : Char) (rest : List Char) :
    Tells (punctuatorLexeme first rest).literal (punctuatorLexeme first rest).kind := by
  unfold punctuatorLexeme
  split
  · rename_i kind length found
    obtain ⟨⟨mark, _⟩, isEntry, isFound⟩ := Option.map_eq_some_iff.mp found
    obtain ⟨rfl, rfl⟩ := Prod.mk.inj isFound
    obtain ⟨behind, isText⟩ : mark <+: first :: rest := by
      simpa using List.find?_some isEntry
    have isTaken : (first :: rest).take mark.length = mark := by
      rw [← isText, List.take_left]
    refine tells_of_isFixed (.inl ?_)
    change (String.toList (String.ofList ((first :: rest).take mark.length)), _) ∈ marks
    rw [String.toList_ofList, isTaken]
    exact List.mem_of_find?_eq_some isEntry
  · trivial

/-- The literal of a lexeme is as its kind says. -/
theorem tells_lexeme (previous : Option TokenKind) (text : List Char) :
    Tells (lexeme previous text).literal (lexeme previous text).kind := by
  unfold lexeme
  split
  · trivial
  · rename_i first rest
    split
    · trivial
    · split
      · exact tells_stringLexeme first rest
      · split
        · exact tells_regexLexeme rest
        · split
          · exact tells_numberLexeme _
          · split
            · rename_i starts
              exact tells_nameLexeme rest starts
            · split
              · exact tells_numberLexeme _
              · exact tells_punctuatorLexeme first rest

/-- What holds of every lexeme and of an unclosed comment holds of every token that is scanned. -/
theorem holds_of_mem_scanFrom
    {holds : String → TokenKind → Prop}
    (ofLexeme : ∀ previous text, holds (lexeme previous text).literal (lexeme previous text).kind)
    (ofComment : holds unclosedComment .illegal)
    {budget : Nat}
    {previous : Option TokenKind}
    {place : Place}
    (member : token ∈ scanFrom width budget previous place text) :
    holds token.literal token.kind := by
  induction budget generalizing previous place text with
  | zero => cases member
  | succ budget inductionHypothesis =>
      have first : holds (next width previous place text).1.literal
          (next width previous place text).1.kind := by
        unfold next
        dsimp only
        split
        · exact ofLexeme _ _
        · exact ofComment
      unfold scanFrom at member
      dsimp only at member
      split at member
      · rw [List.mem_singleton.mp member]
        exact first
      · rcases List.mem_cons.mp member with rfl | later
        · exact first
        · exact inductionHypothesis later

/-- The literal of every token that is scanned is as its kind says. -/
theorem tells_of_mem_scanFrom
    {budget : Nat}
    {previous : Option TokenKind}
    {place : Place}
    (member : token ∈ scanFrom width budget previous place text) :
    Tells token.literal token.kind :=
  holds_of_mem_scanFrom tells_lexeme trivial member

/-!
## Names and reserved words

What starts as a name is scanned as a name or a reserved word.  No other token has the
letters of a reserved word, but a string may have them between its quotes.
-/

/-- Whether a text is a name that is not reserved. -/
def IsIdentifier (name : String) : Prop :=
  TokenKind.isReserved name = false ∧
    ∃ first others, name.toList = first :: others ∧ isNameStart first = true ∧
      ∀ char ∈ others, isNameRest char = true

/-- What starts as a name is scanned as one. -/
theorem lexeme_of_isNameStart
    (previous : Option TokenKind)
    {first : Char}
    (starts : isNameStart first = true)
    (rest : List Char) :
    lexeme previous (first :: rest) = nameLexeme (first :: rest) := by
  have apart (mark : Char) (isMark : isNameStart mark = false) : first ≠ mark := by
    rintro rfl
    rw [isMark] at starts
    cases starts
  have notNul : isNul first = false := by
    refine Bool.eq_false_iff.mpr fun nul => apart (Char.ofNat 0) rfl ?_
    exact Char.ext (UInt32.toNat_inj.mp (beq_iff_eq.mp nul))
  simp [lexeme, notNul, starts, apart '"' rfl, apart '\'' rfl, apart '/' rfl, apart '.' rfl]

/-- Only the word itself and a string have the letters of a reserved word. -/
def SpellsWord (literal : String) (kind : TokenKind) : Prop :=
  TokenKind.isReserved literal = true →
    kind = .string ∨ (literal, kind) ∈ TokenKind.reservedWords

/-- A token has the letters of a reserved word only if it is the word or a string. -/
def IsSpelled (token : Token) : Prop := SpellsWord token.literal token.kind

theorem ofName_mem_reservedWords {name : String} (isReserved : TokenKind.isReserved name = true) :
    (name, TokenKind.ofName name) ∈ TokenKind.reservedWords := by
  obtain ⟨kind, found⟩ := Option.isSome_iff_exists.mp isReserved
  obtain ⟨front, back, isSplit, -⟩ := List.lookup_eq_some_iff.mp found
  rw [TokenKind.ofName, found, isSplit]
  exact List.mem_append_right front List.mem_cons_self

/-- A reserved word has more than one letter, and starts as a name does. -/
theorem isNameStart_of_isReserved
    {literal : String}
    (isReserved : TokenKind.isReserved literal = true) :
    ∃ first second rest, literal.toList = first :: second :: rest ∧ isNameStart first = true := by
  have all : ∀ entry ∈ TokenKind.reservedWords,
      1 < entry.1.toList.length ∧ entry.1.toList.head?.all isNameStart = true := by decide
  obtain ⟨long, starts⟩ := all _ (ofName_mem_reservedWords isReserved)
  match isText : literal.toList with
  | [] | [_] => simp [isText] at long
  | first :: second :: rest =>
      rw [isText] at starts
      exact ⟨first, second, rest, rfl, starts⟩

theorem spellsWord_lexeme (previous : Option TokenKind) (text : List Char) :
    SpellsWord (lexeme previous text).literal (lexeme previous text).kind := by
  intro isReserved
  obtain ⟨letter, second, others, isText, starts⟩ := isNameStart_of_isReserved isReserved
  have written := (fits_lexeme previous text).written
  unfold Written at written
  split at written
  · exact .inl ‹_›
  · -- What is illegal is a single character, or its literal is a message.
    have notMessage (message : String) (notReserved : TokenKind.isReserved message = false) :
        (lexeme previous text).literal ≠ message := by
      intro isMessage
      rw [isMessage, notReserved] at isReserved
      cases isReserved
    rcases written with ⟨char, -, isChar⟩ | ⟨isMessage, -⟩ | ⟨isMessage, -⟩ | ⟨isMessage, -⟩
    · rw [isChar] at isText
      cases isText
    · exact absurd isMessage (notMessage _ (by decide))
    · exact absurd isMessage (notMessage _ (by decide))
    · exact absurd isMessage (notMessage _ (by decide))
  · have whole := lexeme_append previous text
    rw [written, isText] at whole
    rw [← whole, List.cons_append, lexeme_of_isNameStart previous starts] at isReserved ⊢
    exact .inr (ofName_mem_reservedWords isReserved)

/-- Every token that is scanned and has the letters of a word is the word or a string. -/
theorem isSpelled_of_mem_scanChars
    (member : token ∈ scanChars width text) :
    token.IsSpelled :=
  holds_of_mem_scanFrom spellsWord_lexeme (fun isReserved => nomatch isReserved) member

end ScriptEngine.Token
