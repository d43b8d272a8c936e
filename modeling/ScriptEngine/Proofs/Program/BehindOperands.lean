import ScriptEngine.Proofs.Program.Faithful
import ScriptEngine.Proofs.Program.Operands
import ScriptEngine.Proofs.Program.Precedence

namespace ScriptEngine

/-!
# Behind an operand

The token that ends an operand decides what is read behind it: whether a slash divides, and what
names a property behind a dot.
-/

/-!
## A slash behind an operand

The kind of the token in front of a slash decides whether the slash divides or starts a
regular expression.  A reserved word does not end an operand by its kind, also when it
names a property, and neither does the brace of a function.
-/

namespace Token

variable {width : Char → Nat} {previous : Option TokenKind} {front : List Char} {name : String}

/-- What is written to divide by a name. -/
def dividedBy (name : String) : List Char := ' ' :: '/' :: ' ' :: name.toList

/-- A regular expression does not end in a blank and a name. -/
theorem regexBody_of_name
    {text : List Char}
    (areOfName : ∀ char ∈ text, char = ' ' ∨ isNameRest char = true) :
    regexBody false text = ⟨text, [], false⟩ := by
  induction text with
  | nil => rfl
  | cons char text inductionHypothesis =>
      obtain ⟨isOfName, areOfName⟩ := List.forall_mem_cons.mp areOfName
      have apart (mark : Char) (notName : (mark == ' ' || isNameRest mark) = false) :
          char ≠ mark := by
        rintro rfl
        rcases isOfName with rfl | isName
        · cases notName
        · rw [isName, Bool.or_true] at notName
          cases notName
      have notNul : isNul char = false := by
        refine Bool.eq_false_iff.mpr fun nul => apart (Char.ofNat 0) rfl ?_
        exact Char.ext (UInt32.toNat_inj.mp (beq_iff_eq.mp nul))
      simp [regexBody, notNul, apart '\n' rfl, apart '/' rfl, apart '\\' rfl, apart '[' rfl,
        apart ']' rfl, inductionHypothesis areOfName, Body.cons]

/-- Where a regular expression may stand, a slash behind a blank starts one without an end. -/
theorem unclosedRegex_behind_blank
    {left : List Char}
    (isIdentifier : IsIdentifier name)
    (isBlank : IsBlank left)
    (allows : allowsRegex previous = true) :
    ∃ illegal others,
      tokensFrom width previous front (left ++ dividedBy name) = illegal :: others ∧
        illegal.kind = .illegal := by
  obtain ⟨-, first, others, isName, starts, goesOn⟩ := isIdentifier
  have areOfName : ∀ char ∈ ' ' :: name.toList, char = ' ' ∨ isNameRest char = true := by
    rw [isName]
    refine List.forall_mem_cons.mpr ⟨.inl rfl, List.forall_mem_cons.mpr ⟨.inr ?_, ?_⟩⟩
    · simp [isNameRest, starts]
    · exact fun char member => .inr (goesOn char member)
  have isLexeme : lexeme previous ('/' :: ' ' :: name.toList) =
      ⟨.illegal, unclosedRegex, '/' :: ' ' :: name.toList, [], none⟩ := by
    have isRegex : lexeme previous ('/' :: ' ' :: name.toList) = regexLexeme (' ' :: name.toList) := by
      simp only [lexeme, allows, Bool.and_true]
      rfl
    rw [isRegex, regexLexeme, regexBody_of_name areOfName]
  have isGap : gapFrom .between (dividedBy name) =
      ⟨[' '], '/' :: ' ' :: name.toList, false, true⟩ := by
    rfl
  have isNext := @next_of_gap _ width previous _ isGap rfl (Place.origin.past width (front ++ left))
  rw [isLexeme] at isNext
  obtain ⟨taken, -, -, isTokens⟩ := tokensFrom_of_token isNext (by rintro ⟨⟩)
  obtain ⟨illegal, other, others, isFirst, isOther, same⟩ :=
    @tokensFrom_behind_blank left width previous front (dividedBy name) isBlank (by rw [isGap])
  rw [isTokens] at isFirst
  obtain ⟨rfl, -⟩ := List.cons.inj isFirst
  exact ⟨other, others, isOther, congrArg (·.kind) same⟩

/-- Behind the end of an operand a slash behind a blank divides. -/
theorem slash_behind_blank
    {left : List Char}
    {kind : TokenKind}
    (isIdentifier : IsIdentifier name)
    (isBlank : IsBlank left)
    (ends : kind.endsOperand = true) :
    ∃ slash divisor last,
      tokensFrom width (some kind) front (left ++ dividedBy name) = [slash, divisor, last] ∧
        slash.kind = .slash ∧ divisor.unplaced = .plain .identifier name ∧
        last.kind = .endOfInput := by
  have scansName := @scans_identifier name isIdentifier (some .slash) [] nofun
  have scansSlash :=
    @Expression.scans_between (.strict .divide) kind (fun _ => ends) (name.toList ++ [])
  obtain ⟨slash, others, behind, isScan, isSlash, areOthers, -⟩ :=
    (scansSlash.trans scansName.blank).blank.behind_blank isBlank width front
  obtain ⟨divisor, rfl, isDivisor⟩ := List.map_eq_singleton_iff.mp areOthers
  obtain ⟨last, isLast, isEnd, -⟩ := tokensFrom_nil width (some .identifier) behind
  refine ⟨slash, divisor, last, ?_, congrArg (·.kind) isSlash, isDivisor, isEnd⟩
  rw [isLast, List.append_nil] at isScan
  exact isScan

end Token

namespace Program

open Token ScriptEngine.Parser
open Script (read)

variable {source : Source} {width : Char → Nat} {text : List Char} {first : Token}
  {value : Expression} {name : String}

/-- A slash behind an operand and a name are read as a division. -/
theorem yields_division
    {stop slash divisor last : Token}
    (isSlash : slash.kind = .slash)
    (isDivisor : divisor.kind = .identifier)
    (isEnd : last.kind = .endOfInput) :
    Yields 16 (read (.operators .lowest value)) [stop, slash, divisor, last]
      (.binary slash (.strict .divide) value (.name divisor)) [divisor, last] := by
  have isLowest : Precedence.ofKind last.kind = .lowest := by
    rw [isEnd]
    rfl
  have stops (bound : Precedence) (value : Expression) :
      Yields 1 (read (.operators bound value)) [divisor, last] value [divisor, last] :=
    operators_stop value [] (rank_le_of_lowest isLowest bound)
  refine (operators_take_unbroken (by rw [isSlash]; decide) (by rw [isSlash]; rfl) ?_
    ((stops .lowest _).weaken (Nat.le_add_left 1 2))).weaken (Nat.le_add_left 4 12)
  unfold Parser.operator
  simp only [isSlash]
  exact .advance (List.cons_ne_nil _ _)
    (.bind ((yields_name isDivisor (stops _ _)).weaken (Nat.le_succ 2)) (.pure _))

/--
Where more can be written behind a text that is one operand, a slash and a name there
divide it if the last token ends an operand by its kind, and otherwise make it fail.
-/
theorem slash_divides_only_behind_operand_end
    (isText : IsOperandText source width text first value)
    (isIdentifier : IsIdentifier name)
    (other : Source) :
    ((∃ token ∈ finalToken? width text, token.kind.endsOperand = true) →
      ∃ slash divisor, slash.kind = .slash ∧ divisor.unplaced = .plain .identifier name ∧
        (ofTokens other (scanChars width (text ++ dividedBy name))).failures = [] ∧
        (ofTokens other (scanChars width (text ++ dividedBy name))).program.statements =
          [.expression first (.binary slash (.strict .divide) value (.name divisor))]) ∧
      ((∀ token ∈ finalToken? width text, token.kind.endsOperand = false) →
        (ofTokens other (scanChars width (text ++ dividedBy name))).failures ≠ []) := by
  obtain ⟨tokens, seen, left, areTokens, isBlank, isScan, behind⟩ :=
    scanChars_behind_blank (legal_of_noFailure isText.noFailure) isText.goesOn
  have isScanBehind : scanChars width (text ++ dividedBy name) = _ := behind _
  obtain ⟨last, isLast, -⟩ :=
    @tokensFrom_of_isBlank left width (tokens.getLast?.map Token.kind) seen isBlank
  have isFinal : finalToken? width text = tokens.getLast? := by
    unfold finalToken?
    rw [isScan, isLast, List.dropLast_concat]
  rw [isFinal]
  constructor
  · rintro ⟨token, isToken, ends⟩
    obtain ⟨slash, divisor, last, isTokens, isSlash, isDivisor, isEnd⟩ :=
      @slash_behind_blank width seen name left token.kind isIdentifier isBlank ends
    have isKind : tokens.getLast?.map Token.kind = some token.kind := by
      rw [isToken]
      rfl
    rw [isKind] at isScan isScanBehind
    refine ⟨slash, divisor, isSlash, isDivisor, isText.goes_on ?_ areTokens isBlank isScan
      (isScanBehind.trans (congrArg _ isTokens)) (by rw [isSlash]; nofun) (by rw [isSlash]; nofun)
      isEnd (fun stop => yields_division isSlash (kind_of_unplaced isDivisor) isEnd) other⟩
    rw [isFinal, isToken]
    rintro _ ⟨⟩ isSemicolon
    rw [isSemicolon] at ends
    cases ends
  · intro noneEnds noFailure
    have allows : allowsRegex (tokens.getLast?.map Token.kind) = true := by
      cases isToken : tokens.getLast? with
      | none => rfl
      | some token =>
          rw [isToken] at noneEnds
          simp [allowsRegex, noneEnds token rfl]
    obtain ⟨illegal, others, isTokens, isIllegal⟩ := @unclosedRegex_behind_blank width _ seen name
      left isIdentifier isBlank allows
    refine legal_of_noFailure noFailure illegal ?_ isIllegal
    rw [isScanBehind]
    exact List.mem_append_right tokens (isTokens ▸ List.mem_cons_self)

theorem slash_divides_only_behind_operand_end_of_members :
    let plain := "a.b".toList
    let word := "a.if".toList
    let source := Source.ofRepl ""
    (∃ first value, IsOperandText source Char.utf8Size plain first value) ∧
      (∃ first value, IsOperandText source Char.utf8Size word first value) ∧
      IsIdentifier "x" ∧
      (ofTokens source (scanChars Char.utf8Size (plain ++ dividedBy "x"))).failures = [] ∧
      (ofTokens source (scanChars Char.utf8Size (word ++ dividedBy "x"))).failures ≠ [] := by
  intro plain word source
  have goesOn {text : List Char}
      (apart : (scanChars Char.utf8Size (text ++ [' ', 'x'])).map unplaced ≠
        (scanChars Char.utf8Size text).map unplaced) :
      ¬IsCutOff Char.utf8Size text :=
    fun isCutOff => apart (isCutOff ' ' ['x'] rfl (by decide))
  have isPlain : IsOperandText source Char.utf8Size plain _ _ :=
    ⟨by decide +kernel, rfl, trivial, goesOn (by decide +kernel)⟩
  have isWord : IsOperandText source Char.utf8Size word _ _ :=
    ⟨by decide +kernel, rfl, trivial, goesOn (by decide +kernel)⟩
  have isIdentifier : IsIdentifier "x" :=
    ⟨by decide, 'x', [], rfl, rfl, nofun⟩
  refine ⟨⟨_, _, isPlain⟩, ⟨_, _, isWord⟩, isIdentifier, ?_, ?_⟩
  · obtain ⟨slash, divisor, -, -, noFailure, -⟩ :=
      (slash_divides_only_behind_operand_end isPlain isIdentifier source).1
        ⟨⟨.identifier, "b", 1, 3, 2, 3, false, none⟩, by decide +kernel, rfl⟩
    exact noFailure
  · exact (slash_divides_only_behind_operand_end isWord isIdentifier source).2
      (by decide +kernel)

end Program

/-!
## What names a property behind a dot

Behind a dot stands a name, a reserved word, or a string with the letters of a reserved
word, which the parser takes for the word.  Any other string there is refused.
-/

namespace Parser

open Script (read)

/-! ### Neighbours -/

/-- Tokens that stand next to each other may do so, where all are passed. -/
theorem Cursor.Leads.mayPrecede
    {front back : List Token}
    {first second : Token}
    {stop : Cursor}
    (leads : (ofTokens (front ++ first :: second :: back)).Leads stop)
    (goesOn : ∀ token ∈ front ++ [first], token.kind ≠ .endOfInput)
    (isEnd : stop.current.kind = .endOfInput) :
    first.MayPrecede second := by
  induction front with
  | nil =>
      cases leads with
      | stay => exact absurd isEnd (goesOn first (by simp))
      | step mayPrecede _ => exact mayPrecede
  | cons token front inductionHypothesis =>
      cases leads with
      | stay =>
          rw [List.cons_append, Cursor.current_ofTokens] at isEnd
          exact absurd isEnd (goesOn token (by simp))
      | step _ leadsOn =>
          rw [List.cons_append, Cursor.advance_ofTokens token (by simp)] at leadsOn
          exact inductionHypothesis leadsOn fun other member => goesOn other (by simp_all)

end Parser

namespace Program

open Token ScriptEngine.Parser
open Script (read)

variable {source : Source} {width : Char → Nat} {text : List Char}

theorem holds_scanChars (width : Char → Nat) (text : List Char) :
    (Cursor.ofTokens (scanChars width text)).Holds Token.IsSpelled := by
  obtain ⟨before, last, isScan, -⟩ :=
    (scanFrom_cut width none [] (Nat.lt_succ_self text.length)).ends_once
  have some : scanChars width text ≠ [] := by
    rw [show scanChars width text = before ++ [last] from isScan]
    exact List.concat_ne_nil last before
  exact .ofTokens some fun token member => isSpelled_of_mem_scanChars member

/-- Whatever a text is read as, only names and words stand behind its dots. -/
theorem isNamedAccess_of_scanChars (source : Source) (width : Char → Nat) (text : List Char) :
    Statement.AllEverywhere Expression.IsNamedAccess
      (ofTokens source (scanChars width text)).program.statements := by
  refine Statement.faithful_allEverywhere (fun expression faithful => ?_)
    (areFaithful_of_scanChars source width text)
  cases expression with
  | member _ _ property => exact faithful.2.2.2
  | _ => exact trivial

/-- In a text that is read without failures tokens stand only where they may. -/
theorem mayPrecede_of_noFailure
    {front back : List Token}
    {first second : Token}
    (noFailure : (ofTokens source (scanChars width text)).failures = [])
    (isScan : scanChars width text = front ++ first :: second :: back)
    (goesOn : ∀ token ∈ front ++ [first], token.kind ≠ .endOfInput) :
    first.MayPrecede second := by
  have ends : Ends (scanChars width text) (ofTokens source (scanChars width text)) :=
    ends_of_cut (scanFrom_cut width none [] (Nat.lt_succ_self text.length))
  cases ends with
  | badly failure _ isFailure =>
      rw [isFailure] at noFailure
      cases noFailure
  | well last _ isEnd _ _ follows _ =>
      have leads := follows.leads (holds_scanChars width text)
      rw [isScan] at leads
      exact leads.mayPrecede goesOn isEnd

/-- Behind a dot a string is refused unless it has the letters of a reserved word. -/
theorem fails_behind_dot
    {string : Token}
    (noFailure : (ofTokens source (scanChars width text)).failures = [])
    (goesOn : ¬IsCutOff width text)
    (isString : string.kind = .string)
    (isScanned : string.IsScanned)
    (notReserved : TokenKind.isReserved string.literal = false)
    (rest : List Char)
    (other : Source) :
    (ofTokens other (scanChars width (text ++ '.' :: (string.writing ++ rest)))).failures ≠ [] := by
  intro noFailureBehind
  have kindOf {found : Token} (same : found.unplaced = string.unplaced) :
      found.kind = .string ∧ found.literal = string.literal :=
    ⟨(congrArg Token.kind same).trans isString,
      show found.unplaced.literal = string.unplaced.literal from same ▸ rfl⟩
  cases scanChars_behind_dot (legal_of_noFailure noFailure) goesOn isString isScanned rest with
  | dot tokens seen left behind dot found areTokens _ _ isScan isDot same =>
      have mayPrecede := mayPrecede_of_noFailure noFailureBehind isScan
        (List.forall_mem_append.mpr ⟨areTokens, by simp [isDot]⟩)
      obtain ⟨isKind, isLiteral⟩ := kindOf same
      cases mayPrecede.dot isDot with
      | name isName => exact nomatch isKind.symm.trans isName
      | word isWord =>
          have others : ∀ entry ∈ TokenKind.reservedWords, entry.2 ≠ .string := by decide
          exact others _ isWord isKind
      | quoted _ isReserved =>
          rw [isLiteral, notReserved] at isReserved
          cases isReserved
  | digits tokens seen behind before number found areTokens _ _ isScan isNumber same sameLine =>
      have mayPrecede := mayPrecede_of_noFailure noFailureBehind isScan
        (List.forall_mem_append.mpr ⟨areTokens, by simp [isNumber]⟩)
      have broken := mayPrecede.number isNumber (kindOf same).1
      rw [sameLine] at broken
      cases broken

/-- Behind a dot a string with the letters of a reserved word is read as a name is. -/
theorem reads_behind_dot
    {first string : Token}
    {value : Expression}
    (isText : IsOperandText source width text first value)
    (isFinal : ∀ token ∈ finalToken? width text, token.kind ≠ .semicolon ∧ token.kind ≠ .number)
    (isString : string.kind = .string)
    (isScanned : string.IsScanned)
    (isReserved : TokenKind.isReserved string.literal = true)
    (other : Source) :
    ∃ dot property, dot.kind = .dot ∧ property.unplaced = string.unplaced ∧
      (ofTokens other (scanChars width (text ++ '.' :: string.writing))).failures = [] ∧
      (ofTokens other (scanChars width (text ++ '.' :: string.writing))).program.statements =
        [.expression first (.member dot value property)] := by
  have behind := scanChars_behind_dot (legal_of_noFailure isText.noFailure) isText.goesOn isString
    isScanned []
  rw [← List.append_nil string.writing]
  cases behind with
  | digits tokens seen _ before _ _ _ isScan isNumber _ _ _ =>
      obtain ⟨last, isLast, -⟩ := tokensFrom_nil width (some .number) seen
      rw [isLast] at isScan
      have isBefore : finalToken? width text = some before := by
        unfold finalToken?
        rw [isScan, ← List.singleton_append, ← List.append_assoc, List.dropLast_concat,
          List.getLast?_concat]
      exact absurd isNumber (isFinal before isBefore).2
  | dot tokens seen left after dot property areTokens isBlank isScan isScanBehind isDot same =>
      obtain ⟨last, isLast, isEnd, -⟩ := tokensFrom_nil width (some .string) after
      rw [isLast] at isScanBehind
      have names : TokenKind.isReserved property.literal = true := by
        rw [show property.literal = string.literal from congrArg (·.literal) same]
        exact isReserved
      have yields (stop : Token) : Yields 16 (read (.operators .lowest value))
          (stop :: dot :: [property, last]) (.member dot value property) [property, last] := by
        refine (operators_take_unbroken (by rw [isDot]; decide) (by rw [isDot]; rfl) ?_
          (operators_stop _ [] (rank_le_of_lowest (by rw [isEnd]; rfl) .lowest))).weaken
            (Nat.le_add_left 2 14)
        unfold Parser.operator
        simp only [isDot]
        refine .next ?_
        rw [if_pos (by simp [names])]
        exact .advance (List.cons_ne_nil _ _) (.pure _)
      exact ⟨dot, property, isDot, same, isText.goes_on
        (fun token member => (isFinal token member).1) areTokens isBlank isScan isScanBehind
        (by rw [isDot]; nofun) (by rw [isDot]; nofun) isEnd yields other⟩

/--
Behind every dot of a program stands a name, a reserved word, or a string with the letters
of one.  Where more can be written behind a text that is read without failures, a dot and
any other string there make it fail; a string with the letters of a reserved word does not,
behind an operand that ends with neither a number nor a semicolon, but is read as the word.
-/
theorem property_behind_dot_is_name_or_spells_word
    (source other : Source)
    (bytes : List UInt8)
    (width : Char → Nat)
    (text : List Char) :
    Statement.AllEverywhere Expression.IsNamedAccess (parse source).program.statements ∧
    Statement.AllEverywhere Expression.IsNamedAccess
      (ofTokens source (scanBytes bytes)).program.statements ∧
    ((ofTokens source (scanChars width text)).failures = [] → ¬IsCutOff width text →
      ∀ string : Token, string.kind = .string → string.IsScanned →
        (TokenKind.isReserved string.literal = false → ∀ rest,
          (ofTokens other
            (scanChars width (text ++ '.' :: (string.writing ++ rest)))).failures ≠ []) ∧
        (TokenKind.isReserved string.literal = true → ∀ first value,
          (ofTokens source (scanChars width text)).program.statements =
            [.expression first value] →
          value.IsOperand →
          (∀ token ∈ finalToken? width text, token.kind ≠ .semicolon ∧ token.kind ≠ .number) →
          ∃ dot property, dot.kind = .dot ∧ property.unplaced = string.unplaced ∧
            (ofTokens other (scanChars width (text ++ '.' :: string.writing))).failures = [] ∧
            (ofTokens other (scanChars width (text ++ '.' :: string.writing))).program.statements =
              [.expression first (.member dot value property)])) := by
  refine ⟨isNamedAccess_of_scanChars source _ _, isNamedAccess_of_scanChars source _ _, ?_⟩
  intro noFailure goesOn string isString isScanned
  refine ⟨fun notReserved rest => ?_, fun isReserved first value isOne isOperand isFinal => ?_⟩
  · exact fails_behind_dot noFailure goesOn isString isScanned notReserved rest other
  · exact reads_behind_dot ⟨noFailure, isOne, isOperand, goesOn⟩ isFinal isString isScanned
      isReserved other

theorem property_behind_dot_is_name_or_spells_word_of_quoted :
    let source := Source.ofRepl "a"
    let word : Token := { Token.plain .string "if" with quote := some '"' }
    let other : Token := { Token.plain .string "no" with quote := some '"' }
    (ofTokens source (scanChars Char.utf8Size "a".toList)).failures = [] ∧
      ¬IsCutOff Char.utf8Size "a".toList ∧
      word.IsScanned ∧ other.IsScanned ∧
      (∀ rest, (ofTokens source (scanChars Char.utf8Size
        ("a".toList ++ '.' :: (other.writing ++ rest)))).failures ≠ []) ∧
      ∃ first value dot property, property.unplaced = word.unplaced ∧
        (ofTokens source (scanChars Char.utf8Size
          ("a".toList ++ '.' :: word.writing))).program.statements =
            [.expression first (.member dot value property)] := by
  intro source word other
  have noFailure : (ofTokens source (scanChars Char.utf8Size "a".toList)).failures = [] := by
    decide +kernel
  have goesOn : ¬IsCutOff Char.utf8Size "a".toList := by
    intro isCutOff
    have same := isCutOff ' ' ['b'] rfl (by decide)
    exact absurd same (by decide +kernel)
  have isWord : word.IsScanned := by decide +kernel
  have isOther : other.IsScanned := by decide +kernel
  have isOne : (ofTokens source (scanChars Char.utf8Size "a".toList)).program.statements =
      [.expression ⟨.identifier, "a", 1, 1, 0, 1, false, none⟩
        (.name ⟨.identifier, "a", 1, 1, 0, 1, false, none⟩)] := by
    rfl
  have all := (property_behind_dot_is_name_or_spells_word source source []
    Char.utf8Size "a".toList).2.2 noFailure goesOn
  refine ⟨noFailure, goesOn, isWord, isOther, ?_, ?_⟩
  · exact (all other rfl isOther).1 (by decide)
  · obtain ⟨dot, property, -, same, -, isRead⟩ := (all word rfl isWord).2 (by decide)
      _ _ isOne trivial (by decide +kernel)
    exact ⟨_, _, dot, property, same, isRead⟩

end Program

end ScriptEngine
