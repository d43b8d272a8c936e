import ScriptEngine.Proofs.Program.Showing

namespace ScriptEngine

/-!
# What the texts of functions and statements show

What is put together from texts that show their trees shows the tree: objects, functions,
declarations, clauses and statements.  A branch that another one closes takes no `else` in
between, so the one behind it is its own.
-/

variable {spelling tokens : List Token} {token : Token} {label : Option Token}

open Expression (IsPart listAll listMore textAll)
open Statement (Fills IsPassage)
open Token (isNaming_of_reserved)
open ScriptEngine.Parser (Spelled Rereads RereadsStatement OpensStatement kind_of_unplaced
  alike_of_unplaced)

/-! ## Tokens that differ in their places only -/

/-- Tokens that are spelled as what opens a statement open one. -/
theorem opensStatement_of_spelled
    (spelled : Spelled tokens spelling)
    (opens : OpensStatement spelling) :
    OpensStatement tokens := by
  obtain ⟨first, others, rfl, notBrace, unnamed⟩ := opens
  obtain ⟨found, rest, rfl, isFirst, -, spelledRest⟩ := spelled.eq_cons
  have isKind := kind_of_unplaced isFirst
  refine ⟨found, rest, rfl, by rwa [isKind], fun isFunction => ?_⟩
  obtain ⟨second, isSecond, notName⟩ := unnamed (by rwa [← isKind])
  obtain ⟨others, rfl⟩ := List.head?_eq_some_iff.mp isSecond
  obtain ⟨next, behind, rfl, isNext, -, -⟩ := spelledRest.eq_cons
  exact ⟨next, rfl, by rwa [kind_of_unplaced isNext]⟩

/-- What is spelled as a name, if there is one, is a name, if there is one. -/
theorem exists_option_of_spelled
    {name : Option Token}
    (isVariable : ∀ token ∈ name, token.IsVariable)
    (spelled : Spelled tokens (name.toList.map Token.unplaced)) :
    ∃ found : Option Token, tokens = found.toList ∧
      found.map Token.unplaced = name.map Token.unplaced ∧
      ∀ token ∈ found, token.kind = .identifier ∧ token.newlineBefore = false := by
  cases name with
  | none =>
      cases spelled.eq_nil
      exact ⟨none, rfl, rfl, by simp⟩
  | some token =>
      obtain ⟨found, rfl, isFound, sameLine⟩ := Spelled.eq_singleton spelled
      refine ⟨some found, rfl, congrArg some isFound, ?_⟩
      rintro _ ⟨⟩
      exact ⟨(kind_of_unplaced isFound).trans (isVariable token rfl).isName, sameLine⟩

/-- A word, what stands in parentheses behind it, and what follows. -/
theorem exists_governed_of_spelled
    {more : List Token}
    {mark : Token}
    (spelled : Spelled tokens (mark :: .plain .leftParen "(" ::
      (spelling ++ Token.plain .rightParen ")" :: more))) :
    ∃ word opening inner closing others, tokens = word :: opening :: (inner ++ closing :: others) ∧
      word.unplaced = mark ∧ opening.kind = .leftParen ∧ closing.kind = .rightParen ∧
      Spelled inner spelling ∧ Spelled others more := by
  obtain ⟨word, rest, rfl, isWord, -, spelledRest⟩ := spelled.eq_cons
  obtain ⟨opening, rest, rfl, isOpening, -, spelledRest⟩ := spelledRest.eq_cons
  obtain ⟨inner, rest, rfl, spelledInner, spelledRest⟩ := spelledRest.eq_append
  obtain ⟨closing, others, rfl, isClosing, -, spelledOthers⟩ := spelledRest.eq_cons
  exact ⟨word, opening, inner, closing, others, rfl, isWord, kind_of_unplaced isOpening,
    kind_of_unplaced isClosing, spelledInner, spelledOthers⟩

/-! ## Objects -/

namespace PropertyKey

/-- A key is scanned as a token that is read as the key. -/
structure Shows (key : PropertyKey) (token : Token) : Prop where
  scans : ∀ previous rest, Token.Follower rest →
    Token.Scans previous (key.text.toList ++ rest) [token.unplaced] (some token.kind) rest
  reread : ∀ found, found.unplaced = token.unplaced →
    ∃ value, Parser.RereadsKey found value ∧ value.outline = key.outline

/-- Every faithful key is shown by a token. -/
theorem exists_shows {key : PropertyKey} (faithful : key.IsFaithful) :
    ∃ token, key.Shows token := by
  cases key with
  | name token =>
      obtain ⟨notString, notNumber, isNaming⟩ := faithful
      refine ⟨token, fun previous rest follower => isNaming.scans previous follower,
        fun found isFound => ?_⟩
      obtain ⟨sameKind, sameLiteral, -⟩ := alike_of_unplaced isFound
      refine ⟨.name found, ⟨fun isBrace => ?_, fun follow => .current ?_⟩,
        by simp only [outline, isFound]⟩
      · have notMark := isNaming.notMark
        rw [← sameKind, isBrace] at notMark
        cases notMark
      · rw [sameKind, sameLiteral, if_neg notString, if_neg notNumber, if_pos isNaming.names]
        exact .pure _
  | string token quote =>
      obtain ⟨isString, isScanned, isQuote⟩ := faithful
      refine ⟨token, fun previous rest follower => ?_, fun found isFound => ?_⟩
      · rw [isString]
        exact (Expression.isWritten_string isString isScanned isQuote).scans previous rest
          (fun noFlag => absurd noFlag Bool.false_ne_true) follower
      · obtain ⟨sameKind, -, sameQuote⟩ := alike_of_unplaced isFound
        refine ⟨.string found quote, ⟨?_, fun follow => .current ?_⟩,
          by simp only [outline, isFound]⟩
        · rw [sameKind, isString]
          decide
        · rw [if_pos (sameKind.trans isString), Parser.quoteOf, sameQuote, isQuote]
          exact .pure _
  | number token value =>
      obtain ⟨isNumber, isScanned, isRead⟩ := faithful
      refine ⟨token, fun previous rest follower => ?_, fun found isFound => ?_⟩
      · exact (Expression.isWritten_unquoted (by rw [isNumber]; rfl) isScanned
          (by rw [isNumber]; decide)).scans previous rest
          (fun noFlag => absurd noFlag Bool.false_ne_true) follower
      · obtain ⟨sameKind, sameLiteral, -⟩ := alike_of_unplaced isFound
        refine ⟨.number found value, ⟨?_, fun follow => .current ?_⟩,
          by simp only [outline, isFound]⟩
        · rw [sameKind, isNumber]
          decide
        · have isKind := sameKind.trans isNumber
          rw [if_neg (by rw [isKind]; decide), if_pos isKind]
          refine .bind ?_ (.pure _)
          unfold Parser.numberValue
          rw [sameLiteral, isRead]
          exact .pure _

end PropertyKey

namespace Property

/-- The texts of properties are scanned as tokens that are read as the properties. -/
def AreShown (properties : List Property) : Prop :=
  ∃ spellings, List.Forall₂ IsPart ((texts properties).map String.toList) spellings ∧
    ∀ tokens, Spelled tokens (listAll spellings) →
      ∃ values, Parser.RereadsProperties tokens values ∧ outlines values = outlines properties

/-- No text shows no property. -/
theorem areShown_nil : AreShown [] := by
  refine ⟨[], .nil, fun tokens spelled => ?_⟩
  cases spelled.eq_nil
  exact ⟨[], Parser.rereadsProperties_nil, rfl⟩

/-- A property is shown in front of others. -/
theorem areShown_cons
    {key : PropertyKey}
    {value : Expression}
    {rest : List Property}
    (faithful : key.IsFaithful)
    (shown : value.IsShown)
    (shownRest : AreShown rest) :
    AreShown (.mk key value :: rest) := by
  obtain ⟨token, showsKey⟩ := PropertyKey.exists_shows faithful
  obtain ⟨spelling, shows⟩ := shown
  obtain ⟨spellings, parts, reread⟩ := shownRest
  have part : IsPart (Property.mk key value).text.toList
      (token.unplaced :: .plain .colon ":" :: spelling) := by
    rw [Property.text]
    simp only [String.toList_append, List.append_assoc]
    exact @Expression.isPart_given _ _ [token.unplaced] spelling (.plain .colon ":") [':']
      shows.written.isPart rfl fun previous rest =>
        (showsKey.scans previous _ (.mark _ (by decide))).trans
          (Token.scans_single (by decide) _ _)
  refine ⟨_, .cons part parts, fun tokens spelled => ?_⟩
  obtain ⟨front, behind, rfl, spelledFirst, spelledMore⟩ := Spelled.eq_append spelled
  obtain ⟨first, others, rfl, isFirst, -, spelledOthers⟩ := spelledFirst.eq_cons
  obtain ⟨colon, inner, rfl, isColon, -, spelledInner⟩ := spelledOthers.eq_cons
  obtain ⟨readKey, isKey, sameKey⟩ := showsKey.reread first isFirst
  obtain ⟨found, last, rereads, same⟩ := shows.reread inner spelledInner
  have within := (Expression.tightest_bounds value).1
  cases spellings with
  | nil =>
      cases spelledMore.eq_nil
      obtain ⟨values, -, sameRest⟩ := reread [] spelledMore
      have isNothing : rest = [] := by
        cases rest with
        | nil => rfl
        | cons => cases parts
      subst isNothing
      refine ⟨[.mk readKey found], ?_, by simp only [outlines, sameKey, same]⟩
      rw [List.append_nil]
      exact Parser.rereadsProperties_last isKey (kind_of_unplaced isColon) rereads within
  | cons second spellings =>
      obtain ⟨comma, more, rfl, isComma, -, spelledRest⟩ := spelledMore.eq_cons
      obtain ⟨values, rereadsRest, sameRest⟩ := reread more spelledRest
      exact ⟨_, Parser.rereadsProperties_cons isKey (kind_of_unplaced isColon) rereads within
        (kind_of_unplaced isComma) rereadsRest, by simp only [outlines, sameKey, same, sameRest]⟩

end Property

/-- An object is shown if its properties are. -/
theorem Expression.isShown_object
    {properties : List Property}
    (isMark : token.unplaced = .plain .leftBrace "\x7b")
    (shown : Property.AreShown properties) :
    (Expression.object token properties).IsShown := by
  obtain ⟨spellings, parts, reread⟩ := shown
  have written := @isWritten_object false _ _ parts
  refine ⟨.plain .leftBrace "\x7b" :: (listAll spellings ++ [Token.plain .rightBrace "\x7d"]), ?_,
    fun tokens spelled => ?_, nofun⟩
  · rw [text]
    simp only [String.toList_append, toList_separated, List.append_assoc]
    exact written
  · obtain ⟨mark, rest, rfl, isFound, -, spelledRest⟩ := spelled.eq_cons
    obtain ⟨inner, closing, rfl, spelledInner, isClosing⟩ := spelledRest.eq_concat
    obtain ⟨values, rereads, same⟩ := reread inner spelledInner
    exact ⟨_, closing, Parser.rereads_object rereads (kind_of_unplaced isFound)
      (kind_of_unplaced isClosing), by simp only [outline, isFound, isMark, same]⟩

/-! ## Statements that follow each other -/

namespace Statement

/-- The text of a statement is scanned as some tokens, and these are read as the statement. -/
structure Shows (statement : Statement) (spelling : List Token) : Prop where
  passage : IsPassage statement.startsRegex statement.text.toList spelling
  reread : ∀ tokens, Spelled tokens spelling → ∃ value last,
    RereadsStatement tokens last value statement.isOpen ∧ value.outline = statement.outline

/-- What does not start with a regular expression may stand behind a parenthesis. -/
theorem Shows.behind
    {statement : Statement}
    (shows : statement.Shows spelling)
    (noRegex : statement.startsRegex = false) :
    IsPassage false statement.text.toList spelling := by
  rw [← noRegex]
  exact shows.passage

/-- The text of a statement shows the statement. -/
def IsShown (statement : Statement) : Prop := ∃ spelling, statement.Shows spelling

/--
The texts of statements are scanned as some tokens, whether blanks stand behind them or in
front, and these are read as the statements.
-/
structure ShowAll (statements : List Statement) (spelling : List Token) : Prop where
  spaced : IsPassage true (String.join (spaced statements)).toList spelling
  leading : IsPassage true (String.join (leading statements)).toList spelling
  reread : ∀ task stops, Parser.ReadsBodies task stops → ∀ tokens, Spelled tokens spelling →
    ∃ values, Parser.RereadsBody task stops tokens values ∧ outlines values = outlines statements

/-- The texts of statements show the statements. -/
def AreShown (statements : List Statement) : Prop := ∃ spelling, ShowAll statements spelling

/-- No text shows no statement. -/
theorem areShown_nil : AreShown [] := by
  refine ⟨[], Statement.isPassage_nothing, Statement.isPassage_nothing,
    fun task stops readsBodies tokens spelled => ?_⟩
  cases spelled.eq_nil
  exact ⟨[], Parser.rereadsBody_nil readsBodies, rfl⟩

/-- A statement is shown in front of others. -/
theorem areShown_cons
    {first : Statement}
    {rest : List Statement}
    (shown : first.IsShown)
    (shownRest : AreShown rest) :
    AreShown (first :: rest) := by
  obtain ⟨spelling, shows⟩ := shown
  obtain ⟨more, showsRest⟩ := shownRest
  refine ⟨spelling ++ more, ?_, ?_, fun task stops readsBodies tokens spelled => ?_⟩
  · have passage := isPassage_append shows.passage.relax showsRest.spaced
    rw [Statement.spaced, String.join_cons]
    simp only [String.toList_append, List.append_assoc]
    exact passage
  · have passage := isPassage_behind shows.passage.relax showsRest.leading
    rw [Statement.leading, String.join_cons]
    simp only [String.toList_append, List.append_assoc]
    exact passage
  · obtain ⟨front, behind, rfl, spelledFirst, spelledRest⟩ := spelled.eq_append
    obtain ⟨value, last, rereads, same⟩ := shows.reread front spelledFirst
    obtain ⟨values, rereadsRest, sameRest⟩ :=
      showsRest.reread task stops readsBodies behind spelledRest
    exact ⟨value :: values, Parser.rereadsBody_cons readsBodies rereads rereadsRest,
      by simp only [outlines, same, sameRest]⟩

end Statement

/-! ## Functions -/

namespace FunctionLiteral

/-- A function is scanned up to its closing brace, and its tokens are read as the function. -/
structure Shows (literal : FunctionLiteral) (text : List Char) (spelling : List Token) : Prop where
  isText : literal.text.toList = text ++ ['\x7d']
  starts : ∃ others, text = 'f' :: others
  leads : ∀ previous, ∃ last, Token.Leads previous text spelling last
  opens : literal.name.isSome = false →
    OpensStatement (spelling ++ [Token.plain .rightBrace "\x7d"])
  reread : ∀ tokens, Spelled tokens (spelling ++ [Token.plain .rightBrace "\x7d"]) →
    ∃ value last, value.outline = literal.outline ∧ Rereads tokens last (.function value) 13 ∧
      (literal.name.isSome = true →
        RereadsStatement tokens last (.function value.token value) false)

section

variable {name : Option Token} {parameters : List Token} {body : List Statement}

/-- The parts of the text of a function. -/
theorem toList_text :
    (FunctionLiteral.mk token name parameters body).text.toList =
      "function".toList ++ ((match name with
        | some token => " " ++ token.literal
        | none => "").toList ++
        '(' :: (textAll ((parameters.map Token.literal).map String.toList) ++
          ')' :: ' ' :: '\x7b' :: ' ' :: (String.join (Statement.spaced body)).toList)) ++
        ['\x7d'] := by
  have isOpening : "(".toList = ['('] := rfl
  have isMiddle : ") \x7b ".toList = [')', ' ', '\x7b', ' '] := rfl
  have isClosing : "\x7d".toList = ['\x7d'] := rfl
  unfold FunctionLiteral.text
  cases name with
  | none | some name =>
      simp only [String.toList_append, Expression.toList_separated, List.append_assoc, isOpening,
        isMiddle, isClosing, List.cons_append, List.nil_append]

/-- A function is shown if its body is. -/
theorem exists_shows
    (isMark : token.unplaced = .plain .functionWord "function")
    (isName : ∀ token ∈ name, token.IsVariable)
    (areNames : ∀ parameter ∈ parameters, parameter.IsVariable)
    (shown : Statement.AreShown body) :
    ∃ text spelling, (FunctionLiteral.mk token name parameters body).Shows text spelling := by
  obtain ⟨more, showAll⟩ := shown
  have leads :=
    Expression.leads_function isMark (fun token member => (isName token member).isNaming)
      (fun parameter member => (areNames parameter member).isNaming) showAll.spaced
  refine ⟨_, _, toList_text, ⟨_, rfl⟩, leads, fun unnamed => ?_, fun tokens spelled => ?_⟩
  · obtain rfl : name = none :=
      Option.isNone_iff_eq_none.mp (Option.isSome_eq_false_iff.mp unnamed)
    rw [isMark]
    exact ⟨_, _, rfl, nofun, fun _ => ⟨_, rfl, nofun⟩⟩
  · obtain ⟨front, ending, rfl, spelledFront, isEnding⟩ := spelled.eq_concat
    obtain ⟨word, rest, rfl, isWord, -, spelledRest⟩ := spelledFront.eq_cons
    obtain ⟨names, rest, rfl, spelledName, spelledRest⟩ := spelledRest.eq_append
    obtain ⟨opening, rest, rfl, isOpening, -, spelledRest⟩ := spelledRest.eq_cons
    obtain ⟨inner, rest, rfl, spelledInner, spelledRest⟩ := spelledRest.eq_append
    obtain ⟨closing, rest, rfl, isClosing, -, spelledRest⟩ := spelledRest.eq_cons
    obtain ⟨brace, others, rfl, isBrace, -, spelledOthers⟩ := spelledRest.eq_cons
    obtain ⟨found, rfl, sameName, isFound⟩ := exists_option_of_spelled isName spelledName
    obtain ⟨values, sameParameters, rereadsParameters⟩ := Parser.rereadsParameters_of_names
      (fun parameter member => (areNames parameter member).isName) spelledInner
    obtain ⟨statements, rereadsBody, sameBody⟩ :=
      showAll.reread _ _ Parser.readsBodies_block others spelledOthers
    have isKind : ∀ token ∈ found, token.kind = .identifier := fun token member =>
      (isFound token member).1
    have wordKind : word.kind = .functionWord :=
      (kind_of_unplaced isWord).trans (kind_of_unplaced isMark)
    simp only [List.append_assoc, List.cons_append]
    refine ⟨.mk word found values statements, ending, ?_, ?_, fun isNamed => ?_⟩
    · simp only [outline, isWord, isMark, sameName, sameParameters, sameBody]
    · exact Parser.rereads_function isKind rereadsParameters rereadsBody.block wordKind
        (kind_of_unplaced isOpening) (kind_of_unplaced isClosing) (kind_of_unplaced isBrace)
        (kind_of_unplaced isEnding)
    · refine Parser.rereads_functionStatement isKind rereadsParameters rereadsBody.block wordKind
        (kind_of_unplaced isOpening) (kind_of_unplaced isClosing) (kind_of_unplaced isBrace)
        (kind_of_unplaced isEnding) ?_
      have isSame := congrArg Option.isSome sameName
      rw [Option.isSome_map, Option.isSome_map] at isSame
      rw [isSame]
      exact isNamed

end

end FunctionLiteral

/-- A function is shown as an expression. -/
theorem Expression.isShown_function
    {literal : FunctionLiteral}
    {text : List Char}
    (shows : literal.Shows text spelling) :
    (Expression.function literal).IsShown := by
  obtain ⟨others, rfl⟩ := shows.starts
  refine ⟨spelling ++ [Token.plain .rightBrace "\x7d"], ?_, fun tokens spelled => ?_, ?_⟩
  · rw [Expression.text, shows.isText]
    exact isWritten_closed rfl shows.leads
  · obtain ⟨value, last, same, rereads, -⟩ := shows.reread tokens spelled
    exact ⟨_, last, rereads, by simp only [outline, same]⟩
  · exact shows.opens

/-! ## Simple statements -/

namespace Statement

/-- A function with a name is shown as a statement. -/
theorem isShown_function
    {literal : FunctionLiteral}
    {text : List Char}
    (isSame : token.unplaced = literal.token.unplaced)
    (isNamed : literal.name.isSome = true)
    (shows : literal.Shows text spelling) :
    (Statement.function token literal).IsShown := by
  refine ⟨spelling ++ [Token.plain .rightBrace "\x7d"], ?_, fun tokens spelled => ?_⟩
  · rw [Statement.text, shows.isText]
    exact isPassage_closed shows.leads
  · obtain ⟨value, last, same, -, rereads⟩ := shows.reread tokens spelled
    refine ⟨_, last, rereads isNamed, ?_⟩
    rw [outline_function rfl, outline_function isSame, same]

/-- A statement starts as an expression only if it opens no block or function. -/
theorem isShown_expression
    {value : Expression}
    (shown : value.IsShown)
    (notBlock : value.front.opensBlock = false) :
    (Statement.expression token value).IsShown := by
  obtain ⟨spelling, shows⟩ := shown
  refine ⟨spelling ++ [Token.plain .semicolon ";"], ?_, fun tokens spelled => ?_⟩
  · rw [Statement.text, String.toList_append]
    exact isPassage_expression shows.written
  · obtain ⟨inner, ending, rfl, spelledInner, isEnding⟩ := spelled.eq_concat
    obtain ⟨found, last, rereads, same⟩ := shows.reread inner spelledInner
    obtain ⟨start, rereadsAll⟩ := Parser.rereads_evaluated rereads
      (Expression.tightest_bounds value).1
      (opensStatement_of_spelled spelledInner (shows.opens notBlock)) (kind_of_unplaced isEnding)
    exact ⟨_, ending, rereadsAll, by simp only [outline, same]⟩

/-- A lone semicolon is shown. -/
theorem isShown_empty (isMark : token.unplaced = .plain .semicolon ";") :
    (Statement.empty token).IsShown := by
  refine ⟨[.plain .semicolon ";"], ?_, fun tokens spelled => ?_⟩
  · rw [Statement.text]
    exact isPassage_empty
  · obtain ⟨found, rfl, isFound, -⟩ := spelled.eq_singleton
    exact ⟨_, found, Parser.rereads_empty (kind_of_unplaced isFound),
      by simp only [outline, isFound, isMark]⟩

/-- A return without a value is shown. -/
theorem isShown_giveBack_nothing (isMark : token.unplaced = .plain .returnWord "return") :
    (Statement.giveBack token none).IsShown := by
  have isWord : (Token.plain .returnWord "return").IsNaming := isNaming_of_reserved (by decide)
  refine ⟨[.plain .returnWord "return", .plain .semicolon ";"], ?_, fun tokens spelled => ?_⟩
  · rw [Statement.text]
    exact isPassage_bare isWord
  · obtain ⟨word, rest, rfl, isFound, -, spelledRest⟩ := spelled.eq_cons
    obtain ⟨ending, rfl, isEnding, -⟩ := spelledRest.eq_singleton
    exact ⟨_, ending, Parser.rereads_giveBack_nothing (kind_of_unplaced isFound)
      (kind_of_unplaced isEnding),
      by simp only [outline, isFound, isMark, Expression.outlineOption]⟩

/-- The value of a return stands on its line. -/
theorem isShown_giveBack
    {value : Expression}
    (isMark : token.unplaced = .plain .returnWord "return")
    (shown : value.IsShown) :
    (Statement.giveBack token (some value)).IsShown := by
  obtain ⟨spelling, shows⟩ := shown
  have isWord : (Token.plain .returnWord "return").IsNaming := isNaming_of_reserved (by decide)
  have passage := @isPassage_worded false _ _ _ isWord rfl
    (fills_part (by decide) (by decide) shows.written.isPart)
  refine ⟨.plain .returnWord "return" :: (spelling ++ [Token.plain .semicolon ";"]), ?_,
    fun tokens spelled => ?_⟩
  · rw [Statement.text]
    simp only [String.toList_append, List.append_assoc]
    exact passage
  · obtain ⟨word, rest, rfl, isFound, -, spelledRest⟩ := spelled.eq_cons
    obtain ⟨inner, ending, rfl, spelledInner, isEnding⟩ := spelledRest.eq_concat
    obtain ⟨found, last, rereads, same⟩ := shows.reread inner spelledInner
    have within := (Expression.tightest_bounds value).1
    exact ⟨_, ending, Parser.rereads_giveBack rereads (by omega) spelledInner.sameLine
      (kind_of_unplaced isFound) (kind_of_unplaced isEnding),
      by simp only [outline, isFound, isMark, Expression.outlineOption, same]⟩

/-- A statement that leaves a loop or goes on with it, and names the loop or not. -/
theorem isShown_jump
    {statement : Statement}
    (isWord : token.IsNaming)
    (opens : Token.allowsRegex (some token.kind) = true)
    (areNames : ∀ name ∈ label, name.IsVariable)
    (isText : statement.text.toList = token.literal.toList ++ (match label with
      | some name => ' ' :: (name.literal.toList ++ [';'])
      | none => [';']))
    (reads : ∀ (word : Token) (found : Option Token) (ending : Token),
      word.unplaced = token.unplaced →
      found.map Token.unplaced = label.map Token.unplaced →
      (∀ name ∈ found, name.kind = .identifier ∧ name.newlineBefore = false) →
      ending.kind = .semicolon →
      ∃ value, RereadsStatement (word :: (found.toList ++ [ending])) ending value statement.isOpen ∧
        value.outline = statement.outline) :
    statement.IsShown := by
  refine ⟨token.unplaced :: (label.toList.map Token.unplaced ++ [Token.plain .semicolon ";"]), ?_,
    fun tokens spelled => ?_⟩
  · rw [isText]
    cases label with
    | none => exact isPassage_bare isWord
    | some name =>
        exact isPassage_worded isWord opens (fills_part (by decide) (by decide)
          (Expression.isPart_name (areNames name rfl).isNaming))
  · obtain ⟨word, rest, rfl, isFound, -, spelledRest⟩ := spelled.eq_cons
    obtain ⟨names, ending, rfl, spelledNames, isEnding⟩ := spelledRest.eq_concat
    obtain ⟨found, rfl, sameLabel, areNames⟩ := exists_option_of_spelled areNames spelledNames
    obtain ⟨value, rereads, same⟩ := reads word found ending isFound sameLabel areNames
      (kind_of_unplaced isEnding)
    exact ⟨value, ending, rereads, same⟩

/-- A break is shown. -/
theorem isShown_leave
    (isMark : token.unplaced = .plain .breakWord "break")
    (areNames : ∀ name ∈ label, name.IsVariable) :
    (Statement.leave token label).IsShown := by
  refine @isShown_jump (.plain .breakWord "break") label _ (isNaming_of_reserved (by decide)) rfl
    areNames ?_ fun word found ending isFound sameLabel areNames ends => ?_
  · cases label <;> rw [Statement.text] <;> simp only [String.toList_append, List.append_assoc] <;>
      rfl
  · exact ⟨_, Parser.rereads_jump areNames (.inl ⟨kind_of_unplaced isFound, rfl⟩) ends,
      by simp only [outline, isMark, isFound, sameLabel]; rfl⟩

/-- A continue is shown. -/
theorem isShown_again
    (isMark : token.unplaced = .plain .continueWord "continue")
    (areNames : ∀ name ∈ label, name.IsVariable) :
    (Statement.again token label).IsShown := by
  refine @isShown_jump (.plain .continueWord "continue") label _ (isNaming_of_reserved (by decide))
    rfl areNames ?_ fun word found ending isFound sameLabel areNames ends => ?_
  · cases label <;> rw [Statement.text] <;> simp only [String.toList_append, List.append_assoc] <;>
      rfl
  · exact ⟨_, Parser.rereads_jump areNames (.inr ⟨kind_of_unplaced isFound, rfl⟩) ends,
      by simp only [outline, isMark, isFound, sameLabel]; rfl⟩

end Statement

/-! ## Declarations -/

namespace Declarator

/-- The text of a declared variable is scanned as tokens that are read as the variable. -/
def IsShown (name : Token) (value : Option Expression) : Prop :=
  ∃ spelling, IsPart (Declarator.mk name value).text.toList spelling ∧
    ∀ tokens, Spelled tokens spelling → ∃ found given last,
      Parser.RereadsDeclarator tokens last found given ∧ found.unplaced = name.unplaced ∧
        Expression.outlineOption given = Expression.outlineOption value

/-- The texts of declared variables are scanned as tokens that are read as the variables. -/
def AreShown (declarators : List Declarator) : Prop :=
  ∃ spellings, List.Forall₂ IsPart ((texts declarators).map String.toList) spellings ∧
    ∀ tokens, Spelled tokens (listAll spellings) → ∃ values last,
      Parser.RereadsDeclarators tokens last values ∧ outlines values = outlines declarators

section

variable {name : Token} {value : Option Expression} {rest : List Declarator}

/-- A name alone declares a variable. -/
theorem isShown_bare (isVariable : name.IsVariable) : IsShown name none := by
  refine ⟨[name.unplaced], ?_, fun tokens spelled => ?_⟩
  · rw [Declarator.text]
    exact Expression.isPart_name isVariable.isNaming
  · obtain ⟨found, rfl, isFound, -⟩ := spelled.eq_singleton
    exact ⟨found, none, found,
      Parser.rereadsDeclarator_bare ((kind_of_unplaced isFound).trans isVariable.isName), isFound,
      rfl⟩

/-- A name with a value declares a variable. -/
theorem isShown_given {value : Expression} (isVariable : name.IsVariable) (shown : value.IsShown) :
    IsShown name (some value) := by
  obtain ⟨spelling, shows⟩ := shown
  refine ⟨name.unplaced :: .plain .assign "=" :: spelling, ?_, fun tokens spelled => ?_⟩
  · rw [Declarator.text]
    simp only [String.toList_append, List.append_assoc]
    have sign (rest : List Char) : Token.Scans (some name.kind) (' ' :: '=' :: ' ' :: rest)
        [.plain .assign "="] (some .assign) (' ' :: rest) :=
      (@Token.Scans.token _ _ (.plain .assign "=") rfl rfl nofun).blank
    exact @Expression.isPart_given _ _ [name.unplaced] spelling (.plain .assign "=") [' ', '=']
      shows.written.isPart rfl fun previous rest =>
        (isVariable.isNaming.scans previous (.mark _ (by decide))).trans (sign rest)
  · obtain ⟨found, rest, rfl, isFound, -, spelledRest⟩ := spelled.eq_cons
    obtain ⟨sign, inner, rfl, isSign, -, spelledInner⟩ := spelledRest.eq_cons
    obtain ⟨given, last, rereads, same⟩ := shows.reread inner spelledInner
    exact ⟨found, some given, last, Parser.rereadsDeclarator_given
      ((kind_of_unplaced isFound).trans isVariable.isName) (kind_of_unplaced isSign) rereads
      (Expression.tightest_bounds value).1, isFound, by simp only [Expression.outlineOption, same]⟩

/-- The last declared variable. -/
theorem areShown_last (shown : IsShown name value) : AreShown [.mk name value] := by
  obtain ⟨spelling, part, reread⟩ := shown
  refine ⟨[spelling], .cons part .nil, fun tokens spelled => ?_⟩
  rw [listAll, listMore, List.append_nil] at spelled
  obtain ⟨found, given, last, rereads, isFound, same⟩ := reread tokens spelled
  exact ⟨_, last, Parser.rereadsDeclarators_last rereads, by simp only [outlines, isFound, same]⟩

/-- A variable is shown in front of others. -/
theorem areShown_cons (shown : IsShown name value) (shownRest : AreShown rest) :
    AreShown (.mk name value :: rest) := by
  obtain ⟨spelling, part, reread⟩ := shown
  obtain ⟨spellings, parts, rereadRest⟩ := shownRest
  refine ⟨spelling :: spellings, .cons part parts, fun tokens spelled => ?_⟩
  obtain ⟨front, behind, rfl, spelledFirst, spelledMore⟩ := Spelled.eq_append spelled
  obtain ⟨found, given, last, rereads, isFound, same⟩ := reread front spelledFirst
  cases spellings with
  | nil =>
      -- There is always a variable that is declared.
      obtain ⟨values, final, rereadsRest, -⟩ := rereadRest [] ⟨rfl, by simp⟩
      obtain ⟨_, _, isNothing, -⟩ := rereadsRest.starts
      cases isNothing
  | cons second spellings =>
      obtain ⟨comma, more, rfl, isComma, -, spelledRest⟩ := spelledMore.eq_cons
      obtain ⟨values, final, rereadsRest, sameRest⟩ := rereadRest more spelledRest
      exact ⟨_, final,
        Parser.rereadsDeclarators_cons rereads (kind_of_unplaced isComma) rereadsRest,
        by simp only [outlines, isFound, same, sameRest]⟩

end

end Declarator

namespace Statement

/-- A declaration is shown if its variables are. -/
theorem isShown_declare
    {declarators : List Declarator}
    (isMark : token.unplaced = .plain .varWord "var")
    (shown : Declarator.AreShown declarators) :
    (Statement.declare token declarators).IsShown := by
  obtain ⟨spellings, parts, reread⟩ := shown
  have isWord : (Token.plain .varWord "var").IsNaming := isNaming_of_reserved (by decide)
  have passage := @isPassage_worded false _ _ _ isWord rfl (fills_all (by decide) (by decide) parts)
  refine ⟨.plain .varWord "var" :: (listAll spellings ++ [Token.plain .semicolon ";"]), ?_,
    fun tokens spelled => ?_⟩
  · rw [Statement.text]
    simp only [String.toList_append, Expression.toList_separated, List.append_assoc]
    exact passage
  · obtain ⟨word, rest, rfl, isFound, -, spelledRest⟩ := spelled.eq_cons
    obtain ⟨inner, ending, rfl, spelledInner, isEnding⟩ := spelledRest.eq_concat
    obtain ⟨values, last, rereads, same⟩ := reread inner spelledInner
    exact ⟨_, ending, Parser.rereads_declare rereads (kind_of_unplaced isFound)
      (kind_of_unplaced isEnding), by simp only [outline, isFound, isMark, same]⟩

/-! ## Blocks, branches and loops -/

/-- A block is shown if its statements are. -/
theorem isShown_block
    {body : List Statement}
    (isMark : token.unplaced = .plain .leftBrace "\x7b")
    (shown : AreShown body) :
    (Statement.block token body).IsShown := by
  obtain ⟨spelling, showAll⟩ := shown
  have passage := @isPassage_closed false _ _ (leads_braced showAll.spaced)
  refine ⟨.plain .leftBrace "\x7b" :: (spelling ++ [Token.plain .rightBrace "\x7d"]), ?_,
    fun tokens spelled => ?_⟩
  · rw [Statement.text]
    simp only [String.toList_append, List.append_assoc]
    exact passage
  · obtain ⟨opening, rest, rfl, isFound, -, spelledRest⟩ := spelled.eq_cons
    obtain ⟨inner, closing, rfl, spelledInner, isClosing⟩ := spelledRest.eq_concat
    obtain ⟨values, rereads, same⟩ := showAll.reread _ _ Parser.readsBodies_block inner spelledInner
    exact ⟨_, closing, Parser.rereads_block rereads.block (kind_of_unplaced isFound)
      (kind_of_unplaced isClosing), by simp only [outline, isFound, isMark, same]⟩

/-- A labeled statement is shown if the statement is. -/
theorem isShown_labeled {body : Statement} (isVariable : token.IsVariable) (shown : body.IsShown) :
    (Statement.labeled token body).IsShown := by
  obtain ⟨spelling, shows⟩ := shown
  refine ⟨token.unplaced :: .plain .colon ":" :: spelling, ?_, fun tokens spelled => ?_⟩
  · rw [Statement.text]
    simp only [String.toList_append, List.append_assoc]
    exact isPassage_labeled isVariable.isNaming shows.passage.relax
  · obtain ⟨label, rest, rfl, isLabel, -, spelledRest⟩ := spelled.eq_cons
    obtain ⟨colon, inner, rfl, isColon, -, spelledInner⟩ := spelledRest.eq_cons
    obtain ⟨value, last, rereads, same⟩ := shows.reread inner spelledInner
    exact ⟨_, last,
      Parser.rereads_labeled rereads ((kind_of_unplaced isLabel).trans isVariable.isName)
      (kind_of_unplaced isColon), by simp only [outline, isLabel, same]⟩

section

variable {condition : Expression} {body : Statement} (shown : condition.IsShown)
  (shownBody : body.IsShown) (noRegex : body.startsRegex = false)

include shown shownBody noRegex

/-- A loop is shown if its condition and its body are. -/
theorem isShown_while (isMark : token.unplaced = .plain .whileWord "while") :
    (Statement.whileLoop token condition body).IsShown := by
  obtain ⟨spelling, shows⟩ := shown
  obtain ⟨more, showsBody⟩ := shownBody
  have isWord : (Token.plain .whileWord "while").IsNaming := isNaming_of_reserved (by decide)
  have passage := @isPassage_governed false _ _ _ _ _ isWord
    (fills_part (by decide) (by decide) shows.written.isPart) (showsBody.behind noRegex)
  refine ⟨.plain .whileWord "while" :: .plain .leftParen "(" ::
    (spelling ++ Token.plain .rightParen ")" :: more), ?_, fun tokens spelled => ?_⟩
  · rw [Statement.text]
    simp only [String.toList_append, List.append_assoc]
    exact passage
  · obtain ⟨word, opening, inner, closing, others, rfl, isFound, opens, closes, spelledInner,
      spelledOthers⟩ := exists_governed_of_spelled spelled
    obtain ⟨tested, final, rereads, same⟩ := shows.reread inner spelledInner
    obtain ⟨value, last, rereadsBody, sameBody⟩ := showsBody.reread others spelledOthers
    have within := (Expression.tightest_bounds condition).1
    exact ⟨_, last, Parser.rereads_while rereads (by omega) opens closes rereadsBody
      (kind_of_unplaced isFound), by simp only [outline, isFound, isMark, same, sameBody]⟩

/-- A branch that nothing follows is shown. -/
theorem isShown_branch (isMark : token.unplaced = .plain .ifWord "if") :
    (Statement.branch token condition body none).IsShown := by
  obtain ⟨spelling, shows⟩ := shown
  obtain ⟨more, showsBody⟩ := shownBody
  have isWord : (Token.plain .ifWord "if").IsNaming := isNaming_of_reserved (by decide)
  have passage := @isPassage_governed false _ _ _ _ _ isWord
    (fills_part (by decide) (by decide) shows.written.isPart) (showsBody.behind noRegex)
  refine ⟨.plain .ifWord "if" :: .plain .leftParen "(" ::
    (spelling ++ Token.plain .rightParen ")" :: more), ?_, fun tokens spelled => ?_⟩
  · rw [Statement.text]
    simp only [String.toList_append, List.append_assoc]
    exact passage
  · obtain ⟨word, opening, inner, closing, others, rfl, isFound, opens, closes, spelledInner,
      spelledOthers⟩ := exists_governed_of_spelled spelled
    obtain ⟨tested, final, rereads, same⟩ := shows.reread inner spelledInner
    obtain ⟨value, last, rereadsBody, sameBody⟩ := showsBody.reread others spelledOthers
    have within := (Expression.tightest_bounds condition).1
    exact ⟨_, last, Parser.rereads_branch rereads (by omega) opens closes rereadsBody
      (kind_of_unplaced isFound),
      by simp only [outline, isFound, isMark, same, sameBody, outlineOption]⟩

/-- The first part of a branch with an `else` is closed. -/
theorem isShown_else
    {alternative : Statement}
    (isMark : token.unplaced = .plain .ifWord "if")
    (closed : body.isOpen = false)
    (shownOther : alternative.IsShown) :
    (Statement.branch token condition body (some alternative)).IsShown := by
  obtain ⟨spelling, shows⟩ := shown
  obtain ⟨more, showsBody⟩ := shownBody
  obtain ⟨final, showsOther⟩ := shownOther
  have isWord : (Token.plain .ifWord "if").IsNaming := isNaming_of_reserved (by decide)
  have passage := @isPassage_governed false _ _ _ _ _ isWord
    (fills_part (by decide) (by decide) shows.written.isPart)
    (isPassage_else (showsBody.behind noRegex) showsOther.passage.relax)
  refine ⟨.plain .ifWord "if" :: .plain .leftParen "(" ::
    (spelling ++ Token.plain .rightParen ")" ::
      (more ++ Token.plain .elseWord "else" :: final)), ?_,
    fun tokens spelled => ?_⟩
  · rw [Statement.text]
    simp only [String.toList_append, List.append_assoc]
    exact passage
  · obtain ⟨word, opening, inner, closing, rest, rfl, isFound, opens, closes, spelledInner,
      spelledRest⟩ := exists_governed_of_spelled spelled
    obtain ⟨others, rest, rfl, spelledOthers, spelledRest⟩ := spelledRest.eq_append
    obtain ⟨elseWord, behind, rfl, isElse, -, spelledBehind⟩ := spelledRest.eq_cons
    obtain ⟨tested, _, rereads, same⟩ := shows.reread inner spelledInner
    obtain ⟨value, _, rereadsBody, sameBody⟩ := showsBody.reread others spelledOthers
    obtain ⟨otherwise, last, rereadsOther, sameOther⟩ := showsOther.reread behind spelledBehind
    rw [closed] at rereadsBody
    have within := (Expression.tightest_bounds condition).1
    exact ⟨_, last, Parser.rereads_else rereads (by omega) opens closes rereadsBody rereadsOther
      (kind_of_unplaced isFound) (kind_of_unplaced isElse),
      by simp only [outline, isFound, isMark, same, sameBody, outlineOption, sameOther]⟩

end

section

variable {name : Token} {subject : Expression} {body : Statement} {declares : Bool}

/-- The head of a loop over keys. -/
theorem fills_keys
    (isName : name.IsNaming)
    (part : IsPart subject.text.toList spelling) :
    Fills ')' (.plain .rightParen ")")
      (((if declares then "var " else "") ++ name.literal ++ " in " ++ subject.text).toList)
      ((if declares then [Token.plain .varWord "var"] else []) ++
        name.unplaced :: .plain .inWord "in" :: spelling) := by
  have isWord : (Token.plain .varWord "var").IsNaming := isNaming_of_reserved (by decide)
  have fills := fills_in
    (@fills_part ')' (.plain .rightParen ")") (by decide) _ _ (by decide) part) isName
  simp only [String.toList_append, List.append_assoc]
  cases declares with
  | false => exact fills
  | true => exact fills_worded fills isWord rfl

/-- A loop over keys is shown, whether it declares its variable or not. -/
theorem isShown_forIn
    (isMark : token.unplaced = .plain .forWord "for")
    (isVariable : name.IsVariable)
    (shown : subject.IsShown)
    (shownBody : body.IsShown)
    (noRegex : body.startsRegex = false) :
    (Statement.forIn token name declares subject body).IsShown := by
  obtain ⟨spelling, shows⟩ := shown
  obtain ⟨more, showsBody⟩ := shownBody
  have isWord : (Token.plain .forWord "for").IsNaming := isNaming_of_reserved (by decide)
  have passage := @isPassage_governed false _ _ _ _ _ isWord
    (@fills_keys _ name subject declares isVariable.isNaming shows.written.isPart)
    (showsBody.behind noRegex)
  refine ⟨.plain .forWord "for" :: .plain .leftParen "(" ::
    ((if declares then [Token.plain .varWord "var"] else []) ++
      name.unplaced :: .plain .inWord "in" :: spelling ++ Token.plain .rightParen ")" :: more), ?_,
    fun tokens spelled => ?_⟩
  · rw [Statement.text]
    simp only [String.toList_append, List.append_assoc] at passage ⊢
    exact passage
  · obtain ⟨word, opening, heads, closing, others, rfl, isFound, opens, closes, spelledHeads,
      spelledOthers⟩ := exists_governed_of_spelled spelled
    obtain ⟨vars, rest, rfl, spelledVars, spelledRest⟩ := spelledHeads.eq_append
    obtain ⟨found, rest, rfl, isName, -, spelledRest⟩ := spelledRest.eq_cons
    obtain ⟨inWord, inner, rfl, isIn, -, spelledInner⟩ := spelledRest.eq_cons
    obtain ⟨read, final, rereads, same⟩ := shows.reread inner spelledInner
    obtain ⟨value, last, rereadsBody, sameBody⟩ := showsBody.reread others spelledOthers
    have within := (Expression.tightest_bounds subject).1
    have sameKind := (kind_of_unplaced isName).trans isVariable.isName
    cases declares with
    | false =>
        cases spelledVars.eq_nil
        exact ⟨_, last,
          Parser.rereads_forIn rereads (by omega) rereadsBody (kind_of_unplaced isFound)
          opens sameKind (kind_of_unplaced isIn) closes,
          by simp only [outline, isFound, isMark, isName, same, sameBody]⟩
    | true =>
        obtain ⟨var, rfl, isVar, -⟩ := Spelled.eq_singleton spelledVars
        exact ⟨_, last, Parser.rereads_forIn_declared rereads (by omega) rereadsBody
          (kind_of_unplaced isFound) opens sameKind (kind_of_unplaced isIn) closes
          (kind_of_unplaced isVar),
          by simp only [outline, isFound, isMark, isName, same, sameBody]⟩

end

end Statement

/-! ## Loops with a head -/

/-- The text of an expression that may be missing shows it up to a mark that closes it. -/
structure Expression.OptionShows (value : Option Expression) (spelling : List Token) : Prop where
  fills : ∀ char mark, (char, mark) ∈ Token.singleMarks → char ≠ '\x7b' →
    Fills char mark (optionText value).toList spelling
  reread : ∀ closing, closing = .semicolon ∨ closing = .rightParen → ∀ tokens,
    Spelled tokens spelling → ∃ found, Parser.RereadsOption closing tokens found ∧
      outlineOption found = outlineOption value

/-- The text of an expression that may be missing shows it. -/
def Expression.OptionIsShown (value : Option Expression) : Prop :=
  ∃ spelling, OptionShows value spelling

/-- No expression is shown by nothing. -/
theorem Expression.optionIsShown_none : OptionIsShown none := by
  refine ⟨[], fun char mark isSingle _ => ?_, fun closing _ tokens spelled => ?_⟩
  · rw [optionText]
    exact Statement.fills_nothing isSingle
  · cases spelled.eq_nil
    exact ⟨none, Parser.rereadsOption_none closing, rfl⟩

/-- An expression that is given is shown as itself. -/
theorem Expression.optionIsShown_some {value : Expression} (shown : value.IsShown) :
    OptionIsShown (some value) := by
  obtain ⟨spelling, shows⟩ := shown
  have within := (tightest_bounds value).1
  refine ⟨spelling, fun char mark isSingle notBrace => ?_,
    fun closing isEither tokens spelled => ?_⟩
  · rw [optionText]
    exact Statement.fills_part isSingle notBrace shows.written.isPart
  · obtain ⟨found, last, rereads, same⟩ := shows.reread tokens spelled
    exact ⟨some found, Parser.rereadsOption_some isEither rereads (by omega),
      by simp only [outlineOption, same]⟩

namespace Statement

/-- Tokens are read as what a loop starts with, whatever stands behind them in the loop. -/
def RereadsHead (heads : List Token) (wanted : Option Statement → Prop) : Prop :=
  ∀ {tokens conditions updates last value isOpen tested update}
    {word opening first semicolon closing : Token},
    Parser.RereadsOption .semicolon conditions tested →
    Parser.RereadsOption .rightParen updates update →
    RereadsStatement tokens last value isOpen → semicolon.kind = .semicolon →
    closing.kind = .rightParen → word.kind = .forWord → opening.kind = .leftParen →
    first.kind = .semicolon →
    ∃ start, wanted start ∧ RereadsStatement
      (word :: opening :: (heads ++ first ::
        (conditions ++ semicolon :: (updates ++ closing :: tokens)))) last
      (.forLoop word start tested update value) isOpen

/-- What a loop starts with is scanned up to a semicolon, and read as it is. -/
structure HeadShows (start : Option Statement) (spelling : List Token) : Prop where
  fills : Fills ';' (.plain .semicolon ";") (headText start).toList spelling
  reread : ∀ tokens, Spelled tokens spelling →
    RereadsHead tokens fun found => outlineOption found = outlineOption start

/-- The text of what a loop starts with shows it. -/
def HeadIsShown (start : Option Statement) : Prop := ∃ spelling, HeadShows start spelling

/-- A loop may start with nothing. -/
theorem headIsShown_none : HeadIsShown none := by
  refine ⟨[], ?_, fun tokens spelled => ?_⟩
  · rw [headText]
    exact fills_nothing (by decide)
  · cases spelled.eq_nil
    intro _ _ _ _ _ _ _ _ _ _ _ _ _ rereadsCondition rereadsUpdate rereads separates closes isWord
      opens ends
    exact ⟨none, rfl, Parser.rereads_for rereadsCondition rereadsUpdate rereads separates closes
      isWord opens ends⟩

/-- A loop may start with an expression. -/
theorem headIsShown_expression {value : Expression} (shown : value.IsShown) :
    HeadIsShown (some (.expression token value)) := by
  obtain ⟨spelling, shows⟩ := shown
  have within := (Expression.tightest_bounds value).1
  refine ⟨spelling, ?_, fun tokens spelled => ?_⟩
  · rw [headText_expression]
    exact fills_part (by decide) (by decide) shows.written.isPart
  · obtain ⟨found, last, rereadsValue, same⟩ := shows.reread tokens spelled
    intro _ _ _ _ _ _ _ _ _ _ _ _ _ rereadsCondition rereadsUpdate rereads separates closes isWord
      opens ends
    obtain ⟨start, rereadsAll⟩ := Parser.rereads_forEvaluated rereadsCondition rereadsUpdate rereads
      separates closes isWord opens ends rereadsValue (by omega)
    exact ⟨_, by simp only [outlineOption, outline, same], rereadsAll⟩

/-- A loop may start with a declaration. -/
theorem headIsShown_declare
    {declarators : List Declarator}
    (isMark : token.unplaced = .plain .varWord "var")
    (shown : Declarator.AreShown declarators) :
    HeadIsShown (some (.declare token declarators)) := by
  obtain ⟨spellings, parts, reread⟩ := shown
  have isWord : (Token.plain .varWord "var").IsNaming := isNaming_of_reserved (by decide)
  refine ⟨.plain .varWord "var" :: listAll spellings, ?_, fun tokens spelled => ?_⟩
  · have fills := fills_worded
      (@fills_all ';' (.plain .semicolon ";") (by decide) _ _ (by decide) parts) isWord rfl
    rw [headText_declare]
    simp only [String.toList_append, Expression.toList_separated]
    exact fills
  · obtain ⟨var, inner, rfl, isVar, -, spelledInner⟩ := spelled.eq_cons
    obtain ⟨values, final, rereadsParts, same⟩ := reread inner spelledInner
    intro _ _ _ _ _ _ _ _ _ _ _ _ _ rereadsCondition rereadsUpdate rereads separates closes isWord
      opens ends
    exact ⟨_, by simp only [outlineOption, outline, isVar, isMark, same],
      Parser.rereads_forDeclared rereadsCondition rereadsUpdate rereads separates closes isWord
        opens
        ends (kind_of_unplaced isVar) rereadsParts⟩

/-- A loop with a head is shown if the parts of the head and its body are. -/
theorem isShown_for
    {start : Option Statement}
    {condition update : Option Expression}
    {body : Statement}
    (isMark : token.unplaced = .plain .forWord "for")
    (shownStart : HeadIsShown start)
    (shownCondition : Expression.OptionIsShown condition)
    (shownUpdate : Expression.OptionIsShown update)
    (shownBody : body.IsShown)
    (noRegex : body.startsRegex = false) :
    (Statement.forLoop token start condition update body).IsShown := by
  obtain ⟨heads, showsHead⟩ := shownStart
  obtain ⟨conditions, showsCondition⟩ := shownCondition
  obtain ⟨updates, showsUpdate⟩ := shownUpdate
  obtain ⟨more, showsBody⟩ := shownBody
  have isWord : (Token.plain .forWord "for").IsNaming := isNaming_of_reserved (by decide)
  have fills := fills_behind (fills_behind
    (showsUpdate.fills ')' (.plain .rightParen ")") (by decide) (by decide))
    (showsCondition.fills ';' (.plain .semicolon ";") (by decide) (by decide))) showsHead.fills
  have passage := @isPassage_governed false _ _ _ _ _ isWord fills (showsBody.behind noRegex)
  refine ⟨.plain .forWord "for" :: .plain .leftParen "(" ::
    (heads ++ Token.plain .semicolon ";" :: (conditions ++ Token.plain .semicolon ";" :: updates) ++
      .plain .rightParen ")" :: more), ?_, fun tokens spelled => ?_⟩
  · rw [Statement.text]
    simp only [String.toList_append, List.append_assoc, List.cons_append] at passage ⊢
    exact passage
  · obtain ⟨word, opening, rest, closing, others, rfl, isFound, opens, closes, spelledRest,
      spelledOthers⟩ := exists_governed_of_spelled spelled
    obtain ⟨front, rest, rfl, spelledFront, spelledRest⟩ := spelledRest.eq_append
    obtain ⟨first, rest, rfl, isFirst, -, spelledRest⟩ := spelledRest.eq_cons
    obtain ⟨middle, rest, rfl, spelledMiddle, spelledRest⟩ := spelledRest.eq_append
    obtain ⟨second, behind, rfl, isSecond, -, spelledBehind⟩ := spelledRest.eq_cons
    obtain ⟨tested, rereadsCondition, same⟩ :=
      showsCondition.reread .semicolon (.inl rfl) middle spelledMiddle
    obtain ⟨updated, rereadsUpdate, sameUpdate⟩ :=
      showsUpdate.reread .rightParen (.inr rfl) behind spelledBehind
    obtain ⟨value, last, rereadsBody, sameBody⟩ := showsBody.reread others spelledOthers
    obtain ⟨found, sameStart, rereads⟩ := showsHead.reread front spelledFront rereadsCondition
      rereadsUpdate rereadsBody (kind_of_unplaced isSecond) closes (kind_of_unplaced isFound) opens
      (kind_of_unplaced isFirst)
    simp only [List.append_assoc, List.cons_append]
    exact ⟨_, last, rereads,
      by simp only [outline, isFound, isMark, sameStart, same, sameUpdate, sameBody]⟩

end Statement

/-! ## Clauses -/

namespace Clause

/-- The texts of clauses are scanned as some tokens, and these are read as the clauses. -/
structure ShowAll (hasDefault : Bool) (clauses : List Clause) (spelling : List Token) : Prop where
  spaced : IsPassage true (String.join (spaced clauses)).toList spelling
  reread : ∀ tokens, Spelled tokens spelling → ∃ values,
    Parser.RereadsClauses hasDefault tokens values ∧ outlines values = outlines clauses

/-- The texts of clauses show the clauses. -/
def AreShown (hasDefault : Bool) (clauses : List Clause) : Prop :=
  ∃ spelling, ShowAll hasDefault clauses spelling

/-- No text shows no clause. -/
theorem areShown_nil (hasDefault : Bool) : AreShown hasDefault [] := by
  refine ⟨[], Statement.isPassage_nothing, fun tokens spelled => ?_⟩
  cases spelled.eq_nil
  exact ⟨[], Parser.rereadsClauses_nil hasDefault, rfl⟩

section

variable {body : List Statement} {rest : List Clause} {hasDefault : Bool}
  (shownBody : Statement.AreShown body)

include shownBody

/-- A case is shown in front of other clauses. -/
theorem areShown_case
    {condition : Expression}
    (isMark : token.unplaced = .plain .caseWord "case")
    (shown : condition.IsShown)
    (shownRest : AreShown hasDefault rest) :
    AreShown hasDefault (.mk token (some condition) body :: rest) := by
  obtain ⟨spelling, shows⟩ := shown
  obtain ⟨bodies, showsBody⟩ := shownBody
  obtain ⟨more, showsRest⟩ := shownRest
  have isWord : (Token.plain .caseWord "case").IsNaming := isNaming_of_reserved (by decide)
  have fills : Fills ':' (.plain .colon ":") condition.text.toList spelling :=
    Statement.fills_part (by decide) (by decide) shows.written.isPart
  have passage := Statement.isPassage_clause (fun previous => (isWord.leads previous).trans
    (fills _ rfl)) showsBody.leading showsRest.spaced
  refine ⟨.plain .caseWord "case" :: (spelling ++ Token.plain .colon ":" :: (bodies ++ more)), ?_,
    fun tokens spelled => ?_⟩
  · rw [Clause.spaced, String.join_cons, Clause.text]
    simp only [String.toList_append, List.append_assoc, List.cons_append, List.nil_append]
      at passage ⊢
    exact passage
  · obtain ⟨word, tail, rfl, isFound, -, spelledTail⟩ := spelled.eq_cons
    obtain ⟨inner, tail, rfl, spelledInner, spelledTail⟩ := spelledTail.eq_append
    obtain ⟨colon, tail, rfl, isColon, -, spelledTail⟩ := spelledTail.eq_cons
    obtain ⟨others, behind, rfl, spelledOthers, spelledBehind⟩ := spelledTail.eq_append
    obtain ⟨tested, last, rereads, same⟩ := shows.reread inner spelledInner
    obtain ⟨statements, rereadsBody, sameBody⟩ :=
      showsBody.reread _ _ Parser.readsBodies_clauseBody others spelledOthers
    obtain ⟨values, rereadsRest, sameRest⟩ := showsRest.reread behind spelledBehind
    have within := (Expression.tightest_bounds condition).1
    exact ⟨_, Parser.rereadsClauses_case rereadsBody rereadsRest (kind_of_unplaced isColon) rereads
      (by omega) (kind_of_unplaced isFound),
      by simp only [outlines, isFound, isMark, Expression.outlineOption, same, sameBody, sameRest]⟩

/-- A default is shown in front of clauses without one. -/
theorem areShown_default
    (isMark : token.unplaced = .plain .defaultWord "default")
    (shownRest : AreShown true rest) :
    AreShown false (.mk token none body :: rest) := by
  obtain ⟨bodies, showsBody⟩ := shownBody
  obtain ⟨more, showsRest⟩ := shownRest
  have isWord : (Token.plain .defaultWord "default").IsNaming := isNaming_of_reserved (by decide)
  have passage := Statement.isPassage_clause
    (@Token.IsNaming.leads_single ':' (.plain .colon ":") _ isWord (by decide) (by decide))
    showsBody.leading showsRest.spaced
  refine ⟨.plain .defaultWord "default" :: .plain .colon ":" :: (bodies ++ more), ?_,
    fun tokens spelled => ?_⟩
  · rw [Clause.spaced, String.join_cons, Clause.text]
    simp only [String.toList_append, List.append_assoc, List.cons_append, List.nil_append]
      at passage ⊢
    exact passage
  · obtain ⟨word, tail, rfl, isFound, -, spelledTail⟩ := spelled.eq_cons
    obtain ⟨colon, tail, rfl, isColon, -, spelledTail⟩ := spelledTail.eq_cons
    obtain ⟨others, behind, rfl, spelledOthers, spelledBehind⟩ := spelledTail.eq_append
    obtain ⟨statements, rereadsBody, sameBody⟩ :=
      showsBody.reread _ _ Parser.readsBodies_clauseBody others spelledOthers
    obtain ⟨values, rereadsRest, sameRest⟩ := showsRest.reread behind spelledBehind
    exact ⟨_, Parser.rereadsClauses_default rereadsBody rereadsRest (kind_of_unplaced isColon)
      (kind_of_unplaced isFound),
      by simp only [outlines, isFound, isMark, Expression.outlineOption, sameBody, sameRest]⟩

end

end Clause

/-- A switch is shown if its subject and its clauses are. -/
theorem Statement.isShown_select
    {subject : Expression}
    {clauses : List Clause}
    (isMark : token.unplaced = .plain .switchWord "switch")
    (shown : subject.IsShown)
    (shownClauses : Clause.AreShown false clauses) :
    (Statement.select token subject clauses).IsShown := by
  obtain ⟨spelling, shows⟩ := shown
  obtain ⟨more, showAll⟩ := shownClauses
  have isWord : (Token.plain .switchWord "switch").IsNaming := isNaming_of_reserved (by decide)
  have passage := @isPassage_closed false _ _ fun previous => by
    obtain ⟨last, leads⟩ := leads_braced showAll.spaced (some .rightParen)
    exact ⟨last, (leads_governing isWord (fills_part (by decide) (by decide)
      shows.written.isPart) previous).trans leads⟩
  refine ⟨.plain .switchWord "switch" :: .plain .leftParen "(" :: (spelling ++
    .plain .rightParen ")" :: .plain .leftBrace "\x7b" ::
      (more ++ [Token.plain .rightBrace "\x7d"])), ?_,
    fun tokens spelled => ?_⟩
  · rw [Statement.text]
    simp only [String.toList_append, List.append_assoc, List.cons_append, List.nil_append]
      at passage ⊢
    exact passage
  · obtain ⟨word, opening, inner, closing, rest, rfl, isFound, opens, closes, spelledInner,
      spelledRest⟩ := exists_governed_of_spelled spelled
    obtain ⟨brace, rest, rfl, isBrace, -, spelledRest⟩ := spelledRest.eq_cons
    obtain ⟨others, ending, rfl, spelledOthers, isEnding⟩ := spelledRest.eq_concat
    obtain ⟨read, last, rereads, same⟩ := shows.reread inner spelledInner
    obtain ⟨values, rereadsClauses, sameClauses⟩ := showAll.reread others spelledOthers
    have within := (Expression.tightest_bounds subject).1
    exact ⟨_, ending, Parser.rereads_select rereads (by omega) rereadsClauses
      (kind_of_unplaced isFound) opens closes (kind_of_unplaced isBrace)
      (kind_of_unplaced isEnding),
      by simp only [outline, isFound, isMark, same, sameClauses]⟩

end ScriptEngine
