import ScriptEngine.Proofs.Program.Literals

namespace ScriptEngine

/-!
# What stands next to each other

A program that is read without a failure was passed token by token.  What may not stand
behind a token is therefore found nowhere behind it: behind a dot there is always a name
or a word, and behind a number no string on the same line.  The names in the accesses of
the program are those behind the dots.
-/

variable {token : Token} {start stop : Cursor} {kind : TokenKind}

namespace Token

/--
A token may name a property behind a dot: it is a name, a reserved word, or a string with
the letters of a reserved word.
-/
inductive NamesProperty (token : Token) : Prop where
  | name : token.kind = .identifier → NamesProperty token
  | word : (token.literal, token.kind) ∈ TokenKind.reservedWords → NamesProperty token
  | quoted : token.kind = .string → TokenKind.isReserved token.literal = true → NamesProperty token

theorem IsSpelled.namesProperty
    (isSpelled : token.IsSpelled)
    (names : (token.kind = .identifier || TokenKind.isReserved token.literal) = true) :
    token.NamesProperty := by
  rcases (Bool.or_eq_true _ _).mp names with isName | isReserved
  · exact .name (of_decide_eq_true isName)
  · rcases isSpelled isReserved with isString | isWord
    · exact .quoted isString isReserved
    · exact .word isWord

/-- A dot names no property. -/
theorem NamesProperty.ne_dot (names : token.NamesProperty) : token.kind ≠ .dot := by
  have noWord : ∀ entry ∈ TokenKind.reservedWords, entry.2 ≠ .dot := by decide
  cases names with
  | name isName => exact fun isDot => nomatch isName.symm.trans isDot
  | word isWord => exact noWord _ isWord
  | quoted isString _ => exact fun isDot => nomatch isString.symm.trans isDot

/-- Whether a token may stand behind another in a program. -/
structure MayPrecede (first second : Token) : Prop where
  dot : first.kind = .dot → second.NamesProperty
  number : first.kind = .number → second.kind = .string → second.newlineBefore = true

section

variable {first second : Token}

/-- Anything may stand behind what is neither a dot nor a number. -/
theorem mayPrecede_of_kind
    (second : Token)
    (notDot : first.kind ≠ .dot)
    (notNumber : first.kind ≠ .number) :
    first.MayPrecede second :=
  ⟨fun isDot => absurd isDot notDot, fun isNumber => absurd isNumber notNumber⟩

/-- What is no string may stand behind what is no dot. -/
theorem mayPrecede_of_other (notDot : first.kind ≠ .dot) (notString : second.kind ≠ .string) :
    first.MayPrecede second :=
  ⟨fun isDot => absurd isDot notDot, fun _ isString => absurd isString notString⟩

end

end Token

/-- Whether an expression, if it is an access by name, has a name or a word behind its dot. -/
@[simp] def Expression.IsNamedAccess : Expression → Prop
  | .member _ _ property => property.NamesProperty
  | _ => True

namespace Parser

open Script (current next advance read)
open Expression (IsNamedAccess)

/-! ## From one token to the next -/

/-- A cursor leads to another past tokens of which each may stand behind the one before it. -/
inductive Cursor.Leads : Cursor → Cursor → Prop where
  | stay (cursor : Cursor) : Leads cursor cursor
  | step {start stop : Cursor} :
      start.current.MayPrecede start.next →
      Leads start.advance stop →
      Leads start stop

theorem Cursor.Leads.trans
    {middle : Cursor}
    (leads : start.Leads middle)
    (leadsOn : middle.Leads stop) :
    start.Leads stop := by
  induction leads with
  | stay => exact leadsOn
  | step mayPrecede _ inductionHypothesis => exact .step mayPrecede (inductionHypothesis leadsOn)

theorem Cursor.Leads.holds
    {known : Token → Prop}
    (leads : start.Leads stop)
    (holds : start.Holds known) :
    stop.Holds known := by
  induction leads with
  | stay => exact holds
  | step _ _ inductionHypothesis => exact inductionHypothesis holds.advance

variable {answers : Answers}

/--
When a script gives a value from a cursor that is as it should be, then it has moved past
tokens that may stand where they do, and it leaves the cursor as it should be.
-/
def Walks
    (answers : Answers)
    (before : Cursor → Prop)
    (script : Script α)
    (after : Cursor → Prop) : Prop :=
  ∀ reading value later, reading.cursor.Holds Token.IsSpelled → before reading.cursor →
    script.run answers reading = (some value, later) →
      reading.cursor.Leads later.cursor ∧ after later.cursor

namespace Walks

variable {before middle after : Cursor → Prop}

theorem pure {value : α} (stays : ∀ cursor, before cursor → after cursor) :
    Walks answers before (pure value) after := by
  rintro reading _ _ - isBefore ⟨⟩
  exact ⟨.stay _, stays _ isBefore⟩

theorem bind
    {first : Script β}
    {later : β → Script α}
    (walks : Walks answers before first middle)
    (walksOn : ∀ value, Walks answers middle (later value) after) :
    Walks answers before (first >>= later) after := by
  intro reading value last spelled isBefore isRun
  rw [Script.run_bind] at isRun
  split at isRun
  · rename_i given reached isFirst
    obtain ⟨leads, isMiddle⟩ := walks reading given reached spelled isBefore isFirst
    obtain ⟨leadsOn, isAfter⟩ :=
      walksOn given reached value last (leads.holds spelled) isMiddle isRun
    exact ⟨leads.trans leadsOn, isAfter⟩
  · cases isRun

section

variable {script : Script α} (walks : Walks answers before script after)

include walks

/-- A script may start from more cursors than it has to, and leave fewer. -/
theorem weaken
    {earlier last : Cursor → Prop}
    (starts : ∀ cursor, earlier cursor → before cursor)
    (stops : ∀ cursor, after cursor → last cursor) :
    Walks answers earlier script last := by
  intro reading value later spelled isEarlier isRun
  obtain ⟨leads, isAfter⟩ := walks reading value later spelled (starts _ isEarlier) isRun
  exact ⟨leads, stops _ isAfter⟩

theorem starting
    {earlier : Cursor → Prop}
    (starts : ∀ cursor, earlier cursor → before cursor) :
    Walks answers earlier script after :=
  walks.weaken starts fun _ isAfter => isAfter

theorem stopping
    {last : Cursor → Prop}
    (stops : ∀ cursor, after cursor → last cursor) :
    Walks answers before script last :=
  walks.weaken (fun _ isBefore => isBefore) stops

end

/-- What is made of what a script gives moves the cursor no further. -/
theorem returning {script : Script β} {make : β → α} (walks : Walks answers before script after) :
    Walks answers before (script >>= fun value => Pure.pure (make value)) after :=
  walks.bind fun _ => .pure fun _ isAfter => isAfter

theorem refuse (token : Token) (fault : GrammarFault) :
    Walks answers before (Parser.refuse token fault : Script α) after := by
  rintro reading _ _ - - ⟨⟩

theorem refuseNext (wanted : TokenKind) :
    Walks answers before (Parser.refuseNext wanted : Script α) after := by
  rintro reading _ _ - - ⟨⟩

theorem current
    {later : Token → Script α}
    (walks : ∀ token, token.IsSpelled →
      Walks answers (fun cursor => before cursor ∧ cursor.current = token) (later token) after) :
    Walks answers before (current >>= later) after :=
  fun reading value last spelled isBefore isRun =>
    walks reading.cursor.current spelled.current reading value last spelled ⟨isBefore, rfl⟩ isRun

theorem next
    {later : Token → Script α}
    (walks : ∀ token, token.IsSpelled →
      Walks answers (fun cursor => before cursor ∧ cursor.next = token) (later token) after) :
    Walks answers before (next >>= later) after :=
  fun reading value last spelled isBefore isRun =>
    walks reading.cursor.next spelled.next reading value last spelled ⟨isBefore, rfl⟩ isRun

theorem advance
    (passes : ∀ cursor, before cursor → cursor.current.MayPrecede cursor.next)
    (reaches : ∀ cursor, before cursor → after cursor.advance) :
    Walks answers before advance after := by
  rintro reading _ _ - isBefore ⟨⟩
  exact ⟨.step (passes _ isBefore) (.stay _), reaches _ isBefore⟩

end Walks

@[simp] theorem Cursor.current_advance (cursor : Cursor) :
    cursor.advance.current = cursor.next := by
  unfold Cursor.advance
  split <;> rfl

/-! ## Where a cursor stands -/

namespace Cursor

/-- A cursor that stands anywhere. -/
def Anywhere (_ : Cursor) : Prop := True

/-- A cursor that stands on no dot. -/
def OffDot (cursor : Cursor) : Prop := cursor.current.kind ≠ .dot

/-- A cursor that stands on a token of a kind. -/
def On (kind : TokenKind) (cursor : Cursor) : Prop := cursor.current.kind = kind

/-- A cursor that stands on no dot, and on a token that may stand in front of the next one. -/
structure Joined (cursor : Cursor) : Prop where
  offDot : cursor.OffDot
  mayPrecede : cursor.current.MayPrecede cursor.next

section

variable {cursor : Cursor}

theorem On.offDot (isOn : cursor.On kind) (notDot : kind ≠ .dot) : cursor.OffDot :=
  fun isDot => notDot (isOn.symm.trans isDot)

theorem On.joined (isOn : cursor.On kind) (notDot : kind ≠ .dot) (notNumber : kind ≠ .number) :
    cursor.Joined :=
  ⟨isOn.offDot notDot, Token.mayPrecede_of_kind _ (isOn.offDot notDot) fun isNumber =>
    notNumber (isOn.symm.trans isNumber)⟩

end

end Cursor

open Cursor (Anywhere OffDot On Joined)

namespace Walks

variable {before middle after : Cursor → Prop}

/-- A token of a kind that is no string is passed wherever the cursor stands on no dot. -/
theorem take
    (offDot : ∀ cursor, before cursor → cursor.OffDot)
    (isKind : token.kind = kind)
    (notString : kind ≠ .string) :
    Walks answers (fun cursor => before cursor ∧ cursor.next = token) Script.advance (On kind) := by
  refine .advance ?_ ?_
  · rintro cursor ⟨isBefore, rfl⟩
    exact Token.mayPrecede_of_other (offDot cursor isBefore) fun isString =>
      notString (isKind.symm.trans isString)
  · rintro cursor ⟨_, rfl⟩
    rw [On, Cursor.current_advance]
    exact isKind

/-- Whatever comes next is passed where it may come next. -/
theorem pass (joined : ∀ cursor, before cursor → cursor.Joined) :
    Walks answers before Script.advance Anywhere :=
  .advance (fun cursor isBefore => (joined cursor isBefore).mayPrecede) fun _ _ => trivial

theorem expect (offDot : ∀ cursor, before cursor → cursor.OffDot) (notString : kind ≠ .string) :
    Walks answers before (Parser.expect kind) (On kind) := by
  refine .next fun token _ => ?_
  split
  · rename_i isKind
    exact .take offDot isKind notString
  · exact .refuseNext kind

theorem endStatement : Walks answers OffDot Parser.endStatement Joined := by
  refine .next fun token _ => ?_
  split
  · rename_i isSemicolon
    exact (take (fun _ offDot => offDot) isSemicolon nofun).stopping fun cursor isOn =>
      isOn.joined nofun nofun
  · split
    · rename_i ends
      refine .pure ?_
      rintro cursor ⟨offDot, rfl⟩
      refine ⟨offDot, fun isDot => absurd isDot offDot, fun _ isString => ?_⟩
      simpa [endsStatement, isString] using ends
    · exact .refuseNext _

theorem jumpLabel : Walks answers OffDot Parser.jumpLabel OffDot := by
  refine .next fun token _ => ?_
  split
  · rename_i isLabel
    have isName : token.kind = .identifier := by
      simp only [Bool.and_eq_true, decide_eq_true_eq] at isLabel
      exact isLabel.1
    refine .bind (.take (fun _ offDot => offDot) isName nofun) fun _ => ?_
    exact .pure fun _ isOn => isOn.offDot nofun
  · exact .pure fun _ isBefore => isBefore.1

theorem numberValue (token : Token) : Walks answers before (Parser.numberValue token) before := by
  unfold Parser.numberValue
  split
  · exact .pure fun _ isBefore => isBefore
  · exact .refuse _ _

theorem propertyKey : Walks answers Anywhere Parser.propertyKey OffDot := by
  refine .current fun token isSpelled => ?_
  have offDot (notDot : token.kind ≠ .dot) (cursor : Cursor)
      (isOn : Anywhere cursor ∧ cursor.current = token) : cursor.OffDot := by
    rw [OffDot, isOn.2]
    exact notDot
  split
  · rename_i isString
    exact .pure (offDot (by rw [isString]; nofun))
  · split
    · rename_i isNumber
      refine .bind (numberValue token) fun _ => ?_
      exact .pure (offDot (by rw [isNumber]; nofun))
    · split
      · rename_i names
        exact .pure (offDot (isSpelled.namesProperty names).ne_dot)
      · split
        · exact .refuse _ _
        · exact .refuse _ _

theorem betweenProperties : Walks answers OffDot Parser.betweenProperties Joined := by
  refine .next fun token _ => ?_
  split
  · rename_i isBrace
    refine .pure ?_
    rintro cursor ⟨offDot, rfl⟩
    refine ⟨offDot, Token.mayPrecede_of_other offDot fun isString => ?_⟩
    rw [isBrace] at isString
    cases isString
  · exact (expect (fun _ isBefore => isBefore.1) (by decide)).stopping fun cursor isOn =>
      isOn.joined nofun nofun

end Walks

namespace Task

/-- Where a reader may start. -/
def Start : {α : Type} → Task α → Cursor → Prop
  | _, statement | _, block | _, clauses _ | _, clauseBody | _, expression _ => Anywhere
  | _, declarators | _, parameters | _, operators _ _ => OffDot
  | _, list _ | _, properties => Joined

/-- Where a reader stops. -/
def Stop : {α : Type} → Task α → Cursor → Prop
  | _, statement | _, block | _, clauses _ | _, clauseBody => Joined
  | _, _ => OffDot

/-- What a reader has been given already. -/
def GivenClosing : {α : Type} → Task α → Prop
  | _, list closing => closing ≠ .string ∧ closing ≠ .dot
  | _, _ => True

end Task

/-- Every task is answered as its reader should. -/
def Answers.Walk (answers : Answers) : Prop :=
  ∀ {α : Type} (task : Task α), task.GivenClosing →
    Walks answers task.Start (read task) task.Stop

section

variable (calls : answers.Walk)

include calls

/-! ## Expressions -/

theorem expression_walks (bound : Precedence) :
    Walks answers Anywhere (read (.expression bound)) OffDot :=
  calls (.expression bound) trivial

/-- An operand behind a token that anything may stand behind. -/
theorem nextOperand_walks
    {before : Cursor → Prop}
    {make : Expression → α}
    (bound : Precedence)
    (joined : ∀ cursor, before cursor → cursor.Joined) :
    Walks answers before
      (advance >>= fun _ => read (.expression bound) >>= fun value => pure (make value)) OffDot :=
  .bind (.pass joined) fun _ => .returning (expression_walks calls bound)

theorem expressionList_walks
    {closing : TokenKind}
    (opens : kind = .leftParen ∨ kind = .leftBracket)
    (closes : closing ≠ .string ∧ closing ≠ .dot) :
    Walks answers (On kind) (expressionList closing) OffDot := by
  have joined (cursor : Cursor) (isOn : cursor.On kind) : cursor.Joined := by
    rcases opens with rfl | rfl <;> exact isOn.joined nofun nofun
  refine .next fun following _ => ?_
  split
  · rename_i isClosing
    refine .bind (.take (fun cursor isOn => (joined cursor isOn).offDot) isClosing closes.1)
      fun _ => ?_
    exact .pure fun _ isOn => isOn.offDot closes.2
  · exact (calls (.list closing) closes).starting fun cursor isBefore => joined cursor isBefore.1

theorem list_walks {closing : TokenKind} (closes : closing ≠ .string ∧ closing ≠ .dot) :
    Walks answers Joined (list closing) OffDot := by
  refine .bind (.pass fun _ joined => joined) fun _ => ?_
  refine .bind (expression_walks calls _) fun _ => ?_
  refine .next fun following _ => ?_
  split
  · rename_i isComma
    refine .bind (.take (fun _ offDot => offDot) isComma nofun) fun _ => ?_
    refine .next fun following _ => ?_
    split
    · rename_i isClosing
      refine .bind (.take (fun _ isOn => isOn.offDot nofun) isClosing closes.1) fun _ => ?_
      exact .pure fun _ isOn => isOn.offDot closes.2
    · exact .returning ((calls (.list closing) closes).starting fun _ isBefore =>
        isBefore.1.joined nofun nofun)
  · refine .bind (.expect (fun _ isBefore => isBefore.1) closes.1) fun _ => ?_
    exact .pure fun _ isOn => isOn.offDot closes.2

theorem properties_walks : Walks answers Joined properties OffDot := by
  refine .next fun following _ => ?_
  split
  · rename_i isBrace
    refine .bind (.take (fun _ joined => joined.offDot) isBrace nofun) fun _ => ?_
    exact .pure fun _ isOn => isOn.offDot nofun
  · refine .bind (.pass fun _ isBefore => isBefore.1) fun _ => .bind .propertyKey fun _ => ?_
    refine .bind (.expect (fun _ offDot => offDot) nofun) fun _ => ?_
    refine .bind (.pass fun _ isOn => isOn.joined nofun nofun) fun _ => ?_
    refine .bind (expression_walks calls _) fun _ => ?_
    refine .bind .betweenProperties fun _ => ?_
    exact .returning (calls .properties trivial)

theorem parameters_walks : Walks answers OffDot parameters OffDot := by
  refine .bind (.expect (fun _ offDot => offDot) nofun) fun _ => ?_
  refine .current fun parameter _ => .next fun following _ => ?_
  have offDot (cursor : Cursor) (isOn : cursor.On .identifier ∧ cursor.current = parameter) :
      cursor.OffDot := isOn.1.offDot nofun
  split
  · rename_i isComma
    refine .bind (.take offDot isComma nofun) fun _ => ?_
    exact .returning ((calls .parameters trivial).starting fun _ isOn => isOn.offDot nofun)
  · refine .bind (.expect (fun cursor isBefore => offDot cursor isBefore.1) nofun)
      fun _ => ?_
    exact .pure fun _ isOn => isOn.offDot nofun

theorem parameterList_walks : Walks answers (On .leftParen) parameterList OffDot := by
  refine .next fun following _ => ?_
  split
  · rename_i isClosing
    refine .bind (.take (fun _ isOn => isOn.offDot nofun) isClosing nofun) fun _ => ?_
    exact .pure fun _ isOn => isOn.offDot nofun
  · exact (calls .parameters trivial).starting fun _ isBefore => isBefore.1.offDot nofun

theorem blockBody_walks : Walks answers (On .leftBrace) blockBody Joined :=
  .bind (.pass fun _ isOn => isOn.joined nofun nofun) fun _ => calls .block trivial

omit calls in
theorem functionName_walks : Walks answers OffDot functionName OffDot := by
  refine .next fun following _ => ?_
  split
  · rename_i isName
    refine .bind (.take (fun _ offDot => offDot) isName nofun) fun _ => ?_
    exact .pure fun _ isOn => isOn.offDot nofun
  · exact .pure fun _ isBefore => isBefore.1

theorem functionLiteral_walks : Walks answers OffDot functionLiteral Joined := by
  refine .current fun token _ => ?_
  refine .bind (functionName_walks.starting fun _ isBefore => isBefore.1) fun _ => ?_
  refine .bind (.expect (fun _ offDot => offDot) nofun) fun _ => ?_
  refine .bind (parameterList_walks calls) fun _ => ?_
  refine .bind (.expect (fun _ offDot => offDot) nofun) fun _ => ?_
  exact .returning (blockBody_walks calls)

theorem constructorArguments_walks : Walks answers OffDot constructorArguments OffDot := by
  refine .next fun following _ => ?_
  split
  · rename_i isOpening
    refine .bind (.take (fun _ offDot => offDot) isOpening nofun) fun _ => ?_
    exact expressionList_walks calls (.inl rfl) (by decide)
  · exact .pure fun _ isBefore => isBefore.1

/-- An operand starts on no dot, and what stands behind its tokens may stand there. -/
theorem operand_walks : Walks answers Anywhere operand OffDot := by
  refine .current fun token _ => ?_
  have isOn {kind : TokenKind} (isKind : token.kind = kind) (cursor : Cursor)
      (isCurrent : Anywhere cursor ∧ cursor.current = token) : cursor.On kind := by
    rw [On, isCurrent.2]
    exact isKind
  have leaf {value : Expression} {kind : TokenKind} (isKind : token.kind = kind)
      (notDot : kind ≠ .dot) :
      Walks answers (fun cursor => Anywhere cursor ∧ cursor.current = token) (pure value)
        OffDot :=
    .pure fun cursor isCurrent => (isOn isKind cursor isCurrent).offDot notDot
  have joined {kind : TokenKind} (isKind : token.kind = kind) (notDot : kind ≠ .dot)
      (notNumber : kind ≠ .number) (cursor : Cursor)
      (isCurrent : Anywhere cursor ∧ cursor.current = token) : cursor.Joined :=
    (isOn isKind cursor isCurrent).joined notDot notNumber
  split
  · rename_i operator stands
    have others : token.kind ≠ .dot ∧ token.kind ≠ .number := by
      constructor <;> rintro isKind <;> rw [isKind] at stands <;> cases stands
    exact nextOperand_walks calls .unary (joined rfl others.1 others.2)
  · rename_i operator _ stands
    have others : token.kind ≠ .dot ∧ token.kind ≠ .number := by
      constructor <;> rintro isKind <;> rw [isKind] at stands <;> cases stands
    exact nextOperand_walks calls .unary (joined rfl others.1 others.2)
  · split
    · exact leaf ‹_› (by decide)
    · rename_i isNumber
      exact .bind (.numberValue token) fun _ => leaf isNumber nofun
    · exact leaf ‹_› (by decide)
    · rename_i isRegex
      unfold regexLiteral
      split
      · exact leaf isRegex nofun
      · exact .refuse _ _
    · exact leaf ‹_› (by decide)
    · exact leaf ‹_› (by decide)
    · exact leaf ‹_› (by decide)
    · rename_i isWord
      refine .bind ((functionLiteral_walks calls).starting fun cursor isCurrent =>
        (isOn isWord cursor isCurrent).offDot nofun) fun _ => ?_
      exact .pure fun _ joined => joined.offDot
    · rename_i isBracket
      exact .returning
        ((expressionList_walks calls (.inr rfl) (by decide)).starting (isOn isBracket))
    · rename_i isBrace
      exact .returning ((calls .properties trivial).starting
        (joined isBrace nofun nofun))
    · rename_i isParen
      refine .bind (.pass (joined isParen nofun nofun)) fun _ => ?_
      refine .bind (expression_walks calls _) fun _ => ?_
      refine .bind (.expect (fun _ offDot => offDot) nofun) fun _ => ?_
      exact .pure fun _ isOn => isOn.offDot nofun
    · exact nextOperand_walks calls .unary (joined ‹_› (by decide) (by decide))
    · exact nextOperand_walks calls .unary (joined ‹_› (by decide) (by decide))
    · rename_i isNew
      refine .bind (.pass (joined isNew nofun nofun)) fun _ => ?_
      refine .bind (expression_walks calls _) fun _ => ?_
      exact .returning (constructorArguments_walks calls)
    · exact .refuse _ _
    · exact .refuse _ _
    · exact .refuse _ _

/-- Behind an operator stands what may stand there: behind a dot a name or a word. -/
theorem operator_walks
    (left : Expression)
    (binds : Precedence.ofKind token.kind ≠ .lowest) :
    Walks answers (fun cursor => cursor.current = token) (operator token left) OffDot := by
  have notNumber : token.kind ≠ .number := by
    intro isNumber
    rw [isNumber] at binds
    exact binds rfl
  have joined (notDot : token.kind ≠ .dot) (cursor : Cursor) (isCurrent : cursor.current = token) :
      cursor.Joined :=
    Cursor.On.joined (congrArg Token.kind isCurrent) notDot notNumber
  unfold operator
  split
  · rename_i operator stands
    have notDot : token.kind ≠ .dot := fun isDot => by rw [isDot] at stands; cases stands
    exact nextOperand_walks calls _ (joined notDot)
  · rename_i operator _ stands
    have notDot : token.kind ≠ .dot := fun isDot => by rw [isDot] at stands; cases stands
    exact nextOperand_walks calls .comma (joined notDot)
  · rename_i operator _ _ stands
    have notDot : token.kind ≠ .dot := fun isDot => by rw [isDot] at stands; cases stands
    exact .pure fun cursor isCurrent => (joined notDot cursor isCurrent).offDot
  · split
    · rename_i isQuestion
      refine .bind (.pass (joined (by rw [isQuestion]; nofun))) fun _ => ?_
      refine .bind (expression_walks calls _) fun _ => ?_
      refine .bind (.expect (fun _ offDot => offDot) nofun) fun _ => ?_
      exact nextOperand_walks calls .comma (fun _ isOn => isOn.joined nofun nofun)
    · rename_i isComma
      exact nextOperand_walks calls .comma (joined (by rw [isComma]; nofun))
    · rename_i isParen
      exact .returning ((expressionList_walks calls (.inl rfl) (by decide)).starting
        fun cursor isCurrent => (congrArg Token.kind isCurrent).trans isParen)
    · rename_i isDot
      refine .next fun property isSpelled => ?_
      split
      · rename_i names
        have names := isSpelled.namesProperty names
        have passes (cursor : Cursor) (isBefore : cursor.current = token ∧ cursor.next = property) :
            cursor.current.MayPrecede cursor.next := by
          rw [isBefore.1, isBefore.2]
          exact ⟨fun _ => names, fun isNumber => absurd isNumber notNumber⟩
        have reaches (cursor : Cursor)
            (isBefore : cursor.current = token ∧ cursor.next = property) :
            cursor.advance.OffDot := by
          rw [OffDot, Cursor.current_advance, isBefore.2]
          exact names.ne_dot
        exact .returning (.advance passes reaches)
      · exact .refuseNext _
    · rename_i notDot
      refine .bind (.pass (joined notDot)) fun _ => ?_
      refine .bind (expression_walks calls _) fun _ => ?_
      refine .bind (.expect (fun _ offDot => offDot) nofun) fun _ => ?_
      exact .pure fun _ isOn => isOn.offDot nofun

theorem operators_walks
    (bound : Precedence)
    (left : Expression) :
    Walks answers OffDot (operators bound left) OffDot := by
  refine .next fun token _ => ?_
  split
  · exact .pure fun _ isBefore => isBefore.1
  · rename_i tighter
    have binds : Precedence.ofKind token.kind ≠ .lowest := by
      intro isLowest
      rw [isLowest] at tighter
      exact tighter (by cases bound <;> decide)
    split
    · exact .pure fun _ isBefore => isBefore.1
    · have reaches : Walks answers (fun cursor => OffDot cursor ∧ cursor.next = token) advance
          (fun cursor => cursor.current = token) := by
        refine .advance ?_ ?_
        · rintro cursor ⟨offDot, rfl⟩
          refine Token.mayPrecede_of_other offDot fun isString => binds ?_
          rw [isString]
          rfl
        · rintro cursor ⟨_, rfl⟩
          exact Cursor.current_advance cursor
      refine .bind (reaches.starting fun _ isBefore => isBefore) fun _ => ?_
      exact .bind (operator_walks calls left binds) fun extended =>
        calls (.operators bound extended) trivial

/-! ## Statements -/

theorem expressionStatement_walks : Walks answers Anywhere expressionStatement Joined := by
  refine .current fun token _ => ?_
  refine .bind ((expression_walks calls _).starting fun _ _ => trivial) fun _ => ?_
  exact .returning .endStatement

theorem initialValue_walks : Walks answers OffDot initialValue OffDot := by
  refine .next fun following _ => ?_
  split
  · rename_i isAssign
    refine .bind (.take (fun _ offDot => offDot) isAssign nofun) fun _ => ?_
    exact nextOperand_walks calls .comma (fun _ isOn => isOn.joined nofun nofun)
  · exact .pure fun _ isBefore => isBefore.1

theorem declarators_walks : Walks answers OffDot declarators OffDot := by
  refine .current fun name _ => ?_
  refine .bind ((initialValue_walks calls).starting fun _ isBefore => isBefore.1)
    fun _ => .next fun following _ => ?_
  split
  · rename_i isComma
    refine .bind (.take (fun _ offDot => offDot) isComma nofun) fun _ => ?_
    refine .bind (.expect (fun _ isOn => isOn.offDot nofun) nofun) fun _ => ?_
    exact .returning ((calls .declarators trivial).starting fun _ isOn => isOn.offDot nofun)
  · exact .pure fun _ isBefore => isBefore.1

theorem condition_walks : Walks answers OffDot condition (On .rightParen) := by
  refine .bind (.expect (fun _ offDot => offDot) nofun) fun _ => ?_
  refine .bind (.pass fun _ isOn => isOn.joined nofun nofun) fun _ => ?_
  refine .bind (expression_walks calls _) fun _ => ?_
  exact .returning (.expect (fun _ offDot => offDot) nofun)

theorem body_walks : Walks answers Joined body Joined := by
  refine .bind (.pass fun _ joined => joined) fun _ => .current fun token _ => ?_
  split
  · exact .refuse _ _
  · exact (calls .statement trivial).starting fun _ _ => trivial

theorem alternative_walks : Walks answers Joined alternative Joined := by
  refine .next fun following _ => ?_
  split
  · rename_i isElse
    refine .bind (.take (fun _ joined => joined.offDot) isElse nofun) fun _ => ?_
    exact .returning ((body_walks calls).starting fun _ isOn => isOn.joined nofun nofun)
  · exact .pure fun _ isBefore => isBefore.1

theorem block_walks : Walks answers Anywhere block Joined := by
  refine .current fun token _ => ?_
  split
  · rename_i isBrace
    refine .pure fun cursor isCurrent => ?_
    exact Cursor.On.joined ((congrArg Token.kind isCurrent.2).trans isBrace) nofun nofun
  · split
    · exact .refuse _ _
    · refine .bind ((calls .statement trivial).starting fun _ _ => trivial) fun _ => ?_
      refine .bind (.pass fun _ joined => joined) fun _ => ?_
      exact .returning (calls .block trivial)

theorem expressionUnless_walks
    (before : Cursor → Prop)
    (joined : ∀ cursor, before cursor → cursor.Joined) :
    Walks answers before (expressionUnless kind) OffDot := by
  refine .next fun following _ => ?_
  split
  · exact .pure fun cursor isBefore => (joined cursor isBefore.1).offDot
  · exact nextOperand_walks calls .lowest (fun cursor isBefore => joined cursor isBefore.1)

theorem forRest_walks
    (token : Token)
    (start : Option Statement) :
    Walks answers Joined (forRest token start) Joined := by
  refine .bind (expressionUnless_walks calls Joined fun _ joined => joined)
    fun _ => ?_
  refine .bind (.expect (fun _ offDot => offDot) nofun) fun _ => ?_
  refine .bind (expressionUnless_walks calls (On .semicolon) fun _ isOn =>
    isOn.joined nofun nofun) fun _ => ?_
  refine .bind (.expect (fun _ offDot => offDot) nofun) fun _ => ?_
  exact .returning ((body_walks calls).starting fun _ isOn => isOn.joined nofun nofun)

theorem forInRest_walks (token : Token) (declares : Bool) :
    Walks answers (fun cursor => cursor.On .identifier ∧ cursor.next.kind = .inWord)
      (forInRest token declares) Joined := by
  refine .current fun name _ => ?_
  have reaches : Walks answers (fun cursor => cursor.On .identifier ∧ cursor.next.kind = .inWord)
      advance (On .inWord) := by
    refine .advance ?_ ?_
    · rintro cursor ⟨isOn, isWord⟩
      refine Token.mayPrecede_of_other (isOn.offDot nofun) fun isString => ?_
      rw [isWord] at isString
      cases isString
    · rintro cursor ⟨-, isWord⟩
      rw [On, Cursor.current_advance]
      exact isWord
  refine .bind (reaches.starting fun _ isBefore => isBefore.1) fun _ => ?_
  refine .bind (.pass fun _ isOn => isOn.joined nofun nofun) fun _ => ?_
  refine .bind (expression_walks calls _) fun _ => ?_
  refine .bind (.expect (fun _ offDot => offDot) nofun) fun _ => ?_
  exact .returning ((body_walks calls).starting fun _ isOn => isOn.joined nofun nofun)

theorem forDeclared_walks (token : Token) : Walks answers OffDot (forDeclared token) Joined := by
  refine .current fun word _ => ?_
  refine .bind (.expect (fun _ isBefore => isBefore.1) nofun) fun _ => ?_
  refine .next fun following _ => ?_
  split
  · rename_i isWord
    exact (forInRest_walks calls token true).starting fun _ isBefore =>
      ⟨isBefore.1, isBefore.2 ▸ isWord⟩
  · refine .bind ((calls .declarators trivial).starting fun _ isBefore =>
      isBefore.1.offDot nofun) fun parts => ?_
    refine .bind (.expect (fun _ offDot => offDot) nofun) fun _ => ?_
    exact (forRest_walks calls token (some (.declare word parts))).starting fun _ isOn =>
      isOn.joined nofun nofun

theorem forEvaluated_walks (token first : Token) :
    Walks answers Anywhere (forEvaluated token first) Joined := by
  refine .bind (expression_walks calls _) fun value => ?_
  refine .bind (.expect (fun _ offDot => offDot) nofun) fun _ => ?_
  exact (forRest_walks calls token (some (.expression first value))).starting
    fun _ isOn => isOn.joined nofun nofun

theorem forStatement_walks (token : Token) : Walks answers OffDot (forStatement token) Joined := by
  refine .bind (.expect (fun _ offDot => offDot) nofun) fun _ => ?_
  refine .next fun following _ => ?_
  split
  · rename_i isSemicolon
    refine .bind (.take (fun _ isOn => isOn.offDot nofun) isSemicolon nofun)
      fun _ => ?_
    exact (forRest_walks calls token none).starting fun _ isOn =>
      isOn.joined nofun nofun
  · split
    · rename_i isVar
      refine .bind (.take (fun _ isOn => isOn.offDot nofun) isVar nofun) fun _ => ?_
      exact (forDeclared_walks calls token).starting fun _ isOn => isOn.offDot nofun
    · refine .bind (.pass fun _ isBefore => isBefore.1.joined nofun nofun)
        fun _ => .current fun first _ => ?_
      have evaluates (before : Cursor → Prop) :
          Walks answers before (forEvaluated token first) Joined :=
        (forEvaluated_walks calls token first).starting fun _ _ => trivial
      split
      · rename_i isName
        refine .next fun following _ => ?_
        split
        · rename_i isWord
          refine (forInRest_walks calls token false).starting ?_
          rintro cursor ⟨⟨-, rfl⟩, rfl⟩
          exact ⟨isName, isWord⟩
        · exact evaluates _
      · exact evaluates _

theorem clauseBody_walks : Walks answers Anywhere clauseBody Joined := by
  refine .current fun token _ => ?_
  have ends {kind : TokenKind} (isKind : token.kind = kind) (notDot : kind ≠ .dot)
      (notNumber : kind ≠ .number) :
      Walks answers (fun cursor => Anywhere cursor ∧ cursor.current = token)
        (pure ([] : List Statement)) Joined :=
    .pure fun cursor isCurrent =>
      Cursor.On.joined ((congrArg Token.kind isCurrent.2).trans isKind) notDot notNumber
  split
  · exact ends ‹_› (by decide) (by decide)
  · exact ends ‹_› (by decide) (by decide)
  · exact ends ‹_› (by decide) (by decide)
  · exact .refuse _ _
  · refine .bind ((calls .statement trivial).starting fun _ _ => trivial) fun _ => ?_
    refine .bind (.pass fun _ joined => joined) fun _ => ?_
    exact .returning (calls .clauseBody trivial)

theorem clauses_walks (hasDefault : Bool) : Walks answers Anywhere (clauses hasDefault) Joined := by
  refine .current fun token _ => ?_
  have isOn {kind : TokenKind} (isKind : token.kind = kind) (cursor : Cursor)
      (isCurrent : Anywhere cursor ∧ cursor.current = token) : cursor.On kind :=
    (congrArg Token.kind isCurrent.2).trans isKind
  have clauseBehind {hasDefault : Bool} {tested : Option Expression} :
      Walks answers (On .colon)
        (advance >>= fun _ => read .clauseBody >>= fun inner =>
          read (.clauses hasDefault) >>= fun rest => pure (Clause.mk token tested inner :: rest))
        Joined := by
    refine .bind (.pass fun _ isOn => isOn.joined nofun nofun) fun _ => ?_
    refine .bind (calls .clauseBody trivial) fun _ => ?_
    exact .returning ((calls (.clauses hasDefault) trivial).starting fun _ _ => trivial)
  split
  · rename_i isBrace
    exact .pure fun cursor isCurrent =>
      (isOn isBrace cursor isCurrent).joined nofun nofun
  · rename_i isCase
    refine .bind (.pass fun cursor isCurrent =>
      (isOn isCase cursor isCurrent).joined nofun nofun) fun _ => ?_
    refine .bind (expression_walks calls _) fun _ => ?_
    exact .bind (.expect (fun _ offDot => offDot) nofun) fun _ => clauseBehind
  · rename_i isDefault
    split
    · exact .refuse _ _
    · exact .bind (.expect (fun cursor isCurrent =>
        (isOn isDefault cursor isCurrent).offDot nofun) nofun) fun _ =>
          clauseBehind
  · exact .refuse _ _
  · exact .refuse _ _

/-- A statement ends where anything that comes next may come next. -/
theorem statement_walks : Walks answers Anywhere statement Joined := by
  refine .current fun token _ => ?_
  have isOn {kind : TokenKind} (isKind : token.kind = kind) (cursor : Cursor)
      (isCurrent : Anywhere cursor ∧ cursor.current = token) : cursor.On kind :=
    (congrArg Token.kind isCurrent.2).trans isKind
  have offDot {kind : TokenKind} (isKind : token.kind = kind) (notDot : kind ≠ .dot)
      (cursor : Cursor) (isCurrent : Anywhere cursor ∧ cursor.current = token) : cursor.OffDot :=
    (isOn isKind cursor isCurrent).offDot notDot
  have evaluates (before : Cursor → Prop) : Walks answers before expressionStatement Joined :=
    (expressionStatement_walks calls).starting fun _ _ => trivial
  have leaves (make : Option Token → Statement) :
      Walks answers OffDot
        (jumpLabel >>= fun label => endStatement >>= fun _ => pure (make label)) Joined :=
    .bind .jumpLabel fun _ => .returning .endStatement
  have tests {later : Expression → Script Statement} {kind : TokenKind}
      (isKind : token.kind = kind) (notDot : kind ≠ .dot)
      (walks : ∀ tested : Expression, Walks answers (On .rightParen) (later tested) Joined) :
      Walks answers (fun cursor => Anywhere cursor ∧ cursor.current = token)
        (condition >>= later) Joined :=
    .bind ((condition_walks calls).starting (offDot isKind notDot)) walks
  have governed : Walks answers (On .rightParen) body Joined :=
    (body_walks calls).starting fun _ isOn => isOn.joined nofun nofun
  split
  · rename_i isVar
    refine .bind (.expect (offDot isVar nofun) nofun) fun _ => ?_
    refine .bind ((calls .declarators trivial).starting fun _ isOn => isOn.offDot nofun)
      fun _ => ?_
    exact .returning .endStatement
  · rename_i isReturn
    refine .next fun following _ => ?_
    split
    · exact .returning (Walks.endStatement.starting fun cursor isBefore =>
        offDot isReturn nofun cursor isBefore.1)
    · refine .bind (.pass fun cursor isBefore =>
        (isOn isReturn cursor isBefore.1).joined nofun nofun) fun _ => ?_
      refine .bind (expression_walks calls _) fun _ => ?_
      exact .returning .endStatement
  · exact tests ‹_› (by decide) fun _ => .bind governed fun _ =>
      .returning (alternative_walks calls)
  · exact tests ‹_› (by decide) fun _ => .returning governed
  · exact (forStatement_walks calls token).starting (offDot ‹_› (by decide))
  · exact (leaves (.leave token)).starting (offDot ‹_› (by decide))
  · exact (leaves (.again token)).starting (offDot ‹_› (by decide))
  · refine tests ‹_› (by decide) fun _ => ?_
    refine .bind (.expect (fun _ isOn => isOn.offDot nofun) nofun) fun _ => ?_
    refine .bind (.pass fun _ isOn => isOn.joined nofun nofun) fun _ => ?_
    exact .returning (calls (.clauses false) trivial)
  · exact .returning ((blockBody_walks calls).starting (isOn ‹_›))
  · exact .pure fun cursor isCurrent =>
      (isOn ‹_› cursor isCurrent).joined (by decide) (by decide)
  · rename_i isWord
    refine .next fun following _ => ?_
    split
    · exact .returning ((functionLiteral_walks calls).starting fun cursor isBefore =>
        offDot isWord nofun cursor isBefore.1)
    · exact evaluates _
  · rename_i isName
    refine .next fun following _ => ?_
    split
    · rename_i isColon
      refine .bind (.take (offDot isName nofun) isColon nofun) fun _ => ?_
      exact .returning ((body_walks calls).starting fun _ isOn => isOn.joined nofun nofun)
    · exact evaluates _
  · exact evaluates _

/-- Every reader walks as it should when the readers that it calls do. -/
theorem script_walks (task : Task α) (given : task.GivenClosing) :
    Walks answers task.Start task.script task.Stop := by
  cases task with
  | statement => exact statement_walks calls
  | declarators => exact declarators_walks calls
  | block => exact block_walks calls
  | clauses hasDefault => exact clauses_walks calls hasDefault
  | clauseBody => exact clauseBody_walks calls
  | parameters => exact parameters_walks calls
  | expression bound =>
      exact .bind (operand_walks calls) fun left => calls (.operators bound left) trivial
  | operators bound left => exact operators_walks calls bound left
  | list closing => exact list_walks calls given
  | properties => exact properties_walks calls

end

/-! ## Programs -/

/-- With any budget every reader walks as it should. -/
theorem answers_walk (budget : Nat) : (Task.answers budget).Walk := by
  induction budget with
  | zero => rintro α task given reading _ _ - - ⟨⟩
  | succ budget inductionHypothesis =>
      intro α task given reading value later spelled starts isRun
      rw [Script.run_read] at isRun
      exact script_walks inductionHypothesis task given reading value later spelled starts isRun

/-- Statements that follow each other are passed token by token. -/
theorem Follows.leads
    {budget : Nat}
    {statements : List Statement}
    (follows : Follows budget start statements stop)
    (spelled : start.Holds Token.IsSpelled) :
    start.Leads stop := by
  induction follows with
  | none cursor => exact .stay cursor
  | @more start stop last first rest _ gives _ inductionHypothesis =>
      obtain ⟨leads, joined⟩ :=
        answers_walk budget .statement trivial ⟨start, [], false⟩ first _ spelled trivial
          (gives ⟨start, [], false⟩ rfl)
      exact leads.trans (.step joined.mayPrecede
        (inductionHypothesis (leads.holds spelled).advance))

end Parser
end ScriptEngine
