import ScriptEngine.Proofs.Program.Parts
import ScriptEngine.Proofs.Program.Fronts

namespace ScriptEngine

/-!
# Reading keeps to the tokens at hand

A program is made of the tokens it was read from, and so is a failure to read it.
Whatever is known of all tokens under the cursor is known of the tokens in what a
reader gives, of the token it fails at, and of the tokens it leaves.  No part is missing
from what a reader gives, and a reader gives nothing exactly when it has recorded a
failure.
-/

variable {token : Token} {cursor : Cursor}

namespace Parser

open Script (current next advance read)

/-- All tokens under a cursor are known. -/
structure Cursor.Holds (known : Token → Prop) (cursor : Cursor) : Prop where
  current : known cursor.current
  next : known cursor.next
  rest : ∀ token ∈ cursor.rest, known token

variable {known : Token → Prop}

theorem Cursor.Holds.advance (holds : cursor.Holds known) : cursor.advance.Holds known := by
  unfold Cursor.advance
  split
  · rename_i token rest isRest
    have rests := holds.rest
    rw [isRest] at rests
    exact ⟨holds.next, rests token (by simp), fun other member => rests other (by simp [member])⟩
  · exact ⟨holds.next, holds.next, by simp⟩

theorem Cursor.Holds.ofTokens
    {tokens : List Token}
    (some : tokens ≠ [])
    (holds : ∀ token ∈ tokens, known token) :
    (Cursor.ofTokens tokens).Holds known := by
  unfold Cursor.ofTokens
  split
  · exact ⟨holds _ (by simp), holds _ (by simp), fun token member => holds token (by simp [member])⟩
  · exact ⟨holds _ (by simp), holds _ (by simp), by simp⟩
  · exact (some rfl).elim

/-- What a reader makes of known tokens: it keeps none but these, and no part is missing. -/
structure Made
    (known : Token → Prop)
    (tokens : α → List Token)
    (complete : α → Prop)
    (value : α) : Prop where
  known : Token.Known known (tokens value)
  complete : complete value

@[simp] theorem made_iff {tokens : α → List Token} {complete : α → Prop} {value : α} :
    Made known tokens complete value ↔ Token.Known known (tokens value) ∧ complete value :=
  ⟨fun made => ⟨made.known, made.complete⟩, fun both => ⟨both.1, both.2⟩⟩

/--
A failure at a known token.  A regular expression is refused only where its literal cannot
be taken apart.
-/
structure Failure.IsKnown (known : Token → Prop) (failure : Failure) : Prop where
  known : known failure.token
  unsplit : failure.fault = .malformedRegex →
    failure.token.kind = .regex ∧ splitRegex? failure.token.literal = none

/-- What a script does from a cursor: it gives what holds, or it fails at a known token. -/
def ReadsAt
    (known : Token → Prop)
    (answers : Answers)
    (holds : α → Prop)
    (script : Script α)
    (cursor : Cursor) : Prop :=
  (∃ value stop, script.Gives answers cursor value stop ∧ holds value ∧ stop.Holds known) ∨
    ∃ failure, script.Fails answers cursor failure ∧ failure.IsKnown known

/-- What a script does with known tokens: it gives what holds, or it fails at one of them. -/
def Reads
    (known : Token → Prop)
    (answers : Answers)
    (holds : α → Prop)
    (script : Script α) : Prop :=
  ∀ cursor, cursor.Holds known → ReadsAt known answers holds script cursor

variable {answers : Answers}

section

variable {holds : α → Prop}

/-- What a script leaves to the next is at hand for it. -/
theorem ReadsAt.bind
    {first : Script β}
    {later : β → Script α}
    {between : β → Prop}
    (readsFirst : ReadsAt known answers between first cursor)
    (readsLater : ∀ value, between value → Reads known answers holds (later value)) :
    ReadsAt known answers holds (first >>= later) cursor := by
  rcases readsFirst with ⟨value, middle, gives, isBetween, middleHolds⟩ | ⟨failure, fails, isKnown⟩
  · rcases readsLater value isBetween middle middleHolds with
      ⟨result, stop, givesLater, holdsResult, stopHolds⟩ | ⟨failure, failsLater, isKnown⟩
    · exact .inl ⟨result, stop, gives.bind givesLater, holdsResult, stopHolds⟩
    · exact .inr ⟨failure, .later gives failsLater, isKnown⟩
  · exact .inr ⟨failure, fails.bind later, isKnown⟩

/-- A script that looks at the next token stays where it is. -/
theorem ReadsAt.next
    {later : Token → Script α}
    (readsLater : ReadsAt known answers holds (later cursor.next) cursor) :
    ReadsAt known answers holds (next >>= later) cursor := by
  rcases readsLater with ⟨result, stop, gives, holdsResult, stopHolds⟩ | ⟨failure, fails, isKnown⟩
  · exact .inl ⟨result, stop, .bind (.next cursor) gives, holdsResult, stopHolds⟩
  · exact .inr ⟨failure, .later (.next cursor) fails, isKnown⟩

namespace Reads

theorem pure {value : α} (holdsValue : holds value) : Reads known answers holds (pure value) :=
  fun cursor cursorHolds => .inl ⟨value, cursor, .give value cursor, holdsValue, cursorHolds⟩

theorem bind
    {first : Script β}
    {later : β → Script α}
    {between : β → Prop}
    (readsFirst : Reads known answers between first)
    (readsLater : ∀ value, between value → Reads known answers holds (later value)) :
    Reads known answers holds (first >>= later) :=
  fun cursor cursorHolds => (readsFirst cursor cursorHolds).bind readsLater

theorem current : Reads known answers known current :=
  fun cursor cursorHolds =>
    .inl ⟨cursor.current, cursor, .current cursor, cursorHolds.current, cursorHolds⟩

theorem next : Reads known answers known next :=
  fun cursor cursorHolds => .inl ⟨cursor.next, cursor, .next cursor, cursorHolds.next, cursorHolds⟩

theorem advance : Reads known answers (fun _ => True) advance :=
  fun cursor cursorHolds =>
    .inl ⟨(), cursor.advance, .advance cursor, trivial, cursorHolds.advance⟩

theorem refuse {fault : GrammarFault} (isKnown : known token) (isOther : fault ≠ .malformedRegex) :
    Reads known answers holds (Parser.refuse token fault) :=
  fun cursor _ => .inr ⟨⟨token, fault⟩, .refuse token fault cursor, isKnown, (absurd · isOther)⟩

theorem refuseNext (wanted : TokenKind) : Reads known answers holds (Parser.refuseNext wanted) :=
  .bind next fun _ isKnown => .refuse isKnown (by simp)

end Reads

end

namespace Reads

theorem expect (kind : TokenKind) : Reads known answers (fun _ => True) (Parser.expect kind) := by
  refine .bind next fun token _ => ?_
  split
  · exact advance
  · exact refuseNext kind

theorem endStatement : Reads known answers (fun _ => True) Parser.endStatement := by
  refine .bind next fun token _ => ?_
  split
  · exact advance
  · split
    · exact .pure trivial
    · exact refuseNext _

theorem jumpLabel :
    Reads known answers (fun label => Token.Known known label.toList) Parser.jumpLabel := by
  refine .bind next fun token isKnown => ?_
  split
  · exact .bind advance fun _ _ => .pure (by simpa using isKnown)
  · exact .pure (by simp)

theorem numberValue (isKnown : known token) :
    Reads known answers (fun _ => True) (Parser.numberValue token) := by
  unfold Parser.numberValue
  split
  · exact .pure trivial
  · exact .refuse isKnown (by simp)

theorem propertyKey : Reads known answers (fun key => known key.token) Parser.propertyKey := by
  refine .bind current fun token isKnown => ?_
  split
  · exact .pure isKnown
  · split
    · exact .bind (numberValue isKnown) fun _ _ => .pure isKnown
    · split
      · exact .pure isKnown
      · split
        · exact .refuse isKnown (by simp)
        · exact .refuse isKnown (by simp)

theorem betweenProperties : Reads known answers (fun _ => True) Parser.betweenProperties := by
  refine .bind next fun token _ => ?_
  split
  · exact .pure trivial
  · exact expect _

end Reads

theorem made_extendSequence
    {left right : Expression}
    (isKnown : known token)
    (leftMade : Made known Expression.tokens Expression.Complete left)
    (rightMade : Made known Expression.tokens Expression.Complete right) :
    Made known Expression.tokens Expression.Complete (extendSequence token left right) := by
  obtain ⟨leftKnown, leftComplete⟩ := leftMade
  obtain ⟨rightKnown, rightComplete⟩ := rightMade
  have known_all (front : List Expression) :
      Token.Known known (Expression.tokensAll front) →
        Token.Known known (Expression.tokensAll (front ++ [right])) := by
    induction front with
    | nil => simp [Expression.tokensAll, rightKnown]
    | cons first rest inductionHypothesis =>
        simp only [List.cons_append, Expression.tokensAll, Token.known_append]
        rintro ⟨firstKnown, restKnown⟩
        exact ⟨firstKnown, inductionHypothesis restKnown⟩
  unfold extendSequence
  split
  · simp only [Expression.tokens, Token.known_cons, Token.known_append] at leftKnown
    simp only [Expression.Complete, Expression.allComplete_iff] at leftComplete
    refine ⟨?_, ?_⟩
    · simp only [Expression.tokens, Token.known_cons, Token.known_append]
      exact ⟨leftKnown.1, leftKnown.2.1, known_all _ leftKnown.2.2⟩
    · simp only [Expression.Complete, Expression.allComplete_iff, List.forall_mem_append]
      exact ⟨leftComplete.1, by simp, leftComplete.2.2, by simpa using rightComplete⟩
  · simp [Expression.tokens, Expression.tokensAll, isKnown, leftKnown, rightKnown, leftComplete,
      rightComplete]

namespace Task

/-- What a reader has been given already: an operand that was made of known tokens. -/
def Given (known : Token → Prop) : {α : Type} → Task α → Prop
  | _, operators _ left => Made known Expression.tokens Expression.Complete left
  | _, _ => True

/-- What a reader makes. -/
def Makes (known : Token → Prop) : {α : Type} → Task α → α → Prop
  | _, statement => Made known Statement.tokens Statement.Complete
  | _, declarators =>
      Made known Declarator.tokensAll fun parts => parts ≠ [] ∧ Declarator.AllComplete parts
  | _, block => Made known Statement.tokensAll Statement.AllComplete
  | _, clauses _ => Made known Clause.tokensAll Clause.AllComplete
  | _, clauseBody => Made known Statement.tokensAll Statement.AllComplete
  | _, parameters => Token.Known known
  | _, expression _ => Made known Expression.tokens Expression.Complete
  | _, operators _ _ => Made known Expression.tokens Expression.Complete
  | _, list _ => Made known Expression.tokensAll Expression.AllComplete
  | _, properties => Made known Property.tokensAll Property.AllComplete

end Task

/-- Every task is answered as its reader should. -/
def Answers.Read (known : Token → Prop) (answers : Answers) : Prop :=
  ∀ {α : Type} (task : Task α), task.Given known →
    Reads known answers (task.Makes known) (read task)

/-! ## Expressions -/

section

variable (calls : answers.Read known)

include calls

theorem expression_reads (bound : Precedence) :
    Reads known answers (Made known Expression.tokens Expression.Complete)
      (read (.expression bound)) :=
  calls (.expression bound) trivial

theorem expressionList_reads (closing : TokenKind) :
    Reads known answers (Made known Expression.tokensAll Expression.AllComplete)
      (expressionList closing) := by
  refine .bind .next fun following _ => ?_
  split
  · exact .bind .advance fun _ _ => .pure (by simp [Expression.tokensAll])
  · exact calls (.list closing) trivial

theorem list_reads (closing : TokenKind) :
    Reads known answers (Made known Expression.tokensAll Expression.AllComplete)
      (list closing) := by
  refine .bind .advance fun _ _ => ?_
  refine .bind (expression_reads calls _) ?_
  rintro first ⟨firstKnown, isFirst⟩
  refine .bind .next fun following _ => ?_
  split
  · refine .bind .advance fun _ _ => .bind .next fun following _ => ?_
    split
    · exact .bind .advance fun _ _ => .pure (by simp [Expression.tokensAll, firstKnown, isFirst])
    · refine .bind (calls (.list closing) trivial) ?_
      rintro rest ⟨restKnown, isRest⟩
      exact .pure (by simp [Expression.tokensAll, firstKnown, restKnown, isFirst, isRest])
  · exact .bind (.expect _) fun _ _ =>
      .pure (by simp [Expression.tokensAll, firstKnown, isFirst])

theorem properties_reads :
    Reads known answers (Made known Property.tokensAll Property.AllComplete) properties := by
  refine .bind .next fun following _ => ?_
  split
  · exact .bind .advance fun _ _ => .pure (by simp [Property.tokensAll])
  · refine .bind .advance fun _ _ => .bind .propertyKey fun key keyKnown => ?_
    refine .bind (.expect _) fun _ _ => .bind .advance fun _ _ => ?_
    refine .bind (expression_reads calls _) ?_
    rintro value ⟨valueKnown, isValue⟩
    refine .bind .betweenProperties fun _ _ => ?_
    refine .bind (calls .properties trivial) ?_
    rintro rest ⟨restKnown, isRest⟩
    exact .pure (by simp [Property.tokensAll, keyKnown, valueKnown, restKnown, isValue, isRest])

theorem parameters_reads : Reads known answers (Token.Known known) parameters := by
  refine .bind (.expect _) fun _ _ => .bind .current fun parameter isKnown => ?_
  refine .bind .next fun token _ => ?_
  split
  · refine .bind .advance fun _ _ => .bind (calls .parameters trivial) fun names namesKnown => ?_
    exact .pure (Token.known_cons parameter names |>.mpr ⟨isKnown, namesKnown⟩)
  · exact .bind (.expect _) fun _ _ => .pure (by simpa using isKnown)

theorem parameterList_reads : Reads known answers (Token.Known known) parameterList := by
  refine .bind .next fun token _ => ?_
  split
  · exact .bind .advance fun _ _ => .pure (by simp)
  · exact calls .parameters trivial

theorem blockBody_reads :
    Reads known answers (Made known Statement.tokensAll Statement.AllComplete) blockBody :=
  .bind .advance fun _ _ => calls .block trivial

omit calls in
/-- A function has a name when an identifier comes next. -/
theorem functionName_readsAt (cursorHolds : cursor.Holds known) :
    ReadsAt known answers
      (fun name => Token.Known known name.toList ∧
        (cursor.next.kind = .identifier → name.isSome))
      functionName cursor := by
  refine .next ?_
  split
  · refine Reads.bind .advance (fun _ _ => .pure ⟨?_, ?_⟩) cursor cursorHolds
    · simpa using cursorHolds.next
    · simp
  · rename_i unnamed
    exact Reads.pure ⟨by simp, fun named => absurd named unnamed⟩ cursor cursorHolds

/-- A function is read from the tokens at hand, and has a name when an identifier comes next. -/
theorem functionLiteral_readsAt (cursorHolds : cursor.Holds known) :
    ReadsAt known answers
      (fun read => Made known FunctionLiteral.tokens FunctionLiteral.Complete read ∧
        (cursor.next.kind = .identifier → read.name.isSome))
      functionLiteral cursor := by
  have later (token : Token) (isKnown : known token) :
      ReadsAt known answers
        (fun read => Made known FunctionLiteral.tokens FunctionLiteral.Complete read ∧
          (cursor.next.kind = .identifier → read.name.isSome))
        (do
          let name ← functionName
          expect .leftParen
          let parameters ← parameterList
          expect .leftBrace
          return .mk token name parameters (← blockBody)) cursor := by
    refine (functionName_readsAt cursorHolds).bind ?_
    rintro name ⟨nameKnown, named⟩
    refine .bind (.expect _) fun _ _ => .bind (parameterList_reads calls) fun names namesKnown => ?_
    refine .bind (.expect _) fun _ _ => ?_
    refine .bind (blockBody_reads calls) ?_
    rintro inner ⟨innerKnown, isInner⟩
    refine .pure ⟨?_, named⟩
    simp [FunctionLiteral.tokens, isKnown, nameKnown, namesKnown, innerKnown, isInner]
  rcases later cursor.current cursorHolds.current with
    ⟨value, stop, gives, holdsValue, stopHolds⟩ | ⟨failure, fails, isKnown⟩
  · exact .inl ⟨value, stop, .bind (.current cursor) gives, holdsValue, stopHolds⟩
  · exact .inr ⟨failure, .later (.current cursor) fails, isKnown⟩

theorem functionLiteral_reads :
    Reads known answers (Made known FunctionLiteral.tokens FunctionLiteral.Complete)
      functionLiteral := by
  intro cursor cursorHolds
  rcases functionLiteral_readsAt calls cursorHolds with
    ⟨value, stop, gives, holdsValue, stopHolds⟩ | fails
  · exact .inl ⟨value, stop, gives, holdsValue.1, stopHolds⟩
  · exact .inr fails

theorem constructorArguments_reads :
    Reads known answers (Made known Expression.tokensAll Expression.AllComplete)
      constructorArguments := by
  refine .bind .next fun following _ => ?_
  split
  · exact .bind .advance fun _ _ => expressionList_reads calls _
  · exact .pure (by simp [Expression.tokensAll])

omit calls in
theorem regexLiteral_reads (isKnown : known token) (isRegex : token.kind = .regex) :
    Reads known answers (Made known Expression.tokens Expression.Complete)
      (regexLiteral token) := by
  unfold regexLiteral
  split
  · exact .pure (by simp [Expression.tokens, isKnown])
  · rename_i unsplit
    exact fun cursor _ =>
      .inr ⟨_, .refuse token .malformedRegex cursor, isKnown, fun _ => ⟨isRegex, unsplit⟩⟩

/-- Something is made with the expression behind a mark. -/
theorem marked_reads
    {α : Type}
    {bound : Precedence}
    {holds : α → Prop}
    {make : Expression → α}
    (makes : ∀ inner, Made known Expression.tokens Expression.Complete inner →
      holds (make inner)) :
    Reads known answers holds (do advance; return make (← read (.expression bound))) :=
  .bind .advance fun _ _ => .bind (expression_reads calls _) fun inner made =>
    .pure (makes inner made)

/-- An operand is read from the tokens at hand. -/
theorem operand_reads :
    Reads known answers (Made known Expression.tokens Expression.Complete) operand := by
  refine .bind .current fun token isKnown => ?_
  split
  · exact marked_reads calls fun _ ⟨innerKnown, isInner⟩ => by
      simp [Expression.tokens, isKnown, innerKnown, isInner]
  · exact marked_reads calls fun _ ⟨innerKnown, isInner⟩ => by
      simp [Expression.tokens, isKnown, innerKnown, isInner]
  · split
    · exact .pure (by simp [Expression.tokens, isKnown])
    · exact .bind (.numberValue isKnown) fun _ _ => .pure (by simp [Expression.tokens, isKnown])
    · exact .pure (by simp [Expression.tokens, isKnown])
    · rename_i isRegex
      exact regexLiteral_reads isKnown isRegex
    · exact .pure (by simp [Expression.tokens, isKnown])
    · exact .pure (by simp [Expression.tokens, isKnown])
    · exact .pure (by simp [Expression.tokens, isKnown])
    · refine .bind (functionLiteral_reads calls) ?_
      rintro literal ⟨literalKnown, isLiteral⟩
      exact .pure (by simpa [Expression.tokens] using ⟨literalKnown, isLiteral⟩)
    · refine .bind (expressionList_reads calls _) ?_
      rintro all ⟨allKnown, areComplete⟩
      exact .pure (by simp [Expression.tokens, isKnown, allKnown, areComplete])
    · refine .bind (calls .properties trivial) ?_
      rintro all ⟨allKnown, areComplete⟩
      exact .pure (by simp [Expression.tokens, isKnown, allKnown, areComplete])
    · refine .bind .advance fun _ _ => ?_
      refine .bind (expression_reads calls _) fun inner innerMade => ?_
      exact .bind (.expect _) fun _ _ => .pure innerMade
    · exact marked_reads calls fun _ ⟨innerKnown, isInner⟩ => by
        simp [Expression.tokens, isKnown, innerKnown, isInner]
    · exact marked_reads calls fun _ ⟨innerKnown, isInner⟩ => by
        simp [Expression.tokens, isKnown, innerKnown, isInner]
    · refine .bind .advance fun _ _ => ?_
      refine .bind (expression_reads calls _) ?_
      rintro inner ⟨innerKnown, isInner⟩
      refine .bind (constructorArguments_reads calls) ?_
      rintro all ⟨allKnown, areComplete⟩
      exact .pure (by simp [Expression.tokens, isKnown, innerKnown, allKnown, isInner, areComplete])
    · exact .refuse isKnown (by unfold illegalFault; split <;> simp)
    · exact .refuse isKnown (by simp)
    · exact .refuse isKnown (by simp)

/-- An operator takes in what was read before it. -/
theorem operator_reads
    {left : Expression}
    (isKnown : known token)
    (leftMade : Made known Expression.tokens Expression.Complete left) :
    Reads known answers (Made known Expression.tokens Expression.Complete)
      (operator token left) := by
  obtain ⟨leftKnown, isLeft⟩ := leftMade
  unfold operator
  split
  · exact marked_reads calls fun _ ⟨rightKnown, isRight⟩ => by
      simp [Expression.tokens, isKnown, leftKnown, rightKnown, isLeft, isRight]
  · exact marked_reads calls fun _ ⟨valueKnown, isValue⟩ => by
      simp [Expression.tokens, isKnown, leftKnown, valueKnown, isLeft, isValue]
  · exact .pure (by simp [Expression.tokens, isKnown, leftKnown, isLeft])
  · split
    · refine .bind .advance fun _ _ => ?_
      refine .bind (expression_reads calls _) ?_
      rintro consequence ⟨consequenceKnown, isMet⟩
      refine .bind (.expect _) fun _ _ => .bind .advance fun _ _ => ?_
      refine .bind (expression_reads calls _) ?_
      rintro alternative ⟨alternativeKnown, isUnmet⟩
      exact .pure (by simp [Expression.tokens, isKnown, leftKnown, consequenceKnown,
        alternativeKnown, isLeft, isMet, isUnmet])
    · exact marked_reads calls fun _ rightMade =>
        made_extendSequence isKnown ⟨leftKnown, isLeft⟩ rightMade
    · refine .bind (expressionList_reads calls _) ?_
      rintro all ⟨allKnown, areComplete⟩
      exact .pure (by simp [Expression.tokens, isKnown, leftKnown, allKnown, isLeft, areComplete])
    · refine .bind .next fun property propertyKnown => ?_
      split
      · exact .bind .advance fun _ _ =>
          .pure (by simp [Expression.tokens, isKnown, leftKnown, propertyKnown, isLeft])
      · exact .refuseNext _
    · refine .bind .advance fun _ _ => ?_
      refine .bind (expression_reads calls _) ?_
      rintro key ⟨keyKnown, isKey⟩
      exact .bind (.expect _) fun _ _ =>
        .pure (by simp [Expression.tokens, isKnown, leftKnown, keyKnown, isLeft, isKey])

theorem operators_reads
    (bound : Precedence)
    {left : Expression}
    (leftMade : Made known Expression.tokens Expression.Complete left) :
    Reads known answers (Made known Expression.tokens Expression.Complete)
      (operators bound left) := by
  refine .bind .next fun token isKnown => ?_
  split
  · exact .pure leftMade
  · split
    · exact .pure leftMade
    · refine .bind .advance fun _ _ => ?_
      refine .bind (operator_reads calls isKnown leftMade) fun extended extendedMade => ?_
      exact calls (.operators bound extended) extendedMade

/-! ## Statements -/

theorem expressionStatement_reads :
    Reads known answers (Made known Statement.tokens Statement.Complete) expressionStatement := by
  refine .bind .current fun token isKnown => ?_
  refine .bind (expression_reads calls _) ?_
  rintro value ⟨valueKnown, isValue⟩
  exact .bind .endStatement fun _ _ =>
    .pure (by simp [Statement.tokens, isKnown, valueKnown, isValue])

theorem initialValue_reads :
    Reads known answers (Made known Expression.tokensOption Expression.OptionComplete)
      initialValue := by
  refine .bind .next fun following _ => ?_
  split
  · refine .bind .advance fun _ _ => .bind .advance fun _ _ => ?_
    refine .bind (expression_reads calls _) ?_
    rintro value ⟨valueKnown, isValue⟩
    exact .pure (by simp [Expression.tokensOption, valueKnown, isValue])
  · exact .pure (by simp [Expression.tokensOption])

theorem declarators_reads :
    Reads known answers
      (Made known Declarator.tokensAll fun parts => parts ≠ [] ∧ Declarator.AllComplete parts)
      declarators := by
  refine .bind .current fun name nameKnown => ?_
  refine .bind (initialValue_reads calls) ?_
  rintro value ⟨valueKnown, isValue⟩
  refine .bind .next fun following _ => ?_
  split
  · refine .bind .advance fun _ _ => .bind (.expect _) fun _ _ => ?_
    refine .bind (calls .declarators trivial) ?_
    rintro rest ⟨restKnown, _, isRest⟩
    exact .pure (by simp [Declarator.tokensAll, nameKnown, valueKnown, restKnown, isValue, isRest])
  · exact .pure (by simp [Declarator.tokensAll, nameKnown, valueKnown, isValue])

theorem condition_reads :
    Reads known answers (Made known Expression.tokens Expression.Complete) condition := by
  refine .bind (.expect _) fun _ _ => .bind .advance fun _ _ => ?_
  refine .bind (expression_reads calls _) fun value valueMade => ?_
  exact .bind (.expect _) fun _ _ => .pure valueMade

theorem body_reads : Reads known answers (Made known Statement.tokens Statement.Complete) body := by
  refine .bind .advance fun _ _ => .bind .current fun token isKnown => ?_
  split
  · exact .refuse isKnown (by simp)
  · exact calls .statement trivial

theorem alternative_reads :
    Reads known answers (Made known Statement.tokensOption Statement.OptionComplete)
      alternative := by
  refine .bind .next fun following _ => ?_
  split
  · refine .bind .advance fun _ _ => .bind (body_reads calls) ?_
    rintro inner ⟨innerKnown, isInner⟩
    exact .pure (by simp [Statement.tokensOption, innerKnown, isInner])
  · exact .pure (by simp [Statement.tokensOption])

theorem block_reads :
    Reads known answers (Made known Statement.tokensAll Statement.AllComplete) block := by
  refine .bind .current fun token isKnown => ?_
  split
  · exact .pure (by simp [Statement.tokensAll])
  · split
    · exact .refuse isKnown (by simp)
    · refine .bind (calls .statement trivial) ?_
      rintro first ⟨firstKnown, isFirst⟩
      refine .bind .advance fun _ _ => ?_
      refine .bind (calls .block trivial) ?_
      rintro rest ⟨restKnown, isRest⟩
      exact .pure (by simp [Statement.tokensAll, firstKnown, restKnown, isFirst, isRest])

theorem expressionUnless_reads (kind : TokenKind) :
    Reads known answers (Made known Expression.tokensOption Expression.OptionComplete)
      (expressionUnless kind) := by
  refine .bind .next fun following _ => ?_
  split
  · exact .pure (by simp [Expression.tokensOption])
  · exact marked_reads calls fun _ ⟨valueKnown, isValue⟩ => by
      simp [Expression.tokensOption, valueKnown, isValue]

theorem forRest_reads
    {start : Option Statement}
    (isKnown : known token)
    (starts : ∀ statement ∈ start, statement.StartsLoop)
    (startMade : Made known Statement.tokensOption Statement.OptionComplete start) :
    Reads known answers (Made known Statement.tokens Statement.Complete)
      (forRest token start) := by
  obtain ⟨startKnown, isStart⟩ := startMade
  refine .bind (expressionUnless_reads calls _) ?_
  rintro tested ⟨testedKnown, isTested⟩
  refine .bind (.expect _) fun _ _ => ?_
  refine .bind (expressionUnless_reads calls _) ?_
  rintro update ⟨updateKnown, isUpdate⟩
  refine .bind (.expect _) fun _ _ => ?_
  refine .bind (body_reads calls) ?_
  rintro inner ⟨innerKnown, isInner⟩
  refine .pure ⟨?_, ?_⟩
  · simp [Statement.tokens, isKnown, startKnown, testedKnown, updateKnown, innerKnown]
  · rw [Statement.Complete]
    exact ⟨starts, isStart, isTested, isUpdate, isInner⟩

theorem forInRest_reads (declares : Bool) (isKnown : known token) :
    Reads known answers (Made known Statement.tokens Statement.Complete)
      (forInRest token declares) := by
  refine .bind .current fun name nameKnown => ?_
  refine .bind .advance fun _ _ => .bind .advance fun _ _ => ?_
  refine .bind (expression_reads calls _) ?_
  rintro subject ⟨subjectKnown, isSubject⟩
  refine .bind (.expect _) fun _ _ => ?_
  refine .bind (body_reads calls) ?_
  rintro inner ⟨innerKnown, isInner⟩
  exact .pure (by simp [Statement.tokens, isKnown, nameKnown, subjectKnown, innerKnown, isSubject,
    isInner])

theorem forDeclared_reads (isKnown : known token) :
    Reads known answers (Made known Statement.tokens Statement.Complete) (forDeclared token) := by
  refine .bind .current fun word wordKnown => ?_
  refine .bind (.expect _) fun _ _ => .bind .next fun following _ => ?_
  split
  · exact forInRest_reads calls true isKnown
  · refine .bind (calls .declarators trivial) ?_
    rintro parts ⟨partsKnown, areSome, areComplete⟩
    refine .bind (.expect _) fun _ _ => forRest_reads calls isKnown ?_ ?_
    · simp [Statement.StartsLoop]
    · simp [Statement.tokensOption, Statement.tokens, wordKnown, partsKnown, areSome, areComplete]

theorem forEvaluated_reads
    {token first : Token}
    (isKnown : known token)
    (firstKnown : known first) :
    Reads known answers (Made known Statement.tokens Statement.Complete)
      (forEvaluated token first) := by
  refine .bind (expression_reads calls _) ?_
  rintro value ⟨valueKnown, isValue⟩
  refine .bind (.expect _) fun _ _ => forRest_reads calls isKnown ?_ ?_
  · simp [Statement.StartsLoop]
  · simp [Statement.tokensOption, Statement.tokens, firstKnown, valueKnown, isValue]

theorem forStatement_reads (isKnown : known token) :
    Reads known answers (Made known Statement.tokens Statement.Complete) (forStatement token) := by
  refine .bind (.expect _) fun _ _ => .bind .next fun following _ => ?_
  split
  · exact .bind .advance fun _ _ =>
      forRest_reads calls isKnown (by simp) (by simp [Statement.tokensOption])
  · split
    · exact .bind .advance fun _ _ => forDeclared_reads calls isKnown
    · refine .bind .advance fun _ _ => .bind .current fun first firstKnown => ?_
      split
      · refine .bind .next fun following _ => ?_
        split
        · exact forInRest_reads calls false isKnown
        · exact forEvaluated_reads calls isKnown firstKnown
      · exact forEvaluated_reads calls isKnown firstKnown

theorem clauseBody_reads :
    Reads known answers (Made known Statement.tokensAll Statement.AllComplete) clauseBody := by
  refine .bind .current fun token isKnown => ?_
  split
  · exact .pure (by simp [Statement.tokensAll])
  · exact .pure (by simp [Statement.tokensAll])
  · exact .pure (by simp [Statement.tokensAll])
  · exact .refuse isKnown (by simp)
  · refine .bind (calls .statement trivial) ?_
    rintro first ⟨firstKnown, isFirst⟩
    refine .bind .advance fun _ _ => ?_
    refine .bind (calls .clauseBody trivial) ?_
    rintro rest ⟨restKnown, isRest⟩
    exact .pure (by simp [Statement.tokensAll, firstKnown, restKnown, isFirst, isRest])

theorem clauses_reads (hasDefault : Bool) :
    Reads known answers (Made known Clause.tokensAll Clause.AllComplete) (clauses hasDefault) := by
  refine .bind .current fun token isKnown => ?_
  split
  · exact .pure (by simp [Clause.tokensAll])
  · refine .bind .advance fun _ _ => ?_
    refine .bind (expression_reads calls _) ?_
    rintro tested ⟨testedKnown, isTested⟩
    refine .bind (.expect _) fun _ _ => .bind .advance fun _ _ => ?_
    refine .bind (calls .clauseBody trivial) ?_
    rintro inner ⟨innerKnown, isInner⟩
    refine .bind (calls (.clauses hasDefault) trivial) ?_
    rintro rest ⟨restKnown, isRest⟩
    exact .pure (by simp [Clause.tokensAll, Expression.tokensOption, isKnown, testedKnown,
      innerKnown, restKnown, isTested, isInner, isRest])
  · split
    · exact .refuse isKnown (by simp)
    · refine .bind (.expect _) fun _ _ => .bind .advance fun _ _ => ?_
      refine .bind (calls .clauseBody trivial) ?_
      rintro inner ⟨innerKnown, isInner⟩
      refine .bind (calls (.clauses true) trivial) ?_
      rintro rest ⟨restKnown, isRest⟩
      exact .pure (by simp [Clause.tokensAll, Expression.tokensOption, isKnown, innerKnown,
        restKnown, isInner, isRest])
  · exact .refuse isKnown (by simp)
  · exact .refuse isKnown (by simp)

/-- A statement is read from the tokens at hand. -/
theorem statement_reads :
    Reads known answers (Made known Statement.tokens Statement.Complete) statement := by
  refine .bind .current fun token isKnown => ?_
  split
  · refine .bind (.expect _) fun _ _ => ?_
    refine .bind (calls .declarators trivial) ?_
    rintro parts ⟨partsKnown, areSome, areComplete⟩
    exact .bind .endStatement fun _ _ =>
      .pure (by simp [Statement.tokens, isKnown, partsKnown, areSome, areComplete])
  · refine .bind .next fun following _ => ?_
    split
    · exact .bind .endStatement fun _ _ =>
        .pure (by simp [Statement.tokens, Expression.tokensOption, isKnown])
    · refine .bind .advance fun _ _ => ?_
      refine .bind (expression_reads calls _) ?_
      rintro value ⟨valueKnown, isValue⟩
      exact .bind .endStatement fun _ _ =>
        .pure (by simp [Statement.tokens, Expression.tokensOption, isKnown, valueKnown, isValue])
  · refine .bind (condition_reads calls) ?_
    rintro tested ⟨testedKnown, isTested⟩
    refine .bind (body_reads calls) ?_
    rintro consequence ⟨consequenceKnown, isMet⟩
    refine .bind (alternative_reads calls) ?_
    rintro other ⟨otherKnown, isUnmet⟩
    exact .pure (by simp [Statement.tokens, isKnown, testedKnown, consequenceKnown, otherKnown,
      isTested, isMet, isUnmet])
  · refine .bind (condition_reads calls) ?_
    rintro tested ⟨testedKnown, isTested⟩
    refine .bind (body_reads calls) ?_
    rintro inner ⟨innerKnown, isInner⟩
    exact .pure (by simp [Statement.tokens, isKnown, testedKnown, innerKnown, isTested, isInner])
  · exact forStatement_reads calls isKnown
  · refine .bind .jumpLabel fun label labelKnown => ?_
    exact .bind .endStatement fun _ _ => .pure (by simp [Statement.tokens, isKnown, labelKnown])
  · refine .bind .jumpLabel fun label labelKnown => ?_
    exact .bind .endStatement fun _ _ => .pure (by simp [Statement.tokens, isKnown, labelKnown])
  · refine .bind (condition_reads calls) ?_
    rintro subject ⟨subjectKnown, isSubject⟩
    refine .bind (.expect _) fun _ _ => .bind .advance fun _ _ => ?_
    refine .bind (calls (.clauses false) trivial) ?_
    rintro cases ⟨casesKnown, areCases⟩
    exact .pure (by simp [Statement.tokens, isKnown, subjectKnown, casesKnown, isSubject, areCases])
  · refine .bind (blockBody_reads calls) ?_
    rintro inner ⟨innerKnown, isInner⟩
    exact .pure (by simp [Statement.tokens, isKnown, innerKnown, isInner])
  · exact .pure (by simp [Statement.tokens, isKnown])
  · intro cursor cursorHolds
    refine .next ?_
    split
    · rename_i named
      refine (functionLiteral_readsAt calls cursorHolds).bind ?_
      rintro literal ⟨made, hasName⟩
      obtain ⟨literalKnown, isLiteral⟩ := made
      exact .pure (by simp [Statement.tokens, isKnown, literalKnown, isLiteral, hasName named])
    · exact expressionStatement_reads calls cursor cursorHolds
  · refine .bind .next fun following _ => ?_
    split
    · refine .bind .advance fun _ _ => ?_
      refine .bind (body_reads calls) ?_
      rintro inner ⟨innerKnown, isInner⟩
      exact .pure (by simp [Statement.tokens, isKnown, innerKnown, isInner])
    · exact expressionStatement_reads calls
  · exact expressionStatement_reads calls

/-- Every reader keeps to the tokens at hand when the readers that it calls do. -/
theorem script_reads (task : Task α) (given : task.Given known) :
    Reads known answers (task.Makes known) task.script := by
  cases task with
  | statement => exact statement_reads calls
  | declarators => exact declarators_reads calls
  | block => exact block_reads calls
  | clauses hasDefault => exact clauses_reads calls hasDefault
  | clauseBody => exact clauseBody_reads calls
  | parameters => exact parameters_reads calls
  | expression bound =>
      refine .bind (operand_reads calls) fun left leftMade => ?_
      exact calls (.operators bound left) leftMade
  | operators bound left => exact operators_reads calls bound given
  | list closing => exact list_reads calls closing
  | properties => exact properties_reads calls

end

/-! ## Programs -/

/-- With any budget every reader keeps to the tokens at hand. -/
theorem answers_read (budget : Nat) : (Task.answers budget).Read known := by
  induction budget with
  | zero =>
      intro α task given cursor cursorHolds
      refine .inr ⟨⟨cursor.current, .tooDeep⟩, ?_, cursorHolds.current, by simp⟩
      rintro reading rfl
      exact ⟨reading.cursor, rfl⟩
  | succ budget inductionHypothesis =>
      intro α task given cursor cursorHolds
      rcases script_reads inductionHypothesis task given cursor cursorHolds with
        ⟨value, stop, gives, holdsValue, stopHolds⟩ | ⟨failure, fails, isKnown⟩
      · exact .inl ⟨value, stop, gives.read, holdsValue, stopHolds⟩
      · exact .inr ⟨failure, fails.read, isKnown⟩

/-- Statements that are read one after the other, none of them at the end of input. -/
inductive Follows (budget : Nat) : Cursor → List Statement → Cursor → Prop where
  | none (cursor : Cursor) : Follows budget cursor [] cursor
  | more {start stop last : Cursor} {first : Statement} {rest : List Statement} :
      start.current.kind ≠ .endOfInput →
      (read .statement).Gives (Task.answers budget) start first stop →
      Follows budget stop.advance rest last →
      Follows budget start (first :: rest) last

/--
Where a program stopped and why: at the end of input, at a statement that could not be
read, or because as many statements were read as there were steps.
-/
inductive Stops (steps budget : Nat) (before : Reading) (statements : List Statement)
    (cursor : Cursor) (after : Reading) : Prop where
  | atEnd :
      cursor.current.kind = .endOfInput →
      after = { before with cursor := cursor } →
      Stops steps budget before statements cursor after
  | failing {failure : Failure} {stop : Cursor} :
      cursor.current.kind ≠ .endOfInput →
      (read .statement).Fails (Task.answers budget) cursor failure →
      after = { before.record failure with cursor := stop } →
      Stops steps budget before statements cursor after
  | exhausted :
      statements.length = steps →
      after = { before.record ⟨cursor.current, .tooDeep⟩ with cursor := cursor } →
      Stops steps budget before statements cursor after

/-- A program is read statement by statement up to the end of input or the first failure. -/
theorem statementsFrom_follows
    (steps budget : Nat)
    {reading : Reading}
    (noFailure : reading.failures = []) :
    ∃ cursor,
      Follows budget reading.cursor (statementsFrom steps budget reading).1 cursor ∧
        Stops steps budget reading (statementsFrom steps budget reading).1 cursor
          (statementsFrom steps budget reading).2 := by
  induction steps generalizing reading with
  | zero => exact ⟨reading.cursor, .none _, .exhausted rfl rfl⟩
  | succ steps inductionHypothesis =>
      unfold statementsFrom
      split
      · rename_i isEnd
        exact ⟨reading.cursor, .none _, .atEnd isEnd rfl⟩
      · rename_i goesOn
        have readsAt := @answers_read (fun _ => True) budget _ .statement trivial
          reading.cursor ⟨trivial, trivial, fun _ _ => trivial⟩
        rcases readsAt with ⟨first, stop, gives, -, -⟩ | ⟨failure, fails, -⟩
        · have isRun : Task.answers budget _ .statement reading = _ := gives reading rfl
          rw [isRun]
          obtain ⟨last, follows, stops⟩ :=
            @inductionHypothesis { reading with cursor := stop.advance } noFailure
          refine ⟨last, .more goesOn gives follows, ?_⟩
          cases stops with
          | atEnd isEnd isAfter => exact .atEnd isEnd isAfter
          | failing goesOn fails isAfter => exact .failing goesOn fails isAfter
          | exhausted isLength isAfter => exact .exhausted (congrArg Nat.succ isLength) isAfter
        · obtain ⟨stop, isRun⟩ := fails reading rfl
          have isRun : Task.answers budget _ .statement reading = _ := isRun
          have recorded : ¬(reading.record failure).failures.isEmpty = true := by
            simp [Reading.record, noFailure, Reading.failureLimit]
          rw [isRun]
          dsimp only
          rw [if_neg recorded]
          exact ⟨reading.cursor, .none _, .failing goesOn fails rfl⟩

theorem Follows.made
    {budget : Nat}
    {start stop : Cursor}
    {statements : List Statement}
    (follows : Follows budget start statements stop)
    (startHolds : start.Holds known) :
    Made known Statement.tokensAll Statement.AllComplete statements ∧ stop.Holds known := by
  induction follows with
  | none cursor => exact ⟨by simp [Statement.tokensAll], startHolds⟩
  | more goesOn gives _ inductionHypothesis =>
      rcases answers_read budget .statement trivial _ startHolds with
        ⟨first, stop, givesAgain, ⟨firstKnown, isFirst⟩, stopHolds⟩ | ⟨failure, fails, -⟩
      · obtain ⟨rfl, rfl⟩ := gives.unique givesAgain
        obtain ⟨⟨restKnown, isRest⟩, lastHolds⟩ := inductionHypothesis stopHolds.advance
        exact ⟨by simp [Statement.tokensAll, firstKnown, restKnown, isFirst, isRest], lastHolds⟩
      · exact absurd gives fails.not_gives

/-- The statements of a program, and the failures that stopped it, are of the tokens at hand. -/
theorem statementsFrom_made (steps budget : Nat) (holds : cursor.Holds known) :
    Made known Statement.tokensAll Statement.AllComplete
        (statementsFrom steps budget ⟨cursor, [], false⟩).1 ∧
      ∀ failure ∈ (statementsFrom steps budget ⟨cursor, [], false⟩).2.failures,
        failure.IsKnown known := by
  obtain ⟨last, follows, stops⟩ :=
    statementsFrom_follows steps budget (show (⟨cursor, [], false⟩ : Reading).failures = [] from rfl)
  obtain ⟨made, lastHolds⟩ := follows.made holds
  refine ⟨made, ?_⟩
  cases stops with
  | atEnd isEnd isAfter => simp [isAfter]
  | @failing failure stop goesOn fails isAfter =>
      rcases answers_read budget .statement trivial last lastHolds with
        ⟨first, stop, gives, -, -⟩ | ⟨other, failsAgain, isKnown⟩
      · exact absurd gives fails.not_gives
      · obtain rfl := fails.unique failsAgain
        simpa [isAfter, Reading.record, Reading.failureLimit] using isKnown
  | exhausted _ isAfter =>
      have isKnown : Failure.IsKnown known ⟨last.current, .tooDeep⟩ := ⟨lastHolds.current, by simp⟩
      simpa [isAfter, Reading.record, Reading.failureLimit] using isKnown

end Parser

namespace Program

/-- A program is made of the tokens it was read from. -/
theorem known_ofTokens
    {known : Token → Prop}
    (source : Source)
    {tokens : List Token}
    (some : tokens ≠ [])
    (holds : ∀ token ∈ tokens, known token) :
    Token.Known known (Statement.tokensAll (ofTokens source tokens).program.statements) ∧
      ∀ failure ∈ (ofTokens source tokens).failures, known failure.token := by
  obtain ⟨made, failsAtKnown⟩ :=
    Parser.statementsFrom_made (tokens.length + 1) (Parser.budget tokens.length)
      (Parser.Cursor.Holds.ofTokens some holds)
  exact ⟨made.known, fun failure member => (failsAtKnown failure member).known⟩

end Program

end ScriptEngine
