import ScriptEngine.Proofs.Program.Totality
import ScriptEngine.Proofs.Program.Writing

namespace ScriptEngine

/-!
# Operator expressions are read as they are written

The tokens that an operator expression is written with are read as the expression.  Most
expressions stand in parentheses and are operands as such.  Accesses and calls are not,
and what reads them goes on with the operators behind the first operand, as far as they
bind tighter than what stands in front.
-/

variable {mark last follower token final : Token} {tokens others stop : List Token}
  {limit least : Nat} {value left : Expression} {values : List Expression}
  {spellings : List (List Token)} {bound : Precedence}

namespace Parser

open Script (current next advance read)

/-! ## Scripts that give a value within a budget -/

/-- With a large enough budget a script gives a value and leaves some tokens. -/
def Yields
    (least : Nat)
    (script : Script α)
    (tokens : List Token)
    (value : α)
    (stop : List Token) : Prop :=
  ∀ budget, least ≤ budget →
    script.Gives (Task.answers budget) (.ofTokens tokens) value (.ofTokens stop)

namespace Yields

theorem pure (value : α) : Yields least (pure value) tokens value tokens :=
  fun _ _ => .give value _

theorem weaken
    {script : Script α}
    {value : α}
    {more : Nat}
    (yields : Yields least script tokens value stop)
    (larger : least ≤ more) :
    Yields more script tokens value stop :=
  fun budget enough => yields budget (Nat.le_trans larger enough)

theorem bind
    {first : Script β}
    {later : β → Script α}
    {between : β}
    {value : α}
    {middle : List Token}
    (yieldsFirst : Yields least first tokens between middle)
    (yieldsLater : Yields least (later between) middle value stop) :
    Yields least (first >>= later) tokens value stop :=
  fun budget enough => (yieldsFirst budget enough).bind (yieldsLater budget enough)

theorem current
    {later : Token → Script α} {value : α}
    (yields : Yields least (later token) (token :: tokens) value stop) :
    Yields least (current >>= later) (token :: tokens) value stop := by
  refine bind (fun budget _ => ?_) yields
  have gives : Script.current.Gives (Task.answers budget) (.ofTokens (token :: tokens)) _ _ :=
    .current _
  rwa [Cursor.current_ofTokens] at gives

theorem next
    {following : Token} {later : Token → Script α} {value : α}
    (yields : Yields least (later following) (token :: following :: tokens) value stop) :
    Yields least (next >>= later) (token :: following :: tokens) value stop :=
  bind (fun _ _ => .next _) yields

theorem move (some : tokens ≠ []) : Yields least .advance (token :: tokens) () tokens := by
  intro budget _
  rw [← Cursor.advance_ofTokens token some]
  exact .advance _

theorem advance
    {later : Unit → Script α}
    {value : α}
    (some : tokens ≠ [])
    (yields : Yields least (later ()) tokens value stop) :
    Yields least (advance >>= later) (token :: tokens) value stop :=
  bind (move some) yields

theorem read {task : Task α} {value : α} (yields : Yields least task.script tokens value stop) :
    Yields (least + 1) (read task) tokens value stop := by
  intro budget enough
  obtain ⟨spare, rfl⟩ := Nat.exists_eq_add_of_le' (Nat.le_trans (Nat.le_add_left 1 least) enough)
  exact (yields spare (by omega)).read

theorem expect
    {following : Token}
    {kind : TokenKind}
    {later : Unit → Script α}
    {value : α}
    (isKind : following.kind = kind)
    (yields : Yields least (later ()) (following :: tokens) value stop) :
    Yields least (expect kind >>= later) (token :: following :: tokens) value stop := by
  refine bind ?_ yields
  unfold Parser.expect
  refine next ?_
  rw [if_pos isKind]
  exact move (List.cons_ne_nil following tokens)

end Yields

/-! ## Tokens with a spelling -/

/-- Tokens that are spelled in a way, with no line feed in front of any of them. -/
structure Spelled (tokens spelling : List Token) : Prop where
  unplaced : tokens.map Token.unplaced = spelling
  sameLine : ∀ token ∈ tokens, token.newlineBefore = false

namespace Spelled

variable {spelling more : List Token}

theorem eq_nil (spelled : Spelled tokens []) : tokens = [] :=
  List.map_eq_nil_iff.mp spelled.unplaced

theorem eq_cons (spelled : Spelled tokens (mark :: spelling)) :
    ∃ token others, tokens = token :: others ∧ token.unplaced = mark ∧
      token.newlineBefore = false ∧ Spelled others spelling := by
  obtain ⟨token, others, rfl, isMark, isSpelling⟩ := List.map_eq_cons_iff.mp spelled.unplaced
  obtain ⟨sameLine, sameLines⟩ := List.forall_mem_cons.mp spelled.sameLine
  exact ⟨token, others, rfl, isMark, sameLine, isSpelling, sameLines⟩

theorem eq_append (spelled : Spelled tokens (spelling ++ more)) :
    ∃ front back, tokens = front ++ back ∧ Spelled front spelling ∧ Spelled back more := by
  obtain ⟨front, back, rfl, isSpelling, isMore⟩ := List.map_eq_append_iff.mp spelled.unplaced
  obtain ⟨sameLine, sameLines⟩ := List.forall_mem_append.mp spelled.sameLine
  exact ⟨front, back, rfl, ⟨isSpelling, sameLine⟩, isMore, sameLines⟩

theorem eq_singleton (spelled : Spelled tokens [mark]) :
    ∃ token, tokens = [token] ∧ token.unplaced = mark ∧ token.newlineBefore = false := by
  obtain ⟨token, others, rfl, isMark, sameLine, spelledNil⟩ := spelled.eq_cons
  cases spelledNil.eq_nil
  exact ⟨token, rfl, isMark, sameLine⟩

theorem eq_concat (spelled : Spelled tokens (spelling ++ [mark])) :
    ∃ (front : List Token) (token : Token),
      tokens = front ++ [token] ∧ Spelled front spelling ∧ token.unplaced = mark := by
  obtain ⟨front, back, rfl, spelledFront, spelledBack⟩ := spelled.eq_append
  obtain ⟨token, rfl, isMark, -⟩ := spelledBack.eq_singleton
  exact ⟨front, token, rfl, spelledFront, isMark⟩

end Spelled

/-! ## Operands -/

/-- Whether a token of a kind opens an operator expression. -/
def opensOperand : TokenKind → Bool
  | .identifier | .number | .string | .trueWord | .falseWord | .thisWord | .leftBracket | .leftParen
  | .newWord => true
  | _ => false

/-- Whether a token of a kind opens an expression as it is written. -/
def opensExpression : TokenKind → Bool
  | .regex | .functionWord | .leftBrace => true
  | kind => opensOperand kind

/-- Tokens open an expression, and a name in front is no label and goes through no keys. -/
def OpensExpression (tokens : List Token) : Prop :=
  ∃ first others, tokens = first :: others ∧ opensExpression first.kind = true ∧
    (first.kind = .identifier → ∀ token ∈ others.head?,
      token.kind ≠ .colon ∧ token.kind ≠ .inWord)

/--
What may stand behind an expression.  Behind an operand it is anything, and else what
binds no tighter than the limit of the expression.
-/
def MayFollow (limit : Nat) (follow : List Token) : Prop :=
  ∃ follower more, follow = follower :: more ∧
    (limit < 12 → (Precedence.ofKind follower.kind).rank ≤ limit)

theorem mayFollow_of_ne_nil
    {follow : List Token}
    (within : 12 ≤ limit)
    (some : follow ≠ []) :
    MayFollow limit follow := by
  obtain ⟨follower, more, rfl⟩ := List.exists_cons_of_ne_nil some
  exact ⟨follower, more, rfl, fun below => absurd within (Nat.not_le_of_lt below)⟩

theorem mayFollow_of_looser
    (more : List Token)
    (looser : (Precedence.ofKind follower.kind).rank ≤ limit) :
    MayFollow limit (follower :: more) :=
  ⟨follower, more, rfl, fun _ => looser⟩

theorem MayFollow.ne_nil {follow : List Token} (mayFollow : MayFollow limit follow) :
    follow ≠ [] := by
  obtain ⟨follower, more, rfl, -⟩ := mayFollow
  exact List.cons_ne_nil follower more

/--
Some tokens are read as an expression, up to a last one: whatever the operators behind it
make of the expression, is read from the tokens on, when the operators in front bind no
tighter than a limit.
-/
structure Rereads
    (tokens : List Token)
    (last : Token)
    (value : Expression)
    (limit : Nat) : Prop where
  starts : OpensExpression tokens
  reads : ∀ follow, MayFollow limit follow → ∀ bound : Precedence, bound.rank ≤ limit →
    ∀ least result stop,
      Yields least (read (.operators bound value)) (last :: follow) result stop →
      Yields (least + 4 * tokens.length) (expression bound) (tokens ++ follow) result stop

/-- Operators stop in front of a token that binds no tighter than their bound. -/
theorem operators_stop
    (value : Expression)
    (more : List Token)
    (looser : (Precedence.ofKind follower.kind).rank ≤ bound.rank) :
    Yields 1 (read (.operators bound value)) (last :: follower :: more) value
      (last :: follower :: more) := by
  refine .read (.next ?_)
  rw [if_pos looser]
  exact .pure value

section

variable {extended result : Expression} {rest middle : List Token}

/-- Operators take in one that binds tighter than their bound and is not broken off. -/
theorem operators_take_unbroken
    (tighter : bound.rank < (Precedence.ofKind token.kind).rank)
    (unbroken : ((updateOperator? token.kind).isSome && token.newlineBefore) = false)
    (takes : Yields least (operator token left) (token :: rest) extended middle)
    (goesOn : Yields least (read (.operators bound extended)) middle result stop) :
    Yields (least + 1) (read (.operators bound left)) (last :: token :: rest) result stop := by
  refine .read (.next ?_)
  rw [if_neg (Nat.not_le_of_lt tighter), if_neg (by rw [unbroken]; nofun)]
  exact .advance (List.cons_ne_nil _ _) (.bind takes goesOn)

/-- Operators take in one that binds tighter than their bound. -/
theorem operators_take
    (tighter : bound.rank < (Precedence.ofKind token.kind).rank)
    (sameLine : token.newlineBefore = false)
    (takes : Yields least (operator token left) (token :: rest) extended middle)
    (goesOn : Yields least (read (.operators bound extended)) middle result stop) :
    Yields (least + 1) (read (.operators bound left)) (last :: token :: rest) result stop :=
  operators_take_unbroken tighter (by rw [sameLine, Bool.and_false]) takes goesOn

end

theorem Rereads.stops
    (rereads : Rereads tokens last value limit) (within : bound.rank ≤ limit)
    (more : List Token)
    (looser : (Precedence.ofKind follower.kind).rank ≤ bound.rank) :
    Yields (4 * tokens.length + 2) (read (.expression bound)) (tokens ++ follower :: more) value
      (last :: follower :: more) :=
  (rereads.reads _ (mayFollow_of_looser more (Nat.le_trans looser within)) bound within _ _ _
    (operators_stop value more looser)).read.weaken (by omega)

/-- What a token of some kinds opens is an expression, whatever stands behind it. -/
theorem opensExpression_of_kind
    {kind : TokenKind}
    (isKind : token.kind = kind)
    (opens : opensExpression kind = true)
    (unnamed : kind ≠ .identifier) :
    OpensExpression (token :: tokens) :=
  ⟨token, tokens, rfl, isKind ▸ opens, fun isName => absurd (isKind.symm.trans isName) unnamed⟩

theorem rereads_of_operand
    (starts : OpensExpression tokens)
    (yields : ∀ follow, follow ≠ [] →
      Yields (4 * tokens.length) operand (tokens ++ follow) value (last :: follow)) :
    Rereads tokens last value limit := by
  refine ⟨starts, fun follow mayFollow bound _ least result stop goesOn => ?_⟩
  exact .bind ((yields follow mayFollow.ne_nil).weaken (by omega)) (goesOn.weaken (by omega))

/-- What is read up to a closing parenthesis is an operand between parentheses. -/
theorem rereads_grouped
    {opening closing : Token}
    (opens : opening.kind = .leftParen)
    (closes : closing.kind = .rightParen)
    (yields : ∀ follow, Yields (4 * tokens.length + 4) (read (.expression .lowest))
      (tokens ++ closing :: follow) value (last :: closing :: follow)) :
    Rereads (opening :: (tokens ++ [closing])) closing value limit := by
  refine rereads_of_operand (opensExpression_of_kind opens rfl nofun) fun follow some => ?_
  rw [List.cons_append, List.append_assoc]
  refine .current ?_
  simp only [opens, unaryOperator?, updateOperator?]
  refine .advance (by simp) (.bind ((yields follow).weaken ?_) (.expect closes (.pure value)))
  simp only [List.length_cons, List.length_append]
  omega

/-- No operator binds as loosely as a token that is none. -/
theorem rank_le_of_lowest
    (isLowest : Precedence.ofKind token.kind = .lowest)
    (bound : Precedence) :
    (Precedence.ofKind token.kind).rank ≤ bound.rank := by
  rw [isLowest]
  cases bound <;> decide

section

variable {opening closing : Token} (opens : opening.kind = .leftParen)
  (closes : closing.kind = .rightParen)

include closes

theorem rank_closing (bound : Precedence) : (Precedence.ofKind closing.kind).rank ≤ bound.rank :=
  rank_le_of_lowest (by rw [closes]; rfl) bound

include opens

/-- An operator in front of an operand. -/
theorem rereads_prefixed
    {make : Expression → Expression}
    (rereads : Rereads tokens last value limit)
    (within : 12 ≤ limit)
    (isOperand : ∀ {least result rest stop},
      Yields least (advance >>= fun _ => read (.expression .unary) >>= fun operand =>
        pure (make operand)) (mark :: rest) result stop →
      Yields least operand (mark :: rest) result stop) :
    Rereads (opening :: mark :: (tokens ++ [closing])) closing (make value) 13 := by
  refine @rereads_grouped last (mark :: tokens) 13 (make value) opening closing opens closes ?_
  intro follow
  have givesOperand : Yields (4 * tokens.length + 2) operand (mark :: (tokens ++ closing :: follow))
      (make value) (last :: closing :: follow) :=
    isOperand (.advance (by simp) (.bind
      (rereads.stops (Nat.le_trans (by decide) within) follow (rank_closing closes .unary))
      (.pure _)))
  have all : Yields (4 * tokens.length + 2) (Task.expression .lowest).script
      (mark :: (tokens ++ closing :: follow)) (make value) (last :: closing :: follow) :=
    .bind givesOperand ((operators_stop _ follow (rank_closing closes .lowest)).weaken (by omega))
  exact all.read.weaken (by simp only [List.length_cons]; omega)

/-- An operator behind an operand. -/
theorem rereads_postfixed
    {operator : UpdateOperator}
    (rereads : Rereads tokens last value limit)
    (within : 12 ≤ limit)
    (isMark : mark.kind = operator.mark.kind)
    (sameLine : mark.newlineBefore = false) :
    Rereads (opening :: (tokens ++ [mark, closing])) closing (.update mark operator .after value)
      13 := by
  have grouped := @rereads_grouped mark (tokens ++ [mark]) 13 (.update mark operator .after value)
    opening closing opens closes
  rw [List.append_assoc] at grouped
  refine grouped fun follow => ?_
  have takes : Yields 2 (read (.operators .lowest value)) (last :: mark :: closing :: follow)
      (.update mark operator .after value) (mark :: closing :: follow) := by
    refine operators_take ?_ sameLine ?_ (operators_stop _ follow (rank_closing closes .lowest))
    · rw [isMark]
      cases operator <;> decide
    · unfold Parser.operator
      rw [isMark]
      cases operator <;> exact .pure _
  have all := rereads.reads (mark :: closing :: follow) (mayFollow_of_ne_nil within (by simp))
    .lowest (Nat.le_trans (by decide) within) _ _ _ takes
  rw [List.append_assoc]
  exact (@Yields.read _ _ _ _ (.expression .lowest) _ all).weaken (by
    simp only [List.length_append, List.length_cons, List.length_nil]
    omega)

variable {other : Expression} {limitOther : Nat}

/-- An operator between two operands. -/
theorem rereads_binary
    {operator : InfixOperator}
    (rereads : Rereads tokens last value limit)
    (within : 12 ≤ limit)
    (rereadsOther : Rereads others final other limitOther)
    (withinOther : 12 ≤ limitOther)
    (isMark : mark.kind = operator.mark.kind)
    (sameLine : mark.newlineBefore = false) :
    Rereads (opening :: (tokens ++ mark :: (others ++ [closing]))) closing
      (.binary mark operator value other) 13 := by
  have grouped := @rereads_grouped final (tokens ++ mark :: others) 13
    (.binary mark operator value other) opening closing opens closes
  rw [List.append_assoc, List.cons_append] at grouped
  refine grouped fun follow => ?_
  have isOperator : InfixOperator.ofKind? mark.kind = some operator ∧
      1 < (Precedence.ofKind mark.kind).rank ∧ (Precedence.ofKind mark.kind).rank ≤ 12 := by
    rw [isMark]
    rcases operator with operator | _ | _
    · cases operator <;> decide
    · decide
    · decide
  have takes : Yields (4 * others.length + 3) (read (.operators .lowest value))
      (last :: mark :: (others ++ closing :: follow)) (.binary mark operator value other)
      (final :: closing :: follow) := by
    refine operators_take isOperator.2.1 sameLine ?_
      ((operators_stop _ follow (rank_closing closes .lowest)).weaken (by omega))
    unfold Parser.operator
    rw [isOperator.1]
    exact .advance (by simp) (.bind (rereadsOther.stops
      (Nat.le_trans isOperator.2.2 withinOther) follow (rank_closing closes _)) (.pure _))
  have all := rereads.reads (mark :: (others ++ closing :: follow))
    (mayFollow_of_ne_nil within (by simp)) .lowest (Nat.le_trans (by decide) within) _ _ _ takes
  rw [List.append_assoc, List.cons_append]
  exact (@Yields.read _ _ _ _ (.expression .lowest) _ all).weaken (by
    simp only [List.length_append, List.length_cons]
    omega)

/-- A choice between two operands. -/
theorem rereads_conditional
    {colon : Token}
    {thirds : List Token}
    {least : Token}
    {third : Expression}
    {limitThird : Nat}
    (rereads : Rereads tokens last value limit)
    (within : 12 ≤ limit)
    (rereadsOther : Rereads others final other limitOther)
    (withinOther : 2 ≤ limitOther)
    (rereadsThird : Rereads thirds least third limitThird)
    (withinThird : 2 ≤ limitThird)
    (isMark : mark.kind = .question)
    (isColon : colon.kind = .colon)
    (sameLine : mark.newlineBefore = false) :
    Rereads (opening :: (tokens ++ mark :: (others ++ colon :: (thirds ++ [closing])))) closing
      (.conditional mark value other third) 13 := by
  have grouped := @rereads_grouped least (tokens ++ mark :: (others ++ colon :: thirds)) 13
    (.conditional mark value other third) opening closing opens closes
  simp only [List.append_assoc, List.cons_append] at grouped
  refine grouped fun follow => ?_
  have takes : Yields (4 * (others.length + thirds.length) + 3) (read (.operators .lowest value))
      (last :: mark :: (others ++ colon :: (thirds ++ closing :: follow)))
      (.conditional mark value other third) (least :: closing :: follow) := by
    refine operators_take (by rw [isMark]; decide) sameLine ?_
      ((operators_stop _ follow (rank_closing closes .lowest)).weaken (by omega))
    unfold Parser.operator
    rw [isMark]
    refine .advance (by simp) (.bind ((rereadsOther.stops (Nat.le_trans (by decide) withinOther) _
      (rank_le_of_lowest (by rw [isColon]; rfl) _)).weaken (by omega)) (.expect isColon ?_))
    exact .advance (by simp) (.bind ((rereadsThird.stops (Nat.le_trans (by decide) withinThird) _
      (rank_closing closes _)).weaken (by omega)) (.pure _))
  have all := rereads.reads (mark :: (others ++ colon :: (thirds ++ closing :: follow)))
    (mayFollow_of_ne_nil within (by simp)) .lowest (Nat.le_trans (by decide) within) _ _ _ takes
  exact (@Yields.read _ _ _ _ (.expression .lowest) _ all).weaken (by
    simp only [List.length_append, List.length_cons]
    omega)

end

/-! ## Accesses and calls -/

/-- The start of an access or a call is that of what is accessed or called. -/
theorem Rereads.starts_append
    (rereads : Rereads tokens last value limit)
    (others : List Token)
    (isOther : mark.kind ≠ .colon ∧ mark.kind ≠ .inWord) :
    OpensExpression (tokens ++ mark :: others) := by
  obtain ⟨first, rest, rfl, opens, unlabelled⟩ := rereads.starts
  refine ⟨first, rest ++ mark :: others, rfl, opens, fun isName token member => ?_⟩
  cases rest with
  | nil =>
      obtain rfl : mark = token := by simpa using member
      exact isOther
  | cons following rest => exact unlabelled isName token member

theorem rereads_member
    {property : Token} (rereads : Rereads tokens last value limit)
    (within : 12 ≤ limit ∧ limit ≤ 13) (isMark : mark.kind = .dot)
    (isName : (property.kind = .identifier || TokenKind.isReserved property.literal) = true)
    (sameLine : mark.newlineBefore = false) :
    Rereads (tokens ++ [mark, property]) property (.member mark value property) limit := by
  refine ⟨rereads.starts_append _ (by rw [isMark]; decide), ?_⟩
  intro follow mayFollow bound isWithin least result stop goesOn
  have takes : Yields (least + 1) (read (.operators bound value))
      (last :: mark :: property :: follow) result stop := by
    refine operators_take ?_ sameLine ?_ goesOn
    · rw [isMark]
      exact Nat.lt_succ_of_le (Nat.le_trans isWithin within.2)
    · unfold Parser.operator
      rw [isMark]
      refine .next ?_
      rw [if_pos isName]
      exact .advance (by simp) (.pure _)
  have all := rereads.reads (mark :: property :: follow) (mayFollow_of_ne_nil within.1 (by simp))
    bound isWithin _ _ _ takes
  rw [List.append_assoc]
  exact all.weaken (by
    simp only [List.length_append, List.length_cons, List.length_nil]
    omega)

theorem rereads_index
    {closing : Token} {key : Expression} {limitKey : Nat}
    (rereads : Rereads tokens last value limit) (within : 12 ≤ limit ∧ limit ≤ 13)
    (rereadsKey : Rereads others final key limitKey) (withinKey : 2 ≤ limitKey)
    (isMark : mark.kind = .leftBracket) (closes : closing.kind = .rightBracket)
    (sameLine : mark.newlineBefore = false) :
    Rereads (tokens ++ mark :: (others ++ [closing])) closing (.index mark value key) limit := by
  refine ⟨rereads.starts_append _ (by rw [isMark]; decide), ?_⟩
  intro follow mayFollow bound isWithin least result stop goesOn
  have takes : Yields (least + 4 * others.length + 3) (read (.operators bound value))
      (last :: mark :: (others ++ closing :: follow)) result stop := by
    refine operators_take ?_ sameLine ?_ (goesOn.weaken (by omega))
    · rw [isMark]
      exact Nat.lt_succ_of_le (Nat.le_trans isWithin within.2)
    · unfold Parser.operator
      rw [isMark]
      refine .advance (by simp) (.bind ((rereadsKey.stops (Nat.le_trans (by decide) withinKey) _
        (rank_le_of_lowest (by rw [closes]; rfl) _)).weaken (by omega)) (.expect closes (.pure _)))
  have all := rereads.reads (mark :: (others ++ closing :: follow))
    (mayFollow_of_ne_nil within.1 (by simp)) bound isWithin _ _ _ takes
  simp only [List.append_assoc, List.cons_append, List.nil_append]
  exact all.weaken (by
    simp only [List.length_append, List.length_cons, List.length_nil]
    omega)

/-- A list of expressions is read up to its closing token. -/
def RereadsList (tokens : List Token) (values : List Expression) (closing : TokenKind) : Prop :=
  ∀ opening close follow, close.kind = closing → follow ≠ [] →
    Yields (4 * tokens.length + 3) (expressionList closing) (opening :: (tokens ++ close :: follow))
      values (close :: follow)

theorem rereads_call
    {closing : Token}
    (rereads : Rereads tokens last value limit) (within : 12 ≤ limit)
    (rereadsList : RereadsList others values .rightParen) (isMark : mark.kind = .leftParen)
    (closes : closing.kind = .rightParen) (sameLine : mark.newlineBefore = false) :
    Rereads (tokens ++ mark :: (others ++ [closing])) closing (.call mark value values) 12 := by
  refine ⟨rereads.starts_append _ (by rw [isMark]; decide), ?_⟩
  intro follow mayFollow bound isWithin least result stop goesOn
  have takes : Yields (least + 4 * others.length + 4) (read (.operators bound value))
      (last :: mark :: (others ++ closing :: follow)) result stop := by
    refine operators_take ?_ sameLine ?_ (goesOn.weaken (by omega))
    · rw [isMark]
      exact Nat.lt_succ_of_le isWithin
    · unfold Parser.operator
      rw [isMark]
      exact .bind ((rereadsList mark closing follow closes mayFollow.ne_nil).weaken (by omega))
        (.pure _)
  have all := rereads.reads (mark :: (others ++ closing :: follow))
    (mayFollow_of_ne_nil within (by simp)) bound (Nat.le_trans isWithin within) _ _ _ takes
  simp only [List.append_assoc, List.cons_append, List.nil_append]
  exact all.weaken (by
    simp only [List.length_append, List.length_cons, List.length_nil]
    omega)

theorem rereads_construct
    {word closing : Token}
    (rereads : Rereads tokens last value 13) (rereadsList : RereadsList others values .rightParen)
    (isWord : word.kind = .newWord) (isMark : mark.kind = .leftParen)
    (closes : closing.kind = .rightParen) :
    Rereads (word :: (tokens ++ mark :: (others ++ [closing]))) closing
      (.construct word value values) 13 := by
  refine rereads_of_operand (opensExpression_of_kind isWord rfl nofun) fun follow some => ?_
  have looser : (Precedence.ofKind mark.kind).rank ≤ Precedence.call.rank := by
    rw [isMark]
    decide
  have within : Precedence.call.rank ≤ 13 := by decide
  have arguments : Yields (4 * others.length + 3) constructorArguments
      (last :: mark :: (others ++ closing :: follow)) values (closing :: follow) := by
    unfold constructorArguments
    refine .next ?_
    rw [if_pos isMark]
    exact .advance (by simp) (rereadsList mark closing follow closes some)
  simp only [List.append_assoc, List.cons_append, List.nil_append, List.length_append,
    List.length_cons]
  refine .current ?_
  simp only [isWord, unaryOperator?, updateOperator?]
  exact .advance (by simp) (.bind ((rereads.stops within _ looser).weaken (by omega))
    (.bind (arguments.weaken (by omega)) (.pure _)))

theorem rereads_array
    {closing : Token}
    (rereadsList : RereadsList tokens values .rightBracket) (isMark : mark.kind = .leftBracket)
    (closes : closing.kind = .rightBracket) :
    Rereads (mark :: (tokens ++ [closing])) closing (.array mark values) 13 := by
  refine rereads_of_operand (opensExpression_of_kind isMark rfl nofun) fun follow some => ?_
  simp only [List.append_assoc, List.cons_append, List.nil_append]
  refine .current ?_
  simp only [isMark, unaryOperator?, updateOperator?]
  refine .bind ((rereadsList mark closing follow closes some).weaken ?_) (.pure _)
  simp only [List.length_append, List.length_cons]
  omega

theorem rereads_leaf
    (opens : opensExpression token.kind = true)
    (yields : ∀ follow, Yields 0 operand (token :: follow) value (token :: follow)) :
    Rereads [token] token value 13 :=
  rereads_of_operand ⟨token, [], rfl, opens, by simp⟩ fun follow _ =>
    (yields follow).weaken (Nat.zero_le _)

/-! ## Lists and sequences -/

/-- The tightest binding in front of an expression that does not cut it: a call is cut by `new`. -/
def limitOf (expression : Expression) : Nat :=
  if expression.callsOnSpine then 12 else 13

theorem limitOf_bounds (expression : Expression) :
    12 ≤ limitOf expression ∧ limitOf expression ≤ 13 := by
  unfold limitOf
  split <;> decide

/-- Tokens with a spelling are read as an expression that is as it should be. -/
def IsReadAs (spelling : List Token) (limit : Nat) (wanted : Expression → Prop) : Prop :=
  ∀ tokens, Spelled tokens spelling → ∃ value last, Rereads tokens last value limit ∧ wanted value

/-- Tokens that spell an expression are read as the expression, apart from their places. -/
def IsReread (expression : Expression) : Prop :=
  IsReadAs expression.spelling (limitOf expression) fun value =>
    value.unplaced = expression.unplaced

theorem kind_of_unplaced (isMark : token.unplaced = mark) :
    token.kind = mark.kind := by
  rw [← isMark]
  rfl

/-- Tokens that differ in their places only are alike. -/
theorem alike_of_unplaced {found : Token} (same : found.unplaced = token.unplaced) :
    found.kind = token.kind ∧ found.literal = token.literal ∧ found.quote = token.quote := by
  unfold Token.unplaced at same
  injection same with isKind isLiteral _ _ _ _ _ isQuote
  exact ⟨isKind, isLiteral, isQuote⟩

open Expression (listMore listAll unplacedAll)

/-- What stands behind an element of a list is a comma or what stands behind the list. -/
theorem exists_follower
    {tokens follow : List Token}
    {spellings : List (List Token)}
    {closing : Token}
    (isLowest : Precedence.ofKind closing.kind = .lowest)
    (spelled : Spelled tokens (listMore spellings)) :
    ∃ follower rest, tokens ++ closing :: follow = follower :: rest ∧
      (Precedence.ofKind follower.kind).rank ≤ Precedence.comma.rank := by
  cases spellings with
  | nil =>
      rw [spelled.eq_nil]
      exact ⟨closing, follow, rfl, rank_le_of_lowest isLowest _⟩
  | cons next others =>
      obtain ⟨comma, rest, rfl, isComma, -, -⟩ := spelled.eq_cons
      refine ⟨comma, rest ++ closing :: follow, rfl, ?_⟩
      rw [kind_of_unplaced isComma]
      decide

section

variable {Element : Type} {same : Element → Expression → Prop}

/-- Tokens with a spelling are read as an element of a list. -/
def IsElement (same : Element → Expression → Prop) (element : Element) (spelling : List Token) :
    Prop :=
  ∃ limit, 2 ≤ limit ∧ IsReadAs spelling limit (same element)

section

variable {closing : TokenKind} (closes : closing = .rightParen ∨ closing = .rightBracket)

include closes

theorem isLowest_of_closes : Precedence.ofKind closing = .lowest := by
  rcases closes with rfl | rfl <;> rfl

theorem ne_of_opensExpression {kind : TokenKind} (opens : opensExpression kind = true) :
    kind ≠ closing := by
  rintro rfl
  rcases closes with rfl | rfl <;> cases opens

theorem list_yields
    {first : Element}
    {rest : List Element}
    {spelling : List Token}
    (reread : List.Forall₂ (IsElement same) (first :: rest) (spelling :: spellings))
    (spelled : Spelled tokens (spelling ++ listMore spellings)) :
    ∃ values, List.Forall₂ same (first :: rest) values ∧
      (∃ start others, tokens = start :: others ∧ opensExpression start.kind = true) ∧
      ∀ opening close follow, close.kind = closing → follow ≠ [] →
        Yields (4 * tokens.length + 3) (read (.list closing))
          (opening :: (tokens ++ close :: follow)) values (close :: follow) := by
  induction rest generalizing first spelling spellings tokens with
  | nil =>
      obtain ⟨⟨limit, within, rereadFirst⟩, rereadRest⟩ := List.forall₂_cons.mp reread
      cases rereadRest
      rw [listMore, List.append_nil] at spelled
      obtain ⟨value, last, rereads, isSame⟩ := rereadFirst tokens spelled
      obtain ⟨start, others, isStart, opens, -⟩ := rereads.starts
      refine ⟨[value], .cons isSame .nil, ⟨start, others, isStart, opens⟩, ?_⟩
      intro opening close follow isClose some
      have isLowest : Precedence.ofKind close.kind = .lowest := by
        rw [isClose]
        exact isLowest_of_closes closes
      have notComma : close.kind ≠ .comma := by
        intro isComma
        rw [isComma] at isLowest
        cases isLowest
      have yields : Yields (4 * tokens.length + 2) (Task.list closing).script
          (opening :: (tokens ++ close :: follow)) [value] (close :: follow) := by
        refine .advance (by simp) (.bind (rereads.stops (show Precedence.comma.rank ≤ limit from within)
          follow (rank_le_of_lowest isLowest .comma)) (.next ?_))
        rw [if_neg notComma]
        exact .expect isClose (.pure _)
      exact yields.read
  | cons next rest inductionHypothesis =>
      obtain ⟨⟨limit, within, rereadFirst⟩, rereadRest⟩ := List.forall₂_cons.mp reread
      obtain ⟨nextSpelling, others, -, -, rfl⟩ := List.forall₂_cons_left_iff.mp rereadRest
      obtain ⟨front, back, rfl, spelledFirst, spelledMore⟩ := spelled.eq_append
      obtain ⟨comma, others, rfl, isComma, -, spelledOthers⟩ := spelledMore.eq_cons
      obtain ⟨value, last, rereads, isSame⟩ := rereadFirst front spelledFirst
      obtain ⟨start, tail, isStart, opens, -⟩ := rereads.starts
      obtain ⟨values, sameValues, ⟨following, behind, rfl, opensNext⟩, yieldsRest⟩ :=
        inductionHypothesis rereadRest spelledOthers
      have isComma : comma.kind = .comma := kind_of_unplaced isComma
      have looser : (Precedence.ofKind comma.kind).rank ≤ Precedence.comma.rank := by
        rw [isComma]
        decide
      refine ⟨value :: values, .cons isSame sameValues,
        ⟨start, _, by rw [isStart, List.cons_append], opens⟩, ?_⟩
      intro opening close follow isClose some
      have yields : Yields (4 * (front ++ comma :: following :: behind).length + 2)
          (Task.list closing).script
          (opening :: (front ++ comma :: (following :: behind ++ close :: follow)))
          (value :: values) (close :: follow) := by
        refine .advance (by simp) (.bind ((rereads.stops
          (show Precedence.comma.rank ≤ limit from within) _ looser).weaken ?_) (.next ?_))
        · simp only [List.length_append]
          omega
        rw [if_pos isComma]
        refine .advance (by simp) (.next ?_)
        rw [if_neg (ne_of_opensExpression closes opensNext)]
        refine .bind ((yieldsRest comma close follow isClose some).weaken ?_) (.pure _)
        simp only [List.length_append, List.length_cons]
        omega
      rw [List.append_assoc]
      exact yields.read

theorem rereadsList_of_isElement
    {elements : List Element}
    (reread : List.Forall₂ (IsElement same) elements spellings)
    (spelled : Spelled tokens (listAll spellings)) :
    ∃ values, List.Forall₂ same elements values ∧ RereadsList tokens values closing := by
  cases reread with
  | nil =>
      cases spelled.eq_nil
      refine ⟨[], .nil, fun opening close follow isClose some => .next ?_⟩
      rw [if_pos isClose]
      exact .advance (by simp) (.pure _)
  | cons rereadFirst rereadRest =>
      obtain ⟨values, areSame, ⟨start, others, rfl, opens⟩, yields⟩ :=
        list_yields closes (.cons rereadFirst rereadRest) spelled
      refine ⟨values, areSame, fun opening close follow isClose some => .next ?_⟩
      rw [if_neg (ne_of_opensExpression closes opens)]
      exact yields opening close follow isClose some

end

/-- A comma takes the expression behind it into a sequence. -/
theorem operators_comma
    {comma : Token}
    {rest : List Token}
    {result : Expression}
    (rereads : Rereads tokens final value limit)
    (within : 2 ≤ limit)
    (isComma : comma.kind = .comma)
    (sameLine : comma.newlineBefore = false)
    (looser : (Precedence.ofKind follower.kind).rank ≤ Precedence.comma.rank)
    (goesOn : Yields least (read (.operators .lowest (extendSequence comma left value)))
      (final :: follower :: rest) result stop) :
    Yields (least + 4 * tokens.length + 3) (read (.operators .lowest left))
      (last :: comma :: (tokens ++ follower :: rest)) result stop := by
  refine operators_take (by rw [isComma]; decide) sameLine ?_ (goesOn.weaken (by omega))
  unfold Parser.operator
  rw [isComma]
  exact .advance (by simp) (.bind ((rereads.stops (show Precedence.comma.rank ≤ limit from within)
    rest looser).weaken (by omega)) (.pure _))

/-- A sequence takes in all that follow up to a closing parenthesis. -/
theorem operators_sequence
    {rest : List Element}
    (reread : List.Forall₂ (IsElement same) rest spellings)
    (spelled : Spelled tokens (listMore spellings))
    (mark last : Token)
    (head : Expression)
    (taken : List Expression) :
    ∃ values final, List.Forall₂ same rest values ∧
      ∀ closing follow, closing.kind = .rightParen →
        Yields (4 * tokens.length + 1) (read (.operators .lowest (.sequence mark head taken)))
          (last :: (tokens ++ closing :: follow)) (.sequence mark head (taken ++ values))
          (final :: closing :: follow) := by
  induction reread generalizing tokens last taken with
  | nil =>
      cases spelled.eq_nil
      refine ⟨[], last, .nil, fun closing follow closes => ?_⟩
      rw [List.append_nil]
      exact operators_stop _ follow (rank_closing closes .lowest)
  | @cons next spelling rest spellings rereadNext _ inductionHypothesis =>
      obtain ⟨limit, within, rereadNext⟩ := rereadNext
      obtain ⟨comma, others, rfl, isComma, sameLine, spelledOthers⟩ := spelled.eq_cons
      obtain ⟨front, back, rfl, spelledNext, spelledRest⟩ := spelledOthers.eq_append
      obtain ⟨value, final, rereads, isSame⟩ := rereadNext front spelledNext
      obtain ⟨values, lastFinal, sameValues, yields⟩ :=
        inductionHypothesis spelledRest final (taken ++ [value])
      refine ⟨value :: values, lastFinal, .cons isSame sameValues, ?_⟩
      intro closing follow closes
      have isLowest : Precedence.ofKind closing.kind = .lowest := by
        rw [closes]
        rfl
      obtain ⟨follower, behind, isFollower, looser⟩ :=
        @exists_follower back follow spellings closing isLowest spelledRest
      have goesOn := yields closing follow closes
      rw [isFollower, List.append_assoc] at goesOn
      rw [List.cons_append, List.append_assoc, isFollower]
      exact (operators_comma rereads within (kind_of_unplaced isComma) sameLine
        looser goesOn).weaken (by simp only [List.length_append, List.length_cons]; omega)

theorem isSequence_of_unplaced
    {expression : Expression} (same : value.unplaced = expression.unplaced) :
    value.isSequence = expression.isSequence := by
  have isSame (expression : Expression) :
      expression.unplaced.isSequence = expression.isSequence := by
    cases expression <;> rfl
  rw [← isSame value, same, isSame]

theorem extendSequence_of_not_sequence
    (notSequence : left.isSequence = false) (token : Token)
    (right : Expression) :
    extendSequence token left right = .sequence token left [right] := by
  cases left <;> first | rfl | cases notSequence

theorem rereads_sequence
    {opening closing : Token}
    {rest : List Element}
    (opens : opening.kind = .leftParen)
    (closes : closing.kind = .rightParen)
    (rereads : Rereads tokens last value limit)
    (within : 2 ≤ limit)
    (notSequence : value.isSequence = false)
    (reread : List.Forall₂ (IsElement same) rest spellings)
    (some : rest ≠ [])
    (spelled : Spelled others (listMore spellings)) :
    ∃ comma values, Rereads (opening :: (tokens ++ (others ++ [closing]))) closing
        (.sequence comma value values) 13 ∧
      comma.unplaced = .plain .comma "," ∧ List.Forall₂ same rest values := by
  cases reread with
  | nil => exact absurd rfl some
  | @cons next spelling rest spellings rereadNext rereadRest =>
  obtain ⟨limitNext, withinNext, rereadNext⟩ := rereadNext
  obtain ⟨comma, others, rfl, isComma, sameLine, spelledOthers⟩ := spelled.eq_cons
  obtain ⟨front, back, rfl, spelledNext, spelledRest⟩ := spelledOthers.eq_append
  obtain ⟨second, final, rereadsNext, isSame⟩ := rereadNext front spelledNext
  obtain ⟨values, lastFinal, sameValues, yields⟩ :=
    operators_sequence rereadRest spelledRest comma final value [second]
  refine ⟨comma, second :: values, ?_, isComma, .cons isSame sameValues⟩
  have grouped := @rereads_grouped lastFinal (tokens ++ comma :: (front ++ back)) 13
    (.sequence comma value (second :: values)) opening closing opens closes
  rw [List.append_assoc] at grouped
  refine grouped fun follow => ?_
  have isLowest : Precedence.ofKind closing.kind = .lowest := by
    rw [closes]
    rfl
  obtain ⟨follower, behind, isFollower, looser⟩ :=
    @exists_follower back follow spellings closing isLowest spelledRest
  have goesOn := yields closing follow closes
  rw [← extendSequence_of_not_sequence notSequence, isFollower] at goesOn
  have takes : Yields _ (read (.operators .lowest value))
      (last :: comma :: (front ++ follower :: behind)) _ _ :=
    operators_comma rereadsNext withinNext (kind_of_unplaced isComma) sameLine looser goesOn
  have mayFollow : MayFollow limit (comma :: (front ++ follower :: behind)) := by
    refine mayFollow_of_looser _ (Nat.le_trans ?_ within)
    rw [kind_of_unplaced isComma]
    decide
  have all := rereads.reads (comma :: (front ++ follower :: behind)) mayFollow .lowest
    (Nat.le_trans (by decide) within) _ _ _ takes
  rw [List.append_assoc, List.cons_append, List.append_assoc, isFollower]
  exact (@Yields.read _ _ _ _ (.expression .lowest) _ all).weaken (by
    simp only [List.length_append, List.length_cons]
    omega)

end

/-! ## Expressions from their spelling -/

section

variable {wanted : Expression → Prop}

theorem isReadAs_leaf
    (opens : opensExpression token.kind = true)
    (yields : ∀ found, found.unplaced = token.unplaced → ∃ value, wanted value ∧
      ∀ follow, Yields 0 operand (found :: follow) value (found :: follow)) :
    IsReadAs [token.unplaced] 13 wanted := by
  intro tokens spelled
  obtain ⟨found, rfl, isFound, -⟩ := spelled.eq_singleton
  obtain ⟨value, isWanted, yields⟩ := yields found isFound
  have isKind := (alike_of_unplaced isFound).1
  exact ⟨value, found, rereads_leaf (isKind ▸ opens) yields, isWanted⟩

theorem isReadAs_name
    (isName : token.kind = .identifier)
    (makes : ∀ found, found.unplaced = token.unplaced → wanted (.name found)) :
    IsReadAs [token.unplaced] 13 wanted := by
  refine isReadAs_leaf (by rw [isName]; rfl) fun found isFound => ?_
  refine ⟨.name found, makes found isFound, fun follow => .current ?_⟩
  have isKind : found.kind = .identifier := (alike_of_unplaced isFound).1.trans isName
  simp only [isKind, unaryOperator?, updateOperator?]
  exact .pure _

theorem isReadAs_number
    {number : Float} (isNumber : token.kind = .number)
    (isRead : Number.ofLiteral? token.literal.toList = some number)
    (makes : ∀ found, found.unplaced = token.unplaced → wanted (.number found number)) :
    IsReadAs [token.unplaced] 13 wanted := by
  refine isReadAs_leaf (by rw [isNumber]; rfl) fun found isFound => ?_
  refine ⟨.number found number, makes found isFound, fun follow => .current ?_⟩
  have isKind : found.kind = .number := (alike_of_unplaced isFound).1.trans isNumber
  have isLiteral := (alike_of_unplaced isFound).2.1
  simp only [isKind, unaryOperator?, updateOperator?, numberValue, isLiteral, isRead]
  exact .bind (.pure number) (.pure _)

theorem isReadAs_string
    {quote : Char} (isString : token.kind = .string) (isQuote : token.quote = some quote)
    (makes : ∀ found, found.unplaced = token.unplaced → wanted (.string found quote)) :
    IsReadAs [token.unplaced] 13 wanted := by
  refine isReadAs_leaf (by rw [isString]; rfl) fun found isFound => ?_
  have foundQuote : found.quote = some quote := (alike_of_unplaced isFound).2.2.trans isQuote
  refine ⟨.string found quote, makes found isFound, fun follow => .current ?_⟩
  have isKind : found.kind = .string := (alike_of_unplaced isFound).1.trans isString
  simp only [isKind, unaryOperator?, updateOperator?, quoteOf, foundQuote]
  exact .pure _

theorem isReadAs_boolean
    {truth : Bool} (isWord : token.kind = if truth then .trueWord else .falseWord)
    (makes : ∀ found, found.unplaced = token.unplaced → wanted (.boolean found truth)) :
    IsReadAs [token.unplaced] 13 wanted := by
  refine isReadAs_leaf (by rw [isWord]; cases truth <;> rfl) fun found isFound => ?_
  refine ⟨.boolean found truth, makes found isFound, fun follow => .current ?_⟩
  have isKind := (alike_of_unplaced isFound).1.trans isWord
  cases truth <;> simp only [isKind, unaryOperator?, updateOperator?] <;> exact .pure _

theorem isReadAs_this
    (isWord : token.kind = .thisWord)
    (makes : ∀ found, found.unplaced = token.unplaced → wanted (.this found)) :
    IsReadAs [token.unplaced] 13 wanted := by
  refine isReadAs_leaf (by rw [isWord]; rfl) fun found isFound => ?_
  refine ⟨.this found, makes found isFound, fun follow => .current ?_⟩
  have isKind : found.kind = .thisWord := (alike_of_unplaced isFound).1.trans isWord
  simp only [isKind, unaryOperator?, updateOperator?]
  exact .pure _

variable {spelling more : List Token} {limitOther : Nat} {isFirst isSecond : Expression → Prop}
  (reread : IsReadAs spelling limit isFirst) (within : 12 ≤ limit)

include reread within

section

variable {make : Token → Expression → Expression}
  (makes : ∀ found value, found.unplaced = token.unplaced → isFirst value →
    wanted (make found value))

include makes

theorem isReadAs_prefixed
    (isOperand : ∀ found, found.kind = token.kind → ∀ {least result rest stop},
      Yields least (advance >>= fun _ => read (.expression .unary) >>= fun value =>
        pure (make found value)) (found :: rest) result stop →
      Yields least operand (found :: rest) result stop) :
    IsReadAs
      (.plain .leftParen "(" :: token.unplaced :: (spelling ++ [Token.plain .rightParen ")"])) 13
      wanted := by
  intro tokens spelled
  obtain ⟨opening, rest, rfl, isOpening, -, spelled⟩ := spelled.eq_cons
  obtain ⟨found, rest, rfl, isFound, -, spelled⟩ := spelled.eq_cons
  obtain ⟨inner, closing, rfl, spelledInner, isClosing⟩ := spelled.eq_concat
  obtain ⟨value, last, rereads, isValue⟩ := reread inner spelledInner
  refine ⟨make found value, closing, ?_, makes found value isFound isValue⟩
  exact rereads_prefixed (kind_of_unplaced isOpening) (kind_of_unplaced isClosing) rereads within
    (isOperand found (alike_of_unplaced isFound).1)

theorem isReadAs_unary
    {operator : UnaryOperator} (isMark : token.kind = operator.mark.kind)
    (isMake : make = fun found => .unary found operator) :
    IsReadAs
      (.plain .leftParen "(" :: token.unplaced :: (spelling ++ [Token.plain .rightParen ")"])) 13
      wanted := by
  refine isReadAs_prefixed reread within makes fun found isKind {least result rest stop} yields => ?_
  have isOperator : unaryOperator? found.kind = some operator := by
    rw [isKind, isMark]
    cases operator <;> rfl
  refine .current ?_
  simp only [isOperator]
  rwa [isMake] at yields

theorem isReadAs_word
    (isWord : token.kind = .typeofWord ∧ make = .typeof ∨ token.kind = .deleteWord ∧ make = .delete) :
    IsReadAs
      (.plain .leftParen "(" :: token.unplaced :: (spelling ++ [Token.plain .rightParen ")"])) 13
      wanted := by
  refine isReadAs_prefixed reread within makes fun found isKind {least result rest stop} yields => ?_
  refine .current ?_
  rcases isWord with ⟨isWord, rfl⟩ | ⟨isWord, rfl⟩ <;>
    simp only [isKind.trans isWord, unaryOperator?, updateOperator?] <;> exact yields

end

theorem isReadAs_update
    {operator : UpdateOperator}
    (fixity : Fixity)
    (isMark : token.kind = operator.mark.kind)
    (makes : ∀ found value, found.unplaced = token.unplaced → isFirst value →
      wanted (.update found operator fixity value)) :
    IsReadAs
      (match fixity with
        | .before =>
            .plain .leftParen "(" :: token.unplaced :: (spelling ++ [Token.plain .rightParen ")"])
        | .after => .plain .leftParen "(" :: (spelling ++ [token.unplaced, .plain .rightParen ")"]))
      13 wanted := by
  cases fixity with
  | before =>
      refine isReadAs_prefixed reread within makes fun found isKind {least result rest stop} yields => ?_
      have isKind := isKind.trans isMark
      refine .current ?_
      cases operator <;>
        simp only [isKind, UpdateOperator.mark, Token.plain, unaryOperator?, updateOperator?] <;>
        exact yields
  | after =>
      intro tokens spelled
      obtain ⟨opening, rest, rfl, isOpening, -, spelled⟩ := spelled.eq_cons
      obtain ⟨inner, rest, rfl, spelledInner, spelledRest⟩ := spelled.eq_append
      obtain ⟨mark, rest, rfl, isFound, sameLine, spelledRest⟩ := spelledRest.eq_cons
      obtain ⟨closing, rfl, isClosing, -⟩ := spelledRest.eq_singleton
      obtain ⟨value, last, rereads, isValue⟩ := reread inner spelledInner
      refine ⟨.update mark operator .after value, closing, ?_, makes mark value isFound isValue⟩
      exact rereads_postfixed (kind_of_unplaced isOpening) (kind_of_unplaced isClosing) rereads
        within ((alike_of_unplaced isFound).1.trans isMark) sameLine

theorem isReadAs_binary
    {operator : InfixOperator}
    (rereadOther : IsReadAs more limitOther isSecond)
    (withinOther : 12 ≤ limitOther)
    (isMark : token.kind = operator.mark.kind)
    (makes : ∀ found value other, found.unplaced = token.unplaced → isFirst value →
      isSecond other → wanted (.binary found operator value other)) :
    IsReadAs
      (.plain .leftParen "(" ::
        (spelling ++ token.unplaced :: (more ++ [Token.plain .rightParen ")"]))) 13 wanted := by
  intro tokens spelled
  obtain ⟨opening, rest, rfl, isOpening, -, spelled⟩ := spelled.eq_cons
  obtain ⟨inner, rest, rfl, spelledInner, spelledRest⟩ := spelled.eq_append
  obtain ⟨mark, rest, rfl, isFound, sameLine, spelledRest⟩ := spelledRest.eq_cons
  obtain ⟨others, closing, rfl, spelledOther, isClosing⟩ := spelledRest.eq_concat
  obtain ⟨value, last, rereads, isValue⟩ := reread inner spelledInner
  obtain ⟨other, final, rereadsOther, isOther⟩ := rereadOther others spelledOther
  refine ⟨.binary mark operator value other, closing, ?_,
    makes mark value other isFound isValue isOther⟩
  exact rereads_binary (kind_of_unplaced isOpening) (kind_of_unplaced isClosing) rereads within
    rereadsOther withinOther ((alike_of_unplaced isFound).1.trans isMark) sameLine

theorem isReadAs_conditional
    {third : List Token}
    {limitThird : Nat}
    {isThird : Expression → Prop}
    (rereadOther : IsReadAs more limitOther isSecond)
    (withinOther : 2 ≤ limitOther)
    (rereadThird : IsReadAs third limitThird isThird)
    (withinThird : 2 ≤ limitThird)
    (isMark : token.kind = .question)
    (makes : ∀ found value other last, found.unplaced = token.unplaced → isFirst value →
      isSecond other → isThird last → wanted (.conditional found value other last)) :
    IsReadAs
      (.plain .leftParen "(" ::
        (spelling ++ token.unplaced ::
          (more ++ Token.plain .colon ":" :: (third ++ [Token.plain .rightParen ")"])))) 13
      wanted := by
  intro tokens spelled
  obtain ⟨opening, rest, rfl, isOpening, -, spelled⟩ := spelled.eq_cons
  obtain ⟨inner, rest, rfl, spelledInner, spelledRest⟩ := spelled.eq_append
  obtain ⟨mark, rest, rfl, isFound, sameLine, spelledRest⟩ := spelledRest.eq_cons
  obtain ⟨others, rest, rfl, spelledOther, spelledRest⟩ := spelledRest.eq_append
  obtain ⟨colon, rest, rfl, isColon, -, spelledRest⟩ := spelledRest.eq_cons
  obtain ⟨thirds, closing, rfl, spelledThird, isClosing⟩ := spelledRest.eq_concat
  obtain ⟨value, last, rereads, isValue⟩ := reread inner spelledInner
  obtain ⟨other, final, rereadsOther, isOther⟩ := rereadOther others spelledOther
  obtain ⟨least, ending, rereadsThird, isLast⟩ := rereadThird thirds spelledThird
  refine ⟨.conditional mark value other least, closing, ?_,
    makes mark value other least isFound isValue isOther isLast⟩
  exact rereads_conditional (kind_of_unplaced isOpening) (kind_of_unplaced isClosing) rereads
    within rereadsOther withinOther rereadsThird withinThird
    ((alike_of_unplaced isFound).1.trans isMark) (kind_of_unplaced isColon) sameLine

theorem isReadAs_member
    {property : Token}
    (below : limit ≤ 13)
    (isMark : token.kind = .dot)
    (isName : (property.kind = .identifier || TokenKind.isReserved property.literal) = true)
    (makes : ∀ found value name, found.unplaced = token.unplaced → isFirst value →
      name.unplaced = property.unplaced → wanted (.member found value name)) :
    IsReadAs (spelling ++ [token.unplaced, property.unplaced]) limit wanted := by
  intro tokens spelled
  obtain ⟨inner, rest, rfl, spelledInner, spelledRest⟩ := spelled.eq_append
  obtain ⟨mark, rest, rfl, isFound, sameLine, spelledRest⟩ := spelledRest.eq_cons
  obtain ⟨name, rfl, isProperty, -⟩ := spelledRest.eq_singleton
  obtain ⟨value, last, rereads, isValue⟩ := reread inner spelledInner
  refine ⟨.member mark value name, name, ?_, makes mark value name isFound isValue isProperty⟩
  obtain ⟨sameKind, sameLiteral, -⟩ := alike_of_unplaced isProperty
  exact rereads_member rereads ⟨within, below⟩ ((alike_of_unplaced isFound).1.trans isMark)
    (by rw [sameKind, sameLiteral]; exact isName) sameLine

theorem isReadAs_index
    (below : limit ≤ 13)
    (rereadKey : IsReadAs more limitOther isSecond)
    (withinKey : 2 ≤ limitOther)
    (isMark : token.kind = .leftBracket)
    (makes : ∀ found value key, found.unplaced = token.unplaced → isFirst value → isSecond key →
      wanted (.index found value key)) :
    IsReadAs (spelling ++ token.unplaced :: (more ++ [Token.plain .rightBracket "]"])) limit
      wanted := by
  intro tokens spelled
  obtain ⟨inner, rest, rfl, spelledInner, spelledRest⟩ := spelled.eq_append
  obtain ⟨mark, rest, rfl, isFound, sameLine, spelledRest⟩ := spelledRest.eq_cons
  obtain ⟨others, closing, rfl, spelledKey, isClosing⟩ := spelledRest.eq_concat
  obtain ⟨value, last, rereads, isValue⟩ := reread inner spelledInner
  obtain ⟨key, final, rereadsKey, isKey⟩ := rereadKey others spelledKey
  refine ⟨.index mark value key, closing, ?_, makes mark value key isFound isValue isKey⟩
  exact rereads_index rereads ⟨within, below⟩ rereadsKey withinKey
    ((alike_of_unplaced isFound).1.trans isMark) (kind_of_unplaced isClosing) sameLine

end

section

variable {Element : Type} {same : Element → Expression → Prop} {elements : List Element}
  {wanted isFirst : Expression → Prop} {spelling : List Token}
  (rereadAll : List.Forall₂ (IsElement same) elements spellings)

include rereadAll

theorem isReadAs_array
    (isMark : token.kind = .leftBracket)
    (makes : ∀ found values, found.unplaced = token.unplaced → List.Forall₂ same elements values →
      wanted (.array found values)) :
    IsReadAs (token.unplaced :: (listAll spellings ++ [Token.plain .rightBracket "]"])) 13
      wanted := by
  intro tokens spelled
  obtain ⟨mark, rest, rfl, isFound, -, spelled⟩ := spelled.eq_cons
  obtain ⟨inner, closing, rfl, spelledInner, isClosing⟩ := spelled.eq_concat
  obtain ⟨values, areSame, rereads⟩ := rereadsList_of_isElement (.inr rfl) rereadAll spelledInner
  refine ⟨.array mark values, closing, ?_, makes mark values isFound areSame⟩
  exact rereads_array rereads ((alike_of_unplaced isFound).1.trans isMark)
    (kind_of_unplaced isClosing)

variable (reread : IsReadAs spelling limit isFirst)

include reread

theorem isReadAs_sequence
    (within : 2 ≤ limit)
    (notSequence : ∀ value, isFirst value → value.isSequence = false)
    (some : elements ≠ [])
    (makes : ∀ comma value values, comma.unplaced = .plain .comma "," → isFirst value →
      List.Forall₂ same elements values → wanted (.sequence comma value values)) :
    IsReadAs
      (.plain .leftParen "(" :: (spelling ++ (listMore spellings ++ [Token.plain .rightParen ")"]))) 13
      wanted := by
  intro tokens spelled
  obtain ⟨opening, others, rfl, isOpening, -, spelled⟩ := spelled.eq_cons
  obtain ⟨inner, others, rfl, spelledInner, spelledRest⟩ := spelled.eq_append
  obtain ⟨others, closing, rfl, spelledMore, isClosing⟩ := spelledRest.eq_concat
  obtain ⟨value, last, rereads, isValue⟩ := reread inner spelledInner
  obtain ⟨comma, values, rereadsAll, isComma, areSame⟩ :=
    rereads_sequence (kind_of_unplaced isOpening) (kind_of_unplaced isClosing) rereads within
      (notSequence value isValue) rereadAll some spelledMore
  exact ⟨.sequence comma value values, closing, rereadsAll,
    makes comma value values isComma isValue areSame⟩

theorem isReadAs_call
    (within : 12 ≤ limit)
    (isMark : token.kind = .leftParen)
    (makes : ∀ found value values, found.unplaced = token.unplaced → isFirst value →
      List.Forall₂ same elements values → wanted (.call found value values)) :
    IsReadAs (spelling ++ token.unplaced :: (listAll spellings ++ [Token.plain .rightParen ")"])) 12
      wanted := by
  intro tokens spelled
  obtain ⟨inner, rest, rfl, spelledInner, spelledRest⟩ := spelled.eq_append
  obtain ⟨mark, rest, rfl, isFound, sameLine, spelledRest⟩ := spelledRest.eq_cons
  obtain ⟨others, closing, rfl, spelledAll, isClosing⟩ := spelledRest.eq_concat
  obtain ⟨value, last, rereads, isValue⟩ := reread inner spelledInner
  obtain ⟨values, areSame, rereadsList⟩ := rereadsList_of_isElement (.inl rfl) rereadAll spelledAll
  refine ⟨.call mark value values, closing, ?_, makes mark value values isFound isValue areSame⟩
  exact rereads_call rereads within rereadsList ((alike_of_unplaced isFound).1.trans isMark)
    (kind_of_unplaced isClosing) sameLine

theorem isReadAs_construct
    (isLimit : limit = 13)
    (isWord : token.kind = .newWord)
    (makes : ∀ found value values, found.unplaced = token.unplaced → isFirst value →
      List.Forall₂ same elements values → wanted (.construct found value values)) :
    IsReadAs
      (token.unplaced ::
        (spelling ++ Token.plain .leftParen "(" ::
          (listAll spellings ++ [Token.plain .rightParen ")"]))) 13
      wanted := by
  intro tokens spelled
  obtain ⟨word, rest, rfl, isFound, -, spelled⟩ := spelled.eq_cons
  obtain ⟨inner, rest, rfl, spelledInner, spelledRest⟩ := spelled.eq_append
  obtain ⟨mark, rest, rfl, isParen, -, spelledRest⟩ := spelledRest.eq_cons
  obtain ⟨others, closing, rfl, spelledAll, isClosing⟩ := spelledRest.eq_concat
  obtain ⟨value, last, rereads, isValue⟩ := reread inner spelledInner
  obtain ⟨values, areSame, rereadsList⟩ := rereadsList_of_isElement (.inl rfl) rereadAll spelledAll
  refine ⟨.construct word value values, closing, ?_, makes word value values isFound isValue areSame⟩
  exact rereads_construct (isLimit ▸ rereads) rereadsList
    ((alike_of_unplaced isFound).1.trans isWord) (kind_of_unplaced isParen)
    (kind_of_unplaced isClosing)

end

/-! ## Every operator expression -/

/-- Values that are the elements apart from their places are so together. -/
theorem unplacedAll_of_forall₂
    {elements : List Expression}
    (same : List.Forall₂ (fun element value => value.unplaced = element.unplaced) elements values) :
    unplacedAll values = unplacedAll elements := by
  induction same with
  | nil => rfl
  | cons isSame _ inductionHypothesis => rw [unplacedAll, isSame, inductionHypothesis, ← unplacedAll]

/-- What is reread as it is spelled is an element of a list. -/
theorem areElements_of_isReread
    {elements : List Expression}
    (reread : ∀ element ∈ elements, IsReread element) :
    List.Forall₂ (IsElement fun element value => value.unplaced = element.unplaced) elements
      (elements.map Expression.spelling) := by
  rw [List.forall₂_map_right_iff, List.forall₂_same]
  exact fun element member =>
    ⟨limitOf element, Nat.le_trans (by decide) (limitOf_bounds element).1, reread element member⟩

/-- The tokens that an operator expression is written with are read as the expression. -/
theorem isReread_of_ofOperators {expression : Expression} (ofOperators : expression.OfOperators) :
    IsReread expression := by
  have within (expression : Expression) := (limitOf_bounds expression).1
  have loosely (expression : Expression) : 2 ≤ limitOf expression :=
    Nat.le_trans (by decide) (within expression)
  induction ofOperators with
  | name isName _ =>
      exact isReadAs_name isName fun found isFound => by simp only [Expression.unplaced, isFound]
  | number isNumber _ isRead =>
      exact isReadAs_number isNumber isRead fun found isFound => by
        simp only [Expression.unplaced, isFound]
  | string isString _ isQuote =>
      exact isReadAs_string isString isQuote fun found isFound => by
        simp only [Expression.unplaced, isFound]
  | isTrue isMark =>
      exact @isReadAs_boolean _ _ true (kind_of_unplaced isMark) fun found isFound => by
        simp only [Expression.unplaced, isFound]
  | isFalse isMark =>
      exact @isReadAs_boolean _ _ false (kind_of_unplaced isMark) fun found isFound => by
        simp only [Expression.unplaced, isFound]
  | this isMark =>
      exact isReadAs_this (kind_of_unplaced isMark) fun found isFound => by
        simp only [Expression.unplaced, isFound]
  | array isMark _ reread =>
      rw [IsReread, Expression.spelling, Expression.spellingAll_eq_listAll]
      exact isReadAs_array (areElements_of_isReread reread) (kind_of_unplaced isMark)
        fun found values isFound areSame => by
          simp only [Expression.unplaced, unplacedAll_of_forall₂ areSame, isFound]
  | @unary token operator operand isMark _ reread =>
      exact @isReadAs_unary token _ _ _ _ reread (within operand) _
        (fun found value isFound same => by simp only [Expression.unplaced, isFound, same]) operator
        (kind_of_unplaced isMark) rfl
  | @typeof token operand isMark _ reread =>
      exact @isReadAs_word token _ _ _ _ reread (within operand) .typeof
        (fun found value isFound same => by simp only [Expression.unplaced, isFound, same])
        (.inl ⟨kind_of_unplaced isMark, rfl⟩)
  | @delete token target isMark _ reread =>
      exact @isReadAs_word token _ _ _ _ reread (within target) .delete
        (fun found value isFound same => by simp only [Expression.unplaced, isFound, same])
        (.inr ⟨kind_of_unplaced isMark, rfl⟩)
  | @update token operator target fixity isMark _ reread =>
      have all := @isReadAs_update token _
        (·.unplaced = (Expression.update token operator fixity target).unplaced) _ _ reread
        (within target) operator fixity (kind_of_unplaced isMark)
        fun found value isFound same => by simp only [Expression.unplaced, isFound, same]
      cases fixity <;> exact all
  | @binary token operator left right isMark _ _ reread rereadOther =>
      exact isReadAs_binary reread (within left) rereadOther (within right) (kind_of_unplaced isMark)
        fun found value other isFound same sameOther => by
          simp only [Expression.unplaced, isFound, same, sameOther]
  | @conditional token condition consequence alternative isMark _ _ _ reread rereadOther
      rereadThird =>
      exact isReadAs_conditional reread (within condition) rereadOther (loosely consequence)
        rereadThird (loosely alternative) (kind_of_unplaced isMark)
        fun found value other last isFound same sameOther sameLast => by
          simp only [Expression.unplaced, isFound, same, sameOther, sameLast]
  | @sequence token first rest isMark _ notSequence _ some reread rereadAll =>
      rw [IsReread, Expression.spelling, Expression.spellingMore_eq_listMore]
      exact isReadAs_sequence (areElements_of_isReread rereadAll) reread (loosely first)
        (fun value same => (isSequence_of_unplaced same).trans notSequence) some
        fun comma value values isComma same areSame => by
          simp only [Expression.unplaced, isComma, isMark, same, unplacedAll_of_forall₂ areSame]
  | @member token property base isMark _ isName isScanned reread =>
      exact isReadAs_member reread (within base) (limitOf_bounds base).2 (kind_of_unplaced isMark)
        (by rw [isName]; rfl) fun found value name isFound same isProperty => by
          simp only [Expression.unplaced, isFound, same, isProperty]
  | @index token base key isMark _ _ reread rereadKey =>
      exact isReadAs_index reread (within base) (limitOf_bounds base).2 rereadKey (loosely key)
        (kind_of_unplaced isMark) fun found value key isFound same sameKey => by
          simp only [Expression.unplaced, isFound, same, sameKey]
  | @call token callee arguments isMark _ _ reread rereadAll =>
      rw [IsReread, Expression.spelling, Expression.spellingAll_eq_listAll]
      exact isReadAs_call (areElements_of_isReread rereadAll) reread (within callee)
        (kind_of_unplaced isMark) fun found value values isFound same areSame => by
          simp only [Expression.unplaced, isFound, same, unplacedAll_of_forall₂ areSame]
  | @construct token constructor arguments isMark _ noCall _ reread rereadAll =>
      rw [IsReread, Expression.spelling, Expression.spellingAll_eq_listAll]
      have isLimit : limitOf constructor = 13 := by
        unfold limitOf
        rw [noCall]
        rfl
      exact isReadAs_construct (areElements_of_isReread rereadAll) reread isLimit
        (kind_of_unplaced isMark) fun found value values isFound same areSame => by
          simp only [Expression.unplaced, isFound, same, unplacedAll_of_forall₂ areSame]

/-- Tokens open neither a block nor the declaration of a function. -/
def OpensStatement (tokens : List Token) : Prop :=
  ∃ first others, tokens = first :: others ∧ first.kind ≠ .leftBrace ∧
    (first.kind = .functionWord → ∃ second ∈ others.head?, second.kind ≠ .identifier)

/-- An expression is read as a statement up to where the statement ends. -/
theorem Rereads.statement
    {more : List Token}
    (rereads : Rereads tokens last value limit)
    (within : 2 ≤ limit)
    (opens : OpensStatement tokens)
    (isLowest : Precedence.ofKind follower.kind = .lowest)
    (notColon : follower.kind ≠ .colon)
    (ends : Yields (4 * tokens.length + 2) endStatement (last :: follower :: more) () stop) :
    ∃ start ∈ tokens.head?, Yields (4 * tokens.length + 3) (read .statement)
      (tokens ++ follower :: more) (.expression start value) stop := by
  obtain ⟨start, others, isStart, opensStart, unlabelled⟩ := rereads.starts
  have evaluates : Yields (4 * tokens.length + 2) expressionStatement
      (tokens ++ follower :: more) (.expression start value) stop := by
    have yields := rereads.stops (Nat.le_trans (by decide) within) more
      (rank_le_of_lowest isLowest .lowest)
    rw [isStart] at yields ends ⊢
    exact .current (.bind yields (.bind ends (.pure _)))
  obtain ⟨_, _, isStartToo, notBlock, notNamed⟩ := opens
  obtain ⟨rfl, rfl⟩ := List.cons.inj (isStart.symm.trans isStartToo)
  refine ⟨start, by rw [isStart]; rfl, @Yields.read _ _ _ _ .statement _ ?_⟩
  rw [isStart, List.cons_append] at evaluates ⊢
  refine .current ?_
  by_cases isName : start.kind = .identifier
  · simp only [isName]
    -- Behind the name stands no colon, so the name is no label.
    obtain ⟨following, rest, isFollowing, notColon⟩ :
        ∃ following rest, others ++ follower :: more = following :: rest ∧
          following.kind ≠ .colon := by
      cases others with
      | nil => exact ⟨follower, more, rfl, notColon⟩
      | cons following rest => exact ⟨following, _, rfl, (unlabelled isName following rfl).1⟩
    rw [isFollowing] at evaluates ⊢
    refine .next ?_
    rw [if_neg notColon]
    exact evaluates
  by_cases isFunction : start.kind = .functionWord
  · simp only [isFunction]
    -- Behind the word stands no name, so the function is no declared one.
    obtain ⟨second, isSecond, unnamed⟩ := notNamed isFunction
    obtain ⟨rest, rfl⟩ := List.head?_eq_some_iff.mp isSecond
    refine .next ?_
    rw [if_neg unnamed]
    exact evaluates
  · revert opensStart isName isFunction notBlock
    cases start.kind <;> intro opensStart isName isFunction notBlock <;>
      first
        | exact absurd rfl isName
        | exact absurd rfl isFunction
        | exact absurd rfl notBlock
        | exact evaluates
        | cases opensStart

/-- A statement ends with a semicolon. -/
theorem endStatement_semicolon
    {semicolon : Token}
    (ends : semicolon.kind = .semicolon)
    (follow : List Token) :
    Yields least endStatement (last :: semicolon :: follow) () (semicolon :: follow) := by
  refine .next ?_
  rw [if_pos ends]
  exact .move (List.cons_ne_nil semicolon follow)

/-- A statement ends with the input. -/
theorem endStatement_endOfInput
    (isEnd : last.kind = .endOfInput) :
    Yields least endStatement [final, last] () [final, last] := by
  refine .next ?_
  rw [if_neg (by rw [isEnd]; nofun), if_pos (by simp [endsStatement, isEnd])]
  exact .pure ()

/-- An operator expression opens neither a block nor a function. -/
theorem opensStatement_of_ofOperators
    {expression : Expression}
    (ofOperators : expression.OfOperators)
    (spelled : Spelled tokens expression.spelling) :
    OpensStatement tokens := by
  have opens : ∃ first others, expression.spelling = first :: others ∧
      opensOperand first.kind = true := by
    clear spelled
    have accessed {base : Expression} {others : List Token}
        (opens : ∃ first others, base.spelling = first :: others ∧ opensOperand first.kind = true) :
        ∃ first rest, base.spelling ++ others = first :: rest ∧ opensOperand first.kind = true := by
      obtain ⟨first, rest, isSpelling, opens⟩ := opens
      exact ⟨first, rest ++ others, by rw [isSpelling, List.cons_append], opens⟩
    induction ofOperators with
    | @name token isName _ => exact ⟨_, _, rfl, by rw [Token.unplaced, isName]; rfl⟩
    | @number token _ isNumber _ _ => exact ⟨_, _, rfl, by rw [Token.unplaced, isNumber]; rfl⟩
    | @string token _ isString _ _ => exact ⟨_, _, rfl, by rw [Token.unplaced, isString]; rfl⟩
    | isTrue isMark | isFalse isMark | this isMark | array isMark _ _ | construct isMark _ _ _ _ _ =>
        exact ⟨_, _, rfl, by rw [isMark]; rfl⟩
    | update fixity _ _ _ => cases fixity <;> exact ⟨_, _, rfl, rfl⟩
    | member _ _ _ _ opens | index _ _ _ opens _ | call _ _ _ opens _ => exact accessed opens
    | _ => exact ⟨_, _, rfl, rfl⟩
  obtain ⟨mark, spelling, isSpelling, opens⟩ := opens
  rw [isSpelling] at spelled
  obtain ⟨first, others, rfl, isFirst, -, -⟩ := spelled.eq_cons
  rw [← kind_of_unplaced isFirst] at opens
  refine ⟨first, others, rfl, fun isBrace => ?_, fun isFunction => ?_⟩
  · rw [isBrace] at opens
    cases opens
  · rw [isFunction] at opens
    cases opens

end Parser

namespace Program

open Token ScriptEngine.Parser

/-- The text of an operator expression and a semicolon are scanned as their tokens. -/
theorem scan_text
    {expression : Expression}
    (ofOperators : expression.OfOperators)
    (width : Char → Nat) :
    ∃ (tokens : List Token) (semicolon last : Token),
      scanChars width (expression.text ++ ";").toList = tokens ++ [semicolon, last] ∧
      Spelled tokens expression.spelling ∧ semicolon.kind = .semicolon ∧
      last.kind = .endOfInput := by
  have follower : Follower [';'] := .mark [] (by decide)
  have scans := (Expression.isWritten_of_ofOperators ofOperators).scans none [';'] (fun _ => rfl)
    follower
  have ends : Scans (some expression.closes) [';'] [.plain .semicolon ";"] (some .semicolon) [] :=
    @Scans.token [] (some expression.closes) (.plain .semicolon ";") rfl rfl nofun
  obtain ⟨tokens, behind, isScan, isSpelling, sameLine⟩ := (scans.trans ends).scans width []
  obtain ⟨last, isLast, isEnd, -⟩ := tokensFrom_nil width (some .semicolon) behind
  obtain ⟨front, semicolon, rfl, spelled, isSemicolon⟩ := Spelled.eq_concat ⟨isSpelling, sameLine⟩
  refine ⟨front, semicolon, last, ?_, spelled, kind_of_unplaced isSemicolon, isEnd⟩
  rw [isLast, List.append_assoc] at isScan
  rw [String.toList_append]
  exact isScan

/-- Reading the tokens of an operator expression gives the expression, apart from places. -/
theorem ofTokens_text
    {expression : Expression}
    (ofOperators : expression.OfOperators)
    (source : Source)
    (width : Char → Nat) :
    (ofTokens source (scanChars width (expression.text ++ ";").toList)).failures = [] ∧
      ∃ token value,
        (ofTokens source (scanChars width (expression.text ++ ";").toList)).program.statements =
            [.expression token value] ∧
          value.unplaced = expression.unplaced := by
  obtain ⟨tokens, semicolon, last, isScan, spelled, ends, isEnd⟩ := scan_text ofOperators width
  obtain ⟨value, final, rereads, same⟩ := isReread_of_ofOperators ofOperators tokens spelled
  have isLowest : Precedence.ofKind semicolon.kind = .lowest ∧ semicolon.kind ≠ .colon := by
    rw [ends]
    exact ⟨rfl, nofun⟩
  obtain ⟨start, -, yields⟩ := rereads.statement
    (Nat.le_trans (by decide) (limitOf_bounds expression).1)
    (opensStatement_of_ofOperators ofOperators spelled) isLowest.1 isLowest.2
    (endStatement_semicolon ends [last])
  obtain ⟨first, others, isFirst, opens, -⟩ := rereads.starts
  have goesOn : first.kind ≠ .endOfInput := by
    intro isEnd
    rw [isEnd] at opens
    cases opens
  have enough : 4 * tokens.length + 3 ≤ budget (tokens ++ [semicolon, last]).length := by
    simp only [budget, List.length_append]
    omega
  have follows : Follows (budget (tokens ++ [semicolon, last]).length)
      (.ofTokens (tokens ++ [semicolon, last])) [.expression start value] (.ofTokens [last]) := by
    have gives := yields _ enough
    rw [isFirst] at gives ⊢
    exact follows_cons goesOn (by simp) gives (.none _)
  have isParsed := @ofTokens_of_follows source _ _ _ (by simp) follows isEnd
  rw [isScan, isParsed]
  exact ⟨rfl, start, value, rfl, same⟩

/--
Reading what an operator expression is printed as gives the expression, apart from places,
in texts and byte strings.
-/
theorem parsing_inverts_printing
    {expression : Expression}
    (ofOperators : expression.OfOperators)
    (source : Source) :
    (source.content = expression.text ++ ";" →
      (parse source).errors = [] ∧
        ∃ token value, (parse source).program.statements = [.expression token value] ∧
          value.unplaced = expression.unplaced) ∧
      ∀ bytes, bytes.map letter = (expression.text ++ ";").toList →
        (ofTokens source (scanBytes bytes)).failures = [] ∧
          ∃ token value,
            (ofTokens source (scanBytes bytes)).program.statements = [.expression token value] ∧
              value.unplaced = expression.unplaced := by
  constructor
  · intro isText
    obtain ⟨noFailure, reread⟩ := ofTokens_text ofOperators source Char.utf8Size
    unfold parse
    rw [isText, scan]
    exact ⟨List.map_eq_nil_iff.mpr noFailure, reread⟩
  · intro bytes isText
    rw [scanBytes, isText]
    exact ofTokens_text ofOperators source byteWidth

/-- The expression `((a, new b.c(2)) / (-x)['y'])`. -/
def quotientOfSequence : Expression :=
  .binary (.plain .slash "/") (.strict .divide)
    (.sequence (.plain .comma ",") (.name (.plain .identifier "a"))
      [.construct (.plain .newWord "new")
        (.member (.plain .dot ".") (.name (.plain .identifier "b")) (.plain .identifier "c"))
        [.number (.plain .number "2") ((Number.ofLiteral? ['2']).getD 0)]])
    (.index (.plain .leftBracket "[")
      (.unary (.plain .minus "-") .negate (.name (.plain .identifier "x")))
      (.string { plain .string "y" with quote := some '\'' } '\''))

theorem quotientOfSequence_ofOperators : quotientOfSequence.OfOperators := by
  refine .binary rfl (.sequence rfl (.name rfl (by decide)) rfl ?_ nofun)
    (.index rfl (.unary rfl (.name rfl (by decide))) (.string rfl (by decide) rfl))
  intro element member
  obtain rfl := List.mem_singleton.mp member
  refine .construct rfl (.member rfl (.name rfl (by decide)) rfl (by decide)) rfl ?_
  intro element member
  obtain rfl := List.mem_singleton.mp member
  exact .number rfl (by decide) rfl

theorem parsing_inverts_printing_of_quotient :
    quotientOfSequence.OfOperators ∧
      quotientOfSequence.text = "((a, new b.c(2)) / (-x)['y'])" ∧
      (parse (Source.ofRepl "((a, new b.c(2)) / (-x)['y']);")).errors = [] ∧
      ∃ token value,
        (parse (Source.ofRepl "((a, new b.c(2)) / (-x)['y']);")).program.statements =
          [.expression token value] ∧ value.unplaced = quotientOfSequence.unplaced :=
  ⟨quotientOfSequence_ofOperators, rfl,
    (parsing_inverts_printing quotientOfSequence_ofOperators _).1 rfl⟩

end Program

end ScriptEngine
