import ScriptEngine.Proofs.Program.Appending
import ScriptEngine.Proofs.Program.Rereading

namespace ScriptEngine

/-!
# Operands that operators follow

A statement that is one operand up to the end of input is read as an operand when an
operator follows instead of the end, and the operator goes on with it.  An operand ends
with a token of its own, so nothing behind it is needed to know where it ends.
-/

variable {stop start : Cursor} {value : Expression} {first token final dead following : Token}
  {rest front : List Token} {kind closing : TokenKind} {budget least : Nat}
  {source : Source} {answers : Answers} {bound : Precedence}

/--
Whether an expression is a name, a literal, or an access or call, so that it ends where its
last token says.
-/
@[simp] def Expression.IsOperand : Expression → Prop
  | .name _ | .number _ _ | .string _ _ | .boolean _ _ | .regex _ _ _ | .this _ | .function _
  | .array _ _ | .object _ _ | .call _ _ _ | .member _ _ _ | .index _ _ _ => True
  | _ => False

namespace Parser

open Script (current next advance read)

/-! ## Scripts that a dead token stops -/

/-- From a cursor a script fails, or gives a value that is not wanted. -/
def Misses (budget : Nat) (wanted : α → Prop) (script : Script α) (start : Cursor) : Prop :=
  (∃ failure, script.Fails (Task.answers budget) start failure) ∨
    ∃ value stop, script.Gives (Task.answers budget) start value stop ∧ ¬wanted value

/-- When a token follows that no reader takes, a script misses what is wanted. -/
def MissesAt
    (least : Nat)
    (wanted : α → Prop)
    (script : Script α)
    (front : List Token)
    (dead : Token) : Prop :=
  ∀ rest budget, least ≤ budget → Misses budget wanted script (.ofTokens (front ++ dead :: rest))

namespace MissesAt

variable {wanted : α → Prop} {first : Script β} {later : β → Script α}

theorem refuse (fault : GrammarFault) :
    MissesAt least wanted (Parser.refuse (α := α) token fault) front dead :=
  fun _ _ _ => .inl ⟨⟨token, fault⟩, .refuse token fault _⟩

/-- A script whose first step gives something misses what its later steps miss. -/
theorem step
    {value : β}
    {reached : List Token}
    (yields : ∀ rest, Yields least first (front ++ dead :: rest) value (reached ++ dead :: rest))
    (misses : MissesAt least wanted (later value) reached dead) :
    MissesAt least wanted (first >>= later) front dead := by
  intro rest budget enough
  have gives := yields rest budget enough
  rcases misses rest budget enough with ⟨failure, fails⟩ | ⟨result, stop, givesLater, unwanted⟩
  · exact .inl ⟨failure, .later gives fails⟩
  · exact .inr ⟨result, stop, gives.bind givesLater, unwanted⟩

theorem advance
    {later : Unit → Script α}
    (misses : MissesAt least wanted (later ()) front dead) :
    MissesAt least wanted (advance >>= later) (token :: front) dead :=
  step (fun _ => .move (by simp)) misses

/-- A script that looks at the next token when that is the dead one. -/
theorem next
    {later : Token → Script α}
    (misses : MissesAt least wanted (later dead) [token] dead) :
    MissesAt least wanted (next >>= later) [token] dead :=
  step (fun _ _ _ => .next _) misses

theorem refuseNext (kind : TokenKind) :
    MissesAt least wanted (Parser.refuseNext kind) [token] dead :=
  next (refuse _)

/-- A script that fails where it starts misses whatever is wanted. -/
theorem ofRefuses {script : Script α} (refuses : RefusesAt least script dead) :
    MissesAt least wanted script [] dead := by
  intro rest budget enough
  obtain ⟨fault, -, fails⟩ := refuses rest budget enough
  exact .inl ⟨_, fails⟩

/-- What fails makes what comes after it fail. -/
theorem bind
    (misses : MissesAt least (fun _ => True) first front dead) :
    MissesAt least wanted (first >>= later) front dead := by
  intro rest budget enough
  rcases misses rest budget enough with ⟨failure, fails⟩ | ⟨_, _, _, unwanted⟩
  · exact .inl ⟨failure, fails.bind later⟩
  · exact absurd trivial unwanted

theorem read
    {task : Task α}
    (misses : MissesAt least wanted task.script front dead) :
    MissesAt (least + 1) wanted (read task) front dead := by
  intro rest budget enough
  obtain ⟨budget, rfl⟩ := Nat.exists_eq_add_of_le' (Nat.le_of_add_left_le enough)
  rcases misses rest budget (Nat.le_of_succ_le_succ enough) with
    ⟨failure, fails⟩ | ⟨value, stop, gives, unwanted⟩
  · exact .inl ⟨failure, fails.read⟩
  · exact .inr ⟨value, stop, gives.read, unwanted⟩

theorem expect
    {wanted : Unit → Prop}
    (isDead : IsDead dead)
    (lives : isLiving kind = true) :
    MissesAt least wanted (Parser.expect kind) [token] dead := by
  refine next ?_
  rw [if_neg (isDead.ne kind lives)]
  exact refuseNext kind

end MissesAt

/-- A script is settled by the tokens of a front, or a dead token behind them stops it. -/
inductive Closes
    (least : Nat)
    (wanted : α → Prop)
    (script : Script α)
    (front : List Token) : Prop where
  | settles (value : α) (stop : List Token) :
      stop <:+ front →
      0 < stop.length →
      (∀ tail, tail ≠ [] → Yields least script (front ++ tail) value (stop ++ tail)) →
      Closes least wanted script front
  | misses :
      (∀ dead, IsDead dead → MissesAt least wanted script front dead) →
      Closes least wanted script front

namespace Closes

variable {wanted : α → Prop} {first : Script β} {later : β → Script α}

theorem pure (value : α) (some : 0 < front.length) :
    Closes least wanted (pure value) front :=
  .settles value front (List.suffix_refl _) some fun _ _ => .pure value

theorem refuse (fault : GrammarFault) :
    Closes least wanted (Parser.refuse (α := α) token fault) front :=
  .misses fun _ _ => .refuse fault

/-- A script whose first step gives something closes as its later steps do. -/
theorem step
    {value : β}
    {reached : List Token}
    (isSuffix : reached <:+ front)
    (yields : ∀ tail, tail ≠ [] → Yields least first (front ++ tail) value (reached ++ tail))
    (closes : Closes least wanted (later value) reached) :
    Closes least wanted (first >>= later) front := by
  cases closes with
  | settles result stop isLater some yieldsLater =>
      exact .settles result stop (isLater.trans isSuffix) some fun tail notNil =>
        (yields tail notNil).bind (yieldsLater tail notNil)
  | misses misses =>
      exact .misses fun dead isDead =>
        .step (fun rest => yields (dead :: rest) (List.cons_ne_nil _ _)) (misses dead isDead)

theorem current
    {later : Token → Script α}
    (closes : Closes least wanted (later token) (token :: front)) :
    Closes least wanted (current >>= later) (token :: front) := by
  refine step (List.suffix_refl _) (fun tail _ budget _ => ?_) closes
  have gives : Script.current.Gives (Task.answers budget) (.ofTokens (token :: front ++ tail)) _ _ :=
    .current _
  rwa [List.cons_append, Cursor.current_ofTokens] at gives

theorem next
    {later : Token → Script α}
    (closes : Closes least wanted (later following) (token :: following :: front)) :
    Closes least wanted (next >>= later) (token :: following :: front) :=
  step (List.suffix_refl _) (fun _ _ _ _ => .next _) closes

theorem advance
    {later : Unit → Script α}
    (closes : Closes least wanted (later ()) front) :
    Closes least wanted (advance >>= later) (token :: front) :=
  step (List.suffix_cons _ _)
    (fun _ notNil => .move (List.append_ne_nil_of_right_ne_nil front notNil)) closes

theorem advanceOnce {wanted : Unit → Prop} (some : 0 < front.length) :
    Closes least wanted Script.advance (token :: front) :=
  .settles () front (List.suffix_cons _ _) some fun _ notNil =>
    .move (List.append_ne_nil_of_right_ne_nil front notNil)

theorem read {task : Task α} (closes : Closes least wanted task.script front) :
    Closes (least + 1) wanted (read task) front := by
  cases closes with
  | settles value stop isSuffix some yields =>
      exact .settles value stop isSuffix some fun tail notNil => (yields tail notNil).read
  | misses misses => exact .misses fun dead isDead => (misses dead isDead).read

/-- A script that closes hands over to later steps that do. -/
theorem andThen
    (closes : Closes least (fun _ => True) first front)
    (laterCloses : ∀ value stop, 0 < stop.length → stop.length ≤ front.length →
      Closes least wanted (later value) stop) :
    Closes least wanted (first >>= later) front := by
  cases closes with
  | settles value stop isSuffix some yields =>
      exact .step isSuffix yields (laterCloses value stop some isSuffix.length_le)
  | misses misses => exact .misses fun dead isDead => (misses dead isDead).bind

theorem map
    (closes : Closes least (fun _ => True) first front)
    (make : β → α) :
    Closes least wanted (first >>= fun value => Pure.pure (make value)) front :=
  closes.andThen fun value _ some _ => .pure (make value) some

/-- A script that has a fate closes when its later steps need one more token. -/
theorem bind
    {quiet : TokenKind → Prop}
    (fate : Fate least first front 1 quiet)
    (closes : ∀ value last following others, others.length + 2 ≤ front.length →
      Closes least wanted (later value) (last :: following :: others))
    (misses : ∀ value last dead, IsDead dead → MissesAt least wanted (later value) [last] dead) :
    Closes least wanted (first >>= later) front := by
  cases fate with
  | gives value stop isSuffix some gives =>
      match stop with
      | [last] =>
          refine .misses fun dead isDead => .step (fun rest budget => ?_)
            (misses value last dead isDead)
          exact gives (dead :: rest) budget (List.cons_ne_nil _ _)
      | last :: following :: others =>
          exact .step isSuffix (fun tail notNil budget => gives tail budget notNil)
            (closes value last following others isSuffix.length_le)
  | fails failure _ fails =>
      exact .misses fun dead _ rest budget enough =>
        .inl ⟨failure, (fails (dead :: rest) budget (List.cons_ne_nil _ _) enough).bind later⟩
  | opens fillers opens =>
      refine .misses fun dead isDead rest budget enough => ?_
      rcases opens.starves dead isDead rest budget enough with
        ⟨value, stop, isOne, gives⟩ | ⟨token, -, fault, -, fails⟩
      · obtain ⟨last, rfl⟩ := List.length_eq_one_iff.mp isOne
        rcases misses value last dead isDead rest budget enough with
          ⟨failure, fails⟩ | ⟨result, stop, givesLater, unwanted⟩
        · exact .inl ⟨failure, .later gives fails⟩
        · exact .inr ⟨result, stop, gives.bind givesLater, unwanted⟩
      · exact .inl ⟨_, fails.bind later⟩

end Closes

/-! ## Scripts whose values are all of a kind -/

/-- Whatever a script gives is so. -/
def Script.Makes (script : Script α) (holds : α → Prop) : Prop :=
  ∀ answers reading value later, script.run answers reading = (some value, later) → holds value

namespace Script.Makes

variable {holds : α → Prop}

theorem pure {value : α} (holdsValue : holds value) : Script.Makes (pure value) holds := by
  rintro _ _ _ _ ⟨⟩
  exact holdsValue

theorem bind
    {first : Script β}
    {later : β → Script α}
    (makes : ∀ value, (later value).Makes holds) :
    (first >>= later).Makes holds := by
  intro answers reading value last isRun
  rw [run_bind] at isRun
  split at isRun
  · exact makes _ _ _ _ _ isRun
  · cases isRun

end Script.Makes

/-- A script that gives nothing that is wanted closes where it has a fate. -/
theorem Closes.of_makes
    {script : Script α}
    {wanted : α → Prop}
    {quiet : TokenKind → Prop}
    (fate : Fate least script front 1 quiet)
    (makes : script.Makes fun value => ¬wanted value) :
    Closes least wanted script front := by
  cases fate with
  | gives value stop isSuffix some gives =>
      exact .settles value stop isSuffix some fun tail notNil budget => gives tail budget notNil
  | fails failure _ fails =>
      exact .misses fun dead _ rest budget enough =>
        .inl ⟨failure, fails (dead :: rest) budget (List.cons_ne_nil _ _) enough⟩
  | opens fillers opens =>
      refine .misses fun dead isDead rest budget enough => ?_
      rcases opens.starves dead isDead rest budget enough with
        ⟨value, stop, -, gives⟩ | ⟨token, -, fault, -, fails⟩
      · exact .inr ⟨value, _, gives, makes _ _ _ _ (gives ⟨_, [], false⟩ rfl)⟩
      · exact .inl ⟨_, fails⟩

/-! ## The readers that end with a token of their own -/

theorem room_of_enough {least size : Nat} (enough : 8 * size + 4 ≤ least) : Room least size 4 :=
  ⟨by omega, fun task _ proper longer fits => read_fate task proper longer (by omega)⟩

theorem expression_fate (bound : Precedence) (enough : 8 * front.length + 4 ≤ least) :
    Fate least (read (.expression bound)) front 1 EndsExpression :=
  Meets.fateOf (Nat.le_refl _) (Nat.zero_le _)
    (expression_meets bound ((room_of_enough enough).lower (by decide)))

theorem expect_closes (following : Token) :
    Closes least wanted (expect kind) (token :: following :: front) := by
  refine .next ?_
  split
  · exact .advanceOnce (Nat.succ_pos _)
  · exact .next (.refuse _)

/-- What is read behind a token and closed by another of a kind. -/
theorem enclosed_closes
    {wanted : Expression → Prop}
    (make : Expression → Expression)
    (lives : isLiving kind = true)
    (enough : 8 * front.length + 4 ≤ least) :
    Closes least wanted
      (advance >>= fun _ => read (.expression .lowest) >>= fun value =>
        expect kind >>= fun _ => pure (make value))
      (token :: front) := by
  refine .advance (.bind (expression_fate .lowest enough) ?_ ?_)
  · exact fun value last following others _ => (expect_closes following).map fun _ => make value
  · exact fun value last dead isDead => .bind (.expect isDead lives)

/-- A list is not closed at a dead token. -/
theorem list_misses
    {wanted : List Expression → Prop}
    (isDead : IsDead dead) :
    MissesAt (least + 2) wanted (read (.list closing)) [token] dead :=
  .read (.advance (.ofRefuses ((expression_refuses isDead .comma).bind _)))

theorem list_closes
    (closes : (closer closing).kind = closing)
    (enough : 8 * front.length + 12 ≤ least) :
    Closes least (fun _ => True) (list closing) (token :: front) := by
  have lives : isLiving closing = true := closes ▸ (closer closing).isLiving_kind
  induction least generalizing token front with
  | zero => cases enough
  | succ least inductionHypothesis =>
      refine .advance (.bind (expression_fate .comma (by omega)) ?_ ?_)
      · intro first last following others fits
        refine .next ?_
        split
        · refine .advance ?_
          cases others with
          | nil =>
              refine .misses fun dead isDead => .next ?_
              rw [if_neg (isDead.ne closing lives)]
              obtain ⟨spare, rfl⟩ := Nat.exists_eq_add_of_le' (show 1 ≤ least by omega)
              exact .bind (list_misses isDead)
          | cons second others =>
              simp only [List.length_cons] at fits
              refine .next ?_
              split
              · exact .advance (.pure _ (Nat.succ_pos _))
              · exact (inductionHypothesis (by simp only [List.length_cons]; omega)).read.map _
        · exact (expect_closes following).map _
      · intro first last dead isDead
        refine .next ?_
        rw [if_neg (isDead.ne .comma rfl)]
        exact .bind (.expect isDead lives)

theorem expressionList_closes
    (closes : (closer closing).kind = closing)
    (enough : 8 * front.length + 13 ≤ least) :
    Closes least (fun _ => True) (expressionList closing) (token :: front) := by
  have lives : isLiving closing = true := closes ▸ (closer closing).isLiving_kind
  obtain ⟨spare, rfl⟩ := Nat.exists_eq_add_of_le' (show 2 ≤ least by omega)
  cases front with
  | nil =>
      refine .misses fun dead isDead => .next ?_
      rw [if_neg (isDead.ne closing lives)]
      exact list_misses isDead
  | cons following front =>
      refine .next ?_
      split
      · exact .advance (.pure _ (Nat.succ_pos _))
      · exact (list_closes closes (by omega)).read

theorem betweenProperties_closes (following : Token) :
    Closes least (fun _ => True) betweenProperties (token :: following :: front) := by
  refine .next ?_
  split
  · exact .pure () (Nat.succ_pos _)
  · exact expect_closes following

theorem properties_closes (enough : 8 * front.length + 12 ≤ least) :
    Closes least (fun _ => True) properties (token :: front) := by
  induction least generalizing token front with
  | zero => cases enough
  | succ least inductionHypothesis =>
      cases front with
      | nil =>
          refine .misses fun dead isDead => .next ?_
          rw [if_neg (isDead.ne .rightBrace rfl)]
          exact .advance (.ofRefuses ((propertyKey_refuses isDead).bind _))
      | cons following front =>
          simp only [List.length_cons] at enough
          refine .next ?_
          split
          · exact .advance (.pure _ (Nat.succ_pos _))
          refine .advance (.bind (propertyKey_meets.fate (following :: front) (Nat.succ_pos _)
            (Nat.le_refl _)) ?_ fun key last dead isDead => .bind (.expect isDead rfl))
          intro key last colon others fits
          refine .andThen (expect_closes colon) fun _ stop some shorter => ?_
          obtain ⟨mark, stop, rfl⟩ := List.exists_cons_of_length_pos some
          simp only [List.length_cons] at fits shorter
          refine .advance (.bind (expression_fate .comma (by omega)) ?_ ?_)
          · intro value last second others fitsValue
            refine .andThen (betweenProperties_closes second) fun _ stop some shorterStop => ?_
            obtain ⟨last, rest, rfl⟩ := List.exists_cons_of_length_pos some
            simp only [List.length_cons] at shorterStop
            exact (inductionHypothesis (by omega)).read.map _
          · intro value last dead isDead
            refine .bind (.next ?_)
            rw [if_neg (isDead.ne .rightBrace rfl)]
            exact .expect isDead rfl

/-- A block is not closed at a dead token. -/
theorem block_misses {wanted : List Statement → Prop} (isDead : IsDead dead) :
    MissesAt (least + 2) wanted block [] dead := by
  refine .ofRefuses (.current ?_)
  rw [if_neg (isDead.ne .rightBrace rfl)]
  split
  · exact .refuse nofun
  · exact (statement_refuses isDead).bind _

theorem block_closes (enough : 8 * front.length + 12 ≤ least) :
    Closes least (fun _ => True) block front := by
  induction least generalizing front with
  | zero => cases enough
  | succ least inductionHypothesis =>
      obtain ⟨spare, rfl⟩ := Nat.exists_eq_add_of_le' (show 2 ≤ least by omega)
      cases front with
      | nil => exact .misses fun dead isDead => block_misses isDead
      | cons token front =>
          simp only [List.length_cons] at enough
          have fate : Fate (spare + 2 + 1) (read .statement) (token :: front) 1 (· ≠ .elseWord) :=
            read_fate .statement trivial (Nat.succ_pos _)
              (by simp only [Task.rank, List.length_cons]; omega)
          refine .current ?_
          split
          · exact .pure _ (Nat.succ_pos _)
          split
          · exact .refuse _
          refine .bind fate ?_ fun first last dead isDead =>
            .advance (.bind (.read (block_misses isDead)))
          intro first last following others fits
          simp only [List.length_cons] at fits
          exact .advance ((inductionHypothesis (by simp only [List.length_cons]; omega)).read.map _)

/-- A function ends with the brace of its body. -/
theorem functionLiteral_closes (enough : 8 * front.length + 14 ≤ least) :
    Closes least (fun _ => True) functionLiteral (token :: front) := by
  have room : Room least (front.length + 1) 1 := (room_of_enough (by omega)).lower (by decide)
  have nameFate : Fate least functionName (token :: front) 1 (fun _ => True) :=
    Meets.fateOf (Nat.le_refl _) (Nat.succ_pos _) functionName_meets
  refine .current (.bind nameFate ?_ fun name last dead isDead => .bind (.expect isDead rfl))
  intro name last following others fits
  refine .andThen (expect_closes following) fun _ stop some shorter => ?_
  have listFate : Fate least parameterList stop 1 (fun _ => True) := by
    simp only [List.length_cons] at fits shorter
    exact Meets.fateOf (by omega) some (parameterList_meets room)
  refine .bind listFate ?_ fun parameters last dead isDead => .bind (.expect isDead rfl)
  intro parameters last second others fitsStop
  refine .andThen (expect_closes second) fun _ stop some shorterStop => ?_
  obtain ⟨mark, stop, rfl⟩ := List.exists_cons_of_length_pos some
  simp only [List.length_cons] at fits shorter shorterStop
  obtain ⟨spare, rfl⟩ := Nat.exists_eq_add_of_le' (show 1 ≤ least by omega)
  have body : Closes (spare + 1) (fun _ => True) blockBody (mark :: stop) :=
    .advance (.read (block_closes (by omega)))
  exact body.map _

/-- An expression behind an operator makes no operand. -/
theorem nextOperand_closes
    (bound : Precedence)
    {make : Expression → Expression}
    (other : ∀ value, ¬(make value).IsOperand)
    (enough : 8 * front.length + 14 ≤ least) :
    Closes least Expression.IsOperand
      (advance >>= fun _ => read (.expression bound) >>= fun value => pure (make value))
      (token :: front) := by
  have room : Room least (front.length + 1) 1 := (room_of_enough (by omega)).lower (by decide)
  exact .of_makes
    (Meets.fateOf (Nat.le_refl _) (Nat.le_add_left 1 _) (nextOperand_meets bound make room))
    (.bind fun _ => .bind fun value => .pure (other value))

/-- An operand that ends with a token of its own is settled by its tokens. -/
theorem operand_closes (enough : 8 * front.length + 14 ≤ least) :
    Closes least Expression.IsOperand operand (token :: front) := by
  have leaf (value : Expression) : Closes least Expression.IsOperand (pure value) (token :: front) :=
    .pure value (Nat.succ_pos _)
  refine .current ?_
  split
  · exact nextOperand_closes .unary (fun _ => id) enough
  · exact nextOperand_closes .unary (fun _ => id) enough
  · split
    · exact leaf _
    · unfold numberValue
      split
      · exact .step (List.suffix_refl _) (fun _ _ => .pure _) (leaf _)
      · exact .misses fun _ _ => .bind (.refuse _)
    · exact leaf _
    · unfold regexLiteral
      split
      · exact leaf _
      · exact .refuse _
    · exact leaf _
    · exact leaf _
    · exact leaf _
    · exact (functionLiteral_closes enough).map _
    · exact (expressionList_closes rfl (by omega)).map _
    · obtain ⟨spare, rfl⟩ := Nat.exists_eq_add_of_le' (show 1 ≤ least by omega)
      exact (properties_closes (by omega)).read.map _
    · exact enclosed_closes id rfl (by omega)
    · exact nextOperand_closes .unary (fun _ => id) enough
    · exact nextOperand_closes .unary (fun _ => id) enough
    · have inner : Room least front.length 2 := (room_of_enough (by omega)).lower (by decide)
      have given := constructorArguments_meets (inner.lower (by decide))
      refine .of_makes (Meets.fateOf (Nat.le_refl _) (Nat.le_add_left 1 _) (.advance (.bind
        (expression_meets .call inner) (fun constructor => .bind given (fun _ => .pure _)
          fun _ ends => ends) fun _ ends => ends))) ?_
      exact .bind fun _ => .bind fun _ => .bind fun _ => .pure id
    · exact .refuse _
    · exact .refuse _
    · exact .refuse _

/-- What an operator makes is settled by its tokens, if it is an operand again. -/
theorem operator_closes (left : Expression) (enough : 8 * front.length + 14 ≤ least) :
    Closes least Expression.IsOperand (operator token left) (token :: front) := by
  unfold operator
  split
  · exact nextOperand_closes _ (fun _ => id) enough
  · exact nextOperand_closes .comma (fun _ => id) enough
  · exact .pure _ (Nat.succ_pos _)
  · split
    · have inner : Room least front.length 2 := (room_of_enough (by omega)).lower (by decide)
      have otherwise {make : Expression → Expression} := nextOperand_meets .comma make inner
      refine .of_makes (Meets.fateOf (Nat.le_refl _) (Nat.le_add_left 1 _) (.advance (.bind
        (expression_meets .comma inner)
        (fun consequence => .bind (expect_meets .colon rfl) (fun _ => otherwise) trivial) rfl))) ?_
      exact .bind fun _ => .bind fun _ => .bind fun _ => .bind fun _ => .bind fun _ => .pure id
    · refine nextOperand_closes .comma (fun value => ?_) enough
      unfold extendSequence
      split <;> exact id
    · exact (expressionList_closes rfl (by omega)).map _
    · cases front with
      | nil =>
          refine .misses fun dead isDead => .next ?_
          rw [if_neg (by simp [isDead.literal, isDead.ne .identifier rfl])]
          exact .refuseNext _
      | cons property front =>
          refine .next ?_
          split
          · exact .advance (.pure _ (Nat.succ_pos _))
          · exact .next (.refuse _)
    · exact enclosed_closes _ rfl (by omega)

/-! ## Operators behind an operand -/

/-- What a script with two parts gives is given by its parts, unless the first one fails. -/
theorem Script.Gives.of_bind
    {first : Script β}
    {later : β → Script α}
    {middle : Cursor}
    {between : β}
    {value : α}
    (gives : Gives answers (first >>= later) start value stop)
    (givesFirst : Gives answers first start between middle) :
    Gives answers (later between) middle value stop := by
  rintro reading rfl
  have isRun := gives { reading with cursor := start } rfl
  rw [run_bind, givesFirst _ rfl] at isRun
  exact isRun

theorem Script.Gives.of_next
    {later : Token → Script α}
    {value : α}
    (gives : Gives answers (.next >>= later) (.ofTokens (token :: following :: rest)) value stop) :
    Gives answers (later following) (.ofTokens (token :: following :: rest)) value stop :=
  gives.of_bind (.next _)

theorem Script.Gives.of_advance
    {later : Unit → Script α}
    {value : α}
    (gives : Gives answers (.advance >>= later) (.ofTokens (token :: following :: rest)) value
      stop) :
    Gives answers (later ()) (.ofTokens (following :: rest)) value stop := by
  rw [← Cursor.advance_ofTokens token (List.cons_ne_nil following rest)]
  exact gives.of_bind (.advance _)

theorem Script.Gives.of_read
    {task : Task α}
    {value : α}
    (gives : Gives (Task.answers (budget + 1)) (.read task) start value stop) :
    Gives (Task.answers budget) task.script start value stop := by
  intro reading isStart
  rw [← run_read]
  exact gives reading isStart

/-- As far from the end as the last of some tokens stands no token in front of it. -/
theorem eq_nil_of_stop
    {others : List Token}
    (isStop : Cursor.ofTokens (token :: (others ++ dead :: rest)) =
      .ofTokens (final :: dead :: rest)) :
    others = [] := by
  cases others with
  | nil => rfl
  | cons following others =>
      have isRest : others ++ dead :: rest = rest := congrArg Cursor.rest isStop
      have longer := congrArg List.length isRest
      simp only [List.length_append, List.length_cons] at longer
      omega

/-- In front of a dead token operators leave an expression as it is. -/
theorem operators_in_front_of_dead
    {left : Expression}
    (isDead : IsDead dead)
    (gives : (read (.operators bound left)).Gives (Task.answers (budget + 1))
      (.ofTokens (token :: dead :: rest)) value stop) :
    left = value := by
  have looser : (Precedence.ofKind dead.kind).rank ≤ bound.rank := by
    rw [isDead.endsExpression]
    cases bound <;> decide
  exact ((operators_stop left rest looser (budget + 1) (Nat.le_add_left 1 _)).unique gives).1

/--
What stands in front of operators is settled by its tokens when the operators end at a
dead token and have made an operand.
-/
theorem settles_in_front_of_operators
    {script : Script Expression}
    {quiet : TokenKind → Prop}
    (fate : Fate least script front 1 quiet)
    (closes : Closes least Expression.IsOperand script front)
    (enough : least ≤ budget + 1)
    (isDead : IsDead dead)
    (isOperand : value.IsOperand)
    (gives : (script >>= fun left => read (.operators bound left)).Gives
      (Task.answers (budget + 1)) (.ofTokens (front ++ dead :: rest)) value stop) :
    ∃ left reached, reached <:+ front ∧ 0 < reached.length ∧
      (∀ tail, tail ≠ [] → Yields least script (front ++ tail) left (reached ++ tail)) ∧
      (read (.operators bound left)).Gives (Task.answers (budget + 1))
        (.ofTokens (reached ++ dead :: rest)) value stop := by
  have settled {left : Expression} {reached : List Token} (isSuffix : reached <:+ front)
      (some : 0 < reached.length)
      (yields : ∀ tail, tail ≠ [] → Yields least script (front ++ tail) left (reached ++ tail)) :=
    (⟨left, reached, isSuffix, some, yields,
      gives.of_bind (yields (dead :: rest) (List.cons_ne_nil _ _) (budget + 1) enough)⟩ :
        ∃ left reached, reached <:+ front ∧ 0 < reached.length ∧
          (∀ tail, tail ≠ [] → Yields least script (front ++ tail) left (reached ++ tail)) ∧
          (read (.operators bound left)).Gives (Task.answers (budget + 1))
            (.ofTokens (reached ++ dead :: rest)) value stop)
  cases fate with
  | gives left reached isSuffix some givesLeft =>
      exact settled isSuffix some fun tail notNil budget => givesLeft tail budget notNil
  | fails failure _ fails =>
      exact absurd gives
        ((fails (dead :: rest) _ (List.cons_ne_nil _ _) enough).bind _).not_gives
  | opens fillers opens =>
      rcases opens.starves dead isDead rest _ enough with
        ⟨left, reached, isOne, givesLeft⟩ | ⟨_, -, _, -, fails⟩
      · -- The operators have nothing to take in, so this is the operand itself.
        obtain ⟨last, rfl⟩ := List.length_eq_one_iff.mp isOne
        obtain rfl := operators_in_front_of_dead isDead (gives.of_bind givesLeft)
        cases closes with
        | settles _ _ isSuffix some yields => exact settled isSuffix some yields
        | misses misses =>
            rcases misses dead isDead rest _ enough with
              ⟨_, fails⟩ | ⟨other, _, givesOther, unwanted⟩
            · exact absurd givesLeft fails.not_gives
            · obtain rfl := (givesLeft.unique givesOther).1
              exact absurd isOperand unwanted
      · exact absurd gives (fails.bind _).not_gives

/--
Operators that end at a dead token and have made an operand make the same of the same
tokens when others follow, and go on with those.
-/
theorem operators_go_on
    {budget : Nat}
    {front rest : List Token}
    {dead final : Token}
    {left value : Expression}
    (some : 0 < front.length)
    (isDead : IsDead dead)
    (isOperand : value.IsOperand)
    (enough : 8 * front.length + 14 ≤ budget)
    (gives : (read (.operators bound left)).Gives (Task.answers (budget + 1))
      (.ofTokens (front ++ dead :: rest)) value (.ofTokens (final :: dead :: rest))) :
    [final] <:+ front ∧ ∀ tail more result stop, tail ≠ [] →
      Yields more (read (.operators bound value)) (final :: tail) result stop →
      Yields (more + 8 * front.length + 14) (read (.operators bound left)) (front ++ tail) result
        stop := by
  match front with
  | [token] =>
      have looser : (Precedence.ofKind dead.kind).rank ≤ bound.rank := by
        rw [isDead.endsExpression]
        cases bound <;> decide
      obtain ⟨rfl, isStop⟩ := (operators_stop left rest looser (budget + 1)
        (Nat.le_add_left 1 _)).unique gives
      obtain rfl : token = final := congrArg Cursor.current isStop
      exact ⟨List.suffix_refl _, fun tail more result stop _ yields =>
        yields.weaken (Nat.le_add_right more (8 * 1 + 14))⟩
  | token :: following :: others =>
      have isRun := gives.of_read.of_next
      -- Operators that stop here do not stop in front of the dead token.
      have goesOn : ¬(pure left : Script Expression).Gives (Task.answers budget)
          (.ofTokens (token :: following :: others ++ dead :: rest)) value
          (.ofTokens (final :: dead :: rest)) := by
        intro stops
        cases eq_nil_of_stop ((Script.Gives.give left _).unique stops).2
      have tighter : ¬(Precedence.ofKind following.kind).rank ≤ bound.rank := by
        intro looser
        rw [if_pos looser] at isRun
        exact goesOn isRun
      rw [if_neg tighter] at isRun
      have sameLine : ¬((updateOperator? following.kind).isSome && following.newlineBefore) = true := by
        intro isBroken
        rw [if_pos isBroken] at isRun
        exact goesOn isRun
      rw [if_neg sameLine] at isRun
      have later := isRun.of_advance
      simp only [List.length_cons] at enough
      obtain ⟨budget, rfl⟩ := Nat.exists_eq_add_of_le' (show 1 ≤ budget by omega)
      have fate := operator_fate following left (Nat.lt_succ_self others.length)
        ((@room_of_enough (8 * others.length + 14) _ (by omega)).lower (by decide))
      obtain ⟨extended, reached, isSuffix, isSome, yields, gives⟩ :=
        settles_in_front_of_operators fate (operator_closes left (Nat.le_refl _)) (by omega) isDead
          isOperand later
      have shorter := isSuffix.length_le
      simp only [List.length_cons] at shorter
      obtain ⟨isLast, goOn⟩ := operators_go_on isSome isDead isOperand (by omega) gives
      refine ⟨(isLast.trans isSuffix).trans (List.suffix_cons _ _), ?_⟩
      intro tail more result stop notNil yieldsLater
      have later := goOn tail more result stop notNil yieldsLater
      refine (operators_take_unbroken (Nat.lt_of_not_le tighter) (Bool.eq_false_iff.mpr sameLine)
        ((yields tail notNil).weaken ?_) (later.weaken ?_)).weaken
          (show more + 8 * (others.length + 1) + 14 + 1 ≤ _ by simp only [List.length_cons]; omega)
      · omega
      · omega
termination_by front.length
decreasing_by exact Nat.lt_succ_of_le shorter

/--
An expression that ends at a dead token and is an operand is read from the same tokens when
operators follow, and they go on with it.
-/
theorem expression_goes_on
    (some : 0 < front.length)
    (isDead : IsDead dead)
    (isOperand : value.IsOperand)
    (enough : 8 * front.length + 16 ≤ budget)
    (gives : (read (.expression bound)).Gives (Task.answers budget)
      (.ofTokens (front ++ dead :: rest)) value (.ofTokens (final :: dead :: rest))) :
    [final] <:+ front ∧ ∀ tail more result stop, tail ≠ [] →
      Yields more (read (.operators bound value)) (final :: tail) result stop →
      Yields (more + 8 * front.length + 15) (read (.expression bound)) (front ++ tail) result
        stop := by
  obtain ⟨token, others, rfl⟩ := List.exists_cons_of_length_pos some
  simp only [List.length_cons] at enough
  obtain ⟨budget, rfl⟩ := Nat.exists_eq_add_of_le' (show 2 ≤ budget by omega)
  have fate : Fate (8 * others.length + 14) operand (token :: others) 1 EndsExpression :=
    Meets.fateOf (Nat.le_refl _) (Nat.zero_le _)
      (operand_meets ((room_of_enough (by simp only [List.length_cons]; omega)).lower (by decide)))
  obtain ⟨left, reached, isSuffix, isSome, yields, givesLater⟩ :=
    settles_in_front_of_operators fate (operand_closes (Nat.le_refl _)) (by omega) isDead isOperand
      (Script.Gives.of_read gives)
  have shorter := isSuffix.length_le
  simp only [List.length_cons] at shorter
  obtain ⟨isLast, goOn⟩ := operators_go_on isSome isDead isOperand (by omega) givesLater
  refine ⟨isLast.trans isSuffix, fun tail more result stop notNil yieldsLater => ?_⟩
  have later := goOn tail more result stop notNil yieldsLater
  exact .read (.bind ((yields tail notNil).weaken (by simp only [List.length_cons]; omega))
    (later.weaken (by simp only [List.length_cons]; omega)))

/-! ## Statements that are operands -/

/-- Whether a statement that starts with tokens of two kinds is an expression. -/
def StartsExpression (first second : TokenKind) : Prop :=
  match first with
  | .varWord | .returnWord | .ifWord | .whileWord | .forWord | .breakWord | .continueWord
  | .switchWord | .leftBrace | .semicolon => False
  | .functionWord => second ≠ .identifier
  | .identifier => second ≠ .colon
  | _ => True

theorem StartsExpression.before
    {first second other : TokenKind}
    (starts : StartsExpression first second)
    (notName : other ≠ .identifier)
    (notColon : other ≠ .colon) :
    StartsExpression first other := by
  cases first <;> first | exact starts | exact notName | exact notColon

namespace Script.Makes

theorem not_gives
    {script : Script α}
    {value : α}
    (makes : script.Makes (· ≠ value)) :
    ¬Gives answers script start value stop :=
  fun gives => makes _ _ _ _ (gives ⟨start, [], false⟩ rfl) rfl

section

variable {target : Statement}
  (others : ∀ initializer condition update body,
    Statement.forLoop token initializer condition update body ≠ target)
  (othersIn : ∀ name declares subject body,
    Statement.forIn token name declares subject body ≠ target)

include others in
theorem forRest (initializer : Option Statement) :
    (Parser.forRest token initializer).Makes (· ≠ target) :=
  .bind fun _ => .bind fun _ => .bind fun _ => .bind fun _ => .bind fun _ => .pure (others _ _ _ _)

include othersIn in
theorem forInRest (declares : Bool) : (Parser.forInRest token declares).Makes (· ≠ target) :=
  .bind fun _ => .bind fun _ => .bind fun _ => .bind fun _ => .bind fun _ => .bind fun _ =>
    .pure (othersIn _ _ _ _)

include others in
theorem forEvaluated (first : Token) : (Parser.forEvaluated token first).Makes (· ≠ target) :=
  .bind fun _ => .bind fun _ => forRest others _

include others othersIn

theorem forDeclared : (Parser.forDeclared token).Makes (· ≠ target) := by
  refine .bind fun word => .bind fun _ => .bind fun following => ?_
  split
  · exact forInRest othersIn true
  · exact .bind fun _ => .bind fun _ => forRest others _

theorem forStatement : (Parser.forStatement token).Makes (· ≠ target) := by
  refine .bind fun _ => .bind fun following => ?_
  split
  · exact .bind fun _ => forRest others _
  split
  · exact .bind fun _ => forDeclared others othersIn
  refine .bind fun _ => .bind fun first => ?_
  split
  · refine .bind fun second => ?_
    split
    · exact forInRest othersIn false
    · exact forEvaluated others first
  · exact forEvaluated others first

end

end Script.Makes

/-- A statement that is an expression is read by the reader of those. -/
theorem expressionStatement_of_statement
    (gives : statement.Gives answers start (.expression first value) stop) :
    StartsExpression start.current.kind start.next.kind ∧
      expressionStatement.Gives answers start (.expression first value) stop := by
  have isRun := gives.of_bind (.current _)
  have otherwise {script : Script Statement} {holds : Prop}
      (givesOther : script.Gives answers start (.expression first value) stop)
      (isOther : script.Makes (· ≠ .expression first value)) : holds :=
    (isOther.not_gives givesOther).elim
  split at isRun
  · exact otherwise isRun (.bind fun _ => .bind fun _ => .bind fun _ => .pure nofun)
  · refine otherwise isRun (.bind fun following => ?_)
    split
    · exact .bind fun _ => .pure nofun
    · exact .bind fun _ => .bind fun _ => .bind fun _ => .pure nofun
  · exact otherwise isRun (.bind fun _ => .bind fun _ => .bind fun _ => .pure nofun)
  · exact otherwise isRun (.bind fun _ => .bind fun _ => .pure nofun)
  · exact otherwise isRun (.forStatement (fun _ _ _ _ => nofun) fun _ _ _ _ => nofun)
  · exact otherwise isRun (.bind fun _ => .bind fun _ => .pure nofun)
  · exact otherwise isRun (.bind fun _ => .bind fun _ => .pure nofun)
  · exact otherwise isRun (.bind fun _ => .bind fun _ => .bind fun _ => .bind fun _ => .pure nofun)
  · exact otherwise isRun (.bind fun _ => .pure nofun)
  · exact otherwise isRun (.pure nofun)
  · rename_i isKind
    have later := isRun.of_bind (.next _)
    split at later
    · exact otherwise later (.bind fun _ => .pure nofun)
    · rename_i notName
      refine ⟨?_, later⟩
      rw [isKind]
      exact notName
  · rename_i isKind
    have later := isRun.of_bind (.next _)
    split at later
    · exact otherwise later (.bind fun _ => .bind fun _ => .pure nofun)
    · rename_i notColon
      refine ⟨?_, later⟩
      rw [isKind]
      exact notColon
  · refine ⟨?_, isRun⟩
    unfold StartsExpression
    split <;> trivial

theorem yields_statement
    {second : Token}
    {stop : List Token}
    {value : Statement}
    (starts : StartsExpression first.kind second.kind)
    (yields : Yields least expressionStatement (first :: second :: rest) value stop) :
    Yields least statement (first :: second :: rest) value stop := by
  refine .current ?_
  unfold StartsExpression at starts
  split
  all_goals
    rename_i isKind
    first
      | exact yields
      | (rw [isKind] at starts
         first
           | exact starts.elim
           | (refine .next ?_
              rw [if_neg starts]
              exact yields))

theorem expression_of_expressionStatement
    (gives : expressionStatement.Gives (Task.answers budget) start (.expression first value) stop) :
    first = start.current ∧ ∃ middle,
      (read (.expression .lowest)).Gives (Task.answers budget) start value middle ∧
        endStatement.Gives (Task.answers budget) middle () stop := by
  have holds (cursor : Cursor) : cursor.Holds fun _ => True :=
    ⟨trivial, trivial, fun _ _ => trivial⟩
  have later := gives.of_bind (.current _)
  rcases answers_read budget (.expression .lowest) trivial start (holds start) with
    ⟨found, middle, givesValue, -, -⟩ | ⟨failure, fails, -⟩
  · have ends := later.of_bind givesValue
    rcases Reads.endStatement middle (holds middle) with
      ⟨_, last, givesEnd, -, -⟩ | ⟨failure, fails, -⟩
    · obtain ⟨same, rfl⟩ := (Script.Gives.give _ last).unique (ends.of_bind givesEnd)
      cases same
      exact ⟨rfl, middle, givesValue, givesEnd⟩
    · exact absurd ends (fails.bind _).not_gives
  · exact absurd later (fails.bind _).not_gives

/-- A statement ends where its expression does, or at the semicolon behind it. -/
theorem stop_of_endStatement
    {middle : Cursor}
    (gives : endStatement.Gives answers middle () stop) :
    stop = middle ∨ middle.next.kind = .semicolon ∧ stop = middle.advance := by
  have later := gives.of_bind (.next _)
  split at later
  · exact .inr ⟨‹_›, (later.unique (.advance _)).2⟩
  · split at later
    · exact .inl (later.unique (.give _ _)).2
    · exact absurd later (Script.Fails.later (.next _) (.refuse _ _ _)).not_gives

/-- A statement whose last token is no semicolon ends where its expression does. -/
theorem expression_in_front_of_dead
    (isDead : IsDead dead)
    (noSemicolon : ∀ token ∈ front.getLast?, token.kind ≠ .semicolon)
    (enough : 8 * front.length + 4 ≤ budget)
    (gives : expressionStatement.Gives (Task.answers budget) (.ofTokens (front ++ dead :: rest))
      (.expression first value) (.ofTokens (final :: dead :: rest))) :
    (read (.expression .lowest)).Gives (Task.answers budget) (.ofTokens (front ++ dead :: rest))
      value (.ofTokens (final :: dead :: rest)) := by
  obtain ⟨-, middle, givesValue, givesEnd⟩ := expression_of_expressionStatement gives
  rcases stop_of_endStatement givesEnd with isMiddle | ⟨isSemicolon, isAdvance⟩
  · rwa [isMiddle]
  have notDead {last : Token} (isThere : middle = .ofTokens (last :: dead :: rest)) : False := by
    subst isThere
    exact isDead.ne .semicolon rfl isSemicolon
  cases expression_fate .lowest enough with
  | gives found stop isSuffix isSome givesFound =>
      obtain rfl := (givesValue.unique
        (givesFound (dead :: rest) budget (List.cons_ne_nil _ _) (Nat.le_refl _))).2
      match stop with
      | [last] => exact (notDead rfl).elim
      | last :: semicolon :: others =>
          have moves := Cursor.advance_ofTokens last
            (List.cons_ne_nil semicolon (others ++ dead :: rest))
          obtain rfl := eq_nil_of_stop (moves.symm.trans isAdvance.symm)
          obtain ⟨before, rfl⟩ := isSuffix
          exact absurd isSemicolon (noSemicolon semicolon (by simp))
  | fails failure _ fails =>
      exact absurd givesValue
        (fails (dead :: rest) budget (List.cons_ne_nil _ _) (Nat.le_refl _)).not_gives
  | opens fillers opens =>
      rcases opens.starves dead isDead rest budget (Nat.le_refl _) with
        ⟨found, stop, isOne, givesFound⟩ | ⟨_, -, _, -, fails⟩
      · obtain ⟨last, rfl⟩ := List.length_eq_one_iff.mp isOne
        exact (notDead (givesValue.unique givesFound).2).elim
      · exact absurd givesValue fails.not_gives

theorem Follows.eq_of_nil (follows : Follows budget start [] stop) :
    stop = start := by
  cases follows
  rfl

/-- A statement with only the end of input behind it ends in front of that. -/
theorem stop_in_front_of_end
    {last : Token}
    {statement : Statement}
    (some : 0 < front.length)
    (goesOn : ∀ token ∈ front, token.kind ≠ .endOfInput)
    (isDead : IsDead last)
    (enough : 8 * front.length + 3 ≤ budget)
    (gives : (read .statement).Gives (Task.answers budget) (.ofTokens (front ++ [last])) statement
      stop)
    (isEnd : stop.advance.current.kind = .endOfInput) :
    ∃ final, stop = .ofTokens [final, last] := by
  cases read_fate .statement trivial some enough with
  | gives found reached isSuffix isSome givesFound =>
      obtain rfl := (gives.unique
        (givesFound [last] budget (List.cons_ne_nil _ _) (Nat.le_refl _))).2
      match reached with
      | [final] => exact ⟨final, rfl⟩
      | final :: following :: others =>
          have moves := Cursor.advance_ofTokens final
            (List.cons_ne_nil following (others ++ [last]))
          rw [List.cons_append, List.cons_append, moves, Cursor.current_ofTokens] at isEnd
          exact absurd isEnd (goesOn following (isSuffix.subset (by simp)))
  | fails failure _ fails =>
      exact absurd gives (fails [last] budget (List.cons_ne_nil _ _) (Nat.le_refl _)).not_gives
  | opens fillers opens =>
      rcases opens.starves last isDead [] budget (Nat.le_refl _) with
        ⟨found, reached, isOne, givesFound⟩ | ⟨_, -, _, -, fails⟩
      · obtain ⟨final, rfl⟩ := List.length_eq_one_iff.mp isOne
        exact ⟨final, (gives.unique givesFound).2⟩
      · exact absurd gives fails.not_gives

/--
A statement that ends at a dead token and is an operand is read from the same tokens when
operators follow up to the end of input, and they go on with it.
-/
theorem statement_goes_on
    (some : 0 < front.length)
    (isDead : IsDead dead)
    (isOperand : value.IsOperand)
    (noSemicolon : ∀ token ∈ front.getLast?, token.kind ≠ .semicolon)
    (enough : 8 * front.length + 17 ≤ budget)
    (gives : (read .statement).Gives (Task.answers budget) (.ofTokens (front ++ dead :: rest))
      (.expression first value) (.ofTokens (final :: dead :: rest))) :
    [final] <:+ front ∧ ∀ mark tail more result last follower, mark.kind ≠ .identifier →
      mark.kind ≠ .colon → follower.kind = .endOfInput →
      Yields more (read (.operators .lowest value)) (final :: mark :: tail) result
        [last, follower] →
      Yields (more + 8 * front.length + 16) (read .statement) (front ++ mark :: tail)
        (.expression first result) [last, follower] := by
  obtain ⟨budget, rfl⟩ := Nat.exists_eq_add_of_le' (show 1 ≤ budget by omega)
  obtain ⟨starts, givesStatement⟩ := expressionStatement_of_statement (Script.Gives.of_read gives)
  have isFirst := (expression_of_expressionStatement givesStatement).1
  obtain ⟨isLast, goOn⟩ := expression_goes_on some isDead isOperand (by omega)
    (expression_in_front_of_dead isDead noSemicolon (by omega) givesStatement)
  refine ⟨isLast, fun mark tail more result last follower notName notColon isEnd yields => ?_⟩
  have yieldsValue := goOn (mark :: tail) more result _ (List.cons_ne_nil _ _) yields
  refine @Yields.read _ _ _ _ .statement _ ?_
  obtain ⟨token, others, rfl⟩ := List.exists_cons_of_length_pos some
  rw [List.cons_append, Cursor.current_ofTokens] at isFirst
  subst isFirst
  have evaluates : Yields _ expressionStatement (first :: (others ++ mark :: tail))
      (.expression first result) [last, follower] :=
    .current (.bind yieldsValue (.bind (endStatement_endOfInput isEnd) (.pure _)))
  cases others with
  | nil => exact yields_statement (starts.before notName notColon) evaluates
  | cons following others => exact yields_statement starts evaluates

/-! ## Tokens of no kind -/

/-- A program fails at the first dead token that is not its end, or in front of it. -/
theorem failsAfter_dead
    {budget : Nat}
    {front rest : List Token}
    {dead : Token}
    (goesOn : ∀ token ∈ front, token.kind ≠ .endOfInput)
    (isDead : IsDead dead)
    (isNoEnd : dead.kind ≠ .endOfInput)
    (enough : 8 * front.length + 3 ≤ budget) :
    ∃ statements failure, statements.length ≤ front.length ∧
      FailsAfter budget (.ofTokens (front ++ dead :: rest)) statements failure := by
  cases program_fate front goesOn enough with
  | fails statements failure fewer _ fails =>
      exact ⟨statements, failure, fewer, fails _ _ (List.cons_ne_nil _ _) (Nat.le_refl _)⟩
  | opens fillers completes starves =>
      obtain ⟨statements, fewer, follows | ⟨fault, -, fails⟩⟩ :=
        starves dead rest budget (Nat.le_refl _) isDead
      · have refuses : RefusesAt 2 (read .statement) dead := statement_refuses isDead
        obtain ⟨fault, -, fails⟩ := refuses rest budget (by omega)
        exact ⟨statements, _, fewer, _, follows, by rwa [Cursor.current_ofTokens], fails⟩
      · exact ⟨statements, _, fewer, fails⟩

end Parser

namespace Program

open ScriptEngine.Parser
open Script (read)

/-- A text that is read without failures has no illegal token. -/
theorem legal_of_noFailure
    {width : Char → Nat}
    {text : List Char}
    (noFailure : (ofTokens source (Token.scanChars width text)).failures = []) :
    ∀ token ∈ Token.scanChars width text, token.kind ≠ .illegal := by
  intro dead member isIllegal
  have isSpelled := Token.isSpelled_of_mem_scanChars member
  have isDead : IsDead dead := by
    refine ⟨.inr isIllegal, Bool.eq_false_iff.mpr fun isReserved => ?_⟩
    rcases isSpelled isReserved with isString | isWord
    · rw [isIllegal] at isString
      cases isString
    · have others : ∀ entry ∈ TokenKind.reservedWords, entry.2 ≠ .illegal := by decide
      exact others _ isWord isIllegal
  obtain ⟨before, last, isScan, isEnd, goesOn, -⟩ :=
    (Token.scanFrom_cut width none [] (Nat.lt_succ_self text.length)).ends_once
  have isScan : Token.scanChars width text = before ++ [last] := isScan
  rw [isScan] at member noFailure
  have isNoEnd : dead.kind ≠ .endOfInput := by
    rw [isIllegal]
    nofun
  have isInner : dead ∈ before := by
    rcases List.mem_append.mp member with isInner | isLast
    · exact isInner
    · rw [List.mem_singleton] at isLast
      exact absurd (isLast ▸ isEnd) isNoEnd
  obtain ⟨front, back, rfl⟩ := List.append_of_mem isInner
  have frontGoesOn : ∀ token ∈ front, token.kind ≠ .endOfInput := fun token isFront =>
    goesOn token (List.mem_append_left _ isFront)
  rw [List.append_assoc, List.cons_append] at noFailure
  obtain ⟨statements, failure, fewer, fails⟩ := @failsAfter_dead
    (budget (front ++ dead :: (back ++ [last])).length) front (back ++ [last]) dead frontGoesOn
    isDead isNoEnd (by simp only [budget, List.length_append, List.length_cons]; omega)
  obtain ⟨_, isParsed⟩ := @ofTokens_of_failsAfter source _ _ _
    (Nat.le_trans fewer (by simp)) fails
  rw [isParsed] at noFailure
  cases noFailure

/-- A program that is one operand goes on with the operators that follow instead of its end. -/
theorem ofTokens_goes_on
    {last : Token}
    (goesOn : ∀ token ∈ front, token.kind ≠ .endOfInput)
    (isEnd : last.kind = .endOfInput)
    (isDead : IsDead last)
    (noFailure : (ofTokens source (front ++ [last])).failures = [])
    (isOne : (ofTokens source (front ++ [last])).program.statements = [.expression first value])
    (isOperand : value.IsOperand)
    (noSemicolon : ∀ token ∈ front.getLast?, token.kind ≠ .semicolon)
    (other : Source)
    {mark follower : Token}
    {tail : List Token}
    {result : Expression}
    (notName : mark.kind ≠ .identifier)
    (notColon : mark.kind ≠ .colon)
    (isFollower : follower.kind = .endOfInput)
    (yields : ∀ stop, Yields (8 * tail.length) (read (.operators .lowest value))
      (stop :: mark :: tail) result [final, follower]) :
    (ofTokens other (front ++ mark :: tail)).failures = [] ∧
      (ofTokens other (front ++ mark :: tail)).program.statements = [.expression first result] := by
  have ends : Ends (front ++ [last]) (ofTokens source (front ++ [last])) :=
    ofTokens_ends goesOn isEnd isDead
  cases ends with
  | badly failure _ isFailure =>
      rw [isFailure] at noFailure
      cases noFailure
  | well stop isLast _ _ _ follows _ =>
      rw [isOne] at follows
      have isStop : stop = last := by simpa using isLast.symm
      subst isStop
      cases follows with
      | more isFirst gives followsNone =>
          have isStop := followsNone.eq_of_nil
          have some : 0 < front.length := by
            refine List.length_pos_iff.mpr fun isNil => isFirst ?_
            rw [isNil, List.nil_append, Cursor.current_ofTokens, isEnd]
          have length : (front ++ [stop]).length = front.length + 1 := by simp
          obtain ⟨last, rfl⟩ := stop_in_front_of_end some goesOn isDead
            (by unfold budget; omega) gives (by rw [← isStop, Cursor.current_ofTokens, isEnd])
          obtain ⟨-, goOn⟩ := statement_goes_on some isDead isOperand noSemicolon
            (by unfold budget; omega) gives
          have yieldsStatement := goOn _ _ _ _ _ _ notName notColon isFollower (yields last)
          obtain ⟨token, others, rfl⟩ := List.exists_cons_of_length_pos some
          have follows : Follows (budget (token :: others ++ mark :: tail).length)
              (.ofTokens (token :: others ++ mark :: tail)) [.expression first result]
              (.ofTokens [follower]) := by
            refine follows_cons (goesOn token List.mem_cons_self) (List.cons_ne_nil _ _)
              (yieldsStatement _ ?_) (.none _)
            simp only [budget, List.length_append, List.length_cons]
            omega
          rw [ofTokens_of_follows (by simp) follows isFollower]
          exact ⟨rfl, rfl⟩

/-- A text that is read without failures as one operand, behind which more can be written. -/
structure IsOperandText
    (source : Source)
    (width : Char → Nat)
    (text : List Char)
    (first : Token)
    (value : Expression) : Prop where
  noFailure : (ofTokens source (Token.scanChars width text)).failures = []
  isOne : (ofTokens source (Token.scanChars width text)).program.statements =
    [.expression first value]
  isOperand : value.IsOperand
  goesOn : ¬Token.IsCutOff width text

/-- A text that is one operand goes on with the operators that are scanned behind it. -/
theorem IsOperandText.goes_on
    {width : Char → Nat}
    {text more left seen : List Char}
    {previous : Option TokenKind}
    {tokens tail : List Token}
    {mark follower : Token}
    {result : Expression}
    (isText : IsOperandText source width text first value)
    (noSemicolon : ∀ token ∈ Token.finalToken? width text, token.kind ≠ .semicolon)
    (areTokens : ∀ token ∈ tokens, token.kind ≠ .endOfInput)
    (isBlank : Token.IsBlank left)
    (isScan : Token.scanChars width text = tokens ++ Token.tokensFrom width previous seen left)
    (isScanBehind : Token.scanChars width more = tokens ++ mark :: tail)
    (notName : mark.kind ≠ .identifier)
    (notColon : mark.kind ≠ .colon)
    (isFollower : follower.kind = .endOfInput)
    (yields : ∀ stop, Yields (8 * tail.length) (read (.operators .lowest value))
      (stop :: mark :: tail) result [final, follower])
    (other : Source) :
    (ofTokens other (Token.scanChars width more)).failures = [] ∧
      (ofTokens other (Token.scanChars width more)).program.statements =
        [.expression first result] := by
  obtain ⟨last, isLast, isEnd⟩ := @Token.tokensFrom_of_isBlank left width previous seen isBlank
  rw [isLast] at isScan
  have isDead : IsDead last := by
    have isLiteral : last.unplaced.literal = "" := by
      rw [isEnd]
      rfl
    refine ⟨.inl (kind_of_unplaced isEnd), ?_⟩
    rw [show last.literal = "" from isLiteral]
    decide
  obtain ⟨noFailure, isOne, isOperand, -⟩ := isText
  rw [isScan] at noFailure isOne
  unfold Token.finalToken? at noSemicolon
  rw [isScan, List.dropLast_concat] at noSemicolon
  rw [isScanBehind]
  exact ofTokens_goes_on areTokens (kind_of_unplaced isEnd) isDead noFailure isOne isOperand
    noSemicolon other notName notColon isFollower yields

end Program

end ScriptEngine
