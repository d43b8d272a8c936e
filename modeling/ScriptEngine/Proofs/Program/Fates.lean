import ScriptEngine.Proofs.Program.Fronts

namespace ScriptEngine.Parser

/-!
# The fates of the readers

Every reader has a fate at every front: it is settled by the known tokens, or it can be
completed.  Readers call each other, so this is shown for all of them at once, by the
budget that they have; a budget suffices for a front when it allows eight calls for
every token.
-/

variable {kind closing : TokenKind} {dead token : Token} {front : List Token}

open Script (current next advance read)

variable {rest : List Token} (bound : Precedence)

/-- A token of this kind is no operator, so it ends an expression. -/
def EndsExpression (kind : TokenKind) : Prop := Precedence.ofKind kind = .lowest

theorem EndsExpression.ne
    {other : TokenKind}
    (ends : EndsExpression kind)
    (isOperator : Precedence.ofKind other ≠ .lowest) :
    kind ≠ other := by
  rintro rfl
  exact isOperator ends

theorem IsDead.endsExpression (isDead : IsDead token) :
    EndsExpression token.kind := by
  rcases isDead.kind with isKind | isKind <;> rw [isKind] <;> rfl

/-! ## Single steps -/

section

variable {least size held : Nat} {quiet : TokenKind → Prop}

theorem expect_starves
    (lives : isLiving kind = true)
    (token : Token)
    (isDead : IsDead dead) :
    StarvesAt least (expect kind) [token] held dead := by
  intro rest budget enough
  refine .next rfl ?_
  rw [if_neg (isDead.ne kind lives)]
  exact StarvesAt.refuseNext kind rest budget enough

theorem expect_fate
    (kind : TokenKind)
    (token following : Token)
    (rest : List Token) :
    Fate least (expect kind) (token :: following :: rest) 1 quiet := by
  refine .next ?_
  split
  · exact .advanceOnce (Nat.succ_pos _)
  · exact .refuseNext kind

theorem expect_opens
    (filler : Filler)
    (isFiller : filler.kind = kind)
    (token : Token) :
    Opens least (expect kind) [token] [filler] 1 (fun _ => True) := by
  have leads : Leads (fun _ => True) (· = kind) [filler] := isFiller
  refine ⟨.ofNext leads fun following isKind => ?_, fun dead isDead =>
    expect_starves (isFiller ▸ filler.isLiving_kind) token isDead⟩
  rw [if_pos isKind]
  exact .absorb fun _ _ => .advanceOnce rfl

theorem expect_meets
    (filler : Filler)
    (isFiller : filler.kind = kind) :
    Meets least size (expect kind) ⟨1, [filler], 1, fun _ => True⟩ := by
  refine .ofNext (fun token => expect_opens filler isFiller token) fun token following rest _ => ?_
  split
  · exact .advanceOnce (Nat.succ_pos _)
  · exact .refuseNext _

theorem endStatement_meets : Meets least size endStatement ⟨1, [.semicolon], 1, fun _ => True⟩ := by
  have leads : Leads (fun _ => True) (· = .semicolon) [.semicolon] := rfl
  refine .ofNext (fun token => .ofNext leads ?_ ?_) fun token following rest _ => ?_
  · intro following isKind
    rw [if_pos isKind]
    exact .absorb fun _ _ => .advanceOnce rfl
  · intro dead isDead
    rw [if_neg (isDead.ne .semicolon rfl)]
    split
    · exact fun _ _ _ => .pure () rfl
    · exact .refuseNext _
  · split
    · exact .advanceOnce (Nat.succ_pos _)
    · split
      · exact .pure () (Nat.succ_pos _)
      · exact .refuseNext _

theorem jumpLabel_meets : Meets least size jumpLabel ⟨1, [], 1, (· ≠ .identifier)⟩ := by
  have leads : Leads (· ≠ .identifier) (· ≠ .identifier) [] := fun _ isOther => isOther
  refine .ofNext (fun token => .ofNext leads ?_ ?_) fun token following rest _ => ?_
  · intro following isOther
    rw [if_neg (by simp [isOther])]
    exact .pure none rfl
  · intro dead isDead
    rw [if_neg (by simp [isDead.ne .identifier rfl])]
    exact fun _ _ _ => .pure none rfl
  · split
    · exact .advance (.pure _ (Nat.succ_pos _))
    · exact .pure none (Nat.succ_pos _)

/-- A number that can be read is used, and one that cannot is a fault. -/
theorem numberValue_fate
    {later : Float → Script α}
    (token : Token)
    (fate : ∀ value, Fate least (later value) front held quiet) :
    Fate least (numberValue token >>= later) front held quiet := by
  unfold numberValue
  split
  · exact .step (List.suffix_refl _) (fun _ _ _ _ => .give _ _) (fate _)
  · exact .fails ⟨token, .unreadableNumber token.literal⟩ nofun fun _ _ _ _ =>
      Script.Fails.bind (.refuse token _ _) later

theorem propertyKey_refuses (isDead : IsDead token) :
    RefusesAt least propertyKey token := by
  refine .current ?_
  rw [if_neg (isDead.ne .string rfl), if_neg (isDead.ne .number rfl),
    if_neg (by simp [isDead.literal, isDead.ne .identifier rfl])]
  split
  · exact .refuse nofun
  · exact .refuse nofun

theorem propertyKey_meets : Meets least size propertyKey ⟨0, [.identifier], 1, fun _ => True⟩ := by
  have leads : Leads (fun _ => True) (· = .identifier) [.identifier] := rfl
  refine .ofCurrent ⟨.ofCurrent leads ?_, ?_⟩ fun token rest _ => ?_
  · intro token isKind
    rw [if_neg (by simp [isKind]), if_neg (by simp [isKind]), if_pos (by simp [isKind])]
    exact .absorb fun _ _ => .pure _ rfl
  · exact fun token isDead => (propertyKey_refuses isDead).starves
  · split
    · exact .pure _ (Nat.succ_pos _)
    · split
      · exact numberValue_fate token fun _ => .pure _ (Nat.succ_pos _)
      · split
        · exact .pure _ (Nat.succ_pos _)
        · split
          · exact .refuse nofun
          · exact .refuse nofun

theorem memberName_meets
    (token : Token)
    (object : Expression) :
    Meets least size
      (next >>= fun property =>
        if property.kind = .identifier || TokenKind.isReserved property.literal then
          advance >>= fun _ => pure (Expression.member token object property)
        else refuseNext .identifier)
      ⟨1, [.identifier], 1, quiet⟩ := by
  have leads : Leads quiet (· = .identifier) [.identifier] := rfl
  refine .ofNext (fun token => .ofNext leads ?_ ?_) fun token following rest _ => ?_
  · intro following isKind
    rw [if_pos (by simp [isKind])]
    exact .advance (.absorb fun _ _ => .pure _ rfl)
  · intro dead isDead
    rw [if_neg (by simp [isDead.literal, isDead.ne .identifier rfl])]
    exact .refuseNext _
  · split
    · exact .advance (.pure _ (Nat.succ_pos _))
    · exact .refuseNext _

theorem betweenProperties_meets :
    Meets least size betweenProperties ⟨1, [], 1, (· = .rightBrace)⟩ := by
  have leads : Leads (· = .rightBrace) (· = .rightBrace) [] := fun _ isKind => isKind
  refine .ofNext (fun token => .ofNext leads ?_ ?_) fun token following rest _ => ?_
  · intro following isKind
    rw [if_pos isKind]
    exact .pure () rfl
  · intro dead isDead
    rw [if_neg (isDead.ne .rightBrace rfl)]
    exact expect_starves rfl token isDead
  · split
    · exact .pure () (Nat.succ_pos _)
    · exact expect_fate _ _ _ _

end

/-! ## Where the readers open -/

/-- The filler that closes a list. -/
def closer : TokenKind → Filler
  | .rightParen => .rightParen
  | _ => .rightBracket

namespace Task

/-- A list is closed by a parenthesis or a bracket. -/
def Proper : {α : Type} → Task α → Prop
  | _, list closing => (closer closing).kind = closing
  | _, _ => True

/-- How each reader meets the end of what is known. -/
def shape : {α : Type} → Task α → Shape
  | _, statement => ⟨0, [.semicolon], 1, (· ≠ .elseWord)⟩
  | _, declarators => ⟨1, [], 1, EndsExpression⟩
  | _, block => ⟨0, [.rightBrace], 1, fun _ => True⟩
  | _, clauses _ => ⟨0, [.rightBrace], 1, fun _ => True⟩
  | _, clauseBody => ⟨0, [], 0, (· = .rightBrace)⟩
  | _, parameters => ⟨1, [.identifier, .rightParen], 1, fun _ => True⟩
  | _, expression _ => ⟨0, [.thisWord], 1, EndsExpression⟩
  | _, operators _ _ => ⟨1, [], 1, EndsExpression⟩
  | _, list closing => ⟨1, [.thisWord, closer closing], 1, fun _ => True⟩
  | _, properties => ⟨1, [.rightBrace], 1, fun _ => True⟩

end Task

theorem illegalFault_ne_tooDeep (token : Token) : illegalFault token ≠ .tooDeep := by
  unfold illegalFault
  split <;> nofun

section

variable {least : Nat} (isDead : IsDead token)

include isDead

theorem operand_refuses : RefusesAt least operand token := by
  refine .current ?_
  rcases isDead.kind with isKind | isKind
  · simp only [isKind, unaryOperator?, updateOperator?]
    exact .refuse nofun
  · simp only [isKind, unaryOperator?, updateOperator?]
    exact .refuse (illegalFault_ne_tooDeep token)

theorem expression_refuses (bound : Precedence) :
    RefusesAt (least + 1) (read (.expression bound)) token :=
  .read ((operand_refuses isDead).bind _)

theorem expressionStatement_refuses : RefusesAt (least + 1) expressionStatement token :=
  .current ((expression_refuses isDead .lowest).bind _)

theorem statement_refuses : RefusesAt (least + 2) (read .statement) token := by
  refine .read (.current ?_)
  rcases isDead.kind with isKind | isKind
  · simpa only [isKind] using expressionStatement_refuses isDead
  · simpa only [isKind] using expressionStatement_refuses isDead

end

theorem operand_opens
    (least : Nat)
    (quiet : TokenKind → Prop) :
    Opens least operand [] [.thisWord] 1 quiet := by
  have leads : Leads quiet (· = .thisWord) [.thisWord] := rfl
  refine ⟨.ofCurrent leads ?_, fun _ isDead => (operand_refuses isDead).starves⟩
  intro token isKind
  simp only [isKind, unaryOperator?, updateOperator?]
  exact .absorb fun _ _ => .pure _ rfl

theorem operators_opens
    (least : Nat)
    (bound : Precedence)
    (left : Expression)
    (token : Token) :
    Opens least (operators bound left) [token] [] 1 EndsExpression := by
  have passes {following : Token} (ends : EndsExpression following.kind) :
      (Precedence.ofKind following.kind).rank ≤ bound.rank := by
    rw [ends]
    cases bound <;> decide
  have leads : Leads EndsExpression EndsExpression [] := fun _ ends => ends
  refine .ofNext leads ?_ ?_
  · intro following ends
    rw [if_pos (passes ends)]
    exact .pure left rfl
  · intro dead isDead
    rw [if_pos (passes isDead.endsExpression)]
    exact fun _ _ _ => .pure left rfl

theorem expression_opens
    (least : Nat)
    (bound : Precedence) :
    Opens (least + 2) (read (.expression bound)) [] [.thisWord] 1 EndsExpression := by
  refine .read (.bind (operand_opens (least + 1) EndsExpression) (fun left stop isOne => ?_)
    fun _ ends => ends)
  obtain ⟨token, rfl⟩ := List.length_eq_one_iff.mp isOne
  exact (operators_opens least bound left token).read

theorem statement_opens (least : Nat) :
    Opens (least + 2) (read .statement) [] [.semicolon] 1 (· ≠ .elseWord) := by
  have leads : Leads (· ≠ .elseWord) (· = .semicolon) [.semicolon] := rfl
  refine ⟨.read (.ofCurrent leads ?_), fun _ isDead => (statement_refuses isDead).starves⟩
  intro token isKind
  simp only [isKind]
  exact .absorb fun _ _ => .pure _ rfl

theorem block_opens (least : Nat) :
    Opens (least + 3) (read .block) [] [.rightBrace] 1 (fun _ => True) := by
  have leads : Leads (fun _ => True) (· = .rightBrace) [.rightBrace] := rfl
  refine .read (.ofCurrent leads ?_ ?_)
  · intro token isKind
    rw [if_pos isKind]
    exact .absorb fun _ _ => .pure _ rfl
  · intro token isDead
    rw [if_neg (isDead.ne .rightBrace rfl)]
    split
    · exact .refuse nofun
    · exact ((statement_refuses isDead).bind _).starves

theorem clauseBody_opens (least : Nat) :
    Opens (least + 3) (read .clauseBody) [] [] 0 (· = .rightBrace) := by
  have leads : Leads (· = .rightBrace) (· = .rightBrace) [] := fun _ isKind => isKind
  refine .read (.ofCurrent leads ?_ ?_)
  · intro token isKind
    simp only [isKind]
    exact .pure _ rfl
  · intro token isDead
    rcases isDead.kind with isKind | isKind
    · simp only [isKind]
      exact .refuse nofun
    · simp only [isKind]
      exact ((statement_refuses isDead).bind _).starves

theorem clauses_opens
    (least : Nat)
    (hasDefault : Bool) :
    Opens (least + 1) (read (.clauses hasDefault)) [] [.rightBrace] 1 (fun _ => True) := by
  have leads : Leads (fun _ => True) (· = .rightBrace) [.rightBrace] := rfl
  refine .read (.ofCurrent leads ?_ ?_)
  · intro token isKind
    simp only [isKind]
    exact .absorb fun _ _ => .pure _ rfl
  · intro token isDead
    rcases isDead.kind with isKind | isKind
    · simp only [isKind]
      exact .refuse nofun
    · simp only [isKind]
      exact .refuse nofun

theorem properties_opens
    (least : Nat)
    (token : Token) :
    Opens (least + 1) (read .properties) [token] [.rightBrace] 1 (fun _ => True) := by
  have leads : Leads (fun _ => True) (· = .rightBrace) [.rightBrace] := rfl
  refine .read (.ofNext leads ?_ ?_)
  · intro following isKind
    rw [if_pos isKind]
    exact .advance (.absorb fun _ _ => .pure _ rfl)
  · intro dead isDead
    rw [if_neg (isDead.ne .rightBrace rfl)]
    exact .advance ((propertyKey_refuses isDead).bind _).starves

theorem parameters_opens
    (least : Nat)
    (token : Token) :
    Opens (least + 1) (read .parameters) [token] [.identifier, .rightParen] 1 (fun _ => True) := by
  refine .read (.bind (expect_opens .identifier rfl token) (fun _ stop isOne => ?_) trivial)
  obtain ⟨name, rfl⟩ := List.length_eq_one_iff.mp isOne
  refine .current fun parameter => .skip rfl nofun fun _ => ?_
  exact .bind (expect_opens .rightParen rfl name) (fun _ _ isOne => .pure _ isOne) fun _ _ => trivial

theorem list_opens
    (least : Nat)
    (closes : (closer closing).kind = closing)
    (token : Token) :
    Opens (least + 3) (read (.list closing)) [token] [.thisWord, closer closing] 1
      (fun _ => True) := by
  have ends : EndsExpression (closer closing).kind := by
    unfold closer
    split <;> rfl
  refine .read (.advance (.bind (expression_opens least .comma) (fun first stop isOne => ?_) ends))
  obtain ⟨last, rfl⟩ := List.length_eq_one_iff.mp isOne
  refine .skip rfl (ends.ne (by decide)) fun _ => ?_
  exact .bind (expect_opens (closer closing) closes last) (fun _ _ isOne => .pure _ isOne)
    fun _ _ => trivial

theorem declarators_opens
    (least : Nat)
    (token : Token) :
    Opens (least + 1) (read .declarators) [token] [] 1 EndsExpression := by
  have noValue : Opens least initialValue [token] [] 1 EndsExpression :=
    .skip rfl (fun _ ends => ends.ne (by decide)) fun _ => .pure _ rfl
  refine .read (.current fun name => .bind noValue (fun _ stop isOne => ?_) fun _ ends => ends)
  obtain ⟨last, rfl⟩ := List.length_eq_one_iff.mp isOne
  exact .skip rfl (fun _ ends => ends.ne (by decide)) fun _ => .pure _ rfl

/-- Where nothing is known but what it starts with, every reader opens. -/
theorem read_opens
    (least : Nat)
    (task : Task α)
    (proper : task.Proper)
    (isShortest : front.length = task.shape.before) :
    Opens (least + 3) (read task) front task.shape.fillers task.shape.after task.shape.quiet := by
  cases task with
  | statement =>
      cases List.length_eq_zero_iff.mp isShortest
      exact statement_opens (least + 1)
  | declarators =>
      obtain ⟨token, rfl⟩ := List.length_eq_one_iff.mp isShortest
      exact declarators_opens (least + 2) token
  | block =>
      cases List.length_eq_zero_iff.mp isShortest
      exact block_opens least
  | clauses hasDefault =>
      cases List.length_eq_zero_iff.mp isShortest
      exact clauses_opens (least + 2) hasDefault
  | clauseBody =>
      cases List.length_eq_zero_iff.mp isShortest
      exact clauseBody_opens least
  | parameters =>
      obtain ⟨token, rfl⟩ := List.length_eq_one_iff.mp isShortest
      exact parameters_opens (least + 2) token
  | expression bound =>
      cases List.length_eq_zero_iff.mp isShortest
      exact expression_opens (least + 1) bound
  | operators bound left =>
      obtain ⟨token, rfl⟩ := List.length_eq_one_iff.mp isShortest
      exact (operators_opens (least + 2) bound left token).read
  | list closing =>
      obtain ⟨token, rfl⟩ := List.length_eq_one_iff.mp isShortest
      exact list_opens least proper token
  | properties =>
      obtain ⟨token, rfl⟩ := List.length_eq_one_iff.mp isShortest
      exact properties_opens (least + 2) token

/-! ## Budgets -/

/-- How many calls in a row may take no token. -/
def Task.rank : {α : Type} → Task α → Nat
  | _, block | _, clauseBody => 4
  | _, statement => 3
  | _, expression _ => 2
  | _, _ => 1

theorem Task.rank_le (task : Task α) : task.rank ≤ 4 := by
  cases task <;> exact Nat.le_of_ble_eq_true rfl

theorem Task.rank_pos (task : Task α) : 0 < task.rank := by
  cases task <;> exact Nat.le_of_ble_eq_true rfl

/-- Within a budget the readers up to a rank have a fate at the fronts up to a size. -/
structure Room (least size rank : Nat) : Prop where
  start : 3 ≤ least
  fate : ∀ {α : Type} (task : Task α) (front : List Token),
    task.Proper →
    task.shape.before < front.length →
    8 * front.length + task.rank ≤ 8 * size + rank →
    Fate least (read task) front task.shape.after task.shape.quiet

section

variable {least size rank : Nat}

/-- Where nothing is known there is room. -/
theorem Room.empty
    (start : 3 ≤ least)
    (small : rank ≤ 4) :
    Room least 0 rank :=
  ⟨start, fun task front _ longer fits => by omega⟩

theorem Room.lower
    {other : Nat}
    (room : Room least size rank)
    (notHigher : other ≤ rank) :
    Room least size other :=
  ⟨room.start, fun task front proper longer fits => room.fate task front proper longer (by omega)⟩

/-- Behind one more token every reader has room. -/
theorem Room.inner
    {other : Nat}
    (room : Room least size rank)
    (small : other ≤ 4) :
    Room least (size - 1) other :=
  ⟨room.start, fun task front proper longer fits => room.fate task front proper longer (by omega)⟩

theorem read_meets
    (task : Task α)
    (proper : task.Proper)
    (room : Room least size task.rank) :
    Meets least size (read task) task.shape where
  opens := by
    intro front isShortest
    obtain ⟨spare, rfl⟩ := Nat.exists_eq_add_of_le' room.start
    exact read_opens spare task proper isShortest
  fate := fun front longer fits => room.fate task front proper longer (by omega)

/-! ## Expressions -/

theorem expression_meets (room : Room least size 2) :
    Meets least size (read (.expression bound)) ⟨0, [.thisWord], 1, EndsExpression⟩ :=
  read_meets (.expression bound) trivial room

/-- An operand behind the current token. -/
theorem nextOperand_meets
    (make : Expression → α)
    (room : Room least size rank) :
    Meets least size
      (advance >>= fun _ => read (.expression bound) >>= fun value => pure (make value))
      ⟨1, [.thisWord], 1, EndsExpression⟩ :=
  .advance (.bind (expression_meets bound (room.inner (by decide))) (fun _ => .pure _)
    fun _ ends => ends)

theorem expressionList_meets
    (closes : (closer closing).kind = closing)
    (room : Room least size 1) :
    Meets least size (expressionList closing) ⟨1, [closer closing], 1, fun _ => True⟩ :=
  .take (closer closing) closes _ (fun _ _ => .pure _)
    fun _ => read_meets (.list closing) closes room

theorem list_meets
    (closes : (closer closing).kind = closing)
    (room : Room least size rank) :
    Meets least size (list closing) ⟨1, [.thisWord, closer closing], 1, fun _ => True⟩ := by
  have inner : Room least (size - 1) 2 := room.inner (by decide)
  have ends : EndsExpression (closer closing).kind := by
    unfold closer
    split <;> rfl
  refine .advance (.bind (expression_meets .comma inner) (fun first => ?_) ends)
  refine .skip rfl (ends.ne (by decide)) [closer closing] (fun _ _ => ?_) fun _ => ?_
  · refine .take (closer closing) closes [.thisWord, closer closing] (fun _ _ => .pure _) fun _ => ?_
    exact .bind (read_meets (.list closing) closes (inner.inner (Task.rank_le _))) (fun _ => .pure _)
      fun _ _ => trivial
  · exact .bind (expect_meets (closer closing) closes) (fun _ => .pure _) fun _ _ => trivial

theorem properties_meets (room : Room least size rank) :
    Meets least size properties ⟨1, [.rightBrace], 1, fun _ => True⟩ := by
  have inner : Room least (size - 1 - 1) 2 := (room.inner (Nat.le_refl 4)).inner (by decide)
  refine .take .rightBrace rfl [.identifier, .colon, .thisWord, .rightBrace] (fun _ _ => .pure _)
    fun _ => ?_
  refine .advance (.bind propertyKey_meets (fun key => ?_) trivial)
  refine .bind (expect_meets .colon rfl) (fun _ => .advance ?_) trivial
  refine .bind (expression_meets .comma inner) (fun value => ?_) rfl
  refine .bind betweenProperties_meets (fun _ => ?_) rfl
  exact .bind (read_meets .properties trivial (inner.lower (by decide))) (fun _ => .pure _)
    fun _ _ => trivial

theorem parameters_meets (room : Room least size rank) :
    Meets least size parameters ⟨1, [.identifier, .rightParen], 1, fun _ => True⟩ := by
  refine .bind (expect_meets .identifier rfl) (fun _ => .current fun parameter => ?_) trivial
  refine .skip rfl nofun [.identifier, .rightParen] (fun _ _ => ?_) fun _ => ?_
  · exact .bind (read_meets .parameters trivial (room.inner (by decide))) (fun _ => .pure _)
      fun _ _ => trivial
  · exact .bind (expect_meets .rightParen rfl) (fun _ => .pure _) fun _ _ => trivial

theorem parameterList_meets (room : Room least size 1) :
    Meets least size parameterList ⟨1, [.rightParen], 1, fun _ => True⟩ :=
  .take .rightParen rfl _ (fun _ _ => .pure _) fun _ => read_meets .parameters trivial room

theorem blockBody_meets (room : Room least size rank) :
    Meets least size blockBody ⟨1, [.rightBrace], 1, fun _ => True⟩ :=
  .advance (read_meets .block trivial (room.inner (by decide)))

theorem functionName_meets : Meets least size functionName ⟨1, [.identifier], 1, fun _ => True⟩ :=
  .take .identifier rfl [] (fun _ _ => .pure _) fun _ => .pure _

theorem functionLiteral_meets (room : Room least size 1) :
    Meets least size functionLiteral
      ⟨1, [.identifier, .leftParen, .rightParen, .leftBrace, .rightBrace], 1, fun _ => True⟩ := by
  refine .current fun token => .bind functionName_meets (fun name => ?_) trivial
  refine .bind (expect_meets .leftParen rfl) (fun _ => ?_) trivial
  refine .bind (parameterList_meets room) (fun parameters => ?_) trivial
  refine .bind (expect_meets .leftBrace rfl) (fun _ => ?_) trivial
  exact .bind (blockBody_meets room) (fun _ => .pure _) fun _ _ => trivial

theorem constructorArguments_meets (room : Room least size 1) :
    Meets least size constructorArguments ⟨1, [], 1, EndsExpression⟩ := by
  refine .skip rfl (fun _ ends => ends.ne (by decide)) [.rightParen] (fun _ _ => ?_) fun _ => .pure _
  exact (expressionList_meets rfl (room.inner (by decide))).calmer fun _ _ => trivial

/-- An operand is settled by its tokens, or it can be completed. -/
theorem operand_meets (room : Room least size 1) :
    Meets least size operand ⟨0, [.thisWord], 1, EndsExpression⟩ := by
  refine .ofCurrent (operand_opens least EndsExpression) fun token rest fits => ?_
  have inner : Room least (size - 1) 2 := room.inner (by decide)
  -- Whatever takes its first token as it is settles at this front, or opens behind it.
  have fateOf {script : Script Expression} {fillers : List Filler}
      (meets : Meets least size script ⟨1, fillers, 1, EndsExpression⟩) :
      Fate least script (token :: rest) 1 EndsExpression :=
    Meets.fateOf fits (Nat.le_add_left 1 _) meets
  split
  · exact fateOf (nextOperand_meets .unary _ room)
  · exact fateOf (nextOperand_meets .unary _ room)
  · split
    · exact fateOf (.pure _)
    · exact numberValue_fate token fun _ => fateOf (.pure _)
    · exact fateOf (.pure _)
    · unfold regexLiteral
      split
      · exact fateOf (.pure _)
      · exact .refuse nofun
    · exact fateOf (.pure _)
    · exact fateOf (.pure _)
    · exact fateOf (.pure _)
    · exact fateOf (.bind (functionLiteral_meets room) (fun _ => .pure _) fun _ _ => trivial)
    · exact fateOf (.bind (expressionList_meets rfl room) (fun _ => .pure _)
        fun _ _ => trivial)
    · exact fateOf (.bind (read_meets .properties trivial room) (fun _ => .pure _)
        fun _ _ => trivial)
    · exact fateOf (.advance (.bind (expression_meets .lowest inner)
        (fun value => .bind (expect_meets .rightParen rfl) (fun _ => .pure _) fun _ _ => trivial)
        rfl))
    · exact fateOf (nextOperand_meets .unary _ room)
    · exact fateOf (nextOperand_meets .unary _ room)
    · have given := constructorArguments_meets (inner.lower (by decide))
      exact fateOf (.advance (.bind (expression_meets .call inner)
        (fun constructor => .bind given (fun _ => .pure _) fun _ ends => ends) fun _ ends => ends))
    · exact .refuse (illegalFault_ne_tooDeep token)
    · exact .refuse nofun
    · exact .refuse nofun

/-- What an operator makes is settled by its tokens, or it can be completed. -/
theorem operator_fate
    (token : Token)
    (left : Expression)
    (fits : rest.length < size)
    (room : Room least size 1) :
    Fate least (operator token left) (token :: rest) 1 EndsExpression := by
  have fateOf {script : Script Expression} {fillers : List Filler}
      (meets : Meets least size script ⟨1, fillers, 1, EndsExpression⟩) :
      Fate least script (token :: rest) 1 EndsExpression :=
    Meets.fateOf fits (Nat.le_add_left 1 _) meets
  have inner : Room least (size - 1) 2 := room.inner (by decide)
  unfold operator
  split
  · exact fateOf (nextOperand_meets _ _ room)
  · exact fateOf (nextOperand_meets .comma _ room)
  · exact fateOf (.pure _)
  · split
    · have otherwise {make : Expression → Expression} :=
        nextOperand_meets .comma make inner
      exact fateOf (.advance (.bind (expression_meets .comma inner)
        (fun consequence => .bind (expect_meets .colon rfl) (fun _ => otherwise) trivial) rfl))
    · exact fateOf (nextOperand_meets .comma _ room)
    · exact fateOf (.bind (expressionList_meets rfl room) (fun _ => .pure _)
        fun _ _ => trivial)
    · exact fateOf (memberName_meets _ _)
    · exact fateOf (.advance (.bind (expression_meets .lowest inner)
        (fun key => .bind (expect_meets .rightBracket rfl) (fun _ => .pure _) fun _ _ => trivial)
        rfl))

theorem operators_meets
    (left : Expression)
    (room : Room least size rank) :
    Meets least size (operators bound left) ⟨1, [], 1, EndsExpression⟩ := by
  refine .ofNext (operators_opens least bound left) fun token following rest fits => ?_
  have inner : Room least (size - 1) 1 := room.inner (by decide)
  have shorter : rest.length + 1 ≤ size - 1 := Nat.le_sub_one_of_lt fits
  have more (extended : Expression) := read_meets (.operators bound extended) trivial inner
  split
  · exact .pure left (Nat.le_add_left 1 _)
  · split
    · exact .pure left (Nat.le_add_left 1 _)
    · exact .advance (.bind (operator_fate following left shorter inner)
        (fun extended stop some fits =>
          Meets.fateOf (Nat.le_trans fits shorter) some (more extended))
        (fun extended stop isOne => (more extended).opens stop isOne) fun _ ends => ends)

theorem expressionScript_meets (room : Room least size 1) :
    Meets least size (expression bound) ⟨0, [.thisWord], 1, EndsExpression⟩ :=
  .bind (operand_meets room)
    (fun left => read_meets (.operators bound left) trivial room) fun _ ends => ends

/-! ## Statements -/

theorem expressionStatement_meets (room : Room least size 2) :
    Meets least size expressionStatement ⟨0, [.thisWord, .semicolon], 1, fun _ => True⟩ := by
  refine .current fun token => .bind (expression_meets .lowest room) (fun value => ?_) rfl
  exact .bind endStatement_meets (fun _ => .pure _) fun _ _ => trivial

theorem initialValue_meets (room : Room least size rank) :
    Meets least size initialValue ⟨1, [], 1, EndsExpression⟩ := by
  refine .skip rfl (fun _ ends => ends.ne (by decide)) [.thisWord] (fun _ _ => ?_) fun _ => .pure _
  exact nextOperand_meets .comma _ (room.inner (Nat.le_refl 4))

theorem declarators_meets (room : Room least size rank) :
    Meets least size declarators ⟨1, [], 1, EndsExpression⟩ := by
  refine .current fun name => .bind (initialValue_meets room) (fun value => ?_)
    fun _ ends => ends
  refine .skip rfl (fun _ ends => ends.ne (by decide)) [.identifier] (fun _ _ => ?_) fun _ => .pure _
  refine .bind (expect_meets .identifier rfl) (fun _ => ?_) fun _ _ => trivial
  exact .bind (read_meets .declarators trivial (room.inner (by decide))) (fun _ => .pure _)
    fun _ ends => ends

theorem condition_meets (room : Room least size rank) :
    Meets least size condition ⟨1, [.leftParen, .thisWord, .rightParen], 1, fun _ => True⟩ := by
  refine .bind (expect_meets .leftParen rfl) (fun _ => .advance ?_) trivial
  refine .bind (expression_meets .lowest (room.inner (by decide))) (fun value => ?_) rfl
  exact .bind (expect_meets .rightParen rfl) (fun _ => .pure _) fun _ _ => trivial

theorem body_meets (room : Room least size rank) :
    Meets least size body ⟨1, [.semicolon], 1, (· ≠ .elseWord)⟩ := by
  have meets := read_meets .statement trivial (room.inner (Task.rank_le _))
  have leads : Leads (· ≠ .elseWord) (· = .semicolon) [.semicolon] := rfl
  refine .advance (.ofCurrent (.ofCurrent leads ?_ ?_) fun token rest fits => ?_)
  · intro token isKind
    rw [if_neg (by simp [isKind])]
    exact (meets.opens [] rfl).completes
  · intro token isDead
    split
    · exact .refuse nofun
    · exact (meets.opens [] rfl).starves token isDead
  · split
    · exact .refuse nofun
    · exact Meets.fateOf fits (Nat.zero_le _) meets

theorem alternative_meets (room : Room least size rank) :
    Meets least size alternative ⟨1, [], 1, (· ≠ .elseWord)⟩ := by
  refine .skip rfl (fun _ isOther => isOther) [.semicolon] (fun _ _ => ?_) fun _ => .pure _
  exact .bind (body_meets (room.inner (Nat.le_refl 4))) (fun _ => .pure _) fun _ isOther => isOther

theorem block_fate
    (token : Token)
    (fits : rest.length < size)
    (room : Room least size 3) :
    Fate least block (token :: rest) 1 (fun _ => True) := by
  have meets := read_meets .statement trivial room
  have more := read_meets .block trivial (room.inner (Task.rank_le _))
  refine .current ?_
  split
  · exact .pure _ (Nat.le_add_left 1 _)
  · split
    · exact .refuse nofun
    · exact Meets.fateOf fits (Nat.zero_le _) (.bind meets
        (fun first => .advance (.bind more (fun _ => .pure _) fun _ _ => trivial)) nofun)

theorem clauseBody_fate
    (token : Token)
    (fits : rest.length < size)
    (room : Room least size 3) :
    Fate least clauseBody (token :: rest) 0 (· = .rightBrace) := by
  have meets := read_meets .statement trivial room
  have more := read_meets .clauseBody trivial (room.inner (Task.rank_le _))
  refine .current ?_
  split
  · exact .pure _ (Nat.zero_le _)
  · exact .pure _ (Nat.zero_le _)
  · exact .pure _ (Nat.zero_le _)
  · exact .refuse nofun
  · refine Meets.fateOf fits (Nat.zero_le _) (.bind meets
      (fun first => .advance (.bind more (fun _ => .pure _) fun _ isKind => isKind)) ?_)
    rintro _ rfl
    nofun

theorem clauses_fate
    (hasDefault : Bool)
    (token : Token)
    (fits : rest.length < size)
    (room : Room least size rank) :
    Fate least (clauses hasDefault) (token :: rest) 1 (fun _ => True) := by
  have inner : Room least (size - 1) 4 := room.inner (Nat.le_refl 4)
  -- The statements of a clause end where the next clause begins, so the two are completed as one.
  have clause {size rank : Nat} (room : Room least size rank) (seen : Bool)
      (make : List Statement → List Clause → List Clause) :
      Meets least size
        (expect .colon >>= fun _ => advance >>= fun _ => read .clauseBody >>= fun body =>
          read (.clauses seen) >>= fun others => pure (make body others))
        ⟨1, [.colon, .rightBrace], 1, fun _ => True⟩ := by
    have deeper : Room least (size - 1) 4 := room.inner (Nat.le_refl 4)
    refine .bind (expect_meets .colon rfl) (fun _ => .advance ?_) trivial
    refine .bind (read_meets .clauseBody trivial deeper) (fun body => ?_) rfl
    exact .bind (read_meets (.clauses seen) trivial (deeper.lower (Task.rank_le _)))
      (fun _ => .pure _) fun _ _ => trivial
  refine .current ?_
  split
  · exact .pure _ (Nat.le_add_left 1 _)
  · exact Meets.fateOf fits (Nat.le_add_left 1 _) (.advance (.bind
      (expression_meets .lowest (inner.lower (by decide)))
      (fun condition => clause inner hasDefault _) rfl))
  · split
    · exact .refuse nofun
    · exact Meets.fateOf fits (Nat.le_add_left 1 _) (clause room true _)
  · exact .refuse nofun
  · exact .refuse nofun

theorem expressionUnless_meets
    (kind : TokenKind)
    (lives : isLiving kind = true)
    (ends : EndsExpression kind)
    (room : Room least size rank) :
    Meets least size (expressionUnless kind) ⟨1, [], 1, (· = kind)⟩ := by
  have meets {make : Expression → Option Expression} := nextOperand_meets .lowest make room
  have leads : Leads (· = kind) (· = kind) [] := fun _ isKind => isKind
  refine .ofNext (fun token => .ofNext leads ?_ ?_) fun token following rest fits => ?_
  · intro following isKind
    rw [if_pos isKind]
    exact .pure none rfl
  · intro dead isDead
    rw [if_neg (isDead.ne kind lives)]
    exact (meets.opens [token] rfl).starves dead isDead
  · split
    · exact .pure none (Nat.le_add_left 1 _)
    · exact Meets.fateOf fits (Nat.le_add_left 1 _) (meets.calmer fun _ isKind => isKind ▸ ends)

theorem forRest_meets
    (token : Token)
    (initializer : Option Statement)
    (room : Room least size rank) :
    Meets least size (forRest token initializer)
      ⟨1, [.semicolon, .rightParen, .semicolon], 1, (· ≠ .elseWord)⟩ := by
  refine .bind (expressionUnless_meets .semicolon rfl rfl room) (fun condition => ?_) rfl
  refine .bind (expect_meets .semicolon rfl) (fun _ => ?_) trivial
  refine .bind (expressionUnless_meets .rightParen rfl rfl room) (fun update => ?_) rfl
  refine .bind (expect_meets .rightParen rfl) (fun _ => ?_) trivial
  exact .bind (body_meets room) (fun _ => .pure _) fun _ isOther => isOther

theorem forInitialized_meets
    (token : Token)
    (initializer : Option Statement)
    (room : Room least size rank) :
    Meets least size (expect .semicolon >>= fun _ => forRest token initializer)
      ⟨1, [.semicolon, .semicolon, .rightParen, .semicolon], 1, (· ≠ .elseWord)⟩ :=
  .bind (expect_meets .semicolon rfl) (fun _ => forRest_meets token initializer room) trivial

/-- A loop over keys is known by its second token. -/
theorem forInRest_meets
    (token : Token)
    (declares : Bool)
    (room : Room least size rank) :
    Meets least size (forInRest token declares)
      ⟨2, [.thisWord, .rightParen, .semicolon], 1, (· ≠ .elseWord)⟩ := by
  have inner : Room least (size - 1 - 1) 4 := (room.inner (Nat.le_refl 4)).inner (Nat.le_refl 4)
  refine .current fun name => .advance (.advance ?_)
  refine .bind (expression_meets .lowest (inner.lower (by decide))) (fun subject => ?_) rfl
  refine .bind (expect_meets .rightParen rfl) (fun _ => ?_) trivial
  exact .bind (body_meets inner) (fun _ => .pure _) fun _ isOther => isOther

theorem forEvaluated_meets
    (token first : Token)
    (room : Room least size 2) :
    Meets least size (forEvaluated token first)
      ⟨0, [.thisWord, .semicolon, .semicolon, .rightParen, .semicolon], 1, (· ≠ .elseWord)⟩ := by
  refine .bind (expression_meets .lowest room) (fun value => ?_) rfl
  exact forInitialized_meets token _ room

theorem forDeclared_meets
    (token : Token)
    (room : Room least size 1) :
    Meets least size (forDeclared token)
      ⟨1, [.identifier, .semicolon, .semicolon, .rightParen, .semicolon], 1, (· ≠ .elseWord)⟩ := by
  have declares (word : Token) : Meets least size
      (read .declarators >>= fun declarators => expect .semicolon >>= fun _ =>
        forRest token (some (.declare word declarators)))
      ⟨1, [.semicolon, .semicolon, .rightParen, .semicolon], 1, (· ≠ .elseWord)⟩ :=
    .bind (read_meets .declarators trivial room)
      (fun _ => forInitialized_meets token _ room) rfl
  refine .current fun word => .bind (expect_meets .identifier rfl) (fun _ => ?_) trivial
  refine .ofNext (fun name => .skip rfl nofun fun _ => (declares word).opens [name] rfl)
    fun name following rest fits => ?_
  split
  · exact Meets.fateOf fits (Nat.le_add_left 2 _) (forInRest_meets token true room)
  · exact Meets.fateOf fits (Nat.le_add_left 1 _) (declares word)

/-- A name is an expression, if no operator follows. -/
theorem name_starves
    {name : Token}
    (isName : name.kind = .identifier)
    (isDead : IsDead dead)
    (start : 3 ≤ least)
    (bound : Precedence) :
    StarvesAt least (read (.expression bound)) [name] 1 dead := by
  obtain ⟨spare, rfl⟩ := Nat.exists_eq_add_of_le' start
  have named : StarvesAt (spare + 2) operand [name] 1 dead := by
    refine fun rest budget enough => .current rfl ?_
    simp only [isName, unaryOperator?, updateOperator?]
    exact .pure _ rfl
  refine .read (named.bind fun left stop isOne => ?_)
  obtain ⟨last, rfl⟩ := List.length_eq_one_iff.mp isOne
  exact (operators_opens (spare + 1) bound left last).read.starves dead isDead

/-- The word of a function starts an expression, if a function can be read. -/
theorem function_starves
    {word : Token}
    (isWord : word.kind = .functionWord)
    (isDead : IsDead dead)
    (start : 4 ≤ least)
    (bound : Precedence) :
    StarvesAt least (read (.expression bound)) [word] 1 dead := by
  obtain ⟨spare, rfl⟩ := Nat.exists_eq_add_of_le' start
  have literal := functionLiteral_meets (Room.empty (Nat.le_add_left 3 spare) (show 1 ≤ 4 by decide))
  have function : StarvesAt (spare + 3) operand [word] 1 dead := by
    refine fun rest budget enough => .current rfl ?_
    simp only [isWord, unaryOperator?, updateOperator?]
    exact StarvesAt.bind ((literal.opens [word] rfl).starves dead isDead)
      (fun _ _ isOne _ _ _ => .pure _ isOne) rest budget enough
  refine .read (function.bind fun left stop isOne => ?_)
  obtain ⟨last, rfl⟩ := List.length_eq_one_iff.mp isOne
  exact (operators_opens (spare + 2) bound left last).read.starves dead isDead

/-- After its first name a `for` statement goes on in one of two ways. -/
theorem forNamed_fate
    (token : Token)
    {first : Token}
    (isName : first.kind = .identifier)
    (fits : rest.length < size)
    (room : Room least size 2) :
    Fate least
      (next >>= fun following =>
        if following.kind = .inWord then forInRest token false else forEvaluated token first)
      (first :: rest) 1 (· ≠ .elseWord) := by
  have listing := forInRest_meets token false room
  cases rest with
  | nil =>
      have leads : Leads (· ≠ .elseWord) (· = .inWord)
          [.inWord, .thisWord, .rightParen, .semicolon] := rfl
      refine .opens _ (.ofNext leads ?_ ?_)
      · intro following isKind
        rw [if_pos isKind]
        exact .absorb fun word _ => (listing.opens [first, word] rfl).completes
      · intro dead isDead
        rw [if_neg (isDead.ne .inWord rfl)]
        exact (name_starves isName isDead room.start .lowest).bind fun value stop isOne =>
          ((forInitialized_meets token _ room).opens stop isOne).starves
            dead isDead
  | cons following rest =>
      refine .next ?_
      split
      · exact Meets.fateOf fits (Nat.le_add_left 2 _) listing
      · exact Meets.fateOf fits (Nat.zero_le _) (forEvaluated_meets token first room)

theorem forStatement_meets
    (token : Token)
    (room : Room least size 1) :
    Meets least size (forStatement token)
      ⟨1, [.leftParen, .semicolon, .semicolon, .rightParen, .semicolon], 1, (· ≠ .elseWord)⟩ := by
  have inner : Room least (size - 1) 2 := room.inner (by decide)
  have bare := forRest_meets token none inner
  have declared := forDeclared_meets token (inner.lower (Nat.le_succ 1))
  have evaluated (first : Token) := forEvaluated_meets token first inner
  refine .bind (expect_meets .leftParen rfl) (fun _ => ?_) trivial
  refine .ofNext (fun opening => .take .semicolon rfl ?_ ?_) fun opening following rest fits => ?_
  · exact fun _ other _ => (bare.opens [other] rfl).completes
  · intro dead isDead
    rw [if_neg (isDead.ne .varWord rfl)]
    refine .advance fun rest budget enough => .current rfl ?_
    rw [if_neg (isDead.ne .identifier rfl)]
    exact ((evaluated dead).opens [] rfl).starves dead isDead rest budget enough
  · have shorter : rest.length + 1 ≤ size - 1 := Nat.le_sub_one_of_lt fits
    split
    · exact .advance (Meets.fateOf shorter (Nat.le_add_left 1 _) bare)
    · split
      · exact .advance (Meets.fateOf shorter (Nat.le_add_left 1 _) declared)
      · refine .advance (.current ?_)
        split
        · rename_i isName
          exact forNamed_fate token isName shorter inner
        · exact Meets.fateOf shorter (Nat.zero_le _) (evaluated following)

theorem expressionStatement_starves
    (isDead : IsDead dead)
    (starves : StarvesAt least (read (.expression .lowest)) [token] 1 dead) :
    StarvesAt least expressionStatement [token] 1 dead := by
  refine fun rest budget enough => .current rfl ?_
  refine starves.bind (fun value stop isOne => ?_) rest budget enough
  have ended : Meets least 0 endStatement ⟨1, [.semicolon], 1, fun _ => True⟩ := endStatement_meets
  exact ((ended.opens stop isOne).starves dead isDead).bind fun _ _ isOne _ _ _ => .pure _ isOne

/-- A value that is given back may be missing. -/
theorem giveBack_meets
    (token : Token)
    (room : Room least size rank) :
    Meets least size
      (next >>= fun following =>
        if following.kind = .semicolon || endsStatement following then
          endStatement >>= fun _ => pure (Statement.giveBack token none)
        else
          advance >>= fun _ => read (.expression .lowest) >>= fun value => endStatement >>= fun _ =>
            pure (Statement.giveBack token (some value)))
      ⟨1, [.semicolon], 1, (· ≠ .elseWord)⟩ := by
  have bare : Meets least size (endStatement >>= fun _ => pure (Statement.giveBack token none))
      ⟨1, [.semicolon], 1, (· ≠ .elseWord)⟩ :=
    .bind endStatement_meets (fun _ => .pure _) fun _ _ => trivial
  have valued : Meets least size
      (advance >>= fun _ => read (.expression .lowest) >>= fun value => endStatement >>= fun _ =>
        pure (Statement.giveBack token (some value)))
      ⟨1, [.thisWord, .semicolon], 1, (· ≠ .elseWord)⟩ :=
    .advance (.bind (expression_meets .lowest (room.inner (by decide)))
      (fun _ => .bind endStatement_meets (fun _ => .pure _) fun _ _ => trivial) rfl)
  have leads : Leads (· ≠ .elseWord) (· = .semicolon) [.semicolon] := rfl
  refine .ofNext (fun current => .ofNext leads ?_ ?_) fun current following rest fits => ?_
  · intro following isKind
    rw [if_pos (by simp [isKind])]
    exact (bare.opens [current] rfl).completes
  · intro dead isDead
    split
    · exact (bare.opens [current] rfl).starves dead isDead
    · exact (valued.opens [current] rfl).starves dead isDead
  · split
    · exact Meets.fateOf fits (Nat.le_add_left 1 _) bare
    · exact Meets.fateOf fits (Nat.le_add_left 1 _) valued

/-- A statement that starts with a name is labeled or an expression. -/
theorem named_fate
    {name : Token}
    (isName : name.kind = .identifier)
    (fits : rest.length < size)
    (room : Room least size 2) :
    Fate least
      (next >>= fun following =>
        if following.kind = .colon then
          advance >>= fun _ => body >>= fun inner => pure (Statement.labeled name inner)
        else expressionStatement)
      (name :: rest) 1 (· ≠ .elseWord) := by
  have labeled {inner : Statement → Statement} :
      Meets least (size - 1) (body >>= fun statement => pure (inner statement))
        ⟨1, [.semicolon], 1, (· ≠ .elseWord)⟩ :=
    .bind (body_meets (room.inner (Nat.le_refl 4))) (fun _ => .pure _) fun _ isOther => isOther
  cases rest with
  | nil =>
      refine .opens [.colon, .semicolon] (.take .colon rfl ?_ ?_)
      · exact fun _ other _ => (labeled.opens [other] rfl).completes
      · exact fun dead isDead =>
          expressionStatement_starves isDead (name_starves isName isDead room.start .lowest)
  | cons following rest =>
      refine .next ?_
      split
      · exact .advance (Meets.fateOf (Nat.le_sub_one_of_lt fits) (Nat.le_add_left 1 _) labeled)
      · exact Meets.fateOf fits (Nat.zero_le _)
          ((expressionStatement_meets room).calmer fun _ _ => trivial)

/-- A statement that starts with the word of a function declares one or is an expression. -/
theorem function_fate
    {word : Token}
    (isWord : word.kind = .functionWord)
    (fits : rest.length < size)
    (start : 4 ≤ least)
    (room : Room least size 2) :
    Fate least
      (next >>= fun following =>
        if following.kind = .identifier then
          functionLiteral >>= fun literal => pure (Statement.function word literal)
        else expressionStatement)
      (word :: rest) 1 (· ≠ .elseWord) := by
  have declared : Meets least size
      (functionLiteral >>= fun literal => pure (Statement.function word literal))
      ⟨1, [.identifier, .leftParen, .rightParen, .leftBrace, .rightBrace], 1, (· ≠ .elseWord)⟩ :=
    .bind (functionLiteral_meets (room.lower (Nat.le_succ 1))) (fun _ => .pure _)
      fun _ _ => trivial
  cases rest with
  | nil =>
      have leads : Leads (· ≠ .elseWord) (· = .identifier)
          [.identifier, .leftParen, .rightParen, .leftBrace, .rightBrace] := rfl
      refine .opens _ (.ofNext leads ?_ ?_)
      · intro following isKind
        rw [if_pos isKind]
        exact (declared.opens [word] rfl).completes
      · intro dead isDead
        rw [if_neg (isDead.ne .identifier rfl)]
        exact expressionStatement_starves isDead (function_starves isWord isDead start .lowest)
  | cons following rest =>
      refine .next ?_
      split
      · exact Meets.fateOf fits (Nat.le_add_left 1 _) declared
      · exact Meets.fateOf fits (Nat.zero_le _)
          ((expressionStatement_meets room).calmer fun _ _ => trivial)

/-- A statement is settled by its tokens, or it can be completed. -/
theorem statement_fate
    (token : Token)
    (fits : rest.length < size)
    (start : 4 ≤ least)
    (room : Room least size 2) :
    Fate least statement (token :: rest) 1 (· ≠ .elseWord) := by
  have low : Room least size 1 := room.lower (Nat.le_succ 1)
  have fateOf {script : Script Statement} {fillers : List Filler}
      (meets : Meets least size script ⟨1, fillers, 1, (· ≠ .elseWord)⟩) :
      Fate least script (token :: rest) 1 (· ≠ .elseWord) :=
    Meets.fateOf fits (Nat.le_add_left 1 _) meets
  refine .current ?_
  split
  · exact fateOf (.bind (expect_meets .identifier rfl) (fun _ =>
      .bind (read_meets .declarators trivial low) (fun _ =>
        .bind endStatement_meets (fun _ => .pure _) fun _ _ => trivial) rfl) trivial)
  · exact fateOf (giveBack_meets token low)
  · exact fateOf (.bind (condition_meets low) (fun _ => .bind (body_meets low) (fun _ =>
      .bind (alternative_meets low) (fun _ => .pure _) fun _ isOther => isOther)
        fun _ isOther => isOther) trivial)
  · exact fateOf (.bind (condition_meets low) (fun _ => .bind (body_meets low) (fun _ => .pure _)
      fun _ isOther => isOther) trivial)
  · exact fateOf (forStatement_meets token low)
  · exact fateOf (.bind jumpLabel_meets (fun _ =>
      .bind endStatement_meets (fun _ => .pure _) fun _ _ => trivial) nofun)
  · exact fateOf (.bind jumpLabel_meets (fun _ =>
      .bind endStatement_meets (fun _ => .pure _) fun _ _ => trivial) nofun)
  · have cases := read_meets (.clauses false) trivial (low.inner (Task.rank_le _))
    exact fateOf (.bind (condition_meets low) (fun _ => .bind (expect_meets .leftBrace rfl)
      (fun _ => .advance (.bind cases (fun _ => .pure _) fun _ _ => trivial)) trivial) trivial)
  · exact fateOf (.bind (blockBody_meets low) (fun _ => .pure _) fun _ _ => trivial)
  · exact .pure _ (Nat.le_add_left 1 _)
  · rename_i isWord
    exact function_fate isWord fits start room
  · rename_i isName
    exact named_fate isName fits room
  · exact Meets.fateOf fits (Nat.zero_le _)
      ((expressionStatement_meets room).calmer fun _ _ => trivial)

/-! ## All readers -/

/-- What a reader does at a front is settled when it is for the readers it calls. -/
theorem script_fate
    (task : Task α)
    (proper : task.Proper)
    (longer : task.shape.before < front.length)
    (start : 4 ≤ least)
    (room : Room least front.length (task.rank - 1)) :
    Fate least task.script front task.shape.after task.shape.quiet := by
  cases task with
  | statement =>
      obtain ⟨token, rest, rfl⟩ := List.exists_cons_of_length_pos longer
      exact statement_fate token (Nat.lt_succ_self _) start room
  | declarators => exact (declarators_meets room).fate front longer (Nat.le_refl _)
  | block =>
      obtain ⟨token, rest, rfl⟩ := List.exists_cons_of_length_pos longer
      exact block_fate token (Nat.lt_succ_self _) room
  | clauses hasDefault =>
      obtain ⟨token, rest, rfl⟩ := List.exists_cons_of_length_pos longer
      exact clauses_fate hasDefault token (Nat.lt_succ_self _) room
  | clauseBody =>
      obtain ⟨token, rest, rfl⟩ := List.exists_cons_of_length_pos longer
      exact clauseBody_fate token (Nat.lt_succ_self _) room
  | parameters => exact (parameters_meets room).fate front longer (Nat.le_refl _)
  | expression bound => exact (expressionScript_meets bound room).fate front longer (Nat.le_refl _)
  | operators bound left => exact (operators_meets bound left room).fate front longer (Nat.le_refl _)
  | list closing => exact (list_meets proper room).fate front longer (Nat.le_refl _)
  | properties => exact (properties_meets room).fate front longer (Nat.le_refl _)

end

/-- Every reader has a fate at every front that the budget suffices for. -/
theorem read_fate
    {least : Nat}
    (task : Task α)
    (proper : task.Proper)
    (longer : task.shape.before < front.length)
    (enough : 8 * front.length + task.rank ≤ least) :
    Fate least (read task) front task.shape.after task.shape.quiet := by
  induction least generalizing α task front with
  | zero => omega
  | succ least inductionHypothesis =>
      refine .read (script_fate task proper longer (by omega) ⟨by omega, ?_⟩)
      intro β called shorter calledProper calledLonger fits
      have := task.rank_pos
      exact inductionHypothesis called calledProper calledLonger (by omega)

end ScriptEngine.Parser
