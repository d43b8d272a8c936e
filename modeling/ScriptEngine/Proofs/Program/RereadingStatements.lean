import ScriptEngine.Proofs.Program.Rereading

namespace ScriptEngine

/-!
# Functions and statements are read as they are written

A statement is read from its first token up to the semicolon or the brace that ends it.
What follows does not matter, except that an open branch takes an `else` behind it.
Functions and objects are operands, and an assignment is read where nothing in front binds
tighter than a comma.
-/

variable {tokens others conditions : List Token}
  {last word semicolon closing final opening comma first colon : Token} {limit least : Nat}
  {isOpen : Bool}

namespace Parser

open Script (current next advance read)

/-! ## Assignments, regular expressions and objects -/

theorem ofKind?_of_assigns
    {kind : TokenKind}
    {operator : AssignmentOperator}
    (stands : AssignmentOperator.ofKind? kind = some operator) :
    InfixOperator.ofKind? kind = none ∧ (Precedence.ofKind kind).rank = 3 ∧
      (updateOperator? kind).isSome = false ∧ kind ≠ .colon ∧ kind ≠ .inWord := by
  revert stands
  cases kind <;> rintro ⟨⟩ <;> decide

section

variable {value other : Expression} {limitOther : Nat}

theorem rereads_assign
    {mark : Token} {operator : AssignmentOperator} (rereads : Rereads tokens last value limit)
    (within : 12 ≤ limit) (rereadsOther : Rereads others final other limitOther)
    (withinOther : 2 ≤ limitOther) (stands : AssignmentOperator.ofKind? mark.kind = some operator) :
    Rereads (tokens ++ mark :: others) final (.assign mark operator value other) 2 := by
  obtain ⟨notInfix, isRank, notUpdate, notOther⟩ := ofKind?_of_assigns stands
  refine ⟨rereads.starts_append _ notOther, ?_⟩
  intro follow mayFollow bound isWithin least result stop goesOn
  obtain ⟨follower, more, rfl, looser⟩ := mayFollow
  have takes : Yields (least + 4 * others.length + 3) (read (.operators bound value))
      (last :: mark :: (others ++ follower :: more)) result stop := by
    refine operators_take_unbroken ?_ (by rw [notUpdate, Bool.false_and]) ?_
      (goesOn.weaken (by omega))
    · rw [isRank]
      exact Nat.lt_succ_of_le isWithin
    · unfold Parser.operator
      rw [notInfix, stands]
      exact .advance (by simp) (.bind ((rereadsOther.stops
        (show Precedence.comma.rank ≤ limitOther from withinOther) more
        (looser (by decide))).weaken (by omega)) (.pure _))
  have all := rereads.reads (mark :: (others ++ follower :: more))
    (mayFollow_of_ne_nil within (by simp)) bound
    (Nat.le_trans isWithin (Nat.le_trans (by decide) within)) _ _ _ takes
  rw [List.append_assoc, List.cons_append]
  exact all.weaken (by
    simp only [List.length_append, List.length_cons]
    omega)

theorem rereads_regex
    {token : Token} {pattern flags : String} (isRegex : token.kind = .regex)
    (isSplit : splitRegex? token.literal = some (pattern, flags)) :
    Rereads [token] token (.regex token pattern flags) 13 := by
  refine rereads_leaf (by rw [isRegex]; rfl) fun follow => .current ?_
  simp only [isRegex, unaryOperator?, updateOperator?]
  unfold regexLiteral
  rw [isSplit]
  exact .pure _

end

/-! ## Objects -/

/-- Tokens are read as the key of a property. -/
def RereadsKey (token : Token) (key : PropertyKey) : Prop :=
  token.kind ≠ .rightBrace ∧ ∀ follow, Yields 0 propertyKey (token :: follow) key (token :: follow)

/-- Tokens are read as properties, up to the brace behind them. -/
def RereadsProperties (tokens : List Token) (values : List Property) : Prop :=
  ∀ previous close follow, close.kind = .rightBrace → follow ≠ [] →
    Yields (4 * tokens.length + 1) (read .properties)
      (previous :: (tokens ++ close :: follow)) values
      (close :: follow)

theorem rereadsProperties_nil : RereadsProperties [] [] := by
  intro previous close follow closes some
  refine @Yields.read _ _ _ _ .properties _ (.next ?_)
  rw [if_pos closes]
  exact .advance (by simp) (.pure _)

theorem betweenProperties_end
    {close : Token} (closes : close.kind = .rightBrace) (follow : List Token) :
    Yields least betweenProperties (last :: close :: follow) () (last :: close :: follow) := by
  refine .next ?_
  rw [if_pos closes]
  exact .pure _

theorem betweenProperties_comma
    (isComma : comma.kind = .comma) (follow : List Token) :
    Yields least betweenProperties (last :: comma :: follow) () (comma :: follow) := by
  refine .next ?_
  rw [if_neg (by rw [isComma]; nofun)]
  refine .next ?_
  rw [if_pos isComma]
  exact .move (List.cons_ne_nil comma follow)

section

variable {key : PropertyKey} {value : Expression} {values : List Property}
  (isKey : RereadsKey first key) (isColon : colon.kind = .colon)
  (rereads : Rereads tokens last value limit) (within : 2 ≤ limit)

include isKey isColon rereads within

/-- A property is read up to a comma or a brace. -/
theorem property_yields
    {follower : Token}
    {more stop : List Token}
    (looser : (Precedence.ofKind follower.kind).rank ≤ 2)
    (enough : 4 * tokens.length + 2 ≤ least)
    (goesOn : Yields least
      (betweenProperties >>= fun _ => read .properties >>= fun rest =>
        pure (Property.mk key value :: rest))
      (last :: follower :: more) values stop)
    (previous : Token) :
    Yields (least + 1) (read .properties)
      (previous :: first :: colon :: (tokens ++ follower :: more)) values stop := by
  refine @Yields.read _ _ _ _ .properties _ (.next ?_)
  rw [if_neg isKey.1]
  refine .advance (by simp) (.bind ((isKey.2 _).weaken (Nat.zero_le _)) (.expect isColon ?_))
  exact .advance (by simp) (.bind ((rereads.stops
    (show Precedence.comma.rank ≤ limit from within) more looser).weaken enough) goesOn)

theorem rereadsProperties_last : RereadsProperties (first :: colon :: tokens) [.mk key value] := by
  intro previous close follow closes some
  have looser : (Precedence.ofKind close.kind).rank ≤ 2 := by
    rw [closes]
    decide
  refine (property_yields isKey isColon rereads within looser (Nat.le_refl _) ?_ previous).weaken
    (by simp only [List.length_cons]; omega)
  exact .bind (betweenProperties_end closes follow)
    (.bind ((rereadsProperties_nil last close follow closes some).weaken (by simp)) (.pure _))

theorem rereadsProperties_cons
    (isComma : comma.kind = .comma) (rereadsRest : RereadsProperties others values) :
    RereadsProperties (first :: colon :: (tokens ++ comma :: others))
      (.mk key value :: values) := by
  intro previous close follow closes some
  have looser : (Precedence.ofKind comma.kind).rank ≤ 2 := by
    rw [isComma]
    decide
  have goesOn : Yields (4 * (tokens.length + others.length) + 2)
      (betweenProperties >>= fun _ => read .properties >>= fun rest =>
        pure (Property.mk key value :: rest))
      (last :: comma :: (others ++ close :: follow)) (.mk key value :: values)
      (close :: follow) :=
    .bind (betweenProperties_comma isComma _)
      (.bind ((rereadsRest comma close follow closes some).weaken (by omega)) (.pure _))
  have all := property_yields isKey isColon rereads within looser (by omega) goesOn previous
  simp only [List.cons_append, List.append_assoc]
  exact all.weaken (by simp only [List.length_append, List.length_cons]; omega)

end

theorem rereads_object
    {mark : Token} {values : List Property}
    (rereads : RereadsProperties tokens values) (isMark : mark.kind = .leftBrace)
    (closes : closing.kind = .rightBrace) :
    Rereads (mark :: (tokens ++ [closing])) closing (.object mark values) 13 := by
  refine rereads_of_operand (opensExpression_of_kind isMark rfl nofun) fun follow some => ?_
  simp only [List.append_assoc, List.cons_append, List.nil_append]
  refine .current ?_
  simp only [isMark, unaryOperator?, updateOperator?]
  refine .bind ((rereads mark closing follow closes some).weaken ?_) (.pure _)
  simp only [List.length_append, List.length_cons]
  omega

/-! ## Statements -/

/-- Whether a token of a kind may open a statement where another one might end. -/
def startsStatement : TokenKind → Bool
  | .rightBrace | .endOfInput | .caseWord | .defaultWord | .elseWord => false
  | _ => true

theorem startsStatement_of_opensExpression
    {kind : TokenKind} (opens : opensExpression kind = true) :
    startsStatement kind = true := by
  revert opens
  cases kind <;> decide

/--
Some tokens are read as a statement, up to a last one, whatever follows; but no `else`
follows an open branch.
-/
structure RereadsStatement
    (tokens : List Token)
    (last : Token)
    (value : Statement)
    (isOpen : Bool) : Prop where
  starts : ∃ first others, tokens = first :: others ∧ startsStatement first.kind = true
  reads : ∀ follower more, (isOpen = true → follower.kind ≠ .elseWord) →
    Yields (4 * tokens.length + 3) (read .statement) (tokens ++ follower :: more) value
      (last :: follower :: more)

/-- What the word in front of a statement makes of it. -/
theorem rereadsStatement_of_script
    {value : Statement}
    (starts : startsStatement first.kind = true)
    (yields : ∀ follower more, (isOpen = true → follower.kind ≠ .elseWord) →
      Yields (4 * others.length + 6) statement (first :: (others ++ follower :: more)) value
        (last :: follower :: more)) :
    RereadsStatement (first :: others) last value isOpen := by
  refine ⟨⟨first, others, rfl, starts⟩, fun follower more notElse => ?_⟩
  exact (@Yields.read _ _ _ _ .statement _ (yields follower more notElse)).weaken
    (by simp only [List.length_cons]; omega)

section

variable {value : Expression}

theorem rereads_evaluated
    (rereads : Rereads tokens last value limit) (within : 2 ≤ limit)
    (opens : OpensStatement tokens) (ends : semicolon.kind = .semicolon) :
    ∃ start, RereadsStatement (tokens ++ [semicolon]) semicolon
      (.expression start value) false := by
  obtain ⟨first, rest, isTokens, opensFirst, -⟩ := rereads.starts
  have isLowest : Precedence.ofKind semicolon.kind = .lowest ∧ semicolon.kind ≠ .colon := by
    rw [ends]
    exact ⟨rfl, nofun⟩
  refine ⟨first, ⟨first, rest ++ [semicolon], by rw [isTokens]; rfl,
    startsStatement_of_opensExpression opensFirst⟩, fun follower more _ => ?_⟩
  obtain ⟨start, isStart, yields⟩ := rereads.statement within opens isLowest.1 isLowest.2
    (endStatement_semicolon ends (follower :: more))
  obtain rfl : first = start := by simpa [isTokens] using isStart
  rw [List.append_assoc]
  exact yields.weaken (by simp only [List.length_append, List.length_cons]; omega)

theorem rereads_giveBack
    (rereads : Rereads tokens last value limit) (within : 1 ≤ limit)
    (sameLine : ∀ token ∈ tokens, token.newlineBefore = false) (isWord : word.kind = .returnWord)
    (ends : semicolon.kind = .semicolon) :
    RereadsStatement (word :: (tokens ++ [semicolon])) semicolon (.giveBack word (some value))
      false := by
  refine rereadsStatement_of_script (by rw [isWord]; rfl) fun follower more _ => .current ?_
  simp only [isWord]
  obtain ⟨first, rest, rfl, opens, -⟩ := rereads.starts
  have goesOn : ¬(first.kind = .semicolon || endsStatement first) = true := by
    rw [endsStatement, sameLine first List.mem_cons_self]
    revert opens
    cases first.kind <;> decide
  rw [List.append_assoc, List.cons_append]
  refine .next ?_
  rw [if_neg goesOn]
  have isLowest : (Precedence.ofKind semicolon.kind).rank ≤ Precedence.lowest.rank :=
    rank_le_of_lowest (by rw [ends]; rfl) _
  refine .advance (by simp) (.bind ((rereads.stops (show Precedence.lowest.rank ≤ limit from within)
    _ isLowest).weaken ?_) (.bind (endStatement_semicolon ends _) (.pure _)))
  simp only [List.length_append, List.length_cons]
  omega

end

theorem rereads_giveBack_nothing
    (isWord : word.kind = .returnWord)
    (ends : semicolon.kind = .semicolon) :
    RereadsStatement [word, semicolon] semicolon (.giveBack word none) false := by
  refine rereadsStatement_of_script (by rw [isWord]; rfl) fun follower more _ => .current ?_
  simp only [isWord]
  refine .next ?_
  rw [if_pos (by simp [ends])]
  exact .bind (endStatement_semicolon ends _) (.pure _)

/-- A label behind a jump word, or none. -/
theorem jumpLabel_yields
    {label : Option Token}
    (isName : ∀ name ∈ label, name.kind = .identifier ∧ name.newlineBefore = false)
    (ends : semicolon.kind = .semicolon)
    (more : List Token) :
    ∃ last, Yields least jumpLabel (word :: (label.toList ++ semicolon :: more)) label
      (last :: semicolon :: more) := by
  cases label with
  | none =>
      refine ⟨word, .next ?_⟩
      rw [if_neg (by simp [ends])]
      exact .pure _
  | some name =>
      obtain ⟨isName, sameLine⟩ := isName name rfl
      refine ⟨name, .next ?_⟩
      rw [if_pos (by simp [isName, sameLine])]
      exact .advance (by simp) (.pure _)

theorem rereads_jump
    {label : Option Token}
    {made : Statement}
    (isName : ∀ name ∈ label, name.kind = .identifier ∧ name.newlineBefore = false)
    (isJump : word.kind = .breakWord ∧ made = .leave word label ∨
      word.kind = .continueWord ∧ made = .again word label)
    (ends : semicolon.kind = .semicolon) :
    RereadsStatement (word :: (label.toList ++ [semicolon])) semicolon made false := by
  have starts : startsStatement word.kind = true := by
    rcases isJump with ⟨isWord, -⟩ | ⟨isWord, -⟩ <;> rw [isWord] <;> rfl
  refine rereadsStatement_of_script starts fun follower more _ => .current ?_
  obtain ⟨last, yields⟩ := jumpLabel_yields isName ends (follower :: more)
  rw [List.append_assoc]
  rcases isJump with ⟨isWord, rfl⟩ | ⟨isWord, rfl⟩ <;> simp only [isWord] <;>
    exact .bind yields (.bind (endStatement_semicolon ends _) (.pure _))

theorem rereads_empty (ends : semicolon.kind = .semicolon) :
    RereadsStatement [semicolon] semicolon (.empty semicolon) false := by
  refine rereadsStatement_of_script (by rw [ends]; rfl) fun follower more _ => .current ?_
  simp only [ends]
  exact .pure _

/-! ## Declarations -/

/-- Tokens are read as a declared variable with its value, if it has one. -/
structure RereadsDeclarator
    (tokens : List Token)
    (last : Token)
    (name : Token)
    (value : Option Expression) : Prop where
  starts : ∃ others, tokens = name :: others ∧ ∀ second ∈ others.head?, second.kind ≠ .inWord
  isName : name.kind = .identifier
  reads : ∀ follower more, follower.kind ≠ .assign → (Precedence.ofKind follower.kind).rank ≤ 2 →
    Yields (4 * tokens.length) initialValue (tokens ++ follower :: more) value
      (last :: follower :: more)

theorem rereadsDeclarator_bare {name : Token} (isName : name.kind = .identifier) :
    RereadsDeclarator [name] name name none := by
  refine ⟨⟨[], rfl, by simp⟩, isName, fun follower more notAssign _ => .next ?_⟩
  rw [if_neg notAssign]
  exact .pure _

theorem rereadsDeclarator_given
    {name sign : Token} {value : Expression}
    (isName : name.kind = .identifier) (isSign : sign.kind = .assign)
    (rereads : Rereads tokens last value limit) (within : 2 ≤ limit) :
    RereadsDeclarator (name :: sign :: tokens) last name (some value) := by
  refine ⟨⟨_, rfl, ?_⟩, isName, fun follower more _ looser => .next ?_⟩
  · rintro _ ⟨⟩
    rw [isSign]
    nofun
  rw [if_pos isSign]
  refine .advance (by simp) (.advance (by simp) (.bind ((rereads.stops
    (show Precedence.comma.rank ≤ limit from within) more looser).weaken ?_) (.pure _)))
  simp only [List.length_cons]
  omega

/-- Tokens are read as declared variables, up to what ends them. -/
structure RereadsDeclarators
    (tokens : List Token)
    (last : Token)
    (values : List Declarator) : Prop where
  starts : ∃ name others, tokens = name :: others ∧ name.kind = .identifier ∧
    ∀ second ∈ others.head?, second.kind ≠ .inWord
  reads : ∀ follower more, follower.kind = .semicolon →
    Yields (4 * tokens.length + 1) (read .declarators) (tokens ++ follower :: more) values
      (last :: follower :: more)

section

variable {name : Token} {value : Option Expression}
  (rereads : RereadsDeclarator tokens last name value)

include rereads

theorem rereadsDeclarators_last : RereadsDeclarators tokens last [.mk name value] := by
  obtain ⟨rest, rfl, notIn⟩ := rereads.starts
  refine ⟨⟨name, rest, rfl, rereads.isName, notIn⟩, fun follower more ends => ?_⟩
  have yields := rereads.reads follower more (by rw [ends]; nofun) (by rw [ends]; decide)
  refine @Yields.read _ _ _ _ .declarators _ (.current (.bind yields (.next ?_)))
  rw [if_neg (by rw [ends]; nofun)]
  exact .pure _

theorem rereadsDeclarators_cons
    {values : List Declarator} (isComma : comma.kind = .comma)
    (rereadsRest : RereadsDeclarators others final values) :
    RereadsDeclarators (tokens ++ comma :: others) final (.mk name value :: values) := by
  obtain ⟨rest, rfl, notIn⟩ := rereads.starts
  refine ⟨⟨name, rest ++ comma :: others, rfl, rereads.isName, ?_⟩, fun follower more ends => ?_⟩
  · cases rest with
    | nil =>
        rintro _ ⟨⟩
        rw [isComma]
        nofun
    | cons second rest => exact notIn
  have yields := rereads.reads comma (others ++ follower :: more) (by rw [isComma]; nofun)
    (by rw [isComma]; decide)
  have yieldsRest := rereadsRest.reads follower more ends
  obtain ⟨next, behind, rfl, isName, -⟩ := rereadsRest.starts
  have all : Yields (4 * (rest.length + behind.length) + 9) declarators
      (name :: (rest ++ comma :: next :: (behind ++ follower :: more))) (.mk name value :: values)
      (final :: follower :: more) := by
    refine .current (.bind (yields.weaken (by simp only [List.length_cons]; omega)) (.next ?_))
    rw [if_pos isComma]
    exact .advance (by simp) (.expect isName
      (.bind (yieldsRest.weaken (by simp only [List.length_cons]; omega)) (.pure _)))
  simp only [List.cons_append, List.append_assoc]
  exact (@Yields.read _ _ _ _ .declarators _ all).weaken
    (by simp only [List.length_append, List.length_cons]; omega)

end

theorem rereads_declare
    {values : List Declarator}
    (rereads : RereadsDeclarators tokens last values) (isWord : word.kind = .varWord)
    (ends : semicolon.kind = .semicolon) :
    RereadsStatement (word :: (tokens ++ [semicolon])) semicolon (.declare word values) false := by
  refine rereadsStatement_of_script (by rw [isWord]; rfl) fun follower more _ => .current ?_
  simp only [isWord]
  have yields := rereads.reads semicolon (follower :: more) ends
  obtain ⟨name, others, rfl, isName, -⟩ := rereads.starts
  rw [List.append_assoc, List.cons_append]
  refine .expect isName (.bind (yields.weaken ?_) (.bind (endStatement_semicolon ends _) (.pure _)))
  simp only [List.length_append, List.length_cons]
  omega

/-! ## Blocks and functions -/

/-- Tokens are read as the statements of a block, up to its closing brace. -/
def RereadsBlock (tokens : List Token) (values : List Statement) : Prop :=
  ∀ close follow, close.kind = .rightBrace →
    Yields (4 * tokens.length + 4) (read .block) (tokens ++ close :: follow) values
      (close :: follow)

theorem rereads_block
    {values : List Statement}
    (rereads : RereadsBlock tokens values) (opens : opening.kind = .leftBrace)
    (closes : closing.kind = .rightBrace) :
    RereadsStatement (opening :: (tokens ++ [closing])) closing (.block opening values) false := by
  refine rereadsStatement_of_script (by rw [opens]; rfl) fun follower more _ => .current ?_
  simp only [opens]
  rw [List.append_assoc]
  refine .bind (.advance (by simp) ((rereads closing _ closes).weaken ?_)) (.pure _)
  simp only [List.length_append, List.length_cons]
  omega

/-- Names with commas between them are read as parameters. -/
theorem parameters_yields
    {names : List Token}
    (areNames : ∀ name ∈ first :: names, name.kind = .identifier)
    (spelled : Spelled tokens
      (Expression.listAll ((first :: names).map fun name => [name.unplaced]))) :
    ∃ values, values.map Token.unplaced = (first :: names).map Token.unplaced ∧
      (∃ start others, tokens = start :: others ∧ start.kind = .identifier) ∧
      ∀ opening close follow, close.kind = .rightParen → follow ≠ [] →
        Yields (2 * tokens.length) (read .parameters)
          (opening :: (tokens ++ close :: follow)) values
          (close :: follow) := by
  induction names generalizing first tokens with
  | nil =>
      obtain ⟨name, rfl, isName, -⟩ := Spelled.eq_singleton spelled
      have isKind : name.kind = .identifier :=
        (kind_of_unplaced isName).trans (areNames first List.mem_cons_self)
      refine ⟨[name], by simp [isName], ⟨name, [], rfl, isKind⟩, ?_⟩
      intro opening close follow closes some
      refine @Yields.read _ _ 1 _ .parameters _ (.expect isKind (.current (.next ?_)))
      rw [if_neg (by rw [closes]; nofun)]
      exact .expect closes (.pure _)
  | cons next names inductionHypothesis =>
      obtain ⟨name, rest, rfl, isName, -, spelledRest⟩ := spelled.eq_cons
      obtain ⟨comma, rest, rfl, isComma, -, spelledRest⟩ := spelledRest.eq_cons
      have isKind : name.kind = .identifier :=
        (kind_of_unplaced isName).trans (areNames first List.mem_cons_self)
      have isComma : comma.kind = .comma := kind_of_unplaced isComma
      obtain ⟨values, areSame, ⟨start, others, rfl, isStart⟩, yields⟩ :=
        inductionHypothesis (fun name member => areNames name (List.mem_cons_of_mem _ member))
          spelledRest
      refine ⟨name :: values, by simp [isName, areSame], ⟨name, _, rfl, isKind⟩, ?_⟩
      intro opening close follow closes some
      have all : Yields (2 * (start :: others).length) parameters
          (opening :: name :: comma :: (start :: others ++ close :: follow)) (name :: values)
          (close :: follow) := by
        refine .expect isKind (.current (.next ?_))
        rw [if_pos isComma]
        exact .advance (by simp) (.bind (yields comma close follow closes some) (.pure _))
      exact (@Yields.read _ _ _ _ .parameters _ all).weaken
        (by simp only [List.length_cons]; omega)

/-- Tokens are read as the parameters of a function. -/
def RereadsParameters (tokens values : List Token) : Prop :=
  ∀ opening close follow, close.kind = .rightParen → follow ≠ [] →
    Yields (2 * tokens.length) parameterList (opening :: (tokens ++ close :: follow)) values
      (close :: follow)

theorem rereadsParameters_of_names
    {names : List Token}
    (areNames : ∀ name ∈ names, name.kind = .identifier)
    (spelled : Spelled tokens (Expression.listAll (names.map fun name => [name.unplaced]))) :
    ∃ values, values.map Token.unplaced = names.map Token.unplaced ∧
      RereadsParameters tokens values := by
  cases names with
  | nil =>
      cases spelled.eq_nil
      refine ⟨[], rfl, fun opening close follow closes some => .next ?_⟩
      rw [if_pos closes]
      exact .advance (by simp) (.pure _)
  | cons first names =>
      obtain ⟨values, areSame, ⟨start, others, rfl, isStart⟩, yields⟩ :=
        parameters_yields areNames spelled
      refine ⟨values, areSame, fun opening close follow closes some => .next ?_⟩
      rw [if_neg (by rw [isStart]; nofun)]
      exact yields opening close follow closes some

section

variable {brace ending : Token} {name : Option Token} {values : List Token} {body : List Statement}
  (isName : ∀ token ∈ name, token.kind = .identifier)
  (rereadsParameters : RereadsParameters tokens values) (rereadsBlock : RereadsBlock others body)
  (isWord : word.kind = .functionWord) (opens : opening.kind = .leftParen)
  (closes : closing.kind = .rightParen) (isBrace : brace.kind = .leftBrace)
  (ends : ending.kind = .rightBrace)

include isName rereadsParameters rereadsBlock opens closes isBrace ends

theorem functionLiteral_yields (follow : List Token) :
    Yields (4 * (tokens.length + others.length) + 4) functionLiteral
      (word :: (name.toList ++
        opening :: (tokens ++ closing :: brace :: (others ++ ending :: follow))))
      (.mk word name values body) (ending :: follow) := by
  have named : ∃ last, Yields (4 * (tokens.length + others.length) + 4) functionName
      (word :: (name.toList ++
        opening :: (tokens ++ closing :: brace :: (others ++ ending :: follow))))
      name
      (last :: opening :: (tokens ++ closing :: brace :: (others ++ ending :: follow))) := by
    cases name with
    | none =>
        refine ⟨word, .next ?_⟩
        rw [if_neg (by rw [opens]; nofun)]
        exact .pure _
    | some token =>
        refine ⟨token, .next ?_⟩
        rw [if_pos (isName token rfl)]
        exact .advance (by simp) (.pure _)
  obtain ⟨last, named⟩ := named
  refine .current (.bind named (.expect opens (.bind ((rereadsParameters opening closing _ closes
    (by simp)).weaken (by omega)) (.expect isBrace (.bind (.advance (by simp)
      ((rereadsBlock ending follow ends).weaken (by omega))) (.pure _))))))

include isWord

theorem rereads_function :
    Rereads
      (word :: (name.toList ++ opening :: (tokens ++ closing :: brace :: (others ++ [ending]))))
      ending (.function (.mk word name values body)) 13 := by
  refine rereads_of_operand (opensExpression_of_kind isWord rfl nofun) fun follow some => ?_
  have yields := @functionLiteral_yields tokens others word closing opening brace ending name
    values body isName rereadsParameters rereadsBlock opens closes isBrace ends follow
  simp only [List.append_assoc, List.cons_append, List.nil_append]
  refine .current ?_
  simp only [isWord, unaryOperator?, updateOperator?]
  refine .bind (yields.weaken ?_) (.pure _)
  simp only [List.length_append, List.length_cons]
  omega

theorem rereads_functionStatement (isNamed : name.isSome = true) :
    RereadsStatement
      (word :: (name.toList ++ opening :: (tokens ++ closing :: brace :: (others ++ [ending]))))
      ending (.function word (.mk word name values body)) false := by
  refine rereadsStatement_of_script (by rw [isWord]; rfl) fun follower more _ => .current ?_
  have yields := @functionLiteral_yields tokens others word closing opening brace ending name
    values body isName rereadsParameters rereadsBlock opens closes isBrace ends (follower :: more)
  obtain ⟨token, rfl⟩ := Option.isSome_iff_exists.mp isNamed
  simp only [isWord, List.append_assoc, List.cons_append, List.nil_append, Option.toList_some]
    at yields ⊢
  refine .next ?_
  rw [if_pos (isName token rfl)]
  refine .bind (yields.weaken ?_) (.pure _)
  simp only [List.length_append, List.length_cons]
  omega

end

/-! ## Control -/

/-- An expression in parentheses behind a word. -/
theorem condition_yields
    {value : Expression}
    (rereads : Rereads tokens last value limit)
    (within : 1 ≤ limit)
    (opens : opening.kind = .leftParen)
    (closes : closing.kind = .rightParen)
    (follow : List Token) :
    Yields (4 * tokens.length + 2) condition
      (word :: opening :: (tokens ++ closing :: follow)) value (closing :: follow) :=
  .expect opens (.advance (by simp) (.bind (rereads.stops
    (show Precedence.lowest.rank ≤ limit from within) follow (rank_closing closes .lowest))
    (.expect closes (.pure _))))

section

variable {value : Statement}

/-- A statement behind a word or a parenthesis. -/
theorem body_yields
    (rereads : RereadsStatement tokens last value isOpen)
    (previous : Token)
    {follower : Token}
    {more : List Token}
    (notElse : isOpen = true → follower.kind ≠ .elseWord) :
    Yields (4 * tokens.length + 3) body (previous :: (tokens ++ follower :: more)) value
      (last :: follower :: more) := by
  have yields := rereads.reads follower more notElse
  obtain ⟨first, others, rfl, starts⟩ := rereads.starts
  refine .advance (by simp) (.current ?_)
  rw [if_neg]
  · exact yields
  · intro isEnd
    rw [isEnd] at starts
    cases starts

theorem rereads_labeled
    {label : Token} (rereads : RereadsStatement tokens last value isOpen)
    (isName : label.kind = .identifier) (isColon : colon.kind = .colon) :
    RereadsStatement (label :: colon :: tokens) last (.labeled label value) isOpen := by
  refine rereadsStatement_of_script (by rw [isName]; rfl) fun follower more notElse => .current ?_
  simp only [isName]
  refine .next ?_
  rw [if_pos isColon]
  refine .advance (by simp) (.bind ((body_yields rereads colon notElse).weaken ?_) (.pure _))
  simp only [List.length_cons]
  omega

section

variable {lastCondition : Token} {tested : Expression}
  (rereadsCondition : Rereads conditions lastCondition tested limit) (within : 1 ≤ limit)
  (opens : opening.kind = .leftParen) (closes : closing.kind = .rightParen)

include rereadsCondition within opens closes

theorem rereads_while
    (rereads : RereadsStatement tokens last value isOpen) (isWord : word.kind = .whileWord) :
    RereadsStatement (word :: opening :: (conditions ++ closing :: tokens)) last
      (.whileLoop word tested value) isOpen := by
  refine rereadsStatement_of_script (by rw [isWord]; rfl) fun follower more notElse => .current ?_
  simp only [isWord, List.cons_append, List.append_assoc]
  refine .bind ((condition_yields rereadsCondition within opens closes _).weaken ?_)
    (.bind ((body_yields rereads closing notElse).weaken ?_) (.pure _)) <;>
  · simp only [List.length_append, List.length_cons]
    omega

/-- A branch with nothing behind it is open. -/
theorem rereads_branch
    (rereads : RereadsStatement tokens last value isOpen)
    (isWord : word.kind = .ifWord) :
    RereadsStatement (word :: opening :: (conditions ++ closing :: tokens)) last
      (.branch word tested value none) true := by
  refine rereadsStatement_of_script (by rw [isWord]; rfl) fun follower more notElse => .current ?_
  simp only [isWord, List.cons_append, List.append_assoc]
  refine .bind ((condition_yields rereadsCondition within opens closes _).weaken ?_)
    (.bind ((body_yields rereads closing fun _ => notElse rfl).weaken ?_)
      (.bind (.next ?_) (.pure _)))
  · simp only [List.length_append, List.length_cons]
    omega
  · simp only [List.length_append, List.length_cons]
    omega
  · rw [if_neg (notElse rfl)]
    exact .pure _

theorem rereads_else
    {elseWord : Token} {otherwise : Statement} {isOpenToo : Bool}
    (rereads : RereadsStatement tokens last value false)
    (rereadsOther : RereadsStatement others final otherwise isOpenToo)
    (isWord : word.kind = .ifWord) (isElse : elseWord.kind = .elseWord) :
    RereadsStatement (word :: opening :: (conditions ++ closing :: (tokens ++ elseWord :: others)))
      final (.branch word tested value (some otherwise)) isOpenToo := by
  refine rereadsStatement_of_script (by rw [isWord]; rfl) fun follower more notElse => .current ?_
  simp only [isWord, List.cons_append, List.append_assoc]
  refine .bind ((condition_yields rereadsCondition within opens closes _).weaken ?_)
    (.bind ((body_yields rereads closing nofun).weaken ?_) (.bind (.next ?_) (.pure _)))
  · simp only [List.length_append, List.length_cons]
    omega
  · simp only [List.length_append, List.length_cons]
    omega
  · rw [if_pos isElse]
    refine .advance (by simp)
      (.bind ((body_yields rereadsOther elseWord notElse).weaken ?_) (.pure _))
    simp only [List.length_append, List.length_cons]
    omega

end

/-! ## Loops -/

/-- Tokens are read as an expression that may be missing, up to a token of a kind. -/
def RereadsOption (closing : TokenKind) (tokens : List Token) (value : Option Expression) : Prop :=
  ∀ previous close follow, close.kind = closing →
    ∃ last, Yields (4 * tokens.length + 2) (expressionUnless closing)
      (previous :: (tokens ++ close :: follow)) value (last :: close :: follow)

theorem rereadsOption_none (closing : TokenKind) : RereadsOption closing [] none := by
  refine fun previous close follow closes => ⟨previous, .next ?_⟩
  rw [if_pos closes]
  exact .pure _

theorem rereadsOption_some
    {closing : TokenKind} {value : Expression}
    (closes : closing = .semicolon ∨ closing = .rightParen)
    (rereads : Rereads tokens last value limit) (within : 1 ≤ limit) :
    RereadsOption closing tokens (some value) := by
  intro previous close follow isClose
  have looser : (Precedence.ofKind close.kind).rank ≤ Precedence.lowest.rank := by
    rw [isClose]
    rcases closes with rfl | rfl <;> decide
  have yields := rereads.stops (show Precedence.lowest.rank ≤ limit from within) follow looser
  obtain ⟨first, others, rfl, opens, -⟩ := rereads.starts
  have goesOn : first.kind ≠ closing := by
    rintro isClosing
    rw [isClosing] at opens
    rcases closes with rfl | rfl <;> cases opens
  refine ⟨last, .next ?_⟩
  rw [if_neg goesOn]
  exact .advance (by simp) (.bind yields (.pure _))

section

variable {updates : List Token} {tested update : Option Expression}
  (rereadsCondition : RereadsOption .semicolon conditions tested)
  (rereadsUpdate : RereadsOption .rightParen updates update)
  (rereads : RereadsStatement tokens last value isOpen) (separates : semicolon.kind = .semicolon)
  (closes : closing.kind = .rightParen)

include rereadsCondition rereadsUpdate rereads separates closes

/-- A loop from the first semicolon in its head on. -/
theorem forRest_yields
    (start : Option Statement)
    (first : Token)
    {follower : Token}
    {more : List Token}
    (notElse : isOpen = true → follower.kind ≠ .elseWord) :
    Yields (4 * (conditions.length + updates.length + tokens.length) + 3) (forRest word start)
      (first :: (conditions ++ semicolon :: (updates ++ closing :: (tokens ++ follower :: more))))
      (.forLoop word start tested update value) (last :: follower :: more) := by
  obtain ⟨_, yieldsCondition⟩ := rereadsCondition first semicolon
    (updates ++ closing :: (tokens ++ follower :: more)) separates
  obtain ⟨_, yieldsUpdate⟩ := rereadsUpdate semicolon closing (tokens ++ follower :: more) closes
  exact .bind (yieldsCondition.weaken (by omega)) (.expect separates
    (.bind (yieldsUpdate.weaken (by omega)) (.expect closes
      (.bind ((body_yields rereads closing notElse).weaken (by omega)) (.pure _)))))

variable (isWord : word.kind = .forWord) (opens : opening.kind = .leftParen)
  (ends : first.kind = .semicolon)

include isWord opens ends

theorem rereads_for :
    RereadsStatement
      (word :: opening :: first ::
        (conditions ++ semicolon :: (updates ++ closing :: tokens))) last
      (.forLoop word none tested update value) isOpen := by
  refine rereadsStatement_of_script (by rw [isWord]; rfl) fun follower more notElse => .current ?_
  simp only [isWord, List.cons_append, List.append_assoc]
  refine .expect opens (.next ?_)
  rw [if_pos ends]
  refine .advance (by simp) ((forRest_yields rereadsCondition rereadsUpdate rereads separates closes
    none first notElse).weaken ?_)
  simp only [List.length_append, List.length_cons]
  omega

theorem rereads_forDeclared
    {var : Token} {parts : List Token} {values : List Declarator}
    (isVar : var.kind = .varWord) (rereadsParts : RereadsDeclarators parts final values) :
    RereadsStatement
      (word :: opening :: var :: (parts ++ first ::
        (conditions ++ semicolon :: (updates ++ closing :: tokens)))) last
      (.forLoop word (some (.declare var values)) tested update value) isOpen := by
  refine rereadsStatement_of_script (by rw [isWord]; rfl) fun follower more notElse => .current ?_
  have yieldsParts := rereadsParts.reads first
    (conditions ++ semicolon :: (updates ++ closing :: (tokens ++ follower :: more))) ends
  obtain ⟨name, others, rfl, isName, notIn⟩ := rereadsParts.starts
  simp only [isWord, List.cons_append, List.append_assoc]
  refine .expect opens (.next ?_)
  rw [if_neg (by rw [isVar]; nofun), if_pos isVar]
  refine .advance (by simp) (.current (.expect isName ?_))
  -- Behind the first variable stands no `in`, so the loop goes through no keys.
  obtain ⟨second, behind, isBehind, notIn⟩ : ∃ second behind, others ++ first ::
      (conditions ++ semicolon :: (updates ++ closing :: (tokens ++ follower :: more))) =
        second :: behind ∧ second.kind ≠ .inWord := by
    cases others with
    | nil => exact ⟨first, _, rfl, by rw [ends]; nofun⟩
    | cons second behind => exact ⟨second, _, rfl, notIn second rfl⟩
  rw [List.cons_append, isBehind] at yieldsParts
  rw [isBehind]
  refine .next ?_
  rw [if_neg notIn]
  refine .bind (yieldsParts.weaken ?_) (.expect ends ((forRest_yields rereadsCondition
    rereadsUpdate rereads separates closes (some (.declare var values)) first notElse).weaken
    ?_)) <;>
  · simp only [List.length_append, List.length_cons]
    omega

theorem rereads_forEvaluated
    {parts : List Token} {initial : Expression}
    (rereadsInitial : Rereads parts final initial limit) (within : 1 ≤ limit) :
    ∃ start, RereadsStatement
      (word :: opening :: (parts ++ first ::
        (conditions ++ semicolon :: (updates ++ closing :: tokens)))) last
      (.forLoop word (some (.expression start initial)) tested update value) isOpen := by
  have looser : (Precedence.ofKind first.kind).rank ≤ Precedence.lowest.rank :=
    rank_le_of_lowest (by rw [ends]; rfl) _
  obtain ⟨start, others, rfl, opensStart, isOther⟩ := rereadsInitial.starts
  refine ⟨start, rereadsStatement_of_script (by rw [isWord]; rfl)
    fun follower more notElse => .current ?_⟩
  simp only [isWord, List.cons_append, List.append_assoc]
  have evaluates : Yields
      (4 * (opening :: start :: (others ++ first ::
        (conditions ++ semicolon :: (updates ++ closing :: tokens)))).length + 6)
      (forEvaluated word start)
      (start :: (others ++ first ::
        (conditions ++ semicolon :: (updates ++ closing :: (tokens ++ follower :: more)))))
      (.forLoop word (some (.expression start initial)) tested update value)
      (last :: follower :: more) := by
    refine .bind ((rereadsInitial.stops (show Precedence.lowest.rank ≤ limit from within) _
      looser).weaken ?_) (.expect ends ((forRest_yields rereadsCondition rereadsUpdate rereads
      separates closes (some (.expression start initial)) first notElse).weaken ?_)) <;>
    · simp only [List.length_append, List.length_cons]
      omega
  have goesOn : start.kind ≠ .semicolon ∧ start.kind ≠ .varWord := by
    constructor <;> intro isOther <;> rw [isOther] at opensStart <;> cases opensStart
  refine .expect opens (.next ?_)
  rw [if_neg goesOn.1, if_neg goesOn.2]
  refine .advance (by simp) (.current ?_)
  by_cases isName : start.kind = .identifier
  · rw [if_pos isName]
    -- Behind the name stands no `in`, so the loop goes through no keys.
    obtain ⟨second, behind, isBehind, notIn⟩ : ∃ second behind, others ++ first ::
        (conditions ++ semicolon :: (updates ++ closing :: (tokens ++ follower :: more))) =
          second :: behind ∧ second.kind ≠ .inWord := by
      cases others with
      | nil => exact ⟨first, _, rfl, by rw [ends]; nofun⟩
      | cons second behind => exact ⟨second, _, rfl, (isOther isName second rfl).2⟩
    rw [isBehind] at evaluates ⊢
    refine .next ?_
    rw [if_neg notIn]
    exact evaluates
  · rw [if_neg isName]
    exact evaluates

end

section

variable {name inWord lastSubject : Token} {subjects : List Token} {subject : Expression}
  (rereadsSubject : Rereads subjects lastSubject subject limit) (within : 1 ≤ limit)
  (rereads : RereadsStatement tokens last value isOpen) (isWord : word.kind = .forWord)
  (opens : opening.kind = .leftParen) (isName : name.kind = .identifier)
  (isIn : inWord.kind = .inWord) (closes : closing.kind = .rightParen)

include rereadsSubject within rereads closes

/-- A loop over keys from its variable on. -/
theorem forInRest_yields
    (declares : Bool)
    {follower : Token}
    {more : List Token}
    (notElse : isOpen = true → follower.kind ≠ .elseWord) :
    Yields (4 * (subjects.length + tokens.length) + 3) (forInRest word declares)
      (name :: inWord :: (subjects ++ closing :: (tokens ++ follower :: more)))
      (.forIn word name declares subject value) (last :: follower :: more) := by
  have looser : (Precedence.ofKind closing.kind).rank ≤ Precedence.lowest.rank :=
    rank_closing closes _
  exact .current (.advance (by simp) (.advance (by simp) (.bind ((rereadsSubject.stops
    (show Precedence.lowest.rank ≤ limit from within) _ looser).weaken (by omega))
    (.expect closes (.bind ((body_yields rereads closing notElse).weaken (by omega)) (.pure _))))))

include isWord opens isName isIn

theorem rereads_forIn :
    RereadsStatement (word :: opening :: name :: inWord :: (subjects ++ closing :: tokens)) last
      (.forIn word name false subject value) isOpen := by
  refine rereadsStatement_of_script (by rw [isWord]; rfl) fun follower more notElse => .current ?_
  simp only [isWord, List.cons_append, List.append_assoc]
  refine .expect opens (.next ?_)
  rw [if_neg (by rw [isName]; nofun), if_neg (by rw [isName]; nofun)]
  refine .advance (by simp) (.current ?_)
  rw [if_pos isName]
  refine .next ?_
  rw [if_pos isIn]
  refine (forInRest_yields rereadsSubject within rereads closes false notElse).weaken ?_
  simp only [List.length_append, List.length_cons]
  omega

theorem rereads_forIn_declared {var : Token} (isVar : var.kind = .varWord) :
    RereadsStatement (word :: opening :: var :: name :: inWord :: (subjects ++ closing :: tokens))
      last (.forIn word name true subject value) isOpen := by
  refine rereadsStatement_of_script (by rw [isWord]; rfl) fun follower more notElse => .current ?_
  simp only [isWord, List.cons_append, List.append_assoc]
  refine .expect opens (.next ?_)
  rw [if_neg (by rw [isVar]; nofun), if_pos isVar]
  refine .advance (by simp) (.current (.expect isName (.next ?_)))
  rw [if_pos isIn]
  refine (forInRest_yields rereadsSubject within rereads closes true notElse).weaken ?_
  simp only [List.length_append, List.length_cons]
  omega

end

end

/-! ## Statements that follow each other -/

/-- A reader of statements that stops at tokens of some kinds. -/
structure ReadsBodies (task : Task (List Statement)) (stops : TokenKind → Bool) : Prop where
  notElse : stops .elseWord = false
  ends : ∀ close follow, stops close.kind = true →
    Yields 0 task.script (close :: follow) [] (close :: follow)
  goesOn : ∀ least first others values stop, startsStatement first.kind = true →
    Yields least
      (read .statement >>= fun value => advance >>= fun _ => read task >>= fun rest =>
        pure (value :: rest))
      (first :: others) values stop →
    Yields least task.script (first :: others) values stop

/-- Tokens are read as statements by a reader, up to a token that it stops at. -/
structure RereadsBody
    (task : Task (List Statement))
    (stops : TokenKind → Bool)
    (tokens : List Token)
    (values : List Statement) : Prop where
  starts : ∀ first ∈ tokens.head?, startsStatement first.kind = true
  reads : ∀ close follow, stops close.kind = true →
    Yields (4 * tokens.length + 4) (read task) (tokens ++ close :: follow) values (close :: follow)

/-- Whether a token of a kind ends a clause. -/
def endsClause : TokenKind → Bool
  | .caseWord | .defaultWord | .rightBrace => true
  | _ => false

theorem readsBodies_block : ReadsBodies .block (· == .rightBrace) := by
  refine ⟨rfl, fun close follow ends => .current ?_,
    fun least first others values stop starts yields => .current ?_⟩
  · rw [if_pos (beq_iff_eq.mp ends)]
    exact .pure _
  · have goesOn : first.kind ≠ .rightBrace ∧ first.kind ≠ .endOfInput := by
      constructor <;> intro isOther <;> rw [isOther] at starts <;> cases starts
    rw [if_neg goesOn.1, if_neg goesOn.2]
    exact yields

theorem readsBodies_clauseBody : ReadsBodies .clauseBody endsClause := by
  refine ⟨rfl, fun close follow ends => .current ?_,
    fun least first others values stop starts yields => .current ?_⟩
  · revert ends
    cases close.kind <;> intro ends <;> first | exact .pure _ | cases ends
  · revert starts
    cases first.kind <;> intro starts <;> first | exact yields | cases starts

section

variable {task : Task (List Statement)} {stops : TokenKind → Bool}
  (readsBodies : ReadsBodies task stops)

include readsBodies

theorem rereadsBody_nil : RereadsBody task stops [] [] := by
  refine ⟨by simp, fun close follow ends => ?_⟩
  exact (readsBodies.ends close follow ends).read.weaken (by simp)

theorem rereadsBody_cons
    {value : Statement} {values : List Statement}
    (rereads : RereadsStatement tokens last value isOpen)
    (rereadsRest : RereadsBody task stops others values) :
    RereadsBody task stops (tokens ++ others) (value :: values) := by
  obtain ⟨first, rest, rfl, starts⟩ := rereads.starts
  refine ⟨?_, fun close follow ends => ?_⟩
  · rintro _ ⟨⟩
    exact starts
  -- What comes next is another statement or the end, and neither starts with `else`.
  obtain ⟨follower, more, isBehind, notElse⟩ : ∃ follower more,
      others ++ close :: follow = follower :: more ∧ follower.kind ≠ .elseWord := by
    cases others with
    | nil =>
        refine ⟨close, follow, rfl, fun isElse => ?_⟩
        rw [isElse, readsBodies.notElse] at ends
        cases ends
    | cons next others =>
        refine ⟨next, _, rfl, fun isElse => ?_⟩
        have startsNext := rereadsRest.starts next rfl
        rw [isElse] at startsNext
        cases startsNext
  have yields := rereads.reads follower more fun _ => notElse
  have yieldsRest := rereadsRest.reads close follow ends
  rw [List.append_assoc, isBehind]
  rw [isBehind] at yieldsRest
  have all : Yields (4 * (first :: rest ++ others).length + 3) task.script
      (first :: (rest ++ follower :: more)) (value :: values) (close :: follow) := by
    refine readsBodies.goesOn _ _ _ _ _ starts (.bind (yields.weaken ?_) (.advance (by simp)
      (.bind (yieldsRest.weaken ?_) (.pure _)))) <;>
    · simp only [List.length_append, List.length_cons]
      omega
  exact all.read

end

theorem RereadsBody.block
    {values : List Statement}
    (rereads : RereadsBody .block (· == .rightBrace) tokens values) :
    RereadsBlock tokens values :=
  fun close follow closes => rereads.reads close follow (beq_iff_eq.mpr closes)

/-! ## Clauses -/

/-- Tokens are read as clauses, of which a default clause may have gone before, up to a brace. -/
structure RereadsClauses
    (hasDefault : Bool)
    (tokens : List Token)
    (values : List Clause) : Prop where
  starts : ∀ first ∈ tokens.head?, endsClause first.kind = true
  reads : ∀ close follow, close.kind = .rightBrace →
    Yields (4 * tokens.length + 4) (read (.clauses hasDefault)) (tokens ++ close :: follow) values
      (close :: follow)

theorem rereadsClauses_nil (hasDefault : Bool) : RereadsClauses hasDefault [] [] := by
  refine ⟨by simp, fun close follow closes => ?_⟩
  have yields : Yields 0 (clauses hasDefault) (close :: follow) [] (close :: follow) := by
    refine .current ?_
    simp only [closes]
    exact .pure _
  exact (@Yields.read _ _ _ _ (.clauses hasDefault) _ yields).weaken (by simp)

section

variable {hasDefault : Bool} {body : List Statement} {values : List Clause}
  (rereads : RereadsBody .clauseBody endsClause tokens body)
  (rereadsRest : RereadsClauses hasDefault others values) (isColon : colon.kind = .colon)

include rereads rereadsRest isColon

/-- A clause from its colon on, and the clauses behind it. -/
theorem clause_yields
    (tested : Option Expression)
    (previous : Token)
    {close : Token}
    {follow : List Token}
    (closes : close.kind = .rightBrace) :
    Yields (4 * (tokens.length + others.length) + 4)
      (expect .colon >>= fun _ => advance >>= fun _ => read .clauseBody >>= fun body =>
        read (.clauses hasDefault) >>= fun rest => pure (Clause.mk word tested body :: rest))
      (previous :: colon :: (tokens ++ (others ++ close :: follow)))
      (.mk word tested body :: values) (close :: follow) := by
  obtain ⟨follower, more, isBehind, ends⟩ : ∃ follower more,
      others ++ close :: follow = follower :: more ∧ endsClause follower.kind = true := by
    cases others with
    | nil => exact ⟨close, follow, rfl, by rw [closes]; rfl⟩
    | cons next others => exact ⟨next, _, rfl, rereadsRest.starts next rfl⟩
  have yieldsRest := rereadsRest.reads close follow closes
  rw [isBehind] at yieldsRest ⊢
  exact .expect isColon (.advance (by simp) (.bind ((rereads.reads follower more ends).weaken
    (by omega)) (.bind (yieldsRest.weaken (by omega)) (.pure _))))

theorem rereadsClauses_case
    {tested : Expression}
    (rereadsCondition : Rereads conditions last tested limit) (within : 1 ≤ limit)
    (isWord : word.kind = .caseWord) :
    RereadsClauses hasDefault (word :: (conditions ++ colon :: (tokens ++ others)))
      (.mk word (some tested) body :: values) := by
  refine ⟨?_, fun close follow closes => ?_⟩
  · rintro _ ⟨⟩
    rw [isWord]
    rfl
  have looser : (Precedence.ofKind colon.kind).rank ≤ Precedence.lowest.rank :=
    rank_le_of_lowest (by rw [isColon]; rfl) _
  have all : Yields (4 * (word :: (conditions ++ colon :: (tokens ++ others))).length + 3)
      (clauses hasDefault)
      (word :: (conditions ++ colon :: (tokens ++ (others ++ close :: follow))))
      (.mk word (some tested) body :: values) (close :: follow) := by
    refine .current ?_
    simp only [isWord]
    refine .advance (by simp) (.bind ((rereadsCondition.stops
      (show Precedence.lowest.rank ≤ limit from within) _ looser).weaken ?_)
      ((clause_yields rereads rereadsRest isColon (some tested) last closes).weaken ?_)) <;>
    · simp only [List.length_append, List.length_cons]
      omega
  simp only [List.cons_append, List.append_assoc]
  exact @Yields.read _ _ _ _ (.clauses hasDefault) _ all

end

theorem rereadsClauses_default
    {body : List Statement} {values : List Clause}
    (rereads : RereadsBody .clauseBody endsClause tokens body)
    (rereadsRest : RereadsClauses true others values) (isColon : colon.kind = .colon)
    (isWord : word.kind = .defaultWord) :
    RereadsClauses false (word :: colon :: (tokens ++ others)) (.mk word none body :: values) := by
  refine ⟨?_, fun close follow closes => ?_⟩
  · rintro _ ⟨⟩
    rw [isWord]
    rfl
  have all : Yields (4 * (word :: colon :: (tokens ++ others)).length + 3) (clauses false)
      (word :: colon :: (tokens ++ (others ++ close :: follow))) (.mk word none body :: values)
      (close :: follow) := by
    refine .current ?_
    simp only [isWord]
    refine (clause_yields rereads rereadsRest isColon none word closes).weaken ?_
    simp only [List.length_append, List.length_cons]
    omega
  simp only [List.cons_append, List.append_assoc]
  exact @Yields.read _ _ _ _ (.clauses false) _ all

theorem rereads_select
    {brace ending : Token}
    {subject : Expression} {values : List Clause}
    (rereadsSubject : Rereads conditions last subject limit) (within : 1 ≤ limit)
    (rereads : RereadsClauses false tokens values) (isWord : word.kind = .switchWord)
    (opens : opening.kind = .leftParen) (closes : closing.kind = .rightParen)
    (isBrace : brace.kind = .leftBrace) (ends : ending.kind = .rightBrace) :
    RereadsStatement
      (word :: opening :: (conditions ++ closing :: brace :: (tokens ++ [ending]))) ending
      (.select word subject values) false := by
  refine rereadsStatement_of_script (by rw [isWord]; rfl) fun follower more _ => .current ?_
  simp only [isWord, List.cons_append, List.append_assoc]
  refine .bind ((condition_yields rereadsSubject within opens closes _).weaken ?_)
    (.expect isBrace (.advance (by simp) (.bind ((rereads.reads ending _ ends).weaken ?_)
      (.pure _)))) <;>
  · simp only [List.length_append, List.length_cons]
    omega

end Parser

end ScriptEngine
