import ScriptEngine.Proofs.Program.Appending
import ScriptEngine.Proofs.Program.Rereading

namespace ScriptEngine

/-!
# Operators bind by their precedence and to the left

Names with operators between them are read as the one tree that keeps their order, binds
tighter operators first and binds operators of one precedence from the left.
-/

variable {operator : InfixOperator} {name : Token} {tokens : List Token} {first : String}
  {links : List (InfixOperator × String)}

/-- How tightly an operator between two operands binds. -/
def InfixOperator.precedence (operator : InfixOperator) : Precedence :=
  Precedence.ofKind operator.mark.kind

theorem InfixOperator.precedence_of_ofKind?
    {kind : TokenKind}
    (isOperator : InfixOperator.ofKind? kind = some operator) :
    Precedence.ofKind kind = operator.precedence := by
  cases kind <;> cases isOperator <;> rfl

namespace Expression

/-- The operator of a node with two operands. -/
def operator? : Expression → Option InfixOperator
  | .binary _ operator _ _ => some operator
  | _ => none

/-- The trees that are made of names and of operators between them. -/
inductive OfNames : Expression → Prop where
  | name {token : Token} : token.kind = .identifier → OfNames (.name token)
  | binary {token : Token} {operator : InfixOperator} {left right : Expression} :
      InfixOperator.ofKind? token.kind = some operator →
      OfNames left → OfNames right → OfNames (.binary token operator left right)

/-- The names and the operators of a tree from left to right. -/
def inOrder : Expression → List Token
  | .name token => [token]
  | .binary token _ left right => left.inOrder ++ token :: right.inOrder
  | _ => []

/--
Every operator binds at most as tightly as one at the root of its left operand, and looser
than one at the root of its right operand.
-/
def LeftAssociative : Expression → Prop
  | .binary _ operator left right =>
      (∀ inner ∈ left.operator?, operator.precedence.rank ≤ inner.precedence.rank) ∧
        (∀ inner ∈ right.operator?, operator.precedence.rank < inner.precedence.rank) ∧
        left.LeftAssociative ∧ right.LeftAssociative
  | _ => True

/-! ## One tree for each order of tokens -/

section

variable {tree other : Expression}

theorem inOrder_ne_nil (ofNames : tree.OfNames) : tree.inOrder ≠ [] := by
  cases ofNames with
  | name => exact List.cons_ne_nil _ _
  | binary => exact List.append_ne_nil_of_right_ne_nil _ (List.cons_ne_nil _ _)

/-- The operators of a tree bind at least as tightly as the one at its root. -/
theorem rank_le_of_mem_inOrder
    {token : Token}
    (ofNames : tree.OfNames)
    (leftAssociative : tree.LeftAssociative)
    (member : token ∈ tree.inOrder)
    (isOperator : InfixOperator.ofKind? token.kind = some operator) :
    ∃ root ∈ tree.operator?, root.precedence.rank ≤ operator.precedence.rank := by
  induction ofNames with
  | @name name isName =>
      rw [List.mem_singleton.mp member, isName] at isOperator
      cases isOperator
  | @binary mark root left right isRoot _ _ leftHypothesis rightHypothesis =>
      obtain ⟨looserLeft, looserRight, leftOrdered, rightOrdered⟩ := leftAssociative
      refine ⟨root, rfl, ?_⟩
      rcases List.mem_append.mp member with inLeft | isMarkOrInRight
      · obtain ⟨inner, isInner, looser⟩ := leftHypothesis leftOrdered inLeft
        exact Nat.le_trans (looserLeft inner isInner) looser
      · rcases List.mem_cons.mp isMarkOrInRight with rfl | inRight
        · rw [isRoot] at isOperator
          cases isOperator
          exact Nat.le_refl _
        · obtain ⟨inner, isInner, looser⟩ := rightHypothesis rightOrdered inRight
          exact Nat.le_trans (Nat.le_of_lt (looserRight inner isInner)) looser

/-- Two trees with the same order split it at the same place, for else their roots would cross. -/
theorem length_inOrder_left_le
    {mark otherMark : Token}
    {otherOperator : InfixOperator}
    {left right otherLeft otherRight : Expression}
    (ofNames : OfNames (.binary mark operator left right))
    (ordered : LeftAssociative (.binary mark operator left right))
    (otherOfNames : OfNames (.binary otherMark otherOperator otherLeft otherRight))
    (otherOrdered : LeftAssociative (.binary otherMark otherOperator otherLeft otherRight))
    (same : left.inOrder ++ mark :: right.inOrder =
      otherLeft.inOrder ++ otherMark :: otherRight.inOrder) :
    otherLeft.inOrder.length ≤ left.inOrder.length := by
  refine Nat.le_of_not_lt fun shorter => ?_
  obtain ⟨between, isOtherLeft, isRight⟩ | ⟨between, isLeft, -⟩ := List.append_eq_append_iff.mp same
  · cases between with
    | nil =>
        rw [List.append_nil] at isOtherLeft
        rw [isOtherLeft] at shorter
        exact Nat.lt_irrefl _ shorter
    | cons first between =>
        obtain ⟨rfl, isBehind⟩ := List.cons.inj isRight
        have inRight : otherMark ∈ right.inOrder := by
          rw [isBehind]
          exact List.mem_append_right between List.mem_cons_self
        have inLeft : mark ∈ otherLeft.inOrder := by
          rw [isOtherLeft]
          exact List.mem_append_right left.inOrder List.mem_cons_self
        cases ofNames with
        | binary isOperator _ rightOfNames =>
            cases otherOfNames with
            | binary isOther leftOfNames _ =>
                obtain ⟨-, looserRight, -, rightOrdered⟩ := ordered
                obtain ⟨looserLeft, -, leftOrdered, -⟩ := otherOrdered
                obtain ⟨rightRoot, isRightRoot, aboveRight⟩ :=
                  rank_le_of_mem_inOrder rightOfNames rightOrdered inRight isOther
                obtain ⟨leftRoot, isLeftRoot, aboveLeft⟩ :=
                  rank_le_of_mem_inOrder leftOfNames leftOrdered inLeft isOperator
                have tighter : operator.precedence.rank < otherOperator.precedence.rank :=
                  Nat.lt_of_lt_of_le (looserRight rightRoot isRightRoot) aboveRight
                have looser : otherOperator.precedence.rank ≤ operator.precedence.rank :=
                  Nat.le_trans (looserLeft leftRoot isLeftRoot) aboveLeft
                exact absurd tighter (Nat.not_lt_of_le looser)
  · rw [isLeft, List.length_append] at shorter
    omega

/-- There is one left-associative tree for each order of names and operators. -/
theorem eq_of_inOrder
    (ofNames : tree.OfNames)
    (leftAssociative : tree.LeftAssociative)
    (otherOfNames : other.OfNames)
    (otherLeftAssociative : other.LeftAssociative)
    (same : tree.inOrder = other.inOrder) :
    tree = other := by
  have short {name mark : Token} {front back : Expression} (some : front.OfNames)
      (isName : [name] = front.inOrder ++ mark :: back.inOrder) : False := by
    have isShort := congrArg List.length isName
    have isLong := List.length_pos_iff.mpr (inOrder_ne_nil some)
    simp only [List.length_append, List.length_cons, List.length_nil] at isShort
    omega
  induction ofNames generalizing other with
  | name isName =>
      cases otherOfNames with
      | name =>
          rw [inOrder, inOrder] at same
          rw [List.head_eq_of_cons_eq same]
      | binary _ leftOfNames _ => exact (short leftOfNames same).elim
  | binary isOperator leftOfNames rightOfNames leftHypothesis rightHypothesis =>
      cases otherOfNames with
      | name => exact (short leftOfNames same.symm).elim
      | binary isOther otherLeftOfNames otherRightOfNames =>
          have ofNames := OfNames.binary isOperator leftOfNames rightOfNames
          have otherOfNames := OfNames.binary isOther otherLeftOfNames otherRightOfNames
          have sameLength := Nat.le_antisymm
            (length_inOrder_left_le otherOfNames otherLeftAssociative ofNames leftAssociative
              same.symm)
            (length_inOrder_left_le ofNames leftAssociative otherOfNames otherLeftAssociative same)
          obtain ⟨-, -, leftOrdered, rightOrdered⟩ := leftAssociative
          obtain ⟨-, -, otherLeftOrdered, otherRightOrdered⟩ := otherLeftAssociative
          obtain ⟨sameLeft, sameMarkAndRight⟩ := List.append_inj same sameLength
          obtain ⟨rfl, sameRight⟩ := List.cons.inj sameMarkAndRight
          rw [isOperator] at isOther
          cases isOther
          rw [leftHypothesis leftOrdered otherLeftOfNames otherLeftOrdered sameLeft,
            rightHypothesis rightOrdered otherRightOfNames otherRightOrdered sameRight]

end

end Expression

namespace Parser

open Script (current next advance read)
open Expression (OfNames)

/-! ## Climbing -/

/-- Tokens that are operators, each with a name behind it on the same line. -/
inductive Linked : List Token → Prop where
  | nil : Linked []
  | cons {mark name : Token} {operator : InfixOperator} {rest : List Token} :
      InfixOperator.ofKind? mark.kind = some operator →
      mark.newlineBefore = false →
      name.kind = .identifier →
      Linked rest →
      Linked (mark :: name :: rest)

/-- A left-associative tree of some tokens, whose operators bind tighter than a bound. -/
structure Climbed (bound : Precedence) (tokens : List Token) (tree : Expression) : Prop where
  ofNames : tree.OfNames
  leftAssociative : tree.LeftAssociative
  inOrder : tree.inOrder = tokens
  tighter : ∀ operator ∈ tree.operator?, bound.rank < operator.precedence.rank

/-- What operators are read from linked tokens behind a tree. -/
structure Climbs
    (bound : Precedence)
    (left : Expression)
    (last : Token)
    (tokens follow : List Token) : Prop where
  climbs : ∃ taken rest tree final,
    tokens = taken ++ rest ∧
      Linked rest ∧
      (∀ mark ∈ rest.head?, (Precedence.ofKind mark.kind).rank ≤ bound.rank) ∧
      Climbed bound (left.inOrder ++ taken) tree ∧
      Yields (taken.length + 1) (read (.operators bound left)) (last :: (tokens ++ follow)) tree
        (final :: (rest ++ follow))

theorem startsClimb (bound : Precedence) (isName : name.kind = .identifier) :
    Climbed bound (Expression.name name).inOrder (.name name) :=
  ⟨.name isName, trivial, rfl, fun _ isNone => nomatch isNone⟩

theorem yields_name
    {bound : Precedence}
    {least : Nat}
    {stop : List Token}
    {result : Expression}
    (isName : name.kind = .identifier)
    (goesOn : Yields least (read (.operators bound (.name name))) (name :: tokens) result stop) :
    Yields (least + 1) (read (.expression bound)) (name :: tokens) result stop := by
  refine @Yields.read _ _ _ _ (.expression bound) _ (.bind (.current ?_) goesOn)
  simp only [isName, unaryOperator?, updateOperator?]
  exact .pure _

/-- Operators behind a tree make it a larger one, as far as they bind tighter than a bound. -/
theorem climbs_of_climbed
    {bound : Precedence}
    {left : Expression}
    {tokens : List Token}
    {follower : Token}
    (last : Token)
    (linked : Linked tokens)
    (climbed : Climbed bound left.inOrder left)
    (looserFirst : ∀ mark ∈ tokens.head?, ∀ operator ∈ left.operator?,
      (Precedence.ofKind mark.kind).rank ≤ operator.precedence.rank)
    (isLowest : Precedence.ofKind follower.kind = .lowest)
    (more : List Token) :
    Climbs bound left last tokens (follower :: more) := by
  have stops
      (looser : ∀ mark ∈ tokens.head?, (Precedence.ofKind mark.kind).rank ≤ bound.rank) :
      Climbs bound left last tokens (follower :: more) := by
    refine ⟨[], tokens, left, last, rfl, linked, looser, ?_, ?_⟩
    · rwa [List.append_nil]
    · cases tokens with
      | nil => exact operators_stop left more (rank_le_of_lowest isLowest bound)
      | cons mark rest => exact operators_stop left (rest ++ follower :: more) (looser mark rfl)
  cases linked with
  | nil => exact stops fun _ isNone => nomatch isNone
  | @cons mark name operator rest isOperator sameLine isName linkedRest =>
      by_cases looser : (Precedence.ofKind mark.kind).rank ≤ bound.rank
      · refine stops fun found isFound => ?_
        cases isFound
        exact looser
      -- The operand on the right takes the operators that bind tighter than this one.
      have isRank := InfixOperator.precedence_of_ofKind? isOperator
      obtain ⟨taken, middle, right, stop, rfl, linkedMiddle, looserMiddle, climbedRight,
        yieldsRight⟩ :=
        (climbs_of_climbed name linkedRest (startsClimb (Precedence.ofKind mark.kind) isName)
          (fun _ _ _ isNone => nomatch isNone) isLowest more).climbs
      have climbedBoth : Climbed bound (left.inOrder ++ mark :: name :: taken)
          (.binary mark operator left right) := by
        refine ⟨.binary isOperator climbed.ofNames climbedRight.ofNames, ⟨?_, ?_,
          climbed.leftAssociative, climbedRight.leftAssociative⟩, ?_, ?_⟩
        · intro inner isInner
          rw [← isRank]
          exact looserFirst mark rfl inner isInner
        · intro inner isInner
          rw [← isRank]
          exact climbedRight.tighter inner isInner
        · rw [Expression.inOrder, climbedRight.inOrder]
          rfl
        · intro root isRoot
          cases isRoot
          rw [← isRank]
          exact Nat.lt_of_not_le looser
      -- The operators behind it bind at most as tightly, so this one is on their left.
      have looserNext : ∀ next ∈ middle.head?,
          ∀ root ∈ (Expression.binary mark operator left right).operator?,
            (Precedence.ofKind next.kind).rank ≤ root.precedence.rank := by
        intro next isNext root isRoot
        cases isRoot
        rw [← isRank]
        exact looserMiddle next isNext
      obtain ⟨later, rest, tree, final, rfl, linkedLast, looserLast, climbedTree, yieldsTree⟩ :=
        (climbs_of_climbed stop linkedMiddle (climbedBoth.inOrder ▸ climbedBoth) looserNext isLowest
          more).climbs
      rw [climbedBoth.inOrder] at climbedTree
      refine ⟨mark :: name :: (taken ++ later), rest, tree, final, ?_, linkedLast, looserLast, ?_,
        ?_⟩
      · simp only [List.cons_append, List.append_assoc]
      · simpa only [List.cons_append, List.append_assoc] using climbedTree
      · have takes : Yields (taken.length + 2) (Parser.operator mark left)
            (mark :: name :: (taken ++ (later ++ rest) ++ follower :: more))
            (.binary mark operator left right) (stop :: (later ++ rest ++ follower :: more)) := by
          unfold Parser.operator
          rw [isOperator]
          exact .advance (List.cons_ne_nil _ _)
            (.bind (yields_name isName yieldsRight) (.pure _))
        have within : taken.length + 2 ≤ (taken ++ later).length + 2 := by
          simp only [List.length_append]
          omega
        refine (operators_take (Nat.lt_of_not_le looser) sameLine (takes.weaken within)
          (yieldsTree.weaken ?_)).weaken ?_
        all_goals simp only [List.length_append, List.length_cons]; omega
termination_by tokens.length

/-- A name with linked tokens behind it is read as a statement up to the end of input. -/
theorem yields_linked
    {last : Token}
    (isName : name.kind = .identifier)
    (linked : Linked tokens)
    (isEnd : last.kind = .endOfInput) :
    ∃ tree final, Climbed .lowest (name :: tokens) tree ∧
      Yields (tokens.length + 3) (read .statement) (name :: (tokens ++ [last]))
        (.expression name tree) [final, last] := by
  have isLowest : Precedence.ofKind last.kind = .lowest := by
    rw [isEnd]
    rfl
  obtain ⟨taken, rest, tree, final, rfl, linkedRest, looser, climbed, yields⟩ :=
    (climbs_of_climbed name linked (startsClimb .lowest isName)
      (fun _ _ _ isNone => nomatch isNone) isLowest []).climbs
  -- Every operator binds tighter than the lowest bound, so none is left.
  cases linkedRest with
  | @cons mark _ operator _ isOperator =>
      have isRank := InfixOperator.precedence_of_ofKind? isOperator
      have tight : Precedence.lowest.rank < operator.precedence.rank := by
        rcases operator with operator | _ | _
        · cases operator <;> decide
        · decide
        · decide
      exact absurd (isRank ▸ looser mark rfl) (Nat.not_le_of_lt tight)
  | nil =>
      rw [List.append_nil] at *
      refine ⟨tree, final, climbed, @Yields.read _ _ _ _ .statement _ (.current ?_)⟩
      have evaluates : Yields (taken.length + 2) expressionStatement (name :: (taken ++ [last]))
          (.expression name tree) [final, last] :=
        .current (.bind (yields_name isName yields) (.bind (endStatement_endOfInput isEnd) (.pure _)))
      simp only [isName]
      -- Behind the name stands no colon, so the name is no label.
      cases linked with
      | nil =>
          refine .next ?_
          rw [if_neg (by rw [isEnd]; nofun)]
          exact evaluates
      | @cons mark _ _ _ isOperator =>
          refine .next ?_
          rw [if_neg (fun isColon => by rw [isColon] at isOperator; cases isOperator)]
          exact evaluates

end Parser

namespace Token

/-! ## Names with operators between them -/

/-- The text of a name with operators and further names behind it, with blanks between. -/
def chain (first : String) : List (InfixOperator × String) → String
  | [] => first
  | (operator, next) :: links => first ++ " " ++ operator.text ++ " " ++ chain next links

/-- The tokens of a name with operators and further names behind it. -/
def chainTokens (first : String) : List (InfixOperator × String) → List Token
  | [] => [.plain .identifier first]
  | (operator, next) :: links => .plain .identifier first :: operator.mark :: chainTokens next links

theorem scans_chain
    (isIdentifier : IsIdentifier first)
    (areIdentifiers : ∀ link ∈ links, IsIdentifier link.2)
    (previous : Option TokenKind) :
    Scans previous (chain first links).toList (chainTokens first links) (some .identifier) [] := by
  induction links generalizing first previous with
  | nil =>
      have scans := @scans_identifier first isIdentifier previous [] nofun
      rwa [List.append_nil] at scans
  | cons link links inductionHypothesis =>
      obtain ⟨isNext, areNext⟩ := List.forall_mem_cons.mp areIdentifiers
      have scansName := @scans_identifier first isIdentifier previous
        (' ' :: (link.1.mark.writing ++ ' ' :: (chain link.2 links).toList))
        (fun char isChar => by cases isChar; rfl)
      have scansMark :=
        @Expression.scans_between link.1 .identifier (fun _ => rfl) (chain link.2 links).toList
      have scansRest := inductionHypothesis isNext areNext (some link.1.mark.kind)
      have all := scansName.trans (scansMark.blank.trans scansRest.blank)
      have isBlank : " ".toList = [' '] := rfl
      simpa only [chain, chainTokens, String.toList_append, isBlank, InfixOperator.toList_text,
        List.append_assoc, List.cons_append, List.nil_append] using all

end Token

namespace Parser

open Token (chain chainTokens)

/-- Tokens that are spelled as a chain are a name with linked tokens behind it. -/
theorem linked_of_spelled
    (spelled : Spelled tokens (chainTokens first links)) :
    ∃ name others, tokens = name :: others ∧ name.kind = .identifier ∧ Linked others := by
  induction links generalizing first tokens with
  | nil =>
      obtain ⟨name, rfl, isName, -⟩ := spelled.eq_singleton
      exact ⟨name, [], rfl, kind_of_unplaced isName, .nil⟩
  | cons link links inductionHypothesis =>
      obtain ⟨name, others, rfl, isName, -, spelledOthers⟩ := spelled.eq_cons
      obtain ⟨mark, rest, rfl, isMark, sameLine, spelledRest⟩ := spelledOthers.eq_cons
      obtain ⟨next, others, rfl, isNext, linked⟩ := inductionHypothesis spelledRest
      have isOperator : InfixOperator.ofKind? mark.kind = some link.1 := by
        rw [kind_of_unplaced isMark]
        rcases link.1 with operator | _ | _
        · cases operator <;> rfl
        · rfl
        · rfl
      exact ⟨name, _, rfl, kind_of_unplaced isName, .cons isOperator sameLine isNext linked⟩

end Parser

/--
A tree of names and operators that stand in an order, the only one in which operators bind
by their precedence and those of one precedence from the left.
-/
structure Expression.IsTreeOf (tokens : List Token) (tree : Expression) : Prop where
  ofNames : tree.OfNames
  inOrder : tree.inOrder.map Token.unplaced = tokens
  leftAssociative : tree.LeftAssociative
  unique : ∀ other : Expression, other.OfNames → other.inOrder = tree.inOrder →
    other.LeftAssociative → other = tree

namespace Program

open Token ScriptEngine.Parser

theorem ofTokens_chain
    (isIdentifier : IsIdentifier first)
    (areIdentifiers : ∀ link ∈ links, IsIdentifier link.2)
    (source : Source)
    (width : Char → Nat) :
    (ofTokens source (scanChars width (chain first links).toList)).failures = [] ∧
      ∃ token tree,
        (ofTokens source (scanChars width (chain first links).toList)).program.statements =
            [.expression token tree] ∧
          tree.IsTreeOf (chainTokens first links) := by
  obtain ⟨tokens, behind, isScan, isSpelling, sameLine⟩ :=
    (scans_chain isIdentifier areIdentifiers none).scans width []
  obtain ⟨last, isLast, isEnd, -⟩ := tokensFrom_nil width (some .identifier) behind
  have isScan : scanChars width (chain first links).toList = tokens ++ [last] := isLast ▸ isScan
  obtain ⟨name, others, rfl, isName, linked⟩ := linked_of_spelled ⟨isSpelling, sameLine⟩
  obtain ⟨tree, final, climbed, yields⟩ := yields_linked isName linked isEnd
  have enough : others.length + 3 ≤ budget (name :: others ++ [last]).length := by
    simp only [budget, List.length_append, List.length_cons]
    omega
  have follows : Follows (budget (name :: others ++ [last]).length)
      (.ofTokens (name :: others ++ [last])) [.expression name tree] (.ofTokens [last]) :=
    follows_cons (by rw [isName]; decide) (List.cons_ne_nil last []) (yields _ enough) (.none _)
  have isParsed := @ofTokens_of_follows source _ _ _ (by simp) follows isEnd
  rw [isScan, isParsed]
  refine ⟨rfl, name, tree, rfl, climbed.ofNames, ?_, climbed.leftAssociative, ?_⟩
  · rw [climbed.inOrder, isSpelling]
  · intro other ofNames same leftAssociative
    exact Expression.eq_of_inOrder ofNames leftAssociative climbed.ofNames climbed.leftAssociative
      same

/--
Names with operators between them are read without errors as one expression statement,
whose tree has the names and operators in their order, binds tighter operators first and
those of one precedence from the left, and is the only one that does.
-/
theorem operators_bind_by_precedence
    (isIdentifier : IsIdentifier first)
    (areIdentifiers : ∀ link ∈ links, IsIdentifier link.2)
    (source : Source) :
    (source.content = chain first links →
      (parse source).errors = [] ∧
        ∃ token tree, (parse source).program.statements = [.expression token tree] ∧
          tree.IsTreeOf (chainTokens first links)) ∧
      ∀ bytes, bytes.map letter = (chain first links).toList →
        (ofTokens source (scanBytes bytes)).failures = [] ∧
          ∃ token tree,
            (ofTokens source (scanBytes bytes)).program.statements = [.expression token tree] ∧
              tree.IsTreeOf (chainTokens first links) := by
  constructor
  · intro isText
    obtain ⟨noFailure, reads⟩ := ofTokens_chain isIdentifier areIdentifiers source Char.utf8Size
    unfold parse
    rw [isText, scan]
    exact ⟨List.map_eq_nil_iff.mpr noFailure, reads⟩
  · intro bytes isText
    rw [scanBytes, isText]
    exact ofTokens_chain isIdentifier areIdentifiers source byteWidth

theorem operators_bind_by_precedence_of_sum :
    IsIdentifier "a" ∧
      chain "a" [(.strict .subtract, "b"), (.strict .multiply, "c"), (.both, "d")] =
        "a - b * c && d" ∧
      (parse (Source.ofRepl "a - b * c && d")).errors = [] ∧
      ∃ token tree,
        (parse (Source.ofRepl "a - b * c && d")).program.statements =
          [.expression token tree] ∧
        tree.IsTreeOf
          (chainTokens "a" [(.strict .subtract, "b"), (.strict .multiply, "c"), (.both, "d")]) := by
  have isIdentifier {name : String} (first : Char) (isFirst : name.toList = [first])
      (starts : isNameStart first = true) (notReserved : TokenKind.isReserved name = false) :
      IsIdentifier name :=
    ⟨notReserved, first, [], isFirst, starts, nofun⟩
  have areIdentifiers : ∀ link ∈ [(InfixOperator.strict .subtract, "b"),
      (.strict .multiply, "c"), (.both, "d")], IsIdentifier link.2 := by
    simp only [List.forall_mem_cons, List.not_mem_nil, false_implies, implies_true, and_true]
    exact ⟨isIdentifier 'b' rfl rfl (by decide),
      isIdentifier 'c' rfl rfl (by decide),
      isIdentifier 'd' rfl rfl (by decide)⟩
  have isFirst : IsIdentifier "a" := isIdentifier 'a' rfl rfl (by decide)
  exact ⟨isFirst, rfl, (operators_bind_by_precedence isFirst areIdentifiers _).1 rfl⟩

end Program

end ScriptEngine
