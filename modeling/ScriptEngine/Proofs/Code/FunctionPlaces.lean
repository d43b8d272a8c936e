import Mathlib.Data.List.Perm.Basic
import ScriptEngine.Code.Lowering

namespace ScriptEngine

/-!
# Functions and their places

The functions of a program are numbered in the order in which their bodies end.  This module
lists them in this order.  It also lists the places of functions from left to right, as they are
written, each with the number of its function; functions inside of a function have their places
in its body.

The two lists belong together.  Each function has one place, at the top or in the body of one
other function, and the functions with a place in the body of a function have smaller numbers.
-/

namespace FunctionLiteral

/-- The names of the parameters. -/
def parameterNames : FunctionLiteral → List String
  | .mk _ _ parameters _ => parameters.map Token.literal

/-- The text of the name, empty for a function without a name. -/
def nameText : FunctionLiteral → String
  | .mk _ name _ _ => (name.map Token.literal).getD ""

/-- The statements of the body. -/
def body : FunctionLiteral → List Statement
  | .mk _ _ _ body => body

end FunctionLiteral

section

variable (assertions : Bool)

mutual

/--
The functions of an expression in the order in which their bodies end.  What a call is given goes
before what is called.  Those in assertions count if there are `assertions`.
-/
def Expression.functions : Expression → List FunctionLiteral
  | .name _ | .number _ _ | .string _ _ | .boolean _ _ | .regex _ _ _ | .this _ => []
  | .function literal => literal.functions
  | .array _ elements => Expression.functionsOf elements
  | .object _ properties => Property.functionsOf properties
  | .unary _ _ operand | .typeof _ operand => operand.functions
  | .delete _ target | .update _ _ _ target => target.functions
  | .binary _ _ left right => left.functions ++ right.functions
  | .assign _ _ target value => target.functions ++ value.functions
  | .conditional _ condition consequence alternative =>
      condition.functions ++ (consequence.functions ++ alternative.functions)
  | .sequence _ first rest => first.functions ++ Expression.functionsOf rest
  | .call _ callee arguments => Expression.functionsOf arguments ++ callee.functions
  | .construct _ constructor arguments => constructor.functions ++ Expression.functionsOf arguments
  | .member _ base _ => base.functions
  | .index _ base key => base.functions ++ key.functions

/-- The functions of expressions. -/
def Expression.functionsOf : List Expression → List FunctionLiteral
  | [] => []
  | first :: rest => first.functions ++ Expression.functionsOf rest

/-- The functions of an expression that may be missing. -/
def Expression.functionsOfOption : Option Expression → List FunctionLiteral
  | none => []
  | some value => value.functions

/-- The functions of properties. -/
def Property.functionsOf : List Property → List FunctionLiteral
  | [] => []
  | .mk _ value :: rest => value.functions ++ Property.functionsOf rest

/-- The functions in the body of a function, and the function behind them. -/
def FunctionLiteral.functions : FunctionLiteral → List FunctionLiteral
  | .mk token name parameters body => Statement.functionsOf body ++ [.mk token name parameters body]

/-- The functions of declared variables. -/
def Declarator.functionsOf : List Declarator → List FunctionLiteral
  | [] => []
  | .mk _ value :: rest => Expression.functionsOfOption value ++ Declarator.functionsOf rest

/-- The functions of clauses. -/
def Clause.functionsOf : List Clause → List FunctionLiteral
  | [] => []
  | .mk _ condition body :: rest =>
      Expression.functionsOfOption condition ++
        (Statement.functionsOf body ++ Clause.functionsOf rest)

/-- The functions of a statement. -/
def Statement.functions : Statement → List FunctionLiteral
  | .declare _ declarators => Declarator.functionsOf declarators
  | .giveBack _ value => Expression.functionsOfOption value
  | .expression _ value =>
      if value.assertion?.isSome && !assertions then [] else value.functions
  | .empty _ | .leave _ _ | .again _ _ => []
  | .block _ body => Statement.functionsOf body
  | .branch _ condition consequence alternative =>
      condition.functions ++ (consequence.functions ++ Statement.functionsOfOption alternative)
  | .whileLoop _ condition body => condition.functions ++ body.functions
  | .forLoop _ start condition update body =>
      Statement.functionsOfOption start ++ (Expression.functionsOfOption condition ++
        (Expression.functionsOfOption update ++ body.functions))
  | .forIn _ _ _ subject body => subject.functions ++ body.functions
  | .labeled _ body => body.functions
  | .select _ subject clauses => subject.functions ++ Clause.functionsOf clauses
  | .function _ literal => literal.functions

/-- The functions of statements. -/
def Statement.functionsOf : List Statement → List FunctionLiteral
  | [] => []
  | first :: rest => first.functions ++ Statement.functionsOf rest

/-- The functions of a statement that may be missing. -/
def Statement.functionsOfOption : Option Statement → List FunctionLiteral
  | none => []
  | some statement => statement.functions

end

/-- The place of a function, which comes behind those in its body, when `start` are finished. -/
def FunctionLiteral.place (literal : FunctionLiteral) (start : Nat) : FunctionLiteral × Nat :=
  (literal, start + (Statement.functionsOf assertions literal.body).length)

variable (again : Bool)

mutual

/--
The places of functions in an expression from left to right, when `start` functions are finished.
What a combined assignment assigns to is both read and written; with `again`, the places in it
are listed for both.
-/
def Expression.places : Expression → Nat → List (FunctionLiteral × Nat)
  | .name _, _ | .number _ _, _ | .string _ _, _ | .boolean _ _, _ | .regex _ _ _, _
  | .this _, _ => []
  | .function literal, start => [literal.place assertions start]
  | .array _ elements, start => Expression.placesOf elements start
  | .object _ properties, start => Property.placesOf properties start
  | .unary _ _ operand, start | .typeof _ operand, start => operand.places start
  | .delete _ target, start | .update _ _ _ target, start => target.places start
  | .binary _ _ left right, start =>
      left.places start ++ right.places (start + (left.functions assertions).length)
  | .assign token _ target value, start =>
      (if again && token.literal != "=" then target.places start else []) ++
        (target.places start ++ value.places (start + (target.functions assertions).length))
  | .conditional _ condition consequence alternative, start =>
      let next := start + (condition.functions assertions).length
      condition.places start ++ (consequence.places next ++
        alternative.places (next + (consequence.functions assertions).length))
  | .sequence _ first rest, start =>
      first.places start ++ Expression.placesOf rest (start + (first.functions assertions).length)
  | .call _ callee arguments, start =>
      callee.places (start + (Expression.functionsOf assertions arguments).length) ++
        Expression.placesOf arguments start
  | .construct _ constructor arguments, start =>
      constructor.places start ++
        Expression.placesOf arguments (start + (constructor.functions assertions).length)
  | .member _ base _, start => base.places start
  | .index _ base key, start =>
      base.places start ++ key.places (start + (base.functions assertions).length)

/-- The places of functions in expressions. -/
def Expression.placesOf : List Expression → Nat → List (FunctionLiteral × Nat)
  | [], _ => []
  | first :: rest, start =>
      first.places start ++ Expression.placesOf rest (start + (first.functions assertions).length)

/-- The places of functions in an expression that may be missing. -/
def Expression.placesOfOption : Option Expression → Nat → List (FunctionLiteral × Nat)
  | none, _ => []
  | some value, start => value.places start

/-- The places of functions in properties. -/
def Property.placesOf : List Property → Nat → List (FunctionLiteral × Nat)
  | [], _ => []
  | .mk _ value :: rest, start =>
      value.places start ++ Property.placesOf rest (start + (value.functions assertions).length)

/-- The places of functions in declared variables. -/
def Declarator.placesOf : List Declarator → Nat → List (FunctionLiteral × Nat)
  | [], _ => []
  | .mk _ value :: rest, start =>
      Expression.placesOfOption value start ++ Declarator.placesOf rest
        (start + (Expression.functionsOfOption assertions value).length)

/-- The places of functions in clauses. -/
def Clause.placesOf : List Clause → Nat → List (FunctionLiteral × Nat)
  | [], _ => []
  | .mk _ condition body :: rest, start =>
      let next := start + (Expression.functionsOfOption assertions condition).length
      Expression.placesOfOption condition start ++ (Statement.placesOf body next ++
        Clause.placesOf rest (next + (Statement.functionsOf assertions body).length))

/-- The places of functions in a statement. -/
def Statement.places : Statement → Nat → List (FunctionLiteral × Nat)
  | .declare _ declarators, start => Declarator.placesOf declarators start
  | .giveBack _ value, start => Expression.placesOfOption value start
  | .expression _ value, start =>
      if value.assertion?.isSome && !assertions then [] else value.places start
  | .empty _, _ | .leave _ _, _ | .again _ _, _ => []
  | .block _ body, start => Statement.placesOf body start
  | .branch _ condition consequence alternative, start =>
      let next := start + (condition.functions assertions).length
      condition.places start ++ (consequence.places next ++ Statement.placesOfOption alternative
        (next + (consequence.functions assertions).length))
  | .whileLoop _ condition body, start =>
      condition.places start ++ body.places (start + (condition.functions assertions).length)
  | .forLoop _ first condition update body, start =>
      let next := start + (Statement.functionsOfOption assertions first).length
      let later := next + (Expression.functionsOfOption assertions condition).length
      Statement.placesOfOption first start ++ (Expression.placesOfOption condition next ++
        (Expression.placesOfOption update later ++
          body.places (later + (Expression.functionsOfOption assertions update).length)))
  | .forIn _ _ _ subject body, start =>
      subject.places start ++ body.places (start + (subject.functions assertions).length)
  | .labeled _ body, start => body.places start
  | .select _ subject clauses, start =>
      subject.places start ++
        Clause.placesOf clauses (start + (subject.functions assertions).length)
  | .function _ literal, start => [literal.place assertions start]

/-- The places of functions in statements. -/
def Statement.placesOf : List Statement → Nat → List (FunctionLiteral × Nat)
  | [], _ => []
  | first :: rest, start =>
      first.places start ++ Statement.placesOf rest (start + (first.functions assertions).length)

/-- The places of functions in a statement that may be missing. -/
def Statement.placesOfOption : Option Statement → Nat → List (FunctionLiteral × Nat)
  | none, _ => []
  | some statement, start => statement.places start

end

/-- The places of functions in the body of the function with a number. -/
def FunctionLiteral.innerPlaces (literal : FunctionLiteral) (number : Nat) :
    List (FunctionLiteral × Nat) :=
  Statement.placesOf assertions again literal.body
    (number - (Statement.functionsOf assertions literal.body).length)

end

/-! ## Each function has one place -/

/--
The places account for functions whose numbers go on from `start`.  Each of the functions has its
place among them, or in the body of one of the functions, once and with its number.  Those with a
place in the body of a function have smaller numbers.  Listing places again adds no others.
-/
structure AccountFor
    (assertions : Bool)
    (start : Nat)
    (functions : List FunctionLiteral)
    (places : Bool → List (FunctionLiteral × Nat)) :
    Prop where
  /-- Each function has one place. -/
  once : (places false ++ (functions.zipIdx start).flatMap fun outer =>
    outer.1.innerPlaces assertions false outer.2).Perm (functions.zipIdx start)
  /-- Functions in a body have smaller numbers. -/
  smaller : ∀ outer ∈ functions.zipIdx start,
    ∀ inner ∈ outer.1.innerPlaces assertions false outer.2, inner.2 < outer.2
  /-- Listing places again adds no others. -/
  same : ∀ place, place ∈ places true ↔ place ∈ places false

namespace AccountFor

variable {assertions : Bool} {start : Nat} {functions : List FunctionLiteral}
  {places : Bool → List (FunctionLiteral × Nat)}

theorem nil :
    AccountFor assertions start [] fun _ => [] where
  once := .nil
  smaller := by simp
  same _ := .rfl

/-- Places of functions that are finished one after the other. -/
theorem append
    {laterFunctions : List FunctionLiteral}
    {laterPlaces : Bool → List (FunctionLiteral × Nat)}
    (account : AccountFor assertions start functions places)
    (laterAccount : AccountFor assertions (start + functions.length) laterFunctions laterPlaces) :
    AccountFor assertions start (functions ++ laterFunctions)
      fun again => places again ++ laterPlaces again where
  once := by
    rw [List.zipIdx_append, List.flatMap_append]
    refine .trans ?_ (account.once.append laterAccount.once)
    rw [List.append_assoc, List.append_assoc]
    refine .append_left _ ?_
    rw [← List.append_assoc, ← List.append_assoc]
    exact .append_right _ List.perm_append_comm
  smaller := by
    rw [List.zipIdx_append]
    exact List.forall_mem_append.mpr ⟨account.smaller, laterAccount.smaller⟩
  same place := by
    rw [List.mem_append, List.mem_append, account.same, laterAccount.same]

/-- Places may be listed in another order, and again. -/
theorem rearrange
    {others : Bool → List (FunctionLiteral × Nat)}
    (account : AccountFor assertions start functions places)
    (isOnce : (others false).Perm (places false))
    (isSame : ∀ place, place ∈ others true ↔ place ∈ places true) :
    AccountFor assertions start functions others where
  once := (isOnce.append_right _).trans account.once
  smaller := account.smaller
  same place := by
    rw [isSame, account.same, isOnce.mem_iff]

/-- A function is finished behind those in its body. -/
theorem place
    {literal : FunctionLiteral}
    (account : AccountFor assertions start (Statement.functionsOf assertions literal.body)
      fun again => Statement.placesOf assertions again literal.body start) :
    AccountFor assertions start (literal.functions assertions)
      fun _ => [literal.place assertions start] where
  once := by
    obtain ⟨token, name, parameters, body⟩ := literal
    have isLast : FunctionLiteral.innerPlaces assertions false (.mk token name parameters body)
        (start + (Statement.functionsOf assertions body).length) =
          Statement.placesOf assertions false body start := by
      rw [FunctionLiteral.innerPlaces, FunctionLiteral.body, Nat.add_sub_cancel]
    rw [FunctionLiteral.functions, FunctionLiteral.place, FunctionLiteral.body,
      List.zipIdx_append, List.flatMap_append, List.zipIdx_singleton, List.flatMap_singleton,
      isLast]
    exact List.perm_append_comm.trans
      (.append_right _ (List.perm_append_comm.trans account.once))
  smaller := by
    obtain ⟨token, name, parameters, body⟩ := literal
    rw [FunctionLiteral.functions, List.zipIdx_append]
    refine List.forall_mem_append.mpr ⟨account.smaller, fun outer member inner isInside => ?_⟩
    obtain rfl := List.mem_singleton.mp member
    rw [FunctionLiteral.innerPlaces, FunctionLiteral.body, Nat.add_sub_cancel] at isInside
    have isFinished := account.once.subset (List.mem_append_left _ isInside)
    exact (List.mem_zipIdx isFinished).2.1
  same _ := .rfl

end AccountFor

section

variable (assertions : Bool)

open AccountFor

mutual

theorem Expression.account :
    ∀ (expression : Expression) (start : Nat),
      AccountFor assertions start (expression.functions assertions)
        fun again => expression.places assertions again start
  | .name _, _ | .number _ _, _ | .string _ _, _ | .boolean _ _, _ | .regex _ _ _, _
  | .this _, _ => .nil
  | .function literal, start => .place (FunctionLiteral.account literal start)
  | .array _ elements, start => Expression.accountOf elements start
  | .object _ properties, start => Property.accountOf properties start
  | .unary _ _ operand, start | .typeof _ operand, start => Expression.account operand start
  | .delete _ target, start | .update _ _ _ target, start => Expression.account target start
  | .binary _ _ left right, start =>
      (Expression.account left start).append (Expression.account right _)
  | .assign token _ target value, start =>
      ((Expression.account target start).append (Expression.account value _)).rearrange .rfl
        fun place => by
          simp only [Expression.places, List.mem_append]
          split <;> simp
  | .conditional _ condition consequence alternative, start =>
      (Expression.account condition start).append
        ((Expression.account consequence _).append (Expression.account alternative _))
  | .sequence _ first rest, start =>
      (Expression.account first start).append (Expression.accountOf rest _)
  | .call _ callee arguments, start =>
      ((Expression.accountOf arguments start).append (Expression.account callee _)).rearrange
        List.perm_append_comm fun place => by
          simp only [Expression.places, List.mem_append]
          exact or_comm
  | .construct _ constructor arguments, start =>
      (Expression.account constructor start).append (Expression.accountOf arguments _)
  | .member _ base _, start => Expression.account base start
  | .index _ base key, start => (Expression.account base start).append (Expression.account key _)

theorem Expression.accountOf :
    ∀ (expressions : List Expression) (start : Nat),
      AccountFor assertions start (Expression.functionsOf assertions expressions)
        fun again => Expression.placesOf assertions again expressions start
  | [], _ => .nil
  | first :: rest, start => (Expression.account first start).append (Expression.accountOf rest _)

theorem Expression.accountOfOption :
    ∀ (expression : Option Expression) (start : Nat),
      AccountFor assertions start (Expression.functionsOfOption assertions expression)
        fun again => Expression.placesOfOption assertions again expression start
  | none, _ => .nil
  | some value, start => Expression.account value start

theorem Property.accountOf :
    ∀ (properties : List Property) (start : Nat),
      AccountFor assertions start (Property.functionsOf assertions properties)
        fun again => Property.placesOf assertions again properties start
  | [], _ => .nil
  | .mk _ value :: rest, start =>
      (Expression.account value start).append (Property.accountOf rest _)

theorem FunctionLiteral.account :
    ∀ (literal : FunctionLiteral) (start : Nat),
      AccountFor assertions start (Statement.functionsOf assertions literal.body)
        fun again => Statement.placesOf assertions again literal.body start
  | .mk _ _ _ body, start => Statement.accountOf body start

theorem Declarator.accountOf :
    ∀ (declarators : List Declarator) (start : Nat),
      AccountFor assertions start (Declarator.functionsOf assertions declarators)
        fun again => Declarator.placesOf assertions again declarators start
  | [], _ => .nil
  | .mk _ value :: rest, start =>
      (Expression.accountOfOption value start).append (Declarator.accountOf rest _)

theorem Clause.accountOf :
    ∀ (clauses : List Clause) (start : Nat),
      AccountFor assertions start (Clause.functionsOf assertions clauses)
        fun again => Clause.placesOf assertions again clauses start
  | [], _ => .nil
  | .mk _ condition body :: rest, start =>
      (Expression.accountOfOption condition start).append
        ((Statement.accountOf body _).append (Clause.accountOf rest _))

theorem Statement.account :
    ∀ (statement : Statement) (start : Nat),
      AccountFor assertions start (statement.functions assertions)
        fun again => statement.places assertions again start
  | .declare _ declarators, start => Declarator.accountOf declarators start
  | .giveBack _ value, start => Expression.accountOfOption value start
  | .expression _ value, start => by
      have account := Expression.account value start
      simp only [Statement.functions, Statement.places]
      split
      · exact .nil
      · exact account
  | .empty _, _ | .leave _ _, _ | .again _ _, _ => .nil
  | .block _ body, start => Statement.accountOf body start
  | .branch _ condition consequence alternative, start =>
      (Expression.account condition start).append
        ((Statement.account consequence _).append (Statement.accountOfOption alternative _))
  | .whileLoop _ condition body, start =>
      (Expression.account condition start).append (Statement.account body _)
  | .forLoop _ first condition update body, start =>
      (Statement.accountOfOption first start).append
        ((Expression.accountOfOption condition _).append
          ((Expression.accountOfOption update _).append (Statement.account body _)))
  | .forIn _ _ _ subject body, start =>
      (Expression.account subject start).append (Statement.account body _)
  | .labeled _ body, start => Statement.account body start
  | .select _ subject clauses, start =>
      (Expression.account subject start).append (Clause.accountOf clauses _)
  | .function _ literal, start => .place (FunctionLiteral.account literal start)

theorem Statement.accountOf :
    ∀ (statements : List Statement) (start : Nat),
      AccountFor assertions start (Statement.functionsOf assertions statements)
        fun again => Statement.placesOf assertions again statements start
  | [], _ => .nil
  | first :: rest, start => (Statement.account first start).append (Statement.accountOf rest _)

theorem Statement.accountOfOption :
    ∀ (statement : Option Statement) (start : Nat),
      AccountFor assertions start (Statement.functionsOfOption assertions statement)
        fun again => Statement.placesOfOption assertions again statement start
  | none, _ => .nil
  | some statement, start => Statement.account statement start

end

end

/-! ## The functions at places -/

theorem FunctionLiteral.mem_innerPlaces
    (assertions : Bool)
    (literal : FunctionLiteral)
    (number : Nat)
    (place : FunctionLiteral × Nat) :
    place ∈ literal.innerPlaces assertions true number ↔
      place ∈ literal.innerPlaces assertions false number :=
  (Statement.accountOf assertions literal.body _).same place

namespace AccountFor

variable {assertions : Bool} {functions : List FunctionLiteral}
  {places : Bool → List (FunctionLiteral × Nat)} {index : Nat} {literal : FunctionLiteral}

section

variable (account : AccountFor assertions 0 functions places)

include account

/-- A place is that of the function with its number. -/
theorem getElem?_of_mem
    {place : FunctionLiteral × Nat}
    (member : place ∈ places true) :
    functions[place.2]? = some place.1 := by
  rw [← List.mem_zipIdx_iff_getElem?]
  exact account.once.subset (List.mem_append_left _ ((account.same place).mp member))

/-- A place in the body of a function is that of an earlier function. -/
theorem inner (isLiteral : functions[index]? = some literal) :
    ∀ place ∈ literal.innerPlaces assertions true index,
      place.2 < index ∧ functions[place.2]? = some place.1 := by
  intro place member
  have isOuter := List.mk_mem_zipIdx_iff_getElem?.mpr isLiteral
  rw [literal.mem_innerPlaces] at member
  refine ⟨account.smaller _ isOuter place member, ?_⟩
  rw [← List.mem_zipIdx_iff_getElem?]
  exact account.once.subset (List.mem_append_right _ (List.mem_flatMap.mpr ⟨_, isOuter, member⟩))

/-- Each function has a place. -/
theorem exists_place (isLiteral : functions[index]? = some literal) :
    (literal, index) ∈ places true ∨
      ∃ (outer : FunctionLiteral) (number : Nat), functions[number]? = some outer ∧
        (literal, index) ∈ outer.innerPlaces assertions true number := by
  have isPlaced := account.once.symm.subset (List.mk_mem_zipIdx_iff_getElem?.mpr isLiteral)
  rcases List.mem_append.mp isPlaced with isTop | isInner
  · exact .inl ((account.same _).mpr isTop)
  · obtain ⟨⟨outer, number⟩, isOuter, member⟩ := List.mem_flatMap.mp isInner
    exact .inr ⟨outer, number, List.mk_mem_zipIdx_iff_getElem?.mp isOuter,
      (outer.mem_innerPlaces _ _ _).mpr member⟩

end

end AccountFor

end ScriptEngine
