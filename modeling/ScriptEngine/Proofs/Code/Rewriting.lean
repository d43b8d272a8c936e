import ScriptEngine.Code.Lowering

namespace ScriptEngine

/-!
# Rewritten code

Code is rewritten by changing the places and the numbers in it, and by leaving out checks of
certain conditions.  Blurring code is one way to rewrite it, and taking away assertions of
conditions that come to a value without any effect is another one.
-/

/-- What is changed in code, and the conditions whose checks are left out. -/
structure Rewriting where
  position : Position → Position
  number : Nat → Nat
  leavesOut : Term → Bool

/-- Whether a statement is left out. -/
def Action.isLeftOut (rewriting : Rewriting) : Action → Bool
  | .check condition _ _ => rewriting.leavesOut condition
  | _ => false

section

variable (rewriting : Rewriting)

mutual

/-- A rewritten term. -/
def Term.rewritten : Term → Term
  | .constant value => .constant value
  | .this => .this
  | .pattern pattern => .pattern pattern
  | .array elements => .array (Term.rewrittenAll elements)
  | .object entries => .object (Entry.rewrittenAll entries)
  | .closure routine => .closure routine.rewritten
  | .unary operator operand position =>
      .unary operator operand.rewritten (rewriting.position position)
  | .typeofVariable name => .typeofVariable name
  | .typeof operand => .typeof operand.rewritten
  | .delete place position => .delete place.rewritten (rewriting.position position)
  | .strict operator left right position =>
      .strict operator left.rewritten right.rewritten (rewriting.position position)
  | .both left right => .both left.rewritten right.rewritten
  | .either left right => .either left.rewritten right.rewritten
  | .read place position => .read place.rewritten (rewriting.position position)
  | .assign place value position =>
      .assign place.rewritten value.rewritten (rewriting.position position)
  | .combine operator place value position =>
      .combine operator place.rewritten value.rewritten (rewriting.position position)
  | .update operator fixity place position =>
      .update operator fixity place.rewritten (rewriting.position position)
  | .conditional condition consequence alternative =>
      .conditional condition.rewritten consequence.rewritten
        alternative.rewritten
  | .sequence terms => .sequence (Term.rewrittenAll terms)
  | .call callee arguments shown position =>
      .call callee.rewritten (Term.rewrittenAll arguments) shown
        (rewriting.position position)
  | .callMethod base key arguments shown position =>
      .callMethod base.rewritten key.rewritten (Term.rewrittenAll arguments) shown
        (rewriting.position position)
  | .construct constructor arguments position =>
      .construct constructor.rewritten (Term.rewrittenAll arguments)
        (rewriting.position position)

/-- Rewritten terms. -/
def Term.rewrittenAll : List Term → List Term
  | [] => []
  | first :: rest => first.rewritten :: Term.rewrittenAll rest

/-- A rewritten term that may be missing. -/
def Term.rewrittenOption : Option Term → Option Term
  | none => none
  | some term => some term.rewritten

/-- A rewritten key. -/
def Key.rewritten : Key → Key
  | .fixed name => .fixed name
  | .computed term => .computed term.rewritten

/-- A rewritten place. -/
def Place.rewritten : Place → Place
  | .variable name => .variable name
  | .property base key => .property base.rewritten key.rewritten

/-- Rewritten properties of an object that code builds. -/
def Entry.rewrittenAll : List Entry → List Entry
  | [] => []
  | .mk key value :: rest => .mk key value.rewritten :: Entry.rewrittenAll rest

/-- The rewritten code of a function. -/
def Routine.rewritten : Routine → Routine
  | .mk number name parameters body endsInReturn =>
      .mk (rewriting.number number) name parameters (Action.rewrittenAll body) endsInReturn

/-- Rewritten bindings. -/
def Binding.rewrittenAll : List Binding → List Binding
  | [] => []
  | .mk name value :: rest => .mk name (Term.rewrittenOption value) :: Binding.rewrittenAll rest

/-- Rewritten cases. -/
def Case.rewrittenAll : List Case → List Case
  | [] => []
  | .mk condition body :: rest =>
      .mk (Term.rewrittenOption condition) (Action.rewrittenAll body) ::
        Case.rewrittenAll rest

/-- A rewritten statement. -/
def Action.rewritten : Action → Action
  | .evaluate term => .evaluate term.rewritten
  | .check condition shown position =>
      .check condition.rewritten shown (rewriting.position position)
  | .declare bindings => .declare (Binding.rewrittenAll bindings)
  | .define routine => .define routine.rewritten
  | .giveBack value => .giveBack (Term.rewrittenOption value)
  | .block body => .block (Action.rewrittenAll body)
  | .branch condition consequence alternative =>
      .branch condition.rewritten (Action.rewrittenAll consequence)
        (Action.rewrittenAlternative alternative)
  | .whileLoop labels condition body =>
      .whileLoop labels condition.rewritten (Action.rewrittenAll body)
  | .forLoop labels start condition update body =>
      .forLoop labels (Action.rewrittenOption start) (Term.rewrittenOption condition)
        (Term.rewrittenOption update) (Action.rewrittenAll body)
  | .forIn labels name declares subject body =>
      .forIn labels name declares subject.rewritten (Action.rewrittenAll body)
  | .labeled labels body => .labeled labels (Action.rewrittenAll body)
  | .leave label => .leave label
  | .again label => .again label
  | .select subject cases => .select subject.rewritten (Case.rewrittenAll cases)

/-- Rewritten statements, without those that are left out. -/
def Action.rewrittenAll : List Action → List Action
  | [] => []
  | first :: rest =>
      if first.isLeftOut rewriting then Action.rewrittenAll rest
      else first.rewritten :: Action.rewrittenAll rest

/-- A rewritten statement that may be missing or left out. -/
def Action.rewrittenOption : Option Action → Option Action
  | none => none
  | some action => if action.isLeftOut rewriting then none else some action.rewritten

/-- The rewritten statements of an alternative that may be missing. -/
def Action.rewrittenAlternative : Option (List Action) → Option (List Action)
  | none => none
  | some body => some (Action.rewrittenAll body)

end

/-- Functions keep their names. -/
@[simp] theorem Routine.name_rewritten (routine : Routine) :
    (routine.rewritten rewriting).name = routine.name := by
  cases routine
  rfl

/-- Functions keep their parameters. -/
@[simp] theorem Routine.parameters_rewritten (routine : Routine) :
    (routine.rewritten rewriting).parameters = routine.parameters := by
  cases routine
  rfl

/-- The body of a rewritten function. -/
@[simp] theorem Routine.body_rewritten (routine : Routine) :
    (routine.rewritten rewriting).body = Action.rewrittenAll rewriting routine.body := by
  cases routine
  rfl

/-- A statement yields a result as before. -/
@[simp] theorem Action.yieldsResult_rewritten (action : Action) :
    (action.rewritten rewriting).yieldsResult = action.yieldsResult := by
  cases action <;> rfl

/-- The sole argument of a call is rewritten with it. -/
theorem Term.soleArgument_rewritten (term : Term) :
    (term.rewritten rewriting).soleArgument = term.soleArgument.rewritten rewriting := by
  cases term with
  | call callee arguments shown position =>
      match arguments with
      | [] | [_] | _ :: _ :: _ => rfl
  | _ => rfl

/-- Statements are rewritten one by one. -/
theorem Action.rewrittenAll_append (front back : List Action) :
    Action.rewrittenAll rewriting (front ++ back) =
      Action.rewrittenAll rewriting front ++ Action.rewrittenAll rewriting back := by
  induction front with
  | nil => rfl
  | cons first rest inductionHypothesis =>
      rw [List.cons_append, rewrittenAll, rewrittenAll, inductionHypothesis]
      split <;> rfl

/-- One statement is rewritten as a list of one. -/
theorem Action.rewrittenAll_toList (action : Option Action) :
    Action.rewrittenAll rewriting action.toList =
      (Action.rewrittenOption rewriting action).toList := by
  cases action with
  | none => rfl
  | some action =>
      rw [Option.toList_some, rewrittenAll, rewrittenOption]
      split <;> rfl

/-- A body without what is left out is the body of what is not left out. -/
theorem Action.rewrittenAll_asBody (action : Option Action) :
    Action.rewrittenAll rewriting (asBody action) =
      asBody (Action.rewrittenOption rewriting action) := by
  cases action with
  | none => rfl
  | some action =>
      cases action with
      | block body => rfl
      | check condition shown position =>
          change Action.rewrittenAll rewriting [.check condition shown position] = _
          rw [rewrittenAll, rewrittenOption]
          split <;> rfl
      | _ => rfl

/-- Labels stay where they are. -/
theorem Action.rewrittenOption_underLabels (labels : List String) (action : Option Action) :
    Action.rewrittenOption rewriting (underLabels labels action) =
      underLabels labels (Action.rewrittenOption rewriting action) := by
  unfold underLabels
  split
  · rfl
  · change some (Action.labeled labels (Action.rewrittenAll rewriting (asBody action))) = _
    rw [rewrittenAll_asBody]

end

/-! ## Code that stays as it is -/

/-- Nothing is changed or left out. -/
def Rewriting.keeping : Rewriting where
  position := id
  number := id
  leavesOut _ := false

/-- No statement is left out. -/
theorem Action.isLeftOut_keeping (action : Action) : action.isLeftOut .keeping = false := by
  cases action <;> rfl

mutual

/-- Code from which nothing is taken stays as it is. -/
theorem Term.rewritten_keeping :
    ∀ term : Term, term.rewritten .keeping = term
  | .constant value => rfl
  | .this => rfl
  | .pattern pattern => rfl
  | .array elements => by
      rw [Term.rewritten, Term.rewrittenAll_keeping elements]
  | .object entries => by
      rw [Term.rewritten, Entry.rewrittenAll_keeping entries]
  | .closure routine => by
      rw [Term.rewritten, Routine.rewritten_keeping routine]
  | .unary _ operand _ => by
      rw [Term.rewritten, Term.rewritten_keeping operand]
      rfl
  | .typeofVariable _ => rfl
  | .typeof operand => by
      rw [Term.rewritten, Term.rewritten_keeping operand]
  | .delete place _ => by
      rw [Term.rewritten, Place.rewritten_keeping place]
      rfl
  | .strict _ left right _ => by
      rw [Term.rewritten, Term.rewritten_keeping left, Term.rewritten_keeping right]
      rfl
  | .both left right => by
      rw [Term.rewritten, Term.rewritten_keeping left, Term.rewritten_keeping right]
  | .either left right => by
      rw [Term.rewritten, Term.rewritten_keeping left, Term.rewritten_keeping right]
  | .read place _ => by
      rw [Term.rewritten, Place.rewritten_keeping place]
      rfl
  | .assign place value _ => by
      rw [Term.rewritten, Place.rewritten_keeping place, Term.rewritten_keeping value]
      rfl
  | .combine _ place value _ => by
      rw [Term.rewritten, Place.rewritten_keeping place, Term.rewritten_keeping value]
      rfl
  | .update _ _ place _ => by
      rw [Term.rewritten, Place.rewritten_keeping place]
      rfl
  | .conditional condition consequence alternative => by
      rw [Term.rewritten, Term.rewritten_keeping condition, Term.rewritten_keeping consequence,
        Term.rewritten_keeping alternative]
  | .sequence terms => by
      rw [Term.rewritten, Term.rewrittenAll_keeping terms]
  | .call callee arguments _ _ => by
      rw [Term.rewritten, Term.rewritten_keeping callee, Term.rewrittenAll_keeping arguments]
      rfl
  | .callMethod base key arguments _ _ => by
      rw [Term.rewritten, Term.rewritten_keeping base, Key.rewritten_keeping key,
        Term.rewrittenAll_keeping arguments]
      rfl
  | .construct constructor arguments _ => by
      rw [Term.rewritten, Term.rewritten_keeping constructor, Term.rewrittenAll_keeping arguments]
      rfl

/-- A key stays as it is. -/
theorem Key.rewritten_keeping :
    ∀ key : Key, key.rewritten .keeping = key
  | .fixed _ => rfl
  | .computed term => by
      rw [Key.rewritten, Term.rewritten_keeping term]

/-- A place stays as it is. -/
theorem Place.rewritten_keeping :
    ∀ place : Place, place.rewritten .keeping = place
  | .variable _ => rfl
  | .property base key => by
      rw [Place.rewritten, Term.rewritten_keeping base, Key.rewritten_keeping key]

/-- Terms stay as they are. -/
theorem Term.rewrittenAll_keeping :
    ∀ terms : List Term, Term.rewrittenAll .keeping terms = terms
  | [] => rfl
  | first :: rest => by
      rw [Term.rewrittenAll, Term.rewritten_keeping first, Term.rewrittenAll_keeping rest]

theorem Term.rewrittenOption_keeping :
    ∀ term : Option Term, Term.rewrittenOption .keeping term = term
  | none => rfl
  | some term => by
      rw [Term.rewrittenOption, Term.rewritten_keeping term]

/-- The properties of an object stay as they are. -/
theorem Entry.rewrittenAll_keeping :
    ∀ entries : List Entry, Entry.rewrittenAll .keeping entries = entries
  | [] => rfl
  | .mk _ value :: rest => by
      rw [Entry.rewrittenAll, Term.rewritten_keeping value, Entry.rewrittenAll_keeping rest]

/-- A function stays as it is. -/
theorem Routine.rewritten_keeping :
    ∀ routine : Routine, routine.rewritten .keeping = routine
  | .mk _ _ _ body _ => by
      rw [Routine.rewritten, Action.rewrittenAll_keeping body]
      rfl

theorem Binding.rewrittenAll_keeping :
    ∀ bindings : List Binding, Binding.rewrittenAll .keeping bindings = bindings
  | [] => rfl
  | .mk _ value :: rest => by
      rw [Binding.rewrittenAll, Term.rewrittenOption_keeping value,
        Binding.rewrittenAll_keeping rest]

/-- Cases stay as they are. -/
theorem Case.rewrittenAll_keeping :
    ∀ cases : List Case, Case.rewrittenAll .keeping cases = cases
  | [] => rfl
  | .mk condition body :: rest => by
      rw [Case.rewrittenAll, Term.rewrittenOption_keeping condition,
        Action.rewrittenAll_keeping body, Case.rewrittenAll_keeping rest]

/-- A statement stays as it is. -/
theorem Action.rewritten_keeping :
    ∀ action : Action, action.rewritten .keeping = action
  | .evaluate term => by
      rw [Action.rewritten, Term.rewritten_keeping term]
  | .check condition _ _ => by
      rw [Action.rewritten, Term.rewritten_keeping condition]
      rfl
  | .declare bindings => by
      rw [Action.rewritten, Binding.rewrittenAll_keeping bindings]
  | .define routine => by
      rw [Action.rewritten, Routine.rewritten_keeping routine]
  | .giveBack value => by
      rw [Action.rewritten, Term.rewrittenOption_keeping value]
  | .block body => by
      rw [Action.rewritten, Action.rewrittenAll_keeping body]
  | .branch condition consequence alternative => by
      rw [Action.rewritten, Term.rewritten_keeping condition,
        Action.rewrittenAll_keeping consequence, Action.rewrittenAlternative_keeping alternative]
  | .whileLoop _ condition body => by
      rw [Action.rewritten, Term.rewritten_keeping condition, Action.rewrittenAll_keeping body]
  | .forLoop _ start condition update body => by
      rw [Action.rewritten, Action.rewrittenOption_keeping start,
        Term.rewrittenOption_keeping condition, Term.rewrittenOption_keeping update,
        Action.rewrittenAll_keeping body]
  | .forIn _ _ _ subject body => by
      rw [Action.rewritten, Term.rewritten_keeping subject, Action.rewrittenAll_keeping body]
  | .labeled _ body => by
      rw [Action.rewritten, Action.rewrittenAll_keeping body]
  | .leave _ => rfl
  | .again _ => rfl
  | .select subject cases => by
      rw [Action.rewritten, Term.rewritten_keeping subject, Case.rewrittenAll_keeping cases]

/-- All statements are kept. -/
theorem Action.rewrittenAll_keeping :
    ∀ actions : List Action, Action.rewrittenAll .keeping actions = actions
  | [] => rfl
  | first :: rest => by
      rw [Action.rewrittenAll, Action.isLeftOut_keeping first, if_neg Bool.false_ne_true,
        Action.rewritten_keeping first, Action.rewrittenAll_keeping rest]

theorem Action.rewrittenOption_keeping :
    ∀ action : Option Action, Action.rewrittenOption .keeping action = action
  | none => rfl
  | some action => by
      rw [Action.rewrittenOption, Action.isLeftOut_keeping action, if_neg Bool.false_ne_true,
        Action.rewritten_keeping action]

theorem Action.rewrittenAlternative_keeping :
    ∀ alternative : Option (List Action),
      Action.rewrittenAlternative .keeping alternative = alternative
  | none => rfl
  | some body => by
      rw [Action.rewrittenAlternative, Action.rewrittenAll_keeping body]

end

end ScriptEngine
