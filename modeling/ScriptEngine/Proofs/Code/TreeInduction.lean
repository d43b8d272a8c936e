import ScriptEngine.Code.Tree

namespace ScriptEngine.Code

/-!
# Induction on code

Terms and statements are made of each other, since functions are among the terms and statements
are in the functions.  What a proof claims of each kind of code is one record.  The claims hold
of all code if they pass from the parts of each term and of each statement to the whole.
-/

/-- What is claimed of each kind of code. -/
structure Claims where
  ofTerm : Term → Prop
  ofKey : Key → Prop
  ofPlace : Place → Prop
  ofRoutine : Routine → Prop
  ofAction : Action → Prop

namespace Claims

section

variable (claims : Claims)

/-- The value of a property is as claimed. -/
def ofEntry : Entry → Prop
  | .mk _ value => claims.ofTerm value

/-- The value of a variable is as claimed, if it has one. -/
def ofBinding : Binding → Prop
  | .mk _ value => ∀ term ∈ value, claims.ofTerm term

/-- The condition and the body of a case are as claimed. -/
def ofCase : Case → Prop
  | .mk condition body =>
      (∀ term ∈ condition, claims.ofTerm term) ∧ ∀ action ∈ body, claims.ofAction action

/-- The claims pass from the parts of a term to the term. -/
structure TermCases : Prop where
  constant : ∀ {value}, claims.ofTerm (.constant value)
  this : claims.ofTerm .this
  pattern : ∀ {pattern}, claims.ofTerm (.pattern pattern)
  array : ∀ {elements}, (∀ element ∈ elements, claims.ofTerm element) →
    claims.ofTerm (.array elements)
  object : ∀ {entries}, (∀ entry ∈ entries, claims.ofEntry entry) →
    claims.ofTerm (.object entries)
  closure : ∀ {routine}, claims.ofRoutine routine → claims.ofTerm (.closure routine)
  unary : ∀ {operator operand position}, claims.ofTerm operand →
    claims.ofTerm (.unary operator operand position)
  typeofVariable : ∀ {name}, claims.ofTerm (.typeofVariable name)
  typeof : ∀ {operand}, claims.ofTerm operand → claims.ofTerm (.typeof operand)
  delete : ∀ {target position}, claims.ofPlace target → claims.ofTerm (.delete target position)
  strict : ∀ {operator left right position}, claims.ofTerm left → claims.ofTerm right →
    claims.ofTerm (.strict operator left right position)
  both : ∀ {left right}, claims.ofTerm left → claims.ofTerm right →
    claims.ofTerm (.both left right)
  either : ∀ {left right}, claims.ofTerm left → claims.ofTerm right →
    claims.ofTerm (.either left right)
  read : ∀ {target position}, claims.ofPlace target → claims.ofTerm (.read target position)
  assign : ∀ {target value position}, claims.ofPlace target → claims.ofTerm value →
    claims.ofTerm (.assign target value position)
  combine : ∀ {operator target value position}, claims.ofPlace target → claims.ofTerm value →
    claims.ofTerm (.combine operator target value position)
  update : ∀ {operator fixity target position}, claims.ofPlace target →
    claims.ofTerm (.update operator fixity target position)
  conditional : ∀ {condition consequence alternative}, claims.ofTerm condition →
    claims.ofTerm consequence → claims.ofTerm alternative →
    claims.ofTerm (.conditional condition consequence alternative)
  sequence : ∀ {terms}, (∀ term ∈ terms, claims.ofTerm term) → claims.ofTerm (.sequence terms)
  call : ∀ {callee arguments shown position}, claims.ofTerm callee →
    (∀ argument ∈ arguments, claims.ofTerm argument) →
    claims.ofTerm (.call callee arguments shown position)
  callMethod : ∀ {base key arguments shown position}, claims.ofTerm base → claims.ofKey key →
    (∀ argument ∈ arguments, claims.ofTerm argument) →
    claims.ofTerm (.callMethod base key arguments shown position)
  construct : ∀ {constructor arguments position}, claims.ofTerm constructor →
    (∀ argument ∈ arguments, claims.ofTerm argument) →
    claims.ofTerm (.construct constructor arguments position)
  fixed : ∀ {name}, claims.ofKey (.fixed name)
  computed : ∀ {term}, claims.ofTerm term → claims.ofKey (.computed term)
  variablePlace : ∀ {name}, claims.ofPlace (.variable name)
  propertyPlace : ∀ {base key}, claims.ofTerm base → claims.ofKey key →
    claims.ofPlace (.property base key)

/-- The claims pass from the parts of a statement to the statement, and to a function from its
body. -/
structure ActionCases : Prop where
  routine : ∀ {number name parameters body endsInReturn},
    (∀ action ∈ body, claims.ofAction action) →
    claims.ofRoutine (.mk number name parameters body endsInReturn)
  evaluate : ∀ {term}, claims.ofTerm term → claims.ofAction (.evaluate term)
  check : ∀ {condition shown position}, claims.ofTerm condition →
    claims.ofAction (.check condition shown position)
  declare : ∀ {bindings}, (∀ binding ∈ bindings, claims.ofBinding binding) →
    claims.ofAction (.declare bindings)
  define : ∀ {routine}, claims.ofRoutine routine → claims.ofAction (.define routine)
  giveBack : ∀ {value}, (∀ term ∈ value, claims.ofTerm term) → claims.ofAction (.giveBack value)
  block : ∀ {body}, (∀ action ∈ body, claims.ofAction action) → claims.ofAction (.block body)
  branch : ∀ {condition consequence alternative}, claims.ofTerm condition →
    (∀ action ∈ consequence, claims.ofAction action) →
    (∀ action ∈ alternative.getD [], claims.ofAction action) →
    claims.ofAction (.branch condition consequence alternative)
  whileLoop : ∀ {labels condition body}, claims.ofTerm condition →
    (∀ action ∈ body, claims.ofAction action) →
    claims.ofAction (.whileLoop labels condition body)
  forLoop : ∀ {labels start condition update body}, (∀ action ∈ start, claims.ofAction action) →
    (∀ term ∈ condition, claims.ofTerm term) → (∀ term ∈ update, claims.ofTerm term) →
    (∀ action ∈ body, claims.ofAction action) →
    claims.ofAction (.forLoop labels start condition update body)
  forIn : ∀ {labels name declares subject body}, claims.ofTerm subject →
    (∀ action ∈ body, claims.ofAction action) →
    claims.ofAction (.forIn labels name declares subject body)
  labeled : ∀ {labels body}, (∀ action ∈ body, claims.ofAction action) →
    claims.ofAction (.labeled labels body)
  leave : ∀ {label}, claims.ofAction (.leave label)
  again : ∀ {label}, claims.ofAction (.again label)
  select : ∀ {subject cases}, claims.ofTerm subject →
    (∀ clause ∈ cases, claims.ofCase clause) → claims.ofAction (.select subject cases)

/-- The claims pass from parts to wholes. -/
structure Cases : Prop where
  terms : claims.TermCases
  actions : claims.ActionCases

end

namespace Cases

variable {claims : Claims}

mutual

/-- Every term is as claimed. -/
theorem ofTerm (cases : claims.Cases) : ∀ term : Term, claims.ofTerm term
  | .constant _ => cases.terms.constant
  | .this => cases.terms.this
  | .pattern _ => cases.terms.pattern
  | .array elements => cases.terms.array (ofTerms cases elements)
  | .object entries => cases.terms.object (ofEntries cases entries)
  | .closure routine => cases.terms.closure (ofRoutine cases routine)
  | .unary _ operand _ => cases.terms.unary (ofTerm cases operand)
  | .typeofVariable _ => cases.terms.typeofVariable
  | .typeof operand => cases.terms.typeof (ofTerm cases operand)
  | .delete target _ => cases.terms.delete (ofPlace cases target)
  | .strict _ left right _ => cases.terms.strict (ofTerm cases left) (ofTerm cases right)
  | .both left right => cases.terms.both (ofTerm cases left) (ofTerm cases right)
  | .either left right => cases.terms.either (ofTerm cases left) (ofTerm cases right)
  | .read target _ => cases.terms.read (ofPlace cases target)
  | .assign target value _ => cases.terms.assign (ofPlace cases target) (ofTerm cases value)
  | .combine _ target value _ => cases.terms.combine (ofPlace cases target) (ofTerm cases value)
  | .update _ _ target _ => cases.terms.update (ofPlace cases target)
  | .conditional condition consequence alternative =>
      cases.terms.conditional (ofTerm cases condition) (ofTerm cases consequence)
        (ofTerm cases alternative)
  | .sequence terms => cases.terms.sequence (ofTerms cases terms)
  | .call callee arguments _ _ => cases.terms.call (ofTerm cases callee) (ofTerms cases arguments)
  | .callMethod base key arguments _ _ =>
      cases.terms.callMethod (ofTerm cases base) (ofKey cases key) (ofTerms cases arguments)
  | .construct constructor arguments _ =>
      cases.terms.construct (ofTerm cases constructor) (ofTerms cases arguments)

/-- Every key is as claimed. -/
theorem ofKey (cases : claims.Cases) : ∀ key : Key, claims.ofKey key
  | .fixed _ => cases.terms.fixed
  | .computed term => cases.terms.computed (ofTerm cases term)

/-- Every place is as claimed. -/
theorem ofPlace (cases : claims.Cases) : ∀ target : Place, claims.ofPlace target
  | .variable _ => cases.terms.variablePlace
  | .property base key => cases.terms.propertyPlace (ofTerm cases base) (ofKey cases key)

/-- All of some terms are as claimed. -/
theorem ofTerms (cases : claims.Cases) :
    ∀ terms : List Term, ∀ term ∈ terms, claims.ofTerm term
  | [] => List.forall_mem_nil _
  | first :: rest => List.forall_mem_cons.mpr ⟨ofTerm cases first, ofTerms cases rest⟩

/-- A term that may be missing is as claimed. -/
theorem ofTermOption (cases : claims.Cases) :
    ∀ value : Option Term, ∀ term ∈ value, claims.ofTerm term
  | none => nofun
  | some term => fun | _, rfl => ofTerm cases term

/-- All properties of an object are as claimed. -/
theorem ofEntries (cases : claims.Cases) :
    ∀ entries : List Entry, ∀ entry ∈ entries, claims.ofEntry entry
  | [] => List.forall_mem_nil _
  | .mk _ value :: rest => List.forall_mem_cons.mpr ⟨ofTerm cases value, ofEntries cases rest⟩

/-- Every function is as claimed. -/
theorem ofRoutine (cases : claims.Cases) : ∀ routine : Routine, claims.ofRoutine routine
  | .mk _ _ _ body _ => cases.actions.routine (ofActions cases body)

/-- All variables that are declared are as claimed. -/
theorem ofBindings (cases : claims.Cases) :
    ∀ bindings : List Binding, ∀ binding ∈ bindings, claims.ofBinding binding
  | [] => List.forall_mem_nil _
  | .mk _ value :: rest =>
      List.forall_mem_cons.mpr ⟨ofTermOption cases value, ofBindings cases rest⟩

/-- All cases are as claimed. -/
theorem ofClauses (cases : claims.Cases) :
    ∀ clauses : List Case, ∀ clause ∈ clauses, claims.ofCase clause
  | [] => List.forall_mem_nil _
  | .mk condition body :: rest =>
      List.forall_mem_cons.mpr
        ⟨⟨ofTermOption cases condition, ofActions cases body⟩, ofClauses cases rest⟩

/-- Every statement is as claimed. -/
theorem ofAction (cases : claims.Cases) : ∀ action : Action, claims.ofAction action
  | .evaluate term => cases.actions.evaluate (ofTerm cases term)
  | .check condition _ _ => cases.actions.check (ofTerm cases condition)
  | .declare bindings => cases.actions.declare (ofBindings cases bindings)
  | .define routine => cases.actions.define (ofRoutine cases routine)
  | .giveBack value => cases.actions.giveBack (ofTermOption cases value)
  | .block body => cases.actions.block (ofActions cases body)
  | .branch condition consequence alternative =>
      cases.actions.branch (ofTerm cases condition) (ofActions cases consequence)
        (ofAlternative cases alternative)
  | .whileLoop _ condition body =>
      cases.actions.whileLoop (ofTerm cases condition) (ofActions cases body)
  | .forLoop _ start condition update body =>
      cases.actions.forLoop (ofActionOption cases start) (ofTermOption cases condition)
        (ofTermOption cases update) (ofActions cases body)
  | .forIn _ _ _ subject body => cases.actions.forIn (ofTerm cases subject) (ofActions cases body)
  | .labeled _ body => cases.actions.labeled (ofActions cases body)
  | .leave _ => cases.actions.leave
  | .again _ => cases.actions.again
  | .select subject clauses => cases.actions.select (ofTerm cases subject) (ofClauses cases clauses)

/-- All statements of a body are as claimed. -/
theorem ofActions (cases : claims.Cases) :
    ∀ body : List Action, ∀ action ∈ body, claims.ofAction action
  | [] => List.forall_mem_nil _
  | first :: rest => List.forall_mem_cons.mpr ⟨ofAction cases first, ofActions cases rest⟩

/-- A statement that may be missing is as claimed. -/
theorem ofActionOption (cases : claims.Cases) :
    ∀ start : Option Action, ∀ action ∈ start, claims.ofAction action
  | none => nofun
  | some action => fun | _, rfl => ofAction cases action

/-- An alternative that may be missing is as claimed. -/
theorem ofAlternative (cases : claims.Cases) :
    ∀ alternative : Option (List Action), ∀ action ∈ alternative.getD [], claims.ofAction action
  | none => List.forall_mem_nil _
  | some body => ofActions cases body

end

end Cases

end Claims

end ScriptEngine.Code
