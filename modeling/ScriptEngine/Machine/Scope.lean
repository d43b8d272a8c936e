import ScriptEngine.Machine.Value
import ScriptEngine.Text.Utf8

namespace ScriptEngine

/-!
# Scopes

Scopes form trees: every scope but a root has a parent that was made before it.
A name is resolved in the nearest scope on the way to the root that binds it.
Variables are declared in the nearest function scope; a root is always one.
-/

/-- Bindings of names to values. -/
abbrev Bindings :=
  List (String × Value)

/-- A scope: its bindings, its parent and whether variables are declared in it. -/
structure Scope where
  bindings : Bindings
  parent : Option Nat
  isFunction : Bool

namespace Bindings

/-- The value of a name. -/
def get? (name : String) : Bindings → Option Value
  | [] => none
  | (bound, value) :: rest => if bound = name then some value else get? name rest

/-- Whether a name is bound. -/
def has (bindings : Bindings) (name : String) : Bool :=
  (bindings.get? name).isSome

/-- Change the value of a bound name; other names are left alone. -/
def update (name : String) (value : Value) : Bindings → Bindings
  | [] => []
  | (bound, old) :: rest =>
      if bound = name then (bound, value) :: rest else (bound, old) :: update name value rest

/-- Bind a name, in front if it is new. -/
def set (bindings : Bindings) (name : String) (value : Value) : Bindings :=
  if bindings.has name then bindings.update name value else (name, value) :: bindings

/-- Remove a name. -/
def erase (name : String) : Bindings → Bindings
  | [] => []
  | (bound, value) :: rest =>
      if bound = name then rest else (bound, value) :: erase name rest

end Bindings

/-- All scopes made so far; a scope is known by its place. -/
abbrev Scopes :=
  Array Scope

namespace Scopes

/-- Make a scope; one without a parent is a function scope. -/
def make (scopes : Scopes) (parent : Option Nat) (isFunction : Bool) : Nat × Scopes :=
  (scopes.size, scopes.push ⟨[], parent, isFunction || parent.isNone⟩)

/-- The scope from a starting one to the root that is first to pass a test, within a budget. -/
def findFrom (scopes : Scopes) (test : Scope → Bool) : Nat → Nat → Option Nat
  | 0, _ => none
  | budget + 1, id =>
      match scopes[id]? with
      | none => none
      | some scope =>
          if test scope then some id
          else
            match scope.parent with
            | some parent => scopes.findFrom test budget parent
            | none => none

/-- The first scope from a starting one to the root that passes a test. -/
def findScope (scopes : Scopes) (id : Nat) (test : Scope → Bool) : Option Nat :=
  scopes.findFrom test (id + 1) id

/-- The nearest scope that binds a name. -/
def binder? (scopes : Scopes) (id : Nat) (name : String) : Option Nat :=
  scopes.findScope id (·.bindings.has name)

/-- The root above a scope. -/
def root (scopes : Scopes) (id : Nat) : Nat :=
  (scopes.findScope id (·.parent.isNone)).getD id

/-- The scope that receives declarations made in a scope. -/
def declarer (scopes : Scopes) (id : Nat) : Nat :=
  (scopes.findScope id fun scope => scope.isFunction || scope.parent.isNone).getD id

/-- The value of a name seen from a scope, within a budget. -/
def lookupFrom (scopes : Scopes) (name : String) : Nat → Nat → Option Value
  | 0, _ => none
  | budget + 1, id =>
      match scopes[id]? with
      | none => none
      | some scope =>
          match Bindings.get? name scope.bindings with
          | some value => some value
          | none =>
              match scope.parent with
              | some parent => scopes.lookupFrom name budget parent
              | none => none

/-- The value of a name seen from a scope. -/
def lookup? (scopes : Scopes) (id : Nat) (name : String) : Option Value :=
  scopes.lookupFrom name (id + 1) id

/-- Whether a name is bound on the way from a scope to the root. -/
def has (scopes : Scopes) (id : Nat) (name : String) : Bool :=
  (scopes.lookup? id name).isSome

/-- Bind a name in exactly one scope. -/
def bind (scopes : Scopes) (id : Nat) (name : String) (value : Value) : Scopes :=
  scopes.modify id fun scope =>
    { scope with bindings := Bindings.set scope.bindings name value }

/-- Declare a name in the nearest function scope. -/
def declare (scopes : Scopes) (id : Nat) (name : String) (value : Value) : Scopes :=
  scopes.bind (scopes.declarer id) name value

/-- Whether the nearest function scope binds a name. -/
def isDeclared (scopes : Scopes) (id : Nat) (name : String) : Bool :=
  match scopes[scopes.declarer id]? with
  | some scope => Bindings.has scope.bindings name
  | none => false

/-- Assign to the nearest binding of a name, or bind it at the root. -/
def assign (scopes : Scopes) (id : Nat) (name : String) (value : Value) : Scopes :=
  scopes.bind ((scopes.binder? id name).getD (scopes.root id)) name value

/-- Remove the nearest binding of a name. -/
def erase (scopes : Scopes) (id : Nat) (name : String) : Scopes :=
  match scopes.binder? id name with
  | some holder => scopes.modify holder fun scope =>
      { scope with bindings := Bindings.erase name scope.bindings }
  | none => scopes

/-- The names bound in a scope, in ascending order. -/
def names (scopes : Scopes) (id : Nat) : List String :=
  match scopes[id]? with
  | some scope => Text.sorted (scope.bindings.map Prod.fst)
  | none => []

end Scopes

end ScriptEngine
