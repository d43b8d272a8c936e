import ScriptEngine.Proofs.Machine.Building
import ScriptEngine.Proofs.Machine.Scoping

namespace ScriptEngine

/-!
# What a declaration makes visible

A declaration goes to the nearest function scope, and a name is read from the nearest scope
that binds it.  So a value that was just declared is read back unless a block scope stands
in front of the function scope and binds the name itself.  Blocks start out empty and
nothing declares in them; a loop over keys binds its variable in one.
-/

namespace Scopes

variable {scopes before after : Scopes} {id holder inner : Nat} {name : String} {value : Value}

/-- On the way from a scope to the root, in front of every function scope. -/
inductive InFront (scopes : Scopes) : Nat → Nat → Prop where
  | here {id : Nat}
      (isBlock : ¬ scopes.Passes (·.isFunction) id) :
      InFront scopes id id
  | above {id parent inner : Nat}
      (isBlock : ¬ scopes.Passes (·.isFunction) id)
      (next : scopes.parent? id = some parent)
      (inFront : InFront scopes parent inner) :
      InFront scopes id inner

/-- The nearest scope to bind a name is a block in front of every function scope. -/
structure Shadows (scopes : Scopes) (name : String) (id inner : Nat) : Prop where
  resolves : scopes.Resolves name id inner
  inFront : scopes.InFront id inner

/-- No block in front of the nearest function scope binds a name. -/
def Unshadowed (scopes : Scopes) (name : String) (id : Nat) : Prop :=
  ∀ inner, ¬ scopes.Shadows name id inner

theorem own?_eq_none_iff :
    scopes.own? id name = none ↔ ¬ scopes.Passes (·.bindings.has name) id := by
  rw [passes_has_iff, Option.eq_none_iff_forall_ne_some, not_exists]

theorem Shadows.above
    {parent : Nat}
    (isBlock : ¬ scopes.Passes (·.isFunction) id)
    (unbound : scopes.own? id name = none)
    (next : scopes.parent? id = some parent)
    (shadows : scopes.Shadows name parent inner) :
    scopes.Shadows name id inner :=
  ⟨.above (own?_eq_none_iff.mp unbound) next shadows.resolves,
    .above isBlock next shadows.inFront⟩

theorem Unshadowed.own?_eq_none
    (unshadowed : scopes.Unshadowed name id)
    (isBlock : ¬ scopes.Passes (·.isFunction) id) :
    scopes.own? id name = none :=
  own?_eq_none_iff.mpr fun passes => unshadowed id ⟨.here passes, .here isBlock⟩

theorem Unshadowed.parent
    {parent : Nat}
    (unshadowed : scopes.Unshadowed name id)
    (isBlock : ¬ scopes.Passes (·.isFunction) id)
    (next : scopes.parent? id = some parent) :
    scopes.Unshadowed name parent :=
  fun inner shadows =>
    unshadowed inner (shadows.above isBlock (unshadowed.own?_eq_none isBlock) next)

theorem InFront.isBlock (inFront : scopes.InFront id inner) :
    ¬ scopes.Passes (·.isFunction) inner := by
  induction inFront with
  | here isBlock => exact isBlock
  | above _ _ _ inductionHypothesis => exact inductionHypothesis

/-- In a function that is entered every name is unshadowed. -/
theorem unshadowed_of_isFunction (isFunction : scopes.Passes (·.isFunction) id) :
    scopes.Unshadowed name id := by
  rintro inner ⟨_, inFront⟩
  cases inFront with
  | here isBlock => exact isBlock isFunction
  | above isBlock => exact isBlock isFunction

/-! ## Reading what was declared -/

theorem lookupFrom_succ (scopes : Scopes) (name : String) (budget id : Nat) :
    scopes.lookupFrom name (budget + 1) id =
      match scopes.own? id name with
      | some value => some value
      | none =>
          match scopes.parent? id with
          | some parent => scopes.lookupFrom name budget parent
          | none => none := by
  rw [lookupFrom, own?, parent?]
  cases scopes[id]? <;> rfl

theorem lt_size_of_findFrom
    {test : Scope → Bool}
    {budget : Nat}
    (found : scopes.findFrom test budget id = some holder) :
    holder < scopes.size := by
  induction budget generalizing id with
  | zero => cases found
  | succ budget inductionHypothesis =>
      rw [findFrom] at found
      split at found
      · cases found
      · rename_i scope isScope
        split at found
        · cases found
          exact (Array.getElem?_eq_some_iff.mp isScope).1
        · split at found
          · exact inductionHypothesis found
          · cases found

/-- The search for the scope that receives declarations passes no block that binds an
unshadowed name.  So looking the name up goes the same way and ends there. -/
theorem lookupFrom_of_findFrom
    {budget : Nat}
    (rebinds : Rebinds before after holder name (some value))
    (found : before.findFrom (fun scope => scope.isFunction || scope.parent.isNone) budget id =
      some holder)
    (unshadowed : before.Unshadowed name id) :
    after.lookupFrom name budget id = some value := by
  induction budget generalizing id with
  | zero => cases found
  | succ budget inductionHypothesis =>
      rw [lookupFrom_succ, rebinds.parent]
      by_cases isHolder : id = holder
      · rw [isHolder, rebinds.changed]
      · rw [rebinds.kept id name fun same => isHolder same.1]
        rw [findFrom] at found
        split at found
        · cases found
        · rename_i scope isScope
          split at found <;> rename_i receives
          · exact absurd (Option.some.inj found) isHolder
          · split at found
            · rename_i parent isParent
              have next : before.parent? id = some parent := by
                rw [parent?, isScope]
                exact isParent
              have isBlock : ¬ before.Passes (·.isFunction) id := by
                rintro ⟨_, isSome, isFunction⟩
                cases isScope.symm.trans isSome
                exact receives (Bool.or_eq_true_iff.mpr (.inl isFunction))
              rw [unshadowed.own?_eq_none isBlock, next]
              exact inductionHypothesis found (unshadowed.parent isBlock next)
            · cases found

/-- An unshadowed name that was just declared is read back, in any scopes at all: where the
search for a function scope fails, the name is declared in the scope itself. -/
theorem Unshadowed.lookup?_declare
    (unshadowed : scopes.Unshadowed name id)
    (there : id < scopes.size)
    (value : Value) :
    (scopes.declare id name value).lookup? id name = some value := by
  rw [declare, declarer]
  cases found : scopes.findScope id fun scope => scope.isFunction || scope.parent.isNone with
  | some holder =>
      have rebinds := rebinds_bind (lt_size_of_findFrom found) name value
      exact lookupFrom_of_findFrom rebinds found unshadowed
  | none => rw [lookup?, lookupFrom_succ, Option.getD_none, (rebinds_bind there name value).changed]

/-- The declared binding is behind the block that shadows it. -/
theorem Shadows.of_rebinds
    (rebinds : Rebinds before after holder name (some value))
    (isFunction : before.Passes (·.isFunction) holder)
    (shadows : before.Shadows name id inner) :
    after.Resolves name id inner := by
  obtain ⟨resolves, inFront⟩ := shadows
  induction resolves with
  | @here id passes =>
      have isOther : id ≠ holder := fun same => inFront.isBlock (same ▸ isFunction)
      exact .here ((rebinds.passes_iff_of_kept fun same => isOther same.1).mpr passes)
  | @above id _ _ fails next resolves inductionHypothesis =>
      cases inFront with
      | here => exact absurd resolves.passes fails
      | above isBlock inFrontNext inFront =>
          cases next.symm.trans inFrontNext
          have isOther : id ≠ holder := fun same => isBlock (same ▸ isFunction)
          exact .above (mt (rebinds.passes_iff_of_kept fun same => isOther same.1).mp fails)
            ((rebinds.parent _).trans next) (inductionHypothesis inFront)

/-- A shadowed name is read from the block that shadows it, as it was before. -/
theorem Shadows.lookup?_declare
    (shadows : scopes.Shadows name id inner)
    (placed : scopes.WellPlaced)
    (there : id < scopes.size)
    (value : Value) :
    (scopes.declare id name value).lookup? id name = scopes.own? inner name := by
  obtain ⟨holder, receives⟩ := exists_receives placed there
  have rebinds := rebinds_declare placed receives name value
  have resolves := shadows.of_rebinds rebinds receives.passes
  have afterPlaced : (scopes.declare id name value).WellPlaced := placed.bind _
  rw [lookup?_of_resolves afterPlaced resolves]
  refine rebinds.kept inner name fun same => shadows.inFront.isBlock ?_
  rw [same.1]
  exact receives.passes

end Scopes

/-! ## Statements that declare -/

namespace Action

/-- The name that a statement declares, and how its value is made: a variable with a value
or a function. -/
def declared? (frame : Frame) (scope : Nat) : Action → Option (String × Run Value)
  | .declare [.mk name (some term)] => some (name, term.eval frame scope)
  | .define routine => some (routine.name, Run.makeClosure routine scope)
  | _ => none

variable {frame : Frame} {scope : Nat} {action : Action} {name : String} {making : Run Value}

/-- Such a statement makes the value and declares it. -/
theorem run_of_declared? (declares : action.declared? frame scope = some (name, making)) :
    action.run frame scope = do
      let value ← making
      Run.changeScopes (·.declare scope name value)
      return .normal .undefined := by
  unfold declared? at declares
  split at declares
  · cases declares
    rw [run, Binding.declareAll, bind_assoc]
    refine congrArg _ (funext fun value => ?_)
    rw [bind_assoc]
    rfl
  · cases declares
    rw [run]
  · cases declares

end Action

/--
A statement that declares a name and ends without an error has declared the value it made,
and reading the name in the same scope gives that value, unless a block in front of the
nearest function scope binds the name itself; then it gives what that block binds it to.
-/
theorem Action.declaration_read_unless_shadowed
    {frame : Frame}
    {scope : Nat}
    {action : Action}
    {name : String}
    {making : Run Value}
    {machine after : Machine}
    {completion : Completion}
    (declares : action.declared? frame scope = some (name, making))
    (ran : action.run frame scope machine = .ok completion after)
    (there : scope < after.scopes.size) :
    ∃ value middle,
      making machine = .ok value middle ∧
      after = { middle with scopes := middle.scopes.declare scope name value } ∧
      (middle.scopes.Unshadowed name scope →
        Run.readReference scope (.variable name) after = .ok value after) ∧
      (middle.scopes.WellPlaced → ∀ inner, middle.scopes.Shadows name scope inner →
        ∃ other, middle.scopes.own? inner name = some other ∧
          Run.readReference scope (.variable name) after = .ok other after) := by
  rw [run_of_declared? declares] at ran
  obtain ⟨value, middle, made, ended⟩ := Run.ok_of_bind ran
  obtain rfl : { middle with scopes := middle.scopes.declare scope name value } = after :=
    (EStateM.Result.ok.inj ended).2
  have middleThere : scope < middle.scopes.size := by
    have same : (middle.scopes.declare scope name value).size = middle.scopes.size :=
      Array.size_modify
    rwa [same] at there
  refine ⟨value, middle, made, rfl, fun unshadowed => ?_, fun placed inner shadows => ?_⟩
  · rw [Scopes.readReference_variable, unshadowed.lookup?_declare middleThere]
  · obtain ⟨other, bound⟩ := Scopes.passes_has_iff.mp shadows.resolves.passes
    refine ⟨other, bound, ?_⟩
    rw [Scopes.readReference_variable, shadows.lookup?_declare placed middleThere, bound]

/-- A root and the block of a loop over keys, with the loop variable bound to a key. -/
def Scopes.inLoop : Scopes :=
  let root := (make #[] none false).2
  (root.make (some 0) false).2.bind 1 "k" (.string "key")

theorem Scopes.grown_inLoop : Grown inLoop :=
  .bind (.make (.make .none nofun) (by rintro _ ⟨⟩; decide)) (by decide)

/-- A machine in the body of that loop. -/
def Machine.inLoop : Machine := ⟨#[], Scopes.inLoop, 0, "", 0, 0, 0⟩

/-- A declaration of the variable of the loop. -/
def Action.redeclaration : Action := .declare [.mk "k" (some (.constant (.string "value")))]

/-- Outside the loop the declared value is read back, in its body the key is. -/
theorem Action.declaration_read_unless_shadowed_in_loop :
    (∃ after, redeclaration.run ⟨Run.callUpTo 0, 0, .undefined⟩ 0 Machine.inLoop =
        .ok (.normal .undefined) after ∧
      Run.readReference 0 (.variable "k") after = .ok (.string "value") after) ∧
    ∃ after, redeclaration.run ⟨Run.callUpTo 0, 0, .undefined⟩ 1 Machine.inLoop =
        .ok (.normal .undefined) after ∧
      Run.readReference 1 (.variable "k") after = .ok (.string "key") after := by
  constructor
  · obtain ⟨value, middle, made, -, reads, -⟩ :=
      @declaration_read_unless_shadowed ⟨Run.callUpTo 0, 0, .undefined⟩ 0 redeclaration _ _
        Machine.inLoop _ _ rfl rfl (by decide)
    cases made
    exact ⟨_, rfl, reads (Scopes.unshadowed_of_isFunction ⟨_, rfl, rfl⟩)⟩
  · obtain ⟨value, middle, made, -, -, shadowed⟩ :=
      @declaration_read_unless_shadowed ⟨Run.callUpTo 0, 0, .undefined⟩ 1 redeclaration _ _
        Machine.inLoop _ _ rfl rfl (by decide)
    cases made
    have isBlock : ¬ Scopes.inLoop.Passes (·.isFunction) 1 := by
      rintro ⟨_, isScope, isFunction⟩
      cases isScope
      cases isFunction
    obtain ⟨other, bound, reads⟩ :=
      shadowed Scopes.grown_inLoop.wellPlaced 1 ⟨.here ⟨_, rfl, rfl⟩, .here isBlock⟩
    cases bound
    exact ⟨_, rfl, reads⟩

end ScriptEngine
