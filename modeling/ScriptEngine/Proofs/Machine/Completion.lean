import ScriptEngine.Proofs.Code.Compilation

namespace ScriptEngine

/-!
# How fitting code completes

A statement that fits its surroundings completes only by jumps that have a target
there.  Loops, selections and labels each stop the jumps meant for them, so what
is left for the statements around is what those have targets for.
-/

variable {action : Action} {body : List Action} {place : Position → Prop} {free : Jump → Prop}
  {completion : Completion}

namespace Run

/-- Every value a run gives satisfies a predicate. -/
def Yields (holds : α → Prop) (run : Run α) : Prop :=
  ∀ machine value after, run machine = .ok value after → holds value

variable {holds : α → Prop}

theorem Yields.pure {value : α} (holdsValue : holds value) : Yields holds (pure value) := by
  rintro machine _ _ ⟨⟩
  exact holdsValue

theorem Yields.throw (abort : Abort) : Yields holds (throw abort) := by
  rintro machine value after ⟨⟩

/-- What the last part of a run yields, given what the first part yields. -/
theorem Yields.bind_of
    {first : Run β}
    {next : β → Run α}
    {between : β → Prop}
    (yieldsFirst : Yields between first)
    (yieldsNext : ∀ value, between value → Yields holds (next value)) :
    Yields holds (first >>= next) := by
  intro machine value after ran
  change EStateM.bind first next machine = .ok value after at ran
  unfold EStateM.bind at ran
  split at ran
  · rename_i middle machine' firstRan
    exact yieldsNext middle (yieldsFirst _ _ _ firstRan) _ _ _ ran
  · cases ran

theorem Yields.bind
    {first : Run β}
    {next : β → Run α}
    (yieldsNext : ∀ value, Yields holds (next value)) :
    Yields holds (first >>= next) :=
  have yieldsFirst : Yields (fun _ => True) first := fun _ _ _ _ => trivial
  yieldsFirst.bind_of fun value _ => yieldsNext value

end Run

namespace Completion

/-- A statement did not complete by a jump other than the given ones. -/
def Within (jumps : Jump → Prop) (completion : Completion) : Prop :=
  ∀ jump, completion.jump? = some jump → jumps jump

@[simp] theorem within_normal (jumps : Jump → Prop) (value : Value) :
    (normal value).Within jumps := by
  simp [Within, jump?]

@[simp] theorem within_returned (jumps : Jump → Prop) (value : Value) :
    (returned value).Within jumps := by
  simp [Within, jump?]

@[simp] theorem within_left (jumps : Jump → Prop) (label : Option String) :
    (left label).Within jumps ↔ jumps (.leave label) := by
  simp [Within, jump?]

@[simp] theorem within_again (jumps : Jump → Prop) (label : Option String) :
    (again label).Within jumps ↔ jumps (.again label) := by
  simp [Within, jump?]

variable {jumps : Jump → Prop}

/-- A loop stops the jumps meant for it. -/
theorem Within.leavesLoop
    {completion outcome : Completion}
    (within : completion.Within (action.inside jumps))
    (leaves : completion.leavesLoop? action.labels = some outcome) :
    outcome.Within jumps := by
  cases completion with
  | normal value => simp [leavesLoop?] at leaves
  | returned value =>
      simp only [leavesLoop?, Option.some.injEq] at leaves
      subst leaves
      simp
  | left label =>
      simp only [leavesLoop?, Option.some.injEq] at leaves
      subst leaves
      cases label with
      | none => simp [targets]
      | some label =>
          by_cases meant : label ∈ action.labels
          · simp [targets, meant]
          · simpa [targets, meant, Action.inside, Action.catches] using within
  | again label =>
      cases label with
      | none => simp [leavesLoop?, targets] at leaves
      | some label =>
          by_cases meant : label ∈ action.labels
          · simp [leavesLoop?, targets, meant] at leaves
          · simp only [leavesLoop?, targets, List.contains_eq_mem, meant, decide_false,
              Bool.false_eq_true, ↓reduceIte, Option.some.injEq] at leaves
            subst leaves
            simpa [meant, Action.inside, Action.catches] using within

/-- A label stops the jumps that leave it. -/
theorem Within.underLabels
    {labels : List String}
    (within : completion.Within ((Action.labeled labels body).inside jumps)) :
    (completion.underLabels labels).Within jumps := by
  cases completion with
  | normal value => simp [Completion.underLabels]
  | returned value => simp [Completion.underLabels]
  | left label =>
      cases label with
      | none =>
          simpa [Completion.underLabels, Action.inside, Action.catches, Action.isLoop,
            Action.isSelect] using within
      | some label =>
          by_cases meant : label ∈ labels
          · simp [Completion.underLabels, meant]
          · simpa [Completion.underLabels, meant, Action.inside, Action.catches,
              Action.labels] using within
  | again label =>
      cases label <;>
        simpa [Completion.underLabels, Action.inside, Action.catches, Action.isLoop] using within

/-- A selection stops the jumps without a label that leave it. -/
theorem Within.afterCase
    {subject : Term}
    {cases : List Case}
    (within : completion.Within ((Action.select subject cases).inside jumps))
    (other : completion ≠ .left none) :
    completion.Within jumps := by
  cases completion with
  | normal value => simp
  | returned value => simp
  | left label =>
      cases label with
      | none => exact (other rfl).elim
      | some label => simpa [Action.inside, Action.catches, Action.labels] using within
  | again label =>
      cases label <;>
        simpa [Action.inside, Action.catches, Action.isLoop] using within

end Completion

namespace Run

variable {jumps : Jump → Prop}

/-- The turns of a loop complete within what is around it, if its body does within the loop. -/
theorem turns_yields
    (test : Run Bool)
    {body : Run Completion}
    (update : Run Unit)
    (bodyYields : Yields (Completion.Within (action.inside jumps)) body)
    (budget : Nat) :
    Yields (Completion.Within jumps) (turns action.labels test body update budget) := by
  induction budget with
  | zero => exact Yields.throw _
  | succ budget inductionHypothesis =>
      refine Yields.bind fun goesOn => ?_
      split
      · refine Yields.bind_of bodyYields fun completion within => ?_
        split
        · rename_i outcome leaves
          exact Yields.pure (within.leavesLoop leaves)
        · exact Yields.bind fun _ => inductionHypothesis
      · exact Yields.pure (Completion.within_normal _ _)

/-- The rounds of a loop complete within what is around it, if its body does within the loop. -/
theorem rounds_yields
    (scope : Nat)
    (name : String)
    {body : Run Completion}
    (bodyYields : Yields (Completion.Within (action.inside jumps)) body)
    (keys : List String) :
    Yields (Completion.Within jumps) (rounds action.labels scope name body keys) := by
  induction keys with
  | nil => exact Yields.pure (Completion.within_normal _ _)
  | cons key keys inductionHypothesis =>
      refine Yields.bind fun _ => Yields.bind_of bodyYields fun completion within => ?_
      split
      · rename_i outcome leaves
        exact Yields.pure (within.leavesLoop leaves)
      · exact inductionHypothesis

end Run

mutual

/-- A fitting statement completes only by jumps that have a target around it. -/
theorem Action.run_yields
    {place : Position → Prop}
    {free jumps : Jump → Prop}
    (frame : Frame)
    (scope : Nat) :
    ∀ {action : Action}, action.Fits place free jumps →
      Run.Yields (Completion.Within jumps) (action.run frame scope)
  | .evaluate term, _ => by
      rw [Action.run]
      exact .bind fun value => .pure (Completion.within_normal _ _)
  | .check condition shown position, _ => by
      rw [Action.run]
      refine .bind fun value => ?_
      split
      · exact .pure (Completion.within_normal _ _)
      · exact .throw _
  | .declare bindings, _ => by
      rw [Action.run]
      exact .bind fun _ => .pure (Completion.within_normal _ _)
  | .define routine, _ => by
      rw [Action.run]
      exact .bind fun _ => .bind fun _ => .pure (Completion.within_normal _ _)
  | .giveBack value, _ => by
      rw [Action.run]
      exact .bind fun _ => .pure (Completion.within_returned _ _)
  | .block body, .block fitsBody => by
      rw [Action.run]
      exact Action.runAll_yields frame scope fitsBody
  | .branch condition consequence alternative, .branch _ fitsConsequence fitsAlternative => by
      rw [Action.run]
      refine .bind fun value => ?_
      split
      · exact Action.runAll_yields frame scope fitsConsequence
      · exact Action.runOption_yields frame scope fitsAlternative
  | .whileLoop labels condition body, .whileLoop _ fitsBody => by
      rw [Action.run]
      exact .bind fun inner =>
        Run.turns_yields _ _ (Action.runAll_yields frame inner fitsBody) _
  | .forLoop labels start condition update body, .forLoop _ _ _ fitsBody => by
      rw [Action.run]
      exact .bind fun _ => .bind fun inner =>
        Run.turns_yields _ _ (Action.runAll_yields frame inner fitsBody) _
  | .forIn labels name declares subject body, .forIn _ fitsBody => by
      rw [Action.run]
      have rounds (inner : Nat) :=
        Run.rounds_yields inner name (Action.runAll_yields frame inner fitsBody)
      split
      · exact .bind fun _ => .bind fun _ => .bind fun inner => .bind fun _ => rounds inner _
      · exact .bind fun _ => .bind fun inner => .bind fun _ => rounds inner _
  | .labeled labels body, .labeled fitsBody => by
      rw [Action.run]
      exact .bind fun inner =>
        .bind_of (Action.runAll_yields frame inner fitsBody) fun completion within =>
          .pure within.underLabels
  | .leave label, .leave target => by
      rw [Action.run]
      exact .pure (by simpa using target)
  | .again label, .again target => by
      rw [Action.run]
      exact .pure (by simpa using target)
  | .select subject cases, .select _ fitsCases => by
      rw [Action.run]
      refine .bind fun value => .bind fun found => ?_
      split
      · exact Case.runFrom_yields frame scope _ fitsCases
      · split
        · exact Case.runFrom_yields frame scope _ fitsCases
        · exact .pure (Completion.within_normal _ _)

/-- Statements that fit complete only by jumps that have a target around them. -/
theorem Action.runAll_yields
    {place : Position → Prop}
    {free jumps : Jump → Prop}
    (frame : Frame)
    (scope : Nat) :
    ∀ {body : List Action}, (∀ action ∈ body, action.Fits place free jumps) →
      Run.Yields (Completion.Within jumps) (Action.runAll frame scope body)
  | [], _ => by
      rw [Action.runAll]
      exact .pure (Completion.within_normal _ _)
  | first :: rest, fits => by
      rw [Action.runAll]
      refine .bind_of (Action.run_yields frame scope (fits first (by simp)))
        fun completion within => ?_
      split
      · exact Action.runAll_yields frame scope fun action member => fits action (by simp [member])
      · exact .pure within

/-- A fitting alternative completes only by jumps that have a target around it. -/
theorem Action.runOption_yields
    {place : Position → Prop}
    {free jumps : Jump → Prop}
    (frame : Frame)
    (scope : Nat) :
    ∀ {alternative : Option (List Action)},
      (∀ action ∈ alternative.getD [], action.Fits place free jumps) →
      Run.Yields (Completion.Within jumps) (Action.runOption frame scope alternative)
  | none, _ => by
      rw [Action.runOption]
      exact .pure (Completion.within_normal _ _)
  | some body, fits => by
      rw [Action.runOption]
      exact Action.runAll_yields frame scope fits

/-- The cases of a selection complete only by jumps that have a target around the selection. -/
theorem Case.runFrom_yields
    {place : Position → Prop}
    {free jumps : Jump → Prop}
    {subject : Term}
    {all : List Case}
    (frame : Frame)
    (scope skipped : Nat) :
    ∀ {cases : List Case},
      (∀ clause ∈ cases, clause.Fits place free ((Action.select subject all).inside jumps)) →
      Run.Yields (Completion.Within jumps) (Case.runFrom frame scope skipped cases)
  | [], _ => by
      rw [Case.runFrom]
      exact .pure (Completion.within_normal _ _)
  | .mk condition body :: rest, fits => by
      have fitsRest := fun clause member => fits clause (List.mem_cons_of_mem _ member)
      cases skipped with
      | succ skipped =>
          rw [Case.runFrom]
          exact Case.runFrom_yields frame scope skipped fitsRest
      | zero =>
          rw [Case.runFrom]
          rcases fits _ (List.mem_cons_self ..) with ⟨-, fitsBody⟩
          refine .bind_of (Action.runAll_yields frame scope fitsBody)
            fun completion within => ?_
          split
          · exact Case.runFrom_yields frame scope 0 fitsRest
          · exact .pure (Completion.within_normal _ _)
          · exact .pure (within.afterCase ‹_›)

end

namespace Action

variable {jumps : Jump → Prop}

/-- The jumps that have a target around a statement and are not meant for the statement itself. -/
def beyond
    (action : Action)
    (jumps : Jump → Prop) :
    Jump → Prop :=
  fun jump => jumps jump ∧ action.catches jump = false

/-- Inside a statement it does not matter whether its own jumps have another target around it. -/
theorem inside_beyond (action : Action) :
    action.inside (action.beyond jumps) = action.inside jumps := by
  funext jump
  cases caught : action.catches jump <;> simp [inside, beyond, caught]

/-- A statement that is no target leaves all jumps to those around it. -/
theorem beyond_eq_self
    (noLabels : action.labels = [])
    (noLoop : action.isLoop = false)
    (noSelect : action.isSelect = false) :
    action.beyond jumps = jumps := by
  funext jump
  rcases jump with (_ | label) | (_ | label) <;>
    simp [beyond, catches, noLabels, noLoop, noSelect]

/-- A fitting statement also fits where nothing around it is a target of its own jumps. -/
theorem Fits.beyond (fits : action.Fits place free jumps) :
    action.Fits place free (action.beyond jumps) := by
  cases fits with
  | whileLoop condition body => exact .whileLoop condition (by rwa [inside_beyond])
  | forLoop start condition update body =>
      exact .forLoop (by rwa [inside_beyond]) condition update (by rwa [inside_beyond])
  | forIn subject body => exact .forIn subject (by rwa [inside_beyond])
  | labeled body => exact .labeled (by rwa [inside_beyond])
  | select subject cases => exact .select subject (by rwa [inside_beyond])
  | evaluate | check | declare | define | giveBack | block | branch | leave | again =>
      rw [beyond_eq_self rfl rfl rfl]
      constructor <;> assumption

/-- No run of a fitting statement completes by a jump that the statement is the target of. -/
theorem run_jump_ne_of_catches
    (fits : action.Fits place free jumps)
    {jump : Jump}
    (caught : action.catches jump = true)
    {frame : Frame}
    {scope : Nat}
    {machine after : Machine}
    (ran : action.run frame scope machine = .ok completion after) :
    completion.jump? ≠ some jump := by
  intro isJump
  have beyond := run_yields frame scope fits.beyond _ _ _ ran jump isJump
  rw [beyond.2] at caught
  cases caught

end Action

namespace Code

/-- The bodies of code: its statements and the body of each of its functions. -/
def bodies (code : Code) : List (List Action) := code.main :: code.routines.map Routine.body

/--
No jump gets out of a body of code.  A statement of the program and the body of a
function complete normally or by a return.  A statement that completes by a jump
stands inside one that the jump is meant for, in the same body, and the innermost
of those never completes by that jump itself.
-/
structure ConfinesJumps (code : Code) : Prop where
  main :
    ∀ action ∈ code.main, ∀ frame scope machine completion after,
      action.run frame scope machine = .ok completion after →
      completion.jump? = none
  routines :
    ∀ routine ∈ code.routines, ∀ frame scope machine completion after,
      Action.runAll frame scope routine.body machine = .ok completion after →
      completion.jump? = none
  targets :
    ∀ body ∈ code.bodies, ∀ around action, Action.Stands body around action →
      ∀ frame scope machine completion after jump,
        action.run frame scope machine = .ok completion after →
        completion.jump? = some jump →
        ∃ target, around.find? (·.catches jump) = some target ∧
          ∀ frame scope machine completion after,
            target.run frame scope machine = .ok completion after →
            completion.jump? ≠ some jump

/-- The statements of every body of fitting code fit without targets. -/
theorem Fits.bodies
    {code : Code}
    (fits : code.Fits place free)
    (member : body ∈ code.bodies) :
    ∀ action ∈ body, action.Fits place free free := by
  rcases List.mem_cons.mp member with isMain | inRoutines
  · rw [isMain]
    exact fits.main
  · obtain ⟨routine, isRoutine, rfl⟩ := List.mem_map.mp inRoutines
    cases fits.routines routine isRoutine with
    | mk fitsBody => exact fitsBody

end Code

/-- A statement around another one in a fitting body fits, whatever is around it. -/
theorem Action.Stands.fits_around
    {around : List Action}
    {outer : Action}
    (stands : Stands body around action)
    (bodyFits : ∀ first ∈ body, first.Fits place free (fun _ => False))
    (member : outer ∈ around) :
    ∃ jumps, outer.Fits place free jumps := by
  induction stands with
  | top => cases member
  | inner standsOuter _ inductionHypothesis =>
      rcases List.mem_cons.mp member with isOuter | further
      · rw [isOuter]
        exact ⟨_, standsOuter.fits bodyFits⟩
      · exact inductionHypothesis further

/-- No jump gets out of a body of a lowered program. -/
theorem Code.ofProgram_confinesJumps
    {assertions : Bool}
    {program : Program}
    {code : Code}
    (lowered : ofProgram assertions program = .ok code) :
    code.ConfinesJumps := by
  have fits : code.Fits (fun _ => True) (fun _ => False) := .ofProgram lowered
  refine ⟨?_, ?_, ?_⟩
  · intro action member frame scope machine completion after ran
    have within := Action.run_yields frame scope (fits.main action member) _ _ _ ran
    exact Option.eq_none_iff_forall_ne_some.mpr within
  · intro routine member frame scope machine completion after ran
    have bodyFits := fits.bodies (.tail _ (List.mem_map_of_mem member))
    have within := Action.runAll_yields frame scope bodyFits _ _ _ ran
    exact Option.eq_none_iff_forall_ne_some.mpr within
  · intro body member around action stands frame scope machine completion after jump ran isJump
    have bodyFits := fits.bodies member
    have caught := Action.run_yields frame scope (stands.fits bodyFits) _ _ _ ran jump isJump
    obtain ⟨outer, isAround, catchesJump⟩ := caught
    have found : (around.find? (·.catches jump)).isSome = true :=
      List.find?_isSome.mpr ⟨outer, isAround, catchesJump⟩
    obtain ⟨target, isTarget⟩ := Option.isSome_iff_exists.mp found
    obtain ⟨jumps, targetFits⟩ :=
      stands.fits_around bodyFits (List.mem_of_find?_eq_some isTarget)
    have targetCatches : target.catches jump = true := by
      simpa using List.find?_some isTarget
    refine ⟨target, isTarget, ?_⟩
    intro frame scope machine completion after targetRan
    exact Action.run_jump_ne_of_catches targetFits targetCatches targetRan

/-- A loop under a label with a selection inside, left from a case by that label. -/
def Program.leavingLoop : Program :=
  let token (literal : String) : Token :=
    { kind := .identifier, literal, line := 1, column := 1, start := 0, stop := 1,
      newlineBefore := false }
  { source := ⟨"loop", "", ""⟩
    statements := [
      .labeled (token "outer")
        (.whileLoop (token "while") (.boolean (token "true") true)
          (.select (token "switch") (.number (token "1") 1.0)
            [.mk (token "case") (some (.number (token "1") 1.0))
              [.leave (token "break") (some (token "outer"))],
              .mk (token "default") none [.leave (token "break") none]]))] }

theorem Code.leavingLoop_confinesJumps :
    ∃ code, ofProgram true Program.leavingLoop = .ok code ∧ code.ConfinesJumps ∧
      ∃ around, Action.Stands code.main around (.leave (some "outer")) := by
  have lowered : ∃ code, ofProgram true Program.leavingLoop = .ok code := ⟨_, rfl⟩
  obtain ⟨code, isCode⟩ := lowered
  refine ⟨code, isCode, ofProgram_confinesJumps isCode, ?_⟩
  cases isCode
  exact ⟨_, .inner (.inner (.top (.head _)) (.head _)) (.head _)⟩

end ScriptEngine
