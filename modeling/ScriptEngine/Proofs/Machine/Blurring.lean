import ScriptEngine.Proofs.Code.Blurring
import ScriptEngine.Proofs.Machine.RewrittenRuns

namespace ScriptEngine

/-!
# Machines up to numbers and sources of code

Values name objects and hold no code.  Code comes into a machine only with the functions
on its heap, and into an outcome only with the place of an error.  So a blurred machine
differs from the machine in the functions on the heap and in nothing else.  It resembles
the machine in the likeness in which all functions are blurred.

A run mirrors another one if on blurred machines it does, blurred, what the other one
does.  A run that mirrors itself is blind to what is blurred.  To mirror a run is to follow
it in this likeness.
-/

/-- What an object has besides its properties, with blurred code. -/
def ObjectBody.blurred (view : Source → Source) : ObjectBody → ObjectBody
  | .closure routine scope => .closure (routine.rewritten (.blurring view)) scope
  | .plain => .plain
  | .array storage => .array storage
  | .builtin function => .builtin function
  | .pattern expression => .pattern expression

/-- An object with blurred code. -/
def HeapObject.blurred (view : Source → Source) (object : HeapObject) : HeapObject :=
  { object with body := object.body.blurred view }

/-- The reason why there is no result, with a blurred place. -/
def Abort.blurred (view : Source → Source) : Abort → Abort
  | raised error => raised (error.blurred view)
  | broken fault => broken fault

/-- Blurring keeps the cause of an error. -/
theorem Abort.fault_of_blurred
    {view : Source → Source}
    {abort other : Abort}
    (same : abort.blurred view = other.blurred view) :
    abort.error.fault = other.error.fault := by
  have faultOf (abort : Abort) : (abort.blurred view).error.fault = abort.error.fault := by
    cases abort <;> rfl
  rw [← faultOf abort, same, faultOf other]

theorem Abort.locate_blurred (view : Source → Source) (position : Position) (abort : Abort) :
    (abort.blurred view).locate (position.blurred view) =
      (abort.locate position).blurred view := by
  cases abort with
  | broken fault => rfl
  | raised error =>
      obtain ⟨fault, place⟩ := error
      cases place <;> rfl

/-- The heap with blurred code. -/
def Heap.blurred (view : Source → Source) (heap : Heap) : Heap := heap.map (HeapObject.blurred view)

/-- The machine with blurred code on its heap. -/
def Machine.blurred (view : Source → Source) (machine : Machine) : Machine :=
  { machine with heap := machine.heap.blurred view }

/-- The outcome of a run, blurred. -/
def Run.blurred (view : Source → Source) :
    EStateM.Result Abort Machine α → EStateM.Result Abort Machine α
  | .ok value machine => .ok value (machine.blurred view)
  | .error abort machine => .error (abort.blurred view) (machine.blurred view)

/-- One run does on blurred machines, blurred, what another one does. -/
def Run.Mirrors (view : Source → Source) (run mirror : Run α) : Prop :=
  ∀ machine, mirror (machine.blurred view) = blurred view (run machine)

/-- A run that does not see what is blurred. -/
def Run.Blind (view : Source → Source) (run : Run α) : Prop := Mirrors view run run

theorem Abort.broken_blurred (view : Source → Source) (fault : InternalFault) :
    Abort.broken fault = (Abort.broken fault).blurred view :=
  rfl

/-- All functions are blurred, and whatever fails does so by a blurred error. -/
def Likeness.blurring (view : Source → Source) : Likeness where
  rewrites rewriting := rewriting = .blurring view
  isStrict := True
  aborts abort other := other = abort.blurred view
  fails _ := rfl
  breaks := Abort.broken_blurred view
  locates := by
    rintro _ rfl position abort _ rfl
    exact abort.locate_blurred view position
  leavesOut := by
    rintro _ rfl condition leftOut
    cases leftOut

section

variable {view : Source → Source}

theorem ObjectBody.resembles_blurring_iff {body other : ObjectBody} :
    body.Resembles (.blurring view) other ↔ other = body.blurred view := by
  constructor
  · intro resembles
    cases resembles with
    | closure rewrites routine scope =>
        cases rewrites
        rfl
    | _ => rfl
  · rintro rfl
    cases body with
    | closure routine scope => exact .closure rfl routine scope
    | plain => exact .plain
    | array storage => exact .array storage
    | builtin function => exact .builtin function
    | pattern expression => exact .pattern expression

theorem HeapObject.resembles_blurring_iff {object other : HeapObject} :
    object.Resembles (.blurring view) other ↔ other = object.blurred view := by
  obtain ⟨prototype, properties, body⟩ := other
  constructor
  · rintro ⟨rfl, rfl, sameBody⟩
    exact congrArg _ (ObjectBody.resembles_blurring_iff.mp sameBody)
  · intro same
    obtain ⟨rfl, rfl, sameBody⟩ := HeapObject.mk.inj same
    exact ⟨rfl, rfl, ObjectBody.resembles_blurring_iff.mpr sameBody⟩

theorem Heap.resembles_blurring_iff {heap other : Heap} :
    heap.Resembles (.blurring view) other ↔ other = heap.blurred view := by
  have place (id : Nat) :
      Option.Rel (HeapObject.Resembles (.blurring view)) heap[id]? other[id]? ↔
        other[id]? = (heap.blurred view)[id]? := by
    unfold blurred
    rw [Array.getElem?_map]
    cases heap[id]? with
    | none => cases other[id]? <;> simp
    | some object => cases other[id]? <;> simp [HeapObject.resembles_blurring_iff]
  exact (forall_congr' place).trans ⟨Array.ext_getElem?, fun same id => by rw [same]⟩

theorem Machine.resembles_blurring_iff {machine other : Machine} :
    machine.Resembles (.blurring view) other ↔ other = machine.blurred view := by
  constructor
  · rintro ⟨heap, resembles, rfl⟩
    rw [Heap.resembles_blurring_iff] at resembles
    rw [resembles]
    rfl
  · rintro rfl
    refine ⟨machine.heap.blurred view, ?_, rfl⟩
    rw [Heap.resembles_blurring_iff]

namespace Run

theorem outcomes_blurring_iff {result other : EStateM.Result Abort Machine α} :
    Outcomes (.blurring view) result other ↔ other = blurred view result := by
  constructor
  · intro outcomes
    cases outcomes with
    | done resembles =>
        rw [Machine.resembles_blurring_iff] at resembles
        rw [resembles, blurred]
    | failed aborts resembles =>
        rw [Machine.resembles_blurring_iff] at resembles
        cases aborts
        rw [resembles, blurred]
    | givenUp loose => exact absurd trivial loose
  · rintro rfl
    have resembles (machine : Machine) :
        machine.Resembles (.blurring view) (machine.blurred view) := by
      rw [Machine.resembles_blurring_iff]
    cases result with
    | ok value machine => exact .done (resembles machine)
    | error abort machine => exact .failed rfl (resembles machine)

/-- To mirror a run is to follow it when all functions are blurred. -/
theorem mirrors_iff_follows {run mirror : Run α} :
    Mirrors view run mirror ↔ Follows (.blurring view) run mirror := by
  simp only [Mirrors, Follows, Machine.resembles_blurring_iff, outcomes_blurring_iff, forall_eq]

theorem Mirrors.pure (value : α) : Mirrors view (pure value) (pure value) := by
  rw [mirrors_iff_follows]
  exact .pure value

theorem Mirrors.bind
    {first mirror : Run α}
    {next following : α → Run β}
    (firstMirrors : Mirrors view first mirror)
    (nextMirrors : ∀ value, Mirrors view (next value) (following value)) :
    Mirrors view (first >>= next) (mirror >>= following) := by
  simp only [mirrors_iff_follows] at *
  exact .bind firstMirrors nextMirrors

end Run

end

/-!
## Blurred code does the same

Running blurred code on a blurred machine is running the code on the machine, and
blurring what comes of it.  The numbers of functions and the sources of places are
carried along and never looked at, neither by the code nor by the calls made from it.
-/

section

variable {view : Source → Source} {frame : Frame}
  (calls : ∀ callee this arguments, Run.Blind view (frame.call callee this arguments))

include calls

/-- Running a blurred statement. -/
theorem Action.run_blurred (scope : Nat) (action : Action) :
    Run.Mirrors view (action.run frame scope)
      ((action.rewritten (.blurring view)).run frame scope) := by
  simp only [Run.Blind, Run.mirrors_iff_follows] at calls ⊢
  exact Action.run_rewritten calls rfl scope action

/-- Running blurred statements. -/
theorem Action.runAll_blurred (scope : Nat) (body : List Action) :
    Run.Mirrors view (Action.runAll frame scope body)
      (Action.runAll frame scope (Action.rewrittenAll (.blurring view) body)) := by
  simp only [Run.Blind, Run.mirrors_iff_follows] at calls ⊢
  exact Action.runAll_rewritten calls rfl scope body

end

/-- No call sees code, however deeply calls may nest. -/
theorem Run.Blind.callUpTo
    {view : Source → Source}
    (patience : Nat)
    (callee this : Value)
    (arguments : List Value) :
    Run.Blind view (Run.callUpTo patience callee this arguments) := by
  rw [Run.Blind, Run.mirrors_iff_follows]
  exact Run.Steady.callUpTo patience callee this arguments

end ScriptEngine
