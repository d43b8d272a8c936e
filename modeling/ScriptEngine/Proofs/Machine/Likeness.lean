import ScriptEngine.Proofs.Code.Rewriting
import ScriptEngine.Proofs.Machine.Uniform

namespace ScriptEngine

/-!
# Machines whose functions are rewritten

One machine resembles another one if it differs from it in nothing but the functions on its
heap, each of which is rewritten in one of some ways.  The outlines of the heaps are the same
then, and so is whatever reads the heap without calling a function.

A run follows another one if, from a machine that resembles the other one's, it comes to what
the other one comes to: to the same value, and to a machine that resembles the other one's.  A
run that follows itself is steady.  The rules for both go along with the rules that runs are
built by.
-/

variable {α : Type} {run follower : Run α} {rewriting : Rewriting}

/--
What is common to runs that are likened to one another: the ways in which their functions may be
rewritten, and the errors by which they may fail.  In a strict likeness a run that fails is
followed by runs that fail only.  A check is left out only where failing runs do not matter, and
only if its condition comes to a value without any effect.
-/
structure Likeness where
  rewrites : Rewriting → Prop
  isStrict : Prop
  aborts : Abort → Abort → Prop
  fails : ∀ fault, aborts (.raised ⟨fault, none⟩) (.raised ⟨fault, none⟩)
  breaks : ∀ fault, aborts (.broken fault) (.broken fault)
  locates : ∀ {rewriting}, rewrites rewriting → ∀ position {abort other}, aborts abort other →
    aborts (abort.locate position) (other.locate (rewriting.position position))
  leavesOut : ∀ {rewriting}, rewrites rewriting → ∀ {condition},
    rewriting.leavesOut condition = true →
    ¬isStrict ∧ ∀ frame scope machine, ∃ value,
      condition.eval frame scope machine = .ok value machine

/-! ## Machines -/

/-- An object is made of what another one is made of, its code rewritten. -/
inductive ObjectBody.Resembles (likeness : Likeness) : ObjectBody → ObjectBody → Prop where
  | closure
      {rewriting : Rewriting}
      (rewrites : likeness.rewrites rewriting)
      (routine : Routine)
      (scope : Nat) :
      Resembles likeness (.closure routine scope) (.closure (routine.rewritten rewriting) scope)
  | plain : Resembles likeness .plain .plain
  | array (storage : Storage) : Resembles likeness (.array storage) (.array storage)
  | builtin (function : Builtin) : Resembles likeness (.builtin function) (.builtin function)
  | pattern (expression : Pattern) : Resembles likeness (.pattern expression) (.pattern expression)

/-- An object has the prototype and the properties of another one. -/
structure HeapObject.Resembles (likeness : Likeness) (object other : HeapObject) : Prop where
  prototype : other.prototype = object.prototype
  properties : other.properties = object.properties
  body : object.body.Resembles likeness other.body

/-- A heap has the objects of another one at their places. -/
def Heap.Resembles (likeness : Likeness) (heap other : Heap) : Prop :=
  ∀ id : Nat, Option.Rel (HeapObject.Resembles likeness) heap[id]? other[id]?

/-- A machine has the heap of another one, and all else is the same. -/
def Machine.Resembles (likeness : Likeness) (machine other : Machine) : Prop :=
  ∃ heap, machine.heap.Resembles likeness heap ∧ other = { machine with heap := heap }

section

variable {likeness : Likeness}

theorem ObjectBody.Resembles.outlined
    {body other : ObjectBody}
    (resembles : body.Resembles likeness other) :
    other.outlined = body.outlined := by
  cases resembles with
  | @closure rewriting _ routine scope =>
      rw [ObjectBody.outlined, ObjectBody.outlined, Routine.name_rewritten]
  | _ => rfl

namespace Heap.Resembles

variable {heap other : Heap} (resembles : heap.Resembles likeness other)

include resembles

/-- Heaps that resemble one another have the same outline. -/
theorem outlined : other.outlined = heap.outlined := by
  apply Array.ext_getElem?
  intro id
  rw [getElem?_outlined, getElem?_outlined]
  have atPlace := resembles id
  revert atPlace
  cases heap[id]? with
  | none =>
      cases other[id]? with
      | none => exact fun _ => rfl
      | some object => exact fun related => nomatch related
  | some object =>
      cases other[id]? with
      | none => exact fun related => nomatch related
      | some object =>
          rintro ⟨samePrototype, sameProperties, sameBody⟩
          simp only [Option.map_some, HeapObject.outlined, samePrototype, sameProperties,
            sameBody.outlined]

theorem size : Array.size other = Array.size heap := by
  rw [← size_outlined other, resembles.outlined, size_outlined]

theorem body (id : Nat) : (heap.body id).Resembles likeness (other.body id) := by
  unfold Heap.body
  have atPlace := resembles id
  revert atPlace
  cases heap[id]? with
  | none =>
      cases other[id]? with
      | none => exact fun _ => .plain
      | some object => exact fun related => nomatch related
  | some object =>
      cases other[id]? with
      | none => exact fun related => nomatch related
      | some object =>
          rintro ⟨related⟩
          exact related.body

theorem push {object twin : HeapObject} (related : object.Resembles likeness twin) :
    Heap.Resembles likeness (Array.push heap object) (Array.push other twin) := by
  intro id
  rw [Array.getElem?_push, Array.getElem?_push, resembles.size]
  split
  · exact .some related
  · exact resembles id

end Heap.Resembles

end

namespace Heap

/-- A change that leads from heaps that resemble one another to such heaps. -/
def Spares (likeness : Likeness) (change : Heap → Heap) : Prop :=
  ∀ heap other, heap.Resembles likeness other →
    (change heap).Resembles likeness (change other)

variable {likeness : Likeness}

/-- Changing one object, whatever its code is. -/
theorem spares_modify
    (id : Nat)
    {change : HeapObject → HeapObject}
    (spares : ∀ object other, object.Resembles likeness other →
      (change object).Resembles likeness (change other)) :
    Spares likeness (·.modify id change) := by
  intro heap other resembles place
  have atPlace := resembles place
  rw [Array.getElem?_modify, Array.getElem?_modify]
  split
  · revert atPlace
    cases heap[place]? with
    | none =>
        cases other[place]? with
        | none => exact fun _ => .none
        | some object => exact fun related => nomatch related
    | some object =>
        cases other[place]? with
        | none => exact fun related => nomatch related
        | some object =>
            rintro ⟨related⟩
            exact .some (spares _ _ related)
  · exact atPlace

theorem spares_setOwn (id : Nat) (name : String) (value : Value) :
    Spares likeness (·.setOwn id name value) :=
  spares_modify id fun _ _ related => by
    refine ⟨related.prototype, ?_, related.body⟩
    simp only [related.properties]

theorem spares_eraseOwn (id : Nat) (name : String) : Spares likeness (·.eraseOwn id name) :=
  spares_modify id fun _ _ related => by
    refine ⟨related.prototype, ?_, related.body⟩
    simp only [related.properties]

theorem spares_modifyStorage (id : Nat) (change : Storage → Storage) :
    Spares likeness (·.modifyStorage id change) := by
  refine spares_modify id fun object other related => ?_
  obtain ⟨prototype, properties, body⟩ := object
  obtain ⟨otherPrototype, otherProperties, otherBody⟩ := other
  obtain ⟨rfl, rfl, sameBody⟩ := related
  cases sameBody with
  | closure rewrites routine scope => exact ⟨rfl, rfl, .closure rewrites routine scope⟩
  | plain => exact ⟨rfl, rfl, .plain⟩
  | array storage => exact ⟨rfl, rfl, .array _⟩
  | builtin function => exact ⟨rfl, rfl, .builtin function⟩
  | pattern expression => exact ⟨rfl, rfl, .pattern expression⟩

end Heap

namespace Run

theorem Alters.spares {likeness : Likeness} {change : Heap → Heap} (alters : Alters change) :
    Heap.Spares likeness change := by
  cases alters with
  | setOwn id name value => exact Heap.spares_setOwn id name value
  | eraseOwn id name => exact Heap.spares_eraseOwn id name
  | modifyStorage id becomes => exact Heap.spares_modifyStorage id _

/-! ## Runs -/

/--
What a run comes to is what another one comes to.  Nothing is said of a run that is to follow one
that fails, unless the likeness is strict.
-/
inductive Outcomes (likeness : Likeness) :
    EStateM.Result Abort Machine α → EStateM.Result Abort Machine α → Prop where
  | done
      {value : α}
      {machine other : Machine}
      (resembles : machine.Resembles likeness other) :
      Outcomes likeness (.ok value machine) (.ok value other)
  | failed
      {abort otherAbort : Abort}
      {machine other : Machine}
      (aborts : likeness.aborts abort otherAbort)
      (resembles : machine.Resembles likeness other) :
      Outcomes likeness (.error abort machine) (.error otherAbort other)
  | givenUp
      {abort : Abort}
      {machine : Machine}
      {other : EStateM.Result Abort Machine α}
      (loose : ¬likeness.isStrict) :
      Outcomes likeness (.error abort machine) other

/-- From a machine that resembles another one, the second run comes to what the first one does. -/
def Follows (likeness : Likeness) (run follower : Run α) : Prop :=
  ∀ machine other, machine.Resembles likeness other →
    Outcomes likeness (run machine) (follower other)

/-- A run that follows itself. -/
def Steady (likeness : Likeness) (run : Run α) : Prop := Follows likeness run run

variable {likeness : Likeness}

namespace Follows

theorem pure (value : α) : Follows likeness (pure value) (pure value) :=
  fun _ _ resembles => .done resembles

theorem bind
    {first : Run α}
    {next following : α → Run β}
    (firstFollows : Follows likeness first follower)
    (nextFollows : ∀ value, Follows likeness (next value) (following value)) :
    Follows likeness (first >>= next) (follower >>= following) := by
  intro machine other resembles
  have outcomes := firstFollows machine other resembles
  cases ran : first machine with
  | ok value middle =>
      rw [ran] at outcomes
      generalize followed : follower other = result at outcomes
      cases outcomes with
      | done resembles =>
          rw [bind_of_ok ran, bind_of_ok followed]
          exact nextFollows value middle _ resembles
  | error abort middle =>
      rw [ran] at outcomes
      rw [bind_of_error ran]
      generalize followed : follower other = result at outcomes
      cases outcomes with
      | failed aborts resembles =>
          rw [bind_of_error followed]
          exact .failed aborts resembles
      | givenUp loose => exact .givenUp loose

/-- Going on from the heap. -/
theorem heap
    {next following : Heap → Run α}
    (nextFollows : ∀ heap other, heap.Resembles likeness other →
      Follows likeness (next heap) (following other)) :
    Follows likeness (Run.heap >>= next) (Run.heap >>= following) := by
  rintro machine _ ⟨heap, resembles, rfl⟩
  exact nextFollows machine.heap heap resembles machine _ ⟨heap, resembles, rfl⟩

/-- Going on from the scopes, which hold no code. -/
theorem scopes
    {next following : Machine → Run α}
    (onlyScopes : ∀ machine other, machine.scopes = other.scopes →
      following machine = following other)
    (nextFollows : ∀ machine, Follows likeness (next machine) (following machine)) :
    Follows likeness (get >>= next) (get >>= following) := by
  rintro machine _ ⟨heap, resembles, rfl⟩
  change Outcomes likeness (next machine machine)
    (following { machine with heap := heap } { machine with heap := heap })
  rw [onlyScopes { machine with heap := heap } machine rfl]
  exact nextFollows machine machine _ ⟨heap, resembles, rfl⟩

theorem locate
    (rewrites : likeness.rewrites rewriting)
    (position : Position)
    (follows : Follows likeness run follower) :
    Follows likeness (Run.locate position run)
      (Run.locate (rewriting.position position) follower) := by
  intro machine other resembles
  have outcomes := follows machine other resembles
  unfold Run.locate
  generalize run machine = result at outcomes
  generalize follower other = otherResult at outcomes
  cases outcomes with
  | done resembles => exact .done resembles
  | failed aborts resembles => exact .failed (likeness.locates rewrites position aborts) resembles
  | givenUp loose => exact .givenUp loose

theorem raise
    (rewrites : likeness.rewrites rewriting)
    (fault : Fault)
    (position : Position) :
    Follows likeness (throw (.raised ⟨fault, some position⟩) : Run α)
      (throw (.raised ⟨fault, some (rewriting.position position)⟩)) :=
  fun _ _ resembles => .failed (likeness.locates rewrites position (likeness.fails fault)) resembles

theorem deeper (follows : Follows likeness run follower) :
    Follows likeness (Run.deeper run) (Run.deeper follower) := by
  rintro machine _ ⟨heap, resembles, rfl⟩
  let entered : Machine := { machine with depth := machine.depth + 1 }
  have outcomes := follows entered _ ⟨heap, resembles, rfl⟩
  unfold Run.deeper
  dsimp only [entered] at outcomes ⊢
  split
  · exact .failed (likeness.fails _) ⟨heap, resembles, rfl⟩
  · generalize run _ = result at outcomes
    generalize follower _ = otherResult at outcomes
    cases outcomes with
    | done resembles =>
        obtain ⟨left, resembles, rfl⟩ := resembles
        exact .done ⟨left, resembles, rfl⟩
    | failed aborts resembles =>
        obtain ⟨left, resembles, rfl⟩ := resembles
        exact .failed aborts ⟨left, resembles, rfl⟩
    | givenUp loose => exact .givenUp loose

theorem makeObject {object other : HeapObject} (related : object.Resembles likeness other) :
    Follows likeness (Run.makeObject object) (Run.makeObject other) := by
  rintro machine _ ⟨heap, resembles, rfl⟩
  change Outcomes likeness
    (.ok machine.heap.size { machine with heap := machine.heap.push object })
    (.ok heap.size { machine with heap := heap.push other })
  rw [resembles.size]
  exact .done ⟨_, resembles.push related, rfl⟩

end Follows

namespace Steady

theorem pure (value : α) : Steady likeness (pure value) :=
  Follows.pure value

theorem bind
    {first : Run α}
    {next : α → Run β}
    (firstSteady : Steady likeness first)
    (nextSteady : ∀ value, Steady likeness (next value)) :
    Steady likeness (first >>= next) :=
  Follows.bind firstSteady nextSteady

/-- Going on from what the outline of the heap shows as the heap does. -/
theorem heap
    {next : Heap → Run α}
    (same : ∀ heap, next heap.outlined = next heap)
    (nextSteady : ∀ heap, Steady likeness (next heap)) :
    Steady likeness (Run.heap >>= next) := by
  refine Follows.heap fun heap other resembles => ?_
  rw [← same other, resembles.outlined, same heap]
  exact nextSteady heap

theorem scopes
    {next : Machine → Run α}
    (onlyScopes : ∀ machine other, machine.scopes = other.scopes → next machine = next other)
    (nextSteady : ∀ machine, Steady likeness (next machine)) :
    Steady likeness (get >>= next) :=
  Follows.scopes onlyScopes nextSteady

theorem fail (fault : Fault) : Steady likeness (Run.fail fault : Run α) :=
  fun _ _ resembles => .failed (likeness.fails fault) resembles

theorem failType (fault : TypeFault) : Steady likeness (Run.failType fault : Run α) :=
  fail (.type fault)

theorem broken (fault : InternalFault) : Steady likeness (throw (.broken fault) : Run α) :=
  fun _ _ resembles => .failed (likeness.breaks fault) resembles

theorem deeper (steady : Steady likeness run) : Steady likeness (Run.deeper run) :=
  Follows.deeper steady

theorem changeHeap {change : Heap → Heap} (spares : Heap.Spares likeness change) :
    Steady likeness (Run.changeHeap change) := by
  rintro machine _ ⟨heap, resembles, rfl⟩
  exact .done ⟨change heap, spares machine.heap heap resembles, rfl⟩

theorem changeScopes (change : Scopes → Scopes) : Steady likeness (Run.changeScopes change) := by
  rintro machine _ ⟨heap, resembles, rfl⟩
  exact .done ⟨heap, resembles, rfl⟩

theorem makeScope (parent : Option Nat) (isFunction : Bool) :
    Steady likeness (Run.makeScope parent isFunction) := by
  rintro machine _ ⟨heap, resembles, rfl⟩
  exact .done ⟨heap, resembles, rfl⟩

theorem printLine (line : String) : Steady likeness (Run.printLine line) := by
  rintro machine _ ⟨heap, resembles, rfl⟩
  exact .done ⟨heap, resembles, rfl⟩

theorem random : Steady likeness Run.random := by
  rintro machine _ ⟨heap, resembles, rfl⟩
  rw [random_eq, random_eq]
  exact .done ⟨heap, resembles, rfl⟩

theorem makePlain (prototype : Option Nat) : Steady likeness (Run.makePlain prototype) :=
  .bind (Follows.makeObject ⟨rfl, rfl, .plain⟩) fun _ => .pure _

theorem makeArray (storage : Storage) : Steady likeness (Run.makeArray storage) :=
  .bind (Follows.makeObject ⟨rfl, rfl, .array storage⟩) fun _ => .pure _

theorem makePattern (pattern : Pattern) : Steady likeness (Run.makePattern pattern) :=
  .bind (Follows.makeObject ⟨rfl, rfl, .pattern pattern⟩) fun _ => .pure _

end Steady

/-- A run that looks at no code is steady if the calls it makes are. -/
theorem Uniform.steady
    {call : Caller}
    (calls : ∀ callee this arguments, Steady likeness (call callee this arguments))
    (uniform : Uniform call run) :
    Steady likeness run := by
  induction uniform with
  | pure value => exact .pure value
  | bind _ _ first next => exact .bind first next
  | heap same _ next => exact .heap same next
  | scopes onlyScopes _ next => exact .scopes onlyScopes next
  | @fail _ fault _ => exact .fail fault
  | broken fault => exact .broken fault
  | deeper _ inner => exact .deeper inner
  | changeHeap alters => exact .changeHeap alters.spares
  | changeScopes change => exact .changeScopes change
  | makePlain prototype => exact .makePlain prototype
  | makeArray storage => exact .makeArray storage
  | makePattern pattern => exact .makePattern pattern
  | printLine line => exact .printLine line
  | random => exact .random
  | call callee this arguments => exact calls callee this arguments

/-- Making a function of rewritten code. -/
theorem Follows.makeClosure
    (rewrites : likeness.rewrites rewriting)
    (routine : Routine)
    (scope : Nat) :
    Follows likeness (Run.makeClosure routine scope)
      (Run.makeClosure (routine.rewritten rewriting) scope) := by
  unfold Run.makeClosure
  rw [Routine.name_rewritten, Routine.parameters_rewritten]
  refine .bind (.makeObject ⟨rfl, rfl, .closure rewrites routine scope⟩) fun id => ?_
  refine .bind (.makeObject ⟨rfl, rfl, .plain⟩) fun prototype => ?_
  exact .bind (Steady.changeHeap (Heap.spares_modify id fun _ _ related =>
    ⟨related.prototype, rfl, related.body⟩)) fun _ => .pure _

end Run

end ScriptEngine
