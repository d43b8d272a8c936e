import ScriptEngine.Proofs.Machine.Building
import ScriptEngine.Proofs.Machine.JsonWriting

namespace ScriptEngine

/-!
# Runs that look at no code

Whatever operators and builtin functions ask the heap for its outline shows as well, and whatever
they do to it they do to properties, elements and prototypes.  None of them tells one function
from another but by its place and its name.  `Run.Uniform` says of which steps such runs are
made; all calls in them are calls of one caller.
-/

/-!
## The outline of a heap

Values name objects and hold no code.  Code comes into a machine only with the functions on its
heap.  The outline of a heap has of each function no more than its name, and whatever reads the
heap by way of properties, elements, prototypes and names reads the same in the outline.
-/

/-- What an object has besides its properties, of a function no more than its name. -/
def ObjectBody.outlined : ObjectBody → ObjectBody
  | .closure routine _ => .closure (.mk 0 routine.name [] [] false) 0
  | .plain => .plain
  | .array storage => .array storage
  | .builtin function => .builtin function
  | .pattern expression => .pattern expression

/-- The outline of an object. -/
def HeapObject.outlined (object : HeapObject) : HeapObject :=
  { object with body := object.body.outlined }

namespace Heap

/-- The outline of a heap. -/
def outlined (heap : Heap) : Heap := heap.map HeapObject.outlined

variable (heap : Heap)

@[simp] theorem size_outlined : heap.outlined.size = heap.size :=
  Array.size_map

@[simp] theorem getElem?_outlined (id : Nat) :
    heap.outlined[id]? = heap[id]?.map (HeapObject.outlined) :=
  Array.getElem?_map

@[simp] theorem properties_outlined (id : Nat) :
    heap.outlined.properties id = heap.properties id := by
  unfold properties
  rw [getElem?_outlined]
  cases heap[id]? <;> rfl

@[simp] theorem prototype?_outlined (id : Nat) :
    heap.outlined.prototype? id = heap.prototype? id := by
  unfold prototype?
  rw [getElem?_outlined]
  cases heap[id]? <;> rfl

@[simp] theorem body_outlined (id : Nat) : heap.outlined.body id = (heap.body id).outlined := by
  unfold body
  rw [getElem?_outlined]
  cases heap[id]? <;> rfl

@[simp] theorem getOwn?_outlined (id : Nat) (name : String) :
    heap.outlined.getOwn? id name = heap.getOwn? id name := by
  unfold getOwn?
  rw [properties_outlined]

/-- A property is looked up along the prototypes, whatever the objects are made of. -/
theorem lookupFrom_outlined (name : String) (budget id : Nat) :
    heap.outlined.lookupFrom name budget id = heap.lookupFrom name budget id := by
  induction budget generalizing id with
  | zero => rfl
  | succ budget inductionHypothesis =>
      rw [lookupFrom, lookupFrom, getElem?_outlined]
      cases heap[id]? with
      | none => rfl
      | some object => simp only [Option.map_some, HeapObject.outlined, inductionHypothesis]

@[simp] theorem lookup?_outlined (id : Nat) (name : String) :
    heap.outlined.lookup? id name = heap.lookup? id name := by
  unfold lookup?
  rw [size_outlined, lookupFrom_outlined]

theorem reachesFrom_outlined (wanted budget : Nat) (start : Option Nat) :
    heap.outlined.reachesFrom wanted budget start =
      heap.reachesFrom wanted budget start := by
  induction budget generalizing start with
  | zero => rfl
  | succ budget inductionHypothesis =>
      cases start with
      | none => rfl
      | some id => rw [reachesFrom, reachesFrom, prototype?_outlined, inductionHypothesis]

@[simp] theorem reaches_outlined (start : Option Nat) (wanted : Nat) :
    heap.outlined.reaches start wanted = heap.reaches start wanted := by
  unfold reaches
  rw [size_outlined, reachesFrom_outlined]

@[simp] theorem storage_outlined (id : Nat) : heap.outlined.storage id = heap.storage id := by
  unfold storage
  rw [body_outlined]
  cases heap.body id <;> rfl

@[simp] theorem elements_outlined (id : Nat) : heap.outlined.elements id = heap.elements id := by
  unfold elements
  rw [storage_outlined]

@[simp] theorem arrayLength_outlined (id : Nat) :
    heap.outlined.arrayLength id = heap.arrayLength id := by
  unfold arrayLength
  rw [storage_outlined]

@[simp] theorem pattern?_outlined (id : Nat) : heap.outlined.pattern? id = heap.pattern? id := by
  unfold pattern?
  rw [body_outlined]
  cases heap.body id <;> rfl

@[simp] theorem functionName_outlined (value : Value) :
    heap.outlined.functionName value = heap.functionName value := by
  unfold functionName
  split
  · rename_i id
    rw [body_outlined]
    cases heap.body id <;> rfl
  · rename_i id
    rw [body_outlined]
    cases heap.body id <;> rfl
  · rfl

/-- The default text of a value shows no code, only names of functions. -/
theorem textWithin_outlined (budget : Nat) (value : Value) :
    heap.outlined.textWithin budget value = heap.textWithin budget value := by
  induction budget generalizing value with
  | zero => cases value with
    | object kind id => cases kind <;> simp [textWithin]
    | _ => simp [textWithin]
  | succ budget inductionHypothesis =>
      have within : heap.outlined.textWithin budget = heap.textWithin budget :=
        funext inductionHypothesis
      cases value with
      | object kind id => cases kind <;> simp [textWithin, within]
      | _ => simp [textWithin]

@[simp] theorem text?_outlined (value : Value) : heap.outlined.text? value = heap.text? value := by
  unfold text? boundlessNesting
  rw [size_outlined, textWithin_outlined]

@[simp] theorem describe_outlined (value : Value) :
    heap.outlined.describe value = heap.describe value := by
  unfold describe
  simp

@[simp] theorem read?_outlined (value : Value) (name : String) :
    heap.outlined.read? value name = heap.read? value name := by
  unfold read?
  simp

@[simp] theorem owns_outlined (value : Value) (name : String) :
    heap.outlined.owns value name = heap.owns value name := by
  unfold owns
  simp

@[simp] theorem keys_outlined (value : Value) : heap.outlined.keys value = heap.keys value := by
  unfold keys
  simp

@[simp] theorem ownKeys_outlined (value : Value) :
    heap.outlined.ownKeys value = heap.ownKeys value := by
  unfold ownKeys
  simp

/-- A value is shown without any code, only with names of functions. -/
theorem inspectFrom_outlined
    (budget : Nat)
    (nested : Bool)
    (seen : List Nat)
    (value : Value) :
    heap.outlined.inspectFrom budget nested seen value =
      heap.inspectFrom budget nested seen value := by
  induction budget generalizing nested seen value with
  | zero => cases value with
    | object kind id => cases kind <;> simp [inspectFrom]
    | _ => simp [inspectFrom]
  | succ budget inductionHypothesis =>
      have within (seen : List Nat) :
          heap.outlined.inspectFrom budget true seen =
            heap.inspectFrom budget true seen :=
        funext (inductionHypothesis true seen)
      cases value with
      | object kind id => cases kind <;> simp [inspectFrom, within]
      | _ => simp [inspectFrom]

@[simp] theorem inspect_outlined : heap.outlined.inspect = heap.inspect :=
  funext (heap.inspectFrom_outlined inspectionDepth false [])

/-- Going through a list depends on what is done with its members only. -/
theorem mapM_congr_of_mem
    {items : List α}
    {first second : α → Except ε β}
    (same : ∀ item ∈ items, first item = second item) :
    items.mapM first = items.mapM second := by
  induction items with
  | nil => rfl
  | cons item rest inductionHypothesis =>
      obtain ⟨sameItem, sameRest⟩ := List.forall_mem_cons.mp same
      rw [List.mapM_cons, List.mapM_cons, sameItem, inductionHypothesis sameRest]

/-- The document of a value holds no code. -/
theorem jsonInside_outlined (opened : List Nat) (value : Value) :
    heap.outlined.jsonInside opened value = heap.jsonInside opened value := by
  induction opened, value using jsonInside.induct heap with
  | case1 | case2 | case3 | case4 | case5 | case6 | case7 => rw [jsonInside, jsonInside]
  | case8 opened id isOpen | case10 opened id isOpen =>
      have member : id ∈ opened := by simpa using isOpen
      rw [jsonInside_open (by simp) member, jsonInside_open (by simp) member]
  | case9 opened id isOld inductionHypothesis =>
      have isNew : id ∉ opened := by simpa using isOld
      rw [jsonInside_array isNew, jsonInside_array isNew, elements_outlined]
      refine congrArg (· >>= _) (mapM_congr_of_mem fun element member => ?_)
      rw [inductionHypothesis element member]
  | case11 opened id isOld inductionHypothesis =>
      have isNew : id ∉ opened := by simpa using isOld
      rw [jsonInside_plain isNew, jsonInside_plain isNew, properties_outlined]
      refine congrArg (· >>= _) (mapM_congr_of_mem fun entry member => ?_)
      rw [inductionHypothesis entry.1 entry.2 member]

@[simp] theorem json_outlined (value : Value) : heap.outlined.json value = heap.json value :=
  heap.jsonInside_outlined [] value

/-- What is written for a value is its document, so it holds no code either. -/
@[simp] theorem writeJson_outlined (opened : List Nat) (text : String) (value : Value) :
    heap.outlined.writeJson opened text value = heap.writeJson opened text value := by
  rw [writesDocument, writesDocument, jsonInside_outlined]

end Heap

@[simp] theorem Run.spliced_outlined (heap : Heap) (value : Value) :
    Run.spliced heap.outlined value = Run.spliced heap value := by
  unfold Run.spliced
  simp

namespace Run

/-- The changes of the heap that such runs make. -/
inductive Alters : (Heap → Heap) → Prop where
  | setOwn (id : Nat) (name : String) (value : Value) : Alters (·.setOwn id name value)
  | eraseOwn (id : Nat) (name : String) : Alters (·.eraseOwn id name)
  | modifyStorage (id : Nat) {change : Storage → Storage} :
      (∀ storage : Storage, storage.Becomes (change storage)) →
      Alters (·.modifyStorage id change)

theorem Alters.isStep {change : Heap → Heap} (alters : Alters change) : Heap.IsStep change := by
  cases alters with
  | setOwn id name value => exact Heap.isStep_setOwn id name value
  | eraseOwn id name => exact Heap.isStep_eraseOwn id name
  | modifyStorage id becomes => exact Heap.isStep_modifyStorage id becomes

/--
Runs of steps that look at the outline of the heap only and make no function.  Whatever they
call they call by one caller.
-/
inductive Uniform (call : Caller) : {α : Type} → Run α → Prop where
  | pure {α : Type} (value : α) : Uniform call (pure value)
  | bind {α β : Type} {first : Run α} {next : α → Run β} :
      Uniform call first →
      (∀ value, Uniform call (next value)) →
      Uniform call (first >>= next)
  | heap {α : Type} {next : Heap → Run α} :
      (∀ heap, next heap.outlined = next heap) →
      (∀ heap, Uniform call (next heap)) →
      Uniform call (Run.heap >>= next)
  | scopes {α : Type} {next : Machine → Run α} :
      (∀ machine other, machine.scopes = other.scopes → next machine = next other) →
      (∀ machine, Uniform call (next machine)) →
      Uniform call (get >>= next)
  | fail {α : Type} {fault : Fault} :
      fault.Arises →
      Uniform call (Run.fail fault : Run α)
  | broken {α : Type} (fault : InternalFault) : Uniform call (throw (.broken fault) : Run α)
  | deeper {α : Type} {run : Run α} :
      Uniform call run →
      Uniform call (Run.deeper run)
  | changeHeap {change : Heap → Heap} :
      Alters change →
      Uniform call (Run.changeHeap change)
  | changeScopes (change : Scopes → Scopes) : Uniform call (Run.changeScopes change)
  | makePlain (prototype : Option Nat) : Uniform call (Run.makePlain prototype)
  | makeArray (storage : Storage) : Uniform call (Run.makeArray storage)
  | makePattern (pattern : Pattern) : Uniform call (Run.makePattern pattern)
  | printLine (line : String) : Uniform call (Run.printLine line)
  | random : Uniform call Run.random
  | call (callee this : Value) (arguments : List Value) : Uniform call (call callee this arguments)

namespace Uniform

variable {α : Type} {call : Caller}

theorem failType (fault : TypeFault) : Uniform call (Run.failType fault : Run α) :=
  .fail (.type fault)

theorem failRange (fault : RangeFault) : Uniform call (Run.failRange fault : Run α) :=
  .fail (.range fault)

/-- Such a run is built from steps if the calls it makes are. -/
theorem built
    {place : Position → Prop}
    {sound : Routine → Prop}
    {caller : Caller → Prop}
    (calls : ∀ callee this arguments, Built place sound caller true (call callee this arguments))
    {run : Run α}
    (uniform : Uniform call run) :
    Built place sound caller true run := by
  induction uniform with
  | pure value => exact .pure value
  | bind _ _ first next => exact .bind first next
  | heap _ _ next => exact .heap fun heap _ => next heap
  | scopes onlyScopes _ next => exact .scopes onlyScopes next
  | fail arises => exact .fail arises
  | broken fault => exact .broken fault
  | deeper _ inner => exact .deeper inner
  | changeHeap alters => exact .changeHeap alters.isStep
  | changeScopes change => exact .changeScopes change
  | makePlain prototype => exact .makePlain prototype
  | makeArray storage => exact .makeArray storage
  | makePattern pattern => exact .makePattern pattern
  | printLine line => exact .printLine line
  | random => exact .random
  | call callee this arguments => exact calls callee this arguments

end Uniform

end Run

end ScriptEngine
