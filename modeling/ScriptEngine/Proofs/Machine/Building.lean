import ScriptEngine.Proofs.Code.Jumps

namespace ScriptEngine

/-!
# What runs are built from

Every run of a script is put together from a few steps: it reads the heap and the
scopes, changes them, makes objects, writes a line, fails, gives an error a place,
or runs something one call deeper.  `Run.Built` says so once.  A law that holds of
the steps, and of runs one after the other, then holds of every run.

The steps leave two things alone.  No step looks at the limit of nested calls but
the one that enters a call.  And no step puts a function on the heap but one that
fits; so whoever reads a function from the heap may rely on it.  To the elements of
an array the steps do no more than a few operations of its storage.
-/

variable {machine : Machine} {sound : Routine → Prop}

/--
The causes of errors while code runs.  Reading a pattern from a text is the one
case in which a cause of refusing a program arises later.
-/
inductive Fault.Arises : Fault → Prop where
  | unbound (name : String) : Arises (.unbound name)
  | type (fault : TypeFault) : Arises (.type fault)
  | range (fault : RangeFault) : Arises (.range fault)
  | internal (fault : InternalFault) : Arises (.internal fault)
  | assertion (text : String) : Arises (.assertion text)
  | badPattern {source flags : String} {fault : PatternFault} :
      Pattern.compile source flags = .error fault →
      Arises (.grammar (.badPattern fault))

/-- What a step does to the storage of an array. -/
inductive Storage.Becomes (storage : Storage) : Storage → Prop where
  | append (values : List Value) : Becomes storage (storage.append values)
  | prepend (values : List Value) : Becomes storage (storage.prepend values)
  | put (index : Nat) (value : Value) : Becomes storage (storage.put index value)
  | resize (length : Nat) : Becomes storage (storage.resize length)
  | moveDown : Becomes storage storage.moveDown
  | dropLast : Becomes storage storage.dropLast
  | watch : Becomes storage storage.watch
  | unwatch : Becomes storage storage.unwatch

namespace Heap

/-- Every function on the heap is sound. -/
def AllSound
    (sound : Routine → Prop)
    (heap : Heap) :
    Prop :=
  ∀ id routine scope, heap.body id = .closure routine scope → sound routine

/-- A change that puts no new function on the heap. -/
def KeepsClosures (change : Heap → Heap) : Prop :=
  ∀ heap id routine scope,
    (change heap).body id = .closure routine scope → heap.body id = .closure routine scope

/-- Changing an object without giving it a function puts no new function on the heap. -/
theorem keepsClosures_modify
    (id : Nat)
    {change : HeapObject → HeapObject}
    (keeps : ∀ object routine scope,
      (change object).body = .closure routine scope → object.body = .closure routine scope) :
    KeepsClosures (·.modify id change) := by
  intro heap other routine scope isClosure
  unfold body at isClosure ⊢
  rw [Array.getElem?_modify] at isClosure
  split at isClosure
  · rename_i object isObject
    split at isObject
    · obtain ⟨old, isOld, rfl⟩ := Option.map_eq_some_iff.mp isObject
      rw [isOld]
      exact keeps old routine scope isClosure
    · rw [isObject]
      exact isClosure
  · cases isClosure

theorem keepsClosures_setHidden (id : Nat) (name : String) (value : Value) :
    KeepsClosures (·.setHidden id name value) :=
  keepsClosures_modify id fun _ _ _ isClosure => isClosure

/-- A change that leaves every array in storage that is as before or has become it in a step. -/
def KeepsArrays (change : Heap → Heap) : Prop :=
  ∀ heap id storage, heap.body id = .array storage →
    ∃ later, (change heap).body id = .array later ∧ (later = storage ∨ storage.Becomes later)

/-- A change that steps make. -/
structure IsStep (change : Heap → Heap) : Prop where
  closures : KeepsClosures change
  arrays : KeepsArrays change

theorem body_modify (heap : Heap) (id other : Nat) (change : HeapObject → HeapObject) :
    body (heap.modify id change) other =
      match heap[other]? with
      | some object => if id = other then (change object).body else object.body
      | none => .plain := by
  unfold body
  rw [Array.getElem?_modify]
  by_cases isPlace : id = other
  · rw [if_pos isPlace]
    cases heap[other]? with
    | none => rfl
    | some object =>
        dsimp only
        rw [if_pos isPlace]
        rfl
  · rw [if_neg isPlace]
    cases heap[other]? with
    | none => rfl
    | some object => exact (if_neg isPlace).symm

/-- A change of an object that leaves its body as it was. -/
theorem isStep_modify
    (id : Nat)
    {change : HeapObject → HeapObject}
    (sameBody : ∀ object, (change object).body = object.body) :
    IsStep (·.modify id change) where
  closures := keepsClosures_modify id fun object _ _ isClosure => sameBody object ▸ isClosure
  arrays := by
    intro heap other storage isArray
    refine ⟨storage, ?_, .inl rfl⟩
    unfold body at isArray
    rw [body_modify]
    cases isObject : heap[other]? with
    | none =>
        rw [isObject] at isArray
        cases isArray
    | some object =>
        rw [isObject] at isArray
        dsimp only
        rw [sameBody, ite_self]
        exact isArray

theorem isStep_setOwn (id : Nat) (name : String) (value : Value) :
    IsStep (·.setOwn id name value) :=
  isStep_modify id fun _ => rfl

theorem isStep_eraseOwn (id : Nat) (name : String) : IsStep (·.eraseOwn id name) :=
  isStep_modify id fun _ => rfl

theorem isStep_modifyStorage
    (id : Nat)
    {change : Storage → Storage}
    (becomes : ∀ storage : Storage, storage.Becomes (change storage)) :
    IsStep (·.modifyStorage id change) where
  closures := by
    refine keepsClosures_modify id fun object routine scope isClosure => ?_
    split at isClosure
    · cases isClosure
    · exact isClosure
  arrays := by
    intro heap other storage isArray
    unfold body at isArray
    unfold modifyStorage
    rw [body_modify]
    cases isObject : heap[other]? with
    | none =>
        rw [isObject] at isArray
        cases isArray
    | some object =>
        obtain ⟨prototype, properties, body⟩ := object
        rw [isObject] at isArray
        cases isArray
        dsimp only
        by_cases isPlace : id = other
        · rw [if_pos isPlace]
          exact ⟨change storage, rfl, .inr (becomes storage)⟩
        · rw [if_neg isPlace]
          exact ⟨storage, rfl, .inl rfl⟩

theorem AllSound.change
    {heap : Heap}
    {change : Heap → Heap}
    (allSound : heap.AllSound sound)
    (keeps : KeepsClosures change) :
    (change heap).AllSound sound :=
  fun id routine scope isClosure =>
    allSound id routine scope (keeps heap id routine scope isClosure)

/-- A new object is fine as long as it is no function or a sound one. -/
theorem AllSound.push
    {heap : Heap}
    {object : HeapObject}
    (allSound : heap.AllSound sound)
    (objectSound : ∀ routine scope, object.body = .closure routine scope → sound routine) :
    AllSound sound (heap.push object) := by
  intro id routine scope isClosure
  unfold body at isClosure
  rw [Array.getElem?_push] at isClosure
  split at isClosure
  · rename_i found isFound
    split at isFound
    · cases isFound
      exact objectSound routine scope isClosure
    · refine allSound id routine scope ?_
      unfold body
      rw [isFound]
      exact isClosure
  · cases isClosure

end Heap

namespace Run

/-!
## How the steps run

Runs one after the other, and a run one call deeper, told by what their parts do.
-/

variable {α β : Type}

/-- The machine after a run. -/
def after : EStateM.Result Abort Machine α → Machine
  | .ok _ machine => machine
  | .error _ machine => machine

theorem bind_of_ok
    {first : Run α}
    {next : α → Run β}
    {middle : Machine}
    {value : α}
    (ran : first machine = .ok value middle) :
    (first >>= next) machine = next value middle := by
  change EStateM.bind first next machine = _
  rw [EStateM.bind, ran]

theorem bind_of_error
    {first : Run α}
    {next : α → Run β}
    {middle : Machine}
    {abort : Abort}
    (ran : first machine = .error abort middle) :
    (first >>= next) machine = .error abort middle := by
  change EStateM.bind first next machine = _
  rw [EStateM.bind, ran]

/-- Runs one after the other give what the second one gives, where the first one gives something. -/
theorem ok_of_bind
    {first : Run α}
    {next : α → Run β}
    {last : Machine}
    {result : β}
    (ran : (first >>= next) machine = .ok result last) :
    ∃ value middle, first machine = .ok value middle ∧ next value middle = .ok result last := by
  cases firstRan : first machine with
  | ok value middle =>
      rw [bind_of_ok firstRan] at ran
      exact ⟨value, middle, rfl, ran⟩
  | error abort middle =>
      rw [bind_of_error firstRan] at ran
      cases ran

/-- A random number changes nothing but what the next one is made from. -/
theorem random_eq (machine : Machine) :
    random machine =
      .ok (.number (Number.Binary64.ofRatio false (nextSeed machine.seed / Nat.pow 2 11)
        (Nat.pow 2 53))) { machine with seed := nextSeed machine.seed } := by
  unfold random
  generalize Number.Binary64.ofRatio false = ratio
  rfl

theorem random_result (machine : Machine) :
    ∃ value seed, random machine = .ok value { machine with seed := seed } :=
  ⟨_, _, random_eq machine⟩

/-- The outcome of a call, one call less deep. -/
def leaving :
    EStateM.Result Abort Machine α → EStateM.Result Abort Machine α
  | .ok value machine => .ok value { machine with depth := machine.depth - 1 }
  | .error abort machine => .error abort { machine with depth := machine.depth - 1 }

/-- A call the limit has room for. -/
theorem deeper_of_room
    (run : Run α)
    (machine : Machine)
    (room : ¬(machine.maxDepth ≠ 0 ∧ machine.maxDepth < machine.depth + 1)) :
    deeper run machine =
      leaving (run { machine with depth := machine.depth + 1 }) := by
  unfold deeper
  rw [if_neg room]
  rfl

/-!
## Runs built from steps
-/

/--
Runs built from the steps of the machine and from the calls of some callers.  The
places they give to errors are from a set, `bare` tells whether an error may leave
the run without a place, and the functions they make are sound.
-/
inductive Built
    (place : Position → Prop)
    (sound : Routine → Prop)
    (caller : Caller → Prop) :
    Bool → {α : Type} → Run α → Prop where
  | pure {bare : Bool} {α : Type} (value : α) : Built place sound caller bare (pure value)
  | bind {bare : Bool} {α β : Type} {first : Run α} {next : α → Run β} :
      Built place sound caller bare first →
      (∀ value, Built place sound caller bare (next value)) →
      Built place sound caller bare (first >>= next)
  | heap {bare : Bool} {α : Type} {next : Heap → Run α} :
      (∀ heap, heap.AllSound sound → Built place sound caller bare (next heap)) →
      Built place sound caller bare (Run.heap >>= next)
  | scopes {bare : Bool} {α : Type} {next : Machine → Run α} :
      (∀ machine other, machine.scopes = other.scopes → next machine = next other) →
      (∀ machine, Built place sound caller bare (next machine)) →
      Built place sound caller bare (get >>= next)
  | fail {α : Type} {fault : Fault} :
      fault.Arises →
      Built place sound caller true (Run.fail fault : Run α)
  | raise {bare : Bool} {α : Type} {fault : Fault} {position : Position} :
      fault.Arises →
      place position →
      Built place sound caller bare (throw (.raised ⟨fault, some position⟩) : Run α)
  | broken {bare : Bool} {α : Type} (fault : InternalFault) :
      Built place sound caller bare (throw (.broken fault) : Run α)
  | locate {bare : Bool} {α : Type} {position : Position} {run : Run α} :
      place position →
      Built place sound caller true run →
      Built place sound caller bare (Run.locate position run)
  | deeper {α : Type} {run : Run α} :
      Built place sound caller true run →
      Built place sound caller true (Run.deeper run)
  | changeHeap {bare : Bool} {change : Heap → Heap} :
      Heap.IsStep change →
      Built place sound caller bare (Run.changeHeap change)
  | changeScopes {bare : Bool} (change : Scopes → Scopes) :
      Built place sound caller bare (Run.changeScopes change)
  | makeObject {bare : Bool} {object : HeapObject} :
      (∀ routine scope, object.body = .closure routine scope → sound routine) →
      Built place sound caller bare (Run.makeObject object)
  | makeScope {bare : Bool} (parent : Option Nat) (isFunction : Bool) :
      Built place sound caller bare (Run.makeScope parent isFunction)
  | printLine {bare : Bool} (line : String) : Built place sound caller bare (Run.printLine line)
  | random {bare : Bool} : Built place sound caller bare Run.random
  | call {call : Caller} (callee this : Value) (arguments : List Value) :
      caller call →
      Built place sound caller true (call callee this arguments)

namespace Built

variable {place : Position → Prop} {caller : Caller → Prop} {bare : Bool} {α β : Type}

/-- A run whose errors all have a place may stand where that is not asked for. -/
theorem toBare {run : Run α} (built : Built place sound caller bare run) :
    Built place sound caller true run := by
  induction built with
  | pure value => exact .pure value
  | bind _ _ first next => exact .bind first next
  | heap _ next => exact .heap next
  | scopes onlyScopes _ next => exact .scopes onlyScopes next
  | fail arises => exact .fail arises
  | raise arises isPlace => exact .raise arises isPlace
  | broken fault => exact .broken fault
  | locate isPlace inner _ => exact .locate isPlace inner
  | deeper inner _ => exact .deeper inner
  | changeHeap isStep => exact .changeHeap isStep
  | changeScopes change => exact .changeScopes change
  | makeObject fits => exact .makeObject fits
  | makeScope parent isFunction => exact .makeScope parent isFunction
  | printLine line => exact .printLine line
  | random => exact .random
  | call callee this arguments isCaller => exact .call callee this arguments isCaller

theorem failType (fault : TypeFault) : Built place sound caller true (Run.failType fault : Run α) :=
  .fail (.type fault)

theorem makePlain (prototype : Option Nat) :
    Built place sound caller bare (Run.makePlain prototype) :=
  .bind (.makeObject fun _ _ isClosure => nomatch isClosure) fun _ => .pure _

theorem makeArray (storage : Storage) : Built place sound caller bare (Run.makeArray storage) :=
  .bind (.makeObject fun _ _ isClosure => nomatch isClosure) fun _ => .pure _

theorem makePattern (pattern : Pattern) : Built place sound caller bare (Run.makePattern pattern) :=
  .bind (.makeObject fun _ _ isClosure => nomatch isClosure) fun _ => .pure _

/-- Making a function that is sound. -/
theorem makeClosure {routine : Routine} (isSound : sound routine) (scope : Nat) :
    Built place sound caller bare (Run.makeClosure routine scope) := by
  refine .bind (.makeObject ?_) fun id => ?_
  · rintro _ _ ⟨⟩
    exact isSound
  refine .bind (.makeObject fun _ _ isClosure => nomatch isClosure) fun prototype => ?_
  exact .bind (.changeHeap (Heap.isStep_modify id fun _ => rfl)) fun _ => .pure _

end Built

end Run

end ScriptEngine
