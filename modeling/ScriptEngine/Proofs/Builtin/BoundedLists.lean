import ScriptEngine.Proofs.Machine.PropertyStore

namespace ScriptEngine

/-!
# Arrays as bounded lists

Scripts add and remove elements at both ends of an array, write elements and write its
length.  On an array that started empty each of these does to the elements what its
counterpart does to a list, or is refused and does nothing at all.  The elements are never
more than the greatest length; that is why removing one is never refused, although the array
is given a new length then and the greatest length itself is none that could be assigned.
-/

variable {count length index : Nat} {later : List Value} {operation : ArrayOperation}
  {result : Value}

/-! ## Elements after a change of the storage -/

/-- Elements filled up with undefined to a length. -/
def filledUp (elements : List Value) (length : Nat) : List Value :=
  elements ++ List.replicate (length - elements.length) .undefined

theorem length_filledUp (elements : List Value) (length : Nat) :
    (filledUp elements length).length = max elements.length length := by
  rw [filledUp, List.length_append, List.length_replicate]
  omega

namespace Storage

variable {storage : Storage} {elements : List Value}

theorem length_eq (isList : storage.elements = elements.toArray) :
    storage.length = elements.length := by
  rw [length, isList, List.size_toArray]

theorem elements_append (isList : storage.elements = elements.toArray) (values : List Value) :
    (storage.append values).elements = (elements ++ values).toArray := by
  have appended : (storage.append values).elements = storage.elements ++ values := by
    unfold append
    dsimp only
    split <;> rfl
  rw [appended, isList]
  simp

theorem elements_prepend (isList : storage.elements = elements.toArray) (values : List Value) :
    (storage.prepend values).elements = (values ++ elements).toArray := by
  change values.toArray ++ storage.elements = _
  rw [isList, List.append_toArray]

theorem elements_dropLast (isList : storage.elements = elements.toArray) :
    storage.dropLast.elements = elements.dropLast.toArray := by
  change storage.elements.pop = _
  rw [isList, List.pop_toArray]

/-- Once the elements have moved down, the last place still holds the last of them. -/
theorem elements_moveDown
    {first : Value}
    (isList : storage.elements = (first :: elements).toArray) :
    storage.moveDown.elements = (elements ++ [(first :: elements).getLast nofun]).toArray := by
  simp [moveDown, isList, List.getLast?_eq_some_getLast]

theorem elements_pad_of_list (isList : storage.elements = elements.toArray) (length : Nat) :
    (storage.pad length).elements = (filledUp elements length).toArray := by
  rw [elements_pad, length_eq isList, isList, filledUp, ← List.append_toArray,
    List.toArray_replicate]

theorem elements_put_inside
    (isList : storage.elements = elements.toArray)
    (inside : index < elements.length)
    (value : Value) :
    (storage.put index value).elements = (elements.set index value).toArray := by
  rw [elements_put, length_eq isList, if_pos inside, isList, List.setIfInBounds_toArray]

theorem set_filledUp (beyond : elements.length ≤ index) (value : Value) :
    (filledUp elements (index + 1)).set index value = filledUp elements index ++ [value] := by
  have last : filledUp elements (index + 1) = filledUp elements index ++ [.undefined] := by
    rw [filledUp, filledUp, Nat.succ_sub beyond, List.replicate_succ', List.append_assoc]
  have place : index = (filledUp elements index).length := by
    rw [length_filledUp, Nat.max_eq_right beyond]
  rw [last, List.set_append_right _ _ (Nat.le_of_eq place.symm), ← place, Nat.sub_self]
  rfl

theorem elements_put_beyond
    (isList : storage.elements = elements.toArray)
    (beyond : elements.length ≤ index)
    (value : Value) :
    (storage.put index value).elements = (filledUp elements index ++ [value]).toArray := by
  rw [elements_put, length_eq isList, if_neg (Nat.not_lt.mpr beyond),
    elements_pad_of_list isList, List.setIfInBounds_toArray, set_filledUp beyond]

theorem elements_resize_shorter
    (isList : storage.elements = elements.toArray)
    (shorter : count < elements.length) :
    (storage.resize count).elements = (elements.take count).toArray := by
  rw [resize, length_eq isList, if_pos shorter]
  change storage.elements.shrink count = _
  rw [isList, Array.shrink_eq_take]
  simp

theorem elements_resize_longer
    (isList : storage.elements = elements.toArray)
    (longer : elements.length ≤ count) :
    (storage.resize count).elements = (filledUp elements count).toArray := by
  rw [resize, length_eq isList, if_neg (Nat.not_lt.mpr longer), elements_pad_of_list isList]

end Storage

namespace Heap

variable {heap : Heap} {id : Nat} {storage : Storage}

theorem body_modifyStorage (isArray : heap.body id = .array storage) (change : Storage → Storage) :
    (heap.modifyStorage id change).body id = .array (change storage) := by
  unfold body at isArray ⊢
  unfold modifyStorage
  rw [Array.getElem?_modify, if_pos rfl]
  cases isObject : heap[id]? with
  | none =>
      rw [isObject] at isArray
      cases isArray
  | some object =>
      obtain ⟨prototype, properties, body⟩ := object
      rw [isObject] at isArray
      cases isArray
      rfl

/-- Only what becomes of the one storage matters of a change. -/
theorem modifyStorage_congr
    {change other : Storage → Storage}
    (isArray : heap.body id = .array storage)
    (same : change storage = other storage) :
    heap.modifyStorage id change = heap.modifyStorage id other := by
  unfold modifyStorage
  refine Array.ext_getElem? fun place => ?_
  rw [Array.getElem?_modify, Array.getElem?_modify]
  split <;> rename_i isPlace
  · cases isPlace
    unfold body at isArray
    cases isObject : heap[id]? with
    | none => rfl
    | some object =>
        obtain ⟨prototype, properties, body⟩ := object
        rw [isObject] at isArray
        cases isArray
        rw [Option.map_some, Option.map_some]
        dsimp only
        rw [same]
  · rfl

theorem modifyStorage_self (isArray : heap.body id = .array storage) :
    (heap.modifyStorage id fun _ => storage) = heap := by
  unfold modifyStorage
  refine Array.ext_getElem? fun place => ?_
  rw [Array.getElem?_modify]
  split <;> rename_i isPlace
  · cases isPlace
    unfold body at isArray
    cases isObject : heap[id]? with
    | none => rfl
    | some object =>
        obtain ⟨prototype, properties, body⟩ := object
        rw [isObject] at isArray
        cases isArray
        rfl
  · rfl

theorem modifyStorage_modifyStorage (heap : Heap) (id : Nat) (first second : Storage → Storage) :
    (heap.modifyStorage id first).modifyStorage id second =
      heap.modifyStorage id (second ∘ first) := by
  unfold modifyStorage
  refine Array.ext_getElem? fun place => ?_
  rw [Array.getElem?_modify, Array.getElem?_modify, Array.getElem?_modify]
  split
  · cases heap[place]? with
    | none => rfl
    | some object => cases object with | mk prototype properties body => cases body <;> rfl
  · rfl

end Heap

/-! ## The operations -/

/-- What a script does to an array: the four methods at its ends, writing an element under
the key of its index, and writing its length. -/
inductive ArrayOperation where
  | push (values : List Value)
  | pop
  | shift
  | unshift (values : List Value)
  | put (key : String) (index : Nat) (isIndex : arrayIndex? key = some index) (value : Value)
  | resize (length : Float)

namespace ArrayOperation

/-- Do it to the array at a place; an assignment gives the value assigned. -/
def run (call : Caller) (id : Nat) : ArrayOperation → Run Value
  | push values => Builtin.arrayPush.run call (.object .array id) values
  | pop => Builtin.arrayPop.run call (.object .array id) []
  | shift => Builtin.arrayShift.run call (.object .array id) []
  | unshift values => Builtin.arrayUnshift.run call (.object .array id) values
  | put key _ _ value => do
      Run.write call (.object .array id) key value
      return value
  | resize length => do
      Run.write call (.object .array id) "length" (.number length)
      return .number length

/-- What an operation does to a list of at most the greatest length: its result and the list
afterwards.  An operation that is not listed for a list is refused. -/
inductive Effect : ArrayOperation → List Value → Value → List Value → Prop where
  | push {values elements : List Value}
      (fits : elements.length + values.length ≤ Storage.maxLength) :
      Effect (.push values) elements (.ofNat (elements ++ values).length) (elements ++ values)
  | pop {elements : List Value} {last : Value} : Effect .pop (elements ++ [last]) last elements
  | popEmpty : Effect .pop [] .undefined []
  | shift {first : Value} {elements : List Value} : Effect .shift (first :: elements) first elements
  | shiftEmpty : Effect .shift [] .undefined []
  | unshift {values elements : List Value}
      (fits : elements.length + values.length ≤ Storage.maxLength) :
      Effect (.unshift values) elements (.ofNat (values ++ elements).length) (values ++ elements)
  | put {key : String} {index : Nat} {isIndex : arrayIndex? key = some index} {value : Value}
      {elements : List Value}
      (inside : index < elements.length) :
      Effect (.put key index isIndex value) elements value (elements.set index value)
  | putBeyond {key : String} {index : Nat} {isIndex : arrayIndex? key = some index}
      {value : Value} {elements : List Value}
      (beyond : elements.length ≤ index)
      (fits : index < Storage.maxLength) :
      Effect (.put key index isIndex value) elements value
        (filledUp elements index ++ [value])
  | truncate {length : Float} {count : Nat} {elements : List Value}
      (isLength : Number.IsLength length count)
      (shorter : count < elements.length) :
      Effect (.resize length) elements (.number length) (elements.take count)
  | pad {length : Float} {count : Nat} {elements : List Value}
      (isLength : Number.IsLength length count)
      (longer : elements.length ≤ count) :
      Effect (.resize length) elements (.number length) (filledUp elements count)

/-- No operation makes a list longer than the greatest length. -/
theorem Effect.bounded
    {elements : List Value}
    (effect : operation.Effect elements result later)
    (bounded : elements.length ≤ Storage.maxLength) :
    later.length ≤ Storage.maxLength := by
  cases effect with
  | push fits => simpa using fits
  | pop => exact Nat.le_trans (by simp) bounded
  | popEmpty => exact bounded
  | shift => exact Nat.le_trans (by simp) bounded
  | shiftEmpty => exact bounded
  | unshift fits => simpa [Nat.add_comm] using fits
  | put inside => simpa using bounded
  | putBeyond beyond fits =>
      rw [List.length_append, length_filledUp, Nat.max_eq_right beyond]
      exact fits
  | truncate isLength shorter => exact Nat.le_trans (List.length_take_le' _ _) bounded
  | pad isLength longer =>
      rw [length_filledUp, Nat.max_eq_right longer]
      exact Nat.le_of_lt isLength.1

/-- An operation that changes nothing but the elements of the array. -/
def Does
    (operation : ArrayOperation)
    (call : Caller)
    (id : Nat)
    (machine : Machine)
    (result : Value)
    (later : List Value) : Prop :=
  ∃ changed : Storage,
    changed.elements = later.toArray ∧
    operation.run call id machine =
      .ok result { machine with heap := machine.heap.modifyStorage id fun _ => changed }

/-- An operation that is refused by an error of its range and changes nothing. -/
def IsRefused
    (operation : ArrayOperation)
    (call : Caller)
    (id : Nat)
    (machine : Machine) : Prop :=
  operation.run call id machine = .error (.raised ⟨.range .arrayLength, none⟩) machine

theorem checkLength_of_le (fits : length ≤ Storage.maxLength) (machine : Machine) :
    Run.checkLength length machine = .ok () machine := by
  rw [Run.checkLength, if_neg (Nat.not_lt.mpr fits)]
  rfl

theorem checkLength_of_lt (beyond : Storage.maxLength < length) (machine : Machine) :
    Run.checkLength length machine = .error (.raised ⟨.range .arrayLength, none⟩) machine := by
  rw [Run.checkLength, if_pos beyond]
  rfl

/-! ## What each operation does -/

theorem run_put
    (call : Caller)
    (id : Nat)
    {key : String}
    (isIndex : arrayIndex? key = some index)
    (value : Value)
    (machine : Machine) :
    (put key index isIndex value).run call id machine =
      if Storage.maxLength ≤ index then .error (.raised ⟨.range .arrayLength, none⟩) machine
      else .ok value { machine with heap := machine.heap.modifyStorage id (·.put index value) } := by
  have wrote := Run.write_index call isIndex id value machine
  rw [run]
  split <;> rename_i isLarge
  · rw [if_pos isLarge] at wrote
    rw [Run.bind_of_error wrote]
  · rw [if_neg isLarge] at wrote
    rw [Run.bind_of_ok wrote]
    rfl

theorem run_resize (call : Caller) (id : Nat) (length : Float) :
    (resize length).run call id =
      (Run.setLength id length >>= fun _ => pure (.number length)) :=
  rfl

section Steps

variable {call : Caller} {id : Nat} {machine : Machine} {storage : Storage}
  {elements : List Value} (isArray : machine.heap.body id = .array storage)

include isArray

/-- A run that changes the storage of the array does what the change does to the elements. -/
theorem does_of_run
    (change : Storage → Storage)
    (changed : (change storage).elements = later.toArray)
    (ran : operation.run call id machine =
      .ok result { machine with heap := machine.heap.modifyStorage id change }) :
    operation.Does call id machine result later := by
  have same : machine.heap.modifyStorage id change =
      machine.heap.modifyStorage id fun _ => change storage :=
    Heap.modifyStorage_congr isArray rfl
  refine ⟨change storage, changed, ?_⟩
  rw [ran, same]

theorem does_nothing
    (isList : storage.elements = elements.toArray)
    (ran : operation.run call id machine = .ok result machine) :
    operation.Does call id machine result elements := by
  refine ⟨storage, isList, ?_⟩
  rw [ran, Heap.modifyStorage_self isArray]

/-- What is added at an end is within the greatest length, and the new length is given. -/
theorem does_of_growth
    {values : List Value}
    {change : Storage → Storage}
    (run_eq : operation.run call id machine =
      (Run.checkLength (elements.length + values.length) >>= fun _ =>
        Run.changeHeap (·.modifyStorage id change) >>= fun _ =>
          Run.heap >>= fun heap => pure (.ofNat (heap.arrayLength id))) machine)
    (fits : elements.length + values.length ≤ Storage.maxLength)
    (changed : (change storage).elements = later.toArray) :
    operation.Does call id machine (.ofNat later.length) later := by
  have grown : (machine.heap.modifyStorage id change).arrayLength id = later.length := by
    have isGrown := Heap.body_modifyStorage isArray change
    rw [Heap.arrayLength, Heap.storage_of_body isGrown, Storage.length_eq changed]
  refine does_of_run isArray _ changed ?_
  rw [run_eq, Run.bind_of_ok (checkLength_of_le fits machine), ← grown]
  rfl

variable (isList : storage.elements = elements.toArray)

include isList

theorem arrayLength_eq : machine.heap.arrayLength id = elements.length := by
  rw [Heap.arrayLength, Heap.storage_of_body isArray, Storage.length_eq isList]

theorem elements_eq : machine.heap.elements id = elements.toArray := by
  rw [Heap.elements, Heap.storage_of_body isArray, isList]

theorem run_push (values : List Value) :
    (push values).run call id machine =
      (Run.checkLength (elements.length + values.length) >>= fun _ =>
        Run.changeHeap (·.modifyStorage id (·.append values)) >>= fun _ =>
          Run.heap >>= fun heap => pure (.ofNat (heap.arrayLength id))) machine := by
  rw [← arrayLength_eq isArray isList]
  rfl

theorem run_unshift (values : List Value) :
    (unshift values).run call id machine =
      (Run.checkLength (elements.length + values.length) >>= fun _ =>
        Run.changeHeap (·.modifyStorage id (·.prepend values)) >>= fun _ =>
          Run.heap >>= fun heap => pure (.ofNat (heap.arrayLength id))) machine := by
  rw [← arrayLength_eq isArray isList]
  rfl

theorem run_pop :
    pop.run call id machine =
      (match elements.getLast? with
      | some last =>
          Run.checkLength elements.length >>= fun _ =>
            Run.changeHeap (·.modifyStorage id Storage.dropLast) >>= fun _ => pure last
      | none => pure .undefined) machine := by
  rw [← arrayLength_eq isArray isList]
  have same : elements.getLast? = (machine.heap.elements id).back? := by
    rw [elements_eq isArray isList, List.back?_toArray]
  rw [same]
  rfl

theorem run_shift :
    shift.run call id machine =
      (match elements.head? with
      | some first =>
          Run.changeHeap (·.modifyStorage id Storage.moveDown) >>= fun _ =>
            Run.checkLength elements.length >>= fun _ =>
              Run.changeHeap (·.modifyStorage id Storage.dropLast) >>= fun _ => pure first
      | none => pure .undefined) machine := by
  rw [← arrayLength_eq isArray isList]
  have same : elements.head? = (machine.heap.elements id)[0]? := by
    rw [elements_eq isArray isList, List.head?_eq_getElem?, List.getElem?_toArray]
  rw [same]
  rfl

end Steps

variable {call : Caller} {id : Nat} {machine : Machine} {storage : Storage}
  {elements : List Value}

theorem does_pop
    {last : Value}
    (isArray : machine.heap.body id = .array storage)
    (isList : storage.elements = (elements ++ [last]).toArray)
    (bounded : (elements ++ [last]).length ≤ Storage.maxLength) :
    pop.Does call id machine last elements := by
  have run_eq := @run_pop call _ _ _ _ isArray isList
  rw [List.getLast?_concat] at run_eq
  have changed := Storage.elements_dropLast isList
  rw [List.dropLast_concat] at changed
  refine does_of_run isArray _ changed ?_
  rw [run_eq]
  dsimp only
  rw [Run.bind_of_ok (checkLength_of_le bounded machine)]
  rfl

/-- The elements move down before the length is looked at and the last place is dropped. -/
theorem does_shift
    {first : Value}
    (isArray : machine.heap.body id = .array storage)
    (isList : storage.elements = (first :: elements).toArray)
    (bounded : (first :: elements).length ≤ Storage.maxLength) :
    shift.Does call id machine first elements := by
  have run_eq := @run_shift call _ _ _ _ isArray isList
  have changed := Storage.elements_dropLast (Storage.elements_moveDown isList)
  rw [List.dropLast_concat] at changed
  refine does_of_run isArray (Storage.dropLast ∘ Storage.moveDown) changed ?_
  rw [run_eq, ← Heap.modifyStorage_modifyStorage]
  dsimp only [List.head?_cons]
  have moved : Run.changeHeap (·.modifyStorage id Storage.moveDown) machine =
      .ok () { machine with heap := machine.heap.modifyStorage id Storage.moveDown } :=
    rfl
  rw [Run.bind_of_ok moved, Run.bind_of_ok (checkLength_of_le bounded _)]
  rfl

theorem does_put
    {key : String}
    {isIndex : arrayIndex? key = some index}
    {value : Value}
    (isArray : machine.heap.body id = .array storage)
    (fits : index < Storage.maxLength)
    (changed : (storage.put index value).elements = later.toArray) :
    (put key index isIndex value).Does call id machine value later := by
  refine does_of_run isArray (·.put index value) changed ?_
  rw [run_put, if_neg (Nat.not_le.mpr fits)]

theorem does_resize
    {length : Float}
    (isArray : machine.heap.body id = .array storage)
    (isLength : Number.IsLength length count)
    (changed : (storage.resize count).elements = later.toArray) :
    (resize length).Does call id machine (.number length) later := by
  refine does_of_run isArray (·.resize count) changed ?_
  rw [run_resize, Run.bind_of_ok (Run.setLength_of_isLength isLength id machine)]
  rfl

/-- An operation with an effect on the list of the elements has that effect on the array. -/
theorem Effect.does
    (effect : operation.Effect elements result later)
    (isArray : machine.heap.body id = .array storage)
    (isList : storage.elements = elements.toArray)
    (bounded : elements.length ≤ Storage.maxLength) :
    operation.Does call id machine result later := by
  cases effect with
  | push fits =>
      exact does_of_growth isArray (run_push isArray isList _) fits
        (Storage.elements_append isList _)
  | pop => exact does_pop isArray isList bounded
  | popEmpty => exact does_nothing isArray isList (run_pop isArray isList)
  | shift => exact does_shift isArray isList bounded
  | shiftEmpty => exact does_nothing isArray isList (run_shift isArray isList)
  | unshift fits =>
      exact does_of_growth isArray (run_unshift isArray isList _) fits
        (Storage.elements_prepend isList _)
  | put inside =>
      exact does_put isArray (Nat.lt_of_lt_of_le inside bounded)
        (Storage.elements_put_inside isList inside _)
  | putBeyond beyond fits =>
      exact does_put isArray fits (Storage.elements_put_beyond isList beyond _)
  | truncate isLength shorter =>
      exact does_resize isArray isLength (Storage.elements_resize_shorter isList shorter)
  | pad isLength longer =>
      exact does_resize isArray isLength (Storage.elements_resize_longer isList longer)

/-- Adding too much is refused before anything is done. -/
theorem isRefused_of_growth
    {next : Unit → Run Value}
    (run_eq : operation.run call id machine = (Run.checkLength length >>= next) machine)
    (beyond : ¬ length ≤ Storage.maxLength) :
    operation.IsRefused call id machine := by
  rw [IsRefused, run_eq, Run.bind_of_error (checkLength_of_lt (Nat.lt_of_not_le beyond) machine)]

/-- An operation without an effect on the list of the elements is refused. -/
theorem isRefused_of_no_effect
    (isArray : machine.heap.body id = .array storage)
    (isList : storage.elements = elements.toArray)
    (none : ∀ result later, ¬ operation.Effect elements result later) :
    operation.IsRefused call id machine := by
  cases operation with
  | push values =>
      exact isRefused_of_growth (run_push isArray isList values) fun fits => none _ _ (.push fits)
  | unshift values =>
      exact isRefused_of_growth (run_unshift isArray isList values)
        fun fits => none _ _ (.unshift fits)
  | pop =>
      rcases List.eq_nil_or_concat' elements with rfl | ⟨front, last, rfl⟩
      · exact absurd .popEmpty (none _ _)
      · exact absurd .pop (none last front)
  | shift =>
      cases elements with
      | nil => exact absurd .shiftEmpty (none _ _)
      | cons first rest => exact absurd .shift (none first rest)
  | put key index isIndex value =>
      rw [IsRefused, run_put, if_pos]
      refine Nat.le_of_not_lt fun fits => ?_
      rcases Nat.lt_or_ge index elements.length with inside | beyond
      · exact none _ _ (.put inside)
      · exact none _ _ (.putBeyond beyond fits)
  | resize length =>
      have notLength (count : Nat) : ¬ Number.IsLength length count := by
        intro isLength
        rcases Nat.lt_or_ge count elements.length with shorter | longer
        · exact none _ _ (.truncate isLength shorter)
        · exact none _ _ (.pad isLength longer)
      rw [IsRefused, run_resize, Run.bind_of_error (Run.setLength_of_not_isLength notLength id machine)]

/-! ## Any number of operations -/

/-- A machine on which an array that started empty was operated on, with the list that the
effects of the operations lead to.  In between there may be anything that leaves the array
alone. -/
inductive Reached (call : Caller) (id : Nat) : Machine → List Value → Prop where
  | empty {machine : Machine} {storage : Storage}
      (isArray : machine.heap.body id = .array storage)
      (isEmpty : storage.elements = #[]) :
      Reached call id machine []
  | done {operation : ArrayOperation} {machine after : Machine} {elements later : List Value}
      {result value : Value}
      (reached : Reached call id machine elements)
      (effect : operation.Effect elements result later)
      (ran : operation.run call id machine = .ok value after) :
      Reached call id after later
  | failed {operation : ArrayOperation} {machine after : Machine} {elements : List Value}
      {abort : Abort}
      (reached : Reached call id machine elements)
      (ran : operation.run call id machine = .error abort after) :
      Reached call id after elements
  | elsewhere {machine after : Machine} {elements : List Value}
      (reached : Reached call id machine elements)
      (same : after.heap[id]? = machine.heap[id]?) :
      Reached call id after elements

/-- An array holds a list that is not too long. -/
def HoldsList (machine : Machine) (id : Nat) (elements : List Value) : Prop :=
  (∃ storage, machine.heap.body id = .array storage ∧ storage.elements = elements.toArray) ∧
    elements.length ≤ Storage.maxLength

/-- One operation on an array that holds a list: it has its effect, or it is refused. -/
theorem HoldsList.does_or_isRefused
    (holds : HoldsList machine id elements)
    (call : Caller)
    (operation : ArrayOperation) :
    (∃ result later, operation.Effect elements result later ∧
      operation.Does call id machine result later) ∨
    (∀ result later, ¬ operation.Effect elements result later) ∧
      operation.IsRefused call id machine := by
  obtain ⟨⟨storage, isArray, isList⟩, bounded⟩ := holds
  by_cases effective : ∃ result later, operation.Effect elements result later
  · obtain ⟨result, later, effect⟩ := effective
    exact .inl ⟨result, later, effect, effect.does isArray isList bounded⟩
  · have none (result : Value) (later : List Value) : ¬ operation.Effect elements result later :=
      fun effect => effective ⟨result, later, effect⟩
    exact .inr ⟨none, isRefused_of_no_effect isArray isList none⟩

theorem Effect.holds
    {result value : Value}
    {after : Machine}
    (effect : operation.Effect elements result later)
    (holds : HoldsList machine id elements)
    (ran : operation.run call id machine = .ok value after) :
    HoldsList after id later := by
  obtain ⟨⟨storage, isArray, isList⟩, bounded⟩ := holds
  obtain ⟨changed, isLater, does⟩ : operation.Does call id machine result later :=
    effect.does isArray isList bounded
  cases does.symm.trans ran
  exact ⟨⟨changed, Heap.body_modifyStorage isArray _, isLater⟩, effect.bounded bounded⟩

/-- Whatever was done, the array holds the list that the effects lead to. -/
theorem Reached.holds (reached : Reached call id machine elements) :
    HoldsList machine id elements := by
  induction reached with
  | empty isArray isEmpty => exact ⟨⟨_, isArray, isEmpty⟩, Nat.zero_le _⟩
  | done _ effect ran inductionHypothesis => exact effect.holds inductionHypothesis ran
  | @failed operation machine after elements abort _ ran inductionHypothesis =>
      rcases inductionHypothesis.does_or_isRefused call operation with
        ⟨result, later, -, changed, -, does⟩ | ⟨-, refused⟩
      · cases does.symm.trans ran
      · cases refused.symm.trans ran
        exact inductionHypothesis
  | elsewhere _ same inductionHypothesis =>
      obtain ⟨⟨storage, isArray, isList⟩, bounded⟩ := inductionHypothesis
      refine ⟨⟨storage, ?_, isList⟩, bounded⟩
      rw [Heap.body, same]
      exact isArray

/--
An array that started empty is a list that is never longer than the greatest length.  Each
operation either has its effect on the list, with the result that goes with it and nothing
else changed on the machine, or it has none and is refused by an error of its range, with
nothing changed at all.  Removing an element is never refused.  Assigning any value to the
length is assigning the number that it converts to.
-/
theorem arrays_are_bounded_lists
    (reached : Reached call id machine elements) :
    machine.heap.elements id = elements.toArray ∧
    elements.length ≤ Storage.maxLength ∧
    (∀ operation : ArrayOperation,
      (∃ result later, operation.Effect elements result later ∧
        operation.Does call id machine result later) ∨
      (∀ result later, ¬ operation.Effect elements result later) ∧
        operation.IsRefused call id machine) ∧
    (∃ result later, pop.Does call id machine result later) ∧
    (∃ result later, shift.Does call id machine result later) ∧
    ∀ value, Run.write call (.object .array id) "length" value =
      Run.toNumber call value >>= fun length =>
        Run.write call (.object .array id) "length" (.number length) := by
  have holds := reached.holds
  obtain ⟨⟨storage, isArray, isList⟩, bounded⟩ := reached.holds
  refine ⟨elements_eq isArray isList, bounded, holds.does_or_isRefused call, ?_, ?_, fun _ => rfl⟩
  · rcases List.eq_nil_or_concat' elements with rfl | ⟨front, last, rfl⟩
    · exact ⟨_, _, Effect.popEmpty.does isArray isList bounded⟩
    · exact ⟨_, _, Effect.pop.does isArray isList bounded⟩
  · cases elements with
    | nil => exact ⟨_, _, Effect.shiftEmpty.does isArray isList bounded⟩
    | cons first rest => exact ⟨_, _, Effect.shift.does isArray isList bounded⟩

/-- A machine with one array, which is empty. -/
def emptyArray : Machine := ⟨#[⟨none, [], .array (.exact #[])⟩], #[], 0, "", 0, 0, 0⟩

/-- The machine after two values were pushed. -/
def twoPushed : Machine :=
  { emptyArray with
    heap := emptyArray.heap.modifyStorage 0 (·.append [.boolean true, .boolean false]) }

theorem reached_twoPushed : Reached (Run.callUpTo 0) 0 twoPushed [.boolean true, .boolean false] :=
  have isArray : emptyArray.heap.body 0 = .array (.exact #[]) := rfl
  have fits : ([] : List Value).length + 2 ≤ Storage.maxLength := by decide
  .done (.empty isArray rfl) (.push fits) rfl

theorem arrays_are_bounded_lists_of_two_pushed :
    Reached (Run.callUpTo 0) 0 twoPushed [.boolean true, .boolean false] ∧
    twoPushed.heap.elements 0 = #[.boolean true, .boolean false] ∧
    (∃ result later, pop.Does (Run.callUpTo 0) 0 twoPushed result later) ∧
    ∃ result later, shift.Does (Run.callUpTo 0) 0 twoPushed result later := by
  obtain ⟨isList, -, -, popped, shifted, -⟩ := arrays_are_bounded_lists reached_twoPushed
  exact ⟨reached_twoPushed, isList, popped, shifted⟩

end ArrayOperation

end ScriptEngine
