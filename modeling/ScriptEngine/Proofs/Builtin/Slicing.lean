import Mathlib.Logic.Relation
import ScriptEngine.Code.Lowering
import ScriptEngine.Proofs.Builtin.Orderly
import ScriptEngine.Proofs.Machine.CallDepth

namespace ScriptEngine

/-!
# Slices of arrays that change

A slice takes the length of its array first and converts its arguments then.  Scripts may run
meanwhile and change the array, so the positions may lie beyond its last element when the
elements are taken.  There is nothing there but undefined, as long as the block of the array
reaches that far.

The block does so however the array was changed, unless elements were put in front of it when
there were fewer than the slice goes for.  Then the slice leaves the block and breaks the run.
-/

variable {α : Type} {start stop id : Nat} {machine : Machine} {run : Run α} {storage : Storage}

/-!
## The room of arrays

An array moves to a larger block when its elements no longer fit, and it stays in its block
when they become fewer.  Only putting elements in front makes a block anew, with room for the
elements and no more.  So whenever an array has lost room, elements were put in front of it
before, and there were not many of them.

Whatever code runs, it does to an array what the steps of its storage do, one after the other.
-/

namespace Storage

variable {before after : Storage} {count : Nat}

theorem capacity_le_pad (storage : Storage) (length : Nat) :
    storage.capacity ≤ (storage.pad length).capacity := by
  unfold pad
  dsimp only
  split
  · exact Nat.le_refl _
  · have reached := le_grownSingly length length storage.capacity
    dsimp only
    omega

theorem capacity_le_put (storage : Storage) (index : Nat) (value : Value) :
    storage.capacity ≤ (storage.put index value).capacity := by
  unfold put
  dsimp only
  split
  · exact Nat.le_refl _
  · exact capacity_le_pad storage (index + 1)

theorem capacity_le_append (storage : Storage) (values : List Value) :
    storage.capacity ≤ (storage.append values).capacity := by
  unfold append
  dsimp only
  split
  · exact Nat.le_refl _
  · have reached := le_grown storage.capacity (storage.elements.size + values.length)
    dsimp only
    omega

theorem capacity_le_resize (storage : Storage) (length : Nat) :
    storage.capacity ≤ (storage.resize length).capacity := by
  unfold resize
  split
  · exact Nat.le_refl _
  · exact capacity_le_pad storage length

/-- A step keeps the room, unless it puts elements in front. -/
theorem Becomes.keeps_room (becomes : before.Becomes after) :
    before.capacity ≤ after.capacity ∨ ∃ values, after = before.prepend values := by
  cases becomes with
  | prepend values => exact .inr ⟨values, rfl⟩
  | append values => exact .inl (capacity_le_append before values)
  | put index value => exact .inl (capacity_le_put before index value)
  | resize length => exact .inl (capacity_le_resize before length)
  | moveDown | dropLast | watch | unwatch => exact .inl (Nat.le_refl _)

/-- Storage became other storage in steps. -/
def Leads : Storage → Storage → Prop := Relation.ReflTransGen Becomes

/-- Meanwhile elements were put in front, and afterwards there were fewer than a number of them. -/
def RebuiltBelow (count : Nat) (before after : Storage) : Prop :=
  ∃ (middle : Storage) (values : List Value),
    before.Leads middle ∧
      (middle.prepend values).length < count ∧
      (middle.prepend values).Leads after

/-- Room for a number of elements is lost only by putting elements in front of fewer ones. -/
theorem Leads.rebuiltBelow_of_lost
    (leads : before.Leads after)
    (room : count ≤ before.capacity)
    (lost : after.capacity < count) :
    RebuiltBelow count before after := by
  induction leads with
  | refl => omega
  | @tail middle last leads becomes inductionHypothesis =>
      by_cases lostBefore : middle.capacity < count
      · obtain ⟨first, values, leadsFirst, few, leadsMiddle⟩ := inductionHypothesis lostBefore
        exact ⟨first, values, leadsFirst, few, leadsMiddle.tail becomes⟩
      · -- The last step is the one that lost the room.
        rcases becomes.keeps_room with kept | ⟨values, rfl⟩
        · omega
        · exact ⟨middle, values, leads, lost, .refl⟩

end Storage

namespace Run

/-- Whatever is an array before a run is one after it, in storage that the former led to. -/
def KeepsArrays {α : Type} (run : Run α) : Prop :=
  ∀ machine id storage, machine.heap.body id = .array storage →
    ∃ later, (after (run machine)).heap.body id = .array later ∧ storage.Leads later

namespace KeepsArrays

variable {β : Type}

theorem of_same_heap
    (sameHeap : ∀ machine, (after (run machine)).heap = machine.heap) :
    KeepsArrays run :=
  fun machine _ storage isArray => ⟨storage, sameHeap machine ▸ isArray, .refl⟩

theorem bind
    {first : Run α}
    {next : α → Run β}
    (firstKeeps : KeepsArrays first)
    (nextKeeps : ∀ value, KeepsArrays (next value)) :
    KeepsArrays (first >>= next) := by
  intro machine id storage isArray
  obtain ⟨middle, isMiddle, leads⟩ := firstKeeps machine id storage isArray
  cases ran : first machine with
  | error abort between =>
      rw [ran] at isMiddle
      rw [bind_of_error ran]
      exact ⟨middle, isMiddle, leads⟩
  | ok value between =>
      rw [ran] at isMiddle
      rw [bind_of_ok ran]
      obtain ⟨later, isLater, further⟩ := nextKeeps value between id middle isMiddle
      exact ⟨later, isLater, leads.trans further⟩

theorem locate (position : Position) (keeps : KeepsArrays run) :
    KeepsArrays (Run.locate position run) := by
  intro machine id storage isArray
  obtain ⟨later, isLater, leads⟩ := keeps machine id storage isArray
  refine ⟨later, ?_, leads⟩
  unfold Run.locate
  cases ran : run machine with
  | ok value between | error abort between =>
      rw [ran] at isLater
      exact isLater

theorem deeper (keeps : KeepsArrays run) : KeepsArrays (Run.deeper run) := by
  intro machine id storage isArray
  by_cases room : ¬(machine.maxDepth ≠ 0 ∧ machine.maxDepth < machine.depth + 1)
  · obtain ⟨later, isLater, leads⟩ :=
      keeps { machine with depth := machine.depth + 1 } id storage isArray
    refine ⟨later, ?_, leads⟩
    rw [deeper_of_room run machine room]
    cases ran : run { machine with depth := machine.depth + 1 } with
    | ok value between | error abort between =>
        rw [ran] at isLater
        exact isLater
  · refine ⟨storage, ?_, .refl⟩
    unfold Run.deeper
    rw [if_pos (not_not.mp room)]
    exact isArray

theorem changeHeap {change : Heap → Heap} (keeps : Heap.KeepsArrays change) :
    KeepsArrays (Run.changeHeap change) := by
  intro machine id storage isArray
  obtain ⟨later, isLater, rfl | becomes⟩ := keeps machine.heap id storage isArray
  · exact ⟨later, isLater, .refl⟩
  · exact ⟨later, isLater, .single becomes⟩

theorem makeObject (object : HeapObject) : KeepsArrays (Run.makeObject object) := by
  intro machine id storage isArray
  refine ⟨storage, ?_, .refl⟩
  have holds : machine.heap.Holds (.object .array id) := ⟨storage, isArray⟩
  have inside : id < machine.heap.size := Heap.lt_size_of_holds holds
  change Heap.body (machine.heap.push object) id = .array storage
  unfold Heap.body at isArray ⊢
  rw [Array.getElem?_push, if_neg (Nat.ne_of_lt inside)]
  exact isArray

end KeepsArrays

/-- Every run built from steps does to arrays what the steps of their storage do. -/
theorem Built.keepsArrays
    {place : Position → Prop}
    {sound : Routine → Prop}
    {bare : Bool}
    {run : Run α}
    (anyHeap : ∀ heap : Heap, heap.AllSound sound)
    (built : Built place sound (fun _ => False) bare run) :
    KeepsArrays run := by
  induction built with
  | bind _ _ first next => exact first.bind next
  | heap _ next => exact fun machine => next machine.heap (anyHeap _) machine
  | scopes _ _ next => exact fun machine => next machine machine
  | locate _ _ inner => exact inner.locate _
  | deeper _ inner => exact inner.deeper
  | changeHeap isStep => exact .changeHeap isStep.arrays
  | makeObject _ => exact .makeObject _
  | random =>
      refine .of_same_heap fun machine => ?_
      obtain ⟨value, seed, ran⟩ := random_result machine
      rw [ran]
      rfl
  | pure | fail | raise | broken | changeScopes | makeScope | printLine =>
      exact .of_same_heap fun _ => rfl
  | call _ _ _ isCaller => exact isCaller.elim

theorem IsBuilt.keepsArrays {run : Run α} (built : IsBuilt run) : KeepsArrays run :=
  Built.keepsArrays Heap.allSound_of_any built

end Run

theorem relativeIndex_le (position : Float) {length : Nat} (short : length < 2 ^ 53) :
    relativeIndex position length ≤ length :=
  clampIndex_le _ short

namespace Storage

theorem get_of_beyond {index : Nat} (beyond : storage.length ≤ index) :
    storage.get index = .undefined := by
  unfold get
  rw [Array.getElem?_eq_none beyond]
  rfl

/-- What storage has at some places in a row, undefined beyond the last element. -/
def part (storage : Storage) (start count : Nat) : List Value :=
  (List.range' start count).map storage.get

theorem getElem?_part (storage : Storage) (start count place : Nat) :
    (storage.part start count)[place]? =
      if place < count then some (storage.get (start + place)) else none := by
  unfold part
  rw [List.getElem?_map]
  split
  · rename_i inside
    rw [List.getElem?_range' inside, Nat.one_mul]
    rfl
  · rename_i outside
    have beyond : (List.range' start count).length ≤ place := by
      rw [List.length_range']
      exact Nat.le_of_not_lt outside
    rw [List.getElem?_eq_none beyond]
    rfl

/-- Positions within the length are those of elements. -/
theorem part_of_within (within : stop ≤ storage.length) :
    storage.part start (stop - start) = (storage.elements.extract start stop).toList := by
  have within : stop ≤ storage.elements.size := within
  apply List.ext_getElem?
  intro place
  rw [getElem?_part, Array.getElem?_toList, Array.getElem?_extract, Nat.min_eq_left within]
  split
  · have present : start + place < storage.elements.size := by omega
    unfold get
    rw [Array.getElem?_eq_getElem present]
    rfl
  · rfl

/-- Slots within the block are what the storage has there. -/
theorem slots_of_room (room : stop ≤ storage.capacity) :
    storage.slots start stop = .ok (storage.part start (stop - start)).toArray := by
  unfold slots
  rw [if_neg (Nat.not_lt.mpr room)]
  refine congrArg Except.ok ?_
  apply Array.ext_getElem?
  intro place
  have isPart := getElem?_part storage start (stop - start) place
  rw [← List.getElem?_toArray] at isPart
  rw [isPart, Array.getElem?_append, Array.getElem?_extract, Array.size_extract,
    Array.getElem?_replicate]
  unfold get
  by_cases inside : place < stop - start
  · rw [if_pos inside]
    by_cases present : start + place < storage.elements.size
    · rw [if_pos (by omega), if_pos (by omega), Array.getElem?_eq_getElem present]
      rfl
    · rw [if_neg (by omega), if_pos (by omega), Array.getElem?_eq_none (Nat.le_of_not_lt present)]
      rfl
  · rw [if_neg inside, if_neg (by omega), if_neg (by omega)]

theorem slots_beyond_room (beyond : storage.capacity < stop) :
    storage.slots start stop = .error (.storageBounds stop storage.capacity) := by
  unfold slots
  rw [if_pos beyond]

end Storage

namespace Run

/-- The positions that the arguments of a slice stand for in an array as long as it is now. -/
def sliceBounds (call : Caller) (id : Nat) (arguments : List Value) : Run (Nat × Nat) := do
  let length := (← heap).arrayLength id
  let start ← position call 0 length (argument arguments 0)
  let stop ← position call length length (argument arguments 1)
  return (start, stop)

/-- A new array of what lies between two positions of an array. -/
def cutOut (id : Nat) (bounds : Nat × Nat) : Run Value := do
  if bounds.2 ≤ bounds.1 then makeArray (Storage.exact #[])
  else
    match ((← heap).storage id).slots bounds.1 bounds.2 with
    | .ok elements => makeArray (Storage.copied elements)
    | .error fault => throw (.broken fault)

theorem arraySlice_eq (call : Caller) (id : Nat) (arguments : List Value) :
    arraySlice call (.object .array id) arguments =
      (sliceBounds call id arguments >>= cutOut id) := by
  unfold arraySlice sliceBounds
  simp only [bind_assoc, pure_bind]
  rfl

theorem position_le
    {call : Caller}
    {default length result : Nat}
    {value : Value}
    {after : Machine}
    (short : length < 2 ^ 53)
    (isDefault : default ≤ length)
    (gave : position call default length value machine = .ok result after) :
    result ≤ length := by
  unfold position at gave
  split at gave
  · cases gave
    exact isDefault
  · obtain ⟨number, middle, -, gaveNumber⟩ := ok_of_bind gave
    cases gaveNumber
    exact relativeIndex_le number short

theorem stop_le_of_sliceBounds
    {call : Caller}
    {arguments : List Value}
    {after : Machine}
    (short : machine.heap.arrayLength id < 2 ^ 53)
    (gave : sliceBounds call id arguments machine = .ok (start, stop) after) :
    stop ≤ machine.heap.arrayLength id := by
  unfold sliceBounds at gave
  rw [heap_bind] at gave
  obtain ⟨first, middle, -, gaveRest⟩ := ok_of_bind gave
  obtain ⟨second, last, gaveStop, gaveBoth⟩ := ok_of_bind gaveRest
  cases gaveBoth
  exact position_le short (Nat.le_refl _) gaveStop

/-- Whatever scripts do while the arguments are converted, arrays go through steps only. -/
theorem sliceBounds_keepsArrays (patience id : Nat) (arguments : List Value) :
    KeepsArrays (sliceBounds (callUpTo patience) id arguments) := by
  have calls (callee this : Value) (values : List Value) :
      IsBuilt (callUpTo patience callee this values) :=
    .callUpTo patience callee this values
  refine IsBuilt.keepsArrays ?_
  refine .heap fun heap _ => .bind ((Uniform.position _ _ _).built calls) fun start => ?_
  exact .bind ((Uniform.position _ _ _).built calls) fun stop => .pure _

/-- An outcome is a new array of some values, which is all that was done to a machine. -/
def IsNewArray
    (outcome : EStateM.Result Abort Machine Value)
    (machine : Machine)
    (values : List Value) :
    Prop :=
  ∃ made : Storage,
    made.elements = values.toArray ∧
      outcome = .ok (.object .array machine.heap.size)
        { machine with
          heap := machine.heap.push ⟨some Heap.arrayPrototype, [], .array made⟩ }

theorem cutOut_of_room
    (room : stop ≤ start ∨ stop ≤ (machine.heap.storage id).capacity) :
    IsNewArray (cutOut id (start, stop) machine) machine
      ((machine.heap.storage id).part start (stop - start)) := by
  unfold cutOut
  by_cases isEmpty : stop ≤ start
  · rw [if_pos isEmpty, Nat.sub_eq_zero_of_le isEmpty]
    exact ⟨Storage.exact #[], rfl, rfl⟩
  · rw [if_neg isEmpty, heap_bind, Storage.slots_of_room (room.resolve_left isEmpty)]
    exact ⟨Storage.copied _, rfl, rfl⟩

theorem cutOut_beyond_room
    (notEmpty : start < stop)
    (beyond : (machine.heap.storage id).capacity < stop) :
    cutOut id (start, stop) machine =
      .error (.broken (.storageBounds stop (machine.heap.storage id).capacity)) machine := by
  unfold cutOut
  rw [if_neg (Nat.not_le.mpr notEmpty), heap_bind, Storage.slots_beyond_room beyond]
  rfl

/--
Whatever scripts do to an array while the arguments of a slice are converted, the slice gives
a new array of what lies between the positions then, undefined beyond the last element.  If
the array has the elements it had before, these are the elements between the positions.  The
one exception is an array that has no room up to the last position any more.  Then the slice
breaks the run, and elements had been put in front of the array meanwhile that left it with
fewer elements than that.  Positions are doubles, which tell whole numbers apart up to
`2 ^ 53`.  That many elements take more memory than a machine can address.
-/
theorem slice_breaks_only_after_rebuilding
    {machine : Machine}
    {id : Nat}
    {storage : Storage}
    (isArray : machine.heap.body id = .array storage)
    (short : storage.length < 2 ^ 53)
    (patience : Nat)
    (arguments : List Value) :
    let bounds := sliceBounds (callUpTo patience) id arguments machine
    let slice := Builtin.arraySlice.run (callUpTo patience) (.object .array id) arguments machine
    (∀ abort after, bounds = .error abort after → slice = .error abort after) ∧
      ∀ start stop after, bounds = .ok (start, stop) after →
        ∃ later,
          after.heap.body id = .array later ∧
            (stop ≤ start ∨ stop ≤ later.capacity →
              IsNewArray slice after (later.part start (stop - start))) ∧
            (∀ index, later.length ≤ index → later.get index = .undefined) ∧
            (later.elements = storage.elements →
              IsNewArray slice after (storage.elements.extract start stop).toList) ∧
            (start < stop → later.capacity < stop →
              slice = .error (.broken (.storageBounds stop later.capacity)) after ∧
                Storage.RebuiltBelow stop storage later) := by
  intro bounds slice
  have isSlice : slice = (sliceBounds (callUpTo patience) id arguments >>= cutOut id) machine :=
    congrFun (arraySlice_eq (callUpTo patience) id arguments) machine
  refine ⟨fun abort after failed => isSlice.trans (bind_of_error failed), ?_⟩
  intro start stop after gave
  have kept := sliceBounds_keepsArrays patience id arguments machine id storage isArray
  change sliceBounds (callUpTo patience) id arguments machine = _ at gave
  rw [gave] at kept
  obtain ⟨later, isLater, leads⟩ := kept
  have isLaterStorage : after.heap.storage id = later := Heap.storage_of_body isLater
  have within : stop ≤ storage.length := by
    have isLength : machine.heap.arrayLength id = storage.length :=
      Heap.arrayLength_of_body isArray
    rw [← isLength]
    exact stop_le_of_sliceBounds (isLength ▸ short) gave
  have room : stop ≤ storage.capacity := Nat.le_trans within storage.fits
  have isCut : slice = cutOut id (start, stop) after := isSlice.trans (bind_of_ok gave)
  rw [isCut]
  refine ⟨later, isLater, fun laterRoom => ?_, fun index => Storage.get_of_beyond,
    fun sameElements => ?_, fun notEmpty beyond => ⟨?_, ?_⟩⟩
  · rw [← isLaterStorage] at laterRoom ⊢
    exact cutOut_of_room laterRoom
  · have laterWithin : stop ≤ later.length := by
      unfold Storage.length at within ⊢
      rwa [sameElements]
    rw [← sameElements, ← Storage.part_of_within laterWithin, ← isLaterStorage]
    refine cutOut_of_room (.inr ?_)
    rw [isLaterStorage]
    exact Nat.le_trans laterWithin later.fits
  · rw [← isLaterStorage] at beyond ⊢
    exact cutOut_beyond_room notEmpty beyond
  · exact leads.rebuiltBelow_of_lost room beyond

/-- A script with an array and an object that empties and rebuilds it when it is converted. -/
def rebuildingStop : Source :=
  .ofEval
    "var a = [1, 2, 3]; var b = \x7bvalueOf: function () \x7ba.length = 0; a.unshift(); return 3\x7d\x7d"

/-- Whether the object takes the room from under a slice that goes up to it, while numbers leave
the array as it is. -/
def losesRoom (realm : Machine) : Bool :=
  match Code.compile true rebuildingStop with
  | .ok code =>
      let machine := Run.after (code.runIn 0 realm)
      match machine.scopes.lookup? 0 "a", machine.scopes.lookup? 0 "b" with
      | some (.object .array id), some stop =>
          machine.heap.arrayLength id == 3 &&
            (match sliceBounds (callUpTo unlimited) id [.ofNat 0, stop] machine with
            | .ok (0, 3) after => (after.heap.storage id).capacity == 0
            | _ => false) &&
            match sliceBounds (callUpTo unlimited) id [.ofNat 1, .ofNat 3] machine with
            | .ok (1, 3) after => after.heap.arrayLength id == 3
            | _ => false
      | _, _ => false
  | .error _ => false

theorem slice_breaks_after_rebuilding_of_three :
    ∃ (machine broken whole : Machine) (id : Nat) (stop : Value),
      machine.heap.arrayLength id = 3 ∧
        Builtin.arraySlice.run call (.object .array id) [.ofNat 0, stop] machine =
          .error (.broken (.storageBounds 3 0)) broken ∧
        Storage.RebuiltBelow 3 (machine.heap.storage id) (broken.heap.storage id) ∧
        IsNewArray (Builtin.arraySlice.run call (.object .array id) [.ofNat 1, .ofNat 3] machine)
          whole ((whole.heap.storage id).part 1 2) := by
  have runs : losesRoom (.realm 10000) = true := by
    decide +kernel
  unfold losesRoom at runs
  split at runs
  · rename_i code _
    dsimp only at runs
    split at runs
    · rename_i id stop isArray isStop
      generalize Run.after (code.runIn 0 (.realm 10000)) = machine at runs
      simp only [Bool.and_eq_true, beq_iff_eq] at runs
      obtain ⟨⟨length, broke⟩, kept⟩ := runs
      have isArray := Heap.has_array_of_arrayLength (by omega : 0 < machine.heap.arrayLength id)
      obtain ⟨storage, isStorage⟩ := isArray.holds
      have isLength := Heap.arrayLength_of_body isStorage
      have short : storage.length < 2 ^ 53 := by omega
      obtain ⟨-, breaks⟩ :=
        slice_breaks_only_after_rebuilding isStorage short unlimited [.ofNat 0, stop]
      obtain ⟨-, gives⟩ :=
        slice_breaks_only_after_rebuilding isStorage short unlimited [.ofNat 1, .ofNat 3]
      split at broke
      · rename_i broken gave
        obtain ⟨later, isLater, -, -, -, breaks⟩ := breaks 0 3 broken gave
        rw [Heap.storage_of_body isLater, beq_iff_eq] at broke
        obtain ⟨isBroken, rebuilt⟩ := breaks (by decide) (by omega)
        rw [broke] at isBroken
        split at kept
        · rename_i whole gave
          obtain ⟨later, isLater, gives, -⟩ := gives 1 3 whole gave
          rw [beq_iff_eq, Heap.arrayLength_of_body isLater] at kept
          have room := later.fits
          have isWhole := gives (.inr (kept ▸ room))
          refine ⟨machine, broken, whole, id, stop, length, isBroken, ?_, ?_⟩
          · rwa [Heap.storage_of_body isStorage, Heap.storage_of_body ‹_›]
          · rwa [Heap.storage_of_body isLater]
        · cases kept
      · cases broke
    · cases runs
  · cases runs

end Run

end ScriptEngine
