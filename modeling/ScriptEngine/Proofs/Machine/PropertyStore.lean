import ScriptEngine.Proofs.Machine.Building
import ScriptEngine.Proofs.Machine.Elements
import ScriptEngine.Proofs.Machine.Prototypes
import ScriptEngine.Proofs.Number.Whole

namespace ScriptEngine

/-!
# Writing and reading properties

A write changes one object and leaves its prototype alone.  What is read from an
object afterwards is what was written, under the name it was written; under all
other names it is what was read before, except that an array may have grown.
Objects that do not inherit from the changed one do not notice the write.
-/

variable {id other index : Nat} {name : String} {heap before after : Heap} {kind : ObjectKind}
  {value : Value} {number : Float} {call : Caller} {machine : Machine}

theorem Properties.get?_set_other
    {properties : Properties} {other : String} (different : other ≠ name) :
    (properties.set name value).get? other = properties.get? other := by
  induction properties with
  | nil => simp [set, get?, find?, different.symm]
  | cons slot rest inductionHypothesis =>
      by_cases same : slot.name = name
      · simp [set, get?, find?, same, different.symm]
      · by_cases isOther : slot.name = other
        · rw [isOther] at same
          simp [set, get?, find?, same, isOther]
        · simpa [set, get?, find?, same, isOther] using inductionHypothesis

namespace Heap

/-- An object value names an object of the heap, and an array value one that has elements. -/
def Holds (heap : Heap) : Value → Prop
  | .object .array id => ∃ storage, heap.body id = .array storage
  | .object _ id => id < heap.size
  | _ => True

theorem lt_size_of_holds
    (holds : heap.Holds (.object kind id)) :
    id < heap.size := by
  cases kind with
  | array =>
      obtain ⟨storage, isArray⟩ := holds
      by_contra outside
      unfold body at isArray
      rw [Array.getElem?_eq_none (Nat.le_of_not_lt outside)] at isArray
      cases isArray
  | plain => exact holds
  | closure => exact holds
  | builtin => exact holds
  | pattern => exact holds

/-! ## Changing one object -/

/-- A heap after a change of one object that leaves its prototype alone. -/
structure ChangesOnly (id : Nat) (before after : Heap) : Prop where
  size : after.size = before.size
  prototype : ∀ other, after.prototype? other = before.prototype? other
  object : ∀ other, other ≠ id → after[other]? = before[other]?

theorem changesOnly_modify
    (heap : Heap) (id : Nat) {change : HeapObject → HeapObject}
    (keeps : ∀ object, (change object).prototype = object.prototype) :
    ChangesOnly id heap (heap.modify id change) := by
  refine ⟨Array.size_modify .., fun other => ?_, fun other different => ?_⟩
  · unfold prototype?
    rw [Array.getElem?_modify]
    by_cases isChanged : id = other
    · rw [if_pos isChanged]
      cases heap[other]? with
      | none => rfl
      | some object => exact keeps object
    · rw [if_neg isChanged]
  · rw [Array.getElem?_modify, if_neg (Ne.symm different)]

theorem changesOnly_setOwn
    (heap : Heap)
    (id : Nat)
    (name : String)
    (value : Value) :
    ChangesOnly id heap (heap.setOwn id name value) :=
  changesOnly_modify heap id fun _ => rfl

theorem changesOnly_modifyStorage (heap : Heap) (id : Nat) (change : Storage → Storage) :
    ChangesOnly id heap (heap.modifyStorage id change) := by
  refine changesOnly_modify heap id fun object => ?_
  split
  · rfl
  · rfl

namespace ChangesOnly

theorem getOwn?
    (changes : ChangesOnly id before after) (different : other ≠ id) (name : String) :
    after.getOwn? other name = before.getOwn? other name := by
  unfold Heap.getOwn? Heap.properties
  rw [changes.object other different]

theorem storage (changes : ChangesOnly id before after) (different : other ≠ id) :
    after.storage other = before.storage other := by
  unfold Heap.storage Heap.body
  rw [changes.object other different]

/-- A name that the changed object owns as before is looked up as before. -/
theorem lookup?_of_same
    (changes : ChangesOnly id before after)
    (same : after.getOwn? id name = before.getOwn? id name)
    (other : Nat) :
    after.lookup? other name = before.lookup? other name := by
  have sameOwn : ∀ other, after.getOwn? other name = before.getOwn? other name := by
    intro other
    by_cases isChanged : other = id
    · rw [isChanged, same]
    · exact changes.getOwn? isChanged name
  unfold lookup?
  rw [changes.size]
  generalize before.size + 1 = budget
  induction budget generalizing other with
  | zero => rfl
  | succ budget inductionHypothesis =>
      have later : after.lookupFrom name budget = before.lookupFrom name budget :=
        funext inductionHypothesis
      rw [lookupFrom_succ, lookupFrom_succ, sameOwn, changes.prototype, later]

/-- An object that does not inherit from the changed one is looked up as before. -/
theorem lookup?_of_apart
    (changes : ChangesOnly id before after)
    (apart : before.reaches (some other) id = false)
    (name : String) :
    after.lookup? other name = before.lookup? other name := by
  unfold lookup?
  unfold reaches at apart
  rw [changes.size]
  generalize before.size + 1 = budget at apart ⊢
  induction budget generalizing other with
  | zero => rfl
  | succ budget inductionHypothesis =>
      rw [reachesFrom, Bool.or_eq_false_iff, beq_eq_false_iff_ne] at apart
      obtain ⟨different, later⟩ := apart
      rw [lookupFrom_succ, lookupFrom_succ, changes.getOwn? different, changes.prototype]
      cases isPrototype : before.prototype? other with
      | none => rfl
      | some prototype =>
          rw [isPrototype] at later
          rw [Option.bind_some, Option.bind_some, inductionHypothesis later]

end ChangesOnly

/-- What an object reads depends on its elements and on what is looked up. -/
theorem read?_congr
    (sameStorage : after.storage id = before.storage id)
    (sameLookup : after.lookup? id name = before.lookup? id name)
    (kind : ObjectKind) :
    after.read? (.object kind id) name = before.read? (.object kind id) name := by
  cases kind <;> simp only [read?, arrayLength, elements, sameStorage, sameLookup]

/-- An object that does not inherit from the changed one reads the same under every name. -/
theorem ChangesOnly.read?_of_apart
    (changes : ChangesOnly id before after)
    (apart : before.reaches (some other) id = false)
    (kind : ObjectKind)
    (name : String) :
    after.read? (.object kind other) name = before.read? (.object kind other) name := by
  have different : other ≠ id := by
    intro same
    rw [same] at apart
    simp [reaches, reachesFrom] at apart
  exact read?_congr (changes.storage different) (changes.lookup?_of_apart apart name) kind

/-! ## What the changed object reads -/

theorem getOwn?_setOwn_self
    (inside : id < heap.size)
    (name : String)
    (value : Value) :
    (heap.setOwn id name value).getOwn? id name = some value := by
  unfold getOwn? properties setOwn
  rw [Array.getElem?_modify, if_pos rfl, Array.getElem?_eq_getElem inside]
  exact Properties.find?_set_self _ name value

theorem getOwn?_setOwn_other
    {other : String} (different : other ≠ name) (value : Value) :
    (heap.setOwn id name value).getOwn? id other = heap.getOwn? id other := by
  unfold getOwn? properties setOwn
  rw [Array.getElem?_modify, if_pos rfl]
  cases heap[id]? with
  | none => rfl
  | some object => exact Properties.get?_set_other different

theorem storage_setOwn
    (heap : Heap)
    (id : Nat)
    (name : String)
    (value : Value) :
    (heap.setOwn id name value).storage id = heap.storage id := by
  unfold storage body setOwn
  rw [Array.getElem?_modify, if_pos rfl]
  cases heap[id]? with
  | none => rfl
  | some object => rfl

theorem getOwn?_modifyStorage
    (heap : Heap)
    (id : Nat)
    (change : Storage → Storage)
    (name : String) :
    (heap.modifyStorage id change).getOwn? id name = heap.getOwn? id name := by
  unfold getOwn? properties modifyStorage
  rw [Array.getElem?_modify, if_pos rfl]
  cases heap[id]? with
  | none => rfl
  | some object =>
      obtain ⟨prototype, properties, body⟩ := object
      cases body <;> rfl

theorem storage_of_body
    {storage : Storage} (isArray : heap.body id = .array storage) :
    heap.storage id = storage := by
  unfold Heap.storage
  rw [isArray]

theorem storage_modifyStorage
    {storage : Storage} (isArray : heap.body id = .array storage)
    (change : Storage → Storage) :
    (heap.modifyStorage id change).storage id = change (heap.storage id) := by
  rw [storage_of_body isArray]
  unfold body at isArray
  unfold Heap.storage body modifyStorage
  rw [Array.getElem?_modify, if_pos rfl]
  cases isObject : heap[id]? with
  | none =>
      rw [isObject] at isArray
      cases isArray
  | some object =>
      rw [isObject] at isArray
      obtain ⟨prototype, properties, body⟩ := object
      subst isArray
      rfl

theorem read?_length (heap : Heap) (id : Nat) :
    heap.read? (.object .array id) "length" = some (.ofNat (heap.arrayLength id)) :=
  rfl

theorem read?_index
    (isIndex : arrayIndex? name = some index) :
    heap.read? (.object .array id) name =
      some ((heap.elements id)[index]?.getD ((heap.lookup? id name).getD .undefined)) := by
  have notLength : name ≠ "length" := by
    rintro rfl
    cases isIndex
  simp only [read?, if_neg notLength, isIndex, Option.bind_some]
  cases (heap.elements id)[index]? with
  | none => rfl
  | some element => rfl

/-- A name that is neither the length nor an index is never among the elements. -/
theorem isElementKey_of_name
    (heap : Heap)
    (id : Nat)
    (named : kind = .array → name ≠ "length" ∧ arrayIndex? name = none) :
    heap.isElementKey kind id name = false := by
  unfold isElementKey
  rw [Bool.and_eq_false_iff, beq_eq_false_iff_ne]
  by_cases isArray : kind = .array
  · obtain ⟨notLength, notIndex⟩ := named isArray
    right
    simp [notLength, isIndexBelow, notIndex]
  · exact .inl isArray

theorem read?_congr_of_name
    (named : kind = .array → name ≠ "length" ∧ arrayIndex? name = none)
    (sameLookup : after.lookup? id name = before.lookup? id name) :
    after.read? (.object kind id) name = before.read? (.object kind id) name := by
  rw [read?_of_named (isElementKey_of_name after id named),
    read?_of_named (isElementKey_of_name before id named), sameLookup]

theorem read?_congr_of_index
    (isIndex : arrayIndex? name = some index)
    (sameElement : (after.elements id)[index]? = (before.elements id)[index]?)
    (sameLookup : after.lookup? id name = before.lookup? id name) :
    after.read? (.object .array id) name = before.read? (.object .array id) name := by
  rw [read?_index isIndex, read?_index isIndex, sameElement, sameLookup]

/-- The names that an array gains a meaning for as it grows: its length and the new indices. -/
def GainedBy (before after : Heap) (id : Nat) (name : String) : Prop :=
  before.arrayLength id < after.arrayLength id ∧
    (name = "length" ∨
      ∃ index, arrayIndex? name = some index ∧ before.arrayLength id ≤ index ∧
        index < after.arrayLength id)

/--
What a write of a property does: it is read afterwards, all other names are read
as before, an array that grew has a new length and undefined elements in the gap,
and objects that do not inherit from the changed one read the same.
-/
structure Stores
    (before after : Heap)
    (kind : ObjectKind)
    (id : Nat)
    (name : String)
    (value : Value) :
    Prop where
  written : after.read? (.object kind id) name = some value
  kept : ∀ other, other ≠ name → ¬(kind = .array ∧ GainedBy before after id other) →
    after.read? (.object kind id) other = before.read? (.object kind id) other
  length : kind = .array → before.arrayLength id < after.arrayLength id →
    after.read? (.object kind id) "length" = some (.ofNat (after.arrayLength id))
  gap : kind = .array → ∀ other index, arrayIndex? other = some index → other ≠ name →
    before.arrayLength id ≤ index → index < after.arrayLength id →
      after.read? (.object kind id) other = some .undefined
  elsewhere : ∀ other, before.reaches (some other) id = false → ∀ otherKind key,
    after.read? (.object otherKind other) key = before.read? (.object otherKind other) key

/-- Writing a name that is not among the elements. -/
theorem stores_setOwn
    (inside : id < heap.size)
    (named : kind = .array → name ≠ "length" ∧ arrayIndex? name = none)
    (value : Value) :
    Stores heap (heap.setOwn id name value) kind id name value := by
  have changes := changesOnly_setOwn heap id name value
  have sameLength : (heap.setOwn id name value).arrayLength id = heap.arrayLength id := by
    unfold arrayLength
    rw [storage_setOwn]
  refine ⟨?_, ?_, ?_, ?_,
    fun other apart otherKind key => changes.read?_of_apart apart otherKind key⟩
  · rw [read?_of_named (isElementKey_of_name _ id named), lookup?_eq, getOwn?_setOwn_self inside]
    rfl
  · intro other different _
    exact read?_congr (storage_setOwn heap id name value)
      (changes.lookup?_of_same (getOwn?_setOwn_other different value) id) kind
  · intro _ grew
    rw [sameLength] at grew
    exact absurd grew (Nat.lt_irrefl _)
  · intro _ other index _ _ notBelow below
    rw [sameLength] at below
    exact absurd below (Nat.not_lt.mpr notBelow)

/-- Writing an element of an array. -/
theorem stores_put
    {storage : Storage}
    (isArray : heap.body id = .array storage)
    (isIndex : arrayIndex? name = some index)
    (value : Value) :
    Stores heap (heap.modifyStorage id (·.put index value)) .array id name value := by
  have changes := changesOnly_modifyStorage heap id (·.put index value)
  have written := storage_modifyStorage isArray (·.put index value)
  have lookedUp := fun key =>
    changes.lookup?_of_same (getOwn?_modifyStorage heap id (·.put index value) key) id
  generalize heap.modifyStorage id (·.put index value) = after at changes written lookedUp ⊢
  have newLength : after.arrayLength id = max (heap.arrayLength id) (index + 1) := by
    unfold arrayLength
    rw [written, Storage.length_put]
  have element : ∀ place, (after.elements id)[place]? =
      if place = index then some value
      else if place < heap.arrayLength id then (heap.elements id)[place]?
      else if place < index then some .undefined
      else none := by
    intro place
    unfold elements arrayLength
    rw [written, Storage.getElem?_put]
  refine ⟨?_, ?_, fun _ _ => read?_length after id, ?_,
    fun other apart otherKind key => changes.read?_of_apart apart otherKind key⟩
  · rw [read?_index isIndex, element, if_pos rfl]
    rfl
  · intro other different notGained
    have notGained : ¬GainedBy heap after id other := fun gained => notGained ⟨rfl, gained⟩
    unfold GainedBy at notGained
    by_cases isLength : other = "length"
    · have notGrown : ¬heap.arrayLength id < after.arrayLength id :=
        fun grown => notGained ⟨grown, .inl isLength⟩
      have sameLength : after.arrayLength id = heap.arrayLength id := by omega
      rw [isLength, read?_length, read?_length, sameLength]
    · cases isPlace : arrayIndex? other with
      | none => exact read?_congr_of_name (fun _ => ⟨isLength, isPlace⟩) (lookedUp other)
      | some place =>
          have notIndex : place ≠ index := by
            rintro rfl
            exact different (arrayIndex?_injective isPlace isIndex)
          refine read?_congr_of_index isPlace ?_ (lookedUp other)
          rw [element, if_neg notIndex]
          split
          · rfl
          · rename_i notBelow
            have notInGap : ¬place < index := by
              intro inGap
              exact notGained ⟨by omega, .inr ⟨place, isPlace, by omega, by omega⟩⟩
            rw [if_neg notInGap]
            exact (Array.getElem?_eq_none (Nat.le_of_not_lt notBelow)).symm
  · intro _ other place isPlace different notBelow below
    have notIndex : place ≠ index := by
      rintro rfl
      exact different (arrayIndex?_injective isPlace isIndex)
    rw [read?_index isPlace, element, if_neg notIndex, if_neg (by omega), if_pos (by omega)]
    rfl

/--
What setting the length of an array does: it is read afterwards, the elements
that stay are read as before and new ones are undefined.
-/
structure Resizes (before after : Heap) (id count : Nat) : Prop where
  length : after.read? (.object .array id) "length" = some (.ofNat count)
  kept : ∀ name index, arrayIndex? name = some index →
    index < min (before.arrayLength id) count →
      after.read? (.object .array id) name = before.read? (.object .array id) name
  padded : ∀ name index, arrayIndex? name = some index →
    before.arrayLength id ≤ index → index < count →
      after.read? (.object .array id) name = some .undefined
  named : ∀ name, name ≠ "length" → arrayIndex? name = none →
    after.read? (.object .array id) name = before.read? (.object .array id) name
  elsewhere : ∀ other, before.reaches (some other) id = false → ∀ otherKind name,
    after.read? (.object otherKind other) name = before.read? (.object otherKind other) name

theorem resizes_resize
    {storage : Storage} (isArray : heap.body id = .array storage)
    (count : Nat) :
    Resizes heap (heap.modifyStorage id (·.resize count)) id count := by
  have changes := changesOnly_modifyStorage heap id (·.resize count)
  have resized := storage_modifyStorage isArray (·.resize count)
  have lookedUp := fun key =>
    changes.lookup?_of_same (getOwn?_modifyStorage heap id (·.resize count) key) id
  generalize heap.modifyStorage id (·.resize count) = after at changes resized lookedUp ⊢
  have newLength : after.arrayLength id = count := by
    unfold arrayLength
    rw [resized, Storage.length_resize]
  have element : ∀ place, (after.elements id)[place]? =
      if count ≤ place then none
      else if place < heap.arrayLength id then (heap.elements id)[place]?
      else some .undefined := by
    intro place
    unfold elements arrayLength
    rw [resized, Storage.getElem?_resize]
  refine ⟨?_, ?_, ?_, fun name notLength notIndex =>
      read?_congr_of_name (fun _ => ⟨notLength, notIndex⟩) (lookedUp name),
    fun other apart otherKind name => changes.read?_of_apart apart otherKind name⟩
  · rw [read?_length, newLength]
  · intro name index isIndex below
    refine read?_congr_of_index isIndex ?_ (lookedUp name)
    rw [element, if_neg (by omega), if_pos (by omega)]
  · intro name index isIndex notBelow below
    rw [read?_index isIndex, element, if_neg (by omega), if_neg (by omega)]
    rfl

end Heap

namespace Number

/-- A number is a length of an array: it is equal to a natural number that is small enough. -/
def IsLength (number : Float) (count : Nat) : Prop :=
  count < Storage.maxLength ∧ (number == ofNat count) = true

end Number

namespace Run

/-! ## Writing -/

theorem setLength_of_isLength
    {count : Nat}
    (isLength : Number.IsLength number count)
    (id : Nat)
    (machine : Machine) :
    setLength id number machine =
      .ok () { machine with heap := machine.heap.modifyStorage id (·.resize count) } := by
  obtain ⟨small, equal⟩ := isLength
  have fits : count < 2 ^ 53 := Nat.lt_trans small (by decide)
  obtain ⟨isWhole, isCut⟩ := (Number.beq_ofNat_iff fits).mp equal
  have passes : ((count : Int) < 0 || number != Number.truncate number) = false := by
    simp [isCut, bne]
  unfold setLength
  rw [isWhole]
  dsimp only
  rw [if_neg (by simp [passes]), Int.toNat_natCast, if_neg (Nat.not_le.mpr small)]
  rfl

theorem setLength_of_not_isLength
    (notLength : ∀ count, ¬Number.IsLength number count) (id : Nat)
    (machine : Machine) :
    setLength id number machine = .error (.raised ⟨.range .arrayLength, none⟩) machine := by
  unfold setLength
  cases isWhole : Number.toInteger? number with
  | none => rfl
  | some whole =>
      dsimp only
      by_cases refused : whole < 0 || number != Number.truncate number
      · rw [if_pos refused]
        rfl
      · by_cases large : Storage.maxLength ≤ whole.toNat
        · rw [if_neg refused, if_pos large]
          rfl
        · -- A number that passes both tests is a length.
          refine absurd ?_ (notLength whole.toNat)
          obtain ⟨notNegative, isCut⟩ : ¬whole < 0 ∧ (number == Number.truncate number) = true := by
            simpa [bne] using refused
          have small : whole.toNat < Storage.maxLength := Nat.lt_of_not_le large
          have fits : whole.toNat < 2 ^ 53 := Nat.lt_trans small (by decide)
          refine ⟨small, (Number.beq_ofNat_iff fits).mpr ⟨?_, isCut⟩⟩
          rw [isWhole, Int.toNat_of_nonneg (Int.not_lt.mp notNegative)]

theorem write_named
    (call : Caller)
    (named : kind = .array → name ≠ "length" ∧ arrayIndex? name = none) (id : Nat) (value : Value)
    (machine : Machine) :
    write call (.object kind id) name value machine =
      .ok () { machine with heap := machine.heap.setOwn id name value } := by
  cases kind with
  | array =>
      obtain ⟨notLength, notIndex⟩ := named rfl
      simp only [write, if_neg notLength, notIndex]
      rfl
  | plain => rfl
  | closure => rfl
  | builtin => rfl
  | pattern => rfl

theorem write_index
    (call : Caller) (isIndex : arrayIndex? name = some index)
    (id : Nat) (value : Value) (machine : Machine) :
    write call (.object .array id) name value machine =
      if Storage.maxLength ≤ index then .error (.raised ⟨.range .arrayLength, none⟩) machine
      else .ok () { machine with heap := machine.heap.modifyStorage id (·.put index value) } := by
  have notLength : name ≠ "length" := by
    rintro rfl
    cases isIndex
  simp only [write, if_neg notLength, isIndex]
  split
  · rfl
  · rfl

theorem write_length (call : Caller) (id : Nat) (value : Value) :
    write call (.object .array id) "length" value =
      (toNumber call value >>= setLength id) :=
  rfl

/-- A key of an object is a name, an index or the length of an array. -/
theorem key_cases (kind : ObjectKind) (name : String) :
    (kind = .array → name ≠ "length" ∧ arrayIndex? name = none) ∨
      kind = .array ∧ ((∃ index, arrayIndex? name = some index) ∨ name = "length") := by
  by_cases isArray : kind = .array
  · by_cases isLength : name = "length"
    · exact .inr ⟨isArray, .inr isLength⟩
    · cases isIndex : arrayIndex? name with
      | none => exact .inl fun _ => ⟨isLength, rfl⟩
      | some index => exact .inr ⟨isArray, .inl ⟨index, rfl⟩⟩
  · exact .inl fun isArray' => absurd isArray' isArray

/-- A write to an object that succeeds, of anything but the length of an array. -/
theorem stores_of_write
    {after : Machine}
    (notLength : ¬(kind = .array ∧ name = "length"))
    (holds : machine.heap.Holds (.object kind id))
    (wrote : write call (.object kind id) name value machine = .ok () after) :
    Heap.Stores machine.heap after.heap kind id name value := by
  rcases key_cases kind name with named | ⟨rfl, ⟨index, isIndex⟩ | isLength⟩
  · rw [write_named call named] at wrote
    cases wrote
    exact Heap.stores_setOwn (Heap.lt_size_of_holds holds) named value
  · obtain ⟨storage, isArray⟩ := holds
    rw [write_index call isIndex] at wrote
    split at wrote
    · cases wrote
    · cases wrote
      exact Heap.stores_put isArray isIndex value
  · exact absurd ⟨rfl, isLength⟩ notLength

/-- Writing the length of an array. -/
theorem resizes_of_write
    {count : Nat}
    {middle : Machine}
    (converted : toNumber call value machine = .ok number middle)
    (isLength : Number.IsLength number count)
    (holds : middle.heap.Holds (.object .array id)) :
    ∃ after, write call (.object .array id) "length" value machine = .ok () after ∧
      Heap.Resizes middle.heap after.heap id count := by
  obtain ⟨storage, isArray⟩ := holds
  refine ⟨{ middle with heap := middle.heap.modifyStorage id (·.resize count) }, ?_,
    Heap.resizes_resize isArray count⟩
  rw [write_length, bind_of_ok converted, setLength_of_isLength isLength]

/-- A write that fails leaves the machine as it was, or as converting a length left it. -/
theorem write_error
    {target : Value}
    {after : Machine}
    {abort : Abort}
    (failed : write call target name value machine = .error abort after) :
    after = machine ∨
      target.isArray = true ∧ name = "length" ∧
        after = Run.after (toNumber call value machine) := by
  cases target with
  | undefined =>
      cases failed
      exact .inl rfl
  | number value => cases failed
  | string text => cases failed
  | boolean value => cases failed
  | object kind id =>
      rcases key_cases kind name with named | ⟨rfl, ⟨index, isIndex⟩ | rfl⟩
      · rw [write_named call named] at failed
        cases failed
      · rw [write_index call isIndex] at failed
        split at failed
        · cases failed
          exact .inl rfl
        · cases failed
      · refine .inr ⟨rfl, rfl, ?_⟩
        rw [write_length] at failed
        cases converted : toNumber call value machine with
        | error conversionAbort middle =>
            rw [bind_of_error converted] at failed
            cases failed
            rfl
        | ok number middle =>
            rw [bind_of_ok converted] at failed
            by_cases isLength : ∃ count, Number.IsLength number count
            · obtain ⟨count, isLength⟩ := isLength
              rw [setLength_of_isLength isLength] at failed
              cases failed
            · rw [setLength_of_not_isLength (not_exists.mp isLength)] at failed
              cases failed
              rfl

/--
The law of writing properties.  A write to an object that succeeds, of anything
but the length of an array, stores the value and leaves all else as it was.  A
number that is a length becomes the length of an array.  A primitive value but
undefined ignores the write.  And a write that fails changes nothing, but for what
converting a length did.
-/
theorem write_obeys_store_law
    (call : Caller)
    (target value : Value)
    (name : String)
    (machine : Machine) :
    (∀ kind id after, target = .object kind id → ¬(kind = .array ∧ name = "length") →
      machine.heap.Holds target →
      write call target name value machine = .ok () after →
        Heap.Stores machine.heap after.heap kind id name value) ∧
    (∀ id number middle count, target = .object .array id → name = "length" →
      toNumber call value machine = .ok number middle →
      Number.IsLength number count →
      middle.heap.Holds target →
        ∃ after, write call target name value machine = .ok () after ∧
          Heap.Resizes middle.heap after.heap id count) ∧
    (target.isPrimitive = true → target.isUndefined = false →
      write call target name value machine = .ok () machine) ∧
    (∀ abort after, write call target name value machine = .error abort after →
      after = machine ∨
        target.isArray = true ∧ name = "length" ∧
          after = Run.after (toNumber call value machine)) := by
  refine ⟨?_, ?_, ?_, fun abort after failed => write_error failed⟩
  · rintro kind id after rfl notLength holds wrote
    exact stores_of_write notLength holds wrote
  · rintro id number middle count rfl rfl converted isLength holds
    exact resizes_of_write converted isLength holds
  · intro isPrimitive defined
    cases target with
    | undefined => cases defined
    | number value => rfl
    | string text => rfl
    | boolean value => rfl
    | object kind id => cases isPrimitive

/-- An array of one element, beside an object: writing its fourth element, and then its length. -/
theorem write_past_end_of_one :
    let other : HeapObject := ⟨none, [⟨"a", .boolean false, false⟩], .plain⟩
    let before : Machine :=
      ⟨#[⟨none, [], .array (.exact #[.boolean true])⟩, other], #[], 0, "", 0, 0, 0⟩
    let array := Value.object .array 0
    let call : Caller := fun _ _ _ => pure .undefined
    ∃ grown cut,
      before.heap.Holds array ∧
      write call array "3" (.boolean false) before = .ok () grown ∧
      Heap.Stores before.heap grown.heap .array 0 "3" (.boolean false) ∧
      grown.heap.read? array "length" = some (.ofNat 4) ∧
      grown.heap.read? array "0" = some (.boolean true) ∧
      grown.heap.read? array "2" = some .undefined ∧
      grown.heap.Holds array ∧
      Number.IsLength (Number.ofNat 2) 2 ∧
      write call array "length" (.ofNat 2) grown = .ok () cut ∧
      Heap.Resizes grown.heap cut.heap 0 2 ∧
      cut.heap.read? array "0" = some (.boolean true) := by
  intro other before array call
  have holds : before.heap.Holds array := ⟨_, rfl⟩
  have isLength : Number.IsLength (Number.ofNat 2) 2 := ⟨by decide, rfl⟩
  let grown : Machine :=
    { before with heap := before.heap.modifyStorage 0 (·.put 3 (.boolean false)) }
  have wroteElement : write call array "3" (.boolean false) before = .ok () grown := rfl
  have stored := (write_obeys_store_law call array (.boolean false) "3" before).1
    .array 0 grown rfl (by simp) holds wroteElement
  have stillHolds : grown.heap.Holds array := ⟨_, rfl⟩
  obtain ⟨cut, wroteLength, resized⟩ :=
    (write_obeys_store_law call array (.ofNat 2) "length" grown).2.1
      0 (Number.ofNat 2) grown 2 rfl rfl rfl isLength stillHolds
  exact ⟨grown, cut, holds, wroteElement, stored, rfl, rfl, rfl, stillHolds, isLength, wroteLength,
    resized, resized.kept "0" 0 rfl (by decide)⟩

end Run

end ScriptEngine
