import Mathlib.Data.List.Permutation
import Mathlib.Data.String.Basic
import ScriptEngine.Proofs.Machine.PropertyStore
import ScriptEngine.Proofs.Number.RoundTrip

namespace ScriptEngine

/-!
# Enumeration and ownership

A loop over the keys of a value, the list of its keys and the question whether it owns
a name are answered apart from each other, each from the elements of the value and from
its properties.  They agree.  The properties of an object may have any history of
writing, hiding and removing; such a history never leaves two properties of one name.

An element beyond the last index has a key that is no index.  The agreement therefore
is about values whose elements all have an index, which are the values of less than
2^32 elements, and for the others it is told which keys are listed without being owned.
-/

variable {count id index : Nat} {kind : ObjectKind} {name : String} {heap : Heap}
  {properties : Properties} {value : Value}

/-! ## The keys of elements -/

theorem toList_indexKey (index : Nat) : (indexKey index).toList = Number.digitsText index := by
  unfold indexKey Number.digitsText
  rw [Nat.toString_eq_ofList_toDigits, String.toList_ofList]

theorem indexKey_injective {left right : Nat} (same : indexKey left = indexKey right) :
    left = right := by
  have sameDigits := congrArg String.toList same
  rw [toList_indexKey, toList_indexKey] at sameDigits
  rw [← Number.digitsValue_digitsText left, sameDigits, Number.digitsValue_digitsText]

/-- The key of an index has the form of one, unless the index has too many digits. -/
theorem isIndexForm_indexKey (short : (indexKey index).toList.length ≤ 10) :
    IsIndexForm (indexKey index) := by
  refine ⟨?_, short, ?_, ?_⟩ <;> rw [toList_indexKey]
  · exact Nat.toDigits_ne_nil
  · exact fun _ member => Number.isDigit_digitsText member
  · rintro ⟨leading, long⟩
    by_cases isZero : index = 0
    · rw [isZero] at long
      exact absurd long (by decide)
    · exact Number.head_digitsText (Nat.pos_of_ne_zero isZero) leading

/-- The key of an index names this index. -/
theorem arrayIndex?_indexKey (small : index ≤ 4294967294) :
    arrayIndex? (indexKey index) = some index := by
  refine arrayIndex?_eq_some_iff.mpr ⟨isIndexForm_indexKey ?_, small, ?_⟩ <;> rw [toList_indexKey]
  · exact (Nat.length_toDigits_le_iff (by decide) (by decide)).mpr (by omega)
  · exact Number.digitsValue_digitsText index

/-- What is wrong with a key that is not the decimal form of an index. -/
inductive IsNoIndex (key : String) : Prop where
  | empty : key = "" → IsNoIndex key
  | other {char : Char} : char ∈ key.toList → char.isDigit = false → IsNoIndex key
  | padded : key.toList.head? = some '0' → 1 < key.toList.length → IsNoIndex key
  | long : 10 < key.toList.length → IsNoIndex key
  | large {index : Nat} : 4294967295 ≤ index → key = indexKey index → IsNoIndex key

/-- A key with nothing wrong in it has the form of an index. -/
theorem isIndexForm_of_not_isNoIndex {key : String} (proper : ¬IsNoIndex key) :
    IsIndexForm key where
  nonEmpty isEmpty := proper (.empty (String.toList_eq_nil_iff.mp isEmpty))
  short := Nat.le_of_not_lt fun isLong => proper (.long isLong)
  areDigits _ member := Bool.of_not_eq_false fun isOther => proper (.other member isOther)
  notPadded isPadded := proper (.padded isPadded.1 isPadded.2)

/-- A key that names an index has nothing wrong in it. -/
theorem not_isNoIndex_of_arrayIndex?
    {key : String}
    (isIndex : arrayIndex? key = some index) :
    ¬IsNoIndex key := by
  obtain ⟨isForm, small, -⟩ := arrayIndex?_eq_some_iff.mp isIndex
  intro isNoIndex
  cases isNoIndex with
  | empty isEmpty => exact isForm.nonEmpty (String.toList_eq_nil_iff.mpr isEmpty)
  | other member isOther => exact absurd (isForm.areDigits _ member) (by simp [isOther])
  | padded leading isLonger => exact isForm.notPadded ⟨leading, isLonger⟩
  | long isLong => exact absurd isForm.short (by omega)
  | large isLarge isKey =>
      have same := indexKey_injective (isKey.symm.trans (eq_indexKey_of_arrayIndex? isIndex))
      omega

/--
A key names an index exactly when it is the decimal form of a number below 2^32 - 1.  It
names none exactly when it is empty, has another character than an ASCII digit, has a
leading zero before other digits, has too many digits or is the form of a larger number.
-/
theorem arrayIndex?_canonical (key : String) :
    (∀ index, arrayIndex? key = some index ↔ index ≤ 4294967294 ∧ key = indexKey index) ∧
      (arrayIndex? key = none ↔ IsNoIndex key) := by
  refine ⟨fun index => ⟨fun isIndex => ?_, ?_⟩, fun isNone => ?_, fun isNoIndex => ?_⟩
  · obtain ⟨-, small, -⟩ := arrayIndex?_eq_some_iff.mp isIndex
    exact ⟨small, eq_indexKey_of_arrayIndex? isIndex⟩
  · rintro ⟨small, rfl⟩
    exact arrayIndex?_indexKey small
  · by_contra proper
    have isForm := isIndexForm_of_not_isNoIndex proper
    -- The number that the digits stand for is no larger than an index.
    have small := Nat.le_of_not_lt fun isLarge => proper (.large isLarge isForm.eq_indexKey)
    cases isNone.symm.trans (arrayIndex?_eq_some_iff.mpr ⟨isForm, by omega, rfl⟩)
  · exact Option.eq_none_iff_forall_ne_some.mpr fun index isIndex =>
      not_isNoIndex_of_arrayIndex? isIndex isNoIndex

/-- The keys of the elements of a value with a number of elements. -/
theorem mem_indexKeys_iff :
    name ∈ (List.range count).map indexKey ↔ ∃ index < count, indexKey index = name := by
  simp only [List.mem_map, List.mem_range]

theorem nodup_indexKeys (count : Nat) : ((List.range count).map indexKey).Nodup :=
  List.nodup_range.map fun _ _ => indexKey_injective

/-- A key of an element is an index below their number, as long as there are enough indices. -/
theorem isIndexBelow_iff_mem_indexKeys
    (numbered : count ≤ 4294967295)
    (name : String) :
    isIndexBelow name count = true ↔ name ∈ (List.range count).map indexKey := by
  rw [Heap.isIndexBelow_iff, mem_indexKeys_iff]
  constructor
  · rintro ⟨index, isIndex, below⟩
    exact ⟨index, below, (eq_indexKey_of_arrayIndex? isIndex).symm⟩
  · rintro ⟨index, below, rfl⟩
    exact ⟨index, arrayIndex?_indexKey (by omega), below⟩

/-- A key of an element that is no index is that of an element beyond all indices. -/
theorem beyond_of_not_isIndexBelow
    (member : name ∈ (List.range count).map indexKey)
    (notIndex : ¬isIndexBelow name count = true) :
    ∃ index < count, 4294967295 ≤ index ∧ name = indexKey index := by
  obtain ⟨index, below, rfl⟩ := mem_indexKeys_iff.mp member
  refine ⟨index, below, ?_, rfl⟩
  by_cases small : index ≤ 4294967294
  · exact absurd (Heap.isIndexBelow_iff.mpr ⟨index, arrayIndex?_indexKey small, below⟩) notIndex
  · omega

theorem ne_length_of_isIndexBelow (isIndex : isIndexBelow name count = true) :
    name ≠ "length" := by
  rintro rfl
  cases isIndex

/-! ## Sorting -/

namespace Text

theorem sorted_perm (names : List String) : (sorted names).Perm names :=
  List.mergeSort_perm ..

/-- Names that are all different are in ascending order after sorting. -/
theorem sorted_ascending {names : List String} (distinct : names.Nodup) :
    (sorted names).Pairwise (· < ·) := by
  have ordered : (sorted names).Pairwise fun left right => !before right left := by
    apply List.pairwise_mergeSort
    · intro first second third
      simp only [before, Bool.not_eq_true', decide_eq_false_iff_not, not_lt]
      exact le_trans
    · intro left right
      simp only [before, Bool.or_eq_true, Bool.not_eq_true', decide_eq_false_iff_not, not_lt]
      exact le_total left right
  have different : (sorted names).Pairwise (· ≠ ·) := (sorted_perm names).nodup_iff.mpr distinct
  refine (ordered.and different).imp fun {left right} ⟨inOrder, notSame⟩ => ?_
  simp only [before, Bool.not_eq_true', decide_eq_false_iff_not, not_lt] at inOrder
  exact lt_of_le_of_ne inOrder notSame

end Text

/-! ## Histories of properties -/

namespace Properties

/-- Properties as any writing, hiding and removing leaves them. -/
inductive Written : Properties → Prop where
  | nil : Written []
  | set {properties : Properties} (name : String) (value : Value) :
      Written properties →
      Written (properties.set name value)
  | setHidden {properties : Properties} (name : String) (value : Value) :
      Written properties →
      Written (properties.setHidden name value)
  | erase {properties : Properties} (name : String) :
      Written properties →
      Written (properties.erase name)

/-- All names, those of hidden properties included. -/
def allNames (properties : Properties) : List String := properties.map PropertySlot.name

theorem allNames_set (properties : Properties) (name : String) (value : Value) :
    (properties.set name value).allNames =
      if name ∈ properties.allNames then properties.allNames
      else properties.allNames ++ [name] := by
  induction properties with
  | nil => rfl
  | cons slot rest inductionHypothesis =>
      unfold allNames at inductionHypothesis ⊢
      by_cases same : slot.name = name
      · simp [set, same]
      · rw [set, if_neg same, List.map_cons, inductionHypothesis, List.map_cons]
        simp only [List.mem_cons, Ne.symm same, false_or]
        split <;> rfl

theorem allNames_setHidden (properties : Properties) (name : String) (value : Value) :
    (properties.setHidden name value).allNames = (properties.set name value).allNames := by
  induction properties with
  | nil => rfl
  | cons slot rest inductionHypothesis =>
      unfold allNames at inductionHypothesis ⊢
      by_cases same : slot.name = name
      · simp [set, setHidden, same]
      · simp [set, setHidden, same, inductionHypothesis]

theorem allNames_erase (properties : Properties) (name : String) :
    (properties.erase name).allNames = properties.allNames.erase name := by
  induction properties with
  | nil => rfl
  | cons slot rest inductionHypothesis =>
      unfold allNames at inductionHypothesis ⊢
      by_cases same : slot.name = name
      · simp [erase, same]
      · simp [erase, same, inductionHypothesis]

theorem nodup_allNames_set (distinct : properties.allNames.Nodup) (name : String) (value : Value) :
    (properties.set name value).allNames.Nodup := by
  rw [allNames_set]
  split
  · exact distinct
  · rename_i new
    rw [← List.concat_eq_append]
    exact distinct.concat new

/-- No history of properties leaves two of one name. -/
theorem Written.distinct (written : properties.Written) : properties.allNames.Nodup := by
  induction written with
  | nil => exact List.nodup_nil
  | set name value _ inductionHypothesis => exact nodup_allNames_set inductionHypothesis name value
  | setHidden name value _ inductionHypothesis =>
      rw [allNames_setHidden]
      exact nodup_allNames_set inductionHypothesis name value
  | erase name _ inductionHypothesis =>
      rw [allNames_erase]
      exact inductionHypothesis.erase name

theorem names_sublist (properties : Properties) : properties.names.Sublist properties.allNames :=
  List.filter_sublist.map PropertySlot.name

theorem nodup_names (distinct : properties.allNames.Nodup) : properties.names.Nodup :=
  distinct.sublist properties.names_sublist

theorem has_iff_mem_allNames : properties.has name = true ↔ name ∈ properties.allNames := by
  induction properties with
  | nil => simp [has, find?, allNames]
  | cons slot rest inductionHypothesis =>
      by_cases same : slot.name = name
      · simp [has, find?, allNames, same]
      · simpa [has, find?, allNames, same, Ne.symm same] using inductionHypothesis

/-- The names that are listed are those of properties that are there and not hidden. -/
theorem mem_names_iff (distinct : properties.allNames.Nodup) (name : String) :
    name ∈ properties.names ↔
      properties.has name = true ∧
        ¬∃ slot, properties.find? name = some slot ∧ slot.hidden = true := by
  induction properties with
  | nil => simp [names, has, find?]
  | cons slot rest inductionHypothesis =>
      obtain ⟨new, restDistinct⟩ := List.nodup_cons.mp distinct
      have restListed := inductionHypothesis restDistinct
      have restKept : ¬slot.name ∈ names rest := fun member => new ((names_sublist rest).mem member)
      have split : names (slot :: rest) =
          (if slot.hidden then [] else [slot.name]) ++ names rest := by
        cases isHidden : slot.hidden <;> simp [names, isHidden]
      rw [split, List.mem_append]
      by_cases same : slot.name = name
      · subst same
        cases isHidden : slot.hidden <;> simp [has, find?, isHidden, restKept]
      · have notHead : ¬name ∈ (if slot.hidden then [] else [slot.name]) := by
          cases slot.hidden <;> simp [Ne.symm same]
        simpa [has, find?, same, notHead] using restListed

end Properties

/-! ## Heaps -/

namespace Heap

/-- Every object has a history of its properties. -/
def Recorded (heap : Heap) : Prop := ∀ id, (heap.properties id).Written

/-- Changing the properties of an object by a step of a history keeps the histories. -/
theorem Recorded.modify
    (recorded : heap.Recorded)
    (id : Nat)
    {change : HeapObject → HeapObject}
    (keeps : ∀ object, object.properties.Written → (change object).properties.Written) :
    Heap.Recorded (heap.modify id change) := by
  intro other
  have old := recorded other
  unfold properties at old ⊢
  rw [Array.getElem?_modify]
  by_cases isChanged : id = other
  · rw [if_pos isChanged]
    cases isObject : heap[other]? with
    | none => exact .nil
    | some object =>
        rw [isObject] at old
        exact keeps object old
  · rw [if_neg isChanged]
    exact old

theorem Recorded.setOwn
    (recorded : heap.Recorded)
    (id : Nat)
    (name : String)
    (value : Value) :
    (heap.setOwn id name value).Recorded :=
  recorded.modify id fun _ written => written.set name value

theorem Recorded.setHidden
    (recorded : heap.Recorded)
    (id : Nat)
    (name : String)
    (value : Value) :
    (heap.setHidden id name value).Recorded :=
  recorded.modify id fun _ written => written.setHidden name value

theorem Recorded.eraseOwn (recorded : heap.Recorded) (id : Nat) (name : String) :
    (heap.eraseOwn id name).Recorded :=
  recorded.modify id fun _ written => written.erase name

/-- No array has a property under the name of its length or under an index. -/
def ArraysNamed (heap : Heap) : Prop :=
  ∀ id storage, heap.body id = .array storage →
    ∀ name, (heap.properties id).has name = true → name ≠ "length" ∧ arrayIndex? name = none

/-- The number of elements of a value: characters of a text or elements of an array. -/
def elementCount (heap : Heap) : Value → Nat
  | .string text => text.length
  | .object .array id => heap.arrayLength id
  | _ => 0

/-- Whether every element of a value has an index. -/
def Numbered (heap : Heap) (value : Value) : Prop := heap.elementCount value ≤ 4294967295

/-- Whether an object has a hidden property of a name. -/
def Hides (heap : Heap) : Value → String → Prop
  | .object _ id, name => ∃ slot, (heap.properties id).find? name = some slot ∧ slot.hidden = true
  | _, _ => False

/-- Whether a name is the length of a text or of an array. -/
def IsLengthOf : Value → String → Prop
  | .string _, name | .object .array _, name => name = "length"
  | _, _ => False

/-- Whether a value owns a name, not as a hidden property and not as its length. -/
def OwnsOpenly (heap : Heap) (value : Value) (name : String) : Prop :=
  heap.owns value name = true ∧ ¬heap.Hides value name ∧ ¬IsLengthOf value name

theorem not_hides_of_not_has
    (notThere : ¬(heap.properties id).has name = true) :
    ¬heap.Hides (.object kind id) name := by
  rintro ⟨slot, found, -⟩
  exact notThere (by rw [Properties.has, found]; rfl)

/-- What an array owns openly: indices, and properties that are not hidden. -/
theorem ownsOpenly_array_iff
    {storage : Storage}
    (recorded : heap.Recorded)
    (arraysNamed : heap.ArraysNamed)
    (isArray : heap.body id = .array storage)
    (name : String) :
    heap.OwnsOpenly (.object .array id) name ↔
      isIndexBelow name (heap.arrayLength id) = true ∨ name ∈ (heap.properties id).names := by
  have named := arraysNamed id storage isArray name
  rw [Properties.mem_names_iff (recorded id).distinct]
  unfold OwnsOpenly owns
  simp only [Bool.or_eq_true, beq_iff_eq]
  constructor
  · rintro ⟨(isLength | isIndex) | there, notHidden, notLength⟩
    · exact absurd isLength notLength
    · exact .inl isIndex
    · exact .inr ⟨there, notHidden⟩
  · rintro (isIndex | ⟨there, notHidden⟩)
    · -- No property of an array has an index for its name, so none hides it.
      refine ⟨.inl (.inr isIndex), not_hides_of_not_has fun there => ?_,
        ne_length_of_isIndexBelow isIndex⟩
      obtain ⟨index, isIndex, -⟩ := isIndexBelow_iff.mp isIndex
      rw [(named there).2] at isIndex
      cases isIndex
    · exact ⟨.inr there, notHidden, (named there).1⟩

/-- What a text owns openly are its indices. -/
theorem ownsOpenly_string_iff (heap : Heap) (text name : String) :
    heap.OwnsOpenly (.string text) name ↔ isIndexBelow name text.length = true := by
  unfold OwnsOpenly owns
  simp only [Bool.or_eq_true, beq_iff_eq]
  constructor
  · rintro ⟨isLength | isIndex, -, notLength⟩
    · exact absurd isLength notLength
    · exact isIndex
  · intro isIndex
    exact ⟨.inr isIndex, id, ne_length_of_isIndexBelow isIndex⟩

/-- What an object without elements owns openly are its properties that are not hidden. -/
theorem ownsOpenly_object_iff
    (recorded : heap.Recorded)
    (notArray : kind ≠ .array)
    (name : String) :
    heap.OwnsOpenly (.object kind id) name ↔ name ∈ (heap.properties id).names := by
  rw [Properties.mem_names_iff (recorded id).distinct]
  cases kind with
  | array => exact absurd rfl notArray
  | plain | closure | builtin | pattern => simp [OwnsOpenly, owns, Hides, IsLengthOf]

theorem keys_object (notArray : kind ≠ .array) (heap : Heap) (id : Nat) :
    heap.keys (.object kind id) = Text.sorted (heap.properties id).names := by
  cases kind with
  | array => exact absurd rfl notArray
  | plain | closure | builtin | pattern => rfl

theorem keys_array (heap : Heap) (id : Nat) :
    heap.keys (.object .array id) =
      (List.range (heap.arrayLength id)).map indexKey ++
        Text.sorted (heap.properties id).names :=
  rfl

theorem mem_keys_array_iff :
    name ∈ heap.keys (.object .array id) ↔
      name ∈ (List.range (heap.arrayLength id)).map indexKey ∨
        name ∈ (heap.properties id).names := by
  rw [keys_array, List.mem_append, (Text.sorted_perm _).mem_iff]

/-- A loop visits the keys that are listed. -/
theorem keys_perm_ownKeys (heap : Heap) (value : Value) :
    (heap.keys value).Perm (heap.ownKeys value) := by
  cases value with
  | undefined | number _ | boolean _ | string _ => exact .rfl
  | object kind id =>
      cases kind with
      | array => exact (Text.sorted_perm _).append_left _
      | plain | closure | builtin | pattern => exact Text.sorted_perm _

section

variable (recorded : heap.Recorded) (arraysNamed : heap.ArraysNamed) (holds : heap.Holds value)

include recorded arraysNamed holds

/-- The keys of a value whose elements have indices are what it owns openly. -/
theorem mem_keys_iff_ownsOpenly
    (numbered : heap.Numbered value)
    (name : String) :
    name ∈ heap.keys value ↔ heap.OwnsOpenly value name := by
  cases value with
  | undefined | number _ | boolean _ => simp [keys, OwnsOpenly, owns]
  | string text =>
      have fits : text.length ≤ 4294967295 := numbered
      rw [ownsOpenly_string_iff, isIndexBelow_iff_mem_indexKeys fits]
      rfl
  | object kind id =>
      by_cases isArray : kind = .array
      · subst isArray
        obtain ⟨storage, isArray⟩ := holds
        have fits : heap.arrayLength id ≤ 4294967295 := numbered
        rw [ownsOpenly_array_iff recorded arraysNamed isArray, mem_keys_array_iff,
          isIndexBelow_iff_mem_indexKeys fits]
      · rw [ownsOpenly_object_iff recorded isArray, keys_object isArray, (Text.sorted_perm _).mem_iff]

/-- A key that a value does not own openly is that of an element beyond all indices. -/
theorem beyond_of_not_ownsOpenly
    (member : name ∈ heap.keys value)
    (notOpen : ¬heap.OwnsOpenly value name) :
    ∃ index < heap.elementCount value, 4294967295 ≤ index ∧ name = indexKey index := by
  cases value with
  | undefined | number _ | boolean _ => cases member
  | string text =>
      rw [ownsOpenly_string_iff] at notOpen
      exact beyond_of_not_isIndexBelow member notOpen
  | object kind id =>
      by_cases isArray : kind = .array
      · subst isArray
        obtain ⟨storage, isArray⟩ := holds
        rw [ownsOpenly_array_iff recorded arraysNamed isArray, not_or] at notOpen
        obtain ⟨notIndex, notNamed⟩ := notOpen
        exact beyond_of_not_isIndexBelow
          ((mem_keys_array_iff.mp member).resolve_right notNamed) notIndex
      · rw [keys_object isArray, (Text.sorted_perm _).mem_iff] at member
        exact absurd ((ownsOpenly_object_iff recorded isArray name).mpr member) notOpen

/-- No key is visited twice. -/
theorem nodup_keys (numbered : value.isArray = true → heap.Numbered value) :
    (heap.keys value).Nodup := by
  have namesDistinct : ∀ id, (Text.sorted (heap.properties id).names).Nodup := fun id =>
    (Text.sorted_perm _).nodup_iff.mpr (Properties.nodup_names (recorded id).distinct)
  cases value with
  | undefined | number _ | boolean _ => exact List.nodup_nil
  | string text => exact nodup_indexKeys text.length
  | object kind id =>
      by_cases isArray : kind = .array
      · subst isArray
        obtain ⟨storage, isArray⟩ := holds
        have fits : heap.arrayLength id ≤ 4294967295 := numbered rfl
        refine (nodup_indexKeys _).append (namesDistinct id) fun name isKey isName => ?_
        rw [← isIndexBelow_iff_mem_indexKeys fits] at isKey
        rw [(Text.sorted_perm _).mem_iff, Properties.mem_names_iff (recorded id).distinct] at isName
        obtain ⟨index, isIndex, -⟩ := isIndexBelow_iff.mp isKey
        rw [(arraysNamed id storage isArray name isName.1).2] at isIndex
        cases isIndex
      · rw [keys_object isArray]
        exact namesDistinct id

end

/--
The order in which a loop visits the keys of a value: the names of an object ascend;
the indices of an array come first, in their order, and then its names ascend; a text
has its indices; numbers and truth values have none.
-/
inductive Ordered (heap : Heap) : Value → List String → Prop where
  | number (value : Float) : Ordered heap (.number value) []
  | boolean (value : Bool) : Ordered heap (.boolean value) []
  | string (text : String) : Ordered heap (.string text) ((List.range text.length).map indexKey)
  | array {id : Nat} {named : List String} :
      named.Pairwise (· < ·) →
      named.Perm (heap.properties id).names →
      Ordered heap (.object .array id)
        ((List.range (heap.arrayLength id)).map indexKey ++ named)
  | object {kind : ObjectKind} {id : Nat} {named : List String} :
      kind ≠ .array →
      named.Pairwise (· < ·) →
      named.Perm (heap.properties id).names →
      Ordered heap (.object kind id) named

theorem keys_ordered (recorded : heap.Recorded) (defined : value.isUndefined = false) :
    heap.Ordered value (heap.keys value) := by
  have ascending : ∀ id, (Text.sorted (heap.properties id).names).Pairwise (· < ·) := fun id =>
    Text.sorted_ascending (Properties.nodup_names (recorded id).distinct)
  cases value with
  | undefined => cases defined
  | number value => exact .number value
  | boolean value => exact .boolean value
  | string text => exact .string text
  | object kind id =>
      by_cases isArray : kind = .array
      · subst isArray
        exact .array (ascending id) (Text.sorted_perm _)
      · rw [keys_object isArray]
        exact .object isArray (ascending id) (Text.sorted_perm _)

end Heap

/-! ## The functions that scripts call -/

namespace Run

theorem hasOwnProperty_iff
    (call : Caller)
    (value : Value)
    (name : String)
    (machine : Machine) :
    hasOwnProperty call value (.string name) machine = .ok (.boolean true) machine ↔
      machine.heap.owns value name = true := by
  have isOwns : hasOwnProperty call value (.string name) machine =
      .ok (.boolean (machine.heap.owns value name)) machine :=
    rfl
  rw [isOwns]
  simp

/-- The keys of a value are put into a new array. -/
theorem keysOf_eq (defined : value.isUndefined = false) (machine : Machine) :
    ∃ id after, keysOf value machine = .ok (.object .array id) after ∧
      (after.heap.elements id).toList = (machine.heap.ownKeys value).map Value.string := by
  let storage := Storage.collected ((machine.heap.ownKeys value).map Value.string).toArray
  let array : HeapObject := ⟨some Heap.arrayPrototype, [], .array storage⟩
  let after : Machine := { machine with heap := machine.heap.push array }
  refine ⟨machine.heap.size, after, ?_, ?_⟩
  · unfold keysOf
    rw [defined]
    rfl
  · have isNew : after.heap[machine.heap.size]? = some array :=
      Array.getElem?_push_size
    unfold Heap.elements Heap.storage Heap.body
    rw [isNew]
    rfl

/--
The enumerations of a value agree.  A loop visits no key twice; it visits the keys that
are listed, in an order of its own; and it visits the names that the value is said to
own, but for hidden properties and the length of an array or a text.  Where a value has
more elements than there are indices, it lists the keys of the elements beyond them too.
-/
structure Enumerates (call : Caller) (machine : Machine) (value : Value) : Prop where
  distinct : (value.isArray = true → machine.heap.Numbered value) →
    (machine.heap.keys value).Nodup
  listed : ∃ id after names, keysOf value machine = .ok (.object .array id) after ∧
    (after.heap.elements id).toList = names.map Value.string ∧
    (machine.heap.keys value).Perm names
  owned : machine.heap.Numbered value → ∀ name,
    name ∈ machine.heap.keys value ↔
      hasOwnProperty call value (.string name) machine = .ok (.boolean true) machine ∧
        ¬machine.heap.Hides value name ∧ ¬Heap.IsLengthOf value name
  beyond : ∀ name, name ∈ machine.heap.keys value → ¬machine.heap.OwnsOpenly value name →
    ∃ index < machine.heap.elementCount value, 4294967295 ≤ index ∧ name = indexKey index
  ordered : machine.heap.Ordered value (machine.heap.keys value)

/--
Enumeration agrees with ownership, for every value but undefined and every history of
the properties on the heap, as long as no array has a property named like its length or
like an index.
-/
theorem enumeration_agrees_with_ownership
    (call : Caller)
    {machine : Machine}
    {value : Value}
    (recorded : machine.heap.Recorded)
    (arraysNamed : machine.heap.ArraysNamed)
    (holds : machine.heap.Holds value)
    (defined : value.isUndefined = false) :
    Enumerates call machine value where
  distinct := Heap.nodup_keys recorded arraysNamed holds
  listed := by
    obtain ⟨id, after, ran, elements⟩ := keysOf_eq defined machine
    exact ⟨id, after, machine.heap.ownKeys value, ran, elements,
      Heap.keys_perm_ownKeys machine.heap value⟩
  owned := by
    intro numbered name
    rw [hasOwnProperty_iff]
    exact Heap.mem_keys_iff_ownsOpenly recorded arraysNamed holds numbered name
  beyond _ := Heap.beyond_of_not_ownsOpenly recorded arraysNamed holds
  ordered := Heap.keys_ordered recorded defined

/-- An array of two elements before its properties are written. -/
def bareArray : Heap := #[⟨none, [], .array (.exact #[.undefined, .boolean true])⟩]

/-- The array once properties were written, hidden, removed and written again. -/
def rewrittenArray : Heap :=
  ((((bareArray.setOwn 0 "b" .undefined).setHidden 0 "secret" .undefined).setOwn 0 "a"
    .undefined).eraseOwn 0 "b").setOwn 0 "b" (.boolean false)

theorem recorded_rewrittenArray : rewrittenArray.Recorded := by
  have recorded : bareArray.Recorded := by
    intro id
    match id with
    | 0 => exact .nil
    | id + 1 => exact .nil
  exact ((((recorded.setOwn 0 "b" _).setHidden 0 "secret" _).setOwn 0 "a" _).eraseOwn 0 "b").setOwn
    0 "b" _

theorem arraysNamed_rewrittenArray : rewrittenArray.ArraysNamed := by
  intro id storage isArray name there
  have holds : rewrittenArray.Holds (.object .array id) := ⟨storage, isArray⟩
  have inside : id < 1 := Heap.lt_size_of_holds holds
  obtain rfl : id = 0 := by omega
  have names : (rewrittenArray.properties 0).allNames = ["secret", "a", "b"] := rfl
  have isName := Properties.has_iff_mem_allNames.mp there
  rw [names] at isName
  simp only [List.mem_cons, List.not_mem_nil, or_false] at isName
  rcases isName with rfl | rfl | rfl
  · decide
  · decide
  · decide

theorem enumeration_of_rewritten_array :
    let machine : Machine := ⟨rewrittenArray, #[], 0, "", 0, 0, 0⟩
    let array := Value.object .array 0
    let call : Caller := fun _ _ _ => pure .undefined
    rewrittenArray.Recorded ∧ rewrittenArray.ArraysNamed ∧ rewrittenArray.Holds array ∧
      rewrittenArray.Numbered array ∧
      Enumerates call machine array ∧
      rewrittenArray.keys array = ["0", "1", "a", "b"] ∧
      rewrittenArray.owns array "secret" = true := by
  intro machine array call
  have holds : rewrittenArray.Holds array := ⟨_, rfl⟩
  have count : rewrittenArray.elementCount array = 2 := rfl
  have numbered : rewrittenArray.Numbered array := by
    rw [Heap.Numbered, count]
    decide
  have agrees : Enumerates call machine array :=
    enumeration_agrees_with_ownership call recorded_rewrittenArray arraysNamed_rewrittenArray
      holds rfl
  exact ⟨recorded_rewrittenArray, arraysNamed_rewrittenArray, holds, numbered, agrees, by cbv, rfl⟩

/-- A text with more characters than there are indices lists the first place that has none. -/
theorem mem_keys_of_unnumbered
    (heap : Heap)
    {text : String}
    (unnumbered : 4294967295 < text.length) :
    "4294967295" ∈ heap.keys (.string text) :=
  mem_indexKeys_iff.mpr ⟨4294967295, unnumbered, by decide⟩

/-- A text does not own the first place that has no index, however long the text is. -/
theorem not_owned_beyond_indices
    (call : Caller)
    (text : String)
    (machine : Machine) :
    ¬hasOwnProperty call (.string text) (.string "4294967295") machine =
      .ok (.boolean true) machine := by
  have noIndex : arrayIndex? "4294967295" = none := by decide
  rw [hasOwnProperty_iff]
  simp [Heap.owns, isIndexBelow, noIndex]

/-- The text of one letter, repeated. -/
def lettersOf (count : Nat) : String := String.ofList (List.replicate count 'x')

theorem length_lettersOf (count : Nat) : (lettersOf count).length = count := by
  rw [lettersOf, String.length_ofList, List.length_replicate]

/-- Without a bound on its characters, a text lists a key that it does not own. -/
theorem long_text_lists_what_it_does_not_own :
    let machine : Machine := ⟨rewrittenArray, #[], 0, "", 0, 0, 0⟩
    let text := lettersOf 4294967296
    let call : Caller := fun _ _ _ => pure .undefined
    rewrittenArray.Recorded ∧ rewrittenArray.ArraysNamed ∧
      rewrittenArray.Holds (.string text) ∧
      "4294967295" ∈ rewrittenArray.keys (.string text) ∧
      ¬hasOwnProperty call (.string text) (.string "4294967295") machine =
        .ok (.boolean true) machine := by
  intro machine text call
  -- The letters are counted, never written out.
  have unnumbered : 4294967295 < text.length := by
    rw [length_lettersOf]
    decide
  exact ⟨recorded_rewrittenArray, arraysNamed_rewrittenArray, trivial,
    mem_keys_of_unnumbered rewrittenArray unnumbered, not_owned_beyond_indices call text machine⟩

end Run

end ScriptEngine
