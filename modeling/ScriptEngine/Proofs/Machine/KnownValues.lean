import ScriptEngine.Proofs.Machine.Enumeration

namespace ScriptEngine

/-!
# What values are used as

An object value names an object and says what it is used as.  The two agree, with one
exception: the prototype of an object can be had as a plain object, whatever it is.  So an
array that is the prototype of some object may be written to as if it were no array.  On an
orderly machine this is the only way to give an array a property under an index or under
the name of its length.

Objects keep their prototypes and their kinds, so what is known of a value stays known.  And
an array, a function or a regular expression is made with the prototype of its kind.
-/

variable {value : Value} {object : HeapObject} {newer older : Heap} {id start stop : Nat}
  {values : List Value} {change : HeapObject → HeapObject} {elements : Array Value}

/-- What an object is used as. -/
def ObjectBody.kind : ObjectBody → ObjectKind
  | .plain => .plain
  | .array _ => .array
  | .closure _ _ => .closure
  | .builtin _ => .builtin
  | .pattern _ => .pattern

/-- The prototype of all objects of a kind; plain objects may have any. -/
def ObjectKind.prototype? : ObjectKind → Option Nat
  | .plain => none
  | .array => some Heap.arrayPrototype
  | .closure | .builtin => some Heap.functionPrototype
  | .pattern => some Heap.patternPrototype

/-- An object has the prototype of its kind. -/
def HeapObject.IsNative (object : HeapObject) : Prop :=
  ∀ native ∈ object.body.kind.prototype?, object.prototype = some native

/-- The number of elements of an array; whatever else there is has none. -/
def ObjectBody.length : ObjectBody → Nat
  | .array storage => storage.length
  | _ => 0

namespace Heap

/-- An object of a kind is there. -/
def Has (heap : Heap) (kind : ObjectKind) (id : Nat) : Prop :=
  ∃ object, heap[id]? = some object ∧ object.body.kind = kind

/-- Some object has this one as its prototype. -/
def Inherited (heap : Heap) (id : Nat) : Prop := ∃ other, heap.prototype? other = some id

/-- Objects stay on the heap and keep their prototypes and their kinds. -/
def GrowsInto (older newer : Heap) : Prop :=
  ∀ (id : Nat) (object : HeapObject), older[id]? = some object →
    ∃ later, newer[id]? = some later ∧ later.prototype = object.prototype ∧
      later.body.kind = object.body.kind

/-- No array is longer than the greatest length. -/
def Bounded (heap : Heap) : Prop := ∀ id, heap.arrayLength id ≤ Storage.maxLength

end Heap

/-- A value names an object that is there as what it is, or plainly as a prototype. -/
def Value.KnownTo (heap : Heap) : Value → Prop
  | .object kind id => heap.Has kind id ∨ kind = .plain ∧ heap.Inherited id
  | _ => True

/-- All of some values are known. -/
def Heap.Knows (heap : Heap) (values : List Value) : Prop := ∀ value ∈ values, value.KnownTo heap

/-- A value lies in the block of some elements or in one that is kept for a reader. -/
def Storage.Holds (storage : Storage) (value : Value) : Prop :=
  value ∈ storage.elements ∨ ∃ block ∈ storage.trail.kept, value ∈ block.2

/-- A name that is neither the one of a length nor that of an index. -/
def IsApart (name : String) : Prop := name ≠ "length" ∧ arrayIndex? name = none

instance (name : String) : Decidable (IsApart name) := inferInstanceAs (Decidable (_ ∧ _))

/-- Values of an object are known, and the names of an array that is no prototype are apart. -/
structure HeapObject.Tidy (heap : Heap) (id : Nat) (object : HeapObject) : Prop where
  properties : ∀ slot ∈ object.properties, slot.value.KnownTo heap
  elements : ∀ storage, object.body = .array storage →
    ∀ value, storage.Holds value → value.KnownTo heap
  distinct : object.body.kind = .array → object.properties.allNames.Nodup
  apart : object.body.kind = .array → ¬ heap.Inherited id →
    ∀ name ∈ object.properties.allNames, IsApart name

namespace Heap

/-- All objects are tidy and have the prototypes of their kinds, and the prototypes that every realm
has are plain. -/
structure Tidy (heap : Heap) : Prop where
  objects : ∀ (id : Nat) (object : HeapObject), heap[id]? = some object → object.Tidy heap id
  natives : ∀ (id : Nat) (object : HeapObject), heap[id]? = some object → object.IsNative
  prototypes : ∀ id ≤ patternPrototype, heap.Has .plain id

variable {newest heap : Heap}

/-! ## What stays -/

/-- Every heap has grown into itself. -/
theorem GrowsInto.refl (heap : Heap) : heap.GrowsInto heap :=
  fun _ object isObject => ⟨object, isObject, rfl, rfl⟩

/-- What stays twice stays. -/
theorem GrowsInto.trans (first : older.GrowsInto newer) (second : newer.GrowsInto newest) :
    older.GrowsInto newest := by
  intro id object isObject
  obtain ⟨later, isLater, samePrototype, sameKind⟩ := first id object isObject
  obtain ⟨latest, isLatest, samePrototype', sameKind'⟩ := second id later isLater
  exact ⟨latest, isLatest, samePrototype'.trans samePrototype, sameKind'.trans sameKind⟩

/-- A prototype stays one. -/
theorem GrowsInto.inherited (grows : older.GrowsInto newer) (inherited : older.Inherited id) :
    newer.Inherited id := by
  obtain ⟨other, isPrototype⟩ := inherited
  refine ⟨other, ?_⟩
  unfold prototype? at isPrototype ⊢
  cases found : older[other]? with
  | none =>
      rw [found] at isPrototype
      cases isPrototype
  | some object =>
      obtain ⟨later, isLater, samePrototype, -⟩ := grows other object found
      rw [found] at isPrototype
      rw [isLater]
      exact samePrototype.trans isPrototype

/-- An object keeps its kind. -/
theorem Has.mono {kind : ObjectKind} (has : older.Has kind id) (grows : older.GrowsInto newer) :
    newer.Has kind id := by
  obtain ⟨object, isObject, isKind⟩ := has
  obtain ⟨later, isLater, -, sameKind⟩ := grows id object isObject
  exact ⟨later, isLater, sameKind.trans isKind⟩

/-- An object has one kind. -/
theorem Has.unique
    {kind other : ObjectKind}
    (has : heap.Has kind id)
    (hasOther : heap.Has other id) :
    other = kind := by
  obtain ⟨object, isObject, isKind⟩ := has
  obtain ⟨same, isSame, isOther⟩ := hasOther
  obtain rfl : object = same := Option.some.inj (isObject.symm.trans isSame)
  exact isOther.symm.trans isKind

end Heap

/-- A value that is known stays known. -/
theorem Value.KnownTo.mono
    (known : value.KnownTo older)
    (grows : older.GrowsInto newer) :
    value.KnownTo newer := by
  cases value with
  | object kind id =>
      exact known.imp (·.mono grows) fun ⟨isPlain, inherited⟩ =>
        ⟨isPlain, grows.inherited inherited⟩
  | _ => trivial

/-- An object used as what it is is known. -/
theorem Heap.Has.known {heap : Heap} {kind : ObjectKind} (has : heap.Has kind id) :
    (Value.object kind id).KnownTo heap :=
  .inl has

/-- Values that are known stay known. -/
theorem Heap.Knows.mono
    (known : older.Knows values)
    (grows : older.GrowsInto newer) :
    newer.Knows values :=
  fun value member => (known value member).mono grows

/-- An object that does not change stays tidy. -/
theorem HeapObject.Tidy.mono
    (tidy : object.Tidy older id)
    (grows : older.GrowsInto newer) :
    object.Tidy newer id where
  properties slot member := (tidy.properties slot member).mono grows
  elements storage isArray value holds := (tidy.elements storage isArray value holds).mono grows
  distinct := tidy.distinct
  apart isArray notInherited :=
    tidy.apart isArray fun inherited => notInherited (grows.inherited inherited)

namespace Heap

variable {heap : Heap}

/-! ## Changing an object -/

/-- The change of an object keeps all, if it keeps its prototype and its kind. -/
theorem growsInto_modify
    (heap : Heap)
    (id : Nat)
    (keeps : ∀ object, (change object).prototype = object.prototype ∧
      (change object).body.kind = object.body.kind) :
    heap.GrowsInto (heap.modify id change) := by
  intro other object isObject
  rw [Array.getElem?_modify]
  by_cases isChanged : id = other
  · rw [if_pos isChanged, isObject]
    exact ⟨change object, rfl, keeps object⟩
  · rw [if_neg isChanged]
    exact ⟨object, isObject, rfl, rfl⟩

/-- A change of an object that leaves it tidy leaves all objects tidy. -/
theorem Tidy.modify
    (tidy : heap.Tidy)
    (keeps : ∀ object, (change object).prototype = object.prototype ∧
      (change object).body.kind = object.body.kind)
    (staysTidy : ∀ object, heap[id]? = some object → object.Tidy heap id →
      (change object).Tidy heap id) :
    Heap.Tidy (heap.modify id change) := by
  have grows := growsInto_modify heap id keeps
  refine ⟨fun other object isObject => ?_, fun other object isObject => ?_,
    fun other isPrototype => (tidy.prototypes other isPrototype).mono grows⟩
  · rw [Array.getElem?_modify] at isObject
    by_cases isChanged : id = other
    · rw [if_pos isChanged] at isObject
      obtain ⟨old, isOld, rfl⟩ := Option.map_eq_some_iff.mp isObject
      subst isChanged
      exact (staysTidy old isOld (tidy.objects id old isOld)).mono grows
    · rw [if_neg isChanged] at isObject
      exact (tidy.objects other object isObject).mono grows
  · rw [Array.getElem?_modify] at isObject
    by_cases isChanged : id = other
    · rw [if_pos isChanged] at isObject
      obtain ⟨old, isOld, rfl⟩ := Option.map_eq_some_iff.mp isObject
      obtain ⟨samePrototype, sameKind⟩ := keeps old
      unfold HeapObject.IsNative
      rw [samePrototype, sameKind]
      exact tidy.natives other old isOld
    · rw [if_neg isChanged] at isObject
      exact tidy.natives other object isObject

/-- A new object changes no other. -/
theorem growsInto_push (heap : Heap) (object : HeapObject) : heap.GrowsInto (heap.push object) := by
  intro id old isOld
  have inside := (Array.getElem?_eq_some_iff.mp isOld).1
  rw [Array.getElem?_push, if_neg (Nat.ne_of_lt inside)]
  exact ⟨old, isOld, rfl, rfl⟩

/-- A new object that is tidy leaves all objects tidy. -/
theorem Tidy.push
    (tidy : heap.Tidy)
    (isTidy : object.Tidy heap heap.size)
    (isNative : object.IsNative) :
    Heap.Tidy (heap.push object) := by
  have grows := growsInto_push heap object
  refine ⟨fun id found isFound => ?_, fun id found isFound => ?_,
    fun other isPrototype => (tidy.prototypes other isPrototype).mono grows⟩
  · rw [Array.getElem?_push] at isFound
    split at isFound
    · rename_i isNew
      cases isFound
      rw [isNew]
      exact isTidy.mono grows
    · exact (tidy.objects id found isFound).mono grows
  · rw [Array.getElem?_push] at isFound
    split at isFound
    · cases isFound
      exact isNative
    · exact tidy.natives id found isFound

/-! ## Orderly heaps -/

/-- A tidy heap, and if that is asked for, no array on it is too long. -/
structure Orderly (limited : Bool) (heap : Heap) : Prop where
  tidy : heap.Tidy
  bounded : limited = true → heap.Bounded

/-- A heap went on to be an orderly one. -/
structure Steps (limited : Bool) (older newer : Heap) : Prop where
  grows : older.GrowsInto newer
  orderly : newer.Orderly limited

/-- The length of an array is the number of its elements. -/
theorem arrayLength_of_body {storage : Storage} (isArray : heap.body id = .array storage) :
    heap.arrayLength id = storage.length := by
  unfold arrayLength
  rw [storage_of_body isArray]

/-- The length of what is no array is none. -/
theorem arrayLength_eq (isObject : heap[id]? = some object) :
    heap.arrayLength id = object.body.length := by
  obtain ⟨prototype, properties, body⟩ := object
  unfold arrayLength storage Heap.body
  rw [isObject]
  cases body <;> rfl

/-- Whatever has elements is an array. -/
theorem has_array_of_arrayLength (nonEmpty : 0 < heap.arrayLength id) : heap.Has .array id := by
  cases isObject : heap[id]? with
  | none =>
      unfold arrayLength storage body at nonEmpty
      rw [isObject] at nonEmpty
      cases nonEmpty
  | some object =>
      rw [arrayLength_eq isObject] at nonEmpty
      refine ⟨object, isObject, ?_⟩
      cases isBody : object.body with
      | array storage => rfl
      | plain | closure _ _ | builtin _ | pattern _ =>
          rw [isBody] at nonEmpty
          cases nonEmpty

/-- What is used as an array has elements. -/
theorem Has.holds (isArray : heap.Has .array id) : heap.Holds (.object .array id) := by
  obtain ⟨object, isObject, isKind⟩ := isArray
  obtain ⟨prototype, properties, body⟩ := object
  change ∃ storage, heap.body id = .array storage
  unfold Heap.body
  rw [isObject]
  cases body with
  | array storage => exact ⟨storage, rfl⟩
  | plain | closure _ _ | builtin _ | pattern _ => cases isKind

theorem arrayLength_push_array (heap : Heap) (prototype : Option Nat) (storage : Storage) :
    Heap.arrayLength (heap.push ⟨prototype, [], .array storage⟩) heap.size = storage.length :=
  arrayLength_eq Array.getElem?_push_size

/-- The lengths are bounded if those of the objects are. -/
theorem bounded_iff :
    heap.Bounded ↔ ∀ (id : Nat) (object : HeapObject), heap[id]? = some object →
      object.body.length ≤ Storage.maxLength := by
  constructor
  · intro bounded id object isObject
    rw [← arrayLength_eq isObject]
    exact bounded id
  · intro within id
    cases isObject : heap[id]? with
    | none =>
        unfold arrayLength storage body
        rw [isObject]
        exact Nat.zero_le _
    | some object =>
        rw [arrayLength_eq isObject]
        exact within id object isObject

variable {limited : Bool}

/-- A change of an object that leaves it as tidy and as short as asked for. -/
theorem Orderly.modify
    (orderly : heap.Orderly limited)
    (keeps : ∀ object, (change object).prototype = object.prototype ∧
      (change object).body.kind = object.body.kind)
    (staysTidy : ∀ object, heap[id]? = some object → object.Tidy heap id →
      (change object).Tidy heap id)
    (staysShort : limited = true → ∀ object, heap[id]? = some object →
      object.body.length ≤ Storage.maxLength → (change object).body.length ≤ Storage.maxLength) :
    heap.Steps limited (heap.modify id change) := by
  refine ⟨growsInto_modify heap id keeps, orderly.tidy.modify keeps staysTidy, fun isLimited => ?_⟩
  have within := bounded_iff.mp (orderly.bounded isLimited)
  refine bounded_iff.mpr fun other object isObject => ?_
  rw [Array.getElem?_modify] at isObject
  by_cases isChanged : id = other
  · rw [if_pos isChanged] at isObject
    obtain ⟨old, isOld, rfl⟩ := Option.map_eq_some_iff.mp isObject
    subst isChanged
    exact staysShort isLimited old isOld (within id old isOld)
  · rw [if_neg isChanged] at isObject
    exact within other object isObject

/-- A new object may be as long as asked for. -/
theorem Orderly.push
    (orderly : heap.Orderly limited)
    (isTidy : object.Tidy heap heap.size)
    (isNative : object.IsNative)
    (isShort : limited = true → object.body.length ≤ Storage.maxLength) :
    heap.Steps limited (heap.push object) := by
  refine ⟨growsInto_push heap object, orderly.tidy.push isTidy isNative, fun isLimited => ?_⟩
  have within := bounded_iff.mp (orderly.bounded isLimited)
  refine bounded_iff.mpr fun id found isFound => ?_
  rw [Array.getElem?_push] at isFound
  split at isFound
  · cases isFound
    exact isShort isLimited
  · exact within id found isFound

end Heap

/-! ## Properties and elements -/

namespace Properties

variable {properties : Properties} {slot : PropertySlot} {name : String}

/-- Setting a property brings in no other value. -/
theorem mem_set (member : slot ∈ properties.set name value) :
    slot ∈ properties ∨ slot.value = value := by
  induction properties with
  | nil =>
      obtain rfl := List.mem_singleton.mp member
      exact .inr rfl
  | cons first rest inductionHypothesis =>
      rw [set] at member
      split at member
      · rcases List.mem_cons.mp member with rfl | later
        · exact .inr rfl
        · exact .inl (.tail _ later)
      · rcases List.mem_cons.mp member with rfl | later
        · exact .inl (.head _)
        · exact (inductionHypothesis later).imp_left (.tail _)

/-- Erasing a property brings in none. -/
theorem mem_of_mem_erase (member : slot ∈ properties.erase name) : slot ∈ properties := by
  induction properties with
  | nil => cases member
  | cons first rest inductionHypothesis =>
      rw [erase] at member
      split at member
      · exact .tail _ member
      · rcases List.mem_cons.mp member with rfl | later
        · exact .head _
        · exact .tail _ (inductionHypothesis later)

/-- A property that is found is there. -/
theorem mem_of_get? (found : properties.get? name = some value) :
    ∃ slot ∈ properties, slot.value = value := by
  induction properties with
  | nil => cases found
  | cons first rest inductionHypothesis =>
      rw [get?, find?] at found
      split at found
      · exact ⟨first, .head _, Option.some.inj found⟩
      · obtain ⟨slot, member, isValue⟩ := inductionHypothesis found
        exact ⟨slot, .tail _ member, isValue⟩

end Properties

namespace HeapObject.Tidy

variable {heap : Heap}

/-- What is no array is tidy if its properties are known. -/
theorem of_kind
    (notArray : object.body.kind ≠ .array)
    (known : ∀ slot ∈ object.properties, slot.value.KnownTo heap) :
    object.Tidy heap id where
  properties := known
  elements _ isArray := absurd (congrArg ObjectBody.kind isArray) notArray
  distinct isArray := absurd isArray notArray
  apart isArray := absurd isArray notArray

/-- Setting a known value leaves an object tidy. -/
theorem set
    (tidy : object.Tidy heap id)
    (name : String)
    (known : value.KnownTo heap)
    (apart : object.body.kind = .array → ¬ heap.Inherited id → IsApart name) :
    HeapObject.Tidy heap id
      { object with properties := Properties.set name value object.properties } where
  properties slot member := by
    rcases Properties.mem_set member with old | rfl
    · exact tidy.properties slot old
    · exact known
  elements := tidy.elements
  distinct isArray := Properties.nodup_allNames_set (tidy.distinct isArray) name value
  apart isArray notInherited other member := by
    rw [Properties.allNames_set] at member
    split at member
    · exact tidy.apart isArray notInherited other member
    · rcases List.mem_append.mp member with old | isNew
      · exact tidy.apart isArray notInherited other old
      · rw [List.mem_singleton.mp isNew]
        exact apart isArray notInherited

/-- Erasing a property leaves an object tidy. -/
theorem erase (tidy : object.Tidy heap id) (name : String) :
    HeapObject.Tidy heap id
      { object with properties := Properties.erase name object.properties } where
  properties slot member := tidy.properties slot (Properties.mem_of_mem_erase member)
  elements := tidy.elements
  distinct isArray := by
    rw [Properties.allNames_erase]
    exact (tidy.distinct isArray).erase name
  apart isArray notInherited other member := by
    rw [Properties.allNames_erase] at member
    exact tidy.apart isArray notInherited other (List.mem_of_mem_erase member)

end HeapObject.Tidy

namespace Heap.Orderly

variable {limited : Bool} {heap : Heap}

/-- A known value may be written under any name, unless the object is an array that is no
prototype and the name is not apart. -/
theorem setOwn
    (orderly : heap.Orderly limited)
    {name : String}
    (known : value.KnownTo heap)
    (apart : heap.Has .array id → ¬ heap.Inherited id → IsApart name) :
    heap.Steps limited (heap.setOwn id name value) := by
  refine orderly.modify (fun _ => ⟨rfl, rfl⟩) (fun object isObject tidy => ?_)
    fun _ _ _ short => short
  exact tidy.set name known fun isArray => apart ⟨object, isObject, isArray⟩

/-- A property may always be erased. -/
theorem eraseOwn (orderly : heap.Orderly limited) (id : Nat) (name : String) :
    heap.Steps limited (heap.eraseOwn id name) :=
  orderly.modify (fun _ => ⟨rfl, rfl⟩) (fun _ _ tidy => tidy.erase name) fun _ _ _ short => short

/-- Elements may be moved, dropped and added, as long as those that are added are known. -/
theorem modifyStorage
    (orderly : heap.Orderly limited)
    (id : Nat)
    {change : Storage → Storage}
    (holds : ∀ storage value, (change storage).Holds value →
      storage.Holds value ∨ value.KnownTo heap)
    (short : limited = true → ∀ storage, heap.body id = .array storage →
      storage.length ≤ Storage.maxLength → (change storage).length ≤ Storage.maxLength) :
    heap.Steps limited (heap.modifyStorage id change) := by
  refine orderly.modify (fun object => ?_) (fun object isObject tidy => ?_) ?_
  · obtain ⟨prototype, properties, body⟩ := object
    cases body <;> exact ⟨rfl, rfl⟩
  · obtain ⟨prototype, properties, body⟩ := object
    cases body with
    | array storage =>
        refine ⟨tidy.properties, ?_, tidy.distinct, tidy.apart⟩
        rintro _ ⟨⟩ value isHeld
        exact (holds storage value isHeld).elim (tidy.elements storage rfl value) fun known => known
    | plain | closure _ _ | builtin _ | pattern _ => exact tidy
  · intro isLimited object isObject within
    obtain ⟨prototype, properties, body⟩ := object
    cases body with
    | array storage =>
        refine short isLimited storage ?_ within
        unfold Heap.body
        rw [isObject]
    | plain | closure _ _ | builtin _ | pattern _ => exact within

end Heap.Orderly

/-! ## Elements -/

namespace Storage

variable {storage : Storage}

/-- Cutting out elements brings in none. -/
theorem mem_of_mem_extract (member : value ∈ elements.extract start stop) : value ∈ elements := by
  rw [← Array.mem_toList_iff, Array.toList_extract] at member
  exact Array.mem_toList_iff.mp (List.mem_of_mem_drop (List.mem_of_mem_take member))

/-- A block that is left is kept. -/
theorem holds_of_leave
    {capacity : Nat}
    {fits : elements.size ≤ capacity}
    (holds : Holds ⟨elements, capacity, storage.trail.leave storage.elements, fits⟩ value) :
    value ∈ elements ∨ storage.Holds value := by
  rcases holds with member | ⟨block, isKept, member⟩
  · exact .inl member
  · unfold Trail.leave at isKept
    split at isKept
    · exact .inr (.inr ⟨block, isKept, member⟩)
    · rcases List.mem_cons.mp isKept with rfl | isKept
      · exact .inr (.inl member)
      · exact .inr (.inr ⟨block, isKept, member⟩)

/-- Storage that has not moved yet holds its elements only. -/
theorem holds_start
    {capacity : Nat}
    {fits : elements.size ≤ capacity}
    (holds : Holds ⟨elements, capacity, .start, fits⟩ value) :
    value ∈ elements := by
  rcases holds with member | ⟨_, isKept, -⟩
  · exact member
  · cases isKept

/-- Appending brings in the appended values only. -/
theorem holds_append (holds : (storage.append values).Holds value) :
    storage.Holds value ∨ value ∈ values := by
  have appended {elements : Array Value} (member : value ∈ elements ++ values) :
      value ∈ elements ∨ value ∈ values := by
    rwa [← Array.mem_toList_iff, Array.toList_appendList, List.mem_append,
      Array.mem_toList_iff] at member
  unfold append at holds
  dsimp only at holds
  split at holds
  · rcases holds with member | isKept
    · exact (appended member).imp_left .inl
    · exact .inl (.inr isKept)
  · rcases holds_of_leave holds with member | old
    · exact (appended member).imp_left .inl
    · exact .inl old

/-- Prepending brings in the prepended values only. -/
theorem holds_prepend (holds : (storage.prepend values).Holds value) :
    storage.Holds value ∨ value ∈ values := by
  rcases holds_of_leave holds with member | old
  · exact ((Array.mem_append.mp member).imp List.mem_toArray.mp .inl).symm
  · exact .inl old

/-- Padding brings in undefined only. -/
theorem holds_pad {length : Nat} (holds : (storage.pad length).Holds value) :
    storage.Holds value ∨ value = .undefined := by
  have padded {elements : Array Value} {count : Nat}
      (member : value ∈ elements ++ Array.replicate count .undefined) :
      value ∈ elements ∨ value = .undefined :=
    (Array.mem_append.mp member).imp_right Array.eq_of_mem_replicate
  unfold pad at holds
  dsimp only at holds
  split at holds
  · rcases holds with member | isKept
    · exact (padded member).imp_left .inl
    · exact .inl (.inr isKept)
  · rcases holds_of_leave holds with member | old
    · exact (padded member).imp_left .inl
    · exact .inl old

/-- Written elements. -/
theorem holds_put
    {index : Nat}
    {written : Value}
    (holds : (storage.put index written).Holds value) :
    storage.Holds value ∨ value = .undefined ∨ value = written := by
  have setting {elements : Array Value}
      (member : value ∈ elements.setIfInBounds index written) :
      value ∈ elements ∨ value = written :=
    Array.mem_or_eq_of_mem_setIfInBounds member
  unfold put at holds
  dsimp only at holds
  split at holds
  · rcases holds with member | isKept
    · exact (setting member).imp .inl .inr
    · exact .inl (.inr isKept)
  · have old (isPadded : (storage.pad (index + 1)).Holds value) :
        storage.Holds value ∨ value = .undefined ∨ value = written :=
      (holds_pad isPadded).imp_right .inl
    rcases holds with member | isKept
    · exact (setting member).elim (fun member => old (.inl member)) fun same => .inr (.inr same)
    · exact old (.inr isKept)

/-- Cutting brings in nothing. -/
theorem holds_truncate {length : Nat} (holds : (storage.truncate length).Holds value) :
    storage.Holds value := by
  rcases holds with member | isKept
  · change value ∈ storage.elements.shrink length at member
    rw [Array.shrink_eq_take, Array.take_eq_extract] at member
    exact .inl (mem_of_mem_extract member)
  · exact .inr isKept

/-- A new length brings in undefined at most. -/
theorem holds_resize {length : Nat} (holds : (storage.resize length).Holds value) :
    storage.Holds value ∨ value = .undefined := by
  unfold resize at holds
  split at holds
  · exact .inl (holds_truncate holds)
  · exact holds_pad holds

/-- Moving the elements brings in none. -/
theorem holds_moveDown (holds : storage.moveDown.Holds value) : storage.Holds value := by
  rcases holds with member | isKept
  · have moved : value ∈ storage.elements.extract 1 storage.elements.size ∨
        value ∈ storage.elements.back?.toList := by
      change value ∈ storage.elements.extract 1 storage.elements.size ++
        storage.elements.back?.toList at member
      rwa [← Array.mem_toList_iff, Array.toList_appendList, List.mem_append,
        Array.mem_toList_iff] at member
    rcases moved with member | isLast
    · exact .inl (mem_of_mem_extract member)
    · exact .inl (Array.mem_of_back? (Option.mem_toList.mp isLast))
  · exact .inr isKept

/-- Dropping the last element brings in none. -/
theorem holds_dropLast (holds : storage.dropLast.Holds value) : storage.Holds value := by
  rcases holds with member | isKept
  · refine .inl ?_
    change value ∈ storage.elements.pop at member
    rw [← Array.mem_toList_iff, Array.toList_pop] at member
    exact Array.mem_toList_iff.mp (List.mem_of_mem_dropLast member)
  · exact .inr isKept

theorem holds_watch (holds : storage.watch.Holds value) : storage.Holds value :=
  holds

/-- What was kept for a reader may be gone. -/
theorem holds_unwatch (holds : storage.unwatch.Holds value) : storage.Holds value := by
  rcases holds with member | ⟨block, isKept, member⟩
  · exact .inl member
  · change block ∈ storage.trail.unwatch.kept at isKept
    unfold Trail.unwatch at isKept
    split at isKept
    · cases isKept
    · exact .inr ⟨block, isKept, member⟩

/-- Appending adds the number of the values. -/
theorem length_append (storage : Storage) (values : List Value) :
    (storage.append values).length = storage.length + values.length := by
  unfold append length
  dsimp only
  split
  · exact size_appendList _ _
  · exact size_appendList _ _

/-- Prepending adds the number of the values. -/
theorem length_prepend (storage : Storage) (values : List Value) :
    (storage.prepend values).length = storage.length + values.length := by
  change (values.toArray ++ storage.elements).size = storage.elements.size + values.length
  rw [Array.size_append, List.size_toArray, Nat.add_comm]

/-- Moving the elements keeps their number. -/
theorem length_moveDown (storage : Storage) : storage.moveDown.length = storage.length :=
  size_movedDown storage.elements

theorem length_truncate_le (storage : Storage) (length : Nat) :
    (storage.truncate length).length ≤ length := by
  change (storage.elements.shrink length).size ≤ length
  rw [Array.size_shrink]
  exact Nat.min_le_left _ _

theorem length_dropLast_le (storage : Storage) : storage.dropLast.length ≤ storage.length := by
  change storage.elements.pop.size ≤ storage.elements.size
  rw [Array.size_pop]
  exact Nat.sub_le _ _

section

variable (isSlots : storage.slots start stop = .ok elements)

include isSlots

/-- Slots beyond the elements are undefined. -/
theorem slots_eq : elements = storage.elements.extract start stop ++
      Array.replicate (stop - start - (storage.elements.extract start stop).size)
        Value.undefined := by
  unfold slots at isSlots
  split at isSlots
  · cases isSlots
  · exact (Except.ok.inj isSlots).symm

theorem size_of_slots : elements.size = stop - start := by
  rw [slots_eq isSlots, Array.size_append, Array.size_replicate, Array.size_extract]
  omega

/-- Slots hold elements or undefined. -/
theorem holds_of_mem_slots (member : value ∈ elements) :
    storage.Holds value ∨ value = .undefined := by
  rw [slots_eq isSlots] at member
  rcases Array.mem_append.mp member with present | missing
  · exact .inl (.inl (mem_of_mem_extract present))
  · exact .inr (Array.eq_of_mem_replicate missing)

end

/-- A block that is kept for a reader is held. -/
theorem holds_of_mem_block {moves : Nat} (member : value ∈ storage.block moves) :
    storage.Holds value := by
  unfold block at member
  split at member
  · exact .inl member
  · cases found : storage.trail.kept.lookup moves with
    | none =>
        rw [found] at member
        simp at member
    | some block =>
        obtain ⟨front, back, isSplit, -⟩ := List.lookup_eq_some_iff.mp found
        rw [found] at member
        exact .inr ⟨(moves, block), by simp [isSplit], member⟩

end Storage

/-! ## Reading -/

namespace Heap.Tidy

variable {heap : Heap} {name : String}

/-- A property of an object is known. -/
theorem of_get?
    (tidy : heap.Tidy)
    (isObject : heap[id]? = some object)
    (found : object.properties.get? name = some value) :
    value.KnownTo heap := by
  obtain ⟨slot, member, rfl⟩ := Properties.mem_of_get? found
  exact (tidy.objects id object isObject).properties slot member

/-- What is found along the prototypes is known. -/
theorem of_lookupFrom
    (tidy : heap.Tidy)
    {budget : Nat}
    (found : heap.lookupFrom name budget id = some value) :
    value.KnownTo heap := by
  induction budget generalizing id with
  | zero => cases found
  | succ budget inductionHypothesis =>
      rw [lookupFrom] at found
      split at found
      · cases found
      · rename_i object isObject
        split at found
        · rename_i own isOwn
          cases found
          exact tidy.of_get? isObject isOwn
        · split at found
          · exact inductionHypothesis found
          · cases found

/-- What a lookup finds is known. -/
theorem of_lookup? (tidy : heap.Tidy) (found : heap.lookup? id name = some value) :
    value.KnownTo heap :=
  tidy.of_lookupFrom found

/-- What an array holds is known. -/
theorem of_holds (tidy : heap.Tidy) (holds : (heap.storage id).Holds value) :
    value.KnownTo heap := by
  unfold storage body at holds
  cases isObject : heap[id]? with
  | none =>
      rw [isObject] at holds
      exact absurd (Storage.holds_start holds) (Array.not_mem_empty value)
  | some object =>
      rw [isObject] at holds
      dsimp only at holds
      split at holds
      · rename_i storage isArray
        exact (tidy.objects id object isObject).elements storage isArray value holds
      · exact absurd (Storage.holds_start holds) (Array.not_mem_empty value)

/-- The elements of an array are known. -/
theorem of_mem_elements (tidy : heap.Tidy) (member : value ∈ heap.elements id) :
    value.KnownTo heap :=
  tidy.of_holds (.inl member)

/-- What is read of a value is known. -/
theorem of_read? (tidy : heap.Tidy) {target : Value} (found : heap.read? target name = some value) :
    value.KnownTo heap := by
  have inherited {id : Nat} : ((heap.lookup? id name).getD .undefined).KnownTo heap := by
    cases isFound : heap.lookup? id name with
    | none => trivial
    | some other => exact tidy.of_lookup? isFound
  unfold read? at found
  split at found
  · cases found
  · cases found
    exact inherited
  · cases found
    exact inherited
  · split at found
    · cases found
      trivial
    · split at found
      · cases found
        trivial
      · cases found
        exact inherited
  · split at found
    · cases found
      trivial
    · split at found
      · rename_i element isElement
        cases found
        obtain ⟨index, -, isThere⟩ := Option.bind_eq_some_iff.mp isElement
        exact tidy.of_mem_elements (Array.mem_of_getElem? isThere)
      · cases found
        exact inherited
  · cases found
    exact inherited

end Heap.Tidy

/-! ## Scopes -/

namespace Bindings

variable {heap : Heap} {bindings : Bindings} {name : String}

/-- The values of all bindings are known. -/
def KnownTo (heap : Heap) (bindings : Bindings) : Prop :=
  ∀ binding ∈ bindings, binding.2.KnownTo heap

/-- A bound value is known. -/
theorem KnownTo.of_get? (known : bindings.KnownTo heap) (found : bindings.get? name = some value) :
    value.KnownTo heap := by
  induction bindings with
  | nil => cases found
  | cons first rest inductionHypothesis =>
      obtain ⟨firstKnown, restKnown⟩ := List.forall_mem_cons.mp known
      rw [get?] at found
      split at found
      · cases found
        exact firstKnown
      · exact inductionHypothesis restKnown found

/-- A known value may replace a bound one. -/
theorem KnownTo.update (known : bindings.KnownTo heap) (valueKnown : value.KnownTo heap) :
    Bindings.KnownTo heap (bindings.update name value) := by
  induction bindings with
  | nil => exact known
  | cons first rest inductionHypothesis =>
      obtain ⟨firstKnown, restKnown⟩ := List.forall_mem_cons.mp known
      rw [Bindings.update]
      split
      · exact List.forall_mem_cons.mpr ⟨valueKnown, restKnown⟩
      · exact List.forall_mem_cons.mpr ⟨firstKnown, inductionHypothesis restKnown⟩

/-- A known value may be bound. -/
theorem KnownTo.set (known : bindings.KnownTo heap) (valueKnown : value.KnownTo heap) :
    Bindings.KnownTo heap (bindings.set name value) := by
  unfold Bindings.set
  split
  · exact known.update valueKnown
  · exact List.forall_mem_cons.mpr ⟨valueKnown, known⟩

/-- Erasing a name binds nothing. -/
theorem KnownTo.erase (known : bindings.KnownTo heap) :
    Bindings.KnownTo heap (bindings.erase name) := by
  induction bindings with
  | nil => exact known
  | cons first rest inductionHypothesis =>
      obtain ⟨firstKnown, restKnown⟩ := List.forall_mem_cons.mp known
      rw [Bindings.erase]
      split
      · exact restKnown
      · exact List.forall_mem_cons.mpr ⟨firstKnown, inductionHypothesis restKnown⟩

end Bindings

namespace Scopes

variable {heap : Heap} {scopes : Scopes} {name : String}

/-- The values of all variables are known. -/
def KnownTo (heap : Heap) (scopes : Scopes) : Prop := ∀ scope ∈ scopes, scope.bindings.KnownTo heap

/-- Variables with known values keep them known. -/
theorem KnownTo.mono (known : scopes.KnownTo heap) (grows : heap.GrowsInto newer) :
    scopes.KnownTo newer :=
  fun scope isScope binding member => (known scope isScope binding member).mono grows

/-- A new scope binds nothing. -/
theorem KnownTo.make (known : scopes.KnownTo heap) (parent : Option Nat) (isFunction : Bool) :
    Scopes.KnownTo heap (scopes.make parent isFunction).2 := by
  intro scope isScope
  rcases Array.mem_push.mp isScope with old | rfl
  · exact known scope old
  · exact fun _ member => nomatch member

/-- One scope may change to known values. -/
theorem KnownTo.modify
    (known : scopes.KnownTo heap)
    (id : Nat)
    {change : Scope → Scope}
    (keeps : ∀ scope, scope.bindings.KnownTo heap → (change scope).bindings.KnownTo heap) :
    Scopes.KnownTo heap (scopes.modify id change) := by
  intro scope isScope
  obtain ⟨place, isPlace⟩ := Array.mem_iff_getElem?.mp isScope
  rw [Array.getElem?_modify] at isPlace
  split at isPlace
  · obtain ⟨old, isOld, rfl⟩ := Option.map_eq_some_iff.mp isPlace
    exact keeps old (known old (Array.mem_of_getElem? isOld))
  · exact known scope (Array.mem_of_getElem? isPlace)

/-- A known value may be bound in a scope. -/
theorem KnownTo.bind
    (known : scopes.KnownTo heap)
    (id : Nat)
    (name : String)
    (valueKnown : value.KnownTo heap) :
    Scopes.KnownTo heap (scopes.bind id name value) :=
  known.modify id fun _ old => old.set valueKnown

/-- Erasing a name binds nothing. -/
theorem KnownTo.erase (known : scopes.KnownTo heap) (id : Nat) (name : String) :
    Scopes.KnownTo heap (scopes.erase id name) := by
  unfold Scopes.erase
  split
  · exact known.modify _ fun _ old => old.erase
  · exact known

/-- A variable that is found has a known value. -/
theorem KnownTo.of_lookup?
    (known : scopes.KnownTo heap)
    (found : scopes.lookup? id name = some value) :
    value.KnownTo heap := by
  have within {budget : Nat} :
      ∀ {id : Nat}, scopes.lookupFrom name budget id = some value → value.KnownTo heap := by
    induction budget with
    | zero => exact fun found => nomatch found
    | succ budget inductionHypothesis =>
        intro id found
        rw [lookupFrom] at found
        split at found
        · cases found
        · rename_i scope isScope
          split at found
          · rename_i own isOwn
            cases found
            exact (known scope (Array.mem_of_getElem? isScope)).of_get? isOwn
          · split at found
            · exact inductionHypothesis found
            · cases found
  exact within found

end Scopes

/-- A machine whose heap is orderly and whose variables have known values. -/
structure Machine.Orderly (limited : Bool) (machine : Machine) : Prop where
  heap : machine.heap.Orderly limited
  scopes : machine.scopes.KnownTo machine.heap

end ScriptEngine
