import ScriptEngine.Code.Lowering
import ScriptEngine.Proofs.Machine.Scoping
import ScriptEngine.Proofs.Session.Reachable

namespace ScriptEngine

/-!
# Arrays in a realm

Three things about arrays hold in every realm that code leads to, each but for one gap.  An array
has no property of the name of one of its elements, unless an object inherits from it.  It has no
more elements than the greatest length, unless something too long goes through a place where
nobody looks.  And giving it the length it has changes nothing, unless that is the greatest one.
-/

variable {machine : Machine} {name : String}

/-!
## Names of arrays

The elements of an array and its length are to be found in its storage only: no property of
the array has the name of one of them.  That holds of every array that is not the prototype of
an object.  The prototype of an object can be had as a plain object, and then any name may be
written to it, also one that already is the index of an element.
-/

namespace Properties

theorem set_of_new {properties : Properties} (isNew : name ∉ properties.allNames) (value : Value) :
    properties.set name value = properties ++ [⟨name, value, false⟩] := by
  induction properties with
  | nil => rfl
  | cons first rest inductionHypothesis =>
      obtain ⟨notFirst, notRest⟩ := not_or.mp (mt List.mem_cons.mpr isNew)
      rw [set, if_neg (Ne.symm notFirst), inductionHypothesis notRest]
      rfl

theorem mem_allNames_set (properties : Properties) (name : String) (value : Value) :
    name ∈ (properties.set name value).allNames := by
  rw [allNames_set]
  split
  · assumption
  · exact List.mem_append_right _ (List.mem_singleton_self name)

theorem mem_names_set_of_new
    {properties : Properties}
    (isNew : name ∉ properties.allNames)
    (value : Value) :
    name ∈ (properties.set name value).names := by
  rw [set_of_new isNew]
  simp [names]

end Properties

namespace Heap

variable {heap : Heap} {id : Nat}

/-- The names of an array tell nothing of its elements, and so a loop visits no key twice. -/
structure NamesApart (heap : Heap) (id : Nat) : Prop where
  apart : ∀ name ∈ (heap.properties id).allNames, IsApart name
  length : heap.read? (.object .array id) "length" = some (.ofNat (heap.elements id).size)
  visits : heap.arrayLength id ≤ 4294967295 → (heap.keys (.object .array id)).Nodup

theorem properties_eq {object : HeapObject} (isObject : heap[id]? = some object) :
    heap.properties id = object.properties := by
  unfold properties
  rw [isObject]

theorem Tidy.namesApart
    (tidy : heap.Tidy)
    (isArray : heap.Has .array id)
    (notInherited : ¬ heap.Inherited id) :
    heap.NamesApart id := by
  obtain ⟨object, isObject, isKind⟩ := isArray
  have objectTidy := tidy.objects id object isObject
  have distinct := objectTidy.distinct isKind
  have apart := objectTidy.apart isKind notInherited
  rw [← properties_eq isObject] at distinct apart
  refine ⟨apart, rfl, fun numbered => ?_⟩
  rw [keys_array]
  refine (nodup_indexKeys _).append
    ((Text.sorted_perm _).nodup_iff.mpr (Properties.nodup_names distinct)) ?_
  intro name isKey isName
  obtain ⟨index, below, rfl⟩ := mem_indexKeys_iff.mp isKey
  have isProperty := (Properties.names_sublist _).mem ((Text.sorted_perm _).mem_iff.mp isName)
  have notIndex := (apart _ isProperty).2
  rw [arrayIndex?_indexKey (by omega)] at notIndex
  cases notIndex

theorem properties_setOwn
    {kind : ObjectKind}
    (has : heap.Has kind id)
    (name : String)
    (value : Value) :
    (heap.setOwn id name value).properties id = (heap.properties id).set name value := by
  obtain ⟨object, isObject, -⟩ := has
  rw [properties_eq isObject]
  unfold properties setOwn
  rw [Array.getElem?_modify, if_pos rfl, isObject]
  rfl

theorem prototype?_eq_some_iff {prototype : Nat} :
    heap.prototype? id = some prototype ↔
      ∃ object, heap[id]? = some object ∧ object.prototype = some prototype := by
  unfold prototype?
  cases heap[id]? with
  | none => simp
  | some object => simp

/-- A property under the index of an element makes a loop visit this key twice. -/
theorem not_nodup_keys_of_index
    {index : Nat}
    (isIndex : arrayIndex? name = some index)
    (below : index < heap.arrayLength id)
    (isName : name ∈ (heap.properties id).names) :
    ¬ (heap.keys (.object .array id)).Nodup := by
  intro distinct
  rw [keys_array] at distinct
  have isKey : name ∈ (List.range (heap.arrayLength id)).map indexKey :=
    mem_indexKeys_iff.mpr ⟨index, below, (eq_indexKey_of_arrayIndex? isIndex).symm⟩
  exact (List.nodup_append.mp distinct).2.2 name isKey name
    ((Text.sorted_perm _).mem_iff.mpr isName) rfl

end Heap

namespace Run

/-- A prototype is had as a plain object, and any name may be written to that. -/
theorem write_to_prototype
    {other id : Nat}
    (isPrototype : machine.heap.prototype? other = some id)
    (kind : ObjectKind)
    (call : Caller)
    (name : String)
    (value : Value) :
    (prototypeOf (.object kind other) >>= fun view => write call view name value) machine =
      .ok () { machine with heap := machine.heap.setOwn id name value } := by
  have isView : prototypeOf (.object kind other) machine = .ok (.object .plain id) machine := by
    rw [prototypeOf, heap_bind, isPrototype]
    rfl
  rw [bind_of_ok isView]
  rfl

end Run

namespace Machine

/--
On every machine that runs lead to, an array that is the prototype of no object has no
property under an index or under the name of its length, and a loop over it visits no key
twice.  But if it is the prototype of an object, any name may be written to it from there,
and a new one that is the index of an element is visited twice from then on.
-/
theorem array_names_apart_unless_inherited
    {settings : Settings}
    {first machine : Machine}
    (isRealm : settings.realm = .ok first)
    (leads : Leads (fun _ _ _ => True) first machine)
    {id : Nat}
    (isArray : machine.heap.Has .array id) :
    (¬ machine.heap.Inherited id → machine.heap.NamesApart id) ∧
      ∀ other, machine.heap.prototype? other = some id → ∀ kind call name value,
        ∃ after,
          (Run.prototypeOf (.object kind other) >>= fun view => Run.write call view name value)
              machine = .ok () after ∧
            name ∈ (after.heap.properties id).allNames ∧
            (after.heap.elements id = machine.heap.elements id) ∧
            ∀ index, arrayIndex? name = some index → index < machine.heap.arrayLength id →
              name ∉ (machine.heap.properties id).allNames →
              ¬ (after.heap.keys (.object .array id)).Nodup := by
  have orderly : machine.Orderly false :=
    leads.orderly (Settings.orderly_of_realm isRealm)
  refine ⟨orderly.heap.tidy.namesApart isArray, ?_⟩
  intro other isPrototype kind call name value
  have written := Heap.properties_setOwn isArray name value
  have sameStorage := Heap.storage_setOwn machine.heap id name value
  refine ⟨_, Run.write_to_prototype isPrototype kind call name value, ?_, ?_, ?_⟩
  · rw [written]
    exact Properties.mem_allNames_set _ name value
  · exact congrArg Storage.elements sameStorage
  · intro index isIndex below isNew
    refine Heap.not_nodup_keys_of_index isIndex ?_ ?_
    · exact Nat.lt_of_lt_of_eq below (congrArg Storage.length sameStorage).symm
    · rw [written]
      exact Properties.mem_names_set_of_new isNew value

/-- A script makes two arrays and an object that inherits from the first one. -/
def inheritedArray : Source := .ofEval "var a = [1]; var b = [2]; Object.create(a)"

/-- Whether the script leaves the realm with two arrays of one element, the first of which has
no properties and is inherited from, while the second is not.  They are made just before the
object that inherits. -/
def areApart (realm : Machine) : Bool :=
  match Code.compile true inheritedArray with
  | .ok code =>
      match code.runIn 0 realm with
      | .ok (.object .plain other) machine =>
          decide (machine.heap.prototype? other = some (other - 2)) &&
          decide (machine.heap.arrayLength (other - 2) = 1) &&
          decide ((machine.heap.properties (other - 2)).allNames = []) &&
          decide (machine.heap.arrayLength (other - 1) = 1) &&
          machine.heap.all (·.prototype != some (other - 1))
      | _ => false
  | .error _ => false

theorem array_index_named_through_prototype :
    ∃ (machine : Machine) (other id apart : Nat),
      Leads (fun _ _ _ => True) (.realm 10000) machine ∧
        machine.heap.prototype? other = some id ∧
        (∃ after,
          (Run.prototypeOf (.object .plain other) >>= fun view =>
            Run.write Run.call view "0" (.boolean true)) machine = .ok () after ∧
          "0" ∈ (after.heap.properties id).allNames ∧
          ¬ (after.heap.keys (.object .array id)).Nodup) ∧
        machine.heap.arrayLength apart = 1 ∧
        machine.heap.NamesApart apart := by
  have runs : areApart (.realm 10000) = true := by
    decide +kernel
  unfold areApart at runs
  split at runs
  · rename_i code _
    split at runs
    · rename_i other machine ran
      simp only [Bool.and_eq_true, decide_eq_true_eq, Array.all_eq_true_iff_forall_mem,
        bne_iff_ne] at runs
      obtain ⟨⟨⟨⟨isPrototype, length⟩, noNames⟩, lengthApart⟩, notPrototype⟩ := runs
      have isRealm : Settings.realm {} = .ok (Machine.realm 10000) := rfl
      have leads : Leads (fun _ _ _ => True) (.realm 10000) machine := by
        have started : Leads (fun _ _ _ => True) (.realm 10000) (.realm 10000) := .first
        have ended := Leads.run code 0 started trivial
        rw [ran] at ended
        exact ended
      obtain ⟨-, named⟩ := array_names_apart_unless_inherited isRealm leads
        (Heap.has_array_of_arrayLength (by omega : 0 < machine.heap.arrayLength (other - 2)))
      obtain ⟨after, written, isName, -, twice⟩ :=
        named other isPrototype .plain Run.call "0" (.boolean true)
      obtain ⟨keepsApart, -⟩ := array_names_apart_unless_inherited isRealm leads
        (Heap.has_array_of_arrayLength (by omega : 0 < machine.heap.arrayLength (other - 1)))
      refine ⟨machine, other, other - 2, other - 1, leads, isPrototype,
        ⟨after, written, isName, twice 0 (by decide +kernel) (by omega) ?_⟩, lengthApart,
        keepsApart ?_⟩
      · rw [noNames]
        exact List.not_mem_nil
      · rintro ⟨heir, inherits⟩
        obtain ⟨object, isObject, isLink⟩ := Heap.prototype?_eq_some_iff.mp inherits
        exact notPrototype object (Array.mem_of_getElem? isObject) isLink
    · cases runs
  · cases runs

end Machine

/-!
## Lengths of arrays

No array has more elements than the greatest length, as long as nothing too long goes through
the few places where nobody looks at a length: lists in the code, the arguments of a call, and
the builtin functions that give the keys of a value, the pieces of a text or the groups of a
match.  Everywhere else what would make an array too long is refused by a range error.

That nothing too long goes through is said of whole runs.  Such a run goes as it would if all
those places looked at the length and refused what is too long.
-/

namespace Run

variable {α : Type}

/-! ### Where lengths are looked at -/

/-- A run is refused for the length of an array, and nothing has changed. -/
def RefusesLength (run : Run α) (machine : Machine) : Prop :=
  run machine = .error (.raised ⟨.range .arrayLength, none⟩) machine

/-- Whatever would make an array too long is refused. -/
structure RefusesOverlong (machine : Machine) (id : Nat) : Prop where
  push : ∀ arguments,
    Storage.maxLength < machine.heap.arrayLength id + arguments.length →
    RefusesLength (arrayPush (.object .array id) arguments) machine
  unshift : ∀ arguments,
    Storage.maxLength < machine.heap.arrayLength id + arguments.length →
    RefusesLength (arrayUnshift (.object .array id) arguments) machine
  concat : ∀ arguments,
    Storage.maxLength <
      machine.heap.arrayLength id + (arguments.flatMap (spliced machine.heap)).length →
    RefusesLength (arrayConcat (.object .array id) arguments) machine
  element : ∀ call name index value,
    arrayIndex? name = some index →
    Storage.maxLength ≤ index →
    RefusesLength (write call (.object .array id) name value) machine
  length : ∀ call number,
    (∀ count, ¬Number.IsLength number count) →
    RefusesLength (write call (.object .array id) "length" (.number number)) machine
  new : ∀ number,
    (∀ count, ¬Number.IsLength number count) →
    ∃ after, arrayNew [.number number] machine =
      .error (.raised ⟨.range .arrayLength, none⟩) after

theorem refuses_checkLength
    {length : Nat}
    (tooLong : Storage.maxLength < length)
    (next : Unit → Run α)
    (machine : Machine) :
    RefusesLength (checkLength length >>= next) machine := by
  unfold RefusesLength checkLength
  rw [if_pos tooLong]
  rfl

theorem length_joined (heap : Heap) (arguments : List Value) (storage : Storage) :
    (arguments.foldl (fun storage value => storage.append (spliced heap value)) storage).length =
      storage.length + (arguments.flatMap (spliced heap)).length := by
  induction arguments generalizing storage with
  | nil => rfl
  | cons first rest inductionHypothesis =>
      rw [List.foldl_cons, inductionHypothesis, Storage.length_append, List.flatMap_cons,
        List.length_append, Nat.add_assoc]

theorem refusesOverlong (machine : Machine) (id : Nat) :
    RefusesOverlong machine id where
  push arguments tooLong := refuses_checkLength tooLong _ machine
  unshift arguments tooLong := refuses_checkLength tooLong _ machine
  concat arguments tooLong := by
    let joined := arguments.foldl (fun storage value => storage.append (spliced machine.heap value))
      (Storage.copied (machine.heap.elements id))
    have joinedTooLong : Storage.maxLength < joined.length := by
      rw [length_joined]
      exact tooLong
    have received : receivingArray "concat" (.object .array id) machine = .ok id machine := rfl
    have looked : heap machine = .ok machine.heap machine := rfl
    unfold RefusesLength arrayConcat
    rw [bind_of_ok received, bind_of_ok looked]
    exact refuses_checkLength joinedTooLong _ machine
  element call name index value isIndex tooLarge := by
    unfold RefusesLength
    rw [write_index call isIndex, if_pos tooLarge]
  length call number notLength := setLength_of_not_isLength notLength id machine
  new number notLength := by
    let array : HeapObject := ⟨some Heap.arrayPrototype, [], .array (Storage.exact #[])⟩
    let after : Machine := { machine with heap := machine.heap.push array }
    have made : makeArray (Storage.exact #[]) machine =
        .ok (.object .array machine.heap.size) after :=
      rfl
    refine ⟨after, ?_⟩
    unfold arrayNew
    dsimp only
    rw [bind_of_ok made]
    exact bind_of_error (setLength_of_not_isLength notLength machine.heap.size after)

/-! ### Where nobody looks at a length -/

/-- Nothing is too long in a call: not what comes in, not the function and not what it gives. -/
structure IsShortCall
    (call : Caller)
    (callee this : Value)
    (arguments : List Value)
    (machine : Machine) :
    Prop where
  short : arguments.length ≤ Storage.maxLength
  narrow : machine.heap.runsNarrow callee = true
  notOverlong : machine.heap.isUnchecked callee = true →
    givesOverlong (call callee this arguments machine) = false

/-- Looking at lengths makes no difference to a call in which nothing is too long. -/
theorem checked_eq
    {call : Caller}
    {callee this : Value}
    {arguments : List Value}
    (isShort : IsShortCall call callee this arguments machine) :
    checked call callee this arguments machine = call callee this arguments machine := by
  obtain ⟨short, narrow, notOverlong⟩ := isShort
  have given : (machine.heap.isUnchecked callee &&
      givesOverlong (call callee this arguments machine)) = false := by
    cases isUnchecked : machine.heap.isUnchecked callee with
    | false => rfl
    | true => exact notOverlong isUnchecked
  unfold checked
  simp [Nat.not_lt.mpr short, narrow, given]

/-- A run gives a new array of a length. -/
def GivesArray (run : Run Value) (length : Nat) (machine : Machine) : Prop :=
  ∃ after, run machine = .ok (.object .array machine.heap.size) after ∧
    after.heap.arrayLength machine.heap.size = length

theorem makeArray_gives (storage : Storage) (machine : Machine) :
    GivesArray (makeArray storage) storage.length machine :=
  ⟨_, rfl, machine.heap.arrayLength_push_array _ storage⟩

theorem keysOf_gives {value : Value} (defined : value.isUndefined = false) (machine : Machine) :
    GivesArray (keysOf value) (machine.heap.ownKeys value).length machine := by
  let keys := (machine.heap.ownKeys value).map Value.string
  obtain ⟨after, made, length⟩ := makeArray_gives (Storage.collected keys.toArray) machine
  refine ⟨after, ?_, ?_⟩
  · unfold keysOf
    rw [defined]
    exact made
  · rw [length]
    simp [keys, Storage.length, Storage.collected]

theorem length_splitByText_empty (text : List Char) :
    (splitByText text []).length = text.length := by
  cases text with
  | nil => rfl
  | cons first rest => simp [splitByText, Text.Units.split, Text.Units.chars]

/-- A text is split into its characters. -/
theorem split_gives (call : Caller) (text : String) (machine : Machine) :
    GivesArray (split call (.string text) [.string ""]) text.length machine := by
  let pieces := splitByText text.toList "".toList
  obtain ⟨after, made, length⟩ := makeArray_gives (Storage.exact pieces.toArray) machine
  refine ⟨after, made, ?_⟩
  have isEmpty : "".toList = [] := String.toList_empty
  rw [length]
  change pieces.toArray.size = text.length
  rw [List.size_toArray, ← String.length_toList]
  unfold pieces
  rw [isEmpty, length_splitByText_empty]

end Run

namespace Machine

/--
Runs that pass the checks keep every array within the greatest length, whatever data the host
has put in the realm, as long as none of that is too long itself.  What would make an array
too long is refused wherever somebody looks at its length, and the checks make no difference
to a call in which nothing is too long.  But the keys of a value and the characters of a text
become an array of any length.
-/
theorem array_lengths_bounded_unless_unchecked
    {settings : Settings}
    {first machine : Machine}
    (isRealm : settings.realm = .ok first)
    (bounded : first.heap.Bounded)
    (leads : Leads Code.PassesChecks first machine) :
    machine.heap.Bounded ∧
      (∀ id, Run.RefusesOverlong machine id) ∧
      (∀ call callee this arguments, Run.IsShortCall call callee this arguments machine →
        Run.checked call callee this arguments machine = call callee this arguments machine) ∧
      (∀ value, value.isUndefined = false →
        Run.GivesArray (Run.keysOf value) (machine.heap.ownKeys value).length machine) ∧
      ∀ call text,
        Run.GivesArray (Run.split call (.string text) [.string ""]) text.length machine := by
  have orderly : first.Orderly true := by
    obtain ⟨heap, scopes⟩ := Settings.orderly_of_realm isRealm
    exact ⟨⟨heap.tidy, fun _ => bounded⟩, scopes⟩
  have limited := leads.orderly_of_passesChecks orderly
  refine ⟨limited.heap.bounded rfl, Run.refusesOverlong machine, ?_, ?_, ?_⟩
  · exact fun call callee this arguments isShort => Run.checked_eq isShort
  · exact fun value defined => Run.keysOf_gives defined machine
  · exact fun call text => Run.split_gives call text machine

/-- Code that makes an array with another one in it and lets the first one grow. -/
def growingArray : Code where
  routines := []
  main :=
    [.declare [.mk "a" (some (.array [.constant (.boolean true), .array []]))],
      .evaluate (.assign (.property (.read (.variable "a") default) (.fixed "4"))
        (.constant (.boolean false)) default)]

/-- Nothing is called to write an element. -/
theorem write_congr_of_ne_length
    (call other : Caller)
    (notLength : name ≠ "length")
    (target value : Value) :
    Run.write call target name value = Run.write other target name value := by
  cases target with
  | object kind id =>
      cases kind with
      | array =>
          unfold Run.write
          dsimp only
          rw [if_neg notLength, if_neg notLength]
      | plain | closure | builtin | pattern => rfl
  | undefined | number _ | string _ | boolean _ => rfl

theorem growingArray_passesChecks (machine : Machine) :
    Code.PassesChecks growingArray 0 machine where
  narrow := by decide
  same := by
    have writes (target value : Value) :=
      write_congr_of_ne_length (Run.callUpTo Run.unlimited) (Run.callChecked Run.unlimited)
        (by decide : "4" ≠ "length") target value
    simp only [Code.runIn, Code.runWithin, Code.runChecked, growingArray, Code.runMain,
      Action.run, Binding.declareAll, Term.eval, Term.evalAll, Place.eval, Key.eval, pure_bind,
      bind_assoc, Run.writeReference, writes]

theorem array_lengths_bounded_after_growth :
    ∃ machine : Machine,
      Leads Code.PassesChecks (.realm 10000) machine ∧
        (∃ id, machine.heap.arrayLength id = 5 ∧ Run.RefusesOverlong machine id) ∧
        machine.heap.Bounded ∧
        Run.GivesArray (Run.keysOf (.string "abc")) 3 machine ∧
        Run.GivesArray (Run.split Run.call (.string "abc") [.string ""]) 3 machine := by
  have grows :
      (match growingArray.runIn 0 (.realm 10000) with
        | .ok _ machine => machine.heap.arrayLength (machine.heap.size - 1) == 5
        | .error _ _ => false) = true := by
    decide +kernel
  have isRealm : Settings.realm {} = .ok (Machine.realm 10000) := rfl
  have bounded : (Machine.realm 10000).heap.Bounded := (orderly_realm 10000).heap.bounded rfl
  have started : Leads Code.PassesChecks (.realm 10000) (.realm 10000) := .first
  have leads := Leads.run growingArray 0 started (growingArray_passesChecks _)
  obtain ⟨within, refuses, -, keys, pieces⟩ :=
    array_lengths_bounded_unless_unchecked isRealm bounded leads
  split at grows
  · rename_i result machine ran
    rw [ran] at leads within refuses keys pieces
    refine ⟨machine, leads, ⟨_, eq_of_beq grows, refuses _⟩, within, ?_, ?_⟩
    · exact keys (.string "abc") rfl
    · exact pieces Run.call "abc"
  · cases grows

end Machine

/-!
## An array and its own length

To give an array the length it has changes nothing, as long as the array is shorter than the
greatest length.  The setter of the length leaves the greatest length itself out, though, and
the writing of an element does not: a write to the last index there is makes an array that is
refused the length it has.
-/

namespace Storage

/-- The elements fit in their block, so nothing moves. -/
theorem resize_length (storage : Storage) : storage.resize storage.length = storage := by
  obtain ⟨elements, capacity, trail, fits⟩ := storage
  have within : elements.size ≤ capacity := fits
  unfold resize
  rw [if_neg (Nat.lt_irrefl _)]
  simp [pad, length, within]

end Storage

namespace Heap

theorem modifyStorage_of_same
    {heap : Heap}
    {id : Nat}
    {change : Storage → Storage}
    (same : change (heap.storage id) = heap.storage id) :
    heap.modifyStorage id change = heap := by
  apply Array.ext_getElem?
  intro place
  unfold modifyStorage
  rw [Array.getElem?_modify]
  by_cases isPlace : id = place
  · subst isPlace
    rw [if_pos rfl]
    cases isObject : heap[id]? with
    | none => rfl
    | some object =>
        obtain ⟨prototype, properties, body⟩ := object
        unfold storage Heap.body at same
        rw [isObject] at same
        cases body with
        | array storage =>
            have same : change storage = storage := same
            simp only [Option.map_some, same]
        | plain | closure _ _ | builtin _ | pattern _ => rfl
  · rw [if_neg isPlace]

end Heap

namespace Run

theorem locate_of_ok
    {α : Type}
    {run : Run α}
    {machine after : Machine}
    {value : α}
    (position : Position)
    (ran : run machine = .ok value after) :
    locate position run machine = .ok value after := by
  unfold locate
  rw [ran]

/-- Read the length of an array and give it to the array. -/
def assignOwnLength (call : Caller) (id : Nat) : Run Unit := do
  let length ← read (.object .array id) "length"
  write call (.object .array id) "length" length

theorem assignOwnLength_eq_setLength (call : Caller) (id : Nat) (machine : Machine) :
    assignOwnLength call id machine =
      setLength id (Number.ofNat (machine.heap.arrayLength id)) machine :=
  rfl

theorem assignOwnLength_of_below
    {id : Nat}
    (below : machine.heap.arrayLength id < Storage.maxLength)
    (call : Caller) :
    assignOwnLength call id machine = .ok () machine := by
  have fits : machine.heap.arrayLength id < 2 ^ 53 := Nat.lt_trans below (by decide)
  have isLength : Number.IsLength (Number.ofNat (machine.heap.arrayLength id))
      (machine.heap.arrayLength id) :=
    ⟨below, (Number.ofNat_beq_ofNat_iff fits).mpr rfl⟩
  have same : machine.heap.modifyStorage id (·.resize (machine.heap.arrayLength id)) =
      machine.heap :=
    Heap.modifyStorage_of_same (Storage.resize_length _)
  rw [assignOwnLength_eq_setLength, setLength_of_isLength isLength, same]

/-- No double of a length that is not below the greatest one is equal to a smaller length. -/
theorem refuses_assignOwnLength
    {id : Nat}
    (notBelow : Storage.maxLength ≤ machine.heap.arrayLength id)
    (call : Caller) :
    RefusesLength (assignOwnLength call id) machine := by
  unfold RefusesLength
  rw [assignOwnLength_eq_setLength]
  refine setLength_of_not_isLength ?_ id machine
  rintro count ⟨small, equal⟩
  have fits : count < 2 ^ 53 := Nat.lt_trans small (by decide)
  have isCount := (Number.ofNat_beq_ofNat_iff fits).mp equal
  omega

end Run

namespace Machine

/-- Code that writes an element of an array at the last index there is. -/
def lastElement (name : String) : Code where
  routines := []
  main :=
    [.evaluate (.assign
      (.property (.read (.variable name) default) (.fixed (indexKey (Storage.maxLength - 1))))
      (.constant (.boolean true)) default)]

theorem runIn_lastElement
    {id scope : Nat}
    (bound : machine.scopes.lookup? scope name = some (.object .array id)) :
    (lastElement name).runIn scope machine =
      .ok (.boolean true)
        { machine with
          heap := machine.heap.modifyStorage id
            (·.put (Storage.maxLength - 1) (.boolean true)) } := by
  have isIndex : arrayIndex? (indexKey (Storage.maxLength - 1)) = some (Storage.maxLength - 1) :=
    arrayIndex?_indexKey (by decide)
  have looked : Run.readReference scope (.variable name) machine =
      .ok (.object .array id) machine := by
    rw [Scopes.readReference_variable, bound]
  have wrote (call : Caller) := Run.write_index call isIndex id (.boolean true) machine
  rw [if_neg (by decide)] at wrote
  have assigned (call : Caller) :
      Run.locate default (do
        let base ← Run.locate default (Run.readReference scope (.variable name))
        Run.write call base (indexKey (Storage.maxLength - 1)) (.boolean true)
        pure (Value.boolean true)) machine =
      .ok (.boolean true)
        { machine with
          heap := machine.heap.modifyStorage id
            (·.put (Storage.maxLength - 1) (.boolean true)) } := by
    refine Run.locate_of_ok default ?_
    rw [Run.bind_of_ok (Run.locate_of_ok default looked), Run.bind_of_ok (wrote call)]
    rfl
  simp only [lastElement, Code.runIn, Code.runWithin, Code.runMain, Action.run, Term.eval,
    Place.eval, Key.eval, Run.writeReference, pure_bind, bind_assoc]
  exact Run.bind_of_ok (assigned _)

/-- A variable that holds an array gets it to the greatest length in one run. -/
theorem arrayLength_after_lastElement
    {id scope : Nat}
    (isArray : machine.heap.Has .array id)
    (bound : machine.scopes.lookup? scope name = some (.object .array id))
    (within : machine.heap.arrayLength id ≤ Storage.maxLength) :
    (Run.after ((lastElement name).runIn scope machine)).heap.arrayLength id =
      Storage.maxLength := by
  obtain ⟨storage, isStorage⟩ := isArray.holds
  rw [runIn_lastElement bound]
  change (machine.heap.modifyStorage id _).arrayLength id = _
  unfold Heap.arrayLength at within ⊢
  rw [Heap.storage_modifyStorage isStorage, Storage.length_put]
  have positive : 0 < Storage.maxLength := by decide
  omega

/--
On every machine that runs lead to, giving an array its own length succeeds and changes nothing
as long as the array is shorter than the greatest length, and is refused from there on.  An
array that is not too long and that a variable holds gets to where it is refused in one more
run, which writes an element at the last index.
-/
theorem own_length_refused_at_greatest
    {settings : Settings}
    {first machine : Machine}
    (isRealm : settings.realm = .ok first)
    (leads : Leads (fun _ _ _ => True) first machine)
    (call : Caller)
    (id : Nat) :
    (machine.heap.arrayLength id < Storage.maxLength ↔
        Run.assignOwnLength call id machine = .ok () machine) ∧
      (Storage.maxLength ≤ machine.heap.arrayLength id ↔
        Run.RefusesLength (Run.assignOwnLength call id) machine) ∧
      ∀ scope name,
        machine.scopes.lookup? scope name = some (.object .array id) →
        machine.heap.arrayLength id ≤ Storage.maxLength →
        ∃ filled,
          Leads (fun _ _ _ => True) first filled ∧
            filled.heap.arrayLength id = Storage.maxLength ∧
            Run.RefusesLength (Run.assignOwnLength call id) filled := by
  refine ⟨⟨fun below => Run.assignOwnLength_of_below below call, fun kept => ?_⟩,
    ⟨fun notBelow => Run.refuses_assignOwnLength notBelow call, fun refused => ?_⟩, ?_⟩
  · by_contra notBelow
    have refused := Run.refuses_assignOwnLength (Nat.le_of_not_lt notBelow) call
    unfold Run.RefusesLength at refused
    rw [kept] at refused
    cases refused
  · by_contra below
    have kept := Run.assignOwnLength_of_below (Nat.lt_of_not_le below) call
    unfold Run.RefusesLength at refused
    rw [kept] at refused
    cases refused
  · intro scope name bound within
    have orderly : machine.Orderly false :=
      leads.orderly (Settings.orderly_of_realm isRealm)
    have isArray : machine.heap.Has .array id := by
      rcases orderly.scopes.of_lookup? bound with isArray | ⟨isPlain, -⟩
      · exact isArray
      · cases isPlain
    have isGreatest := arrayLength_after_lastElement isArray bound within
    exact ⟨_, .run (lastElement name) scope leads trivial, isGreatest,
      Run.refuses_assignOwnLength (Nat.le_of_eq isGreatest.symm) call⟩

/-- A script that leaves an array of one element in a variable. -/
def singleElement : Source := .ofEval "var a = [1]"

/-- Whether the script leaves its array in the variable. -/
def leavesSingleElement (realm : Machine) : Bool :=
  match Code.compile true singleElement with
  | .ok code =>
      let machine := Run.after (code.runIn 0 realm)
      match machine.scopes.lookup? 0 "a" with
      | some (.object .array id) => machine.heap.arrayLength id == 1
      | _ => false
  | .error _ => false

theorem own_length_of_single_element_filled :
    ∃ (machine filled : Machine) (id : Nat),
      Leads (fun _ _ _ => True) (.realm 10000) machine ∧
        machine.heap.arrayLength id = 1 ∧
        Run.assignOwnLength Run.call id machine = .ok () machine ∧
        Leads (fun _ _ _ => True) (.realm 10000) filled ∧
        filled.heap.arrayLength id = 16777216 ∧
        Run.RefusesLength (Run.assignOwnLength Run.call id) filled := by
  have runs : leavesSingleElement (.realm 10000) = true := by
    decide +kernel
  unfold leavesSingleElement at runs
  split at runs
  · rename_i code _
    dsimp only at runs
    split at runs
    · rename_i id bound
      have single := eq_of_beq runs
      have isRealm : Settings.realm {} = .ok (Machine.realm 10000) := rfl
      have started : Leads (fun _ _ _ => True) (.realm 10000) (.realm 10000) := .first
      have leads := Leads.run code 0 started trivial
      obtain ⟨kept, -, fills⟩ := own_length_refused_at_greatest isRealm leads Run.call id
      have below : 1 < Storage.maxLength := by decide
      obtain ⟨filled, leadsFurther, isGreatest, refused⟩ := fills 0 "a" bound (by omega)
      exact ⟨_, filled, id, leads, single, kept.mp (by omega), leadsFurther, isGreatest, refused⟩
    · cases runs
  · cases runs

end Machine

end ScriptEngine
