import ScriptEngine.Proofs.Machine.DefaultText
import ScriptEngine.Proofs.Machine.PrototypeLinks
import ScriptEngine.Proofs.Session.Reachable

namespace ScriptEngine

/-!
# Texts by methods and by default

The text of an object can be had in two ways.  The default conversion goes through the elements
of arrays itself and asks nobody.  The full one looks for a method `toString` along the
prototypes and calls it; the method of arrays joins the elements, and for each of them the full
conversion starts again.

On prototypes that are as the library leaves them the two agree, unless some other object in the
way has a method of its own.  An array, a function and a regular expression then find the method
of their kind; a plain object finds one that gives the default text or refuses it, or none at all,
and is left to the default conversion.  What the joining does to the heap is not seen by either.
-/

variable {prototype : Nat} {builtin : Builtin} {name : String}

/-!
## Readings of arrays

Whoever joins the elements of an array has it watched meanwhile, and an array that is watched
keeps the blocks it leaves.  Nothing else of the heap tells whether somebody is reading: what is
looked up, the elements and the names of functions are the same on the settled heap, where all
readings are over.
-/

/-- Storage as it is when nobody reads it. -/
def Storage.settled (storage : Storage) : Storage :=
  { storage with trail := ⟨storage.trail.moves, 0, []⟩ }

theorem Storage.settled_watch (storage : Storage) : storage.watch.settled = storage.settled :=
  rfl

theorem Storage.settled_unwatch (storage : Storage) :
    storage.unwatch.settled = storage.settled := by
  unfold unwatch Trail.unwatch
  split <;> rfl

@[inherit_doc Storage.settled]
def ObjectBody.settled : ObjectBody → ObjectBody
  | .array storage => .array storage.settled
  | body => body

@[inherit_doc Storage.settled]
def HeapObject.settled (object : HeapObject) : HeapObject :=
  { object with body := object.body.settled }

namespace Heap

/-- The heap as it is when nobody reads an array. -/
def settled (heap : Heap) : Heap := heap.map HeapObject.settled

variable {heap other : Heap} {id : Nat}

theorem getElem?_settled (heap : Heap) (id : Nat) :
    heap.settled[id]? = heap[id]?.map HeapObject.settled :=
  Array.getElem?_map

theorem getOwn?_settled (heap : Heap) (id : Nat) (name : String) :
    heap.settled.getOwn? id name = heap.getOwn? id name := by
  unfold getOwn? properties
  rw [getElem?_settled]
  cases heap[id]? <;> rfl

theorem prototype?_settled (heap : Heap) (id : Nat) :
    heap.settled.prototype? id = heap.prototype? id := by
  unfold prototype?
  rw [getElem?_settled]
  cases heap[id]? <;> rfl

theorem body_settled (heap : Heap) (id : Nat) : heap.settled.body id = (heap.body id).settled := by
  unfold body
  rw [getElem?_settled]
  cases heap[id]? <;> rfl

theorem storage_settled (heap : Heap) (id : Nat) :
    heap.settled.storage id = (heap.storage id).settled := by
  unfold storage
  rw [body_settled]
  cases heap.body id <;> rfl

theorem lookupFrom_settled (heap : Heap) (name : String) (budget id : Nat) :
    heap.settled.lookupFrom name budget id = heap.lookupFrom name budget id := by
  induction budget generalizing id with
  | zero => rfl
  | succ budget inductionHypothesis =>
      rw [lookupFrom_succ, lookupFrom_succ, getOwn?_settled, prototype?_settled,
        funext inductionHypothesis]

theorem lookup?_settled (heap : Heap) (id : Nat) (name : String) :
    heap.settled.lookup? id name = heap.lookup? id name := by
  unfold lookup?
  rw [lookupFrom_settled, show heap.settled.size = heap.size from Array.size_map]

theorem functionName_settled (heap : Heap) (value : Value) :
    heap.settled.functionName value = heap.functionName value := by
  cases value with
  | object kind id =>
      cases kind with
      | closure | builtin =>
          unfold functionName
          dsimp only
          rw [body_settled]
          cases heap.body id <;> rfl
      | plain | array | pattern => rfl
  | undefined | number | string | boolean => rfl

theorem pattern?_settled (heap : Heap) (id : Nat) :
    heap.settled.pattern? id = heap.pattern? id := by
  unfold pattern?
  rw [body_settled]
  cases heap.body id <;> rfl

/-- Beginning or ending a reading does not show when nobody reads. -/
theorem settled_modifyStorage
    (heap : Heap)
    (id : Nat)
    {change : Storage → Storage}
    (keeps : ∀ storage, (change storage).settled = storage.settled) :
    (heap.modifyStorage id change).settled = heap.settled := by
  refine Array.ext_getElem? fun place => ?_
  rw [getElem?_settled, getElem?_settled, modifyStorage, Array.getElem?_modify]
  split
  · cases heap[place]? with
    | none => rfl
    | some object =>
        obtain ⟨prototype, properties, body⟩ := object
        cases body with
        | array storage =>
            change some (HeapObject.mk prototype properties (.array (change storage).settled)) = _
            rw [keeps]
            rfl
        | plain | closure | builtin | pattern => rfl
  · rfl

/-- Two heaps differ at most in the readings of arrays that go on. -/
def SameButReadings (heap other : Heap) : Prop := heap.settled = other.settled

namespace SameButReadings

section

variable (same : heap.SameButReadings other)

include same

theorem lookup? (id : Nat) (name : String) :
    heap.lookup? id name = other.lookup? id name := by
  rw [← lookup?_settled, same, lookup?_settled]

/-- What is no array is the same. -/
theorem body (notArray : (other.body id).kind ≠ .array) :
    heap.body id = other.body id := by
  have sameSettled : (heap.body id).settled = (other.body id).settled := by
    rw [← body_settled, same, body_settled]
  revert sameSettled notArray
  cases other.body id <;> cases heap.body id <;> simp [ObjectBody.settled, ObjectBody.kind]

theorem storage (id : Nat) :
    (heap.storage id).settled = (other.storage id).settled := by
  rw [← storage_settled, same, storage_settled]

theorem elements (id : Nat) :
    heap.elements id = other.elements id := by
  have sameElements := congrArg Storage.elements (same.storage id)
  exact sameElements

theorem moves (id : Nat) :
    (heap.storage id).trail.moves = (other.storage id).trail.moves := by
  have sameMoves := congrArg (·.trail.moves) (same.storage id)
  exact sameMoves

/-- A reading that begins now finds the elements in its block. -/
theorem block (id : Nat) :
    (heap.storage id).block (other.storage id).trail.moves = other.elements id := by
  unfold Storage.block
  rw [if_pos (same.moves id)]
  exact same.elements id

theorem functionName (value : Value) :
    heap.functionName value = other.functionName value := by
  rw [← functionName_settled, same, functionName_settled]

theorem pattern? (id : Nat) :
    heap.pattern? id = other.pattern? id := by
  rw [← pattern?_settled, same, pattern?_settled]

theorem modifyStorage
    (id : Nat)
    {change : Storage → Storage}
    (keeps : ∀ storage, (change storage).settled = storage.settled) :
    (heap.modifyStorage id change).SameButReadings other :=
  (settled_modifyStorage heap id keeps).trans same

end

end SameButReadings

end Heap

/-! ## Methods of the library -/

/-- The functions under the name of a method for the text. -/
theorem Builtin.mem_textMethods (named : builtin.name = "toString") :
    builtin ∈ [objectToString, functionToString, arrayToString, stringToString, numberToString,
      booleanToString, patternToString] := by
  revert named
  cases builtin <;> decide

/-- The method of a name that the library installs on a prototype, if any. -/
def LibraryPart.method? (prototype : Nat) (name : String) : Option Builtin :=
  standard.findSome? fun part =>
    match part.provision with
    | .type place _ methods _ =>
        if place = prototype then methods.find? (·.name = name) else none
    | _ => none

theorem LibraryPart.name_of_method?
    (isMethod : method? prototype name = some builtin) :
    builtin.name = name := by
  obtain ⟨part, -, found⟩ := List.exists_of_findSome?_eq_some isMethod
  split at found
  · split at found
    · simpa using List.find?_some found
    · cases found
  · cases found

theorem LibraryPart.le_of_method?
    (isMethod : method? prototype name = some builtin) :
    prototype ≤ Heap.patternPrototype := by
  obtain ⟨part, member, found⟩ := List.exists_of_findSome?_eq_some isMethod
  have simple := standard_isSimple part member
  unfold isSimple at simple
  split at found
  · rename_i isType
    rw [isType] at simple
    split at found
    · rename_i same
      subst same
      exact of_decide_eq_true (Bool.and_eq_true_iff.mp simple).1
    · cases found
  · cases found

/-- Every prototype of the library has a method for its text. -/
theorem LibraryPart.exists_textMethod
    (isPrototype : prototype ≤ Heap.patternPrototype) :
    ∃ builtin, method? prototype "toString" = some builtin := by
  have all : ∀ prototype ≤ Heap.patternPrototype, (method? prototype "toString").isSome := by
    decide
  exact Option.isSome_iff_exists.mp (all prototype isPrototype)

namespace Heap

variable {heap : Heap} {id : Nat} {value : Value}

/-- The builtin function that an object owns under a name, if any. -/
def ownBuiltin? (heap : Heap) (id : Nat) (name : String) : Option Builtin :=
  match heap.getOwn? id name with
  | some (.object .builtin method) =>
      match heap.body method with
      | .builtin builtin => some builtin
      | _ => none
  | _ => none

/-- The prototypes own the methods of a name that the library installed on them. -/
def KeepsMethods (heap : Heap) (name : String) : Prop :=
  ∀ prototype builtin, LibraryPart.method? prototype name = some builtin →
    heap.ownBuiltin? prototype name = some builtin

/-- A lookup finds a builtin function. -/
def FindsBuiltin (heap : Heap) (id : Nat) (name : String) (builtin : Builtin) : Prop :=
  ∃ method, heap.lookup? id name = some (.object .builtin method) ∧
    heap.body method = .builtin builtin

theorem ownBuiltin?_eq_some_iff :
    heap.ownBuiltin? id name = some builtin ↔
      ∃ method, heap.getOwn? id name = some (.object .builtin method) ∧
        heap.body method = .builtin builtin := by
  unfold ownBuiltin?
  constructor
  · intro isBuiltin
    split at isBuiltin
    · rename_i method isOwn
      split at isBuiltin
      · rename_i isBody
        cases isBuiltin
        exact ⟨method, isOwn, isBody⟩
      · cases isBuiltin
    · cases isBuiltin
  · rintro ⟨method, isOwn, isBody⟩
    rw [isOwn]
    dsimp only
    rw [isBody]

/-! ## Values without methods of their own -/

/-- One value is an element of another. -/
def HoldsElement (heap : Heap) (outer inner : Value) : Prop :=
  ∃ id, outer = .object .array id ∧ inner ∈ (heap.elements id).toList

/-- Besides the prototypes of the library, no object on the chain of an object owns a name. -/
def LeavesAlone (heap : Heap) (name : String) (id : Nat) : Prop :=
  ∀ owner, Relation.ReflTransGen heap.Link id owner → patternPrototype < owner →
    heap.getOwn? owner name = none

/-- No object that a value leads to by way of elements has methods of conversion of its own, or
inherits them from others than the prototypes of the library. -/
def Undisturbed (heap : Heap) (value : Value) : Prop :=
  ∀ kind id, Relation.ReflTransGen heap.HoldsElement value (.object kind id) →
    ∀ name ∈ ["toString", "valueOf"], heap.LeavesAlone name id

theorem LeavesAlone.le_of_own
    (alone : heap.LeavesAlone name id)
    {owner : Nat}
    (reaches : Relation.ReflTransGen heap.Link id owner)
    (isOwn : heap.getOwn? owner name = some value) :
    owner ≤ patternPrototype := by
  by_contra isOther
  rw [alone owner reaches (Nat.lt_of_not_le isOther)] at isOwn
  cases isOwn

theorem Undisturbed.element
    (undisturbed : heap.Undisturbed (.object .array id))
    (member : value ∈ heap.elements id) :
    heap.Undisturbed value :=
  fun kind inner leads =>
    undisturbed kind inner (.head ⟨id, rfl, Array.mem_toList_iff.mpr member⟩ leads)

theorem KeepsMethods.exists_own
    (keeps : heap.KeepsMethods "toString")
    (isPrototype : prototype ≤ patternPrototype) :
    ∃ builtin method, builtin.name = "toString" ∧
      heap.getOwn? prototype "toString" = some (.object .builtin method) ∧
        heap.body method = .builtin builtin := by
  obtain ⟨builtin, isMethod⟩ := LibraryPart.exists_textMethod isPrototype
  obtain ⟨method, isOwn, isBody⟩ := ownBuiltin?_eq_some_iff.mp (keeps prototype builtin isMethod)
  exact ⟨builtin, method, LibraryPart.name_of_method? isMethod, isOwn, isBody⟩

/-- A method for the text that is found is one of the library. -/
theorem KeepsMethods.finds
    (keeps : heap.KeepsMethods "toString")
    (alone : heap.LeavesAlone "toString" id)
    (found : heap.lookup? id "toString" = some value) :
    ∃ builtin, builtin.name = "toString" ∧ heap.FindsBuiltin id "toString" builtin := by
  obtain ⟨owner, reaches, isOwn⟩ := exists_owner_of_lookup? found
  obtain ⟨builtin, method, named, isMethod, isBody⟩ :=
    keeps.exists_own (alone.le_of_own reaches isOwn)
  obtain rfl : Value.object .builtin method = value := Option.some.inj (isMethod.symm.trans isOwn)
  exact ⟨builtin, named, method, found, isBody⟩

/-- Without a method for the text there is no other method of conversion. -/
theorem KeepsMethods.lacks
    (keeps : heap.KeepsMethods "toString")
    (alone : heap.LeavesAlone "valueOf" id)
    (notFound : heap.lookup? id "toString" = none) :
    Run.LacksConversions heap id := by
  intro name known method found
  rcases List.mem_pair.mp known with rfl | rfl
  · obtain ⟨owner, reaches, isOwn, notOwn⟩ := exists_owner_of_missing notFound found
    obtain ⟨_, _, _, isMethod, _⟩ := keeps.exists_own (alone.le_of_own reaches isOwn)
    rw [notOwn] at isMethod
    cases isMethod
  · rw [notFound] at found
    cases found

/-- What is no plain object finds the method of the prototype of its kind. -/
theorem KeepsMethods.finds_native
    (keeps : heap.KeepsMethods "toString")
    (tidy : heap.Tidy)
    {kind : ObjectKind}
    (has : heap.Has kind id)
    (alone : heap.LeavesAlone "toString" id)
    {native : Nat}
    (isNative : kind.prototype? = some native)
    (isMethod : LibraryPart.method? native "toString" = some builtin) :
    heap.FindsBuiltin id "toString" builtin := by
  obtain ⟨object, isObject, rfl⟩ := has
  have isOther : patternPrototype < id := by
    by_contra notOther
    have isPlain := tidy.prototypes id (Nat.le_of_not_lt notOther)
    rw [Has.unique isPlain ⟨object, isObject, rfl⟩] at isNative
    cases isNative
  have isPrototype : heap.prototype? id = some native := by
    unfold prototype?
    rw [isObject]
    exact tidy.natives id object isObject native isNative
  obtain ⟨method, isOwn, isBody⟩ := ownBuiltin?_eq_some_iff.mp (keeps native builtin isMethod)
  refine ⟨method, ?_, isBody⟩
  rw [lookup?_eq, alone id .refl isOther, Option.none_or, isPrototype, Option.bind_some,
    lookup?_eq, isOwn, Option.some_or]

/-! ## Heaps that are the same but for readings -/

variable {other : Heap} {text : String}

theorem SameButReadings.findsBuiltin
    (same : heap.SameButReadings other)
    (finds : other.FindsBuiltin id name builtin) :
    heap.FindsBuiltin id name builtin := by
  obtain ⟨method, found, isBuiltin⟩ := finds
  refine ⟨method, (same.lookup? id name).trans found, ?_⟩
  rw [same.body (by rw [isBuiltin]; nofun), isBuiltin]

/-- The default text of what is no array does not show that arrays are read. -/
theorem SameButReadings.textWithin_of_text?
    (same : heap.SameButReadings other)
    (notArray : value.isArray = false)
    (isText : heap.text? value = some text)
    (budget : Nat) :
    other.textWithin budget value = some text := by
  rw [← isText, Heap.text?, textWithin_of_not_array notArray _ budget]
  cases value with
  | object kind id =>
      cases kind with
      | array => cases notArray
      | plain | closure | builtin | pattern =>
          simp only [textWithin, same.functionName, same.pattern?]
  | undefined | number | string | boolean => simp only [textWithin]

end Heap

namespace Run

variable {machine after : Machine} {id : Nat} {result : Value} {call : Caller}

/-- The methods for a text give a plain object the same one, or none. -/
theorem run_textMethod_plain
    (named : builtin.name = "toString")
    (ran : builtin.run call (.object .plain id) [] machine = .ok result after) :
    result = .string "[object Object]" ∧ after = machine := by
  have isMethod := Builtin.mem_textMethods named
  simp only [List.mem_cons, List.not_mem_nil, or_false] at isMethod
  rcases isMethod with rfl | rfl | rfl | rfl | rfl | rfl | rfl
  · cases ran
    exact ⟨rfl, rfl⟩
  all_goals cases ran

/-- A method that is found is called, and what it gives is the text if it is a primitive value. -/
theorem exists_run_of_toText
    {patience : Nat}
    {kind : ObjectKind}
    {text : String}
    (finds : machine.heap.FindsBuiltin id "toString" builtin)
    (converted : toText (callUpTo patience) (.object kind id) machine = .ok text after) :
    ∃ less result inner, patience = less + 1 ∧
      builtin.run (callUpTo less) (.object kind id) [] machine.entered = .ok result inner ∧
      (result.isPrimitive = true → text = result.primitiveText ∧ after.heap = inner.heap) := by
  obtain ⟨method, found, isBuiltin⟩ := finds
  obtain ⟨primitive, last, tried, isText⟩ := ok_of_bind converted
  cases isText
  change tryMethods _ _ id false ["toString", "valueOf"] machine = _ at tried
  rw [tryMethods, heap_bind, found] at tried
  obtain ⟨result, left, called, rest⟩ := ok_of_bind tried
  cases patience with
  | zero => cases called
  | succ less =>
      have isWork : work? machine.heap (callUpTo less) less (.object .builtin method)
          (.object kind id) [] = some (builtin.run (callUpTo less) (.object kind id) []) := by
        unfold work?
        dsimp only
        rw [isBuiltin]
      obtain ⟨inner, ran, isLeft⟩ := (callUpTo_enters isWork).of_ok called
      refine ⟨less, result, inner, rfl, ran, fun isPrimitive => ?_⟩
      rw [if_pos isPrimitive] at rest
      cases rest
      exact ⟨rfl, by rw [isLeft]⟩

/-- The method of functions gives their default text. -/
theorem run_functionToString
    {kind : ObjectKind}
    (ran : Builtin.run call (.object kind id) [] .functionToString machine = .ok result after) :
    ∃ text, result = .string text ∧ machine.heap.text? (.object kind id) = some text ∧
      after = machine := by
  change functionToText _ machine = _ at ran
  unfold functionToText at ran
  split at ran
  · cases ran
  · obtain ⟨text, middle, isText, isResult⟩ := ok_of_bind ran
    rw [defaultText_eq] at isText
    split at isText
    · rename_i found
      cases isText
      cases isResult
      exact ⟨text, rfl, found, rfl⟩
    · cases isText

/-- The method of regular expressions gives their default text. -/
theorem run_patternToString
    (ran : Builtin.run call (.object .pattern id) [] .patternToString machine = .ok result after) :
    ∃ text, result = .string text ∧ machine.heap.text? (.object .pattern id) = some text ∧
      after = machine := by
  change patternToText _ machine = _ at ran
  obtain ⟨⟨_, pattern⟩, middle, received, isResult⟩ := ok_of_bind ran
  unfold receivingPattern at received
  dsimp only at received
  rw [heap_bind] at received
  cases found : machine.heap.pattern? id with
  | none =>
      rw [found] at received
      cases received
  | some other =>
      rw [found] at received
      cases received
      cases isResult
      refine ⟨pattern.text, rfl, ?_, rfl⟩
      rw [Heap.text?, Heap.textWithin, found]
      rfl

/-! ## Agreement -/

/-- Where the conversion of a value by its methods ends, it gives the default text on a heap that
is the same but for readings, and leaves it so. -/
def AgreesWith (base : Heap) (budget : Nat) (call : Caller) (value : Value) : Prop :=
  ∀ machine text after, machine.heap.SameButReadings base →
    toText call value machine = .ok text after →
    base.textWithin budget value = some text ∧ after.heap.SameButReadings base

variable {base : Heap} {budget : Nat}

section

variable (agrees : ∀ element ∈ base.elements id, AgreesWith base budget call element)
  (same : machine.heap.SameButReadings base)

include agrees same

/-- Joining the elements one by one gives their default texts if the conversions of them do. -/
theorem joinParts_agrees
    {remaining index : Nat}
    {parts : List String}
    (isRest : index + remaining = (base.elements id).size)
    (joined : joinParts call id (base.storage id).trail.moves remaining index machine =
      .ok parts after) :
    ((base.elements id).toList.drop index).mapM (base.elementText budget) = some parts ∧
      after.heap.SameButReadings base := by
  induction remaining generalizing index parts machine with
  | zero =>
      cases joined
      have isEnd : (base.elements id).toList.length ≤ index := Nat.le_of_eq isRest.symm
      rw [List.drop_eq_nil_of_le isEnd]
      exact ⟨rfl, same⟩
  | succ remaining inductionHypothesis =>
      have inside : index < (base.elements id).size := by omega
      have isElement : ((machine.heap.storage id).block (base.storage id).trail.moves)[index]?.getD
          .undefined = (base.elements id)[index] := by
        rw [same.block, Array.getElem?_eq_getElem inside]
        rfl
      rw [joinParts, heap_bind, isElement] at joined
      obtain ⟨part, middle, isText, sameMiddle, later⟩ : ∃ part middle,
          base.elementText budget (base.elements id)[index] = some part ∧
          middle.heap.SameButReadings base ∧
          (joinParts call id (base.storage id).trail.moves remaining (index + 1) >>=
            fun others => pure (part :: others)) middle = .ok parts after := by
        have elementAgrees := agrees _ (Array.getElem_mem inside)
        revert joined elementAgrees
        cases (base.elements id)[index] with
        | undefined => exact fun joined _ => ⟨"", machine, rfl, same, joined⟩
        | number | string | boolean | object =>
            intro joined elementAgrees
            obtain ⟨part, middle, isPart, later⟩ := ok_of_bind joined
            obtain ⟨isText, sameMiddle⟩ := elementAgrees machine part middle same isPart
            exact ⟨part, middle, isText, sameMiddle, later⟩
      obtain ⟨others, last, areOthers, isAll⟩ := ok_of_bind later
      cases isAll
      obtain ⟨areTexts, sameAfter⟩ := inductionHypothesis sameMiddle (by omega) areOthers
      have isAt : (base.elements id).toList.drop index =
          (base.elements id)[index] :: (base.elements id).toList.drop (index + 1) :=
        List.drop_eq_getElem_cons inside
      rw [isAt, List.mapM_cons, isText, areTexts]
      exact ⟨rfl, sameAfter⟩

/-- The method of arrays gives the default text of an array if the conversions of its elements
give theirs. -/
theorem run_arrayToString_agrees
    (ran : Builtin.run call (.object .array id) [] .arrayToString machine = .ok result after) :
    ∃ text, result = .string text ∧
      base.textWithin (budget + 1) (.object .array id) = some text ∧
      after.heap.SameButReadings base := by
  let watched : Machine := { machine with heap := machine.heap.modifyStorage id Storage.watch }
  change (joinParts call id (machine.heap.storage id).trail.moves (machine.heap.storage id).length 0
    >>= _) watched = _ at ran
  obtain ⟨parts, middle, joined, ended⟩ := ok_of_bind ran
  have sameLength : (machine.heap.storage id).length = (base.elements id).size :=
    congrArg Array.size (same.elements id)
  rw [same.moves, sameLength] at joined
  have sameWatched : watched.heap.SameButReadings base :=
    same.modifyStorage id Storage.settled_watch
  obtain ⟨areTexts, sameMiddle⟩ := joinParts_agrees agrees sameWatched (Nat.zero_add _) joined
  cases ended
  refine ⟨_, rfl, Heap.textWithin_array_eq_some_iff.mpr ⟨parts, areTexts, rfl⟩, ?_⟩
  exact sameMiddle.modifyStorage id Storage.settled_unwatch

end

/-- A method that gives the default text of what is no array agrees with it. -/
theorem agreesWith_of_method
    {kind : ObjectKind}
    (notArray : kind ≠ .array)
    (finds : base.FindsBuiltin id "toString" builtin)
    (gives : ∀ call machine result after,
      builtin.run call (.object kind id) [] machine = .ok result after →
        ∃ text, result = .string text ∧ machine.heap.text? (.object kind id) = some text ∧
          after = machine)
    (patience : Nat) :
    AgreesWith base patience (callUpTo patience) (.object kind id) := by
  intro machine text after same converted
  obtain ⟨less, result, inner, -, ran, isText⟩ :=
    exists_run_of_toText (same.findsBuiltin finds) converted
  obtain ⟨given, rfl, isDefault, rfl⟩ := gives _ _ _ _ ran
  obtain ⟨rfl, sameHeap⟩ := isText rfl
  refine ⟨same.textWithin_of_text? ?_ isDefault patience, ?_⟩
  · cases kind with
    | array => exact absurd rfl notArray
    | plain | closure | builtin | pattern => rfl
  · exact (congrArg Heap.settled sameHeap).trans same

/-- A plain object agrees whether or not it has a method for its text. -/
theorem agreesWith_plain
    (keeps : base.KeepsMethods "toString")
    (alone : ∀ name ∈ ["toString", "valueOf"], base.LeavesAlone name id)
    (patience : Nat) :
    AgreesWith base patience (callUpTo patience) (.object .plain id) := by
  cases found : base.lookup? id "toString" with
  | some method =>
      obtain ⟨builtin, named, finds⟩ := keeps.finds (alone _ (.head _)) found
      refine agreesWith_of_method (by nofun) finds (fun call machine result after ran => ?_) patience
      obtain ⟨rfl, rfl⟩ := run_textMethod_plain named ran
      exact ⟨_, rfl, by simp only [Heap.text?, Heap.textWithin], rfl⟩
  | none =>
      intro machine text after same converted
      have lacks : LacksConversions machine.heap id := by
        intro name known method isFound
        rw [same.lookup?] at isFound
        exact keeps.lacks (alone _ (.tail _ (.head _))) found name known method isFound
      obtain ⟨primitive, middle, isPrimitive, isText⟩ := ok_of_bind converted
      have isDefault : machine.heap.text? (.object .plain id) = some "[object Object]" := by
        simp only [Heap.text?, Heap.textWithin]
      rw [toPrimitive_of_lacking _ _ _ lacks, isDefault] at isPrimitive
      cases isPrimitive
      cases isText
      exact ⟨by simp only [Heap.textWithin]; rfl, same⟩

/-- An array agrees if its elements do where calls nest less deeply. -/
theorem agreesWith_array
    {patience : Nat}
    (finds : base.FindsBuiltin id "toString" .arrayToString)
    (agrees : ∀ less < patience, ∀ element ∈ base.elements id,
      AgreesWith base less (callUpTo less) element) :
    AgreesWith base patience (callUpTo patience) (.object .array id) := by
  intro machine text after same converted
  obtain ⟨less, result, inner, rfl, ran, isText⟩ :=
    exists_run_of_toText (same.findsBuiltin finds) converted
  have sameEntered : machine.entered.heap.SameButReadings base := same
  obtain ⟨joined, rfl, isDefault, sameInner⟩ :=
    run_arrayToString_agrees (agrees less (Nat.lt_succ_self less)) sameEntered ran
  obtain ⟨rfl, sameHeap⟩ := isText rfl
  exact ⟨isDefault, (congrArg Heap.settled sameHeap).trans sameInner⟩

/-- On the prototypes of the library the two conversions agree, for arrays in arrays by induction
on how deeply the calls nest. -/
theorem callUpTo_agreesWith
    (tidy : base.Tidy)
    (keeps : base.KeepsMethods "toString")
    (patience : Nat)
    {value : Value}
    (known : value.KnownTo base)
    (undisturbed : base.Undisturbed value) :
    AgreesWith base patience (callUpTo patience) value := by
  induction patience using Nat.strong_induction_on generalizing value with
  | _ patience inductionHypothesis =>
      cases value with
      | object kind id =>
          have alone := undisturbed kind id .refl
          by_cases isPlain : kind = .plain
          · subst isPlain
            exact agreesWith_plain keeps alone patience
          have has : base.Has kind id := known.resolve_right fun plain => isPlain plain.1
          have finds {native : Nat} {builtin : Builtin} :=
            @Heap.KeepsMethods.finds_native builtin _ id keeps tidy kind has (alone _ (.head _)) native
          cases kind with
          | plain => exact absurd rfl isPlain
          | closure | builtin =>
              have isMethod : LibraryPart.method? Heap.functionPrototype "toString" =
                  some .functionToString := by
                decide
              exact agreesWith_of_method (by nofun) (finds rfl isMethod)
                (fun _ _ _ _ => run_functionToString) patience
          | pattern =>
              have isMethod : LibraryPart.method? Heap.patternPrototype "toString" =
                  some .patternToString := by
                decide
              exact agreesWith_of_method (by nofun) (finds rfl isMethod)
                (fun _ _ _ _ => run_patternToString) patience
          | array =>
              have isMethod : LibraryPart.method? Heap.arrayPrototype "toString" =
                  some .arrayToString := by
                decide
              refine agreesWith_array (finds rfl isMethod) fun less fewer element member => ?_
              exact inductionHypothesis less fewer (tidy.of_mem_elements member)
                (undisturbed.element member)
      | undefined | number | string | boolean =>
          intro machine text after same converted
          cases converted
          exact ⟨by simp only [Heap.textWithin]; rfl, same⟩

end Run

theorem Heap.keepsMethods_of_all
    {heap : Heap}
    (all : ∀ prototype ≤ patternPrototype,
      heap.ownBuiltin? prototype name = LibraryPart.method? prototype name) :
    heap.KeepsMethods name :=
  fun prototype _ isMethod =>
    (all prototype (LibraryPart.le_of_method? isMethod)).trans isMethod

/-- On a heap where nothing but the prototypes of the library owns methods of conversion, no value
is disturbed. -/
theorem Heap.undisturbed_of_all
    {heap : Heap}
    (all : ∀ owner < heap.size, patternPrototype < owner →
      ∀ name ∈ ["toString", "valueOf"], heap.getOwn? owner name = none)
    (value : Value) :
    heap.Undisturbed value := by
  intro kind id _ name member owner _ isOther
  by_cases inside : owner < heap.size
  · exact all owner inside isOther name member
  · unfold getOwn? properties
    rw [Array.getElem?_eq_none (Nat.le_of_not_lt inside)]
    rfl

namespace Machine

/-- The prototypes of a new realm have the methods for texts that the library installs. -/
theorem realm_keepsMethods (maxDepth : Nat) : (realm maxDepth).heap.KeepsMethods "toString" := by
  have same : (realm maxDepth).heap = (realm 0).heap := rfl
  rw [same]
  refine Heap.keepsMethods_of_all ?_
  decide +kernel

/--
In every realm that runs lead to, the conversion of a value by its methods gives its default
text wherever it ends, as long as the prototypes of the library have their methods for texts, as
they have in a new realm, and no other object on the chain of the value, or of what is reached from
it through elements, owns a method of conversion.
-/
theorem method_texts_are_default_texts :
    (∀ maxDepth, (realm maxDepth).heap.KeepsMethods "toString") ∧
    (∀ settings first machine, Settings.realm settings = .ok first →
      Leads (fun _ _ _ => True) first machine → machine.Orderly false) ∧
    ∀ machine : Machine, machine.Orderly false → machine.heap.KeepsMethods "toString" →
      ∀ value : Value, value.KnownTo machine.heap → machine.heap.Undisturbed value →
        ∀ patience text after,
          Run.toText (Run.callUpTo patience) value machine = .ok text after →
            machine.heap.text? value = some text := by
  refine ⟨realm_keepsMethods, fun settings first machine isRealm leads =>
    leads.orderly (Settings.orderly_of_realm isRealm), ?_⟩
  intro machine orderly keeps value known undisturbed patience text after converted
  have agrees := Run.callUpTo_agreesWith orderly.heap.tidy keeps patience known undisturbed
  exact Heap.text?_of_textWithin (agrees machine text after rfl converted).1

/-- A script makes an array with a hole, a function, a regular expression and objects, of which one
has no prototype. -/
def mixedArray : Source :=
  .ofEval "var a = ['x']; a[2] = [function f() {}, /b/, [Object.create(), {}, true]]; a"

/-- The text of that array. -/
def mixedText : String :=
  "x,,function f() \x7b [compiled code] \x7d,/b/,[object Object],[object Object],true"

/-- Whether the script leaves the realm with an array of that text, with the methods of the library
and without others. -/
def tellsMixedText (realm : Machine) : Bool :=
  match Code.compile true mixedArray with
  | .ok code =>
      match code.runIn 0 realm with
      | .ok (.object .array id) machine =>
          decide (0 < machine.heap.arrayLength id) &&
          decide (∀ prototype ≤ Heap.patternPrototype,
            machine.heap.ownBuiltin? prototype "toString" =
              LibraryPart.method? prototype "toString") &&
          decide (∀ owner < machine.heap.size, Heap.patternPrototype < owner →
            ∀ name ∈ ["toString", "valueOf"], (machine.heap.getOwn? owner name).isNone) &&
          match Run.toText (Run.callUpTo 4) (.object .array id) machine with
          | .ok text _ => text == mixedText
          | .error _ _ => false
      | _ => false
  | .error _ => false

theorem method_text_of_mixed_array :
    ∃ (machine : Machine) (id : Nat),
      Leads (fun _ _ _ => True) (.realm 10000) machine ∧
        machine.heap.KeepsMethods "toString" ∧
        machine.heap.Undisturbed (.object .array id) ∧
        (∃ after, Run.toText (Run.callUpTo 4) (.object .array id) machine = .ok mixedText after) ∧
        machine.heap.text? (.object .array id) = some mixedText := by
  have tells : tellsMixedText (.realm 10000) = true := by
    decide +kernel
  unfold tellsMixedText at tells
  split at tells
  · rename_i code _
    split at tells
    · rename_i id machine ran
      simp only [Bool.and_eq_true, decide_eq_true_eq, Option.isNone_iff_eq_none] at tells
      obtain ⟨⟨⟨notEmpty, methods⟩, others⟩, converts⟩ := tells
      split at converts
      · rename_i text after converted
        obtain rfl := beq_iff_eq.mp converts
        have leads : Leads (fun _ _ _ => True) (.realm 10000) machine := by
          have started : Leads (fun _ _ _ => True) (.realm 10000) (.realm 10000) := .first
          have ended := Leads.run code 0 started trivial
          rw [ran] at ended
          exact ended
        obtain ⟨-, reached, agree⟩ := method_texts_are_default_texts
        have orderly := reached {} _ machine rfl leads
        have keeps := Heap.keepsMethods_of_all methods
        have known := (Heap.has_array_of_arrayLength notEmpty).known
        have undisturbed := Heap.undisturbed_of_all others (.object .array id)
        exact ⟨machine, id, leads, keeps, undisturbed, ⟨after, converted⟩,
          agree machine orderly keeps _ known undisturbed 4 _ after converted⟩
      · cases converts
    · cases tells
  · cases tells

end Machine

end ScriptEngine
