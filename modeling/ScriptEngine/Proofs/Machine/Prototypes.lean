import Mathlib.Data.Finset.Card
import Mathlib.Data.Finset.Range
import ScriptEngine.Builtin.Object

namespace ScriptEngine

/-!
# Reading along prototypes

A lookup visits an object, then its prototype, and so on.  The walk is bounded by
the number of objects, and that is never too few: a walk that has not found a
name after as many steps has come back to where it was.  So a lookup is what the
object owns, and otherwise a lookup in its prototype.

Arrays have a length and elements besides their properties.  A walk passes them
by, since it looks at properties only; what an object inherits from an array is
what the array has as a plain object.
-/

variable {id budget : Nat} {kind : ObjectKind} {name : String} {heap : Heap}

namespace Heap

/-! ## The walk -/

/-- One step of the walk. -/
theorem lookupFrom_succ (heap : Heap) (name : String) (budget id : Nat) :
    heap.lookupFrom name (budget + 1) id =
      (heap.getOwn? id name).or
        ((heap.prototype? id).bind (heap.lookupFrom name budget)) := by
  rw [lookupFrom]
  unfold getOwn? properties prototype?
  cases heap[id]? with
  | none => rfl
  | some object =>
      dsimp only
      cases object.properties.get? name with
      | none =>
          cases object.prototype with
          | none => rfl
          | some prototype => rfl
      | some value => rfl

/-- A longer walk finds what a shorter one finds. -/
theorem lookupFrom_mono
    {value : Value}
    (found : heap.lookupFrom name budget id = some value) :
    heap.lookupFrom name (budget + 1) id = some value := by
  induction budget generalizing id with
  | zero => cases found
  | succ budget inductionHypothesis =>
      rw [lookupFrom_succ] at found ⊢
      rw [Option.or_eq_some_iff] at found ⊢
      rcases found with own | ⟨notOwn, inherited⟩
      · exact .inl own
      · obtain ⟨prototype, isPrototype, later⟩ := Option.bind_eq_some_iff.mp inherited
        refine .inr ⟨notOwn, ?_⟩
        rw [isPrototype]
        exact inductionHypothesis later

/-- The objects from which a walk of some length finds a name. -/
def finders (heap : Heap) (name : String) (budget : Nat) : Finset Nat :=
  (Finset.range heap.size).filter fun id => (heap.lookupFrom name budget id).isSome

theorem mem_finders :
    id ∈ heap.finders name budget ↔ (heap.lookupFrom name budget id).isSome := by
  unfold finders
  rw [Finset.mem_filter, Finset.mem_range, and_iff_right_iff_imp]
  intro found
  by_contra outside
  have nothing : heap[id]? = none := Array.getElem?_eq_none (Nat.le_of_not_lt outside)
  cases budget with
  | zero => cases found
  | succ budget => simp [lookupFrom, nothing] at found

/--
A walk that needs all its steps has passed as many objects: each needs one step
less than the one before it, so no two of them are the same.
-/
theorem lt_card_finders
    (found : (heap.lookupFrom name (budget + 1) id).isSome)
    (needed : heap.lookupFrom name budget id = none) :
    budget < (heap.finders name (budget + 1)).card := by
  induction budget generalizing id with
  | zero => exact Finset.card_pos.mpr ⟨id, mem_finders.mpr found⟩
  | succ budget inductionHypothesis =>
      rw [lookupFrom_succ, Option.or_eq_none_iff] at needed
      obtain ⟨notOwn, notInherited⟩ := needed
      have inherited := found
      rw [lookupFrom_succ, notOwn, Option.none_or] at inherited
      obtain ⟨prototype, isPrototype⟩ : ∃ prototype, heap.prototype? id = some prototype := by
        cases isPrototype : heap.prototype? id with
        | none =>
            rw [isPrototype] at inherited
            cases inherited
        | some prototype => exact ⟨prototype, rfl⟩
      rw [isPrototype, Option.bind_some] at inherited notInherited
      have shorter := inductionHypothesis inherited notInherited
      have grows : heap.finders name (budget + 1) ⊂ heap.finders name (budget + 1 + 1) := by
        refine Finset.ssubset_iff_of_subset ?_ |>.mpr ⟨id, mem_finders.mpr found, ?_⟩
        · intro other member
          obtain ⟨value, isValue⟩ := Option.isSome_iff_exists.mp (mem_finders.mp member)
          rw [mem_finders, lookupFrom_mono isValue]
          rfl
        · rw [mem_finders, lookupFrom_succ, notOwn, isPrototype, Option.none_or,
            Option.bind_some, notInherited]
          simp
      have more := Finset.card_lt_card grows
      omega

/-- A walk of as many steps as there are objects finds what longer ones find. -/
theorem lookupFrom_of_enough
    (heap : Heap)
    (name : String)
    (enough : heap.size ≤ budget)
    (id : Nat) :
    heap.lookupFrom name (budget + 1) id = heap.lookupFrom name budget id := by
  cases shorter : heap.lookupFrom name budget id with
  | some value => exact lookupFrom_mono shorter
  | none =>
      cases longer : heap.lookupFrom name (budget + 1) id with
      | none => rfl
      | some value =>
          have many := lt_card_finders (Option.isSome_of_eq_some longer) shorter
          have few : (heap.finders name (budget + 1)).card ≤ heap.size := by
            simpa [finders] using Finset.card_filter_le (Finset.range heap.size) _
          omega

/-- A lookup is what the object owns, and otherwise a lookup in its prototype. -/
theorem lookup?_eq (heap : Heap) (id : Nat) (name : String) :
    heap.lookup? id name =
      (heap.getOwn? id name).or ((heap.prototype? id).bind (heap.lookup? · name)) := by
  unfold lookup?
  have enough := lookupFrom_of_enough heap name (Nat.le_refl heap.size)
  simp only [enough]
  rw [← enough, lookupFrom_succ]

/-! ## Lengths and elements -/

/-- Whether an object has a name among its elements: an array its length and its indices. -/
def isElementKey (heap : Heap) (kind : ObjectKind) (id : Nat) (name : String) : Bool :=
  kind == .array && (name == "length" || isIndexBelow name (heap.arrayLength id))

theorem owns_object
    (heap : Heap)
    (kind : ObjectKind)
    (id : Nat)
    (name : String) :
    heap.owns (.object kind id) name =
      (heap.isElementKey kind id name || (heap.getOwn? id name).isSome) := by
  cases kind <;> simp [owns, isElementKey, Properties.has, getOwn?, Properties.get?]

theorem isIndexBelow_iff {length : Nat} :
    isIndexBelow name length = true ↔ ∃ index, arrayIndex? name = some index ∧ index < length := by
  unfold isIndexBelow
  cases arrayIndex? name with
  | none => simp
  | some index => simp

/-- What an array has at a name that is no element of it is a property. -/
theorem element_eq_none (outside : isIndexBelow name (heap.arrayLength id) = false) :
    (arrayIndex? name).bind ((heap.elements id)[·]?) = none := by
  rw [Option.bind_eq_none_iff]
  intro index isIndex
  apply Array.getElem?_eq_none
  by_contra inside
  have below : isIndexBelow name (heap.arrayLength id) = true :=
    isIndexBelow_iff.mpr ⟨index, isIndex, Nat.lt_of_not_le inside⟩
  rw [below] at outside
  cases outside

/-- A name that an object does not have among its elements is looked up. -/
theorem read?_of_named
    (named : heap.isElementKey kind id name = false) :
    heap.read? (.object kind id) name = some ((heap.lookup? id name).getD .undefined) := by
  cases kind with
  | array =>
      obtain ⟨notLength, notIndex⟩ : name ≠ "length" ∧
          isIndexBelow name (heap.arrayLength id) = false := by
        simpa [isElementKey] using named
      simp only [read?, if_neg notLength, element_eq_none notIndex]
  | plain => rfl
  | closure => rfl
  | builtin => rfl
  | pattern => rfl

end Heap

namespace Run

theorem read_of_named
    {machine : Machine}
    (named : machine.heap.isElementKey kind id name = false) :
    read (.object kind id) name machine =
      .ok ((machine.heap.lookup? id name).getD .undefined) machine := by
  rw [read, heap_bind, Heap.read?_of_named named]
  rfl

theorem hasProperty_object
    (machine : Machine)
    (kind : ObjectKind)
    (id : Nat)
    (name : String) :
    hasProperty (.object kind id) name machine =
      .ok (machine.heap.isElementKey kind id name || (machine.heap.lookup? id name).isSome)
        machine := by
  cases kind with
  | array =>
      change ((if name = "length" then pure true
        else if isIndexBelow name (machine.heap.arrayLength id) then pure true
        else pure (machine.heap.lookup? id name).isSome : Run Bool)) machine = _
      unfold Heap.isElementKey
      by_cases isLength : name = "length"
      · rw [if_pos isLength, isLength]
        rfl
      · rw [if_neg isLength, beq_eq_false_iff_ne.mpr isLength]
        cases isIndexBelow name (machine.heap.arrayLength id) with
        | true => rfl
        | false => rfl
  | plain => rfl
  | closure => rfl
  | builtin => rfl
  | pattern => rfl

/-! ## Delegation -/

/-- What an object does not own it has from its prototype, as a plain object. -/
theorem lookup?_of_not_owned
    {prototype : Nat}
    (inherits : heap.prototype? id = some prototype)
    (notOwned : heap.owns (.object kind id) name = false) :
    heap.isElementKey kind id name = false ∧
      heap.lookup? id name = heap.lookup? prototype name := by
  rw [Heap.owns_object, Bool.or_eq_false_iff, Option.isSome_eq_false_iff,
    Option.isNone_iff_eq_none] at notOwned
  obtain ⟨named, notOwn⟩ := notOwned
  refine ⟨named, ?_⟩
  rw [Heap.lookup?_eq, notOwn, inherits]
  rfl

/--
What an object does not own is read from its prototype, and so is whether it is
there, unless the prototype is an array that has the name among its elements.
The object does not see those: it has what the array has as a plain object, and
reads undefined where there is no such property.
-/
theorem access_delegates_past_elements
    {machine : Machine}
    {kind : ObjectKind}
    {id prototype : Nat}
    {name : String}
    (inherits : machine.heap.prototype? id = some prototype)
    (notOwned : machine.heap.owns (.object kind id) name = false)
    (prototypeKind : ObjectKind) :
    (machine.heap.isElementKey prototypeKind prototype name = false →
      read (.object kind id) name machine = read (.object prototypeKind prototype) name machine ∧
        hasProperty (.object kind id) name machine =
          hasProperty (.object prototypeKind prototype) name machine) ∧
    (machine.heap.isElementKey prototypeKind prototype name = true →
      read (.object kind id) name machine =
          .ok ((machine.heap.lookup? prototype name).getD .undefined) machine ∧
        hasProperty (.object kind id) name machine =
          .ok (machine.heap.lookup? prototype name).isSome machine ∧
        hasProperty (.object prototypeKind prototype) name machine = .ok true machine) := by
  obtain ⟨named, inherited⟩ := lookup?_of_not_owned inherits notOwned
  rw [read_of_named named, hasProperty_object, named, inherited, Bool.false_or]
  refine ⟨fun prototypeNamed => ?_, fun isElement => ?_⟩
  · rw [read_of_named prototypeNamed, hasProperty_object, prototypeNamed, Bool.false_or]
    exact ⟨rfl, rfl⟩
  · rw [hasProperty_object, isElement, Bool.true_or]
    exact ⟨rfl, rfl, rfl⟩

/-- An object made from an array of one element has neither its length nor its element. -/
theorem access_past_elements_of_one :
    let elements : HeapObject := ⟨none, [], .array (.exact #[.boolean true])⟩
    let before : Machine := ⟨#[elements], #[], 0, "", 0, 0, 0⟩
    let after : Machine := ⟨#[elements, ⟨some 0, [], .plain⟩], #[], 0, "", 0, 0, 0⟩
    let array := Value.object .array 0
    let object := Value.object .plain 1
    createFrom array before = .ok object after ∧
      after.heap.prototype? 1 = some 0 ∧
      ∀ name ∈ ["length", "0"],
        after.heap.owns object name = false ∧
        after.heap.isElementKey .array 0 name = true ∧
        read object name after = .ok .undefined after ∧
        read array name after ≠ .ok .undefined after ∧
        hasProperty object name after = .ok false after ∧
        hasProperty array name after = .ok true after := by
  intro elements before after array object
  have inherits : after.heap.prototype? 1 = some 0 := rfl
  refine ⟨rfl, inherits, ?_⟩
  intro name isName
  have facts :
      after.heap.owns object name = false ∧ after.heap.isElementKey .array 0 name = true ∧
        after.heap.lookup? 0 name = none ∧ read array name after ≠ .ok .undefined after := by
    rcases List.mem_pair.mp isName with rfl | rfl
    · exact ⟨rfl, rfl, rfl, nofun⟩
    · exact ⟨rfl, rfl, rfl, nofun⟩
  obtain ⟨notOwned, isElement, notThere, there⟩ := facts
  obtain ⟨reads, has, arrayHas⟩ :=
    (access_delegates_past_elements inherits notOwned .array).2 isElement
  rw [notThere] at reads has
  exact ⟨notOwned, isElement, reads, there, has, arrayHas⟩

end Run

end ScriptEngine
