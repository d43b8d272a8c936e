import Mathlib.Data.List.Chain
import Mathlib.Data.List.Perm.Subperm
import Mathlib.Logic.Relation
import ScriptEngine.Code.Lowering
import ScriptEngine.Proofs.Machine.Building
import ScriptEngine.Proofs.Machine.JsonWriting
import ScriptEngine.Realm

namespace ScriptEngine

/-!
# Default texts that have no end

The default text of an array is put together from those of its elements, and nothing
keeps account of the arrays it is inside of.  So it ends exactly if no array reached
through elements holds itself, by way of other arrays or directly.  The other renderers
keep this account: writing a document fails on such an array, and the console marks it.
-/

variable {budget id : Nat}

/-- Going through a list has no result exactly if one of its items has none. -/
theorem mapM_eq_none_iff {act : α → Option β} {items : List α} :
    items.mapM act = none ↔ ∃ item ∈ items, act item = none := by
  induction items with
  | nil => simp
  | cons first rest inductionHypothesis =>
      rw [List.mapM_cons, List.exists_mem_cons_iff, ← inductionHypothesis]
      cases act first with
      | none => simp
      | some value => cases rest.mapM act <;> simp

/-- What gives a result for every item gives it for the list. -/
theorem mapM_eq_some_of_imp
    {act other : α → Option β}
    {items : List α}
    {values : List β}
    (implies : ∀ item ∈ items, ∀ value, act item = some value → other item = some value)
    (isSome : items.mapM act = some values) :
    items.mapM other = some values := by
  induction items generalizing values with
  | nil => exact isSome
  | cons first rest inductionHypothesis =>
      obtain ⟨firstImplies, restImplies⟩ := List.forall_mem_cons.mp implies
      simp only [List.mapM_cons, Option.bind_eq_bind, Option.bind_eq_some_iff] at isSome ⊢
      obtain ⟨value, isFirst, others, areRest, isAll⟩ := isSome
      exact ⟨value, firstImplies value isFirst, others, inductionHypothesis restImplies areRest, isAll⟩

namespace Heap

/-! ## Arrays in arrays -/

/-- An array holds another one as an element. -/
def HoldsArray (heap : Heap) (outer inner : Nat) : Prop :=
  .object .array inner ∈ (heap.elements outer).toList

/-- From an array, elements lead to one that holds itself, directly or through other arrays. -/
def Circles (heap : Heap) (outer : Nat) : Prop :=
  ∃ inner, Relation.ReflTransGen heap.HoldsArray outer inner ∧
    Relation.TransGen heap.HoldsArray inner inner

/-- A value is an array from which elements lead to one that holds itself. -/
def HoldsCircle (heap : Heap) (value : Value) : Prop :=
  ∃ id, value = .object .array id ∧ heap.Circles id

variable {heap : Heap} {value : Value} {rest : List Nat}

theorem lt_size_of_holdsArray {outer inner : Nat} (holds : heap.HoldsArray outer inner) :
    outer < heap.size :=
  lt_size_of_mem_elements holds

/-- An array that leads to a circle holds one that does. -/
theorem Circles.step (circles : heap.Circles id) :
    ∃ next, heap.HoldsArray id next ∧ heap.Circles next := by
  obtain ⟨inner, leads, circle⟩ := circles
  rcases leads.cases_head with rfl | ⟨next, holds, leads⟩
  · obtain ⟨next, holds, leads⟩ := Relation.TransGen.head'_iff.mp circle
    exact ⟨next, holds, id, leads, circle⟩
  · exact ⟨next, holds, inner, leads, circle⟩

/-- Below an array that leads to a circle there is no end of arrays in arrays. -/
theorem Circles.exists_chain (circles : heap.Circles id) (count : Nat) :
    ∃ rest, rest.length = count ∧ (id :: rest).IsChain heap.HoldsArray := by
  induction count generalizing id with
  | zero => exact ⟨[], rfl, .singleton id⟩
  | succ count inductionHypothesis =>
      obtain ⟨next, holds, circlesNext⟩ := circles.step
      obtain ⟨rest, isLength, chain⟩ := inductionHypothesis circlesNext
      exact ⟨next :: rest, congrArg Nat.succ isLength, chain.cons_cons holds⟩

/-- All arrays of a chain but the last are on the heap. -/
theorem lt_size_of_chain (chain : (id :: rest).IsChain heap.HoldsArray) :
    ∀ outer ∈ (id :: rest).dropLast, outer < heap.size := by
  induction rest generalizing id with
  | nil => nofun
  | cons next rest inductionHypothesis =>
      obtain ⟨holds, chain⟩ := List.isChain_cons_cons.mp chain
      rw [List.dropLast_cons_cons]
      exact List.forall_mem_cons.mpr ⟨lt_size_of_holdsArray holds, inductionHypothesis chain⟩

/-- Arrays in arrays without a circle are all different. -/
theorem nodup_of_chain
    (chain : (id :: rest).IsChain heap.HoldsArray)
    (noCircle : ¬ heap.Circles id) :
    (id :: rest).Nodup := by
  have pairwise : (id :: rest).Pairwise (Relation.TransGen heap.HoldsArray) :=
    (chain.imp fun _ _ => .single).pairwise
  have leads : ∀ inner ∈ id :: rest, Relation.ReflTransGen heap.HoldsArray id inner := by
    refine List.forall_mem_cons.mpr ⟨.refl, fun inner member => ?_⟩
    exact (List.rel_of_pairwise_cons pairwise member).to_reflTransGen
  refine pairwise.imp_of_mem fun {outer inner} member _ reaches => ?_
  rintro rfl
  exact noCircle ⟨outer, leads outer member, reaches⟩

/-- Without a circle, at most as many arrays are nested as there are objects. -/
theorem length_le_size_of_chain
    (chain : (id :: rest).IsChain heap.HoldsArray)
    (noCircle : ¬ heap.Circles id) :
    rest.length ≤ heap.size := by
  have distinct : (id :: rest).dropLast.Nodup :=
    (nodup_of_chain chain noCircle).sublist (List.dropLast_sublist _)
  have inside : (id :: rest).dropLast ⊆ List.range heap.size :=
    fun outer member => List.mem_range.mpr (lt_size_of_chain chain outer member)
  have fewer := (distinct.subperm inside).length_le
  rwa [List.length_dropLast, List.length_cons, List.length_range] at fewer

/-! ## Default texts -/

/-- Only the default text of an array may have no end. -/
theorem exists_array_of_textWithin (endless : heap.textWithin budget value = none) :
    ∃ id, value = .object .array id := by
  cases value with
  | object kind id =>
      cases kind with
      | array => exact ⟨id, rfl⟩
      | _ => simp [textWithin] at endless
  | _ => simp [textWithin] at endless

theorem textWithin_array_eq_none_iff (budget : Nat) :
    heap.textWithin (budget + 1) (.object .array id) = none ↔
      ∃ element ∈ (heap.elements id).toList, heap.textWithin budget element = none := by
  rw [textWithin]
  simp only [Option.bind_eq_bind, Option.bind_eq_none_iff, reduceCtorEq, imp_false,
    ← Option.eq_none_iff_forall_ne_some, mapM_eq_none_iff]
  refine exists_congr fun element => and_congr_right fun _ => ?_
  cases element <;> simp [textWithin]

/-- A default text does not end within a budget exactly if more arrays are nested. -/
theorem textWithin_eq_none_iff (budget : Nat) :
    heap.textWithin budget value = none ↔
      ∃ id rest, value = .object .array id ∧ rest.length = budget ∧
        (id :: rest).IsChain heap.HoldsArray := by
  induction budget generalizing value with
  | zero =>
      constructor
      · intro endless
        obtain ⟨id, rfl⟩ := exists_array_of_textWithin endless
        exact ⟨id, [], rfl, rfl, .singleton id⟩
      · rintro ⟨id, rest, rfl, -, -⟩
        simp [textWithin]
  | succ budget inductionHypothesis =>
      constructor
      · intro endless
        obtain ⟨id, rfl⟩ := exists_array_of_textWithin endless
        obtain ⟨element, member, endless⟩ := (textWithin_array_eq_none_iff budget).mp endless
        obtain ⟨inner, rest, rfl, isLength, chain⟩ := inductionHypothesis.mp endless
        exact ⟨id, inner :: rest, rfl, congrArg Nat.succ isLength, chain.cons_cons member⟩
      · rintro ⟨id, _ | ⟨inner, rest⟩, rfl, isLength, chain⟩
        · cases isLength
        · obtain ⟨holds, chain⟩ := List.isChain_cons_cons.mp chain
          refine (textWithin_array_eq_none_iff budget).mpr ⟨_, holds, ?_⟩
          exact inductionHypothesis.mpr ⟨inner, rest, rfl, Nat.succ.inj isLength, chain⟩

/-- On a circle no budget is enough. -/
theorem textWithin_of_circle (circle : heap.HoldsCircle value) (budget : Nat) :
    heap.textWithin budget value = none := by
  obtain ⟨id, rfl, circles⟩ := circle
  obtain ⟨rest, isLength, chain⟩ := circles.exists_chain budget
  exact (textWithin_eq_none_iff budget).mpr ⟨id, rest, rfl, isLength, chain⟩

/-- Without a circle any budget beyond the number of objects is enough. -/
theorem exists_textWithin
    (noCircle : ¬ heap.HoldsCircle value)
    (enough : heap.size < budget) :
    ∃ text, heap.textWithin budget value = some text := by
  refine Option.ne_none_iff_exists'.mp fun endless => ?_
  obtain ⟨id, rest, rfl, isLength, chain⟩ := (textWithin_eq_none_iff budget).mp endless
  have fewer := length_le_size_of_chain chain fun circles => noCircle ⟨id, rfl, circles⟩
  omega

/-- A value has a default text exactly if it holds no circle. -/
theorem text?_eq_none_iff : heap.text? value = none ↔ heap.HoldsCircle value := by
  constructor
  · intro endless
    by_contra noCircle
    have enough : heap.size < heap.boundlessNesting :=
      Nat.lt_add_of_pos_right (Nat.pow_pos Nat.zero_lt_two)
    obtain ⟨text, isText⟩ := exists_textWithin noCircle enough
    rw [text?, isText] at endless
    cases endless
  · intro circle
    exact textWithin_of_circle circle _

/-! ## Texts within a budget -/

variable {text : String}

/-- The default text of an element: none of an undefined one. -/
def elementText (heap : Heap) (budget : Nat) : Value → Option String
  | .undefined => some ""
  | element => heap.textWithin budget element

theorem textWithin_array_eq_some_iff :
    heap.textWithin (budget + 1) (.object .array id) = some text ↔
      ∃ parts, (heap.elements id).toList.mapM (heap.elementText budget) = some parts ∧
        ",".intercalate parts = text := by
  rw [textWithin]
  change ((heap.elements id).toList.mapM (heap.elementText budget) >>= _) = _ ↔ _
  simp only [Option.bind_eq_bind, Option.bind_eq_some_iff, Option.some.injEq]

/-- The default text of what is no array takes no budget. -/
theorem textWithin_of_not_array (notArray : value.isArray = false) (budget other : Nat) :
    heap.textWithin budget value = heap.textWithin other value := by
  cases value with
  | object kind id =>
      cases kind with
      | array => cases notArray
      | plain | closure | builtin | pattern => simp only [textWithin]
  | undefined | number | string | boolean => simp only [textWithin]

section

variable (isText : heap.textWithin budget value = some text)

include isText

theorem textWithin_succ : heap.textWithin (budget + 1) value = some text := by
  induction budget generalizing value text with
  | zero =>
      rw [textWithin_of_not_array ?_ 1 0]
      · exact isText
      · cases value with
        | object kind id =>
            cases kind with
            | array => simp [textWithin] at isText
            | plain | closure | builtin | pattern => rfl
        | undefined | number | string | boolean => rfl
  | succ budget inductionHypothesis =>
      cases isArray : value.isArray with
      | false => rwa [textWithin_of_not_array isArray _ (budget + 1)]
      | true =>
          obtain ⟨id, rfl⟩ : ∃ id, value = .object .array id := by
            unfold Value.isArray at isArray
            split at isArray
            · exact ⟨_, rfl⟩
            · cases isArray
          obtain ⟨parts, areParts, isJoined⟩ := textWithin_array_eq_some_iff.mp isText
          refine textWithin_array_eq_some_iff.mpr ⟨parts, ?_, isJoined⟩
          refine mapM_eq_some_of_imp (fun element _ part isPart => ?_) areParts
          cases element with
          | undefined => exact isPart
          | number | string | boolean | object => exact inductionHypothesis isPart

theorem textWithin_mono
    {more : Nat}
    (enough : budget ≤ more) :
    heap.textWithin more value = some text := by
  induction enough with
  | refl => exact isText
  | step _ inductionHypothesis => exact textWithin_succ inductionHypothesis

/-- A text within any budget is the default text: nothing that ends holds a circle. -/
theorem text?_of_textWithin : heap.text? value = some text := by
  cases found : heap.text? value with
  | none =>
      have endless := textWithin_of_circle (text?_eq_none_iff.mp found) budget
      rw [isText] at endless
      cases endless
  | some default =>
      rcases Nat.le_total budget heap.boundlessNesting with within | beyond
      · exact found.symm.trans (textWithin_mono isText within)
      · exact (textWithin_mono found beyond).symm.trans isText

end

/-! ## Documents of the same values -/

/-- Elements that lead to an array are a way into the value for the writer of documents. -/
theorem exists_walk_of_leads
    {outer inner : Nat}
    {path : List Nat}
    (leads : Relation.ReflTransGen heap.HoldsArray outer inner)
    (walk : heap.Walk (.object .array inner) path) :
    ∃ front, heap.Walk (.object .array outer) (front ++ path) := by
  induction leads using Relation.ReflTransGen.head_induction_on with
  | refl => exact ⟨[], walk⟩
  | head holds _ inductionHypothesis =>
      obtain ⟨front, walk⟩ := inductionHypothesis
      exact ⟨_ :: front, .into (.element holds) walk⟩

/-- Writing a document fails on every circle. -/
theorem json_of_circle (circle : heap.HoldsCircle value) :
    heap.json value = .error .circularStructure := by
  obtain ⟨outer, rfl, inner, leads, circles⟩ := circle
  obtain ⟨next, holds, back⟩ := Relation.TransGen.head'_iff.mp circles
  obtain ⟨around, walkAround⟩ := exists_walk_of_leads back .array
  have walkInner : heap.Walk (.object .array inner) (inner :: (around ++ [inner])) :=
    .into (.element holds) walkAround
  obtain ⟨front, walk⟩ := exists_walk_of_leads leads walkInner
  rcases heap.json_settles (.object .array outer) with ⟨isError, -⟩ | ⟨-, distinct⟩
  · exact isError
  · refine absurd ⟨_, walk, fun nodup => ?_⟩ distinct
    have inside := nodup.sublist (List.sublist_append_right front _)
    simp at inside

end Heap

namespace Run

/-- Neither `valueOf` nor `toString` is found on an object as something to call. -/
def LacksConversions (heap : Heap) (id : Nat) : Prop :=
  ∀ name ∈ ["valueOf", "toString"], ∀ method ∈ heap.lookup? id name, method.isCallable = false

/-- The default text is that of the heap, and without it the conversion has no end. -/
theorem defaultText_eq (value : Value) (machine : Machine) :
    defaultText value machine =
      match machine.heap.text? value with
      | some text => .ok text machine
      | none => .error (.broken .outOfFuel) machine := by
  unfold defaultText
  rw [bind_of_ok (show heap machine = .ok machine.heap machine from rfl)]
  generalize machine.heap.text? value = found
  cases found <;> rfl

/-- Methods that cannot be called are passed over. -/
theorem tryMethods_of_lacking
    (call : Caller)
    (value : Value)
    {machine : Machine}
    {names : List String}
    (lacks : ∀ name ∈ names, ∀ method ∈ machine.heap.lookup? id name, method.isCallable = false) :
    tryMethods call value id false names machine =
      match machine.heap.text? value with
      | some text => .ok (.string text) machine
      | none => .error (.broken .outOfFuel) machine := by
  induction names with
  | nil =>
      have isDefault := defaultText_eq value machine
      rw [tryMethods, if_neg Bool.false_ne_true]
      cases found : machine.heap.text? value with
      | none =>
          rw [found] at isDefault
          exact bind_of_error isDefault
      | some text =>
          rw [found] at isDefault
          exact bind_of_ok isDefault
  | cons name names inductionHypothesis =>
      have others := inductionHypothesis fun other member => lacks other (.tail _ member)
      rw [← others, tryMethods,
        bind_of_ok (show heap machine = .ok machine.heap machine from rfl)]
      cases found : machine.heap.lookup? id name with
      | none => rfl
      | some method =>
          have isNone : method.isCallable = false := lacks name (.head _) method found
          simp only [isNone, Bool.false_eq_true, if_false]

/-- The conversion to a primitive value falls back to the default text. -/
theorem toPrimitive_of_lacking
    (call : Caller)
    (hint : Hint)
    (kind : ObjectKind)
    {machine : Machine}
    (lacks : LacksConversions machine.heap id) :
    toPrimitive call hint (.object kind id) machine =
      match machine.heap.text? (.object kind id) with
      | some text => .ok (.string text) machine
      | none => .error (.broken .outOfFuel) machine := by
  have known : hint.methods ⊆ ["valueOf", "toString"] := by
    cases hint <;> simp [Hint.methods]
  exact tryMethods_of_lacking call _ fun name member => lacks name (known member)

/--
The default conversion of a value ends exactly if the value is no array from which elements lead
to one that holds itself.  On such an array no budget of nested arrays is enough, while writing
a document fails; and a conversion to a primitive value that finds no method goes there.
-/
theorem default_conversion_ends_iff
    (machine : Machine)
    (value : Value) :
    ((∃ text, machine.heap.text? value = some text) ↔ ¬ machine.heap.HoldsCircle value) ∧
      (machine.heap.HoldsCircle value →
        (∀ budget, machine.heap.textWithin budget value = none) ∧
          machine.heap.json value = .error .circularStructure) ∧
      ∀ call hint kind id, value = .object kind id → LacksConversions machine.heap id →
        ((∃ text, toPrimitive call hint value machine = .ok (.string text) machine) ↔
            ¬ machine.heap.HoldsCircle value) ∧
          (machine.heap.HoldsCircle value →
            toPrimitive call hint value machine = .error (.broken .outOfFuel) machine) := by
  have hasText : (∃ text, machine.heap.text? value = some text) ↔
      ¬ machine.heap.HoldsCircle value := by
    rw [← Heap.text?_eq_none_iff, ← Option.ne_none_iff_exists']
  refine ⟨hasText, fun circle => ⟨Heap.textWithin_of_circle circle, Heap.json_of_circle circle⟩, ?_⟩
  rintro call hint kind id rfl lacks
  rw [toPrimitive_of_lacking call hint kind lacks, ← hasText, ← Heap.text?_eq_none_iff]
  cases machine.heap.text? (.object kind id) <;> simp

theorem eq_of_strictEquals_object
    {value : Value}
    {kind : ObjectKind}
    (equal : value.strictEquals (.object kind id) = true) :
    value = .object kind id := by
  cases value with
  | object otherKind other =>
      obtain ⟨rfl, rfl⟩ : otherKind = kind ∧ other = id := by
        simpa [Value.strictEquals] using equal
      rfl
  | _ => cases equal

/-- A script takes the methods away and puts an array into itself. -/
def ownElement : Source :=
  .ofEval <|
    "delete Object.prototype.valueOf; delete Object.prototype.toString; " ++
    "delete Array.prototype.toString; var a = []; a[0] = a"

/-- Whether the script leaves the realm with an array that holds itself and lacks the methods
of conversion. -/
def holdsOwnElement (realm : Machine) : Bool :=
  match Code.compile true ownElement with
  | .ok code =>
      match code.runIn 0 realm with
      | .ok (.object .array id) machine =>
          (machine.heap.elements id).toList.any (·.strictEquals (.object .array id)) &&
            ["valueOf", "toString"].all fun name =>
              (machine.heap.lookup? id name).all (!·.isCallable)
      | _ => false
  | .error _ => false

theorem default_conversion_of_own_element :
    ∃ (code : Code) (id : Nat) (machine : Machine),
      Code.compile true ownElement = .ok code ∧
        code.runIn 0 (.realm 10000) = .ok (.object .array id) machine ∧
        LacksConversions machine.heap id ∧
        toPrimitive call .string (.object .array id) machine = .error (.broken .outOfFuel) machine ∧
        ∀ budget, machine.heap.textWithin budget (.object .array id) = none := by
  have circles : holdsOwnElement (.realm 10000) = true := by
    decide +kernel
  unfold holdsOwnElement at circles
  split at circles
  · rename_i code compiled
    split at circles
    · rename_i id machine ran
      obtain ⟨holdsItself, lacking⟩ := Bool.and_eq_true_iff.mp circles
      obtain ⟨element, member, equal⟩ := List.any_eq_true.mp holdsItself
      have holds : machine.heap.HoldsArray id id := by
        rw [eq_of_strictEquals_object equal] at member
        exact member
      have circle : machine.heap.HoldsCircle (.object .array id) :=
        ⟨id, rfl, id, .refl, .single holds⟩
      have lacks : LacksConversions machine.heap id := by
        intro name known method found
        have isNone := List.all_eq_true.mp lacking name known
        rw [Option.mem_def.mp found] at isNone
        simpa using isNone
      obtain ⟨-, endless, falls⟩ := default_conversion_ends_iff machine (.object .array id)
      exact ⟨code, id, machine, compiled, ran, lacks, (falls call .string _ id rfl lacks).2 circle,
        (endless circle).1⟩
    · cases circles
  · cases circles

end Run

end ScriptEngine
