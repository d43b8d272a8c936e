import Mathlib.Logic.Function.Basic
import ScriptEngine.Proofs.Machine.Enumeration

namespace ScriptEngine

/-!
# The history of an object's own properties

The properties of an object are as good as a map from names to values beside a list of keys
and a set of hidden names.  Writing, hiding and removing have to keep these three in step,
and they do over every history: the keys are the names in the map, a hidden name is in it,
and what is kept for a name is told by the last step about it and by its latest insertion.
-/

variable {history : PropertyHistory}

/-- A step in the history of the properties of an object. -/
inductive PropertyStep where
  | write (name : String) (value : Value)
  | hide (name : String) (value : Value)
  | remove (name : String)

namespace PropertyStep

/-- The name that a step is about. -/
def name : PropertyStep → String
  | write name _ | hide name _ | remove name => name

/-- The value that a step gives to its name, if it gives one. -/
def given? : PropertyStep → Option Value
  | write _ value | hide _ value => some value
  | remove _ => none

end PropertyStep

/-! ## Histories -/

/-- The steps in the history of the properties of an object, the latest one first. -/
abbrev PropertyHistory := List PropertyStep

namespace PropertyHistory

/-- What the last step about a name gave to it. -/
def value? : PropertyHistory → String → Option Value
  | [], _ => none
  | last :: earlier, name => if last.name = name then last.given? else value? earlier name

/-- Whether a name was hidden and has not been removed since. -/
def hides : PropertyHistory → String → Bool
  | [], _ => false
  | .write _ _ :: earlier, name => hides earlier name
  | .hide hidden _ :: earlier, name => hidden = name || hides earlier name
  | .remove gone :: earlier, name => gone ≠ name && hides earlier name

/-- How many steps went before the latest insertion of a name, if it was not removed since. -/
def insertedAt? : PropertyHistory → String → Option Nat
  | [], _ => none
  | last :: earlier, name =>
      if last.name = name then
        last.given?.map fun _ => (insertedAt? earlier name).getD earlier.length
      else insertedAt? earlier name

/-- Both names are there, the first one for longer. -/
def InsertsBefore (history : PropertyHistory) (first second : String) : Prop :=
  ∃ place later, history.insertedAt? first = some place ∧
    history.insertedAt? second = some later ∧ place < later

variable {step : PropertyStep} {name : String} {place : Nat}

theorem isSome_insertedAt? : (history.insertedAt? name).isSome = (history.value? name).isSome := by
  induction history with
  | nil => rfl
  | cons last earlier inductionHypothesis =>
      by_cases same : last.name = name
      · simp [insertedAt?, value?, same]
      · simpa [insertedAt?, value?, same] using inductionHypothesis

theorem insertedAt?_lt_length (inserted : history.insertedAt? name = some place) :
    place < history.length := by
  induction history generalizing place with
  | nil => cases inserted
  | cons last earlier inductionHypothesis =>
      rw [List.length_cons, Nat.lt_succ_iff]
      unfold insertedAt? at inserted
      split at inserted
      · obtain ⟨value, -, rfl⟩ := Option.map_eq_some_iff.mp inserted
        cases isOld : insertedAt? earlier name with
        | none => exact Nat.le_refl _
        | some place => exact Nat.le_of_lt (inductionHypothesis isOld)
      · exact Nat.le_of_lt (inductionHypothesis inserted)

/-- A name that is there keeps its place over a step that does not remove it. -/
theorem insertedAt?_cons
    (isThere : (history.value? name).isSome = true)
    (notRemoved : step ≠ .remove name) :
    insertedAt? (step :: history) name = history.insertedAt? name := by
  rw [← isSome_insertedAt?] at isThere
  obtain ⟨place, inserted⟩ := Option.isSome_iff_exists.mp isThere
  by_cases isName : step.name = name
  · subst isName
    cases step with
    | write name value | hide name value =>
        rw [inserted, insertedAt?, if_pos rfl, inserted]
        rfl
    | remove name => exact absurd rfl notRemoved
  · rw [insertedAt?, if_neg isName]

end PropertyHistory

/-! ## Tables of properties -/

/-- The properties of an object as a map, a list of keys and a set of hidden names. -/
structure PropertyTable where
  values : String → Option Value
  keys : List String
  hidden : String → Bool

namespace PropertyTable

open PropertyHistory (InsertsBefore insertedAt? insertedAt?_cons insertedAt?_lt_length
  isSome_insertedAt?)

/-- The table of a new object. -/
def empty : PropertyTable := ⟨fun _ => none, [], fun _ => false⟩

/-- Whether there is a property of a name. -/
def hasOwn (table : PropertyTable) (name : String) : Bool := (table.values name).isSome

/-- Write a property, behind the others if it is new. -/
def setOwn (table : PropertyTable) (name : String) (value : Value) : PropertyTable :=
  { table with
    values := Function.update table.values name (some value)
    keys := if table.hasOwn name then table.keys else table.keys ++ [name] }

/-- Write a property and hide it. -/
def defineHidden (table : PropertyTable) (name : String) (value : Value) : PropertyTable :=
  { table.setOwn name value with hidden := Function.update table.hidden name true }

/-- A table with nothing kept for a name. -/
def without (table : PropertyTable) (name : String) : PropertyTable where
  values := Function.update table.values name none
  keys := table.keys.erase name
  hidden := Function.update table.hidden name false

/-- Remove a property; tells whether there was one. -/
def deleteOwn (table : PropertyTable) (name : String) : Bool × PropertyTable :=
  if table.hasOwn name then (true, table.without name) else (false, table)

/-- Whether there is a property of a name that is not hidden. -/
def isEnumerable (table : PropertyTable) (name : String) : Bool :=
  table.hasOwn name && !table.hidden name

/-- The names of the properties that are not hidden, in order. -/
def ownKeys (table : PropertyTable) : List String := table.keys.filter (!table.hidden ·)

/-- Take one step. -/
def step (table : PropertyTable) : PropertyStep → PropertyTable
  | .write name value => table.setOwn name value
  | .hide name value => table.defineHidden name value
  | .remove name => (table.deleteOwn name).2

/-- The table of an object with a history. -/
def after : PropertyHistory → PropertyTable
  | [] => empty
  | last :: earlier => (after earlier).step last

/-- The three parts of a table fit together, and are as a history tells. -/
structure Follows (history : PropertyHistory) (table : PropertyTable) : Prop where
  distinct : table.keys.Nodup
  keyed : ∀ name, name ∈ table.keys ↔ table.hasOwn name = true
  hides : ∀ name, table.hidden name = true → table.hasOwn name = true
  value : ∀ name, table.values name = history.value? name
  hidden : ∀ name, table.hidden name = history.hides name
  ordered : table.keys.Pairwise history.InsertsBefore

theorem hasOwn_setOwn {table : PropertyTable} {name other : String} {value : Value} :
    (table.setOwn name value).hasOwn other = true ↔ other = name ∨ table.hasOwn other = true := by
  by_cases same : other = name <;> simp [hasOwn, setOwn, same]

namespace Follows

variable {table : PropertyTable} {name : String} {value : Value} {step : PropertyStep}

theorem empty : Follows [] empty where
  distinct := .nil
  keyed := by simp [PropertyTable.empty, hasOwn]
  hides := by simp [PropertyTable.empty]
  value _ := rfl
  hidden _ := rfl
  ordered := .nil

section

variable (follows : Follows history table)

include follows

/-- Keys that a step does not remove keep their order. -/
theorem kept
    {keys : List String}
    (areKeys : keys.Sublist table.keys)
    (notRemoved : ∀ name ∈ keys, step ≠ .remove name) :
    keys.Pairwise (InsertsBefore (step :: history)) := by
  have same : ∀ name ∈ keys,
      insertedAt? (step :: history) name = history.insertedAt? name := by
    intro name isKey
    have isThere := (follows.keyed name).mp (areKeys.subset isKey)
    rw [hasOwn, follows.value] at isThere
    exact insertedAt?_cons isThere (notRemoved name isKey)
  refine (follows.ordered.sublist areKeys).imp_of_mem ?_
  intro first second isFirst isSecond before
  rwa [InsertsBefore, same first isFirst, same second isSecond]

/-- A step that gives a value leaves a key in its place, or puts it behind the others. -/
theorem keysGiven
    (isName : step.name = name)
    (isGiven : step.given? = some value) :
    (table.setOwn name value).keys.Nodup ∧
      (∀ other, other ∈ (table.setOwn name value).keys ↔
        (table.setOwn name value).hasOwn other = true) ∧
      (table.setOwn name value).keys.Pairwise (InsertsBefore (step :: history)) := by
  have notRemoved : ∀ other ∈ table.keys, step ≠ .remove other := by
    rintro other - rfl
    cases isGiven
  have ordered := follows.kept (List.Sublist.refl _) notRemoved
  by_cases isThere : table.hasOwn name = true
  · have same : (table.setOwn name value).keys = table.keys := if_pos isThere
    rw [same]
    refine ⟨follows.distinct, fun other => ?_, ordered⟩
    rw [follows.keyed, hasOwn_setOwn]
    exact ⟨.inr, fun given => given.elim (fun same => same ▸ isThere) id⟩
  · have isLast : (table.setOwn name value).keys = table.keys ++ [name] := if_neg isThere
    have noKey : name ∉ table.keys := fun isKey => isThere ((follows.keyed name).mp isKey)
    have isNew : history.insertedAt? name = none := by
      rw [← Option.not_isSome_iff_eq_none, isSome_insertedAt?, ← follows.value]
      exact isThere
    have inserted : insertedAt? (step :: history) name = some history.length := by
      simp [insertedAt?, isName, isGiven, isNew]
    rw [isLast]
    refine ⟨?_, fun other => ?_, ?_⟩
    · rw [← List.concat_eq_append]
      exact follows.distinct.concat noKey
    · rw [List.mem_append, List.mem_singleton, follows.keyed, hasOwn_setOwn, or_comm]
    · refine List.pairwise_append.mpr ⟨ordered, List.pairwise_singleton .., ?_⟩
      intro first isFirst second isSecond
      obtain rfl := List.mem_singleton.mp isSecond
      have isThere := (follows.keyed first).mp isFirst
      rw [hasOwn, follows.value] at isThere
      obtain ⟨place, isPlace⟩ := Option.isSome_iff_exists.mp
        (isSome_insertedAt?.trans isThere)
      refine ⟨place, history.length, ?_, inserted, insertedAt?_lt_length isPlace⟩
      rw [insertedAt?_cons isThere (notRemoved first isFirst), isPlace]

theorem value_setOwn
    (isName : step.name = name)
    (isGiven : step.given? = some value)
    (other : String) :
    (table.setOwn name value).values other = PropertyHistory.value? (step :: history) other := by
  by_cases same : other = name
  · simp [PropertyTable.setOwn, PropertyHistory.value?, isName, isGiven, same]
  · simp [PropertyTable.setOwn, PropertyHistory.value?, isName, same, Ne.symm same, follows.value]

theorem write (name : String) (value : Value) :
    Follows (.write name value :: history) (table.setOwn name value) := by
  obtain ⟨distinct, keyed, ordered⟩ := @keysGiven _ _ name value (.write name value) follows rfl rfl
  refine ⟨distinct, keyed, fun other isHidden => ?_, follows.value_setOwn rfl rfl, ?_, ordered⟩
  · exact hasOwn_setOwn.mpr (.inr (follows.hides other isHidden))
  · exact follows.hidden

theorem hide (name : String) (value : Value) :
    Follows (.hide name value :: history) (table.defineHidden name value) := by
  obtain ⟨distinct, keyed, ordered⟩ := @keysGiven _ _ name value (.hide name value) follows rfl rfl
  refine ⟨distinct, keyed, fun other isHidden => ?_, follows.value_setOwn rfl rfl,
    fun other => ?_, ordered⟩
  · refine hasOwn_setOwn.mpr (Or.imp_right (follows.hides other) ?_)
    simpa [PropertyTable.defineHidden, Function.update_apply, or_iff_not_imp_left] using isHidden
  · by_cases same : other = name
    · simp [PropertyTable.defineHidden, PropertyHistory.hides, same]
    · simp [PropertyTable.defineHidden, PropertyTable.setOwn, PropertyHistory.hides, same,
        Ne.symm same, follows.hidden]

/-- Removing clears all that is kept for a name, if anything is. -/
theorem deleteOwn_eq (name : String) :
    (table.deleteOwn name).2 = table.without name := by
  unfold PropertyTable.deleteOwn
  split
  · rfl
  · rename_i isNew
    have noKey : name ∉ table.keys := fun isKey => isNew ((follows.keyed name).mp isKey)
    have noValue : table.values name = none := by simpa [hasOwn] using isNew
    have isOpen : table.hidden name = false :=
      Bool.of_not_eq_true fun isHidden => isNew (follows.hides name isHidden)
    unfold without
    rw [← noValue, ← isOpen, Function.update_eq_self, Function.update_eq_self,
      List.erase_of_not_mem noKey]

theorem remove (name : String) :
    Follows (.remove name :: history) (table.deleteOwn name).2 := by
  have notRemoved : ∀ other ∈ table.keys.erase name,
      PropertyStep.remove name ≠ .remove other := by
    rintro other isKey ⟨⟩
    exact follows.distinct.not_mem_erase isKey
  have ordered := follows.kept (List.erase_sublist ..) notRemoved
  rw [follows.deleteOwn_eq]
  refine ⟨follows.distinct.erase name, fun other => ?_, fun other isHidden => ?_,
    fun other => ?_, fun other => ?_, ordered⟩
  · rw [without, follows.distinct.mem_erase_iff, follows.keyed]
    by_cases same : other = name <;> simp [hasOwn, same]
  · by_cases same : other = name
    · simp [without, same] at isHidden
    · have isOther : table.hidden other = true := by simpa [without, same] using isHidden
      simpa [without, hasOwn, same] using follows.hides other isOther
  · by_cases same : other = name <;>
      simp [without, PropertyHistory.value?, PropertyStep.name, PropertyStep.given?, same,
        Ne.symm, follows.value]
  · by_cases same : other = name
    · simp [without, PropertyHistory.hides, same]
    · simp [without, PropertyHistory.hides, same, Ne.symm same, follows.hidden]

end

end Follows

/-- Over every history the three parts of a table fit together and are as it tells. -/
theorem after_follows (history : PropertyHistory) : Follows history (after history) := by
  induction history with
  | nil => exact .empty
  | cons last earlier inductionHypothesis =>
      cases last with
      | write name value => exact inductionHypothesis.write name value
      | hide name value => exact inductionHypothesis.hide name value
      | remove name => exact inductionHypothesis.remove name

/--
What a table keeps through its history.  Besides following it, it lists the names that are
enumerable in the order of their latest insertion.  A name that is written again keeps its
place and whether it is hidden, and one that is removed and written again goes to the end
and is seen.  To remove a name tells whether it was there, and if not, changes nothing.
-/
structure Keeps (history : PropertyHistory) (table : PropertyTable) : Prop
    extends Follows history table where
  listed : ∀ name, name ∈ table.ownKeys ↔ table.isEnumerable name = true
  listedInOrder : table.ownKeys.Pairwise history.InsertsBefore
  update : ∀ name value, table.hasOwn name = true →
    (table.setOwn name value).keys = table.keys ∧ (table.setOwn name value).hidden = table.hidden
  told : ∀ name, (table.deleteOwn name).1 = table.hasOwn name
  absent : ∀ name, table.hasOwn name = false → (table.deleteOwn name).2 = table
  again : ∀ name value,
    ((table.deleteOwn name).2.setOwn name value).ownKeys = table.ownKeys.erase name ++ [name] ∧
      ((table.deleteOwn name).2.setOwn name value).isEnumerable name = true

/-- A name that is removed and written again is listed last. -/
theorem Follows.ownKeys_again
    {table : PropertyTable}
    (follows : Follows history table)
    (name : String)
    (value : Value) :
    ((table.deleteOwn name).2.setOwn name value).ownKeys = table.ownKeys.erase name ++ [name] := by
  have isNew : (table.without name).hasOwn name = false := by simp [without, hasOwn]
  have isLast : ((table.without name).setOwn name value).keys =
      table.keys.erase name ++ [name] := by
    rw [setOwn, isNew]
    rfl
  rw [follows.deleteOwn_eq, ownKeys, isLast, List.filter_append, ownKeys]
  congr 1
  · rw [follows.distinct.erase_eq_filter, (follows.distinct.filter _).erase_eq_filter,
      List.filter_filter, List.filter_filter]
    refine List.filter_congr fun other _ => ?_
    by_cases same : other = name <;> simp [setOwn, without, same, Bool.and_comm]
  · simp [setOwn, without]

theorem Follows.keeps
    {table : PropertyTable}
    (follows : Follows history table) :
    Keeps history table where
  toFollows := follows
  listed name := by
    rw [ownKeys, List.mem_filter, follows.keyed, isEnumerable, Bool.and_eq_true]
  listedInOrder := follows.ordered.sublist List.filter_sublist
  update name value isThere := ⟨if_pos isThere, rfl⟩
  told name := by
    unfold deleteOwn
    split <;> simp [*]
  absent name notThere := by
    rw [deleteOwn, notThere]
    rfl
  again name value := by
    refine ⟨follows.ownKeys_again name value, ?_⟩
    rw [follows.deleteOwn_eq]
    simp [isEnumerable, hasOwn, setOwn, without]

end PropertyTable

/-! ## Slots as tables -/

namespace Properties

/-- Take one step. -/
def step (properties : Properties) : PropertyStep → Properties
  | .write name value => properties.set name value
  | .hide name value => properties.setHidden name value
  | .remove name => properties.erase name

/-- The properties of an object with a history. -/
def after : PropertyHistory → Properties
  | [] => []
  | last :: earlier => (after earlier).step last

/-- Whether there is a hidden property of a name. -/
def hides (properties : Properties) (name : String) : Bool :=
  (properties.find? name).any PropertySlot.hidden

/-- What the slots show for each name, as a table. -/
def table (properties : Properties) : PropertyTable :=
  ⟨properties.get?, properties.allNames, properties.hides⟩

variable {properties : Properties} {name other : String} {value : Value}

theorem find?_set :
    (properties.set name value).find? other =
      if other = name then some ⟨name, value, properties.hides name⟩
      else properties.find? other := by
  induction properties with
  | nil => simp [set, find?, hides, eq_comm]
  | cons slot rest inductionHypothesis =>
      by_cases same : slot.name = name
      · by_cases isOther : other = name
        · simp [set, find?, hides, same, isOther]
        · simp [set, find?, same, isOther, Ne.symm isOther]
      · by_cases isHere : slot.name = other
        · have differs : other ≠ name := fun isName => same (isHere.trans isName)
          simp [set, find?, isHere, differs]
        · simpa [set, find?, hides, same, isHere] using inductionHypothesis

theorem find?_setHidden :
    (properties.setHidden name value).find? other =
      if other = name then some ⟨name, value, true⟩ else properties.find? other := by
  induction properties with
  | nil => simp [setHidden, find?, eq_comm]
  | cons slot rest inductionHypothesis =>
      by_cases same : slot.name = name
      · by_cases isOther : other = name
        · simp [setHidden, find?, same, isOther]
        · simp [setHidden, find?, same, isOther, Ne.symm isOther]
      · by_cases isHere : slot.name = other
        · have differs : other ≠ name := fun isName => same (isHere.trans isName)
          simp [setHidden, find?, isHere, differs]
        · simpa [setHidden, find?, same, isHere] using inductionHypothesis

theorem find?_eq_none (notThere : name ∉ properties.allNames) : properties.find? name = none :=
  Option.not_isSome_iff_eq_none.mp fun isThere => notThere (has_iff_mem_allNames.mp isThere)

theorem find?_erase (distinct : properties.allNames.Nodup) :
    (properties.erase name).find? other =
      if other = name then none else properties.find? other := by
  induction properties with
  | nil => simp [erase, find?]
  | cons slot rest inductionHypothesis =>
      obtain ⟨isNew, restDistinct⟩ := List.nodup_cons.mp distinct
      by_cases same : slot.name = name
      · by_cases isOther : other = name
        · simpa [erase, same, isOther] using find?_eq_none (same ▸ isNew)
        · simp [erase, find?, same, isOther, Ne.symm isOther]
      · by_cases isHere : slot.name = other
        · have differs : other ≠ name := fun isName => same (isHere.trans isName)
          simp [erase, find?, isHere, differs]
        · simpa [erase, find?, same, isHere] using inductionHypothesis restDistinct

theorem erase_of_not_mem (notThere : name ∉ properties.allNames) :
    properties.erase name = properties := by
  induction properties with
  | nil => rfl
  | cons slot rest inductionHypothesis =>
      simp only [allNames, List.map_cons, List.mem_cons, not_or] at notThere
      rw [erase, if_neg (Ne.symm notThere.1), inductionHypothesis notThere.2]

theorem find?_of_mem
    {slot : PropertySlot}
    (distinct : properties.allNames.Nodup)
    (member : slot ∈ properties) :
    properties.find? slot.name = some slot := by
  induction properties with
  | nil => cases member
  | cons first rest inductionHypothesis =>
      obtain ⟨isNew, restDistinct⟩ := List.nodup_cons.mp distinct
      rcases List.mem_cons.mp member with rfl | behind
      · simp [find?]
      · have differs : first.name ≠ slot.name := fun same =>
          isNew (same ▸ List.mem_map_of_mem behind)
        rw [find?, if_neg differs, inductionHypothesis restDistinct behind]

theorem table_set : (properties.set name value).table = properties.table.setOwn name value := by
  unfold table PropertyTable.setOwn PropertyTable.hasOwn
  congr 1
  · funext other
    simp only [get?, find?_set, Function.update_apply]
    split <;> rfl
  · simp [allNames_set, ← has_iff_mem_allNames, get?, has]
  · funext other
    simp only [hides, find?_set]
    split
    · simp [*]
    · rfl

theorem table_setHidden :
    (properties.setHidden name value).table = properties.table.defineHidden name value := by
  unfold table PropertyTable.defineHidden PropertyTable.setOwn PropertyTable.hasOwn
  congr 1
  · funext other
    simp only [get?, find?_setHidden, Function.update_apply]
    split <;> rfl
  · simp [allNames_setHidden, allNames_set, ← has_iff_mem_allNames, get?, has]
  · funext other
    simp only [hides, find?_setHidden, Function.update_apply]
    split <;> rfl

theorem table_erase (distinct : properties.allNames.Nodup) :
    (properties.erase name).table = (properties.table.deleteOwn name).2 := by
  unfold PropertyTable.deleteOwn
  split
  · unfold table PropertyTable.without
    dsimp only
    congr 1
    · funext other
      simp only [get?, find?_erase distinct, Function.update_apply]
      split <;> rfl
    · exact allNames_erase properties name
    · funext other
      simp only [hides, find?_erase distinct, Function.update_apply]
      split <;> rfl
  · rename_i notThere
    rw [erase_of_not_mem]
    rw [← has_iff_mem_allNames]
    simpa [table, PropertyTable.hasOwn, get?, has] using notThere

/-! ## The properties of an object with a history -/

theorem written_after (history : PropertyHistory) : (after history).Written := by
  induction history with
  | nil => exact .nil
  | cons last earlier inductionHypothesis =>
      cases last with
      | write name value => exact .set name value inductionHypothesis
      | hide name value => exact .setHidden name value inductionHypothesis
      | remove name => exact .erase name inductionHypothesis

/-- After every history the slots show the table with this history. -/
theorem table_after (history : PropertyHistory) : (after history).table = .after history := by
  induction history with
  | nil => rfl
  | cons last earlier inductionHypothesis =>
      unfold PropertyTable.after
      rw [← inductionHypothesis]
      cases last with
      | write name value => exact table_set
      | hide name value => exact table_setHidden
      | remove name => exact table_erase (written_after earlier).distinct

theorem isListed_eq : properties.isListed name = properties.table.isEnumerable name := by
  unfold isListed PropertyTable.isEnumerable PropertyTable.hasOwn
  simp only [table, get?, hides]
  cases properties.find? name <;> rfl

theorem names_eq (distinct : properties.allNames.Nodup) :
    properties.names = properties.table.ownKeys := by
  unfold names PropertyTable.ownKeys
  simp only [table, allNames, List.filter_map]
  congr 1
  refine List.filter_congr fun slot member => ?_
  simp [hides, find?_of_mem distinct member]

/--
After every sequence of writing, hiding and removing, the slots of an object show the table
that is kept by the same sequence, and this table keeps what the sequence tells.
-/
theorem follow_their_history (history : PropertyHistory) :
    (after history).table = .after history ∧ (after history).names = (after history).table.ownKeys ∧
      (after history).isListed = (after history).table.isEnumerable ∧
        (after history).table.Keeps history := by
  refine ⟨table_after history, names_eq (written_after history).distinct, ?_, ?_⟩
  · exact funext fun name => isListed_eq
  · rw [table_after]
    exact (PropertyTable.after_follows history).keeps

end Properties

end ScriptEngine
