import ScriptEngine.Proofs.Machine.JsonWriting
import ScriptEngine.Proofs.Machine.JsonReading

namespace ScriptEngine

/-!
# What a document says

The text written for a value is read as a document that says what the value shows: numbers
equal to the ones written, strings unchanged, the elements of an array in their order and
the properties of an object in theirs.  Undefined and functions are mute: they are left out
of objects, become null in arrays, and have no text of their own.
-/

/-- A value without a JSON form. -/
inductive Value.Mute : Value → Prop where
  | undefined : Mute .undefined
  | closure {id : Nat} : Mute (.object .closure id)
  | builtin {id : Nat} : Mute (.object .builtin id)

namespace Heap

mutual

/-- A document says what a value shows. -/
inductive Projects (heap : Heap) : Value → JsonTree → Prop where
  | boolean (value : Bool) : Projects heap (.boolean value) (.boolean value)
  | number {value read : Float} :
      Number.isNaN value = false →
      Number.isInfinite value = false →
      (read == value) = true →
      Projects heap (.number value) (.number read)
  | special {value : Float} :
      (Number.isNaN value || Number.isInfinite value) = true →
      Projects heap (.number value) .null
  | string (text : String) : Projects heap (.string text) (.string text)
  | pattern {id : Nat} : Projects heap (.object .pattern id) (.object [])
  | array {id : Nat} {items : List JsonTree} :
      ProjectsItems heap (heap.elements id).toList items →
      Projects heap (.object .array id) (.array items)
  | plain {id : Nat} {members : List JsonMember} :
      ProjectsMembers heap (heap.properties id).listed members →
      Projects heap (.object .plain id) (.object members)

/-- Documents say what elements show, null standing for mute ones. -/
inductive ProjectsItems (heap : Heap) : List Value → List JsonTree → Prop where
  | nil : ProjectsItems heap [] []
  | mute {value : Value} {values : List Value} {items : List JsonTree} :
      value.Mute →
      ProjectsItems heap values items →
      ProjectsItems heap (value :: values) (.null :: items)
  | item {value : Value} {values : List Value} {item : JsonTree} {items : List JsonTree} :
      Projects heap value item →
      ProjectsItems heap values items →
      ProjectsItems heap (value :: values) (item :: items)

/-- Members say what properties show, mute ones being left out. -/
inductive ProjectsMembers (heap : Heap) : List (String × Value) → List JsonMember → Prop where
  | nil : ProjectsMembers heap [] []
  | mute {name : String} {value : Value} {entries : List (String × Value)}
      {members : List JsonMember} :
      value.Mute →
      ProjectsMembers heap entries members →
      ProjectsMembers heap ((name, value) :: entries) members
  | member {name : String} {value : Value} {entries : List (String × Value)}
      {document : JsonTree} {members : List JsonMember} :
      Projects heap value document →
      ProjectsMembers heap entries members →
      ProjectsMembers heap ((name, value) :: entries) (.mk name document :: members)

end

open JsonTree (Reads readValue? readMember?)

/-- What is made of a value: nothing of a mute one, and otherwise a document whose text is read as
what the value shows. -/
def Documents (heap : Heap) (opened : List Nat) (value : Value) : Prop :=
  (heap.jsonInside opened value = .ok none → value.Mute) ∧
    ∀ tree, heap.jsonInside opened value = .ok (some tree) →
      ¬ value.Mute ∧
        ∃ document, Reads readValue? tree.compact.toList document ∧ heap.Projects value document

variable {heap : Heap} {opened : List Nat} {id : Nat}

theorem documents_of_mute {value : Value} (isMute : value.Mute) : heap.Documents opened value := by
  have noDocument : heap.jsonInside opened value = .ok none := by
    cases isMute <;> rw [jsonInside]
  refine ⟨fun _ => isMute, fun tree isOk => ?_⟩
  rw [noDocument] at isOk
  cases isOk

theorem documents_of_error
    {value : Value}
    {fault : TypeFault}
    (isError : heap.jsonInside opened value = .error fault) :
    heap.Documents opened value := by
  refine ⟨fun isNone => ?_, fun tree isTree => ?_⟩
  · rw [isError] at isNone
    cases isNone
  · rw [isError] at isTree
    cases isTree

theorem documents_of_tree
    {value : Value}
    {document : JsonTree}
    (tree : JsonTree)
    (isTree : heap.jsonInside opened value = .ok (some tree))
    (heard : ¬ value.Mute)
    (reads : Reads readValue? tree.compact.toList document)
    (projects : heap.Projects value document) :
    heap.Documents opened value := by
  refine ⟨fun isNone => ?_, fun other isOther => ?_⟩
  · rw [isTree] at isNone
    cases isNone
  · rw [isTree] at isOther
    cases isOther
    exact ⟨heard, document, reads, projects⟩

theorem reads_compact_null : Reads readValue? JsonTree.null.compact.toList .null := by
  rw [JsonTree.compact]
  exact JsonTree.reads_null

theorem documents_number (heap : Heap) (opened : List Nat) (value : Float) :
    heap.Documents opened (.number value) := by
  by_cases special : (Number.isNaN value || Number.isInfinite value) = true
  · refine documents_of_tree .null ?_ nofun ?_ (.special special)
    · rw [jsonInside, if_pos special]
    · exact reads_compact_null
  · obtain ⟨notNaN, notInfinite⟩ : Number.isNaN value = false ∧ Number.isInfinite value = false := by
      simpa using special
    obtain ⟨read, equal, reads⟩ := JsonTree.reads_number notNaN notInfinite
    refine documents_of_tree (.number value) ?_ nofun ?_ (.number notNaN notInfinite equal)
    · rw [jsonInside, if_neg special]
    · rw [JsonTree.compact]
      exact reads

/-- The items made of the elements of an array are read as what the elements show. -/
theorem items_of_elements
    {elements : List Value}
    {items : List JsonTree}
    (inside : ∀ element ∈ elements, heap.Documents opened element)
    (made : (elements.mapM fun element => do
      return (← heap.jsonInside opened element).getD .null) = .ok items) :
    ∃ documents, List.Forall₂ (Reads readValue?) (items.map (·.compact.toList)) documents ∧
      heap.ProjectsItems elements documents := by
  induction elements generalizing items with
  | nil =>
      cases made
      exact ⟨[], .nil, .nil⟩
  | cons element elements inductionHypothesis =>
      obtain ⟨item, others, isItem, remaining, rfl⟩ := ok_of_mapM_cons made
      obtain ⟨documents, read, project⟩ :=
        inductionHypothesis (fun element member => inside element (.tail _ member)) remaining
      obtain ⟨mute, heard⟩ := inside element (.head _)
      rcases through : heap.jsonInside opened element with fault | (_ | tree)
      · rw [through] at isItem
        cases isItem
      · rw [through] at isItem
        cases isItem
        exact ⟨.null :: documents, .cons reads_compact_null read, .mute (mute through) project⟩
      · rw [through] at isItem
        cases isItem
        obtain ⟨-, document, reads, projects⟩ := heard tree through
        exact ⟨document :: documents, .cons reads read, .item projects project⟩

/-- The members made of the properties of an object are read as what the properties show. -/
theorem members_of_entries
    {entries : List (String × Value)}
    {members : List (Option JsonMember)}
    (inside : ∀ entry ∈ entries, heap.Documents opened entry.2)
    (made : (entries.mapM fun entry => do
      return (← heap.jsonInside opened entry.2).map (JsonMember.mk entry.1)) = .ok members) :
    ∃ documents,
      List.Forall₂ (Reads fun budget => readMember? (readValue? budget) budget)
        ((members.filterMap fun member => member).map (·.compact.toList)) documents ∧
      heap.ProjectsMembers entries documents := by
  induction entries generalizing members with
  | nil =>
      cases made
      exact ⟨[], .nil, .nil⟩
  | cons entry entries inductionHypothesis =>
      obtain ⟨member, others, isMember, remaining, rfl⟩ := ok_of_mapM_cons made
      obtain ⟨documents, read, project⟩ :=
        inductionHypothesis (fun entry member => inside entry (.tail _ member)) remaining
      obtain ⟨mute, heard⟩ := inside entry (.head _)
      rcases through : heap.jsonInside opened entry.2 with fault | (_ | tree)
      · rw [through] at isMember
        cases isMember
      · rw [through] at isMember
        cases isMember
        exact ⟨documents, read, .mute (mute through) project⟩
      · rw [through] at isMember
        cases isMember
        obtain ⟨-, document, reads, projects⟩ := heard tree through
        refine ⟨.mk entry.1 document :: documents, .cons ?_ read, .member projects project⟩
        simpa [JsonMember.compact] using JsonTree.reads_member entry.1 reads

theorem toList_compact_array (items : List JsonTree) :
    (JsonTree.array items).compact.toList =
      '[' :: ([','].intercalate (items.map (·.compact.toList)) ++ [']']) := by
  rw [JsonTree.compact, String.toList_append, String.toList_append, String.toList_intercalate,
    JsonTree.compactAll_eq_map, List.map_map]
  rfl

theorem toList_compact_object (members : List JsonMember) :
    (JsonTree.object members).compact.toList =
      '\x7b' :: ([','].intercalate (members.map (·.compact.toList)) ++ ['\x7d']) := by
  rw [JsonTree.compact, String.toList_append, String.toList_append, String.toList_intercalate,
    JsonMember.compactAll_eq_map, List.map_map]
  rfl

theorem documents_array
    (isNew : id ∉ opened)
    (inside : ∀ element ∈ (heap.elements id).toList, heap.Documents (id :: opened) element) :
    heap.Documents opened (.object .array id) := by
  cases made : (heap.elements id).toList.mapM fun element => do
      return (← heap.jsonInside (id :: opened) element).getD .null with
  | error fault =>
      refine @documents_of_error _ _ _ fault ?_
      rw [jsonInside_array isNew, made]
      rfl
  | ok items =>
      obtain ⟨documents, read, project⟩ := items_of_elements inside made
      refine documents_of_tree (.array items) ?_ nofun ?_ (.array project)
      · rw [jsonInside_array isNew, made]
        rfl
      · rw [toList_compact_array]
        exact JsonTree.reads_array read

theorem documents_plain
    (isNew : id ∉ opened)
    (inside : ∀ entry ∈ (heap.properties id).listed, heap.Documents (id :: opened) entry.2) :
    heap.Documents opened (.object .plain id) := by
  cases made : (heap.properties id).listed.mapM fun entry => do
      return (← heap.jsonInside (id :: opened) entry.2).map (JsonMember.mk entry.1) with
  | error fault =>
      refine @documents_of_error _ _ _ fault ?_
      rw [jsonInside_plain isNew, made]
      rfl
  | ok members =>
      obtain ⟨documents, read, project⟩ := members_of_entries inside made
      refine documents_of_tree (.object (members.filterMap fun member => member)) ?_ nofun ?_
        (.plain project)
      · rw [jsonInside_plain isNew, made]
        rfl
      · rw [toList_compact_object]
        exact JsonTree.reads_object read

/-- Every value is mute or has a document that says what it shows. -/
theorem documents (heap : Heap) (opened : List Nat) (value : Value) :
    heap.Documents opened value := by
  fun_induction heap.jsonInside opened value with
  | case1 => exact documents_of_mute .undefined
  | case2 opened value =>
      refine documents_of_tree _ (by rw [jsonInside]) (by rintro ⟨⟩) ?_ (.boolean value)
      rw [JsonTree.compact]
      exact JsonTree.reads_boolean value
  | case3 opened value => exact heap.documents_number opened value
  | case4 opened text =>
      refine documents_of_tree _ (by rw [jsonInside]) (by rintro ⟨⟩) ?_ (.string text)
      rw [JsonTree.compact]
      exact JsonTree.reads_string text
  | case5 => exact documents_of_mute .closure
  | case6 => exact documents_of_mute .builtin
  | case7 opened id =>
      refine documents_of_tree _ (by rw [jsonInside]) (by rintro ⟨⟩) ?_ .pattern
      rw [toList_compact_object]
      exact JsonTree.reads_object .nil
  | case8 opened id isOpen | case10 opened id isOpen =>
      have member : id ∈ opened := by simpa using isOpen
      exact documents_of_error (jsonInside_open (by simp) member)
  | case9 opened id isOld inductionHypothesis =>
      exact documents_array (by simpa using isOld) inductionHypothesis
  | case11 opened id isOld inductionHypothesis =>
      refine documents_plain (by simpa using isOld) ?_
      rintro ⟨name, value⟩ member
      exact inductionHypothesis name value member

end Heap

namespace Run

/-- Writing a value on one line leaves the machine as it is.  A mute value has no text; the text of
any other value is a JSON text, and what it is read as says what the value shows.  Writing
fails only on a circle. -/
theorem jsonText_projects
    (value : Value)
    (machine : Machine) :
    match jsonText "" value machine with
    | .ok none after => value.Mute ∧ after = machine
    | .ok (some text) after =>
        ¬ value.Mute ∧ after = machine ∧
          ∃ document, JsonTree.read? text = some document ∧ machine.heap.Projects value document
    | .error problem after =>
        problem = .raised ⟨.type .circularStructure, none⟩ ∧ after = machine ∧
          ∃ path, machine.heap.Walk value path ∧ ¬ path.Nodup := by
  obtain ⟨mute, heard⟩ := machine.heap.documents [] value
  rw [jsonText_eq]
  rcases machine.heap.json_settles value with ⟨isError, circle⟩ | ⟨⟨document, isOk⟩, -⟩
  · rw [isError]
    exact ⟨rfl, rfl, circle⟩
  · rw [isOk]
    cases document with
    | none => exact ⟨mute isOk, rfl⟩
    | some tree =>
        obtain ⟨notMute, document, reads, projects⟩ := heard tree isOk
        exact ⟨notMute, rfl, document, JsonTree.read?_of_reads reads, projects⟩

end Run

end ScriptEngine
