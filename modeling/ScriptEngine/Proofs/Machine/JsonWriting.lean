import ScriptEngine.Builtin.Run

namespace ScriptEngine

/-!
# Writing on one line

Writing a value while it is gone through gives the text of its document.  What is carried
along is that the open bracket holds the parts written so far with commas between them: a
member that is taken back leaves the text and the comma that is due as they were.
-/

variable {kind : ObjectKind}

namespace Heap

variable {heap : Heap} {opened : List Nat} {id : Nat}

/-- An array is written item by item. -/
theorem jsonInside_array (isNew : id ∉ opened) :
    heap.jsonInside opened (.object .array id) = do
      let items ← (heap.elements id).toList.mapM fun element => do
        return (← heap.jsonInside (id :: opened) element).getD .null
      return some (.array items) := by
  rw [jsonInside, dif_neg (by simpa using isNew)]
  congr 1
  rw [List.mapM_subtype (fun _ _ => rfl), List.unattach_attach]
  rfl

/-- A plain object is written property by property. -/
theorem jsonInside_plain (isNew : id ∉ opened) :
    heap.jsonInside opened (.object .plain id) = do
      let members ← (heap.properties id).listed.mapM fun entry => do
        return (← heap.jsonInside (id :: opened) entry.2).map (JsonMember.mk entry.1)
      return some (.object (members.filterMap fun member => member)) := by
  rw [jsonInside, dif_neg (by simpa using isNew)]
  congr 1
  rw [List.mapM_subtype (fun _ _ => rfl), List.unattach_attach]
  rfl

theorem jsonInside_open (isContainer : kind = .array ∨ kind = .plain) (isOpen : id ∈ opened) :
    heap.jsonInside opened (.object kind id) = .error .circularStructure := by
  rcases isContainer with rfl | rfl <;> rw [jsonInside, dif_pos (by simpa using isOpen)]

/-- Write an element of an array whose bracket is open. -/
def writeElement (heap : Heap) (opened : List Nat) (draft : JsonDraft) (element : Value) :
    Except TypeFault JsonDraft := do
  match ← heap.writeJson opened draft.next element with
  | some written => return ⟨written, false⟩
  | none => return ⟨draft.next ++ "null", false⟩

/-- Write a property of an object whose bracket is open, and take it back if it has no JSON form. -/
def writeProperty (heap : Heap) (opened : List Nat) (draft : JsonDraft) (entry : String × Value) :
    Except TypeFault JsonDraft := do
  match ← heap.writeJson opened (draft.next ++ JsonTree.quoted entry.1 ++ ":") entry.2 with
  | some written => return ⟨written, false⟩
  | none => return draft

theorem writeJson_array (isNew : id ∉ opened) (text : String) :
    heap.writeJson opened text (.object .array id) = do
      let draft ← (heap.elements id).toList.foldlM (heap.writeElement (id :: opened)) ⟨text ++ "[", true⟩
      return some (draft.text ++ "]") := by
  rw [writeJson, dif_neg (by simpa using isNew)]
  congr 1
  rw [List.foldlM_subtype (fun _ _ _ => rfl), List.unattach_attach]
  rfl

theorem writeJson_plain (isNew : id ∉ opened) (text : String) :
    heap.writeJson opened text (.object .plain id) = do
      let draft ←
        (heap.properties id).listed.foldlM (heap.writeProperty (id :: opened)) ⟨text ++ "\x7b", true⟩
      return some (draft.text ++ "\x7d") := by
  rw [writeJson, dif_neg (by simpa using isNew)]
  congr 1
  rw [List.foldlM_subtype (fun _ _ _ => rfl), List.unattach_attach]
  rfl

theorem writeJson_open
    (isContainer : kind = .array ∨ kind = .plain)
    (isOpen : id ∈ opened)
    (text : String) :
    heap.writeJson opened text (.object kind id) = .error .circularStructure := by
  rcases isContainer with rfl | rfl <;> rw [writeJson, dif_pos (by simpa using isOpen)]

end Heap

namespace JsonDraft

/-- A bracket with some more parts in it. -/
def add (draft : JsonDraft) : List String → JsonDraft
  | [] => draft
  | part :: rest => add ⟨draft.next ++ part, false⟩ rest

theorem add_append (draft : JsonDraft) (first second : List String) :
    draft.add (first ++ second) = (draft.add first).add second := by
  induction first generalizing draft with
  | nil => rfl
  | cons part rest inductionHypothesis => exact inductionHypothesis _

theorem text_add (text part : String) (parts : List String) :
    (add ⟨text ++ part, false⟩ parts).text = text ++ ",".intercalate (part :: parts) := by
  induction parts generalizing text part with
  | nil => rw [add, String.intercalate_singleton]
  | cons second parts inductionHypothesis =>
      have separated : next ⟨text ++ part, false⟩ = text ++ part ++ "," := rfl
      rw [String.intercalate_cons_cons, add, separated, inductionHypothesis]
      simp only [String.append_assoc]

/-- The parts of a bracket are between commas. -/
theorem text_add_empty (text : String) (parts : List String) :
    (add ⟨text, true⟩ parts).text = text ++ ",".intercalate parts := by
  cases parts with
  | nil => rw [add, String.intercalate_nil, String.append_empty]
  | cons part parts => exact text_add text part parts

/-- Parts that are written one by one are those of the forms of the items. -/
theorem foldlM_eq_add
    {items : List α}
    {write : JsonDraft → α → Except ε JsonDraft}
    {form : α → Except ε β}
    {render : β → Option String}
    (writes : ∀ item ∈ items, ∀ draft,
      write draft item = (form item).map fun value => draft.add (render value).toList)
    (draft : JsonDraft) :
    items.foldlM write draft =
      (items.mapM form).map fun values => draft.add (values.filterMap render) := by
  induction items generalizing draft with
  | nil => rfl
  | cons item rest inductionHypothesis =>
      rw [List.foldlM_cons, List.mapM_cons, writes item (.head _)]
      cases form item with
      | error fault => rfl
      | ok value =>
          have others := inductionHypothesis (fun item member => writes item (.tail _ member))
            (draft.add (render value).toList)
          change rest.foldlM write (draft.add (render value).toList) = _
          rw [others]
          cases rest.mapM form with
          | error fault => rfl
          | ok values =>
              refine congrArg Except.ok ?_
              change (draft.add (render value).toList).add (values.filterMap render) =
                draft.add ((value :: values).filterMap render)
              rw [← add_append]
              cases shown : render value with
              | none => rw [List.filterMap_cons_none shown, Option.toList_none, List.nil_append]
              | some part =>
                  rw [List.filterMap_cons_some shown, Option.toList_some, List.singleton_append]

end JsonDraft

theorem JsonTree.compactAll_eq_map (items : List JsonTree) :
    JsonTree.compactAll items = items.map JsonTree.compact := by
  induction items with
  | nil => rw [JsonTree.compactAll, List.map_nil]
  | cons first rest inductionHypothesis =>
      rw [JsonTree.compactAll, inductionHypothesis, List.map_cons]

theorem JsonMember.compactAll_eq_map (members : List JsonMember) :
    JsonMember.compactAll members = members.map JsonMember.compact := by
  induction members with
  | nil => rw [JsonMember.compactAll, List.map_nil]
  | cons first rest inductionHypothesis =>
      rw [JsonMember.compactAll, inductionHypothesis, List.map_cons]

namespace Heap

/-- What is written for a value after a text is the text of its document. -/
def WritesDocument (heap : Heap) (opened : List Nat) (value : Value) : Prop :=
  ∀ text, heap.writeJson opened text value =
    (heap.jsonInside opened value).map (Option.map fun tree => text ++ tree.compact)

variable {heap : Heap} {opened : List Nat} {id : Nat}

theorem writesDocument_array
    (isNew : id ∉ opened)
    (inside : ∀ element ∈ (heap.elements id).toList, heap.WritesDocument (id :: opened) element) :
    heap.WritesDocument opened (.object .array id) := by
  intro text
  have each : ∀ element ∈ (heap.elements id).toList, ∀ draft,
      heap.writeElement (id :: opened) draft element =
        (do return (← heap.jsonInside (id :: opened) element).getD JsonTree.null).map
          fun tree : JsonTree => draft.add (some tree.compact).toList := by
    intro element member draft
    rw [writeElement, inside element member]
    rcases heap.jsonInside (id :: opened) element with fault | (_ | tree)
    · rfl
    · rfl
    · rfl
  rw [writeJson_array isNew, jsonInside_array isNew, JsonDraft.foldlM_eq_add each]
  cases (heap.elements id).toList.mapM fun element => do
      return (← heap.jsonInside (id :: opened) element).getD JsonTree.null with
  | error fault => rfl
  | ok items =>
      have written :
          (JsonDraft.add ⟨text ++ "[", true⟩ (items.filterMap fun tree => some tree.compact)).text ++
            "]" = text ++ (JsonTree.array items).compact := by
        rw [JsonDraft.text_add_empty, JsonTree.compact, JsonTree.compactAll_eq_map]
        simp only [String.append_assoc, List.filterMap_eq_map']
      exact congrArg (Except.ok ∘ some) written

theorem writesDocument_plain
    (isNew : id ∉ opened)
    (inside : ∀ entry ∈ (heap.properties id).listed, heap.WritesDocument (id :: opened) entry.2) :
    heap.WritesDocument opened (.object .plain id) := by
  intro text
  have each : ∀ entry ∈ (heap.properties id).listed, ∀ draft,
      heap.writeProperty (id :: opened) draft entry =
        (do return (← heap.jsonInside (id :: opened) entry.2).map (JsonMember.mk entry.1)).map
          fun member : Option JsonMember => draft.add (member.map JsonMember.compact).toList := by
    intro entry member draft
    rw [writeProperty, inside entry member]
    rcases heap.jsonInside (id :: opened) entry.2 with fault | (_ | tree)
    · rfl
    · rfl
    · have shown : draft.next ++ JsonTree.quoted entry.1 ++ ":" ++ tree.compact =
          draft.next ++ (JsonMember.mk entry.1 tree).compact := by
        rw [JsonMember.compact]
        simp only [String.append_assoc]
      exact congrArg (fun text => Except.ok (JsonDraft.mk text false)) shown
  rw [writeJson_plain isNew, jsonInside_plain isNew, JsonDraft.foldlM_eq_add each]
  cases (heap.properties id).listed.mapM fun entry => do
      return (← heap.jsonInside (id :: opened) entry.2).map (JsonMember.mk entry.1) with
  | error fault => rfl
  | ok members =>
      have written :
          (JsonDraft.add ⟨text ++ "\x7b", true⟩
            (members.filterMap fun member => member.map JsonMember.compact)).text ++ "\x7d" =
            text ++ (JsonTree.object (members.filterMap fun member => member)).compact := by
        rw [JsonDraft.text_add_empty, JsonTree.compact, JsonMember.compactAll_eq_map,
          List.map_filterMap]
        simp only [String.append_assoc]
      exact congrArg (Except.ok ∘ some) written

/-- Writing a value on one line gives the text of its document. -/
theorem writesDocument (heap : Heap) (opened : List Nat) (value : Value) :
    heap.WritesDocument opened value := by
  fun_induction heap.jsonInside opened value with
  | case1 | case2 | case4 | case5 | case6 | case7 =>
      intro text
      rw [writeJson, jsonInside]
      rfl
  | case3 opened value =>
      intro text
      rw [writeJson, jsonInside]
      split
      · rfl
      · rfl
  | case8 opened id isOpen | case10 opened id isOpen =>
      have member : id ∈ opened := by simpa using isOpen
      intro text
      rw [writeJson_open (by simp) member, jsonInside_open (by simp) member]
      rfl
  | case9 opened id isOld inductionHypothesis =>
      exact writesDocument_array (by simpa using isOld) inductionHypothesis
  | case11 opened id isOld inductionHypothesis =>
      refine writesDocument_plain (by simpa using isOld) ?_
      rintro ⟨name, value⟩ member
      exact inductionHypothesis name value member

end Heap

/-!
## Circular structures

Writing a value as a document looks into arrays and plain objects, and keeps the list of
objects it is inside of.  It comes back to one of them exactly when some way into the
value passes an object twice, and that is the only reason for it to fail.  An object
that is reached by two ways is written twice and is no circle.
-/

namespace Heap

/-- What an object shows when it is written: an array its elements, a plain object the
properties that are not hidden.  Functions and regular expressions show nothing. -/
inductive Shows (heap : Heap) : ObjectKind → Nat → Value → Prop where
  | element {id : Nat} {element : Value} :
      element ∈ (heap.elements id).toList →
      Shows heap .array id element
  | property {id : Nat} {entry : String × Value} :
      entry ∈ (heap.properties id).listed →
      Shows heap .plain id entry.2

/-- The objects that a way into a value passes, from the outside in. -/
inductive Walk (heap : Heap) : Value → List Nat → Prop where
  | array {id : Nat} : Walk heap (.object .array id) [id]
  | plain {id : Nat} : Walk heap (.object .plain id) [id]
  | into {kind : ObjectKind} {id : Nat} {inner : Value} {path : List Nat} :
      Shows heap kind id inner →
      Walk heap inner path →
      Walk heap (.object kind id) (id :: path)

/-- Some way into a value passes an object twice, or one of those around the value. -/
def ComesBack (heap : Heap) (opened : List Nat) (value : Value) : Prop :=
  ∃ path, heap.Walk value path ∧ ¬ (path ++ opened).Nodup

variable {heap : Heap} {opened : List Nat} {id : Nat}

/-- A container that is written for the first time comes back exactly if something it
shows does. -/
theorem comesBack_iff_of_new (distinct : opened.Nodup) (isNew : id ∉ opened) :
    heap.ComesBack opened (.object kind id) ↔
      ∃ inner, heap.Shows kind id inner ∧ heap.ComesBack (id :: opened) inner := by
  -- The object moves from the end of those around to the front of the way.
  have moved (path : List Nat) : (id :: path ++ opened).Nodup ↔ (path ++ id :: opened).Nodup :=
    List.perm_middle.symm.nodup_iff
  constructor
  · rintro ⟨path, walk, repeats⟩
    cases walk with
    | array | plain => exact absurd (List.nodup_cons.mpr ⟨isNew, distinct⟩) repeats
    | into shows walk => exact ⟨_, shows, _, walk, fun nodup => repeats ((moved _).mpr nodup)⟩
  · rintro ⟨inner, shows, path, walk, repeats⟩
    exact ⟨id :: path, .into shows walk, fun nodup => repeats ((moved _).mp nodup)⟩

theorem comesBack_of_open (isContainer : kind = .array ∨ kind = .plain) (isOpen : id ∈ opened) :
    heap.ComesBack opened (.object kind id) := by
  refine ⟨[id], ?_, fun nodup => (List.nodup_cons.mp nodup).1 isOpen⟩
  rcases isContainer with rfl | rfl
  · exact .array
  · exact .plain

/-- A value that shows nothing never comes back. -/
theorem not_comesBack_of_opaque
    {value : Value}
    (isOpaque : ∀ id, value ≠ .object .array id ∧ value ≠ .object .plain id) :
    ¬ heap.ComesBack opened value := by
  rintro ⟨path, walk, -⟩
  cases walk with
  | array => exact (isOpaque _).1 rfl
  | plain => exact (isOpaque _).2 rfl
  | into shows _ =>
      cases shows with
      | element => exact (isOpaque _).1 rfl
      | property => exact (isOpaque _).2 rfl

end Heap

/-- An error met while going through a list is that of one of its items. -/
theorem exists_error_of_mapM
    {act : α → Except ε β}
    {items : List α}
    {error : ε}
    (failed : items.mapM act = .error error) :
    ∃ item ∈ items, act item = .error error := by
  induction items with
  | nil => cases failed
  | cons first rest inductionHypothesis =>
      rw [List.mapM_cons] at failed
      cases done : act first with
      | error problem =>
          rw [done] at failed
          cases failed
          exact ⟨first, .head _, done⟩
      | ok value =>
          rw [done] at failed
          cases others : rest.mapM act with
          | ok values =>
              rw [others] at failed
              cases failed
          | error problem =>
              rw [others] at failed
              cases failed
              obtain ⟨item, member, itemFailed⟩ := inductionHypothesis others
              exact ⟨item, .tail _ member, itemFailed⟩

/-- Going through a list has a result only if the first item and the others have. -/
theorem ok_of_mapM_cons
    {act : α → Except ε β}
    {first : α}
    {rest : List α}
    {values : List β}
    (succeeded : (first :: rest).mapM act = .ok values) :
    ∃ value others, act first = .ok value ∧ rest.mapM act = .ok others ∧ values = value :: others := by
  rw [List.mapM_cons] at succeeded
  cases done : act first with
  | error problem =>
      rw [done] at succeeded
      cases succeeded
  | ok value =>
      rw [done] at succeeded
      cases remaining : rest.mapM act with
      | error problem =>
          rw [remaining] at succeeded
          cases succeeded
      | ok others =>
          rw [remaining] at succeeded
          cases succeeded
          exact ⟨value, others, rfl, rfl, rfl⟩

/-- Going through a list has a result only if every item has. -/
theorem ok_of_mapM
    {act : α → Except ε β}
    {items : List α}
    {values : List β}
    (succeeded : items.mapM act = .ok values) :
    ∀ item ∈ items, ∃ value, act item = .ok value := by
  induction items generalizing values with
  | nil => exact nofun
  | cons first rest inductionHypothesis =>
      obtain ⟨value, others, done, remaining, rfl⟩ := ok_of_mapM_cons succeeded
      rintro item (_ | ⟨_, member⟩)
      · exact ⟨value, done⟩
      · exact inductionHypothesis remaining item member

namespace Heap

/-- Writing a value fails, for it comes back, or it gives a document or nothing. -/
def Settles (heap : Heap) (opened : List Nat) (value : Value) : Prop :=
  heap.jsonInside opened value = .error .circularStructure ∧ heap.ComesBack opened value ∨
    (∃ document, heap.jsonInside opened value = .ok document) ∧ ¬ heap.ComesBack opened value

variable {heap : Heap} {opened : List Nat} {id : Nat}

/-- A container that is written part by part settles if each part does. -/
theorem settles_container
    {parts : List α}
    {inner : α → Value}
    {form : α → Option JsonTree → β}
    {build : List β → Option JsonTree}
    (distinct : opened.Nodup)
    (isNew : id ∉ opened)
    (written : heap.jsonInside opened (.object kind id) = do
      let forms ← parts.mapM fun part => do
        return form part (← heap.jsonInside (id :: opened) (inner part))
      return build forms)
    (shows : ∀ value, heap.Shows kind id value ↔ ∃ part ∈ parts, inner part = value)
    (settle : ∀ part ∈ parts, heap.Settles (id :: opened) (inner part)) :
    heap.Settles opened (.object kind id) := by
  rw [Settles, written, comesBack_iff_of_new distinct isNew]
  simp only [shows]
  cases through : parts.mapM fun part => do
      return form part (← heap.jsonInside (id :: opened) (inner part)) with
  | error fault =>
      left
      obtain ⟨part, member, failed⟩ := exists_error_of_mapM through
      rcases settle part member with ⟨isError, comesBack⟩ | ⟨⟨document, isOk⟩, -⟩
      · rw [isError] at failed
        cases failed
        exact ⟨rfl, _, ⟨part, member, rfl⟩, comesBack⟩
      · rw [isOk] at failed
        cases failed
  | ok forms =>
      right
      refine ⟨⟨build forms, rfl⟩, ?_⟩
      rintro ⟨_, ⟨part, member, rfl⟩, comesBack⟩
      obtain ⟨value, done⟩ := ok_of_mapM through part member
      rcases settle part member with ⟨isError, -⟩ | ⟨-, never⟩
      · rw [isError] at done
        cases done
      · exact never comesBack

theorem settles_of_opaque
    {value : Value}
    (isOpaque : ∀ id, value ≠ .object .array id ∧ value ≠ .object .plain id)
    (isOk : ∃ document, heap.jsonInside opened value = .ok document) :
    heap.Settles opened value :=
  .inr ⟨isOk, not_comesBack_of_opaque isOpaque⟩

theorem shows_array_iff (value : Value) :
    heap.Shows .array id value ↔ ∃ element ∈ (heap.elements id).toList, element = value := by
  constructor
  · intro shows
    cases shows with
    | element member => exact ⟨value, member, rfl⟩
  · rintro ⟨_, member, rfl⟩
    exact .element member

theorem shows_plain_iff (value : Value) :
    heap.Shows .plain id value ↔ ∃ entry ∈ (heap.properties id).listed, entry.2 = value := by
  constructor
  · intro shows
    cases shows with
    | property member => exact ⟨_, member, rfl⟩
  · rintro ⟨_, member, rfl⟩
    exact .property member

/-- Inside objects that are all different, writing a value settles. -/
theorem settles
    (heap : Heap)
    (opened : List Nat)
    (value : Value)
    (distinct : opened.Nodup) :
    heap.Settles opened value := by
  -- The recursion goes into parts with one more object opened.
  fun_induction heap.jsonInside opened value with
  | case1 | case2 | case3 | case4 | case5 | case6 | case7 =>
      refine settles_of_opaque (by simp) ?_
      rw [jsonInside]
      exact ⟨_, rfl⟩
  | case8 opened id isOpen | case10 opened id isOpen =>
      have member : id ∈ opened := by simpa using isOpen
      exact .inl ⟨jsonInside_open (by simp) member, comesBack_of_open (by simp) member⟩
  | case9 opened id isOld inductionHypothesis =>
      have isNew : id ∉ opened := by simpa using isOld
      have distinctInside : (id :: opened).Nodup := List.nodup_cons.mpr ⟨isNew, distinct⟩
      refine settles_container distinct isNew (jsonInside_array isNew) shows_array_iff ?_
      intro element member
      exact inductionHypothesis element member distinctInside
  | case11 opened id isOld inductionHypothesis =>
      have isNew : id ∉ opened := by simpa using isOld
      have distinctInside : (id :: opened).Nodup := List.nodup_cons.mpr ⟨isNew, distinct⟩
      refine settles_container distinct isNew (jsonInside_plain isNew) shows_plain_iff ?_
      rintro ⟨name, value⟩ member
      exact inductionHypothesis name value member distinctInside

/-- Writing a value as a document has an outcome, and it fails exactly if some way into the
value passes an object twice. -/
theorem json_settles (heap : Heap) (value : Value) :
    heap.json value = .error .circularStructure ∧
        (∃ path, heap.Walk value path ∧ ¬ path.Nodup) ∨
      (∃ document, heap.json value = .ok document) ∧
        ¬ ∃ path, heap.Walk value path ∧ ¬ path.Nodup := by
  simpa [Settles, ComesBack, json] using heap.settles [] value List.nodup_nil

end Heap

namespace Run

/-- A value is written by way of its document. -/
theorem jsonText_eq (indent : String) (value : Value) (machine : Machine) :
    jsonText indent value machine =
      match machine.heap.json value with
      | .ok none => .ok none machine
      | .ok (some tree) =>
          match tree.text indent with
          | .ok text => .ok (some text) machine
          | .error fault => .error (.raised ⟨.internal fault, none⟩) machine
      | .error fault => .error (.raised ⟨.type fault, none⟩) machine := by
  rw [jsonText, heap_bind]
  by_cases compact : indent.isEmpty = true
  · -- Without indentation the text is written at once.
    have written := machine.heap.writesDocument [] value ""
    have laidOut (tree : JsonTree) : tree.text indent = .ok tree.compact := by
      rw [JsonTree.text, if_pos compact]
    simp only [if_pos compact, laidOut]
    rw [written, Heap.json]
    rcases machine.heap.jsonInside [] value with fault | (_ | tree)
    · rfl
    · rfl
    · exact congrArg (fun text => EStateM.Result.ok (some text) machine) String.empty_append
  · simp only [if_neg compact]
    rcases machine.heap.json value with fault | (_ | tree)
    · rfl
    · rfl
    · simp only
      cases tree.text indent with
      | ok text => rfl
      | error fault => rfl

/-- Writing a value as JSON fails with the type error on circular structures exactly if
some way into the value, through elements of arrays and listed properties of plain
objects, passes an object twice; otherwise the value has its document, or none. -/
theorem jsonText_circular_iff
    (indent : String)
    (value : Value)
    (machine : Machine) :
    ((∃ error after,
        jsonText indent value machine = .error (.raised error) after ∧
        error.kind = .type ∧ error.message = "Converting circular structure to JSON") ↔
      ∃ path, machine.heap.Walk value path ∧ ¬ path.Nodup) ∧
    ((∀ path, machine.heap.Walk value path → path.Nodup) ↔
      ∃ document, machine.heap.json value = .ok document) := by
  rw [jsonText_eq]
  rcases machine.heap.json_settles value with
    ⟨isError, circle⟩ | ⟨⟨document, isOk⟩, noCircle⟩
  · rw [isError]
    refine ⟨⟨fun _ => circle, fun _ => ⟨_, machine, rfl, rfl, rfl⟩⟩, fun distinct => ?_, nofun⟩
    obtain ⟨path, walk, repeats⟩ := circle
    exact absurd (distinct path walk) repeats
  · have distinct : ∀ path, machine.heap.Walk value path → path.Nodup := by
      intro path walk
      exact Decidable.byContradiction fun repeats => noCircle ⟨path, walk, repeats⟩
    refine ⟨⟨?_, fun circle => absurd circle noCircle⟩, fun _ => ⟨document, isOk⟩, fun _ => distinct⟩
    rintro ⟨error, after, fails, isType, -⟩
    rw [isOk] at fails
    cases document with
    | none => cases fails
    | some tree =>
        simp only at fails
        split at fails
        · cases fails
        · cases fails
          cases isType

end Run

end ScriptEngine
