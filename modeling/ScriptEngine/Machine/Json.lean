import ScriptEngine.Machine.Access

namespace ScriptEngine

/-!
# JSON documents of values

A value stands for a document: what has no JSON form is left out of objects and
becomes null in arrays.  A document is laid out on one line or with every member on a
line of its own.  The one line is written while the value is gone through, and a member
that turns out to have no JSON form is taken back.
-/

mutual

/-- A JSON document. -/
inductive JsonTree where
  | null
  | boolean (value : Bool)
  | number (value : Float)
  | string (text : String)
  | array (items : List JsonTree)
  | object (members : List JsonMember)

/-- A member of a JSON object. -/
inductive JsonMember where
  | mk (name : String) (value : JsonTree)

end

namespace JsonTree

/-- The letter of a short escape. -/
def shortEscape? : Nat → Option Char
  | 8 => some 'b'
  | 9 => some 't'
  | 10 => some 'n'
  | 12 => some 'f'
  | 13 => some 'r'
  | 34 => some '"'
  | 92 => some '\\'
  | _ => none

/-- A character inside a JSON string. -/
def escaped (char : Char) : String :=
  match shortEscape? char.toNat with
  | some letter => String.ofList ['\\', letter]
  | none =>
      if char.toNat < 0x20 || char.toNat == 0x2028 || char.toNat == 0x2029 then
        "\\u" ++ Text.hexText 4 char.toNat
      else String.singleton char

/-- A JSON string. -/
def quoted (text : String) : String :=
  "\"" ++ String.join (text.toList.map escaped) ++ "\""

end JsonTree

mutual

/-- A document on one line. -/
def JsonTree.compact : JsonTree → String
  | .null => "null"
  | .boolean value => if value then "true" else "false"
  | .number value => Number.text value
  | .string text => JsonTree.quoted text
  | .array items => "[" ++ ",".intercalate (JsonTree.compactAll items) ++ "]"
  | .object members => "\x7b" ++ ",".intercalate (JsonMember.compactAll members) ++ "\x7d"

/-- Documents on one line each. -/
def JsonTree.compactAll : List JsonTree → List String
  | [] => []
  | first :: rest => first.compact :: JsonTree.compactAll rest

/-- A member on one line. -/
def JsonMember.compact : JsonMember → String
  | .mk name value => JsonTree.quoted name ++ ":" ++ value.compact

/-- Members on one line each. -/
def JsonMember.compactAll : List JsonMember → List String
  | [] => []
  | first :: rest => first.compact :: JsonMember.compactAll rest

end

/-- Parts between brackets, each on an indented line of its own. -/
def JsonTree.spread (opening closing indent : String) (depth : Nat) (parts : List String) :
    String :=
  let inner := "\n" ++ Text.repeated indent (depth + 1)
  if parts.isEmpty then opening ++ closing
  else
    opening ++ inner ++ ("," ++ inner).intercalate parts ++ "\n" ++ Text.repeated indent depth ++
      closing

mutual

/-- A document with every item and member on a line of its own. -/
def JsonTree.indented (indent : String) (depth : Nat) : JsonTree → String
  | .null => "null"
  | .boolean value => if value then "true" else "false"
  | .number value => Number.text value
  | .string text => JsonTree.quoted text
  | .array items =>
      JsonTree.spread "[" "]" indent depth (JsonTree.indentedAll indent (depth + 1) items)
  | .object members =>
      JsonTree.spread "\x7b" "\x7d" indent depth
        (JsonMember.indentedAll indent (depth + 1) members)

/-- Indented documents. -/
def JsonTree.indentedAll (indent : String) (depth : Nat) : List JsonTree → List String
  | [] => []
  | first :: rest => first.indented indent depth :: JsonTree.indentedAll indent depth rest

/-- An indented member. -/
def JsonMember.indented (indent : String) (depth : Nat) : JsonMember → String
  | .mk name value => JsonTree.quoted name ++ ": " ++ value.indented indent depth

/-- Indented members. -/
def JsonMember.indentedAll (indent : String) (depth : Nat) : List JsonMember → List String
  | [] => []
  | first :: rest => first.indented indent depth :: JsonMember.indentedAll indent depth rest

end

mutual

/-- The first bracket of a document that opens more than `depth` levels. -/
def JsonTree.tooDeep? : JsonTree → Nat → Option Char
  | .array _, 0 => some '['
  | .object _, 0 => some '\x7b'
  | .array items, depth + 1 => JsonTree.tooDeepAll? items depth
  | .object members, depth + 1 => JsonMember.tooDeepAll? members depth
  | _, _ => none

/-- The first bracket of some documents that opens more than `depth` levels. -/
def JsonTree.tooDeepAll? : List JsonTree → Nat → Option Char
  | [], _ => none
  | first :: rest, depth =>
      match first.tooDeep? depth with
      | some bracket => some bracket
      | none => JsonTree.tooDeepAll? rest depth

/-- The first bracket of a member that opens more than `depth` levels. -/
def JsonMember.tooDeep? : JsonMember → Nat → Option Char
  | .mk _ value, depth => value.tooDeep? depth

/-- The first bracket of some members that opens more than `depth` levels. -/
def JsonMember.tooDeepAll? : List JsonMember → Nat → Option Char
  | [], _ => none
  | first :: rest, depth =>
      match first.tooDeep? depth with
      | some bracket => some bracket
      | none => JsonMember.tooDeepAll? rest depth

end

/-- The most levels of a document that is indented. -/
def JsonTree.levelLimit : Nat :=
  10000

/-- A document with the given indentation, on one line without any. -/
def JsonTree.text (indent : String) (tree : JsonTree) : Except InternalFault String :=
  if indent.isEmpty then .ok tree.compact
  else
    match tree.tooDeep? JsonTree.levelLimit with
    | some bracket => .error (.nestedTooDeep bracket)
    | none => .ok (tree.indented indent 0)

namespace Heap

/-- How many objects of the heap are not among those opened. -/
def unopened (heap : Heap) (opened : List Nat) : Nat :=
  (List.range heap.size).countP fun id => !opened.contains id

theorem unopened_lt
    {heap : Heap}
    {opened : List Nat}
    {id : Nat}
    (bound : id < heap.size)
    (isNew : ¬ opened.contains id = true) :
    heap.unopened (id :: opened) < heap.unopened opened := by
  have isCounted : id ∈ (List.range heap.size).filter fun id => !opened.contains id := by
    simpa [bound] using isNew
  unfold unopened
  rw [List.countP_eq_length_filter, List.countP_eq_length_filter]
  calc ((List.range heap.size).filter fun other => !(id :: opened).contains other).length
      = (((List.range heap.size).filter fun other => !opened.contains other).filter
          fun other => other != id).length := by
        rw [List.filter_filter]
        congr 2
        funext other
        rw [List.contains_cons, Bool.not_or, bne]
    _ < ((List.range heap.size).filter fun other => !opened.contains other).length := by
        apply List.length_filter_lt_length_iff_exists.mpr
        exact ⟨id, isCounted, by simp⟩

theorem lt_size_of_mem_elements
    {heap : Heap}
    {id : Nat}
    {element : Value}
    (member : element ∈ (heap.elements id).toList) :
    id < heap.size := by
  cases found : heap[id]? with
  | none => simp [elements, storage, body, found, Storage.exact] at member
  | some object => exact (Array.getElem?_eq_some_iff.mp found).1

theorem lt_size_of_mem_listed
    {heap : Heap}
    {id : Nat}
    {entry : String × Value}
    (member : entry ∈ (heap.properties id).listed) :
    id < heap.size := by
  cases found : heap[id]? with
  | none => simp [properties, found, Properties.listed] at member
  | some object => exact (Array.getElem?_eq_some_iff.mp found).1

/--
The document of a value, nothing if it has none.  `opened` are the objects around
the value, none of which is opened again.
-/
def jsonInside (heap : Heap) (opened : List Nat) : Value → Except TypeFault (Option JsonTree)
  | .undefined => .ok none
  | .boolean value => .ok (some (.boolean value))
  | .number value =>
      .ok (some (if Number.isNaN value || Number.isInfinite value then .null else .number value))
  | .string text => .ok (some (.string text))
  | .object .closure _ => .ok none
  | .object .builtin _ => .ok none
  | .object .pattern _ => .ok (some (.object []))
  | .object .array id =>
      if _ : opened.contains id then .error .circularStructure
      else do
        let items ← (heap.elements id).toList.attach.mapM fun ⟨element, _⟩ => do
          return (← heap.jsonInside (id :: opened) element).getD .null
        return some (.array items)
  | .object .plain id =>
      if _ : opened.contains id then .error .circularStructure
      else do
        let members ← (heap.properties id).listed.attach.mapM fun ⟨(name, value), _⟩ => do
          return (← heap.jsonInside (id :: opened) value).map (JsonMember.mk name)
        return some (.object (members.filterMap fun member => member))
termination_by heap.unopened opened
decreasing_by
  · exact unopened_lt (lt_size_of_mem_elements ‹_›) ‹_›
  · exact unopened_lt (lt_size_of_mem_listed ‹_›) ‹_›

/-- The document of a value, nothing if it has none. -/
def json (heap : Heap) (value : Value) : Except TypeFault (Option JsonTree) :=
  heap.jsonInside [] value

end Heap

/-- A bracket that is being written: the text up to here, and whether no part is in it yet. -/
structure JsonDraft where
  text : String
  isEmpty : Bool

/-- The text up to the next part of a bracket. -/
def JsonDraft.next (draft : JsonDraft) : String :=
  if draft.isEmpty then draft.text else draft.text ++ ","

namespace Heap

/--
A value written on one line after a text, nothing if it has no JSON form.  `opened` are
the objects around the value, none of which is opened again.
-/
def writeJson (heap : Heap) (opened : List Nat) (text : String) :
    Value → Except TypeFault (Option String)
  | .undefined => .ok none
  | .boolean value => .ok (some (text ++ if value then "true" else "false"))
  | .number value =>
      .ok (some (text ++
        if Number.isNaN value || Number.isInfinite value then "null" else Number.text value))
  | .string value => .ok (some (text ++ JsonTree.quoted value))
  | .object .closure _ => .ok none
  | .object .builtin _ => .ok none
  | .object .pattern _ => .ok (some (text ++ "\x7b\x7d"))
  | .object .array id =>
      if _ : opened.contains id then .error .circularStructure
      else do
        let draft ← (heap.elements id).toList.attach.foldlM (fun draft ⟨element, _⟩ => do
          match ← heap.writeJson (id :: opened) draft.next element with
          | some written => return ⟨written, false⟩
          | none => return ⟨draft.next ++ "null", false⟩) (JsonDraft.mk (text ++ "[") true)
        return some (draft.text ++ "]")
  | .object .plain id =>
      if _ : opened.contains id then .error .circularStructure
      else do
        let draft ← (heap.properties id).listed.attach.foldlM (fun draft ⟨(name, value), _⟩ => do
          let begun := draft.next ++ JsonTree.quoted name ++ ":"
          match ← heap.writeJson (id :: opened) begun value with
          | some written => return ⟨written, false⟩
          | none => return draft) (JsonDraft.mk (text ++ "\x7b") true)
        return some (draft.text ++ "\x7d")
termination_by heap.unopened opened
decreasing_by
  · exact unopened_lt (lt_size_of_mem_elements ‹_›) ‹_›
  · exact unopened_lt (lt_size_of_mem_listed ‹_›) ‹_›

end Heap

end ScriptEngine
