import ScriptEngine.Machine.Access

namespace ScriptEngine.Heap

/-!
# Values as the console shows them

Texts stand as they are, or in quotes inside a container.  An object inside itself
is marked, and what is nested too deeply is left out.
-/

/-- The most containers a shown value is nested in. -/
def inspectionDepth : Nat :=
  16

/-- A function as the console shows it. -/
def inspectFunction (name : String) : String :=
  if name.isEmpty then "[Function (anonymous)]" else "[Function: " ++ name ++ "]"

/-- A property as the console shows it. -/
def inspectEntry (render : Value → String) (entry : String × Value) : String :=
  entry.1 ++ ": " ++ render entry.2

/--
A value as the console shows it.  The budget is the number of containers that may
still be opened, and `seen` are the ones that are open.
-/
def inspectFrom (heap : Heap) : Nat → Bool → List Nat → Value → String
  | _, nested, _, .string text => if nested then Text.quoted text else text
  | _, _, _, .object .closure id => inspectFunction (heap.functionName (.object .closure id))
  | _, _, _, .object .builtin id => inspectFunction (heap.functionName (.object .builtin id))
  | _, _, _, .object .pattern id => (heap.pattern? id).elim "" Pattern.text
  | 0, _, seen, .object .plain id => if seen.contains id then "[Circular]" else "[...]"
  | 0, _, seen, .object .array id => if seen.contains id then "[Circular]" else "[...]"
  | budget + 1, _, seen, .object .plain id =>
      if seen.contains id then "[Circular]"
      else
        let render := heap.inspectFrom budget true (id :: seen)
        "\x7b" ++ ", ".intercalate ((heap.properties id).listed.map (inspectEntry render)) ++ "\x7d"
  | budget + 1, _, seen, .object .array id =>
      if seen.contains id then "[Circular]"
      else
        let render := heap.inspectFrom budget true (id :: seen)
        "[" ++ ", ".intercalate ((heap.elements id).toList.map render ++
          (heap.properties id).listed.map (inspectEntry render)) ++ "]"
  | _, _, _, primitive => primitive.primitiveText

/-- A value as the console shows it on its own. -/
def inspect (heap : Heap) (value : Value) : String :=
  heap.inspectFrom inspectionDepth false [] value

/-- A value as the console shows it inside a container. -/
def inspectNested (heap : Heap) (value : Value) : String :=
  heap.inspectFrom inspectionDepth true [] value

end ScriptEngine.Heap
