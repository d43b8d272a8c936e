import ScriptEngine.Builtin.Argument

namespace ScriptEngine.Run

/-!
# Functions of arrays

What `Array` and its prototype offer.  Converting an argument may run script code
that changes the array, so each function says when it looks at the array.
-/

/-- The array a method is called on. -/
def receivingArray (method : String) : Value → Run Nat
  | .object .array id => pure id
  | this => failType (.arrayReceiver method this.typeof)

/-- Refuse a length beyond the greatest one. -/
def checkLength (length : Nat) : Run Unit :=
  if Storage.maxLength < length then failRange .arrayLength else pure ()

/-- Append the arguments; gives the new length. -/
def arrayPush (this : Value) (arguments : List Value) : Run Value := do
  let id ← receivingArray "push" this
  checkLength ((← heap).arrayLength id + arguments.length)
  changeHeap (·.modifyStorage id (·.append arguments))
  return .ofNat ((← heap).arrayLength id)

/-- Remove the last element and give it; an array beyond the greatest length is refused. -/
def arrayPop (this : Value) : Run Value := do
  let id ← receivingArray "pop" this
  let length := (← heap).arrayLength id
  let last := (← heap).elements id |>.back?
  match last with
  | some last =>
      checkLength length
      changeHeap (·.modifyStorage id Storage.dropLast)
      return last
  | none => return .undefined

/--
Remove the first element and give it.  An array beyond the greatest length is refused,
but only after its elements have moved.
-/
def arrayShift (this : Value) : Run Value := do
  let id ← receivingArray "shift" this
  let length := (← heap).arrayLength id
  let first := ((← heap).elements id)[0]?
  match first with
  | some first =>
      changeHeap (·.modifyStorage id Storage.moveDown)
      checkLength length
      changeHeap (·.modifyStorage id Storage.dropLast)
      return first
  | none => return .undefined

/-- Put the arguments in front; gives the new length. -/
def arrayUnshift (this : Value) (arguments : List Value) : Run Value := do
  let id ← receivingArray "unshift" this
  checkLength ((← heap).arrayLength id + arguments.length)
  changeHeap (·.modifyStorage id (·.prepend arguments))
  return .ofNat ((← heap).arrayLength id)

/-- The values an argument of `concat` adds. -/
def spliced (heap : Heap) : Value → List Value
  | .object .array id => (heap.elements id).toList
  | value => [value]

/-- A new array of the elements and what the arguments add. -/
def arrayConcat (this : Value) (arguments : List Value) : Run Value := do
  let id ← receivingArray "concat" this
  let heap ← heap
  let joined := arguments.foldl (fun storage value => storage.append (spliced heap value))
    (Storage.copied (heap.elements id))
  checkLength joined.length
  makeArray { joined with trail := .start }

/--
The texts of the elements from an index on.  They are read from the block the
elements lay in at the start, also when they move to another one meanwhile.
-/
def joinParts (call : Caller) (id moves : Nat) : Nat → Nat → Run (List String)
  | 0, _ => pure []
  | remaining + 1, index => do
      let part ← match (((← heap).storage id).block moves)[index]?.getD .undefined with
        | .undefined => pure ""
        | element => toText call element
      let parts ← joinParts call id moves remaining (index + 1)
      return part :: parts

/-- The texts of the elements with a separator between them. -/
def arrayJoin (call : Caller) (this : Value) (arguments : List Value) : Run Value := do
  let id ← receivingArray "join" this
  let separator ← match argument arguments 0 with
    | .undefined => pure ","
    | value => toText call value
  let storage := (← heap).storage id
  changeHeap (·.modifyStorage id Storage.watch)
  let parts ← joinParts call id storage.trail.moves storage.length 0
  changeHeap (·.modifyStorage id Storage.unwatch)
  return .string (separator.intercalate parts)

/-- A position given by an argument, or a default if there is none. -/
def position (call : Caller) (default length : Nat) (value : Value) : Run Nat := do
  if value.isUndefined then pure default
  else return relativeIndex (← toInteger call value) length

/-- A new array of the elements between two positions. -/
def arraySlice (call : Caller) (this : Value) (arguments : List Value) : Run Value := do
  let id ← receivingArray "slice" this
  let length := (← heap).arrayLength id
  let start ← position call 0 length (argument arguments 0)
  let stop ← position call length length (argument arguments 1)
  if stop ≤ start then makeArray (Storage.exact #[])
  else
    match ((← heap).storage id).slots start stop with
    | .ok elements => makeArray (Storage.copied elements)
    | .error fault => throw (.broken fault)

/-- The first place at or after a start that holds a value. -/
def arrayIndexOf (call : Caller) (this : Value) (arguments : List Value) : Run Value := do
  let id ← receivingArray "indexOf" this
  let start ← match argument arguments 1 with
    | .undefined => pure 0
    | value =>
        let wanted ← toInteger call value
        pure (relativeIndex wanted ((← heap).arrayLength id))
  let target := argument arguments 0
  let elements := ((← heap).elements id).toList.drop start
  match elements.findIdx? (·.strictEquals target) with
  | some offset => return .ofNat (start + offset)
  | none => return .number (-1.0)

/-- A new array of a length or of the arguments. -/
def arrayNew (arguments : List Value) : Run Value := do
  match arguments with
  | [.number length] =>
      let array ← makeArray (Storage.exact #[])
      match array with
      | .object _ id =>
          setLength id length
          return array
      | other => return other
  | _ => makeArray (Storage.copied arguments.toArray)

end ScriptEngine.Run
