import ScriptEngine.Error
import ScriptEngine.Machine.Value

namespace ScriptEngine

/-!
# Array storage

The elements of an array lie in a block with room for more.  Appending within the
room keeps the block; appending beyond it moves the elements to a larger one.
Slots between the last element and the end of the block read as undefined.

Whoever reads an array element by element while scripts run stays with the block
the reading began in.  A block that is left while somebody reads is therefore kept.

A larger block doubles the room while it is small and adds a quarter and a bit
once it is large.  Its size is then rounded up to one of the sizes blocks come in.
-/

/-- How often elements moved, how many readings are going on, and the blocks left meanwhile. -/
structure Trail where
  moves : Nat
  readings : Nat
  kept : List (Nat × Array Value)

namespace Trail

/-- Before the first move. -/
def start : Trail :=
  ⟨0, 0, []⟩

/-- Leave a block for another one. -/
def leave (trail : Trail) (elements : Array Value) : Trail :=
  if trail.readings = 0 then { trail with moves := trail.moves + 1 }
  else { trail with moves := trail.moves + 1, kept := (trail.moves, elements) :: trail.kept }

/-- Begin a reading. -/
def watch (trail : Trail) : Trail :=
  { trail with readings := trail.readings + 1 }

/-- End a reading; after the last one no block need be kept. -/
def unwatch (trail : Trail) : Trail :=
  if trail.readings ≤ 1 then { trail with readings := 0, kept := [] }
  else { trail with readings := trail.readings - 1 }

end Trail

/-- The elements of an array, the room of their block, in which they fit, and the trail of their
moves. -/
structure Storage where
  elements : Array Value
  capacity : Nat
  trail : Trail
  fits : elements.size ≤ capacity

namespace Storage

/-- The most elements an array may have. -/
def maxLength : Nat :=
  Nat.pow 2 24

/-- The number of bytes of an element. -/
def elementBytes : Nat :=
  24

/-- The number of bytes of a page, of which large blocks are multiples. -/
def pageBytes : Nat :=
  8192

/-- The sizes of small blocks in bytes. -/
def blockSizes : List Nat :=
  [8, 16, 24, 32, 48, 64, 80, 96, 112, 128, 144, 160, 176, 192, 208, 224, 240, 256, 288, 320,
    352, 384, 416, 448, 480, 512, 576, 640, 704, 768, 896, 1024, 1152, 1280, 1408, 1536, 1792,
    2048, 2304, 2688, 3072, 3200, 3456, 4096, 4864, 5120, 5376, 6144, 6528, 6784, 6912, 8192,
    9472, 9728, 10240, 10880, 12288, 13568, 14336, 16384, 18432, 19072, 20480, 21760, 24576,
    27264, 28672, 32768]

/-- The bytes a block of at least the given size has for its elements. -/
def roundedBytes (bytes : Nat) : Nat :=
  if bytes ≤ 32760 then
    let header := if 512 < bytes then 8 else 0
    match blockSizes.find? (bytes + header ≤ ·) with
    | some size => size - header
    | none => bytes
  else (bytes + pageBytes - 1) / pageBytes * pageBytes

/-- The number of elements that fit in a block asked for a number of them. -/
def rounded (count : Nat) : Nat :=
  roundedBytes (count * elementBytes) / elementBytes

/-- Add a quarter and a bit until the wanted number is reached, within a budget of steps. -/
def enlarge (wanted : Nat) : Nat → Nat → Nat
  | 0, capacity => max capacity wanted
  | budget + 1, capacity =>
      let larger := capacity + (capacity + 768) / 4
      if wanted ≤ larger then larger else enlarge wanted budget larger

/-- The room after appending beyond the present room. -/
def grown (capacity wanted : Nat) : Nat :=
  let asked :=
    if 2 * capacity < wanted then wanted
    else if capacity < 256 then 2 * capacity
    else enlarge wanted wanted capacity
  max wanted (rounded asked)

theorem le_grown (capacity wanted : Nat) :
    wanted ≤ grown capacity wanted :=
  Nat.le_max_left _ _

/-- The room after appending single elements until the wanted number is reached. -/
def grownSingly (wanted : Nat) : Nat → Nat → Nat
  | 0, capacity => max capacity wanted
  | budget + 1, capacity =>
      if wanted ≤ capacity then capacity
      else grownSingly wanted budget (grown capacity (capacity + 1))

theorem le_grownSingly (wanted budget capacity : Nat) :
    wanted ≤ grownSingly wanted budget capacity := by
  induction budget generalizing capacity with
  | zero => exact Nat.le_max_right _ _
  | succ budget inductionHypothesis =>
      rw [grownSingly]
      split
      · assumption
      · exact inductionHypothesis _

/-- Storage without spare room. -/
def exact (elements : Array Value) : Storage :=
  ⟨elements, elements.size, .start, Nat.le_refl _⟩

/-- The room of a block for a copy of elements. -/
def copiedCapacity (count : Nat) : Nat :=
  if count = 0 then 0 else grown 0 count

theorem le_copiedCapacity (count : Nat) :
    count ≤ copiedCapacity count := by
  unfold copiedCapacity
  split
  · omega
  · exact le_grown 0 count

/-- Storage for a copy of elements. -/
def copied (elements : Array Value) : Storage :=
  ⟨elements, copiedCapacity elements.size, .start, le_copiedCapacity _⟩

/-- Storage for elements that were added one by one. -/
def collected (elements : Array Value) : Storage :=
  ⟨elements, grownSingly elements.size elements.size 0, .start, le_grownSingly _ _ _⟩

/-- The number of elements. -/
def length (storage : Storage) : Nat :=
  storage.elements.size

/-- The element at an index, undefined beyond the last one. -/
def get (storage : Storage) (index : Nat) : Value :=
  storage.elements[index]?.getD .undefined

theorem size_appendList (elements : Array Value) (values : List Value) :
    (elements ++ values).size = elements.size + values.length := by
  rw [← Array.length_toList, Array.toList_appendList, List.length_append, Array.length_toList]

/-- All elements but the first, and the last one again, are as many as all elements. -/
theorem size_movedDown (elements : Array Value) :
    (elements.extract 1 elements.size ++ elements.back?.toList).size = elements.size := by
  rw [size_appendList, Array.size_extract, Array.back?_eq_getElem?]
  cases isLast : elements[elements.size - 1]? with
  | none =>
      have beyond := Array.getElem?_eq_none_iff.mp isLast
      simp only [Option.toList_none, List.length_nil]
      omega
  | some last =>
      have inside := (Array.getElem?_eq_some_iff.mp isLast).1
      simp only [Option.toList_some, List.length_singleton]
      omega

/-- Append elements. -/
def append (storage : Storage) (values : List Value) : Storage :=
  let ⟨elements, capacity, trail, _⟩ := storage
  let wanted := elements.size + values.length
  if within : wanted ≤ capacity then
    ⟨elements ++ values, capacity, trail, by rwa [size_appendList]⟩
  else
    let left := trail.leave elements
    ⟨elements ++ values, grown capacity wanted, left, by
      rw [size_appendList]
      exact le_grown capacity wanted⟩

/-- Put elements in front. -/
def prepend (storage : Storage) (values : List Value) : Storage :=
  let elements := values.toArray ++ storage.elements
  ⟨elements, elements.size, storage.trail.leave storage.elements, Nat.le_refl _⟩

/-- Fill up with undefined elements to a length that is not below the present one. -/
def pad (storage : Storage) (length : Nat) : Storage :=
  let ⟨elements, capacity, trail, fits⟩ := storage
  let missing := length - elements.size
  if within : length ≤ capacity then
    ⟨elements ++ Array.replicate missing .undefined, capacity, trail, by
      rw [Array.size_append, Array.size_replicate]
      omega⟩
  else
    let left := trail.leave elements
    ⟨elements ++ Array.replicate missing .undefined, grownSingly length length capacity, left, by
      have reached := le_grownSingly length length capacity
      rw [Array.size_append, Array.size_replicate]
      omega⟩

/-- Write an element; the gap before a new one is filled with undefined. -/
def put (storage : Storage) (index : Nat) (value : Value) : Storage :=
  let ⟨elements, capacity, trail, fits⟩ := storage
  if index < elements.size then
    ⟨elements.setIfInBounds index value, capacity, trail, by rwa [Array.size_setIfInBounds]⟩
  else
    let ⟨elements, capacity, trail, fits⟩ := pad ⟨elements, capacity, trail, fits⟩ (index + 1)
    ⟨elements.setIfInBounds index value, capacity, trail, by rwa [Array.size_setIfInBounds]⟩

/-- Drop the elements from a length on. -/
def truncate (storage : Storage) (length : Nat) : Storage :=
  let ⟨elements, capacity, trail, fits⟩ := storage
  ⟨elements.shrink length, capacity, trail, by
    rw [Array.size_shrink]
    omega⟩

/-- Cut or fill up to a length. -/
def resize (storage : Storage) (length : Nat) : Storage :=
  if length < storage.length then storage.truncate length else storage.pad length

/-- Move every element to the place before its own; the last place keeps what it has. -/
def moveDown (storage : Storage) : Storage :=
  let ⟨elements, capacity, trail, fits⟩ := storage
  let last := elements.back?.toList
  ⟨elements.extract 1 elements.size ++ last, capacity, trail, by
    rw [size_movedDown]
    exact fits⟩

/-- Drop the last element. -/
def dropLast (storage : Storage) : Storage :=
  let ⟨elements, capacity, trail, fits⟩ := storage
  ⟨elements.pop, capacity, trail, by
    rw [Array.size_pop]
    omega⟩

/-- Begin a reading that stays with the present block. -/
def watch (storage : Storage) : Storage :=
  { storage with trail := storage.trail.watch }

/-- End a reading. -/
def unwatch (storage : Storage) : Storage :=
  { storage with trail := storage.trail.unwatch }

/-- The elements in the block that a reading began in, known by the moves before it. -/
def block (storage : Storage) (moves : Nat) : Array Value :=
  if storage.trail.moves = moves then storage.elements
  else (storage.trail.kept.lookup moves).getD #[]

/-- The slots of the block between two indices, or the fault when they leave it. -/
def slots (storage : Storage) (start stop : Nat) : Except InternalFault (Array Value) :=
  if storage.capacity < stop then .error (.storageBounds stop storage.capacity)
  else
    let present := storage.elements.extract start stop
    .ok (present ++ Array.replicate (stop - start - present.size) .undefined)

end Storage

/-- The index a key names: a number below 2^32 - 1 in its usual decimal form. -/
def arrayIndex? (key : String) : Option Nat :=
  let digits := key.toList
  if digits.isEmpty || 10 < digits.length || !digits.all Char.isDigit then none
  else if digits.head? = some '0' && 1 < digits.length then none
  else
    let index := digits.foldl (fun total digit => total * 10 + (digit.toNat - '0'.toNat)) 0
    if index ≤ 4294967294 then some index else none

/-- Whether a key names an index below a length. -/
def isIndexBelow (key : String) (length : Nat) : Bool :=
  match arrayIndex? key with
  | some index => index < length
  | none => false

/-- The key of an index. -/
def indexKey (index : Nat) : String :=
  toString index

end ScriptEngine
