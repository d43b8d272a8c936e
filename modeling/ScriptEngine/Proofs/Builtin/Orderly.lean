import ScriptEngine.Proofs.Machine.Orderly

namespace ScriptEngine

/-!
# Builtin functions keep order

Every builtin function keeps order if the calls it makes do.  What it puts on the heap it has
been given or has read there.  Where it makes an array grow, it has compared the length with
the greatest one before, unless it is one of those that do not.
-/

variable {arguments : List Value} {this value : Value} {length : Nat} {heap : Heap}

/-- The builtin functions that give an array without a look at its length. -/
def Builtin.isUnchecked : Builtin → Bool
  | objectKeys | split | patternExec => true
  | _ => false

/-! ## Positions -/

theorem clampIndex_le (position : Float) (small : length < 2 ^ 53) :
    clampIndex position length ≤ length := by
  unfold clampIndex
  split
  · exact Nat.zero_le _
  · split
    · exact Nat.le_refl _
    · rename_i notNegative notAbove
      exact Number.wholeMagnitude_le small notNegative notAbove

theorem Heap.Knows.argument
    (known : heap.Knows arguments)
    (index : Nat) :
    (argument arguments index).KnownTo heap := by
  unfold ScriptEngine.argument
  cases isThere : arguments[index]? with
  | none => trivial
  | some value => exact known value (List.mem_of_getElem? isThere)

theorem Heap.Tidy.spliced (tidy : heap.Tidy) (known : value.KnownTo heap) :
    heap.Knows (Run.spliced heap value) := by
  unfold Run.spliced
  split
  · exact fun element member => tidy.of_mem_elements (Array.mem_toList_iff.mp member)
  · exact List.forall_mem_singleton.mpr known

namespace Run.Keeps

variable {limited : Bool} {machine : Machine}

/-! ## Arrays -/

theorem receivingArray (method : String) (this : Value) :
    Keeps limited Anything (Run.receivingArray method this) machine := by
  unfold Run.receivingArray
  split
  · exact .done _
  · exact .error _

/-- What comes after the check of a length may rely on it. -/
theorem checkLength
    {α : Type}
    {good : Heap → α → Prop}
    {next : Unit → Run α}
    (keeps : length ≤ Storage.maxLength → Keeps limited good (next ()) machine) :
    Keeps limited good (Run.checkLength length >>= next) machine := by
  unfold Run.checkLength
  split
  · exact .error _
  · rename_i fits
    exact keeps (Nat.le_of_not_lt fits)

/-- A change of the storage that brings nothing new and makes it no longer keeps order. -/
theorem modifyStorage
    (id : Nat)
    {change : Storage → Storage}
    (brings : ∀ {storage : Storage} {value : Value},
      (change storage).Holds value → storage.Holds value)
    (length : ∀ storage, (change storage).length ≤ storage.length) :
    Keeps limited Anything (Run.changeHeap (·.modifyStorage id change)) machine :=
  .changeHeap fun orderly => orderly.heap.modifyStorage id
    (fun _ _ holds => .inl (brings holds))
    fun _ storage _ short => Nat.le_trans (length storage) short

/-- So does one that brings values that are known, if there is room for them. -/
theorem extendStorage
    (id : Nat)
    (known : machine.heap.Knows arguments)
    (fits : machine.heap.arrayLength id + arguments.length ≤ Storage.maxLength)
    {change : Storage → Storage}
    (brings : ∀ {storage : Storage} {value : Value},
      (change storage).Holds value → storage.Holds value ∨ value ∈ arguments)
    (length : ∀ storage, (change storage).length = storage.length + arguments.length) :
    Keeps limited Anything (Run.changeHeap (·.modifyStorage id change)) machine := by
  refine .changeHeap fun orderly => orderly.heap.modifyStorage id
    (fun _ value holds => (brings holds).imp_right (known value)) fun _ storage isArray _ => ?_
  rw [length, ← Heap.arrayLength_of_body isArray]
  exact fits

theorem arrayPush (this : Value) (known : machine.heap.Knows arguments) :
    Keeps limited Value.KnownTo (Run.arrayPush this arguments) machine := by
  refine .bind (receivingArray _ this) fun id after grows _ => .heap fun _ => ?_
  refine .checkLength fun fits => .bind (extendStorage id (known.mono grows) fits ?_ ?_) ?_
  · exact Storage.holds_append
  · exact fun storage => storage.length_append arguments
  · exact fun _ _ _ _ => .heap fun _ => .pure trivial

theorem arrayUnshift
    (this : Value)
    (known : machine.heap.Knows arguments) :
    Keeps limited Value.KnownTo (Run.arrayUnshift this arguments) machine := by
  refine .bind (receivingArray _ this) fun id after grows _ => .heap fun _ => ?_
  refine .checkLength fun fits => .bind (extendStorage id (known.mono grows) fits ?_ ?_) ?_
  · exact Storage.holds_prepend
  · exact fun storage => storage.length_prepend arguments
  · exact fun _ _ _ _ => .heap fun _ => .pure trivial

theorem dropLast (id : Nat) :
    Keeps limited Anything (Run.changeHeap (·.modifyStorage id Storage.dropLast)) machine :=
  modifyStorage id Storage.holds_dropLast Storage.length_dropLast_le

theorem arrayPop (this : Value) : Keeps limited Value.KnownTo (Run.arrayPop this) machine := by
  refine .bind (receivingArray _ this) fun id after _ _ => .heap fun orderly => .heap fun _ => ?_
  dsimp only
  split
  · rename_i last isLast
    have known := orderly.heap.tidy.of_mem_elements (Array.mem_of_back? isLast)
    exact .checkLength fun _ => .bind (dropLast id) fun _ _ grows _ => .pure (known.mono grows)
  · exact .pure trivial

theorem arrayShift (this : Value) : Keeps limited Value.KnownTo (Run.arrayShift this) machine := by
  refine .bind (receivingArray _ this) fun id after _ _ => .heap fun orderly => .heap fun _ => ?_
  dsimp only
  split
  · rename_i first isFirst
    have known := orderly.heap.tidy.of_mem_elements (Array.mem_of_getElem? isFirst)
    refine .bind (modifyStorage id Storage.holds_moveDown fun storage => ?_) ?_
    · exact Nat.le_of_eq storage.length_moveDown
    · exact fun _ _ moved _ => .checkLength fun _ => .bind (dropLast id) fun _ _ dropped _ =>
        .pure ((known.mono moved).mono dropped)
  · exact .pure trivial

/-- All that is joined is known. -/
theorem holds_joined
    (tidy : heap.Tidy)
    (known : heap.Knows arguments)
    {storage : Storage}
    (held : ∀ value, storage.Holds value → value.KnownTo heap)
    (value : Value)
    (holds : (arguments.foldl (fun storage value => storage.append (spliced heap value))
      storage).Holds value) :
    value.KnownTo heap := by
  induction arguments generalizing storage with
  | nil => exact held value holds
  | cons first rest inductionHypothesis =>
      obtain ⟨firstKnown, restKnown⟩ := List.forall_mem_cons.mp known
      refine inductionHypothesis restKnown (fun other isHeld => ?_) holds
      exact (Storage.holds_append isHeld).elim (held other) (tidy.spliced firstKnown other)

theorem arrayConcat (this : Value) (known : machine.heap.Knows arguments) :
    Keeps limited Value.KnownTo (Run.arrayConcat this arguments) machine := by
  refine .bind (receivingArray _ this) fun id after grows _ => .heap fun orderly => ?_
  have tidy := orderly.heap.tidy
  refine .checkLength fun fits => .makeArray (fun value holds => ?_) fun _ => fits
  refine holds_joined tidy (known.mono grows) (fun other isHeld => ?_) value
    (.inl (Storage.holds_start holds))
  exact tidy.of_mem_elements (Storage.holds_start isHeld)

/-- A number makes an array of that length, anything else one of the arguments. -/
theorem arrayNew
    (known : machine.heap.Knows arguments)
    (short : limited = true → arguments.length ≤ Storage.maxLength) :
    Keeps limited Value.KnownTo (Run.arrayNew arguments) machine := by
  unfold Run.arrayNew
  split
  · refine .bind (.makeArray (fun value holds => ?_) fun _ => Nat.zero_le _) ?_
    · exact absurd (Storage.holds_start holds) (Array.not_mem_empty value)
    · intro array after _ isKnown
      split
      · exact .bind (setLength _ _) fun _ _ grows _ => .pure (isKnown.mono grows)
      · exact .pure isKnown
  · refine .makeArray (fun value holds => ?_) short
    exact known value (List.mem_toArray.mp (Storage.holds_start holds))

/-! ## Objects -/

theorem toObject (known : value.KnownTo machine.heap) :
    Keeps limited Value.KnownTo (Run.toObject value) machine := by
  unfold Run.toObject
  split
  · exact makePlain _
  · exact .pure known

/-- Nobody looks at the number of keys. -/
theorem keysOf
    (value : Value)
    (notOverlong : limited = true → givesOverlong (Run.keysOf value machine) = false) :
    Keeps limited Value.KnownTo (Run.keysOf value) machine := by
  unfold Run.keysOf at notOverlong ⊢
  split
  · exact .error _
  · rename_i defined
    rw [if_neg defined] at notOverlong
    refine .heap fun _ => .makeGivenArray (fun key holds => ?_) notOverlong
    have member := List.mem_toArray.mp (Storage.holds_start holds)
    obtain ⟨name, -, rfl⟩ := List.mem_map.mp member
    trivial

theorem createFrom (value : Value) :
    Keeps limited Value.KnownTo (Run.createFrom value) machine := by
  unfold Run.createFrom
  split
  · exact makePlain _
  · exact makePlain _
  · exact .error _

/-- A prototype is had as a plain object, and that is the one value that may not be what it is. -/
theorem prototypeOf (value : Value) :
    Keeps limited Value.KnownTo (Run.prototypeOf value) machine := by
  have plain (id : Nat) (isPrototype : id ≤ Heap.patternPrototype) :
      Keeps limited Value.KnownTo (Pure.pure (.object .plain id) : Run Value) machine :=
    fun orderly => Keeps.pure (.inl (orderly.heap.tidy.prototypes id isPrototype)) orderly
  unfold Run.prototypeOf
  split
  · exact .error _
  · exact plain _ (by decide)
  · exact plain _ (by decide)
  · exact plain _ (by decide)
  · refine .heap fun _ => ?_
    split
    · rename_i isPrototype
      exact .pure (.inr ⟨rfl, _, isPrototype⟩)
    · exact .pure trivial

theorem functionToText (this : Value) :
    Keeps limited Value.KnownTo (Run.functionToText this) machine := by
  unfold Run.functionToText
  split
  · exact .error _
  · exact .bind (defaultText this) fun _ _ _ _ => .pure trivial

/-! ## Texts, numbers and patterns -/

theorem receivingNumber (method : String) (this : Value) :
    Keeps limited Anything (Run.receivingNumber method this) machine := by
  unfold Run.receivingNumber
  split
  · exact .done _
  · exact .error _

theorem receivingBoolean (method : String) (this : Value) :
    Keeps limited Anything (Run.receivingBoolean method this) machine := by
  unfold Run.receivingBoolean
  split
  · exact .done _
  · exact .error _

theorem textValueOf (this : Value) :
    Keeps limited Value.KnownTo (Run.textValueOf this) machine := by
  unfold Run.textValueOf
  split
  · exact .pure trivial
  · exact .error _

theorem searched {α : Type} (outcome : Except LookupFault α) :
    Keeps limited Anything (Run.searched outcome) machine := by
  unfold Run.searched
  split
  · exact .done _
  · exact .error _

theorem receivingPattern (method : String) (this : Value) :
    Keeps limited Anything (Run.receivingPattern method this) machine := by
  unfold Run.receivingPattern
  split
  · refine .heap fun _ => ?_
    split
    · exact .done _
    · exact .error _
  · exact .error _

theorem lastIndex (id : Nat) : Keeps limited Anything (Run.lastIndex id) machine :=
  .heap fun _ => .done _

/-- Whatever an object is used as, a property under a name that is apart may be written. -/
theorem setNamed
    (id : Nat)
    {name : String}
    (apart : IsApart name)
    (known : value.KnownTo machine.heap) :
    Keeps limited Anything (Run.changeHeap (·.setOwn id name value)) machine :=
  .changeHeap fun orderly => orderly.heap.setOwn known fun _ _ => apart

theorem setLastIndex (id place : Nat) :
    Keeps limited Anything (Run.changeHeap (·.setOwn id "lastIndex" (.ofNat place))) machine :=
  setNamed id (by decide) trivial

theorem search (id : Nat) (pattern : Pattern) (text : List Char) :
    Keeps limited Anything (Run.search id pattern text) machine := by
  unfold Run.search
  extract_lets note goOn
  have goOnKeeps (start : Nat) (machine : Machine) :
      Keeps limited Anything (goOn start) machine := by
    dsimp only [goOn]
    split
    · exact .bind (setLastIndex id _) fun _ _ _ _ => .done _
    · refine .bind (searched _) fun found after _ _ => ?_
      split
      · split
        · exact .bind (setLastIndex id _) fun _ _ _ _ => .done _
        · exact .bind (setLastIndex id _) fun _ _ _ _ => .done _
      · exact .done _
  split
  · exact .bind (lastIndex id) fun start after _ _ => goOnKeeps start after
  · exact .pureBind (goOnKeeps _ _)

theorem patternToText (this : Value) :
    Keeps limited Value.KnownTo (Run.patternToText this) machine :=
  .bind (receivingPattern _ this) fun _ _ _ _ => .pure trivial

theorem jsonText (indent : String) (value : Value) :
    Keeps limited Anything (Run.jsonText indent value) machine := by
  refine .heap fun _ => ?_
  split
  · split
    · exact .done _
    · exact .error _
  · split
    · exact .done _
    · split
      · exact .done _
      · exact .error _
    · exact .error _

theorem consolePrint (mark : String) (arguments : List Value) :
    Keeps limited Value.KnownTo (Run.consolePrint mark arguments) machine :=
  .heap fun _ => .bind (.printLine _) fun _ _ _ _ => .pure trivial

/-! ## Pieces of texts -/

/-- What a group took is a text, and one that took nothing is undefined. -/
theorem knows_groups
    (heap : Heap)
    (text : Array Char)
    (groups : List (Option Span)) :
    heap.Knows (groups.map (groupValue text)) := by
  refine List.forall_mem_map.mpr fun group _ => ?_
  cases group with
  | none => trivial
  | some span => trivial

theorem knows_splitAtMatches
    (heap : Heap)
    (text : Array Char)
    (last : Nat)
    (found : List PatternMatch) :
    heap.Knows (splitAtMatches text last found) := by
  induction found generalizing last with
  | nil =>
      rw [splitAtMatches]
      exact List.forall_mem_singleton.mpr trivial
  | cons first rest inductionHypothesis =>
      rw [splitAtMatches]
      dsimp only
      split
      · exact inductionHypothesis last
      · have groups := knows_groups heap text first.groups
        exact List.forall_mem_append.mpr ⟨List.forall_mem_cons.mpr ⟨trivial, groups⟩,
          inductionHypothesis _⟩

theorem knows_splitByPattern
    (heap : Heap)
    {pattern : Pattern}
    {text : Array Char}
    {pieces : List Value}
    (isSplit : splitByPattern pattern text = .ok pieces) :
    heap.Knows pieces := by
  unfold splitByPattern at isSplit
  split at isSplit
  · cases isFound : pattern.find text 0 with
    | error fault =>
        rw [isFound] at isSplit
        cases isSplit
    | ok found =>
        rw [isFound] at isSplit
        obtain rfl := Except.ok.inj isSplit
        split
        · nofun
        · exact List.forall_mem_singleton.mpr trivial
  · cases isFound : pattern.findAll text with
    | error fault =>
        rw [isFound] at isSplit
        cases isSplit
    | ok found =>
        rw [isFound] at isSplit
        obtain rfl := Except.ok.inj isSplit
        exact knows_splitAtMatches heap text 0 found

theorem knows_splitByText (heap : Heap) (text separator : List Char) :
    heap.Knows (splitByText text separator) := by
  intro value member
  obtain ⟨piece, -, rfl⟩ := List.mem_map.mp member
  trivial

/-! ## Functions that call -/

variable {call : Caller} (calls : Caller.Keeps limited call)

include calls

/-- Elements are read from a block of the array, and converting one may run any script. -/
theorem joinParts (id moves remaining index : Nat) :
    Keeps limited Anything (Run.joinParts call id moves remaining index) machine := by
  induction remaining generalizing index machine with
  | zero => exact .done _
  | succ remaining inductionHypothesis =>
      refine .heap fun orderly => ?_
      extract_lets goOn
      have goOnKeeps (part : String) (machine : Machine) :
          Keeps limited Anything (goOn part) machine :=
        .bind (inductionHypothesis _) fun _ _ _ _ => .done _
      split
      · exact .pureBind (goOnKeeps _ _)
      · refine .bind (toText calls ?_) fun part after _ _ => goOnKeeps part after
        cases isThere : ((machine.heap.storage id).block moves)[index]? with
        | none => trivial
        | some element =>
            have member := Array.mem_of_getElem? isThere
            exact orderly.heap.tidy.of_holds (Storage.holds_of_mem_block member)

theorem arrayJoin (this : Value) (known : machine.heap.Knows arguments) :
    Keeps limited Value.KnownTo (Run.arrayJoin call this arguments) machine := by
  refine .bind (receivingArray _ this) fun id after grows _ => ?_
  extract_lets goOn
  have goOnKeeps (separator : String) (machine : Machine) :
      Keeps limited Value.KnownTo (goOn separator) machine := by
    refine .heap fun _ => .bind (modifyStorage id Storage.holds_watch fun _ => Nat.le_refl _) ?_
    refine fun _ _ _ _ => .bind (joinParts calls id _ _ _) fun parts after _ _ => ?_
    exact .bind (modifyStorage id Storage.holds_unwatch fun _ => Nat.le_refl _) fun _ _ _ _ =>
      .pure trivial
  split
  · exact .pureBind (goOnKeeps _ _)
  · exact .bind (toText calls ((known.mono grows).argument 0)) fun separator after _ _ =>
      goOnKeeps separator after

/-- A position that an argument gives lies within the array. -/
theorem position
    {default : Nat}
    (inside : default ≤ length)
    (fits : limited = true → length ≤ Storage.maxLength)
    (known : value.KnownTo machine.heap) :
    Keeps limited (fun _ place => limited = true → place ≤ length)
      (Run.position call default length value) machine := by
  unfold Run.position
  split
  · exact .pure fun _ => inside
  · exact .bind (toInteger calls known) fun _ _ _ _ => .pure fun isLimited =>
      clampIndex_le _ (Nat.lt_of_le_of_lt (fits isLimited) (by decide))

/-- A slice is no longer than the array was when the call began. -/
theorem arraySlice (this : Value) (known : machine.heap.Knows arguments) :
    Keeps limited Value.KnownTo (Run.arraySlice call this arguments) machine := by
  refine .bind (receivingArray _ this) fun id middle grows _ => .heap fun orderly => ?_
  have fits (isLimited : limited = true) : middle.heap.arrayLength id ≤ Storage.maxLength :=
    orderly.heap.bounded isLimited id
  have startKnown := (known.mono grows).argument 0
  have stopKnown := (known.mono grows).argument 1
  refine .bind (position calls (Nat.zero_le _) fits startKnown) fun start later further _ => ?_
  refine .bind (position calls (Nat.le_refl _) fits (stopKnown.mono further)) ?_
  intro stop last _ isStop
  split
  · refine .makeArray (fun value holds => ?_) fun _ => Nat.zero_le _
    exact absurd (Storage.holds_start holds) (Array.not_mem_empty value)
  · refine .heap fun orderly => ?_
    split
    · rename_i elements isSlots
      refine .makeArray (fun value holds => ?_) fun isLimited => ?_
      · rcases Storage.holds_of_mem_slots isSlots (Storage.holds_start holds) with old | rfl
        · exact orderly.heap.tidy.of_holds old
        · trivial
      · calc elements.size
          _ = stop - start := Storage.size_of_slots isSlots
          _ ≤ stop := Nat.sub_le _ _
          _ ≤ middle.heap.arrayLength id := isStop isLimited
          _ ≤ Storage.maxLength := fits isLimited
    · exact .error _

theorem arrayIndexOf
    (this : Value)
    (known : machine.heap.Knows arguments) :
    Keeps limited Value.KnownTo (Run.arrayIndexOf call this arguments) machine := by
  refine .bind (receivingArray _ this) fun id middle grows _ => ?_
  extract_lets target goOn
  have goOnKeeps (start : Nat) (machine : Machine) :
      Keeps limited Value.KnownTo (goOn start) machine := by
    refine .heap fun _ => ?_
    dsimp only
    split
    · exact .pure trivial
    · exact .pure trivial
  split
  · exact .pureBind (goOnKeeps _ _)
  · refine .bind (toInteger calls ((known.mono grows).argument 1)) fun _ _ _ _ => .heap fun _ => ?_
    exact .pureBind (goOnKeeps _ _)

theorem numberToText
    (this : Value)
    (known : machine.heap.Knows arguments) :
    Keeps limited Value.KnownTo (Run.numberToText call this arguments) machine := by
  refine .bind (receivingNumber _ this) fun value after grows _ => ?_
  split
  · exact .pure trivial
  · refine .bind (toInteger calls ((known.mono grows).argument 0)) fun radix _ _ _ => ?_
    split
    · exact .error _
    · exact .pure trivial

theorem toFixed (this : Value) (known : machine.heap.Knows arguments) :
    Keeps limited Value.KnownTo (Run.toFixed call this arguments) machine := by
  refine .bind (receivingNumber _ this) fun value after grows _ => ?_
  refine .bind (toInteger calls ((known.mono grows).argument 0)) fun places _ _ _ => ?_
  split
  · exact .error _
  · exact .pure trivial

theorem numberNew (known : machine.heap.Knows arguments) :
    Keeps limited Value.KnownTo (Run.numberNew call arguments) machine := by
  unfold Run.numberNew
  split
  · exact .pure trivial
  · rename_i value _
    exact .bind (toNumber calls (known value (.head _))) fun _ _ _ _ => .pure trivial

theorem mathUnary
    (function : Float → Float)
    (known : machine.heap.Knows arguments) :
    Keeps limited Value.KnownTo (Run.mathUnary call function arguments) machine :=
  .bind (toNumber calls (known.argument 0)) fun _ _ _ _ => .pure trivial

theorem mathPower (known : machine.heap.Knows arguments) :
    Keeps limited Value.KnownTo (Run.mathPower call arguments) machine := by
  refine .bind (toNumber calls (known.argument 0)) fun base after grows _ => ?_
  refine .bind (toNumber calls ((known.mono grows).argument 1)) fun exponent _ _ _ => ?_
  split
  · exact .pure trivial
  · exact .pure trivial

/-- All arguments are converted, one after the other. -/
theorem mathExtremum
    (better : Float → Float → Bool)
    (best : Float)
    (known : machine.heap.Knows arguments) :
    Keeps limited Value.KnownTo (Run.mathExtremum call better best arguments) machine := by
  induction arguments generalizing best machine with
  | nil => exact .pure trivial
  | cons value rest inductionHypothesis =>
      obtain ⟨valueKnown, restKnown⟩ := List.forall_mem_cons.mp known
      exact .bind (toNumber calls valueKnown) fun _ _ grows _ =>
        inductionHypothesis _ (Heap.Knows.mono restKnown grows)

theorem radixArgument (known : value.KnownTo machine.heap) :
    Keeps limited Anything (Run.radixArgument call value) machine := by
  unfold Run.radixArgument
  split
  · exact .done _
  · exact .bind (toInteger calls known) fun _ _ _ _ => .done _

theorem parseInteger (known : machine.heap.Knows arguments) :
    Keeps limited Value.KnownTo (Run.parseInteger call arguments) machine := by
  refine .bind (toText calls (known.argument 0)) fun text after grows _ => ?_
  exact .bind (radixArgument calls ((known.mono grows).argument 1)) fun _ _ _ _ => .pure trivial

theorem parseDecimal (known : machine.heap.Knows arguments) :
    Keeps limited Value.KnownTo (Run.parseDecimal call arguments) machine :=
  .bind (toText calls (known.argument 0)) fun _ _ _ _ => .pure trivial

theorem hasOwnProperty (this : Value) {key : Value} (known : key.KnownTo machine.heap) :
    Keeps limited Value.KnownTo (Run.hasOwnProperty call this key) machine :=
  .bind (toText calls known) fun _ _ _ _ => .heap fun _ => .pure trivial

theorem apply
    {function arguments : Value}
    (functionKnown : function.KnownTo machine.heap)
    (thisKnown : this.KnownTo machine.heap) :
    Keeps limited Value.KnownTo (Run.apply call function this arguments) machine := by
  unfold Run.apply
  split
  · exact .heap fun _ => .error _
  · split
    · exact calls _ _ _ _ functionKnown thisKnown nofun
    · refine .heap fun orderly => calls _ _ _ _ functionKnown thisKnown fun element member => ?_
      exact orderly.heap.tidy.of_mem_elements (Array.mem_toList_iff.mp member)
    · exact .error _

theorem callWith
    (thisKnown : this.KnownTo machine.heap)
    (known : machine.heap.Knows arguments) :
    Keeps limited Value.KnownTo (Run.callWith call this arguments) machine := by
  unfold Run.callWith
  split
  · exact .error _
  · exact calls _ _ _ _ thisKnown (known.argument 0) fun value member =>
      known value (List.mem_of_mem_drop member)

theorem receivingText (method : String) (thisKnown : this.KnownTo machine.heap) :
    Keeps limited Anything (Run.receivingText call method this) machine := by
  unfold Run.receivingText
  split
  · exact .error _
  · exact .bind (toText calls thisKnown) fun _ _ _ _ => .done _

section

variable (thisKnown : this.KnownTo machine.heap) (known : machine.heap.Knows arguments)

include thisKnown

theorem changeCase (method : String) (change : String → String) :
    Keeps limited Value.KnownTo (Run.changeCase call method change this) machine :=
  .bind (receivingText calls method thisKnown) fun _ _ _ _ => .pure trivial

include known

theorem charAt : Keeps limited Value.KnownTo (Run.charAt call this arguments) machine := by
  refine .bind (receivingText calls _ thisKnown) fun text after grows _ => ?_
  refine .bind (toInteger calls ((known.mono grows).argument 0)) fun index _ _ _ => ?_
  split
  · exact .pure trivial
  · exact .pure trivial

theorem charCodeAt : Keeps limited Value.KnownTo (Run.charCodeAt call this arguments) machine := by
  refine .bind (receivingText calls _ thisKnown) fun text after grows _ => ?_
  refine .bind (toInteger calls ((known.mono grows).argument 0)) fun index _ _ _ => ?_
  split
  · exact .pure trivial
  · split
    · exact .pure trivial
    · exact .pure trivial

theorem substring : Keeps limited Value.KnownTo (Run.substring call this arguments) machine := by
  refine .bind (receivingText calls _ thisKnown) fun text middle grows _ => ?_
  have argumentsKnown := known.mono grows
  refine .bind (toInteger calls (argumentsKnown.argument 0)) fun start after further _ => ?_
  extract_lets first goOn
  have goOnKeeps (stop : Nat) (machine : Machine) :
      Keeps limited Value.KnownTo (goOn stop) machine := .pure trivial
  split
  · exact .pureBind (goOnKeeps _ _)
  · refine .bind (toInteger calls ((argumentsKnown.mono further).argument 1)) fun _ _ _ _ => ?_
    exact .pureBind (goOnKeeps _ _)

theorem textIndexOf :
    Keeps limited Value.KnownTo (Run.textIndexOf call this arguments) machine := by
  refine .bind (receivingText calls _ thisKnown) fun text middle grows _ => ?_
  have argumentsKnown := known.mono grows
  refine .bind (toText calls (argumentsKnown.argument 0)) fun wanted after further _ => ?_
  refine .bind (toInteger calls ((argumentsKnown.mono further).argument 1)) fun start _ _ _ => ?_
  dsimp only
  split
  · exact .pure trivial
  · exact .pure trivial

theorem normalize : Keeps limited Value.KnownTo (Run.normalize call this arguments) machine := by
  refine .bind (receivingText calls _ thisKnown) fun text after grows _ => ?_
  extract_lets goOn
  have goOnKeeps (name : String) (machine : Machine) :
      Keeps limited Value.KnownTo (goOn name) machine := by
    dsimp only [goOn]
    split
    · exact .pure trivial
    · exact .error _
  split
  · exact .pureBind (goOnKeeps "NFC" _)
  · exact .bind (toText calls ((known.mono grows).argument 0)) fun name after _ _ =>
      goOnKeeps name after

end

/-- All pieces are known. -/
theorem splitPieces
    (text : List Char)
    {separator : Value}
    (known : separator.KnownTo machine.heap) :
    Keeps limited (fun heap pieces => ∀ value, pieces.Holds value → value.KnownTo heap)
      (Run.splitPieces call text separator) machine := by
  unfold Run.splitPieces
  split
  · refine .pure fun value holds => ?_
    rw [Array.mem_singleton.mp (Storage.holds_start holds)]
    trivial
  · refine .heap fun _ => ?_
    split
    · rename_i pattern _
      cases isSplit : splitByPattern pattern text.toArray with
      | error fault => exact .error _
      | ok pieces =>
          refine .pureBind (.pure fun value holds => ?_)
          exact knows_splitByPattern _ isSplit value
            (List.mem_toArray.mp (Storage.holds_start holds))
    · refine .pure fun value holds => ?_
      exact absurd (Storage.holds_start holds) (Array.not_mem_empty value)
  · refine .bind (toText calls known) fun separator after _ _ => .pure fun value holds => ?_
    exact knows_splitByText _ _ _ value (List.mem_toArray.mp (Storage.holds_start holds))

/-- Nobody looks at the number of pieces unless a limit is given. -/
theorem split
    (thisKnown : this.KnownTo machine.heap)
    (known : machine.heap.Knows arguments)
    (notOverlong : limited = true →
      givesOverlong (Run.split call this arguments machine) = false) :
    Keeps limited Value.KnownTo (Run.split call this arguments) machine := by
  refine .bindGiving notOverlong (receivingText calls _ thisKnown) fun text middle grows _ => ?_
  have argumentsKnown := known.mono grows
  extract_lets goOn
  intro notOverlong
  have goOnKeeps (limit : Option Nat) (short : ∀ most ∈ limit, most ≤ Storage.maxLength)
      (machine : Machine) (separatorKnown : (argument arguments 0).KnownTo machine.heap)
      (notOverlong : limited = true → givesOverlong (goOn limit machine) = false) :
      Keeps limited Value.KnownTo (goOn limit) machine := by
    have splits := splitPieces calls text separatorKnown
    refine .bindGiving notOverlong splits fun pieces after _ held notOverlong => ?_
    cases limit with
    | none => exact .makeGivenArray held notOverlong
    | some most =>
        refine .makeArray (fun value holds => held value ?_) fun _ => ?_
        · split at holds
          · exact Storage.holds_truncate holds
          · exact holds
        · refine Nat.le_trans ?_ (short most rfl)
          split
          · exact Storage.length_truncate_le pieces most
          · rename_i fits
            exact Nat.le_of_not_lt fits
  have limitKnown := argumentsKnown.argument 1
  generalize argument arguments 1 = limit at notOverlong limitKnown ⊢
  cases limit with
  | undefined =>
      exact .pureBind (goOnKeeps none nofun middle (argumentsKnown.argument 0) notOverlong)
  | number _ | string _ | boolean _ | object _ _ =>
      refine .bindGiving notOverlong (toInteger calls limitKnown) ?_
      intro wanted after further _ notOverlong
      have separatorKnown := (argumentsKnown.argument 0).mono further
      refine .pureBind (goOnKeeps _ (fun most isMost => ?_) after separatorKnown notOverlong)
      split at isMost
      · cases isMost
        exact clampIndex_le _ (by decide)
      · cases isMost

theorem occurrences (text : List Char) {pattern : Value} (known : pattern.KnownTo machine.heap) :
    Keeps limited Anything (Run.occurrences call text pattern) machine := by
  unfold Run.occurrences
  split
  · refine .heap fun _ => ?_
    split
    · dsimp only
      split
      · refine .bind (searched _) fun found after _ _ => ?_
        exact .bind (setLastIndex _ 0) fun _ _ _ _ => .done _
      · exact .bind (searched _) fun _ _ _ _ => .done _
    · exact .done _
  · exact .bind (toText calls known) fun _ _ _ _ => .done _

section

variable (text : List Char) {whole replacement : Value} (wholeKnown : whole.KnownTo machine.heap)
  (known : replacement.KnownTo machine.heap)

include text wholeKnown known

theorem replacementOf (found : Text.Occurrence Char) :
    Keeps limited Anything (Run.replacementOf call text whole replacement found) machine := by
  unfold Run.replacementOf
  split
  · refine .bind (calls _ _ _ _ known trivial ?_) fun result after _ isKnown => ?_
    · refine List.forall_mem_append.mpr ⟨List.forall_mem_cons.mpr ⟨trivial, ?_⟩, ?_⟩
      · intro value member
        obtain ⟨group, -, rfl⟩ := List.mem_map.mp member
        cases group with
        | none => trivial
        | some taken => trivial
      · simpa using ⟨trivial, wholeKnown⟩
    · exact .bind (toText calls isKnown) fun _ _ _ _ => .done _
  · exact .bind (toText calls known) fun _ _ _ _ => .done _

/-- Occurrences are replaced one after the other. -/
theorem replacements (found : List (Text.Occurrence Char)) :
    Keeps limited Anything (Run.replacements call text whole replacement found) machine := by
  induction found generalizing machine with
  | nil => exact .done _
  | cons first rest inductionHypothesis =>
      refine .bind (replacementOf calls text wholeKnown known first) ?_
      intro inserted after grows _
      exact .bind (inductionHypothesis (wholeKnown.mono grows) (known.mono grows)) fun _ _ _ _ =>
        .done _

end

theorem replace
    (thisKnown : this.KnownTo machine.heap)
    (known : machine.heap.Knows arguments) :
    Keeps limited Value.KnownTo (Run.replace call this arguments) machine := by
  refine .bind (receivingText calls _ thisKnown) fun text middle grows _ => ?_
  have argumentsKnown := known.mono grows
  refine .bind (occurrences calls text (argumentsKnown.argument 0)) fun found after further _ => ?_
  have wholeKnown : (Value.string (String.ofList text)).KnownTo after.heap := trivial
  have replacementKnown := (argumentsKnown.mono further).argument 1
  exact .bind (replacements calls text wholeKnown replacementKnown found) fun _ _ _ _ =>
    .pure trivial

theorem textNew (known : machine.heap.Knows arguments) :
    Keeps limited Value.KnownTo (Run.textNew call arguments) machine := by
  unfold Run.textNew
  split
  · exact .pure trivial
  · rename_i value _
    exact .bind (toText calls (known value (.head _))) fun _ _ _ _ => .pure trivial

theorem patternTest (this : Value) (known : machine.heap.Knows arguments) :
    Keeps limited Value.KnownTo (Run.patternTest call this arguments) machine := by
  refine .bind (receivingPattern _ this) fun receiver after grows _ => ?_
  refine .bind (toText calls ((known.mono grows).argument 0)) fun text _ _ _ => ?_
  exact .bind (search _ _ _) fun _ _ _ _ => .pure trivial

/-- Nobody looks at the number of groups. -/
theorem patternExec
    (this : Value)
    (known : machine.heap.Knows arguments)
    (notOverlong : limited = true →
      givesOverlong (Run.patternExec call this arguments machine) = false) :
    Keeps limited Value.KnownTo (Run.patternExec call this arguments) machine := by
  refine .bindGiving notOverlong (receivingPattern _ this) fun receiver after grows _ given => ?_
  have inputKnown := (known.mono grows).argument 0
  refine .bindGiving given (toText calls inputKnown) fun input _ _ _ given => ?_
  refine .bindGiving given (search _ _ _) fun found after _ _ given => ?_
  cases found with
  | none => exact .pure trivial
  | some found =>
      refine .bind (.makeArray (fun value holds => ?_) fun isLimited => ?_)
        fun array made _ isKnown => ?_
      · have groups := knows_groups after.heap input.toList.toArray found.groups
        exact List.forall_mem_cons.mpr ⟨trivial, groups⟩ value
          (List.mem_toArray.mp (Storage.holds_start holds))
      · refine Nat.le_of_not_lt fun isLong => ?_
        have notLong := of_decide_eq_false (given isLimited)
        unfold Heap.arrayLength at notLong
        rw [Heap.storage_setOwn, Heap.storage_setOwn] at notLong
        exact notLong (Nat.lt_of_lt_of_eq isLong (Heap.arrayLength_push_array _ _ _).symm)
      · split
        · refine .bind (setNamed _ (by decide) trivial) fun _ middle grows _ => ?_
          refine .bind (setNamed _ (by decide) trivial) fun _ last further _ => ?_
          exact .pure ((isKnown.mono grows).mono further)
        · exact .pure isKnown

/-- A pattern is made of texts only. -/
theorem patternNew (known : machine.heap.Knows arguments) :
    Keeps limited Value.KnownTo (Run.patternNew call arguments) machine := by
  unfold Run.patternNew
  extract_lets goOn
  have goOnKeeps (texts : String × String) (machine : Machine)
      (argumentsKnown : machine.heap.Knows arguments) :
      Keeps limited Value.KnownTo (goOn texts) machine := by
    dsimp -zeta only [goOn]
    extract_lets compile
    have compileKeeps (flags : String) (machine : Machine) :
        Keeps limited Value.KnownTo (compile flags) machine := by
      dsimp only [compile]
      split
      · exact makePattern _
      · exact .error _
    split
    · exact .pureBind (compileKeeps _ _)
    · exact .bind (toText calls (argumentsKnown.argument 1)) fun flags after _ _ =>
        compileKeeps flags after
  split
  · exact .pureBind (goOnKeeps ("(?:)", "") machine known)
  · refine .heap fun _ => ?_
    split
    · rename_i pattern _
      exact .pureBind (goOnKeeps (pattern.source, pattern.flags) machine known)
    · exact .pureBind (goOnKeeps ("(?:)", "") machine known)
  · exact .bind (toText calls (known.argument 0)) fun text after grows _ =>
      .pureBind (goOnKeeps (text, "") after (known.mono grows))

theorem jsonIndent (known : value.KnownTo machine.heap) :
    Keeps limited Anything (Run.jsonIndent call value) machine := by
  unfold Run.jsonIndent
  split
  · exact .bind (toInteger calls known) fun _ _ _ _ => .done _
  · exact .done _
  · exact .done _

theorem jsonStringify (known : machine.heap.Knows arguments) :
    Keeps limited Value.KnownTo (Run.jsonStringify call arguments) machine := by
  refine .bind (jsonIndent calls (known.argument 2)) fun indent _ _ _ => ?_
  refine .bind (jsonText indent _) fun text _ _ _ => ?_
  split
  · exact .pure trivial
  · exact .pure trivial

/--
Every builtin function keeps order if the calls it makes do.  If arrays are not to become too
long, there must not be too many arguments, and where the length of the array that is given
goes unchecked it must not be too long.
-/
theorem builtin_run_keeps
    (thisKnown : this.KnownTo machine.heap)
    (known : machine.heap.Knows arguments)
    (short : limited = true → arguments.length ≤ Storage.maxLength)
    (builtin : Builtin)
    (notOverlong : limited = true → builtin.isUnchecked = true →
      givesOverlong (builtin.run call this arguments machine) = false) :
    Keeps limited Value.KnownTo (builtin.run call this arguments) machine := by
  cases builtin with
  | objectNew => exact toObject (known.argument 0)
  | hasOwnProperty => exact hasOwnProperty calls this (known.argument 0)
  | objectToString => exact .pure trivial
  | objectValueOf => exact .pure thisKnown
  | objectKeys => exact keysOf _ fun isLimited => notOverlong isLimited rfl
  | objectCreate => exact createFrom _
  | getPrototypeOf => exact prototypeOf _
  | functionNew => exact .error _
  | functionApply => exact apply calls thisKnown (known.argument 0)
  | functionCall => exact callWith calls thisKnown known
  | functionToString => exact functionToText _
  | arrayNew => exact arrayNew known short
  | arrayPush => exact arrayPush _ known
  | arrayPop => exact arrayPop _
  | arrayShift => exact arrayShift _
  | arrayUnshift => exact arrayUnshift _ known
  | arrayConcat => exact arrayConcat _ known
  | arrayJoin => exact arrayJoin calls _ known
  | arrayToString =>
      have none : machine.heap.Knows [] := nofun
      exact arrayJoin calls this none
  | arraySlice => exact arraySlice calls _ known
  | arrayIndexOf => exact arrayIndexOf calls _ known
  | isArray => exact .pure trivial
  | isNaN => exact .bind (toNumber calls (known.argument 0)) fun _ _ _ _ => .pure trivial
  | parseFloat => exact parseDecimal calls known
  | parseInt => exact parseInteger calls known
  | stringNew => exact textNew calls known
  | stringToString => exact textValueOf _
  | stringValueOf => exact textValueOf _
  | charAt => exact charAt calls thisKnown known
  | charCodeAt => exact charCodeAt calls thisKnown known
  | substring => exact substring calls thisKnown known
  | stringIndexOf => exact textIndexOf calls thisKnown known
  | toUpperCase => exact changeCase calls thisKnown _ _
  | toLowerCase => exact changeCase calls thisKnown _ _
  | normalize => exact normalize calls thisKnown known
  | split => exact split calls thisKnown known fun isLimited => notOverlong isLimited rfl
  | replace => exact replace calls thisKnown known
  | numberNew => exact numberNew calls known
  | numberToString => exact numberToText calls _ known
  | toFixed => exact toFixed calls _ known
  | numberValueOf => exact .bind (receivingNumber _ _) fun _ _ _ _ => .pure trivial
  | booleanNew => exact .pure trivial
  | booleanToString => exact .bind (receivingBoolean _ _) fun _ _ _ _ => .pure trivial
  | booleanValueOf => exact .bind (receivingBoolean _ _) fun _ _ _ _ => .pure trivial
  | patternNew => exact patternNew calls known
  | patternTest => exact patternTest calls _ known
  | patternExec => exact patternExec calls _ known fun isLimited => notOverlong isLimited rfl
  | patternToString => exact patternToText _
  | mathAbs => exact mathUnary calls _ known
  | mathFloor => exact mathUnary calls _ known
  | mathCeil => exact mathUnary calls _ known
  | mathRound => exact mathUnary calls _ known
  | mathSqrt => exact mathUnary calls _ known
  | mathPow => exact mathPower calls known
  | mathMax => exact mathExtremum calls _ _ known
  | mathMin => exact mathExtremum calls _ _ known
  | mathRandom => exact .random
  | jsonStringify => exact jsonStringify calls known
  | consoleLog => exact consolePrint _ _
  | consoleInfo => exact consolePrint _ _
  | consoleWarn => exact consolePrint _ _
  | consoleError => exact consolePrint _ _

end Run.Keeps

end ScriptEngine
