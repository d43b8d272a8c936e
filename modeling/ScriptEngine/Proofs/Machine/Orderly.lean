import ScriptEngine.Proofs.Machine.KnownValues

namespace ScriptEngine

/-!
# Runs that keep order

A run keeps order if it takes an orderly machine to an orderly one and gives a known
value.  Every step does, and so do steps one after the other.

Arrays grow in many places, and most of them look at the greatest length first.  A run that
is to keep all arrays within the greatest length may fail to do so in the other places only;
there it is asked for that the array that the run gives is not too long.
-/

variable {value : Value} {left right : Value}

/-! ## Writing elements -/

namespace Heap.Orderly

variable {limited : Bool} {heap : Heap}

/-- A known value may be written at any index that is not too large. -/
theorem put
    (orderly : heap.Orderly limited)
    (id : Nat)
    {index : Nat}
    (known : value.KnownTo heap)
    (inside : limited = true → index < Storage.maxLength) :
    heap.Steps limited (heap.modifyStorage id (·.put index value)) := by
  refine orderly.modifyStorage id (fun storage other holds => ?_) fun isLimited storage _ short => ?_
  · rcases Storage.holds_put holds with old | rfl | rfl
    · exact .inl old
    · exact .inr trivial
    · exact .inr known
  · rw [Storage.length_put]
    exact Nat.max_le.mpr ⟨short, inside isLimited⟩

theorem resize
    (orderly : heap.Orderly limited)
    (id : Nat)
    {length : Nat}
    (inside : limited = true → length ≤ Storage.maxLength) :
    heap.Steps limited (heap.modifyStorage id (·.resize length)) := by
  refine orderly.modifyStorage id (fun storage other holds => ?_) fun isLimited storage _ _ => ?_
  · rcases Storage.holds_resize holds with old | rfl
    · exact .inl old
    · exact .inr trivial
  · rw [Storage.length_resize]
    exact inside isLimited

end Heap.Orderly

namespace Run

variable {α β : Type}

/-! ## Arrays of any length -/

/-- The array that a run gave is too long. -/
def givesOverlong : EStateM.Result Abort Machine Value → Bool
  | .ok (.object .array id) machine => Storage.maxLength < machine.heap.arrayLength id
  | _ => false

theorem givesOverlong_makeArray (storage : Storage) (machine : Machine) :
    givesOverlong (makeArray storage machine) = decide (Storage.maxLength < storage.length) := by
  have length := machine.heap.arrayLength_push_array (some Heap.arrayPrototype) storage
  exact congrArg (fun length => decide (Storage.maxLength < length)) length

/-! ## Keeping order -/

/-- A run that began on a heap ended on an orderly machine, with a good result if with one. -/
def Lands
    (limited : Bool)
    (older : Heap)
    (good : Heap → α → Prop) :
    EStateM.Result Abort Machine α → Prop
  | .ok value after => older.GrowsInto after.heap ∧ after.Orderly limited ∧ good after.heap value
  | .error _ after => older.GrowsInto after.heap ∧ after.Orderly limited

theorem Lands.orderly
    {limited : Bool}
    {older : Heap}
    {good : Heap → α → Prop}
    {outcome : EStateM.Result Abort Machine α}
    (lands : Lands limited older good outcome) :
    (after outcome).Orderly limited := by
  cases outcome with
  | ok value machine => exact lands.2.1
  | error abort machine => exact lands.2

/-- A run keeps order on a machine. -/
def Keeps
    (limited : Bool)
    (good : Heap → α → Prop)
    (run : Run α)
    (machine : Machine) :
    Prop :=
  machine.Orderly limited → Lands limited machine.heap good (run machine)

/-- Any result is good. -/
abbrev Anything (_ : Heap) (_ : α) : Prop := True

namespace Keeps

variable {limited : Bool} {good : Heap → α → Prop} {machine : Machine}

theorem pure {value : α} (isGood : good machine.heap value) :
    Keeps limited good (pure value) machine :=
  fun orderly => ⟨.refl _, orderly, isGood⟩

theorem done (value : α) : Keeps limited Anything (Pure.pure value : Run α) machine :=
  pure trivial

theorem error (abort : Abort) : Keeps limited good (throw abort : Run α) machine :=
  fun orderly => ⟨.refl _, orderly⟩

/-- Runs one after the other: the second one starts where the first one ended. -/
theorem bindRan
    {goodNext : Heap → β → Prop}
    {first : Run α}
    {next : α → Run β}
    (firstKeeps : Keeps limited good first machine)
    (nextKeeps : ∀ value after, machine.heap.GrowsInto after.heap → good after.heap value →
      first machine = .ok value after → Keeps limited goodNext (next value) after) :
    Keeps limited goodNext (first >>= next) machine := by
  intro orderly
  have lands := firstKeeps orderly
  cases ran : first machine with
  | error abort after =>
      rw [ran] at lands
      rw [bind_of_error ran]
      exact lands
  | ok value after =>
      rw [ran] at lands
      obtain ⟨grows, afterOrderly, isGood⟩ := lands
      have ends := nextKeeps value after grows isGood ran afterOrderly
      rw [bind_of_ok ran]
      cases nextRan : next value after with
      | ok result last =>
          rw [nextRan] at ends
          exact ⟨grows.trans ends.1, ends.2⟩
      | error abort last =>
          rw [nextRan] at ends
          exact ⟨grows.trans ends.1, ends.2⟩

theorem bind
    {goodNext : Heap → β → Prop}
    {first : Run α}
    {next : α → Run β}
    (firstKeeps : Keeps limited good first machine)
    (nextKeeps : ∀ value after, machine.heap.GrowsInto after.heap → good after.heap value →
      Keeps limited goodNext (next value) after) :
    Keeps limited goodNext (first >>= next) machine :=
  bindRan firstKeeps fun value after grows isGood _ => nextKeeps value after grows isGood

/-- What a run gives at last is what its last part gives. -/
theorem bindGiving
    {goodNext : Heap → Value → Prop}
    {first : Run α}
    {next : α → Run Value}
    (notOverlong : limited = true → givesOverlong ((first >>= next) machine) = false)
    (firstKeeps : Keeps limited good first machine)
    (nextKeeps : ∀ value after, machine.heap.GrowsInto after.heap → good after.heap value →
      (limited = true → givesOverlong (next value after) = false) →
      Keeps limited goodNext (next value) after) :
    Keeps limited goodNext (first >>= next) machine := by
  refine bindRan firstKeeps fun value after grows isGood ran => ?_
  rw [bind_of_ok ran] at notOverlong
  exact nextKeeps value after grows isGood notOverlong

theorem pureBind
    {value : β}
    {next : β → Run α}
    (keeps : Keeps limited good (next value) machine) :
    Keeps limited good (Pure.pure value >>= next) machine :=
  keeps

/-- A step that only looks at the machine. -/
theorem look
    {observe : Run β}
    {seen : β}
    {next : β → Run α}
    (looks : observe machine = .ok seen machine)
    (nextKeeps : machine.Orderly limited → Keeps limited good (next seen) machine) :
    Keeps limited good (observe >>= next) machine := by
  intro orderly
  rw [bind_of_ok looks]
  exact nextKeeps orderly orderly

theorem heap
    {next : Heap → Run α}
    (nextKeeps : machine.Orderly limited → Keeps limited good (next machine.heap) machine) :
    Keeps limited good (Run.heap >>= next) machine :=
  look rfl nextKeeps

theorem get
    {next : Machine → Run α}
    (nextKeeps : machine.Orderly limited → Keeps limited good (next machine) machine) :
    Keeps limited good (get >>= next) machine :=
  look rfl nextKeeps

theorem locate {run : Run α} (position : Position) (keeps : Keeps limited good run machine) :
    Keeps limited good (Run.locate position run) machine := by
  intro orderly
  have lands := keeps orderly
  unfold Run.locate
  cases ran : run machine with
  | ok value after =>
      rw [ran] at lands
      exact lands
  | error abort after =>
      rw [ran] at lands
      exact lands

/-- The depth of calls does not matter, if there is room for one more. -/
theorem deeper
    {run : Run α}
    (keeps : ¬(machine.maxDepth ≠ 0 ∧ machine.maxDepth < machine.depth + 1) →
      Keeps limited good run { machine with depth := machine.depth + 1 }) :
    Keeps limited good (Run.deeper run) machine := by
  intro orderly
  by_cases room : ¬(machine.maxDepth ≠ 0 ∧ machine.maxDepth < machine.depth + 1)
  · have lands := keeps room ⟨orderly.heap, orderly.scopes⟩
    rw [deeper_of_room run machine room]
    cases ran : run { machine with depth := machine.depth + 1 } with
    | ok value after =>
        rw [ran] at lands
        exact ⟨lands.1, ⟨lands.2.1.heap, lands.2.1.scopes⟩, lands.2.2⟩
    | error abort after =>
        rw [ran] at lands
        exact ⟨lands.1, lands.2.heap, lands.2.scopes⟩
  · unfold Run.deeper
    rw [if_pos (not_not.mp room)]
    exact ⟨.refl _, orderly.heap, orderly.scopes⟩

theorem changeHeap
    {change : Heap → Heap}
    (steps : machine.Orderly limited → machine.heap.Steps limited (change machine.heap)) :
    Keeps limited Anything (Run.changeHeap change) machine := by
  intro orderly
  obtain ⟨grows, heapOrderly⟩ := steps orderly
  exact ⟨grows, ⟨heapOrderly, orderly.scopes.mono grows⟩, trivial⟩

theorem changeScopes
    {change : Scopes → Scopes}
    (keeps : machine.scopes.KnownTo machine.heap → (change machine.scopes).KnownTo machine.heap) :
    Keeps limited Anything (Run.changeScopes change) machine :=
  fun orderly => ⟨.refl _, ⟨orderly.heap, keeps orderly.scopes⟩, trivial⟩

/-- A new object has the kind it was made with. -/
theorem makeObject
    {object : HeapObject}
    (isTidy : object.Tidy machine.heap machine.heap.size)
    (isNative : object.IsNative)
    (isShort : limited = true → object.body.length ≤ Storage.maxLength) :
    Keeps limited (fun heap id => heap.Has object.body.kind id) (Run.makeObject object)
      machine := by
  intro orderly
  obtain ⟨grows, heapOrderly⟩ := orderly.heap.push isTidy isNative isShort
  refine ⟨grows, ⟨heapOrderly, orderly.scopes.mono grows⟩, object, ?_, rfl⟩
  exact Array.getElem?_push_size

theorem makeScope (parent : Option Nat) (isFunction : Bool) :
    Keeps limited Anything (Run.makeScope parent isFunction) machine :=
  fun orderly => ⟨.refl _, ⟨orderly.heap, orderly.scopes.make parent isFunction⟩, trivial⟩

theorem printLine (line : String) : Keeps limited Anything (Run.printLine line) machine :=
  fun orderly => ⟨.refl _, ⟨orderly.heap, orderly.scopes⟩, trivial⟩

theorem random : Keeps limited Value.KnownTo Run.random machine := by
  intro orderly
  rw [random_eq]
  exact ⟨.refl _, ⟨orderly.heap, orderly.scopes⟩, trivial⟩

/-- An object without properties. -/
theorem makeEmpty (prototype : Option Nat) :
    Keeps limited (fun heap id => heap.Has .plain id)
      (Run.makeObject ⟨prototype, [], .plain⟩) machine :=
  .makeObject (.of_kind nofun nofun) nofun fun _ => Nat.zero_le _

theorem makePlain (prototype : Option Nat) :
    Keeps limited Value.KnownTo (Run.makePlain prototype) machine :=
  .bind (.makeEmpty prototype) fun _ _ _ has => .pure has.known

theorem makeArray
    {storage : Storage}
    (known : ∀ value, storage.Holds value → value.KnownTo machine.heap)
    (isShort : limited = true → storage.length ≤ Storage.maxLength) :
    Keeps limited Value.KnownTo (Run.makeArray storage) machine := by
  refine .bind (.makeObject ⟨nofun, ?_, fun _ => .nil, nofun⟩ (fun _ => id) isShort) ?_
  · rintro _ ⟨⟩
    exact known
  · exact fun id after _ has => .pure has.known

/-- An array that is made without a look at its length must not turn out too long. -/
theorem makeGivenArray
    {storage : Storage}
    (known : ∀ value, storage.Holds value → value.KnownTo machine.heap)
    (notOverlong : limited = true → givesOverlong (Run.makeArray storage machine) = false) :
    Keeps limited Value.KnownTo (Run.makeArray storage) machine := by
  refine makeArray known fun isLimited => Nat.le_of_not_lt fun isLong => ?_
  have given := notOverlong isLimited
  rw [givesOverlong_makeArray, decide_eq_true isLong] at given
  cases given

theorem makePattern (pattern : Pattern) :
    Keeps limited Value.KnownTo (Run.makePattern pattern) machine := by
  refine .bind (.makeObject (.of_kind nofun ?_) (fun _ => id) fun _ => Nat.zero_le _) ?_
  · simp [Value.KnownTo, Value.ofNat]
  · exact fun id after _ has => .pure has.known

/-- A function gets an object for its instances to inherit from. -/
theorem makeClosure (routine : Routine) (scope : Nat) :
    Keeps limited Value.KnownTo (Run.makeClosure routine scope) machine := by
  refine .bind (.makeObject (.of_kind nofun nofun) (fun _ => id) fun _ => Nat.zero_le _) ?_
  intro id made _ isClosure
  refine .bind (.makeObject (.of_kind nofun ?_) nofun fun _ => Nat.zero_le _) ?_
  · intro slot member
    rw [List.mem_singleton.mp member]
    exact .inl isClosure
  · intro prototype inherited grows isPrototype
    refine .bind (.changeHeap fun orderly => ?_) fun _ after later _ =>
      .pure ((isClosure.mono grows).mono later).known
    refine orderly.heap.modify (fun _ => ⟨rfl, rfl⟩) (fun object isObject _ => ?_)
      fun _ _ _ short => short
    obtain ⟨closure, isThere, isKind⟩ := isClosure.mono grows
    obtain rfl : object = closure := Option.some.inj (isObject.symm.trans isThere)
    refine .of_kind (by rw [isKind]; nofun) ?_
    simp only [List.forall_mem_cons]
    exact ⟨.inl isPrototype, trivial, trivial, nofun⟩

end Keeps

end Run

/-- Calls of known values with known values keep order and give known values. -/
def Caller.Keeps (limited : Bool) (call : Caller) : Prop :=
  ∀ (callee this : Value) (arguments : List Value) (machine : Machine),
    callee.KnownTo machine.heap → this.KnownTo machine.heap → machine.heap.Knows arguments →
    Run.Keeps limited Value.KnownTo (call callee this arguments) machine

namespace Run.Keeps

variable {limited : Bool} {machine : Machine}

/-! ## Conversions, access and operators -/

theorem defaultText (value : Value) : Keeps limited Anything (Run.defaultText value) machine := by
  refine .heap fun _ => ?_
  split
  · exact .done _
  · exact .error _

theorem read (value : Value) (name : String) :
    Keeps limited Value.KnownTo (Run.read value name) machine := by
  refine .heap fun orderly => ?_
  split
  · rename_i found isFound
    exact .pure (orderly.heap.tidy.of_read? isFound)
  · exact .error _

theorem setLength (id : Nat) (length : Float) :
    Keeps limited Anything (Run.setLength id length) machine := by
  unfold Run.setLength
  split
  · split
    · exact .error _
    · dsimp only
      split
      · exact .error _
      · rename_i inside
        exact .changeHeap fun orderly =>
          orderly.heap.resize id fun _ => Nat.le_of_not_le inside
  · exact .error _

theorem erase (target : Value) (name : String) :
    Keeps limited Anything (Run.erase target name) machine := by
  unfold Run.erase
  split
  · exact .error _
  · exact .done _
  · exact .done _
  · exact .done _
  · split
    · exact .done _
    · split
      · refine .heap fun _ => ?_
        split
        · rename_i inside
          refine .bind (.changeHeap fun orderly => ?_) fun _ _ _ _ => .done _
          refine orderly.heap.put _ trivial fun isLimited => ?_
          exact Nat.lt_of_lt_of_le inside (orderly.heap.bounded isLimited _)
        · exact .pureBind (.done _)
      · exact .bind (.changeHeap fun orderly => orderly.heap.eraseOwn _ _) fun _ _ _ _ => .done _
  · exact .bind (.changeHeap fun orderly => orderly.heap.eraseOwn _ _) fun _ _ _ _ => .done _

theorem hasProperty (target : Value) (name : String) :
    Keeps limited Anything (Run.hasProperty target name) machine := by
  unfold Run.hasProperty
  split
  · refine .heap fun _ => ?_
    split
    · exact .done _
    · split
      · exact .done _
      · exact .done _
  · exact .heap fun _ => .done _
  · exact .error _

theorem instanceOf (value constructor : Value) :
    Keeps limited Anything (Run.instanceOf value constructor) machine := by
  unfold Run.instanceOf
  split
  · exact .error _
  · split
    · refine .heap fun _ => ?_
      split
      · exact .done _
      · exact .error _
    · exact .done _

variable {call : Caller} (calls : Caller.Keeps limited call)

include calls

/-- Methods are tried one after the other. -/
theorem tryMethods
    (known : value.KnownTo machine.heap)
    (id : Nat)
    (names : List String)
    (found : Bool) :
    Keeps limited Value.KnownTo (Run.tryMethods call value id found names) machine := by
  induction names generalizing found machine with
  | nil =>
      rw [Run.tryMethods]
      split
      · exact .error _
      · exact .bind (defaultText value) fun _ _ _ _ => .pure trivial
  | cons name rest inductionHypothesis =>
      refine .heap fun orderly => ?_
      split
      · rename_i method isMethod
        split
        · have methodKnown := orderly.heap.tidy.of_lookup? isMethod
          refine .bind (calls _ _ _ _ methodKnown known nofun) fun result after grows isKnown => ?_
          split
          · exact .pure isKnown
          · exact inductionHypothesis (known.mono grows) true
        · exact inductionHypothesis known found
      · exact inductionHypothesis known found

theorem toPrimitive (hint : Hint) (known : value.KnownTo machine.heap) :
    Keeps limited Value.KnownTo (Run.toPrimitive call hint value) machine := by
  unfold Run.toPrimitive
  split
  · exact tryMethods calls known _ _ _
  · exact .pure known

theorem toText (known : value.KnownTo machine.heap) :
    Keeps limited Anything (Run.toText call value) machine :=
  .bind (toPrimitive calls _ known) fun _ _ _ _ => .done _

theorem toNumber (known : value.KnownTo machine.heap) :
    Keeps limited Anything (Run.toNumber call value) machine :=
  .bind (toPrimitive calls _ known) fun _ _ _ _ => .done _

theorem toInteger (known : value.KnownTo machine.heap) :
    Keeps limited Anything (Run.toInteger call value) machine :=
  .bind (toNumber calls known) fun _ _ _ _ => .done _

/-- Only to an array that is used as one are its elements written. -/
theorem write
    {target : Value}
    (targetKnown : target.KnownTo machine.heap)
    (name : String)
    (known : value.KnownTo machine.heap) :
    Keeps limited Anything (Run.write call target name value) machine := by
  unfold Run.write
  split
  · exact .error _
  · exact .done _
  · exact .done _
  · exact .done _
  · split
    · exact .bind (toNumber calls known) fun _ _ _ _ => setLength _ _
    · rename_i notLength
      split
      · split
        · exact .error _
        · rename_i inside
          exact .changeHeap fun orderly =>
            orderly.heap.put _ known fun _ => Nat.lt_of_not_le inside
      · rename_i noIndex
        exact .changeHeap fun orderly =>
          orderly.heap.setOwn known fun _ _ => ⟨notLength, noIndex⟩
  · rename_i kind id notArray
    refine .changeHeap fun orderly => orderly.heap.setOwn known fun isArray notInherited => ?_
    -- The target is no array, so it is one only for what it inherits.
    rcases targetKnown with has | ⟨-, inherited⟩
    · exact absurd (isArray.unique has) notArray
    · exact absurd inherited notInherited

theorem add (leftKnown : left.KnownTo machine.heap) (rightKnown : right.KnownTo machine.heap) :
    Keeps limited Value.KnownTo (Run.add call left right) machine := by
  refine .bind (toPrimitive calls _ leftKnown) fun left middle grows _ => ?_
  refine .bind (toPrimitive calls _ (rightKnown.mono grows)) fun right after _ _ => ?_
  refine .pure ?_
  split
  · trivial
  · trivial

theorem arithmetic
    (operation : Float → Float → Float)
    (leftKnown : left.KnownTo machine.heap)
    (rightKnown : right.KnownTo machine.heap) :
    Keeps limited Value.KnownTo (Run.arithmetic call operation left right) machine := by
  refine .bind (toNumber calls leftKnown) fun left middle grows _ => ?_
  exact .bind (toNumber calls (rightKnown.mono grows)) fun right after _ _ => .pure trivial

theorem compare
    (texts : String → String → Bool)
    (numbers : Float → Float → Bool)
    (leftKnown : left.KnownTo machine.heap)
    (rightKnown : right.KnownTo machine.heap) :
    Keeps limited Anything (Run.compare call texts numbers left right) machine := by
  refine .bind (toPrimitive calls _ leftKnown) fun left middle grows _ => ?_
  exact .bind (toPrimitive calls _ (rightKnown.mono grows)) fun right after _ _ => .done _

/-- The operands to go on with are known. -/
theorem looseStep
    (leftKnown : left.KnownTo machine.heap)
    (rightKnown : right.KnownTo machine.heap) :
    Keeps limited
      (fun heap step => ∀ left right, step = .inr (left, right) →
        left.KnownTo heap ∧ right.KnownTo heap)
      (Run.looseStep call left right) machine := by
  unfold Run.looseStep
  split
  case h_9 =>
    refine .pure ?_
    rintro _ _ ⟨⟩
    exact ⟨trivial, rightKnown⟩
  case h_10 =>
    refine .pure ?_
    rintro _ _ ⟨⟩
    exact ⟨leftKnown, trivial⟩
  case h_12 =>
    refine .bind (toPrimitive calls _ leftKnown) fun left after grows known => .pure ?_
    rintro _ _ ⟨⟩
    exact ⟨known, rightKnown.mono grows⟩
  case h_13 =>
    refine .bind (toPrimitive calls _ rightKnown) fun right after grows known => .pure ?_
    rintro _ _ ⟨⟩
    exact ⟨leftKnown.mono grows, known⟩
  all_goals exact .pure nofun

/-- Operands are converted step by step until there is an answer. -/
theorem looseFrom
    (budget : Nat)
    (leftKnown : left.KnownTo machine.heap)
    (rightKnown : right.KnownTo machine.heap) :
    Keeps limited Anything (Run.looseFrom call budget left right) machine := by
  induction budget generalizing left right machine with
  | zero => exact .done _
  | succ budget inductionHypothesis =>
      refine .bind (looseStep calls leftKnown rightKnown) fun step after _ known => ?_
      split
      · exact .done _
      · obtain ⟨leftKnown, rightKnown⟩ := known _ _ rfl
        exact inductionHypothesis leftKnown rightKnown

/-- Every operator between two operands keeps order. -/
theorem binary
    (operator : BinaryOperator)
    (leftKnown : left.KnownTo machine.heap)
    (rightKnown : right.KnownTo machine.heap) :
    Keeps limited Value.KnownTo (Run.binary call operator left right) machine := by
  have compared (texts : String → String → Bool) (numbers : Float → Float → Bool) :
      Keeps limited Value.KnownTo (do
        return .boolean (← Run.compare call texts numbers left right)) machine :=
    .bind (compare calls texts numbers leftKnown rightKnown) fun _ _ _ _ => .pure trivial
  cases operator with
  | add => exact add calls leftKnown rightKnown
  | subtract => exact arithmetic calls _ leftKnown rightKnown
  | multiply => exact arithmetic calls _ leftKnown rightKnown
  | divide => exact arithmetic calls _ leftKnown rightKnown
  | remainder => exact arithmetic calls _ leftKnown rightKnown
  | less => exact compared _ _
  | greater => exact compared _ _
  | lessEqual => exact compared _ _
  | greaterEqual => exact compared _ _
  | equal => exact .bind (looseFrom calls _ leftKnown rightKnown) fun _ _ _ _ => .pure trivial
  | notEqual => exact .bind (looseFrom calls _ leftKnown rightKnown) fun _ _ _ _ => .pure trivial
  | strictEqual => exact .pure trivial
  | strictNotEqual => exact .pure trivial
  | within =>
      refine .bind (toText calls leftKnown) fun name _ _ _ => ?_
      exact .bind (hasProperty right name) fun _ _ _ _ => .pure trivial
  | «instanceof» => exact .bind (instanceOf left right) fun _ _ _ _ => .pure trivial

/-- Every operator in front of an operand keeps order. -/
theorem unary (operator : UnaryOperator) (known : value.KnownTo machine.heap) :
    Keeps limited Value.KnownTo (Run.unary call operator value) machine := by
  cases operator with
  | not => exact .pure trivial
  | negate => exact .bind (toNumber calls known) fun _ _ _ _ => .pure trivial
  | toNumber => exact .bind (toNumber calls known) fun _ _ _ _ => .pure trivial
  | void => exact .pure trivial

end Run.Keeps

end ScriptEngine
