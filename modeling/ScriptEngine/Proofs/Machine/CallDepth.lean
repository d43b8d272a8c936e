import ScriptEngine.Proofs.Machine.Evaluation
import ScriptEngine.Realm

namespace ScriptEngine

/-!
# The depth of calls

The depth is counted up when a call is entered and down when it is left, on the way of
a result as on the way of an error.  No other step touches it.  So calls are nested after
a run as they were before it, and the depth is the number of calls that are open.

A function does what it does only one call deeper, and only if the limit leaves room for
that call.  Otherwise the call fails before the function has done anything.  What functions
would do beyond the limit makes no difference to any run.
-/

variable {patience : Nat} {machine : Machine}

namespace Machine

/-- The machine one call deeper. -/
def entered (machine : Machine) : Machine := { machine with depth := machine.depth + 1 }

/-- What no run changes for good: the depth of calls, its limit and the place of the global scope. -/
def fixed (machine : Machine) : Nat × Nat × Nat := (machine.depth, machine.maxDepth, machine.global)

/-- Whether calls are nested no deeper than the limit allows; zero is no limit. -/
def IsWithinLimit (machine : Machine) : Prop :=
  machine.maxDepth = 0 ∨ machine.depth ≤ machine.maxDepth

instance (machine : Machine) : Decidable machine.IsWithinLimit :=
  inferInstanceAs (Decidable (_ ∨ _))

end Machine

namespace Run

variable {α β : Type}

/-! ## Balance -/

/-- After a run calls are nested as before it, whatever its outcome. -/
def Balanced (run : Run α) : Prop := ∀ machine, (after (run machine)).depth = machine.depth

/-- After a run all is as before it that no run changes for good. -/
def KeepsFixed (run : Run α) : Prop := ∀ machine, (after (run machine)).fixed = machine.fixed

theorem KeepsFixed.bind
    {first : Run α}
    {next : α → Run β}
    (keepsFirst : KeepsFixed first)
    (keepsNext : ∀ value, KeepsFixed (next value)) :
    KeepsFixed (first >>= next) := by
  intro machine
  have same := keepsFirst machine
  cases ran : first machine with
  | ok value middle =>
      rw [ran] at same
      rw [bind_of_ok ran, keepsNext value middle]
      exact same
  | error abort middle =>
      rw [ran] at same
      rw [bind_of_error ran]
      exact same

theorem KeepsFixed.locate {run : Run α} (keeps : KeepsFixed run) (position : Position) :
    KeepsFixed (Run.locate position run) := by
  intro machine
  have same := keeps machine
  unfold Run.locate
  cases ran : run machine with
  | ok value middle | error abort middle =>
      rw [ran] at same
      exact same

theorem fixed_leaving (outcome : EStateM.Result Abort Machine α) :
    (after (leaving outcome)).fixed =
      ((after outcome).fixed.1 - 1, (after outcome).fixed.2) := by
  cases outcome <;> rfl

/-- A call the limit has no room for fails and leaves the machine as it is. -/
theorem deeper_of_full (run : Run α) (full : ¬ machine.entered.IsWithinLimit) :
    deeper run machine = .error (.raised ⟨.range .callDepth, none⟩) machine := by
  have exceeded : machine.maxDepth ≠ 0 ∧ machine.maxDepth < machine.depth + 1 := by
    simpa [Machine.IsWithinLimit, Machine.entered] using full
  unfold deeper
  rw [if_pos exceeded]
  rfl

/-- A call the limit has room for runs one call deeper. -/
theorem deeper_of_within (run : Run α) (within : machine.entered.IsWithinLimit) :
    deeper run machine = leaving (run machine.entered) := by
  refine deeper_of_room run machine ?_
  rintro ⟨limited, exceeded⟩
  rcases within with unlimited | bounded
  · exact limited unlimited
  · exact Nat.not_lt.mpr bounded exceeded

/-- Counting up and down again comes to the same. -/
theorem KeepsFixed.deeper {run : Run α} (keeps : KeepsFixed run) : KeepsFixed (Run.deeper run) := by
  intro machine
  by_cases within : machine.entered.IsWithinLimit
  · rw [deeper_of_within run within, fixed_leaving, keeps machine.entered]
    rfl
  · rw [deeper_of_full run within]
    rfl

/-- No step changes for good what no run does. -/
theorem Built.keepsFixed
    {place : Position → Prop}
    {sound : Routine → Prop}
    {bare : Bool}
    {run : Run α}
    (anyHeap : ∀ heap : Heap, heap.AllSound sound)
    (built : Built place sound (fun _ => False) bare run) :
    KeepsFixed run := by
  induction built with
  | bind _ _ first next => exact first.bind next
  | heap _ next => exact fun machine => next machine.heap (anyHeap _) machine
  | scopes _ _ next => exact fun machine => next machine machine
  | locate _ _ inner => exact inner.locate _
  | deeper _ inner => exact inner.deeper
  | random =>
      intro machine
      obtain ⟨value, seed, ran⟩ := random_result machine
      rw [ran]
      rfl
  | pure | fail | raise | broken | changeHeap | changeScopes | makeObject | makeScope
  | printLine => exact fun _ => rfl
  | call _ _ _ isCaller => exact isCaller.elim

/-- Runs for which every place and every function will do. -/
abbrev IsBuilt (run : Run α) : Prop :=
  Built (fun _ => True) (Routine.Fits (fun _ => True) (fun _ => True)) (fun _ => False) true run

theorem IsBuilt.balanced {run : Run α} (built : IsBuilt run) : Balanced run :=
  fun machine => congrArg Prod.fst (built.keepsFixed Heap.allSound_of_any machine)

/-! ## Functions at work -/

/-- What a function of the heap does when it is called, if a value is one. -/
def work? (heap : Heap) (call : Caller) (patience : Nat) (callee this : Value)
    (arguments : List Value) : Option (Run Value) :=
  match callee with
  | .object .closure id =>
      match heap.body id with
      | .closure routine scope => some (invoke call patience callee this arguments routine scope)
      | _ => none
  | .object .builtin id =>
      match heap.body id with
      | .builtin builtin => some (builtin.run call this arguments)
      | _ => none
  | _ => none

/-- What a builtin constructor of the heap does to construct, if a value is one. -/
def making? (heap : Heap) (call : Caller) (constructor : Value) (arguments : List Value) :
    Option (Run Value) :=
  match constructor with
  | .object .builtin id =>
      match heap.body id with
      | .builtin builtin =>
          if builtin.isConstructor then some (builtin.run call .undefined arguments) else none
      | _ => none
  | _ => none

/-- A call is what the function does, one call deeper, or a failure for want of a function. -/
theorem callWithin_eq
    (call : Caller)
    (patience : Nat)
    (callee this : Value)
    (arguments : List Value)
    (machine : Machine) :
    callWithin call patience callee this arguments machine =
      match work? machine.heap call patience callee this arguments with
      | some work => deeper work machine
      | none => failType (.notCallable (machine.heap.describe callee)) machine := by
  cases callee with
  | object kind id =>
      cases kind with
      | closure =>
          change (match machine.heap.body id with
            | .closure routine scope =>
                nested (invoke call patience (.object .closure id) this arguments routine scope)
            | _ => (do failType (.notCallable ((← heap).describe (.object .closure id)))) : Run Value)
              machine = _
          unfold work?
          dsimp only
          cases machine.heap.body id with
          | closure routine scope => dsimp only; rw [nested_eq_deeper]
          | plain | array | builtin | pattern => rfl
      | builtin =>
          change (match machine.heap.body id with
            | .builtin builtin => nested (builtin.run call this arguments)
            | _ => (do failType (.notCallable ((← heap).describe (.object .builtin id)))) : Run Value)
              machine = _
          unfold work?
          dsimp only
          cases machine.heap.body id with
          | builtin builtin => dsimp only; rw [nested_eq_deeper]
          | plain | array | closure | pattern => rfl
      | plain | array | pattern => rfl
  | undefined | number | string | boolean => rfl

/-- A builtin constructor is run one call deeper. -/
theorem construct_of_making
    {call : Caller}
    {constructor : Value}
    {arguments : List Value}
    {making : Run Value}
    (isMaking : making? machine.heap call constructor arguments = some making) :
    construct call constructor arguments machine = deeper making machine := by
  unfold making? at isMaking
  split at isMaking
  · rename_i id
    change (match machine.heap.body id with
      | .builtin builtin =>
          if builtin.isConstructor then deeper (builtin.run call .undefined arguments)
          else (do failType (.notConstructor builtin.name ((← heap).describe (.object .builtin id))))
      | _ => (do failType (.notConstructor "" ((← heap).describe (.object .builtin id)))) : Run Value)
        machine = _
    split at isMaking
    · rename_i builtin isBuiltin
      rw [isBuiltin]
      split at isMaking
      · rename_i constructs
        cases isMaking
        dsimp only
        rw [if_pos constructs]
      · cases isMaking
    · cases isMaking
  · cases isMaking

/--
One more call: what it does is done one call deeper if the limit leaves room for that;
otherwise the call fails, and the machine is as before.
-/
structure EntersWithinLimit (run work : Run α) (machine : Machine) : Prop where
  room : machine.entered.IsWithinLimit → run machine = leaving (work machine.entered)
  full :
    ¬ machine.entered.IsWithinLimit →
    run machine = .error (.raised ⟨.range .callDepth, none⟩) machine

theorem EntersWithinLimit.of_eq_deeper
    {run work : Run α}
    (same : run machine = deeper work machine) :
    EntersWithinLimit run work machine where
  room within := by rw [same, deeper_of_within work within]
  full full := by rw [same, deeper_of_full work full]

theorem callUpTo_enters
    {callee this : Value}
    {arguments : List Value}
    {work : Run Value}
    (isWork : work? machine.heap (callUpTo patience) patience callee this arguments = some work) :
    EntersWithinLimit (callUpTo (patience + 1) callee this arguments) work machine := by
  refine .of_eq_deeper ?_
  rw [callUpTo, callWithin_eq, isWork]

/-- A call that gives a result did so one call deeper. -/
theorem EntersWithinLimit.of_ok
    {run work : Run α}
    {machine last : Machine}
    {result : α}
    (enters : EntersWithinLimit run work machine)
    (ran : run machine = .ok result last) :
    ∃ inner, work machine.entered = .ok result inner ∧
      last = { inner with depth := inner.depth - 1 } := by
  by_cases within : machine.entered.IsWithinLimit
  · rw [enters.room within] at ran
    cases worked : work machine.entered with
    | ok given inner =>
        rw [worked] at ran
        cases ran
        exact ⟨inner, rfl, rfl⟩
    | error abort inner =>
        rw [worked] at ran
        cases ran
  · rw [enters.full within] at ran
    cases ran

/-! ## Functions that are meddled with -/

/-- Calls of functions with something put around what each of them does. -/
def callThrough (around : Run Value → Run Value) : Nat → Caller
  | 0 => callUpTo 0
  | patience + 1 => fun callee this arguments machine =>
      match work? machine.heap (callThrough around patience) patience callee this arguments with
      | some work => deeper (around work) machine
      | none => failType (.notCallable (machine.heap.describe callee)) machine

/-- What is done beyond the limit only is not done at all. -/
theorem deeper_around
    {around : Run α → Run α}
    (harmless : ∀ work machine, machine.IsWithinLimit → around work machine = work machine)
    (work : Run α) :
    deeper (around work) = deeper work := by
  funext machine
  by_cases within : machine.entered.IsWithinLimit
  · rw [deeper_of_within _ within, deeper_of_within _ within, harmless work _ within]
  · rw [deeper_of_full _ within, deeper_of_full _ within]

theorem callThrough_eq
    {around : Run Value → Run Value}
    (harmless : ∀ work machine, machine.IsWithinLimit → around work machine = work machine)
    (patience : Nat) :
    callThrough around patience = callUpTo patience := by
  induction patience with
  | zero => rfl
  | succ patience inductionHypothesis =>
      funext callee this arguments machine
      rw [callUpTo, callWithin_eq]
      change (match
          work? machine.heap (callThrough around patience) patience callee this arguments with
        | some work => deeper (around work) machine
        | none => failType (.notCallable (machine.heap.describe callee)) machine) = _
      rw [inductionHypothesis]
      cases work? machine.heap (callUpTo patience) patience callee this arguments with
      | some work => exact congrFun (deeper_around harmless work) machine
      | none => rfl

/-! ## The law of calls -/

/-- A function of a script constructs by a call on an object made for it. -/
theorem construct_closure
    (call : Caller)
    (id : Nat)
    (arguments : List Value)
    (machine : Machine) :
    ∃ prototype,
      construct call (.object .closure id) arguments machine =
        (do
          let created ← makePlain (some prototype)
          let result ← call (.object .closure id) created arguments
          return if result.isObject then result else created : Run Value) machine :=
  ⟨_, rfl⟩

/-- A function of a script that constructs beyond the limit leaves nothing but the new object. -/
theorem construct_closure_of_full
    {id scope : Nat}
    {routine : Routine}
    (isClosure : machine.heap.body id = .closure routine scope)
    (full : ¬ machine.entered.IsWithinLimit)
    (arguments : List Value) :
    ∃ prototype,
      construct (callUpTo (patience + 1)) (.object .closure id) arguments machine =
        .error (.raised ⟨.range .callDepth, none⟩)
          { machine with heap := machine.heap.push ⟨some prototype, [], .plain⟩ } := by
  obtain ⟨prototype, constructs⟩ := construct_closure (callUpTo (patience + 1)) id arguments machine
  refine ⟨prototype, ?_⟩
  rw [constructs]
  let created := Value.object .plain machine.heap.size
  let grown : Machine := { machine with heap := machine.heap.push ⟨some prototype, [], .plain⟩ }
  have staysClosure : grown.heap.body id = .closure routine scope := by
    unfold Heap.body at isClosure ⊢
    have notNew : id ≠ machine.heap.size := by
      rintro rfl
      rw [Array.getElem?_eq_none (Nat.le_refl _)] at isClosure
      cases isClosure
    rwa [Array.getElem?_push, if_neg notNew]
  have isWork :
      work? grown.heap (callUpTo patience) patience (.object .closure id) created arguments =
        some (invoke (callUpTo patience) patience (.object .closure id) created arguments routine
          scope) := by
    unfold work?
    dsimp only
    rw [staysClosure]
  have failed := (callUpTo_enters isWork).full full
  have made : makePlain (some prototype) machine = .ok created grown := rfl
  rw [bind_of_ok made]
  exact bind_of_error failed

/-- The runs a machine is asked for from outside, with a bound on how deeply calls nest. -/
inductive Request (patience : Nat) : {α : Type} → Run α → Prop where
  | call (callee this : Value) (arguments : List Value) :
      Request patience (callUpTo patience callee this arguments)
  | apply (function this arguments : Value) :
      Request patience (Run.apply (callUpTo patience) function this arguments)
  | construct (constructor : Value) (arguments : List Value) :
      Request patience (Run.construct (callUpTo patience) constructor arguments)
  | toPrimitive (hint : Hint) (value : Value) :
      Request patience (Run.toPrimitive (callUpTo patience) hint value)
  | toText (value : Value) : Request patience (Run.toText (callUpTo patience) value)
  | toNumber (value : Value) : Request patience (Run.toNumber (callUpTo patience) value)
  | toInteger (value : Value) : Request patience (Run.toInteger (callUpTo patience) value)
  | code (code : Code) (scope : Nat) : Request patience (code.runWithin patience scope)

theorem Request.isBuilt {run : Run α} (request : Request patience run) :
    IsBuilt run := by
  have calls (callee this : Value) (arguments : List Value) :
      IsBuilt (callUpTo patience callee this arguments) :=
    .callUpTo patience callee this arguments
  cases request with
  | call callee this arguments => exact calls callee this arguments
  | apply function this arguments => exact (Uniform.apply function this arguments).built calls
  | construct constructor arguments => exact (Uniform.construct constructor arguments).built calls
  | toPrimitive hint value => exact (Uniform.toPrimitive hint value).built calls
  | toText value => exact (Uniform.toText value).built calls
  | toNumber value => exact (Uniform.toNumber value).built calls
  | toInteger value => exact (Uniform.toInteger value).built calls
  | code code scope =>
      refine (Code.runMain_built (fun _ fits => fits) calls scope _ ?_).toBare
      exact fun action _ => action.fits_of_free (fun _ => trivial) (fun _ => trivial) fun _ => trivial

/--
After whatever a machine is asked for, calls are nested as before.  What a function does
when it is called, and what a builtin constructor does to construct, is done one call deeper
and only within the limit; one call more than the limit allows fails before anything is done.
So what is put around the work of functions makes no difference to any call as long as it
does nothing within the limit.
-/
theorem calls_balanced_and_bounded (patience : Nat) :
    (∀ {α : Type} (run : Run α), Request patience run → Balanced run) ∧
    (∀ (machine : Machine) (callee this : Value) (arguments : List Value) (work : Run Value),
      work? machine.heap (callUpTo patience) patience callee this arguments = some work →
      EntersWithinLimit (callUpTo (patience + 1) callee this arguments) work machine) ∧
    (∀ (machine : Machine) (constructor : Value) (arguments : List Value) (making : Run Value),
      making? machine.heap (callUpTo patience) constructor arguments = some making →
      EntersWithinLimit (construct (callUpTo patience) constructor arguments) making machine) ∧
    (∀ (machine : Machine) (id scope : Nat) (routine : Routine) (arguments : List Value),
      machine.heap.body id = .closure routine scope →
      ¬ machine.entered.IsWithinLimit →
      ∃ prototype,
        construct (callUpTo (patience + 1)) (.object .closure id) arguments machine =
          .error (.raised ⟨.range .callDepth, none⟩)
            { machine with heap := machine.heap.push ⟨some prototype, [], .plain⟩ }) ∧
    ∀ around : Run Value → Run Value,
      (∀ work machine, machine.IsWithinLimit → around work machine = work machine) →
      callThrough around patience = callUpTo patience := by
  refine ⟨fun run request => request.isBuilt.balanced, ?_, ?_, ?_, ?_⟩
  · intro machine callee this arguments work isWork
    exact callUpTo_enters isWork
  · intro machine constructor arguments making isMaking
    exact .of_eq_deeper (construct_of_making isMaking)
  · intro machine id scope routine arguments isClosure full
    exact construct_closure_of_full isClosure full arguments
  · intro around harmless
    exact callThrough_eq harmless patience

/-- A machine with a function and a builtin constructor, and with as many calls as it allows. -/
def fullMachine : Machine where
  heap := #[⟨none, [], .closure (Routine.mk 0 "" [] [] true) 0⟩, ⟨none, [], .builtin .objectNew⟩]
  scopes := #[]
  global := 0
  output := ""
  depth := 2
  maxDepth := 2
  seed := 0

/-- Work that fails when it is done beyond the limit. -/
def alarmed (work : Run Value) : Run Value := fun machine =>
  if machine.IsWithinLimit then work machine else .error (.broken .outOfFuel) machine

theorem calls_balanced_and_bounded_at_limit :
    Balanced (callUpTo 0 (.object .closure 0) .undefined []) ∧
      callUpTo 1 (.object .closure 0) .undefined [] fullMachine =
        .error (.raised ⟨.range .callDepth, none⟩) fullMachine ∧
      construct (callUpTo 0) (.object .builtin 1) [] fullMachine =
        .error (.raised ⟨.range .callDepth, none⟩) fullMachine ∧
      (∃ heap, construct (callUpTo 1) (.object .closure 0) [] fullMachine =
        .error (.raised ⟨.range .callDepth, none⟩) { fullMachine with heap := heap }) ∧
      callThrough alarmed 0 = callUpTo 0 := by
  obtain ⟨balanced, called, constructed, made, through⟩ := calls_balanced_and_bounded 0
  have full : ¬ fullMachine.entered.IsWithinLimit := by decide
  obtain ⟨prototype, failed⟩ := made fullMachine 0 0 _ [] rfl full
  refine ⟨balanced _ (.call _ _ _), ?_, ?_, ⟨_, failed⟩, ?_⟩
  · exact (called fullMachine (.object .closure 0) .undefined [] _ rfl).full full
  · exact (constructed fullMachine (.object .builtin 1) [] _ rfl).full full
  · exact through alarmed fun work machine within => if_pos within

end Run

/-!
## The limit of nested calls

A run looks at the limit of nested calls only when it enters a call, and it goes
on as if there were no limit unless the limit ends it.  So a run that one limit
does not end is the same under every wider limit: it has the same outcome, and
the machines afterwards differ in nothing but the limit.

This needs nothing of the code or of the heap, so all jumps are free here and all
places are allowed.
-/

namespace Abort

/-- Whether calls nested too deeply. -/
def isTooDeep : Abort → Bool
  | raised error =>
      match error.fault with
      | .range .callDepth => true
      | _ => false
  | broken _ => false

/-- Giving an error a place does not change its cause. -/
theorem isTooDeep_locate (position : Position) (abort : Abort) :
    (abort.locate position).isTooDeep = abort.isTooDeep := by
  cases abort <;> rfl

end Abort

namespace Machine

/-- The same machine with another limit of nested calls. -/
def withLimit (limit : Nat) (machine : Machine) : Machine := { machine with maxDepth := limit }

end Machine

namespace Run

/-- The same outcome of a run with another limit on the machine afterwards. -/
def withLimit (limit : Nat) :
    EStateM.Result Abort Machine α → EStateM.Result Abort Machine α
  | .ok value machine => .ok value (machine.withLimit limit)
  | .error abort machine => .error abort (machine.withLimit limit)

/-- Whether a run ended because calls nested too deeply. -/
def hitsLimit : EStateM.Result Abort Machine α → Bool
  | .ok _ _ => false
  | .error abort _ => abort.isTooDeep

/-- A limit that is no limit or no stricter than another one. -/
def Widens (limit wider : Nat) : Prop := 0 < limit ∧ (limit ≤ wider ∨ wider = 0)

/-- A run that its limit does not end is the same under every wider limit. -/
def IgnoresLimit (run : Run α) : Prop :=
  ∀ machine wider, Widens machine.maxDepth wider → hitsLimit (run machine) = false →
    run (machine.withLimit wider) = withLimit wider (run machine)

variable {α β : Type}

theorem IgnoresLimit.bind
    {first : Run α}
    {next : α → Run β}
    (keeps : KeepsFixed first)
    (ignoresFirst : IgnoresLimit first)
    (ignoresNext : ∀ value, IgnoresLimit (next value)) :
    IgnoresLimit (first >>= next) := by
  intro machine wider widens within
  have kept := keeps machine
  have same := ignoresFirst machine wider widens
  cases ran : first machine with
  | ok value middle =>
      rw [ran] at kept same
      have sameFirst : first (machine.withLimit wider) = .ok value (middle.withLimit wider) :=
        same rfl
      rw [bind_of_ok ran] at within ⊢
      rw [bind_of_ok sameFirst]
      refine ignoresNext value middle wider ?_ within
      rw [show middle.maxDepth = machine.maxDepth from congrArg (·.2.1) kept]
      exact widens
  | error abort middle =>
      rw [ran] at same
      rw [bind_of_error ran] at within ⊢
      have sameFirst : first (machine.withLimit wider) = .error abort (middle.withLimit wider) :=
        same within
      exact bind_of_error sameFirst

theorem hitsLimit_leaving (outcome : EStateM.Result Abort Machine α) :
    hitsLimit (leaving outcome) = hitsLimit outcome := by
  cases outcome <;> rfl

theorem IgnoresLimit.locate {run : Run α} (ignores : IgnoresLimit run) (position : Position) :
    IgnoresLimit (Run.locate position run) := by
  intro machine wider widens within
  have same := ignores machine wider widens
  unfold Run.locate at within ⊢
  cases ran : run machine with
  | ok value middle =>
      rw [ran] at same
      rw [same rfl]
      rfl
  | error abort middle =>
      rw [ran] at same within
      have notTooDeep : abort.isTooDeep = false := by
        rw [← abort.isTooDeep_locate position]
        exact within
      rw [same notTooDeep]
      rfl

/-- A call that a limit lets pass is let pass by a wider limit. -/
theorem IgnoresLimit.deeper {run : Run α} (ignores : IgnoresLimit run) :
    IgnoresLimit (Run.deeper run) := by
  intro machine wider widens within
  have room : ¬(machine.maxDepth ≠ 0 ∧ machine.maxDepth < machine.depth + 1) := by
    intro exceeded
    unfold Run.deeper at within
    rw [if_pos exceeded] at within
    cases within
  have widerRoom : ¬(wider ≠ 0 ∧ wider < machine.depth + 1) := by
    unfold Widens at widens
    omega
  have entering := ignores { machine with depth := machine.depth + 1 } wider widens
  have ran := deeper_of_room run machine room
  have widerRan := deeper_of_room run (machine.withLimit wider) widerRoom
  rw [ran] at within ⊢
  rw [widerRan]
  have same := entering (by rwa [hitsLimit_leaving] at within)
  change leaving (run (Machine.withLimit wider { machine with depth := machine.depth + 1 })) = _
  rw [same]
  cases run { machine with depth := machine.depth + 1 } with
  | ok value middle => rfl
  | error abort middle => rfl

/-- A run built from steps that is not ended by its limit is the same under a wider one. -/
theorem Built.ignoresLimit
    {place : Position → Prop}
    {sound : Routine → Prop}
    {bare : Bool}
    {run : Run α}
    (anyHeap : ∀ heap : Heap, heap.AllSound sound)
    (built : Built place sound (fun _ => False) bare run) :
    IgnoresLimit run := by
  induction built with
  | bind first _ ignoresFirst ignoresNext =>
      exact .bind (first.keepsFixed anyHeap) ignoresFirst ignoresNext
  | heap _ next => exact fun machine => next machine.heap (anyHeap _) machine
  | @scopes _ _ next onlyScopes _ ignores =>
      intro machine wider widens within
      change next (machine.withLimit wider) (machine.withLimit wider) = _
      rw [onlyScopes (machine.withLimit wider) machine rfl]
      exact ignores machine machine wider widens within
  | locate _ _ inner => exact inner.locate _
  | deeper _ inner => exact inner.deeper
  | random =>
      intro machine wider _ _
      rw [random_eq, random_eq]
      rfl
  | pure | fail | raise | broken | changeHeap | changeScopes | makeObject | makeScope
  | printLine => exact fun _ _ _ _ => rfl
  | call _ _ _ isCaller => exact isCaller.elim

end Run

namespace Code

/--
Code that does not hit a limit of nested calls has the same outcome under every
wider limit, and leaves the same machine but for the limit.
-/
theorem runIn_under_wider_limit
    (code : Code)
    (scope : Nat)
    (machine : Machine)
    {limit wider : Nat}
    (widens : Run.Widens limit wider)
    (within : Run.hitsLimit (code.runIn scope (machine.withLimit limit)) = false) :
    code.runIn scope (machine.withLimit wider) =
      Run.withLimit wider (code.runIn scope (machine.withLimit limit)) := by
  have ignores := (code.runIn_built_of_any scope).ignoresLimit Heap.allSound_of_any
  exact ignores (machine.withLimit limit) wider widens within

/-- Code that calls a function, which calls another one. -/
def callingTwice : Code :=
  let position : Position := ⟨1, 1, 0, 1, ⟨"twice", "", ""⟩⟩
  let inner := Routine.mk 0 "" [] [.giveBack (some (.constant (.string "done")))] true
  let outer :=
    Routine.mk 1 "" [] [.giveBack (some (.call (.closure inner) [] "inner" position))] true
  ⟨[inner, outer], [.evaluate (.call (.closure outer) [] "outer" position)]⟩

theorem callingTwice_under_wider_limit :
    Run.Widens 2 0 ∧
      Run.hitsLimit (callingTwice.runIn 0 ((Machine.bare 0).withLimit 2)) = false ∧
      callingTwice.runIn 0 ((Machine.bare 0).withLimit 0) =
        Run.withLimit 0 (callingTwice.runIn 0 ((Machine.bare 0).withLimit 2)) := by
  have widens : Run.Widens 2 0 := by
    unfold Run.Widens
    omega
  have within : Run.hitsLimit (callingTwice.runIn 0 ((Machine.bare 0).withLimit 2)) = false := by
    decide +kernel
  exact ⟨widens, within, runIn_under_wider_limit callingTwice 0 (Machine.bare 0) widens within⟩

end Code

end ScriptEngine
