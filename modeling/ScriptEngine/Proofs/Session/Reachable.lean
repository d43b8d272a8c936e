import ScriptEngine.Proofs.Machine.OrderlyRuns
import ScriptEngine.Settings

namespace ScriptEngine

/-!
# Orderly realms

A realm is orderly from the start: its library consists of objects that are no arrays, and
data of the host becomes new objects.  Runs of code keep it so.  What is left to the host is
to make scopes and to read what was written to the console.
-/

variable {value : Value}

/-! ## The library -/

/-- A member that is a primitive value or a function. -/
def Member.isSimple : Member → Bool
  | .constant _ value => value.isPrimitive
  | .function _ => true

/-- The methods go to a prototype of every realm, and all members are simple. -/
def LibraryPart.isSimple (part : LibraryPart) : Bool :=
  match part.provision with
  | .type prototype _ _ members => prototype ≤ Heap.patternPrototype && members.all Member.isSimple
  | .collection members | .globals members => members.all Member.isSimple

theorem LibraryPart.standard_isSimple : ∀ part ∈ standard, part.isSimple = true := by
  decide

theorem Properties.mem_setHidden
    {properties : Properties} {slot : PropertySlot} {name : String}
    (member : slot ∈ properties.setHidden name value) :
    slot ∈ properties ∨ slot.value = value := by
  induction properties with
  | nil =>
      obtain rfl := List.mem_singleton.mp member
      exact .inr rfl
  | cons first rest inductionHypothesis =>
      rw [setHidden] at member
      split at member
      · rcases List.mem_cons.mp member with rfl | later
        · exact .inr rfl
        · exact .inl (.tail _ later)
      · rcases List.mem_cons.mp member with rfl | later
        · exact .inl (.head _)
        · exact (inductionHypothesis later).imp_left (.tail _)

theorem Value.knownTo_of_isPrimitive (primitive : value.isPrimitive = true) (heap : Heap) :
    value.KnownTo heap := by
  cases value with
  | object kind id => cases primitive
  | undefined | number _ | string _ | boolean _ => trivial

namespace Machine

variable {limited : Bool} {machine : Machine}

/-- A machine went on to be an orderly one. -/
structure Steps (limited : Bool) (older newer : Machine) : Prop where
  grows : older.heap.GrowsInto newer.heap
  orderly : newer.Orderly limited

theorem Steps.refl (orderly : machine.Orderly limited) : Steps limited machine machine :=
  ⟨.refl _, orderly⟩

theorem Steps.trans
    {older newer : Machine} (first : Steps limited older machine)
    (second : Steps limited machine newer) :
    Steps limited older newer :=
  ⟨first.grows.trans second.grows, second.orderly⟩

theorem Steps.of_heap
    {heap : Heap} (orderly : machine.Orderly limited) (steps : machine.heap.Steps limited heap) :
    Steps limited machine { machine with heap := heap } :=
  ⟨steps.grows, steps.orderly, orderly.scopes.mono steps.grows⟩

theorem Steps.declare
    (orderly : machine.Orderly limited) (name : String) (known : value.KnownTo machine.heap) :
    Steps limited machine (machine.declare name value) :=
  ⟨.refl _, orderly.heap, orderly.scopes.bind _ name known⟩

/-- A new object has the kind it was made with. -/
theorem Steps.push
    (orderly : machine.Orderly limited)
    (object : HeapObject)
    (isTidy : object.Tidy machine.heap machine.heap.size)
    (isNative : object.IsNative)
    (isShort : limited = true → object.body.length ≤ Storage.maxLength) :
    Steps limited machine { machine with heap := machine.heap.push object } ∧
      Heap.Has (machine.heap.push object) object.body.kind machine.heap.size :=
  ⟨.of_heap orderly (orderly.heap.push isTidy isNative isShort), object, Array.getElem?_push_size, rfl⟩

/-- Hidden properties are given to objects that are no arrays. -/
theorem Steps.hide
    (orderly : machine.Orderly limited)
    {kind : ObjectKind}
    {id : Nat}
    (has : machine.heap.Has kind id)
    (notArray : kind ≠ .array)
    (name : String)
    (known : value.KnownTo machine.heap) :
    Steps limited machine (machine.hide id name value) := by
  refine .of_heap orderly (orderly.heap.modify (fun _ => ⟨rfl, rfl⟩) (fun object isObject tidy => ?_)
    fun _ _ _ short => short)
  refine .of_kind (fun isArray => notArray ?_) fun slot member => ?_
  · exact (Heap.Has.unique has ⟨object, isObject, isArray⟩).symm
  · rcases Properties.mem_setHidden member with old | rfl
    · exact tidy.properties slot old
    · exact known

theorem Steps.makeBuiltin (orderly : machine.Orderly limited) (builtin : Builtin) :
    Steps limited machine (machine.makeBuiltin builtin).2 ∧
      (machine.makeBuiltin builtin).2.heap.Has .builtin machine.heap.size := by
  refine Steps.push orderly _ (.of_kind nofun ?_) (fun _ => id) fun _ => Nat.zero_le _
  simp [Value.KnownTo, Value.ofNat]

theorem Steps.makeMember
    (orderly : machine.Orderly limited) {member : Member} (isSimple : member.isSimple = true) :
    Steps limited machine (machine.makeMember member).2 ∧
      (machine.makeMember member).1.2.KnownTo (machine.makeMember member).2.heap := by
  cases member with
  | constant name value => exact ⟨.refl orderly, Value.knownTo_of_isPrimitive isSimple _⟩
  | function builtin =>
      obtain ⟨steps, isBuiltin⟩ := Steps.makeBuiltin orderly builtin
      exact ⟨steps, isBuiltin.known⟩

/-- What each step of a fold keeps, the fold keeps. -/
theorem Steps.foldl
    {α : Type}
    {step : Machine → α → Machine}
    {base : Heap}
    {items : List α}
    (steps : ∀ item ∈ items, ∀ machine : Machine, base.GrowsInto machine.heap →
      machine.Orderly limited → Steps limited machine (step machine item))
    (grows : base.GrowsInto machine.heap)
    (orderly : machine.Orderly limited) :
    Steps limited machine (items.foldl step machine) := by
  induction items generalizing machine with
  | nil => exact .refl orderly
  | cons item rest inductionHypothesis =>
      have first := steps item (.head rest) machine grows orderly
      exact first.trans (inductionHypothesis (fun other member => steps other (.tail item member))
        (grows.trans first.grows) first.orderly)

theorem Steps.addMembers
    (orderly : machine.Orderly limited) {kind : ObjectKind} {id : Nat}
    (has : machine.heap.Has kind id) (notArray : kind ≠ .array) {members : List Member}
    (areSimple : members.all Member.isSimple = true) :
    Steps limited machine (members.foldl (addMember id) machine) := by
  refine .foldl (fun member isMember middle grows orderly => ?_) (.refl _) orderly
  obtain ⟨made, known⟩ := Steps.makeMember orderly (List.all_eq_true.mp areSimple member isMember)
  exact made.trans (.hide made.orderly ((has.mono grows).mono made.grows) notArray _ known)

theorem Steps.addGlobals
    (orderly : machine.Orderly limited) {members : List Member}
    (areSimple : members.all Member.isSimple = true) :
    Steps limited machine (members.foldl addGlobal machine) := by
  refine .foldl (fun member isMember middle _ orderly => ?_) (.refl _) orderly
  obtain ⟨made, known⟩ := Steps.makeMember orderly (List.all_eq_true.mp areSimple member isMember)
  exact made.trans (.declare made.orderly _ known)

/-- Installing a part of the library keeps order. -/
theorem Steps.install
    (orderly : machine.Orderly limited)
    {part : LibraryPart}
    (isSimple : part.isSimple = true) :
    Steps limited machine (machine.install part) := by
  obtain ⟨name, priority, provision⟩ := part
  cases provision with
  | globals members => exact .addGlobals orderly isSimple
  | collection members =>
      obtain ⟨made, isPlain⟩ := Steps.push orderly ⟨some Heap.objectPrototype, [], .plain⟩
        (.of_kind (by decide) (List.forall_mem_nil _)) (fun _ isNative => by cases isNative)
        fun _ => Nat.zero_le _
      have filled := Steps.addMembers made.orderly isPlain (by decide) isSimple
      have declared := Steps.declare filled.orderly name (isPlain.mono filled.grows).known
      exact made.trans (filled.trans declared)
  | type prototype constructor methods members =>
      obtain ⟨inRange, areSimple⟩ := Bool.and_eq_true_iff.mp isSimple
      have isPrototype := orderly.heap.tidy.prototypes prototype (of_decide_eq_true inRange)
      have areMethods : (methods.map Member.function).all Member.isSimple = true := by
        simp [Member.isSimple]
      have withMethods := Steps.addMembers orderly isPrototype (by decide) areMethods
      have isPrototype := isPrototype.mono withMethods.grows
      obtain ⟨made, isConstructor⟩ := Steps.makeBuiltin withMethods.orderly constructor
      have isPrototype := isPrototype.mono made.grows
      -- The prototype and the constructor name each other.
      have linked := Steps.hide made.orderly isConstructor (by decide) "prototype" isPrototype.known
      have isPrototype := isPrototype.mono linked.grows
      have isConstructor := isConstructor.mono linked.grows
      have linkedBack :=
        Steps.hide linked.orderly isPrototype (by decide) "constructor" isConstructor.known
      have isConstructor := isConstructor.mono linkedBack.grows
      have filled := Steps.addMembers linkedBack.orderly isConstructor (by decide) areSimple
      have declared := Steps.declare filled.orderly name (isConstructor.mono filled.grows).known
      exact withMethods.trans (made.trans (linked.trans (linkedBack.trans
        (filled.trans declared))))

theorem orderly_bare (maxDepth : Nat) : (bare maxDepth).Orderly limited := by
  have plain : ∀ (id : Nat) (object : HeapObject), (bare maxDepth).heap[id]? = some object →
      object.properties = [] ∧ object.body = .plain := by
    intro id object isObject
    rcases Array.mem_append.mp (Array.mem_of_getElem? isObject) with isFirst | isLater
    · rw [Array.mem_singleton.mp isFirst]
      exact ⟨rfl, rfl⟩
    · rw [Array.eq_of_mem_replicate isLater]
      exact ⟨rfl, rfl⟩
  refine ⟨⟨⟨fun id object isObject => ?_, fun id object isObject => ?_, fun id inRange => ?_⟩,
    fun _ => ?_⟩, ?_⟩
  · obtain ⟨noProperties, isPlain⟩ := plain id object isObject
    exact .of_kind (by rw [isPlain]; nofun) (by rw [noProperties]; nofun)
  · unfold HeapObject.IsNative
    rw [(plain id object isObject).2]
    nofun
  · have inside : id < (bare maxDepth).heap.size := Nat.lt_succ_of_le inRange
    have isObject := Array.getElem?_eq_getElem inside
    exact ⟨_, isObject, by rw [(plain id _ isObject).2]; rfl⟩
  · refine Heap.bounded_iff.mpr fun id object isObject => ?_
    rw [(plain id object isObject).2]
    exact Nat.zero_le _
  · intro scope isScope
    rw [List.mem_singleton.mp (Array.mem_toList_iff.mpr isScope)]
    nofun

/-- A realm is orderly, and no array on it is too long. -/
theorem orderly_realm (maxDepth : Nat) : (realm maxDepth).Orderly limited := by
  refine (Steps.foldl (fun part isPart machine _ orderly => ?_) (.refl _)
    (orderly_bare maxDepth)).orderly
  exact .install orderly (LibraryPart.standard_isSimple part isPart)

end Machine

/-! ## Data of the host -/

open Machine (Steps)

mutual

/-- Data becomes new objects, and its value is known. -/
theorem Data.toValue_steps :
    ∀ {data : Data} {machine after : Machine} {value : Value},
      machine.Orderly false → data.toValue machine = .ok (value, after) →
      Steps false machine after ∧ value.KnownTo after.heap
  | .null, _, _, _, orderly, made | .boolean _, _, _, _, orderly, made
  | .integer _, _, _, _, orderly, made | .number _, _, _, _, orderly, made
  | .string _, _, _, _, orderly, made => by
      rw [Data.toValue] at made
      cases made
      exact ⟨.refl orderly, trivial⟩
  | .list items, _, _, _, orderly, made => by
      rw [Data.toValue] at made
      split at made
      · cases made
      · rename_i values middle isMade
        cases made
        obtain ⟨steps, known⟩ := Data.toValues_steps orderly isMade
        have isTidy : HeapObject.Tidy middle.heap middle.heap.size
            ⟨some Heap.arrayPrototype, [], .array (Storage.exact values.toArray)⟩ := by
          refine ⟨nofun, ?_, fun _ => .nil, nofun⟩
          rintro _ ⟨⟩ value holds
          exact known value (List.mem_toArray.mp (Storage.holds_start holds))
        obtain ⟨pushed, isArray⟩ := Steps.push steps.orderly _ isTidy (fun _ => id) nofun
        exact ⟨steps.trans pushed, isArray.known⟩
  | .table entries, _, _, _, orderly, made => by
      rw [Data.toValue] at made
      split at made
      · cases made
      · rename_i properties middle isMade
        cases made
        obtain ⟨steps, known⟩ := DataEntry.toProperties_steps orderly isMade
        obtain ⟨pushed, isPlain⟩ := Steps.push steps.orderly
          ⟨some Heap.objectPrototype, properties, .plain⟩ (.of_kind nofun known) nofun nofun
        exact ⟨steps.trans pushed, isPlain.known⟩
  | .mixedTable _, _, _, _, _, made | .moment _, _, _, _, _, made => by
      rw [Data.toValue] at made
      cases made

theorem Data.toValues_steps :
    ∀ {items : List Data} {index : Nat} {machine after : Machine} {values : List Value},
      machine.Orderly false → Data.toValues machine index items = .ok (values, after) →
      Steps false machine after ∧ after.heap.Knows values
  | [], _, _, _, _, orderly, made => by
      rw [Data.toValues] at made
      cases made
      exact ⟨.refl orderly, nofun⟩
  | first :: rest, _, _, _, _, orderly, made => by
      rw [Data.toValues] at made
      split at made
      · cases made
      · rename_i value middle isFirst
        split at made
        · cases made
        · rename_i values last isRest
          cases made
          obtain ⟨steps, known⟩ := Data.toValue_steps orderly isFirst
          obtain ⟨further, restKnown⟩ := Data.toValues_steps steps.orderly isRest
          exact ⟨steps.trans further,
            List.forall_mem_cons.mpr ⟨known.mono further.grows, restKnown⟩⟩

theorem DataEntry.toProperties_steps :
    ∀ {entries : List DataEntry} {machine after : Machine} {properties : Properties},
      machine.Orderly false →
      DataEntry.toProperties machine entries = .ok (properties, after) →
      Steps false machine after ∧ ∀ slot ∈ properties, slot.value.KnownTo after.heap
  | [], _, _, _, orderly, made => by
      rw [DataEntry.toProperties] at made
      cases made
      exact ⟨.refl orderly, nofun⟩
  | .mk name data :: rest, _, _, _, orderly, made => by
      rw [DataEntry.toProperties] at made
      split at made
      · cases made
      · rename_i value middle isFirst
        split at made
        · cases made
        · rename_i properties last isRest
          cases made
          obtain ⟨steps, known⟩ := Data.toValue_steps orderly isFirst
          obtain ⟨further, restKnown⟩ := DataEntry.toProperties_steps steps.orderly isRest
          exact ⟨steps.trans further,
            List.forall_mem_cons.mpr ⟨known.mono further.grows, restKnown⟩⟩

end

theorem Settings.bindGlobals_orderly
    {entries : List DataEntry} {machine after : Machine} (orderly : machine.Orderly false)
    (bound : Settings.bindGlobals machine entries = .ok after) :
    after.Orderly false := by
  induction entries generalizing machine with
  | nil =>
      cases bound
      exact orderly
  | cons entry rest inductionHypothesis =>
      rw [Settings.bindGlobals] at bound
      split at bound
      · cases bound
      · rename_i value middle isValue
        obtain ⟨steps, known⟩ := Data.toValue_steps orderly isValue
        exact inductionHypothesis (Steps.declare steps.orderly entry.name known).orderly bound

/-- A realm with globals of the host is orderly, whatever the globals. -/
theorem Settings.orderly_of_realm
    {settings : Settings}
    {machine : Machine}
    (isRealm : settings.realm = .ok machine) :
    machine.Orderly false :=
  bindGlobals_orderly (Machine.orderly_realm _) isRealm

/-! ## Machines after runs -/

namespace Machine

/--
The machines that runs of code lead to from a first one, as long as each of them is allowed.
Between two runs the host may make scopes and take what was written to the console.
-/
inductive Leads (allowed : Code → Nat → Machine → Prop) (first : Machine) : Machine → Prop where
  | first : Leads allowed first first
  | host {machine other : Machine} :
      Leads allowed first machine →
      other.heap = machine.heap →
      other.scopes = machine.scopes →
      Leads allowed first other
  | scope {machine : Machine} (parent : Option Nat) (isFunction : Bool) :
      Leads allowed first machine →
      Leads allowed first { machine with scopes := (machine.scopes.make parent isFunction).2 }
  | run {machine : Machine} (code : Code) (scope : Nat) :
      Leads allowed first machine →
      allowed code scope machine →
      Leads allowed first (Run.after (code.runIn scope machine))

variable {allowed : Code → Nat → Machine → Prop} {first : Machine}

/-- If the runs that are allowed keep order, they lead to orderly machines only. -/
theorem Leads.orderly_of_keeps
    (keeps : ∀ code scope machine, allowed code scope machine → machine.Orderly limited →
      (Run.after (code.runIn scope machine)).Orderly limited)
    (leads : Leads allowed first machine)
    (orderly : first.Orderly limited) :
    machine.Orderly limited := by
  induction leads with
  | first => exact orderly
  | host _ sameHeap sameScopes inductionHypothesis =>
      obtain ⟨heap, scopes⟩ := inductionHypothesis
      exact ⟨sameHeap ▸ heap, sameHeap ▸ sameScopes ▸ scopes⟩
  | scope parent isFunction _ inductionHypothesis =>
      exact ⟨inductionHypothesis.heap, inductionHypothesis.scopes.make parent isFunction⟩
  | @run middle code scope _ isAllowed inductionHypothesis =>
      exact keeps code scope middle isAllowed inductionHypothesis

/-- Any runs lead to orderly machines. -/
theorem Leads.orderly (leads : Leads allowed first machine) (orderly : first.Orderly false) :
    machine.Orderly false :=
  leads.orderly_of_keeps (fun code scope middle _ orderly =>
    (code.runIn_keeps scope middle orderly).orderly) orderly

/-- Runs that pass the checks keep all arrays within the greatest length. -/
theorem Leads.orderly_of_passesChecks
    (leads : Leads Code.PassesChecks first machine)
    (orderly : first.Orderly true) :
    machine.Orderly true := by
  refine leads.orderly_of_keeps (fun code scope middle passes orderly => ?_) orderly
  rw [passes.same]
  exact (code.runChecked_keeps passes.narrow scope middle orderly).orderly

end Machine

end ScriptEngine
