import ScriptEngine.Proofs.Machine.Completion
import ScriptEngine.Proofs.Machine.Errors
import ScriptEngine.Proofs.Program.Parsing
import ScriptEngine.Proofs.Token.Places
import ScriptEngine.Session

namespace ScriptEngine

/-!
# Errors point at the source

A realm starts without functions of scripts, and each source that runs on it adds
only functions of its own.  So whatever ran before, an error of reading a source,
of lowering it and of running its code has the place of a token, and the token is
one of the source whose code raised the error.
-/

variable {machine : Machine} {error : ScriptError} {source : Source}

/-!
## Where errors come from

Functions outlive the code that made them: code of one source calls functions of
another one, also through the functions of the library.  The error of a call comes
from the innermost function of a script that raised it, and it points into the
source of that function, whichever code made the call.
-/

/-- A function of one of some sources: its places are places in that source. -/
def Routine.IsOf (known : Source → Prop) (routine : Routine) : Prop :=
  ∃ origin, known origin ∧ routine.Fits (Position.PointsInto origin) (fun _ => False)

namespace Run

variable {α β : Type}

/--
A function of a source was called during a run, and the call ended in an error that
points into the source.
-/
structure FailsInFunction
    (origin : Source)
    (run : Run α)
    (machine : Machine)
    (error : ScriptError) :
    Prop where
  placed : error.PlacedAt (Position.PointsInto origin)
  called :
    ∃ patience id this arguments routine scope middle after,
      Encloses run machine (callUpTo patience (.object .closure id) this arguments) middle ∧
      middle.heap.body id = .closure routine scope ∧
      routine.Fits (Position.PointsInto origin) (fun _ => False) ∧
      callUpTo patience (.object .closure id) this arguments middle = .error (.raised error) after

theorem FailsInFunction.within
    {origin : Source}
    {outer : Run α}
    {inner : Run β}
    {middle : Machine}
    (fails : FailsInFunction origin inner middle error)
    (encloses : Encloses outer machine inner middle) :
    FailsInFunction origin outer machine error := by
  obtain ⟨placed, patience, id, this, arguments, routine, scope, last, after, further, ran⟩ := fails
  exact ⟨placed, patience, id, this, arguments, routine, scope, last, after,
    encloses.trans further, ran⟩

/--
A call looks at the heap and then goes on with steps whose only places are those of
the called function, if it is a function of a script.
-/
theorem callWithin_enters
    (known : Source → Prop)
    (call : Caller)
    (patience : Nat)
    (callee this : Value)
    (arguments : List Value) :
    ∃ next : Heap → Run Value,
      callWithin call patience callee this arguments = heap >>= next ∧
      ∀ heap, heap.AllSound (Routine.IsOf known) →
        ∃ place, Built place (Routine.IsOf known) (· = call) true (next heap) ∧
          ∀ position, place position →
            ∃ origin id routine scope, known origin ∧ position.PointsInto origin ∧
              callee = .object .closure id ∧ heap.body id = .closure routine scope ∧
              routine.Fits (Position.PointsInto origin) (fun _ => False) := by
  have calls (place : Position → Prop) (callee this : Value) (arguments : List Value) :
      Built place (Routine.IsOf known) (· = call) true (call callee this arguments) :=
    .call callee this arguments rfl
  unfold callWithin
  split
  · refine ⟨_, rfl, fun heap allSound => ?_⟩
    split
    · rename_i id routine scope isClosure
      obtain ⟨origin, isKnown, fits⟩ := allSound _ _ _ isClosure
      rw [nested_eq_deeper]
      refine ⟨Position.PointsInto origin, .deeper ?_, ?_⟩
      · exact .invoke (fun _ fits => ⟨origin, isKnown, fits⟩) (calls _) patience _ this arguments
          fits _
      · intro position points
        exact ⟨origin, _, _, _, isKnown, points, rfl, isClosure, fits⟩
    · exact ⟨fun _ => False, .heap fun heap _ => .failType _, fun _ => False.elim⟩
  · refine ⟨_, rfl, fun heap _ => ?_⟩
    split
    · rw [nested_eq_deeper]
      exact ⟨_, .deeper ((Uniform.builtin_run_uniform this arguments _).built (calls _)),
        fun _ => False.elim⟩
    · exact ⟨fun _ => False, .heap fun heap _ => .failType _, fun _ => False.elim⟩
  · exact ⟨_, rfl, fun heap _ => ⟨fun _ => False, .failType _, fun _ => False.elim⟩⟩

/--
How calls end: their errors that have a place come from functions of the known
sources.
-/
def CallsEnd (known : Source → Prop) (patience : Nat) : Prop :=
  ∀ callee this arguments (machine : Machine), machine.heap.AllSound (Routine.IsOf known) →
    Sound Fault.Arises
      (fun error => ∃ origin, known origin ∧
        FailsInFunction origin (callUpTo patience callee this arguments) machine error)
      (Routine.IsOf known) true (callUpTo patience callee this arguments machine)

/-- A run ends in an error of its own or in one of a function it called. -/
theorem Built.ends_of_callsEnd
    {known : Source → Prop}
    {patience : Nat}
    {place : Position → Prop}
    {bare : Bool}
    {run : Run α}
    (built : Built place (Routine.IsOf known) (· = Run.callUpTo patience) bare run)
    (callsEnd : CallsEnd known patience)
    (allSound : machine.heap.AllSound (Routine.IsOf known)) :
    Sound Fault.Arises
      (fun error => error.PlacedAt place ∨
        ∃ origin, known origin ∧ FailsInFunction origin run machine error)
      (Routine.IsOf known) bare (run machine) := by
  refine (built.ends (fun _ arises => arises) ?_ allSound).mono ?_
  · rintro _ callee this arguments machine rfl allSound
    exact (callsEnd callee this arguments machine allSound).mono fun _ _ _ _ => trivial
  · intro error _ _
    refine .imp_right fun fails => ?_
    obtain ⟨_, callee, this, arguments, middle, after, rfl, soundThen, encloses, failed, located⟩ :=
      fails
    have ended := callsEnd callee this arguments middle soundThen
    rw [failed] at ended
    obtain ⟨⟨-, ⟨origin, isKnown, failsInside⟩ | ⟨-, isBare⟩⟩, -⟩ := ended
    · exact ⟨origin, isKnown, failsInside.within encloses⟩
    · rw [isBare] at located
      cases located

/-- The error of a call that has a place comes from a function of one of the known sources. -/
theorem callsEnd (known : Source → Prop) (patience : Nat) : CallsEnd known patience := by
  -- A function calls others with less patience, so its own calls end as they should.
  induction patience with
  | zero => exact fun _ _ _ _ allSound => ⟨trivial, allSound⟩
  | succ patience inductionHypothesis =>
      intro callee this arguments machine allSound
      obtain ⟨next, isNext, enters⟩ :=
        callWithin_enters known (callUpTo patience) patience callee this arguments
      obtain ⟨place, built, places⟩ := enters machine.heap allSound
      change callUpTo (patience + 1) callee this arguments = heap >>= next at isNext
      have encloses :
          Encloses (callUpTo (patience + 1) callee this arguments) machine
            (next machine.heap) machine := by
        rw [isNext]
        exact .next rfl (.itself _ _)
      have ran :
          callUpTo (patience + 1) callee this arguments machine = next machine.heap machine := by
        rw [isNext]
        rfl
      rw [ran]
      refine (built.ends_of_callsEnd inductionHypothesis allSound).mono ?_
      rintro error after failed (⟨position, isPosition, isPlace⟩ | ⟨origin, isKnown, fails⟩)
      · obtain ⟨origin, id, routine, scope, isKnown, points, rfl, isClosure, fits⟩ :=
          places position isPlace
        refine ⟨origin, isKnown, ⟨position, isPosition, points⟩, ?_⟩
        exact ⟨_, id, this, arguments, routine, scope, machine, after, .itself _ _, isClosure, fits,
          ran.trans failed⟩
      · exact ⟨origin, isKnown, fails.within encloses⟩

end Run

namespace Code

/--
Running code of a source ends in an error that points into the source, or that comes
from a function of one of the known sources.
-/
theorem runIn_ends
    {known : Source → Prop}
    {code : Code}
    (isKnown : known source)
    (fits : code.Fits (Position.PointsInto source) (fun _ => False))
    (scope : Nat)
    (allSound : machine.heap.AllSound (Routine.IsOf known)) :
    Run.Sound Fault.Arises
      (fun error => error.PlacedAt (Position.PointsInto source) ∨
        ∃ origin, known origin ∧ Run.FailsInFunction origin (code.runIn scope) machine error)
      (Routine.IsOf known) false (code.runIn scope machine) := by
  have calls callee this arguments :
      Run.Built (Position.PointsInto source) (Routine.IsOf known)
        (· = Run.callUpTo Run.unlimited) true
        (Run.callUpTo Run.unlimited callee this arguments) :=
    .call callee this arguments rfl
  have sounds routine (fits : routine.Fits (Position.PointsInto source) (fun _ => False)) :
      Routine.IsOf known routine :=
    ⟨source, isKnown, fits⟩
  have built :
      Run.Built (Position.PointsInto source) (Routine.IsOf known)
        (· = Run.callUpTo Run.unlimited) false (code.runIn scope) :=
    runMain_built sounds calls scope _ fits.main
  exact built.ends_of_callsEnd (Run.callsEnd known Run.unlimited) allSound

/--
Statements of a source that fail do so at a place in the source, unless a call from
them had ended in the very same error.
-/
theorem Fits.body_error
    {code : Code}
    (fits : code.Fits (Position.PointsInto source) (fun _ => False))
    {body : List Action}
    (member : body ∈ code.bodies)
    {frame : Frame}
    {scope : Nat}
    {after : Machine}
    (failed : Action.runAll frame scope body machine = .error (.raised error) after) :
    error.PlacedAt (Position.PointsInto source) ∨
      Run.FailsInCall (fun _ => True) (· = frame.call) (Action.runAll frame scope body) machine
        error := by
  have calls callee this arguments :
      Run.Built (Position.PointsInto source) (fun _ => True) (· = frame.call) true
        (frame.call callee this arguments) :=
    .call callee this arguments rfl
  have built := Action.runAll_built (fun _ _ => trivial) calls scope (fits.bodies member)
  have allSound (heap : Heap) : heap.AllSound (fun _ => True) := fun _ _ _ _ => trivial
  have callsEnd call callee this arguments (machine : Machine) :
      call = frame.call → machine.heap.AllSound (fun _ => True) →
      Run.Sound (fun _ => True) (fun _ => True) (fun _ => True) true
        (call callee this arguments machine) := by
    intro _ _
    rcases call callee this arguments machine with ⟨value, final⟩ | ⟨error | fault, final⟩
    · exact allSound final.heap
    · exact ⟨⟨trivial, .inl trivial⟩, allSound final.heap⟩
    · exact ⟨trivial, allSound final.heap⟩
  have ended := built.ends (fun _ _ => trivial) callsEnd (allSound machine.heap)
  exact ended.placed_of_error failed

end Code

/-!
## Realms hold no functions of scripts
-/

namespace Machine

variable {sound : Routine → Prop}

theorem allSound_bare (maxDepth : Nat) : (bare maxDepth).heap.AllSound sound := by
  intro id routine scope isClosure
  have plain : ∀ object ∈ (bare maxDepth).heap, object.body = .plain := by
    intro object member
    rcases Array.mem_append.mp member with isFirst | isLater
    · rw [Array.mem_singleton.mp isFirst]
    · rw [Array.eq_of_mem_replicate isLater]
  unfold Heap.body at isClosure
  split at isClosure
  · rename_i object isObject
    rw [plain object (Array.mem_of_getElem? isObject)] at isClosure
    cases isClosure
  · cases isClosure

theorem allSound_hide
    (allSound : machine.heap.AllSound sound)
    (id : Nat)
    (name : String)
    (value : Value) :
    (machine.hide id name value).heap.AllSound sound :=
  allSound.change (Heap.keepsClosures_setHidden id name value)

theorem allSound_makeBuiltin (allSound : machine.heap.AllSound sound) (builtin : Builtin) :
    (machine.makeBuiltin builtin).2.heap.AllSound sound :=
  allSound.push (by rintro _ _ ⟨⟩)

theorem allSound_makeMember (allSound : machine.heap.AllSound sound) (member : Member) :
    (machine.makeMember member).2.heap.AllSound sound := by
  cases member with
  | constant name value => exact allSound
  | function builtin => exact allSound_makeBuiltin allSound builtin

/-- What every step of a fold keeps, the fold keeps. -/
theorem allSound_foldl
    {step : Machine → α → Machine}
    (keeps : ∀ machine item, machine.heap.AllSound sound → (step machine item).heap.AllSound sound)
    (items : List α)
    (allSound : machine.heap.AllSound sound) :
    (items.foldl step machine).heap.AllSound sound := by
  induction items generalizing machine with
  | nil => exact allSound
  | cons item rest inductionHypothesis => exact inductionHypothesis (keeps machine item allSound)

theorem allSound_addMember
    (id : Nat)
    (machine : Machine)
    (member : Member)
    (allSound : machine.heap.AllSound sound) :
    (machine.addMember id member).heap.AllSound sound :=
  allSound_hide (allSound_makeMember allSound member) id _ _

theorem allSound_addGlobal
    (machine : Machine)
    (member : Member)
    (allSound : machine.heap.AllSound sound) :
    (machine.addGlobal member).heap.AllSound sound :=
  allSound_makeMember allSound member

/-- Installing a part of the library puts no function of a script on the heap. -/
theorem allSound_install
    (machine : Machine)
    (part : LibraryPart)
    (allSound : machine.heap.AllSound sound) :
    (machine.install part).heap.AllSound sound := by
  unfold install
  split
  · exact allSound_foldl allSound_addGlobal _ allSound
  · rename_i members _
    have made : Heap.AllSound sound (machine.heap.push ⟨some Heap.objectPrototype, [], .plain⟩) :=
      allSound.push (by rintro _ _ ⟨⟩)
    exact allSound_foldl (allSound_addMember _) members made
  · rename_i prototype constructor methods members _
    have withMethods :=
      allSound_foldl (allSound_addMember prototype) (methods.map Member.function) allSound
    have withConstructor := allSound_makeBuiltin withMethods constructor
    refine allSound_foldl (allSound_addMember _) members ?_
    exact allSound_hide (allSound_hide withConstructor _ _ _) prototype "constructor" _

theorem allSound_realm (maxDepth : Nat) : (realm maxDepth).heap.AllSound sound := by
  unfold realm
  exact allSound_foldl allSound_install LibraryPart.standard (allSound_bare maxDepth)

end Machine

/-- What holds of a machine also holds after a new object on it that is no function of a script. -/
def Machine.KeptByObjects (holds : Machine → Prop) : Prop :=
  ∀ (machine : Machine) (object : HeapObject),
    (∀ routine scope, object.body ≠ .closure routine scope) → holds machine →
      holds { machine with heap := machine.heap.push object }

section

variable {holds : Machine → Prop}

mutual

/-- Data of the host becomes values, and all that is new on the machine are objects. -/
theorem Data.toValue_keeps (push : Machine.KeptByObjects holds) :
    ∀ {data : Data} {machine after : Machine} {value : Value},
      holds machine → data.toValue machine = .ok (value, after) → holds after
  | .null, _, _, _, kept, made | .boolean _, _, _, _, kept, made
  | .integer _, _, _, _, kept, made | .number _, _, _, _, kept, made
  | .string _, _, _, _, kept, made => by
      rw [Data.toValue] at made
      cases made
      exact kept
  | .list items, _, _, _, kept, made => by
      rw [Data.toValue] at made
      split at made
      · cases made
      · rename_i values middle isMade
        cases made
        exact push middle _ (fun _ _ => nofun) (Data.toValues_keep push kept isMade)
  | .table entries, _, _, _, kept, made => by
      rw [Data.toValue] at made
      split at made
      · cases made
      · rename_i properties middle isMade
        cases made
        exact push middle _ (fun _ _ => nofun) (DataEntry.toProperties_keep push kept isMade)
  | .mixedTable _, _, _, _, _, made | .moment _, _, _, _, _, made => by
      rw [Data.toValue] at made
      cases made

theorem Data.toValues_keep (push : Machine.KeptByObjects holds) :
    ∀ {items : List Data} {index : Nat} {machine after : Machine} {values : List Value},
      holds machine → Data.toValues machine index items = .ok (values, after) → holds after
  | [], _, _, _, _, kept, made => by
      rw [Data.toValues] at made
      cases made
      exact kept
  | first :: rest, _, _, _, _, kept, made => by
      rw [Data.toValues] at made
      split at made
      · cases made
      · rename_i value middle isFirst
        split at made
        · cases made
        · rename_i values last isRest
          cases made
          exact Data.toValues_keep push (Data.toValue_keeps push kept isFirst) isRest

theorem DataEntry.toProperties_keep (push : Machine.KeptByObjects holds) :
    ∀ {entries : List DataEntry} {machine after : Machine} {properties : Properties},
      holds machine → DataEntry.toProperties machine entries = .ok (properties, after) →
      holds after
  | [], _, _, _, kept, made => by
      rw [DataEntry.toProperties] at made
      cases made
      exact kept
  | .mk name data :: rest, _, _, _, kept, made => by
      rw [DataEntry.toProperties] at made
      split at made
      · cases made
      · rename_i value middle isFirst
        split at made
        · cases made
        · rename_i properties last isRest
          cases made
          exact DataEntry.toProperties_keep push (Data.toValue_keeps push kept isFirst) isRest

end

end

theorem Settings.bindGlobals_allSound
    {sound : Routine → Prop}
    {entries : List DataEntry}
    {after : Machine}
    (allSound : machine.heap.AllSound sound)
    (bound : Settings.bindGlobals machine entries = .ok after) :
    after.heap.AllSound sound := by
  induction entries generalizing machine with
  | nil =>
      cases bound
      exact allSound
  | cons entry rest inductionHypothesis =>
      rw [Settings.bindGlobals] at bound
      split at bound
      · cases bound
      · rename_i value middle isValue
        have made := @Data.toValue_keeps (·.heap.AllSound sound) (fun _ _ noClosure allSound =>
          allSound.push fun _ _ isClosure => absurd isClosure (noClosure _ _))
          _ _ _ _ allSound isValue
        have declared : (middle.declare entry.name value).heap.AllSound sound := made
        exact inductionHypothesis declared bound

/-!
## Reading and lowering
-/

namespace Program

/-- A program is made of tokens of its source, and so is the failure to read more of it. -/
theorem parse_pointsInto (source : Source) :
    Token.Known (Token.StandsAt (Position.PointsInto source) source)
        (Statement.tokensAll (parse source).program.statements) ∧
      ∀ failure ∈ (parse source).failures, (failure.token.position source).PointsInto source :=
  known_ofTokens source (Token.scan_ne_nil source.content) fun _ member =>
    Position.pointsInto_of_token member

/-- The error of a text that is no program points at one of its tokens. -/
theorem parse_errors_placed
    (member : error ∈ (parse source).errors) :
    error.PlacedAt (Position.PointsInto source) := by
  have known := (parse_pointsInto source).2
  obtain ⟨failure, isFailure, rfl⟩ := List.mem_map.mp member
  exact ⟨_, rfl, known failure isFailure⟩

end Program

namespace Code

/-- Code of a source shows only places in the source, and so does the error of lowering it. -/
theorem ofProgram_pointsInto (assertions : Bool) (source : Source) :
    LowersTo (Position.PointsInto source) (fun _ => False)
      (ofProgram assertions (Program.parse source).program) :=
  ofProgram_lowersTo assertions (Program.parse_pointsInto source).1

end Code

/-!
## Running
-/

/-- A function of one of some sources stays one when another source is added. -/
theorem Heap.AllSound.isOf_cons
    {sources : List Source}
    {heap : Heap}
    (allSound : heap.AllSound (Routine.IsOf (· ∈ sources)))
    (source : Source) :
    heap.AllSound (Routine.IsOf (· ∈ source :: sources)) := by
  intro id routine scope isClosure
  obtain ⟨origin, ran, fits⟩ := allSound id routine scope isClosure
  exact ⟨origin, .tail source ran, fits⟩

namespace Machine

/--
The machines on which code of some sources has run, the latest source first.  What
the host does between two runs leaves the heap alone.
-/
inductive Reached : List Source → Machine → Prop where
  | start {settings : Settings} {machine : Machine} :
      settings.realm = .ok machine →
      Reached [] machine
  | host {sources : List Source} {machine other : Machine} :
      Reached sources machine →
      other.heap = machine.heap →
      Reached sources other
  | run {sources : List Source} {machine : Machine} {source : Source} {assertions : Bool}
      {code : Code} (scope : Nat) :
      Reached sources machine →
      Code.ofProgram assertions (Program.parse source).program = .ok code →
      Reached (source :: sources) (Run.after (code.runIn scope machine))

/-- All functions of scripts on a heap are functions of the sources that ran. -/
theorem Reached.allSound
    {sources : List Source}
    (reached : Reached sources machine) :
    machine.heap.AllSound (Routine.IsOf (· ∈ sources)) := by
  induction reached with
  | start isRealm => exact Settings.bindGlobals_allSound (allSound_realm _) isRealm
  | host _ sameHeap inductionHypothesis =>
      rw [sameHeap]
      exact inductionHypothesis
  | @run sources _ source assertions _ scope _ lowered inductionHypothesis =>
      have lowersTo := Code.ofProgram_pointsInto assertions source
      rw [lowered] at lowersTo
      cases lowersTo with
      | code fits =>
          have allSound := inductionHypothesis.isOf_cons source
          exact (Code.runIn_ends (.head sources) fits scope allSound).allSound

end Machine

namespace Code

/--
The errors of code of a source, run on a machine where code of earlier sources ran.
An error of the run points into the source or into the earlier one whose function
raised it.  Statements of the code that fail, whoever runs them, fail at a place in
the source unless a call of theirs had ended in that error.  And if anything during
the run ends in an error with a place, the run ends in the same error.
-/
structure LocatesErrors
    (source : Source)
    (earlier : List Source)
    (machine : Machine)
    (code : Code) :
    Prop where
  run :
    ∀ scope error after, code.runIn scope machine = .error (.raised error) after →
      ∃ origin ∈ source :: earlier, error.PlacedAt (Position.PointsInto origin) ∧
        (origin = source ∨ Run.FailsInFunction origin (code.runIn scope) machine error)
  bodies :
    ∀ body ∈ code.bodies, ∀ frame scope machine error after,
      Action.runAll frame scope body machine = .error (.raised error) after →
      error.PlacedAt (Position.PointsInto source) ∨
        Run.FailsInCall (fun _ => True) (· = frame.call) (Action.runAll frame scope body) machine
          error
  kept :
    ∀ scope (β : Type) (inner : Run β) middle error after,
      Run.Encloses (code.runIn scope) machine inner middle →
      inner middle = .error (.raised error) after →
      error.position.isSome →
      ∃ final, code.runIn scope machine = .error (.raised error) final

end Code

/--
Whatever ran before, every error of reading a source, of lowering it, and of running
its code points at a token of the source whose code raised it, and keeps its place.
-/
theorem Machine.Reached.errors_point_at_tokens
    {earlier : List Source}
    {machine : Machine}
    (reached : machine.Reached earlier)
    (source : Source)
    (assertions : Bool) :
    (∀ error ∈ (Program.parse source).errors, error.PlacedAt (Position.PointsInto source)) ∧
      (∀ error, Code.ofProgram assertions (Program.parse source).program = .error error →
        error.PlacedAt (Position.PointsInto source)) ∧
      ∀ code, Code.ofProgram assertions (Program.parse source).program = .ok code →
        code.LocatesErrors source earlier machine := by
  have lowersTo := Code.ofProgram_pointsInto assertions source
  refine ⟨fun error member => Program.parse_errors_placed member, ?_, ?_⟩
  · intro error refused
    rw [refused] at lowersTo
    cases lowersTo with
    | error placed => exact placed
  · intro code lowered
    rw [lowered] at lowersTo
    cases lowersTo with
    | code fits =>
        refine ⟨?_, ?_, ?_⟩
        · intro scope error after failed
          have allSound := reached.allSound.isOf_cons source
          have ended := Code.runIn_ends (.head earlier) fits scope allSound
          rcases ended.placed_of_error failed with placed | ⟨origin, ran, fails⟩
          · exact ⟨source, .head earlier, placed, .inl rfl⟩
          · exact ⟨origin, ran, fails.placed, .inr fails⟩
        · intro body member frame scope machine error after failed
          exact fits.body_error member failed
        · intro scope β inner middle error after encloses failed located
          exact encloses.error_of_located failed located

/-- Two sources run one after the other, and the later one ends with an error at a place. -/
def Source.failsAfter (earlier later : Source) (place : Position) : Bool :=
  match Code.ofProgram true (Program.parse earlier).program,
      Code.ofProgram true (Program.parse later).program with
  | .ok first, .ok second =>
      match second.runIn 0 (Run.after (first.runIn 0 (Machine.realm 10000))) with
      | .error (.raised error) _ => error.position == some place
      | _ => false
  | _, _ => false

theorem Source.exists_of_failsAfter
    {earlier later : Source}
    {place : Position}
    (fails : earlier.failsAfter later place = true) :
    ∃ first second error after,
      Code.ofProgram true (Program.parse earlier).program = .ok first ∧
        Code.ofProgram true (Program.parse later).program = .ok second ∧
        second.runIn 0 (Run.after (first.runIn 0 (Machine.realm 10000))) =
          .error (.raised error) after ∧
        error.position = some place := by
  unfold failsAfter at fails
  split at fails
  · rename_i first second isFirst isSecond
    split at fails
    · rename_i error after failed
      exact ⟨first, second, error, after, isFirst, isSecond, failed, eq_of_beq fails⟩
    · cases fails
  · cases fails

/-- The error of a function that an earlier source made, called by a later one. -/
theorem Machine.errors_point_at_tokens_of_earlier_function :
    let earlier := Source.ofEval "function f() \x7b return g \x7d"
    let later := Source.ofEval "f()"
    ∃ (machine : Machine) (code : Code) (error : ScriptError) (after : Machine),
      machine.Reached [earlier] ∧
      code.LocatesErrors later [earlier] machine ∧
      code.runIn 0 machine = .error (.raised error) after ∧
      error.position = some ⟨1, 23, 22, 23, earlier⟩ ∧
      error.PlacedAt (Position.PointsInto earlier) := by
  intro earlier later
  have fails : earlier.failsAfter later ⟨1, 23, 22, 23, earlier⟩ = true := by decide +kernel
  clear_value earlier later
  obtain ⟨first, second, error, after, isFirst, isSecond, failed, place⟩ :=
    Source.exists_of_failsAfter fails
  have isRealm : Settings.realm {} = .ok (Machine.realm 10000) := rfl
  have reached : Machine.Reached [earlier] _ := .run 0 (.start isRealm) isFirst
  have locates := (reached.errors_point_at_tokens later true).2.2 second isSecond
  refine ⟨_, second, error, after, reached, locates, failed, place, ?_⟩
  obtain ⟨origin, -, ⟨position, isPosition, points⟩, -⟩ := locates.run 0 error after failed
  obtain ⟨token, -, isToken⟩ := points.isToken
  have samePlace := Option.some.inj (place.symm.trans isPosition)
  have isEarlier : earlier = origin := congrArg Position.source (samePlace.trans isToken)
  rw [isEarlier]
  exact ⟨position, isPosition, points⟩

end ScriptEngine
