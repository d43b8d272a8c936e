import ScriptEngine.Proofs.Code.Compilation
import ScriptEngine.Proofs.Machine.Evaluation

namespace ScriptEngine

/-!
# Errors of runs

What is known of the steps is known of the errors they end in.  An error of code
has a place that the code shows, unless a call from the code had ended in it and
it had a place by then: nothing around a run takes away the place of its error.
So each error can be followed, call by call, to the function that raised it, and
it points into the source that this function is from.
-/

variable {machine middle : Machine} {outer : Run α} {error : ScriptError}
  {outcome : EStateM.Result Abort Machine α} {place : Position → Prop} {caller : Caller → Prop}

namespace Run

variable {α β : Type}

/-!
## Runs inside runs
-/

/-- While one run went on from a machine, another one was started from some machine. -/
inductive Encloses : {α β : Type} → Run α → Machine → Run β → Machine → Prop where
  | itself {α : Type} (run : Run α) (machine : Machine) : Encloses run machine run machine
  | first {α β γ : Type} {first : Run α} {next : α → Run β} {inner : Run γ}
      {machine middle : Machine} :
      Encloses first machine inner middle →
      Encloses (first >>= next) machine inner middle
  | next {α β γ : Type} {first : Run α} {next : α → Run β} {inner : Run γ}
      {machine after middle : Machine} {value : α} :
      first machine = .ok value after →
      Encloses (next value) after inner middle →
      Encloses (first >>= next) machine inner middle
  | locate {α γ : Type} {run : Run α} {inner : Run γ} {machine middle : Machine}
      (position : Position) :
      Encloses run machine inner middle →
      Encloses (Run.locate position run) machine inner middle
  | deeper {α γ : Type} {run : Run α} {inner : Run γ} {machine middle : Machine} :
      ¬(machine.maxDepth ≠ 0 ∧ machine.maxDepth < machine.depth + 1) →
      Encloses run { machine with depth := machine.depth + 1 } inner middle →
      Encloses (Run.deeper run) machine inner middle

theorem Encloses.trans
    {γ : Type}
    {between : Run β}
    {inner : Run γ}
    {last : Machine}
    (encloses : Encloses outer machine between middle)
    (further : Encloses between middle inner last) :
    Encloses outer machine inner last := by
  induction encloses with
  | itself => exact further
  | first _ inductionHypothesis => exact .first (inductionHypothesis further)
  | next ran _ inductionHypothesis => exact .next ran (inductionHypothesis further)
  | locate position _ inductionHypothesis => exact .locate position (inductionHypothesis further)
  | deeper room _ inductionHypothesis => exact .deeper room (inductionHypothesis further)

/-- A run ends in the error, with its place, that a run inside it ended in. -/
theorem Encloses.error_of_located
    {inner : Run β}
    {after : Machine}
    (encloses : Encloses outer machine inner middle)
    (failed : inner middle = .error (.raised error) after)
    (located : error.position.isSome) :
    ∃ final, outer machine = .error (.raised error) final := by
  induction encloses with
  | itself => exact ⟨after, failed⟩
  | first _ inductionHypothesis =>
      obtain ⟨final, ran⟩ := inductionHypothesis failed
      exact ⟨final, bind_of_error ran⟩
  | next ran _ inductionHypothesis =>
      obtain ⟨final, nextRan⟩ := inductionHypothesis failed
      exact ⟨final, by rw [bind_of_ok ran, nextRan]⟩
  | locate position _ inductionHypothesis =>
      -- The only step that touches errors on their way out leaves those with a place alone.
      obtain ⟨final, ran⟩ := inductionHypothesis failed
      obtain ⟨place, isPlace⟩ := Option.isSome_iff_exists.mp located
      refine ⟨final, ?_⟩
      unfold Run.locate
      rw [ran]
      change EStateM.Result.error (Abort.raised (error.locate position)) final = _
      rw [error.locate_of_located place position isPlace]
  | @deeper _ _ run _ start _ room _ inductionHypothesis =>
      obtain ⟨final, ran⟩ := inductionHypothesis failed
      refine ⟨{ final with depth := final.depth - 1 }, ?_⟩
      rw [deeper_of_room run start room, ran]
      rfl

/-- A call during a run ended in an error, and the error had a place. -/
def FailsInCall
    (sound : Routine → Prop)
    (caller : Caller → Prop)
    (run : Run α)
    (machine : Machine)
    (error : ScriptError) :
    Prop :=
  ∃ call callee this arguments middle after,
    caller call ∧ middle.heap.AllSound sound ∧
    Encloses run machine (call callee this arguments) middle ∧
    call callee this arguments middle = .error (.raised error) after ∧
    error.position.isSome

theorem FailsInCall.within
    {sound : Routine → Prop}
    {inner : Run β}
    (fails : FailsInCall sound caller inner middle error)
    (encloses : Encloses outer machine inner middle) :
    FailsInCall sound caller outer machine error := by
  obtain ⟨call, callee, this, arguments, last, after, isCaller, allSound, further, failed⟩ := fails
  exact ⟨call, callee, this, arguments, last, after, isCaller, allSound,
    encloses.trans further, failed⟩

end Run

/-!
## How runs end
-/

/--
An error that may end a run: its cause is one of some causes, and it is placed in
some way or, if it may be bare, has no place.
-/
def Abort.Sound
    (cause : Fault → Prop)
    (placed : ScriptError → Prop)
    (bare : Bool) :
    Abort → Prop
  | .raised error => cause error.fault ∧ (placed error ∨ bare = true ∧ error.position = none)
  | .broken _ => True

/-- A bare error gets the place, and any other one keeps its own. -/
theorem Abort.Sound.locate
    {cause : Fault → Prop}
    {placed : ScriptError → Prop}
    {abort : Abort}
    (sound : abort.Sound cause placed true)
    (located : ∀ error, placed error → error.position.isSome)
    {position : Position}
    (places : ∀ fault, placed ⟨fault, some position⟩)
    (bare : Bool) :
    (abort.locate position).Sound cause placed bare := by
  cases abort with
  | broken fault => trivial
  | raised error =>
      obtain ⟨isCause, isPlaced | ⟨-, isBare⟩⟩ := sound
      · obtain ⟨inner, isInner⟩ := Option.isSome_iff_exists.mp (located error isPlaced)
        refine ⟨isCause, .inl ?_⟩
        rw [error.locate_of_located inner position isInner]
        exact isPlaced
      · refine ⟨isCause, .inl ?_⟩
        have placedAt : error.locate position = ⟨error.fault, some position⟩ := by
          simp [ScriptError.locate, isBare]
        rw [placedAt]
        exact places error.fault

namespace Run

/-- A run ended soundly: with a sound error if with one, and with sound functions on the heap. -/
def Sound
    (cause : Fault → Prop)
    (placed : ScriptError → Prop)
    (sound : Routine → Prop)
    (bare : Bool) :
    EStateM.Result Abort Machine α → Prop
  | .ok _ machine => machine.heap.AllSound sound
  | .error abort machine => abort.Sound cause placed bare ∧ machine.heap.AllSound sound

variable {α : Type} {cause : Fault → Prop} {placed : ScriptError → Prop}
  {sound : Routine → Prop} {bare : Bool}

/-- Placing the error of a run in a wider way. -/
theorem Sound.mono
    {wider : ScriptError → Prop}
    (ended : Sound cause placed sound bare outcome)
    (widens : ∀ error machine,
      outcome = .error (.raised error) machine → placed error → wider error) :
    Sound cause wider sound bare outcome := by
  rcases outcome with ⟨value, machine⟩ | ⟨error | fault, machine⟩
  · exact ended
  · obtain ⟨⟨isCause, isPlaced | isBare⟩, allSound⟩ := ended
    · exact ⟨⟨isCause, .inl (widens error machine rfl isPlaced)⟩, allSound⟩
    · exact ⟨⟨isCause, .inr isBare⟩, allSound⟩
  · exact ended

/-- An error that a call during a run ended in is one of the runs around it, too. -/
theorem Sound.within
    {β : Type}
    {inner : Run β}
    {outcome : EStateM.Result Abort Machine γ}
    (ended :
      Sound cause (fun error => error.PlacedAt place ∨ FailsInCall sound caller inner middle error)
        sound bare outcome)
    (encloses : Encloses outer machine inner middle) :
    Sound cause (fun error => error.PlacedAt place ∨ FailsInCall sound caller outer machine error)
      sound bare outcome :=
  ended.mono fun _ _ _ => .imp_right fun fails => fails.within encloses

/-- The machine after a sound run has sound functions on its heap. -/
theorem Sound.allSound
    (ended : Sound cause placed sound bare outcome) :
    (after outcome).heap.AllSound sound := by
  cases outcome with
  | ok value machine => exact ended
  | error abort machine => exact ended.2

/-- An error of a run that ended soundly and leaves no error bare is placed. -/
theorem Sound.placed_of_error
    (ended : Sound cause placed sound false outcome)
    (failed : outcome = .error (.raised error) machine) :
    placed error := by
  rw [failed] at ended
  obtain ⟨⟨-, isPlaced | ⟨⟨⟩, -⟩⟩, -⟩ := ended
  exact isPlaced

/--
Every run built from steps ends soundly if the functions on the heap are sound and
the calls of its callers end soundly: its error has a place of the run's own, or a
call had ended in it.
-/
theorem Built.ends
    {run : Run α}
    (causes : ∀ fault, fault.Arises → cause fault)
    (callsEnd : ∀ call callee this arguments (machine : Machine), caller call →
      machine.heap.AllSound sound →
      Sound cause (fun _ => True) sound true (call callee this arguments machine))
    (built : Built place sound caller bare run)
    (allSound : machine.heap.AllSound sound) :
    Sound cause (fun error => error.PlacedAt place ∨ FailsInCall sound caller run machine error)
      sound bare (run machine) := by
  induction built generalizing machine with
  | pure | changeScopes | makeScope | printLine => exact allSound
  | random =>
      obtain ⟨value, seed, ran⟩ := random_result machine
      rw [ran]
      exact allSound
  | @bind bare _ _ first next _ _ firstEnds nextEnds =>
      have firstEnded := firstEnds allSound
      cases ran : first machine with
      | ok value middle =>
          rw [ran] at firstEnded
          rw [bind_of_ok ran]
          exact (nextEnds value firstEnded).within (.next ran (.itself _ _))
      | error abort middle =>
          have encloses : Encloses (first >>= next) machine first machine := .first (.itself _ _)
          have ended := firstEnded.within encloses
          rw [ran] at ended
          rw [bind_of_error ran]
          exact ended
  | heap _ nextEnds =>
      exact (nextEnds machine.heap allSound allSound).within (.next rfl (.itself _ _))
  | scopes _ _ nextEnds => exact (nextEnds machine allSound).within (.next rfl (.itself _ _))
  | fail arises => exact ⟨⟨causes _ arises, .inr ⟨rfl, rfl⟩⟩, allSound⟩
  | raise arises isPlace => exact ⟨⟨causes _ arises, .inl (.inl ⟨_, rfl, isPlace⟩)⟩, allSound⟩
  | broken fault => exact ⟨trivial, allSound⟩
  | @locate bare _ position run isPlace _ innerEnds =>
      have ended := (innerEnds allSound).within (.locate position (.itself _ _))
      rw [Run.locate]
      cases ran : run machine with
      | ok value middle =>
          rw [ran] at ended
          exact ended
      | error abort middle =>
          rw [ran] at ended
          refine ⟨ended.1.locate ?_ (fun fault => .inl ⟨position, rfl, isPlace⟩) bare, ended.2⟩
          rintro error (⟨inner, isInner, -⟩ | ⟨_, _, _, _, _, _, _, _, _, _, located⟩)
          · exact Option.isSome_iff_exists.mpr ⟨inner, isInner⟩
          · exact located
  | @deeper _ run _ innerEnds =>
      by_cases full : machine.maxDepth ≠ 0 ∧ machine.maxDepth < machine.depth + 1
      · unfold Run.deeper
        rw [if_pos full]
        exact ⟨⟨causes _ (.range _), .inr ⟨rfl, rfl⟩⟩, allSound⟩
      · have entered :
            Heap.AllSound sound { machine with depth := machine.depth + 1 }.heap := allSound
        have ended := (innerEnds entered).within (.deeper full (.itself _ _))
        rw [deeper_of_room run machine full]
        cases ran : run { machine with depth := machine.depth + 1 } with
        | ok value middle =>
            rw [ran] at ended
            exact ended
        | error abort middle =>
            rw [ran] at ended
            exact ended
  | changeHeap isStep => exact allSound.change isStep.closures
  | makeObject objectSound => exact allSound.push objectSound
  | @call call callee this arguments isCaller =>
      have ended := callsEnd call callee this arguments machine isCaller allSound
      cases ran : call callee this arguments machine with
      | ok value after =>
          rw [ran] at ended
          exact ended
      | error abort after =>
          rw [ran] at ended
          refine ⟨?_, ended.2⟩
          cases abort with
          | broken fault => trivial
          | raised error =>
              refine ⟨ended.1.1, ?_⟩
              by_cases located : error.position.isSome
              · exact .inl (.inr ⟨call, callee, this, arguments, machine, after, isCaller, allSound,
                  .itself _ _, ran, located⟩)
              · exact .inr ⟨rfl, by simpa using located⟩

/-- Every run built from steps ends soundly if the functions on the heap are sound. -/
theorem Built.endsSoundly
    {run : Run α}
    (built : Built place sound (fun _ => False) bare run)
    (allSound : machine.heap.AllSound sound) :
    Sound Fault.Arises (·.PlacedAt place) sound bare (run machine) := by
  refine (built.ends (fun _ arises => arises) ?_ allSound).mono ?_
  · intro _ _ _ _ _ isCaller
    exact isCaller.elim
  · rintro error - - (placedAt | ⟨_, _, _, _, _, _, isCaller, _⟩)
    · exact placedAt
    · exact isCaller.elim

end Run

end ScriptEngine
