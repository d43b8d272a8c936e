import ScriptEngine.CommandLine.Prompt
import ScriptEngine.Proofs.Session.ErrorPlaces

namespace ScriptEngine

/-!
# Lines shown with errors at the prompt

An error with a place is shown with a line and a caret.  The prompt takes the line out of the
entry that ended in the error, by the number that the place has in its own source.  The two
texts are the same unless the error comes from a function that an earlier entry made.  Then
what is shown is what the entry has under that number, which may be another line or none.
-/

variable {errors : List ScriptError} {source : Source}

/-! ## The lines of a text -/

namespace Text

theorem splitAt_ne_nil (separator : Char) (text : List Char) : splitAt separator text ≠ [] := by
  fun_cases splitAt separator text <;> simp_all

/-- A text has a piece in front of each separator, and one behind the last of them. -/
theorem length_splitAt (separator : Char) (text : List Char) :
    (splitAt separator text).length = text.count separator + 1 := by
  induction text with
  | nil => rfl
  | cons first rest inductionHypothesis =>
      rw [splitAt]
      by_cases isSeparator : first = separator
      · simp [isSeparator, inductionHypothesis]
      · obtain ⟨piece, pieces, isSplit⟩ :=
          List.exists_cons_of_ne_nil (splitAt_ne_nil separator rest)
        rw [isSplit] at inductionHypothesis
        simpa [isSeparator, isSplit] using inductionHypothesis

/-- The line feeds of a text are those of its bytes. -/
theorem count_lineFeed_bytesOf (text : List Char) :
    (Token.bytesOf text).count Token.lineFeed = text.count '\n' := by
  induction text with
  | nil => rfl
  | cons first rest inductionHypothesis =>
      rw [show first :: rest = [first] ++ rest from rfl, Token.bytesOf_append, List.count_append,
        List.count_append, inductionHypothesis]
      congr 1
      by_cases isFeed : first = '\n'
      · rw [isFeed]
        rfl
      · have noFeed := Token.lineFeed_not_mem_encoding isFeed
        simp [Token.bytesOf, List.count_eq_zero_of_not_mem noFeed, isFeed]

/-- A text has one line more than it has bytes of line feeds. -/
theorem length_lines (text : String) :
    (lines text).length = text.toByteArray.data.toList.count Token.lineFeed + 1 := by
  rw [lines, List.length_map, length_splitAt, ← Token.bytesOf_toList, count_lineFeed_bytesOf]

end Text

/-- The line of a place in a source is one of the lines of its text. -/
theorem Position.PointsInto.hasLine {position : Position} (points : position.PointsInto source) :
    position.line - 1 < (Text.lines source.content).length := by
  rw [Text.length_lines, points.line, Nat.add_sub_cancel_left]
  exact Nat.lt_succ_of_le (List.Sublist.count_le _ (List.take_sublist _ _))

/-- A place in a source knows its source. -/
theorem Position.PointsInto.sourceEq {position : Position} (points : position.PointsInto source) :
    position.source = source := by
  obtain ⟨token, -, rfl⟩ := points.isToken
  rfl

/-! ## Showing an error -/

namespace ScriptError

/-- The line of a number as it is shown with an error, without blanks at its end. -/
def shownLine? (content : String) (number : Nat) : Option String :=
  ((Text.lines content)[number - 1]?).map fun line =>
    String.ofList (Text.trimEnd isLineEnd line.toList)

/-- What is shown of an error at a place: the place, a line, and a caret below the column. -/
def textAbove (error : ScriptError) (position : Position) (line : String) : String :=
  error.kind.text ++
    ("Error at " ++ toString position.line ++ ":" ++ toString position.column ++ ": ") ++
    error.message ++ "\n  " ++ line ++ "\n  " ++ Text.repeated " " (position.column - 1) ++ "^\n\n"

/-- What is shown of an error without a line. -/
def textAlone (error : ScriptError) : String :=
  error.kind.text ++ "Error: " ++ error.message ++ "\n"

variable {error : ScriptError} {position : Position}

/-- An error at a place is shown with the line that the given text has there, if it has one. -/
theorem display_of_located (isPlace : error.position = some position) (content : String) :
    error.display content =
      match shownLine? content position.line with
      | some line => error.textAbove position line
      | none => error.textAlone := by
  unfold display shownLine?
  rw [isPlace]
  dsimp only
  cases (Text.lines content)[position.line - 1]? <;> rfl

theorem textAbove_inj {first second : String} :
    error.textAbove position first = error.textAbove position second ↔ first = second := by
  constructor
  · intro same
    have lists := congrArg String.toList same
    exact String.toList_inj.mp (by simpa [textAbove, String.toList_append] using lists)
  · rintro rfl
    rfl

/-- A text with a line says where the error is, one without a line does not. -/
theorem textAlone_ne_textAbove (line : String) :
    error.textAlone ≠ error.textAbove position line := by
  intro same
  have lists := congrArg String.toList same
  simp [textAlone, textAbove, String.toList_append] at lists

/-- Two texts show an error alike exactly if they have the same line to show, or both none. -/
theorem display_eq_display_iff (isPlace : error.position = some position) (first second : String) :
    error.display first = error.display second ↔
      shownLine? first position.line = shownLine? second position.line := by
  rw [display_of_located isPlace, display_of_located isPlace]
  cases shownLine? first position.line <;> cases shownLine? second position.line
  · simp
  · simpa using textAlone_ne_textAbove _
  · simpa using (textAlone_ne_textAbove _).symm
  · simp [textAbove_inj]

/-- The source of a place has a line to show there. -/
theorem exists_shownLine (points : position.PointsInto source) :
    ∃ line, shownLine? source.content position.line = some line := by
  rw [shownLine?, List.getElem?_eq_getElem points.hasLine]
  exact ⟨_, rfl⟩

end ScriptError

/-! ## Sessions at the prompt -/

namespace Session

/-- Why a source ended in errors: it is no program, it does not compile, or its code failed. -/
theorem run_error_cases
    {session : Session}
    {options : DumpOptions}
    (failed : (session.run options source).1 = .error errors) :
    errors = (Program.parse source).errors ∨
      (∃ error, errors = [error] ∧
        Code.ofProgram session.assertions (Program.parse source).program = .error error) ∨
      ∃ code abort after, errors = [abort.error] ∧
        Code.ofProgram session.assertions (Program.parse source).program = .ok code ∧
        code.run { session.machine with output := "" } = .error abort after := by
  unfold run runCode at failed
  dsimp only at failed
  split at failed
  · left
    exact (Except.error.inj failed).symm
  · right
    split at failed
    · rename_i error refused
      left
      exact ⟨error, (Except.error.inj failed).symm, refused⟩
    · rename_i code lowered
      right
      cases ran : code.run { session.machine with output := "" } with
      | ok value after =>
          rw [ran] at failed
          cases failed
      | error abort after =>
          rw [ran] at failed
          exact ⟨code, abort, after, (Except.error.inj failed).symm, lowered, ran⟩

/-- A source leaves the machine of a session alone, or runs its code there. -/
theorem run_machine_cases (session : Session) (options : DumpOptions) (source : Source) :
    (session.run options source).2.2 = session ∨
      ∃ code, Code.ofProgram session.assertions (Program.parse source).program = .ok code ∧
        (session.run options source).2.2 =
          ⟨Run.after (code.run { session.machine with output := "" }), session.assertions⟩ := by
  unfold run runCode
  dsimp only
  split
  · exact .inl rfl
  · split
    · exact .inl rfl
    · rename_i code lowered
      refine .inr ⟨code, lowered, ?_⟩
      cases code.run { session.machine with output := "" } <;> rfl

end Session

namespace Prompt

/-- The sessions that entries lead to, the latest entry first. -/
inductive Entered (setup : Setup) : List String → Session → Prop where
  | start {settings : Settings} {session : Session} :
      Session.start settings = .ok session →
      Entered setup [] session
  | enter {entries : List String} {session : Session} {entry : String} {next : Prompt}
      {emissions : List Emission} :
      Entered setup entries session →
      Prompt.enter setup session entry = .went next emissions →
      Entered setup (entry :: entries) next.session

variable {setup : Setup} {session : Session} {entry : String} {next : Prompt}

/-- An entry is taken for a command, which leaves the session alone, or its source is run. -/
theorem enter_cases
    {emissions : List Emission}
    (went : enter setup session entry = .went next emissions) :
    (next.session = session ∧ ∀ shown, emissions.getLast? ≠ some (.errors shown)) ∨
      next.session = (session.run setup.dumps (Source.ofRepl entry)).2.2 ∧
        emissions.getLast? = some
          (match (session.run setup.dumps (Source.ofRepl entry)).1 with
            | .error errors => .errors (ScriptError.displayAll entry errors)
            | .ok value => .output (next.session.display entry (.ok value))) := by
  unfold enter at went
  generalize session.run setup.dumps (Source.ofRepl entry) = ended at went ⊢
  obtain ⟨outcome, notices, after⟩ := ended
  dsimp only at went ⊢
  split at went
  · cases went
    exact .inl ⟨rfl, by simp⟩
  · split at went
    · cases went
    · split at went
      · cases went
        exact .inl ⟨rfl, by simp⟩
      · right
        obtain ⟨rfl, rfl⟩ := Reply.went.inj went
        refine ⟨rfl, ?_⟩
        rw [List.getLast?_concat]
        cases outcome <;> rfl

/-- An entry that is no command and fails shows its errors last. -/
theorem enter_of_failed
    (notEmpty : Text.trim entry ≠ "")
    (notLeaving : Text.trim entry ≠ ":quit")
    (notCommand : ¬Text.startsWith (Text.trim entry) ":" = true)
    (failed : (session.run setup.dumps (Source.ofRepl entry)).1 = .error errors) :
    enter setup session entry =
      .went { session := (session.run setup.dumps (Source.ofRepl entry)).2.2 }
        (setup.emit (session.run setup.dumps (Source.ofRepl entry)).2.1 ++
          [.errors (ScriptError.displayAll entry errors)]) := by
  unfold enter
  generalize session.run setup.dumps (Source.ofRepl entry) = ended at failed ⊢
  obtain ⟨outcome, notices, after⟩ := ended
  obtain rfl : outcome = .error errors := failed
  rw [if_neg notEmpty, if_neg notLeaving, if_neg notCommand]
  rfl

/-- The machine of a session at the prompt was reached by code of the entries. -/
theorem Entered.reached {entries : List String} (entered : Entered setup entries session) :
    ∃ sources, session.machine.Reached sources ∧ ∀ source ∈ sources,
      ∃ entry ∈ entries, source = Source.ofRepl entry := by
  induction entered with
  | @start settings session started =>
      refine ⟨[], @Machine.Reached.start settings _ ?_, fun _ member => by cases member⟩
      unfold Session.start at started
      split at started <;> cases started
      assumption
  | @enter entries session entry next emissions entered went inductionHypothesis =>
      obtain ⟨sources, reached, areEntries⟩ := inductionHypothesis
      have areLater : ∀ source ∈ sources, ∃ own ∈ entry :: entries, source = Source.ofRepl own :=
        fun source member =>
          let ⟨own, isEntry, isSource⟩ := areEntries source member
          ⟨own, .tail entry isEntry, isSource⟩
      rcases enter_cases went with ⟨same, -⟩ | ⟨isNext, -⟩
      · rw [same]
        exact ⟨sources, reached, areLater⟩
      · rw [isNext]
        rcases session.run_machine_cases setup.dumps (Source.ofRepl entry) with
          same | ⟨code, lowered, isAfter⟩
        · rw [same]
          exact ⟨sources, reached, areLater⟩
        · rw [isAfter]
          have quiet : Machine.Reached sources { session.machine with output := "" } :=
            .host reached rfl
          exact ⟨Source.ofRepl entry :: sources, .run _ quiet lowered,
            List.forall_mem_cons.mpr ⟨⟨entry, .head _, rfl⟩, areLater⟩⟩

/--
Where an error with a place comes from: from the entry that ends in it, or from a function that
an earlier entry made and that was called while the entry ran.
-/
inductive ComesFrom (session : Session) (entry : String) (error : ScriptError) :
    String → Prop where
  | entry : ComesFrom session entry error entry
  | function {own : String} {code : Code} :
      Code.ofProgram session.assertions (Program.parse (Source.ofRepl entry)).program = .ok code →
      Run.FailsInFunction (Source.ofRepl own) (code.runIn session.machine.global)
        { session.machine with output := "" } error →
      ComesFrom session entry error own

/-- The errors of an entry have places in the entry or in an earlier one that they come from. -/
theorem Entered.errors_placed
    {earlier : List String}
    (entered : Entered setup earlier session)
    (failed : (session.run setup.dumps (Source.ofRepl entry)).1 = .error errors) :
    ∀ error ∈ errors, ∀ place, error.position = some place →
      ∃ own ∈ entry :: earlier, place.PointsInto (Source.ofRepl own) ∧
        ComesFrom session entry error own := by
  obtain ⟨sources, reached, areEntries⟩ := entered.reached
  have quiet : Machine.Reached sources { session.machine with output := "" } := .host reached rfl
  obtain ⟨ofText, ofLowering, ofRun⟩ :=
    quiet.errors_point_at_tokens (Source.ofRepl entry) session.assertions
  have isOwn {error : ScriptError} {place : Position} (isPlace : error.position = some place)
      (placed : error.PlacedAt (Position.PointsInto (Source.ofRepl entry))) :
      ∃ own ∈ entry :: earlier, place.PointsInto (Source.ofRepl own) ∧
        ComesFrom session entry error own := by
    obtain ⟨_, samePlace, points⟩ := placed
    obtain rfl := Option.some.inj (isPlace.symm.trans samePlace)
    exact ⟨entry, .head earlier, points, .entry⟩
  intro error member place isPlace
  rcases Session.run_error_cases failed with
    rfl | ⟨refusal, rfl, refused⟩ | ⟨code, abort, after, rfl, lowered, ran⟩
  · exact isOwn isPlace (ofText error member)
  · obtain rfl := List.mem_singleton.mp member
    exact isOwn isPlace (ofLowering error refused)
  · obtain rfl := List.mem_singleton.mp member
    cases abort with
    | broken fault => cases isPlace
    | raised error =>
        obtain ⟨origin, isOrigin, placed, fails⟩ := (ofRun code lowered).run _ error after ran
        rcases fails with rfl | fails
        · exact isOwn isPlace placed
        · rcases List.mem_cons.mp isOrigin with rfl | isEarlier
          · exact isOwn isPlace placed
          · obtain ⟨own, isEntry, rfl⟩ := areEntries origin isEarlier
            obtain ⟨_, samePlace, points⟩ := placed
            obtain rfl := Option.some.inj (isPlace.symm.trans samePlace)
            exact ⟨own, .tail entry isEntry, points, .function lowered fails⟩

/--
An entry that ends in errors shows them with its own lines.  Each error at a place comes from
one of the entries so far, the text of its source, which has a line there.  What is shown has
that line exactly if the entry has the same line under the number, as it has if the error comes
from the entry itself.  An error that comes from elsewhere is that of a function an earlier
entry made, called while the entry ran.
-/
theorem shown_line_is_own_unless_from_earlier
    {earlier : List String}
    {emissions : List Emission}
    {shown : String}
    (entered : Entered setup earlier session)
    (ended : enter setup session entry = .went next (emissions ++ [.errors shown])) :
    ∃ errors, (session.run setup.dumps (Source.ofRepl entry)).1 = .error errors ∧
      shown = ScriptError.displayAll entry errors ∧
      ∀ error ∈ errors, ∀ place, error.position = some place →
        ∃ own ∈ entry :: earlier, ∃ line,
          place.source = Source.ofRepl own ∧
          ComesFrom session entry error own ∧
          ScriptError.shownLine? own place.line = some line ∧
          (error.display entry = error.textAbove place line ↔
            ScriptError.shownLine? entry place.line = some line) := by
  rcases enter_cases ended with ⟨-, noErrors⟩ | ⟨-, isLast⟩
  · exact absurd (List.getLast?_concat ..) (noErrors shown)
  · rw [List.getLast?_concat] at isLast
    have isLast := Option.some.inj isLast
    cases ran : (session.run setup.dumps (Source.ofRepl entry)).1 with
    | ok value =>
        rw [ran] at isLast
        cases isLast
    | error errors =>
        rw [ran] at isLast
        refine ⟨errors, rfl, Emission.errors.inj isLast, fun error member place isPlace => ?_⟩
        obtain ⟨own, isEntry, points, comes⟩ := entered.errors_placed ran error member place isPlace
        obtain ⟨line, isLine⟩ := ScriptError.exists_shownLine points
        refine ⟨own, isEntry, line, points.sourceEq, comes, isLine, ?_⟩
        have isLine : ScriptError.shownLine? own place.line = some line := isLine
        have isShown : error.display own = error.textAbove place line := by
          rw [ScriptError.display_of_located isPlace, isLine]
        rw [← isShown, ScriptError.display_eq_display_iff isPlace, isLine]

/-- The errors that the second of two entries ends in. -/
def errorsAfter (setup : Setup) (session : Session) (first second : String) : List ScriptError :=
  match enter setup session first with
  | .left => []
  | .went next _ =>
      match (next.session.run setup.dumps (Source.ofRepl second)).1 with
      | .error errors => errors
      | .ok _ => []

theorem exists_of_errorsAfter
    {first second : String}
    {error : ScriptError}
    (areErrors : errorsAfter setup session first second = error :: errors) :
    ∃ next emissions, enter setup session first = .went next emissions ∧
      (next.session.run setup.dumps (Source.ofRepl second)).1 = .error (error :: errors) := by
  unfold errorsAfter at areErrors
  split at areErrors
  · cases areErrors
  · rename_i next emissions isFirst
    split at areErrors
    · rename_i failed
      rw [areErrors] at failed
      exact ⟨next, emissions, isFirst, failed⟩
    · cases areErrors

/-- The prompt without options and with the settings by default. -/
def plainSetup : Setup := ⟨Options.ofReading ⟨[], []⟩, {}, .warn⟩

/-- The error in a function of the first entry is shown with the line of the second one. -/
theorem shown_line_is_that_of_call :
    let first := "function f() \x7b return missing \x7d"
    let second := "f()"
    let place : Position := ⟨1, 23, 22, 29, Source.ofRepl first⟩
    let error : ScriptError := ⟨.unbound "missing", some place⟩
    ∃ (session : Session) (last : Prompt) (emissions : List Emission),
      Entered plainSetup [first] session ∧
        enter plainSetup session second =
          .went last (emissions ++ [.errors (error.textAbove place second)]) ∧
        ScriptError.shownLine? first place.line = some first ∧
        error.display second ≠ error.textAbove place first := by
  intro first second place error
  have started : Session.start {} = .ok ⟨Machine.realm 10000, true⟩ := rfl
  have areErrors : errorsAfter plainSetup ⟨Machine.realm 10000, true⟩ first second = [error] := by
    decide +kernel
  have isScript : (Text.trim second ≠ "" ∧ Text.trim second ≠ ":quit") ∧
      ¬Text.startsWith (Text.trim second) ":" = true := by
    decide +kernel
  have lines : ScriptError.shownLine? first place.line = some first ∧
      ScriptError.shownLine? second place.line = some second ∧ second ≠ first := by
    decide +kernel
  have isPlace : error.position = some place := rfl
  have isOwnSource : place.source = Source.ofRepl first := rfl
  clear_value first second place error
  obtain ⟨firstLine, secondLine, different⟩ := lines
  obtain ⟨next, written, isFirst, failed⟩ := exists_of_errorsAfter areErrors
  have entered : Entered plainSetup [first] next.session := .enter (.start started) isFirst
  have isSecond := enter_of_failed isScript.1.1 isScript.1.2 isScript.2 failed
  obtain ⟨errors, isFailed, -, places⟩ := shown_line_is_own_unless_from_earlier entered isSecond
  obtain rfl := Except.error.inj (failed.symm.trans isFailed)
  obtain ⟨own, -, line, isSource, -, isLine, isOwn⟩ := places error (.head _) place isPlace
  obtain rfl : first = own := congrArg Source.content (isOwnSource.symm.trans isSource)
  obtain rfl : first = line := Option.some.inj (firstLine.symm.trans isLine)
  have displayed : ScriptError.displayAll second [error] = error.textAbove place second := by
    rw [ScriptError.displayAll, List.map_singleton, ScriptError.display_of_located isPlace,
      secondLine]
    exact String.empty_append
  rw [displayed] at isSecond
  refine ⟨next.session, _, _, entered, isSecond, isLine, fun same => ?_⟩
  exact different (Option.some.inj (secondLine.symm.trans (isOwn.mp same)))

end Prompt

end ScriptEngine
