import ScriptEngine.Program.Parser

namespace ScriptEngine.Parser.Script

/-!
# Reading the front of a program

Let some first tokens of a program be known and the others not.  A reader that starts
there gives a value whatever follows, or fails whatever follows, or runs into what
follows.  In the last case some tokens complete what it reads, and when a token follows
that no reader takes, then it is this token that it fails at, if it fails.

A front is the list of the known tokens from the current one on.  It is empty when the
current token is the first of those that are not known.
-/

variable {α : Type} {start stop : Cursor} {value : α} {script : Script α} {between : Nat}
  {fault : GrammarFault} {more : List Filler} {failure : Failure} {kind : TokenKind}

/-!
## What a script does

A script that ends well gives a value, moves the cursor and records nothing.  A script
that ends badly gives nothing and has recorded one failure.  What a script does is put
together from what its steps do, whatever the tasks it calls are answered with.
-/

variable {answers : Answers}

theorem run_bind (first : Script β) (later : β → Script α) (reading : Reading) :
    (first >>= later).run answers reading =
      match first.run answers reading with
      | (some value, after) => (later value).run answers after
      | (none, after) => (none, after) :=
  run.eq_def answers _ (andThen first later) reading

/-- From a cursor a script gives a value and stops at another cursor; it records nothing. -/
def Gives
    (answers : Answers)
    (script : Script α)
    (start : Cursor)
    (value : α)
    (stop : Cursor) : Prop :=
  ∀ reading : Reading, reading.cursor = start →
    script.run answers reading = (some value, { reading with cursor := stop })

/-- From a cursor a script gives up, having recorded one failure. -/
def Fails
    (answers : Answers)
    (script : Script α)
    (start : Cursor)
    (failure : Failure) : Prop :=
  ∀ reading : Reading, reading.cursor = start →
    ∃ stop, script.run answers reading = (none, { reading.record failure with cursor := stop })

namespace Gives

theorem give (value : α) (cursor : Cursor) : Gives answers (pure value) cursor value cursor := by
  rintro reading rfl
  rfl

theorem current (cursor : Cursor) : Gives answers .current cursor cursor.current cursor := by
  rintro reading rfl
  rfl

theorem next (cursor : Cursor) : Gives answers .next cursor cursor.next cursor := by
  rintro reading rfl
  rfl

theorem advance (cursor : Cursor) : Gives answers .advance cursor () cursor.advance := by
  rintro reading rfl
  rfl

theorem bind
    {first : Script β}
    {later : β → Script α}
    {middle : Cursor}
    {between : β}
    (givesFirst : Gives answers first start between middle)
    (givesLater : Gives answers (later between) middle value stop) :
    Gives answers (first >>= later) start value stop := by
  intro reading isStart
  rw [run_bind, givesFirst reading isStart]
  exact givesLater _ rfl

/-- A script gives one value only, and stops at one cursor. -/
theorem unique
    {other : Cursor}
    {second : α}
    (gives : Gives answers script start value stop)
    (givesAgain : Gives answers script start second other) :
    value = second ∧ stop = other := by
  have same := (gives ⟨start, [], false⟩ rfl).symm.trans (givesAgain ⟨start, [], false⟩ rfl)
  simpa using same

end Gives

namespace Fails

theorem refuse (token : Token) (fault : GrammarFault) (cursor : Cursor) :
    Fails answers (Parser.refuse (α := α) token fault) cursor ⟨token, fault⟩ := by
  rintro reading rfl
  exact ⟨reading.cursor, rfl⟩

theorem bind
    {first : Script β} (fails : Fails answers first start failure)
    (later : β → Script α) :
    Fails answers (first >>= later) start failure := by
  intro reading isStart
  obtain ⟨stop, isRun⟩ := fails reading isStart
  refine ⟨stop, ?_⟩
  rw [run_bind, isRun]

theorem later
    {first : Script β}
    {later : β → Script α}
    {start middle : Cursor}
    {between : β}
    (givesFirst : Gives answers first start between middle)
    (failsLater : Fails answers (later between) middle failure) :
    Fails answers (first >>= later) start failure := by
  intro reading isStart
  obtain ⟨stop, isRun⟩ := failsLater { reading with cursor := middle } rfl
  refine ⟨stop, ?_⟩
  rw [run_bind, givesFirst reading isStart]
  exact isRun

/-- A script fails in one way only. -/
theorem unique
    {failure other : Failure}
    (fails : Fails answers script start failure)
    (failsAgain : Fails answers script start other) :
    failure = other := by
  obtain ⟨_, isRun⟩ := fails ⟨start, [], false⟩ rfl
  obtain ⟨_, isOther⟩ := failsAgain ⟨start, [], false⟩ rfl
  have same := congrArg (fun result => result.2.failures) (isRun.symm.trans isOther)
  simpa [Reading.record, Reading.failureLimit] using same

/-- A script that gives up does not give a value. -/
theorem not_gives
    (fails : Fails answers script start failure) :
    ¬Gives answers script start value stop := by
  intro gives
  obtain ⟨_, isRun⟩ := fails ⟨start, [], false⟩ rfl
  rw [gives ⟨start, [], false⟩ rfl] at isRun
  simp at isRun

end Fails

/-- What a task is answered with is what its script does, with one call less to spare. -/
theorem run_read (budget : Nat) (task : Task α) :
    (read task).run (Task.answers (budget + 1)) = task.script.run (Task.answers budget) := by
  cases task <;> rfl

theorem Gives.read
    {budget : Nat} {task : Task α}
    (gives : Gives (Task.answers budget) task.script start value stop) :
    Gives (Task.answers (budget + 1)) (.read task) start value stop := by
  intro reading isStart
  rw [run_read]
  exact gives reading isStart

theorem Fails.read
    {budget : Nat} {task : Task α}
    (fails : Fails (Task.answers budget) task.script start failure) :
    Fails (Task.answers (budget + 1)) (.read task) start failure := by
  intro reading isStart
  rw [run_read]
  exact fails reading isStart

end ScriptEngine.Parser.Script

namespace ScriptEngine.Parser

variable {α β : Type} {token : Token} {first : Script β} {task : Task α}
  {later : β → Script α} {wanted calm : TokenKind → Prop}
  {script : Script α} {taken passed : Token → Script α}

open Script (current next advance read)

namespace Cursor

@[simp] theorem current_ofTokens (token : Token) (tokens : List Token) :
    (ofTokens (token :: tokens)).current = token := by
  cases tokens <;> rfl

theorem advance_ofTokens
    (token : Token)
    {tokens : List Token}
    (some : tokens ≠ []) :
    (ofTokens (token :: tokens)).advance = ofTokens tokens := by
  match tokens with
  | [_] => rfl
  | _ :: _ :: _ => rfl

end Cursor

/-- Whether a token of a kind is taken anywhere. -/
def isLiving : TokenKind → Bool
  | .endOfInput | .illegal => false
  | _ => true

/-- A token that no reader takes: the end of input, or an illegal token that is no word. -/
structure IsDead (token : Token) : Prop where
  kind : token.kind = .endOfInput ∨ token.kind = .illegal
  literal : TokenKind.isReserved token.literal = false

theorem IsDead.ne
    (isDead : IsDead token) (kind : TokenKind) (lives : isLiving kind = true) :
    token.kind ≠ kind := by
  rintro rfl
  rcases isDead.kind with isKind | isKind <;> rw [isKind] at lives <;> cases lives

/-! ## Running into what follows -/

/--
With some tokens at hand a script ends well and keeps as many of them as it should, or
it fails at a token that may be blamed.
-/
def EndsAt
    (budget : Nat)
    (script : Script α)
    (front tail : List Token)
    (held : Nat)
    (blamed : Option Token) : Prop :=
  (∃ value stop, stop.length = held ∧
      script.Gives (Task.answers budget) (.ofTokens (front ++ tail)) value
        (.ofTokens (stop ++ tail))) ∨
    ∃ token ∈ blamed, ∃ fault ≠ .tooDeep,
      script.Fails (Task.answers budget) (.ofTokens (front ++ tail)) ⟨token, fault⟩

namespace EndsAt

variable {budget held : Nat} {front tail : List Token} {blamed : Option Token}

theorem pure (value : α) (isHeld : front.length = held) :
    EndsAt budget (pure value) front tail held blamed :=
  .inl ⟨value, front, isHeld, .give value _⟩

theorem refuse (notDeep : fault ≠ .tooDeep) :
    EndsAt budget (Parser.refuse (α := α) token fault) front tail held (some token) :=
  .inr ⟨token, rfl, fault, notDeep, .refuse token fault _⟩

theorem bind
    {extra : List Token}
    (firstEnds : EndsAt budget first front (extra ++ tail) between blamed)
    (laterEnds : ∀ value stop, stop.length = between →
      EndsAt budget (later value) (stop ++ extra) tail held blamed) :
    EndsAt budget (first >>= later) (front ++ extra) tail held blamed := by
  unfold EndsAt
  rw [List.append_assoc]
  rcases firstEnds with ⟨value, stop, isBetween, gives⟩ | ⟨token, isBlamed, fault, notDeep, fails⟩
  · rcases laterEnds value stop isBetween with
      ⟨result, last, isHeld, givesLater⟩ | ⟨token, isBlamed, fault, notDeep, failsLater⟩
    · rw [List.append_assoc] at givesLater
      exact .inl ⟨result, last, isHeld, gives.bind givesLater⟩
    · rw [List.append_assoc] at failsLater
      exact .inr ⟨token, isBlamed, fault, notDeep, .later gives failsLater⟩
  · exact .inr ⟨token, isBlamed, fault, notDeep, fails.bind later⟩

/-- A script whose first step gives something goes on from where the step leads. -/
theorem step
    {value : β}
    {reached : List Token}
    (gives : first.Gives (Task.answers budget) (.ofTokens (front ++ tail)) value
      (.ofTokens (reached ++ tail)))
    (laterEnds : EndsAt budget (later value) reached tail held blamed) :
    EndsAt budget (first >>= later) front tail held blamed := by
  rcases laterEnds with ⟨result, last, isHeld, givesLater⟩ | ⟨token, isBlamed, fault, notDeep, fails⟩
  · exact .inl ⟨result, last, isHeld, gives.bind givesLater⟩
  · exact .inr ⟨token, isBlamed, fault, notDeep, .later gives fails⟩

theorem current
    {later : Token → Script α} {others : List Token}
    (isFirst : front ++ tail = token :: others)
    (laterEnds : EndsAt budget (later token) front tail held blamed) :
    EndsAt budget (current >>= later) front tail held blamed := by
  refine step ?_ laterEnds
  rw [isFirst]
  have gives : Script.current.Gives (Task.answers budget) (.ofTokens (token :: others)) _ _ :=
    .current _
  rwa [Cursor.current_ofTokens] at gives

theorem next
    {later : Token → Script α} {token following : Token} {others : List Token}
    (areFirst : front ++ tail = token :: following :: others)
    (laterEnds : EndsAt budget (later following) front tail held blamed) :
    EndsAt budget (next >>= later) front tail held blamed := by
  refine step ?_ laterEnds
  rw [areFirst]
  exact .next _

theorem advance
    {later : Unit → Script α} (some : tail ≠ [])
    (laterEnds : EndsAt budget (later ()) front tail held blamed) :
    EndsAt budget (advance >>= later) (token :: front) tail held blamed := by
  refine step ?_ laterEnds
  rw [List.cons_append, ← Cursor.advance_ofTokens token (List.append_ne_nil_of_right_ne_nil _ some)]
  exact .advance _

theorem read (ends : EndsAt budget task.script front tail held blamed) :
    EndsAt (budget + 1) (read task) front tail held blamed := by
  rcases ends with ⟨value, stop, isHeld, gives⟩ | ⟨token, isBlamed, fault, notDeep, fails⟩
  · exact .inl ⟨value, stop, isHeld, gives.read⟩
  · exact .inr ⟨token, isBlamed, fault, notDeep, fails.read⟩

end EndsAt

/-- The tokens that are needed to complete something. -/
inductive Filler where
  | identifier
  | thisWord
  | inWord
  | semicolon
  | colon
  | leftParen
  | rightParen
  | leftBrace
  | rightBrace
  | rightBracket

namespace Filler

/-- The kind of a filler. -/
def kind : Filler → TokenKind
  | identifier => .identifier
  | thisWord => .thisWord
  | inWord => .inWord
  | semicolon => .semicolon
  | colon => .colon
  | leftParen => .leftParen
  | rightParen => .rightParen
  | leftBrace => .leftBrace
  | rightBrace => .rightBrace
  | rightBracket => .rightBracket

end Filler

theorem Filler.isLiving_kind (filler : Filler) : isLiving filler.kind = true := by
  cases filler <;> rfl

/-- Some tokens complete what a script reads, unless the token after them is taken too. -/
def Completes
    (least : Nat)
    (script : Script α)
    (front : List Token)
    (fillers : List Filler)
    (held : Nat)
    (quiet : TokenKind → Prop) : Prop :=
  ∀ fill follower rest budget, least ≤ budget →
    fill.map Token.kind = fillers.map Filler.kind → quiet follower.kind →
      EndsAt budget script (front ++ fill) (follower :: rest) held none

/-- When a token follows that no reader takes, a script ends before it or fails at it. -/
def StarvesAt
    (least : Nat)
    (script : Script α)
    (front : List Token)
    (held : Nat)
    (token : Token) : Prop :=
  ∀ rest budget, least ≤ budget →
    EndsAt budget script front (token :: rest) held (some token)

/-- A script runs into what follows a front: it can be completed there, and it can starve. -/
structure Opens
    (least : Nat)
    (script : Script α)
    (front : List Token)
    (fillers : List Filler)
    (held : Nat)
    (quiet : TokenKind → Prop) : Prop where
  completes : Completes least script front fillers held quiet
  starves : ∀ token, IsDead token → StarvesAt least script front held token

/-- The first of some fillers, or else a quiet token after them, is as wanted. -/
def Leads (quiet wanted : TokenKind → Prop) : List Filler → Prop
  | [] => ∀ kind, quiet kind → wanted kind
  | filler :: _ => wanted filler.kind

theorem Leads.exists_first
    {quiet : TokenKind → Prop} {fillers : List Filler} (leads : Leads quiet wanted fillers)
    {fill : List Token} {follower : Token} (areFill : fill.map Token.kind = fillers.map Filler.kind)
    (isQuiet : quiet follower.kind) (rest : List Token) :
    ∃ token others, fill ++ follower :: rest = token :: others ∧ wanted token.kind := by
  cases fillers with
  | nil =>
      cases List.map_eq_nil_iff.mp areFill
      exact ⟨follower, rest, rfl, leads _ isQuiet⟩
  | cons filler fillers =>
      obtain ⟨token, others, rfl, isKind, -⟩ := List.map_eq_cons_iff.mp areFill
      exact ⟨token, _, rfl, isKind ▸ leads⟩

section

variable {least held : Nat} {front : List Token} {fillers : List Filler}
  {quiet : TokenKind → Prop}

theorem Completes.absorb
    {filler : Filler}
    (completes : ∀ token : Token, token.kind = filler.kind →
      Completes least script (front ++ [token]) fillers held quiet) :
    Completes least script front (filler :: fillers) held quiet := by
  intro fill follower rest budget enough areFill isQuiet
  obtain ⟨token, fill, rfl, isKind, areFill⟩ := List.map_eq_cons_iff.mp areFill
  have ends := completes token isKind fill follower rest budget enough areFill isQuiet
  rwa [List.append_assoc] at ends

theorem Completes.bind
    (firstCompletes : Completes least first front fillers between calm)
    (laterCompletes : ∀ value stop, stop.length = between →
      Completes least (later value) stop more held quiet)
    (leads : Leads quiet calm more) :
    Completes least (first >>= later) front (fillers ++ more) held quiet := by
  intro fill follower rest budget enough areFill isQuiet
  rw [List.map_append] at areFill
  obtain ⟨fill, extra, rfl, areFirst, areMore⟩ := List.map_eq_append_iff.mp areFill
  rw [← List.append_assoc]
  refine .bind ?_ fun value stop isBetween =>
    laterCompletes value stop isBetween extra follower rest budget enough areMore isQuiet
  obtain ⟨token, others, isTail, isCalm⟩ := leads.exists_first areMore isQuiet rest
  rw [isTail]
  exact firstCompletes fill token others budget enough areFirst isCalm

theorem Completes.advance
    {later : Unit → Script α}
    (completes : Completes least (later ()) front fillers held quiet) :
    Completes least (advance >>= later) (token :: front) fillers held quiet :=
  fun fill follower rest budget enough areFill isQuiet =>
    .advance (by simp) (completes fill follower rest budget enough areFill isQuiet)

theorem Completes.advanceOnce (isHeld : front.length = held) :
    Completes least Script.advance (token :: front) [] held quiet := by
  intro fill follower rest budget _ areFill _
  rw [List.map_eq_nil_iff.mp areFill, List.append_nil]
  have some : front ++ follower :: rest ≠ [] := by simp
  refine .inl ⟨(), front, isHeld, ?_⟩
  rw [List.cons_append, ← Cursor.advance_ofTokens token some]
  exact .advance _

/-- A script that looks at the current token, which is the first after the front. -/
theorem Completes.ofCurrent
    {later : Token → Script α}
    (leads : Leads quiet wanted fillers)
    (completes : ∀ token, wanted token.kind →
      Completes least (later token) [] fillers held quiet) :
    Completes least (current >>= later) [] fillers held quiet := by
  intro fill follower rest budget enough areFill isQuiet
  obtain ⟨token, others, isTail, isWanted⟩ := leads.exists_first areFill isQuiet rest
  exact .current isTail (completes token isWanted fill follower rest budget enough areFill isQuiet)

/-- A script that looks at the next token, which is the first after the front. -/
theorem Completes.ofNext
    {later : Token → Script α}
    (leads : Leads quiet wanted fillers)
    (completes : ∀ following, wanted following.kind →
      Completes least (later following) [token] fillers held quiet) :
    Completes least (next >>= later) [token] fillers held quiet := by
  intro fill follower rest budget enough areFill isQuiet
  obtain ⟨following, others, isTail, isWanted⟩ := leads.exists_first areFill isQuiet rest
  have areFirst : [token] ++ fill ++ follower :: rest = token :: following :: others := by
    rw [List.append_assoc, isTail]
    rfl
  exact .next areFirst
    (completes following isWanted fill follower rest budget enough areFill isQuiet)

theorem Completes.pure (value : α) (isHeld : front.length = held) :
    Completes least (pure value) front [] held quiet := by
  intro fill follower rest budget _ areFill _
  rw [List.map_eq_nil_iff.mp areFill, List.append_nil]
  exact .pure value isHeld

theorem Completes.read
    (completes : Completes least task.script front fillers held quiet) :
    Completes (least + 1) (read task) front fillers held quiet := by
  intro fill follower rest budget enough areFill isQuiet
  obtain ⟨budget, rfl⟩ := Nat.exists_eq_add_of_le' (Nat.le_of_add_left_le enough)
  exact (completes fill follower rest budget (Nat.le_of_succ_le_succ enough) areFill isQuiet).read

theorem StarvesAt.bind
    (firstStarves : StarvesAt least first front between token)
    (laterStarves : ∀ value stop, stop.length = between →
      StarvesAt least (later value) stop held token) :
    StarvesAt least (first >>= later) front held token := by
  intro rest budget enough
  have ends : EndsAt budget (first >>= later) (front ++ []) (token :: rest) held (some token) := by
    refine .bind (firstStarves rest budget enough) fun value stop isBetween => ?_
    rw [List.append_nil]
    exact laterStarves value stop isBetween rest budget enough
  rwa [List.append_nil] at ends

theorem StarvesAt.read
    (starves : StarvesAt least task.script front held token) :
    StarvesAt (least + 1) (read task) front held token := by
  intro rest budget enough
  obtain ⟨budget, rfl⟩ := Nat.exists_eq_add_of_le' (Nat.le_of_add_left_le enough)
  exact (starves rest budget (Nat.le_of_succ_le_succ enough)).read

theorem StarvesAt.advance
    {later : Unit → Script α} {dead : Token}
    (starves : StarvesAt least (later ()) front held dead) :
    StarvesAt least (advance >>= later) (token :: front) held dead :=
  fun rest budget enough => .advance (by simp) (starves rest budget enough)

theorem StarvesAt.refuse (notDeep : fault ≠ .tooDeep) :
    StarvesAt least (Parser.refuse (α := α) token fault) front held token :=
  fun _ _ _ => .refuse notDeep

theorem StarvesAt.refuseNext {dead : Token} (wanted : TokenKind) :
    StarvesAt least (Parser.refuseNext (α := α) wanted) [token] held dead :=
  fun _ _ _ => .next rfl (.refuse nofun)

/-- On a token that it cannot take, a script fails at this token. -/
def RefusesAt
    (least : Nat)
    (script : Script α)
    (token : Token) : Prop :=
  ∀ rest budget, least ≤ budget →
    ∃ fault ≠ .tooDeep, script.Fails (Task.answers budget) (.ofTokens (token :: rest)) ⟨token, fault⟩

namespace RefusesAt

theorem refuse (notDeep : fault ≠ .tooDeep) :
    RefusesAt least (Parser.refuse (α := α) token fault) token :=
  fun _ _ _ => ⟨fault, notDeep, .refuse token fault _⟩

theorem bind (refuses : RefusesAt least first token) (later : β → Script α) :
    RefusesAt least (first >>= later) token := by
  intro rest budget enough
  obtain ⟨fault, notDeep, fails⟩ := refuses rest budget enough
  exact ⟨fault, notDeep, fails.bind later⟩

theorem current {later : Token → Script α} (refuses : RefusesAt least (later token) token) :
    RefusesAt least (current >>= later) token := by
  intro rest budget enough
  obtain ⟨fault, notDeep, fails⟩ := refuses rest budget enough
  refine ⟨fault, notDeep, .later (.current _) ?_⟩
  rwa [Cursor.current_ofTokens]

theorem read (refuses : RefusesAt least task.script token) :
    RefusesAt (least + 1) (read task) token := by
  intro rest budget enough
  obtain ⟨budget, rfl⟩ := Nat.exists_eq_add_of_le' (Nat.le_of_add_left_le enough)
  obtain ⟨fault, notDeep, fails⟩ := refuses rest budget (Nat.le_of_succ_le_succ enough)
  exact ⟨fault, notDeep, fails.read⟩

theorem starves (refuses : RefusesAt least script token) :
    StarvesAt least script [] held token := by
  intro rest budget enough
  obtain ⟨fault, notDeep, fails⟩ := refuses rest budget enough
  exact .inr ⟨token, rfl, fault, notDeep, fails⟩

end RefusesAt

namespace Opens

theorem pure (value : α) (isHeld : front.length = held) :
    Opens least (pure value) front [] held quiet where
  completes := .pure value isHeld
  starves := fun _ _ _ _ _ => .pure value isHeld

theorem bind
    (firstOpens : Opens least first front fillers between calm)
    (laterOpens : ∀ value stop, stop.length = between →
      Opens least (later value) stop more held quiet)
    (leads : Leads quiet calm more) :
    Opens least (first >>= later) front (fillers ++ more) held quiet where
  completes := firstOpens.completes.bind (fun value stop isBetween =>
    (laterOpens value stop isBetween).completes) leads
  starves := fun token isDead => (firstOpens.starves token isDead).bind fun value stop isBetween =>
    (laterOpens value stop isBetween).starves token isDead

/-- A script that looks at the current token and opens in the same way whatever it is. -/
theorem current
    {later : Token → Script α}
    (opens : ∀ token, Opens least (later token) front fillers held quiet) :
    Opens least (current >>= later) front fillers held quiet where
  completes := by
    intro fill follower rest budget enough areFill isQuiet
    obtain ⟨token, others, isList⟩ :=
      List.exists_cons_of_ne_nil (l := front ++ fill ++ follower :: rest) (by simp)
    exact .current isList ((opens token).completes fill follower rest budget enough areFill isQuiet)
  starves := by
    intro dead isDead rest budget enough
    obtain ⟨token, others, isList⟩ :=
      List.exists_cons_of_ne_nil (l := front ++ dead :: rest) (by simp)
    exact .current isList ((opens token).starves dead isDead rest budget enough)

theorem advance
    {later : Unit → Script α}
    (opens : Opens least (later ()) front fillers held quiet) :
    Opens least (advance >>= later) (token :: front) fillers held quiet where
  completes := opens.completes.advance
  starves := fun dead isDead => (opens.starves dead isDead).advance

theorem read (opens : Opens least task.script front fillers held quiet) :
    Opens (least + 1) (read task) front fillers held quiet where
  completes := opens.completes.read
  starves := fun token isDead => (opens.starves token isDead).read

theorem ofCurrent
    {later : Token → Script α} (leads : Leads quiet wanted fillers)
    (completes : ∀ token, wanted token.kind → Completes least (later token) [] fillers held quiet)
    (starves : ∀ token, IsDead token → StarvesAt least (later token) [] held token) :
    Opens least (Script.current >>= later) [] fillers held quiet where
  completes := .ofCurrent leads completes
  starves := fun token isDead rest budget enough =>
    .current rfl (starves token isDead rest budget enough)

theorem ofNext
    {later : Token → Script α}
    (leads : Leads quiet wanted fillers)
    (completes : ∀ following, wanted following.kind →
      Completes least (later following) [token] fillers held quiet)
    (starves : ∀ dead, IsDead dead → StarvesAt least (later dead) [token] held dead) :
    Opens least (next >>= later) [token] fillers held quiet where
  completes := .ofNext leads completes
  starves := fun dead isDead rest budget enough =>
    .next rfl (starves dead isDead rest budget enough)

/-- A script that takes the next token when it is of a kind, and is completed by such a token. -/
theorem take
    (filler : Filler)
    (isFiller : filler.kind = kind)
    (completes : ∀ following other, following.kind = kind →
      Completes least (taken following) [other] fillers held quiet)
    (starves : ∀ dead, IsDead dead → StarvesAt least (passed dead) [token] held dead) :
    Opens least
      (next >>= fun following =>
        if following.kind = kind then Script.advance >>= fun _ => taken following
        else passed following)
      [token] (filler :: fillers) held quiet := by
  have leads : Leads quiet (· = kind) (filler :: fillers) := isFiller
  refine ofNext leads (fun following isKind => ?_) fun dead isDead => ?_
  · rw [if_pos isKind]
    exact .advance (.absorb fun other _ => completes following other isKind)
  · rw [if_neg (isDead.ne kind (isFiller ▸ filler.isLiving_kind))]
    exact starves dead isDead

/-- A script that takes the next token when it is of a kind, and is completed without one. -/
theorem skip
    (lives : isLiving kind = true)
    (leads : Leads quiet (· ≠ kind) fillers)
    (opens : ∀ following, Opens least (passed following) [token] fillers held quiet) :
    Opens least
      (next >>= fun following =>
        if following.kind = kind then taken following else passed following)
      [token] fillers held quiet := by
  refine ofNext leads (fun following isOther => ?_) fun dead isDead => ?_
  · rw [if_neg isOther]
    exact (opens following).completes
  · rw [if_neg (isDead.ne kind lives)]
    exact (opens dead).starves dead isDead

end Opens

end

/-! ## The three fates of a reader -/

/-- What becomes of a script that starts with the tokens of a front at hand. -/
inductive Fate
    (least : Nat)
    (script : Script α)
    (front : List Token)
    (held : Nat)
    (quiet : TokenKind → Prop) : Prop where
  | gives (value : α) (stop : List Token) :
      stop <:+ front →
      held ≤ stop.length →
      (∀ tail budget, tail ≠ [] → least ≤ budget →
        script.Gives (Task.answers budget) (.ofTokens (front ++ tail)) value
          (.ofTokens (stop ++ tail))) →
      Fate least script front held quiet
  | fails (failure : Failure) :
      failure.fault ≠ .tooDeep →
      (∀ tail budget, tail ≠ [] → least ≤ budget →
        script.Fails (Task.answers budget) (.ofTokens (front ++ tail)) failure) →
      Fate least script front held quiet
  | opens (fillers : List Filler) :
      Opens least script front fillers held quiet →
      Fate least script front held quiet

namespace Fate

variable {least held : Nat} {front : List Token} {quiet : TokenKind → Prop}

theorem pure (value : α) (isHeld : held ≤ front.length) :
    Fate least (pure value) front held quiet :=
  .gives value front (List.suffix_refl _) isHeld fun _ _ _ _ => .give value _

theorem refuse (notDeep : fault ≠ .tooDeep) :
    Fate least (Parser.refuse (α := α) token fault) front held quiet :=
  .fails ⟨token, fault⟩ notDeep fun _ _ _ _ => .refuse token fault _

/-- A script whose first step gives something meets the fate of what it does next. -/
theorem step
    {value : β}
    {reached : List Token}
    (isSuffix : reached <:+ front)
    (gives : ∀ tail budget, tail ≠ [] → least ≤ budget →
      first.Gives (Task.answers budget) (.ofTokens (front ++ tail)) value
        (.ofTokens (reached ++ tail)))
    (fate : Fate least (later value) reached held quiet) :
    Fate least (first >>= later) front held quiet := by
  cases fate with
  | gives result stop isLater isHeld givesLater =>
      exact .gives result stop (isLater.trans isSuffix) isHeld fun tail budget some enough =>
        (gives tail budget some enough).bind (givesLater tail budget some enough)
  | fails failure notDeep failsLater =>
      exact .fails failure notDeep fun tail budget some enough =>
        .later (gives tail budget some enough) (failsLater tail budget some enough)
  | opens fillers opens =>
      refine .opens fillers ⟨?_, ?_⟩
      · intro fill follower rest budget enough areFill isQuiet
        refine .step ?_ (opens.completes fill follower rest budget enough areFill isQuiet)
        rw [List.append_assoc, List.append_assoc]
        exact gives _ budget (by simp) enough
      · intro token isDead rest budget enough
        exact .step (gives _ budget (by simp) enough) (opens.starves token isDead rest budget enough)

theorem current
    {later : Token → Script α}
    (fate : Fate least (later token) (token :: front) held quiet) :
    Fate least (current >>= later) (token :: front) held quiet := by
  refine .step (List.suffix_refl _) (fun tail budget _ _ => ?_) fate
  have gives : Script.current.Gives (Task.answers budget) (.ofTokens (token :: front ++ tail)) _ _ :=
    .current _
  rwa [List.cons_append, Cursor.current_ofTokens] at gives

theorem next
    {later : Token → Script α} {token following : Token}
    (fate : Fate least (later following) (token :: following :: front) held quiet) :
    Fate least (next >>= later) (token :: following :: front) held quiet :=
  .step (List.suffix_refl _) (fun _ _ _ _ => .next _) fate

theorem advance
    {later : Unit → Script α}
    (fate : Fate least (later ()) front held quiet) :
    Fate least (advance >>= later) (token :: front) held quiet := by
  refine .step (List.suffix_cons _ _) (fun tail budget some _ => ?_) fate
  rw [List.cons_append, ← Cursor.advance_ofTokens token (List.append_ne_nil_of_right_ne_nil _ some)]
  exact .advance _

theorem advanceOnce (isHeld : held ≤ front.length) :
    Fate least Script.advance (token :: front) held quiet := by
  refine .gives () front (List.suffix_cons _ _) isHeld fun tail budget some _ => ?_
  rw [List.cons_append, ← Cursor.advance_ofTokens token (List.append_ne_nil_of_right_ne_nil _ some)]
  exact .advance _

theorem refuseNext {following : Token} (wanted : TokenKind) :
    Fate least (Parser.refuseNext (α := α) wanted) (token :: following :: front) held quiet :=
  .next (.refuse nofun)

theorem bind
    (fate : Fate least first front between calm)
    (laterFate : ∀ value stop, between ≤ stop.length → stop.length ≤ front.length →
      Fate least (later value) stop held quiet)
    (laterOpens : ∀ value stop, stop.length = between →
      Opens least (later value) stop more held quiet)
    (leads : Leads quiet calm more) :
    Fate least (first >>= later) front held quiet := by
  cases fate with
  | gives value stop isSuffix isBetween gives =>
      exact .step isSuffix gives (laterFate value stop isBetween isSuffix.length_le)
  | fails failure notDeep fails =>
      exact .fails failure notDeep fun tail budget some enough =>
        (fails tail budget some enough).bind later
  | opens fillers opens => exact .opens _ (opens.bind laterOpens leads)

theorem read (fate : Fate least task.script front held quiet) :
    Fate (least + 1) (read task) front held quiet := by
  cases fate with
  | gives value stop isSuffix isHeld gives =>
      refine .gives value stop isSuffix isHeld fun tail budget some enough => ?_
      obtain ⟨budget, rfl⟩ := Nat.exists_eq_add_of_le' (Nat.le_of_add_left_le enough)
      exact (gives tail budget some (Nat.le_of_succ_le_succ enough)).read
  | fails failure notDeep fails =>
      refine .fails failure notDeep fun tail budget some enough => ?_
      obtain ⟨budget, rfl⟩ := Nat.exists_eq_add_of_le' (Nat.le_of_add_left_le enough)
      exact (fails tail budget some (Nat.le_of_succ_le_succ enough)).read
  | opens fillers opens => exact .opens fillers opens.read

end Fate

/-! ## Scripts by their shape -/

/--
How a script meets the end of what is known: the number of tokens it is given there, the
tokens that complete it, the number of tokens it keeps, and the tokens after them that
it does not take.
-/
structure Shape where
  before : Nat
  fillers : List Filler
  after : Nat
  quiet : TokenKind → Prop

/-- Every front up to a size has a fate, and the shortest ones all open in the same way. -/
structure Meets
    (least size : Nat)
    (script : Script α)
    (shape : Shape) : Prop where
  opens : ∀ front, front.length = shape.before →
    Opens least script front shape.fillers shape.after shape.quiet
  fate : ∀ front, shape.before < front.length → front.length ≤ size →
    Fate least script front shape.after shape.quiet

namespace Meets

variable {least size before held : Nat} {fillers : List Filler} {quiet : TokenKind → Prop}

/-- The fate at a front that starts with enough tokens. -/
theorem fateOf
    {front : List Token}
    (fits : front.length ≤ size)
    (some : before ≤ front.length)
    (meets : Meets least size script ⟨before, fillers, held, quiet⟩) :
    Fate least script front held quiet := by
  rcases Nat.eq_or_lt_of_le some with isShortest | longer
  · exact .opens _ (meets.opens front isShortest.symm)
  · exact meets.fate front longer fits

theorem calmer
    (meets : Meets least size script ⟨before, fillers, held, calm⟩)
    (isCalm : ∀ kind, quiet kind → calm kind) :
    Meets least size script ⟨before, fillers, held, quiet⟩ := by
  have opens {front : List Token} {some : List Filler}
      (opens : Opens least script front some held calm) :
      Opens least script front some held quiet :=
    ⟨fun fill follower rest budget enough areFill isQuiet =>
      opens.completes fill follower rest budget enough areFill (isCalm _ isQuiet), opens.starves⟩
  refine ⟨fun front isShortest => opens (meets.opens front isShortest), fun front longer fits => ?_⟩
  cases meets.fate front longer fits with
  | gives value stop isSuffix isHeld gives => exact .gives value stop isSuffix isHeld gives
  | fails failure notDeep fails => exact .fails failure notDeep fails
  | opens some isOpen => exact .opens some (opens isOpen)

theorem pure (value : α) :
    Meets least size (pure value) ⟨held, [], held, quiet⟩ where
  opens := fun _ isHeld => .pure value isHeld
  fate := fun _ longer _ => .pure value (Nat.le_of_lt longer)

theorem bind
    (firstMeets : Meets least size first ⟨before, fillers, between, calm⟩)
    (laterMeets : ∀ value, Meets least size (later value) ⟨between, more, held, quiet⟩)
    (leads : Leads quiet calm more) :
    Meets least size (first >>= later) ⟨before, fillers ++ more, held, quiet⟩ where
  opens := fun front isShortest => (firstMeets.opens front isShortest).bind
    (fun value stop isBetween => (laterMeets value).opens stop isBetween) leads
  fate := fun front longer fits => (firstMeets.fate front longer fits).bind
    (fun value _ some shorter => fateOf (Nat.le_trans shorter fits) some (laterMeets value))
    (fun value stop isBetween => (laterMeets value).opens stop isBetween) leads

theorem advance
    {later : Unit → Script α}
    (meets : Meets least (size - 1) (later ()) ⟨before, fillers, held, quiet⟩) :
    Meets least size (advance >>= later) ⟨before + 1, fillers, held, quiet⟩ where
  opens := by
    intro front isShortest
    obtain ⟨token, rest, rfl⟩ := List.exists_cons_of_length_eq_add_one isShortest
    exact .advance (meets.opens rest (Nat.succ.inj isShortest))
  fate := by
    intro front longer fits
    cases front with
    | nil => exact absurd longer (Nat.not_lt_zero _)
    | cons token rest =>
        exact .advance (meets.fate rest (Nat.lt_of_succ_lt_succ longer) (Nat.le_sub_one_of_lt fits))

/-- A script that looks at the current token and meets the same shape whatever it is. -/
theorem current
    {later : Token → Script α}
    (meets : ∀ token, Meets least size (later token) ⟨before, fillers, held, quiet⟩) :
    Meets least size (current >>= later) ⟨before, fillers, held, quiet⟩ where
  opens := fun front isShortest => .current fun token => (meets token).opens front isShortest
  fate := by
    intro front longer fits
    cases front with
    | nil => exact absurd longer (Nat.not_lt_zero _)
    | cons token rest => exact .current ((meets token).fate _ longer fits)

/-- A script that starts on a token it has not seen. -/
theorem ofCurrent
    {later : Token → Script α}
    (opens : Opens least (Script.current >>= later) [] fillers held quiet)
    (fate : ∀ token rest, rest.length < size →
      Fate least (later token) (token :: rest) held quiet) :
    Meets least size (Script.current >>= later) ⟨0, fillers, held, quiet⟩ where
  opens := by
    intro front isShortest
    cases List.length_eq_zero_iff.mp isShortest
    exact opens
  fate := by
    intro front longer fits
    cases front with
    | nil => exact absurd longer (Nat.not_lt_zero _)
    | cons token rest => exact .current (fate token rest fits)

/-- A script that starts on a known token and looks at the next one. -/
theorem ofNext
    {later : Token → Script α}
    (opens : ∀ token, Opens least (next >>= later) [token] fillers held quiet)
    (fate : ∀ token following rest, rest.length + 1 < size →
      Fate least (later following) (token :: following :: rest) held quiet) :
    Meets least size (next >>= later) ⟨1, fillers, held, quiet⟩ where
  opens := by
    intro front isShortest
    obtain ⟨token, rfl⟩ := List.length_eq_one_iff.mp isShortest
    exact opens token
  fate := by
    intro front longer fits
    match front with
    | [] | [_] => simp at longer
    | token :: following :: rest => exact .next (fate token following rest fits)

theorem take
    (filler : Filler)
    (isFiller : filler.kind = kind)
    (others : List Filler)
    (takenMeets : ∀ token, token.kind = kind →
      Meets least (size - 1) (taken token) ⟨1, fillers, held, quiet⟩)
    (passedMeets : ∀ token, Meets least size (passed token) ⟨1, others, held, quiet⟩) :
    Meets least size
      (Script.next >>= fun token =>
        if token.kind = kind then Script.advance >>= fun _ => taken token else passed token)
      ⟨1, filler :: fillers, held, quiet⟩ := by
  refine ofNext (fun token => .take filler isFiller ?_ ?_) fun token following rest fits => ?_
  · exact fun following other isKind => ((takenMeets following isKind).opens [other] rfl).completes
  · exact fun dead isDead => ((passedMeets dead).opens [token] rfl).starves dead isDead
  · split
    · rename_i isKind
      exact .advance (fateOf (Nat.le_sub_one_of_lt fits) (Nat.le_add_left 1 _)
        (takenMeets following isKind))
    · exact fateOf fits (Nat.le_add_left 1 _) (passedMeets following)

theorem skip
    (lives : isLiving kind = true)
    (leads : Leads quiet (· ≠ kind) fillers)
    (others : List Filler)
    (takenMeets : ∀ token, token.kind = kind →
      Meets least (size - 1) (taken token) ⟨1, others, held, quiet⟩)
    (passedMeets : ∀ token, Meets least size (passed token) ⟨1, fillers, held, quiet⟩) :
    Meets least size
      (Script.next >>= fun token =>
        if token.kind = kind then Script.advance >>= fun _ => taken token else passed token)
      ⟨1, fillers, held, quiet⟩ := by
  refine ofNext (fun token => .skip lives leads ?_) fun token following rest fits => ?_
  · exact fun following => (passedMeets following).opens [token] rfl
  · split
    · rename_i isKind
      exact .advance (fateOf (Nat.le_sub_one_of_lt fits) (Nat.le_add_left 1 _)
        (takenMeets following isKind))
    · exact fateOf fits (Nat.le_add_left 1 _) (passedMeets following)

end Meets

end ScriptEngine.Parser
