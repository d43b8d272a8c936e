import ScriptEngine.Proofs.Program.Fates
import ScriptEngine.Proofs.Program.Parsing
import ScriptEngine.Proofs.Token.ByteStrings

namespace ScriptEngine

/-!
# Every program is read or fails once

Reading a program comes to the end of input or to one failure, for every byte string.
The budget that it starts with is never the reason: the statements in front of the end
of input have their fates, one after the other.
-/

variable {last : Token}

namespace Parser

open Script (current next advance read)

/-! ## Programs by their fronts -/

/-- After some statements one cannot be read. -/
def FailsAfter
    (budget : Nat)
    (start : Cursor)
    (statements : List Statement)
    (failure : Failure) : Prop :=
  ∃ stop, Follows budget start statements stop ∧
    stop.current.kind ≠ .endOfInput ∧
    (read .statement).Fails (Task.answers budget) stop failure

/-- What becomes of a program that starts with the tokens of a front. -/
inductive ProgramFate (least : Nat) (front : List Token) : Prop where
  | fails (statements : List Statement) (failure : Failure) :
      statements.length ≤ front.length →
      failure.fault ≠ .tooDeep →
      (∀ tail budget, tail ≠ [] → least ≤ budget →
        FailsAfter budget (.ofTokens (front ++ tail)) statements failure) →
      ProgramFate least front
  | opens (fillers : List Filler) :
      (∀ fill last budget, least ≤ budget →
        fill.map Token.kind = fillers.map Filler.kind → last.kind = .endOfInput →
          ∃ statements, statements.length ≤ front.length ∧
            Follows budget (.ofTokens (front ++ fill ++ [last])) statements (.ofTokens [last])) →
      (∀ dead rest budget, least ≤ budget → IsDead dead →
        ∃ statements, statements.length ≤ front.length ∧
          (Follows budget (.ofTokens (front ++ dead :: rest)) statements
              (.ofTokens (dead :: rest)) ∨
            ∃ fault ≠ .tooDeep,
              FailsAfter budget (.ofTokens (front ++ dead :: rest)) statements ⟨dead, fault⟩)) →
      ProgramFate least front

section

variable {budget : Nat} {token : Token} {tokens : List Token} {first : Statement}
  {statements : List Statement}

section

variable {rest : List Token} (goesOn : token.kind ≠ .endOfInput) (some : rest ≠ [])
  (gives : (read .statement).Gives (Task.answers budget) (.ofTokens (token :: tokens)) first (.ofTokens (last :: rest)))

include goesOn some gives

theorem follows_cons
    {stop : Cursor}
    (follows : Follows budget (.ofTokens rest) statements stop) :
    Follows budget (.ofTokens (token :: tokens)) (first :: statements) stop := by
  refine .more (by rwa [Cursor.current_ofTokens]) gives ?_
  rwa [Cursor.advance_ofTokens last some]

theorem failsAfter_cons
    {failure : Failure}
    (fails : FailsAfter budget (.ofTokens rest) statements failure) :
    FailsAfter budget (.ofTokens (token :: tokens)) (first :: statements) failure := by
  obtain ⟨stop, follows, isEnd, failsThere⟩ := fails
  exact ⟨stop, follows_cons goesOn some gives follows, isEnd, failsThere⟩

end

theorem failsAfter_nil
    {failure : Failure}
    (goesOn : token.kind ≠ .endOfInput)
    (fails : (read .statement).Fails (Task.answers budget) (.ofTokens (token :: tokens)) failure) :
    FailsAfter budget (.ofTokens (token :: tokens)) [] failure :=
  ⟨_, .none _, by rwa [Cursor.current_ofTokens], fails⟩

end

/-- The statements at a front have their fates one after the other. -/
theorem program_fate
    {least : Nat}
    (front : List Token)
    (goesOn : ∀ token ∈ front, token.kind ≠ .endOfInput)
    (enough : 8 * front.length + 3 ≤ least) :
    ProgramFate least front := by
  match front with
  | [] =>
      refine .opens [] ?_ ?_
      · intro fill last budget _ areFill isEnd
        rw [List.map_eq_nil_iff.mp areFill]
        exact ⟨[], Nat.le_refl _, .none _⟩
      · intro dead rest budget _ isDead
        exact ⟨[], Nat.le_refl _, .inl (.none _)⟩
  | token :: others =>
      have firstGoesOn := goesOn token List.mem_cons_self
      have isSome : Task.statement.shape.before < (token :: others).length := Nat.succ_pos _
      cases read_fate .statement trivial isSome enough with
      | fails failure notDeep fails =>
          exact .fails [] failure (Nat.zero_le _) notDeep fun tail budget some isEnough =>
            failsAfter_nil firstGoesOn (fails tail budget some isEnough)
      | opens fillers opens =>
          refine .opens fillers ?_ ?_
          · intro fill last budget isEnough areFill isEnd
            have notElse : last.kind ≠ .elseWord := by
              rw [isEnd]
              nofun
            obtain ⟨first, stop, isOne, gives⟩ | ⟨_, isNone, _⟩ :=
              opens.completes fill last [] budget isEnough areFill notElse
            · obtain ⟨final, rfl⟩ := List.length_eq_one_iff.mp isOne
              exact ⟨[first], Nat.succ_pos _, follows_cons firstGoesOn (by simp) gives (.none _)⟩
            · cases isNone
          · intro dead rest budget isEnough isDead
            obtain ⟨first, stop, isOne, gives⟩ | ⟨token, isDead, fault, notDeep, fails⟩ :=
              opens.starves dead isDead rest budget isEnough
            · obtain ⟨final, rfl⟩ := List.length_eq_one_iff.mp isOne
              exact ⟨[first], Nat.succ_pos _, .inl
                (follows_cons firstGoesOn (by simp) gives (.none _))⟩
            · cases isDead
              exact ⟨[], Nat.zero_le _, .inr ⟨fault, notDeep, failsAfter_nil firstGoesOn fails⟩⟩
      | gives first stop isSuffix isHeld gives =>
          obtain ⟨last, rest, rfl⟩ := List.exists_cons_of_length_pos isHeld
          have restGoesOn : ∀ token ∈ rest, token.kind ≠ .endOfInput :=
            fun token member => goesOn token (isSuffix.subset (List.mem_cons_of_mem _ member))
          have shorter : rest.length < (token :: others).length := isSuffix.length_le
          cases program_fate rest restGoesOn (Nat.le_trans (by omega) enough) with
          | fails statements failure fewer notDeep fails =>
              refine .fails (first :: statements) failure (Nat.le_trans (Nat.succ_le_succ fewer)
                shorter) notDeep fun tail budget some isEnough => ?_
              exact failsAfter_cons firstGoesOn (by simp [some]) (gives tail budget some isEnough)
                (fails tail budget some isEnough)
          | opens fillers completes starves =>
              refine .opens fillers ?_ ?_
              · intro fill final budget isEnough areFill isEnd
                obtain ⟨statements, fewer, follows⟩ :=
                  completes fill final budget isEnough areFill isEnd
                refine ⟨first :: statements, Nat.le_trans (Nat.succ_le_succ fewer) shorter, ?_⟩
                rw [List.append_assoc] at follows ⊢
                exact follows_cons firstGoesOn (by simp) (gives _ budget (by simp) isEnough) follows
              · intro dead tail budget isEnough isDead
                obtain ⟨statements, fewer, outcome⟩ := starves dead tail budget isEnough isDead
                refine ⟨first :: statements, Nat.le_trans (Nat.succ_le_succ fewer) shorter, ?_⟩
                have givesFirst := gives (dead :: tail) budget (by simp) isEnough
                rcases outcome with follows | ⟨fault, notDeep, fails⟩
                · exact .inl (follows_cons firstGoesOn (by simp) givesFirst follows)
                · exact .inr ⟨fault, notDeep, failsAfter_cons firstGoesOn (by simp) givesFirst fails⟩
termination_by front.length
decreasing_by exact shorter

/-- Statements that follow each other are read in as many steps. -/
theorem statementsFrom_of_follows
    {budget : Nat}
    {start stop : Cursor}
    {statements : List Statement}
    (follows : Follows budget start statements stop)
    (steps : Nat)
    {reading : Reading}
    (isStart : reading.cursor = start) :
    statementsFrom (statements.length + steps) budget reading =
      (statements ++ (statementsFrom steps budget { reading with cursor := stop }).1,
        (statementsFrom steps budget { reading with cursor := stop }).2) := by
  induction follows generalizing reading with
  | none cursor =>
      subst isStart
      simp
  | @more start stop last first rest goesOn gives follows inductionHypothesis =>
      have isRun : Task.answers budget _ .statement reading = _ := gives reading isStart
      have later := @inductionHypothesis { reading with cursor := stop.advance } rfl
      have unfolded : (first :: rest).length + steps = (rest.length + steps) + 1 := by
        simp only [List.length_cons]
        omega
      rw [unfolded, statementsFrom, isStart, if_neg goesOn, isRun]
      simp only [Reading.advance, later, List.cons_append]

end Parser

namespace Program

open ScriptEngine.Parser
open Script (read)

variable {source : Source} {tokens : List Token} {statements : List Statement}

theorem ofTokens_of_follows
    {stop : Cursor}
    (fewer : statements.length ≤ tokens.length)
    (follows : Follows (budget tokens.length) (.ofTokens tokens) statements stop)
    (isEnd : stop.current.kind = .endOfInput) :
    ofTokens source tokens = ⟨⟨statements, source⟩, ⟨stop, [], false⟩⟩ := by
  obtain ⟨spare, isSpare⟩ := Nat.exists_eq_add_of_le fewer
  have steps : tokens.length + 1 = statements.length + (spare + 1) := by omega
  unfold ofTokens
  rw [steps, statementsFrom_of_follows follows (spare + 1) rfl, statementsFrom, if_pos isEnd]
  simp

theorem ofTokens_of_failsAfter
    {failure : Failure}
    (fewer : statements.length ≤ tokens.length)
    (fails : FailsAfter (budget tokens.length) (.ofTokens tokens) statements failure) :
    ∃ cursor, ofTokens source tokens =
      ⟨⟨statements, source⟩, ⟨cursor, [failure], failure.isIncomplete⟩⟩ := by
  obtain ⟨stop, follows, goesOn, failsThere⟩ := fails
  obtain ⟨spare, isSpare⟩ := Nat.exists_eq_add_of_le fewer
  have steps : tokens.length + 1 = statements.length + (spare + 1) := by omega
  obtain ⟨cursor, isRun⟩ := failsThere ⟨stop, [], false⟩ rfl
  have isRun : Task.answers (budget tokens.length) _ .statement ⟨stop, [], false⟩ = _ := isRun
  refine ⟨cursor, ?_⟩
  unfold ofTokens
  rw [steps, statementsFrom_of_follows follows (spare + 1) rfl, statementsFrom, if_neg goesOn, isRun]
  simp [Reading.record, Reading.failureLimit]

/--
How reading some tokens ends.  Either no failure is recorded, the statements follow each
other up to the last token, which is the end of input, and this is the current token; or
one failure is recorded, for another reason than the budget, and it is that of the
statement behind those that were read.  No part of a statement is missing either way.
-/
inductive Ends (tokens : List Token) (parsed : Parsed) : Prop where
  | well (last : Token) :
      tokens.getLast? = some last →
      last.kind = .endOfInput →
      parsed.failures = [] →
      parsed.last.cursor = .ofTokens [last] →
      Follows (budget tokens.length) (.ofTokens tokens) parsed.program.statements
        (.ofTokens [last]) →
      Statement.AllComplete parsed.program.statements →
      Ends tokens parsed
  | badly (failure : Failure) (stop : Cursor) :
      parsed.failures = [failure] →
      failure.fault ≠ .tooDeep →
      failure.token ∈ tokens →
      Follows (budget tokens.length) (.ofTokens tokens) parsed.program.statements stop →
      stop.current.kind ≠ .endOfInput →
      (read .statement).Fails (Task.answers (budget tokens.length)) stop failure →
      Statement.AllComplete parsed.program.statements →
      Ends tokens parsed

theorem ends_of_follows
    (isLast : tokens.getLast? = some last)
    (isEnd : last.kind = .endOfInput)
    (fewer : statements.length ≤ tokens.length)
    (follows : Follows (budget tokens.length) (.ofTokens tokens) statements (.ofTokens [last])) :
    Ends tokens (ofTokens source tokens) := by
  have made :=
    (@Follows.made (fun _ => True) _ _ _ _ follows ⟨trivial, trivial, fun _ _ => trivial⟩).1
  rw [ofTokens_of_follows fewer follows isEnd]
  exact .well last isLast isEnd rfl rfl follows made.complete

theorem ends_of_failsAfter
    {failure : Failure}
    (notDeep : failure.fault ≠ .tooDeep)
    (some : tokens ≠ [])
    (fewer : statements.length ≤ tokens.length)
    (fails : FailsAfter (budget tokens.length) (.ofTokens tokens) statements failure) :
    Ends tokens (ofTokens source tokens) := by
  have known := (known_ofTokens source some fun token (member : token ∈ tokens) => member).2
  obtain ⟨cursor, isParsed⟩ := @ofTokens_of_failsAfter source _ _ _ fewer fails
  obtain ⟨stop, follows, goesOn, failsThere⟩ := fails
  have made :=
    (@Follows.made (fun _ => True) _ _ _ _ follows ⟨trivial, trivial, fun _ _ => trivial⟩).1
  rw [isParsed] at known ⊢
  exact .badly failure stop rfl notDeep (known failure (List.mem_singleton.mpr rfl)) follows goesOn
    failsThere made.complete

/-- Reading tokens that end with the only end of input among them ends well or badly. -/
theorem ofTokens_ends
    {front : List Token}
    (goesOn : ∀ token ∈ front, token.kind ≠ .endOfInput)
    (isEnd : last.kind = .endOfInput)
    (isDead : IsDead last) :
    Ends (front ++ [last]) (ofTokens source (front ++ [last])) := by
  have isLast : (front ++ [last]).getLast? = some last := by simp
  have longer : front.length ≤ (front ++ [last]).length := by simp
  have enough : 8 * front.length + 3 ≤ budget (front ++ [last]).length := by
    unfold budget
    simp
    omega
  cases program_fate front goesOn (Nat.le_refl _) with
  | fails statements failure fewer notDeep fails =>
      exact ends_of_failsAfter notDeep (by simp) (Nat.le_trans fewer longer)
        (fails [last] _ (by simp) enough)
  | opens fillers completes starves =>
      obtain ⟨statements, fewer, follows | ⟨fault, notDeep, fails⟩⟩ :=
        starves last [] _ enough isDead
      · exact ends_of_follows isLast isEnd (Nat.le_trans fewer longer) follows
      · exact ends_of_failsAfter notDeep (by simp) (Nat.le_trans fewer longer) fails

/-- The end of input that a text is cut up to is taken by no reader. -/
theorem isDead_of_cut
    {width : Char → Nat}
    {text : List Char}
    {front : List Token}
    (cut : Token.Cut width [] text (front ++ [last]))
    (isEnd : last.kind = .endOfInput) :
    IsDead last := by
  obtain ⟨before, gap, covered, rest, -, lies, -⟩ := cut.lies rfl
  have isWritten := lies.written
  rw [isEnd, (lies.ends isEnd).1] at isWritten
  have isEmpty : last.literal = "" := String.toList_eq_nil_iff.mp isWritten.symm
  exact ⟨.inl isEnd, by rw [isEmpty]; decide⟩

theorem ends_of_cut
    {width : Char → Nat}
    {text : List Char}
    (cut : Token.Cut width [] text tokens) :
    Ends tokens (ofTokens source tokens) := by
  obtain ⟨front, last, rfl, isEnd, goesOn, -⟩ := cut.ends_once
  exact ofTokens_ends goesOn isEnd (isDead_of_cut cut isEnd)

end Program

/-! ## Readers -/

namespace Parser

open Script (read)

/-- The functions that read a statement, an expression or a part of one. -/
inductive Reader : {α : Type} → Script α → Prop where
  | task {α : Type} (task : Task α) : task.Given (fun _ => True) → Reader (read task)
  | operand : Reader operand
  | operator (token : Token) (left : Expression) : left.Complete → Reader (operator token left)
  | functionLiteral : Reader functionLiteral
  | expressionList (closing : TokenKind) : Reader (expressionList closing)
  | parameterList : Reader parameterList
  | constructorArguments : Reader constructorArguments
  | expressionStatement : Reader expressionStatement
  | blockBody : Reader blockBody
  | condition : Reader condition
  | body : Reader body
  | alternative : Reader alternative
  | forStatement (token : Token) : Reader (forStatement token)
  | forDeclared (token : Token) : Reader (forDeclared token)
  | forEvaluated (token first : Token) : Reader (forEvaluated token first)
  | forInRest (token : Token) (declares : Bool) : Reader (forInRest token declares)

/-- Where nothing has failed yet, a script gives nothing exactly when it has recorded a failure, and
then it has recorded one. -/
def FailsOnce (script : Script α) : Prop :=
  ∀ (budget : Nat) (before : Reading), before.failures = [] →
    ((script.run (Task.answers budget) before).1 = none ↔
        (script.run (Task.answers budget) before).2.failures ≠ []) ∧
      ((script.run (Task.answers budget) before).1 = none →
        ∃ failure, (script.run (Task.answers budget) before).2.failures = [failure])

theorem failsOnce_of_reads
    {script : Script α}
    {holds : α → Prop}
    (reads : ∀ budget, Reads (fun _ => True) (Task.answers budget) holds script) :
    FailsOnce script := by
  intro budget before noFailure
  rcases reads budget before.cursor ⟨trivial, trivial, fun _ _ => trivial⟩ with
    ⟨value, stop, gives, -, -⟩ | ⟨failure, fails, -⟩
  · rw [gives before rfl]
    simp [noFailure]
  · obtain ⟨stop, isRun⟩ := fails before rfl
    rw [isRun]
    simp [Reading.record, noFailure, Reading.failureLimit]

theorem Reader.failsOnce {script : Script α} (reader : Reader script) : FailsOnce script := by
  have calls (budget : Nat) : (Task.answers budget).Read (fun _ => True) := answers_read budget
  cases reader with
  | task task given => exact failsOnce_of_reads fun budget => calls budget task given
  | operand => exact failsOnce_of_reads fun budget => operand_reads (calls budget)
  | operator token left isComplete =>
      exact failsOnce_of_reads fun budget =>
        operator_reads (calls budget) trivial ⟨fun _ _ => trivial, isComplete⟩
  | functionLiteral => exact failsOnce_of_reads fun budget => functionLiteral_reads (calls budget)
  | expressionList closing =>
      exact failsOnce_of_reads fun budget => expressionList_reads (calls budget) closing
  | parameterList => exact failsOnce_of_reads fun budget => parameterList_reads (calls budget)
  | constructorArguments =>
      exact failsOnce_of_reads fun budget => constructorArguments_reads (calls budget)
  | expressionStatement =>
      exact failsOnce_of_reads fun budget => expressionStatement_reads (calls budget)
  | blockBody => exact failsOnce_of_reads fun budget => blockBody_reads (calls budget)
  | condition => exact failsOnce_of_reads fun budget => condition_reads (calls budget)
  | body => exact failsOnce_of_reads fun budget => body_reads (calls budget)
  | alternative => exact failsOnce_of_reads fun budget => alternative_reads (calls budget)
  | forStatement token =>
      exact failsOnce_of_reads fun budget => forStatement_reads (calls budget) trivial
  | forDeclared token =>
      exact failsOnce_of_reads fun budget => forDeclared_reads (calls budget) trivial
  | forEvaluated token first =>
      exact failsOnce_of_reads fun budget => forEvaluated_reads (calls budget) trivial trivial
  | forInRest token declares =>
      exact failsOnce_of_reads fun budget => forInRest_reads (calls budget) declares trivial

end Parser

namespace Program

/--
Reading any byte string, or any text, comes to its end or fails once, and every reader
gives nothing exactly when it has recorded the one failure.
-/
theorem parsing_ends_or_fails_once :
    (∀ source bytes, Ends (Token.scanBytes bytes) (ofTokens source (Token.scanBytes bytes))) ∧
      (∀ source : Source, Ends (Token.scan source.content) (parse source)) ∧
      ∀ {α : Type} (script : Parser.Script α), Parser.Reader script → Parser.FailsOnce script := by
  refine ⟨fun source bytes => ?_, fun source => ?_, fun script reader => reader.failsOnce⟩
  · exact ends_of_cut (Token.scanBytes_cut bytes)
  · exact ends_of_cut (Token.scanFrom_cut Char.utf8Size none [] (Nat.lt_succ_self _))

theorem parsing_fails_once_in_condition :
    let bytes := "x;if(".toByteArray.data.toList
    let parsed := ofTokens (Source.ofRepl "x;if(") (Token.scanBytes bytes)
    parsed.failures.length = 1 ∧ parsed.program.statements.length = 1 ∧
      Ends (Token.scanBytes bytes) parsed ∧ Parser.FailsOnce Parser.condition := by
  refine ⟨by decide +kernel, by decide +kernel, ?_, ?_⟩
  · exact parsing_ends_or_fails_once.1 _ _
  · exact parsing_ends_or_fails_once.2.2 _ .condition

end Program

end ScriptEngine
