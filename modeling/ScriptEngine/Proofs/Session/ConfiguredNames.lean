import ScriptEngine.Proofs.Machine.Scoping
import ScriptEngine.Proofs.Program.Rereading
import ScriptEngine.Proofs.Session.ErrorPlaces
import ScriptEngine.Proofs.Token.Alone

namespace ScriptEngine

/-!
# Names of the settings in scripts

Settings bind names in the global scope of a session.  What may be such a name is said by a
rule of its own, which knows letters, digits and two marks, but no reserved words.  A name
that passes is scanned as one word.  If the word is not reserved, it is the name of a variable,
and a script that consists of it gives what the settings bound to it.  The one exception is
`undefined`, which is no variable to the compiler.  A reserved word is never looked up.
-/

namespace Token

/-- The only token of a text that is one word in ASCII. -/
def ofWord (word : String) : Token :=
  ⟨TokenKind.ofName word, word, 1, 1, 0, word.length, false, none⟩

/-- The end of the input behind a word in ASCII. -/
def endBehind (word : String) : Token :=
  ⟨.endOfInput, "", 1, word.length + 1, word.length, word.length, false, none⟩

/-- Characters of one unit without a line feed move a place along its line. -/
theorem Place.past_singles
    {taken : List Char}
    (singles : ∀ char ∈ taken, char.utf8Size = 1 ∧ char ≠ '\n')
    (place : Place) :
    place.past Char.utf8Size taken =
      ⟨place.offset + taken.length, place.line, place.column + taken.length⟩ := by
  induction taken generalizing place with
  | nil => rfl
  | cons char rest inductionHypothesis =>
      obtain ⟨⟨single, notFeed⟩, restSingle⟩ := List.forall_mem_cons.mp singles
      have step : place.step Char.utf8Size char =
          ⟨place.offset + 1, place.line, place.column + 1⟩ := by
        rw [Place.step, if_neg notFeed, single]
      change (place.step Char.utf8Size char).past Char.utf8Size rest = _
      rw [inductionHypothesis restSingle, step, List.length_cons]
      simp only [Place.mk.injEq, true_and]
      omega

/-- A text of name characters in ASCII is scanned as one word. -/
theorem scan_of_word
    {word : String}
    {first : Char}
    {others : List Char}
    (isText : word.toList = first :: others)
    (starts : isNameStart first = true)
    (goesOn : ∀ char ∈ others, isNameRest char = true)
    (singles : ∀ char ∈ word.toList, char.utf8Size = 1 ∧ char ≠ '\n') :
    scan word = [ofWord word, endBehind word] := by
  have allRest : ∀ char ∈ first :: others, isNameRest char = true :=
    List.forall_mem_cons.mpr ⟨by simp [isNameRest, starts], goesOn⟩
  have isLexeme : lexeme none word.toList =
      ⟨TokenKind.ofName word, word, word.toList, [], none⟩ := by
    have isTaken : word.toList.takeWhile isNameRest = word.toList :=
      List.takeWhile_eq_self_iff.mpr (isText ▸ allRest)
    have isRest : word.toList.dropWhile isNameRest = [] :=
      List.dropWhile_eq_nil_iff.mpr (isText ▸ allRest)
    rw [isText, lexeme_of_isNameStart none starts, ← isText, nameLexeme, isTaken, isRest,
      String.ofList_toList]
  have isGap : gapFrom .between word.toList = ⟨[], word.toList, false, true⟩ := by
    rw [isText]
    exact gapFrom_startsOperand (startsOperand_of_isNameRest (allRest first (.head others))) others
  have isFirst : next Char.utf8Size none .origin word.toList =
      (ofWord word, ⟨word.length, 1, word.length + 1⟩, []) := by
    have isPlace := Place.past_singles singles .origin
    simp only [next, isGap, isLexeme]
    simp only [Place.past, List.foldl_nil] at isPlace ⊢
    rw [isPlace]
    simp [ofWord, Place.origin, String.length_toList, Nat.add_comm 1]
  have notEnd : (ofWord word).kind ≠ .endOfInput := fun isEnd => by
    have notMark := isMark_ofName word
    rw [show TokenKind.ofName word = .endOfInput from isEnd] at notMark
    cases notMark
  unfold scan scanChars
  rw [scanFrom, isFirst]
  simp only [if_neg notEnd]
  rw [isText, List.length_cons, scanFrom]
  rfl

end Token

/-! ## The rule of the settings -/

namespace Settings

theorem isNameStart_of_isIdentifierStart {char : Char} (starts : isIdentifierStart char = true) :
    Token.isNameStart char = true := by
  delta Token.isNameStart Char.isAlpha Char.isUpper Char.isLower
  simp only [isIdentifierStart, Char.le_def, Bool.or_eq_true, Bool.and_eq_true,
    decide_eq_true_eq, ge_iff_le] at starts ⊢
  tauto

theorem isNameRest_of_isIdentifierPart {char : Char} (isPart : isIdentifierPart char = true) :
    Token.isNameRest char = true := by
  simp only [isIdentifierPart, Token.isNameRest, Char.isDigit, Char.le_def, Bool.or_eq_true,
    Bool.and_eq_true, decide_eq_true_eq, ge_iff_le] at isPart ⊢
  exact isPart.imp_left isNameStart_of_isIdentifierStart

/-- A character of an identifier is ASCII and no line feed. -/
theorem single_of_isIdentifierPart {char : Char} (isPart : isIdentifierPart char = true) :
    char.utf8Size = 1 ∧ char ≠ '\n' := by
  constructor
  · simp only [isIdentifierPart, isIdentifierStart, Char.le_def, UInt32.le_iff_toNat_le,
      Bool.or_eq_true, Bool.and_eq_true, decide_eq_true_eq, beq_iff_eq] at isPart
    rw [Char.utf8Size_eq_one_iff, UInt32.le_iff_toNat_le]
    obtain (((rfl | rfl) | ⟨-, below⟩) | ⟨-, below⟩) | ⟨-, below⟩ := isPart
    · decide
    · decide
    · exact Nat.le_trans below (by decide)
    · exact Nat.le_trans below (by decide)
    · exact Nat.le_trans below (by decide)
  · rintro rfl
    revert isPart
    decide

/-- What the settings take for an identifier is scanned as one word. -/
theorem scan_of_isIdentifier {name : String} (valid : isIdentifier name = true) :
    Token.scan name = [Token.ofWord name, Token.endBehind name] := by
  unfold isIdentifier at valid
  split at valid
  · cases valid
  · rename_i first others isText
    obtain ⟨starts, goesOn⟩ := Bool.and_eq_true_iff.mp valid
    rw [List.all_eq_true] at goesOn
    have areParts : ∀ char ∈ name.toList, isIdentifierPart char = true := by
      rw [isText]
      exact List.forall_mem_cons.mpr ⟨by simp [isIdentifierPart, starts], goesOn⟩
    exact Token.scan_of_word isText (isNameStart_of_isIdentifierStart starts)
      (fun char member => isNameRest_of_isIdentifierPart (goesOn char member))
      fun char member => single_of_isIdentifierPart (areParts char member)

end Settings

/-! ## Scripts of one word -/

namespace TokenKind

/-- A word is a name exactly if it is not reserved. -/
theorem ofName_eq_identifier_iff (name : String) :
    ofName name = identifier ↔ isReserved name = false := by
  have words : ∀ entry ∈ reservedWords, entry.2 ≠ identifier := by decide
  unfold ofName isReserved
  cases found : reservedWords.lookup name with
  | none => simp
  | some kind =>
      obtain ⟨front, back, isSplit, -⟩ := List.lookup_eq_some_iff.mp found
      have notName := words (name, kind) (by simp [isSplit])
      simpa using notName

end TokenKind

namespace Program

open ScriptEngine.Parser

/-- A text that is scanned as one name is the program that reads the variable. -/
theorem parse_name
    {source : Source}
    {token last : Token}
    (scanned : Token.scan source.content = [token, last])
    (isName : token.kind = .identifier)
    (isEnd : last.kind = .endOfInput) :
    (parse source).errors = [] ∧
      (parse source).program = ⟨[.expression token (.name token)], source⟩ := by
  have isLowest : Precedence.ofKind last.kind = .lowest := by
    rw [isEnd]
    rfl
  have notColon : last.kind ≠ .colon := by
    rw [isEnd]
    decide
  have rereads : Rereads [token] token (.name token) 13 := by
    refine rereads_leaf (by rw [isName]; rfl) fun follow => .current ?_
    simp only [isName, unaryOperator?, updateOperator?]
    exact .pure _
  have opens : OpensStatement [token] :=
    ⟨token, [], rfl, by rw [isName]; decide, fun isFunction => by
      rw [isName] at isFunction
      cases isFunction⟩
  obtain ⟨start, isStart, yields⟩ := rereads.statement (by decide) opens isLowest notColon
    (endStatement_endOfInput isEnd)
  obtain rfl : token = start := by simpa using isStart
  have follows : Follows (budget [token, last].length) (.ofTokens [token, last])
      [.expression token (.name token)] (.ofTokens [last]) :=
    follows_cons (by rw [isName]; decide) (List.cons_ne_nil last [])
      (yields _ (by simp [budget])) (.none _)
  have isParsed := @ofTokens_of_follows source _ _ _ (by simp) follows isEnd
  unfold parse Parsed.errors Parsed.failures
  rw [scanned, isParsed]
  exact ⟨rfl, rfl⟩

/-- What is wrong with a text is known from its tokens. -/
theorem parse_errors_eq_nil_iff (source : Source) :
    (parse source).errors = [] ↔
      (ofTokens default (Token.scan source.content)).failures = [] := by
  rw [Parsed.errors, List.map_eq_nil_iff]
  rfl

end Program

/-! ## What such a script gives -/

namespace Session

variable {session : Session} {options : DumpOptions} {source : Source}

/-- A text that is no program fails in every session in the same way. -/
theorem run_of_errors (refused : (Program.parse source).errors ≠ []) :
    (session.run options source).1 = .error (Program.parse source).errors := by
  have isRefused : (!(Program.parse source).errors.isEmpty) = true := by simpa using refused
  unfold run
  simp only [isRefused, if_true]

/-- A source that compiles gives what its code gives. -/
theorem run_of_ok
    {code : Code}
    {value : Value}
    {after : Machine}
    (parsed : (Program.parse source).errors = [])
    (compiled : Code.ofProgram session.assertions (Program.parse source).program = .ok code)
    (ran : code.run { session.machine with output := "" } = .ok value after) :
    (session.run options source).1 = .ok value := by
  unfold run runCode
  simp only [parsed, compiled, ran, List.isEmpty_nil, Bool.not_true, Bool.false_eq_true,
    ↓reduceIte]

/-- A program that does not compile ends in what is wrong with it. -/
theorem run_of_refused
    {error : ScriptError}
    (parsed : (Program.parse source).errors = [])
    (refused : Code.ofProgram session.assertions (Program.parse source).program = .error error) :
    (session.run options source).1 = .error [error] := by
  unfold run
  simp only [parsed, refused, List.isEmpty_nil, Bool.not_true, Bool.false_eq_true, ↓reduceIte]

/-- A program of one name is lowered to reading the variable, or to a constant. -/
theorem lower_name (assertions : Bool) (token : Token) (source : Source) :
    Code.ofProgram assertions ⟨[.expression token (.name token)], source⟩ =
      .ok ⟨[], [.evaluate (if token.literal = "undefined" then .constant .undefined
        else .read (.variable token.literal) (token.position source))]⟩ := by
  unfold Code.ofProgram Code.ofStatements
  simp only [Statement.lowerAll, Statement.lower, Expression.assertion?, Expression.lower]
  rfl

/-- A name is looked up in the global scope, unless it is `undefined`. -/
theorem run_name
    {token last : Token}
    (scanned : Token.scan source.content = [token, last])
    (isName : token.kind = .identifier)
    (isEnd : last.kind = .endOfInput) :
    (token.literal = "undefined" → (session.run options source).1 = .ok .undefined) ∧
      (token.literal ≠ "undefined" → ∀ value,
        session.machine.scopes.lookup? session.machine.global token.literal = some value →
        (session.run options source).1 = .ok value) := by
  obtain ⟨noErrors, isProgram⟩ := Program.parse_name scanned isName isEnd
  have lowered := lower_name session.assertions token source
  rw [← isProgram] at lowered
  constructor
  · intro isUndefined
    rw [if_pos isUndefined] at lowered
    exact run_of_ok noErrors lowered rfl
  · intro notUndefined value bound
    rw [if_neg notUndefined] at lowered
    have read : Term.eval ⟨Run.callUpTo Run.unlimited, Run.unlimited, .undefined⟩
        session.machine.global (.read (.variable token.literal) (token.position source))
        { session.machine with output := "" } =
          .ok value { session.machine with output := "" } := by
      simp only [Term.eval, Place.eval, pure_bind, Run.locate, Scopes.readReference_variable,
        bound]
    have evaluated : (do pure (Completion.normal (← Term.eval _ _ _)) : Run Completion) _ =
        .ok (.normal value) _ := Run.bind_of_ok read
    have ran :
        Code.run ⟨[], [.evaluate (.read (.variable token.literal) (token.position source))]⟩
          { session.machine with output := "" } = .ok value _ :=
      Run.bind_of_ok evaluated
    exact run_of_ok noErrors lowered ran

/-- The reserved words that are programs by themselves. -/
def wordPrograms : List String := ["this", "true", "false", "return", "break", "continue"]

/-- A reserved word means the same in every session: it is no program, it does not compile, or
it has a value of its own. -/
theorem run_reserved (isReserved : TokenKind.isReserved source.content = true) (other : Session) :
    (other.run options source).1 = (session.run options source).1 := by
  have words : ∀ entry ∈ TokenKind.reservedWords,
      entry.1 ∈ wordPrograms ∨
        (Program.ofTokens default (Token.scan entry.1)).failures.isEmpty = false := by
    decide +kernel
  obtain ⟨name, path, word⟩ := source
  have parsed (valid : Settings.isIdentifier word = true) :
      Program.parse ⟨name, path, word⟩ =
        Program.ofTokens ⟨name, path, word⟩ [Token.ofWord word, Token.endBehind word] :=
    congrArg (Program.ofTokens _) (Settings.scan_of_isIdentifier valid)
  have same (value : Value)
      (gives : ∀ one : Session, (one.run options ⟨name, path, word⟩).1 = .ok value) :
      (other.run options ⟨name, path, word⟩).1 = (session.run options ⟨name, path, word⟩).1 :=
    (gives other).trans (gives session).symm
  have fails (fault : LoweringFault)
      (gives : ∀ one : Session, (one.run options ⟨name, path, word⟩).1 =
        .error [⟨.lowering fault, some ((Token.ofWord word).position ⟨name, path, word⟩)⟩]) :
      (other.run options ⟨name, path, word⟩).1 = (session.run options ⟨name, path, word⟩).1 :=
    (gives other).trans (gives session).symm
  rcases words _ (Token.ofName_mem_reservedWords isReserved) with isProgram | notProgram
  · simp only [wordPrograms, List.mem_cons, List.not_mem_nil, or_false] at isProgram
    obtain rfl | rfl | rfl | rfl | rfl | rfl := isProgram
    all_goals
      have isParsed := parsed (by decide)
    · exact same .undefined fun one =>
        run_of_ok (by rw [isParsed]; rfl) (by rw [isParsed]; rfl) rfl
    · exact same (.boolean true) fun one =>
        run_of_ok (by rw [isParsed]; rfl) (by rw [isParsed]; rfl) rfl
    · exact same (.boolean false) fun one =>
        run_of_ok (by rw [isParsed]; rfl) (by rw [isParsed]; rfl) rfl
    · exact same .undefined fun one =>
        run_of_ok (by rw [isParsed]; rfl) (by rw [isParsed]; rfl) rfl
    · exact fails .illegalBreak fun one =>
        run_of_refused (by rw [isParsed]; rfl) (by rw [isParsed]; rfl)
    · exact fails .illegalContinue fun one =>
        run_of_refused (by rw [isParsed]; rfl) (by rw [isParsed]; rfl)
  · have refused : (Program.parse ⟨name, path, word⟩).errors ≠ [] := fun noErrors => by
      rw [(Program.parse_errors_eq_nil_iff _).mp noErrors] at notProgram
      cases notProgram
    rw [run_of_errors refused, run_of_errors refused]

end Session

/-! ## The global scope of a session -/

namespace Machine

/-- A machine after changes of its heap only. -/
def DiffersInHeap (machine next : Machine) : Prop := next = { machine with heap := next.heap }

/-- Only the global scope has been made. -/
def HasOneScope (machine : Machine) : Prop :=
  machine.global = 0 ∧ ∃ bindings, machine.scopes = #[⟨bindings, none, true⟩]

variable {machine next : Machine}

theorem DiffersInHeap.trans
    {last : Machine}
    (first : machine.DiffersInHeap next)
    (second : next.DiffersInHeap last) :
    machine.DiffersInHeap last := by
  unfold DiffersInHeap at *
  rw [second, first]

theorem HasOneScope.differsInHeap
    (hasOne : machine.HasOneScope)
    (differs : machine.DiffersInHeap next) :
    next.HasOneScope := by
  rw [differs]
  exact hasOne

theorem HasOneScope.declare (hasOne : machine.HasOneScope) (name : String) (value : Value) :
    (machine.declare name value).HasOneScope := by
  obtain ⟨isGlobal, bindings, isScopes⟩ := hasOne
  refine ⟨isGlobal, bindings.set name value, ?_⟩
  rw [Machine.declare, isGlobal, isScopes]
  rfl

/-- A name declared in a global scope without others is found there; other names mean what they
meant. -/
theorem HasOneScope.lookup?_declare (hasOne : machine.HasOneScope) (name : String) (value : Value) :
    (machine.declare name value).scopes.lookup? 0 name = some value ∧
      ∀ other ≠ name,
        (machine.declare name value).scopes.lookup? 0 other = machine.scopes.lookup? 0 other := by
  obtain ⟨isGlobal, bindings, isScopes⟩ := hasOne
  have declared : (machine.declare name value).scopes =
      #[⟨bindings.set name value, none, true⟩] := by
    rw [Machine.declare, isGlobal, isScopes]
    rfl
  have found (bindings : Bindings) (other : String) :
      Scopes.lookup? #[⟨bindings, none, true⟩] 0 other = bindings.get? other := by
    simp only [Scopes.lookup?, Scopes.lookupFrom]
    cases isFound : bindings.get? other <;> simp [isFound]
  refine ⟨?_, fun other isOther => ?_⟩
  · rw [declared, found, Bindings.get?_set_self]
  · rw [declared, isScopes, found, found, Bindings.get?_set_other isOther]

theorem makeMember_differsInHeap (machine : Machine) (member : Member) :
    machine.DiffersInHeap (machine.makeMember member).2 := by
  cases member <;> rfl

theorem HasOneScope.addMembers (hasOne : machine.HasOneScope) (id : Nat) (members : List Member) :
    (members.foldl (addMember id) machine).HasOneScope :=
  List.foldlRecOn members (addMember id) hasOne fun machine hasOne member _ =>
    hasOne.differsInHeap ((makeMember_differsInHeap machine member).trans rfl)

/-- Installing a part of the library makes no scope. -/
theorem HasOneScope.install (hasOne : machine.HasOneScope) (part : LibraryPart) :
    (machine.install part).HasOneScope := by
  unfold Machine.install
  split
  · rename_i members _
    exact List.foldlRecOn members addGlobal hasOne fun machine hasOne member _ =>
      (hasOne.differsInHeap (makeMember_differsInHeap machine member)).declare _ _
  · rename_i members _
    refine HasOneScope.declare (HasOneScope.addMembers (hasOne.differsInHeap ?_) _ members) _ _
    rfl
  · rename_i prototype constructor methods members _
    have withMethods := hasOne.addMembers prototype (methods.map Member.function)
    refine HasOneScope.declare (HasOneScope.addMembers (withMethods.differsInHeap ?_) _ members) _ _
    rfl

theorem hasOneScope_realm (maxDepth : Nat) : (realm maxDepth).HasOneScope :=
  List.foldlRecOn LibraryPart.standard Machine.install ⟨rfl, _, rfl⟩ fun _ hasOne part _ =>
    hasOne.install part

end Machine

/-- Data of the host becomes values by changes of the heap. -/
theorem Data.toValue_differsInHeap
    {data : Data}
    {machine after : Machine}
    {value : Value}
    (made : data.toValue machine = .ok (value, after)) :
    machine.DiffersInHeap after :=
  Data.toValue_keeps (fun _ _ _ differs => differs.trans rfl)
    (show machine.DiffersInHeap machine from rfl) made

/-! ## What settings bind -/

namespace Settings

variable {machine after : Machine} {settings : Settings} {session : Session}

/-- A value is what settings bind a name to: the last entry of the name has it in the realm with
the entries before. -/
def Binds (settings : Settings) (name : String) (value : Value) : Prop :=
  ∃ front data back before after,
    settings.globals = front ++ .mk name data :: back ∧
      name ∉ back.map DataEntry.name ∧
      bindGlobals (Machine.realm settings.maxCallDepth.toNat) front = .ok before ∧
      data.toValue before = .ok (value, after)

/-- Entries keep the machine at one scope, and names that are not theirs. -/
theorem bindGlobals_keeps
    {entries : List DataEntry}
    (hasOne : machine.HasOneScope)
    (bound : bindGlobals machine entries = .ok after) :
    after.HasOneScope ∧ ∀ name ∉ entries.map DataEntry.name,
      after.scopes.lookup? 0 name = machine.scopes.lookup? 0 name := by
  induction entries generalizing machine with
  | nil =>
      cases bound
      exact ⟨hasOne, fun _ _ => rfl⟩
  | cons entry rest inductionHypothesis =>
      rw [bindGlobals] at bound
      split at bound
      · cases bound
      · rename_i value middle isValue
        have differs := Data.toValue_differsInHeap isValue
        have isOne := hasOne.differsInHeap differs
        have kept := (isOne.lookup?_declare entry.name value).2
        obtain ⟨last, others⟩ := inductionHypothesis (isOne.declare entry.name value) bound
        refine ⟨last, fun name notNamed => ?_⟩
        obtain ⟨notFirst, notRest⟩ := not_or.mp (mt List.mem_cons.mpr notNamed)
        rw [others name notRest, kept name notFirst, differs]

/-- Entries are bound one after the other. -/
theorem bindGlobals_append (machine : Machine) (front back : List DataEntry) :
    bindGlobals machine (front ++ back) =
      (do bindGlobals (← bindGlobals machine front) back) := by
  induction front generalizing machine with
  | nil => rfl
  | cons entry rest inductionHypothesis =>
      rw [List.cons_append, bindGlobals, bindGlobals]
      cases entry.value.toValue machine with
      | error fault => rfl
      | ok made => exact inductionHypothesis _

/-- A list has a last entry of every name it has. -/
theorem exists_last_entry
    {name : String}
    {entries : List DataEntry}
    (isNamed : name ∈ entries.map DataEntry.name) :
    ∃ front data back, entries = front ++ .mk name data :: back ∧
      name ∉ back.map DataEntry.name := by
  induction entries with
  | nil => cases isNamed
  | cons entry rest inductionHypothesis =>
      by_cases later : name ∈ rest.map DataEntry.name
      · obtain ⟨front, data, back, rfl, isLast⟩ := inductionHypothesis later
        exact ⟨entry :: front, data, back, rfl, isLast⟩
      · obtain ⟨own, data⟩ := entry
        obtain rfl : name = own := (List.mem_cons.mp isNamed).resolve_right later
        exact ⟨[], data, rest, rfl, later⟩

/-- A session that could be started has every name of its settings in the global scope. -/
theorem exists_binds
    {name : String}
    (started : Session.start settings = .ok session)
    (isNamed : name ∈ settings.globals.map DataEntry.name) :
    ∃ value, settings.Binds name value ∧
      session.machine.scopes.lookup? session.machine.global name = some value := by
  have bound : settings.realm = .ok session.machine := by
    unfold Session.start at started
    split at started <;> cases started
    assumption
  obtain ⟨front, data, back, isSplit, isLast⟩ := exists_last_entry isNamed
  rw [realm, isSplit, bindGlobals_append] at bound
  cases isFront : bindGlobals (Machine.realm settings.maxCallDepth.toNat) front with
  | error fault =>
      rw [isFront] at bound
      cases bound
  | ok before =>
      rw [isFront] at bound
      change bindGlobals before (.mk name data :: back) = _ at bound
      rw [bindGlobals] at bound
      split at bound
      · cases bound
      · rename_i value middle isValue
        have isOne := (bindGlobals_keeps (Machine.hasOneScope_realm _) isFront).1.differsInHeap
          (Data.toValue_differsInHeap isValue)
        have found := (isOne.lookup?_declare name value).1
        obtain ⟨last, others⟩ := bindGlobals_keeps (isOne.declare name value) bound
        refine ⟨value, ⟨front, data, back, before, middle, isSplit, isLast, isFront, isValue⟩, ?_⟩
        rw [last.1, others name isLast]
        exact found

/--
A name that settings may bind is scanned as one word.  It is a name to a script exactly if it is
not reserved.  A script that consists of it gives what the settings bind it to, unless it is
reserved, in which case no settings matter, or `undefined`, which is a constant.
-/
theorem configured_name_read_unless_reserved
    {name : String}
    (valid : isIdentifier name = true) :
    Token.scan name = [Token.ofWord name, Token.endBehind name] ∧
      ((Token.ofWord name).kind = .identifier ↔ TokenKind.isReserved name = false) ∧
      ∀ {settings : Settings} {session : Session} {source : Source},
        Session.start settings = .ok session → name ∈ settings.globals.map DataEntry.name →
        source.content = name → ∀ options,
          (TokenKind.isReserved name = false → name ≠ "undefined" →
            ∃ value, settings.Binds name value ∧ (session.run options source).1 = .ok value) ∧
          (name = "undefined" → (session.run options source).1 = .ok .undefined) ∧
          (TokenKind.isReserved name = true →
            ∀ other : Session, (other.run options source).1 = (session.run options source).1) := by
  have scanned := scan_of_isIdentifier valid
  have isName : (Token.ofWord name).kind = .identifier ↔ TokenKind.isReserved name = false :=
    TokenKind.ofName_eq_identifier_iff name
  refine ⟨scanned, isName, fun {settings session source} started isNamed isContent options => ?_⟩
  subst isContent
  refine ⟨fun notReserved notUndefined => ?_, fun isUndefined => ?_,
    fun isReserved other => Session.run_reserved isReserved other⟩
  · obtain ⟨value, binds, found⟩ := exists_binds started isNamed
    exact ⟨value, binds,
      (Session.run_name scanned (isName.mpr notReserved) rfl).2 notUndefined value found⟩
  · have notReserved : TokenKind.isReserved source.content = false := by
      rw [isUndefined]
      decide
    exact (Session.run_name scanned (isName.mpr notReserved) rfl).1 isUndefined

/-- Settings that bind the names `answer` and `if`. -/
def answering : Settings where
  globals := [.mk "answer" (.integer 42), .mk "if" (.integer 5)]

/-- Both names are valid.  `answer` is read, `if` is not a name to a script. -/
theorem configured_name_read_of_answer :
    answering.issues = [] ∧
      (∃ session, Session.start answering = .ok session ∧
        ∃ value, answering.Binds "answer" value ∧
          (session.run {} (Source.ofRepl "answer")).1 = .ok value) ∧
      (Token.ofWord "if").kind ≠ .identifier ∧
      Token.scan "if" = [Token.ofWord "if", Token.endBehind "if"] := by
  have valid : isIdentifier "answer" = true ∧ isIdentifier "if" = true := by decide
  obtain ⟨-, -, reads⟩ := configured_name_read_unless_reserved valid.1
  obtain ⟨scannedIf, isNameIf, -⟩ := configured_name_read_unless_reserved valid.2
  have started : ∃ session, Session.start answering = .ok session := ⟨_, rfl⟩
  obtain ⟨session, started⟩ := started
  refine ⟨by decide, ⟨session, started, ?_⟩, fun isName => ?_, scannedIf⟩
  · exact (reads started (by decide) rfl {}).1 (by decide) (by decide)
  · exact absurd (isNameIf.mp isName) (by decide)

end Settings

end ScriptEngine
