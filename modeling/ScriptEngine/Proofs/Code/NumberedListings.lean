import ScriptEngine.Proofs.Code.References
import ScriptEngine.Proofs.Machine.Enumeration

namespace ScriptEngine

open Listing

/-!
# Listings with numbered functions

The listing of a program that was read from a text shows each function under a head with its
label and its parameters.  This module shows that the labels are consistent: the label of a
function is its place in the listing, a reference stands just where the program has the function,
and a function refers only to functions before it.
-/

/-! ## The functions of a program that was read -/

section

variable (assertions : Bool)

mutual

/-- The functions of an expression that was read were read, too. -/
theorem Expression.faithful_functions :
    ∀ expression : Expression, expression.IsFaithful →
      ∀ literal ∈ expression.functions assertions, literal.IsFaithful
  | .name _, _ | .number _ _, _ | .string _ _, _ | .boolean _ _, _ | .regex _ _ _, _
  | .this _, _ => nofun
  | .function literal, faithful => FunctionLiteral.faithful_functions literal faithful
  | .array _ elements, faithful => Expression.faithful_functionsOf elements faithful.2
  | .object _ properties, faithful => Property.faithful_functionsOf properties faithful.2
  | .unary _ _ operand, faithful | .typeof _ operand, faithful =>
      Expression.faithful_functions operand faithful.2
  | .delete _ target, faithful | .update _ _ _ target, faithful =>
      Expression.faithful_functions target faithful.2
  | .binary _ _ left right, faithful =>
      List.forall_mem_append.mpr ⟨Expression.faithful_functions left faithful.2.1,
        Expression.faithful_functions right faithful.2.2⟩
  | .assign _ _ target value, faithful =>
      List.forall_mem_append.mpr ⟨Expression.faithful_functions target faithful.2.2.1,
        Expression.faithful_functions value faithful.2.2.2⟩
  | .conditional _ condition consequence alternative, faithful =>
      List.forall_mem_append.mpr ⟨Expression.faithful_functions condition faithful.2.1,
        List.forall_mem_append.mpr ⟨Expression.faithful_functions consequence faithful.2.2.1,
          Expression.faithful_functions alternative faithful.2.2.2⟩⟩
  | .sequence _ first rest, faithful =>
      List.forall_mem_append.mpr ⟨Expression.faithful_functions first faithful.2.1,
        Expression.faithful_functionsOf rest faithful.2.2.2.2⟩
  | .call _ callee arguments, faithful =>
      List.forall_mem_append.mpr ⟨Expression.faithful_functionsOf arguments faithful.2.2,
        Expression.faithful_functions callee faithful.2.1⟩
  | .construct _ constructor arguments, faithful =>
      List.forall_mem_append.mpr ⟨Expression.faithful_functions constructor faithful.2.1,
        Expression.faithful_functionsOf arguments faithful.2.2⟩
  | .member _ base _, faithful => Expression.faithful_functions base faithful.2.1
  | .index _ base key, faithful =>
      List.forall_mem_append.mpr ⟨Expression.faithful_functions base faithful.2.1,
        Expression.faithful_functions key faithful.2.2⟩

theorem Expression.faithful_functionsOf :
    ∀ expressions : List Expression, Expression.AreFaithful expressions →
      ∀ literal ∈ Expression.functionsOf assertions expressions, literal.IsFaithful
  | [], _ => nofun
  | first :: rest, faithful =>
      List.forall_mem_append.mpr ⟨Expression.faithful_functions first faithful.1,
        Expression.faithful_functionsOf rest faithful.2⟩

theorem Expression.faithful_functionsOfOption :
    ∀ expression : Option Expression, Expression.OptionFaithful expression →
      ∀ literal ∈ Expression.functionsOfOption assertions expression, literal.IsFaithful
  | none, _ => nofun
  | some value, faithful => Expression.faithful_functions value faithful

theorem Property.faithful_functionsOf :
    ∀ properties : List Property, Property.AreFaithful properties →
      ∀ literal ∈ Property.functionsOf assertions properties, literal.IsFaithful
  | [], _ => nofun
  | .mk _ value :: rest, faithful =>
      List.forall_mem_append.mpr ⟨Expression.faithful_functions value faithful.2.1,
        Property.faithful_functionsOf rest faithful.2.2⟩

theorem FunctionLiteral.faithful_functions :
    ∀ outer : FunctionLiteral, outer.IsFaithful →
      ∀ literal ∈ outer.functions assertions, literal.IsFaithful
  | .mk _ _ _ body, faithful =>
      List.forall_mem_append.mpr ⟨Statement.faithful_functionsOf body faithful.2.2.2,
        fun _ member => (List.mem_singleton.mp member).symm ▸ faithful⟩

theorem Declarator.faithful_functionsOf :
    ∀ declarators : List Declarator, Declarator.AreFaithful declarators →
      ∀ literal ∈ Declarator.functionsOf assertions declarators, literal.IsFaithful
  | [], _ => nofun
  | .mk _ value :: rest, faithful =>
      List.forall_mem_append.mpr ⟨Expression.faithful_functionsOfOption value faithful.2.1,
        Declarator.faithful_functionsOf rest faithful.2.2⟩

theorem Clause.faithful_functionsOf :
    ∀ (hasDefault : Bool) (clauses : List Clause), Clause.AreFaithful hasDefault clauses →
      ∀ literal ∈ Clause.functionsOf assertions clauses, literal.IsFaithful
  | _, [], _ => nofun
  | _, .mk _ condition body :: rest, faithful =>
      List.forall_mem_append.mpr
        ⟨Expression.faithful_functionsOfOption condition faithful.2.2.1,
          List.forall_mem_append.mpr ⟨Statement.faithful_functionsOf body faithful.2.2.2.1,
            Clause.faithful_functionsOf _ rest faithful.2.2.2.2⟩⟩

theorem Statement.faithful_functions :
    ∀ statement : Statement, statement.IsFaithful →
      ∀ literal ∈ statement.functions assertions, literal.IsFaithful
  | .declare _ declarators, faithful => Declarator.faithful_functionsOf declarators faithful.2.2
  | .giveBack _ value, faithful => Expression.faithful_functionsOfOption value faithful.2
  | .expression _ value, faithful => by
      have all := Expression.faithful_functions value faithful
      rw [Statement.functions]
      split
      · exact nofun
      · exact all
  | .empty _, _ | .leave _ _, _ | .again _ _, _ => nofun
  | .block _ body, faithful => Statement.faithful_functionsOf body faithful.2
  | .branch _ condition consequence alternative, faithful =>
      List.forall_mem_append.mpr ⟨Expression.faithful_functions condition faithful.2.1,
        List.forall_mem_append.mpr ⟨Statement.faithful_functions consequence faithful.2.2.1,
          Statement.faithful_functionsOfOption alternative faithful.2.2.2.2⟩⟩
  | .whileLoop _ condition body, faithful =>
      List.forall_mem_append.mpr ⟨Expression.faithful_functions condition faithful.2.1,
        Statement.faithful_functions body faithful.2.2⟩
  | .forLoop _ start condition update body, faithful =>
      List.forall_mem_append.mpr ⟨Statement.faithful_functionsOfOption start faithful.2.2.1,
        List.forall_mem_append.mpr
          ⟨Expression.faithful_functionsOfOption condition faithful.2.2.2.1,
            List.forall_mem_append.mpr
              ⟨Expression.faithful_functionsOfOption update faithful.2.2.2.2.1,
                Statement.faithful_functions body faithful.2.2.2.2.2⟩⟩⟩
  | .forIn _ _ _ subject body, faithful =>
      List.forall_mem_append.mpr ⟨Expression.faithful_functions subject faithful.2.2.1,
        Statement.faithful_functions body faithful.2.2.2⟩
  | .labeled _ body, faithful => Statement.faithful_functions body faithful.2
  | .select _ subject clauses, faithful =>
      List.forall_mem_append.mpr ⟨Expression.faithful_functions subject faithful.2.1,
        Clause.faithful_functionsOf false clauses faithful.2.2⟩
  | .function _ literal, faithful => FunctionLiteral.faithful_functions literal faithful.2.2

theorem Statement.faithful_functionsOf :
    ∀ statements : List Statement, Statement.AreFaithful statements →
      ∀ literal ∈ Statement.functionsOf assertions statements, literal.IsFaithful
  | [], _ => nofun
  | first :: rest, faithful =>
      List.forall_mem_append.mpr ⟨Statement.faithful_functions first faithful.1,
        Statement.faithful_functionsOf rest faithful.2⟩

theorem Statement.faithful_functionsOfOption :
    ∀ statement : Option Statement, Statement.OptionFaithful statement →
      ∀ literal ∈ Statement.functionsOfOption assertions statement, literal.IsFaithful
  | none, _ => nofun
  | some statement, faithful => Statement.faithful_functions statement faithful

end

end

/-! ## The heads of functions -/

/-- A name without brackets and quotes. -/
def IsPlainName (name : String) : Prop := ∀ char ∈ name.toList, char ≠ '(' ∧ char ≠ '"'

theorem Token.IsVariable.isPlainName {token : Token} (isVariable : token.IsVariable) :
    IsPlainName token.literal := by
  obtain ⟨first, others, isText, starts⟩ := isVariable.isNaming.starts
  have isScanned := isVariable.isNaming.isScanned
  unfold IsScanned writing at isScanned
  rw [isVariable.isNaming.noQuote, isText, lexeme_of_isNameStart none starts] at isScanned
  have isTaken : (first :: others).takeWhile isNameRest = first :: others :=
    congrArg Lexeme.taken isScanned
  intro char member
  rw [isText, ← isTaken] at member
  have isName := List.all_eq_true.mp List.all_takeWhile char member
  refine ⟨?_, ?_⟩
  · rintro rfl
    cases isName
  · rintro rfl
    cases isName

/-- The names in the head of a function. -/
structure Routine.IsPlain (routine : Routine) : Prop where
  name : IsPlainName routine.name
  parameters : ∀ parameter ∈ routine.parameters, IsPlainName parameter

/-- What a function that was read becomes has plain names. -/
theorem FunctionLiteral.Becomes.isPlain
    {assertions : Bool}
    {place : FunctionLiteral × Nat}
    {routine : Routine}
    (becomes : Becomes assertions place routine)
    (faithful : place.1.IsFaithful) :
    routine.IsPlain := by
  obtain ⟨⟨token, name, parameters, body⟩, number⟩ := place
  refine ⟨?_, ?_⟩
  · rw [becomes.name]
    cases name with
    | none => exact nofun
    | some name => exact (faithful.2.1 name rfl).isPlainName
  · rw [becomes.parameters]
    intro parameter member
    obtain ⟨token, isParameter, rfl⟩ := List.mem_map.mp member
    exact (faithful.2.2.1 token isParameter).isPlainName

namespace Listing

theorem isPlainName_separated {names : List String} (arePlain : ∀ name ∈ names, IsPlainName name) :
    IsPlainName (separated ", " names) := by
  unfold separated
  induction names with
  | nil => exact nofun
  | cons first rest inductionHypothesis =>
      obtain ⟨isFirst, areRest⟩ := List.forall_mem_cons.mp arePlain
      cases rest with
      | nil =>
          rw [String.intercalate_singleton]
          exact isFirst
      | cons second others =>
          rw [String.intercalate_cons_cons]
          intro char member
          rw [String.toList_append, String.toList_append] at member
          rcases List.mem_append.mp member with isFront | isLater
          · rcases List.mem_append.mp isFront with isName | isComma
            · exact isFirst char isName
            · have all : ∀ char ∈ ", ".toList, char ≠ '(' ∧ char ≠ '"' := by simp
              exact all char isComma
          · exact inductionHypothesis areRest char isLater

/-- The head of a function refers to no function. -/
theorem refers_head
    (number : Nat)
    {name : String}
    {parameters : List String}
    (plainName : IsPlainName name)
    (plainParameters : ∀ parameter ∈ parameters, IsPlainName parameter) :
    Refers ("function " ++ applied (functionLabel number) parameters ++ " \x7b" ++
      (if name.isEmpty then "" else " // " ++ name) ++ "\n") [] := by
  have isWord : Refers "function " [] := fun _ => rfl
  have isLabel : Refers (functionLabel number) [] := by
    refine refers_of_forall_ne_c fun char member => ?_
    rcases isDigit_of_mem_functionLabel member with rfl | isDigit
    · decide
    · refine ⟨?_, ?_⟩ <;> exact fun same => absurd (same ▸ isDigit) (by decide)
  have isOpening : Refers "(" [] := fun _ => rfl
  have areParameters : Refers (separated ", " parameters ++ ")") [] :=
    refers_of_forall_ne (isPlainName_separated plainParameters) rfl (by decide) (by decide)
  have isBrace : Refers " \x7b" [] := fun _ => rfl
  have isName : Refers ((if name.isEmpty then "" else " // " ++ name) ++ "\n") [] := by
    split
    · exact fun _ => rfl
    · have isPlain : IsPlainName (" // " ++ name) := by
        intro char member
        rw [String.toList_append] at member
        rcases List.mem_append.mp member with isMark | isName
        · have all : ∀ char ∈ " // ".toList, char ≠ '(' ∧ char ≠ '"' := by simp
          exact all char isMark
        · exact plainName char isName
      exact refers_of_forall_ne isPlain rfl (by decide) (by decide)
  generalize (if name.isEmpty then "" else " // " ++ name) = comment at isName
  have isText : "function " ++ applied (functionLabel number) parameters ++ " \x7b" ++ comment ++
      "\n" = "function " ++ (functionLabel number ++ "(" ++ (separated ", " parameters ++ ")")) ++
        (" \x7b" ++ (comment ++ "\n")) := by
    rw [applied]
    simp only [String.append_assoc]
  rw [isText]
  exact (isWord.append ((isLabel.append isOpening).append areParameters)).append
    (isBrace.append isName)

end Listing

/-- The listing of a function refers to the functions its body mentions. -/
theorem Routine.refers {routine : Routine} (isPlain : routine.IsPlain) :
    Refers (linesText routine.lines) (Action.mentionsOf routine.body) := by
  obtain ⟨number, name, parameters, body, ends⟩ := routine
  have isHead := refers_head number isPlain.name isPlain.parameters
  have isReturn : Refers "return undefined" [] := fun _ => rfl
  have isBrace : Refers "\x7d" [] := fun _ => rfl
  have isClosing : Refers (linesText
      ((if ends then [] else [indented 1 "return undefined"]) ++ ["\x7d"])) [] := by
    split
    · exact refers_line isBrace
    · exact refers_linesCons (refers_indented 1 isReturn) (refers_line isBrace)
  have isRest := refers_linesAppend (Action.refersOf body 1) isClosing
  rw [Routine.lines, List.append_assoc, List.cons_append, linesText, List.map_cons,
    String.join_cons]
  exact (isHead.append isRest).of_eq (List.append_nil _)

/-! ## Consistent numbers -/

theorem functionLabel_injective : Function.Injective functionLabel :=
  fun _ _ same => indexKey_injective (String.append_right_inj "f" |>.mp same)

/--
The functions of a program are numbered consistently in the listing of its code.

The functions are listed in the order in which their bodies end, and places with their numbers are
listed from left to right, those that a combined assignment both reads and writes twice.
-/
structure Code.IsNumbered
    (assertions : Bool)
    (statements : List Statement)
    (code : Code) :
    Prop where
  /-- There are as many functions as function literals and declarations. -/
  count : code.routines.length = (Statement.functionsOf assertions statements).length
  /-- The label of a function is its place. -/
  label : ∀ (index : Nat) (routine : Routine), code.routines[index]? = some routine →
    routine.label = "f" ++ toString index
  /-- The head of a function shows its label and the parameters of the literal. -/
  head : ∀ (index : Nat) (literal : FunctionLiteral) (routine : Routine),
    (Statement.functionsOf assertions statements)[index]? = some literal →
    code.routines[index]? = some routine →
    ∃ comment, routine.lines.head? = some ("function " ++
      applied (functionLabel index) literal.parameterNames ++ " \x7b" ++ comment)
  /-- The listing of a function refers to the functions with places in its body. -/
  inner : ∀ (index : Nat) (literal : FunctionLiteral) (routine : Routine),
    (Statement.functionsOf assertions statements)[index]? = some literal →
    code.routines[index]? = some routine →
    references (linesText routine.lines) =
      (literal.innerPlaces assertions true index).map (functionLabel ·.2)
  /-- The listing of the statements refers to the functions with places at the top. -/
  main : references (linesText (Action.linesOf 0 code.main)) =
    (Statement.placesOf assertions true statements 0).map (functionLabel ·.2)
  /-- A function refers only to functions before it. -/
  earlier : ∀ (index : Nat) (routine : Routine), code.routines[index]? = some routine →
    ∀ number, functionLabel number ∈ references (linesText routine.lines) → number < index
  /-- The statements refer only to functions in the listing. -/
  below : ∀ number, functionLabel number ∈ references (linesText (Action.linesOf 0 code.main)) →
    number < code.routines.length
  /-- A place in the body of a function is that of an earlier function. -/
  innerPlaces : ∀ (index : Nat) (literal : FunctionLiteral),
    (Statement.functionsOf assertions statements)[index]? = some literal →
    ∀ place ∈ literal.innerPlaces assertions true index, place.2 < index ∧
      (Statement.functionsOf assertions statements)[place.2]? = some place.1
  /-- A place at the top is that of the function with its number. -/
  mainPlaces : ∀ place ∈ Statement.placesOf assertions true statements 0,
    (Statement.functionsOf assertions statements)[place.2]? = some place.1
  /-- Each function has one place, at the top or in the body of one function. -/
  once : (Statement.placesOf assertions false statements 0 ++
    (Statement.functionsOf assertions statements).zipIdx.flatMap fun outer =>
      outer.1.innerPlaces assertions false outer.2).Perm
        (Statement.functionsOf assertions statements).zipIdx
  /-- Each function is referred to. -/
  referred : ∀ index < code.routines.length,
    functionLabel index ∈ references (linesText (Action.linesOf 0 code.main)) ∨
      ∃ outer ∈ code.routines, functionLabel index ∈ references (linesText outer.lines)

/-- Functions with plain names are numbered consistently. -/
theorem Code.isNumbered
    {assertions : Bool}
    {program : Program}
    {code : Code}
    (faithful : Statement.AreFaithful program.statements)
    (compiled : ofProgram assertions program = .ok code) :
    code.IsNumbered assertions program.statements := by
  obtain ⟨become, mentions⟩ := numbers_ofProgram compiled
  have account := Statement.accountOf assertions program.statements 0
  have isCount : code.routines.length =
      (Statement.functionsOf assertions program.statements).length := by
    rw [← become.length_eq, List.length_zipIdx]
  have becomes (index : Nat) (literal : FunctionLiteral) (routine : Routine)
      (isLiteral : (Statement.functionsOf assertions program.statements)[index]? = some literal)
      (isRoutine : code.routines[index]? = some routine) :
      FunctionLiteral.Becomes assertions (literal, index) routine := by
    obtain ⟨isListed, rfl⟩ := List.getElem?_eq_some_iff.mp isLiteral
    obtain ⟨isBelow, rfl⟩ := List.getElem?_eq_some_iff.mp isRoutine
    simpa using become.get (by rwa [List.length_zipIdx]) isBelow
  have inner (index : Nat) (literal : FunctionLiteral) (routine : Routine)
      (isLiteral : (Statement.functionsOf assertions program.statements)[index]? = some literal)
      (isRoutine : code.routines[index]? = some routine) :
      references (linesText routine.lines) =
        (literal.innerPlaces assertions true index).map (functionLabel ·.2) := by
    have isRoutine := becomes index literal routine isLiteral isRoutine
    have isFaithful := Statement.faithful_functionsOf assertions program.statements faithful
      literal (List.mem_of_getElem? isLiteral)
    rw [(Routine.refers (isRoutine.isPlain isFaithful)).references_eq, isRoutine.mentions,
      List.map_map]
    rfl
  have main : references (linesText (Action.linesOf 0 code.main)) =
      (Statement.placesOf assertions true program.statements 0).map (functionLabel ·.2) := by
    rw [(Action.refersOf code.main 0).references_eq, mentions, List.map_map]
    rfl
  refine ⟨isCount, ?label, ?head, inner, main, ?earlier, ?below, fun _ _ => account.inner,
    fun _ => account.getElem?_of_mem, account.once, ?referred⟩
  case label =>
    intro index routine isRoutine
    obtain ⟨isBelow, -⟩ := List.getElem?_eq_some_iff.mp isRoutine
    have isLiteral := List.getElem?_eq_getElem (isCount ▸ isBelow)
    rw [Routine.label, (becomes index _ routine isLiteral isRoutine).number]
  case head =>
    intro index literal routine isLiteral isRoutine
    have isRoutine := becomes index literal routine isLiteral isRoutine
    obtain ⟨number, name, parameters, body, ends⟩ := routine
    refine ⟨if name.isEmpty then "" else " // " ++ name, ?_⟩
    obtain rfl : number = index := isRoutine.number
    obtain rfl : parameters = literal.parameterNames := isRoutine.parameters
    rfl
  case earlier =>
    intro index routine isRoutine number member
    obtain ⟨isBelow, -⟩ := List.getElem?_eq_some_iff.mp isRoutine
    have isLiteral := List.getElem?_eq_getElem (isCount ▸ isBelow)
    rw [inner index _ routine isLiteral isRoutine] at member
    obtain ⟨place, isInner, isLabel⟩ := List.mem_map.mp member
    exact functionLabel_injective isLabel ▸ (account.inner isLiteral place isInner).1
  case below =>
    intro number member
    rw [main] at member
    obtain ⟨place, isTop, isLabel⟩ := List.mem_map.mp member
    rw [← functionLabel_injective isLabel, isCount]
    exact (List.getElem?_eq_some_iff.mp (account.getElem?_of_mem isTop)).1
  case referred =>
    intro index isBelow
    have isLiteral := List.getElem?_eq_getElem (isCount ▸ isBelow)
    rcases account.exists_place isLiteral with isTop | ⟨outer, number, isOuter, isInner⟩
    · left
      rw [main]
      exact List.mem_map.mpr ⟨_, isTop, rfl⟩
    · right
      have isRoutine := List.getElem?_eq_getElem
        (isCount ▸ (List.getElem?_eq_some_iff.mp isOuter).1)
      refine ⟨_, List.mem_of_getElem? isRoutine, ?_⟩
      rw [inner number outer _ isOuter isRoutine]
      exact List.mem_map.mpr ⟨_, isInner, rfl⟩

/-- The functions of a program that was read from a text are numbered consistently. -/
theorem Code.isNumbered_of_scanChars
    (assertions : Bool)
    (source : Source)
    (width : Char → Nat)
    (text : List Char)
    {code : Code}
    (compiled : Code.ofProgram assertions
      (Program.ofTokens source (Token.scanChars width text)).program = .ok code) :
    code.IsNumbered assertions
      (Program.ofTokens source (Token.scanChars width text)).program.statements :=
  Code.isNumbered (Program.areFaithful_of_scanChars source width text) compiled

theorem Code.isNumbered_nested :
    ∃ code, ofProgram true (Program.ofTokens default (Token.scanChars Char.utf8Size
        "a[function(){}] += f(function(b){function g(){}})".toList)).program = .ok code ∧
      references (linesText (Action.linesOf 0 code.main)) = ["f0", "f0", "f2"] ∧
      code.IsNumbered true (Program.ofTokens default (Token.scanChars Char.utf8Size
        "a[function(){}] += f(function(b){function g(){}})".toList)).program.statements := by
  have isShown : (ofProgram true (Program.ofTokens default (Token.scanChars Char.utf8Size
      "a[function(){}] += f(function(b){function g(){}})".toList)).program).toOption.map
        (fun code => references (linesText (Action.linesOf 0 code.main))) =
      some ["f0", "f0", "f2"] := by
    decide +kernel
  cases compiled : ofProgram true (Program.ofTokens default (Token.scanChars Char.utf8Size
      "a[function(){}] += f(function(b){function g(){}})".toList)).program with
  | error error =>
      rw [compiled] at isShown
      cases isShown
  | ok code =>
      rw [compiled] at isShown
      exact ⟨code, rfl, Option.some.inj isShown,
        Code.isNumbered_of_scanChars true default Char.utf8Size _ compiled⟩

end ScriptEngine
