import ScriptEngine.Proofs.Machine.Uniform

namespace ScriptEngine.Run.Uniform

/-!
# Builtin functions look at no code

Whatever a builtin function does, it does by the steps of the machine and by
calls.  So there is no builtin function that stops an error, looks at the limit of
nested calls or puts foreign code on the heap; and none tells one function from another
but by its place and its name.
-/

variable {call : Caller} (method : String) (this value : Value) (arguments : List Value)

/-! ## Conversions, access and operators -/

/-- The default text of a value is on the heap. -/
theorem defaultText : Uniform call (Run.defaultText value) := by
  refine .heap (by simp) fun heap => ?_
  split
  · exact .pure _
  · exact .broken _

/-- A property is looked up on the heap. -/
theorem read (value : Value) (name : String) : Uniform call (Run.read value name) := by
  refine .heap (by simp) fun heap => ?_
  split
  · exact .pure _
  · exact failType _

/-- A length that is accepted resizes the elements of one array. -/
theorem setLength (id : Nat) (length : Float) : Uniform call (Run.setLength id length) := by
  unfold Run.setLength
  split
  · split
    · exact failRange _
    · dsimp only
      split
      · exact failRange _
      · exact .changeHeap (.modifyStorage id fun _ => .resize _)
  · exact failRange _

/-- An element or a plain property is erased on the heap. -/
theorem erase (target : Value) (name : String) : Uniform call (Run.erase target name) := by
  unfold Run.erase
  split
  · exact failType _
  · exact .pure _
  · exact .pure _
  · exact .pure _
  · split
    · exact .pure _
    · split
      · refine .heap (by simp) fun heap => ?_
        split
        · refine .bind (.changeHeap ?_) fun _ => .pure _
          exact .modifyStorage _ fun _ => .put _ _
        · exact .bind (.pure _) fun _ => .pure _
      · exact .bind (.changeHeap (.eraseOwn _ _)) fun _ => .pure _
  · exact .bind (.changeHeap (.eraseOwn _ _)) fun _ => .pure _

/-- Names are looked up on the heap. -/
theorem hasProperty (target : Value) (name : String) :
    Uniform call (Run.hasProperty target name) := by
  unfold Run.hasProperty
  split
  · refine .heap (by simp) fun heap => ?_
    split
    · exact .pure _
    · split
      · exact .pure _
      · exact .pure _
  · exact .heap (by simp) fun heap => .pure _
  · exact failType _

/-- Prototypes are followed on the heap. -/
theorem instanceOf (value constructor : Value) :
    Uniform call (Run.instanceOf value constructor) := by
  unfold Run.instanceOf
  split
  · exact failType _
  · split
    · refine .heap (by simp) fun heap => ?_
      split
      · exact .pure _
      · exact failType _
    · exact .pure _

/-- Methods are tried one after the other. -/
theorem tryMethods
    (value : Value)
    (id : Nat)
    (names : List String)
    (found : Bool) :
    Uniform call (Run.tryMethods call value id found names) := by
  induction names generalizing found with
  | nil =>
      rw [Run.tryMethods]
      split
      · exact failType _
      · exact .bind (defaultText value) fun _ => .pure _
  | cons name rest inductionHypothesis =>
      refine .heap (by simp) fun heap => ?_
      split
      · split
        · refine .bind (.call _ _ _) fun result => ?_
          split
          · exact .pure _
          · exact inductionHypothesis true
        · exact inductionHypothesis found
      · exact inductionHypothesis found

/-- An object is converted by its methods, any other value is left alone. -/
theorem toPrimitive (hint : Hint) (value : Value) :
    Uniform call (Run.toPrimitive call hint value) := by
  unfold Run.toPrimitive
  split
  · exact tryMethods _ _ _ _
  · exact .pure _

/-- The text of a value is that of its primitive. -/
theorem toText : Uniform call (Run.toText call value) :=
  .bind (toPrimitive _ value) fun _ => .pure _

/-- The number of a value is that of its primitive. -/
theorem toNumber : Uniform call (Run.toNumber call value) :=
  .bind (toPrimitive _ value) fun _ => .pure _

/-- The integer of a value is cut from its number. -/
theorem toInteger : Uniform call (Run.toInteger call value) :=
  .bind (toNumber value) fun _ => .pure _

/-- A property is stored, or the length of an array is set. -/
theorem write (target : Value) (name : String) (value : Value) :
    Uniform call (Run.write call target name value) := by
  unfold Run.write
  split
  · exact failType _
  · exact .pure _
  · exact .pure _
  · exact .pure _
  · split
    · exact .bind (toNumber value) fun _ => setLength _ _
    · split
      · split
        · exact failRange _
        · exact .changeHeap (.modifyStorage _ fun _ => .put _ _)
      · exact .changeHeap (.setOwn _ _ _)
  · exact .changeHeap (.setOwn _ _ _)

/-- Both operands are converted before they are added. -/
theorem add (left right : Value) : Uniform call (Run.add call left right) :=
  .bind (toPrimitive _ left) fun _ => .bind (toPrimitive _ right) fun _ => .pure _

/-- Both operands are converted to numbers. -/
theorem arithmetic (operation : Float → Float → Float) (left right : Value) :
    Uniform call (Run.arithmetic call operation left right) :=
  .bind (toNumber left) fun _ => .bind (toNumber right) fun _ => .pure _

/-- Both operands are converted before they are compared. -/
theorem compare
    (texts : String → String → Bool)
    (numbers : Float → Float → Bool)
    (left right : Value) :
    Uniform call (Run.compare call texts numbers left right) :=
  .bind (toPrimitive _ left) fun _ => .bind (toPrimitive _ right) fun _ => .pure _

/-- In one step at most one operand is converted by calls. -/
theorem looseStep (left right : Value) : Uniform call (Run.looseStep call left right) := by
  unfold Run.looseStep
  split
  case h_12 => exact .bind (toPrimitive _ _) fun _ => .pure _
  case h_13 => exact .bind (toPrimitive _ _) fun _ => .pure _
  all_goals exact .pure _

/-- Operands are converted step by step until there is an answer. -/
theorem looseFrom (budget : Nat) (left right : Value) :
    Uniform call (Run.looseFrom call budget left right) := by
  induction budget generalizing left right with
  | zero => exact .pure _
  | succ budget inductionHypothesis =>
      refine .bind (looseStep left right) fun step => ?_
      split
      · exact .pure _
      · exact inductionHypothesis _ _

/-- Every operator between two operands is uniform. -/
theorem binary (operator : BinaryOperator) (left right : Value) :
    Uniform call (Run.binary call operator left right) := by
  cases operator with
  | add => exact add left right
  | subtract => exact arithmetic _ left right
  | multiply => exact arithmetic _ left right
  | divide => exact arithmetic _ left right
  | remainder => exact arithmetic _ left right
  | less => exact .bind (compare _ _ left right) fun _ => .pure _
  | greater => exact .bind (compare _ _ left right) fun _ => .pure _
  | lessEqual => exact .bind (compare _ _ left right) fun _ => .pure _
  | greaterEqual => exact .bind (compare _ _ left right) fun _ => .pure _
  | equal => exact .bind (looseFrom _ left right) fun _ => .pure _
  | notEqual => exact .bind (looseFrom _ left right) fun _ => .pure _
  | strictEqual => exact .pure _
  | strictNotEqual => exact .pure _
  | within => exact .bind (toText left) fun _ => .bind (hasProperty right _) fun _ => .pure _
  | «instanceof» => exact .bind (instanceOf left right) fun _ => .pure _

/-- Every operator in front of an operand is uniform. -/
theorem unary (operator : UnaryOperator) (value : Value) :
    Uniform call (Run.unary call operator value) := by
  cases operator with
  | not => exact .pure _
  | negate => exact .bind (toNumber value) fun _ => .pure _
  | toNumber => exact .bind (toNumber value) fun _ => .pure _
  | void => exact .pure _

/-! ## Builtin functions -/

/-- A method for arrays refuses any other receiver. -/
theorem receivingArray : Uniform call (Run.receivingArray method this) := by
  unfold Run.receivingArray
  split
  · exact .pure _
  · exact failType _

/-- Too long an array is refused. -/
theorem checkLength (length : Nat) : Uniform call (Run.checkLength length) := by
  unfold Run.checkLength
  split
  · exact failRange _
  · exact .pure _

/-- The arguments are put behind the elements. -/
theorem arrayPush : Uniform call (Run.arrayPush this arguments) := by
  refine .bind (receivingArray _ this) fun id => .heap (by simp) fun heap => ?_
  refine .bind (checkLength _) fun _ => ?_
  refine .bind (.changeHeap (.modifyStorage id fun _ => .append _)) fun _ => ?_
  exact .heap (by simp) fun heap => .pure _

/-- The last element is taken away. -/
theorem arrayPop : Uniform call (Run.arrayPop this) := by
  refine .bind (receivingArray _ this) fun id => .heap (by simp) fun _ => .heap (by simp) fun heap => ?_
  dsimp only
  split
  · refine .bind (checkLength _) fun _ => ?_
    exact .bind (.changeHeap (.modifyStorage id fun _ => .dropLast)) fun _ => .pure _
  · exact .pure _

/-- The elements are moved down before the last one is taken away. -/
theorem arrayShift : Uniform call (Run.arrayShift this) := by
  refine .bind (receivingArray _ this) fun id => .heap (by simp) fun _ => .heap (by simp) fun heap => ?_
  dsimp only
  split
  · refine .bind (.changeHeap (.modifyStorage id fun _ => .moveDown)) fun _ => ?_
    refine .bind (checkLength _) fun _ => ?_
    exact .bind (.changeHeap (.modifyStorage id fun _ => .dropLast)) fun _ => .pure _
  · exact .pure _

/-- The arguments are put in front of the elements. -/
theorem arrayUnshift : Uniform call (Run.arrayUnshift this arguments) := by
  refine .bind (receivingArray _ this) fun id => .heap (by simp) fun heap => ?_
  refine .bind (checkLength _) fun _ => ?_
  refine .bind (.changeHeap (.modifyStorage id fun _ => .prepend _)) fun _ => ?_
  exact .heap (by simp) fun heap => .pure _

/-- Only the new array is put on the heap. -/
theorem arrayConcat : Uniform call (Run.arrayConcat this arguments) := by
  refine .bind (receivingArray _ this) fun id => .heap (by simp) fun heap => ?_
  exact .bind (checkLength _) fun _ => makeArray _

/-- A single number is the length of the new array. -/
theorem arrayNew : Uniform call (Run.arrayNew arguments) := by
  unfold Run.arrayNew
  split
  · refine .bind (makeArray _) fun array => ?_
    split
    · exact .bind (setLength _ _) fun _ => .pure _
    · exact .pure _
  · exact makeArray _

/-- A method for numbers refuses any other receiver. -/
theorem receivingNumber : Uniform call (Run.receivingNumber method this) := by
  unfold Run.receivingNumber
  split
  · exact .pure _
  · exact failType _

/-- A method for booleans refuses any other receiver. -/
theorem receivingBoolean : Uniform call (Run.receivingBoolean method this) := by
  unfold Run.receivingBoolean
  split
  · exact .pure _
  · exact failType _

/-- An object is made where there is none. -/
theorem toObject : Uniform call (Run.toObject value) := by
  unfold Run.toObject
  split
  · exact makePlain _
  · exact .pure _

/-- The names are listed from the heap. -/
theorem keysOf : Uniform call (Run.keysOf value) := by
  unfold Run.keysOf
  split
  · exact failType _
  · exact .heap (by simp) fun heap => makeArray _

/-- An object or null is the prototype of the new object. -/
theorem createFrom : Uniform call (Run.createFrom value) := by
  unfold Run.createFrom
  split
  · exact makePlain _
  · exact makePlain _
  · exact failType _

/-- The prototype is looked up on the heap. -/
theorem prototypeOf : Uniform call (Run.prototypeOf value) := by
  unfold Run.prototypeOf
  split
  · exact failType _
  · exact .pure _
  · exact .pure _
  · exact .pure _
  · refine .heap (by simp) fun heap => ?_
    split
    · exact .pure _
    · exact .pure _

/-- A function has its default text. -/
theorem functionToText : Uniform call (Run.functionToText this) := by
  unfold Run.functionToText
  split
  · exact failType _
  · exact .bind (defaultText this) fun _ => .pure _

/-- Only a text is its own value. -/
theorem textValueOf : Uniform call (Run.textValueOf this) := by
  unfold Run.textValueOf
  split
  · exact .pure _
  · exact failType _

/-- A search that goes astray breaks the run. -/
theorem searched {α : Type} (outcome : Except LookupFault α) :
    Uniform call (Run.searched outcome) := by
  unfold Run.searched
  split
  · exact .pure _
  · exact .broken _

/-- A method for patterns refuses any other receiver. -/
theorem receivingPattern : Uniform call (Run.receivingPattern method this) := by
  unfold Run.receivingPattern
  split
  · refine .heap (by simp) fun heap => ?_
    split
    · exact .pure _
    · exact failType _
  · exact failType _

theorem lastIndex (id : Nat) : Uniform call (Run.lastIndex id) :=
  .heap (by simp) fun _ => .pure _

/-- The place where a search goes on is noted in the pattern. -/
theorem search (id : Nat) (pattern : Pattern) (text : List Char) :
    Uniform call (Run.search id pattern text) := by
  unfold Run.search
  extract_lets note goOn
  have noteUniform (index : Nat) : Uniform call (note index) := .changeHeap (.setOwn id _ _)
  have goOnUniform (start : Nat) : Uniform call (goOn start) := by
    dsimp only [goOn]
    split
    · exact .bind (noteUniform _) fun _ => .pure _
    · refine .bind (searched _) fun found => ?_
      split
      · split
        · exact .bind (noteUniform _) fun _ => .pure _
        · exact .bind (noteUniform _) fun _ => .pure _
      · exact .pure _
  split
  · exact .bind (lastIndex id) goOnUniform
  · exact .bind (.pure _) goOnUniform

theorem patternToText : Uniform call (Run.patternToText this) :=
  .bind (receivingPattern _ this) fun _ => .pure _

/-- A circle on the heap fails the text. -/
theorem jsonText (indent : String) (value : Value) : Uniform call (Run.jsonText indent value) := by
  refine .heap (by simp) fun heap => ?_
  split
  · split
    · exact .pure _
    · exact failType _
  · split
    · exact .pure _
    · split
      · exact .pure _
      · exact .fail (.internal _)
    · exact failType _

theorem consolePrint (mark : String) (arguments : List Value) :
    Uniform call (Run.consolePrint mark arguments) :=
  .heap (by simp) fun _ => .bind (.printLine _) fun _ => .pure _

/-- The texts of the elements of an array are found one after the other. -/
theorem joinParts (id moves remaining index : Nat) :
    Uniform call (Run.joinParts call id moves remaining index) := by
  induction remaining generalizing index with
  | zero => exact .pure _
  | succ remaining inductionHypothesis =>
      refine .heap (by simp) fun heap => ?_
      extract_lets goOn
      have goOnUniform (part : String) : Uniform call (goOn part) :=
        .bind (inductionHypothesis _) fun _ => .pure _
      split
      · exact .bind (.pure _) goOnUniform
      · exact .bind (toText _) goOnUniform

/-- An array is watched while its elements are converted by calls. -/
theorem arrayJoin : Uniform call (Run.arrayJoin call this arguments) := by
  refine .bind (receivingArray _ this) fun id => ?_
  extract_lets goOn
  have goOnUniform (separator : String) : Uniform call (goOn separator) := by
    refine .heap (by simp) fun heap => ?_
    refine .bind (.changeHeap (.modifyStorage id fun _ => .watch)) fun _ => ?_
    refine .bind (joinParts id _ _ _) fun parts => ?_
    exact .bind (.changeHeap (.modifyStorage id fun _ => .unwatch)) fun _ => .pure _
  split
  · exact .bind (.pure _) goOnUniform
  · exact .bind (toText _) goOnUniform

/-- A position that is given is converted to an integer. -/
theorem position (default length : Nat) (value : Value) :
    Uniform call (Run.position call default length value) := by
  unfold Run.position
  split
  · exact .pure _
  · exact .bind (toInteger value) fun _ => .pure _

/-- The positions are converted first, and elements beyond the room break the run. -/
theorem arraySlice : Uniform call (Run.arraySlice call this arguments) := by
  refine .bind (receivingArray _ this) fun id => .heap (by simp) fun heap => ?_
  refine .bind (position _ _ _) fun start => .bind (position _ _ _) fun stop => ?_
  split
  · exact makeArray _
  · refine .heap (by simp) fun heap => ?_
    split
    · exact makeArray _
    · exact .broken _

/-- Only the start is converted. -/
theorem arrayIndexOf : Uniform call (Run.arrayIndexOf call this arguments) := by
  refine .bind (receivingArray _ this) fun id => ?_
  extract_lets target goOn
  have goOnUniform (start : Nat) : Uniform call (goOn start) := by
    refine .heap (by simp) fun heap => ?_
    dsimp only
    split
    · exact .pure _
    · exact .pure _
  split
  · exact .bind (.pure _) goOnUniform
  · exact .bind (toInteger _) fun _ => .heap (by simp) fun heap => .bind (.pure _) goOnUniform

/-- The radix is converted and must be in range. -/
theorem numberToText : Uniform call (Run.numberToText call this arguments) := by
  refine .bind (receivingNumber _ this) fun value => ?_
  split
  · exact .pure _
  · refine .bind (toInteger _) fun radix => ?_
    split
    · exact failRange _
    · exact .pure _

/-- The number of places is converted and must be in range. -/
theorem toFixed : Uniform call (Run.toFixed call this arguments) := by
  refine .bind (receivingNumber _ this) fun value => .bind (toInteger _) fun places => ?_
  split
  · exact failRange _
  · exact .pure _

/-- A value that is given is converted. -/
theorem numberNew : Uniform call (Run.numberNew call arguments) := by
  unfold Run.numberNew
  split
  · exact .pure _
  · exact .bind (toNumber _) fun _ => .pure _

/-- The one argument is converted. -/
theorem mathUnary (function : Float → Float) (arguments : List Value) :
    Uniform call (Run.mathUnary call function arguments) :=
  .bind (toNumber _) fun _ => .pure _

/-- Both arguments are converted. -/
theorem mathPower : Uniform call (Run.mathPower call arguments) := by
  refine .bind (toNumber _) fun base => .bind (toNumber _) fun exponent => ?_
  split
  · exact .pure _
  · exact .pure _

/-- All arguments are converted, one after the other. -/
theorem mathExtremum (better : Float → Float → Bool) (best : Float) (arguments : List Value) :
    Uniform call (Run.mathExtremum call better best arguments) := by
  induction arguments generalizing best with
  | nil => exact .pure _
  | cons value rest inductionHypothesis =>
      exact .bind (toNumber value) fun _ => inductionHypothesis _

/-- A radix that is given is converted. -/
theorem radixArgument : Uniform call (Run.radixArgument call value) := by
  unfold Run.radixArgument
  split
  · exact .pure _
  · exact .bind (toInteger value) fun _ => .pure _

/-- The text is converted before the radix. -/
theorem parseInteger : Uniform call (Run.parseInteger call arguments) :=
  .bind (toText _) fun _ => .bind (radixArgument _) fun _ => .pure _

/-- The text is converted and then read. -/
theorem parseDecimal : Uniform call (Run.parseDecimal call arguments) :=
  .bind (toText _) fun _ => .pure _

/-- The name is converted before it is looked up. -/
theorem hasOwnProperty (this key : Value) : Uniform call (Run.hasOwnProperty call this key) :=
  .bind (toText key) fun _ => .heap (by simp) fun _ => .pure _

/-- The arguments are the elements of an array. -/
theorem apply (function this arguments : Value) :
    Uniform call (Run.apply call function this arguments) := by
  unfold Run.apply
  split
  · exact .heap (by simp) fun heap => failType _
  · split
    · exact .call _ _ _
    · exact .heap (by simp) fun heap => .call _ _ _
    · exact failType _

/-- The first argument is the receiver of the call. -/
theorem callWith : Uniform call (Run.callWith call this arguments) := by
  unfold Run.callWith
  split
  · exact failType _
  · exact .call _ _ _

/-- A method for texts converts its receiver. -/
theorem receivingText : Uniform call (Run.receivingText call method this) := by
  unfold Run.receivingText
  split
  · exact failType _
  · exact .bind (toText this) fun _ => .pure _

/-- The index is converted. -/
theorem charAt : Uniform call (Run.charAt call this arguments) := by
  refine .bind (receivingText _ this) fun text => .bind (toInteger _) fun index => ?_
  split
  · exact .pure _
  · exact .pure _

/-- The index is converted. -/
theorem charCodeAt : Uniform call (Run.charCodeAt call this arguments) := by
  refine .bind (receivingText _ this) fun text => .bind (toInteger _) fun index => ?_
  split
  · exact .pure _
  · split
    · exact .pure _
    · exact .pure _

/-- Both positions are converted. -/
theorem substring : Uniform call (Run.substring call this arguments) := by
  refine .bind (receivingText _ this) fun text => .bind (toInteger _) fun start => ?_
  extract_lets first goOn
  have goOnUniform (stop : Nat) : Uniform call (goOn stop) := .pure _
  split
  · exact .bind (.pure _) goOnUniform
  · exact .bind (toInteger _) fun _ => .bind (.pure _) goOnUniform

/-- The wanted text is converted before the start. -/
theorem textIndexOf : Uniform call (Run.textIndexOf call this arguments) := by
  refine .bind (receivingText _ this) fun text => .bind (toText _) fun wanted => ?_
  refine .bind (toInteger _) fun start => ?_
  dsimp only
  split
  · exact .pure _
  · exact .pure _

/-- Only the receiver is converted. -/
theorem changeCase (method : String) (change : String → String) (this : Value) :
    Uniform call (Run.changeCase call method change this) :=
  .bind (receivingText method this) fun _ => .pure _

/-- The name of the form is converted and must be known. -/
theorem normalize : Uniform call (Run.normalize call this arguments) := by
  refine .bind (receivingText _ this) fun text => ?_
  extract_lets goOn
  have goOnUniform (name : String) : Uniform call (goOn name) := by
    dsimp only [goOn]
    split
    · exact .pure _
    · exact failRange _
  split
  · exact .bind (.pure _) goOnUniform
  · exact .bind (toText _) goOnUniform

/-- A pattern or the text of the separator splits. -/
theorem splitPieces (text : List Char) (separator : Value) :
    Uniform call (Run.splitPieces call text separator) := by
  unfold Run.splitPieces
  split
  · exact .pure _
  · refine .heap (by simp) fun heap => ?_
    split
    · exact .bind (searched _) fun _ => .pure _
    · exact .pure _
  · exact .bind (toText _) fun _ => .pure _

/-- The limit is converted before the separator. -/
theorem split : Uniform call (Run.split call this arguments) := by
  refine .bind (receivingText _ this) fun text => ?_
  extract_lets goOn
  have goOnUniform (limit : Option Nat) : Uniform call (goOn limit) := by
    refine .bind (splitPieces text _) fun pieces => ?_
    split
    · exact makeArray _
    · exact makeArray _
  split
  · exact .bind (.pure _) goOnUniform
  · exact .bind (toInteger _) fun _ => .bind (.pure _) goOnUniform

/-- A search by a pattern for all occurrences begins at the start. -/
theorem occurrences (text : List Char) (pattern : Value) :
    Uniform call (Run.occurrences call text pattern) := by
  unfold Run.occurrences
  split
  · refine .heap (by simp) fun heap => ?_
    split
    · dsimp only
      split
      · refine .bind (searched _) fun found => ?_
        exact .bind (.changeHeap (.setOwn _ _ _)) fun _ => .pure _
      · exact .bind (searched _) fun _ => .pure _
    · exact .pure _
  · exact .bind (toText _) fun _ => .pure _

/-- A function is called for the replacement, whose text is converted. -/
theorem replacementOf (text : List Char) (whole replacement : Value) (found : Text.Occurrence Char) :
    Uniform call (Run.replacementOf call text whole replacement found) := by
  unfold Run.replacementOf
  split
  · exact .bind (.call _ _ _) fun _ => .bind (toText _) fun _ => .pure _
  · exact .bind (toText _) fun _ => .pure _

/-- Occurrences are replaced one after the other. -/
theorem replacements
    (text : List Char)
    (whole replacement : Value)
    (found : List (Text.Occurrence Char)) :
    Uniform call (Run.replacements call text whole replacement found) := by
  induction found with
  | nil => exact .pure _
  | cons first rest inductionHypothesis =>
      refine .bind (replacementOf text whole replacement first) fun inserted => ?_
      exact .bind inductionHypothesis fun _ => .pure _

/-- The occurrences are found before the replacements. -/
theorem replace : Uniform call (Run.replace call this arguments) := by
  refine .bind (receivingText _ this) fun text => ?_
  refine .bind (occurrences text _) fun found => ?_
  exact .bind (replacements text _ _ found) fun _ => .pure _

/-- A value that is given is converted. -/
theorem textNew : Uniform call (Run.textNew call arguments) := by
  unfold Run.textNew
  split
  · exact .pure _
  · exact .bind (toText _) fun _ => .pure _

/-- The text is converted before the search. -/
theorem patternTest : Uniform call (Run.patternTest call this arguments) :=
  .bind (receivingPattern _ this) fun _ =>
    .bind (toText _) fun _ => .bind (search _ _ _) fun _ => .pure _

/-- What is found is put into an array with two more properties. -/
theorem patternExec : Uniform call (Run.patternExec call this arguments) := by
  refine .bind (receivingPattern _ this) fun receiver => .bind (toText _) fun input => ?_
  refine .bind (search _ _ _) fun found => ?_
  split
  · exact .pure _
  · refine .bind (makeArray _) fun array => ?_
    split
    · refine .bind (.changeHeap (.setOwn _ _ _)) fun _ => ?_
      exact .bind (.changeHeap (.setOwn _ _ _)) fun _ => .pure _
    · exact .pure _

/-- Making a pattern is where a text is read while code runs, and it may not be one. -/
theorem patternNew : Uniform call (Run.patternNew call arguments) := by
  unfold Run.patternNew
  extract_lets goOn
  have goOnUniform (texts : String × String) : Uniform call (goOn texts) := by
    dsimp -zeta only [goOn]
    extract_lets compile
    have compileUniform (flags : String) : Uniform call (compile flags) := by
      dsimp only [compile]
      split
      · exact makePattern _
      · rename_i fault refused
        exact .fail (.badPattern refused)
    split
    · exact .bind (.pure _) compileUniform
    · exact .bind (toText _) compileUniform
  split
  · exact .bind (.pure _) goOnUniform
  · refine .heap (by simp) fun heap => ?_
    split
    · exact .bind (.pure _) goOnUniform
    · exact .bind (.pure _) goOnUniform
  · exact .bind (toText _) fun _ => .bind (.pure _) goOnUniform

/-- A number of blanks is converted. -/
theorem jsonIndent : Uniform call (Run.jsonIndent call value) := by
  unfold Run.jsonIndent
  split
  · exact .bind (toInteger _) fun _ => .pure _
  · exact .pure _
  · exact .pure _

/-- The indent is converted before the value is written. -/
theorem jsonStringify : Uniform call (Run.jsonStringify call arguments) := by
  refine .bind (jsonIndent _) fun indent => .bind (jsonText indent _) fun text => ?_
  split
  · exact .pure _
  · exact .pure _

/-- Every builtin function is uniform in what it calls. -/
theorem builtin_run_uniform (this : Value) (arguments : List Value) (builtin : Builtin) :
    Uniform call (builtin.run call this arguments) := by
  cases builtin with
  | objectNew => exact toObject _
  | hasOwnProperty => exact hasOwnProperty _ _
  | objectToString => exact .pure _
  | objectValueOf => exact .pure _
  | objectKeys => exact keysOf _
  | objectCreate => exact createFrom _
  | getPrototypeOf => exact prototypeOf _
  | functionNew => exact failType _
  | functionApply => exact apply _ _ _
  | functionCall => exact callWith _ _
  | functionToString => exact functionToText _
  | arrayNew => exact arrayNew _
  | arrayPush => exact arrayPush _ _
  | arrayPop => exact arrayPop _
  | arrayShift => exact arrayShift _
  | arrayUnshift => exact arrayUnshift _ _
  | arrayConcat => exact arrayConcat _ _
  | arrayJoin => exact arrayJoin _ _
  | arrayToString => exact arrayJoin this []
  | arraySlice => exact arraySlice _ _
  | arrayIndexOf => exact arrayIndexOf _ _
  | isArray => exact .pure _
  | isNaN => exact .bind (toNumber _) fun _ => .pure _
  | parseFloat => exact parseDecimal _
  | parseInt => exact parseInteger _
  | stringNew => exact textNew _
  | stringToString => exact textValueOf _
  | stringValueOf => exact textValueOf _
  | charAt => exact charAt _ _
  | charCodeAt => exact charCodeAt _ _
  | substring => exact substring _ _
  | stringIndexOf => exact textIndexOf _ _
  | toUpperCase => exact changeCase _ _ _
  | toLowerCase => exact changeCase _ _ _
  | normalize => exact normalize _ _
  | split => exact split _ _
  | replace => exact replace _ _
  | numberNew => exact numberNew _
  | numberToString => exact numberToText _ _
  | toFixed => exact toFixed _ _
  | numberValueOf => exact .bind (receivingNumber _ _) fun _ => .pure _
  | booleanNew => exact .pure _
  | booleanToString => exact .bind (receivingBoolean _ _) fun _ => .pure _
  | booleanValueOf => exact .bind (receivingBoolean _ _) fun _ => .pure _
  | patternNew => exact patternNew _
  | patternTest => exact patternTest _ _
  | patternExec => exact patternExec _ _
  | patternToString => exact patternToText _
  | mathAbs => exact mathUnary _ _
  | mathFloor => exact mathUnary _ _
  | mathCeil => exact mathUnary _ _
  | mathRound => exact mathUnary _ _
  | mathSqrt => exact mathUnary _ _
  | mathPow => exact mathPower _
  | mathMax => exact mathExtremum _ _ _
  | mathMin => exact mathExtremum _ _ _
  | mathRandom => exact .random
  | jsonStringify => exact jsonStringify _
  | consoleLog => exact consolePrint _ _
  | consoleInfo => exact consolePrint _ _
  | consoleWarn => exact consolePrint _ _
  | consoleError => exact consolePrint _ _

/-! ## References and new objects -/

/-- A name is looked up in the scopes, a property on the heap. -/
theorem readReference (scope : Nat) (reference : Reference) :
    Uniform call (Run.readReference scope reference) := by
  cases reference with
  | «variable» name =>
      refine .scopes (fun machine other same => by rw [same]) fun machine => ?_
      split
      · exact .pure _
      · exact .fail (.unbound name)
  | property base key => exact read base key

/-- A name is erased from the scopes, a property from the heap. -/
theorem eraseReference (scope : Nat) (reference : Reference) :
    Uniform call (Run.eraseReference scope reference) := by
  cases reference with
  | «variable» name =>
      refine .scopes (fun machine other same => by rw [same]) fun machine => ?_
      exact .bind (.changeScopes _) fun _ => .pure _
  | property base key => exact erase base key

/-- A name is assigned in the scopes, a property is written. -/
theorem writeReference (scope : Nat) (value : Value) (reference : Reference) :
    Uniform call (Run.writeReference call scope value reference) := by
  cases reference with
  | «variable» name =>
      rw [Run.writeReference]
      exact .changeScopes _
  | property base key => exact write base key value

/-- The old value is converted before the new one is written. -/
theorem updateReference
    (scope : Nat)
    (change : Float)
    (fixity : Fixity)
    (reference : Reference) :
    Uniform call (Run.updateReference call scope change fixity reference) := by
  refine .bind (readReference scope reference) fun value => ?_
  refine .bind (toNumber value) fun old => ?_
  exact .bind (writeReference scope _ reference) fun _ => .pure _

/-- Parameters are bound one after the other. -/
theorem bindParameters (scope : Nat) (arguments : List Value) (names : List String) :
    Uniform call (Run.invoke.bindParameters scope arguments names) := by
  induction names generalizing arguments with
  | nil => exact .pure _
  | cons name names inductionHypothesis =>
      exact .bind (.changeScopes _) fun _ => inductionHypothesis _

/-- A function that makes an object is a builtin one or is called. -/
theorem construct (constructor : Value) (arguments : List Value) :
    Uniform call (Run.construct call constructor arguments) := by
  unfold Run.construct
  split
  · rename_i id
    refine .heap (fun heap => ?_) fun heap => ?_
    · rw [Heap.body_outlined]
      cases heap.body id <;> rfl
    · split
      · split
        · exact .deeper (builtin_run_uniform _ _ _)
        · exact .heap (by simp) fun heap => failType _
      · exact .heap (by simp) fun heap => failType _
  · refine .heap (by simp) fun heap => .bind (.makePlain _) fun created => ?_
    exact .bind (.call _ _ _) fun result => .pure _
  · exact .heap (by simp) fun heap => failType _

end ScriptEngine.Run.Uniform
