import ScriptEngine.Realm
import ScriptEngine.Proofs.Machine.PropertyStore

namespace ScriptEngine

variable {id place count : Nat} {heap : Heap} {pattern : Pattern}

open Float.Model

variable {machine : Machine}

/-!
# Searching again and again

A global regular expression notes where its next search starts: behind the match it has found,
or one place further if the match is empty.  So the note moves on with every match.  A note one
place behind the text is still possible, after an empty match at the end; no search starts
there, and the expression is ready to start over.
-/

/-! ## Places as numbers -/

namespace Number

theorem not_ofNat_lt_zero (fits : count < 2 ^ 53) : ¬ ofNat count < 0 := by
  rw [lt_iff, unpack_zero]
  rcases Nat.eq_zero_or_pos count with rfl | positive
  · rw [unpack_ofNat_zero]
    decide
  · obtain ⟨_, isCount⟩ := unpack_ofNat positive fits
    rw [isCount]
    rintro ⟨⟩

theorem le_iff {left right : Float} :
    left ≤ right ↔ (left.toModel.unpack.compare right.toModel.unpack).any (·.isLE) = true := by
  change decide (left.toModel.unpack.le right.toModel.unpack = true) = true ↔ _
  rw [decide_eq_true_iff]
  rfl

/-- Where doubles stop to be read as places. -/
theorem unpack_placeLimit :
    (9223372036854775808.0 : Float).toModel.unpack =
      .finite .positive (2 ^ 52) 11 (by decide) :=
  rfl

theorem not_ofNat_ge_placeLimit (fits : count < 2 ^ 53) :
    ¬ ofNat count ≥ 9223372036854775808.0 := by
  rw [ge_iff_le, le_iff, unpack_placeLimit]
  rcases Nat.eq_zero_or_pos count with rfl | positive
  · rw [unpack_ofNat_zero]
    decide
  · obtain ⟨_, isCount⟩ := unpack_ofNat positive fits
    have short : count.log2 < 53 := (Nat.log2_lt (Nat.ne_of_gt positive)).mpr fits
    have lower : compare (11 : Int) ((count.log2 : Int) - 52) = .gt :=
      Int.compare_eq_gt.mpr (by omega)
    rw [isCount]
    change ¬ (some ((compare (11 : Int) _).then _)).any (·.isLE) = true
    rw [lower]
    exact Bool.false_ne_true

theorem isNaN_ofNat (fits : count < 2 ^ 53) : isNaN (ofNat count) = false := by
  obtain ⟨significand, exponent, isFinite⟩ := isFinite_ofNat fits
  unfold isNaN
  rw [isFinite]

end Number

/-- What a search is relied on for: from each place in a text it comes to no match, or to one
that neither starts in front of the place nor stops behind the text. -/
def Pattern.StaysInside (pattern : Pattern) (text : List Char) : Prop :=
  ∀ start ≤ text.length, ∃ found,
    pattern.find text.toArray start = .ok found ∧
    ∀ taken ∈ found,
      start ≤ taken.span.start ∧ taken.span.start ≤ taken.span.stop ∧
        taken.span.stop ≤ text.length

/-- Whether a found match, if there is one, is inside a text and not in front of a place. -/
def SearchResult.isInside (start length : Nat) : SearchResult → Bool
  | .ok none => true
  | .ok (some found) =>
      start ≤ found.span.start && found.span.start ≤ found.span.stop && found.span.stop ≤ length
  | .error _ => false

theorem SearchResult.isInside_iff (start length : Nat) (result : SearchResult) :
    result.isInside start length = true ↔ ∃ found, result = .ok found ∧
      ∀ taken ∈ found,
        start ≤ taken.span.start ∧ taken.span.start ≤ taken.span.stop ∧
          taken.span.stop ≤ length := by
  cases result with
  | error fault => simp [isInside]
  | ok found =>
      cases found with
      | none => simp [isInside]
      | some taken => simp [isInside, and_assoc]

instance (pattern : Pattern) (text : List Char) : Decidable (pattern.StaysInside text) :=
  decidable_of_iff (∀ start < text.length + 1,
      SearchResult.isInside start text.length (pattern.find text.toArray start) = true) <| by
    unfold Pattern.StaysInside
    simp only [SearchResult.isInside_iff, Nat.lt_succ_iff]

/-- A regular expression can be made from its text, and it passes a check. -/
def Pattern.compilesTo (source flags : String) (check : Pattern → Bool) : Bool :=
  match compile source flags with
  | .ok pattern => check pattern
  | .error _ => false

theorem Pattern.exists_of_compilesTo
    {source flags : String}
    {check : Pattern → Bool}
    (checked : compilesTo source flags check = true) :
    ∃ pattern, compile source flags = .ok pattern ∧ check pattern = true := by
  unfold compilesTo at checked
  split at checked
  · rename_i pattern isCompiled
    exact ⟨pattern, isCompiled, checked⟩
  · cases checked

/-- The place that is noted behind a match; behind an empty one it is one place further. -/
def PatternMatch.next (found : PatternMatch) : Nat :=
  if found.span.start = found.span.stop then found.span.stop + 1 else found.span.stop

namespace Heap

/-- A regular expression has a place noted for its next search. -/
def Notes (heap : Heap) (id place : Nat) : Prop := heap.getOwn? id "lastIndex" = some (.ofNat place)

theorem inside_of_pattern
    (isPattern : heap.pattern? id = some pattern) :
    id < heap.size := by
  by_contra beyond
  unfold pattern? body at isPattern
  rw [Array.getElem?_eq_none (Nat.le_of_not_lt beyond)] at isPattern
  cases isPattern

theorem pattern?_setOwn
    (heap : Heap)
    (id other : Nat)
    (name : String)
    (value : Value) :
    (heap.setOwn other name value).pattern? id = heap.pattern? id := by
  unfold pattern? setOwn
  rw [body_modify]
  unfold body
  cases heap[id]? with
  | none => rfl
  | some object =>
      dsimp only
      rw [ite_self]

theorem pattern?_congr {other : Heap} (same : other[id]? = heap[id]?) :
    other.pattern? id = heap.pattern? id := by
  unfold pattern? body
  rw [same]

theorem getOwn?_congr
    {other : Heap}
    (same : other[id]? = heap[id]?)
    (name : String) :
    other.getOwn? id name = heap.getOwn? id name := by
  unfold getOwn? properties
  rw [same]

/-- What is made behind an object and then changed leaves the object as it is. -/
theorem getElem?_of_made
    (inside : id < heap.size)
    (object : HeapObject)
    (first second : String)
    (value other : Value) :
    (setOwn (setOwn (heap.push object) heap.size first value) heap.size second other)[id]? =
      heap[id]? := by
  have apart : id ≠ heap.size := Nat.ne_of_lt inside
  rw [(changesOnly_setOwn _ heap.size second other).object id apart,
    (changesOnly_setOwn _ heap.size first value).object id apart]
  exact (Array.getElem?_push_lt inside).trans (Array.getElem?_eq_getElem inside).symm

end Heap

namespace Run

/-- The next search starts where it is noted. -/
theorem lastIndex_of_notes
    (notes : machine.heap.Notes id place)
    (fits : place < 2 ^ 53) :
    lastIndex id machine = .ok place machine := by
  have isPlace : lastIndex id machine = .ok
      (if Number.isNaN (Number.ofNat place) || Number.ofNat place < 0 ||
          Number.ofNat place ≥ 9223372036854775808.0 then 0
        else Number.wholeMagnitude (Number.ofNat place)) machine := by
    unfold lastIndex
    rw [heap_bind, notes]
    rfl
  rw [isPlace, Number.isNaN_ofNat fits, decide_eq_false (Number.not_ofNat_lt_zero fits),
    decide_eq_false (Number.not_ofNat_ge_placeLimit fits), Number.wholeMagnitude_ofNat fits]
  rfl

/-- What a search finds from a noted place and notes itself. -/
theorem search_of_notes
    {text : List Char}
    (isGlobal : pattern.isGlobal = true)
    (staysInside : pattern.StaysInside text)
    (notes : machine.heap.Notes id place)
    (fits : place < 2 ^ 53) :
    search id pattern text machine =
        .ok none { machine with heap := machine.heap.setOwn id "lastIndex" (.ofNat 0) } ∨
      ∃ found : PatternMatch,
        search id pattern text machine = .ok (some found)
          { machine with heap := machine.heap.setOwn id "lastIndex" (.ofNat found.next) } ∧
        place < found.next ∧ found.next ≤ text.length + 1 := by
  unfold search
  rw [if_pos isGlobal, bind_of_ok (lastIndex_of_notes notes fits)]
  dsimp only
  split
  · exact .inl rfl
  · rename_i within
    obtain ⟨found, isFound, bounds⟩ := staysInside place (Nat.le_of_not_lt within)
    rw [isFound]
    cases found with
    | none => exact .inl rfl
    | some found =>
        obtain ⟨fromPlace, forward, upToEnd⟩ := bounds found rfl
        refine .inr ⟨found, rfl, ?_, ?_⟩
        · unfold PatternMatch.next
          split <;> omega
        · unfold PatternMatch.next
          split <;> omega

/-- Search a text for a regular expression, as scripts do. -/
def exec (call : Caller) (id : Nat) (input : String) : Run Value :=
  Builtin.patternExec.run call (.object .pattern id) [.string input]

/-- One search finds something and moves the note on, or finds nothing and starts over. -/
theorem exec_of_notes
    (call : Caller)
    {input : String}
    (isPattern : machine.heap.pattern? id = some pattern)
    (isGlobal : pattern.isGlobal = true)
    (staysInside : pattern.StaysInside input.toList)
    (notes : machine.heap.Notes id place)
    (fits : place < 2 ^ 53) :
    ∃ value after next, exec call id input machine = .ok value after ∧
      after.heap.pattern? id = some pattern ∧ after.heap.Notes id next ∧
      (value = .undefined ∧ next = 0 ∨
        value ≠ .undefined ∧ place < next ∧ next ≤ input.toList.length + 1) := by
  have inside := Heap.inside_of_pattern isPattern
  have receives : receivingPattern "exec" (.object .pattern id) machine =
      .ok (id, pattern) machine := by
    unfold receivingPattern
    dsimp only
    rw [heap_bind, isPattern]
    rfl
  change ∃ value after next, patternExec call (.object .pattern id) [.string input] machine = _ ∧ _
  unfold patternExec
  rw [bind_of_ok receives]
  dsimp only
  have reads : toText call (argument [.string input] 0) machine = .ok input machine := rfl
  rw [bind_of_ok reads]
  rcases search_of_notes isGlobal staysInside notes fits with searched | ⟨found, searched, moves⟩
  · rw [bind_of_ok searched]
    refine ⟨_, _, 0, rfl, ?_, ?_, .inl ⟨rfl, rfl⟩⟩
    · rw [Heap.pattern?_setOwn, isPattern]
    · exact Heap.getOwn?_setOwn_self inside _ _
  · rw [bind_of_ok searched]
    let heap := machine.heap.setOwn id "lastIndex" (.ofNat found.next)
    let array : HeapObject := ⟨some Heap.arrayPrototype, [], .array (Storage.exact
      (.string (String.ofList (piece input.toList.toArray found.span)) ::
        found.groups.map (groupValue input.toList.toArray)).toArray)⟩
    let filled := Heap.setOwn
      (Heap.setOwn (heap.push array) heap.size "index" (.ofNat found.span.start))
      heap.size "input" (.string input)
    have stillInside : id < heap.size := by
      rw [(Heap.changesOnly_setOwn ..).size]
      exact inside
    have kept : filled[id]? = heap[id]? := Heap.getElem?_of_made stillInside ..
    refine ⟨.object .array heap.size, { machine with heap := filled }, found.next, rfl, ?_, ?_,
      .inr ⟨?_, moves⟩⟩
    · rw [Heap.pattern?_congr kept, Heap.pattern?_setOwn, isPattern]
    · exact (Heap.getOwn?_congr kept _).trans (Heap.getOwn?_setOwn_self inside _ _)
    · rintro ⟨⟩

/-- Steps in a row, each of which gives a value other than undefined. -/
inductive Succeeds (step : Run Value) : Nat → Machine → Machine → Prop where
  | none (machine : Machine) : Succeeds step 0 machine machine
  | more {count : Nat} {machine middle after : Machine} {value : Value} :
      step machine = .ok value middle →
      value ≠ .undefined →
      Succeeds step count middle after →
      Succeeds step (count + 1) machine after

section

variable {input : String} (call : Caller) (isGlobal : pattern.isGlobal = true)
  (staysInside : pattern.StaysInside input.toList) (short : input.toList.length + 1 < 2 ^ 53)

include isGlobal staysInside short

/-- Searches in a row that find something move the note on, one place each at least. -/
theorem notes_of_succeeds
    {machine after : Machine}
    (isPattern : machine.heap.pattern? id = some pattern)
    (notes : machine.heap.Notes id place)
    (within : place ≤ input.toList.length + 1)
    (succeeds : Succeeds (exec call id input) count machine after) :
    ∃ next, after.heap.pattern? id = some pattern ∧ after.heap.Notes id next ∧
      place + count ≤ next ∧ next ≤ input.toList.length + 1 := by
  induction succeeds generalizing place with
  | none => exact ⟨place, isPattern, notes, Nat.le_refl _, within⟩
  | more ran found _ inductionHypothesis =>
      obtain ⟨value, middle, next, ranToo, isPattern, notes, outcome⟩ :=
        exec_of_notes call isPattern isGlobal staysInside notes (by omega)
      rw [ran] at ranToo
      obtain ⟨rfl, rfl⟩ := EStateM.Result.ok.inj ranToo
      rcases outcome with ⟨nothing, -⟩ | ⟨-, moves, within⟩
      · exact absurd nothing found
      · obtain ⟨last, isPattern, notes, far, within⟩ := inductionHypothesis isPattern notes within
        exact ⟨last, isPattern, notes, by omega, within⟩

/-- Sooner or later a search finds nothing: the note cannot move on for ever. -/
theorem exists_of_exhausted
    (isPattern : machine.heap.pattern? id = some pattern)
    (notes : machine.heap.Notes id place)
    (within : place ≤ input.toList.length + 1) :
    ∃ count middle after, Succeeds (exec call id input) count machine middle ∧
      exec call id input middle = .ok .undefined after := by
  -- How far the note is from the last place that can be noted.
  induction left : input.toList.length + 1 - place using Nat.strongRecOn
    generalizing machine place with
  | ind left inductionHypothesis =>
      obtain ⟨value, after, next, ran, keptPattern, notesNext, outcome⟩ :=
        exec_of_notes call isPattern isGlobal staysInside notes (by omega)
      rcases outcome with ⟨rfl, -⟩ | ⟨found, moves, withinNext⟩
      · exact ⟨0, machine, after, .none machine, ran⟩
      · obtain ⟨count, middle, last, succeeds, ends⟩ :=
          inductionHypothesis _ (by omega) keptPattern notesNext withinNext rfl
        exact ⟨count + 1, middle, last, .more ran found succeeds, ends⟩

/--
Searching a text again and again for a global regular expression comes to an end.  If the
expression is relied on for staying inside the text, and starts from the beginning, then every
search ends without an error.  Each one that finds something leaves the note of the next place
further on than it was; there are at most as many of them in a row as the text has places,
counting the one behind its last character.  The first one that finds nothing does come, and
leaves the note at the beginning.

Places are noted as doubles.  These count one by one up to `2 ^ 53`, which is more characters
than a machine has room for.
-/
theorem exec_repeated_comes_to_an_end
    {machine : Machine}
    (isPattern : machine.heap.pattern? id = some pattern)
    (notes : machine.heap.Notes id 0) :
    (∀ count middle, Succeeds (exec call id input) count machine middle →
      count ≤ input.toList.length + 1 ∧
      ∃ place value after next,
        middle.heap.Notes id place ∧ exec call id input middle = .ok value after ∧
        after.heap.Notes id next ∧ (value ≠ .undefined → place < next) ∧
        (value = .undefined → next = 0)) ∧
    ∃ count middle after, Succeeds (exec call id input) count machine middle ∧
      exec call id input middle = .ok .undefined after := by
  refine ⟨fun count middle succeeds => ?_, ?_⟩
  · obtain ⟨place, keptPattern, notesPlace, far, within⟩ :=
      notes_of_succeeds call isGlobal staysInside short isPattern notes (Nat.zero_le _) succeeds
    obtain ⟨value, after, next, ran, -, notesNext, outcome⟩ :=
      exec_of_notes call keptPattern isGlobal staysInside notesPlace (by omega)
    refine ⟨by omega, place, value, after, next, notesPlace, ran, notesNext, ?_, ?_⟩
    · intro found
      rcases outcome with ⟨nothing, -⟩ | ⟨-, moves, -⟩
      · exact absurd nothing found
      · exact moves
    · intro nothing
      rcases outcome with ⟨-, start⟩ | ⟨found, -⟩
      · exact start
      · exact absurd nothing found
  · exact exists_of_exhausted call isGlobal staysInside short isPattern notes (Nat.zero_le _)

end

/-- A regular expression that finds an empty piece, a letter, and an empty piece again. -/
theorem exec_repeated_comes_to_an_end_of_letters :
    ∃ pattern id machine,
      Pattern.compile "a*" "g" = .ok pattern ∧ pattern.isGlobal = true ∧
      pattern.StaysInside (String.ofList ['b', 'a']).toList ∧
      (String.ofList ['b', 'a']).toList.length + 1 < 2 ^ 53 ∧
      makePattern pattern (Machine.bare 0) = .ok (.object .pattern id) machine ∧
      machine.heap.pattern? id = some pattern ∧ machine.heap.Notes id 0 ∧
      ∃ count middle after, count ≤ 3 ∧
        Succeeds (exec (callUpTo 0) id (String.ofList ['b', 'a'])) count machine middle ∧
        exec (callUpTo 0) id (String.ofList ['b', 'a']) middle = .ok .undefined after := by
  obtain ⟨pattern, isCompiled, checked⟩ : ∃ pattern,
      Pattern.compile "a*" "g" = .ok pattern ∧
        (pattern.isGlobal && decide (pattern.StaysInside ['b', 'a'])) = true :=
    Pattern.exists_of_compilesTo (by decide +kernel)
  rw [Bool.and_eq_true, decide_eq_true_iff] at checked
  obtain ⟨isGlobal, isInside⟩ := checked
  obtain ⟨id, machine, isMade, isPattern, notes⟩ : ∃ id machine,
      makePattern pattern (Machine.bare 0) = .ok (.object .pattern id) machine ∧
      machine.heap.pattern? id = some pattern ∧ machine.heap.Notes id 0 :=
    ⟨_, _, rfl, rfl, rfl⟩
  have short : (String.ofList ['b', 'a']).toList.length + 1 < 2 ^ 53 := by
    rw [String.toList_ofList]
    decide
  have staysInside : pattern.StaysInside (String.ofList ['b', 'a']).toList := by
    rw [String.toList_ofList]
    exact isInside
  obtain ⟨bounded, count, middle, after, succeeds, ends⟩ := exec_repeated_comes_to_an_end
    (callUpTo 0) isGlobal staysInside short isPattern notes
  have few := (bounded count middle succeeds).1
  rw [String.toList_ofList] at few
  exact ⟨pattern, id, machine, isCompiled, isGlobal, staysInside, short, isMade, isPattern,
    notes, count, middle, after, few, succeeds, ends⟩

end Run

end ScriptEngine
