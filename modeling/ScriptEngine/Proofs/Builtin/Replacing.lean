import ScriptEngine.Proofs.Builtin.RepeatedSearch
import ScriptEngine.Proofs.Builtin.Splitting
import ScriptEngine.Proofs.Builtin.Templates

namespace ScriptEngine

variable {start place budget : Nat} {gaps : List (List Char)}

open Text (Units)
open Text.Insertions (doubled)
open Token (bytesOf)

/-!
# Replacing

The occurrences of a pattern cut a text into the pieces between them.  Replacing writes these
pieces in their order and expands the template between them, once for every occurrence.  So
nothing of the text is lost but the occurrences, and nothing is put in but the expansions: with
each occurrence in its own place the pieces are the text again.

A text is looked for once, and so is a regular expression unless it is global; a global one is
searched on behind every match until there is none.

In memory a text is a row of bytes.  Its pieces are cut from the characters that it is decoded to
and encoded again, so a row that is not made of characters does not come back.
-/

namespace Text

/-- A text from a place on, cut at occurrences into the pieces between them. -/
inductive Cut : Nat → List Char → List (Occurrence Char) → List (List Char) → Prop where
  | last {place : Nat} (rest : List Char) : Cut place rest [] [rest]
  | next {place : Nat} {gap rest : List Char} {found : Occurrence Char}
      {others : List (Occurrence Char)} {gaps : List (List Char)} :
      found.place = place + gap.length →
      Cut (found.place + found.text.length) rest others gaps →
      Cut place (gap ++ (found.text ++ rest)) (found :: others) (gap :: gaps)

/-- Pieces with something written between each of them and the next one. -/
def weave {α : Type} : List (List α) → List (List α) → List α
  | gap :: gaps, filler :: fillers => gap ++ (filler ++ weave gaps fillers)
  | gaps, _ => gaps.flatten

/-- With the occurrences between them, the pieces are the text. -/
theorem Cut.weave_occurrences
    {text : List Char}
    {occurrences : List (Occurrence Char)}
    (cut : Cut place text occurrences gaps) :
    weave gaps (occurrences.map Occurrence.text) = text := by
  induction cut with
  | last rest => exact List.append_nil rest
  | next _ _ inductionHypothesis => rw [List.map_cons, weave, inductionHypothesis]

/-- An occurrence in front of a cut cuts off one more piece. -/
theorem Cut.extend
    {text : List Char}
    {start : Nat}
    {found : Occurrence Char}
    {others : List (Occurrence Char)}
    {gaps : List (List Char)}
    (behind : start ≤ found.place)
    (inside : found.place ≤ text.length)
    (occurs : OccursAt found.text text found.place)
    (cut : Cut (found.place + found.text.length) (text.drop (found.place + found.text.length))
      others gaps) :
    ∃ gap, Cut start (text.drop start) (found :: others) (gap :: gaps) := by
  obtain ⟨rest, isText⟩ := occurs
  have isRest : rest = text.drop (found.place + found.text.length) := by
    rw [← List.drop_drop, ← isText, List.drop_left]
  have parts : text.drop start =
      (text.drop start).take (found.place - start) ++ (found.text ++ rest) := by
    have behindGap : (text.drop start).drop (found.place - start) = text.drop found.place := by
      rw [List.drop_drop, Nat.add_sub_cancel' behind]
    rw [isText, ← behindGap, List.take_append_drop]
  have isPlace : found.place =
      start + ((text.drop start).take (found.place - start)).length := by
    rw [List.length_take, List.length_drop]
    omega
  rw [parts]
  exact ⟨_, .next isPlace (isRest ▸ cut)⟩

/-! ### The first occurrence of a text -/

theorem occursAt_of_indexFrom
    {wanted : List Char}
    {text : List Char}
    (isFirst : indexFrom wanted budget start text = some place) :
    start ≤ place ∧ OccursAt wanted text (place - start) ∧
      ∀ earlier < place - start, ¬OccursAt wanted text earlier := by
  induction budget generalizing start text with
  | zero => cases isFirst
  | succ budget inductionHypothesis =>
      unfold indexFrom at isFirst
      split at isFirst
      · rename_i here
        cases isFirst
        rw [Nat.sub_self]
        exact ⟨Nat.le_refl _, List.isPrefixOf_iff_prefix.mp here, nofun⟩
      · rename_i notHere
        split at isFirst
        · rename_i first rest
          obtain ⟨behind, occurs, notEarlier⟩ := inductionHypothesis isFirst
          obtain ⟨count, rfl⟩ := Nat.exists_eq_add_of_le behind
          have isCount : start + 1 + count - start = count + 1 := by omega
          rw [Nat.add_sub_cancel_left] at occurs notEarlier
          rw [isCount]
          refine ⟨by omega, occurs, fun earlier before => ?_⟩
          cases earlier with
          | zero => exact mt List.isPrefixOf_iff_prefix.mpr notHere
          | succ earlier => exact notEarlier earlier (Nat.lt_of_succ_lt_succ before)
        · cases isFirst

theorem not_occursAt_of_indexFrom
    {wanted : List Char}
    {text : List Char}
    (enough : text.length < budget)
    (isNowhere : indexFrom wanted budget start text = none)
    (place : Nat) :
    ¬OccursAt wanted text place := by
  induction budget generalizing start text place with
  | zero => exact absurd enough (Nat.not_lt_zero _)
  | succ budget inductionHypothesis =>
      unfold indexFrom at isNowhere
      split at isNowhere
      · cases isNowhere
      · rename_i notHere
        have notHere : ¬wanted <+: text := mt List.isPrefixOf_iff_prefix.mpr notHere
        cases text with
        | nil =>
            unfold OccursAt
            rwa [List.drop_nil]
        | cons first rest =>
            cases place with
            | zero => exact notHere
            | succ place =>
                exact inductionHypothesis (Nat.lt_of_succ_lt_succ enough) isNowhere place

end Text

/-! ## The matches of a regular expression -/

/-- Matches inside a text of some length, one behind the other: they start in increasing order and
do not overlap. -/
structure InOrder (length : Nat) (found : List PatternMatch) : Prop where
  increasing : found.Pairwise fun left right => left.span.start < right.span.start
  apart : found.Pairwise fun left right => left.span.stop ≤ right.span.start
  inside : ∀ taken ∈ found, taken.span.start ≤ taken.span.stop ∧ taken.span.stop ≤ length

instance (length : Nat) (found : List PatternMatch) : Decidable (InOrder length found) :=
  decidable_of_iff
    ((found.Pairwise fun left right => left.span.start < right.span.start) ∧
      (found.Pairwise fun left right => left.span.stop ≤ right.span.start) ∧
      ∀ taken ∈ found, taken.span.start ≤ taken.span.stop ∧ taken.span.stop ≤ length)
    ⟨fun ⟨increasing, apart, inside⟩ => ⟨increasing, apart, inside⟩,
      fun ⟨increasing, apart, inside⟩ => ⟨increasing, apart, inside⟩⟩

theorem InOrder.tail
    {length : Nat}
    {first : PatternMatch}
    {others : List PatternMatch}
    (inOrder : InOrder length (first :: others)) :
    InOrder length others where
  increasing := inOrder.increasing.of_cons
  apart := inOrder.apart.of_cons
  inside := fun taken member => inOrder.inside taken (.tail _ member)

/-- Matches in order are no more than there are places. -/
theorem InOrder.length_add_le
    {length : Nat}
    {found : List PatternMatch}
    (inOrder : InOrder length found)
    (atMost : start ≤ length + 1)
    (behind : ∀ taken ∈ found, start ≤ taken.span.start) :
    found.length + start ≤ length + 1 := by
  induction found generalizing start with
  | nil => rwa [List.length_nil, Nat.zero_add]
  | cons first others inductionHypothesis =>
      obtain ⟨firstBehind, -⟩ := List.forall_mem_cons.mp behind
      obtain ⟨⟨notReversed, notBeyond⟩, -⟩ := List.forall_mem_cons.mp inOrder.inside
      have fewer := @inductionHypothesis (first.span.start + 1) inOrder.tail (by omega)
        (List.pairwise_cons.mp inOrder.increasing).1
      rw [List.length_cons]
      omega

namespace Pattern

variable {pattern : Pattern} {text : Array Char}

/-- The matches from the result of a search on, until there are no more. -/
inductive Yields (pattern : Pattern) (text : Array Char) :
    SearchResult → List PatternMatch → Prop where
  | done : Yields pattern text (.ok none) []
  | found {first : PatternMatch} {others : List PatternMatch} :
      Yields pattern text (pattern.findAfter text first) others →
      Yields pattern text (.ok (some first)) (first :: others)

/-- Whether given matches are all there are from the result of a search on. -/
def yields? (pattern : Pattern) (text : Array Char) :
    SearchResult → List PatternMatch → Bool
  | .ok none, [] => true
  | .ok (some taken), first :: others =>
      taken = first && yields? pattern text (pattern.findAfter text first) others
  | _, _ => false

theorem yields_of_yields?
    {result : SearchResult}
    {found : List PatternMatch}
    (isChecked : pattern.yields? text result found = true) :
    pattern.Yields text result found := by
  induction found generalizing result with
  | nil =>
      cases result with
      | error => cases isChecked
      | ok taken =>
          cases taken with
          | none => exact .done
          | some => cases isChecked
  | cons first others inductionHypothesis =>
      cases result with
      | error => cases isChecked
      | ok taken =>
          cases taken with
          | none => cases isChecked
          | some taken =>
              rw [yields?, Bool.and_eq_true, decide_eq_true_iff] at isChecked
              rw [isChecked.1]
              exact .found (inductionHypothesis isChecked.2)

/-- The matches that are replaced: those of a global expression are all there are, and those of
another one are the first one, if there is any. -/
inductive Matches (pattern : Pattern) (text : Array Char) : List PatternMatch → Prop where
  | all {found : List PatternMatch} :
      pattern.isGlobal = true →
      Yields pattern text (pattern.find text 0) found →
      Matches pattern text found
  | first {found : Option PatternMatch} :
      pattern.isGlobal = false →
      pattern.find text 0 = .ok found →
      Matches pattern text found.toList

/-- A budget of more turns than there are matches is enough to find them. -/
theorem Yields.matchesFrom_eq
    {result : SearchResult}
    {found : List PatternMatch}
    (yields : pattern.Yields text result found)
    (enough : found.length < budget) :
    ∃ first, result = .ok first ∧ pattern.matchesFrom text budget first = .ok found := by
  induction yields generalizing budget with
  | done =>
      obtain ⟨budget, rfl⟩ := Nat.exists_eq_succ_of_ne_zero (Nat.ne_zero_of_lt enough)
      exact ⟨none, rfl, rfl⟩
  | @found first others _ inductionHypothesis =>
      obtain ⟨budget, rfl⟩ := Nat.exists_eq_succ_of_ne_zero (Nat.ne_zero_of_lt enough)
      obtain ⟨next, isNext, goesOn⟩ := inductionHypothesis (Nat.lt_of_succ_lt_succ enough)
      refine ⟨some first, rfl, ?_⟩
      rw [matchesFrom, isNext]
      change ((pattern.matchesFrom text budget next).bind _) = _
      rw [goesOn]
      rfl

theorem Yields.findAll_eq
    {found : List PatternMatch}
    (yields : pattern.Yields text (pattern.find text 0) found)
    (inOrder : InOrder text.size found) :
    pattern.findAll text = .ok found := by
  have few := inOrder.length_add_le (Nat.zero_le _) fun _ _ => Nat.zero_le _
  obtain ⟨first, isFirst, goesOn⟩ := yields.matchesFrom_eq (Nat.lt_succ_of_le few)
  unfold findAll
  rw [isFirst]
  exact goesOn

end Pattern

namespace Run

/-! ## The occurrences of a pattern -/

theorem piece_toArray (text : List Char) (span : Span) :
    piece text.toArray span = (text.drop span.start).take (span.stop - span.start) := by
  unfold piece
  rw [List.extract_toArray, List.extract_eq_take_drop]

/-- Matches in order cut a text. -/
theorem exists_cut_of_inOrder
    {text : List Char}
    {found : List PatternMatch}
    (inOrder : InOrder text.length found)
    (behind : ∀ taken ∈ found, start ≤ taken.span.start) :
    ∃ gaps, Text.Cut start (text.drop start) (found.map (occurrenceOf .chars text.toArray)) gaps := by
  induction found generalizing start with
  | nil => exact ⟨_, .last _⟩
  | cons first others inductionHypothesis =>
      obtain ⟨firstBehind, -⟩ := List.forall_mem_cons.mp behind
      obtain ⟨⟨notReversed, notBeyond⟩, -⟩ := List.forall_mem_cons.mp inOrder.inside
      obtain ⟨gaps, cut⟩ := inductionHypothesis inOrder.tail (List.pairwise_cons.mp inOrder.apart).1
      have isTaken : (occurrenceOf .chars text.toArray first).text =
          (text.drop first.span.start).take (first.span.stop - first.span.start) :=
        piece_toArray text first.span
      have isStop : (occurrenceOf .chars text.toArray first).place +
          (occurrenceOf .chars text.toArray first).text.length = first.span.stop := by
        rw [isTaken, List.length_take, List.length_drop]
        change first.span.start + _ = _
        omega
      rw [← isStop] at cut
      obtain ⟨gap, cut⟩ := Text.Cut.extend firstBehind (Nat.le_trans notReversed notBeyond)
        (isTaken ▸ List.take_prefix _ _) cut
      exact ⟨gap :: gaps, cut⟩

/-- What is looked for in a text can be found: any text, and a regular expression whose matches
come in order. -/
def IsSearchable (machine : Machine) (text : List Char) : Value → Prop
  | .string _ => True
  | .object .pattern id =>
      ∃ pattern found, machine.heap.pattern? id = some pattern ∧
        pattern.Matches text.toArray found ∧ InOrder text.length found
  | _ => False

/-- A machine after all matches of a pattern have been looked for. -/
def searchedThrough (id : Nat) (pattern : Pattern) (machine : Machine) : Machine :=
  if pattern.isGlobal then
    { machine with heap := machine.heap.setOwn id "lastIndex" (.ofNat 0) }
  else machine

/-- The occurrences that are replaced: the first one of a text, and the matches of a regular
expression. -/
inductive Finds (machine : Machine) (text : List Char) :
    Value → List (Text.Occurrence Char) → Machine → Prop where
  | nowhere {wanted : String} :
      (∀ place, ¬Text.OccursAt wanted.toList text place) →
      Finds machine text (.string wanted) [] machine
  | leftmost {wanted : String} {place : Nat} :
      Text.OccursAt wanted.toList text place →
      (∀ earlier < place, ¬Text.OccursAt wanted.toList text earlier) →
      Finds machine text (.string wanted) [⟨place, wanted.toList, []⟩] machine
  | matched {id : Nat} {pattern : Pattern} {found : List PatternMatch} :
      machine.heap.pattern? id = some pattern →
      pattern.Matches text.toArray found →
      Finds machine text (.object .pattern id) (found.map (occurrenceOf .chars text.toArray))
        (searchedThrough id pattern machine)

/-- A text is found where it occurs first, and cuts the text there. -/
theorem exists_first_occurrence (machine : Machine) (text : List Char) (wanted : String) :
    ∃ gaps, Finds machine text (.string wanted)
        (Units.chars.occurrence? text wanted.toList).toList machine ∧
      Text.Cut 0 text (Units.chars.occurrence? text wanted.toList).toList gaps := by
  have isSearched : Units.chars.occurrence? text wanted.toList =
      (Text.indexOf? text wanted.toList 0).map fun place => ⟨place, wanted.toList, []⟩ :=
    rfl
  rw [isSearched]
  cases isFirst : Text.indexOf? text wanted.toList 0 with
  | none =>
      have enough : text.length < text.length + 1 - 0 := Nat.lt_succ_self _
      exact ⟨[text], .nowhere (Text.not_occursAt_of_indexFrom enough isFirst), .last text⟩
  | some place =>
      obtain ⟨-, occurs, notEarlier⟩ := Text.occursAt_of_indexFrom isFirst
      rw [List.drop_zero, Nat.sub_zero] at occurs notEarlier
      have inside : place ≤ text.length := by
        -- Behind the end a text occurs only if it occurs at the end.
        by_contra beyond
        refine notEarlier text.length (Nat.lt_of_not_le beyond) ?_
        unfold Text.OccursAt at occurs ⊢
        rwa [List.drop_length, ← List.drop_eq_nil_of_le (Nat.le_of_not_le beyond)]
      obtain ⟨gap, cut⟩ := @Text.Cut.extend text 0 ⟨place, wanted.toList, []⟩ _ _
        (Nat.zero_le place) inside occurs (.last _)
      exact ⟨_, .leftmost occurs notEarlier, cut⟩

/-- The occurrences are found, and they cut the text. -/
theorem exists_occurrences
    (call : Caller)
    {machine : Machine}
    {text : List Char}
    {pattern : Value}
    (searchable : IsSearchable machine text pattern) :
    ∃ found gaps after, Finds machine text pattern found after ∧ Text.Cut 0 text found gaps ∧
      occurrences call text pattern machine = .ok found after := by
  unfold IsSearchable at searchable
  split at searchable
  · rename_i wanted
    obtain ⟨gaps, finds, cut⟩ := exists_first_occurrence machine text wanted
    exact ⟨_, gaps, machine, finds, cut, rfl⟩
  · rename_i id
    obtain ⟨pattern, found, isPattern, areMatches, inOrder⟩ := searchable
    obtain ⟨gaps, cut⟩ := exists_cut_of_inOrder inOrder fun _ _ => Nat.zero_le _
    refine ⟨_, gaps, _, .matched isPattern areMatches, cut, ?_⟩
    unfold occurrences searchedThrough
    simp only
    rw [heap_bind, isPattern]
    simp only
    cases areMatches with
    | all isGlobal yields =>
        rw [if_pos isGlobal, if_pos isGlobal, yields.findAll_eq inOrder]
        rfl
    | first notGlobal isFirst =>
        rw [if_neg (Bool.eq_false_iff.mp notGlobal), if_neg (Bool.eq_false_iff.mp notGlobal), isFirst]
        rfl
  · exact searchable.elim

end Run

/-! ## Putting the text together -/

namespace Text

/-- An occurrence in a row of units. -/
def Occurrence.encode {α : Type} (units : Units α) (found : Occurrence Char) : Occurrence α :=
  ⟨found.place, units.encode found.text, found.groups.map (·.map units.encode)⟩

theorem map_chars_encode (rows : List (List Char)) : rows.map Units.chars.encode = rows :=
  List.map_id rows

theorem map_encode_chars (found : List (Occurrence Char)) :
    found.map (.encode .chars) = found := by
  have stays (taken : Occurrence Char) : taken.encode .chars = taken := by
    unfold Occurrence.encode
    exact congrArg (Occurrence.mk _ _)
      ((List.map_congr_left fun group _ => Option.map_id_apply).trans (List.map_id _))
  exact (List.map_congr_left fun taken _ => stays taken).trans (List.map_id _)

section

variable {α : Type} {units : Units α} {text : List Char} {found : List (Occurrence Char)}

theorem Units.Faithful.stop_encode (faithful : units.Faithful) (found : Occurrence Char) :
    units.stop (found.encode units) = found.place + found.text.length := by
  unfold stop Occurrence.encode
  rw [faithful.decode_encode]

/-- What is put in for the occurrences is written between the pieces of the text. -/
theorem Cut.fill_eq
    (faithful : units.Faithful)
    (insertion : Occurrence α → List α)
    {rest : List Char}
    (cut : Cut place rest found gaps)
    (isRest : rest = text.drop place) :
    units.fill text.toArray place
        ((found.map (.encode units)).map fun taken => (taken, insertion taken)) =
      weave (gaps.map units.encode) ((found.map (.encode units)).map insertion) := by
  induction cut with
  | @last place rest =>
      have isPiece : (text.toArray.extract place text.toArray.size).toList = rest := by
        rw [List.extract_toArray, List.extract_eq_take_drop, List.size_toArray, ← isRest,
          List.take_of_length_le]
        rw [isRest, List.length_drop]
      change units.encode _ = [units.encode rest].flatten
      rw [isPiece, List.flatten_singleton]
  | @next place gap rest taken others gaps isPlace _ inductionHypothesis =>
      have isGap : (text.toArray.extract place taken.place).toList = gap := by
        rw [List.extract_toArray, List.extract_eq_take_drop, ← isRest, isPlace,
          Nat.add_sub_cancel_left, List.take_left]
      have isBehind : rest = text.drop (taken.place + taken.text.length) := by
        rw [isPlace, Nat.add_assoc, ← List.drop_drop, ← isRest, ← List.append_assoc,
          ← List.length_append, List.drop_left]
      rw [List.map_cons, List.map_cons, Units.fill, faithful.stop_encode,
        inductionHypothesis isBehind]
      change units.encode (text.toArray.extract place taken.place).toList ++ _ = _
      rw [isGap]
      rfl

theorem Units.Faithful.encode_flatten (faithful : units.Faithful) (rows : List (List Char)) :
    units.encode rows.flatten = (rows.map units.encode).flatten := by
  induction rows with
  | nil => exact faithful.encode_nil
  | cons row rows inductionHypothesis =>
      rw [List.flatten_cons, faithful.encode_append, inductionHypothesis]
      rfl

/-- The units of what is woven are woven from the units. -/
theorem Units.Faithful.encode_weave
    (faithful : units.Faithful)
    (gaps fillers : List (List Char)) :
    units.encode (weave gaps fillers) =
      weave (gaps.map units.encode) (fillers.map units.encode) := by
  induction gaps generalizing fillers with
  | nil => cases fillers <;> exact faithful.encode_nil
  | cons gap gaps inductionHypothesis =>
      cases fillers with
      | nil => exact faithful.encode_flatten (gap :: gaps)
      | cons filler fillers =>
          rw [weave, faithful.encode_append, faithful.encode_append, inductionHypothesis]
          rfl

/--
What it takes to lose and to invent nothing.  For every template, the pieces between the
occurrences are given back with exactly one expansion of the template between each and the next one.  The
template that stands for the occurrence gives the text back, and a text with its dollar signs
doubled is put in as it is.
-/
structure Replaces
    (units : Units α) (text : List Char) (found : List (Occurrence α)) (gaps : List (List α)) :
    Prop where
  expanded : ∀ template, ∃ expansions,
    List.Forall₂ (fun taken => (units.insertions text taken).Expands units template)
      found expansions ∧
    units.replaceAll text found template = weave gaps expansions
  whole : ∀ {dollar mark : α}, units.mark dollar = '$' → units.mark mark = '&' →
    units.replaceAll text found [dollar, mark] = units.encode text
  literal : ∀ inserted,
    units.replaceAll text found (doubled units inserted) = weave gaps (found.map fun _ => inserted)

theorem Cut.replaces (faithful : units.Faithful) (cut : Cut 0 text found gaps) :
    Replaces units text (found.map (.encode units)) (gaps.map units.encode) := by
  have replaces (template : List α) :
      units.replaceAll text (found.map (.encode units)) template =
        weave (gaps.map units.encode)
          ((found.map (.encode units)).map fun taken => units.expand text taken template) :=
    cut.fill_eq faithful (fun taken => units.expand text taken template) List.drop_zero.symm
  refine ⟨fun template => ⟨_, ?_, replaces template⟩, fun isDollar isMark => ?_, fun inserted => ?_⟩
  · exact List.forall₂_map_right_iff.mpr (List.forall₂_same.mpr fun taken _ =>
      Insertions.expands_expand units text taken template)
  · rw [replaces, ← cut.weave_occurrences, faithful.encode_weave, cut.weave_occurrences,
      List.map_map, List.map_map]
    refine congrArg (weave _) (List.map_congr_left fun taken _ => ?_)
    exact (Insertions.expands_expand units text _ _).unique
      (Insertions.expands_whole isDollar isMark)
  · rw [replaces]
    refine congrArg (weave _) (List.map_congr_left fun taken _ => ?_)
    exact (Insertions.expands_expand units text taken _).unique
      (Insertions.expands_doubled inserted)

end

/-! ### Bytes -/

/-- What the references stand for in bytes are the bytes of what they stand for. -/
theorem insertions_bytes (text : List Char) (found : Occurrence Char) :
    (Units.chars.insertions text found).bytes =
      Units.bytes.insertions text (found.encode .bytes) := by
  have sameGroups : (found.groups.map (·.getD [])).map bytesOf =
      (found.groups.map (·.map bytesOf)).map (·.getD []) := by
    rw [List.map_map, List.map_map]
    refine List.map_congr_left fun group _ => ?_
    cases group <;> rfl
  unfold Insertions.bytes Units.insertions
  rw [Units.faithful_bytes.stop_encode]
  exact congrArg (Insertions.mk _ _ _) sameGroups

/-- The bytes of a text are replaced by the bytes of what the text is replaced by. -/
theorem Cut.replaceAll_bytesOf
    {text : List Char}
    {found : List (Occurrence Char)}
    (cut : Cut 0 text found gaps)
    (template : List Char) :
    Units.bytes.replaceAll text (found.map (.encode .bytes)) (bytesOf template) =
      bytesOf (Units.chars.replaceAll text found template) := by
  have inBytes := cut.fill_eq Units.faithful_bytes
    (fun taken => Units.bytes.expand text taken (bytesOf template)) List.drop_zero.symm
  have inChars := cut.fill_eq Units.faithful_chars
    (fun taken => Units.chars.expand text taken template) List.drop_zero.symm
  have sameExpansion (taken : Occurrence Char) :
      Units.bytes.expand text (taken.encode .bytes) (bytesOf template) =
        bytesOf (Units.chars.expand text taken template) := by
    have expands := (Insertions.expands_expand .chars text taken template).bytes
    rw [insertions_bytes] at expands
    exact (Insertions.expands_expand .bytes text _ _).unique expands
  rw [map_encode_chars] at inChars
  calc Units.bytes.replaceAll text (found.map (.encode .bytes)) (bytesOf template)
    _ = weave (gaps.map bytesOf) ((found.map (.encode .bytes)).map fun taken =>
          Units.bytes.expand text taken (bytesOf template)) := inBytes
    _ = weave (gaps.map bytesOf)
          ((found.map fun taken => Units.chars.expand text taken template).map bytesOf) := by
        rw [List.map_map, List.map_map]
        exact congrArg (weave _) (List.map_congr_left fun taken _ => sameExpansion taken)
    _ = bytesOf (weave gaps (found.map fun taken => Units.chars.expand text taken template)) :=
        (Units.faithful_bytes.encode_weave _ _).symm
    _ = bytesOf (Units.chars.replaceAll text found template) := by
        refine congrArg bytesOf (Eq.trans ?_ inChars.symm)
        rw [map_chars_encode]

end Text

namespace Run

theorem replacements_template
    (call : Caller)
    (text : List Char)
    (whole : Value)
    (machine : Machine)
    (template : String)
    (found : List (Text.Occurrence Char)) :
    replacements call text whole (.string template) found machine =
      .ok (found.map fun taken => (taken, Units.chars.expand text taken template.toList))
        machine := by
  induction found with
  | nil => rfl
  | cons taken others inductionHypothesis =>
      have inserts : replacementOf call text whole (.string template) taken machine =
          .ok (Units.chars.expand text taken template.toList) machine := rfl
      rw [replacements, bind_of_ok inserts, bind_of_ok inductionHypothesis]
      rfl

theorem replace_of_occurrences
    (call : Caller)
    {machine after : Machine}
    {text : String}
    {pattern : Value}
    {found : List (Text.Occurrence Char)}
    (finds : occurrences call text.toList pattern machine = .ok found after)
    (template : String) :
    Builtin.replace.run call (.string text) [pattern, .string template] machine =
      .ok (.string (String.ofList (Units.chars.replaceAll text.toList found template.toList)))
        after := by
  have receives : receivingText call "replace" (.string text) machine = .ok text.toList machine :=
    rfl
  have inserts := replacements_template call text.toList (.string (String.ofList text.toList)) after
    template found
  change replace call (.string text) [pattern, .string template] machine = _
  unfold replace
  rw [bind_of_ok receives]
  change (occurrences call text.toList pattern >>= _) machine = _
  rw [bind_of_ok finds]
  change (replacements call text.toList _ (.string template) found >>= _) after = _
  rw [bind_of_ok inserts]
  rfl

/--
A text in which a pattern is replaced: the occurrences that are found cut the text into pieces,
every template is put in as it says, and the machine that gives the text back is the one after
the search.  In memory the bytes of the text are replaced in the same way, by a template of any
bytes, and by the bytes of a text to the bytes of what scripts are given.
-/
structure IsReplaced
    (call : Caller)
    (machine : Machine)
    (text : String)
    (pattern : Value)
    (found : List (Text.Occurrence Char))
    (gaps : List (List Char))
    (after : Machine) : Prop where
  finds : Finds machine text.toList pattern found after
  cut : Text.Cut 0 text.toList found gaps
  gives : ∀ template : String,
    Builtin.replace.run call (.string text) [pattern, .string template] machine =
      .ok (.string (String.ofList (Units.chars.replaceAll text.toList found template.toList))) after
  chars : Text.Replaces .chars text.toList found gaps
  bytes : Text.Replaces .bytes text.toList (found.map (.encode .bytes)) (gaps.map bytesOf)
  givesBytes : ∀ template : String,
    Units.bytes.replaceAll text.toList (found.map (.encode .bytes)) (bytesOf template.toList) =
      bytesOf (Units.chars.replaceAll text.toList found template.toList)
  first : ∀ wanted : String, pattern = .string wanted → ∀ template,
    Units.bytes.replaceFirst (bytesOf text.toList) (bytesOf wanted.toList) template =
      Units.bytes.replaceAll text.toList (found.map (.encode .bytes)) template

/-- A text is found among the bytes of another one where it is found among its characters. -/
theorem occurrence?_bytesOf (text wanted : List Char) :
    Units.bytes.occurrence? text (bytesOf wanted) =
      (Units.chars.occurrence? text wanted).map (.encode .bytes) := by
  have decodes : Units.bytes.decode (bytesOf wanted) = wanted :=
    Text.Units.faithful_bytes.decode_encode wanted
  unfold Units.occurrence?
  rw [decodes, Option.map_map]
  rfl

/--
Replacing loses and invents nothing, for every text, and for every text or regular expression
whose matches come in order as the pattern.
-/
theorem replace_loses_and_invents_nothing
    (call : Caller)
    {machine : Machine}
    {text : String}
    {pattern : Value}
    (searchable : IsSearchable machine text.toList pattern) :
    ∃ found gaps after, IsReplaced call machine text pattern found gaps after := by
  obtain ⟨found, gaps, after, finds, cut, gives⟩ := exists_occurrences call searchable
  have replaces := cut.replaces Text.Units.faithful_chars
  rw [Text.map_encode_chars, Text.map_chars_encode] at replaces
  refine ⟨found, gaps, after, finds, cut, replace_of_occurrences call gives, replaces,
    cut.replaces Text.Units.faithful_bytes, fun template => cut.replaceAll_bytesOf _, ?_⟩
  rintro wanted rfl template
  have isFound : found = (Units.chars.occurrence? text.toList wanted.toList).toList := by
    cases gives
    rfl
  have decodes : Units.bytes.decode (bytesOf text.toList) = text.toList :=
    Text.Units.faithful_bytes.decode_encode text.toList
  unfold Units.replaceFirst
  dsimp only
  rw [decodes, occurrence?_bytesOf, isFound, Option.toList_map]

/-- A regular expression with empty matches at both ends of a text and a letter between them. -/
theorem replace_loses_and_invents_nothing_of_letters :
    ∃ pattern id machine,
      Pattern.compile "a*" "g" = .ok pattern ∧
      makePattern pattern (Machine.bare 0) = .ok (.object .pattern id) machine ∧
      IsSearchable machine (String.ofList ['b', 'a']).toList (.object .pattern id) ∧
      ∃ found gaps after,
        IsReplaced (callUpTo 0) machine (String.ofList ['b', 'a']) (.object .pattern id)
          found gaps after := by
  let found : List PatternMatch :=
    [⟨⟨0, 0⟩, [], 0⟩, ⟨⟨1, 2⟩, [], 2⟩, ⟨⟨2, 2⟩, [], 2⟩]
  obtain ⟨pattern, isCompiled, checked⟩ : ∃ pattern,
      Pattern.compile "a*" "g" = .ok pattern ∧
        (pattern.isGlobal &&
          pattern.yields? #['b', 'a'] (pattern.find #['b', 'a'] 0) found) = true :=
    Pattern.exists_of_compilesTo (by decide +kernel)
  obtain ⟨isGlobal, yields⟩ := (Bool.and_eq_true _ _).mp checked
  obtain ⟨id, machine, isMade, isPattern⟩ : ∃ id machine,
      makePattern pattern (Machine.bare 0) = .ok (.object .pattern id) machine ∧
      machine.heap.pattern? id = some pattern :=
    ⟨_, _, rfl, rfl⟩
  have inOrder : InOrder 2 found := by decide
  have searchable :
      IsSearchable machine (String.ofList ['b', 'a']).toList (.object .pattern id) := by
    rw [String.toList_ofList]
    exact ⟨pattern, found, isPattern, .all isGlobal (Pattern.yields_of_yields? yields), inOrder⟩
  exact ⟨pattern, id, machine, isCompiled, isMade, searchable,
    replace_loses_and_invents_nothing (callUpTo 0) searchable⟩

/-- A byte that belongs to no character is lost, where nothing is found and where the occurrence
itself is put in; and such a byte is put in where it is looked for as a replacement mark. -/
theorem stray_byte_is_lost_and_invented :
    Units.bytes.replaceFirst [0xFF] [0x78] [0x79] ≠ [0xFF] ∧
      Units.bytes.replaceFirst [0xFF] [] [0x24, 0x26] ≠ [0xFF] ∧
      Units.bytes.replaceFirst [0xEF, 0xBF, 0xBD] [0xFF] [0x24, 0x26] = [0xFF] := by
  decide

end Run

end ScriptEngine
