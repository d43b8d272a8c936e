import ScriptEngine.Proofs.Builtin.Units
import ScriptEngine.Proofs.Machine.PropertyStore

namespace ScriptEngine

open Token (bytesOf)

/-!
# Splitting and joining

A text is split where a separator occurs in it.  The occurrences are taken from the left, and
the next one is looked for behind the one before, so they do not overlap.  What is between them
does not hold the separator, and joined by the separator it is the text again.

An empty separator occurs everywhere; it parts a text into its characters.

In memory a text is a row of bytes, and a separator is looked for byte by byte.  It cannot occur
inside of a character, so the text is parted in the same places.  A row that is not made of the
bytes of characters is parted by its separator as well, and joined to what it was.  Only the empty
separator does not give such a row back: it parts it into what it is decoded to.
-/

namespace Text

section

variable {α : Type} {separator text : List α}

/-- A row parted into pieces at the leftmost occurrences of a separator. -/
inductive Parted (separator : List α) : List α → List (List α) → Prop where
  | done : Parted separator [] [[]]
  | cut {rest : List α} {pieces : List (List α)} :
      Parted separator rest pieces →
      Parted separator (separator ++ rest) ([] :: pieces)
  | keep {first : α} {rest piece : List α} {pieces : List (List α)} :
      ¬separator <+: first :: rest →
      Parted separator rest (piece :: pieces) →
      Parted separator (first :: rest) ((first :: piece) :: pieces)

namespace Parted

/-- Joined by the separator, the pieces are the row. -/
theorem intercalate_eq {pieces : List (List α)} (parted : Parted separator text pieces) :
    separator.intercalate pieces = text := by
  induction parted with
  | done => rfl
  | @cut rest pieces parted inductionHypothesis =>
      cases pieces with
      | nil => cases parted
      | cons piece pieces => rw [List.intercalate_cons_cons, inductionHypothesis, List.nil_append]
  | @keep first rest piece pieces _ _ inductionHypothesis =>
      rw [← inductionHypothesis]
      cases pieces with
      | nil => rfl
      | cons next pieces => rw [List.intercalate_cons_cons, List.intercalate_cons_cons]; rfl

theorem prefix_of_head
    {piece : List α}
    {pieces : List (List α)}
    (parted : Parted separator text (piece :: pieces)) :
    piece <+: text := by
  generalize isRow : piece :: pieces = row at parted
  induction parted generalizing piece pieces with
  | done =>
      obtain ⟨rfl, -⟩ := List.cons.inj isRow
      exact List.nil_prefix
  | cut =>
      obtain ⟨rfl, -⟩ := List.cons.inj isRow
      exact List.nil_prefix
  | keep _ _ inductionHypothesis =>
      obtain ⟨rfl, -⟩ := List.cons.inj isRow
      exact List.prefix_cons_inj _ |>.mpr (inductionHypothesis rfl)

/-- No piece holds the separator. -/
theorem not_within
    (notEmpty : separator ≠ [])
    {pieces : List (List α)}
    (parted : Parted separator text pieces) :
    ∀ piece ∈ pieces, ¬separator <:+: piece := by
  have notInEmpty : ¬separator <:+: [] := mt List.eq_nil_of_infix_nil notEmpty
  induction parted with
  | done => exact List.forall_mem_singleton.mpr notInEmpty
  | cut _ inductionHypothesis => exact List.forall_mem_cons.mpr ⟨notInEmpty, inductionHypothesis⟩
  | keep notHere parted inductionHypothesis =>
      obtain ⟨notInPiece, notInRest⟩ := List.forall_mem_cons.mp inductionHypothesis
      refine List.forall_mem_cons.mpr ⟨fun holds => ?_, notInRest⟩
      rcases List.infix_cons_iff.mp holds with atStart | further
      · exact notHere (atStart.trans ((List.prefix_cons_inj _).mpr parted.prefix_of_head))
      · exact notInPiece further

/-- A row is parted in one way only. -/
theorem unique
    (notEmpty : separator ≠ [])
    {pieces others : List (List α)}
    (parted : Parted separator text pieces)
    (partedToo : Parted separator text others) :
    pieces = others := by
  induction parted generalizing others with
  | done =>
      generalize isText : [] = text at partedToo
      cases partedToo with
      | done => rfl
      | cut => exact absurd (List.append_eq_nil_iff.mp isText.symm).1 notEmpty
      | keep => cases isText
  | @cut rest pieces _ inductionHypothesis =>
      generalize isText : separator ++ rest = text at partedToo
      cases partedToo with
      | done => exact absurd (List.append_eq_nil_iff.mp isText).1 notEmpty
      | cut partedToo =>
          obtain rfl := List.append_cancel_left isText
          rw [inductionHypothesis partedToo]
      | keep notHere => exact absurd ⟨rest, isText⟩ notHere
  | @keep first rest piece pieces notHere _ inductionHypothesis =>
      generalize isText : first :: rest = text at partedToo
      cases partedToo with
      | done => cases isText
      | @cut behind => exact absurd ⟨behind, isText.symm⟩ notHere
      | keep _ partedToo =>
          obtain ⟨rfl, rfl⟩ := List.cons.inj isText
          obtain ⟨rfl, rfl⟩ := List.cons.inj (inductionHypothesis partedToo)
          rfl

end Parted

/-! ## Occurrences -/

/-- A row occurs at a place in another one. -/
def OccursAt (wanted text : List α) (place : Nat) : Prop := wanted <+: text.drop place

/-- Units in which the separator starts nowhere are the start of a piece. -/
theorem Parted.behind
    {rest piece units : List α}
    {pieces : List (List α)}
    (nowhere : ∀ place < units.length, ¬OccursAt separator (units ++ rest) place)
    (parted : Parted separator rest (piece :: pieces)) :
    Parted separator (units ++ rest) ((units ++ piece) :: pieces) := by
  induction units with
  | nil => exact parted
  | cons unit units inductionHypothesis =>
      refine .keep (nowhere 0 (Nat.zero_lt_succ _)) (inductionHypothesis fun place inside => ?_)
      exact nowhere (place + 1) (Nat.succ_lt_succ inside)

/-- The places of the leftmost occurrences of a row from a place on, none of which overlap. -/
inductive LeftmostFrom (wanted text : List α) : Nat → List Nat → Prop where
  | none {start : Nat} :
      (∀ place ≥ start, ¬OccursAt wanted text place) →
      LeftmostFrom wanted text start []
  | next {start place : Nat} {places : List Nat} :
      start ≤ place →
      OccursAt wanted text place →
      (∀ earlier ≥ start, earlier < place → ¬OccursAt wanted text earlier) →
      LeftmostFrom wanted text (place + wanted.length) places →
      LeftmostFrom wanted text start (place :: places)

namespace LeftmostFrom

variable {wanted : List α} {start : Nat} {places others : List Nat}

/-- There is one list of leftmost occurrences only. -/
theorem unique
    (leftmost : LeftmostFrom wanted text start places)
    (leftmostToo : LeftmostFrom wanted text start others) :
    places = others := by
  induction leftmost generalizing others with
  | none nowhere =>
      cases leftmostToo with
      | none => rfl
      | next behind occurs => exact absurd occurs (nowhere _ behind)
  | @next start place places behind occurs notEarlier _ inductionHypothesis =>
      cases leftmostToo with
      | none nowhere => exact absurd occurs (nowhere _ behind)
      | @next _ other _ behindToo occursToo notEarlierToo leftmostToo =>
          have notLater : ¬other < place := fun earlier =>
            notEarlier other behindToo earlier occursToo
          have notEarlierOne : ¬place < other := fun earlier =>
            notEarlierToo place behind earlier occurs
          obtain rfl : place = other := by omega
          rw [inductionHypothesis leftmostToo]

/-- A place without an occurrence can be passed over. -/
theorem passed
    (notHere : ¬OccursAt wanted text start)
    (leftmost : LeftmostFrom wanted text (start + 1) places) :
    LeftmostFrom wanted text start places := by
  cases leftmost with
  | none nowhere =>
      refine .none fun place behind => ?_
      rcases Nat.lt_or_eq_of_le behind with further | rfl
      · exact nowhere place further
      · exact notHere
  | next behind occurs notEarlier leftmost =>
      refine .next (Nat.le_of_succ_le behind) occurs (fun earlier from_ before => ?_) leftmost
      rcases Nat.lt_or_eq_of_le from_ with further | rfl
      · exact notEarlier earlier further before
      · exact notHere

end LeftmostFrom

/-- A row is parted at the leftmost occurrences of the separator. -/
theorem Parted.leftmost
    (notEmpty : separator ≠ [])
    {rest : List α}
    {pieces : List (List α)}
    (parted : Parted separator rest pieces)
    {start : Nat}
    (isRest : rest = text.drop start) :
    ∃ places, LeftmostFrom separator text start places ∧ pieces.length = places.length + 1 := by
  induction parted generalizing start with
  | done =>
      refine ⟨[], .none fun place behind occurs => notEmpty ?_, rfl⟩
      have ended : text.drop place = [] :=
        List.drop_eq_nil_of_le (Nat.le_trans (List.drop_eq_nil_iff.mp isRest.symm) behind)
      unfold OccursAt at occurs
      rw [ended] at occurs
      exact List.prefix_nil.mp occurs
  | @cut rest pieces _ inductionHypothesis =>
      have isBehind : rest = text.drop (start + separator.length) := by
        rw [← List.drop_drop, ← isRest, List.drop_left]
      obtain ⟨places, leftmost, length⟩ := inductionHypothesis isBehind
      refine ⟨start :: places, .next (Nat.le_refl _) ⟨rest, isRest⟩ ?_ leftmost, ?_⟩
      · intro earlier behind before
        exact absurd behind (Nat.not_le_of_lt before)
      · rw [List.length_cons, List.length_cons, length]
  | @keep first rest piece pieces notHere _ inductionHypothesis =>
      have isBehind : rest = text.drop (start + 1) := by
        rw [← List.drop_drop, ← isRest, List.drop_one, List.tail_cons]
      obtain ⟨places, leftmost, length⟩ := inductionHypothesis isBehind
      refine ⟨places, leftmost.passed ?_, length⟩
      unfold OccursAt
      rwa [← isRest]

end

/-! ## Bytes -/

theorem encoding_ne_nil (char : Char) : String.utf8EncodeChar char ≠ [] := by
  refine List.ne_nil_of_length_pos ?_
  rw [String.length_utf8EncodeChar]
  exact char.utf8Size_pos

/-- No character is encoded as the start of another one. -/
theorem eq_of_encodings
    {char other : Char}
    {rest otherRest : List UInt8}
    (same : String.utf8EncodeChar char ++ rest = String.utf8EncodeChar other ++ otherRest) :
    char = other ∧ rest = otherRest := by
  have decodes (char : Char) (rest : List UInt8) :
      (String.utf8EncodeChar char ++ rest).toByteArray.utf8DecodeChar? 0 = some char := by
    rw [List.toByteArray_append]
    exact ByteArray.utf8DecodeChar?_utf8EncodeChar_append
  have sameChar : some char = some other := by
    rw [← decodes char rest, same, decodes]
  obtain rfl := Option.some.inj sameChar
  exact ⟨rfl, List.append_cancel_left same⟩

/-- A text starts with another one if its bytes do. -/
theorem prefix_of_bytesOf {wanted text : List Char} (starts : bytesOf wanted <+: bytesOf text) :
    wanted <+: text := by
  induction wanted generalizing text with
  | nil => exact List.nil_prefix
  | cons char wanted inductionHypothesis =>
      obtain ⟨rest, isRest⟩ := starts
      cases text with
      | nil =>
          have noBytes := (List.append_eq_nil_iff.mp isRest).1
          unfold bytesOf at noBytes
          rw [List.flatMap_cons, List.append_eq_nil_iff] at noBytes
          exact absurd noBytes.1 (encoding_ne_nil char)
      | cons first text =>
          unfold bytesOf at isRest
          rw [List.flatMap_cons, List.flatMap_cons, List.append_assoc] at isRest
          obtain ⟨sameChar, isBehind⟩ := eq_of_encodings isRest
          subst sameChar
          exact (List.prefix_cons_inj _).mpr (inductionHypothesis ⟨rest, isBehind⟩)

/-- The bytes of a text occur in the bytes behind a character only where the character starts. -/
theorem not_occursAt_of_inside
    {wanted : List Char}
    (notEmpty : wanted ≠ [])
    (first : Char)
    (rest : List UInt8)
    {place : Nat}
    (behind : 0 < place)
    (inside : place < (String.utf8EncodeChar first).length) :
    ¬OccursAt (bytesOf wanted) (String.utf8EncodeChar first ++ rest) place := by
  rintro ⟨others, isWanted⟩
  cases wanted with
  | nil => exact absurd rfl notEmpty
  | cons char wanted =>
      have positive := List.length_pos_iff.mpr (encoding_ne_nil char)
      have isFirst : (String.utf8EncodeChar char)[0] = (String.utf8EncodeChar first)[place] := by
        have sameHead := congrArg (·[0]?) isWanted
        unfold bytesOf at sameHead
        rw [List.flatMap_cons, List.append_assoc, List.getElem?_append_left positive,
          List.getElem?_drop, Nat.add_zero, List.getElem?_append_left inside,
          List.getElem?_eq_getElem positive, List.getElem?_eq_getElem inside] at sameHead
        exact Option.some.inj sameHead
      have starts : (String.utf8EncodeChar char)[0].IsUTF8FirstByte :=
        UInt8.isUTF8FirstByte_getElem_utf8EncodeChar.mpr rfl
      rw [isFirst, UInt8.isUTF8FirstByte_getElem_utf8EncodeChar] at starts
      exact absurd starts (Nat.ne_of_gt behind)

/-- The bytes of a text are parted at the bytes of a separator as the text is at the separator. -/
theorem Parted.bytes
    {separator text : List Char}
    (notEmpty : separator ≠ [])
    {pieces : List (List Char)}
    (parted : Parted separator text pieces) :
    Parted (bytesOf separator) (bytesOf text) (pieces.map bytesOf) := by
  induction parted with
  | done => exact .done
  | cut _ inductionHypothesis =>
      rw [Token.bytesOf_append]
      exact .cut inductionHypothesis
  | @keep first rest piece pieces notHere _ inductionHypothesis =>
      have nowhere : ∀ place < (String.utf8EncodeChar first).length,
          ¬OccursAt (bytesOf separator) (String.utf8EncodeChar first ++ bytesOf rest) place := by
        intro place inside occurs
        rcases Nat.eq_zero_or_pos place with rfl | behind
        · exact notHere (prefix_of_bytesOf occurs)
        · exact not_occursAt_of_inside notEmpty first _ behind inside occurs
      exact .behind nowhere inductionHypothesis

/-! ## How texts are split -/

/--
What splitting a text at a separator gives.  Joined by the separator the pieces are the text, but
for a text that is not made of characters and is split at the empty separator.  At a separator
that is not empty, no piece holds the separator, and the pieces are one more than its leftmost
occurrences, none of which overlap and which are only one list of places.  At the empty separator
the pieces are the characters of the text.
-/
structure SplitsInto
    {α : Type} (units : Units α) (text separator : List α) (pieces : List (List α)) : Prop where
  joined : separator.intercalate pieces = text ↔
    separator ≠ [] ∨ ∃ characters, text = units.encode characters
  apart : separator ≠ [] → ∀ piece ∈ pieces, ¬separator <:+: piece
  counted : separator ≠ [] → ∃ places, LeftmostFrom separator text 0 places ∧
    (∀ others, LeftmostFrom separator text 0 others → others = places) ∧
    pieces.length = places.length + 1
  characters : separator = [] →
    pieces = (units.decode text).map fun char => units.encode [char]

/-- Joined by nothing, rows are appended. -/
theorem intercalate_nothing {α : Type} (rows : List (List α)) :
    [].intercalate rows = rows.flatten := by
  induction rows with
  | nil => rfl
  | cons row rows inductionHypothesis =>
      cases rows with
      | nil => exact List.intercalate_singleton.trans (List.append_nil row).symm
      | cons next rows =>
          rw [List.intercalate_cons_cons, List.append_nil, inductionHypothesis,
            ← List.flatten_cons]

section

variable {α : Type} [BEq α]

namespace Units

variable {units : Units α}

/-- The empty separator parts a text into the characters that it is decoded to. -/
theorem split_at_nothing (faithful : units.Faithful) (text : List α) :
    units.split text [] = (units.decode text).map fun char => units.encode [char] := by
  unfold split
  cases text with
  | nil =>
      have noCharacters := faithful.decode_encode []
      rw [faithful.encode_nil] at noCharacters
      rw [noCharacters]
      rfl
  | cons first rest => rfl

/-- Joined by nothing, the characters of a text are encoded again. -/
theorem intercalate_split_at_nothing (faithful : units.Faithful) (text : List α) :
    [].intercalate (units.split text []) = units.encode (units.decode text) := by
  rw [split_at_nothing faithful, ← faithful.flatten_encode]
  exact intercalate_nothing _

end Units

variable [LawfulBEq α]

/-- Splitting parts a text, behind what has been read of the first piece. -/
theorem parted_splitFrom
    {separator : List α}
    (notEmpty : separator ≠ [])
    {budget : Nat}
    {text : List α}
    (enough : text.length < budget)
    (read : List α) :
    ∃ piece pieces, splitFrom separator budget read text = (read.reverse ++ piece) :: pieces ∧
      Parted separator text (piece :: pieces) := by
  induction budget generalizing text read with
  | zero => exact absurd enough (Nat.not_lt_zero _)
  | succ budget inductionHypothesis =>
      cases text with
      | nil => exact ⟨[], [], by rw [splitFrom, List.append_nil], .done⟩
      | cons first rest =>
          rw [splitFrom]
          split
          · rename_i here
            obtain ⟨behind, isText⟩ := List.isPrefixOf_iff_prefix.mp here
            have shorter : behind.length < budget := by
              have sameLength := congrArg List.length isText
              have positive := List.length_pos_iff.mpr notEmpty
              rw [List.length_append] at sameLength
              omega
            obtain ⟨piece, pieces, splits, parted⟩ := inductionHypothesis shorter []
            rw [← isText, List.drop_left, splits]
            exact ⟨[], piece :: pieces, by rw [List.append_nil]; rfl, .cut parted⟩
          · rename_i notHere
            rw [List.length_cons] at enough
            obtain ⟨piece, pieces, splits, parted⟩ :=
              inductionHypothesis (Nat.lt_of_succ_lt_succ enough) (first :: read)
            refine ⟨first :: piece, pieces, ?_, .keep ?_ parted⟩
            · rw [splits, List.reverse_cons, List.append_assoc]
              rfl
            · exact mt List.isPrefixOf_iff_prefix.mpr notHere

namespace Units

variable (units : Units α)

/-- A separator that is not empty parts a text. -/
theorem parted_split
    {separator : List α}
    (notEmpty : separator ≠ [])
    (text : List α) :
    Parted separator text (units.split text separator) := by
  have notEmptyToo : ¬separator.isEmpty = true := mt List.isEmpty_iff.mp notEmpty
  unfold split
  cases text with
  | nil =>
      rw [if_pos List.isEmpty_nil, if_neg notEmptyToo]
      exact .done
  | cons first rest =>
      obtain ⟨piece, pieces, splits, parted⟩ :=
        parted_splitFrom notEmpty (Nat.lt_succ_self (first :: rest).length) []
      rw [if_neg (List.cons_ne_nil first rest ∘ List.isEmpty_iff.mp), if_neg notEmptyToo, splits]
      exact parted

end Units

theorem splitsInto_split
    {units : Units α}
    (faithful : units.Faithful)
    (text separator : List α) :
    SplitsInto units text separator (units.split text separator) where
  joined := by
    by_cases isEmpty : separator = []
    · subst isEmpty
      rw [Units.intercalate_split_at_nothing faithful]
      constructor
      · exact fun same => .inr ⟨_, same.symm⟩
      · rintro (notEmpty | ⟨characters, rfl⟩)
        · exact absurd rfl notEmpty
        · rw [faithful.decode_encode]
    · exact iff_of_true (units.parted_split isEmpty text).intercalate_eq (.inl isEmpty)
  apart notEmpty := (units.parted_split notEmpty text).not_within notEmpty
  counted notEmpty := by
    obtain ⟨places, leftmost, length⟩ :=
      (units.parted_split notEmpty text).leftmost notEmpty List.drop_zero.symm
    exact ⟨places, leftmost, fun others leftmostToo => leftmostToo.unique leftmost, length⟩
  characters isEmpty := by
    rw [isEmpty, Units.split_at_nothing faithful]

end

/-- The bytes of a text are split into the bytes of its pieces. -/
theorem split_bytesOf (text separator : List Char) :
    Units.bytes.split (bytesOf text) (bytesOf separator) =
      (Units.chars.split text separator).map bytesOf := by
  by_cases isEmpty : separator = []
  · have decodes : Units.bytes.decode (bytesOf text) = text := Units.faithful_bytes.decode_encode text
    subst isEmpty
    change Units.bytes.split (bytesOf text) [] = _
    rw [Units.split_at_nothing Units.faithful_bytes, Units.split_at_nothing Units.faithful_chars,
      decodes, List.map_map]
    rfl
  · have notEmpty : bytesOf separator ≠ [] := by
      cases separator with
      | nil => exact absurd rfl isEmpty
      | cons char rest => exact fun same => encoding_ne_nil char (List.append_eq_nil_iff.mp same).1
    have partedChars := Units.chars.parted_split isEmpty text
    exact (Units.bytes.parted_split notEmpty _).unique notEmpty (partedChars.bytes isEmpty)

end Text

namespace Run

/-- The texts of elements that are texts, wherever the reading has got to. -/
theorem joinParts_of_texts
    (call : Caller)
    {machine : Machine}
    {id moves : Nat}
    {pieces : List String}
    (isBlock : ((machine.heap.storage id).block moves) = (pieces.map Value.string).toArray)
    {remaining index : Nat}
    (isRest : index + remaining = pieces.length) :
    joinParts call id moves remaining index machine = .ok (pieces.drop index) machine := by
  induction remaining generalizing index with
  | zero =>
      have isEnd : pieces.length ≤ index := Nat.le_of_eq isRest.symm
      rw [List.drop_eq_nil_of_le isEnd]
      rfl
  | succ remaining inductionHypothesis =>
      have inside : index < pieces.length := by omega
      have isElement : ((machine.heap.storage id).block moves)[index]?.getD .undefined =
          .string pieces[index] := by
        rw [isBlock, List.getElem?_toArray, List.getElem?_map, List.getElem?_eq_getElem inside]
        rfl
      have reads : toText call (.string pieces[index]) machine = .ok pieces[index] machine := rfl
      rw [joinParts, heap_bind, isElement]
      dsimp only
      rw [bind_of_ok reads, bind_of_ok (inductionHypothesis (by omega)),
        List.drop_eq_getElem_cons inside]
      rfl

/-- Joining an array of texts joins the texts. -/
theorem arrayJoin_of_texts
    (call : Caller)
    (separator : String)
    {machine : Machine}
    {id : Nat}
    {pieces : List String}
    {storage : Storage}
    (isArray : machine.heap.body id = .array storage)
    (areTexts : storage.elements = (pieces.map Value.string).toArray) :
    ∃ after, arrayJoin call (.object .array id) [.string separator] machine =
      .ok (.string (separator.intercalate pieces)) after := by
  let watched : Machine := { machine with heap := machine.heap.modifyStorage id Storage.watch }
  have isStorage := Heap.storage_of_body isArray
  have isWatched : watched.heap.storage id = storage.watch :=
    (Heap.storage_modifyStorage isArray _).trans (congrArg Storage.watch isStorage)
  have isBlock : (watched.heap.storage id).block storage.trail.moves =
      (pieces.map Value.string).toArray := by
    rw [isWatched, ← areTexts]
    exact if_pos rfl
  have length : storage.length = pieces.length := by
    unfold Storage.length
    rw [areTexts, List.size_toArray, List.length_map]
  have parts := joinParts_of_texts call isBlock (Nat.zero_add pieces.length)
  have received : receivingArray "join" (.object .array id) machine = .ok id machine := rfl
  have reads : toText call (.string separator) machine = .ok separator machine := rfl
  have watches : changeHeap (·.modifyStorage id Storage.watch) machine = .ok () watched := rfl
  refine ⟨{ watched with heap := watched.heap.modifyStorage id Storage.unwatch }, ?_⟩
  unfold arrayJoin
  rw [bind_of_ok received]
  change (toText call (.string separator) >>= _) machine = _
  rw [bind_of_ok reads]
  dsimp only
  rw [heap_bind, bind_of_ok watches, isStorage, length, bind_of_ok parts]
  rfl

/-- The pieces of a text are texts. -/
theorem exists_pieces (text separator : String) :
    ∃ pieces : List String,
      splitByText text.toList separator.toList = pieces.map Value.string ∧
      pieces.map String.toList = Text.Units.chars.split text.toList separator.toList := by
  refine ⟨(Text.Units.chars.split text.toList separator.toList).map String.ofList, ?_, ?_⟩
  · exact (List.map_map).symm
  · rw [List.map_map]
    exact (List.map_congr_left fun row _ => String.toList_ofList).trans (List.map_id _)

/--
Splitting and joining are inverse.  Any row of bytes is split at any other one into pieces of
which joining makes the row again, unless the row is not made of characters and the separator is
empty.  Scripts split texts in this way: a text that is split at a separator is an array of
texts, joining it by the separator gives the text, and the bytes of the text are split into the
bytes of the pieces.
-/
theorem split_and_join_are_inverse
    (call : Caller)
    (machine : Machine) :
    (∀ text separator : List UInt8,
      Text.SplitsInto .bytes text separator (Text.Units.bytes.split text separator)) ∧
    ∀ text separator : String, ∃ pieces : List String, ∃ id after last,
      Builtin.split.run call (.string text) [.string separator] machine =
        .ok (.object .array id) after ∧
      (after.heap.elements id).toList = pieces.map Value.string ∧
      Builtin.arrayJoin.run call (.object .array id) [.string separator] after =
        .ok (.string text) last ∧
      Text.SplitsInto .chars text.toList separator.toList (pieces.map String.toList) ∧
      Text.Units.bytes.split (bytesOf text.toList) (bytesOf separator.toList) =
        pieces.map fun piece => bytesOf piece.toList := by
  refine ⟨Text.splitsInto_split Text.Units.faithful_bytes, fun text separator => ?_⟩
  obtain ⟨pieces, splits, areRows⟩ := exists_pieces text separator
  have splitsInto : Text.SplitsInto .chars text.toList separator.toList
      (pieces.map String.toList) := by
    rw [areRows]
    exact Text.splitsInto_split Text.Units.faithful_chars _ _
  let storage := Storage.exact (pieces.map Value.string).toArray
  let after : Machine :=
    { machine with heap := machine.heap.push ⟨some Heap.arrayPrototype, [], .array storage⟩ }
  have isArray : after.heap.body machine.heap.size = .array storage := by
    unfold Heap.body
    rw [Array.getElem?_push_size]
  have gives : Builtin.split.run call (.string text) [.string separator] machine =
      .ok (.object .array machine.heap.size) after := by
    change makeArray (Storage.exact (splitByText text.toList separator.toList).toArray) machine = _
    rw [splits]
    rfl
  obtain ⟨last, joins⟩ := arrayJoin_of_texts call separator isArray rfl
  have isWhole : separator.intercalate pieces = text := by
    rw [← String.toList_inj, String.toList_intercalate]
    exact splitsInto.joined.mpr (.inr ⟨text.toList, rfl⟩)
  rw [isWhole] at joins
  refine ⟨pieces, machine.heap.size, after, last, gives, ?_, joins, splitsInto, ?_⟩
  · unfold Heap.elements
    rw [Heap.storage_of_body isArray]
    exact List.toList_toArray
  · rw [Text.split_bytesOf, ← areRows, List.map_map]
    rfl

/-- A byte that belongs to no character is not given back. -/
theorem stray_byte_is_split_to_replacement_mark :
    Text.Units.bytes.split [0xFF] [] = [[0xEF, 0xBF, 0xBD]] ∧
      ([] : List UInt8).intercalate (Text.Units.bytes.split [0xFF] []) ≠ [0xFF] := by
  decide

/-- Of two occurrences that overlap, the one on the left parts the text. -/
example : splitByText "aaab".toList "aa".toList = [.string "", .string "ab"] := rfl

end Run

end ScriptEngine
