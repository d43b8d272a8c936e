import ScriptEngine.Proofs.Token.Spelling

namespace ScriptEngine.Token

/-!
# Tokens of byte strings

Every byte string, whether or not it is a text, is cut into tokens up to an end of
the input without loss, and every token knows its place in it.  The same holds of
the tokens of a text among the bytes of that text.
-/

variable {before gap covered rest : List UInt8} {token : Token}

/-! ## Places among bytes -/

/-- The place after some bytes. -/
def Place.behind (bytes : List UInt8) : Place :=
  ⟨bytes.length, 1 + bytes.count lineFeed, 1 + bytesInLine bytes⟩

theorem letter_eq_lineFeed_iff (byte : UInt8) : letter byte = '\n' ↔ byte = lineFeed := by
  rw [← Char.toNat_inj, toNat_letter, ← UInt8.toNat_inj]
  rfl

theorem Place.step_behind (front : List UInt8) (byte : UInt8) :
    (Place.behind front).step byteWidth (letter byte) = Place.behind (front ++ [byte]) := by
  unfold Place.step Place.behind
  by_cases isLineFeed : byte = lineFeed
  · rw [if_pos ((letter_eq_lineFeed_iff byte).mpr isLineFeed)]
    simp [isLineFeed, byteWidth, bytesInLine, Nat.add_assoc]
  · rw [if_neg (mt (letter_eq_lineFeed_iff byte).mp isLineFeed)]
    simp [isLineFeed, byteWidth, bytesInLine, Nat.add_assoc]

theorem Place.past_letters (bytes : List UInt8) :
    Place.origin.past byteWidth (bytes.map letter) = Place.behind bytes := by
  suffices ∀ front, (Place.behind front).past byteWidth (bytes.map letter) =
      Place.behind (front ++ bytes) from this []
  intro front
  induction bytes generalizing front with
  | nil => simp [Place.past]
  | cons byte bytes inductionHypothesis =>
      calc (Place.behind front).past byteWidth ((byte :: bytes).map letter)
        _ = ((Place.behind front).step byteWidth (letter byte)).past byteWidth
              (bytes.map letter) := rfl
        _ = (Place.behind (front ++ [byte])).past byteWidth (bytes.map letter) := by
            rw [step_behind]
        _ = Place.behind (front ++ byte :: bytes) := by
            rw [inductionHypothesis, List.append_assoc, List.singleton_append]

theorem scanBytes_cut (bytes : List UInt8) :
    Cut byteWidth [] (bytes.map letter) (scanBytes bytes) :=
  scanFrom_cut byteWidth none [] (Nat.lt_succ_self _)

/-- Every token of a byte string lies in it, behind the token before it. -/
theorem scanBytes_lies
    {bytes : List UInt8}
    {earlier later : List Token}
    (isSplit : scanBytes bytes = earlier ++ token :: later) :
    ∃ before gap covered rest : List UInt8,
      bytes = before ++ gap ++ covered ++ rest ∧
        token.Lies byteWidth (before.map letter) (gap.map letter) (covered.map letter)
          (rest.map letter) ∧
        stopOf 0 earlier = before.length := by
  obtain ⟨front, gap, covered, rest, isText, lies, stop⟩ := (scanBytes_cut bytes).lies isSplit
  rw [List.nil_append] at isText
  obtain ⟨_, rest, rfl, toCovered, rfl⟩ := List.map_eq_append_iff.mp isText
  obtain ⟨_, covered, rfl, toGap, rfl⟩ := List.map_eq_append_iff.mp toCovered
  obtain ⟨front, gap, rfl, rfl, rfl⟩ := List.map_eq_append_iff.mp toGap
  refine ⟨front, gap, covered, rest, rfl, lies, ?_⟩
  rw [Place.past_letters] at stop
  exact stop

/-- Where a token starts and stops among bytes, and its line and its column. -/
theorem places_of_lies
    (lies :
      token.Lies byteWidth (before.map letter) (gap.map letter) (covered.map letter)
        (rest.map letter)) :
    token.start = (before ++ gap).length ∧
      token.line = 1 + (before ++ gap).count lineFeed ∧
      token.column = 1 + bytesInLine (before ++ gap) ∧
      token.stop = (before ++ gap ++ covered).length := by
  have starts := lies.starts
  have stops := lies.stops
  rw [← List.map_append, Place.past_letters] at starts
  rw [← List.map_append, ← List.map_append, Place.past_letters] at stops
  obtain ⟨start, line, column⟩ := Place.mk.inj starts
  exact ⟨start, line, column, stops⟩

theorem extract_middle (front middle back : List UInt8) :
    (front ++ middle ++ back).extract front.length (front ++ middle).length = middle := by
  simp

/-! ## Without loss -/

/--
A token is cut from a byte string behind an offset: blanks and comments lie between
the offset and the token, the token covers how it is written, and the end of the
input stands at the end of the bytes or at a NUL.
-/
structure CutFrom (bytes : List UInt8) (offset : Nat) (token : Token) : Prop where
  behind : offset ≤ token.start
  ordered : token.start ≤ token.stop
  inside : token.stop ≤ bytes.length
  takes : token.kind ≠ .endOfInput → token.start < token.stop
  skipped :
    Skipped ((bytes.drop token.start).map letter) ((bytes.extract offset token.start).map letter)
  written : Written ((bytes.extract token.start token.stop).map letter) token.literal token.kind
  ends : token.kind = .endOfInput → token.start = bytes.length ∨ bytes[token.start]? = some 0

theorem cutFrom_of_lies
    (lies :
      token.Lies byteWidth (before.map letter) (gap.map letter) (covered.map letter)
        (rest.map letter)) :
    token.CutFrom (before ++ gap ++ covered ++ rest) before.length := by
  obtain ⟨start, _, _, stop⟩ := places_of_lies lies
  have isGap : (before ++ gap ++ covered ++ rest).extract before.length token.start = gap := by
    rw [start, List.append_assoc _ covered]
    exact extract_middle before gap _
  have isCovered : (before ++ gap ++ covered ++ rest).extract token.start token.stop = covered := by
    rw [start, stop]
    exact extract_middle (before ++ gap) covered rest
  have isRest : (before ++ gap ++ covered ++ rest).drop token.start = covered ++ rest := by
    rw [start, List.append_assoc _ covered, List.drop_left]
  refine ⟨?_, ?_, ?_, ?_, ?_, ?_, ?_⟩
  · simp [start]
  · simp [start, stop]
  · simp [stop]
  · intro goesOn
    have positive := List.length_pos_iff.mpr (lies.takes goesOn)
    rw [List.length_map] at positive
    simp only [start, stop, List.length_append]
    omega
  · rw [isGap, isRest, List.map_append]
    exact lies.skipped
  · rw [isCovered]
    exact lies.written
  · intro isEnd
    obtain ⟨isEmpty, atEnd⟩ := lies.ends isEnd
    obtain rfl := List.map_eq_nil_iff.mp isEmpty
    cases rest with
    | nil => exact .inl (by simp [start])
    | cons byte rest =>
        have nul : isNul (letter byte) = true := atEnd _ rfl
        have isZero : byte = 0 := by
          rw [isNul, beq_iff_eq, toNat_letter] at nul
          exact UInt8.toNat_inj.mp nul
        exact .inr (by simp [start, isZero])

/-- The tokens of a text start and stop between its characters. -/
theorem scan_isValid {content : String} (member : token ∈ scan content) :
    (⟨token.start⟩ : String.Pos.Raw).IsValid content ∧
      (⟨token.stop⟩ : String.Pos.Raw).IsValid content := by
  have between : ∀ front back, content.toList = front ++ back →
      (⟨(Place.origin.past Char.utf8Size front).offset⟩ : String.Pos.Raw).IsValid content := by
    intro front back isSplit
    rw [String.Pos.Raw.isValid_iff_exists_append]
    refine ⟨String.ofList front, String.ofList back, ?_, ?_⟩
    · rw [← String.ofList_append, ← isSplit, String.ofList_toList]
    · have place := congrArg Place.offset (Place.past_after [] front)
      have size : (bytesOf front).length = (String.ofList front).utf8ByteSize := by
        rw [← String.size_toByteArray, ByteArray.size, ← Array.length_toList, ← bytesOf_toList,
          String.toList_ofList]
      exact String.Pos.Raw.ext (place.trans size)
  obtain ⟨earlier, later, isSplit⟩ := List.append_of_mem member
  have cut := scanFrom_cut Char.utf8Size none [] (Nat.lt_succ_self content.toList.length)
  obtain ⟨front, gap, covered, rest, isText, lies, _⟩ := cut.lies isSplit
  rw [List.nil_append] at isText
  have starts := congrArg Place.offset lies.starts
  have stops := lies.stops
  dsimp only at starts
  rw [starts, stops]
  exact ⟨between _ (covered ++ rest) (by simpa using isText), between _ rest isText⟩

/--
Scanning any byte string comes to its only end of the input after no more tokens than
there are bytes, every token is cut from it behind the one before it, and where the bytes
are those of a text, its tokens are found, which start and stop between characters.
-/
theorem scanBytes_without_loss (bytes : List UInt8) :
    (∃ before last,
      scanBytes bytes = before ++ [last] ∧
        last.kind = .endOfInput ∧
        (∀ token ∈ before, token.kind ≠ .endOfInput) ∧
        before.length ≤ bytes.length) ∧
      (∀ earlier token later,
        scanBytes bytes = earlier ++ token :: later → token.CutFrom bytes (stopOf 0 earlier)) ∧
      ∀ content : String, content.toByteArray.data.toList = bytes →
        scanBytes bytes = (scan content).map spelled ∧
          ∀ token ∈ scanBytes bytes,
            (⟨token.start⟩ : String.Pos.Raw).IsValid content ∧
              (⟨token.stop⟩ : String.Pos.Raw).IsValid content ∧
              ∃ literal, token.literal = spelling literal := by
  refine ⟨?_, ?_, ?_⟩
  · have ends := (scanBytes_cut bytes).ends_once
    rwa [List.length_map] at ends
  · intro earlier token later isSplit
    obtain ⟨before, gap, covered, rest, rfl, lies, stop⟩ := scanBytes_lies isSplit
    rw [stop]
    exact cutFrom_of_lies lies
  · rintro content rfl
    have same := scanBytes_text content
    refine ⟨same, ?_⟩
    rw [same]
    intro token member
    obtain ⟨found, isFound, rfl⟩ := List.mem_map.mp member
    have ⟨start, stop⟩ := scan_isValid isFound
    exact ⟨start, stop, found.literal, rfl⟩

/-- A comment that holds bytes beyond ASCII, a line feed, a byte of no text and a NUL. -/
theorem scanBytes_without_loss_of_stray_byte :
    let bytes : List UInt8 := [47, 42, 195, 169, 42, 47, 10, 255, 0]
    let name : Token := ⟨.identifier, String.ofList [letter 255], 2, 1, 7, 8, true, none⟩
    let last : Token := ⟨.endOfInput, "", 2, 2, 8, 8, false, none⟩
    scanBytes bytes = [name, last] ∧ name.CutFrom bytes 0 ∧ last.CutFrom bytes 8 := by
  intro bytes name last
  have scanned : scanBytes bytes = [name, last] := rfl
  have cut := (scanBytes_without_loss bytes).2.1
  exact ⟨scanned, cut [] name [last] scanned, cut [name] last [] scanned⟩

/-! ## Lines and columns -/

/--
The line of an offset begins at the start of the bytes or behind a line feed, with no
line feed from there up to the offset.
-/
structure LineBegins (bytes : List UInt8) (lineStart offset : Nat) : Prop where
  notBehind : lineStart ≤ offset
  first : lineStart = 0 ∨ bytes[lineStart - 1]? = some lineFeed
  unbroken : lineFeed ∉ bytes.extract lineStart offset

/-- The bytes after the last line feed are a line of their own. -/
theorem lineBegins_of_bytesInLine (front back : List UInt8) :
    LineBegins (front ++ back) (front.length - bytesInLine front) front.length := by
  obtain ⟨line, isLine⟩ : ∃ line, front.reverse.takeWhile (· != lineFeed) = line := ⟨_, rfl⟩
  obtain ⟨before, isBefore⟩ : ∃ before, front.reverse.dropWhile (· != lineFeed) = before := ⟨_, rfl⟩
  have isFront : front = before.reverse ++ line.reverse := by
    rw [← List.reverse_append, ← isLine, ← isBefore, List.takeWhile_append_dropWhile,
      List.reverse_reverse]
  have lineStart : front.length - bytesInLine front = before.length := by
    rw [bytesInLine, isLine, isFront]
    simp
  have unbroken : lineFeed ∉ line := by
    intro member
    rw [← isLine] at member
    simpa using List.all_eq_true.mp List.all_takeWhile lineFeed member
  rw [lineStart]
  refine ⟨?_, ?_, ?_⟩
  · simp [isFront]
  · cases before with
    | nil => exact .inl rfl
    | cons last before =>
        have isLast : last = lineFeed := by
          have stops := List.head?_dropWhile_not (· != lineFeed) front.reverse
          rw [isBefore] at stops
          simpa using stops
        exact .inr (by simp [isFront, isLast])
  · have isRest : (front ++ back).extract before.length front.length = line.reverse := by
      have middle := extract_middle before.reverse line.reverse back
      rwa [← isFront, List.length_reverse] at middle
    rw [isRest, List.mem_reverse]
    exact unbroken

/--
A token knows its line, which is one more than the line feeds before it, its column,
which counts from the beginning of its line, and, unless it is an unclosed comment,
whether a line feed stands between it and an offset.
-/
structure PlacedFrom (bytes : List UInt8) (offset : Nat) (token : Token) : Prop where
  line : token.line = 1 + (bytes.take token.start).count lineFeed
  column :
    ∃ lineStart,
      LineBegins bytes lineStart token.start ∧ token.column = token.start - lineStart + 1
  newline :
    ¬token.IsUnclosedComment →
      (token.newlineBefore = true ↔ lineFeed ∈ bytes.extract offset token.start)

theorem placedFrom_of_lies
    (lies :
      token.Lies byteWidth (before.map letter) (gap.map letter) (covered.map letter)
        (rest.map letter)) :
    token.PlacedFrom (before ++ gap ++ covered ++ rest) before.length := by
  obtain ⟨start, line, column, _⟩ := places_of_lies lies
  have bounded : bytesInLine (before ++ gap) ≤ (before ++ gap).length := by
    unfold bytesInLine
    rw [← @List.length_reverse _ (before ++ gap)]
    exact (List.takeWhile_sublist _).length_le
  have isSplit : before ++ gap ++ covered ++ rest = (before ++ gap) ++ (covered ++ rest) :=
    List.append_assoc _ _ _
  have begins := lineBegins_of_bytesInLine (before ++ gap) (covered ++ rest)
  rw [isSplit]
  refine ⟨?_, ⟨(before ++ gap).length - bytesInLine (before ++ gap), ?_, ?_⟩, ?_⟩
  · rw [start, List.take_left, line]
  · rwa [start]
  · rw [column, start]
    omega
  · intro notComment
    have newline := lies.newline notComment
    rw [start, extract_middle, newline, List.contains_iff_mem, List.mem_map]
    constructor
    · rintro ⟨byte, member, isFeed⟩
      rwa [← (letter_eq_lineFeed_iff byte).mp isFeed]
    · intro member
      exact ⟨lineFeed, member, rfl⟩

theorem spelled_isUnclosedComment_iff (token : Token) :
    token.spelled.IsUnclosedComment ↔ token.IsUnclosedComment :=
  and_congr_right fun _ => spelling_eq_iff (by decide)

theorem stopOf_map_spelled (start : Nat) (tokens : List Token) :
    stopOf start (tokens.map spelled) = stopOf start tokens := by
  unfold stopOf
  rw [List.getLast?_map]
  cases tokens.getLast? <;> rfl

/--
Every token of every byte string knows its line, its column and whether a line feed
stands before it, and so does every token of every text among the bytes of the text.
-/
theorem tokens_know_their_places :
    (∀ bytes earlier token later,
      scanBytes bytes = earlier ++ token :: later → token.PlacedFrom bytes (stopOf 0 earlier)) ∧
      ∀ content earlier token later,
        scan content = earlier ++ token :: later →
          token.PlacedFrom content.toByteArray.data.toList (stopOf 0 earlier) := by
  have ofBytes : ∀ bytes earlier token later,
      scanBytes bytes = earlier ++ token :: later →
        token.PlacedFrom bytes (stopOf 0 earlier) := by
    intro bytes earlier token later isSplit
    obtain ⟨before, gap, covered, rest, rfl, lies, stop⟩ := scanBytes_lies isSplit
    rw [stop]
    exact placedFrom_of_lies lies
  refine ⟨ofBytes, ?_⟩
  intro content earlier token later isSplit
  have same := scanBytes_text content
  rw [isSplit, List.map_append, List.map_cons] at same
  have placed := ofBytes _ _ _ _ same
  rw [stopOf_map_spelled] at placed
  exact {
    line := placed.line
    column := placed.column
    newline := fun notComment =>
      placed.newline (mt (spelled_isUnclosedComment_iff token).mp notComment) }

/-- A name behind a line feed and a comment over two lines, and another on the next line. -/
theorem tokens_know_their_places_behind_comment :
    let bytes : List UInt8 := [10, 47, 42, 10, 42, 47, 97, 10, 32, 98]
    let first : Token := ⟨.identifier, "a", 3, 3, 6, 7, true, none⟩
    let second : Token := ⟨.identifier, "b", 4, 2, 9, 10, true, none⟩
    let last : Token := ⟨.endOfInput, "", 4, 3, 10, 10, false, none⟩
    scanBytes bytes = [first, second, last] ∧
      first.PlacedFrom bytes 0 ∧ second.PlacedFrom bytes 7 := by
  intro bytes first second last
  have scanned : scanBytes bytes = [first, second, last] := rfl
  have placed := tokens_know_their_places.1 bytes
  exact ⟨scanned, placed [] first [second, last] scanned, placed [first] second [last] scanned⟩

end ScriptEngine.Token
