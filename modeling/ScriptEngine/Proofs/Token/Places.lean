import ScriptEngine.Token.Scanner

namespace ScriptEngine.Token

/-!
# Tokens stand where they say

Readers split the text in front of them and lose nothing of it.  So the place
where a token starts is the place after all characters before it, and its offset,
its line and its column can be counted in the bytes of the text.
-/

/-! ## Nothing is lost -/

/-- Blanks and comments together with what they leave are the text they were read from. -/
theorem gapFrom_append (mode : BlankMode) (text : List Char) :
    (gapFrom mode text).taken ++ (gapFrom mode text).rest = text := by
  fun_induction gapFrom mode text <;> simp_all [Gap.cons]

theorem stringBody_append (quote : Char) (text : List Char) :
    (stringBody quote text).taken ++ (stringBody quote text).rest = text := by
  fun_induction stringBody quote text <;> simp_all [Body.cons]

theorem regexBody_append (inClass : Bool) (text : List Char) :
    (regexBody inClass text).taken ++ (regexBody inClass text).rest = text := by
  fun_induction regexBody inClass text <;> simp_all [Body.cons]

theorem stringLexeme_append (quote : Char) (text : List Char) :
    (stringLexeme quote text).taken ++ (stringLexeme quote text).rest = quote :: text := by
  have covers := stringBody_append quote text
  unfold stringLexeme
  dsimp only
  split
  · rename_i isRest
    rw [isRest] at covers
    simpa using covers
  · rename_i isRest
    simpa using covers

theorem regexLexeme_append (text : List Char) :
    (regexLexeme text).taken ++ (regexLexeme text).rest = '/' :: text := by
  have covers := regexBody_append false text
  unfold regexLexeme
  dsimp only
  split
  · rename_i isRest
    rw [isRest] at covers
    simpa [Lexeme.verbatim] using covers
  · simpa using covers

theorem fraction_append (wholeIsEmpty : Bool) (text : List Char) :
    (fraction wholeIsEmpty text).1 ++ (fraction wholeIsEmpty text).2 = text := by
  unfold fraction
  split
  · dsimp only
    split
    · simp
    · split
      · split <;> simp
      · simp
  · simp

theorem exponent_append (text : List Char) : (exponent text).1 ++ (exponent text).2 = text := by
  unfold exponent
  split
  · split
    · split
      · simp
      · split
        · simp
        · simp
    · simp
  · simp

theorem decimalLexeme_append (text : List Char) :
    (decimalLexeme text).taken ++ (decimalLexeme text).rest = text := by
  let whole := text.takeWhile Char.isDigit
  let afterWhole := text.dropWhile Char.isDigit
  let fractional := fraction whole.isEmpty afterWhole
  calc whole ++ fractional.1 ++ (exponent fractional.2).1 ++ (exponent fractional.2).2
    _ = whole ++ (fractional.1 ++ ((exponent fractional.2).1 ++ (exponent fractional.2).2)) := by
        simp only [List.append_assoc]
    _ = whole ++ afterWhole := by
        rw [exponent_append, fraction_append]
    _ = text := List.takeWhile_append_dropWhile

theorem numberLexeme_append (text : List Char) :
    (numberLexeme text).taken ++ (numberLexeme text).rest = text := by
  unfold numberLexeme
  split
  · split
    · simp [Lexeme.verbatim]
    · exact decimalLexeme_append _
  · exact decimalLexeme_append _

theorem punctuatorLexeme_append (first : Char) (rest : List Char) :
    (punctuatorLexeme first rest).taken ++ (punctuatorLexeme first rest).rest = first :: rest := by
  unfold punctuatorLexeme
  split
  · exact List.take_append_drop _ _
  · rfl

/-- A lexeme together with what it leaves is the text it was read from. -/
theorem lexeme_append (previous : Option TokenKind) (text : List Char) :
    (lexeme previous text).taken ++ (lexeme previous text).rest = text := by
  unfold lexeme
  split
  · rfl
  · split
    · rfl
    · split
      · exact stringLexeme_append _ _
      · split
        · rename_i isSlash
          simp only [Bool.and_eq_true, decide_eq_true_eq] at isSlash
          rw [isSlash.1]
          exact regexLexeme_append _
        · split
          · exact numberLexeme_append _
          · split
            · exact List.takeWhile_append_dropWhile
            · split
              · exact numberLexeme_append _
              · exact punctuatorLexeme_append _ _

/-! ## Counting bytes -/

/-- The bytes of a list of characters. -/
def bytesOf (text : List Char) : List UInt8 := text.flatMap String.utf8EncodeChar

/-- The byte of a line feed. -/
def lineFeed : UInt8 := 10

/-- The number of bytes after the last line feed. -/
def bytesInLine (bytes : List UInt8) : Nat := (bytes.reverse.takeWhile (· != lineFeed)).length

theorem bytesOf_append (front back : List Char) :
    bytesOf (front ++ back) = bytesOf front ++ bytesOf back := by
  simp [bytesOf]

theorem lineFeed_ne_ofNat {code : Nat} (other : code % 256 ≠ 10) : lineFeed ≠ UInt8.ofNat code := by
  intro same
  have codes := congrArg UInt8.toNat same
  rw [UInt8.toNat_ofNat'] at codes
  exact other codes.symm

/-- No byte of a character but the line feed is the byte of a line feed. -/
theorem lineFeed_not_mem_encoding {char : Char} (other : char ≠ '\n') :
    lineFeed ∉ String.utf8EncodeChar char := by
  have code : char.val.toNat ≠ 10 := by
    intro same
    exact other (Char.ext (UInt32.toNat_inj.mp same))
  unfold String.utf8EncodeChar
  dsimp only
  -- A character of one byte is its own code; the bytes of all others are beyond ASCII.
  split
  · rw [List.mem_singleton]
    exact lineFeed_ne_ofNat (by omega)
  · split
    · simp only [List.mem_cons, List.not_mem_nil, or_false, not_or]
      exact ⟨lineFeed_ne_ofNat (by omega), lineFeed_ne_ofNat (by omega)⟩
    · split
      · simp only [List.mem_cons, List.not_mem_nil, or_false, not_or]
        exact ⟨lineFeed_ne_ofNat (by omega), lineFeed_ne_ofNat (by omega),
          lineFeed_ne_ofNat (by omega)⟩
      · simp only [List.mem_cons, List.not_mem_nil, or_false, not_or]
        exact ⟨lineFeed_ne_ofNat (by omega), lineFeed_ne_ofNat (by omega),
          lineFeed_ne_ofNat (by omega), lineFeed_ne_ofNat (by omega)⟩

/-- The place after some characters, counted in their bytes. -/
def Place.after (front : List Char) : Place :=
  ⟨(bytesOf front).length, 1 + (bytesOf front).count lineFeed, 1 + bytesInLine (bytesOf front)⟩

/-- One more character moves the place after the characters before it by its bytes. -/
theorem Place.step_after (front : List Char) (char : Char) :
    (Place.after front).step Char.utf8Size char = Place.after (front ++ [char]) := by
  have bytes : bytesOf (front ++ [char]) = bytesOf front ++ String.utf8EncodeChar char := by
    simp [bytesOf]
  have width := String.length_utf8EncodeChar char
  unfold Place.step Place.after
  rw [bytes]
  split
  · rename_i isLineFeed
    have encoded : String.utf8EncodeChar char = [lineFeed] := by
      rw [isLineFeed]
      rfl
    rw [encoded] at width ⊢
    simp [bytesInLine, ← width, Nat.add_assoc]
  · rename_i other
    have noLineFeed := lineFeed_not_mem_encoding other
    have sameLine :
        bytesInLine (bytesOf front ++ String.utf8EncodeChar char) =
          bytesInLine (bytesOf front) + (String.utf8EncodeChar char).length := by
      unfold bytesInLine
      rw [List.reverse_append, List.takeWhile_append_of_pos, List.length_append,
        List.length_reverse, Nat.add_comm]
      intro byte member
      have different : byte ≠ lineFeed := by
        rintro rfl
        exact noLineFeed (List.mem_reverse.mp member)
      simpa using different
    rw [sameLine, List.count_append, List.count_eq_zero_of_not_mem noLineFeed, List.length_append,
      width]
    simp [Nat.add_assoc]

/-- The place after all characters read so far. -/
theorem Place.past_after (front taken : List Char) :
    (Place.after front).past Char.utf8Size taken = Place.after (front ++ taken) := by
  induction taken generalizing front with
  | nil => simp [Place.past]
  | cons char rest inductionHypothesis =>
      calc (Place.after front).past Char.utf8Size (char :: rest)
        _ = ((Place.after front).step Char.utf8Size char).past Char.utf8Size rest := rfl
        _ = (Place.after (front ++ [char])).past Char.utf8Size rest := by
            rw [step_after]
        _ = Place.after (front ++ char :: rest) := by
            rw [inductionHypothesis, List.append_assoc, List.singleton_append]

/-! ## Tokens -/

/--
A token stands where it says among the bytes of a text: it ends no earlier than it
starts, inside the text, and its line and its column are those of its start.
-/
structure StandsIn (bytes : List UInt8) (token : Token) : Prop where
  ordered : token.start ≤ token.stop
  inside : token.stop ≤ bytes.length
  line : token.line = 1 + (bytes.take token.start).count lineFeed
  column : token.column = 1 + bytesInLine (bytes.take token.start)

/-- A token from the place after some characters to a place after some more. -/
theorem standsIn_of_places
    {token : Token}
    {front taken : List Char}
    (rest : List Char)
    (starts : (⟨token.start, token.line, token.column⟩ : Place) = Place.after front)
    (stops : token.stop = (Place.after (front ++ taken)).offset) :
    token.StandsIn (bytesOf (front ++ taken ++ rest)) := by
  obtain ⟨start, line, column⟩ := Place.mk.inj starts
  have stop : token.stop = (bytesOf (front ++ taken)).length := stops
  have before : (bytesOf (front ++ taken ++ rest)).take token.start = bytesOf front := by
    rw [start, List.append_assoc, bytesOf_append, List.take_left]
  refine ⟨?_, ?_, ?_, ?_⟩
  · rw [start, stop, bytesOf_append, List.length_append]
    exact Nat.le_add_right _ _
  · rw [stop, bytesOf_append (front ++ taken), List.length_append]
    exact Nat.le_add_right _ _
  · rw [before, line]
  · rw [before, column]

/-- The next token stands where it says, and reading goes on at the place after what it took. -/
theorem next_standsIn (previous : Option TokenKind) (front text : List Char) :
    let (token, place, rest) := next Char.utf8Size previous (Place.after front) text
    token.StandsIn (bytesOf (front ++ text)) ∧
      ∃ taken, place = Place.after (front ++ taken) ∧ taken ++ rest = text := by
  have split := gapFrom_append .between text
  unfold next
  dsimp only
  rw [Place.past_after]
  generalize gapFrom .between text = gap at split
  subst split
  cases gap.closed with
  | true =>
      have split := lexeme_append previous gap.rest
      rw [if_pos rfl, Place.past_after]
      dsimp only
      generalize lexeme previous gap.rest = found at split
      rw [← split]
      refine ⟨?_, gap.taken ++ found.taken, by simp, by simp⟩
      rw [← List.append_assoc, ← List.append_assoc]
      exact standsIn_of_places found.rest rfl rfl
  | false =>
      rw [if_neg (by simp)]
      dsimp only
      refine ⟨?_, gap.taken, rfl, rfl⟩
      rw [← List.append_assoc]
      exact standsIn_of_places gap.rest rfl rfl

/-- All tokens read from a place on stand where they say. -/
theorem scanFrom_standsIn (budget : Nat) (previous : Option TokenKind) (front text : List Char) :
    ∀ token ∈ scanFrom Char.utf8Size budget previous (Place.after front) text,
      token.StandsIn (bytesOf (front ++ text)) := by
  induction budget generalizing previous front text with
  | zero => simp [scanFrom]
  | succ budget inductionHypothesis =>
      have nextStands := next_standsIn previous front text
      unfold scanFrom
      generalize next Char.utf8Size previous (Place.after front) text = found at nextStands
      obtain ⟨first, place, rest⟩ := found
      obtain ⟨firstStands, taken, rfl, rfl⟩ := nextStands
      dsimp only
      split
      · simpa using firstStands
      · rw [List.forall_mem_cons]
        refine ⟨firstStands, ?_⟩
        have later := inductionHypothesis (some first.kind) (front ++ taken) rest
        rwa [List.append_assoc] at later

/-- The bytes of a text are those of its characters. -/
theorem bytesOf_toList (content : String) :
    bytesOf content.toList = content.toByteArray.data.toList := by
  rw [← String.utf8Encode_toList, List.utf8Encode, List.toList_data_toByteArray]
  rfl

/-- Every token of a text stands where it says. -/
theorem scan_standsIn (content : String) :
    ∀ token ∈ scan content, token.StandsIn content.toByteArray.data.toList := by
  have stands := scanFrom_standsIn (content.toList.length + 1) none [] content.toList
  rwa [List.nil_append, bytesOf_toList] at stands

/-- Every text has a token, be it the end of the input. -/
theorem scan_ne_nil (content : String) : scan content ≠ [] := by
  unfold scan scanChars scanFrom
  dsimp only
  split <;> simp

end ScriptEngine.Token

namespace ScriptEngine.Position

/--
A place in a source: the place of a token of its text, from a start to an end
inside the text, and with the line and the column of its start.
-/
structure PointsInto (source : Source) (position : Position) : Prop where
  isToken : ∃ token ∈ Token.scan source.content, position = token.position source
  ordered : position.start ≤ position.stop
  inside : position.stop ≤ source.content.utf8ByteSize
  line : position.line =
    1 + (source.content.toByteArray.data.toList.take position.start).count Token.lineFeed
  column : position.column =
    1 + Token.bytesInLine (source.content.toByteArray.data.toList.take position.start)

/-- The place of every token of a text is a place in its source. -/
theorem pointsInto_of_token
    {source : Source}
    {token : Token}
    (member : token ∈ Token.scan source.content) :
    (token.position source).PointsInto source := by
  have stands := Token.scan_standsIn source.content token member
  have size : source.content.toByteArray.data.toList.length = source.content.utf8ByteSize := by
    rw [Array.length_toList, ← ByteArray.size, String.size_toByteArray]
  refine ⟨⟨token, member, rfl⟩, stands.ordered, ?_, stands.line, stands.column⟩
  rw [← size]
  exact stands.inside

end ScriptEngine.Position
