import ScriptEngine.Proofs.Token.Spelling
import ScriptEngine.Text.Replacement

namespace ScriptEngine.Text

open Token (bytesOf)

/-!
# Characters and their bytes

Decoding the bytes of a text gives the text back.  A character is encoded in up to four bytes;
the first one tells their number and has the highest part of the code, and each of the others
has six bits more of it.

Bytes that are not those of a text are decoded as well, each of them that belongs to no
character to a replacement mark, so encoding does not give such bytes back.
-/

/-! ## One character -/

theorem toNat_ofNat {code : Nat} (small : code < 256) : (UInt8.ofNat code).toNat = code := by
  rw [UInt8.toNat_ofNat', Nat.mod_eq_of_lt small]

/-- A continuation byte adds six bits to a code. -/
theorem continuations_cons
    {payload : Nat}
    (small : payload < 64)
    (count value : Nat)
    (rest : List UInt8) :
    continuations (count + 1) value (.ofNat (payload + 0x80) :: rest) =
      continuations count (value * 64 + payload) rest := by
  have code : (UInt8.ofNat (payload + 0x80)).toNat = payload + 0x80 := toNat_ofNat (by omega)
  have continues : continuation? (.ofNat (payload + 0x80)) = some payload := by
    rw [continuation?, code, if_pos (by omega), Nat.add_sub_cancel]
  rw [continuations, continues]

/-- The first of two bytes. -/
theorem leading?_of_two {payload : Nat} (large : 2 ≤ payload) (small : payload < 32) :
    leading? (.ofNat (payload + 0xC0)) = some (1, payload) := by
  have code : (UInt8.ofNat (payload + 0xC0)).toNat = payload + 0xC0 := toNat_ofNat (by omega)
  unfold leading?
  rw [code]
  dsimp only
  rw [if_neg (by omega), if_pos (by omega), Nat.add_sub_cancel]

/-- The first of three bytes. -/
theorem leading?_of_three {payload : Nat} (small : payload < 16) :
    leading? (.ofNat (payload + 0xE0)) = some (2, payload) := by
  have code : (UInt8.ofNat (payload + 0xE0)).toNat = payload + 0xE0 := toNat_ofNat (by omega)
  unfold leading?
  rw [code]
  dsimp only
  rw [if_neg (by omega), if_neg (by omega), if_pos (by omega), Nat.add_sub_cancel]

/-- The first of four bytes. -/
theorem leading?_of_four {payload : Nat} (small : payload < 5) :
    leading? (.ofNat (payload + 0xF0)) = some (3, payload) := by
  have code : (UInt8.ofNat (payload + 0xF0)).toNat = payload + 0xF0 := toNat_ofNat (by omega)
  unfold leading?
  rw [code]
  dsimp only
  rw [if_neg (by omega), if_neg (by omega), if_neg (by omega), if_pos (by omega),
    Nat.add_sub_cancel]

/-- A first byte and its continuation bytes that make up the code of a character decode to it. -/
theorem decodeOne?_of_code
    {byte : UInt8}
    {count payload : Nat}
    {char : Char}
    {bytes rest : List UInt8}
    (leads : leading? byte = some (count, payload))
    (continues : continuations count payload bytes = some (char.toNat, rest))
    (noShorter : leastCode count ≤ char.toNat) :
    decodeOne? (byte :: bytes) = some (char, rest) := by
  have isValid : char.toNat.isValidChar := char.valid
  rw [decodeOne?, leads]
  dsimp only
  rw [continues]
  dsimp only
  rw [dif_pos isValid, if_pos noShorter]
  rfl

/-- The bytes of a character decode to it, whatever is behind them. -/
theorem decodeOne?_encode (char : Char) (rest : List UInt8) :
    decodeOne? (String.utf8EncodeChar char ++ rest) = some (char, rest) := by
  have valid : char.val.toNat < 0x110000 := by
    rcases char.valid with below | ⟨-, below⟩
    · exact Nat.lt_trans below (by decide)
    · exact below
  have code : char.toNat = char.val.toNat := rfl
  unfold String.utf8EncodeChar
  dsimp only
  split
  · rename_i one
    have leads : leading? char.val.toNat.toUInt8 = some (0, char.toNat) := by
      unfold leading?
      have isByte : char.val.toNat.toUInt8.toNat = char.val.toNat := toNat_ofNat (by omega)
      rw [isByte]
      exact if_pos (by omega)
    exact decodeOne?_of_code leads rfl (Nat.zero_le _)
  · split
    · rename_i two
      rw [List.cons_append, List.singleton_append]
      refine decodeOne?_of_code (leading?_of_two (by omega) (by omega)) ?_ ?_
      · rw [continuations_cons (by omega), continuations]
        congr 2
        omega
      · change 0x80 ≤ char.val.toNat
        omega
    · split
      · rename_i three
        rw [List.cons_append, List.cons_append, List.singleton_append]
        refine decodeOne?_of_code (leading?_of_three (by omega)) ?_ ?_
        · rw [continuations_cons (by omega), continuations_cons (by omega), continuations]
          congr 2
          omega
        · change 0x800 ≤ char.val.toNat
          omega
      · rename_i four
        rw [List.cons_append, List.cons_append, List.cons_append, List.singleton_append]
        refine decodeOne?_of_code (leading?_of_four (by omega)) ?_ ?_
        · rw [continuations_cons (by omega), continuations_cons (by omega),
            continuations_cons (by omega), continuations]
          congr 2
          omega
        · change 0x10000 ≤ char.val.toNat
          omega

/-! ## Rows of characters -/

/-- Decoding with a budget of a step for each character goes through their bytes. -/
theorem decodeLossyFrom_bytesOf {budget : Nat} {text : List Char} (enough : text.length ≤ budget) :
    decodeLossyFrom budget (bytesOf text) = text := by
  induction text generalizing budget with
  | nil => cases budget <;> rfl
  | cons char text inductionHypothesis =>
      obtain ⟨budget, rfl⟩ := Nat.exists_eq_add_of_le' (Nat.le_trans (Nat.succ_pos _) enough)
      have decodes := decodeOne?_encode char (bytesOf text)
      have isRow : bytesOf (char :: text) = String.utf8EncodeChar char ++ bytesOf text := rfl
      rw [isRow]
      cases isBytes : String.utf8EncodeChar char ++ bytesOf text with
      | nil =>
          rw [isBytes] at decodes
          cases decodes
      | cons byte bytes =>
          rw [isBytes] at decodes
          rw [decodeLossyFrom, decodes]
          dsimp only
          rw [inductionHypothesis (Nat.le_of_succ_le_succ enough)]

namespace Units

variable {α : Type} {units : Units α}

/-- Units in which every text can be written and read back, character by character. -/
structure Faithful (units : Units α) : Prop where
  decode_encode : ∀ text, units.decode (units.encode text) = text
  encode_append : ∀ front back,
    units.encode (front ++ back) = units.encode front ++ units.encode back

theorem faithful_chars : chars.Faithful where
  decode_encode _ := rfl
  encode_append _ _ := rfl

theorem faithful_bytes : bytes.Faithful where
  decode_encode text := by
    refine decodeLossyFrom_bytesOf ?_
    exact Nat.le_trans (Token.length_le_length_spell text) (Nat.le_of_eq (List.length_map _))
  encode_append := Token.bytesOf_append

/-- The text without characters has no units. -/
theorem Faithful.encode_nil (faithful : units.Faithful) : units.encode [] = [] := by
  have doubled := faithful.encode_append [] []
  rw [List.append_nil] at doubled
  exact List.self_eq_append_left.mp doubled

/-- The units of the characters of a text, one after the other, are those of the text. -/
theorem Faithful.flatten_encode (faithful : units.Faithful) (text : List Char) :
    (text.map fun char => units.encode [char]).flatten = units.encode text := by
  induction text with
  | nil => exact faithful.encode_nil.symm
  | cons char text inductionHypothesis =>
      rw [List.map_cons, List.flatten_cons, inductionHypothesis, ← faithful.encode_append]
      rfl

/-- A byte that is part of no character is decoded to a replacement mark. -/
example : bytes.decode [0x61, 0xFF] = ['a', replacementMark] := by decide

end Units

end ScriptEngine.Text
