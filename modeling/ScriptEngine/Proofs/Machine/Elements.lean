import Mathlib.Data.List.Induction
import ScriptEngine.Machine.Storage

namespace ScriptEngine

/-!
# Elements and their keys

A key that names an index is the decimal form of that index, so two keys never
name the same one.  Writing and resizing the elements of an array are told by
what every index holds afterwards.
-/

/-! ## Keys of indices -/

/-- A row of digits without a leading zero. -/
structure IsNumeral (digits : List Char) : Prop where
  digit : ∀ char ∈ digits, char.isDigit = true
  leading : digits.head? ≠ some '0'

theorem digitChar_of_isDigit {char : Char} (isDigit : char.isDigit = true) :
    char.toNat - 48 < 10 ∧ Nat.digitChar (char.toNat - 48) = char := by
  have bounds : 48 ≤ char.toNat ∧ char.toNat ≤ 57 := Char.isDigit_iff_toNat.mp isDigit
  refine ⟨by omega, ?_⟩
  apply Char.toNat_inj.mp
  rw [Nat.toNat_digitChar_of_lt_ten (by omega)]
  omega

theorem IsNumeral.dropLast
    {front : List Char}
    {last : Char}
    (isNumeral : IsNumeral (front ++ [last])) :
    IsNumeral front := by
  refine ⟨fun char member => isNumeral.digit char (List.mem_append_left _ member), ?_⟩
  cases front with
  | nil => simp
  | cons first rest => exact isNumeral.leading

theorem ofDigitChars_concat (front : List Char) (last : Char) :
    Nat.ofDigitChars 10 (front ++ [last]) 0 =
      10 * Nat.ofDigitChars 10 front 0 + (last.toNat - 48) := by
  rw [Nat.ofDigitChars_append, Nat.ofDigitChars_cons, Nat.ofDigitChars_nil]
  rfl

/-- The decimal form of the number that digits stand for is the row of digits. -/
theorem IsNumeral.toDigits_ofDigitChars
    {digits : List Char}
    (isNumeral : IsNumeral digits)
    (nonEmpty : digits ≠ []) :
    0 < Nat.ofDigitChars 10 digits 0 ∧
      Nat.toDigits 10 (Nat.ofDigitChars 10 digits 0) = digits := by
  induction digits using List.reverseRecOn with
  | nil => exact absurd rfl nonEmpty
  | append_singleton front last inductionHypothesis =>
      have isDigit := isNumeral.digit last (by simp)
      obtain ⟨small, isLast⟩ := digitChar_of_isDigit isDigit
      rw [ofDigitChars_concat]
      cases front with
      | nil =>
          have notZero : last.toNat - 48 ≠ 0 := by
            intro isZero
            rw [isZero] at isLast
            exact isNumeral.leading (congrArg some isLast.symm)
          rw [Nat.ofDigitChars_nil, Nat.mul_zero, Nat.zero_add, Nat.toDigits_of_lt_base small,
            isLast]
          exact ⟨Nat.pos_of_ne_zero notZero, rfl⟩
      | cons first rest =>
          obtain ⟨positive, isFront⟩ := inductionHypothesis isNumeral.dropLast (by simp)
          generalize Nat.ofDigitChars 10 (first :: rest) 0 = value at positive isFront
          have quotient : (10 * value + (last.toNat - 48)) / 10 = value := by omega
          have remainder : (10 * value + (last.toNat - 48)) % 10 = last.toNat - 48 := by omega
          rw [Nat.toDigits_of_base_le (by omega) (by omega), quotient, remainder, isFront, isLast]
          exact ⟨by omega, rfl⟩

/-- The key whose digits are the decimal form of a number. -/
theorem eq_indexKey_of_toDigits
    {key : String}
    {index : Nat}
    (isForm : Nat.toDigits 10 index = key.toList) :
    key = indexKey index := by
  unfold indexKey
  rw [Nat.toString_eq_ofList_toDigits, isForm, String.ofList_toList]

/-- A key in the form of an index: digits, not too many, and no leading zero. -/
structure IsIndexForm (key : String) : Prop where
  nonEmpty : key.toList ≠ []
  short : key.toList.length ≤ 10
  areDigits : ∀ char ∈ key.toList, char.isDigit = true
  notPadded : ¬(key.toList.head? = some '0' ∧ 1 < key.toList.length)

/-- A key names the number that its digits stand for, when it has the form and that is small. -/
theorem arrayIndex?_eq_some_iff {key : String} {index : Nat} :
    arrayIndex? key = some index ↔
      IsIndexForm key ∧ index ≤ 4294967294 ∧
        key.toList.foldl (fun total digit => total * 10 + (digit.toNat - '0'.toNat)) 0 = index := by
  unfold arrayIndex?
  dsimp only
  constructor
  · intro isIndex
    split at isIndex
    · cases isIndex
    · rename_i isRow
      split at isIndex
      · cases isIndex
      · rename_i notPadded
        split at isIndex
        · rename_i small
          simp only [Bool.or_eq_true, Bool.not_eq_true', not_or, Bool.not_eq_false,
            List.all_eq_true, List.isEmpty_iff, decide_eq_true_eq, Nat.not_lt] at isRow
          obtain ⟨⟨nonEmpty, short⟩, areDigits⟩ := isRow
          cases isIndex
          exact ⟨⟨nonEmpty, short, areDigits, by simpa using notPadded⟩, small, rfl⟩
        · cases isIndex
  · rintro ⟨⟨nonEmpty, short, areDigits, notPadded⟩, small, rfl⟩
    rw [if_neg (by simpa [nonEmpty, short] using areDigits), if_neg (by simpa using notPadded),
      if_pos small]

/-- A key in the form of an index is the decimal form of the number that its digits stand for. -/
theorem IsIndexForm.eq_indexKey {key : String} (isForm : IsIndexForm key) :
    key = indexKey
      (key.toList.foldl (fun total digit => total * 10 + (digit.toNat - '0'.toNat)) 0) := by
  have value :
      key.toList.foldl (fun total digit => total * 10 + (digit.toNat - '0'.toNat)) 0 =
        Nat.ofDigitChars 10 key.toList 0 := by
    rw [Nat.ofDigitChars_eq_foldl]
    simp only [Nat.mul_comm]
  rw [value]
  apply eq_indexKey_of_toDigits
  by_cases leading : key.toList.head? = some '0'
  · -- Only the zero itself starts with a zero.
    obtain ⟨rest, isKey⟩ := List.head?_eq_some_iff.mp leading
    have short : rest = [] := by
      simpa [isKey] using isForm.notPadded
    rw [isKey, short]
    rfl
  · exact (IsNumeral.toDigits_ofDigitChars ⟨isForm.areDigits, leading⟩ isForm.nonEmpty).2

/-- A key that names an index is the decimal form of it. -/
theorem eq_indexKey_of_arrayIndex?
    {key : String}
    {index : Nat}
    (isIndex : arrayIndex? key = some index) :
    key = indexKey index := by
  obtain ⟨isForm, -, rfl⟩ := arrayIndex?_eq_some_iff.mp isIndex
  exact isForm.eq_indexKey

/-- Two keys never name the same index. -/
theorem arrayIndex?_injective
    {left right : String}
    {index : Nat}
    (isLeft : arrayIndex? left = some index)
    (isRight : arrayIndex? right = some index) :
    left = right := by
  rw [eq_indexKey_of_arrayIndex? isLeft, eq_indexKey_of_arrayIndex? isRight]

/-! ## Elements -/

namespace Storage

theorem elements_pad (storage : Storage) (length : Nat) :
    (storage.pad length).elements =
      storage.elements ++ Array.replicate (length - storage.length) Value.undefined := by
  unfold pad
  dsimp only
  split
  · rfl
  · rfl

theorem length_pad (storage : Storage) (length : Nat) :
    (storage.pad length).length = max storage.length length := by
  unfold Storage.length
  rw [elements_pad, Array.size_append, Array.size_replicate]
  unfold Storage.length
  omega

/-- What an index holds after padding. -/
theorem getElem?_pad (storage : Storage) (length index : Nat) :
    (storage.pad length).elements[index]? =
      if index < storage.length then storage.elements[index]?
      else if index < length then some .undefined
      else none := by
  rw [elements_pad, Array.getElem?_append, Array.getElem?_replicate]
  unfold Storage.length
  split
  · rfl
  · congr 1
    simp only [eq_iff_iff]
    omega

/-- Writing past the end pads first. -/
theorem elements_put (storage : Storage) (written : Nat) (value : Value) :
    (storage.put written value).elements =
      if written < storage.length then storage.elements.setIfInBounds written value
      else (storage.pad (written + 1)).elements.setIfInBounds written value := by
  unfold put Storage.length
  dsimp only
  split
  · rfl
  · rfl

theorem length_put (storage : Storage) (written : Nat) (value : Value) :
    (storage.put written value).length = max storage.length (written + 1) := by
  have padded := length_pad storage (written + 1)
  unfold Storage.length at padded ⊢
  rw [elements_put]
  unfold Storage.length
  split
  · rw [Array.size_setIfInBounds]
    omega
  · rw [Array.size_setIfInBounds, padded]

/-- What an index holds after an element was written. -/
theorem getElem?_put
    (storage : Storage)
    (written : Nat)
    (value : Value)
    (index : Nat) :
    (storage.put written value).elements[index]? =
      if index = written then some value
      else if index < storage.length then storage.elements[index]?
      else if index < written then some .undefined
      else none := by
  rw [elements_put]
  split
  · rename_i inside
    have bound : written < storage.elements.size := inside
    rw [Array.getElem?_setIfInBounds, if_pos bound]
    by_cases same : index = written
    · rw [if_pos same.symm, if_pos same]
    · rw [if_neg (Ne.symm same), if_neg same]
      split
      · rfl
      · rename_i outside
        rw [if_neg (by omega)]
        exact Array.getElem?_eq_none (Nat.le_of_not_lt outside)
  · have bound : written < (storage.pad (written + 1)).elements.size := by
      have padded := length_pad storage (written + 1)
      unfold Storage.length at padded
      omega
    rw [Array.getElem?_setIfInBounds, if_pos bound, getElem?_pad]
    by_cases same : index = written
    · rw [if_pos same.symm, if_pos same]
    · have bound : index < written + 1 ↔ index < written := by omega
      rw [if_neg (Ne.symm same), if_neg same]
      simp only [bound]

theorem length_resize (storage : Storage) (length : Nat) :
    (storage.resize length).length = length := by
  unfold resize
  split
  · unfold truncate Storage.length at *
    dsimp only
    rw [Array.size_shrink]
    omega
  · rw [length_pad]
    omega

/-- What an index holds after resizing. -/
theorem getElem?_resize (storage : Storage) (length index : Nat) :
    (storage.resize length).elements[index]? =
      if length ≤ index then none
      else if index < storage.length then storage.elements[index]?
      else some .undefined := by
  unfold resize
  split
  · rename_i shorter
    unfold truncate
    unfold Storage.length at shorter ⊢
    dsimp only
    rw [Array.shrink_eq_take, Array.take_eq_extract, Array.getElem?_extract, Nat.zero_add]
    split
    · rw [if_neg (by omega), if_pos (by omega)]
    · rw [if_pos (by omega)]
  · rw [getElem?_pad]
    split
    · rw [if_neg (by omega)]
    · split
      · rw [if_neg (by omega)]
      · rw [if_pos (by omega)]

end Storage

end ScriptEngine
