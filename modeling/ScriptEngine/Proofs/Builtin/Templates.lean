import ScriptEngine.Proofs.Builtin.Units
import ScriptEngine.Proofs.Code.UnitEscapes

namespace ScriptEngine.Text

open Token (bytesOf letter)

/-!
# Replacement templates

A dollar sign in a template starts a reference if a mark or the number of a group stands behind
it; everything else is copied, a dollar sign without a reference as well.  A number has two
digits if there is a group with that number, and one digit otherwise.

In memory a template is a row of bytes and is read byte by byte.  All marks are ASCII, so the
bytes of a text are expanded to the bytes of what the text is expanded to, and bytes that belong
to no character are copied.
-/

/-- What the references of a template stand for. -/
structure Insertions (α : Type) where
  whole : List α
  before : List α
  behind : List α
  groups : List (List α)

/-- What the references stand for at an occurrence in a text; a group that took no part stands for
nothing. -/
def Units.insertions
    {α : Type} (units : Units α) (text : List Char) (found : Occurrence α) : Insertions α where
  whole := found.text
  before := units.encode (text.take found.place)
  behind := units.encode (text.drop (units.stop found))
  groups := found.groups.map (·.getD [])

namespace Insertions

/-- The bytes of what the references stand for. -/
def bytes (stands : Insertions Char) : Insertions UInt8 where
  whole := bytesOf stands.whole
  before := bytesOf stands.before
  behind := bytesOf stands.behind
  groups := stands.groups.map bytesOf

section

variable {α : Type} (units : Units α) (stands : Insertions α)

/-- What a group has taken; groups are counted from one. -/
def group? (number : Nat) : Option (List α) :=
  if number = 0 then none else stands.groups[number - 1]?

/-- The group whose number has a second digit in front of the rest. -/
def pairReference? (tens : Nat) (rest : List α) : Option (List α × List α) :=
  (rest.head?.bind (digit? ∘ units.mark)).bind fun ones =>
    (stands.group? (tens * 10 + ones)).map (·, rest.tail)

/-- The group whose number starts with a character. -/
def numberReference? (char : Char) (rest : List α) : Option (List α × List α) :=
  (digit? char).bind fun first =>
    (stands.pairReference? units first rest).or ((stands.group? first).map (·, rest))

/-- What a reference in front of a row stands for, with what is left behind it. -/
def reference? : List α → Option (List α × List α)
  | [] => none
  | unit :: rest =>
      match units.mark unit with
      | '$' => some ([unit], rest)
      | '&' => some (stands.whole, rest)
      | '\x60' => some (stands.before, rest)
      | '\'' => some (stands.behind, rest)
      | char => stands.numberReference? units char rest

/-- What a template is expanded to. -/
inductive Expands : List α → List α → Prop where
  | done : Expands [] []
  | copied {unit : α} {rest expanded : List α} :
      units.mark unit ≠ '$' →
      Expands rest expanded →
      Expands (unit :: rest) (unit :: expanded)
  | alone {unit : α} {rest expanded : List α} :
      units.mark unit = '$' →
      stands.reference? units rest = none →
      Expands rest expanded →
      Expands (unit :: rest) (unit :: expanded)
  | referring {unit : α} {rest after inserted expanded : List α} :
      units.mark unit = '$' →
      stands.reference? units rest = some (inserted, after) →
      Expands after expanded →
      Expands (unit :: rest) (inserted ++ expanded)

end

section

variable {α : Type} {units : Units α} {stands : Insertions α} {template expanded other : List α}

/-- A character that is no other mark may be the first digit of a number. -/
theorem reference?_of_number
    {unit : α}
    (notDollar : units.mark unit ≠ '$')
    (notWhole : units.mark unit ≠ '&')
    (notBefore : units.mark unit ≠ '\x60')
    (notBehind : units.mark unit ≠ '\'')
    (rest : List α) :
    stands.reference? units (unit :: rest) = stands.numberReference? units (units.mark unit) rest := by
  rw [reference?]
  split
  · contradiction
  · contradiction
  · contradiction
  · contradiction
  · rfl

/-- What is left behind a reference is shorter than what starts with it. -/
theorem length_lt_of_reference?
    {rest inserted after : List α}
    (refers : stands.reference? units rest = some (inserted, after)) :
    after.length < rest.length := by
  cases rest with
  | nil => cases refers
  | cons unit rest =>
      rw [List.length_cons, Nat.lt_succ_iff]
      have ofNumber
          (refers : stands.numberReference? units (units.mark unit) rest = some (inserted, after)) :
          after.length ≤ rest.length := by
        unfold numberReference? pairReference? at refers
        obtain ⟨tens, -, refers⟩ := Option.bind_eq_some_iff.mp refers
        rcases Option.or_eq_some_iff.mp refers with isPair | ⟨-, isSingle⟩
        · obtain ⟨ones, -, isPair⟩ := Option.bind_eq_some_iff.mp isPair
          obtain ⟨_, -, isPair⟩ := Option.map_eq_some_iff.mp isPair
          rw [← (Prod.mk.inj isPair).2, List.length_tail]
          exact Nat.sub_le _ _
        · obtain ⟨_, -, isSingle⟩ := Option.map_eq_some_iff.mp isSingle
          rw [(Prod.mk.inj isSingle).2]
      rw [reference?] at refers
      split at refers
      · cases refers
        exact Nat.le_refl _
      · cases refers
        exact Nat.le_refl _
      · cases refers
        exact Nat.le_refl _
      · cases refers
        exact Nat.le_refl _
      · exact ofNumber refers

/-- A template is expanded in one way only. -/
theorem Expands.unique
    (expands : stands.Expands units template expanded)
    (expandsToo : stands.Expands units template other) :
    expanded = other := by
  induction expands generalizing other with
  | done =>
      cases expandsToo
      rfl
  | copied noDollar _ inductionHypothesis =>
      cases expandsToo with
      | copied _ expandsToo => rw [inductionHypothesis expandsToo]
      | alone isDollar => exact absurd isDollar noDollar
      | referring isDollar => exact absurd isDollar noDollar
  | alone isDollar isAlone _ inductionHypothesis =>
      cases expandsToo with
      | copied noDollar => exact absurd isDollar noDollar
      | alone _ _ expandsToo => rw [inductionHypothesis expandsToo]
      | referring _ refers => cases isAlone.symm.trans refers
  | referring isDollar refers _ inductionHypothesis =>
      cases expandsToo with
      | copied noDollar => exact absurd isDollar noDollar
      | alone _ isAlone => cases isAlone.symm.trans refers
      | referring _ refersToo expandsToo =>
          cases refers.symm.trans refersToo
          rw [inductionHypothesis expandsToo]

/-- Units without a dollar sign are copied. -/
theorem Expands.behind
    {copied : List α}
    (noDollar : ∀ unit ∈ copied, units.mark unit ≠ '$')
    (expands : stands.Expands units template expanded) :
    stands.Expands units (copied ++ template) (copied ++ expanded) := by
  induction copied with
  | nil => exact expands
  | cons unit copied inductionHypothesis =>
      obtain ⟨notHere, notBehind⟩ := List.forall_mem_cons.mp noDollar
      exact .copied notHere (inductionHypothesis notBehind)

end

/-! ## Two templates -/

section

variable {α : Type} {units : Units α} {stands : Insertions α}

/-- The template that stands for the occurrence itself. -/
theorem expands_whole
    {dollar mark : α}
    (isDollar : units.mark dollar = '$')
    (isMark : units.mark mark = '&') :
    stands.Expands units [dollar, mark] stands.whole := by
  have refers : stands.reference? units [mark] = some (stands.whole, []) := by
    rw [reference?, isMark]
    rfl
  have expands : stands.Expands units [dollar, mark] (stands.whole ++ []) :=
    .referring isDollar refers .done
  rwa [List.append_nil] at expands

/-- A text with every dollar sign doubled. -/
def doubled (units : Units α) (text : List α) : List α :=
  text.flatMap fun unit => if units.mark unit = '$' then [unit, unit] else [unit]

/-- The template with doubled dollar signs stands for the text itself. -/
theorem expands_doubled (text : List α) : stands.Expands units (doubled units text) text := by
  induction text with
  | nil => exact .done
  | cons unit text inductionHypothesis =>
      unfold doubled
      rw [List.flatMap_cons]
      split
      · rename_i isDollar
        have refers : stands.reference? units (unit :: doubled units text) =
            some ([unit], doubled units text) := by
          rw [reference?, isDollar]
          rfl
        exact .referring isDollar refers inductionHypothesis
      · rename_i noDollar
        exact .copied noDollar inductionHypothesis

end

/-! ## Expanding a text -/

section

variable {α : Type} {units : Units α} {text : List Char} {found : Occurrence α}

theorem group?_insertions
    (units : Units α)
    (text : List Char)
    (found : Occurrence α)
    (number : Nat) :
    (units.insertions text found).group? number =
      if 1 ≤ number ∧ number ≤ found.groups.length then
        some (((found.groups[number - 1]?).bind fun group => group).getD [])
      else none := by
  unfold group?
  change (if number = 0 then none else (found.groups.map (·.getD []))[number - 1]?) = _
  rw [List.getElem?_map]
  by_cases isZero : number = 0
  · rw [if_pos isZero, if_neg (by omega)]
  · rw [if_neg isZero]
    by_cases inside : number ≤ found.groups.length
    · rw [if_pos ⟨Nat.pos_of_ne_zero isZero, inside⟩,
        List.getElem?_eq_getElem (by omega)]
      rfl
    · rw [if_neg (by omega), List.getElem?_eq_none (by omega)]
      rfl

/-- The number behind a dollar sign names a group. -/
theorem numberReference?_insertions (unit : α) (rest : List α) :
    (units.insertions text found).numberReference? units (units.mark unit) rest =
      (units.groupReference? found.groups.length (unit :: rest)).map fun reference =>
        (((found.groups[reference.1 - 1]?).bind fun group => group).getD [], reference.2) := by
  have single (number : Nat) (after : List α) :
      ((units.insertions text found).group? number).map (·, after) =
        (if 1 ≤ number ∧ number ≤ found.groups.length then some (number, after)
          else none).map fun reference =>
            (((found.groups[reference.1 - 1]?).bind fun group => group).getD [], reference.2) := by
    rw [group?_insertions]
    split <;> rfl
  unfold numberReference? Units.groupReference? pairReference?
  dsimp only
  simp only [single, Option.bind_eq_bind]
  cases digit? (units.mark unit) with
  | none => rfl
  | some tens =>
      cases rest with
      | nil => rfl
      | cons second after =>
          simp only [List.head?_cons, Option.bind_some, Function.comp_apply, List.tail_cons,
            List.drop_one]
          cases digit? (units.mark second) with
          | none => rfl
          | some ones =>
              simp only [Option.bind_some]
              split <;> rfl

/-- What stands behind a dollar sign is read as a reference to the insertions. -/
theorem reference?_insertions (rest : List α) :
    units.reference? text found rest = (units.insertions text found).reference? units rest := by
  cases rest with
  | nil => rfl
  | cons unit rest =>
      rw [Units.reference?]
      split
      · rename_i isMark
        rw [reference?, isMark]
        rfl
      · rename_i isMark
        rw [reference?, isMark]
        rfl
      · rename_i isMark
        rw [reference?, isMark]
        rfl
      · rename_i isMark
        rw [reference?, isMark]
        rfl
      · rename_i notDollar notWhole notBefore notBehind
        rw [reference?_of_number notDollar notWhole notBefore notBehind,
          numberReference?_insertions]

/-- A template is expanded as its references say. -/
theorem expands_expandFrom
    {budget : Nat}
    {template : List α}
    (enough : template.length < budget) :
    (units.insertions text found).Expands units template
      (units.expandFrom text found budget template) := by
  induction budget generalizing template with
  | zero => exact absurd enough (Nat.not_lt_zero _)
  | succ budget inductionHypothesis =>
      cases template with
      | nil => exact .done
      | cons unit rest =>
          have enoughBehind : rest.length < budget := Nat.lt_of_succ_lt_succ enough
          rw [Units.expandFrom, reference?_insertions]
          split
          · rename_i isDollar
            cases refers : (units.insertions text found).reference? units rest with
            | none => exact .alone isDollar refers (inductionHypothesis enoughBehind)
            | some reference =>
                obtain ⟨inserted, after⟩ := reference
                have shorter := length_lt_of_reference? refers
                exact .referring isDollar refers (inductionHypothesis (by omega))
          · rename_i noDollar
            exact .copied noDollar (inductionHypothesis enoughBehind)

theorem expands_expand
    (units : Units α)
    (text : List Char)
    (found : Occurrence α)
    (template : List α) :
    (units.insertions text found).Expands units template (units.expand text found template) :=
  expands_expandFrom (Nat.lt_succ_self _)

/-- There is one group only, so the second number is copied with its dollar sign. -/
example : Units.chars.expand "abc".toList ⟨1, ['b'], [some ['x']]⟩ "[$&$1$2$$]".toList =
    "[bx$2$]".toList := rfl

end

/-! ## Expanding bytes -/

section

variable {stands : Insertions Char}

theorem group?_bytes (number : Nat) :
    stands.bytes.group? number = (stands.group? number).map bytesOf := by
  unfold group?
  split
  · rfl
  · exact List.getElem?_map

theorem digit?_beyond {char : Char} (beyond : 128 ≤ char.toNat) : digit? char = none := by
  unfold digit?
  rw [Token.isDigit_beyond beyond]
  rfl

theorem reference?_beyond
    {α : Type}
    {units : Units α}
    {stands : Insertions α}
    {unit : α}
    {rest : List α}
    (beyond : 128 ≤ (units.mark unit).toNat) :
    stands.reference? units (unit :: rest) = none := by
  have different {mark : Char} (ascii : mark.toNat < 128) : units.mark unit ≠ mark :=
    Token.ne_of_beyond beyond ascii
  rw [reference?_of_number (different (by decide)) (different (by decide)) (different (by decide))
    (different (by decide)), numberReference?, digit?_beyond beyond]
  rfl

/-- What a reference stands for and what is left behind it, in bytes. -/
def bytesBehind (reference : List Char × List Char) : List UInt8 × List UInt8 :=
  (bytesOf reference.1, bytesOf reference.2)

theorem pairReference?_bytes (tens : Nat) (rest : List Char) :
    stands.bytes.pairReference? .bytes tens (bytesOf rest) =
      (stands.pairReference? .chars tens rest).map bytesBehind := by
  cases rest with
  | nil => rfl
  | cons char rest =>
      rcases Nat.lt_or_ge char.toNat 128 with ascii | beyond
      · obtain ⟨byte, isMark, isRow⟩ := UnitRow.bytesOf_ascii ascii rest
        rw [isRow]
        change (digit? (letter byte)).bind _ = Option.map _ ((digit? char).bind _)
        rw [isMark]
        cases digit? char with
        | none => rfl
        | some ones =>
            change (stands.bytes.group? (tens * 10 + ones)).map _ =
              Option.map _ ((stands.group? (tens * 10 + ones)).map _)
            rw [group?_bytes, Option.map_map, Option.map_map]
            rfl
      · obtain ⟨byte, others, byteBeyond, isRow⟩ := UnitRow.bytesOf_beyond beyond rest
        rw [isRow]
        change (digit? (letter byte)).bind _ = Option.map _ ((digit? char).bind _)
        rw [digit?_beyond byteBeyond, digit?_beyond beyond]
        rfl

theorem numberReference?_bytes (char : Char) (rest : List Char) :
    stands.bytes.numberReference? .bytes char (bytesOf rest) =
      (stands.numberReference? .chars char rest).map bytesBehind := by
  unfold numberReference?
  cases digit? char with
  | none => rfl
  | some tens =>
      change Option.or _ _ = Option.map _ (Option.or _ _)
      rw [Option.map_or, pairReference?_bytes, group?_bytes, Option.map_map, Option.map_map]
      rfl

theorem reference?_bytes (rest : List Char) :
    stands.bytes.reference? .bytes (bytesOf rest) =
      (stands.reference? .chars rest).map bytesBehind := by
  cases rest with
  | nil => rfl
  | cons char rest =>
      rcases Nat.lt_or_ge char.toNat 128 with ascii | beyond
      · obtain ⟨byte, isMark, isRow⟩ := UnitRow.bytesOf_ascii ascii rest
        rw [isRow, reference?, reference?, show Units.bytes.mark byte = char from isMark,
          show Units.chars.mark char = char from rfl]
        split
        · obtain ⟨other, isMarkToo, isOther⟩ := UnitRow.bytesOf_ascii ascii []
          obtain rfl := UnitRow.letter_injective (isMark.trans isMarkToo.symm)
          rw [Option.map_some, bytesBehind, isOther]
          rfl
        · rfl
        · rfl
        · rfl
        · exact numberReference?_bytes char rest
      · obtain ⟨byte, others, byteBeyond, isRow⟩ := UnitRow.bytesOf_beyond beyond rest
        rw [isRow, reference?_beyond byteBeyond, reference?_beyond beyond]
        rfl

/-- The bytes of a text are expanded to the bytes of what the text is expanded to. -/
theorem Expands.bytes
    {template expanded : List Char}
    (expands : stands.Expands .chars template expanded) :
    stands.bytes.Expands .bytes (bytesOf template) (bytesOf expanded) := by
  have dollarAscii : '$'.toNat < 128 := by decide
  induction expands with
  | done => exact .done
  | @copied char rest expanded noDollar _ inductionHypothesis =>
      exact .behind (UnitRow.mark_ne_of_mem_encoding dollarAscii noDollar) inductionHypothesis
  | @alone char rest expanded isDollar isAlone _ inductionHypothesis =>
      obtain rfl : char = '$' := isDollar
      obtain ⟨byte, isMark, isRow⟩ := UnitRow.bytesOf_ascii dollarAscii rest
      obtain ⟨other, isMarkToo, isRowToo⟩ := UnitRow.bytesOf_ascii dollarAscii expanded
      obtain rfl := UnitRow.letter_injective (isMark.trans isMarkToo.symm)
      rw [isRow, isRowToo]
      refine .alone isMark ?_ inductionHypothesis
      rw [reference?_bytes, isAlone]
      rfl
  | @referring char rest after inserted expanded isDollar refers _ inductionHypothesis =>
      obtain rfl : char = '$' := isDollar
      obtain ⟨byte, isMark, isRow⟩ := UnitRow.bytesOf_ascii dollarAscii rest
      rw [isRow, Token.bytesOf_append]
      refine .referring isMark ?_ inductionHypothesis
      rw [reference?_bytes, refers]
      rfl

end

end Insertions

end ScriptEngine.Text
