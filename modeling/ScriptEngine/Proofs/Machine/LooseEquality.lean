import ScriptEngine.Proofs.Machine.Building
import ScriptEngine.Proofs.Number.Whole

namespace ScriptEngine

/-!
# Equality with conversion

Equality with conversion rewrites its operands until both are of one type, or of two types that
it compares as numbers.  It is a loop without a bound of its own.  It ends because a rewritten
operand is closer to a number or a text than it was: an object becomes a primitive value, and a
truth value becomes a number.  At most one of two operands is an object that is converted, and
at most one is a truth value to begin with.

The order of the operands decides which rule of the loop is taken, but not which operand is
rewritten.  So the operands may change places, and the same scripts run in the same order.
-/

variable {count : Nat} {outcome : EStateM.Result Abort Machine Bool} {value result : Value}

namespace Number

/-- Comparing two doubles for equality does not depend on their order. -/
theorem beq_comm (left right : Float) : (left == right) = (right == left) := by
  have swapped {left right : Float} (equal : (left == right) = true) : (right == left) = true := by
    rcases eq_of_beq equal with rfl | ⟨leftZero, rightZero⟩
    · exact equal
    · -- Two zeros are equal whatever their signs.
      rcases leftZero with rfl | rfl <;> rcases rightZero with rfl | rfl <;> rfl
  exact Bool.eq_iff_iff.mpr ⟨swapped, swapped⟩

end Number

namespace Value

theorem strictEquals_comm (left right : Value) :
    left.strictEquals right = right.strictEquals left := by
  cases left <;> cases right <;> simp [strictEquals, Number.beq_comm, Bool.beq_comm]

/-- How often an operand may be rewritten. -/
def conversionsLeft : Value → Nat
  | object _ _ => 2
  | boolean _ => 1
  | _ => 0

theorem conversionsLeft_le_two (value : Value) : value.conversionsLeft ≤ 2 := by
  cases value with
  | object => exact Nat.le_refl 2
  | boolean => exact Nat.le_succ 1
  | undefined | number | string => exact Nat.zero_le 2

theorem conversionsLeft_of_isPrimitive (isPrimitive : value.isPrimitive = true) :
    value.conversionsLeft ≤ 1 := by
  cases value with
  | object => cases isPrimitive
  | boolean => exact Nat.le_refl 1
  | undefined | number | string => exact Nat.zero_le 1

end Value

namespace Run

variable {call : Caller} {left right : Value} {machine after : Machine}

/-! ## The primitive value of an object -/

/-- Methods are tried until one gives a primitive value; the default text is one too. -/
theorem isPrimitive_of_tryMethods
    {id : Nat}
    {found : Bool}
    {names : List String}
    (ran : tryMethods call value id found names machine = .ok result after) :
    result.isPrimitive = true := by
  induction names generalizing found machine with
  | nil =>
      rw [tryMethods] at ran
      split at ran
      · cases ran
      · obtain ⟨text, middle, -, gave⟩ := ok_of_bind ran
        cases gave
        rfl
  | cons name names inductionHypothesis =>
      rw [tryMethods, heap_bind] at ran
      cases isFound : machine.heap.lookup? id name with
      | none =>
          rw [isFound] at ran
          exact inductionHypothesis ran
      | some method =>
          rw [isFound] at ran
          dsimp only at ran
          split at ran
          · obtain ⟨given, middle, -, further⟩ := ok_of_bind ran
            split at further
            · rename_i isPrimitive
              cases further
              exact isPrimitive
            · exact inductionHypothesis further
          · exact inductionHypothesis ran

theorem isPrimitive_of_toPrimitive
    {hint : Hint}
    (ran : toPrimitive call hint value machine = .ok result after) :
    result.isPrimitive = true := by
  cases value with
  | object kind id => exact isPrimitive_of_tryMethods ran
  | undefined | number | string | boolean =>
      cases ran
      rfl

/-! ## One step of the loop -/

theorem map_of_ok
    {α β : Type}
    {change : α → β}
    {run : Run α}
    {value : α}
    (ran : run machine = .ok value after) :
    (change <$> run) machine = .ok (change value) after := by
  change EStateM.map change run machine = _
  rw [EStateM.map, ran]

theorem map_of_error
    {α β : Type}
    {change : α → β}
    {run : Run α}
    {abort : Abort}
    (ran : run machine = .error abort after) :
    (change <$> run) machine = .error abort after := by
  change EStateM.map change run machine = _
  rw [EStateM.map, ran]

/-- A step with the operands in the other order. -/
def swapOperands : Bool ⊕ (Value × Value) → Bool ⊕ (Value × Value) := Sum.map id Prod.swap

/-- With its operands exchanged, a step does the same and leaves them exchanged. -/
theorem looseStep_swap (call : Caller) (left right : Value) :
    looseStep call right left = swapOperands <$> looseStep call left right := by
  cases left <;> cases right <;>
    simp [looseStep, swapOperands, Number.beq_comm, Bool.beq_comm, Value.strictEquals_comm]

/-- An object that is rewritten becomes a primitive value, which is rewritten once at most. -/
theorem conversionsLeft_of_toPrimitive
    {kind : ObjectKind}
    {id : Nat}
    (ran : toPrimitive call .default (.object kind id) machine = .ok result after) :
    result.conversionsLeft < (Value.object kind id).conversionsLeft :=
  Nat.lt_succ_of_le (Value.conversionsLeft_of_isPrimitive (isPrimitive_of_toPrimitive ran))

/-- A step that gives no answer has rewritten one operand, and fewer conversions are left. -/
theorem conversionsLeft_of_looseStep
    {newLeft newRight : Value}
    (ran : looseStep call left right machine = .ok (.inr (newLeft, newRight)) after) :
    newLeft.conversionsLeft + newRight.conversionsLeft <
      left.conversionsLeft + right.conversionsLeft := by
  unfold looseStep at ran
  split at ran
  case h_9 | h_10 =>
    cases ran
    simp [Value.conversionsLeft]
  case h_12 =>
    obtain ⟨result, middle, converted, gave⟩ := ok_of_bind ran
    cases gave
    exact Nat.add_lt_add_right (conversionsLeft_of_toPrimitive converted) _
  case h_13 =>
    obtain ⟨result, middle, converted, gave⟩ := ok_of_bind ran
    cases gave
    exact Nat.add_lt_add_left (conversionsLeft_of_toPrimitive converted) _
  all_goals cases ran

/-- A step rewrites an operand only if at most three conversions are left. -/
theorem conversionsLeft_le_three
    {operands : Value × Value}
    (ran : looseStep call left right machine = .ok (.inr operands) after) :
    left.conversionsLeft + right.conversionsLeft ≤ 3 := by
  by_cases leftPrimitive : left.isPrimitive = true
  · exact Nat.add_le_add (Value.conversionsLeft_of_isPrimitive leftPrimitive)
      right.conversionsLeft_le_two
  · by_cases rightPrimitive : right.isPrimitive = true
    · exact Nat.add_le_add left.conversionsLeft_le_two
        (Value.conversionsLeft_of_isPrimitive rightPrimitive)
    · -- Two objects are compared as they are.
      cases left with
      | object leftKind left =>
          cases right with
          | object => cases ran
          | undefined | number | string | boolean => exact absurd rfl rightPrimitive
      | undefined | number | string | boolean => exact absurd rfl leftPrimitive

/-! ## The loop -/

/--
The loop, told by how often it rewrites an operand and how it ends: with an answer, with the
error of a conversion, or as it does with the rewritten operands.
-/
inductive LooseLoop (call : Caller) :
    Value → Value → Machine → Nat → EStateM.Result Abort Machine Bool → Prop where
  | answered {left right : Value} {machine after : Machine} {answer : Bool} :
      looseStep call left right machine = .ok (.inl answer) after →
      LooseLoop call left right machine 0 (.ok answer after)
  | failed {left right : Value} {machine after : Machine} {abort : Abort} :
      looseStep call left right machine = .error abort after →
      LooseLoop call left right machine 0 (.error abort after)
  | rewritten {left right newLeft newRight : Value} {machine middle : Machine} {count : Nat}
      {outcome : EStateM.Result Abort Machine Bool} :
      looseStep call left right machine = .ok (.inr (newLeft, newRight)) middle →
      LooseLoop call newLeft newRight middle count outcome →
      LooseLoop call left right machine (count + 1) outcome

section

variable (loop : LooseLoop call left right machine count outcome)

include loop

/-- The loop rewrites operands no more often than there are conversions left. -/
theorem LooseLoop.count_le : count ≤ left.conversionsLeft + right.conversionsLeft := by
  induction loop with
  | answered => exact Nat.zero_le _
  | failed => exact Nat.zero_le _
  | rewritten ran _ inductionHypothesis =>
      exact Nat.succ_le_of_lt
        (Nat.lt_of_le_of_lt inductionHypothesis (conversionsLeft_of_looseStep ran))

/-- The loop rewrites operands three times at most. -/
theorem LooseLoop.count_le_three : count ≤ 3 := by
  cases loop with
  | answered => exact Nat.zero_le 3
  | failed => exact Nat.zero_le 3
  | rewritten ran further =>
      exact Nat.le_trans (LooseLoop.count_le (.rewritten ran further))
        (conversionsLeft_le_three ran)

/-- The loop ends in one way only. -/
theorem LooseLoop.unique
    {other : Nat}
    {otherOutcome : EStateM.Result Abort Machine Bool}
    (otherLoop : LooseLoop call left right machine other otherOutcome) :
    count = other ∧ outcome = otherOutcome := by
  induction loop generalizing other with
  | answered ran =>
      cases otherLoop with
      | answered ranToo => cases ran.symm.trans ranToo; exact ⟨rfl, rfl⟩
      | failed ranToo => cases ran.symm.trans ranToo
      | rewritten ranToo => cases ran.symm.trans ranToo
  | failed ran =>
      cases otherLoop with
      | answered ranToo => cases ran.symm.trans ranToo
      | failed ranToo => cases ran.symm.trans ranToo; exact ⟨rfl, rfl⟩
      | rewritten ranToo => cases ran.symm.trans ranToo
  | rewritten ran _ inductionHypothesis =>
      cases otherLoop with
      | answered ranToo => cases ran.symm.trans ranToo
      | failed ranToo => cases ran.symm.trans ranToo
      | rewritten ranToo further =>
          cases ran.symm.trans ranToo
          obtain ⟨rfl, rfl⟩ := inductionHypothesis further
          exact ⟨rfl, rfl⟩

end

/-- Within a budget of more steps than there are conversions left, the loop ends by itself. -/
theorem exists_looseLoop
    {budget : Nat}
    (enough : left.conversionsLeft + right.conversionsLeft < budget) :
    ∃ count, LooseLoop call left right machine count (looseFrom call budget left right machine) := by
  induction budget generalizing left right machine with
  | zero => exact absurd enough (Nat.not_lt_zero _)
  | succ budget inductionHypothesis =>
      rw [looseFrom]
      cases ran : looseStep call left right machine with
      | error abort middle =>
          rw [bind_of_error ran]
          exact ⟨0, .failed ran⟩
      | ok step middle =>
          rw [bind_of_ok ran]
          cases step with
          | inl answer => exact ⟨0, .answered ran⟩
          | inr operands =>
              have fewer := conversionsLeft_of_looseStep ran
              have enoughLeft := Nat.lt_of_lt_of_le fewer (Nat.le_of_lt_succ enough)
              obtain ⟨count, loop⟩ := @inductionHypothesis _ _ middle enoughLeft
              exact ⟨count + 1, .rewritten ran loop⟩

/-- With its operands exchanged, the loop does the same. -/
theorem LooseLoop.swap
    (loop : LooseLoop call left right machine count outcome) :
    LooseLoop call right left machine count outcome := by
  induction loop with
  | answered ran =>
      refine .answered ?_
      rw [looseStep_swap]
      exact map_of_ok ran
  | failed ran =>
      refine .failed ?_
      rw [looseStep_swap]
      exact map_of_error ran
  | rewritten ran _ inductionHypothesis =>
      refine .rewritten ?_ inductionHypothesis
      rw [looseStep_swap]
      exact map_of_ok ran

/-- Equality with conversion is what the loop comes to, whatever the operands. -/
theorem looseLoop_looseEquals (call : Caller) (left right : Value) (machine : Machine) :
    ∃ count, LooseLoop call left right machine count (looseEquals call left right machine) := by
  by_cases few : left.conversionsLeft + right.conversionsLeft ≤ 3
  · exact exists_looseLoop (Nat.lt_succ_of_le few)
  · -- With more conversions left there are two objects, and the first step answers.
    unfold looseEquals
    rw [looseFrom]
    cases ran : looseStep call left right machine with
    | error abort after =>
        rw [bind_of_error ran]
        exact ⟨0, .failed ran⟩
    | ok step after =>
        rw [bind_of_ok ran]
        cases step with
        | inl answer => exact ⟨0, .answered ran⟩
        | inr operands => exact absurd (conversionsLeft_le_three ran) few

/--
Equality with conversion is symmetric and its loop ends.  From any machine, two values in either
order come to the same answer or the same error, and to the same machine, whatever functions the
conversions call.  The loop ends with that outcome and with no other, and until then it rewrites
an operand three times at most.
-/
theorem looseEquals_symmetric_and_brief
    (call : Caller)
    (left right : Value)
    (machine : Machine) :
    looseEquals call left right machine = looseEquals call right left machine ∧
      (∃ count, LooseLoop call left right machine count (looseEquals call left right machine)) ∧
      ∀ count outcome, LooseLoop call left right machine count outcome →
        count ≤ 3 ∧ outcome = looseEquals call left right machine := by
  obtain ⟨count, loop⟩ := looseLoop_looseEquals call left right machine
  obtain ⟨swappedCount, swapped⟩ := looseLoop_looseEquals call right left machine
  refine ⟨(loop.unique swapped.swap).2, ⟨count, loop⟩, fun other outcome otherLoop => ?_⟩
  exact ⟨otherLoop.count_le_three, (otherLoop.unique loop).2⟩

end Run

end ScriptEngine
