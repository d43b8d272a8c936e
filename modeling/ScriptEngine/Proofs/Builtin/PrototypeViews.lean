import ScriptEngine.Proofs.Machine.Building

namespace ScriptEngine

/-!
# Prototypes as plain objects

A link to a prototype names an object and not the kind it is used as.  Whoever asks for a
prototype therefore gets it as a plain object.  It is the object that was linked to, but two
object values are the same only if their kinds agree.  So an array, a function or a regular
expression that something inherits from is never the same as the prototype that is had back.
-/

namespace Value

/-- A value with the kind of its object forgotten. -/
def plainView : Value → Value
  | object _ id => object .plain id
  | other => other

/-- A value is what it is without its kind exactly if it has no kind but the plain one. -/
theorem strictEquals_plainView (kind : ObjectKind) (id : Nat) :
    (object kind id).plainView.strictEquals (object kind id) = decide (kind = .plain) := by
  cases kind with
  | plain => exact Bool.and_eq_true_iff.mpr ⟨rfl, beq_self_eq_true id⟩
  | array | closure | builtin | pattern => rfl

end Value

namespace Run

/-- Make an object that inherits from a value, and ask for its prototype. -/
def prototypeOfHeir (call : Caller) (this value : Value) (further : List Value) : Run Value := do
  let heir ← Builtin.objectCreate.run call this (value :: further)
  Builtin.getPrototypeOf.run call this [heir]

/-- Two objects of different kinds differ under both equalities, and nothing is converted. -/
theorem binary_equalities_object
    (call : Caller)
    (leftKind rightKind : ObjectKind)
    (left right : Nat)
    (machine : Machine) :
    let same := (Value.object leftKind left).strictEquals (.object rightKind right)
    binary call .strictEqual (.object leftKind left) (.object rightKind right) machine =
        .ok (.boolean same) machine ∧
      binary call .equal (.object leftKind left) (.object rightKind right) machine =
        .ok (.boolean same) machine :=
  ⟨rfl, rfl⟩

theorem prototypeOfHeir_object
    (call : Caller)
    (this : Value)
    (kind : ObjectKind)
    (id : Nat)
    (further : List Value)
    (machine : Machine) :
    prototypeOfHeir call this (.object kind id) further machine =
      .ok (Value.object kind id).plainView
        { machine with heap := machine.heap.push ⟨some id, [], .plain⟩ } := by
  let heir : HeapObject := ⟨some id, [], .plain⟩
  let after : Machine := { machine with heap := machine.heap.push heir }
  have created : Builtin.objectCreate.run call this (.object kind id :: further) machine =
      .ok (.object .plain machine.heap.size) after :=
    rfl
  have isLink : after.heap.prototype? machine.heap.size = some id := by
    unfold Heap.prototype? after
    rw [Array.getElem?_push_size]
  unfold prototypeOfHeir
  rw [bind_of_ok created]
  change prototypeOf (.object .plain machine.heap.size) after = _
  rw [prototypeOf, heap_bind, isLink]
  rfl

/-- A prototype is had without its kind, if there is one. -/
theorem plainView_of_getPrototypeOf
    {call : Caller}
    {this result : Value}
    {arguments : List Value}
    {machine after : Machine}
    (gave : Builtin.getPrototypeOf.run call this arguments machine = .ok result after) :
    after = machine ∧ (result = .undefined ∨ ∃ id, result = .object .plain id) := by
  change prototypeOf (argument arguments 0) machine = .ok result after at gave
  cases isAsked : argument arguments 0 with
  | undefined =>
      rw [isAsked] at gave
      cases gave
  | number _ | string _ | boolean _ =>
      rw [isAsked] at gave
      cases gave
      exact ⟨rfl, .inr ⟨_, rfl⟩⟩
  | object kind id =>
      rw [isAsked, prototypeOf, heap_bind] at gave
      cases isLink : machine.heap.prototype? id with
      | some prototype =>
          rw [isLink] at gave
          cases gave
          exact ⟨rfl, .inr ⟨_, rfl⟩⟩
      | none =>
          rw [isLink] at gave
          cases gave
          exact ⟨rfl, .inl rfl⟩

/--
An object that inherits from a value gives back that value without its kind: the same object,
but the same value only if the kind is the plain one.  And no array, function or regular
expression is the same as the prototype of anything.
-/
theorem prototype_of_heir_same_iff_plain
    (call : Caller)
    (this : Value)
    (further : List Value)
    (machine : Machine) :
    (∀ kind id, ∃ after,
      prototypeOfHeir call this (.object kind id) further machine =
          .ok (Value.object kind id).plainView after ∧
        after = { machine with heap := machine.heap.push ⟨some id, [], .plain⟩ } ∧
        (Value.object kind id).plainView.objectId? = some id ∧
        binary call .strictEqual (Value.object kind id).plainView (.object kind id) after =
          .ok (.boolean (decide (kind = .plain))) after ∧
        binary call .equal (Value.object kind id).plainView (.object kind id) after =
          .ok (.boolean (decide (kind = .plain))) after) ∧
      ∀ arguments result after,
        Builtin.getPrototypeOf.run call this arguments machine = .ok result after →
        ∀ kind id, kind ≠ .plain →
          binary call .strictEqual result (.object kind id) after = .ok (.boolean false) after := by
  refine ⟨fun kind id => ?_, ?_⟩
  · obtain ⟨strictly, loosely⟩ := binary_equalities_object call .plain kind id id
      { machine with heap := machine.heap.push ⟨some id, [], .plain⟩ }
    rw [← Value.strictEquals_plainView kind id]
    exact ⟨_, prototypeOfHeir_object call this kind id further machine, rfl, rfl, strictly,
      loosely⟩
  · intro arguments result after gave kind id notPlain
    obtain ⟨-, rfl | ⟨prototype, rfl⟩⟩ := plainView_of_getPrototypeOf gave
    · rfl
    · have differ : (Value.object .plain prototype).strictEquals (.object kind id) = false := by
        change (ObjectKind.plain == kind && prototype == id) = false
        rw [beq_false_of_ne (Ne.symm notPlain), Bool.false_and]
      rw [(binary_equalities_object call .plain kind prototype id after).1, differ]

/-- An array of one element: its heir gives it back as a plain object, which it is not. -/
theorem prototype_of_heir_of_one :
    let machine : Machine :=
      ⟨#[⟨none, [], .array (.exact #[.boolean true])⟩], #[], 0, "", 0, 0, 0⟩
    ∃ after,
      prototypeOfHeir call .undefined (.object .array 0) [] machine =
          .ok (.object .plain 0) after ∧
        binary call .strictEqual (.object .plain 0) (.object .array 0) after =
          .ok (.boolean false) after ∧
        Builtin.getPrototypeOf.run call .undefined [.object .plain 1] after =
          .ok (.object .plain 0) after ∧
        binary call .strictEqual (.object .plain 0) (.object .closure 0) after =
          .ok (.boolean false) after := by
  intro machine
  obtain ⟨roundTrip, -⟩ := prototype_of_heir_same_iff_plain call .undefined [] machine
  obtain ⟨after, gave, isAfter, -, strictly, -⟩ := roundTrip .array 0
  obtain ⟨-, apart⟩ := prototype_of_heir_same_iff_plain call .undefined [] after
  have gaveAgain : Builtin.getPrototypeOf.run call .undefined [.object .plain 1] after =
      .ok (.object .plain 0) after := by
    rw [isAfter]
    rfl
  exact ⟨after, gave, strictly, gaveAgain, apart _ _ _ gaveAgain .closure 0 (by decide)⟩

end Run

end ScriptEngine
