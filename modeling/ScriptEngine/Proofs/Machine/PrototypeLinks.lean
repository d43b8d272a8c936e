import Mathlib.Data.List.Nodup
import Mathlib.Logic.Relation
import ScriptEngine.Proofs.Machine.PropertyStore

namespace ScriptEngine

/-!
# Links to prototypes

Objects are made with a link to an object that is there, and a link is changed only
if that closes no circle.  So a walk along the links always comes to an object without
a prototype.  This is what the search for a circle relies on itself: it walks along the
links that it has to keep free of circles.

A walk is told by the objects it passes.  Everything that walks along the links, be it
a lookup, a test for an instance or the search for a circle, is a question about them.
-/

namespace Heap

/-- One object is the prototype of another. -/
def Link (heap : Heap) (id prototype : Nat) : Prop := heap.prototype? id = some prototype

/-- A walk along the links from a first object, if any, passes these objects and ends. -/
inductive Passes (heap : Heap) : Option Nat → List Nat → Prop where
  | ended : Passes heap none []
  | step {id : Nat} {rest : List Nat} :
      Passes heap (heap.prototype? id) rest →
      Passes heap (some id) (id :: rest)

/-- Heaps that come from none by making objects, linking them, and changing all but the links. -/
inductive Linked : Heap → Prop where
  | nothing : Linked #[]
  | make {heap : Heap} {object : HeapObject} :
      Linked heap →
      (∀ prototype ∈ object.prototype, prototype < heap.size) →
      Linked (heap.make object).2
  | setPrototype {heap : Heap} {id : Nat} {prototype : Option Nat} :
      Linked heap →
      id < heap.size →
      (∀ other ∈ prototype, other < heap.size) →
      Linked (heap.setPrototype id prototype).2
  | change {before after : Heap} {id : Nat} :
      Linked before →
      ChangesOnly id before after →
      Linked after

/-- No link leads out of the heap, and every walk along the links ends. -/
structure Unwinds (heap : Heap) : Prop where
  inside : ∀ id prototype, heap.Link id prototype → prototype < heap.size
  ends : ∀ id, ∃ visited, heap.Passes (some id) visited

variable {heap : Heap} {start : Option Nat} {visited : List Nat} {id wanted : Nat}

/-! ## Objects on a walk -/

/-- A walk passes no other objects than these. -/
theorem Passes.unique
    {others : List Nat}
    (passes : heap.Passes start visited)
    (passesOthers : heap.Passes start others) :
    visited = others := by
  induction passes generalizing others with
  | ended =>
      cases passesOthers
      rfl
  | step _ inductionHypothesis =>
      cases passesOthers with
      | step passesRest => rw [inductionHypothesis passesRest]

/-- A walk goes on from every object it passes. -/
theorem Passes.suffix (passes : heap.Passes start visited) (member : id ∈ visited) :
    ∃ earlier rest, visited = earlier ++ id :: rest ∧ heap.Passes (some id) (id :: rest) := by
  induction passes with
  | ended => cases member
  | @step first rest passesRest inductionHypothesis =>
      rcases List.mem_cons.mp member with rfl | later
      · exact ⟨[], rest, rfl, .step passesRest⟩
      · obtain ⟨earlier, last, rfl, passesLast⟩ := inductionHypothesis later
        exact ⟨first :: earlier, last, rfl, passesLast⟩

/-- A walk that ends passes no object twice, or it would go round for ever. -/
theorem Passes.nodup (passes : heap.Passes start visited) : visited.Nodup := by
  induction passes with
  | ended => exact List.nodup_nil
  | @step first rest passesRest inductionHypothesis =>
      refine List.nodup_cons.mpr ⟨fun again => ?_, inductionHypothesis⟩
      obtain ⟨earlier, last, isRest, passesLast⟩ := passesRest.suffix again
      have same := passesLast.unique (.step passesRest)
      have lengths := congrArg List.length same
      simp only [isRest, List.length_cons, List.length_append] at lengths
      omega

/-- The objects a walk passes are the first one, its prototype, and so on. -/
theorem Passes.mem_iff (passes : heap.Passes (some id) visited) :
    wanted ∈ visited ↔ Relation.ReflTransGen heap.Link id wanted := by
  generalize isStart : some id = start at passes
  induction passes generalizing id with
  | ended => cases isStart
  | @step first rest passesRest inductionHypothesis =>
      cases isStart
      rw [Relation.ReflTransGen.cases_head_iff, List.mem_cons, eq_comm]
      refine or_congr_right ⟨fun later => ?_, ?_⟩
      · cases isPrototype : heap.prototype? first with
        | none =>
            rw [isPrototype] at passesRest
            cases passesRest
            cases later
        | some prototype =>
            exact ⟨prototype, isPrototype, (inductionHypothesis isPrototype.symm).mp later⟩
      · rintro ⟨prototype, isPrototype, reaches⟩
        exact (inductionHypothesis (Eq.symm isPrototype)).mpr reaches

/-- A walk that ends has gone round no circle. -/
theorem Passes.not_circular (passes : heap.Passes (some id) visited) :
    ¬ Relation.TransGen heap.Link id id := by
  intro circle
  obtain ⟨prototype, isPrototype, back⟩ := Relation.TransGen.head'_iff.mp circle
  cases passes with
  | @step _ rest passesRest =>
      have distinct := (Passes.step passesRest).nodup
      rw [show heap.prototype? id = some prototype from isPrototype] at passesRest
      exact (List.nodup_cons.mp distinct).1 (passesRest.mem_iff.mpr back)

/-- What a walk passes it passes on every heap where these objects have the same links. -/
theorem Passes.transfer
    {other : Heap}
    (passes : heap.Passes start visited)
    (same : ∀ id ∈ visited, other.prototype? id = heap.prototype? id) :
    other.Passes start visited := by
  induction passes with
  | ended => exact .ended
  | step _ inductionHypothesis =>
      refine .step ?_
      rw [same _ (by simp)]
      exact inductionHypothesis fun id member => same id (List.mem_cons_of_mem _ member)

section

variable (passes : heap.Passes start visited)
  (inside : ∀ id prototype, heap.Link id prototype → prototype < heap.size)
  (startInside : ∀ id ∈ start, id < heap.size)

include passes inside startInside

theorem Passes.mem_lt_size (member : id ∈ visited) : id < heap.size := by
  induction passes with
  | ended => cases member
  | @step first rest _ inductionHypothesis =>
      rcases List.mem_cons.mp member with rfl | later
      · exact startInside id rfl
      · exact inductionHypothesis (fun prototype isPrototype => inside first prototype isPrototype)
          later

/-- A walk that starts on the heap passes at most all objects of the heap. -/
theorem Passes.length_le_size : visited.length ≤ heap.size := by
  have few : visited ⊆ List.range heap.size := fun id member =>
    List.mem_range.mpr (passes.mem_lt_size inside startInside member)
  simpa using (List.subperm_of_subset passes.nodup few).length_le

end

/-! ## Walks with a budget -/

/-- A budget for all objects on a walk is enough to tell which they are. -/
theorem Passes.reachesFrom_iff
    {budget : Nat}
    (passes : heap.Passes start visited)
    (enough : visited.length ≤ budget) :
    heap.reachesFrom wanted budget start = true ↔ wanted ∈ visited := by
  induction passes generalizing budget with
  | ended => cases budget <;> simp [reachesFrom]
  | @step first rest _ inductionHypothesis =>
      obtain ⟨budget, rfl⟩ : ∃ less, budget = less + 1 :=
        Nat.exists_eq_succ_of_ne_zero (by simp at enough; omega)
      have isEnough : rest.length ≤ budget := Nat.le_of_succ_le_succ enough
      rw [reachesFrom, Bool.or_eq_true, beq_iff_eq, inductionHypothesis isEnough, List.mem_cons,
        eq_comm]

/-- A lookup finds what the first object on the walk owns that owns something of the name. -/
theorem Passes.lookup?_eq (passes : heap.Passes (some id) visited) (name : String) :
    heap.lookup? id name = visited.findSome? (heap.getOwn? · name) := by
  generalize isStart : some id = start at passes
  induction passes generalizing id with
  | ended => cases isStart
  | @step first rest passesRest inductionHypothesis =>
      cases isStart
      rw [Heap.lookup?_eq, List.findSome?_cons]
      have inherited :
          (heap.prototype? first).bind (heap.lookup? · name) =
            rest.findSome? (heap.getOwn? · name) := by
        cases isPrototype : heap.prototype? first with
        | none =>
            rw [isPrototype] at passesRest
            cases passesRest
            rfl
        | some prototype => exact inductionHypothesis isPrototype.symm
      rw [inherited]
      cases heap.getOwn? first name <;> rfl

/-! ## Owners of what is found -/

/-- What a lookup finds is owned by an object on the way. -/
theorem exists_owner_of_lookup?
    {name : String}
    {value : Value}
    (found : heap.lookup? id name = some value) :
    ∃ owner, Relation.ReflTransGen heap.Link id owner ∧ heap.getOwn? owner name = some value := by
  unfold lookup? at found
  generalize heap.size + 1 = budget at found
  induction budget generalizing id with
  | zero => cases found
  | succ budget inductionHypothesis =>
      rw [lookupFrom_succ, Option.or_eq_some_iff] at found
      rcases found with own | ⟨-, inherited⟩
      · exact ⟨id, .refl, own⟩
      · obtain ⟨prototype, isPrototype, later⟩ := Option.bind_eq_some_iff.mp inherited
        obtain ⟨owner, reaches, own⟩ := inductionHypothesis later
        exact ⟨owner, .head isPrototype reaches, own⟩

/-- If one name is found and another is not, the owner of the one does not own the other. -/
theorem exists_owner_of_missing
    {name missing : String}
    {value : Value}
    (notFound : heap.lookup? id missing = none)
    (found : heap.lookup? id name = some value) :
    ∃ owner, Relation.ReflTransGen heap.Link id owner ∧ heap.getOwn? owner name = some value ∧
      heap.getOwn? owner missing = none := by
  unfold lookup? at found notFound
  generalize heap.size + 1 = budget at found notFound
  induction budget generalizing id with
  | zero => cases found
  | succ budget inductionHypothesis =>
      rw [lookupFrom_succ, Option.or_eq_some_iff] at found
      rw [lookupFrom_succ, Option.or_eq_none_iff] at notFound
      obtain ⟨notOwn, notInherited⟩ := notFound
      rcases found with own | ⟨-, inherited⟩
      · exact ⟨id, .refl, own, notOwn⟩
      · obtain ⟨prototype, isPrototype, later⟩ := Option.bind_eq_some_iff.mp inherited
        rw [isPrototype, Option.bind_some] at notInherited
        obtain ⟨owner, reaches, own⟩ := inductionHypothesis later notInherited
        exact ⟨owner, .head isPrototype reaches, own⟩

/-! ## Heaps on which walks end -/

namespace Unwinds

/-- Every walk that starts on the heap ends within a budget of all objects. -/
theorem exists_passes (unwinds : heap.Unwinds) (startInside : ∀ id ∈ start, id < heap.size) :
    ∃ visited, heap.Passes start visited ∧ visited.length ≤ heap.size := by
  cases start with
  | none => exact ⟨[], .ended, Nat.zero_le _⟩
  | some id =>
      obtain ⟨visited, passes⟩ := unwinds.ends id
      exact ⟨visited, passes, passes.length_le_size unwinds.inside startInside⟩

/-- The search for an object along the links finds it where it is to be found. -/
theorem reaches_iff (unwinds : heap.Unwinds) (startInside : ∀ id ∈ start, id < heap.size) :
    heap.reaches start wanted = true ↔
      ∃ id, start = some id ∧ Relation.ReflTransGen heap.Link id wanted := by
  obtain ⟨visited, passes, bounded⟩ := unwinds.exists_passes startInside
  rw [reaches, passes.reachesFrom_iff (Nat.le_succ_of_le bounded)]
  cases passes with
  | ended => simp
  | @step id rest passesRest =>
      rw [(Passes.step passesRest).mem_iff]
      simp

/-- With the same links, the same walks end. -/
theorem of_same
    {other : Heap}
    (unwinds : heap.Unwinds)
    (size : heap.size ≤ other.size)
    (same : ∀ id, other.prototype? id = heap.prototype? id) :
    other.Unwinds where
  inside id prototype isLink :=
    Nat.lt_of_lt_of_le (unwinds.inside id prototype ((same id).symm.trans isLink)) size
  ends id := by
    obtain ⟨visited, passes⟩ := unwinds.ends id
    exact ⟨visited, passes.transfer fun other _ => same other⟩

/-- A new object stands before a walk that ends, and no old walk comes to it. -/
theorem make
    {object : HeapObject}
    (unwinds : heap.Unwinds)
    (known : ∀ prototype ∈ object.prototype, prototype < heap.size) :
    (heap.make object).2.Unwinds := by
  have isNew : (heap.make object).2.prototype? heap.size = object.prototype := by
    simp [Heap.make, prototype?]
  have isOld (id : Nat) (old : id ≠ heap.size) :
      (heap.make object).2.prototype? id = heap.prototype? id := by
    unfold Heap.make prototype?
    rw [Array.getElem?_push, if_neg old]
  have staysOld
      {start : Option Nat}
      (startInside : ∀ id ∈ start, id < heap.size) :
      ∃ visited, (heap.make object).2.Passes start visited := by
    obtain ⟨visited, passes, -⟩ := unwinds.exists_passes startInside
    refine ⟨visited, passes.transfer fun id member => isOld id ?_⟩
    exact Nat.ne_of_lt (passes.mem_lt_size unwinds.inside startInside member)
  refine ⟨fun id prototype isLink => ?_, fun id => ?_⟩
  · have grown : (heap.make object).2.size = heap.size + 1 := Array.size_push ..
    by_cases isLast : id = heap.size
    · rw [isLast, Link, isNew] at isLink
      have := known prototype isLink
      omega
    · rw [Link, isOld id isLast] at isLink
      have := unwinds.inside id prototype isLink
      omega
  · by_cases isLast : id = heap.size
    · obtain ⟨visited, passes⟩ := staysOld known
      refine ⟨heap.size :: visited, ?_⟩
      rw [isLast]
      refine .step ?_
      rw [isNew]
      exact passes
    · by_cases old : id < heap.size
      · exact staysOld (by simpa using old)
      · have nothing : (heap.make object).2.prototype? id = none := by
          rw [isOld id isLast, prototype?, Array.getElem?_eq_none (Nat.le_of_not_lt old)]
        refine ⟨[id], .step ?_⟩
        rw [nothing]
        exact .ended

end Unwinds

/-! ## Changing a link -/

/-- The heap after a link of one object is changed and nothing else. -/
structure Relinks (before after : Heap) (id : Nat) (prototype : Option Nat) : Prop where
  object : after[id]? = before[id]?.map fun object => { object with prototype := prototype }
  others : ∀ other, other ≠ id → after[other]? = before[other]?

/-- A link is changed unless the object is met on the way from the new prototype. -/
theorem setPrototype_cases (heap : Heap) (id : Nat) (prototype : Option Nat) :
    (heap.reaches prototype id = true ∧ heap.setPrototype id prototype = (false, heap)) ∨
      (heap.reaches prototype id = false ∧ (heap.setPrototype id prototype).1 = true ∧
        (heap.setPrototype id prototype).2.size = heap.size ∧
        Relinks heap (heap.setPrototype id prototype).2 id prototype) := by
  unfold setPrototype
  cases heap.reaches prototype id with
  | true => exact .inl ⟨rfl, rfl⟩
  | false =>
      refine .inr ⟨rfl, rfl, Array.size_modify .., ⟨?_, fun other different => ?_⟩⟩
      · simp [Array.getElem?_modify]
      · simp [Array.getElem?_modify, Ne.symm different]

namespace Relinks

variable {before after : Heap} {prototype : Option Nat}

theorem prototype?_self (relinks : Relinks before after id prototype) (known : id < before.size) :
    after.prototype? id = prototype := by
  unfold Heap.prototype?
  rw [relinks.object, Array.getElem?_eq_getElem known]
  rfl

theorem prototype?_other
    {other : Nat}
    (relinks : Relinks before after id prototype)
    (different : other ≠ id) :
    after.prototype? other = before.prototype? other := by
  unfold Heap.prototype?
  rw [relinks.others other different]

/--
A walk goes on as before until it meets the object whose link was changed, and from
there along the walk from the new prototype, which does not come back to the object.
-/
theorem passes
    {beyond : List Nat}
    (relinks : Relinks before after id prototype)
    (known : id < before.size)
    (passesBeyond : before.Passes prototype beyond)
    (apart : id ∉ beyond)
    (passesBefore : before.Passes start visited) :
    ∃ visited, after.Passes start visited := by
  induction passesBefore with
  | ended => exact ⟨[], .ended⟩
  | @step first _ _ inductionHypothesis =>
      by_cases isChanged : first = id
      · subst isChanged
        refine ⟨first :: beyond, .step ?_⟩
        rw [relinks.prototype?_self known]
        refine passesBeyond.transfer fun other member => relinks.prototype?_other ?_
        rintro rfl
        exact apart member
      · obtain ⟨rest, passesRest⟩ := inductionHypothesis
        refine ⟨first :: rest, .step ?_⟩
        rw [relinks.prototype?_other isChanged]
        exact passesRest

end Relinks

/-- Changing a link leaves a heap on which every walk ends. -/
theorem Unwinds.setPrototype
    {prototype : Option Nat}
    (unwinds : heap.Unwinds)
    (known : id < heap.size)
    (prototypeKnown : ∀ other ∈ prototype, other < heap.size) :
    (heap.setPrototype id prototype).2.Unwinds := by
  rcases heap.setPrototype_cases id prototype with ⟨-, isRefused⟩ | ⟨notReached, -, size, relinks⟩
  · rw [isRefused]
    exact unwinds
  · obtain ⟨beyond, passesBeyond, bounded⟩ := unwinds.exists_passes prototypeKnown
    have apart : id ∉ beyond := by
      rw [← passesBeyond.reachesFrom_iff (Nat.le_succ_of_le bounded)]
      change ¬ heap.reaches prototype id = true
      rw [notReached]
      exact Bool.false_ne_true
    refine ⟨fun other target isLink => ?_, fun start => ?_⟩
    · rw [size]
      by_cases isChanged : other = id
      · subst isChanged
        rw [Link, relinks.prototype?_self known] at isLink
        exact prototypeKnown target isLink
      · rw [Link, relinks.prototype?_other isChanged] at isLink
        exact unwinds.inside other target isLink
    · obtain ⟨visited, passes⟩ := unwinds.ends start
      exact relinks.passes known passesBeyond apart passes

/-- On every heap that comes from making and linking objects, every walk ends. -/
theorem Linked.unwinds (linked : Linked heap) : heap.Unwinds := by
  induction linked with
  | nothing =>
      refine ⟨fun id prototype isLink => ?_, fun id => ⟨[id], .step ?_⟩⟩
      · cases isLink
      · exact .ended
  | make _ known inductionHypothesis => exact inductionHypothesis.make known
  | setPrototype _ known prototypeKnown inductionHypothesis =>
      exact inductionHypothesis.setPrototype known prototypeKnown
  | change _ changes inductionHypothesis =>
      exact inductionHypothesis.of_same (Nat.le_of_eq changes.size.symm) changes.prototype

end Heap

namespace Run

/-- A test for an instance answers whether the prototype of the function is met. -/
theorem instanceOf_eq
    {machine : Machine}
    {kind constructorKind prototypeKind : ObjectKind}
    {id constructorId prototype : Nat}
    (isCallable : constructorKind.isCallable = true)
    (isPrototype : machine.heap.lookup? constructorId "prototype" =
      some (.object prototypeKind prototype)) :
    instanceOf (.object kind id) (.object constructorKind constructorId) machine =
      .ok (machine.heap.reaches (machine.heap.prototype? id) prototype) machine := by
  unfold instanceOf
  rw [if_neg (by simp [Value.isCallable, isCallable])]
  dsimp only
  rw [heap_bind, isPrototype]
  rfl

end Run

namespace Heap

variable {heap : Heap} {id : Nat}

/-- What is asked of an object by walking along its links has an answer, and which. -/
structure AnswersWalks (heap : Heap) (id : Nat) (visited : List Nat) : Prop where
  passes : heap.Passes (some id) visited
  few : visited.length ≤ heap.size
  distinct : visited.Nodup
  reaches : ∀ wanted, heap.reaches (some id) wanted = true ↔ wanted ∈ visited
  lookup : ∀ name, heap.lookup? id name = visited.findSome? (heap.getOwn? · name)
  isInstance :
    ∀ (machine : Machine) (kind constructorKind prototypeKind : ObjectKind)
        (constructorId prototype : Nat),
      machine.heap = heap →
      constructorKind.isCallable = true →
      heap.lookup? constructorId "prototype" = some (.object prototypeKind prototype) →
      Run.instanceOf (.object kind id) (.object constructorKind constructorId) machine =
        .ok (decide (prototype ∈ visited.tail)) machine

theorem Unwinds.answersWalks (unwinds : heap.Unwinds) (known : id < heap.size) :
    ∃ visited, heap.AnswersWalks id visited := by
  have startInside : ∀ other ∈ some id, other < heap.size := by simpa using known
  obtain ⟨visited, passes, few⟩ := unwinds.exists_passes startInside
  refine ⟨visited, passes, few, passes.nodup, fun wanted => ?_, passes.lookup?_eq, ?_⟩
  · exact passes.reachesFrom_iff (Nat.le_succ_of_le few)
  · rintro machine kind constructorKind prototypeKind constructorId prototype rfl isCallable
      isPrototype
    rw [Run.instanceOf_eq isCallable isPrototype]
    cases passes with
    | @step _ rest passesRest =>
        have enough : rest.length ≤ machine.heap.size + 1 := by
          rw [List.length_cons] at few
          omega
        have answer : machine.heap.reachesFrom prototype (machine.heap.size + 1)
            (machine.heap.prototype? id) = true ↔ prototype ∈ rest :=
          passesRest.reachesFrom_iff enough
        rw [List.tail_cons]
        change EStateM.Result.ok (machine.heap.reachesFrom prototype (machine.heap.size + 1)
          (machine.heap.prototype? id)) machine = _
        congr 1
        rw [Bool.eq_iff_iff, answer, decide_eq_true_iff]

/--
The links stay free of circles whatever objects are made and linked, so every walk along
them ends.  Linking an object to a prototype is refused exactly if the object is the
prototype or one of the prototypes behind it, and then nothing changes; otherwise the
object gets the link, and nothing else changes.
-/
theorem links_stay_acyclic
    (linked : Linked heap) :
    (∀ id, ¬ Relation.TransGen heap.Link id id) ∧
    (∀ id < heap.size, ∃ visited, heap.AnswersWalks id visited) ∧
    ∀ id < heap.size, ∀ prototype : Option Nat, (∀ other ∈ prototype, other < heap.size) →
      ((heap.setPrototype id prototype).1 = false ↔
        ∃ other, prototype = some other ∧ Relation.ReflTransGen heap.Link other id) ∧
      ((heap.setPrototype id prototype).1 = false → (heap.setPrototype id prototype).2 = heap) ∧
      ((heap.setPrototype id prototype).1 = true →
        Relinks heap (heap.setPrototype id prototype).2 id prototype) := by
  have unwinds := linked.unwinds
  refine ⟨fun id => ?_, fun id known => unwinds.answersWalks known, ?_⟩
  · obtain ⟨visited, passes⟩ := unwinds.ends id
    exact passes.not_circular
  · intro id _ prototype prototypeKnown
    rw [← unwinds.reaches_iff prototypeKnown]
    rcases heap.setPrototype_cases id prototype with
      ⟨reached, isRefused⟩ | ⟨notReached, isDone, -, relinks⟩
    · rw [isRefused]
      exact ⟨iff_of_true rfl reached, fun _ => rfl, nofun⟩
    · rw [isDone, notReached]
      exact ⟨iff_of_false nofun nofun, nofun, fun _ => relinks⟩

/-- Three objects in a row, of which the middle one is cut off and the first put behind the last. -/
def relinked : Heap :=
  let first := (make #[] ⟨none, [], .plain⟩).2
  let second := (first.make ⟨some 0, [], .plain⟩).2
  let third := (second.make ⟨some 1, [], .plain⟩).2
  let cut := (third.setPrototype 1 none).2
  (cut.setPrototype 0 (some 2)).2

theorem links_stay_acyclic_relinked :
    relinked.Linked ∧
      (∀ id, ¬ Relation.TransGen relinked.Link id id) ∧
      (∃ visited, relinked.AnswersWalks 0 visited ∧ visited = [0, 2, 1]) ∧
      relinked.setPrototype 1 (some 0) = (false, relinked) ∧
      Relinks relinked (relinked.setPrototype 0 none).2 0 none := by
  have linked : relinked.Linked := by
    refine .setPrototype (.setPrototype ?_ ?_ nofun) ?_ (by simp; decide)
    · refine .make (.make (.make .nothing nofun) ?_) ?_
      · simp [make]
      · simp [make]
    · decide
    · decide
  obtain ⟨acyclic, answers, links⟩ := links_stay_acyclic linked
  obtain ⟨visited, answersFirst⟩ := answers 0 (by decide)
  obtain ⟨refused, stays, -⟩ := links 1 (by decide) (some 0) (by simp; decide)
  obtain ⟨-, -, relinks⟩ := links 0 (by decide) none nofun
  have round : Relation.ReflTransGen relinked.Link 0 1 :=
    .tail (.single (show relinked.Link 0 2 from rfl)) (show relinked.Link 2 1 from rfl)
  have isRefused := refused.mpr ⟨0, rfl, round⟩
  refine ⟨linked, acyclic, ⟨visited, answersFirst, ?_⟩, Prod.ext isRefused (stays isRefused), ?_⟩
  · exact answersFirst.passes.unique (.step (.step (.step .ended)))
  · exact relinks rfl

end Heap

end ScriptEngine
