import ScriptEngine.Machine.Evaluation

namespace ScriptEngine

/-!
# What a name means in a scope

A name means its nearest binding on the way from a scope to the root.  Whatever was done
to the scopes before, reading a name finds that binding or reports the name, and each of
the ways to change scopes changes one binding: which one is told here apart from how the
scopes are searched for it.

Scopes are shared, so one change may be seen from many scopes.  It is seen from exactly
those that come to the changed binding; from every other scope, and for every other name,
nothing has changed.
-/

variable {test : Scope → Bool}

/-! ## The bindings of one scope -/

namespace Bindings

variable {bindings : Bindings} {name other : String} {value : Value}

theorem has_eq_true_iff : bindings.has name = true ↔ ∃ value, bindings.get? name = some value :=
  Option.isSome_iff_exists

theorem get?_update_self (bound : bindings.has name) :
    Bindings.get? name (bindings.update name value) = some value := by
  induction bindings with
  | nil => exact nomatch bound
  | cons first rest inductionHypothesis =>
      rw [update]
      split <;> rename_i isFirst
      · exact if_pos isFirst
      · rw [get?, if_neg isFirst]
        refine inductionHypothesis ?_
        rwa [has, get?, if_neg isFirst] at bound

theorem get?_update_other (isOther : other ≠ name) :
    Bindings.get? other (bindings.update name value) = bindings.get? other := by
  induction bindings with
  | nil => rfl
  | cons first rest inductionHypothesis =>
      rw [update]
      split <;> rename_i isFirst
      · have apart : first.1 ≠ other := isFirst ▸ isOther.symm
        rw [get?, get?, if_neg apart, if_neg apart]
      · rw [get?, get?, inductionHypothesis]

theorem get?_set_self : Bindings.get? name (bindings.set name value) = some value := by
  unfold set
  split
  · exact get?_update_self ‹_›
  · exact if_pos rfl

theorem get?_set_other (isOther : other ≠ name) :
    Bindings.get? other (bindings.set name value) = bindings.get? other := by
  unfold set
  split
  · exact get?_update_other isOther
  · exact if_neg isOther.symm

theorem get?_erase_other (isOther : other ≠ name) :
    Bindings.get? other (bindings.erase name) = bindings.get? other := by
  induction bindings with
  | nil => rfl
  | cons first rest inductionHypothesis =>
      rw [erase]
      split <;> rename_i isFirst
      · have apart : first.1 ≠ other := isFirst ▸ isOther.symm
        rw [get?, if_neg apart]
      · rw [get?, get?, inductionHypothesis]

/-- No name is bound twice. -/
def Distinct (bindings : Bindings) : Prop := (bindings.map Prod.fst).Nodup

theorem get?_eq_none_iff : bindings.get? name = none ↔ name ∉ bindings.map Prod.fst := by
  induction bindings with
  | nil => simp [get?]
  | cons first rest inductionHypothesis =>
      rw [get?, List.map_cons, List.mem_cons, not_or]
      split <;> rename_i isFirst
      · simp [isFirst]
      · rw [inductionHypothesis]
        exact ⟨fun new => ⟨Ne.symm isFirst, new⟩, And.right⟩

/-- Erasing takes one binding away, so a name bound twice would come to light again. -/
theorem get?_erase_self (distinct : bindings.Distinct) :
    Bindings.get? name (bindings.erase name) = none := by
  induction bindings with
  | nil => rfl
  | cons first rest inductionHypothesis =>
      obtain ⟨firstNew, restDistinct⟩ := List.nodup_cons.mp distinct
      rw [erase]
      split <;> rename_i isFirst
      · exact get?_eq_none_iff.mpr (isFirst ▸ firstNew)
      · rw [get?, if_neg isFirst]
        exact inductionHypothesis restDistinct

theorem names_update : (bindings.update name value).map Prod.fst = bindings.map Prod.fst := by
  induction bindings with
  | nil => rfl
  | cons first rest inductionHypothesis =>
      rw [update]
      split
      · rfl
      · rw [List.map_cons, List.map_cons, inductionHypothesis]

theorem Distinct.set (distinct : bindings.Distinct) :
    Bindings.Distinct (bindings.set name value) := by
  unfold Bindings.set
  split <;> rename_i bound
  · unfold Distinct
    rwa [names_update]
  · refine List.nodup_cons.mpr ⟨get?_eq_none_iff.mp ?_, distinct⟩
    exact Option.not_isSome_iff_eq_none.mp bound

theorem erase_sublist : List.Sublist (bindings.erase name) bindings := by
  induction bindings with
  | nil => exact List.Sublist.refl _
  | cons first rest inductionHypothesis =>
      rw [erase]
      split
      · exact List.sublist_cons_self _ _
      · exact inductionHypothesis.cons_cons _

theorem Distinct.erase (distinct : bindings.Distinct) : Bindings.Distinct (bindings.erase name) :=
  distinct.sublist (erase_sublist.map _)

end Bindings

namespace Scopes

variable {scopes before after : Scopes} {id holder : Nat} {name : String} {value : Value}

/-! ## The nearest scope that passes a test -/

/-- What a scope itself binds a name to. -/
def own? (scopes : Scopes) (id : Nat) (name : String) : Option Value :=
  scopes[id]?.bind (Bindings.get? name ·.bindings)

/-- The scope around a scope. -/
def parent? (scopes : Scopes) (id : Nat) : Option Nat := scopes[id]?.bind (·.parent)

/-- A scope is there and passes a test. -/
def Passes (scopes : Scopes) (test : Scope → Bool) (id : Nat) : Prop :=
  ∃ scope, scopes[id]? = some scope ∧ test scope = true

/-- The first scope on the way from one scope to the root that passes a test. -/
inductive Nearest (scopes : Scopes) (test : Scope → Bool) : Nat → Nat → Prop where
  | here {id : Nat}
      (passes : scopes.Passes test id) :
      Nearest scopes test id id
  | above {id parent holder : Nat}
      (fails : ¬ scopes.Passes test id)
      (next : scopes.parent? id = some parent)
      (nearest : Nearest scopes test parent holder) :
      Nearest scopes test id holder

/-- A name, seen from a scope, means the binding of the holder. -/
def Resolves (scopes : Scopes) (name : String) (id holder : Nat) : Prop :=
  scopes.Nearest (·.bindings.has name) id holder

/-- No scope on the way to the root binds a name. -/
def Unbound (scopes : Scopes) (name : String) (id : Nat) : Prop :=
  ∀ holder, ¬ scopes.Resolves name id holder

/-- The nearest function scope. -/
def Receives (scopes : Scopes) (id holder : Nat) : Prop := scopes.Nearest (·.isFunction) id holder

/-- The root above a scope. -/
def RootOf (scopes : Scopes) (id holder : Nat) : Prop := scopes.Nearest (·.parent.isNone) id holder

theorem Nearest.passes (nearest : scopes.Nearest test id holder) :
    scopes.Passes test holder := by
  induction nearest with
  | here passes => exact passes
  | above _ _ _ inductionHypothesis => exact inductionHypothesis

theorem Nearest.unique
    {other : Nat} (nearest : scopes.Nearest test id holder)
    (also : scopes.Nearest test id other) :
    holder = other := by
  induction nearest with
  | here passes =>
      cases also with
      | here => rfl
      | above fails => exact absurd passes fails
  | above fails next _ inductionHypothesis =>
      cases also with
      | here passes => exact absurd passes fails
      | above _ alsoNext nearest =>
          cases next.symm.trans alsoNext
          exact inductionHypothesis nearest

theorem Nearest.congr
    {otherTest : Scope → Bool} (parents : ∀ id, after.parent? id = before.parent? id)
    (tests : ∀ id, after.Passes otherTest id ↔ before.Passes test id) :
    after.Nearest otherTest id holder ↔ before.Nearest test id holder := by
  refine ⟨fun nearest => ?_, fun nearest => ?_⟩
  · induction nearest with
    | here passes => exact .here ((tests _).mp passes)
    | above fails next _ inductionHypothesis =>
        exact .above (mt (tests _).mpr fails) ((parents _).symm.trans next) inductionHypothesis
  · induction nearest with
    | here passes => exact .here ((tests _).mpr passes)
    | above fails next _ inductionHypothesis =>
        exact .above (mt (tests _).mp fails) ((parents _).trans next) inductionHypothesis

theorem passes_has_iff :
    scopes.Passes (·.bindings.has name) id ↔ ∃ value, scopes.own? id name = some value := by
  unfold Passes own?
  simp only [Bindings.has_eq_true_iff, Option.bind_eq_some_iff]
  exact ⟨fun ⟨scope, isScope, value, bound⟩ => ⟨value, scope, isScope, bound⟩,
    fun ⟨value, scope, isScope, bound⟩ => ⟨scope, isScope, value, bound⟩⟩

/-! ## Scopes as they are grown -/

/-- Scopes as they are made and changed in any order, each change at a scope that is there. -/
inductive Grown : Scopes → Prop where
  | none : Grown #[]
  | make {scopes : Scopes} {parent : Option Nat} {isFunction : Bool}
      (grown : Grown scopes)
      (there : ∀ id, parent = some id → id < scopes.size) :
      Grown (scopes.make parent isFunction).2
  | declare {scopes : Scopes} {id : Nat} {name : String} {value : Value}
      (grown : Grown scopes)
      (there : id < scopes.size) :
      Grown (scopes.declare id name value)
  | bind {scopes : Scopes} {id : Nat} {name : String} {value : Value}
      (grown : Grown scopes)
      (there : id < scopes.size) :
      Grown (scopes.bind id name value)
  | assign {scopes : Scopes} {id : Nat} {name : String} {value : Value}
      (grown : Grown scopes)
      (there : id < scopes.size) :
      Grown (scopes.assign id name value)
  | erase {scopes : Scopes} {id : Nat} {name : String}
      (grown : Grown scopes)
      (there : id < scopes.size) :
      Grown (scopes.erase id name)

/-- What one scope keeps to, at its place. -/
structure WellPlacedAt (id : Nat) (scope : Scope) : Prop where
  parent_below : ∀ parent, scope.parent = some parent → parent < id
  root_isFunction : scope.parent = none → scope.isFunction = true
  distinct : scope.bindings.Distinct

/-- All scopes are well placed. -/
def WellPlaced (scopes : Scopes) : Prop :=
  ∀ id scope, scopes[id]? = some scope → WellPlacedAt id scope

theorem WellPlaced.make
    {parent : Option Nat} (placed : scopes.WellPlaced)
    (there : ∀ id, parent = some id → id < scopes.size) (isFunction : Bool) :
    WellPlaced (scopes.make parent isFunction).2 := by
  intro id scope isScope
  rw [Scopes.make, Array.getElem?_push] at isScope
  split at isScope <;> rename_i isNew
  · cases isScope
    cases isNew
    refine ⟨there, fun isRoot => ?_, List.nodup_nil⟩
    dsimp only at isRoot ⊢
    rw [isRoot, Option.isNone_none, Bool.or_true]
  · exact placed id scope isScope

theorem WellPlaced.modify
    {change : Bindings → Bindings} (placed : scopes.WellPlaced) (id : Nat)
    (keeps : ∀ bindings : Bindings, bindings.Distinct → (change bindings).Distinct) :
    WellPlaced (scopes.modify id fun scope =>
      { scope with bindings := change scope.bindings }) := by
  intro other scope isScope
  rw [Array.getElem?_modify] at isScope
  split at isScope
  · obtain ⟨old, isOld, rfl⟩ := Option.map_eq_some_iff.mp isScope
    have oldPlaced := placed other old isOld
    exact ⟨oldPlaced.parent_below, oldPlaced.root_isFunction, keeps _ oldPlaced.distinct⟩
  · exact placed other scope isScope

theorem WellPlaced.bind (placed : scopes.WellPlaced) (id : Nat) :
    WellPlaced (scopes.bind id name value) :=
  placed.modify id fun _ distinct => distinct.set

theorem WellPlaced.erase (placed : scopes.WellPlaced) (id : Nat) :
    WellPlaced (scopes.erase id name) := by
  unfold Scopes.erase
  split
  · exact placed.modify _ fun _ distinct => distinct.erase
  · exact placed

theorem Grown.wellPlaced (grown : Grown scopes) : scopes.WellPlaced := by
  induction grown with
  | none => exact fun id scope isScope => nomatch isScope
  | make _ there inductionHypothesis => exact inductionHypothesis.make there _
  | declare _ _ inductionHypothesis => exact inductionHypothesis.bind _
  | bind _ _ inductionHypothesis => exact inductionHypothesis.bind _
  | assign _ _ inductionHypothesis => exact inductionHypothesis.bind _
  | erase _ _ inductionHypothesis => exact inductionHypothesis.erase _

theorem WellPlaced.parent?_lt
    {parent : Nat} (placed : scopes.WellPlaced) (next : scopes.parent? id = some parent) :
    parent < id := by
  obtain ⟨scope, isScope, isParent⟩ := Option.bind_eq_some_iff.mp next
  exact (placed id scope isScope).parent_below parent isParent

/-! ## The search finds the nearest -/

/-- Parents come before their scopes, so a budget above a scope's place takes the search to
the root. -/
theorem findFrom_eq_some_iff
    (placed : scopes.WellPlaced)
    {budget : Nat}
    (enough : id < budget) :
    scopes.findFrom test budget id = some holder ↔ scopes.Nearest test id holder := by
  induction budget generalizing id with
  | zero => exact absurd enough (Nat.not_lt_zero id)
  | succ budget inductionHypothesis =>
      rw [findFrom]
      cases isScope : scopes[id]? with
      | none =>
          refine ⟨nofun, fun nearest => ?_⟩
          have absent : scopes.parent? id = none := by rw [parent?, isScope]; rfl
          cases nearest with
          | here passes =>
              obtain ⟨_, isSome, _⟩ := passes
              cases isScope.symm.trans isSome
          | above _ next _ => cases absent.symm.trans next
      | some scope =>
          have passes_iff : scopes.Passes test id ↔ test scope = true := by
            simp [Passes, isScope]
          have isParent : scopes.parent? id = scope.parent := by rw [parent?, isScope]; rfl
          dsimp only
          split <;> rename_i passes
          · refine ⟨fun found => ?_, fun nearest => ?_⟩
            · cases found
              exact .here (passes_iff.mpr passes)
            · rw [(Nearest.here (passes_iff.mpr passes)).unique nearest]
          · have fails := mt passes_iff.mp passes
            split <;> rename_i next
            · rename_i parent
              have below := placed.parent?_lt (isParent.trans next)
              rw [inductionHypothesis (by omega)]
              refine ⟨.above fails (isParent.trans next), fun nearest => ?_⟩
              cases nearest with
              | here passes => exact absurd passes fails
              | above _ alsoNext nearest =>
                  cases (isParent.trans next).symm.trans alsoNext
                  exact nearest
            · refine ⟨nofun, fun nearest => ?_⟩
              cases nearest with
              | here passes => exact absurd passes fails
              | above _ alsoNext _ => cases (isParent.trans next).symm.trans alsoNext

theorem findScope_eq_some_iff (placed : scopes.WellPlaced) :
    scopes.findScope id test = some holder ↔ scopes.Nearest test id holder :=
  findFrom_eq_some_iff placed (Nat.lt_succ_self id)

theorem binder?_eq_some_iff (placed : scopes.WellPlaced) :
    scopes.binder? id name = some holder ↔ scopes.Resolves name id holder :=
  findScope_eq_some_iff placed

theorem binder?_eq_none_iff (placed : scopes.WellPlaced) :
    scopes.binder? id name = none ↔ scopes.Unbound name id := by
  rw [Option.eq_none_iff_forall_ne_some]
  exact forall_congr' fun _ => not_congr (binder?_eq_some_iff placed)

/-- Looking a name up is the search for the scope that binds it. -/
theorem lookupFrom_eq
    (scopes : Scopes)
    (name : String)
    (budget : Nat)
    (id : Nat) :
    scopes.lookupFrom name budget id =
      (scopes.findFrom (·.bindings.has name) budget id).bind (scopes.own? · name) := by
  induction budget generalizing id with
  | zero => rfl
  | succ budget inductionHypothesis =>
      rw [lookupFrom, findFrom]
      cases isScope : scopes[id]? with
      | none => rfl
      | some scope =>
          dsimp only
          cases bound : Bindings.get? name scope.bindings with
          | some value => simp [Bindings.has, own?, isScope, bound]
          | none =>
              rw [Bindings.has, bound]
              cases scope.parent with
              | none => rfl
              | some parent => exact inductionHypothesis parent

theorem lookup?_of_resolves
    (placed : scopes.WellPlaced) (resolves : scopes.Resolves name id holder) :
    scopes.lookup? id name = scopes.own? holder name := by
  have found := (binder?_eq_some_iff placed).mpr resolves
  rw [lookup?, lookupFrom_eq]
  exact congrArg (Option.bind · _) found

theorem lookup?_of_unbound (placed : scopes.WellPlaced) (unbound : scopes.Unbound name id) :
    scopes.lookup? id name = none := by
  have missing := (binder?_eq_none_iff placed).mpr unbound
  rw [lookup?, lookupFrom_eq]
  exact congrArg (Option.bind · _) missing

/-- A search that every root passes ends, as parents come before their scopes. -/
theorem exists_nearest
    (placed : scopes.WellPlaced)
    (rootsPass : ∀ (id : Nat) (scope : Scope), scopes[id]? = some scope →
      scope.parent = none → test scope = true)
    (there : id < scopes.size) :
    ∃ holder, scopes.Nearest test id holder := by
  induction id using Nat.strongRecOn with
  | ind id inductionHypothesis =>
      have isScope := Array.getElem?_eq_getElem there
      by_cases passes : scopes.Passes test id
      · exact ⟨id, .here passes⟩
      · cases isParent : scopes[id].parent with
        | none => exact absurd ⟨_, isScope, rootsPass id _ isScope isParent⟩ passes
        | some parent =>
            have next : scopes.parent? id = some parent := by
              rw [parent?, isScope]
              exact isParent
            have below := placed.parent?_lt next
            obtain ⟨holder, nearest⟩ := inductionHypothesis parent below (Nat.lt_trans below there)
            exact ⟨holder, .above passes next nearest⟩

theorem exists_rootOf (placed : scopes.WellPlaced) (there : id < scopes.size) :
    ∃ root, scopes.RootOf id root :=
  exists_nearest placed (fun _ _ _ => Option.isNone_iff_eq_none.mpr) there

theorem exists_receives (placed : scopes.WellPlaced) (there : id < scopes.size) :
    ∃ holder, scopes.Receives id holder :=
  exists_nearest placed (fun id scope isScope => (placed id scope isScope).root_isFunction) there

theorem root_eq (placed : scopes.WellPlaced) (isRoot : scopes.RootOf id holder) :
    scopes.root id = holder := by
  rw [root, (findScope_eq_some_iff placed).mpr isRoot]
  rfl

/-- The search for a function scope would also stop at a root; a root is one. -/
theorem declarer_eq (placed : scopes.WellPlaced) (receives : scopes.Receives id holder) :
    scopes.declarer id = holder := by
  have same : scopes.Nearest (fun scope => scope.isFunction || scope.parent.isNone) id holder := by
    refine (Nearest.congr (fun _ => rfl) fun other => ?_).mpr receives
    refine ⟨fun ⟨scope, isScope, passes⟩ => ⟨scope, isScope, ?_⟩,
      fun ⟨scope, isScope, passes⟩ => ⟨scope, isScope, Bool.or_eq_true_iff.mpr (.inl passes)⟩⟩
    rcases Bool.or_eq_true_iff.mp passes with isFunction | isNone
    · exact isFunction
    · exact (placed other scope isScope).root_isFunction (Option.isNone_iff_eq_none.mp isNone)
  rw [declarer, (findScope_eq_some_iff placed).mpr same]
  rfl

/-! ## One binding changes -/

/-- One name of one scope gets a value or loses it; nothing else about the scopes changes. -/
structure Rebinds
    (before after : Scopes)
    (holder : Nat)
    (name : String)
    (value : Option Value) : Prop where
  size : after.size = before.size
  parent : ∀ id, after.parent? id = before.parent? id
  isFunction : ∀ id, after.Passes (·.isFunction) id ↔ before.Passes (·.isFunction) id
  changed : after.own? holder name = value
  kept : ∀ id other, ¬ (id = holder ∧ other = name) → after.own? id other = before.own? id other

theorem rebinds_modify
    {change : Bindings → Bindings}
    {outcome : Option Value}
    (there : id < scopes.size)
    (changed : ∀ scope, scopes[id]? = some scope →
      (change scope.bindings).get? name = outcome)
    (kept : ∀ (bindings : Bindings) (other : String), other ≠ name →
      (change bindings).get? other = bindings.get? other) :
    Rebinds scopes
      (scopes.modify id fun scope => { scope with bindings := change scope.bindings })
      id name outcome where
  size := Array.size_modify
  parent other := by
    rw [parent?, parent?, Array.getElem?_modify]
    split
    · rw [Option.bind_map]
      rfl
    · rfl
  isFunction other := by
    unfold Passes
    rw [Array.getElem?_modify]
    split
    · cases scopes[other]? <;> simp
    · rfl
  changed := by
    have isScope := Array.getElem?_eq_getElem there
    rw [own?, Array.getElem?_modify, if_pos rfl, isScope]
    exact changed _ isScope
  kept other otherName isOther := by
    rw [own?, own?, Array.getElem?_modify]
    split <;> rename_i isSame
    · cases isSame
      rw [Option.bind_map]
      exact congrArg (Option.bind _)
        (funext fun scope => kept _ _ fun isName => isOther ⟨rfl, isName⟩)
    · rfl

theorem rebinds_bind (there : id < scopes.size) (name : String) (value : Value) :
    Rebinds scopes (scopes.bind id name value) id name (some value) :=
  rebinds_modify there
    (fun _ _ => Bindings.get?_set_self)
    (fun _ _ isOther => Bindings.get?_set_other isOther)

theorem Passes.lt_size (passes : scopes.Passes test id) :
    id < scopes.size := by
  obtain ⟨scope, isScope, _⟩ := passes
  exact (Array.getElem?_eq_some_iff.mp isScope).1

theorem Nearest.holder_lt_size (nearest : scopes.Nearest test id holder) :
    holder < scopes.size :=
  nearest.passes.lt_size

theorem rebinds_declare
    (placed : scopes.WellPlaced) (receives : scopes.Receives id holder) (name : String)
    (value : Value) :
    Rebinds scopes (scopes.declare id name value) holder name (some value) := by
  rw [declare, declarer_eq placed receives]
  exact rebinds_bind receives.holder_lt_size name value

theorem rebinds_assign_of_resolves
    (placed : scopes.WellPlaced) (resolves : scopes.Resolves name id holder) (value : Value) :
    Rebinds scopes (scopes.assign id name value) holder name (some value) := by
  rw [assign, (binder?_eq_some_iff placed).mpr resolves]
  exact rebinds_bind resolves.holder_lt_size name value

theorem rebinds_assign_of_unbound
    (placed : scopes.WellPlaced) (unbound : scopes.Unbound name id)
    (isRoot : scopes.RootOf id holder) (value : Value) :
    Rebinds scopes (scopes.assign id name value) holder name (some value) := by
  rw [assign, (binder?_eq_none_iff placed).mpr unbound, root_eq placed isRoot]
  exact rebinds_bind isRoot.holder_lt_size name value

theorem rebinds_erase_of_resolves
    (placed : scopes.WellPlaced) (resolves : scopes.Resolves name id holder) :
    Rebinds scopes (scopes.erase id name) holder name none := by
  rw [erase, (binder?_eq_some_iff placed).mpr resolves]
  exact rebinds_modify resolves.holder_lt_size
    (fun scope isScope => Bindings.get?_erase_self (placed holder scope isScope).distinct)
    (fun _ _ isOther => Bindings.get?_erase_other isOther)

theorem erase_of_unbound (placed : scopes.WellPlaced) (unbound : scopes.Unbound name id) :
    scopes.erase id name = scopes := by
  rw [erase, (binder?_eq_none_iff placed).mpr unbound]

/-! ## From where a change is seen -/

namespace Rebinds

variable {seer found : Nat} {other : String} {outcome : Option Value}

theorem passes_iff_of_kept
    (rebinds : Rebinds before after holder name outcome)
    (isOther : ¬ (id = holder ∧ other = name)) :
    after.Passes (·.bindings.has other) id ↔ before.Passes (·.bindings.has other) id := by
  rw [passes_has_iff, passes_has_iff, rebinds.kept id other isOther]

section

variable (rebinds : Rebinds before after holder name (some value))

include rebinds

theorem resolves_holder :
    after.Resolves name holder holder :=
  .here (passes_has_iff.mpr ⟨value, rebinds.changed⟩)

/-- A name that meant another binding still means it, unless it now means the changed one.
The induction goes along the way to the old meaning: the changed scope is not on that way,
as the name would now stop there. -/
theorem resolves_of_apart
    (apart : ¬ after.Resolves name seer holder)
    (resolves : before.Resolves name seer found) :
    after.Resolves name seer found := by
  induction resolves with
  | @here seer passes =>
      have isOther : seer ≠ holder := fun isHolder => apart (isHolder ▸ rebinds.resolves_holder)
      exact .here ((rebinds.passes_iff_of_kept fun same => isOther same.1).mpr passes)
  | @above seer _ _ fails next _ inductionHypothesis =>
      have isOther : seer ≠ holder := fun isHolder => apart (isHolder ▸ rebinds.resolves_holder)
      have stillFails := mt (rebinds.passes_iff_of_kept fun same => isOther same.1).mp fails
      have stillNext := (rebinds.parent seer).trans next
      exact .above stillFails stillNext
        (inductionHypothesis fun resolves => apart (.above stillFails stillNext resolves))

/-- A name that now means another binding than the changed one meant it before. -/
theorem resolves_before
    (isOther : found ≠ holder)
    (resolves : after.Resolves name seer found) :
    before.Resolves name seer found := by
  induction resolves with
  | here passes => exact .here ((rebinds.passes_iff_of_kept fun same => isOther same.1).mp passes)
  | @above seer _ _ fails next _ inductionHypothesis =>
      have notHolder : seer ≠ holder :=
        fun isHolder => fails (isHolder ▸ rebinds.resolves_holder.passes)
      exact .above (mt (rebinds.passes_iff_of_kept fun same => notHolder same.1).mpr fails)
        ((rebinds.parent seer).symm.trans next) (inductionHypothesis isOther)

theorem resolves_iff
    (unseen : ¬ (other = name ∧ after.Resolves name seer holder)) :
    after.Resolves other seer found ↔ before.Resolves other seer found := by
  by_cases isName : other = name
  · cases isName
    have apart : ¬ after.Resolves name seer holder := fun resolves => unseen ⟨rfl, resolves⟩
    exact ⟨fun resolves => rebinds.resolves_before (fun same => apart (same ▸ resolves)) resolves,
      rebinds.resolves_of_apart apart⟩
  · exact Nearest.congr rebinds.parent fun id =>
      rebinds.passes_iff_of_kept fun same => isName same.2

/-- A name bound at the root where no scope bound it is then found there. -/
theorem resolves_of_rootOf
    (unbound : before.Unbound name seer)
    (isRoot : before.RootOf seer holder) :
    after.Resolves name seer holder := by
  induction isRoot with
  | here => exact rebinds.resolves_holder
  | @above seer parent holder _ next _ inductionHypothesis =>
      by_cases isHolder : seer = holder
      · exact isHolder ▸ rebinds.resolves_holder
      · have failed : ¬ before.Passes (·.bindings.has name) seer :=
          fun passes => unbound seer (.here passes)
        exact .above (mt (rebinds.passes_iff_of_kept fun same => isHolder same.1).mp failed)
          ((rebinds.parent seer).trans next)
          (inductionHypothesis rebinds fun found resolves => unbound found (.above failed next resolves))

/-- A change to a binding that is there moves no name. -/
theorem resolves_iff_of_bound
    (bound : before.Resolves name id holder) :
    after.Resolves other seer found ↔ before.Resolves other seer found := by
  refine Nearest.congr rebinds.parent fun id => ?_
  by_cases same : id = holder ∧ other = name
  · obtain ⟨rfl, rfl⟩ := same
    exact ⟨fun _ => bound.passes, fun _ => rebinds.resolves_holder.passes⟩
  · exact rebinds.passes_iff_of_kept same

end

end Rebinds

theorem lookup?_congr
    {seer : Nat}
    {other : String}
    (placed : before.WellPlaced)
    (afterPlaced : after.WellPlaced)
    (meanings : ∀ found, after.Resolves other seer found ↔ before.Resolves other seer found)
    (values : ∀ found, before.Resolves other seer found →
      after.own? found other = before.own? found other) :
    after.lookup? seer other = before.lookup? seer other := by
  by_cases bound : ∃ found, before.Resolves other seer found
  · obtain ⟨found, resolves⟩ := bound
    rw [lookup?_of_resolves placed resolves,
      lookup?_of_resolves afterPlaced ((meanings found).mpr resolves), values found resolves]
  · have unbound := not_exists.mp bound
    rw [lookup?_of_unbound placed unbound,
      lookup?_of_unbound afterPlaced fun found => mt (meanings found).mp (unbound found)]

/-- A changed binding is seen from the scopes whose name means it and makes no difference
elsewhere. -/
structure SeenFrom
    (before after : Scopes)
    (holder : Nat)
    (name : String)
    (value : Value) : Prop where
  resolved : ∀ seer, after.Resolves name seer holder → after.lookup? seer name = some value
  others : ∀ seer other, ¬ (other = name ∧ after.Resolves name seer holder) →
    after.lookup? seer other = before.lookup? seer other ∧
      ∀ found, after.Resolves other seer found ↔ before.Resolves other seer found

theorem Rebinds.seenFrom
    (rebinds : Rebinds before after holder name (some value)) (placed : before.WellPlaced)
    (afterPlaced : after.WellPlaced) :
    SeenFrom before after holder name value where
  resolved seer resolves := by
    rw [lookup?_of_resolves afterPlaced resolves, rebinds.changed]
  others seer other unseen := by
    have meanings (found : Nat) :
        after.Resolves other seer found ↔ before.Resolves other seer found :=
      rebinds.resolves_iff unseen
    refine ⟨lookup?_congr placed afterPlaced meanings fun found resolves => ?_, meanings⟩
    refine rebinds.kept found other fun same => unseen ⟨same.2, ?_⟩
    obtain ⟨rfl, rfl⟩ := same
    exact (meanings found).mpr resolves

/-! ## Reading and changing -/

/-- What reading a name gives in a scope. -/
structure ReadsNearest (scopes : Scopes) (id : Nat) (name : String) : Prop where
  bound : ∀ holder, scopes.Resolves name id holder → ∃ value,
    scopes.own? holder name = some value ∧
    scopes.lookup? id name = some value ∧
    scopes.has id name = true ∧
    ∀ machine : Machine, machine.scopes = scopes →
      Run.readReference id (.variable name) machine = .ok value machine
  unbound : scopes.Unbound name id →
    scopes.lookup? id name = none ∧
    scopes.has id name = false ∧
    ∀ machine : Machine, machine.scopes = scopes →
      Run.readReference id (.variable name) machine =
        .error (.raised ⟨.unbound name, none⟩) machine

/-- What assigning to a name does in a scope. -/
structure AssignsNearest (scopes : Scopes) (id : Nat) (name : String) (value : Value) : Prop where
  bound : ∀ holder, scopes.Resolves name id holder →
    Rebinds scopes (scopes.assign id name value) holder name (some value) ∧
    ∀ other seer found, (scopes.assign id name value).Resolves other seer found ↔
      scopes.Resolves other seer found
  unbound : scopes.Unbound name id → ∃ root, scopes.RootOf id root ∧
    Rebinds scopes (scopes.assign id name value) root name (some value)
  seen : ∃ holder, (scopes.assign id name value).Resolves name id holder ∧
    SeenFrom scopes (scopes.assign id name value) holder name value

/-- What erasing a name does in a scope. -/
structure ErasesNearest (scopes : Scopes) (id : Nat) (name : String) : Prop where
  bound : ∀ holder, scopes.Resolves name id holder →
    Rebinds scopes (scopes.erase id name) holder name none
  unbound : scopes.Unbound name id → scopes.erase id name = scopes

theorem readReference_variable (machine : Machine) (id : Nat) (name : String) :
    Run.readReference id (.variable name) machine =
      match machine.scopes.lookup? id name with
      | some value => .ok value machine
      | none => .error (.raised ⟨.unbound name, none⟩) machine := by
  change (match machine.scopes.lookup? id name with
      | some value => (pure value : Run Value)
      | none => Run.fail (.unbound name)) machine = _
  cases machine.scopes.lookup? id name <;> rfl

theorem WellPlaced.readsNearest (placed : scopes.WellPlaced) (id : Nat) (name : String) :
    ReadsNearest scopes id name where
  bound holder resolves := by
    obtain ⟨value, bound⟩ := passes_has_iff.mp resolves.passes
    have found := (lookup?_of_resolves placed resolves).trans bound
    refine ⟨value, bound, found, by rw [has, found]; rfl, ?_⟩
    rintro machine rfl
    rw [readReference_variable, found]
  unbound unbound := by
    have missing := lookup?_of_unbound placed unbound
    refine ⟨missing, by rw [has, missing]; rfl, ?_⟩
    rintro machine rfl
    rw [readReference_variable, missing]

/-- The scope an assignment changes is one the name then means: the old holder, or the root
that the search ends in. -/
theorem WellPlaced.assignsNearest
    (placed : scopes.WellPlaced)
    (there : id < scopes.size)
    (name : String)
    (value : Value) :
    AssignsNearest scopes id name value where
  bound holder resolves :=
    have rebinds := rebinds_assign_of_resolves placed resolves value
    ⟨rebinds, fun _ _ _ => rebinds.resolves_iff_of_bound resolves⟩
  unbound unbound := by
    obtain ⟨root, isRoot⟩ := exists_rootOf placed there
    exact ⟨root, isRoot, rebinds_assign_of_unbound placed unbound isRoot value⟩
  seen := by
    have afterPlaced : (scopes.assign id name value).WellPlaced := placed.bind _
    by_cases bound : ∃ holder, scopes.Resolves name id holder
    · obtain ⟨holder, resolves⟩ := bound
      have rebinds := rebinds_assign_of_resolves placed resolves value
      exact ⟨holder, (rebinds.resolves_iff_of_bound resolves).mpr resolves,
        rebinds.seenFrom placed afterPlaced⟩
    · have unbound := not_exists.mp bound
      obtain ⟨root, isRoot⟩ := exists_rootOf placed there
      have rebinds := rebinds_assign_of_unbound placed unbound isRoot value
      exact ⟨root, rebinds.resolves_of_rootOf unbound isRoot, rebinds.seenFrom placed afterPlaced⟩

theorem WellPlaced.erasesNearest (placed : scopes.WellPlaced) (id : Nat) (name : String) :
    ErasesNearest scopes id name where
  bound _ resolves := rebinds_erase_of_resolves placed resolves
  unbound unbound := erase_of_unbound placed unbound

/-- In scopes grown in any way, reading a name finds its nearest binding or reports that
there is none; binding, declaring, assigning and erasing change the one binding that the
scope, its nearest function scope or the nearest binding tells, and an assignment is seen
from exactly the scopes whose name means the binding it changed. -/
theorem names_mean_their_nearest_binding
    (grown : Grown scopes)
    (there : id < scopes.size)
    (name : String)
    (value : Value) :
    ReadsNearest scopes id name ∧
    Rebinds scopes (scopes.bind id name value) id name (some value) ∧
    (∃ holder, scopes.Receives id holder ∧
      Rebinds scopes (scopes.declare id name value) holder name (some value)) ∧
    AssignsNearest scopes id name value ∧
    ErasesNearest scopes id name := by
  have placed := grown.wellPlaced
  obtain ⟨holder, receives⟩ := exists_receives placed there
  exact ⟨placed.readsNearest id name,
    rebinds_bind there name value,
    ⟨holder, receives, rebinds_declare placed receives name value⟩,
    placed.assignsNearest there name value,
    placed.erasesNearest id name⟩

/-- A root that binds a name, a function in it that binds the name too and a block in that. -/
def nested : Scopes :=
  let root := (make #[] none false).2.bind 0 "x" (.string "outer")
  let inner := (root.make (some 0) true).2.declare 1 "x" (.string "inner")
  (inner.make (some 1) false).2

theorem grown_nested : Grown nested :=
  .make (.declare (.make (.bind (.make .none nofun) (by decide)) (by rintro _ ⟨⟩; decide))
    (by decide)) (by rintro _ ⟨⟩; decide)

theorem names_mean_their_nearest_binding_of_nested :
    Grown nested ∧ 2 < nested.size ∧
    ReadsNearest nested 2 "x" ∧
    Rebinds nested (nested.bind 2 "x" .undefined) 2 "x" (some .undefined) ∧
    (∃ holder, nested.Receives 2 holder ∧
      Rebinds nested (nested.declare 2 "x" .undefined) holder "x" (some .undefined)) ∧
    AssignsNearest nested 2 "x" .undefined ∧
    ErasesNearest nested 2 "x" :=
  ⟨grown_nested, by decide,
    names_mean_their_nearest_binding grown_nested (by decide) "x" .undefined⟩

example : (nested.erase 2 "x").lookup? 2 "x" = some (.string "outer") := rfl

end Scopes

end ScriptEngine
