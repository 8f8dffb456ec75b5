import Assessment.Proofs.Keyed
import Assessment.Proofs.Rule.Execution

/-
  Where rules leave traces.

  A scope stores values, overridden defaults and overridden
  correct responses. What rules may change in it can be read
  off the rules: a variable that none of them writes to keeps
  what it has, whatever branches are taken and however the run
  ends.

  Main declarations:
    * `Store` and `Scope.bindings`
    * `Scope.ChangesAt`, changes at some places only
    * `Rule.WritesTo`, the places that rules write to
    * `Rule.executeAll_changesAt`
-/

------------------------------------------------------------
-- Stores
------------------------------------------------------------

namespace Assessment

open Stateful

/- The stores of a scope. -/
inductive Store where
  | values
  | defaults
  | corrects
deriving DecidableEq, Repr

/- What is bound in a store. -/
def Scope.bindings (s : Scope) : Store → Bindings
  | .values => s.values
  | .defaults => s.defaults
  | .corrects => s.corrects

/- The store that a target is written to. -/
def SetTarget.store : SetTarget → Store
  | .outcome | .response | .template => .values
  | .defaultValue => .defaults
  | .correctResponse => .corrects

/- The store that is written to. -/
def Writing.store : Writing → Store
  | .set target _ => target.store
  | .lookup _ => .values

/- Rules have a write to a place. -/
def Rule.WritesTo
    (rules : List Rule)
    (store : Store)
    (name : String) :
    Prop :=
  ∃ w ∈ writingsIn rules, w.store = store ∧ w.identifier = name

instance
    (rules : List Rule)
    (store : Store)
    (name : String) :
    Decidable (Rule.WritesTo rules store name) := by
  unfold Rule.WritesTo
  infer_instance

------------------------------------------------------------
-- Changes
------------------------------------------------------------

namespace Scope

variable {P Q : Store → String → Prop}
variable {s t u : Scope}

/-
  Only declared variables have changed, and those only in the
  places that are named.
-/
structure ChangesAt
    (P : Store → String → Prop)
    (s t : Scope) :
    Prop where
  source : t.source = s.source
  declarations : t.declarations = s.declarations
  test : t.test = s.test
  elsewhere :
    ∀ store name,
      ¬ (P store name ∧ (s.declaration? name).isSome = true) →
      (t.bindings store).get? name =
        (s.bindings store).get? name
  rising :
    ∀ store, (s.bindings store).Rising →
      (t.bindings store).Rising

namespace ChangesAt

instance : Std.Refl (ChangesAt P) where
  refl _ := ⟨rfl, rfl, rfl, fun _ _ _ => rfl, fun _ => id⟩

theorem declaration?_eq
    (hChanges : s.ChangesAt P t)
    (name : String) :
    t.declaration? name = s.declaration? name := by
  unfold declaration?
  rw [hChanges.declarations]

instance : IsTrans Scope (ChangesAt P) where
  trans s t u hFirst hThen := by
    constructor
    · exact hThen.source.trans hFirst.source
    · exact hThen.declarations.trans hFirst.declarations
    · exact hThen.test.trans hFirst.test
    · intro store name hNot
      have hNot' := hNot
      rw [← hFirst.declaration?_eq name] at hNot'
      exact (hThen.elsewhere store name hNot').trans
        (hFirst.elsewhere store name hNot)
    · intro store hRising
      exact hThen.rising store (hFirst.rising store hRising)

/- There may be more places. -/
theorem mono
    (hChanges : s.ChangesAt P t)
    (hWider : ∀ store name, P store name → Q store name) :
    s.ChangesAt Q t where
  source := hChanges.source
  declarations := hChanges.declarations
  test := hChanges.test
  elsewhere store name hNot := by
    apply hChanges.elsewhere store name
    intro hPlace
    exact hNot ⟨hWider store name hPlace.1, hPlace.2⟩
  rising := hChanges.rising

/- A store without a place is the same as before. -/
theorem bindings_eq
    (hChanges : s.ChangesAt P t)
    {store : Store}
    (hNone : ∀ name, ¬ P store name)
    (hRising : (s.bindings store).Rising) :
    t.bindings store = s.bindings store := by
  apply (hChanges.rising store hRising).ext hRising
  intro name
  apply hChanges.elsewhere store name
  exact fun hPlace => hNone name hPlace.1

end ChangesAt

/- A scope with a value put into a store. -/
def putAt
    (s : Scope)
    (store : Store)
    (name : String)
    (v : Value) :
    Scope :=
  match store with
  | .values => { s with values := s.values.put name v }
  | .defaults => { s with defaults := s.defaults.put name v }
  | .corrects => { s with corrects := s.corrects.put name v }

theorem bindings_putAt_self
    (s : Scope)
    (store : Store)
    (name : String)
    (v : Value) :
    (s.putAt store name v).bindings store =
      (s.bindings store).put name v := by
  cases store <;> rfl

theorem bindings_putAt_of_ne
    {store other : Store}
    (hOther : other ≠ store)
    (s : Scope)
    (name : String)
    (v : Value) :
    (s.putAt store name v).bindings other =
      s.bindings other := by
  cases store <;> cases other <;> first | rfl | contradiction

/- A value is put into one place. -/
theorem changesAt_putAt
    {store : Store}
    {name : String}
    (hDeclared : (s.declaration? name).isSome = true)
    (hPlace : P store name)
    (v : Value) :
    s.ChangesAt P (s.putAt store name v) := by
  constructor
  · cases store <;> rfl
  · cases store <;> rfl
  · cases store <;> rfl
  · intro other name' hNot
    by_cases hStore : other = store
    · subst hStore
      rw [bindings_putAt_self]
      apply Keyed.get?_put_of_ne
      rintro rfl
      exact hNot ⟨hPlace, hDeclared⟩
    · rw [bindings_putAt_of_ne hStore]
  · intro other hRising
    by_cases hStore : other = store
    · subst hStore
      rw [bindings_putAt_self]
      exact hRising.put name v
    · rw [bindings_putAt_of_ne hStore]
      exact hRising

/- What is put is put under a declared name. -/
theorem eq_putAt_of_put
    {target : SetTarget}
    {name : String}
    {v : Value}
    (hPut : target.put name v s = .ok t) :
    (s.declaration? name).isSome = true ∧
      t = s.putAt target.store name v := by
  have hDone :
      s.ifDeclared name (s.putAt target.store name v) =
        .ok t := by
    cases target with
    | outcome => exact hPut
    | response => exact hPut
    | template => exact hPut
    | defaultValue =>
        simp only [SetTarget.put, setDefault] at hPut
        split at hPut
        · cases hPut
        · exact hPut
    | correctResponse =>
        simp only [SetTarget.put, setCorrect] at hPut
        split at hPut
        · cases hPut
        · exact hPut
  unfold ifDeclared at hDone
  split at hDone
  next d hDeclared =>
    cases hDone
    exact ⟨by rw [hDeclared]; rfl, rfl⟩
  next => cases hDone

theorem changesAt_of_put
    {target : SetTarget}
    {name : String}
    {v : Value}
    (hPut : target.put name v s = .ok t)
    (hPlace : P target.store name) :
    s.ChangesAt P t := by
  obtain ⟨hDeclared, rfl⟩ := eq_putAt_of_put hPut
  exact changesAt_putAt hDeclared hPlace v

end Scope

------------------------------------------------------------
-- Rules
------------------------------------------------------------

variable {P : Store → String → Prop}

/- A write to a target leaves its trace there. -/
theorem Run.write_changesAt
    (target : SetTarget)
    {name : String}
    (hPlace : P target.store name)
    {f : Scope → Except Failure Scope}
    (hPut : ∀ s, ∃ v, f s = target.put name v s) :
    Moves (Stage.Follows (Scope.ChangesAt P))
      (Run.write f) := by
  intro s
  apply Run.ends_write_follows
  intro scope hOk
  obtain ⟨v, hSame⟩ := hPut s.scope
  rw [hSame] at hOk
  exact Scope.changesAt_of_put hOk hPlace

/- An assignment leaves its trace in the store of its target. -/
theorem SetTarget.assign_changesAt
    {target : SetTarget}
    {identifier : String}
    (hPlace : P target.store identifier)
    (v : Value) :
    Moves (Stage.Follows (Scope.ChangesAt P))
      (target.assign identifier v) := by
  intro s
  simp only [assign, ends_bind, Run.ends_scope]
  split
  next w _ =>
    exact Run.write_changesAt target hPlace
      (fun _ => ⟨w, rfl⟩) s
  next => exact Run.step_follows _ s

/- A lookup writes as an assignment to an outcome does. -/
theorem assignLookup_changesAt
    {identifier : String}
    (hPlace : P .values identifier)
    (source : Value) :
    Moves (Stage.Follows (Scope.ChangesAt P))
      (assignLookup identifier source) := by
  intro s
  simp only [assignLookup, ends_bind, Run.ends_scope]
  split
  next => exact Run.step_follows _ s
  next d _ =>
    split
    next => exact Run.step_follows _ s
    next table _ =>
      exact Run.write_changesAt .outcome hPlace
        (fun _ => ⟨_, rfl⟩) s

/- Rules leave traces only where they have a write. -/
theorem Rule.executeAll_changesAt
    (engine : Engine)
    {rules : List Rule}
    (hPlaces :
      ∀ store name, WritesTo rules store name → P store name) :
    Moves (Stage.Follows (Scope.ChangesAt P))
      (executeAll engine rules) := by
  apply executeAll_closed Moves.closed
  constructor
  · exact fun e => Run.step_follows _
  · intro target identifier hMem v
    apply SetTarget.assign_changesAt
    exact hPlaces _ _ ⟨_, hMem, rfl, rfl⟩
  · intro identifier hMem v
    apply assignLookup_changesAt
    exact hPlaces _ _ ⟨_, hMem, rfl, rfl⟩

end Assessment
