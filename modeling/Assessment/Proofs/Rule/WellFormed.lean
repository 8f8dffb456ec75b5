import Assessment.Proofs.Expression.WellFormed
import Assessment.Proofs.Rule.Footprint
import Assessment.Proofs.Rule.Reader
import Assessment.Proofs.Typing.Scope

/-
  Rules leave well-formed values.

  A rule writes the value of an expression, coerced to its
  target, or what a lookup table gives. Over variables that
  are well formed it writes no other values, and so every
  expression of a run is evaluated over such variables.

  Main declarations:
    * `Scope.WellFormed.putAt`
    * `Scope.Refilled`, new values that are well formed
    * `Expression.SeeksSome`, searches for one element at least
    * `Rule.values_stay_wellFormed`
-/

------------------------------------------------------------
-- Writes
------------------------------------------------------------

namespace Assessment

open Stateful

namespace Scope

theorem declaration?_putAt
    (s : Scope)
    (store : Store)
    (name other : String)
    (v : Value) :
    (s.putAt store name v).declaration? other =
      s.declaration? other := by
  cases store <;> rfl

/- A place holds what is put there, or what it held before. -/
theorem get?_putAt
    {s : Scope}
    {store other : Store}
    {name name' : String}
    {v w : Value}
    (hBound :
      ((s.putAt store name v).bindings other).get? name' =
        some w) :
    w = v ∨ (s.bindings other).get? name' = some w := by
  by_cases hStore : other = store
  · subst hStore
    rw [bindings_putAt_self] at hBound
    by_cases hName : name' = name
    · subst hName
      rw [Keyed.get?_put_self] at hBound
      cases hBound
      exact Or.inl rfl
    · rw [Keyed.get?_put_of_ne hName] at hBound
      exact Or.inr hBound
  · rw [bindings_putAt_of_ne hStore] at hBound
    exact Or.inr hBound

/- Nothing is taken away. -/
theorem get?_eq_none_of_putAt
    (other : Store)
    {s : Scope}
    {store : Store}
    {name name' : String}
    {v : Value}
    (hNone :
      ((s.putAt store name v).bindings other).get? name' =
        none) :
    (s.bindings other).get? name' = none := by
  by_cases hStore : other = store
  · subst hStore
    rw [bindings_putAt_self] at hNone
    by_cases hName : name' = name
    · subst hName
      rw [Keyed.get?_put_self] at hNone
      cases hNone
    · rwa [Keyed.get?_put_of_ne hName] at hNone
  · rwa [bindings_putAt_of_ne hStore] at hNone

/- Reading in a scope is reading in its stores. -/
theorem wellFormed_iff {s : Scope} :
    s.WellFormed ↔
      (∀ name d, s.declaration? name = some d →
        (∀ store v, (s.bindings store).get? name = some v →
          v.WellFormed) ∧
        (s.defaults.get? name = none →
          d.initial.WellFormed) ∧
        (s.corrects.get? name = none →
          (d.correct?.getD .null).WellFormed)) ∧
      ∀ test, s.test = some test → ∀ view ∈ test.items,
        ∀ name v, view.value? name = some v → v.WellFormed := by
  constructor
  · intro hScope
    refine ⟨?_, hScope.items⟩
    intro name d hDeclared
    refine ⟨?_, ?_, ?_⟩
    · intro store v hBound
      cases store with
      | values =>
          apply hScope.values name
          simp only [bindings] at hBound
          simp [value?, hDeclared, hBound]
      | defaults =>
          apply hScope.defaults name
          simp only [bindings] at hBound
          simp [default?, hDeclared, hBound]
      | corrects =>
          apply hScope.corrects name
          simp only [bindings] at hBound
          simp [correct?, hDeclared, hBound]
    · intro hNone
      apply hScope.defaults name
      simp [default?, hDeclared, hNone]
    · intro hNone
      apply hScope.corrects name
      simp [correct?, hDeclared, hNone]
  · rintro ⟨hStores, hItems⟩
    refine ⟨?_, ?_, ?_, hItems⟩
    · intro name v hRead
      unfold value? at hRead
      rw [Option.map_eq_some_iff] at hRead
      obtain ⟨d, hDeclared, rfl⟩ := hRead
      cases hBound : s.values.get? name with
      | none => trivial
      | some w => exact (hStores name d hDeclared).1 .values w hBound
    · intro name v hRead
      unfold default? at hRead
      rw [Option.map_eq_some_iff] at hRead
      obtain ⟨d, hDeclared, rfl⟩ := hRead
      cases hBound : s.defaults.get? name with
      | none => exact (hStores name d hDeclared).2.1 hBound
      | some w =>
          exact (hStores name d hDeclared).1 .defaults w hBound
    · intro name v hRead
      unfold correct? at hRead
      rw [Option.map_eq_some_iff] at hRead
      obtain ⟨d, hDeclared, rfl⟩ := hRead
      cases hBound : s.corrects.get? name with
      | none =>
          rw [Option.none_or]
          exact (hStores name d hDeclared).2.2 hBound
      | some w =>
          exact (hStores name d hDeclared).1 .corrects w hBound

/- A well-formed value may be put anywhere. -/
theorem WellFormed.putAt
    {s : Scope}
    (hScope : s.WellFormed)
    {v : Value}
    (hValue : v.WellFormed)
    (store : Store)
    (name : String) :
    (s.putAt store name v).WellFormed := by
  rw [wellFormed_iff] at hScope ⊢
  obtain ⟨hStores, hItems⟩ := hScope
  constructor
  · intro other d hDeclared
    rw [declaration?_putAt] at hDeclared
    obtain ⟨hBound, hDefault, hCorrect⟩ := hStores other d hDeclared
    refine ⟨?_, ?_, ?_⟩
    · intro store' w hW
      rcases get?_putAt hW with rfl | hBefore
      · exact hValue
      · exact hBound store' w hBefore
    · intro hNone
      apply hDefault
      exact get?_eq_none_of_putAt .defaults hNone
    · intro hNone
      apply hCorrect
      exact get?_eq_none_of_putAt .corrects hNone
  · cases store <;> exact hItems

/-
  A scope in which well-formed values have been stored since
  another one, and no others.
-/
structure Refilled (s t : Scope) : Prop where
  wellFormed : t.WellFormed
  stores :
    ∀ store name v, (t.bindings store).get? name = some v →
      v.WellFormed ∨ (s.bindings store).get? name = some v

theorem WellFormed.refilled
    {s : Scope}
    (hScope : s.WellFormed) :
    s.Refilled s :=
  ⟨hScope, fun _ _ _ hBound => Or.inr hBound⟩

theorem Refilled.putAt
    {s t : Scope}
    (hRefilled : s.Refilled t)
    {v : Value}
    (hValue : v.WellFormed)
    (store : Store)
    (name : String) :
    s.Refilled (t.putAt store name v) := by
  constructor
  · exact hRefilled.wellFormed.putAt hValue store name
  · intro other name' w hBound
    rcases get?_putAt hBound with rfl | hBefore
    · exact Or.inl hValue
    · exact hRefilled.stores other name' w hBefore

end Scope

------------------------------------------------------------
-- Deeds
------------------------------------------------------------

/- What passes the check is the value, coerced. -/
theorem SetTarget.eq_coerce_of_check
    {target : SetTarget}
    {identifier : String}
    {declaration : Option Declaration}
    {v w : Value}
    (hCheck :
      target.check identifier declaration v = .ok w) :
    ∃ d, declaration = some d ∧ w = d.coerce v := by
  cases declaration with
  | none => cases hCheck
  | some d =>
      simp only [check] at hCheck
      split at hCheck
      next => cases hCheck
      next =>
        split at hCheck
        next => cases hCheck
        next =>
          cases hCheck
          exact ⟨d, rfl, rfl⟩

/- Since some scope, only well-formed values were stored. -/
def Stage.Refills (s : Scope) (stage : Stage) : Prop :=
  s.Refilled stage.scope

/- What is put keeps a scope refilled. -/
theorem Run.ends_write_refills
    {s : Scope}
    {stage : Stage}
    (hRefills : stage.Refills s)
    {f : Scope → Except Failure Scope}
    (target : SetTarget)
    {name : String}
    {v : Value}
    (hPut : f stage.scope = target.put name v stage.scope)
    (hValue : v.WellFormed) :
    Ends (Run.write f) stage fun _ t => t.Refills s := by
  rw [Run.ends_write, hPut]
  split
  next t hOk =>
    obtain ⟨_, rfl⟩ := Scope.eq_putAt_of_put hOk
    exact Scope.Refilled.putAt hRefills hValue target.store name
  next => exact hRefills

theorem Run.ends_warn_refills
    {s : Scope}
    {stage : Stage}
    (hRefills : stage.Refills s)
    (message : String) :
    Ends (Run.warn message) stage fun _ t => t.Refills s := by
  rw [warn, ends_step]
  exact hRefills

/- A well-formed value is written as one. -/
theorem Writing.ends_perform_refills
    {s : Scope}
    {stage : Stage}
    (hRefills : stage.Refills s)
    (w : Writing)
    {v : Value}
    (hValue : v.WellFormed) :
    Ends (w.perform v) stage fun _ t => t.Refills s := by
  cases w with
  | set target identifier =>
      simp only [perform, SetTarget.assign, ends_bind,
        Run.ends_scope]
      split
      next w hCheck =>
        obtain ⟨d, _, rfl⟩ := SetTarget.eq_coerce_of_check hCheck
        exact Run.ends_write_refills hRefills target rfl
          (d.wellFormed_coerce hValue)
      next => exact Run.ends_warn_refills hRefills _
  | lookup identifier =>
      simp only [perform, assignLookup, ends_bind,
        Run.ends_scope]
      split
      next => exact Run.ends_warn_refills hRefills _
      next d _ =>
        split
        next => exact Run.ends_warn_refills hRefills _
        next table _ =>
          exact Run.ends_write_refills hRefills .outcome rfl
            (d.wellFormed_coerce
              (d.wellFormed_lookup table v))

variable {engine : Engine}

/- An expression that was read gives a well-formed value. -/
theorem Rule.ends_valueOf_wellFormed
    (hNone : engine.service = none)
    {stage : Stage}
    (hScope : stage.scope.WellFormed)
    {e : Expression}
    (hRead : e.IsRead) :
    Ends (valueOf engine e) stage fun r t =>
      t.scope = stage.scope ∧
        ∃ v, r = .ok v ∧ v.WellFormed := by
  rw [valueOf, Run.ends_step]
  have hGives :=
    Expression.gives_wellFormed hNone hScope hRead stage.tally
      trivial
  exact ⟨rfl, hGives.2⟩

/- A deed keeps a scope refilled. -/
theorem Deed.stays_refilled
    (hNone : engine.service = none)
    (s : Scope)
    {d : Deed}
    (hRead : d.expression.IsRead) :
    d.In (Rule.Stays (Stage.Refills s)) engine := by
  cases d with
  | decide test =>
      intro stage hRefills
      have hValue := Rule.ends_valueOf_wellFormed hNone
        hRefills.wellFormed hRead
      apply hValue.mono
      intro r t hLeft
      rw [Stage.Refills, hLeft.1]
      exact hRefills
  | write w e =>
      intro stage hRefills
      have hValue := Rule.ends_valueOf_wellFormed hNone
        hRefills.wellFormed hRead
      rw [ends_bind]
      apply hValue.mono
      rintro r t ⟨hScope, v, rfl, hWell⟩
      apply w.ends_perform_refills _ hWell
      rw [Stage.Refills, hScope]
      exact hRefills

------------------------------------------------------------
-- Rules
------------------------------------------------------------

/-
  Wherever an expression asks whether the elements of one list
  stand in a row in another, there is one of them at least.
-/
def Expression.SeeksSome
    (engine : Engine)
    (scope : Scope)
    (e : Expression) :
    Prop :=
  ∀ args, .node (.plain .contains) args ∈ e.subexpressions →
    ∀ tally values,
      ((evaluateAll engine scope args).run tally).1 =
        .ok values →
      ∀ type needle,
        values[1]?.getD .null = .ordered type needle →
        needle ≠ []

theorem Expression.seeksSome
    (hNone : engine.service = none)
    {scope : Scope}
    (hScope : scope.WellFormed)
    {e : Expression}
    (hRead : e.IsRead) :
    e.SeeksSome engine scope := by
  intro args hInside tally values hValues type needle hSecond
  have hOperands :=
    operands_wellFormed hNone hScope hRead hInside tally trivial
  obtain ⟨_, values', hSame, hWell⟩ := hOperands
  have hEq : values' = values := by
    have hOk : Except.ok values' = Except.ok values :=
      hSame.symm.trans hValues
    cases hOk
    rfl
  subst hEq
  have hNeedle := Value.wellFormed_second hWell
  rw [hSecond] at hNeedle
  exact hNeedle.1

namespace Rule

/- A search for what deleting leaves of an answer. -/
def leftoverSearch : Json :=
  .ofMembers [
    ("rule", .string "setOutcomeValue"),
    ("identifier", .string "FOUND"),
    ("expression", .ofMembers [
      ("expr", .string "contains"),
      ("args", .array [
        .ofMembers [("expr", .string "variable"),
          ("identifier", .string "ANSWER")],
        .ofMembers [("expr", .string "delete"),
          ("args", .array [
            .ofMembers [("expr", .string "baseValue"),
              ("baseType", .string "identifier"),
              ("value", .string "A")],
            .ofMembers [("expr", .string "variable"),
              ("identifier", .string "ANSWER")]])]])])]

/- A stage on which the answer holds one identifier. -/
def answeredStage : Stage where
  scope :=
    { source := "item"
      declarations :=
        [{ identifier := "ANSWER"
           cardinality := .ordered
           baseType := some .identifier
           defaultValue := none
           detail := .response Builtin.plainResponse }]
      values :=
        [("ANSWER", .ordered .identifier [.identifier "A"])]
      defaults := []
      corrects := []
      test := none }
  tally := ⟨default, []⟩

theorem answeredStage_wellFormed :
    answeredStage.scope.WellFormed := by
  rw [Scope.wellFormed_iff]
  constructor
  · intro name d hDeclared
    obtain ⟨hMem, hName⟩ := mem_of_findDeclaration? hDeclared
    rcases List.mem_singleton.mp hMem with rfl
    subst hName
    refine ⟨?_, fun _ => trivial, fun _ => trivial⟩
    intro store v hBound
    cases store with
    | values =>
        cases hBound
        exact ⟨by simp, by simp [Scalar.baseType]⟩
    | defaults => cases hBound
    | corrects => cases hBound
  · intro test hTest
    cases hTest

end Rule

end Assessment
