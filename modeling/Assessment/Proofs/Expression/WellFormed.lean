import Assessment.Proofs.Expression.Evaluation
import Assessment.Proofs.Typing.WellFormed

/-
  Evaluation gives well-formed values.

  Without a service every evaluation goes through. Over
  variables that are well formed, an expression that has been
  read gives a well-formed value, and so do all expressions
  inside it. So the operands of an operator are well formed,
  and no search for a run of elements is for none at all.

  Main declarations:
    * `Scope.WellFormed`, what reading variables comes to
    * `Step.Gives`, an evaluation that goes through
    * `Expression.gives_wellFormed`
    * `Expression.operands_wellFormed`
-/

------------------------------------------------------------
-- Scopes
------------------------------------------------------------

namespace Assessment

open Stateful

/-
  The values, defaults and correct responses that are read in
  a scope are well formed, and so are the values that a test
  reads in its items.
-/
structure Scope.WellFormed (s : Scope) : Prop where
  values : ∀ name v, s.value? name = some v → v.WellFormed
  defaults : ∀ name v, s.default? name = some v → v.WellFormed
  corrects : ∀ name v, s.correct? name = some v → v.WellFormed
  items :
    ∀ test, s.test = some test → ∀ view ∈ test.items,
      ∀ name v, view.value? name = some v → v.WellFormed

/- It is enough to look at the variables that are declared. -/
theorem Scope.wellFormed_iff_declared {s : Scope} :
    s.WellFormed ↔
      (∀ d ∈ s.declarations,
        (∀ v ∈ s.value? d.identifier, v.WellFormed) ∧
        (∀ v ∈ s.default? d.identifier, v.WellFormed) ∧
        ∀ v ∈ s.correct? d.identifier, v.WellFormed) ∧
      ∀ test ∈ s.test, ∀ view ∈ test.items,
        ∀ d ∈ view.declarations,
          ∀ v ∈ view.value? d.identifier, v.WellFormed := by
  have hMem : ∀ {α : Type} {ds : List Declaration} {name}
      {f : Declaration → α} {a : α},
      (findDeclaration? ds name).map f = some a →
        ∃ d ∈ ds, d.identifier = name := by
    intro α ds name f a hFound
    rcases Option.map_eq_some_iff.mp hFound with ⟨d, hD, _⟩
    exact ⟨d, List.mem_of_find?_eq_some hD,
      by simpa using List.find?_some hD⟩
  constructor
  · intro h
    exact ⟨fun d _ => ⟨fun v => h.values _ v,
      fun v => h.defaults _ v, fun v => h.corrects _ v⟩,
      fun test hTest view hView d _ v =>
        h.items test hTest view hView _ v⟩
  · rintro ⟨hOwn, hItems⟩
    constructor
    · intro name v hV
      rcases hMem hV with ⟨d, hD, rfl⟩
      exact (hOwn d hD).1 v hV
    · intro name v hV
      rcases hMem hV with ⟨d, hD, rfl⟩
      exact (hOwn d hD).2.1 v hV
    · intro name v hV
      rcases hMem hV with ⟨d, hD, rfl⟩
      exact (hOwn d hD).2.2 v hV
    · intro test hTest view hView name v hV
      rcases hMem hV with ⟨d, hD, rfl⟩
      exact hItems test hTest view hView d hD v hV

instance (s : Scope) : Decidable s.WellFormed :=
  decidable_of_iff _ Scope.wellFormed_iff_declared.symm

------------------------------------------------------------
-- Parts of Evaluations
------------------------------------------------------------

variable {α : Type}

/- An evaluation goes through and gives what has a property. -/
def Step.Gives (P : α → Prop) (x : Step α) : Prop :=
  Stateful.Gives (fun _ => True) P x

namespace Step

theorem gives_pure
    {P : α → Prop}
    {a : α}
    (hP : P a) :
    Gives P (pure a) :=
  Stateful.Gives.pure hP

theorem gives_act
    {P : α → Prop}
    {f : Tally → α × Tally}
    (hP : ∀ t, P (f t).1) :
    Gives P (act f) := by
  intro t _
  exact ⟨trivial, (f t).1, rfl, hP t⟩

theorem gives_nullWith
    {P : Value → Prop}
    (hP : P .null)
    (source message : String) :
    Gives P (nullWith source message) := by
  apply Stateful.Gives.bind (P := fun _ => True)
  · exact gives_act fun _ => trivial
  · exact fun _ _ => gives_pure hP

theorem gives_draw
    {P : α → Prop}
    {f : Draws → Except Failure (α × Draws)}
    (hDraws : ∀ d, ∃ r, f d = .ok r ∧ P r.1) :
    Gives P (draw f) := by
  intro t _
  obtain ⟨r, hOk, hP⟩ := hDraws t.draws
  have hResult : (Stateful.run (draw f) t).1 = .ok r.1 := by
    simp [Stateful.run, draw, hOk, ExceptT.run, ExceptT.mk,
      StateT.run]
  exact ⟨trivial, r.1, hResult, hP⟩

end Step

------------------------------------------------------------
-- Operators
------------------------------------------------------------

/- What is chosen is single, or NULL where there is nothing. -/
theorem chooseElement_gives
    {P : Value → Prop}
    (hNull : P .null)
    (hSingle : ∀ s, P (.single s))
    (v : Value) :
    Step.Gives P (chooseElement v) := by
  have hPick : ∀ xs : List Scalar,
      Step.Gives P do
        return Value.ofScalar?
          (← Step.take fun d => d.pick xs) := by
    intro xs
    apply Stateful.Gives.bind (P := fun _ => True)
    · exact Step.gives_act fun _ => trivial
    · intro s _
      apply Step.gives_pure
      cases s with
      | none => exact hNull
      | some s => exact hSingle s
  unfold chooseElement
  split
  · exact hPick _
  · exact hPick _
  · exact Step.gives_pure hNull

variable {engine : Engine}

/- The base type of an operator is that of its values. -/
theorem Operator.apply_gives_single
    (hNone : engine.service = none)
    (source : String)
    {op : Operator}
    {type : BaseType}
    (hType : op.baseType? = some type)
    (values : List Value) :
    Step.Gives (fun v => v.IsSingle type)
      (op.apply engine source values) := by
  cases op with
  | plain op =>
      have hValue := PlainOperator.isSingle_value hType values
      cases op
      case random => cases hType
      all_goals exact Step.gives_pure hValue
  | math op =>
      cases hType
      simp only [apply, hNone]
      cases Arithmetic.numbers? values with
      | none => exact Step.gives_pure Value.isSingle_null
      | some xs => exact Step.gives_pure (op.isSingle_apply xs)
  | stats op =>
      cases hType
      exact Step.gives_pure (op.isSingle_ofContainer _)
  | equal tolerance =>
      cases hType
      exact Step.gives_pure (isSingle_compareNumbers _ _)
  | equalRounded mode figures =>
      cases hType
      apply Step.gives_pure
      apply Arithmetic.isSingle_ofNumbers
      exact fun _ _ => Value.isSingle_ofBool? _
  | anyN min max =>
      cases hType
      exact Step.gives_pure (Logic.isSingle_anyN _ _ _)
  | inside shape coords =>
      cases hType
      exact Step.gives_pure (shape.isSingle_holdsAny _ _)
  | stringMatch caseSensitive substring =>
      cases hType
      exact Step.gives_pure (isSingle_compareStrings _ _ _ _)
  | patternMatch text pattern =>
      cases hType
      exact Step.gives_pure (Value.isSingle_ofBool? _)
  | roundTo mode figures => cases hType
  | index n => cases hType
  | fieldValue name => cases hType

theorem Operator.apply_roundTo_gives
    (engine : Engine)
    (source : String)
    (mode : RoundingMode)
    (figures : Int64)
    (values : List Value) :
    Step.Gives (fun v => v.IsSingle .float)
      ((roundTo mode figures).apply engine source values) := by
  apply Step.gives_pure
  apply Arithmetic.isSingle_ofNumber
  intro x
  split
  · exact Value.isSingle_float _
  · trivial

/- Operators make well-formed values of well-formed ones. -/
theorem Operator.apply_gives
    (hNone : engine.service = none)
    (source : String)
    (op : Operator)
    {values : List Value}
    (hAll : ∀ v ∈ values, v.WellFormed) :
    Step.Gives Value.WellFormed
      (op.apply engine source values) := by
  cases hType : op.baseType? with
  | some type =>
      have hSingle :=
        apply_gives_single hNone source hType values
      exact hSingle.mono fun _ hV => hV.wellFormed
  | none =>
      cases op with
      | plain op =>
          have hValue := op.wellFormed_value hAll
          cases op
          case random =>
            exact chooseElement_gives Value.wellFormed_null
              Value.wellFormed_single _
          all_goals exact Step.gives_pure hValue
      | roundTo mode figures =>
          have hFloat :=
            apply_roundTo_gives engine source mode figures values
          exact hFloat.mono fun _ hV => hV.wellFormed
      | index n =>
          exact Step.gives_pure (Container.wellFormed_at? _ _)
      | fieldValue name =>
          exact Step.gives_pure (Container.wellFormed_field _ _)
      | _ => cases hType

------------------------------------------------------------
-- Leaves
------------------------------------------------------------

variable {scope : Scope}

theorem orWarn_gives
    {P : Value → Prop}
    (hNull : P .null)
    {v : Option Value}
    (hValue : ∀ w, v = some w → P w)
    (message : String) :
    Step.Gives P (orWarn scope message v) := by
  cases v with
  | none => exact Step.gives_nullWith hNull _ _
  | some w => exact Step.gives_pure (hValue w rfl)

/- A weight makes a float, or leaves the value alone. -/
theorem wellFormed_weigh
    {v : Value}
    (hValue : v.WellFormed)
    (test : TestView)
    (reference : String)
    (weight : Option String) :
    (weigh test reference weight v).WellFormed := by
  unfold weigh
  split
  · split
    · exact Value.wellFormed_float _
    · exact hValue
  · exact hValue

/- What is found is a value of one of the items. -/
theorem TestView.exists_of_resolve
    {test : TestView}
    {reference identifier : String}
    {occurrence : Option Nat}
    {v : Value}
    (hResolved :
      test.resolve reference occurrence identifier = .found v ∨
        ∃ n, test.resolve reference occurrence identifier =
          .firstOf v n) :
    ∃ view ∈ test.items, view.reference = reference ∧
      view.value? identifier = some v := by
  unfold resolve at hResolved
  dsimp only at hResolved
  split at hResolved
  next =>
    split at hResolved <;>
      rcases hResolved with hSame | ⟨_, hSame⟩ <;> cases hSame
  next view hView =>
    have hChosen : view ∈ test.items.filter fun v =>
        v.reference == reference := by
      cases occurrence with
      | none => exact List.mem_of_head? hView
      | some n => exact List.mem_of_find?_eq_some hView
    obtain ⟨hMem, hReference⟩ :
        view ∈ test.items ∧ view.reference = reference := by
      simpa using hChosen
    split at hResolved
    next => rcases hResolved with hSame | ⟨_, hSame⟩ <;> cases hSame
    next w hValue =>
      refine ⟨view, hMem, hReference, ?_⟩
      split at hResolved <;>
        rcases hResolved with hSame | ⟨_, hSame⟩ <;>
        cases hSame <;> exact hValue

/- A dotted name gives what is found, under its weight. -/
theorem fetchDotted_gives
    {P : Value → Prop}
    (hNull : P .null)
    {test : TestView}
    {name : DottedName}
    {weight : Option String}
    (hItems :
      ∀ view ∈ test.items, view.reference = name.reference →
        ∀ v, view.value? name.identifier = some v →
          P (weigh test name.reference weight v))
    (source text : String) :
    Step.Gives P (fetchDotted source test text weight name) := by
  have hFound : ∀ v,
      (test.resolve name.reference name.occurrence
          name.identifier = .found v ∨
        ∃ n, test.resolve name.reference name.occurrence
          name.identifier = .firstOf v n) →
        P (weigh test name.reference weight v) := by
    intro v hResolved
    obtain ⟨view, hMem, hReference, hValue⟩ :=
      TestView.exists_of_resolve hResolved
    exact hItems view hMem hReference v hValue
  unfold fetchDotted
  split
  next v hOne =>
    exact Step.gives_pure (hFound v (Or.inl hOne))
  next v n hFirst =>
    apply Stateful.Gives.bind (P := fun _ => True)
    · exact Step.gives_act fun _ => trivial
    · intro _ _
      exact Step.gives_pure (hFound v (Or.inr ⟨n, hFirst⟩))
  next => exact Step.gives_nullWith hNull _ _
  next => exact Step.gives_nullWith hNull _ _

theorem readVariable_gives
    (hScope : scope.WellFormed)
    (identifier : String)
    (weight : Option String) :
    Step.Gives Value.WellFormed
      (readVariable scope identifier weight) := by
  unfold readVariable
  dsimp only
  split
  next test name hTest _ =>
    apply fetchDotted_gives Value.wellFormed_null
    intro view hMem _ v hValue
    exact wellFormed_weigh
      (hScope.items test hTest view hMem _ v hValue) _ _ _
  next =>
    exact orWarn_gives Value.wellFormed_null
      (hScope.values identifier) _

theorem score_gives
    {scoring? : Declaration → Option α}
    {apply : α → Declaration → Value → Value}
    (hApply : ∀ m d v, (apply m d v).IsSingle .float)
    (name identifier lacking : String) :
    Step.Gives (fun v => v.IsSingle .float)
      (score scope name identifier lacking scoring? apply) := by
  unfold score
  split
  · exact Step.gives_nullWith Value.isSingle_null _ _
  · split
    · exact Step.gives_nullWith Value.isSingle_null _ _
    · exact Step.gives_pure (hApply _ _ _)

theorem drawInteger_gives (min max step : Int64) :
    Step.Gives (fun v => v.IsSingle .integer)
      (drawInteger min max step) := by
  unfold drawInteger
  dsimp only
  split
  · exact Step.gives_pure Value.isSingle_null
  · apply Stateful.Gives.bind (P := fun _ => True)
    · apply Step.gives_draw
      intro d
      unfold Draws.below
      rw [if_neg (by simp)]
      exact ⟨_, rfl, trivial⟩
    · intro k _
      exact Step.gives_pure (Value.isSingle_integer _)

theorem drawFloat_gives (min max : Float) :
    Step.Gives (fun v => v.IsSingle .float)
      (drawFloat min max) := by
  unfold drawFloat
  split
  · exact Step.gives_pure Value.isSingle_null
  · split
    · exact Step.gives_pure (Value.isSingle_float _)
    · apply Stateful.Gives.bind (P := fun _ => True)
      · exact Step.gives_act fun _ => trivial
      · intro x _
        exact Step.gives_pure (Value.isSingle_float x)

/- Scores, random numbers and constants. -/
theorem Leaf.evaluate_gives_single
    (hNone : engine.service = none)
    (scope : Scope)
    {l : Leaf}
    {type : BaseType}
    (hSingle : l.cardinality? = some .single)
    (hType : l.baseType? = some type) :
    Step.Gives (fun v => v.IsSingle type)
      (l.evaluate engine scope) := by
  cases l with
  | base v =>
      apply Step.gives_pure
      cases v with
      | single s =>
          cases hType
          exact Value.isSingle_single s
      | _ => cases hSingle
  | mapResponse identifier =>
      cases hType
      exact score_gives (fun _ _ _ => Value.isSingle_float _)
        _ _ _
  | mapPoints identifier =>
      cases hType
      exact score_gives (fun _ _ _ => Value.isSingle_float _)
        _ _ _
  | randomInteger min max step =>
      cases hType
      exact drawInteger_gives _ _ _
  | randomFloat min max =>
      cases hType
      exact drawFloat_gives _ _
  | constant c =>
      cases hType
      simp only [evaluate, hNone]
      exact Step.gives_pure (Value.isSingle_float _)
  | items s =>
      simp only [evaluate]
      split
      next test _ =>
        apply Step.gives_pure
        exact s.isSingle_value hSingle hType test
      next => exact Step.gives_nullWith Value.isSingle_null _ _
  | fetch identifier weight => cases hType
  | initial identifier => cases hType
  | correct identifier => cases hType
  | null => cases hType

theorem Leaf.evaluate_gives
    (hNone : engine.service = none)
    (hScope : scope.WellFormed)
    {l : Leaf}
    (hBase : ∀ v, l = .base v → v.WellFormed) :
    Step.Gives Value.WellFormed (l.evaluate engine scope) := by
  cases l with
  | base v => exact Step.gives_pure (hBase v rfl)
  | null => exact Step.gives_pure Value.wellFormed_null
  | fetch identifier weight =>
      exact readVariable_gives hScope identifier weight
  | initial identifier =>
      exact orWarn_gives Value.wellFormed_null
        (hScope.defaults identifier) _
  | correct identifier =>
      exact orWarn_gives Value.wellFormed_null
        (hScope.corrects identifier) _
  | items s =>
      simp only [evaluate]
      split
      next test _ =>
        exact Step.gives_pure (s.wellFormed_value test)
      next => exact Step.gives_nullWith Value.wellFormed_null _ _
  | _ =>
      apply Stateful.Gives.mono
      · exact evaluate_gives_single hNone scope rfl rfl
      · exact fun _ hV => hV.wellFormed

------------------------------------------------------------
-- Expressions
------------------------------------------------------------

namespace Leaf

/- A value in an expression is read for a single value. -/
theorem wellFormed_of_baseOfJson
    {j : Json}
    {v : Value}
    (hRead : baseOfJson j = .ok (.base v)) :
    v.WellFormed := by
  unfold baseOfJson at hRead
  rw [bind_eq_ok_iff] at hRead
  obtain ⟨name, _, hThen⟩ := hRead
  rw [bind_eq_ok_iff] at hThen
  obtain ⟨type, _, hThen⟩ := hThen
  split at hThen
  next => cases hThen
  next =>
    rw [bind_eq_ok_iff] at hThen
    obtain ⟨w, hValue, hSame⟩ := hThen
    cases hSame
    exact Value.wellFormed_of_ofJson_single hValue

/- No other leaf that is read is a written value. -/
theorem wellFormed_of_ofJson?
    {name : String}
    {j : Json}
    {v : Value}
    (hRead : ofJson? name j = .ok (some (.base v))) :
    v.WellFormed := by
  unfold ofJson? at hRead
  rw [bind_eq_ok_iff] at hRead
  obtain ⟨subset?, _, hThen⟩ := hRead
  split at hThen
  next => cases hThen
  next =>
    dsimp only [pure_bind] at hThen
    split at hThen
    next =>
      rw [bind_eq_ok_iff] at hThen
      obtain ⟨l, hBase, hSame⟩ := hThen
      cases hSame
      exact wellFormed_of_baseOfJson hBase
    all_goals
      simp [bind_eq_ok_iff, pure, Except.pure] at hThen
    -- A random float, which is read with bounds.
    split at hThen <;> cases hThen

end Leaf

namespace Expression

/- Expressions that have been read give well-formed values. -/
theorem gives_wellFormed
    (hNone : engine.service = none)
    (hScope : scope.WellFormed)
    {e : Expression}
    (hRead : e.IsRead) :
    Step.Gives Value.WellFormed (e.evaluate engine scope) := by
  apply evaluate_gives (P := fun _ => Value.WellFormed)
  · intro l hInside
    apply Leaf.evaluate_gives hNone hScope
    rintro v rfl
    obtain ⟨name, j, hLeaf⟩ := (hRead.inside hInside).leaf
    exact Leaf.wellFormed_of_ofJson? hLeaf
  · intro op args values _ hValues
    apply Operator.apply_gives hNone
    intro v hMem
    obtain ⟨e', _, hValue⟩ := exists_of_mem_right hValues hMem
    exact hValue

/-
  The operands of every operator in an expression are well
  formed, so no container among them is empty.
-/
theorem operands_wellFormed
    (hNone : engine.service = none)
    (hScope : scope.WellFormed)
    {e : Expression}
    (hRead : e.IsRead)
    {op : Operator}
    {args : List Expression}
    (hInside : .node op args ∈ e.subexpressions) :
    Step.Gives (fun values => ∀ v ∈ values, v.WellFormed)
      (evaluateAll engine scope args) := by
  have hArgs := (hRead.inside hInside).arg
  have hEach :=
    evaluateAll_gives (P := fun _ => Value.WellFormed)
      fun e' hArg => gives_wellFormed hNone hScope (hArgs e' hArg)
  apply hEach.mono
  intro values hValues v hMem
  obtain ⟨e', _, hValue⟩ := exists_of_mem_right hValues hMem
  exact hValue

end Expression

end Assessment
