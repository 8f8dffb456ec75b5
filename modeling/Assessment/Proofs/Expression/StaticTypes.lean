import Assessment.Proofs.Expression.WellFormed
import Assessment.Proofs.Typing.Static

/-
  Evaluation and the types that expressions have.

  The static type of an expression says no more than those of
  the leaves that it rests on: where they admit what the
  leaves are evaluated to, it admits what the expression is
  evaluated to. An arithmetic node rests on the leaves of all
  its arguments, and any other node on none.

  Whatever its arguments are and whatever it reads, an
  expression states a cardinality and a base type of its own,
  or leaves them open. Without a service its evaluation goes
  through, and gives NULL or a value of the type it states.
  A leaf and an operator are each looked at once, and the
  types of arguments do not matter.

  Main declarations:
    * `Expression.basis`, what a static type rests on
    * `Operator.apply_gives_admitted`
    * `PlainOperator.admits_value_of_joined`
    * `Expression.gives_admitted`
    * `Expression.recorded`, the type that is stated
    * `Leaf.gives_recorded` and `Operator.apply_gives_recorded`
    * `Expression.value_of_recorded`
-/

------------------------------------------------------------
-- What Types Rest On
------------------------------------------------------------

namespace Assessment

namespace Expression

mutual

/- The leaves whose types make up the type of an expression. -/
def basis : Expression → List Leaf
  | .leaf l => [l]
  | .node op args =>
      if StaticType.isArithmetic op then basisOf args else []

/- The leaves that the types of arguments are made up of. -/
def basisOf : List Expression → List Leaf
  | [] => []
  | e :: rest => basis e ++ basisOf rest

end

theorem basis_leaf (l : Leaf) : (leaf l).basis = [l] := by
  rw [basis]

@[simp] theorem mem_basisOf
    {l : Leaf}
    {es : List Expression} :
    l ∈ basisOf es ↔ ∃ e ∈ es, l ∈ e.basis := by
  induction es with
  | nil => simp [basisOf]
  | cons e rest ih => simp [basisOf, ih]

/- The type of an arithmetic node rests on all arguments. -/
theorem mem_basis_of_arg
    {op : Operator}
    {args : List Expression}
    {e : Expression}
    {l : Leaf}
    (hOp : StaticType.isArithmetic op = true)
    (hArg : e ∈ args)
    (hMem : l ∈ e.basis) :
    l ∈ (node op args).basis := by
  rw [basis, if_pos hOp, mem_basisOf]
  exact ⟨e, hArg, hMem⟩

end Expression

------------------------------------------------------------
-- Operators
------------------------------------------------------------

variable {engine : Engine}
variable {scope : Scope}
variable {lookup : String → Lookup}

/- An operator with a base type has single values. -/
theorem Operator.cardinality?_of_baseType?
    {op : Operator}
    {type : BaseType}
    (hType : op.baseType? = some type) :
    op.cardinality? = some .single := by
  cases op with
  | plain op => cases op <;> first | rfl | cases hType
  | index n => cases hType
  | fieldValue name => cases hType
  | _ => rfl

/- Operators with a type of their own give values of it. -/
theorem Operator.apply_gives_admitted
    (hNone : engine.service = none)
    (source : String)
    {op : Operator}
    (hOp : StaticType.isArithmetic op = false)
    (values : List Value) :
    Step.Gives
      (StaticType.Admits ⟨op.cardinality?, op.baseType?⟩)
      (op.apply engine source values) := by
  cases hType : op.baseType? with
  | some type =>
      rw [cardinality?_of_baseType? hType]
      have hSingle :=
        apply_gives_single hNone source hType values
      exact hSingle.mono fun _ hV =>
        StaticType.admits_of_isSingle hV
  | none =>
      cases op with
      | plain op =>
          have hOthers :=
            PlainOperator.mem_of_baseType?_eq_none hType
          simp only [List.mem_cons, List.not_mem_nil,
            or_false] at hOthers
          rcases hOthers with rfl | rfl | rfl | rfl | rfl | rfl |
            rfl | rfl | rfl
          case inr.inr.inr.inr.inr.inl =>
            exact Step.gives_pure (Container.admits_collect _ _)
          case inr.inr.inr.inr.inr.inr.inl =>
            exact Step.gives_pure (Container.admits_collect _ _)
          case inr.inr.inr.inr.inr.inr.inr.inl =>
            apply Step.gives_pure
            exact Or.inr ⟨by rintro _ ⟨⟩, by rintro _ ⟨⟩⟩
          case inr.inr.inr.inr.inr.inr.inr.inr =>
            apply chooseElement_gives (StaticType.admits_null _)
            intro scalar
            exact (StaticType.admits_of_isSingle
              (Value.isSingle_single scalar)).forget
          all_goals cases hOp
      | roundTo mode figures =>
          have hFloat :=
            apply_roundTo_gives engine source mode figures values
          exact hFloat.mono fun _ hV =>
            (StaticType.admits_of_isSingle hV).forget
      | index n =>
          apply Step.gives_pure
          exact Or.inr ⟨by rintro _ ⟨⟩, by rintro _ ⟨⟩⟩
      | fieldValue name =>
          apply Step.gives_pure
          exact Or.inr ⟨by rintro _ ⟨⟩, by rintro _ ⟨⟩⟩
      | _ => cases hType

/- Arithmetic operators give values of the joined type. -/
theorem PlainOperator.admits_value_of_joined
    {op : PlainOperator}
    (hOp : StaticType.isArithmetic (.plain op) = true)
    {args : List Expression}
    {values : List Value}
    (hValues :
      List.Forall₂
        (fun e v => v.WellFormed ∧ (e.staticType lookup).Admits v)
        args values) :
    StaticType.Admits
      ((Expression.node (.plain op) args).staticType lookup)
      (op.value values) := by
  have hWell : ∀ v ∈ values, v.WellFormed := by
    intro v hMem
    rcases Expression.exists_of_mem_right hValues hMem with
      ⟨_, _, hV, _⟩
    exact hV
  have hCardinality :
      (Operator.plain op).cardinality? = some .single := by
    cases op <;> first | rfl | cases hOp
  rw [Expression.staticType, if_pos hOp, hCardinality]
  cases hJoined :
      Expression.joined lookup (some .integer) args with
  | none =>
      rcases isSingle_value_of_isArithmetic hOp values with
        hV | hV
      · exact (StaticType.admits_of_isSingle hV).forget
      · exact (StaticType.admits_of_isSingle hV).forget
  | some b =>
      apply StaticType.admits_of_isSingle
      have hStart : ∀ c, some BaseType.integer = some c →
          c = .integer ∨ c = .float := by
        rintro c ⟨⟩
        exact Or.inl rfl
      rcases StaticType.joined_eq_some hStart hJoined with
        ⟨rfl, _, hAll⟩ | ⟨rfl, hNot | ⟨e, hArg, hFloat⟩⟩
      · apply isSingle_value_of_integers hOp hWell
        intro v hMem
        rcases Expression.exists_of_mem_right hValues hMem with
          ⟨e, hArg, _, hAdmits⟩
        exact hAdmits.hasType (hAll e hArg)
      · cases hNot
      · rcases Expression.exists_of_mem_left hValues hArg with
          ⟨v, hMem, _, hAdmits⟩
        exact isSingle_value_of_float hOp hWell hMem
          (hAdmits.hasType hFloat)

------------------------------------------------------------
-- Expressions
------------------------------------------------------------

namespace Expression

/- The leaves that a type rests on give what their types admit. -/
def Founded
    (engine : Engine)
    (scope : Scope)
    (lookup : String → Lookup)
    (e : Expression) :
    Prop :=
  ∀ l ∈ e.basis,
    Step.Gives (StaticType.ofLeaf lookup l).Admits
      (l.evaluate engine scope)

/-
  Values are well formed, and admitted where types are
  founded. This is what arguments pass on to their nodes.
-/
def PassesOn
    (engine : Engine)
    (scope : Scope)
    (lookup : String → Lookup)
    (e : Expression)
    (v : Value) :
    Prop :=
  v.WellFormed ∧
    (e.Founded engine scope lookup →
      (e.staticType lookup).Admits v)

theorem gives_passesOn
    {e : Expression}
    {x : Step Value}
    (hWell : Step.Gives Value.WellFormed x)
    (hAdmitted :
      e.Founded engine scope lookup →
        Step.Gives (e.staticType lookup).Admits x) :
    Step.Gives (e.PassesOn engine scope lookup) x := by
  by_cases hFounded : e.Founded engine scope lookup
  · apply (hWell.both (hAdmitted hFounded)).mono
    rintro v ⟨hV, hAdmits⟩
    exact ⟨hV, fun _ => hAdmits⟩
  · apply hWell.mono
    intro v hV
    exact ⟨hV, fun h => absurd h hFounded⟩

/-
  The type of an arithmetic node is joined from the types of
  its arguments, and any other node has a type of its own.
-/
theorem node_gives_admitted
    (hNone : engine.service = none)
    {op : Operator}
    {args : List Expression}
    {values : List Value}
    (hValues :
      List.Forall₂ (PassesOn engine scope lookup) args values)
    (hFounded : (node op args).Founded engine scope lookup) :
    Step.Gives ((node op args).staticType lookup).Admits
      (op.apply engine scope.source values) := by
  cases hOp : StaticType.isArithmetic op with
  | false =>
      rw [staticType, if_neg (by simp [hOp])]
      exact Operator.apply_gives_admitted hNone _ hOp values
  | true =>
      have hArgs : ∀ e ∈ args, e.Founded engine scope lookup :=
        fun e hArg l hMem =>
          hFounded l (mem_basis_of_arg hOp hArg hMem)
      have hBoth := (List.forall₂_and_left args values).mpr
        ⟨hArgs, hValues⟩
      have hAdmitted := hBoth.imp fun e v h =>
        (⟨h.2.1, h.2.2 h.1⟩ :
          v.WellFormed ∧ (e.staticType lookup).Admits v)
      cases op with
      | plain op =>
          have hValue :=
            PlainOperator.admits_value_of_joined hOp hAdmitted
          cases op
          case random => cases hOp
          all_goals exact Step.gives_pure hValue
      | _ => cases hOp

/- Induction over the expression. -/
theorem gives_admitted
    (hNone : engine.service = none)
    (hScope : scope.WellFormed)
    {e : Expression}
    (hRead : e.IsRead)
    (hFounded : e.Founded engine scope lookup) :
    Step.Gives (e.staticType lookup).Admits
      (e.evaluate engine scope) := by
  have hWhole : Step.Gives (e.PassesOn engine scope lookup)
      (e.evaluate engine scope) := by
    apply evaluate_gives
    · intro l hInside
      have hWell := gives_wellFormed hNone hScope
        (hRead.inside hInside)
      rw [evaluate] at hWell
      apply gives_passesOn hWell
      intro hLeaf
      rw [staticType]
      exact hLeaf l (by simp [basis_leaf])
    · intro op args values _ hValues
      have hWell : Step.Gives Value.WellFormed
          (op.apply engine scope.source values) := by
        apply Operator.apply_gives hNone
        intro v hMem
        rcases exists_of_mem_right hValues hMem with
          ⟨_, _, hV, _⟩
        exact hV
      exact gives_passesOn hWell
        (node_gives_admitted hNone hValues)
  apply hWhole.mono
  rintro v ⟨_, hAdmits⟩
  exact hAdmits hFounded

end Expression

------------------------------------------------------------
-- Leaves
------------------------------------------------------------

open Stateful

variable {engine : Engine}

/- A type that says nothing admits every value. -/
theorem StaticType.admits_unknown (v : Value) :
    unknown.Admits v :=
  Or.inr ⟨by rintro _ ⟨⟩, by rintro _ ⟨⟩⟩

namespace Leaf

/- The type that a leaf states. -/
def recorded (l : Leaf) : StaticType :=
  ⟨l.cardinality?, l.baseType?⟩

/- A variable is read in any case, whatever comes of it. -/
theorem readVariable_gives_any
    (scope : Scope)
    (identifier : String)
    (weight : Option String) :
    Step.Gives StaticType.unknown.Admits
      (readVariable scope identifier weight) := by
  have hNull := StaticType.admits_unknown .null
  unfold readVariable
  dsimp only
  split
  next =>
    apply fetchDotted_gives hNull
    exact fun _ _ _ _ _ => StaticType.admits_unknown _
  next =>
    exact orWarn_gives hNull
      (fun _ _ => StaticType.admits_unknown _) _

/- Variables, defaults and correct responses state no type. -/
theorem gives_recorded
    (hNone : engine.service = none)
    (scope : Scope)
    (l : Leaf) :
    Step.Gives l.recorded.Admits (l.evaluate engine scope) := by
  have hAny : ∀ message (v : Option Value),
      Step.Gives StaticType.unknown.Admits
        (orWarn scope message v) :=
    fun message _ =>
      orWarn_gives (StaticType.admits_unknown .null)
        (fun _ _ => StaticType.admits_unknown _) message
  cases l with
  | base v =>
      apply Step.gives_pure
      exact Or.inr ⟨fun _ hC => hC, fun _ hB => hB⟩
  | fetch identifier weight =>
      exact readVariable_gives_any scope identifier weight
  | initial identifier => exact hAny _ _
  | correct identifier => exact hAny _ _
  | null => exact Step.gives_pure (StaticType.admits_null _)
  | items s =>
      simp only [evaluate]
      split
      next test _ => exact Step.gives_pure (s.admits_value test)
      next =>
        exact Step.gives_nullWith (StaticType.admits_null _) _ _
  | _ =>
      apply Stateful.Gives.mono
      · exact evaluate_gives_single hNone scope rfl rfl
      · exact fun _ hV => StaticType.admits_of_isSingle hV

end Leaf

------------------------------------------------------------
-- Operators
------------------------------------------------------------

namespace Operator

/- The type that an operator states. -/
def recorded (op : Operator) : StaticType :=
  ⟨op.cardinality?, op.baseType?⟩

/-
  Sums and extremes decide on integers or floats while they
  run, and state no more than that there is one number.
-/
theorem apply_gives_recorded
    (hNone : engine.service = none)
    (source : String)
    (op : Operator)
    (values : List Value) :
    Step.Gives op.recorded.Admits
      (op.apply engine source values) := by
  cases hOp : StaticType.isArithmetic op with
  | false => exact apply_gives_admitted hNone source hOp values
  | true =>
      cases op with
      | plain op =>
          have hNumber :
              StaticType.Admits ⟨some .single, none⟩
                (op.value values) := by
            rcases PlainOperator.isSingle_value_of_isArithmetic
              hOp values with hInteger | hFloat
            · exact
                (StaticType.admits_of_isSingle hInteger).forget
            · exact (StaticType.admits_of_isSingle hFloat).forget
          cases op with
          | sum => exact Step.gives_pure hNumber
          | product => exact Step.gives_pure hNumber
          | subtract => exact Step.gives_pure hNumber
          | max => exact Step.gives_pure hNumber
          | min => exact Step.gives_pure hNumber
          | _ => cases hOp
      | _ => cases hOp

end Operator

------------------------------------------------------------
-- Expressions
------------------------------------------------------------

namespace Expression

/- The type that an expression states. -/
def recorded (e : Expression) : StaticType :=
  ⟨e.cardinality?, e.baseType?⟩

/- Evaluation goes through, and keeps to the type stated. -/
theorem gives_recorded
    (hNone : engine.service = none)
    (scope : Scope)
    (e : Expression) :
    Step.Gives e.recorded.Admits (e.evaluate engine scope) := by
  apply evaluate_gives (P := fun e => e.recorded.Admits)
  · intro l _
    exact l.gives_recorded hNone scope
  · intro op args values _ _
    exact op.apply_gives_recorded hNone scope.source values

/-
  Without a service, every expression has a value in every
  scope and for all draws. Unless it is NULL, the value has
  the cardinality and the base type that the expression
  states, where it states them.
-/
theorem value_of_recorded
    (hNone : engine.service = none)
    (scope : Scope)
    (e : Expression)
    (tally : Tally) :
    ∃ v left,
      Step.run (e.evaluate engine scope) tally = (.ok v, left) ∧
      (v ≠ .null →
        (∀ c, e.cardinality? = some c →
          v.cardinality? = some c) ∧
        ∀ b, e.baseType? = some b → v.baseType? = some b) := by
  obtain ⟨_, v, hOk, hAdmits⟩ :=
    gives_recorded hNone scope e tally trivial
  refine ⟨v, _, Prod.ext hOk rfl, fun hSome => ?_⟩
  have hDescribes := hAdmits.resolve_left hSome
  exact ⟨hDescribes.cardinality, hDescribes.baseType⟩

/- An item of a test that has a score of some kind. -/
def scored (occurrence : Nat) (type : BaseType) (v : Value) :
    ItemView where
  reference := "ref"
  occurrence := occurrence
  sections := []
  categories := []
  weights := []
  presented := true
  responded := true
  correct := none
  incorrect := false
  declarations := [
    { identifier := "SCORE"
      cardinality := .single
      baseType := some type
      defaultValue := none
      detail := .outcome ⟨none, none, none, none, none⟩ }]
  values := [("SCORE", v)]

/- A test that sees three items, two with integer scores. -/
def scoredScope : Scope where
  source := "test"
  declarations := []
  values := []
  defaults := []
  corrects := []
  test := some
    { items := [
        scored 1 .integer (.integer 4),
        scored 2 .identifier (.identifier "none"),
        scored 3 .integer (.integer 7)]
      references := [] }

/- The integer scores of all items. -/
def integerScores : Expression :=
  .leaf (.items
    { kind := .testVariables "SCORE" none (some .integer)
      within := none
      included := []
      excluded := [] })

/- They are collected into integers, as the expression states. -/
theorem value_of_recorded_scores :
    ∃ v left,
      Step.run (integerScores.evaluate ⟨{}, none⟩ scoredScope)
        ⟨default, []⟩ = (.ok v, left) ∧
      v.elements.length = 2 ∧
      v.cardinality? = some .multiple ∧
      v.baseType? = some .integer := by
  have hNone : (⟨{}, none⟩ : Engine).service = none := rfl
  obtain ⟨v, left, hRun, hType⟩ :=
    value_of_recorded hNone scoredScope integerScores
      ⟨default, []⟩
  have hValue :
      (Step.run (integerScores.evaluate ⟨{}, none⟩ scoredScope)
        ⟨default, []⟩).1 =
          .ok (.multiple .integer [.integer 4, .integer 7]) :=
    rfl
  rw [hRun] at hValue
  cases hValue
  have hBoth := hType (by simp)
  exact ⟨_, left, hRun, rfl, hBoth.1 .multiple rfl,
    hBoth.2 .integer rfl⟩

end Expression

end Assessment
