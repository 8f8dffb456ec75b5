import Assessment.Proofs.Typing.WellFormed
import Assessment.Validation.Catalogue

/-
  Values under static types.

  A static type describes a value that has the cardinality and
  the base type that it states, and NULL is of every type. The
  types of arguments that are joined say what sums, products,
  differences and extremes give for values of these types. The
  type of a declaration describes what the declaration
  accepts, but for records that are declared with a base type,
  which no record has.

  Main declarations:
    * `Value.conformsTo_iff`
    * `StaticType.Describes` and `StaticType.Admits`
    * `StaticType.joined_eq_some`
    * `PlainOperator.isSingle_value_of_integers` and
      `isSingle_value_of_float`
    * `Declaration.IsTypedRecord`
    * `StaticType.describes_ofDeclaration_iff`
    * `StaticType.describes_weighted_iff`
-/

------------------------------------------------------------
-- Conforming Values
------------------------------------------------------------

namespace Assessment

namespace Value

variable {v : Value}

/- Records have no base type. -/
theorem baseType?_of_record
    (hRecord : v.cardinality? = some .record) :
    v.baseType? = none := by
  cases v <;> cases hRecord
  rfl

/- Records conform to their cardinality and to all base types. -/
theorem conformsTo_iff
    {c : Cardinality}
    {type : Option BaseType}
    (hSome : v ≠ .null) :
    v.conformsTo c type = true ↔
      v.cardinality? = some c ∧
        (c = .record ∨
          ∀ b, type = some b → v.baseType? = some b) := by
  unfold conformsTo
  split
  next => exact absurd rfl hSome
  next fields =>
    rw [beq_iff_eq, cardinality?, Option.some.injEq]
    exact ⟨fun h => ⟨h.symm, Or.inl h⟩, fun h => h.1.symm⟩
  next hOther =>
    rw [Bool.and_eq_true, beq_iff_eq, Bool.or_eq_true,
      beq_iff_eq, Option.isNone_iff_eq_none]
    apply and_congr_right
    intro hCardinality
    have hNot : c ≠ .record := by
      intro hRecord
      rw [hRecord] at hCardinality
      cases v with
      | record fields => exact hOther fields rfl
      | _ => cases hCardinality
    rw [or_iff_right hNot]
    cases type with
    | none => simp
    | some b => simp

end Value

------------------------------------------------------------
-- Static Types
------------------------------------------------------------

namespace StaticType

/- A value is what a type says, where it says something. -/
structure Describes (t : StaticType) (v : Value) : Prop where
  cardinality :
    ∀ c, t.cardinality = some c → v.cardinality? = some c
  baseType : ∀ b, t.baseType = some b → v.baseType? = some b

/- NULL is a value of every type. -/
def Admits (t : StaticType) (v : Value) : Prop :=
  v = .null ∨ t.Describes v

variable {t : StaticType}
variable {v : Value}
variable {b : BaseType}

theorem admits_null (t : StaticType) : t.Admits .null :=
  Or.inl rfl

/- A single value of a base type is what a type says it is. -/
theorem admits_of_isSingle
    (hSingle : v.IsSingle b) :
    Admits ⟨some .single, some b⟩ v := by
  cases v with
  | null => exact admits_null _
  | single s =>
      refine Or.inr ⟨?_, ?_⟩
      · rintro _ ⟨⟩
        rfl
      · rintro _ ⟨⟩
        exact congrArg some hSingle
  | _ => cases hSingle

/- A type that says less admits as much. -/
theorem Admits.forget
    (hAdmits : t.Admits v) :
    Admits ⟨t.cardinality, none⟩ v := by
  rcases hAdmits with rfl | hDescribes
  · exact admits_null _
  · exact Or.inr ⟨hDescribes.cardinality, by simp⟩

theorem Admits.hasType
    (hAdmits : t.Admits v)
    (hType : t.baseType = some b) :
    v.HasType b := by
  rcases hAdmits with rfl | hDescribes
  · exact Or.inl rfl
  · exact Or.inr (hDescribes.baseType b hType)

------------------------------------------------------------
-- Joined Types
------------------------------------------------------------

/- Integers join to integers, and any float makes a float. -/
theorem join_eq_some
    {x y : Option BaseType}
    (hJoin : join x y = some b) :
    b = .integer ∧ x = some .integer ∧ y = some .integer ∨
      b = .float ∧ (x = some .float ∨ y = some .float) := by
  unfold join at hJoin
  split at hJoin
  next =>
    cases hJoin
    exact Or.inl ⟨rfl, rfl, rfl⟩
  next c d hNot =>
    split at hJoin
    next hNumeric =>
      cases hJoin
      right
      refine ⟨rfl, ?_⟩
      cases c <;> cases d <;> simp_all [BaseType.isNumeric]
    next => cases hJoin
  next => cases hJoin

/- What is known of a row of arguments by their joined type. -/
theorem joined_eq_some
    {lookup : String → Lookup}
    {type : Option BaseType}
    {es : List Expression}
    (hStart : ∀ c, type = some c → c = .integer ∨ c = .float)
    (hJoined : Expression.joined lookup type es = some b) :
    b = .integer ∧ type = some .integer ∧
        (∀ e ∈ es,
          (e.staticType lookup).baseType = some .integer) ∨
      b = .float ∧
        (type = some .float ∨
          ∃ e ∈ es,
            (e.staticType lookup).baseType = some .float) := by
  induction es generalizing type with
  | nil =>
      rw [Expression.joined] at hJoined
      rcases hStart b hJoined with rfl | rfl
      · exact Or.inl ⟨rfl, hJoined, by simp⟩
      · exact Or.inr ⟨rfl, Or.inl hJoined⟩
  | cons e rest ih =>
      rw [Expression.joined] at hJoined
      have hNext : ∀ c,
          join type (e.staticType lookup).baseType = some c →
            c = .integer ∨ c = .float := by
        intro c hC
        exact (join_eq_some hC).imp And.left And.left
      rcases ih hNext hJoined with
        ⟨hB, hIs, hRest⟩ | ⟨hB, hIs | ⟨e', hMem, hFloat⟩⟩
      · rcases join_eq_some hIs with ⟨_, hType, hE⟩ | ⟨hNot, _⟩
        · refine Or.inl ⟨hB, hType, ?_⟩
          intro e' hMem
          rcases List.mem_cons.mp hMem with rfl | hLater
          · exact hE
          · exact hRest e' hLater
        · cases hNot
      · rcases join_eq_some hIs with ⟨hNot, _⟩ | ⟨_, hAny⟩
        · cases hNot
        · refine Or.inr ⟨hB, hAny.imp_right fun hE => ?_⟩
          exact ⟨e, List.mem_cons_self, hE⟩
      · exact Or.inr
          ⟨hB, Or.inr ⟨e', List.mem_cons_of_mem e hMem, hFloat⟩⟩

end StaticType

------------------------------------------------------------
-- Extremes
------------------------------------------------------------

namespace Value

variable {v : Value}
variable {b : BaseType}

/- The elements of a container have its base type. -/
theorem HasType.baseType_of_mem_elements
    (hType : v.HasType b)
    (hWell : v.WellFormed)
    {s : Scalar}
    (hMem : s ∈ v.elements) :
    s.baseType = b := by
  rcases hType with rfl | hType
  · cases hMem
  · cases v with
    | null => cases hMem
    | single s' =>
        cases hType
        rw [List.mem_singleton.mp hMem]
    | multiple type xs =>
        cases hType
        exact hWell.2 s hMem
    | ordered type xs =>
        cases hType
        exact hWell.2 s hMem
    | record fields => cases hMem

/- A value other than NULL has an element if it has a type. -/
theorem exists_mem_elements
    (hType : v.baseType? = some b)
    (hWell : v.WellFormed) :
    ∃ s, s ∈ v.elements := by
  cases v with
  | null => cases hType
  | single s => exact ⟨s, List.mem_singleton_self s⟩
  | multiple type xs => exact List.exists_mem_of_ne_nil xs hWell.1
  | ordered type xs => exact List.exists_mem_of_ne_nil xs hWell.1
  | record fields => cases hType

end Value

namespace Arithmetic

/- The elements of operands that are flattened. -/
theorem mem_flatten?
    {values : List Value}
    {elements : List Scalar}
    (hFlat : flatten? values = some elements) :
    (∀ v ∈ values, v ≠ .null) ∧
      ∀ s, s ∈ elements ↔ ∃ v ∈ values, s ∈ v.elements := by
  induction values generalizing elements with
  | nil =>
      cases hFlat
      simp
  | cons v rest ih =>
      have hParts : v ≠ .null ∧
          ∃ later, flatten? rest = some later ∧
            elements = v.elements ++ later := by
        cases v with
        | null => cases hFlat
        | record fields => cases hFlat
        | _ =>
            rw [flatten?, Option.map_eq_some_iff] at hFlat
            · rcases hFlat with ⟨later, hRest, hSame⟩
              exact ⟨by simp, later, hRest, hSame.symm⟩
            · simp
            · simp
      rcases hParts with ⟨hSome, later, hRest, rfl⟩
      rcases ih hRest with ⟨hNone, hMem⟩
      constructor
      · exact List.forall_mem_cons.mpr ⟨hSome, hNone⟩
      · simp [hMem]

theorem isInteger_iff {s : Scalar} :
    isInteger s = true ↔ s.baseType = .integer := by
  cases s <;> simp [isInteger, Scalar.baseType]

variable {values : List Value}
variable {pick : Float → Float → Float}
variable {start : Float}

/- The extreme of integers is an integer. -/
theorem isSingle_extreme_of_integers
    (hWell : ∀ v ∈ values, v.WellFormed)
    (hAll : ∀ v ∈ values, v.HasType .integer) :
    (extreme pick start values).IsSingle .integer := by
  unfold extreme
  split
  · trivial
  next elements hFlat =>
    have hIntegers : elements.all isInteger = true := by
      rw [List.all_eq_true]
      intro s hMem
      rcases ((mem_flatten? hFlat).2 s).mp hMem with
        ⟨v, hV, hIn⟩
      rw [isInteger_iff]
      exact (hAll v hV).baseType_of_mem_elements (hWell v hV) hIn
    split
    · trivial
    · trivial
    · dsimp only
      rw [if_pos hIntegers]
      exact Value.isSingle_ofInt64? _

/- With floats in one operand, the extreme is a float. -/
theorem isSingle_extreme_of_float
    (hWell : ∀ v ∈ values, v.WellFormed)
    {v : Value}
    (hMem : v ∈ values)
    (hFloat : v.HasType .float) :
    (extreme pick start values).IsSingle .float := by
  unfold extreme
  split
  · trivial
  next elements hFlat =>
    rcases mem_flatten? hFlat with ⟨hSome, hElements⟩
    have hType : v.baseType? = some .float :=
      hFloat.resolve_left (hSome v hMem)
    rcases Value.exists_mem_elements hType (hWell v hMem) with
      ⟨s, hIn⟩
    have hS : s.baseType = .float :=
      hFloat.baseType_of_mem_elements (hWell v hMem) hIn
    have hNot : ¬ elements.all isInteger = true := by
      rw [List.all_eq_true]
      intro hAll
      have hS' := hAll s ((hElements s).mpr ⟨v, hMem, hIn⟩)
      rw [isInteger_iff, hS] at hS'
      cases hS'
    split
    · trivial
    · trivial
    · dsimp only
      rw [if_neg hNot]
      exact Value.isSingle_float _

end Arithmetic

------------------------------------------------------------
-- Arithmetic Operators
------------------------------------------------------------

namespace PlainOperator

variable {op : PlainOperator}
variable {values : List Value}

/- An arithmetic operator combines numbers, or picks one. -/
theorem value_of_isArithmetic
    (hOp : StaticType.isArithmetic (.plain op) = true)
    (values : List Value) :
    (∃ whole rounded,
      op.value values =
        Arithmetic.withIntegers values whole rounded) ∨
      ∃ pick start,
        op.value values =
          Arithmetic.extreme pick start values := by
  cases op with
  | sum => exact Or.inl ⟨_, _, rfl⟩
  | product => exact Or.inl ⟨_, _, rfl⟩
  | subtract => exact Or.inl ⟨_, _, rfl⟩
  | max => exact Or.inr ⟨_, _, rfl⟩
  | min => exact Or.inr ⟨_, _, rfl⟩
  | _ => cases hOp

/- Integers are computed with as integers. -/
theorem isSingle_value_of_integers
    (hOp : StaticType.isArithmetic (.plain op) = true)
    (hWell : ∀ v ∈ values, v.WellFormed)
    (hAll : ∀ v ∈ values, v.HasType .integer) :
    (op.value values).IsSingle .integer := by
  rcases value_of_isArithmetic hOp values with
    ⟨whole, rounded, hValue⟩ | ⟨pick, start, hValue⟩
  · rw [hValue]
    exact Arithmetic.isSingle_withIntegers_of_integers hAll
  · rw [hValue]
    exact Arithmetic.isSingle_extreme_of_integers hWell hAll

/- One float makes a float of the result. -/
theorem isSingle_value_of_float
    (hOp : StaticType.isArithmetic (.plain op) = true)
    (hWell : ∀ v ∈ values, v.WellFormed)
    {v : Value}
    (hMem : v ∈ values)
    (hFloat : v.HasType .float) :
    (op.value values).IsSingle .float := by
  rcases value_of_isArithmetic hOp values with
    ⟨whole, rounded, hValue⟩ | ⟨pick, start, hValue⟩
  · rw [hValue]
    exact Arithmetic.isSingle_withIntegers_of_float hMem hFloat
  · rw [hValue]
    exact Arithmetic.isSingle_extreme_of_float hWell hMem hFloat

/- In any case the result is a number. -/
theorem isSingle_value_of_isArithmetic
    (hOp : StaticType.isArithmetic (.plain op) = true)
    (values : List Value) :
    (op.value values).IsSingle .integer ∨
      (op.value values).IsSingle .float := by
  rcases value_of_isArithmetic hOp values with
    ⟨whole, rounded, hValue⟩ | ⟨pick, start, hValue⟩
  · rw [hValue]
    exact Arithmetic.isSingle_withIntegers _ _ _
  · rw [hValue]
    exact Arithmetic.isSingle_extreme _ _ _

end PlainOperator

------------------------------------------------------------
-- Lists
------------------------------------------------------------

namespace StaticType

theorem admits_multipleOf
    (type : BaseType)
    (xs : List Scalar) :
    Admits ⟨some .multiple, some type⟩ (.multipleOf type xs) := by
  unfold Value.multipleOf
  split
  · exact admits_null _
  · refine Or.inr ⟨?_, ?_⟩
    · rintro c ⟨⟩
      rfl
    · rintro b ⟨⟩
      rfl

end StaticType

/- Operands are collected into one container, or into NULL. -/
theorem Container.admits_collect
    (c : Cardinality)
    (values : List Value) :
    StaticType.Admits ⟨some c, none⟩ (collect c values) := by
  unfold collect
  split
  next =>
    split
    next v hBuild =>
      by_cases hSome : v = .null
      · exact Or.inl hSome
      · have hConforms := Value.conformsTo_of_ofList hBuild
        have hParts := (Value.conformsTo_iff hSome).mp hConforms
        refine Or.inr ⟨?_, by simp⟩
        rintro _ ⟨⟩
        exact hParts.1
    next => exact StaticType.admits_null _
  next => exact StaticType.admits_null _

/- What is computed over items is a count or a list. -/
theorem ItemSubset.admits_value
    (s : ItemSubset)
    (test : TestView) :
    StaticType.Admits ⟨some s.kind.cardinality, s.kind.baseType?⟩
      (s.value test) := by
  have hCount : ∀ items p,
      StaticType.Admits ⟨some .single, some .integer⟩
        (count items p) := by
    intro items p
    exact StaticType.admits_of_isSingle
      (Value.isSingle_integer _)
  have hBounds : ∀ bound outcome weight items,
      StaticType.Admits ⟨some .multiple, some .float⟩
        (bounds bound outcome weight items) := by
    intro bound outcome weight items
    unfold bounds
    split
    · exact StaticType.admits_multipleOf _ _
    · exact StaticType.admits_null _
  unfold value
  dsimp only
  cases s.kind with
  | outcomeMinimum outcome weight => exact hBounds _ _ _ _
  | outcomeMaximum outcome weight => exact hBounds _ _ _ _
  | testVariables identifier weight type =>
      dsimp only [collect]
      cases type with
      | some t => exact StaticType.admits_multipleOf t _
      | none =>
          dsimp only
          split
          · exact (StaticType.admits_multipleOf _ _).forget
          · exact (StaticType.admits_multipleOf _ _).forget
  | _ => exact hCount _ _

------------------------------------------------------------
-- Declarations
------------------------------------------------------------

/- A record that is declared with a base type. -/
def Declaration.IsTypedRecord (d : Declaration) : Prop :=
  d.cardinality = .record ∧ d.baseType.isSome = true

namespace StaticType

variable {d : Declaration}
variable {v : Value}

/- The type of a declaration describes what it accepts. -/
theorem describes_ofDeclaration_iff
    (hAccepts : d.accepts v = true)
    (hSome : v ≠ .null) :
    (ofDeclaration d).Describes v ↔ ¬ d.IsTypedRecord := by
  rcases (Value.conformsTo_iff hSome).mp hAccepts with
    ⟨hCardinality, hType⟩
  constructor
  · rintro hDescribes ⟨hRecord, hTyped⟩
    rcases Option.isSome_iff_exists.mp hTyped with ⟨b, hB⟩
    have hHas := hDescribes.baseType b hB
    rw [hRecord] at hCardinality
    rw [Value.baseType?_of_record hCardinality] at hHas
    cases hHas
  · intro hNot
    constructor
    · intro c hC
      cases hC
      exact hCardinality
    · intro b hB
      rcases hType with hRecord | hHas
      · exact absurd ⟨hRecord, Option.isSome_of_eq_some hB⟩ hNot
      · exact hHas b hB

/- It describes nothing else. -/
theorem accepts_of_describes
    (hDescribes : (ofDeclaration d).Describes v) :
    d.accepts v = true := by
  have hCardinality := hDescribes.cardinality d.cardinality rfl
  have hSome : v ≠ .null := by
    rintro rfl
    cases hCardinality
  apply (Value.conformsTo_iff hSome).mpr
  exact ⟨hCardinality, Or.inr hDescribes.baseType⟩

/- Under a weight it does not describe integers. -/
theorem describes_weighted_iff
    (hAccepts : d.accepts v = true)
    (hSome : v ≠ .null) :
    (ofDeclaration d).weighted.Describes v ↔
      ¬ d.IsTypedRecord ∧ d.baseType ≠ some .integer := by
  rw [← describes_ofDeclaration_iff hAccepts hSome]
  unfold weighted
  split
  next hInteger =>
    have hType : d.baseType = some .integer := hInteger
    constructor
    · intro hFloat
      exfalso
      have hV := hFloat.baseType .float rfl
      rcases (Value.conformsTo_iff hSome).mp hAccepts with
        ⟨hCardinality, hRecord | hHas⟩
      · rw [hRecord] at hCardinality
        rw [Value.baseType?_of_record hCardinality] at hV
        cases hV
      · rw [hHas .integer hType] at hV
        cases hV
    · exact fun hBoth => absurd hType hBoth.2
  next hOther =>
    have hNot : d.baseType ≠ some .integer := hOther
    exact ⟨fun h => ⟨h, hNot⟩, And.left⟩

/- But it describes the floats that weights make of numbers. -/
theorem admits_weighted_of_number
    {s : Scalar}
    {x : Float}
    (hAccepts : d.accepts (.single s) = true)
    (hNumber : s.number? = some x)
    (y : Float) :
    (ofDeclaration d).weighted.Admits (.float y) := by
  rcases (Value.conformsTo_iff (by simp)).mp hAccepts with
    ⟨hCardinality, hHas⟩
  have hSingle : d.cardinality = .single :=
    (Option.some.inj hCardinality).symm
  rw [hSingle] at hHas
  have hFloat :=
    admits_of_isSingle (Value.isSingle_float y)
  cases hType : d.baseType with
  | none =>
      have hNothing : (ofDeclaration d).weighted =
          ⟨some .single, none⟩ := by
        simp [ofDeclaration, weighted, hSingle, hType]
      rw [hNothing]
      exact hFloat.forget
  | some b =>
      have hNumeric : b = .integer ∨ b = .float := by
        rcases hHas with hNot | hHas
        · cases hNot
        · have hS := hHas b hType
          cases s with
          | integer n => exact Or.inl (Option.some.inj hS).symm
          | float x => exact Or.inr (Option.some.inj hS).symm
          | _ => cases hNumber
      have hSame : (ofDeclaration d).weighted =
          ⟨some .single, some .float⟩ := by
        rcases hNumeric with rfl | rfl
        · simp [ofDeclaration, weighted, hSingle, hType]
        · simp [ofDeclaration, weighted, hSingle, hType]
      rw [hSame]
      exact hFloat

end StaticType

end Assessment
