import Assessment.Proofs.Typing.Single
import Assessment.Proofs.Typing.Values
import Assessment.Scope.Basic

/-
  Well-formed values.

  A list holds something, and nothing that is not of its base
  type; a record has a field. The building functions give no
  other values, and whatever is taken out of well-formed
  containers or put together from them is well formed again.

  Main declarations:
    * `Value.WellFormed`
    * `Container.wellFormed_collect` and `wellFormed_delete`
    * `ItemSubset.wellFormed_value`
    * `PlainOperator.wellFormed_value`
    * `Declaration.wellFormed_coerce`
-/

------------------------------------------------------------
-- Values
------------------------------------------------------------

namespace Assessment

/- A list of single values of one base type, not empty. -/
def FilledWith (type : BaseType) (xs : List Scalar) : Prop :=
  xs ≠ [] ∧ ∀ s ∈ xs, s.baseType = type

/-
  A list is filled with values of its base type, and a record
  has fields. A field is single or NULL by its type.
-/
def Value.WellFormed : Value → Prop
  | .null | .single _ => True
  | .multiple t xs | .ordered t xs => FilledWith t xs
  | .record fields => fields ≠ []

instance (type : BaseType) (xs : List Scalar) :
    Decidable (FilledWith type xs) :=
  inferInstanceAs
    (Decidable (xs ≠ [] ∧ ∀ s ∈ xs, s.baseType = type))

namespace Value

instance : (v : Value) → Decidable v.WellFormed
  | .null | .single _ => Decidable.isTrue trivial
  | .multiple t xs | .ordered t xs =>
      inferInstanceAs (Decidable (FilledWith t xs))
  | .record fields => inferInstanceAs (Decidable (fields ≠ []))

@[simp] theorem wellFormed_null : null.WellFormed := trivial

@[simp] theorem wellFormed_single (s : Scalar) :
    (single s).WellFormed := trivial

@[simp] theorem wellFormed_multiple
    {t : BaseType}
    {xs : List Scalar} :
    (multiple t xs).WellFormed ↔ FilledWith t xs := Iff.rfl

@[simp] theorem wellFormed_ordered
    {t : BaseType}
    {xs : List Scalar} :
    (ordered t xs).WellFormed ↔ FilledWith t xs := Iff.rfl

@[simp] theorem wellFormed_float (x : Float) :
    (float x).WellFormed := by
  unfold float
  split <;> trivial

@[simp] theorem wellFormed_ofScalar? (s : Option Scalar) :
    (ofScalar? s).WellFormed := by
  cases s <;> trivial

theorem IsSingle.wellFormed
    {type : BaseType}
    {v : Value}
    (hSingle : v.IsSingle type) :
    v.WellFormed := by
  cases v with
  | null => trivial
  | single s => trivial
  | _ => cases hSingle

/- NULL stands for the list without elements. -/
theorem wellFormed_multipleOf
    {t : BaseType}
    {xs : List Scalar}
    (hType : ∀ s ∈ xs, s.baseType = t) :
    (multipleOf t xs).WellFormed := by
  unfold multipleOf
  split
  · trivial
  next hSome => exact ⟨by simpa using hSome, hType⟩

theorem wellFormed_orderedOf
    {t : BaseType}
    {xs : List Scalar}
    (hType : ∀ s ∈ xs, s.baseType = t) :
    (orderedOf t xs).WellFormed := by
  unfold orderedOf
  split
  · trivial
  next hSome => exact ⟨by simpa using hSome, hType⟩

/- The elements are looked at before a list is built. -/
theorem wellFormed_of_ofList
    {c : Cardinality}
    {t : BaseType}
    {xs : List Scalar}
    {v : Value}
    (hBuild : ofList c t xs = .ok v) :
    v.WellFormed := by
  unfold ofList at hBuild
  split at hBuild
  next => cases hBuild
  next hNone =>
    have hType : ∀ s ∈ xs, s.baseType = t := by
      simpa using hNone
    split at hBuild
    next =>
      split at hBuild
      next => cases hBuild; trivial
      next => cases hBuild; trivial
      next => cases hBuild
    next =>
      cases hBuild
      exact wellFormed_multipleOf hType
    next =>
      cases hBuild
      exact wellFormed_orderedOf hType
    next => cases hBuild

/- What is read for a single value is no container. -/
theorem wellFormed_of_ofJson_single
    {type : BaseType}
    {j : Json}
    {v : Value}
    (hRead : ofJson .single (some type) j = .ok v) :
    v.WellFormed := by
  unfold ofJson at hRead
  split at hRead
  next => cases hRead; trivial
  next hSame => cases hSame
  next hSame => cases hSame
  next => cases hRead
  next =>
    rw [bind_eq_ok_iff] at hRead
    obtain ⟨xs, _, hList⟩ := hRead
    exact wellFormed_of_ofList hList
  next =>
    rw [bind_eq_ok_iff] at hRead
    obtain ⟨s, _, hList⟩ := hRead
    exact wellFormed_of_ofList hList

/- The second operand is well formed if all are. -/
theorem wellFormed_second
    {values : List Value}
    (hAll : ∀ v ∈ values, v.WellFormed) :
    (values[1]?.getD Value.null).WellFormed := by
  cases hSecond : values[1]? with
  | none => trivial
  | some v => exact hAll v (List.mem_of_getElem? hSecond)

end Value

------------------------------------------------------------
-- Containers
------------------------------------------------------------

namespace Container

theorem wellFormed_collect
    (c : Cardinality)
    (values : List Value) :
    (collect c values).WellFormed := by
  unfold collect
  split
  next =>
    split
    next hBuild => exact Value.wellFormed_of_ofList hBuild
    next => trivial
  next => trivial

/- What is left keeps its base type. -/
theorem wellFormed_delete
    {container : Value}
    (v : Value)
    (hContainer : container.WellFormed) :
    (delete v container).WellFormed := by
  unfold delete
  split
  next =>
    apply Value.wellFormed_multipleOf
    intro s hLeft
    exact hContainer.2 s (List.mem_filter.mp hLeft).1
  next =>
    apply Value.wellFormed_orderedOf
    intro s hLeft
    exact hContainer.2 s (List.mem_filter.mp hLeft).1
  next => trivial

theorem wellFormed_at? (n : Int64) (v : Value) :
    (at? n v).WellFormed := by
  unfold at?
  split
  · split
    · exact Value.wellFormed_ofScalar? _
    · trivial
  · trivial

theorem wellFormed_field (name : String) (v : Value) :
    (field name v).WellFormed := by
  unfold field
  split
  · split <;> trivial
  · trivial

end Container

------------------------------------------------------------
-- Operators
------------------------------------------------------------

namespace Arithmetic

theorem wellFormed_withIntegers
    (values : List Value)
    (whole : List Int64 → Option Int64)
    (rounded : List Float → Float) :
    (withIntegers values whole rounded).WellFormed := by
  rcases isSingle_withIntegers values whole rounded with
    hSingle | hSingle
  · exact hSingle.wellFormed
  · exact hSingle.wellFormed

theorem wellFormed_extreme
    (pick : Float → Float → Float)
    (start : Float)
    (values : List Value) :
    (extreme pick start values).WellFormed := by
  rcases isSingle_extreme pick start values with
    hSingle | hSingle
  · exact hSingle.wellFormed
  · exact hSingle.wellFormed

end Arithmetic

/- Only deleting from a container depends on the operands. -/
theorem PlainOperator.wellFormed_value
    (op : PlainOperator)
    {values : List Value}
    (hAll : ∀ v ∈ values, v.WellFormed) :
    (op.value values).WellFormed := by
  cases hType : op.baseType? with
  | some type => exact (isSingle_value hType values).wellFormed
  | none =>
      have hOthers := mem_of_baseType?_eq_none hType
      simp only [List.mem_cons, List.not_mem_nil,
        or_false] at hOthers
      rcases hOthers with rfl | rfl | rfl | rfl | rfl | rfl |
        rfl | rfl | rfl
      · exact Arithmetic.wellFormed_withIntegers _ _ _
      · exact Arithmetic.wellFormed_withIntegers _ _ _
      · exact Arithmetic.wellFormed_withIntegers _ _ _
      · exact Arithmetic.wellFormed_extreme _ _ _
      · exact Arithmetic.wellFormed_extreme _ _ _
      · exact Container.wellFormed_collect _ _
      · exact Container.wellFormed_collect _ _
      · exact Container.wellFormed_delete _
          (Value.wellFormed_second hAll)
      · trivial

------------------------------------------------------------
-- Items of a Test
------------------------------------------------------------

namespace Scalar

/- The numbers of a list are floats once they are promoted. -/
theorem baseType_promote
    {s : Scalar}
    (hNumeric : s.baseType.isNumeric = true) :
    s.promote.baseType = .float := by
  cases s <;> first | rfl | cases hNumeric

end Scalar

namespace ItemSubset

/- Nothing is computed from items unless all have it. -/
theorem exists_of_mem_of_mapM
    {f : ItemView → Option Scalar}
    {items : List ItemView}
    {xs : List Scalar}
    (hAll : items.mapM f = some xs) :
    ∀ s ∈ xs, ∃ v ∈ items, f v = some s := by
  induction items generalizing xs with
  | nil =>
      cases hAll
      simp
  | cons v items ih =>
      simp only [List.mapM_cons, Option.bind_eq_bind,
        Option.bind_eq_some_iff] at hAll
      obtain ⟨s, hFirst, xs', hRest, hSame⟩ := hAll
      cases hSame
      intro s' hMem
      rcases List.mem_cons.mp hMem with rfl | hLater
      · exact ⟨v, List.mem_cons_self, hFirst⟩
      · obtain ⟨w, hIn, hW⟩ := ih hRest s' hLater
        exact ⟨w, List.mem_cons_of_mem v hIn, hW⟩

theorem baseType_of_weightedBound?
    {bound : Declaration → Option Float}
    {outcome : String}
    {weight : Option String}
    {v : ItemView}
    {s : Scalar}
    (hBound : weightedBound? bound outcome weight v = some s) :
    s.baseType = .float := by
  unfold weightedBound? at hBound
  rw [Option.map_eq_some_iff] at hBound
  obtain ⟨x, _, rfl⟩ := hBound
  rfl

theorem wellFormed_bounds
    (bound : Declaration → Option Float)
    (outcome : String)
    (weight : Option String)
    (items : List ItemView) :
    (bounds bound outcome weight items).WellFormed := by
  unfold bounds
  split
  next xs hAll =>
    apply Value.wellFormed_multipleOf
    intro s hMem
    obtain ⟨v, _, hBound⟩ := exists_of_mem_of_mapM hAll s hMem
    exact baseType_of_weightedBound? hBound
  next => trivial

/- A weight makes a float of a number that may be a float. -/
theorem baseType_weighted
    {type : Option BaseType}
    {s : Scalar}
    (hWanted : isWanted type s = true)
    (v : ItemView)
    (weight : Option String) :
    isWanted type (weighted v weight type s) = true := by
  unfold weighted
  split
  next =>
    split
    next hFloat =>
      cases type with
      | none => rfl
      | some t =>
          have hType : t = .float := by simpa using hFloat
          subst hType
          rfl
    next => exact hWanted
  next => exact hWanted

theorem isWanted_of_collected?
    {identifier : String}
    {weight : Option String}
    {type : Option BaseType}
    {v : ItemView}
    {s : Scalar}
    (hCollected :
      collected? identifier weight type v = some s) :
    isWanted type s = true := by
  unfold collected? at hCollected
  split at hCollected
  next s' _ =>
    split at hCollected
    next hWanted =>
      cases hCollected
      exact baseType_weighted hWanted v weight
    next => cases hCollected
  next => cases hCollected

/-
  Without a base type numbers are collected: integers alone,
  or floats with all integers promoted.
-/
theorem wellFormed_collect
    (identifier : String)
    (weight : Option String)
    (type : Option BaseType)
    (items : List ItemView) :
    (collect identifier weight type items).WellFormed := by
  have hWanted : ∀ s ∈ items.filterMap
      (collected? identifier weight type),
      isWanted type s = true := by
    intro s hMem
    obtain ⟨v, _, hCollected⟩ := List.mem_filterMap.mp hMem
    exact isWanted_of_collected? hCollected
  unfold collect
  cases type with
  | some t =>
      apply Value.wellFormed_multipleOf
      intro s hMem
      simpa [isWanted] using hWanted s hMem
  | none =>
      dsimp only
      split
      next =>
        apply Value.wellFormed_multipleOf
        intro s hMem
        obtain ⟨s', hMem', rfl⟩ := List.mem_map.mp hMem
        exact Scalar.baseType_promote (hWanted s' hMem')
      next hNoFloat =>
        apply Value.wellFormed_multipleOf
        intro s hMem
        have hNumeric : s.baseType.isNumeric = true :=
          hWanted s hMem
        have hOther : s.baseType ≠ .float := by
          intro hFloat
          apply hNoFloat
          rw [List.any_eq_true]
          exact ⟨s, hMem, by simp [hFloat]⟩
        cases s <;>
          first
            | rfl
            | exact absurd rfl hOther
            | cases hNumeric

theorem wellFormed_value (s : ItemSubset) (test : TestView) :
    (s.value test).WellFormed := by
  unfold value
  dsimp only
  cases s.kind with
  | numberCorrect => trivial
  | numberIncorrect => trivial
  | numberPresented => trivial
  | numberResponded => trivial
  | numberSelected => trivial
  | outcomeMinimum outcome weight =>
      exact wellFormed_bounds _ _ _ _
  | outcomeMaximum outcome weight =>
      exact wellFormed_bounds _ _ _ _
  | testVariables identifier weight type =>
      exact wellFormed_collect _ _ _ _

end ItemSubset

------------------------------------------------------------
-- Declarations
------------------------------------------------------------

namespace Declaration

theorem filledWith_promote
    {xs : List Scalar}
    (hFilled : FilledWith .integer xs) :
    FilledWith .float (xs.map Scalar.promote) := by
  constructor
  · simpa using hFilled.1
  · intro s hMem
    obtain ⟨s', hMem', rfl⟩ := List.mem_map.mp hMem
    apply Scalar.baseType_promote
    rw [hFilled.2 s' hMem']
    rfl

/- Coercion promotes all elements of a list or none. -/
theorem wellFormed_coerce
    (d : Declaration)
    {v : Value}
    (hValue : v.WellFormed) :
    (d.coerce v).WellFormed := by
  unfold coerce
  split
  · trivial
  · exact filledWith_promote hValue
  · exact filledWith_promote hValue
  · exact hValue

/- A table gives single values. -/
theorem wellFormed_lookup
    (d : Declaration)
    (table : LookupTable)
    (source : Value) :
    (d.lookup table source).WellFormed := by
  unfold lookup
  split
  · trivial
  · unfold tableDefault
    split
    · trivial
    · trivial
    · exact Value.wellFormed_float 0
    · trivial

end Declaration

end Assessment
