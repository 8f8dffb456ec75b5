import Assessment.Proofs.Expression.StaticTypes
import Assessment.Proofs.Typing.Scope

/-
  Leaves that stray from their static types.

  A leaf that refers to a variable has the type that is
  declared for its name. That type describes the values of the
  leaf, unless the leaf strays: a record is declared with a
  base type; an integer is read under a weight that is not
  applied to it; what overrides the declared default or correct
  response is not accepted; or the default is that of another
  variable. All other leaves have values of their types.

  Main declarations:
    * `Scope.Realizes`, a scope for the names of a lookup
    * `Scope.Conforms`, values that are accepted
    * `Leaf.Strays`
    * `Leaf.gives_describesUnless`
-/

------------------------------------------------------------
-- Names
------------------------------------------------------------

namespace Assessment

variable {engine : Engine}
variable {scope : Scope}
variable {lookup : String → Lookup}

namespace Scope

/-
  A scope gives the variables that a lookup knows of: plain
  names those that it declares itself, dotted names those of
  the items that a test sees. What is declared is sound, and
  in tests nothing overrides it.
-/
structure Realizes (s : Scope) (lookup : String → Lookup) :
    Prop where
  plain :
    ∀ identifier d, lookup identifier = .declared d →
      (s.test = none ∨ DottedName.parse? identifier = none) →
        s.declaration? identifier = some d
  dotted :
    ∀ identifier d, lookup identifier = .declared d →
      ∀ view name, s.test = some view →
        DottedName.parse? identifier = some name →
          ∀ v ∈ view.items, v.reference = name.reference →
            findDeclaration? v.declarations name.identifier =
              some d
  sound :
    ∀ identifier d, s.declaration? identifier = some d →
      d.accepts d.initial = true ∧
        ∀ v, d.correct? = some v → d.accepts v = true
  fixed :
    s.test.isSome = true →
      s.defaults = [] ∧ s.corrects = [] ∧
        ∀ identifier d, s.declaration? identifier = some d →
          d.correct? = none

/-
  All values are well formed, as whatever is read or built is,
  and accepted by their declarations, those of the items that
  a test sees included.
-/
structure Conforms (s : Scope) : Prop where
  wellFormed : s.WellFormed
  values : Fits s.declarations s.values
  items :
    ∀ view, s.test = some view → ∀ v ∈ view.items,
      Fits v.declarations v.values

theorem conforms_iff {s : Scope} :
    s.Conforms ↔
      s.WellFormed ∧ Fits s.declarations s.values ∧
        ∀ view ∈ s.test, ∀ v ∈ view.items,
          Fits v.declarations v.values :=
  ⟨fun h => ⟨h.wellFormed, h.values, h.items⟩,
    fun h => ⟨h.1, h.2.1, h.2.2⟩⟩

instance (s : Scope) : Decidable s.Conforms :=
  decidable_of_iff _ conforms_iff.symm

/- A weight is applied to the numbers that a name stands for. -/
def Weighs (s : Scope) (identifier weight : String) : Prop :=
  ∃ view name, s.test = some view ∧
    DottedName.parse? identifier = some name ∧
      ((view.weightsOf? name.reference).bind
        (Keyed.get? weight)).isSome = true

end Scope

------------------------------------------------------------
-- Leaves That Stray
------------------------------------------------------------

/-
  A leaf gives values that its static type does not describe.
  The type of a weighted integer is float, whether or not the
  weight is applied; overriding values and the outcomes of a
  test under dotted names are not what the type is taken from.
-/
def Leaf.Strays (lookup : String → Lookup) (s : Scope) :
    Leaf → Prop
  | .fetch identifier weight =>
      ∃ d, lookup identifier = .declared d ∧
        (d.IsTypedRecord ∨
          d.baseType = some .integer ∧
            ∃ w, weight = some w ∧
              ¬ (d.cardinality = .single ∧ s.Weighs identifier w))
  | .initial identifier =>
      ∃ d, lookup identifier = .declared d ∧
        (d.IsTypedRecord ∨
          (∃ v, s.defaults.get? identifier = some v ∧
            d.accepts v = false) ∨
          ∃ own, s.declaration? identifier = some own ∧
            d.accepts own.initial = false)
  | .correct identifier =>
      ∃ d, lookup identifier = .declared d ∧
        (d.IsTypedRecord ∨
          ∃ v, s.corrects.get? identifier = some v ∧
            d.accepts v = false)
  | _ => False

/- NULL, or a value that a type describes unless a leaf strays. -/
def StaticType.DescribesUnless
    (t : StaticType)
    (strays : Prop)
    (v : Value) :
    Prop :=
  v = .null ∨ (t.Describes v ↔ ¬ strays)

namespace StaticType

variable {t : StaticType}
variable {strays : Prop}
variable {v : Value}

theorem describesUnless_null :
    t.DescribesUnless strays .null :=
  Or.inl rfl

/- What is admitted in any case does not stray. -/
theorem describesUnless_of_admits
    (hAdmits : t.Admits v)
    (hNot : ¬ strays) :
    t.DescribesUnless strays v :=
  hAdmits.imp_right fun hDescribes => by simp [hDescribes, hNot]

theorem DescribesUnless.admits
    (hUnless : t.DescribesUnless strays v)
    (hNot : ¬ strays) :
    t.Admits v :=
  hUnless.imp_right fun h => h.mpr hNot

end StaticType

------------------------------------------------------------
-- Values of Variables
------------------------------------------------------------

namespace StaticType

variable {d : Declaration}
variable {v : Value}
variable {weight : Option String}

/-
  A value that is read as it is. A number among such values is
  one that no weight is applied to.
-/
theorem describesUnless_of_unweighed
    (weighs : String → Prop)
    (hAccepts : d.accepts v = true)
    (hPlain :
      v.number?.isSome = true →
        ∀ w, weight = some w → ¬ weighs w) :
    DescribesUnless
      (if weight.isSome then (ofDeclaration d).weighted
        else ofDeclaration d)
      (d.IsTypedRecord ∨
        d.baseType = some .integer ∧
          ∃ w, weight = some w ∧
            ¬ (d.cardinality = .single ∧ weighs w))
      v := by
  by_cases hSome : v = .null
  · exact Or.inl hSome
  right
  cases weight with
  | none =>
      rw [if_neg (by simp),
        describes_ofDeclaration_iff hAccepts hSome]
      simp
  | some w =>
      rw [if_pos (by simp), describes_weighted_iff hAccepts hSome]
      have hNumber : d.cardinality = .single →
          d.baseType = some .integer → ¬ weighs w := by
        intro hSingle hInteger
        apply hPlain _ w rfl
        rcases (Value.conformsTo_iff hSome).mp hAccepts with
          ⟨hCardinality, hRecord | hType⟩
        · rw [hSingle] at hRecord
          cases hRecord
        · have hV := hType .integer hInteger
          rw [hSingle] at hCardinality
          cases v with
          | single s =>
              cases s with
              | integer n => rfl
              | _ => cases hV
          | _ => cases hCardinality
      constructor
      · rintro ⟨hRecord, hOther⟩ (hTyped | ⟨hInteger, _⟩)
        · exact hRecord hTyped
        · exact hOther hInteger
      · intro hNot
        refine ⟨fun h => hNot (Or.inl h), fun hInteger => ?_⟩
        apply hNot
        refine Or.inr ⟨hInteger, w, rfl, ?_⟩
        rintro ⟨hSingle, hWeighs⟩
        exact hNumber hSingle hInteger hWeighs

end StaticType

/- A value is left alone, or a number is made a float. -/
theorem weigh_cases
    (view : TestView)
    (reference : String)
    (weight : Option String)
    (v : Value) :
    (weigh view reference weight v = v ∧
        (v.number?.isSome = true → ∀ w, weight = some w →
          (view.weightsOf? reference).bind (Keyed.get? w) =
            none)) ∨
      ∃ s x w factor, v = .single s ∧ s.number? = some x ∧
        weight = some w ∧
          (view.weightsOf? reference).bind (Keyed.get? w) =
            some factor ∧
            weigh view reference weight v =
              .float (x * factor) := by
  cases weight with
  | none => exact Or.inl ⟨rfl, by simp⟩
  | some w =>
      cases hNumber : v.number? with
      | none =>
          left
          simp [weigh, hNumber]
      | some x =>
          cases hFactor :
              (view.weightsOf? reference).bind
                (Keyed.get? w) with
          | none =>
              left
              refine ⟨by simp [weigh, hNumber, hFactor], ?_⟩
              rintro _ _ ⟨⟩
              exact hFactor
          | some factor =>
              right
              cases v with
              | single s =>
                  refine ⟨s, x, w, factor, rfl, hNumber, rfl,
                    hFactor, ?_⟩
                  simp [weigh, hNumber, hFactor]
              | _ => cases hNumber

namespace Leaf

variable {identifier : String}
variable {d : Declaration}

theorem strays_fetch_iff
    (hDeclared : lookup identifier = .declared d)
    {weight : Option String} :
    (fetch identifier weight).Strays lookup scope ↔
      d.IsTypedRecord ∨
        d.baseType = some .integer ∧
          ∃ w, weight = some w ∧
            ¬ (d.cardinality = .single ∧
              scope.Weighs identifier w) := by
  simp [Strays, hDeclared]

theorem ofLeaf_fetch
    (hDeclared : lookup identifier = .declared d)
    (weight : Option String) :
    StaticType.ofLeaf lookup (.fetch identifier weight) =
      if weight.isSome then
        (StaticType.ofDeclaration d).weighted
      else StaticType.ofDeclaration d := by
  rw [StaticType.ofLeaf, hDeclared]

/- A plain name is read without a weight. -/
theorem fetch_plain_gives
    (hConforms : scope.Conforms)
    (hDeclared : lookup identifier = .declared d)
    (hOwn : scope.declaration? identifier = some d)
    (hPlain :
      scope.test = none ∨ DottedName.parse? identifier = none)
    (weight : Option String) :
    Step.Gives
      ((StaticType.ofLeaf lookup
        (.fetch identifier weight)).DescribesUnless
          ((fetch identifier weight).Strays lookup scope))
      (readVariable scope identifier weight) := by
  have hUnweighed : ∀ w, ¬ scope.Weighs identifier w := by
    rintro w ⟨view, name, hView, hName, _⟩
    rcases hPlain with hNone | hNone
    · rw [hNone] at hView
      cases hView
    · rw [hNone] at hName
      cases hName
  have hRead : readVariable scope identifier weight =
      orWarn scope ("undeclared variable '" ++ identifier ++ "'")
        (scope.value? identifier) := by
    unfold readVariable
    rcases hPlain with hNone | hNone
    · rw [hNone]
    · rw [hNone]
      cases scope.test <;> rfl
  rw [hRead, ofLeaf_fetch hDeclared, strays_fetch_iff hDeclared]
  apply orWarn_gives StaticType.describesUnless_null
  intro v hValue
  rw [Scope.value?, hOwn] at hValue
  cases hValue
  exact StaticType.describesUnless_of_unweighed
    (scope.Weighs identifier) (hConforms.values.accepts hOwn)
    fun _ w _ => hUnweighed w

/- A dotted name is read under a weight of its reference. -/
theorem fetch_dotted_gives
    (hConforms : scope.Conforms)
    (hDeclared : lookup identifier = .declared d)
    {view : TestView}
    {name : DottedName}
    (hView : scope.test = some view)
    (hName : DottedName.parse? identifier = some name)
    (hItems :
      ∀ v ∈ view.items, v.reference = name.reference →
        findDeclaration? v.declarations name.identifier = some d)
    (weight : Option String) :
    Step.Gives
      ((StaticType.ofLeaf lookup
        (.fetch identifier weight)).DescribesUnless
          ((fetch identifier weight).Strays lookup scope))
      (readVariable scope identifier weight) := by
  have hRead : readVariable scope identifier weight =
      fetchDotted scope.source view identifier weight name := by
    unfold readVariable
    rw [hView, hName]
  have hWeighs : ∀ w, scope.Weighs identifier w ↔
      ((view.weightsOf? name.reference).bind
        (Keyed.get? w)).isSome = true := by
    simp [Scope.Weighs, hView, hName]
  rw [hRead, ofLeaf_fetch hDeclared, strays_fetch_iff hDeclared]
  apply fetchDotted_gives StaticType.describesUnless_null
  intro v hMem hReference w hValue
  have hFound := hItems v hMem hReference
  have hAccepts : d.accepts w = true := by
    rw [ItemView.value?, hFound] at hValue
    cases hValue
    exact (hConforms.items view hView v hMem).accepts hFound
  rcases weigh_cases view name.reference weight w with
    ⟨hSame, hPlain⟩ |
      ⟨s, x, n, factor, rfl, hNumber, rfl, hFactor, hFloat⟩
  · rw [hSame]
    apply StaticType.describesUnless_of_unweighed _ hAccepts
    intro hNumber n hN
    rw [hWeighs, hPlain hNumber n hN]
    simp
  · rw [hFloat, if_pos (by simp)]
    apply StaticType.describesUnless_of_admits
    · exact StaticType.admits_weighted_of_number hAccepts hNumber _
    · have hSingle : d.cardinality = .single := by
        have hParts := (Value.conformsTo_iff (by simp)).mp hAccepts
        exact (Option.some.inj hParts.1).symm
      rintro (⟨hRecord, _⟩ | ⟨_, w, hW, hNot⟩)
      · rw [hSingle] at hRecord
        cases hRecord
      · cases hW
        apply hNot
        rw [hWeighs, hFactor]
        exact ⟨hSingle, rfl⟩

end Leaf

------------------------------------------------------------
-- Defaults and Correct Responses
------------------------------------------------------------

namespace Leaf

variable {identifier : String}
variable {d : Declaration}

/-
  A value that is read in the place of a declared one strays
  just when the declaration does not accept it.
-/
theorem describesUnless_of_overridden
    {v : Value}
    {overridden : Prop}
    (hOverridden :
      v ≠ .null → (overridden ↔ d.accepts v = false)) :
    (StaticType.ofDeclaration d).DescribesUnless
      (d.IsTypedRecord ∨ overridden) v := by
  by_cases hSome : v = .null
  · exact Or.inl hSome
  right
  rw [hOverridden hSome]
  cases hAccepts : d.accepts v with
  | true =>
      rw [StaticType.describes_ofDeclaration_iff hAccepts hSome]
      simp
  | false =>
      constructor
      · intro hDescribes
        rw [StaticType.accepts_of_describes hDescribes]
          at hAccepts
        cases hAccepts
      · exact fun hNot => absurd (Or.inr rfl) hNot

theorem initial_gives
    (hRealizes : scope.Realizes lookup)
    (hDeclared : lookup identifier = .declared d)
    (message : String) :
    Step.Gives
      ((StaticType.ofDeclaration d).DescribesUnless
        ((initial identifier).Strays lookup scope))
      (orWarn scope message (scope.default? identifier)) := by
  have hStrays : (initial identifier).Strays lookup scope ↔
      d.IsTypedRecord ∨
        (∃ v, scope.defaults.get? identifier = some v ∧
          d.accepts v = false) ∨
        ∃ own, scope.declaration? identifier = some own ∧
          d.accepts own.initial = false := by
    simp [Strays, hDeclared]
  rw [hStrays]
  apply orWarn_gives StaticType.describesUnless_null
  intro v hValue
  apply describesUnless_of_overridden
  intro _
  rw [Scope.default?, Option.map_eq_some_iff] at hValue
  rcases hValue with ⟨own, hOwn, rfl⟩
  cases hDefault : scope.defaults.get? identifier with
  | none => simp [hOwn]
  | some w =>
      -- only items have defaults that override declared ones
      have hItem : scope.test = none := by
        cases hTest : scope.test with
        | none => rfl
        | some view =>
            have hFixed := hRealizes.fixed (by rw [hTest]; rfl)
            rw [hFixed.1] at hDefault
            cases hDefault
      have hSame :=
        hRealizes.plain identifier d hDeclared (Or.inl hItem)
      have hSound := (hRealizes.sound identifier d hSame).1
      simp [hSame, hSound]

theorem correct_gives
    (hRealizes : scope.Realizes lookup)
    (hDeclared : lookup identifier = .declared d)
    (message : String) :
    Step.Gives
      ((StaticType.ofDeclaration d).DescribesUnless
        ((correct identifier).Strays lookup scope))
      (orWarn scope message (scope.correct? identifier)) := by
  have hStrays : (correct identifier).Strays lookup scope ↔
      d.IsTypedRecord ∨
        ∃ v, scope.corrects.get? identifier = some v ∧
          d.accepts v = false := by
    simp [Strays, hDeclared]
  rw [hStrays]
  apply orWarn_gives StaticType.describesUnless_null
  intro v hValue
  apply describesUnless_of_overridden
  intro hSome
  rw [Scope.correct?, Option.map_eq_some_iff] at hValue
  rcases hValue with ⟨own, hOwn, rfl⟩
  cases hCorrect : scope.corrects.get? identifier with
  | some w => simp
  | none =>
      rw [hCorrect, Option.none_or] at hSome
      rw [Option.none_or]
      cases hOwnCorrect : own.correct? with
      | none =>
          rw [hOwnCorrect] at hSome
          exact absurd rfl hSome
      | some w =>
          -- only items declare correct responses
          have hItem : scope.test = none := by
            cases hTest : scope.test with
            | none => rfl
            | some view =>
                have hFixed := hRealizes.fixed (by rw [hTest]; rfl)
                rw [hFixed.2.2 identifier own hOwn] at hOwnCorrect
                cases hOwnCorrect
          have hSame :=
            hRealizes.plain identifier d hDeclared (Or.inl hItem)
          rw [hSame] at hOwn
          cases hOwn
          have hSound := (hRealizes.sound identifier d hSame).2
          simp [hSound w hOwnCorrect]

end Leaf

------------------------------------------------------------
-- All Leaves
------------------------------------------------------------

namespace Leaf

/- The type of a name that is not known says nothing. -/
theorem gives_describesUnless_unknown
    (hNone : engine.service = none)
    (hConforms : scope.Conforms)
    {l : Leaf}
    (hOther : ∀ v, l ≠ .base v)
    (hType : StaticType.ofLeaf lookup l = .unknown)
    (hNot : ¬ l.Strays lookup scope) :
    Step.Gives
      ((StaticType.ofLeaf lookup l).DescribesUnless
        (l.Strays lookup scope))
      (l.evaluate engine scope) := by
  have hWell : Step.Gives Value.WellFormed
      (l.evaluate engine scope) :=
    evaluate_gives hNone hConforms.wellFormed
      fun v hBase => absurd hBase (hOther v)
  rw [hType]
  apply hWell.mono
  intro v _
  apply StaticType.describesUnless_of_admits _ hNot
  exact Or.inr ⟨by rintro _ ⟨⟩, by rintro _ ⟨⟩⟩

theorem fetch_gives
    (hRealizes : scope.Realizes lookup)
    (hConforms : scope.Conforms)
    {identifier : String}
    {d : Declaration}
    (hDeclared : lookup identifier = .declared d)
    (weight : Option String) :
    Step.Gives
      ((StaticType.ofLeaf lookup
        (.fetch identifier weight)).DescribesUnless
          ((fetch identifier weight).Strays lookup scope))
      (readVariable scope identifier weight) := by
  by_cases hPlain :
      scope.test = none ∨ DottedName.parse? identifier = none
  · exact fetch_plain_gives hConforms hDeclared
      (hRealizes.plain identifier d hDeclared hPlain) hPlain _
  · rcases not_or.mp hPlain with ⟨hTest, hName⟩
    rcases Option.ne_none_iff_exists'.mp hTest with
      ⟨view, hView⟩
    rcases Option.ne_none_iff_exists'.mp hName with
      ⟨name, hDotted⟩
    exact fetch_dotted_gives hConforms hDeclared hView hDotted
      (hRealizes.dotted identifier d hDeclared view name hView
        hDotted) _

/-
  In a scope for the names of a lookup, the static type of a
  leaf describes what it gives, other than NULL, if and only
  if the leaf does not stray.
-/
theorem gives_describesUnless
    (hNone : engine.service = none)
    (hRealizes : scope.Realizes lookup)
    (hConforms : scope.Conforms)
    (l : Leaf) :
    Step.Gives
      ((StaticType.ofLeaf lookup l).DescribesUnless
        (l.Strays lookup scope))
      (l.evaluate engine scope) := by
  cases l with
  | fetch identifier weight =>
      cases hLookup : lookup identifier with
      | declared d =>
          exact fetch_gives hRealizes hConforms hLookup weight
      | _ =>
          apply gives_describesUnless_unknown hNone hConforms
          · simp
          · simp [StaticType.ofLeaf, hLookup]
          · simp [Strays, hLookup]
  | initial identifier =>
      cases hLookup : lookup identifier with
      | declared d =>
          rw [StaticType.ofLeaf, hLookup]
          exact initial_gives hRealizes hLookup _
      | _ =>
          apply gives_describesUnless_unknown hNone hConforms
          · simp
          · simp [StaticType.ofLeaf, hLookup]
          · simp [Strays, hLookup]
  | correct identifier =>
      cases hLookup : lookup identifier with
      | declared d =>
          rw [StaticType.ofLeaf, hLookup]
          exact correct_gives hRealizes hLookup _
      | _ =>
          apply gives_describesUnless_unknown hNone hConforms
          · simp
          · simp [StaticType.ofLeaf, hLookup]
          · simp [Strays, hLookup]
  | base v =>
      apply Step.gives_pure
      apply StaticType.describesUnless_of_admits _ id
      exact Or.inr ⟨fun _ hC => hC, fun _ hB => hB⟩
  | null => exact Step.gives_pure StaticType.describesUnless_null
  | items s =>
      simp only [evaluate]
      split
      next test _ =>
        apply Step.gives_pure
        exact StaticType.describesUnless_of_admits
          (s.admits_value test) id
      next =>
        exact Step.gives_nullWith
          StaticType.describesUnless_null _ _
  | _ =>
      apply Stateful.Gives.mono
      · exact evaluate_gives_single hNone scope rfl rfl
      · intro v hV
        exact StaticType.describesUnless_of_admits
          (StaticType.admits_of_isSingle hV) id

end Leaf

/- Types that rest on leaves that do not stray are founded. -/
theorem Expression.founded_of_not_strays
    (hNone : engine.service = none)
    (hRealizes : scope.Realizes lookup)
    (hConforms : scope.Conforms)
    {e : Expression}
    (hBasis : ∀ l ∈ e.basis, ¬ l.Strays lookup scope) :
    e.Founded engine scope lookup := by
  intro l hMem
  have hGives :=
    Leaf.gives_describesUnless hNone hRealizes hConforms l
  exact hGives.mono fun _ hV => hV.admits (hBasis l hMem)

end Assessment
