import Assessment.Proofs.Expression.Straying
import Assessment.Proofs.Package.Sessions
import Assessment.Proofs.Rule.Reader
import Assessment.Proofs.Validation.References

/-
  The static types of validated packages.

  Validation states cardinalities and base types of
  expressions before any session runs. In a cleared package
  the names that the rules of a document use stand for the
  same declarations then and when the rules are evaluated.

  In a state where every value is accepted by its declaration,
  evaluation keeps to what is stated for all leaves in the
  rules but those that stray, and so for all expressions whose
  types do not rest on a leaf that strays. Leaves do stray: an
  integer under a weight is stated to be a float, and is one
  only where the weight is applied.

  Main declarations:
    * `Package.ScopeOf`, the scopes of a document
    * `Package.Cleared.realizes`
    * `Package.TypesHold`, for all documents of a package
    * `Package.validated_typesHold`
    * `Package.weighingPackage`
-/

------------------------------------------------------------
-- Documents
------------------------------------------------------------

namespace Assessment

namespace Definition

variable {x : Document}
variable {d : Definition}

/- What a document declares is read from it, or built in. -/
theorem isBuilt_of_ofDocument
    (hRead : ofDocument x = .ok d) :
    ∀ own ∈ d.declarations, own.IsBuilt := by
  intro own hMem
  cases d with
  | item i =>
      rcases exists_build_of_item hRead with ⟨_, hBuild⟩
      have hBuilt := Item.isBuilt_of_build hBuild
      rcases List.mem_append.mp hMem with hAuthored | hBuiltin
      · exact hBuilt.isBuilt own hAuthored
      · exact (Builtin.isBuilt_of_mem_ofItem own
          (List.mem_filter.mp hBuiltin).1).1
  | test t =>
      rcases exists_build_of_test hRead with ⟨_, hBuild⟩
      have hOwn : ∀ own ∈ t.outcomes, own.IsBuilt := by
        intro own hOutcome
        rcases Test.isBuilt_of_build hBuild own hOutcome with
          ⟨v, hOutcome⟩
        exact .read .outcome v own hOutcome
      have hAll : own ∈ t.declarations := hMem
      unfold Test.declarations at hAll
      split at hAll
      · exact hOwn own hAll
      · rcases List.mem_append.mp hAll with hAuthored | hBuiltin
        · exact hOwn own hAuthored
        · rw [List.mem_singleton.mp hBuiltin]
          exact .testDuration

/- The expressions in its rules have been read as well. -/
theorem isRead_of_ofDocument
    (hRead : ofDocument x = .ok d)
    {e : Expression}
    (hHolds : d.Holds e) :
    e.IsRead := by
  rcases hHolds with ⟨rules, hList, deed, hDeed, hInside⟩
  have hDeeds : ∀ deed ∈ Rule.deedsIn rules.rules,
      deed.expression.IsRead := by
    cases d with
    | item i =>
        rcases exists_build_of_item hRead with ⟨_, hBuild⟩
        simp only [Item.build, bind_eq_ok_iff] at hBuild
        rcases hBuild with ⟨_, _, _, _, _, _, template, hTemplate,
          response, hResponse, hSame⟩
        cases hSame
        simp only [ruleLists, List.mem_cons, List.not_mem_nil,
          or_false] at hList
        rcases hList with rfl | rfl
        · exact Rule.isRead_of_listOfJson hTemplate
        · exact Rule.isRead_of_listOfJson hResponse
    | test t =>
        rcases exists_build_of_test hRead with ⟨_, hBuild⟩
        simp only [Test.build, bind_eq_ok_iff] at hBuild
        rcases hBuild with ⟨_, _, _, _, outcome, hOutcome,
          _, _, hSame⟩
        cases hSame
        rw [ruleLists, List.mem_singleton] at hList
        rw [hList]
        exact Rule.isRead_of_listOfJson hOutcome
  exact (hDeeds deed hDeed).inside hInside

end Definition

------------------------------------------------------------
-- Scopes
------------------------------------------------------------

namespace Package

/-
  The scopes in which the rules of a document are evaluated,
  whatever the values of variables.
-/
inductive ScopeOf (p : Package) : Definition → Scope → Prop where
  | item
      (i : Item)
      (s : Scope)
      (hDeclarations : s.declarations = i.declarations)
      (hTest : s.test = none) :
      ScopeOf p (.item i) s
  | test
      (t : Test)
      (s : Scope)
      (view : TestView)
      (hDeclarations : s.declarations = t.declarations)
      (hDefaults : s.defaults = [])
      (hCorrects : s.corrects = [])
      (hView : s.test = some view)
      (hShows : view.Shows t p.items) :
      ScopeOf p (.test t) s

variable {c : Catalogue}
variable {p : Package}

theorem ScopeOf.declarations
    {d : Definition}
    {s : Scope}
    (hScope : p.ScopeOf d s) :
    s.declarations = d.declarations := by
  cases hScope with
  | item i s hDeclarations _ => exact hDeclarations
  | test t s view hDeclarations _ _ _ _ => exact hDeclarations

/- Names stand for the same in lookups and in scopes. -/
theorem Cleared.realizes
    (hCleared : p.Cleared c)
    {d : Definition}
    (hDefined : d ∈ c.definitions)
    {s : Scope}
    (hScope : p.ScopeOf d s) :
    s.Realizes (c.lookup d) where
  plain identifier x hLookup hPlain := by
    rw [Scope.declaration?, hScope.declarations]
    apply Catalogue.declaration?_of_lookup _ hLookup
    cases hScope with
    | item i s _ _ => exact Or.inl rfl
    | test t s view _ _ _ hView _ =>
        rw [hView] at hPlain
        exact hPlain.imp_left (by simp)
  dotted identifier x hLookup view name hView hName v hMem
      hReference := by
    cases hScope with
    | item i s _ hTest =>
        rw [hTest] at hView
        cases hView
    | test t s view' _ _ _ hView' hShows =>
        rw [hView'] at hView
        cases hView
        rcases hCleared.exists_item hName hLookup with
          ⟨ref, i, hRef, hItem, hDeclared⟩
        rw [← hReference] at hRef
        rw [hShows.declarations_of_mem
          (hCleared.refsDistinct hDefined) hRef hItem hMem]
        exact hDeclared
  sound identifier x hDeclared := by
    rcases hCleared.built d hDefined with ⟨document, hRead⟩
    rw [Scope.declaration?, hScope.declarations] at hDeclared
    have hBuilt := Definition.isBuilt_of_ofDocument hRead x
      (mem_of_findDeclaration? hDeclared).1
    exact ⟨Declaration.accepts_initial hBuilt,
      fun v => Declaration.accepts_correct hBuilt⟩
  fixed hTest := by
    cases hScope with
    | item i s _ hNone =>
        rw [hNone] at hTest
        cases hTest
    | test t s view hDeclarations hDefaults hCorrects _ _ =>
        refine ⟨hDefaults, hCorrects, fun identifier x hX => ?_⟩
        rw [Scope.declaration?, hDeclarations] at hX
        have hKind := (hCleared.test_isBuilt hDefined).kind
          (mem_of_findDeclaration? hX).1
        rw [Declaration.correct?,
          Declaration.response?_of_outcome hKind]
        rfl

end Package

------------------------------------------------------------
-- Sessions
------------------------------------------------------------

open Stateful

namespace Package

variable {c : Catalogue}
variable {p : Package}

/- Sessions on an item have its scopes. -/
theorem scopeOf_item (s : ItemSession) :
    p.ScopeOf (.item s.item) s.scope :=
  .item s.item s.scope rfl rfl

/- Sessions on a test do so, whatever is called. -/
theorem scopeOf_test
    {t : Test}
    {engine : Engine}
    {draws : Draws}
    {first : TestSession}
    (hStart :
      TestSession.start t p.items engine draws = .ok first)
    (calls : List TestCall) :
    p.ScopeOf (.test t) (first.after calls).scope := by
  rcases TestSession.start_refers hStart with ⟨rfl, hStarts⟩
  rcases (hStarts.after calls).exists_view with
    ⟨view, hView, hShows⟩
  have hTest := first.after_test calls
  rw [hTest] at hShows
  refine .test first.test _ view ?_ rfl rfl hView hShows
  rw [← hTest]
  rfl

------------------------------------------------------------
-- Packages
------------------------------------------------------------

/-
  The documents of a package keep to their static types in all
  sessions, whatever the values of variables, if these are
  accepted by their declarations: leaves that do not stray do,
  no other ones do, and so do all expressions whose types rest
  on no other ones.
-/
structure TypesHold (c : Catalogue) (p : Package) : Prop where
  items :
    ∀ s, p.Reaches s →
      .item s.item ∈ c.definitions ∧
        p.ScopeOf (.item s.item) s.scope
  tests :
    ∀ name t, p.tests.get? name = some t →
      .test t ∈ c.definitions ∧
        ∀ (engine : Engine) (draws : Draws)
          (first : TestSession),
          TestSession.start t p.items engine draws = .ok first →
          ∀ calls : List TestCall,
            p.ScopeOf (.test t) (first.after calls).scope
  leaves :
    ∀ d ∈ c.definitions, ∀ s, p.ScopeOf d s → s.Conforms →
      ∀ engine : Engine, engine.service = none →
        ∀ l : Leaf, d.Mentions l →
          Step.Gives
            (((Expression.leaf l).staticType
              (c.lookup d)).DescribesUnless
                (l.Strays (c.lookup d) s))
            ((Expression.leaf l).evaluate engine s)
  expressions :
    ∀ d ∈ c.definitions, ∀ s, p.ScopeOf d s → s.Conforms →
      ∀ engine : Engine, engine.service = none →
        ∀ e : Expression, d.Holds e →
          (∀ l ∈ e.basis, ¬ l.Strays (c.lookup d) s) →
            Step.Gives (e.staticType (c.lookup d)).Admits
              (e.evaluate engine s)

theorem Cleared.typesHold (hCleared : p.Cleared c) :
    p.TypesHold c where
  items s hReached := by
    rcases hReached.item with ⟨name, hItem⟩
    exact ⟨hCleared.items name s.item hItem, scopeOf_item s⟩
  tests name t hTest :=
    ⟨hCleared.tests name t hTest,
      fun _ _ _ hStart => scopeOf_test hStart⟩
  leaves d hDefined s hScope hConforms engine hNone l _ := by
    rw [Expression.staticType, Expression.evaluate]
    exact Leaf.gives_describesUnless hNone
      (hCleared.realizes hDefined hScope) hConforms l
  expressions d hDefined s hScope hConforms engine hNone e
      hHolds hBasis := by
    rcases hCleared.built d hDefined with ⟨x, hRead⟩
    apply Expression.gives_admitted hNone hConforms.wellFormed
      (Definition.isRead_of_ofDocument hRead hHolds)
    exact Expression.founded_of_not_strays hNone
      (hCleared.realizes hDefined hScope) hConforms hBasis

/-
  In a package that validation finds no error in, expressions
  have values of the types that validation states for them,
  but for types that rest on leaves that stray.
-/
theorem validated_typesHold
    (v : Json)
    (r : Report)
    (hValid : validate v (Pass.all.map Pass.name) = .ok r)
    (hClean : r.has .error = false) :
    ∃ e p, Envelope.ofJson v = .ok e ∧ ofJson v = .ok p ∧
      p.TypesHold (.ofEnvelope e) := by
  rcases exists_cleared hValid hClean with
    ⟨e, p, hEnvelope, hBuild, hCleared⟩
  exact ⟨e, p, hEnvelope, hBuild, hCleared.typesHold⟩

------------------------------------------------------------
-- A Test That Weighs Its Own Outcome
------------------------------------------------------------

/- The value of the outcome, maybe under a weight. -/
def count (weight : List (String × Json)) : Json :=
  .ofMembers ([
    ("expr", .string "variable"),
    ("identifier", .string "COUNT")] ++ weight)

/-
  A test that counts two and asks whether that count, under a
  weight, is the greater of the count and the count as a
  float.
-/
def weighingPackage : Json :=
  .ofMembers [
    ("id", .string "package"),
    ("documents", .array [
      .ofMembers [
        ("kind", .string "AssessmentItem"),
        ("identifier", .string "item")],
      .ofMembers [
        ("kind", .string "AssessmentTest"),
        ("identifier", .string "test"),
        ("outcomeDeclarations", .array [
          .ofMembers [
            ("identifier", .string "COUNT"),
            ("cardinality", .string "single"),
            ("baseType", .string "integer"),
            ("defaultValue", .int 2)],
          .ofMembers [
            ("identifier", .string "SAME"),
            ("cardinality", .string "single"),
            ("baseType", .string "boolean")]]),
        ("testParts", .array [
          .ofMembers [
            ("identifier", .string "part"),
            ("assessmentSections", .array [
              .ofMembers [
                ("identifier", .string "section"),
                ("sectionParts", .array [
                  .ofMembers [
                    ("kind", .string "assessmentItemRef"),
                    ("identifier", .string "ref"),
                    ("href", .string "item")]])]])]]),
        ("outcomeProcessing", .array [
          .ofMembers [
            ("rule", .string "setOutcomeValue"),
            ("identifier", .string "SAME"),
            ("expression", .ofMembers [
              ("expr", .string "match"),
              ("args", .array [
                count [("weightIdentifier", .string "W")],
                .ofMembers [
                  ("expr", .string "max"),
                  ("args", .array [
                    count [],
                    .ofMembers [
                      ("expr", .string "integerToFloat"),
                      ("args", .array [count []])]])]])])]])]])]

/- The count under the weight. -/
def weighedCount : Leaf :=
  .fetch "COUNT" (some "W")

/- The greater of the count and the count as a float. -/
def greaterCount : Expression :=
  .node (.plain .max) [
    .leaf (.fetch "COUNT" none),
    .node (.plain .integerToFloat) [
      .leaf (.fetch "COUNT" none)]]

/- The rules of the test of that package. -/
def weighingRules : List Rule :=
  [.setValue .outcome "SAME"
     (.node (.plain .match) [.leaf weighedCount, greaterCount])]

section

variable {lookup : String → Lookup}
variable {scope : Scope}
variable {d : Declaration}

theorem staticType_greaterCount
    (hLookup : lookup "COUNT" = .declared d)
    (hInteger : d.baseType = some .integer) :
    greaterCount.staticType lookup =
      ⟨some .single, some .float⟩ := by
  simp [greaterCount, Expression.staticType, Expression.joined,
    StaticType.isArithmetic, StaticType.ofLeaf,
    StaticType.ofDeclaration, StaticType.join, hLookup,
    hInteger, Operator.baseType?, Operator.cardinality?,
    PlainOperator.baseType?, PlainOperator.cardinality?,
    BaseType.isNumeric]

theorem staticType_weighedCount
    (hLookup : lookup "COUNT" = .declared d)
    (hSingle : d.cardinality = .single)
    (hInteger : d.baseType = some .integer) :
    (Expression.leaf weighedCount).staticType lookup =
      ⟨some .single, some .float⟩ := by
  simp [weighedCount, Expression.staticType, StaticType.ofLeaf,
    StaticType.ofDeclaration, StaticType.weighted, hLookup,
    hInteger, hSingle]

/- No weight is applied under a plain name. -/
theorem strays_weighedCount
    (hLookup : lookup "COUNT" = .declared d)
    (hInteger : d.baseType = some .integer) :
    weighedCount.Strays lookup scope := by
  rw [weighedCount, Leaf.strays_fetch_iff hLookup]
  refine Or.inr ⟨hInteger, "W", rfl, ?_⟩
  rintro ⟨_, view, name, _, hName, _⟩
  cases hName

/- The greater count rests on the count without a weight. -/
theorem basis_greaterCount_not_strays
    (hLookup : lookup "COUNT" = .declared d)
    (hSingle : d.cardinality = .single) :
    ∀ l ∈ greaterCount.basis, ¬ l.Strays lookup scope := by
  intro l hMem
  rw [List.mem_singleton.mp hMem, Leaf.strays_fetch_iff hLookup]
  simp [Declaration.IsTypedRecord, hSingle]

end

/- The session on the test, before any call. -/
def weighingSession? : Option TestSession := do
  let p ← (ofJson weighingPackage).toOption
  let t ← p.tests.get? "test"
  (TestSession.start t p.items ⟨{}, none⟩ default).toOption

/- What the session comes to, computed. -/
theorem exists_weighingSession :
    ∃ s, weighingSession? = some s ∧
      (s.after [.initialise]).scope.Conforms ∧
      (Stateful.run
          ((Expression.leaf weighedCount).evaluate ⟨{}, none⟩
            (s.after [.initialise]).scope)
          ⟨default, []⟩).1.toOption.bind Value.baseType? =
        some .integer ∧
      ((s.after [.initialise, .processOutcomes]).scope.value?
        "SAME").map Value.bool? = some (some false) := by
  have hChecked : (weighingSession?.any fun s =>
      decide ((s.after [.initialise]).scope.Conforms ∧
        (Stateful.run
            ((Expression.leaf weighedCount).evaluate ⟨{}, none⟩
              (s.after [.initialise]).scope)
            ⟨default, []⟩).1.toOption.bind Value.baseType? =
          some .integer ∧
        ((s.after [.initialise, .processOutcomes]).scope.value?
          "SAME").map Value.bool? = some (some false))) =
        true := by
    decide +kernel
  rw [Option.any_eq_true] at hChecked
  rcases hChecked with ⟨s, hSession, hHolds⟩
  exact ⟨s, hSession, of_decide_eq_true hHolds⟩

/-
  In the session that the rules run in, the greater count is a
  float, as it is stated, and the weighed count is not.
-/
theorem validated_typesHold_weighing :
    ∃ r, validate weighingPackage (Pass.all.map Pass.name) =
        .ok r ∧
      r.has .error = false ∧
      ∃ e p t first, Envelope.ofJson weighingPackage = .ok e ∧
        ofJson weighingPackage = .ok p ∧
        p.tests.get? "test" = some t ∧
        TestSession.start t p.items ⟨{}, none⟩ default =
          .ok first ∧
        (first.after [.initialise]).scope.Conforms ∧
        Step.Gives
          (StaticType.Admits ⟨some .single, some .float⟩)
          (greaterCount.evaluate ⟨{}, none⟩
            (first.after [.initialise]).scope) ∧
        Step.Gives
          (fun v => v = .null ∨
            ¬ StaticType.Describes ⟨some .single, some .float⟩ v)
          ((Expression.leaf weighedCount).evaluate ⟨{}, none⟩
            (first.after [.initialise]).scope) := by
  refine ⟨_, rfl, rfl, ?_⟩
  rcases validated_typesHold weighingPackage _ rfl rfl with
    ⟨e, p, hEnvelope, hBuild, hTypes⟩
  have hPackage : ∃ e p t d,
      Envelope.ofJson weighingPackage = .ok e ∧
        ofJson weighingPackage = .ok p ∧
        p.tests.get? "test" = some t ∧
        t.outcomeProcessing = weighingRules ∧
        (Catalogue.ofEnvelope e).lookup (.test t) "COUNT" =
          .declared d ∧
        d.cardinality = .single ∧ d.baseType = some .integer :=
    ⟨_, _, _, _, rfl, rfl, rfl, rfl, rfl, rfl, rfl⟩
  rcases hPackage with ⟨e', p', t, d, hEnvelope', hBuild', hTest,
    hRules, hLookup, hSingle, hInteger⟩
  rw [hEnvelope] at hEnvelope'
  rw [hBuild] at hBuild'
  cases hEnvelope'
  cases hBuild'
  rcases exists_weighingSession with
    ⟨first, hSession, hConforms, _⟩
  have hStart : TestSession.start t p.items ⟨{}, none⟩ default =
      .ok first := by
    apply eq_ok_of_toOption
    simpa [weighingSession?, hBuild, hTest, Except.toOption]
      using hSession
  rcases hTypes.tests "test" t hTest with ⟨hDefined, hScopes⟩
  have hScope := hScopes _ _ first hStart [.initialise]
  have hHolds : ∀ e : Expression,
      e ∈ [.leaf weighedCount, greaterCount] →
        (Definition.test t).Holds e := by
    intro e hMem
    refine ⟨⟨"outcomeProcessing", .outcome, t.outcomeProcessing⟩,
      by simp [Definition.ruleLists], ?_⟩
    rw [hRules]
    simp only [List.mem_cons, List.not_mem_nil,
      or_false] at hMem
    rcases hMem with rfl | rfl <;>
      simp [weighingRules, greaterCount, Rule.deedsIn,
        Rule.deeds, Deed.expression, Expression.subexpressions,
        Expression.subexpressionsIn]
  refine ⟨e, p, t, first, hEnvelope, hBuild, hTest, hStart,
    hConforms, ?_, ?_⟩
  · have hGreater := hTypes.expressions _ hDefined _ hScope
      hConforms ⟨{}, none⟩ rfl greaterCount
      (hHolds _ (by simp))
      (basis_greaterCount_not_strays hLookup hSingle)
    rw [staticType_greaterCount hLookup hInteger] at hGreater
    exact hGreater
  · have hWeighed := hTypes.leaves _ hDefined _ hScope
      hConforms ⟨{}, none⟩ rfl weighedCount
      (hHolds _ (by simp))
    rw [staticType_weighedCount hLookup hSingle hInteger]
      at hWeighed
    apply hWeighed.mono
    rintro v (hNull | hOnly)
    · exact Or.inl hNull
    · right
      rw [hOnly, not_not]
      exact strays_weighedCount hLookup hInteger

/-
  Validation states that the weighed count is a float, and
  finds nothing wrong but that the weight has no effect. So it
  has none, and the two counts differ.
-/
theorem validated_type_missed :
    ∃ r e p t first,
      validate weighingPackage (Pass.all.map Pass.name) =
        .ok r ∧
      r.has .error = false ∧
      Envelope.ofJson weighingPackage = .ok e ∧
      ofJson weighingPackage = .ok p ∧
      p.tests.get? "test" = some t ∧
      t.outcomeProcessing = weighingRules ∧
      TestSession.start t p.items ⟨{}, none⟩ default =
        .ok first ∧
      (first.after [.initialise]).scope.Conforms ∧
      (Expression.leaf weighedCount).staticType
          ((Catalogue.ofEnvelope e).lookup (.test t)) =
        ⟨some .single, some .float⟩ ∧
      (Stateful.run
          ((Expression.leaf weighedCount).evaluate ⟨{}, none⟩
            (first.after [.initialise]).scope)
          ⟨default, []⟩).1.toOption.bind Value.baseType? =
        some .integer ∧
      ((first.after [.initialise, .processOutcomes]).scope.value?
        "SAME").map Value.bool? = some (some false) := by
  rcases exists_weighingSession with ⟨first, hSession, hRuns⟩
  refine ⟨_, _, _, _, first, rfl, rfl, rfl, rfl, rfl, rfl, ?_,
    hRuns.1, rfl, hRuns.2⟩
  apply eq_ok_of_toOption
  exact hSession

end Package

end Assessment
