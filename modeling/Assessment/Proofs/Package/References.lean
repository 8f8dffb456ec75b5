import Assessment.Proofs.Package.Sessions
import Assessment.Proofs.Validation.References

/-
  The references of validated packages.

  Validation promises that references lead somewhere. In items
  they always do, and so do the variable leaves of tests,
  dotted names included. A test has no other use for dotted
  names: where its rules ask for the default, the correct
  value or the score of a variable of an item, validation
  looks among the items, and evaluation among the outcomes of
  the test.

  Main declarations:
    * `Leaf.Misled`, what is sought in different places
    * `Package.ReferencesFound`, for all sessions of a package
    * `Package.validated_referencesFound`
-/

------------------------------------------------------------
-- Scopes
------------------------------------------------------------

namespace Assessment

open Stateful

/- Two scopes have the same variables, whatever their values. -/
structure Scope.SameNames (s u : Scope) : Prop where
  declarations : u.declarations = s.declarations
  test : u.test = s.test

/-
  A leaf of a test that means a variable of an item and is
  taken to mean an outcome of the test, which there is none.
-/
def Leaf.Misled (t : Test) : Leaf → Prop
  | .initial identifier | .correct identifier =>
      (DottedName.parse? identifier).isSome = true ∧
        t.declaration? identifier = none
  | .mapResponse identifier | .mapPoints identifier =>
      (DottedName.parse? identifier).isSome = true
  | _ => False

namespace Package

variable {c : Catalogue}
variable {p : Package}

/-
  References in the rules of items are found in all sessions
  on them, whatever the values of variables. In tests, all are
  found but those that are misled, and these never are.
-/
structure ReferencesFound (p : Package) : Prop where
  items :
    ∀ s, p.Reaches s →
      ∀ (engine : Engine) (scope : Scope),
        s.scope.SameNames scope →
        ∀ l : Leaf, (Definition.item s.item).Mentions l →
          l.identifier?.isSome = true → l.Finds engine scope
  tests :
    ∀ name t, p.tests.get? name = some t →
      ∀ (engine : Engine) (draws : Draws) (first : TestSession),
        TestSession.start t p.items engine draws = .ok first →
        ∀ (calls : List TestCall) (scope : Scope),
          (first.after calls).scope.SameNames scope →
          ∀ l : Leaf, (Definition.test t).Mentions l →
            l.identifier?.isSome = true →
              (¬ l.Misled t → l.Finds engine scope) ∧
                (l.Misled t → l.Misses engine scope)

------------------------------------------------------------
-- Items
------------------------------------------------------------

/- The rules of an item refer to nothing but its variables. -/
theorem Cleared.item_finds
    (hCleared : p.Cleared c)
    {i : Item}
    (hDefined : .item i ∈ c.definitions)
    {l : Leaf}
    (hMentions : (Definition.item i).Mentions l)
    (hRefers : l.identifier?.isSome = true)
    (engine : Engine)
    {scope : Scope}
    (hScope : scope.declarations = i.declarations)
    (hItem : scope.test = none) :
    l.Finds engine scope := by
  rcases Option.isSome_iff_exists.mp hRefers with
    ⟨identifier, hName⟩
  rcases hCleared.exists_declared hDefined hMentions hName with
    ⟨x, hLookup, hMet⟩
  have hDeclared :=
    Catalogue.declaration?_of_lookup (Or.inl rfl) hLookup
  apply Leaf.finds_of_declared hName _ hMet
  · exact fun _ => Or.inl hItem
  · rw [Scope.declaration?, hScope]
    exact hDeclared

------------------------------------------------------------
-- Tests
------------------------------------------------------------

/-
  The rules of a test refer to its outcomes, by plain names,
  and to what its view shows of items, by dotted names.
-/
theorem Cleared.test_finds
    (hCleared : p.Cleared c)
    {name : String}
    {t : Test}
    (hTest : p.tests.get? name = some t)
    {l : Leaf}
    (hMentions : (Definition.test t).Mentions l)
    (hRefers : l.identifier?.isSome = true)
    (engine : Engine)
    {scope : Scope}
    (hScope : scope.declarations = t.declarations)
    {view : TestView}
    (hView : scope.test = some view)
    (hShows : view.Shows t p.items)
    (hLed : ¬ l.Misled t) :
    l.Finds engine scope := by
  have hDefined := hCleared.tests name t hTest
  rcases Option.isSome_iff_exists.mp hRefers with
    ⟨identifier, hName⟩
  rcases hCleared.exists_declared hDefined hMentions hName with
    ⟨x, hLookup, hMet⟩
  cases hDotted : DottedName.parse? identifier with
  | none =>
      have hDeclared :=
        Catalogue.declaration?_of_lookup (Or.inr hDotted) hLookup
      apply Leaf.finds_of_declared hName _ hMet
      · exact fun _ => Or.inr hDotted
      · rw [Scope.declaration?, hScope]
        exact hDeclared
  | some dotted =>
      have hOwn : ∀ d, t.declaration? identifier = some d →
          scope.declaration? identifier = some d := by
        intro d hFound
        rw [Scope.declaration?, hScope]
        exact hFound
      cases l with
      | fetch _ weight =>
          cases hName
          rcases hCleared.exists_item hDotted hLookup with
            ⟨ref, i, hRef, hItem, hDeclared⟩
          apply Leaf.finds_of_resolve hView hDotted
          exact hShows.resolve_ne_unknown
            (hCleared.refsDistinct hDefined) hRef hItem hDeclared
      | initial _ =>
          cases hName
          cases hFound : t.declaration? identifier with
          | none =>
              exact absurd ⟨by rw [hDotted]; rfl, hFound⟩ hLed
          | some d =>
              apply Leaf.finds_of_declared rfl (hOwn d hFound) rfl
              rintro ⟨_, hOther⟩
              cases hOther
      | correct _ =>
          cases hName
          cases hFound : t.declaration? identifier with
          | none =>
              exact absurd ⟨by rw [hDotted]; rfl, hFound⟩ hLed
          | some d =>
              -- a test has an answer for any outcome: NULL
              unfold Leaf.Finds
              rw [Leaf.evaluate, Scope.correct?, hOwn d hFound]
              exact Step.pure_works _
      | mapResponse _ =>
          cases hName
          exact absurd (by rw [Leaf.Misled, hDotted]; rfl) hLed
      | mapPoints _ =>
          cases hName
          exact absurd (by rw [Leaf.Misled, hDotted]; rfl) hLed
      | base v => cases hName
      | null => cases hName
      | randomInteger min max step => cases hName
      | randomFloat min max => cases hName
      | constant k => cases hName
      | items s => cases hName

/- What is misled is not found, whatever the items have. -/
theorem Cleared.test_misses
    (hCleared : p.Cleared c)
    {name : String}
    {t : Test}
    (hTest : p.tests.get? name = some t)
    {l : Leaf}
    (engine : Engine)
    {scope : Scope}
    (hScope : scope.declarations = t.declarations)
    (hMisled : l.Misled t) :
    l.Misses engine scope := by
  have hSame : ∀ identifier,
      scope.declaration? identifier =
        t.declaration? identifier := by
    intro identifier
    rw [Scope.declaration?, hScope]
    rfl
  have hScores : ∀ identifier,
      l ∈ [.mapResponse identifier, .mapPoints identifier] →
        l.Misses engine scope := by
    intro identifier hLeaf
    cases hFound : scope.declaration? identifier with
    | none =>
        apply Leaf.misses_of_undeclared identifier _ hFound
        simp only [List.mem_cons, List.not_mem_nil,
          or_false] at hLeaf ⊢
        tauto
    | some d =>
        have hOwn := hFound
        rw [hSame] at hOwn
        have hBuilt :=
          hCleared.test_isBuilt (hCleared.tests name t hTest)
        have hNone := Declaration.response?_of_outcome
          (hBuilt.kind (mem_of_findDeclaration? hOwn).1)
        apply Leaf.misses_of_unscored identifier hLeaf hFound
        · rw [Declaration.mapping?, hNone]
          rfl
        · rw [Declaration.areaMapping?, hNone]
          rfl
  cases l with
  | initial identifier =>
      apply Leaf.misses_of_undeclared identifier
      · simp
      · rw [hSame]
        exact hMisled.2
  | correct identifier =>
      apply Leaf.misses_of_undeclared identifier
      · simp
      · rw [hSame]
        exact hMisled.2
  | mapResponse identifier => exact hScores identifier (by simp)
  | mapPoints identifier => exact hScores identifier (by simp)
  | fetch identifier weight => cases hMisled
  | base v => cases hMisled
  | null => cases hMisled
  | randomInteger min max step => cases hMisled
  | randomFloat min max => cases hMisled
  | constant k => cases hMisled
  | items s => cases hMisled

------------------------------------------------------------
-- Packages
------------------------------------------------------------

theorem Cleared.referencesFound (hCleared : p.Cleared c) :
    p.ReferencesFound := by
  constructor
  · intro s hReached engine scope hSame l hMentions hRefers
    rcases hReached.item with ⟨name, hItem⟩
    exact hCleared.item_finds (hCleared.items name s.item hItem)
      hMentions hRefers engine hSame.declarations hSame.test
  · intro name t hTest engine draws first hStart calls scope
      hSame l hMentions hRefers
    rcases TestSession.start_refers hStart with ⟨rfl, hStarts⟩
    have hRefersTo := hStarts.after calls
    rcases hRefersTo.exists_view with ⟨view, hView, hShows⟩
    have hTestSame := first.after_test calls
    rw [hTestSame] at hShows
    have hScope : scope.declarations =
        first.test.declarations := by
      rw [hSame.declarations, ← hTestSame]
      rfl
    constructor
    · rw [← hSame.test] at hView
      exact hCleared.test_finds hTest hMentions hRefers engine
        hScope hView hShows
    · exact hCleared.test_misses hTest engine hScope

/-
  In a package that validation finds no error in, references
  lead somewhere in all sessions, but for those of tests that
  ask for more than the value of a variable of an item.
-/
theorem validated_referencesFound
    (v : Json)
    (r : Report)
    (hValid : validate v (Pass.all.map Pass.name) = .ok r)
    (hClean : r.has .error = false) :
    ∃ p, ofJson v = .ok p ∧ p.ReferencesFound := by
  rcases exists_cleared hValid hClean with
    ⟨_, p, _, hBuild, hCleared⟩
  exact ⟨p, hBuild, hCleared.referencesFound⟩

------------------------------------------------------------
-- A Test That Quotes Its Item
------------------------------------------------------------

/- An outcome that holds a number. -/
def numberOutcome (identifier : String) : Json :=
  .ofMembers [
    ("identifier", .string identifier),
    ("cardinality", .string "single"),
    ("baseType", .string "float")]

/- A rule that sets an outcome to what a leaf quotes. -/
def quotingRule (outcome leaf : String) : Json :=
  .ofMembers [
    ("rule", .string "setOutcomeValue"),
    ("identifier", .string outcome),
    ("expression", .ofMembers [
      ("expr", .string leaf),
      ("identifier", .string "ref.SCORE")])]

/-
  A test that takes over the score of its item, and in another
  outcome the default of the score.
-/
def quotingPackage : Json :=
  .ofMembers [
    ("id", .string "package"),
    ("documents", .array [
      .ofMembers [
        ("kind", .string "AssessmentItem"),
        ("identifier", .string "item"),
        ("outcomeDeclarations", .array [
          numberOutcome "SCORE"])],
      .ofMembers [
        ("kind", .string "AssessmentTest"),
        ("identifier", .string "test"),
        ("outcomeDeclarations", .array [
          numberOutcome "TOTAL", numberOutcome "START"]),
        ("testParts", .array [
          .ofMembers [
            ("identifier", .string "part"),
            ("assessmentSections", .array [
              .ofMembers [
                ("identifier", .string "section"),
                ("sectionParts", .array [
                  .ofMembers [
                    ("kind", .string "assessmentItemRef"),
                    ("identifier", .string "ref"),
                    ("href", .string "item")]])]])]]),
        ("outcomeProcessing", .array [
          quotingRule "TOTAL" "variable",
          quotingRule "START" "default"])]])]

/- The rules of the test of that package. -/
def quotingRules : List Rule :=
  [.setValue .outcome "TOTAL"
     (.leaf (.fetch "ref.SCORE" none)),
   .setValue .outcome "START"
     (.leaf (.initial "ref.SCORE"))]

/- Its score is found in all sessions, and its default never. -/
theorem validated_referencesFound_quoted :
    ∃ r, validate quotingPackage (Pass.all.map Pass.name) =
        .ok r ∧
      r.has .error = false ∧
      ∃ p t, ofJson quotingPackage = .ok p ∧
        p.tests.get? "test" = some t ∧
        ∀ (engine : Engine) (draws : Draws)
          (first : TestSession),
          TestSession.start t p.items engine draws = .ok first →
          ∀ calls : List TestCall,
            (Leaf.fetch "ref.SCORE" none).Finds engine
                (first.after calls).scope ∧
              (Leaf.initial "ref.SCORE").Misses engine
                (first.after calls).scope := by
  refine ⟨⟨Pass.all, []⟩, rfl, rfl, ?_⟩
  rcases validated_referencesFound quotingPackage
      ⟨Pass.all, []⟩ rfl rfl with ⟨p, hBuild, hFound⟩
  have hPackage : ∃ i t,
      ofJson quotingPackage =
        .ok ⟨"package", [("item", i)], [("test", t)]⟩ ∧
      t.outcomeProcessing = quotingRules ∧
      t.declaration? "ref.SCORE" = none :=
    ⟨_, _, rfl, rfl, rfl⟩
  rcases hPackage with ⟨i, t, hPackage, hRules, hNone⟩
  rw [hBuild] at hPackage
  cases hPackage
  refine ⟨_, t, hBuild, rfl, ?_⟩
  intro engine draws first hStart calls
  have hMentions : ∀ l : Leaf,
      l ∈ [.fetch "ref.SCORE" none, .initial "ref.SCORE"] →
        (Definition.test t).Mentions l := by
    intro l hLeaf
    refine ⟨⟨"outcomeProcessing", .outcome, t.outcomeProcessing⟩,
      by simp [Definition.ruleLists], ?_⟩
    rw [hRules]
    simp only [List.mem_cons, List.not_mem_nil,
      or_false] at hLeaf
    rcases hLeaf with rfl | rfl <;>
      simp [quotingRules, Rule.deedsIn, Rule.deeds,
        Deed.expression, Expression.subexpressions]
  have hLeaf := hFound.tests "test" t rfl engine draws first
    hStart calls (first.after calls).scope ⟨rfl, rfl⟩
  constructor
  · exact (hLeaf _ (hMentions _ (by simp)) rfl).1 (by simp
      [Leaf.Misled])
  · exact (hLeaf _ (hMentions _ (by simp)) rfl).2 ⟨rfl, hNone⟩

/-
  Validation finds nothing wrong with the package, and yet its
  outcome rules leave a warning.
-/
theorem validated_reference_missed :
    ∃ r p t first, validate quotingPackage
        (Pass.all.map Pass.name) = .ok r ∧
      r.has .error = false ∧
      ofJson quotingPackage = .ok p ∧
      p.tests.get? "test" = some t ∧
      t.outcomeProcessing = quotingRules ∧
      TestSession.start t p.items ⟨{}, none⟩ default =
        .ok first ∧
      (first.after [.initialise, .processOutcomes]).allNotes =
        [⟨.warning, "test",
          "default: undeclared variable 'ref.SCORE'"⟩] := by
  refine ⟨_, _, _, _, rfl, rfl, rfl, rfl, rfl, rfl, ?_⟩
  decide +kernel

end Package

end Assessment
