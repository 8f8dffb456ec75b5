import Assessment.Proofs.Test.Typing

/-
  The types of variables in a package.

  Validation promises that the variables of every session on
  a package have values of their types. It keeps the promise
  but for two things that it does not ask about: the defaults
  that references give to template variables, and the
  variables that controls set to false.

  Main declarations:
    * `Package.StaysTyped`, what validation promises
    * `Package.staysTyped_iff`, when it keeps the promise
-/

------------------------------------------------------------
-- The Promise
------------------------------------------------------------

namespace Assessment

open Stateful

/-
  Every outcome of the test and every variable of its items
  has a value that it accepts.
-/
def TestSession.Typed (s : TestSession) : Prop :=
  (∀ d ∈ s.test.declarations,
    d.accepts ((s.state.values.get? d.identifier).getD .null) =
      true) ∧
  ∀ e ∈ s.entries, e.session.Typed

namespace Package

/-
  All sessions on items and tests of a package are typed,
  whatever is called on them.
-/
structure StaysTyped (p : Package) : Prop where
  items : ∀ s, p.Reaches s → s.Typed
  tests :
    ∀ name t, p.tests.get? name = some t →
      ∀ (engine : Engine) (draws : Draws) (first : TestSession),
        TestSession.start t p.items engine draws = .ok first →
        ∀ calls : List TestCall, (first.after calls).Typed

/- Binding nothing to an open session clears its controls. -/
theorem ends_bindNothing
    {s : ItemSession}
    (hOpen : s.IsOpen) :
    (s.after [.bindResponses []]).item = s.item ∧
      (s.after [.bindResponses []]).state.values =
        ItemSession.clearControls s.item s.state.values := by
  have hEnds :
      Ends (ItemCall.action (.bindResponses [])) s fun _ t =>
        t.item = s.item ∧
          t.state.values =
            ItemSession.clearControls s.item s.state.values := by
    refine ends_discard.mpr ?_
    rw [ItemSession.ends_bindResponses, if_pos hOpen.1,
      if_neg (by simp [hOpen.2])]
    exact ⟨rfl, rfl⟩
  exact hEnds

/-
  Among declarations that go together the promise is kept if
  both gaps are closed, and only then.
-/
theorem staysTyped_iff
    {p : Package}
    (hDeclared : p.WellDeclared) :
    p.StaysTyped ↔ p.GapsClosed := by
  constructor
  · intro hTyped
    constructor
    · intro s hReached defaults hOffers d hMem _ _
      refine hTyped.items _ (hReached.call s _ ?_) d hMem
      rintro _ ⟨⟩
      exact hOffers
    · intro s hReached hOpen e hMem d hFound
      rcases ends_bindNothing hOpen with ⟨hItem, hValues⟩
      have hReached' := hReached.call s (.bindResponses [])
        (by simp [Permits])
      rcases mem_of_findDeclaration? hFound with ⟨hIn, hName⟩
      have hAccepts := hTyped.items _ hReached' d (hItem ▸ hIn)
      rw [ItemState.value, hValues, hName,
        ItemSession.get?_clearControls hMem hFound] at hAccepts
      exact hAccepts
  · intro hClosed
    refine ⟨fun s hReached => (hReached.typed hDeclared
      hClosed).2, ?_⟩
    intro name t hTest engine draws first hStart calls
    rcases TestSession.start_hosts hTest hStart with
      ⟨rfl, hHosts, hFit⟩
    have hKeeps : first.Keeps p (first.after calls) :=
      after_moves TestCall.keeps first calls
    have hTestDeclared := hDeclared.tests name first.test hTest
    constructor
    · have hOutcomes := hKeeps.outcomes hTestDeclared hFit
      unfold TestSession.OutcomesFit at hOutcomes
      rw [hKeeps.test] at hOutcomes ⊢
      intro d hMem
      exact hOutcomes.accepts (hTestDeclared.found d hMem)
    · intro e hMem
      exact ((hKeeps.hosts hHosts e hMem).1.typed hDeclared
        hClosed).2

/-
  A package that validation finds no error in can be built,
  and its sessions stay typed exactly if both gaps that
  validation leaves are closed.
-/
theorem validated_staysTyped_iff
    (v : Json)
    (r : Report)
    (hValid : validate v (Pass.all.map Pass.name) = .ok r)
    (hClean : r.has .error = false) :
    ∃ p, ofJson v = .ok p ∧ (p.StaysTyped ↔ p.GapsClosed) := by
  rcases exists_of_validate hValid hClean with
    ⟨p, hBuild, hDeclared⟩
  exact ⟨p, hBuild, staysTyped_iff hDeclared⟩

------------------------------------------------------------
-- The Gaps
------------------------------------------------------------

/-
  An item with a response of a base type, and a control that
  ends attempts on it.
-/
def controlPackage (type : String) : Json :=
  .ofMembers [
    ("id", .string "package"),
    ("documents", .array [
      .ofMembers [
        ("kind", .string "AssessmentItem"),
        ("identifier", .string "item"),
        ("responseDeclarations", .array [
          .ofMembers [
            ("identifier", .string "STOP"),
            ("cardinality", .string "single"),
            ("baseType", .string type)]]),
        ("endAttempts", .array [.array [.string "STOP"]])]])]

/- The item of that package. -/
def controlItem (type : BaseType) : Item where
  identifier := "item"
  title := none
  adaptive := false
  timeDependent := false
  responses := [
    { identifier := "STOP"
      cardinality := .single
      baseType := some type
      defaultValue := none
      detail := .response Builtin.plainResponse }]
  outcomes := []
  templates := []
  templateProcessing := []
  responseProcessing := []
  endAttempts := [⟨"STOP", true⟩]

/- A truth value may be set to false, so the gaps are closed. -/
theorem validated_staysTyped_iff_boolean :
    ∃ r, validate (controlPackage "boolean")
        (Pass.all.map Pass.name) = .ok r ∧
      r.has .error = false ∧
      ∃ p, ofJson (controlPackage "boolean") = .ok p ∧
        p.StaysTyped := by
  refine ⟨⟨Pass.all, []⟩, rfl, rfl, ?_⟩
  rcases exists_of_validate (v := controlPackage "boolean")
      (r := ⟨Pass.all, []⟩) rfl rfl with ⟨p, hBuild, hDeclared⟩
  rcases validated_staysTyped_iff (controlPackage "boolean")
      ⟨Pass.all, []⟩ rfl rfl with ⟨p', hBuild', hIff⟩
  rw [hBuild] at hBuild'
  cases hBuild'
  refine ⟨p, hBuild, hIff.mpr (Suited.gapsClosed hDeclared ?_)⟩
  have hPackage : ofJson (controlPackage "boolean") =
      .ok ⟨"package", [("item", controlItem .boolean)], []⟩ :=
    rfl
  rw [hPackage] at hBuild
  cases hBuild
  constructor
  · rintro i defaults (rfl | ⟨name, t, hTest, _⟩) g hMem
    · cases hMem
    · cases hTest
  · intro name i hItem
    have hSame : i = controlItem .boolean := by
      simp only [Keyed.get?] at hItem
      split at hItem
      · exact (Option.some.inj hItem).symm
      · cases hItem
    subst hSame
    intro e hMem d hFound
    rcases List.mem_singleton.mp hMem with rfl
    cases hFound
    rfl

/-
  An item with an integer for a template variable, and a
  reference to it that gives the variable a text.
-/
def givenPackage : Json :=
  .ofMembers [
    ("id", .string "package"),
    ("documents", .array [
      .ofMembers [
        ("kind", .string "AssessmentItem"),
        ("identifier", .string "item"),
        ("templateDeclarations", .array [
          .ofMembers [
            ("identifier", .string "SEED"),
            ("cardinality", .string "single"),
            ("baseType", .string "integer")]])],
      .ofMembers [
        ("kind", .string "AssessmentTest"),
        ("identifier", .string "test"),
        ("testParts", .array [
          .ofMembers [
            ("identifier", .string "part"),
            ("assessmentSections", .array [
              .ofMembers [
                ("identifier", .string "section"),
                ("sectionParts", .array [
                  .ofMembers [
                    ("kind", .string "assessmentItemRef"),
                    ("identifier", .string "ref"),
                    ("href", .string "item"),
                    ("templateDefaults", .array [
                      .ofMembers [
                        ("templateIdentifier", .string "SEED"),
                        ("expression", .ofMembers [
                          ("expr", .string "baseValue"),
                          ("baseType", .string "string"),
                          ("value", .string "seven")
                        ])]])]])]])]])]])]

/- The item of that package, and what the test gives it. -/
def givenItem : Item where
  identifier := "item"
  title := none
  adaptive := false
  timeDependent := false
  responses := []
  outcomes := []
  templates := [
    { identifier := "SEED"
      cardinality := .single
      baseType := some .integer
      defaultValue := none
      detail := .template ⟨false, false⟩ }]
  templateProcessing := []
  responseProcessing := []
  endAttempts := []

def givenDefaults : List TemplateDefault :=
  [⟨"SEED", .leaf (.base (.single (.string "seven")))⟩]

def givenRef : ItemRef where
  identifier := "ref"
  href := "item"
  required := false
  fixed := false
  categories := []
  weights := []
  templateDefaults := givenDefaults
  control := none
  timeLimits := none

/- A run that leaves a variable a value it does not accept. -/
theorem not_staysTyped_of_run
    {p : Package}
    (name : String)
    (item : Item)
    (hItem : p.items.get? name = some item)
    (calls : List ItemCall)
    (hPermits : ∀ c ∈ calls, p.Permits item c)
    (hMisfit :
      let s :=
        (ItemSession.fresh item ⟨{}, none⟩ default {} none
          .individual).after calls
      ∃ d ∈ s.item.declarations,
        d.accepts (s.state.value d.identifier) = false) :
    ¬ p.StaysTyped := by
  intro hTyped
  rcases hMisfit with ⟨d, hMem, hMisfit⟩
  have hReached := Reaches.after
    (.fresh name item ⟨{}, none⟩ default {} none .individual
      hItem) hPermits
  rw [hTyped.items _ hReached d hMem] at hMisfit
  cases hMisfit

/- Validation finds nothing wrong, and yet types are lost. -/
def LosesTypes (v : Json) : Prop :=
  ∃ r p, validate v (Pass.all.map Pass.name) = .ok r ∧
    r.has .error = false ∧ ofJson v = .ok p ∧ ¬ p.StaysTyped

/- Either gap is enough for it. -/
theorem validated_not_staysTyped :
    LosesTypes (controlPackage "identifier") ∧
      LosesTypes givenPackage := by
  constructor
  · refine ⟨⟨Pass.all, []⟩,
      ⟨"package", [("item", controlItem .identifier)], []⟩,
      rfl, rfl, rfl, ?_⟩
    refine not_staysTyped_of_run "item"
      (controlItem .identifier) rfl
      [.initialise [], .bindResponses []] ?_ ?_
    · rintro c hMem defaults rfl
      simp at hMem
      exact Or.inl hMem
    · decide +kernel
  · have hPackage :
        ∃ t : Test, t.placements = [⟨givenRef, ["section"]⟩] ∧
          ofJson givenPackage =
            .ok ⟨"package", [("item", givenItem)],
              [("test", t)]⟩ :=
      ⟨_, rfl, rfl⟩
    rcases hPackage with ⟨t, hPlacements, hPackage⟩
    refine ⟨⟨Pass.all, []⟩, _, rfl, rfl, hPackage, ?_⟩
    refine not_staysTyped_of_run "item" givenItem rfl
      [.initialise givenDefaults] ?_ ?_
    · rintro c hMem defaults rfl
      simp at hMem
      subst hMem
      exact Or.inr ⟨"test", t, rfl, ⟨givenRef, ["section"]⟩,
        by simp [hPlacements], rfl, rfl⟩
    · decide +kernel

end Package

end Assessment
