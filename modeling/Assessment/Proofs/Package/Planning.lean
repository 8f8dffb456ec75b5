import Assessment.Proofs.Plan.Selection
import Assessment.Proofs.Test.Steps
import Assessment.Proofs.Validation.Structure

/-
  Plans of tests in a package.

  Validation promises that the tests of a package can be
  planned. It asks the questions about selections that
  planning depends on, all but one: where there are no
  children at all, a selection with replacement has nothing
  to draw from, and validation only warns of the empty
  section.

  Main declarations:
    * `Package.Plans`, what validation promises
    * `Package.validated_plans_iff`, when it keeps the promise
-/

------------------------------------------------------------
-- Starts
------------------------------------------------------------

namespace Assessment

open Stateful

namespace TestSession

/- A test that is planned without a note starts without one. -/
theorem start_of_quiet
    {t : Test}
    {items : Keyed Item}
    {draws : Draws}
    (hQuiet : Ends
      (Assessment.plan t fun r => (items.get? r.href).isSome)
      ⟨draws, []⟩ (Planning.Quiet ⟨draws, []⟩))
    (engine : Engine) :
    ∃ first, start t items engine draws = .ok first ∧
      first.allNotes = [] := by
  rcases hQuiet with ⟨⟨p, hPlan⟩, hNotes⟩
  refine ⟨_, start_iff.mpr ⟨p, _, Prod.ext hPlan rfl, rfl⟩, ?_⟩
  rw [allNotes, List.append_eq_nil_iff, List.flatMap_eq_nil_iff]
  exact ⟨hNotes, fun e hMem =>
    (fresh_of_mem_makeEntries hMem).notes⟩

end TestSession

------------------------------------------------------------
-- The Promise
------------------------------------------------------------

/- Sections without children select nothing. -/
def Test.Drawable (t : Test) : Prop :=
  ∀ s ∈ t.sections, ∀ sel, s.info.selection = some sel →
    s.parts = [] → sel.count = 0

namespace Package

/- The references that lead to items of a package. -/
def resolves (p : Package) (ref : ItemRef) : Bool :=
  (p.items.get? ref.href).isSome

/-
  Whatever is drawn, a test can be started without a note,
  and every selection takes as many children as it asks for.
-/
structure Plans (p : Package) (t : Test) : Prop where
  starts : ∀ (engine : Engine) (draws : Draws),
    ∃ first, TestSession.start t p.items engine draws =
        .ok first ∧
      first.allNotes = []
  takes : ∀ s ∈ t.sections, ∀ sel,
    s.info.selection = some sel →
      Planning.Contributes ⟨t.identifier, p.resolves⟩ s
        sel.count

/- Of no children, no number of them can be taken. -/
theorem count_eq_zero_of_contributes
    {planner : Planning.Planner}
    {s : Section}
    {n : Nat}
    (hContributes : Planning.Contributes planner s n)
    (hEmpty : s.parts = []) :
    n = 0 := by
  rcases hContributes ⟨default, []⟩ with
    ⟨cs, _, hLength, hStand, _⟩
  cases cs with
  | nil => exact hLength.symm
  | cons c rest =>
      rcases hStand c List.mem_cons_self with ⟨p, hMem, _⟩
      rw [hEmpty] at hMem
      exact absurd hMem List.not_mem_nil

/-
  Among tests that pass, those can be planned whose empty
  sections select nothing, and only those.
-/
theorem plans_iff
    {p : Package}
    {t : Test}
    (hChecked :
      t.Checked fun href => (p.items.get? href).isSome) :
    p.Plans t ↔ t.Drawable := by
  constructor
  · intro hPlans s hMem sel hSelection hEmpty
    exact count_eq_zero_of_contributes
      (hPlans.takes s hMem sel hSelection) hEmpty
  · intro hDrawable
    have hReady : t.Ready p.resolves := by
      constructor
      · intro s hMem
        exact ⟨hChecked.required s hMem,
          hChecked.enough s hMem, hDrawable s hMem⟩
      · exact hChecked.known
    constructor
    · intro engine draws
      exact TestSession.start_of_quiet
        (hReady.plan_quiet ⟨draws, []⟩) engine
    · intro s hMem sel hSelection
      have hTakes := hReady.contributes hMem
      rwa [Planning.taking, hSelection] at hTakes

/-
  A package that validation finds no error in can be built,
  and those of its tests can be planned whose empty sections
  select nothing.
-/
theorem validated_plans_iff
    (v : Json)
    (r : Report)
    (hValid : validate v (Pass.all.map Pass.name) = .ok r)
    (hClean : r.has .error = false) :
    ∃ p, ofJson v = .ok p ∧
      ∀ name t, p.tests.get? name = some t →
        (p.Plans t ↔ t.Drawable) := by
  rcases exists_checked hValid hClean with
    ⟨p, hBuild, hChecked⟩
  exact ⟨p, hBuild, fun name t hTest =>
    plans_iff (hChecked name t hTest)⟩

------------------------------------------------------------
-- An Empty Section
------------------------------------------------------------

/- A test of one section that draws one of its children. -/
def drawingPackage (parts : List Json) : Json :=
  .ofMembers [
    ("id", .string "package"),
    ("documents", .array [
      .ofMembers [
        ("kind", .string "AssessmentItem"),
        ("identifier", .string "item")],
      .ofMembers [
        ("kind", .string "AssessmentTest"),
        ("identifier", .string "test"),
        ("testParts", .array [
          .ofMembers [
            ("identifier", .string "part"),
            ("assessmentSections", .array [
              .ofMembers [
                ("identifier", .string "section"),
                ("selection", .ofMembers [
                  ("select", .nat 1),
                  ("withReplacement", .bool true)]),
                ("sectionParts", .array parts)]])]])]])]

/- A reference to the item of that package. -/
def drawnRef : Json :=
  .ofMembers [
    ("kind", .string "assessmentItemRef"),
    ("identifier", .string "ref"),
    ("href", .string "item")]

/- With a child to draw, the test can be planned. -/
theorem validated_plans_iff_drawn :
    ∃ r, validate (drawingPackage [drawnRef])
        (Pass.all.map Pass.name) = .ok r ∧
      r.has .error = false ∧
      ∃ p t, ofJson (drawingPackage [drawnRef]) = .ok p ∧
        p.tests.get? "test" = some t ∧ p.Plans t := by
  refine ⟨⟨Pass.all, []⟩, rfl, rfl, ?_⟩
  rcases validated_plans_iff (drawingPackage [drawnRef])
      ⟨Pass.all, []⟩ rfl rfl with ⟨p, hBuild, hIff⟩
  have hPackage : ∃ i t,
      ofJson (drawingPackage [drawnRef]) =
        .ok ⟨"package", [("item", i)], [("test", t)]⟩ ∧
      t.Drawable := by
    refine ⟨_, _, rfl, ?_⟩
    intro s hMem sel _ hEmpty
    rcases List.mem_singleton.mp hMem with rfl
    cases hEmpty
  rcases hPackage with ⟨i, t, hPackage, hDrawable⟩
  rw [hBuild] at hPackage
  cases hPackage
  exact ⟨_, t, hBuild, rfl, (hIff "test" t rfl).mpr hDrawable⟩

/-
  Without one, validation finds no error either, and yet the
  test cannot be started whatever is drawn.
-/
theorem validated_not_plans :
    ∃ r p t, validate (drawingPackage [])
        (Pass.all.map Pass.name) = .ok r ∧
      r.has .error = false ∧
      ofJson (drawingPackage []) = .ok p ∧
      p.tests.get? "test" = some t ∧
      ∀ (engine : Engine) (draws : Draws),
        TestSession.start t p.items engine draws =
          .error .emptyDraw :=
  ⟨_, _, _, rfl, rfl, rfl, rfl, fun _ _ => rfl⟩

end Package

end Assessment
