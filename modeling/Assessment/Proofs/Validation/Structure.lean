import Assessment.Proofs.Validation.Package

/-
  What validation ensures of the structure of tests.

  The walk over a test comes to every section and to every
  reference. Where it finds no error, the numbers of every
  selection go together, and every reference leads to an item
  of the package.

  Main declarations:
    * `Test.Checked`, what a walk without errors ensures
    * `SectionPart.exists_mem_nodes`, the walk leaves nothing
      out
    * `Package.exists_checked`
-/

------------------------------------------------------------
-- Nodes
------------------------------------------------------------

namespace Assessment

namespace SectionPart

mutual

/- The walk comes to all sections and all references. -/
theorem exists_mem_nodes
    (path : Path)
    (ancestry : List String) :
    ∀ p : SectionPart,
      (∀ s ∈ p.sections,
        ∃ inner, (inner, .group s.info s.parts) ∈
          p.nodes path) ∧
      ∀ q ∈ p.placements ancestry,
        ∃ inner, (inner, .item q.ref) ∈ p.nodes path
  | .item ref => by
      refine ⟨fun s hMem => absurd hMem List.not_mem_nil, ?_⟩
      intro q hMem
      rcases List.mem_singleton.mp hMem with rfl
      exact ⟨path, List.mem_cons_self⟩
  | .nested info parts => by
      have hBelow := exists_mem_nodesIn path
        (ancestry ++ [info.identifier]) 0 parts
      constructor
      · intro s hMem
        rcases List.mem_cons.mp hMem with rfl | hInner
        · exact ⟨path, List.mem_cons_self⟩
        · exact (hBelow.1 s hInner).imp fun _ hNode =>
            List.mem_cons_of_mem _ hNode
      · intro q hMem
        exact (hBelow.2 q hMem).imp fun _ hNode =>
          List.mem_cons_of_mem _ hNode

theorem exists_mem_nodesIn
    (parent : Path)
    (ancestry : List String) :
    ∀ (index : Nat) (ps : List SectionPart),
      (∀ s ∈ sectionsIn ps,
        ∃ inner, (inner, .group s.info s.parts) ∈
          nodesIn parent index ps) ∧
      ∀ q ∈ placementsIn ancestry ps,
        ∃ inner, (inner, .item q.ref) ∈
          nodesIn parent index ps
  | _, [] => by
      constructor
      · exact fun s hMem => absurd hMem List.not_mem_nil
      · exact fun q hMem => absurd hMem List.not_mem_nil
  | index, p :: rest => by
      have hFirst := exists_mem_nodes
        (parent.indexed "sectionParts" index) ancestry p
      have hRest :=
        exists_mem_nodesIn parent ancestry (index + 1) rest
      constructor
      · intro s hMem
        rcases List.mem_append.mp hMem with hIn | hIn
        · exact (hFirst.1 s hIn).imp fun _ hNode =>
            List.mem_append_left _ hNode
        · exact (hRest.1 s hIn).imp fun _ hNode =>
            List.mem_append_right _ hNode
      · intro q hMem
        rcases List.mem_append.mp hMem with hIn | hIn
        · exact (hFirst.2 q hIn).imp fun _ hNode =>
            List.mem_append_left _ hNode
        · exact (hRest.2 q hIn).imp fun _ hNode =>
            List.mem_append_right _ hNode

end

end SectionPart

namespace Test

variable {t : Test}

/- The nodes of a section are among those of its test. -/
theorem exists_mem_nodes_of_section
    {part : TestPart}
    {s : Section}
    (hPart : part ∈ t.parts)
    (hSection : s ∈ part.sections) :
    ∃ path, ∀ x ∈ SectionPart.nodes path
        (.nested s.info s.parts), (part, x) ∈ t.nodes := by
  rcases List.getElem_of_mem hPart with ⟨i, hI, rfl⟩
  rcases List.getElem_of_mem hSection with ⟨j, hJ, rfl⟩
  refine ⟨((Path.root t.identifier).indexed "testParts"
    i).indexed "assessmentSections" j, fun x hMem => ?_⟩
  refine List.mem_flatMap.mpr ⟨(t.parts[i], i), ?_, ?_⟩
  · exact List.mem_zipIdx_iff_getElem?.mpr
      (List.getElem?_eq_getElem hI)
  · refine List.mem_map_of_mem
      (List.mem_cons_of_mem _ (List.mem_flatMap.mpr
        ⟨(t.parts[i].sections[j], j), ?_, hMem⟩))
    exact List.mem_zipIdx_iff_getElem?.mpr
      (List.getElem?_eq_getElem hJ)

/- All sections of a test are among its nodes. -/
theorem exists_mem_nodes_of_mem_sections
    {s : Section}
    (hMem : s ∈ t.sections) :
    ∃ part path,
      (part, path, .group s.info s.parts) ∈ t.nodes := by
  rcases List.mem_flatMap.mp hMem with ⟨part, hPart, hIn⟩
  rcases List.mem_flatMap.mp hIn with ⟨outer, hOuter, hWithin⟩
  rcases exists_mem_nodes_of_section hPart hOuter with
    ⟨path, hNodes⟩
  rcases (SectionPart.exists_mem_nodes path []
    (.nested outer.info outer.parts)).1 s hWithin with
    ⟨inner, hInner⟩
  exact ⟨part, inner, hNodes _ hInner⟩

/- So are all references. -/
theorem exists_mem_nodes_of_mem_placements
    {q : Placement}
    (hMem : q ∈ t.placements) :
    ∃ part path, (part, path, .item q.ref) ∈ t.nodes := by
  rcases List.mem_flatMap.mp hMem with ⟨part, hPart, hIn⟩
  rcases List.mem_flatMap.mp hIn with ⟨outer, hOuter, hWithin⟩
  rcases exists_mem_nodes_of_section hPart hOuter with
    ⟨path, hNodes⟩
  rcases (SectionPart.exists_mem_nodes path []
    (.nested outer.info outer.parts)).2 q hWithin with
    ⟨inner, hInner⟩
  exact ⟨part, inner, hNodes _ hInner⟩

------------------------------------------------------------
-- Checks
------------------------------------------------------------

open Finding (NoErrors noErrors_append eq_false_of_noErrors_when)

/-
  What the structure of a test is like that passes, where some
  names are known to be names of items.
-/
structure Checked (knows : String → Bool) (t : Test) :
    Prop where
  required : ∀ s ∈ t.sections, ∀ sel,
    s.info.selection = some sel →
      (s.parts.filter SectionPart.required).length ≤ sel.count
  enough : ∀ s ∈ t.sections, ∀ sel,
    s.info.selection = some sel →
      sel.withReplacement = true ∨ sel.count ≤ s.parts.length
  known : ∀ q ∈ t.placements, knows q.ref.href = true

/- Without errors, every node has been checked without one. -/
theorem noErrors_checkNode
    {c : Catalogue}
    {earlier : List String}
    {listed : List (TestPart × Path × StructureNode)}
    (hClean : NoErrors StructureProblem.severity
      (checkNodes c t earlier listed))
    {part : TestPart}
    {path : Path}
    {node : StructureNode}
    (hMem : (part, path, node) ∈ listed) :
    NoErrors StructureProblem.severity
      (checkNode c t part path node) := by
  induction listed generalizing earlier with
  | nil => exact absurd hMem List.not_mem_nil
  | cons first rest ih =>
      rcases first with ⟨part', path', node'⟩
      simp only [checkNodes, noErrors_append] at hClean
      rcases List.mem_cons.mp hMem with hFirst | hLater
      · cases hFirst
        exact hClean.1.2
      · exact ih hClean.2 hLater

/- The numbers of a selection that passes go together. -/
theorem selection_of_noErrors
    {path : Path}
    {info : SectionInfo}
    {parts : List SectionPart}
    (hClean : NoErrors StructureProblem.severity
      (checkSection path info parts))
    {sel : Selection}
    (hSelection : info.selection = some sel) :
    (parts.filter SectionPart.required).length ≤ sel.count ∧
      (sel.withReplacement = true ∨
        sel.count ≤ parts.length) := by
  simp only [checkSection, hSelection, checkSelection,
    noErrors_append] at hClean
  rcases hClean with ⟨_, ⟨_, hFew⟩, hMany⟩
  have hRequired := eq_false_of_noErrors_when hFew rfl
  have hEnough := eq_false_of_noErrors_when hMany rfl
  constructor
  · simpa using hRequired
  · cases hReplace : sel.withReplacement with
    | true => exact Or.inl rfl
    | false =>
        right
        simpa [hReplace] using hEnough

/- A reference that passes leads to an item. -/
theorem known_of_noErrors
    {c : Catalogue}
    {part : TestPart}
    {path : Path}
    {ref : ItemRef}
    (hClean : NoErrors StructureProblem.severity
      (checkRef c part path ref)) :
    c.hasItem ref.href = true := by
  cases hKnown : c.hasItem ref.href with
  | true => rfl
  | false =>
      rw [checkRef, if_pos (by simp [hKnown])] at hClean
      exact absurd rfl (hClean _ List.mem_cons_self)

theorem checked_of_noErrors
    {c : Catalogue}
    (hClean : NoErrors StructureProblem.severity
      (c.checkStructure t)) :
    t.Checked c.hasItem := by
  simp only [Catalogue.checkStructure, noErrors_append]
    at hClean
  have hNode : ∀ part path node, (part, path, node) ∈ t.nodes →
      NoErrors StructureProblem.severity
        (checkNode c t part path node) :=
    fun _ _ _ hMem => noErrors_checkNode hClean.2 hMem
  refine ⟨?_, ?_, ?_⟩
  · intro s hMem sel hSelection
    rcases exists_mem_nodes_of_mem_sections hMem with
      ⟨part, path, hIn⟩
    exact (selection_of_noErrors (hNode _ _ _ hIn)
      hSelection).1
  · intro s hMem sel hSelection
    rcases exists_mem_nodes_of_mem_sections hMem with
      ⟨part, path, hIn⟩
    exact (selection_of_noErrors (hNode _ _ _ hIn)
      hSelection).2
  · intro q hMem
    rcases exists_mem_nodes_of_mem_placements hMem with
      ⟨part, path, hIn⟩
    exact known_of_noErrors (hNode _ _ _ hIn)

end Test

------------------------------------------------------------
-- Packages
------------------------------------------------------------

/- A report without errors has none about structure. -/
theorem Report.structure_clean
    {c : Catalogue}
    (hClean : (ofCatalogue c Pass.all).has .error = false)
    {t : Test}
    (hMem : t ∈ c.tests) :
    Finding.NoErrors StructureProblem.severity
      (c.checkStructure t) := by
  intro f hF
  refine severity_ne_of_clean hClean
    (f := f.map .testStructure)
    (mem_ofCatalogue .testStructure ?_)
  exact List.mem_map_of_mem
    (List.mem_flatMap.mpr ⟨t, hMem, hF⟩)

/- A test that has been built from a document is catalogued. -/
theorem Catalogue.mem_tests
    {e : Envelope}
    {d : TestDocument}
    (hMem : d ∈ e.tests)
    {t : Test}
    (hBuild : Test.ofDocument d = .ok t) :
    t ∈ (ofEnvelope e).tests := by
  rcases List.mem_filterMap.mp hMem with ⟨x, hX, hIs⟩
  cases x with
  | item _ => cases hIs
  | test d' =>
      cases hIs
      have hDefinition := mem_definitions hX
        (Definition.ofDocument_test_iff.mpr ⟨t, hBuild, rfl⟩)
      simpa [definitions] using hDefinition

namespace Package

/- Items are kept under the identifiers of their documents. -/
theorem map_fst_itemsOf
    {documents : List ItemDocument}
    {items : List (String × Item)}
    (hItems : itemsOf documents = .ok items) :
    items.map Prod.fst =
      documents.map ItemDocument.identifier := by
  induction documents generalizing items with
  | nil =>
      cases hItems
      rfl
  | cons d rest ih =>
      rw [itemsOf] at hItems
      cases hFirst : Item.ofDocument d with
      | error cause =>
          rw [hFirst] at hItems
          cases hItems
      | ok i =>
          cases hRest : itemsOf rest with
          | error cause =>
              rw [hFirst, hRest] at hItems
              cases hItems
          | ok is =>
              rw [hFirst, hRest] at hItems
              cases hItems
              rw [List.map_cons, List.map_cons, ih hRest]

/- Tests are read from their documents. -/
theorem exists_document_of_testsOf
    {documents : List TestDocument}
    {tests : List (String × Test)}
    (hTests : testsOf documents = .ok tests) :
    ∀ x ∈ tests, ∃ d ∈ documents,
      Test.ofDocument d = .ok x.2 := by
  induction documents generalizing tests with
  | nil =>
      cases hTests
      simp
  | cons d rest ih =>
      rw [testsOf] at hTests
      cases hFirst : Test.ofDocument d with
      | error cause =>
          rw [hFirst] at hTests
          cases hTests
      | ok t =>
          cases hRest : testsOf rest with
          | error cause =>
              rw [hFirst, hRest] at hTests
              cases hTests
          | ok ts =>
              rw [hFirst, hRest] at hTests
              cases hTests
              intro x hMem
              rcases List.mem_cons.mp hMem with rfl | hLater
              · exact ⟨d, List.mem_cons_self, hFirst⟩
              · rcases ih hRest x hLater with ⟨y, hY, hRead⟩
                exact ⟨y, List.mem_cons_of_mem d hY, hRead⟩

/- The tests of a package without errors pass. -/
theorem checked_of_clean
    {e : Envelope}
    (hClean :
      (Report.ofCatalogue (.ofEnvelope e) Pass.all).has .error =
        false)
    {p : Package}
    (hBuild : ofEnvelope e = .ok p)
    {name : String}
    {t : Test}
    (hTest : p.tests.get? name = some t) :
    t.Checked fun href => (p.items.get? href).isSome := by
  rw [ofEnvelope] at hBuild
  cases hItems : itemsOf e.items with
  | error cause =>
      rw [hItems] at hBuild
      cases hBuild
  | ok items =>
      cases hTests : testsOf e.tests with
      | error cause =>
          rw [hItems, hTests] at hBuild
          cases hBuild
      | ok tests =>
          rw [hItems, hTests] at hBuild
          cases hBuild
          rcases exists_document_of_testsOf hTests _
            (Keyed.mem_of_get?_ofList hTest) with
            ⟨d, hMem, hRead⟩
          have hChecked := Test.checked_of_noErrors
            (Report.structure_clean hClean
              (Catalogue.mem_tests hMem hRead))
          refine ⟨hChecked.required, hChecked.enough, ?_⟩
          intro q hRef
          apply Keyed.isSome_get?_ofList
          rw [map_fst_itemsOf hItems]
          have hNamed := hChecked.known q hRef
          simpa [Catalogue.hasItem, Catalogue.ofEnvelope] using
            hNamed

/- A package without errors can be built, and its tests pass. -/
theorem exists_checked
    {v : Json}
    {r : Report}
    (hValid : validate v (Pass.all.map Pass.name) = .ok r)
    (hClean : r.has .error = false) :
    ∃ p, ofJson v = .ok p ∧
      ∀ name t, p.tests.get? name = some t →
        t.Checked fun href => (p.items.get? href).isSome := by
  rcases Assessment.exists_of_validate hValid with
    ⟨e, hEnvelope, rfl⟩
  rcases exists_ofEnvelope hClean with ⟨p, hBuild, -⟩
  refine ⟨p, ?_, ?_⟩
  · rw [ofJson, hEnvelope]
    exact hBuild
  · intro name t hTest
    exact checked_of_clean hClean hBuild hTest

end Package

end Assessment
