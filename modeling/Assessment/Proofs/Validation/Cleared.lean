import Assessment.Proofs.Validation.Structure
import Mathlib.Data.List.Nodup

/-
  Packages that validation has cleared.

  Validation looks at a catalogue, and sessions run on a
  package that is built from the same documents. Where no
  error is found, all items and tests of the package have
  passed in the catalogue, and identifiers lead to the same
  items in both.

  Main declarations:
    * `Envelope.identifiers_nodup`
    * `Package.Cleared`, a package beside its catalogue
    * `Package.exists_cleared`
-/

------------------------------------------------------------
-- Identifiers
------------------------------------------------------------

namespace Assessment

open Finding (NoErrors)

/- No identifier is read twice. -/
theorem nodup_of_documentsOf
    {earlier documents : List Document}
    {vs : List Json}
    (hRead : documentsOf earlier vs = .ok documents)
    (hEarlier : (earlier.map Document.identifier).Nodup) :
    (documents.map Document.identifier).Nodup := by
  induction vs generalizing earlier with
  | nil =>
      cases hRead
      exact hEarlier
  | cons v rest ih =>
      rw [documentsOf, bind_eq_ok_iff] at hRead
      obtain ⟨found, _, hRest⟩ := hRead
      cases found with
      | none => exact ih hRest hEarlier
      | some d =>
          dsimp only at hRest
          split at hRest
          next => cases hRest
          next hNew =>
            apply ih hRest
            rw [List.map_append, List.nodup_append]
            refine ⟨hEarlier, by simp, ?_⟩
            intro name hName other hOther hSame
            apply hNew
            obtain ⟨x, hMem, rfl⟩ := List.mem_map.mp hName
            obtain rfl : other = d.identifier := by
              simpa using hOther
            exact List.any_eq_true.mpr
              ⟨x, hMem, beq_iff_eq.mpr hSame⟩

/- The documents of an opened package have been read in a row. -/
theorem Envelope.exists_documentsOf
    {v : Json}
    {e : Envelope}
    (hOpened : ofJson v = .ok e) :
    ∃ vs, documentsOf [] vs = .ok e.documents := by
  unfold ofJson at hOpened
  dsimp only at hOpened
  split at hOpened
  next id _ =>
    rw [pure_bind] at hOpened
    split at hOpened
    next => cases hOpened
    next documents _ =>
      rw [bind_eq_ok_iff] at hOpened
      obtain ⟨listed, hRead, hSame⟩ := hOpened
      cases hSame
      exact ⟨documents, hRead⟩
  next => cases hOpened

/- They differ in their identifiers. -/
theorem Envelope.identifiers_nodup
    {v : Json}
    {e : Envelope}
    (hOpened : ofJson v = .ok e) :
    (e.documents.map Document.identifier).Nodup := by
  obtain ⟨vs, hRead⟩ := exists_documentsOf hOpened
  exact nodup_of_documentsOf hRead (by simp)

/- So do its items. -/
theorem Envelope.itemIdentifiers_nodup
    {e : Envelope}
    (hDistinct : (e.documents.map Document.identifier).Nodup) :
    (e.items.map ItemDocument.identifier).Nodup := by
  have hSublist :
      (e.items.map ItemDocument.identifier).Sublist
        (e.documents.map Document.identifier) := by
    unfold items
    generalize e.documents = documents
    induction documents with
    | nil => exact List.Sublist.refl []
    | cons d rest ih =>
        cases d with
        | item i => exact ih.cons_cons i.identifier
        | test t => exact ih.cons t.identifier
  exact hSublist.nodup hDistinct

/- An item has the identifier of its document. -/
theorem Item.identifier_of_ofDocument
    {d : ItemDocument}
    {i : Item}
    (hBuilt : ofDocument d = .ok i) :
    i.identifier = d.identifier := by
  have hBuild : build d = .ok i := ok_of_mapError hBuilt
  simp only [build, bind_eq_ok_iff] at hBuild
  obtain ⟨_, _, _, _, _, _, _, _, _, _, hSame⟩ := hBuild
  cases hSame
  rfl

/- An item of a document is built from it. -/
theorem Definition.exists_build_of_item
    {x : Document}
    {i : Item}
    (hRead : ofDocument x = .ok (.item i)) :
    ∃ d, Item.build d = .ok i := by
  cases x with
  | item d =>
      rcases ofDocument_item_iff.mp hRead with ⟨_, hItem, hSame⟩
      cases hSame
      exact ⟨d, ok_of_mapError hItem⟩
  | test d =>
      rcases ofDocument_test_iff.mp hRead with ⟨_, _, hSame⟩
      cases hSame

/- So is a test. -/
theorem Definition.exists_build_of_test
    {x : Document}
    {t : Test}
    (hRead : ofDocument x = .ok (.test t)) :
    ∃ d, Test.build d = .ok t := by
  cases x with
  | item d =>
      rcases ofDocument_item_iff.mp hRead with ⟨_, _, hSame⟩
      cases hSame
  | test d =>
      rcases ofDocument_test_iff.mp hRead with ⟨_, hTest, hSame⟩
      cases hSame
      exact ⟨d, ok_of_mapError hTest⟩

------------------------------------------------------------
-- Items Found
------------------------------------------------------------

/- Of entries under distinct names the one named is found. -/
theorem Keyed.get?_ofList_eq_some
    {α : Type}
    {entries : List (String × α)}
    (hDistinct : (entries.map Prod.fst).Nodup)
    {name : String}
    {a : α} :
    get? name (ofList entries) = some a ↔ (name, a) ∈ entries := by
  constructor
  · exact mem_of_get?_ofList
  · intro hMem
    have hSome : (get? name (ofList entries)).isSome = true :=
      isSome_get?_ofList (List.mem_map_of_mem hMem)
    obtain ⟨b, hFound⟩ := Option.isSome_iff_exists.mp hSome
    have hSame := List.inj_on_of_nodup_map hDistinct
      (mem_of_get?_ofList hFound) hMem rfl
    cases hSame
    exact hFound

namespace Package

variable {e : Envelope}

/- A package is made of its items and tests in a row. -/
theorem exists_of_ofEnvelope
    {p : Package}
    (hBuild : ofEnvelope e = .ok p) :
    ∃ items tests, itemsOf e.items = .ok items ∧
      testsOf e.tests = .ok tests ∧
      p = ⟨e.id, Keyed.ofList items, Keyed.ofList tests⟩ := by
  simp only [ofEnvelope, bind_eq_ok_iff] at hBuild
  obtain ⟨items, hItems, tests, hTests, hSame⟩ := hBuild
  cases hSame
  exact ⟨items, tests, hItems, hTests, rfl⟩

/- The items in a row are those that are catalogued. -/
theorem map_snd_itemsOf
    {documents : List Document}
    {items : List (String × Item)}
    (hItems :
      itemsOf (documents.filterMap Document.item?) =
        .ok items) :
    items.map Prod.snd =
      (documents.filterMap fun d =>
        (Definition.ofDocument d).toOption).filterMap
          Definition.item? := by
  induction documents generalizing items with
  | nil =>
      cases hItems
      rfl
  | cons d rest ih =>
      cases d with
      | item d =>
          simp only [List.filterMap_cons, Document.item?,
            itemsOf, bind_eq_ok_iff] at hItems
          obtain ⟨i, hFirst, others, hRest, hSame⟩ := hItems
          cases hSame
          simp [Definition.ofDocument, hFirst, Except.map,
            Except.toOption, Definition.item?, ih hRest]
      | test d =>
          rw [ih hItems, List.filterMap_cons]
          simp only [Definition.ofDocument]
          cases Test.ofDocument d <;> rfl

/- Each is kept under its own identifier. -/
theorem identifier_of_itemsOf
    {documents : List ItemDocument}
    {items : List (String × Item)}
    (hItems : itemsOf documents = .ok items) :
    ∀ x ∈ items, x.2.identifier = x.1 := by
  induction documents generalizing items with
  | nil =>
      cases hItems
      simp
  | cons d rest ih =>
      simp only [itemsOf, bind_eq_ok_iff] at hItems
      obtain ⟨i, hFirst, others, hRest, hSame⟩ := hItems
      cases hSame
      intro x hMem
      rcases List.mem_cons.mp hMem with rfl | hLater
      · exact Item.identifier_of_ofDocument hFirst
      · exact ih hRest x hLater

/- Identifiers lead to the same items in both. -/
theorem item?_eq_get?
    {items : List (String × Item)}
    (hItems : itemsOf e.items = .ok items)
    (hDistinct : (e.items.map ItemDocument.identifier).Nodup)
    (href : String) :
    (Catalogue.ofEnvelope e).item? href =
      (Keyed.ofList items).get? href := by
  have hNames : (items.map Prod.fst).Nodup := by
    rw [map_fst_itemsOf hItems]
    exact hDistinct
  have hCatalogued :
      (Catalogue.ofEnvelope e).items = items.map Prod.snd := by
    rw [map_snd_itemsOf hItems]
    simp [Catalogue.ofEnvelope, List.filterMap_map]
  have hOwn := identifier_of_itemsOf hItems
  apply Option.ext
  intro i
  rw [Keyed.get?_ofList_eq_some hNames, Catalogue.item?,
    hCatalogued]
  constructor
  · intro hFound
    obtain ⟨x, hMem, rfl⟩ :=
      List.mem_map.mp (List.mem_of_find?_eq_some hFound)
    have hName := List.find?_some hFound
    rw [beq_iff_eq, hOwn x hMem] at hName
    rwa [← hName]
  · intro hMem
    cases hFound : (items.map Prod.snd).find? fun i =>
        i.identifier == href with
    | none =>
        have hNone := List.find?_eq_none.mp hFound i
          (List.mem_map_of_mem hMem)
        rw [hOwn _ hMem] at hNone
        simp at hNone
    | some j =>
        obtain ⟨x, hOther, rfl⟩ :=
          List.mem_map.mp (List.mem_of_find?_eq_some hFound)
        have hName := List.find?_some hFound
        rw [beq_iff_eq, hOwn x hOther] at hName
        have hSame := List.inj_on_of_nodup_map hNames hOther
          hMem hName
        rw [hSame]

------------------------------------------------------------
-- Cleared Packages
------------------------------------------------------------

/-
  A package beside the catalogue of its documents, in which no
  pass finds an error.
-/
structure Cleared (c : Catalogue) (p : Package) : Prop where
  declared : p.WellDeclared
  items :
    ∀ name i, p.items.get? name = some i →
      .item i ∈ c.definitions
  tests :
    ∀ name t, p.tests.get? name = some t →
      .test t ∈ c.definitions
  built :
    ∀ d ∈ c.definitions, ∃ x, Definition.ofDocument x = .ok d
  item? : ∀ href, c.item? href = p.items.get? href
  expressions :
    ∀ d ∈ c.definitions,
      NoErrors ExpressionProblem.severity (c.checkExpressions d)
  rules :
    ∀ d ∈ c.definitions,
      NoErrors RuleProblem.severity (c.checkRules d)
  structures :
    ∀ t, .test t ∈ c.definitions →
      NoErrors StructureProblem.severity (c.checkStructure t)
  hrefs :
    ∀ t, .test t ∈ c.definitions → ∀ q ∈ t.placements,
      (p.items.get? q.ref.href).isSome = true

end Package

/- A report without errors has none about expressions. -/
theorem Report.expressions_clean
    {c : Catalogue}
    (hClean : (ofCatalogue c Pass.all).has .error = false)
    {d : Definition}
    (hMem : d ∈ c.definitions) :
    NoErrors ExpressionProblem.severity
      (c.checkExpressions d) := by
  intro f hF
  apply severity_ne_of_clean hClean (f := f.map .expression)
  apply mem_ofCatalogue .expressions
  exact List.mem_map_of_mem
    (List.mem_flatMap.mpr ⟨d, hMem, hF⟩)

/- It has none about rules either. -/
theorem Report.rules_clean
    {c : Catalogue}
    (hClean : (ofCatalogue c Pass.all).has .error = false)
    {d : Definition}
    (hMem : d ∈ c.definitions) :
    NoErrors RuleProblem.severity (c.checkRules d) := by
  intro f hF
  apply severity_ne_of_clean hClean (f := f.map .rule)
  apply mem_ofCatalogue .rules
  exact List.mem_map_of_mem
    (List.mem_flatMap.mpr ⟨d, hMem, hF⟩)

/- Definitions that are catalogued have been built. -/
theorem Catalogue.exists_document
    {e : Envelope}
    {d : Definition}
    (hMem : d ∈ (ofEnvelope e).definitions) :
    ∃ x ∈ e.documents, Definition.ofDocument x = .ok d := by
  have hBuilt : ∃ x ∈ e.documents,
      (Definition.ofDocument x).toOption = some d := by
    simp only [definitions, ofEnvelope, List.filterMap_map,
      List.mem_append, List.mem_map,
      List.mem_filterMap] at hMem
    rcases hMem with
      ⟨i, ⟨d', ⟨x, hX, hD⟩, hItem⟩, rfl⟩ |
        ⟨t, ⟨d', ⟨x, hX, hD⟩, hTest⟩, rfl⟩
    · cases d' <;> cases hItem
      exact ⟨x, hX, hD⟩
    · cases d' <;> cases hTest
      exact ⟨x, hX, hD⟩
  rcases hBuilt with ⟨x, hX, hD⟩
  refine ⟨x, hX, ?_⟩
  cases hRead : Definition.ofDocument x with
  | error cause =>
      rw [hRead] at hD
      cases hD
  | ok d' =>
      rw [hRead] at hD
      cases hD
      rfl

/- The tests among the definitions are the catalogued ones. -/
theorem Catalogue.test_mem_definitions
    {c : Catalogue}
    {t : Test} :
    .test t ∈ c.definitions ↔ t ∈ c.tests := by
  simp [definitions]

namespace Package

variable {e : Envelope}

/- A package built from documents without errors is cleared. -/
theorem cleared_of_clean
    (hDistinct : (e.documents.map Document.identifier).Nodup)
    (hClean :
      (Report.ofCatalogue (.ofEnvelope e) Pass.all).has .error =
        false)
    {p : Package}
    (hBuild : ofEnvelope e = .ok p)
    (hDeclared : p.WellDeclared) :
    p.Cleared (.ofEnvelope e) := by
  obtain ⟨items, tests, hItems, hTests, rfl⟩ :=
    exists_of_ofEnvelope hBuild
  have hSame := item?_eq_get? hItems
    (Envelope.itemIdentifiers_nodup hDistinct)
  constructor
  · exact hDeclared
  · intro name i hFound
    dsimp only at hFound
    rw [← hSame name] at hFound
    apply List.mem_append_left
    exact List.mem_map_of_mem (List.mem_of_find?_eq_some hFound)
  · intro name t hFound
    obtain ⟨d, hMem, hRead⟩ := exists_document_of_testsOf hTests
      _ (Keyed.mem_of_get?_ofList hFound)
    rw [Catalogue.test_mem_definitions]
    exact Catalogue.mem_tests hMem hRead
  · intro d hMem
    obtain ⟨x, _, hRead⟩ := Catalogue.exists_document hMem
    exact ⟨x, hRead⟩
  · exact hSame
  · intro d hMem
    exact Report.expressions_clean hClean hMem
  · intro d hMem
    exact Report.rules_clean hClean hMem
  · intro t hMem
    rw [Catalogue.test_mem_definitions] at hMem
    exact Report.structure_clean hClean hMem
  · intro t hMem q hRef
    rw [Catalogue.test_mem_definitions] at hMem
    have hKnown := (Test.checked_of_noErrors
      (Report.structure_clean hClean hMem)).known q hRef
    apply Keyed.isSome_get?_ofList
    rw [map_fst_itemsOf hItems]
    simpa [Catalogue.hasItem, Catalogue.ofEnvelope] using hKnown

/- A package that is validated without errors is cleared. -/
theorem exists_cleared
    {v : Json}
    {r : Report}
    (hValid : validate v (Pass.all.map Pass.name) = .ok r)
    (hClean : r.has .error = false) :
    ∃ e p, Envelope.ofJson v = .ok e ∧ ofJson v = .ok p ∧
      p.Cleared (.ofEnvelope e) := by
  obtain ⟨e, hEnvelope, rfl⟩ :=
    Assessment.exists_of_validate hValid
  obtain ⟨p, hBuild, hDeclared⟩ := exists_ofEnvelope hClean
  refine ⟨e, p, hEnvelope, ?_, ?_⟩
  · rw [ofJson, hEnvelope]
    exact hBuild
  · exact cleared_of_clean (Envelope.identifiers_nodup hEnvelope)
      hClean hBuild hDeclared

end Package

end Assessment
