import Assessment.Package.Basic
import Assessment.Proofs.Typing.Declared
import Assessment.Validation.Declarations
import Assessment.Validation.Report

/-
  What validation ensures of declarations and of a package.

  Where the declarations of a definition are checked without
  an error, no identifier is declared twice, built-in
  variables keep their kind and their type, and only single
  outcomes have lookup tables. Then the declarations go
  together, the built-in ones that the author left out
  included.

  A package on which validation finds no error can be built,
  and the declarations of its items and tests go together.

  Main declarations:
    * `Finding.NoErrors`, findings that are no errors
    * `Declaration.Passes`, what the check of a declaration
      ensures
    * `Item.wellDeclared` and `Test.wellDeclared`
    * `Package.WellDeclared`
    * `Report.rejected_eq_nil` and `declarations_clean`, what a
      report without errors says
    * `Package.exists_of_validate`
-/

------------------------------------------------------------
-- Findings without Errors
------------------------------------------------------------

namespace Assessment

namespace Finding

variable {Problem : Type}
variable {severity : Problem → Severity}

/- None of the findings is an error. -/
def NoErrors
    (severity : Problem → Severity)
    (findings : List (Finding Problem)) :
    Prop :=
  ∀ f ∈ findings, severity f.problem ≠ .error

theorem noErrors_append
    {first rest : List (Finding Problem)} :
    NoErrors severity (first ++ rest) ↔
      NoErrors severity first ∧ NoErrors severity rest := by
  simp only [NoErrors, List.forall_mem_append]

/- A condition for an error does not hold. -/
theorem eq_false_of_noErrors_when
    {condition : Bool}
    {path : Path}
    {problem : Problem}
    (hClean : NoErrors severity (when condition path problem))
    (hError : severity problem = .error) :
    condition = false := by
  cases condition with
  | false => rfl
  | true =>
      exact absurd hError
        (hClean ⟨path, problem⟩ List.mem_cons_self)

end Finding

------------------------------------------------------------
-- Single Declarations
------------------------------------------------------------

namespace Declaration

/- None of the findings is an error. -/
def NoErrors (findings : Findings) : Prop :=
  ∀ f ∈ findings, f.problem.severity ≠ .error

theorem noErrors_append
    {first rest : Findings} :
    NoErrors (first ++ rest) ↔
      NoErrors first ∧ NoErrors rest :=
  Finding.noErrors_append

/- A condition for an error does not hold. -/
theorem eq_false_of_noErrors_when
    {condition : Bool}
    {path : Path}
    {problem : DeclarationProblem}
    (hClean : NoErrors (Finding.when condition path problem))
    (hError : problem.severity = .error) :
    condition = false :=
  Finding.eq_false_of_noErrors_when hClean hError

/- What a declaration is like that is checked without error. -/
structure Passes (owner : Definition) (d : Declaration) :
    Prop where
  builtin :
    ∀ b, builtinOf? owner d = some b →
      d.kind = b.kind ∧ d.cardinality = b.cardinality ∧
        d.baseType = b.baseType
  table : d.table?.isSome = true → d.cardinality = .single

theorem passes_of_noErrors
    {owner : Definition}
    {path : Path}
    {d : Declaration}
    (hClean : NoErrors (check owner path d)) :
    d.Passes owner := by
  simp only [check, noErrors_append] at hClean
  rcases hClean with
    ⟨⟨⟨⟨⟨⟨hBuiltin, _⟩, _⟩, _⟩, _⟩, hTable⟩, _⟩
  constructor
  · intro b hB
    simp only [checkBuiltin, hB] at hBuiltin
    have hSame := eq_false_of_noErrors_when hBuiltin rfl
    simp at hSame
    exact ⟨hSame.1.1, hSame.1.2, hSame.2⟩
  · intro hSome
    rcases Option.isSome_iff_exists.mp hSome with ⟨table, hT⟩
    simp only [hT, checkPart, checkTable,
      noErrors_append] at hTable
    have hSingle := eq_false_of_noErrors_when hTable.1.1 rfl
    simpa using hSingle

------------------------------------------------------------
-- Declarations in a Row
------------------------------------------------------------

/- Checked in a row, declarations differ in identifiers. -/
theorem passes_of_checkEach
    {owner : Definition}
    {earlier : List String}
    {listed : List (Path × Declaration)}
    (hClean : NoErrors (checkEach owner earlier listed)) :
    (∀ d ∈ listed.map Prod.snd,
      d.Passes owner ∧ d.identifier ∉ earlier) ∧
    ((listed.map Prod.snd).map identifier).Nodup := by
  induction listed generalizing earlier with
  | nil => simp
  | cons first rest ih =>
      rcases first with ⟨path, d⟩
      simp only [checkEach, noErrors_append] at hClean
      rcases hClean with ⟨⟨hTwice, hCheck⟩, hRest⟩
      rcases ih hRest with ⟨hLater, hDistinct⟩
      have hNew := eq_false_of_noErrors_when hTwice rfl
      constructor
      · intro e hMem
        rcases List.mem_cons.mp hMem with rfl | hMem
        · exact ⟨passes_of_noErrors hCheck, by simpa using hNew⟩
        · rcases hLater e hMem with ⟨hPasses, hOther⟩
          exact ⟨hPasses, fun hOld =>
            hOther (List.mem_cons_of_mem d.identifier hOld)⟩
      · simp only [List.map_cons, List.nodup_cons]
        refine ⟨?_, hDistinct⟩
        intro hAgain
        rcases List.mem_map.mp hAgain with ⟨e, hMem, hSame⟩
        exact (hLater e hMem).2 (hSame ▸ List.mem_cons_self)

end Declaration

------------------------------------------------------------
-- Items and Tests
------------------------------------------------------------

/- The paths say where declarations are, not which. -/
theorem Definition.map_snd_listed
    (document field : String)
    (ds : List Declaration) :
    (listed document field ds).map Prod.snd = ds := by
  simp [listed, Function.comp_def, List.zipIdx_map_fst]

/-
  What has been read and is checked without an error is what
  an author may declare.
-/
theorem Definition.isAuthored_of_noErrors
    {owner : Definition}
    {builtins authored : List Declaration}
    (hClean : Declaration.NoErrors owner.checkDeclarations)
    (hAuthored : owner.authored.map Prod.snd = authored)
    (hBuilt : ∀ d ∈ authored, d.IsBuilt)
    (hBuiltins :
      ∀ d, Declaration.builtinOf? owner d =
        findDeclaration? builtins d.identifier)
    (hNames : (builtins.map Declaration.identifier).Nodup) :
    (∀ d ∈ authored, d.IsAuthored builtins) ∧
      (authored.map Declaration.identifier).Nodup := by
  rcases Declaration.passes_of_checkEach hClean with
    ⟨hPasses, hDistinct⟩
  rw [hAuthored] at hPasses hDistinct
  refine ⟨fun d hMem => ?_, hDistinct⟩
  rcases hPasses d hMem with ⟨hPasses, _⟩
  refine ⟨hBuilt d hMem, hPasses.table, ?_⟩
  intro b hB hSame
  refine hPasses.builtin b ?_
  rw [hBuiltins, ← hSame]
  exact findDeclaration?_of_mem hNames hB

theorem Item.wellDeclared
    {i : Item}
    (hBuilt : i.IsBuilt)
    (hClean :
      Declaration.NoErrors
        (Definition.item i).checkDeclarations) :
    i.WellDeclared := by
  have hNames :
      (Builtin.ofItem.map Declaration.identifier).Nodup := by
    decide
  have hOther : ∀ b ∈ Builtin.ofItem, b.kind ≠ .template := by
    decide
  rcases Definition.isAuthored_of_noErrors hClean
    (by simp only [Definition.authored, List.map_append,
      Definition.map_snd_listed])
    hBuilt.isBuilt (fun _ => rfl) hNames with
    ⟨hAuthored, hDistinct⟩
  refine ⟨wellDeclared_append hAuthored List.filter_sublist
    Builtin.isBuilt_of_mem_ofItem hNames hDistinct ?_, ?_⟩
  · intro b hB d hMem hSame
    rcases List.mem_filter.mp hB with ⟨hB, hFree⟩
    have hKinds := (hAuthored d hMem).builtin b hB hSame.symm
    rw [List.mem_append] at hMem
    rcases hMem with hMem | hTemplate
    · simp only [Bool.not_eq_true', List.any_eq_false] at hFree
      exact hFree d hMem (by simpa using hSame)
    · -- no template variable passes under a built-in name
      rcases hBuilt.templates d hTemplate with ⟨v, hRead⟩
      have hKind := Declaration.kind_of_ofJson hRead
      rw [hKinds.1] at hKind
      exact hOther b hB hKind
  · intro d hMem
    rcases hBuilt.outcomes d hMem with ⟨v, hRead⟩
    exact Declaration.kind_of_ofJson hRead

theorem Test.wellDeclared
    {t : Test}
    (hBuilt : t.IsBuilt)
    (hClean :
      Declaration.NoErrors
        (Definition.test t).checkDeclarations) :
    t.WellDeclared := by
  have hNames :
      (Builtin.ofTest.map Declaration.identifier).Nodup := by
    decide
  have hRead : ∀ d ∈ t.outcomes, d.IsBuilt := by
    intro d hMem
    rcases hBuilt d hMem with ⟨v, hRead⟩
    exact .read .outcome v d hRead
  rcases Definition.isAuthored_of_noErrors hClean
    (Definition.map_snd_listed _ _ t.outcomes) hRead
    (fun _ => rfl) hNames with ⟨hAuthored, hDistinct⟩
  unfold Test.WellDeclared declarations
  split
  · have hAlone :=
      wellDeclared_append hAuthored (List.nil_sublist _)
        Builtin.isBuilt_of_mem_ofTest hNames hDistinct (by simp)
    rw [List.append_nil] at hAlone
    exact hAlone
  next hFree =>
    refine wellDeclared_append hAuthored (List.Sublist.refl _)
      Builtin.isBuilt_of_mem_ofTest hNames hDistinct ?_
    intro b hB d hMem hSame
    rcases List.mem_singleton.mp hB with rfl
    exact hFree (List.any_eq_true.mpr
      ⟨d, hMem, beq_iff_eq.mpr hSame⟩)

------------------------------------------------------------
-- Reports
------------------------------------------------------------

namespace Report

/- A report without errors has none among its findings. -/
theorem severity_ne_of_clean
    {r : Report}
    (hClean : r.has .error = false)
    {f : Finding Problem}
    (hMem : f ∈ r.findings) :
    f.problem.severity ≠ .error := by
  simp only [has, List.any_eq_false] at hClean
  simpa using hClean f hMem

/- What any of the passes finds is in a report by all. -/
theorem mem_ofCatalogue
    {c : Catalogue}
    (pass : Pass)
    {f : Finding Problem}
    (hMem : f ∈ run c pass) :
    f ∈ (ofCatalogue c Pass.all).findings := by
  refine List.mem_append_right _ (List.mem_flatMap.mpr
    ⟨pass, ?_, hMem⟩)
  cases pass <;> decide

/- A report without errors rejects no document. -/
theorem rejected_eq_nil
    {c : Catalogue}
    (hClean : (ofCatalogue c Pass.all).has .error = false) :
    c.rejected = [] := by
  cases hRejected : c.rejected with
  | nil => rfl
  | cons first rest =>
      rcases first with ⟨name, cause⟩
      refine absurd rfl (severity_ne_of_clean hClean
        (f := ⟨Path.root name, .rejected cause⟩) ?_)
      refine List.mem_append_left _ ?_
      simp [rejections, hRejected]

/- It has no errors about declarations either. -/
theorem declarations_clean
    {c : Catalogue}
    (hClean : (ofCatalogue c Pass.all).has .error = false)
    {d : Definition}
    (hMem : d ∈ c.definitions) :
    Declaration.NoErrors d.checkDeclarations := by
  intro f hF
  refine severity_ne_of_clean hClean
    (f := f.map .declaration)
    (mem_ofCatalogue .declarations ?_)
  exact List.mem_map_of_mem
    (List.mem_flatMap.mpr ⟨d, hMem, hF⟩)

end Report

/- Validation by all passes is a report on all definitions. -/
theorem exists_of_validate
    {v : Json}
    {r : Report}
    (hValid : validate v (Pass.all.map Pass.name) = .ok r) :
    ∃ e, Envelope.ofJson v = .ok e ∧
      r = Report.ofCatalogue (.ofEnvelope e) Pass.all := by
  have hPasses :
      Pass.ofNames (Pass.all.map Pass.name) = .ok Pass.all :=
    rfl
  unfold validate at hValid
  rw [hPasses] at hValid
  simp only [Report.ofJson] at hValid
  cases hEnvelope : Envelope.ofJson v with
  | error fault =>
      rw [hEnvelope] at hValid
      cases hValid
  | ok e =>
      rw [hEnvelope] at hValid
      cases hValid
      exact ⟨e, rfl, rfl⟩

------------------------------------------------------------
-- Catalogues
------------------------------------------------------------

namespace Definition

/- The document of an item holds an item, if it holds anything. -/
theorem ofDocument_item_iff
    {d : ItemDocument}
    {x : Definition} :
    ofDocument (.item d) = .ok x ↔
      ∃ i, Item.ofDocument d = .ok i ∧ x = .item i := by
  rw [ofDocument]
  cases Item.ofDocument d <;> simp [Except.map, eq_comm]

/- That of a test holds a test. -/
theorem ofDocument_test_iff
    {d : TestDocument}
    {x : Definition} :
    ofDocument (.test d) = .ok x ↔
      ∃ t, Test.ofDocument d = .ok t ∧ x = .test t := by
  rw [ofDocument]
  cases Test.ofDocument d <;> simp [Except.map, eq_comm]

end Definition

namespace Catalogue

/- Every document is built when none has been rejected. -/
theorem exists_of_rejected_eq_nil
    {e : Envelope}
    (hNone : (ofEnvelope e).rejected = [])
    {document : Document}
    (hMem : document ∈ e.documents) :
    ∃ d, Definition.ofDocument document = .ok d := by
  cases hBuild : Definition.ofDocument document with
  | ok d => exact ⟨d, rfl⟩
  | error cause =>
      simp only [ofEnvelope,
        List.filterMap_eq_nil_iff] at hNone
      have hNot := hNone _ (List.mem_map_of_mem hMem)
      simp [hBuild] at hNot

/- What a document holds is among the definitions. -/
theorem mem_definitions
    {e : Envelope}
    {document : Document}
    (hMem : document ∈ e.documents)
    {d : Definition}
    (hBuild : Definition.ofDocument document = .ok d) :
    d ∈ (ofEnvelope e).definitions := by
  have hDefinition :
      d ∈ ((e.documents.map fun x =>
        (x.identifier, Definition.ofDocument x)).filterMap
          fun x => x.2.toOption) := by
    refine List.mem_filterMap.mpr
      ⟨_, List.mem_map_of_mem hMem, ?_⟩
    simp [hBuild, Except.toOption]
  cases d with
  | item i =>
      refine List.mem_append_left _ (List.mem_map_of_mem ?_)
      exact List.mem_filterMap.mpr ⟨_, hDefinition, rfl⟩
  | test t =>
      refine List.mem_append_right _ (List.mem_map_of_mem ?_)
      exact List.mem_filterMap.mpr ⟨_, hDefinition, rfl⟩

end Catalogue

------------------------------------------------------------
-- Packages
------------------------------------------------------------

namespace Package

/- The declarations of all items and tests go together. -/
structure WellDeclared (p : Package) : Prop where
  items :
    ∀ name i, p.items.get? name = some i → i.WellDeclared
  tests :
    ∀ name t, p.tests.get? name = some t → t.WellDeclared

/- Items are built in a row when each of them is. -/
theorem exists_itemsOf
    {documents : List ItemDocument}
    (hBuilt :
      ∀ d ∈ documents, ∃ i, Item.ofDocument d = .ok i) :
    ∃ items, itemsOf documents = .ok items ∧
      ∀ x ∈ items, ∃ d ∈ documents,
        Item.ofDocument d = .ok x.2 := by
  induction documents with
  | nil => exact ⟨[], rfl, by simp⟩
  | cons d rest ih =>
      rcases hBuilt d List.mem_cons_self with ⟨i, hFirst⟩
      rcases ih fun x hMem =>
          hBuilt x (List.mem_cons_of_mem d hMem) with
        ⟨items, hRest, hEach⟩
      refine ⟨(d.identifier, i) :: items, ?_, ?_⟩
      · rw [itemsOf, hFirst, hRest]
        rfl
      · intro x hMem
        rcases List.mem_cons.mp hMem with rfl | hLater
        · exact ⟨d, List.mem_cons_self, hFirst⟩
        · rcases hEach x hLater with ⟨y, hY, hRead⟩
          exact ⟨y, List.mem_cons_of_mem d hY, hRead⟩

/- So are tests. -/
theorem exists_testsOf
    {documents : List TestDocument}
    (hBuilt :
      ∀ d ∈ documents, ∃ t, Test.ofDocument d = .ok t) :
    ∃ tests, testsOf documents = .ok tests ∧
      ∀ x ∈ tests, ∃ d ∈ documents,
        Test.ofDocument d = .ok x.2 := by
  induction documents with
  | nil => exact ⟨[], rfl, by simp⟩
  | cons d rest ih =>
      rcases hBuilt d List.mem_cons_self with ⟨t, hFirst⟩
      rcases ih fun x hMem =>
          hBuilt x (List.mem_cons_of_mem d hMem) with
        ⟨tests, hRest, hEach⟩
      refine ⟨(d.identifier, t) :: tests, ?_, ?_⟩
      · rw [testsOf, hFirst, hRest]
        rfl
      · intro x hMem
        rcases List.mem_cons.mp hMem with rfl | hLater
        · exact ⟨d, List.mem_cons_self, hFirst⟩
        · rcases hEach x hLater with ⟨y, hY, hRead⟩
          exact ⟨y, List.mem_cons_of_mem d hY, hRead⟩

variable {e : Envelope}

/- Without errors the items of a package are built. -/
theorem exists_item_of_clean
    (hClean :
      (Report.ofCatalogue (.ofEnvelope e) Pass.all).has .error =
        false)
    {d : ItemDocument}
    (hMem : d ∈ e.items) :
    ∃ i, Item.ofDocument d = .ok i ∧ i.WellDeclared := by
  rcases List.mem_filterMap.mp hMem with ⟨x, hX, hIs⟩
  cases x with
  | test _ => cases hIs
  | item d' =>
      cases hIs
      rcases Catalogue.exists_of_rejected_eq_nil
          (Report.rejected_eq_nil hClean) hX with
        ⟨_, hBuild⟩
      rcases Definition.ofDocument_item_iff.mp hBuild with
        ⟨i, hItem, rfl⟩
      refine ⟨i, hItem, Item.wellDeclared
        (Item.isBuilt_of_build (ok_of_mapError hItem)) ?_⟩
      exact Report.declarations_clean hClean
        (Catalogue.mem_definitions hX hBuild)

/- So are its tests. -/
theorem exists_test_of_clean
    (hClean :
      (Report.ofCatalogue (.ofEnvelope e) Pass.all).has .error =
        false)
    {d : TestDocument}
    (hMem : d ∈ e.tests) :
    ∃ t, Test.ofDocument d = .ok t ∧ t.WellDeclared := by
  rcases List.mem_filterMap.mp hMem with ⟨x, hX, hIs⟩
  cases x with
  | item _ => cases hIs
  | test d' =>
      cases hIs
      rcases Catalogue.exists_of_rejected_eq_nil
          (Report.rejected_eq_nil hClean) hX with
        ⟨_, hBuild⟩
      rcases Definition.ofDocument_test_iff.mp hBuild with
        ⟨t, hTest, rfl⟩
      refine ⟨t, hTest, Test.wellDeclared
        (Test.isBuilt_of_build (ok_of_mapError hTest)) ?_⟩
      exact Report.declarations_clean hClean
        (Catalogue.mem_definitions hX hBuild)

/- An opened package without errors can be built. -/
theorem exists_ofEnvelope
    (hClean :
      (Report.ofCatalogue (.ofEnvelope e) Pass.all).has .error =
        false) :
    ∃ p, ofEnvelope e = .ok p ∧ p.WellDeclared := by
  have hItem := fun d (hMem : d ∈ e.items) =>
    exists_item_of_clean hClean hMem
  have hTest := fun d (hMem : d ∈ e.tests) =>
    exists_test_of_clean hClean hMem
  rcases exists_itemsOf fun d hMem =>
      (hItem d hMem).imp fun _ h => h.1 with
    ⟨items, hItems, hEachItem⟩
  rcases exists_testsOf fun d hMem =>
      (hTest d hMem).imp fun _ h => h.1 with
    ⟨tests, hTests, hEachTest⟩
  refine ⟨⟨e.id, Keyed.ofList items, Keyed.ofList tests⟩,
    ?_, ?_, ?_⟩
  · rw [ofEnvelope, hItems, hTests]
    rfl
  · intro name i hFound
    rcases hEachItem _ (Keyed.mem_of_get?_ofList hFound) with
      ⟨d, hMem, hRead⟩
    rcases hItem d hMem with ⟨j, hOther, hDeclared⟩
    rw [hRead] at hOther
    cases hOther
    exact hDeclared
  · intro name t hFound
    rcases hEachTest _ (Keyed.mem_of_get?_ofList hFound) with
      ⟨d, hMem, hRead⟩
    rcases hTest d hMem with ⟨j, hOther, hDeclared⟩
    rw [hRead] at hOther
    cases hOther
    exact hDeclared

/- A package that is validated without errors can be built. -/
theorem exists_of_validate
    {v : Json}
    {r : Report}
    (hValid : validate v (Pass.all.map Pass.name) = .ok r)
    (hClean : r.has .error = false) :
    ∃ p, ofJson v = .ok p ∧ p.WellDeclared := by
  rcases Assessment.exists_of_validate hValid with
    ⟨e, hEnvelope, rfl⟩
  rcases exists_ofEnvelope hClean with ⟨p, hBuild, hDeclared⟩
  refine ⟨p, ?_, hDeclared⟩
  rw [ofJson, hEnvelope]
  exact hBuild

end Package

end Assessment
