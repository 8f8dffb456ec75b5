import Assessment.Proofs.Expression.References
import Assessment.Proofs.Test.Typing
import Assessment.Proofs.Validation.Rules

/-
  What validation ensures of references.

  Outcome rules see a test and its items through a view. The
  view has the references of the test with their weights, and
  of every item that was selected the variables, as its
  reference and the item that this leads to have them.

  In a cleared package every reference in the rules of a
  document stands for a declaration that meets the demands of
  its leaf, and a reference of a test to an item is the only
  one of its identifier.

  Main declarations:
    * `Test.RefsDistinct`
    * `TestView.Shows`, the views of a test
    * `TestView.Shows.resolve_ne_unknown`
    * `TestSession.Refers`, with `start_refers` and `after`
    * `Definition.Holds` and `Definition.Mentions`, the
      expressions and the leaves in the rules
    * `Package.Cleared.exists_declared`
    * `Package.Cleared.refsDistinct`
    * `Package.Cleared.exists_item`, for dotted names
-/

------------------------------------------------------------
-- References
------------------------------------------------------------

namespace Assessment

open Stateful

/- References of a test with the same identifier are equal. -/
def Test.RefsDistinct (t : Test) : Prop :=
  ∀ q ∈ t.placements, ∀ q' ∈ t.placements,
    q.ref.identifier = q'.ref.identifier → q.ref = q'.ref

/- Then any of them is the first one of its identifier. -/
theorem Test.RefsDistinct.itemRef?
    {t : Test}
    (hDistinct : t.RefsDistinct)
    {q : Placement}
    (hMem : q ∈ t.placements) :
    t.itemRef? q.ref.identifier = some q.ref := by
  unfold Test.itemRef?
  cases hFirst : t.placements.find? fun q' =>
      q'.ref.identifier == q.ref.identifier with
  | none =>
      have hNot := List.find?_eq_none.mp hFirst q hMem
      simp at hNot
  | some q' =>
      have hOther := List.mem_of_find?_eq_some hFirst
      have hSame := List.find?_some hFirst
      rw [Option.map_some,
        hDistinct q' hOther q hMem (by simpa using hSame)]

------------------------------------------------------------
-- Views
------------------------------------------------------------

namespace TestView

/-
  A view of a test that refers to some items: its references
  with their weights, and items that they lead to.
-/
structure Shows (view : TestView) (t : Test)
    (items : Keyed Item) : Prop where
  references :
    view.references =
      t.placements.map fun q =>
        (q.ref.identifier, q.ref.weights)
  items :
    ∀ v ∈ view.items, ∃ q ∈ t.placements, ∃ i,
      q.ref.identifier = v.reference ∧
        items.get? q.ref.href = some i ∧
          v.declarations = i.declarations

namespace Shows

variable {view : TestView}
variable {t : Test}
variable {items : Keyed Item}

/- Weights are looked up at the first reference. -/
theorem weightsOf?
    (hShows : view.Shows t items)
    (reference : String) :
    view.weightsOf? reference =
      (t.itemRef? reference).map ItemRef.weights := by
  rw [TestView.weightsOf?, hShows.references, List.find?_map,
    Test.itemRef?, Option.map_map, Option.map_map]
  rfl

/- An item of a reference declares what the reference leads to. -/
theorem declarations_of_mem
    (hShows : view.Shows t items)
    (hDistinct : t.RefsDistinct)
    {ref : ItemRef}
    {i : Item}
    {v : ItemView}
    (hRef : t.itemRef? v.reference = some ref)
    (hItem : items.get? ref.href = some i)
    (hMem : v ∈ view.items) :
    v.declarations = i.declarations := by
  rcases hShows.items v hMem with ⟨q, hQ, j, hName, hJ, hSame⟩
  rw [← hName, hDistinct.itemRef? hQ] at hRef
  cases hRef
  rw [hItem] at hJ
  cases hJ
  exact hSame

/-
  A name leads somewhere if its reference leads to an item
  with the variable, whether or not the item was selected.
-/
theorem resolve_ne_unknown
    (hShows : view.Shows t items)
    (hDistinct : t.RefsDistinct)
    {name : DottedName}
    {ref : ItemRef}
    {i : Item}
    {d : Declaration}
    (hRef : t.itemRef? name.reference = some ref)
    (hItem : items.get? ref.href = some i)
    (hDeclared : i.declaration? name.identifier = some d) :
    view.resolve name.reference name.occurrence
      name.identifier ≠ .unknown := by
  have hWeights :
      (view.weightsOf? name.reference).isNone = false := by
    rw [hShows.weightsOf?, hRef]
    rfl
  have hChosen : ∀ v,
      v ∈ view.items.filter
        (fun v => v.reference == name.reference) →
      (v.value? name.identifier).isSome = true := by
    intro v hMem
    rcases List.mem_filter.mp hMem with ⟨hShown, hName⟩
    have hRef' : t.itemRef? v.reference = some ref := by
      rw [beq_iff_eq.mp hName]
      exact hRef
    have hSame := hShows.declarations_of_mem hDistinct hRef'
      hItem hShown
    rw [ItemView.value?, hSame, Option.isSome_map]
    exact Option.isSome_of_eq_some hDeclared
  unfold resolve
  dsimp only
  split
  · rw [hWeights, Bool.and_false, if_neg (by simp)]
    simp
  next v hFound =>
    have hMem : v ∈ view.items.filter
        (fun v => v.reference == name.reference) := by
      split at hFound
      · exact List.mem_of_find?_eq_some hFound
      · exact List.mem_of_head? hFound
    rcases Option.isSome_iff_exists.mp (hChosen v hMem) with
      ⟨w, hValue⟩
    rw [hValue]
    dsimp only
    split <;> simp

end Shows

end TestView

------------------------------------------------------------
-- Sessions
------------------------------------------------------------

namespace TestSession

variable {p : Package}

/- Its items are those that its references lead to. -/
def Refers (s : TestSession) (items : Keyed Item) : Prop :=
  ∀ e ∈ s.entries, ∃ q ∈ s.test.placements,
    e.ref = q.ref ∧
      items.get? q.ref.href = some e.session.item

theorem start_refers
    {t : Test}
    {items : Keyed Item}
    {engine : Engine}
    {draws : Draws}
    {first : TestSession}
    (hStart : start t items engine draws = .ok first) :
    first.test = t ∧ first.Refers items := by
  have hTest := start_test hStart
  refine ⟨hTest, fun e hMem => ?_⟩
  have hFresh := start_fresh hStart e hMem
  have hIn := List.mem_of_find?_eq_some hFresh.definition
  rw [hTest]
  exact ⟨⟨e.ref, e.sections⟩, List.mem_reverse.mp hIn, rfl,
    hFresh.item⟩

/- Calls change neither references nor items. -/
theorem Refers.after
    {s : TestSession}
    (hRefers : s.Refers p.items)
    (calls : List TestCall) :
    (s.after calls).Refers p.items := by
  have hKeeps : s.Keeps p (s.after calls) :=
    after_moves TestCall.keeps s calls
  have hPlaces := s.after_sameSetup calls
  intro f hMem
  rcases List.getElem?_of_mem hMem with ⟨k, hF⟩
  rcases hKeeps.refs k f hF with ⟨e, hE, hRef⟩
  rcases hRefers e (List.mem_of_getElem? hE) with
    ⟨q, hQ, hSame, hItem⟩
  have hSetup := (hPlaces.entries k e f hE hF).2
  rw [hKeeps.test, hRef, hSetup.item]
  exact ⟨q, hQ, hSame, hItem⟩

/- The view of such a session shows its test. -/
theorem Refers.exists_view
    {s : TestSession}
    {items : Keyed Item}
    (hRefers : s.Refers items) :
    ∃ view, s.scope.test = some view ∧
      view.Shows s.test items := by
  refine ⟨_, rfl, rfl, fun v hMem => ?_⟩
  rcases List.mem_map.mp hMem with ⟨e, hEntry, rfl⟩
  rcases hRefers e hEntry with ⟨q, hQ, hRef, hItem⟩
  refine ⟨q, hQ, e.session.item, ?_, hItem, rfl⟩
  rw [← hRef]
  rfl

end TestSession

------------------------------------------------------------
-- Identifiers
------------------------------------------------------------

open Finding (NoErrors noErrors_append eq_false_of_noErrors_when)

namespace Test

/- Nodes that pass have identifiers of their own. -/
theorem nodup_of_checkNodes
    {c : Catalogue}
    {t : Test}
    {earlier : List String}
    {listed : List (TestPart × Path × StructureNode)}
    (hClean :
      NoErrors StructureProblem.severity
        (checkNodes c t earlier listed)) :
    (∀ x ∈ listed, x.2.2.identifier ∉ earlier) ∧
      (listed.map fun x => x.2.2.identifier).Nodup := by
  induction listed generalizing earlier with
  | nil => simp
  | cons first rest ih =>
      rcases first with ⟨part, path, node⟩
      simp only [checkNodes, noErrors_append] at hClean
      rcases hClean with ⟨⟨⟨⟨hTwice, _⟩, _⟩, _⟩, hRest⟩
      have hNew := eq_false_of_noErrors_when hTwice rfl
      rcases ih hRest with ⟨hLater, hDistinct⟩
      constructor
      · rw [List.forall_mem_cons]
        refine ⟨by simpa using hNew, fun x hMem hOld => ?_⟩
        exact hLater x hMem (List.mem_cons_of_mem _ hOld)
      · rw [List.map_cons, List.nodup_cons]
        refine ⟨fun hAgain => ?_, hDistinct⟩
        rcases List.mem_map.mp hAgain with ⟨x, hMem, hSame⟩
        apply hLater x hMem
        rw [hSame]
        exact List.mem_cons_self

/- So references with the same identifier are equal. -/
theorem refsDistinct_of_noErrors
    {c : Catalogue}
    {t : Test}
    (hClean :
      NoErrors StructureProblem.severity
        (c.checkStructure t)) :
    t.RefsDistinct := by
  simp only [Catalogue.checkStructure, noErrors_append]
    at hClean
  have hDistinct := (nodup_of_checkNodes hClean.2).2
  intro q hQ q' hQ' hSame
  rcases exists_mem_nodes_of_mem_placements hQ with
    ⟨part, path, hNode⟩
  rcases exists_mem_nodes_of_mem_placements hQ' with
    ⟨part', path', hNode'⟩
  have hEqual :=
    List.inj_on_of_nodup_map hDistinct hNode hNode' hSame
  simp only [Prod.mk.injEq, StructureNode.item.injEq] at hEqual
  exact hEqual.2.2

/- The variables of a test that has been read are outcomes. -/
theorem IsBuilt.kind
    {t : Test}
    (hBuilt : t.IsBuilt)
    {d : Declaration}
    (hMem : d ∈ t.declarations) :
    d.kind = .outcome := by
  have hRead : ∀ d ∈ t.outcomes, d.kind = .outcome := by
    intro d hOwn
    rcases hBuilt d hOwn with ⟨v, hRead⟩
    exact Declaration.kind_of_ofJson hRead
  unfold declarations at hMem
  split at hMem
  · exact hRead d hMem
  · rcases List.mem_append.mp hMem with hOwn | hTime
    · exact hRead d hOwn
    · rw [List.mem_singleton.mp hTime]
      rfl

end Test

/- Only responses have mappings. -/
theorem Declaration.response?_of_outcome
    {d : Declaration}
    (hKind : d.kind = .outcome) :
    d.response? = none := by
  unfold kind at hKind
  unfold response?
  cases hDetail : d.detail <;> simp_all

------------------------------------------------------------
-- References
------------------------------------------------------------

/- An expression stands somewhere in the rules of a document. -/
def Definition.Holds (d : Definition) (e : Expression) : Prop :=
  ∃ rules ∈ d.ruleLists, ∃ deed ∈ Rule.deedsIn rules.rules,
    e ∈ deed.expression.subexpressions

/- The leaves among them. -/
def Definition.Mentions (d : Definition) (l : Leaf) : Prop :=
  d.Holds (.leaf l)

theorem Lookup.ofOption_eq_declared
    {o : Option Declaration}
    {x : Declaration}
    (hSame : ofOption o = .declared x) :
    o = some x := by
  cases o <;> cases hSame
  rfl

/- An undotted name stands for a variable of the document. -/
theorem Catalogue.declaration?_of_lookup
    {c : Catalogue}
    {d : Definition}
    {identifier : String}
    (hPlain :
      d.test? = none ∨ DottedName.parse? identifier = none)
    {x : Declaration}
    (hLookup : c.lookup d identifier = .declared x) :
    findDeclaration? d.declarations identifier = some x := by
  cases d with
  | item i => exact Lookup.ofOption_eq_declared hLookup
  | test t =>
      rcases hPlain with hNone | hNone
      · cases hNone
      · simp only [lookup, hNone] at hLookup
        exact Lookup.ofOption_eq_declared hLookup

namespace Package.Cleared

variable {c : Catalogue}
variable {p : Package}

theorem refsDistinct
    (hCleared : p.Cleared c)
    {t : Test}
    (hDefined : .test t ∈ c.definitions) :
    t.RefsDistinct :=
  Test.refsDistinct_of_noErrors (hCleared.structures t hDefined)

theorem test_isBuilt
    (hCleared : p.Cleared c)
    {t : Test}
    (hDefined : .test t ∈ c.definitions) :
    t.IsBuilt := by
  rcases hCleared.built _ hDefined with ⟨x, hRead⟩
  rcases Definition.exists_build_of_test hRead with ⟨d, hBuild⟩
  exact Test.isBuilt_of_build hBuild

/- References in rules stand for what their leaves demand. -/
theorem exists_declared
    (hCleared : p.Cleared c)
    {d : Definition}
    (hDefined : d ∈ c.definitions)
    {l : Leaf}
    (hMentions : d.Mentions l)
    {identifier : String}
    (hName : l.identifier? = some identifier) :
    ∃ x, c.lookup d identifier = .declared x ∧
      Expression.unmet? l x = none := by
  rcases hMentions with ⟨rules, hList, deed, hDeed, hInside⟩
  rcases Definition.exists_mem_expressions hList hDeed hInside
    with ⟨path, hNode⟩
  have hExpressions := hCleared.expressions d hDefined
  unfold Catalogue.checkExpressions at hExpressions
  rw [noErrors_append] at hExpressions
  have hCheck :
      NoErrors ExpressionProblem.severity
        ((Expression.leaf l).check c d path) := by
    intro f hMem
    apply hExpressions.1
    exact List.mem_flatMap.mpr ⟨(path, .leaf l), hNode, hMem⟩
  simp only [Expression.check, Expression.checkLeaf,
    noErrors_append] at hCheck
  have hReference := hCheck.2.1.1
  simp only [Expression.checkReference, hName] at hReference
  have hKnown :=
    hCleared.lookup_ne_unresolved hDefined identifier
  cases hLookup : c.lookup d identifier with
  | unresolved => exact absurd hLookup hKnown
  | undeclared =>
      rw [hLookup] at hReference
      exact absurd rfl (hReference _ List.mem_cons_self)
  | declared x =>
      refine ⟨x, rfl, ?_⟩
      simp only [hLookup, Expression.checkDeclared,
        noErrors_append] at hReference
      cases hUnmet : Expression.unmet? l x with
      | none => rfl
      | some wanted =>
          rw [hUnmet] at hReference
          exact absurd rfl (hReference.1 _ List.mem_cons_self)

/- A dotted name leads to a reference, an item, a variable. -/
theorem exists_item
    (hCleared : p.Cleared c)
    {t : Test}
    {identifier : String}
    {name : DottedName}
    (hDotted : DottedName.parse? identifier = some name)
    {x : Declaration}
    (hLookup : c.lookup (.test t) identifier = .declared x) :
    ∃ ref i, t.itemRef? name.reference = some ref ∧
      p.items.get? ref.href = some i ∧
        i.declaration? name.identifier = some x := by
  simp only [Catalogue.lookup, hDotted,
    Catalogue.lookupDotted] at hLookup
  cases hRef : t.itemRef? name.reference with
  | none =>
      rw [hRef] at hLookup
      cases hLookup
  | some ref =>
      cases hItem : c.item? ref.href with
      | none =>
          rw [hRef] at hLookup
          simp only [hItem] at hLookup
          cases hLookup
      | some i =>
          rw [hRef] at hLookup
          simp only [hItem] at hLookup
          rw [hCleared.item?] at hItem
          exact ⟨ref, i, rfl, hItem,
            Lookup.ofOption_eq_declared hLookup⟩

end Package.Cleared

end Assessment
