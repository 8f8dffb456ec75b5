import Assessment.Proofs.Plan.Arrangement
import Mathlib.Data.List.Forall2

/-
  Plans of tests whose sections select nothing.

  Where every child of every section is taken, a plan has
  all references that resolve, each exactly once and under
  the sections that are shown around it, whatever the
  shuffles draw. Induction is on the sections: each holds
  what its parts hold, put in order.

  Main declarations:
    * `Renders`, what is chosen against what was defined
    * `ends_chooseEach` and `ends_planParts`
    * `Represents`, a node of a plan against its test part
    * `plan_represents`
-/

------------------------------------------------------------
-- Parts and What Is Chosen of Them
------------------------------------------------------------

namespace Assessment

/- A section as a part of what encloses it. -/
def Section.part (s : Section) : SectionPart :=
  .nested s.info s.parts

/- The sections of a test part, at any depth. -/
def TestPart.allSections (p : TestPart) : List Section :=
  p.sections.flatMap Section.withNested

namespace SectionPart

theorem outlineIn_append
    (resolves : ItemRef → Bool)
    (around : List String)
    (first rest : List SectionPart) :
    outlineIn resolves around (first ++ rest) =
      outlineIn resolves around first ++
        outlineIn resolves around rest := by
  induction first with
  | nil => rfl
  | cons p others ih =>
      rw [List.cons_append, outlineIn, ih, outlineIn,
        List.append_assoc]

theorem sectionsIn_append (first rest : List SectionPart) :
    sectionsIn (first ++ rest) =
      sectionsIn first ++ sectionsIn rest := by
  induction first with
  | nil => rfl
  | cons p others ih =>
      rw [List.cons_append, sectionsIn, ih, sectionsIn,
        List.append_assoc]

theorem sectionsIn_map_part (ss : List Section) :
    sectionsIn (ss.map Section.part) =
      ss.flatMap Section.withNested := by
  induction ss with
  | nil => rfl
  | cons s rest ih =>
      rw [List.map_cons, sectionsIn, ih, List.flatMap_cons]
      rfl

theorem outlineIn_map_part
    (resolves : ItemRef → Bool)
    (ss : List Section) :
    outlineIn resolves [] (ss.map Section.part) =
      ss.flatMap fun s => outline resolves [] s.part := by
  induction ss with
  | nil => rfl
  | cons s rest ih =>
      rw [List.map_cons, outlineIn, ih, List.flatMap_cons]

end SectionPart

namespace Planning

/- Every section in parts takes all it holds. -/
def Whole (parts : List SectionPart) : Prop :=
  ∀ s ∈ SectionPart.sectionsIn parts, s.info.selection = none

/- No section in parts shuffles what it holds. -/
def Unshuffled (parts : List SectionPart) : Prop :=
  ∀ s ∈ SectionPart.sectionsIn parts,
    s.info.shuffle ≠ some true

/- What is chosen of parts has their outline, but for order. -/
structure Renders
    (resolves : ItemRef → Bool)
    (parts : List SectionPart)
    (chosen : List Chosen) :
    Prop where
  places : ∀ around,
    (Chosen.outlineIn around chosen).Perm
      (SectionPart.outlineIn resolves around parts)
  inOrder : Unshuffled parts → ∀ around,
    Chosen.outlineIn around chosen =
      SectionPart.outlineIn resolves around parts
  shown : ∀ c ∈ chosen, c.ShownBelow

namespace Renders

variable {resolves : ItemRef → Bool}

theorem nil : Renders resolves [] [] where
  places _ := .nil
  inOrder _ _ := rfl
  shown _ hMem := absurd hMem List.not_mem_nil

theorem append
    {parts others : List SectionPart}
    {chosen more : List Chosen}
    (hFirst : Renders resolves parts chosen)
    (hRest : Renders resolves others more) :
    Renders resolves (parts ++ others) (chosen ++ more) where
  places around := by
    rw [Chosen.outlineIn_append, SectionPart.outlineIn_append]
    exact (hFirst.places around).append (hRest.places around)
  inOrder hUnshuffled around := by
    have hBoth : Unshuffled parts ∧ Unshuffled others := by
      simpa [Unshuffled, SectionPart.sectionsIn_append,
        or_imp, forall_and] using hUnshuffled
    rw [Chosen.outlineIn_append, SectionPart.outlineIn_append,
      hFirst.inOrder hBoth.1, hRest.inOrder hBoth.2]
  shown c hMem := by
    rcases List.mem_append.mp hMem with hC | hC
    · exact hFirst.shown c hC
    · exact hRest.shown c hC

/- A reference is taken if it resolves, and has no sections. -/
theorem item
    {ref : ItemRef}
    {chosen : List Chosen}
    (hChosen :
      chosen = if resolves ref then [.item ref] else []) :
    Renders resolves [.item ref] chosen := by
  have hSame : ∀ around,
      Chosen.outlineIn around chosen =
        SectionPart.outlineIn resolves around [.item ref] := by
    intro around
    by_cases hResolves : resolves ref = true
    · simp [hChosen, hResolves, Chosen.outlineIn,
        Chosen.outline, SectionPart.outlineIn,
        SectionPart.outline]
    · simp [hChosen, hResolves, Chosen.outlineIn,
        SectionPart.outlineIn, SectionPart.outline]
  refine ⟨fun around => .of_eq (hSame around),
    fun _ => hSame, ?_⟩
  rintro c hMem info children rfl
  split at hChosen
  · simp [hChosen] at hMem
  · simp [hChosen] at hMem

/- A section holds what its parts come to, put in order. -/
theorem nested
    {info : SectionInfo}
    {parts : List SectionPart}
    {children ordered : List Chosen}
    (hParts : Renders resolves parts children)
    (hArranged : Arranged info children ordered) :
    Renders resolves [.nested info parts]
      [.group info ordered] where
  places around := by
    have hPlaces := fun inner =>
      (hArranged.places inner).trans (hParts.places inner)
    simp only [Chosen.outlineIn, Chosen.outline,
      SectionPart.outlineIn, SectionPart.outline,
      List.append_nil]
    split
    · exact (hPlaces _).cons _
    · exact hPlaces around
  inOrder hUnshuffled around := by
    have hBoth :
        info.shuffle ≠ some true ∧ Unshuffled parts := by
      simpa [Unshuffled, SectionPart.sectionsIn,
        SectionPart.sections] using hUnshuffled
    have hSame := fun inner =>
      (hArranged.inOrder hBoth.1 inner).trans
        (hParts.inOrder hBoth.2 inner)
    simp only [Chosen.outlineIn, Chosen.outline,
      SectionPart.outlineIn, SectionPart.outline, hSame]
  shown c hMem := by
    rcases List.mem_singleton.mp hMem with rfl
    rintro _ _ hGroup
    cases hGroup
    exact hArranged.shown hParts.shown

end Renders

------------------------------------------------------------
-- Choices
------------------------------------------------------------

open Stateful

theorem whole_cons
    {p : SectionPart}
    {rest : List SectionPart}
    (hWhole : Whole (p :: rest)) :
    Whole [p] ∧ Whole rest := by
  have hBoth := hWhole
  unfold Whole at hBoth ⊢
  rw [SectionPart.sectionsIn] at hBoth
  simp only [SectionPart.sectionsIn, List.append_nil]
  constructor
  · exact fun s hMem => hBoth s (List.mem_append_left _ hMem)
  · exact fun s hMem => hBoth s (List.mem_append_right _ hMem)

mutual

/- All that a part holds is chosen once. -/
theorem ends_choose
    (planner : Planner) :
    ∀ (p : SectionPart) (tally : Tally), Whole [p] →
      Ends (choose planner p) tally fun r _ =>
        ∃ chosen, r = .ok chosen ∧
          Renders planner.resolves [p] chosen
  | .item ref, tally, _ => by
      unfold choose
      split
      next hResolves =>
        exact ⟨_, rfl, .item (by rw [if_pos hResolves])⟩
      next hUnknown =>
        rw [ends_bind, Step.ends_warn]
        exact ⟨_, rfl, .item (by rw [if_neg hUnknown])⟩
  | .nested info parts, tally, hWhole => by
      have hBoth : info.selection = none ∧ Whole parts := by
        simpa [Whole, SectionPart.sectionsIn,
          SectionPart.sections] using hWhole
      unfold choose counts
      rw [hBoth.1, ends_bind, ends_pure]
      dsimp only
      rw [ends_bind]
      refine (ends_chooseEach planner parts tally hBoth.2).mono ?_
      rintro r t ⟨children, rfl, hChildren⟩
      dsimp only
      rw [ends_bind]
      refine (ends_arrange info children t).mono ?_
      rintro r u ⟨ordered, rfl, -, hArranged⟩
      exact ⟨_, rfl, hChildren.nested hArranged⟩

theorem ends_chooseEach
    (planner : Planner) :
    ∀ (parts : List SectionPart) (tally : Tally),
      Whole parts →
        Ends (chooseEach planner (parts.map fun _ => 1) parts)
          tally fun r _ => ∃ chosen, r = .ok chosen ∧
            Renders planner.resolves parts chosen
  | [], tally, _ => ⟨[], rfl, .nil⟩
  | p :: rest, tally, hWhole => by
      rw [List.map_cons, chooseEach, ends_bind]
      simp only [times, ends_bind, ends_pure]
      refine (ends_choose planner p tally
        (whole_cons hWhole).1).mono ?_
      rintro r t ⟨first, rfl, hFirst⟩
      dsimp only
      refine (ends_chooseEach planner rest t
        (whole_cons hWhole).2).mono ?_
      rintro r u ⟨others, rfl, hOthers⟩
      rw [List.append_nil]
      exact ⟨_, rfl, hFirst.append hOthers⟩

end

/- The sections of a test part dissolve if they are not shown. -/
theorem ends_chooseSections
    (planner : Planner)
    (ss : List Section)
    (tally : Tally)
    (hWhole : Whole (ss.map Section.part)) :
    Ends (chooseSections planner ss) tally fun r _ =>
      ∃ chosen, r = .ok chosen ∧
        Renders planner.resolves (ss.map Section.part) chosen ∧
        ∀ c ∈ chosen, c.Shown := by
  induction ss generalizing tally with
  | nil => exact ⟨[], rfl, .nil, by simp⟩
  | cons s rest ih =>
      rw [chooseSections, ends_bind]
      refine (ends_choose planner s.part tally
        (whole_cons hWhole).1).mono ?_
      rintro r t ⟨first, rfl, hFirst⟩
      dsimp only
      rw [ends_bind]
      refine (ih t (whole_cons hWhole).2).mono ?_
      rintro r u ⟨others, rfl, hOthers, hShown⟩
      have hTop := Chosen.shown_of_dissolved hFirst.shown
      have hSame := Chosen.outlineIn_dissolved hidden_hides
      refine ⟨_, rfl, ?_, ?_⟩
      · have hDissolved : Renders planner.resolves [s.part]
            (first.flatMap (Chosen.dissolved fun info =>
              !info.visible)) := by
          refine ⟨?_, ?_, fun c hMem => (hTop c hMem).shownBelow⟩
          · intro around
            rw [hSame]
            exact hFirst.places around
          · intro hUnshuffled around
            rw [hSame]
            exact hFirst.inOrder hUnshuffled around
        exact hDissolved.append hOthers
      · intro c hMem
        rcases List.mem_append.mp hMem with hC | hC
        · exact hTop c hC
        · exact hShown c hC

------------------------------------------------------------
-- Nodes of Test Parts
------------------------------------------------------------

/- A node of a plan stands for a test part. -/
structure Follows
    (resolves : ItemRef → Bool)
    (part : TestPart)
    (node : PlanNode) :
    Prop where
  isPart : node.kind = .part
  sameName : node.identifier = part.identifier
  places : (node.outline []).Perm (part.outline resolves)
  inOrder :
    (∀ s ∈ part.allSections, s.info.shuffle ≠ some true) →
      node.outline [] = part.outline resolves

/- Every test part gets a node with all that resolves. -/
theorem ends_planParts
    (planner : Planner)
    (given : Keyed Nat)
    (parts : List TestPart)
    (tally : Tally)
    (hWhole : ∀ p ∈ parts, ∀ s ∈ p.allSections,
      s.info.selection = none) :
    Ends (planParts planner given parts) tally fun r _ =>
      ∃ nodes, r = .ok nodes ∧
        List.Forall₂ (Follows planner.resolves) parts nodes := by
  induction parts generalizing given tally with
  | nil => exact ⟨[], rfl, .nil⟩
  | cons p rest ih =>
      have hFirst : Whole (p.sections.map Section.part) := by
        unfold Whole
        rw [SectionPart.sectionsIn_map_part]
        exact hWhole p List.mem_cons_self
      rw [planParts, ends_bind]
      refine (ends_chooseSections planner p.sections tally
        hFirst).mono ?_
      rintro r t ⟨chosen, rfl, hChosen, hShown⟩
      dsimp only
      rw [ends_bind]
      refine (ih _ t fun q hMem =>
        hWhole q (List.mem_cons_of_mem p hMem)).mono ?_
      rintro r u ⟨others, rfl, hOthers⟩
      refine ⟨_, rfl, .cons ⟨rfl, rfl, ?_, ?_⟩ hOthers⟩
      · rw [PlanNode.outline, outlineIn_numberedAll _ _ _ hShown]
        have hPlaces := hChosen.places []
        rwa [SectionPart.outlineIn_map_part] at hPlaces
      · intro hUnshuffled
        rw [PlanNode.outline, outlineIn_numberedAll _ _ _ hShown]
        have hSame := hChosen.inOrder (by
          unfold Unshuffled
          rwa [SectionPart.sectionsIn_map_part]) []
        rwa [SectionPart.outlineIn_map_part] at hSame

end Planning

------------------------------------------------------------
-- Whole Plans
------------------------------------------------------------

/- The identifiers of the items planned for a part, in order. -/
def Plan.itemsIn (p : Plan) (part : Nat) : List String :=
  (p.items.filter fun x => x.1 == part).map fun x =>
    x.2.identifier

/- The references of a part that resolve, in document order. -/
def TestPart.references
    (resolves : ItemRef → Bool)
    (p : TestPart) :
    List String :=
  ((p.sections.flatMap Section.placements).filter fun q =>
    resolves q.ref).map fun q => q.ref.identifier

/- Places in a row tell what belongs to each. -/
theorem filter_zipIdx_flatMap
    {α β : Type}
    (f : α → List β)
    (xs : List α)
    (start k : Nat) :
    ((xs.zipIdx start).flatMap fun (x, i) =>
      (f x).map (i, ·)).filter (fun y => y.1 == start + k) =
        ((xs[k]?.map f).getD []).map (start + k, ·) := by
  have hOther : ∀ (ys : List β) (i j : Nat), i ≠ j →
      (ys.map (i, ·)).filter (fun y => y.1 == j) = [] := by
    intro ys i j hNe
    simp [List.filter_map, Function.comp_def, hNe]
  induction xs generalizing start k with
  | nil => simp
  | cons x rest ih =>
      rw [List.zipIdx_cons, List.flatMap_cons, List.filter_append]
      cases k with
      | zero =>
          have hRest : ((rest.zipIdx (start + 1)).flatMap
              fun (x, i) => (f x).map (i, ·)).filter
                (fun y => y.1 == start + 0) = [] := by
            rw [List.filter_eq_nil_iff]
            rintro ⟨i, b⟩ hMem
            rcases List.mem_flatMap.mp hMem with ⟨z, hZ, hIn⟩
            have hAfter := List.le_snd_of_mem_zipIdx hZ
            have hPlace : z.2 = i := by
              simp at hIn
              exact hIn.2
            simp
            omega
          rw [hRest]
          simp [List.filter_map, Function.comp_def]
      | succ k =>
          have hNext := ih (start + 1) k
          rw [hOther (f x) start (start + (k + 1)) (by omega)]
          rw [show start + (k + 1) = start + 1 + k by omega,
            hNext]
          simp

/- The items of a part are those below its node. -/
theorem Plan.itemsIn_eq_named
    {p : Plan}
    {k : Nat}
    {node : PlanNode}
    (hNode : p.parts[k]? = some node) :
    p.itemsIn k = node.named .item := by
  unfold itemsIn items PlanNode.named
  have hTagged := filter_zipIdx_flatMap
    (fun n : PlanNode => n.nodes.filter fun x => x.kind == .item)
    p.parts 0 k
  rw [Nat.zero_add] at hTagged
  rw [hTagged, hNode]
  simp

namespace TestPart

theorem named_item_outline
    (resolves : ItemRef → Bool)
    (p : TestPart) :
    Spot.named .item (p.outline resolves) =
      p.references resolves := by
  unfold outline references
  induction p.sections with
  | nil => rfl
  | cons s rest ih =>
      rw [List.flatMap_cons, Spot.named_append, ih,
        SectionPart.named_item_outline resolves [] [],
        List.flatMap_cons, List.filter_append, List.map_append]
      rfl

theorem named_group_outline
    (resolves : ItemRef → Bool)
    (p : TestPart) :
    Spot.named .group (p.outline resolves) =
      (p.allSections.filter fun s => s.info.visible).map
        fun s => s.info.identifier := by
  unfold outline allSections
  induction p.sections with
  | nil => rfl
  | cons s rest ih =>
      rw [List.flatMap_cons, Spot.named_append, ih,
        SectionPart.named_group_outline,
        List.flatMap_cons, List.filter_append, List.map_append]
      rfl

end TestPart

/-
  What a plan has for a test part: the identifiers of the
  items planned for it, and its node.
-/
structure Represents
    (resolves : ItemRef → Bool)
    (part : TestPart)
    (items : List String)
    (node : PlanNode) :
    Prop where
  isPart : node.kind = .part
  sameName : node.identifier = part.identifier
  /- No reference that resolves is lost or doubled. -/
  references : items.Perm (part.references resolves)
  /- Each one stands under the visible sections around it. -/
  places : (node.outline []).Perm (part.outline resolves)
  /- Only the visible sections have nodes. -/
  groups : (node.named .group).Perm
    ((part.allSections.filter fun s => s.info.visible).map
      fun s => s.info.identifier)
  /- Without a shuffle, the order is that of the document. -/
  inOrder :
    (∀ s ∈ part.allSections, s.info.shuffle ≠ some true) →
      items = part.references resolves ∧
        node.outline [] = part.outline resolves

theorem Planning.Follows.represents
    {resolves : ItemRef → Bool}
    {part : TestPart}
    {node : PlanNode}
    (hFollows : Follows resolves part node) :
    Represents resolves part (node.named .item) node := by
  have hItem : NodeKind.item ≠ .part := by decide
  have hGroup : NodeKind.group ≠ .part := by decide
  have hItems := PlanNode.named_outline hItem [] node
  have hGroups := PlanNode.named_outline hGroup [] node
  refine ⟨hFollows.isPart, hFollows.sameName, ?_,
    hFollows.places, ?_, ?_⟩
  · rw [← hItems, ← part.named_item_outline]
    exact Spot.named_perm hFollows.places .item
  · rw [← hGroups, ← part.named_group_outline resolves]
    exact Spot.named_perm hFollows.places .group
  · intro hUnshuffled
    have hSame := hFollows.inOrder hUnshuffled
    rw [← hItems, hSame, part.named_item_outline]
    exact ⟨rfl, rfl⟩

/-
  A test whose sections select nothing is planned whatever is
  drawn, and the plan represents every part of the test.
-/
theorem plan_represents
    (t : Test)
    (resolves : ItemRef → Bool)
    (tally : Tally)
    (hWhole : ∀ s ∈ t.sections, s.info.selection = none) :
    ∃ p : Plan, (Step.run (plan t resolves) tally).1 = .ok p ∧
      p.parts.length = t.parts.length ∧
      ∀ k part node, t.parts[k]? = some part →
        p.parts[k]? = some node →
          Represents resolves part (p.itemsIn k) node := by
  have hParts : Stateful.Ends (plan t resolves) tally fun r _ =>
      ∃ nodes, r = .ok ⟨nodes⟩ ∧
        List.Forall₂ (Planning.Follows resolves) t.parts
          nodes := by
    unfold plan
    rw [Stateful.ends_bind]
    refine (Planning.ends_planParts _ _ _ _ ?_).mono ?_
    · intro p hPart s hSection
      exact hWhole s (List.mem_flatMap.mpr ⟨p, hPart, hSection⟩)
    · rintro r u ⟨nodes, rfl, hNodes⟩
      exact ⟨nodes, rfl, hNodes⟩
  rcases hParts with ⟨nodes, hRun, hNodes⟩
  refine ⟨⟨nodes⟩, hRun, hNodes.length_eq.symm, ?_⟩
  intro k part node hPart hNode
  have hFollows : Planning.Follows resolves part node := by
    rw [List.forall₂_iff_get] at hNodes
    rcases List.getElem?_eq_some_iff.mp hPart with ⟨hK, rfl⟩
    rcases List.getElem?_eq_some_iff.mp hNode with ⟨hL, rfl⟩
    exact hNodes.2 k hK hL
  rw [Plan.itemsIn_eq_named hNode]
  exact hFollows.represents

/- A reference with no settings of its own. -/
def plainRef (identifier href : String) : ItemRef where
  identifier := identifier
  href := href
  required := false
  fixed := false
  categories := []
  weights := []
  templateDefaults := []
  control := none
  timeLimits := none

/- A section with no settings of its own. -/
def plainSection (identifier : String) : SectionInfo where
  identifier := identifier
  title := none
  visible := true
  keepTogether := true
  required := false
  fixed := false
  selection := none
  shuffle := none
  control := none
  timeLimits := none

/-
  A part whose section shuffles two references, one of them
  in a section of its own that is not visible, and a third
  reference to an item that does not exist.
-/
def scatteredPart : TestPart where
  identifier := "part"
  navigation := .linear
  submission := .individual
  control := none
  timeLimits := none
  sections := [
    { info := { plainSection "outer" with shuffle := some true }
      parts := [
        .item (plainRef "first" "item"),
        .item (plainRef "lost" "elsewhere"),
        .nested
          { plainSection "inner" with
            visible := false
            keepTogether := false }
          [.item (plainRef "second" "item")]] }]
  feedbacks := []

/- A test of the scattered part. -/
def scatteredTest : Test where
  identifier := "test"
  title := none
  outcomes := []
  timeLimits := none
  parts := [scatteredPart]
  outcomeProcessing := []
  feedbacks := []

/- The two references that resolve are planned, in some order. -/
theorem plan_represents_scattered :
    ∃ p : Plan,
      (Step.run (plan scatteredTest fun r => r.href == "item")
        ⟨default, []⟩).1 = .ok p ∧
      (p.itemsIn 0).Perm ["first", "second"] := by
  have hWhole :
      ∀ s ∈ scatteredTest.sections, s.info.selection = none := by
    decide
  rcases plan_represents scatteredTest
    (fun r => r.href == "item") ⟨default, []⟩ hWhole with
    ⟨p, hRun, hLength, hParts⟩
  have hFirst : 0 < p.parts.length := by
    rw [hLength]
    decide
  have hNode := List.getElem?_eq_getElem hFirst
  exact ⟨p, hRun, (hParts 0 scatteredPart _ rfl hNode).references⟩

end Assessment
