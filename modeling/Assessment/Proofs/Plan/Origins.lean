import Assessment.Proofs.Plan.Arrangement
import Assessment.Proofs.Plan.Whole

/-
  Where the nodes of a plan come from.

  Whatever is selected and shuffled, what is chosen of a part
  is made of its references that resolve and of its sections.
  Choices are only repeated, left out, dissolved or put in
  another order.

  Main declarations:
    * `Chosen.MadeOf`, what is found at any depth
    * `Planning.choose_madeOf` and `arrange_madeOf`
    * `Planning.Stems` and `plan_stems`
-/

------------------------------------------------------------
-- What Choices Are Made Of
------------------------------------------------------------

namespace Assessment

open Stateful

namespace Chosen

/- References and sections at any depth meet conditions. -/
inductive MadeOf
    (IsRef : ItemRef → Prop)
    (IsInfo : SectionInfo → Prop) :
    Chosen → Prop where
  | item
      (ref : ItemRef)
      (hRef : IsRef ref) :
      MadeOf IsRef IsInfo (.item ref)
  | group
      (info : SectionInfo)
      (children : List Chosen)
      (hInfo : IsInfo info)
      (hChildren : ∀ c ∈ children, MadeOf IsRef IsInfo c) :
      MadeOf IsRef IsInfo (.group info children)

/- So do those of all choices in a row. -/
def AllMadeOf
    (IsRef : ItemRef → Prop)
    (IsInfo : SectionInfo → Prop)
    (cs : List Chosen) :
    Prop :=
  ∀ c ∈ cs, c.MadeOf IsRef IsInfo

variable {IsRef : ItemRef → Prop}
variable {IsInfo : SectionInfo → Prop}

namespace AllMadeOf

theorem nil : AllMadeOf IsRef IsInfo [] :=
  fun _ hMem => absurd hMem List.not_mem_nil

theorem single
    {c : Chosen}
    (hC : c.MadeOf IsRef IsInfo) :
    AllMadeOf IsRef IsInfo [c] := by
  intro d hMem
  rcases List.mem_singleton.mp hMem with rfl
  exact hC

theorem append
    {first rest : List Chosen}
    (hFirst : AllMadeOf IsRef IsInfo first)
    (hRest : AllMadeOf IsRef IsInfo rest) :
    AllMadeOf IsRef IsInfo (first ++ rest) := by
  intro c hMem
  rcases List.mem_append.mp hMem with hC | hC
  · exact hFirst c hC
  · exact hRest c hC

/- What dissolves leaves what it was made of. -/
theorem dissolved
    {cs : List Chosen}
    (hAll : AllMadeOf IsRef IsInfo cs)
    (p : SectionInfo → Bool) :
    AllMadeOf IsRef IsInfo (cs.flatMap (dissolved p)) := by
  intro d hMem
  rcases List.mem_flatMap.mp hMem with ⟨c, hC, hD⟩
  cases c with
  | item ref =>
      rcases List.mem_singleton.mp hD with rfl
      exact hAll _ hC
  | group info children =>
      rw [Chosen.dissolved] at hD
      split at hD
      · cases hAll _ hC with
        | group _ _ _ hChildren => exact hChildren d hD
      · rcases List.mem_singleton.mp hD with rfl
        exact hAll _ hC

end AllMadeOf

end Chosen

namespace Planning

open Chosen

variable {IsRef : ItemRef → Prop}
variable {IsInfo : SectionInfo → Prop}

/- Another order is made of the same. -/
theorem shuffle_madeOf
    {children : List Chosen}
    (hAll : AllMadeOf IsRef IsInfo children) :
    Yields (AllMadeOf IsRef IsInfo) (shuffle children) := by
  intro tally
  unfold shuffle
  rw [ends_bind, Step.ends_take]
  rintro ordered hOk
  cases hOk
  have hPool := hAll.dissolved scatters
  have hFilled := fill_permutation_perm tally.draws
    (children.flatMap (Chosen.dissolved scatters))
  have hMoved : AllMadeOf IsRef IsInfo (fill _ _) :=
    fun c hMem => hPool c (hFilled.subset hMem)
  exact hMoved.dissolved travelsUnseen

theorem arrange_madeOf
    (info : SectionInfo)
    {children : List Chosen}
    (hAll : AllMadeOf IsRef IsInfo children) :
    Yields (AllMadeOf IsRef IsInfo) (arrange info children) := by
  unfold arrange
  split
  · refine Yields.bind (shuffle_madeOf hAll) ?_
    exact fun moved hMoved => Yields.pure (hMoved.dissolved _)
  · exact Yields.pure (hAll.dissolved _)

/- Repeated choices are made of the same. -/
theorem times_madeOf
    {x : Step (List Chosen)}
    (hOnce : Yields (AllMadeOf IsRef IsInfo) x)
    (n : Nat) :
    Yields (AllMadeOf IsRef IsInfo) (times x n) := by
  induction n with
  | zero => exact Yields.pure .nil
  | succ n ih =>
      refine Yields.bind hOnce fun first hFirst => ?_
      refine Yields.bind ih fun rest hRest => ?_
      exact Yields.pure (hFirst.append hRest)

mutual

/-
  What is chosen of a part is made of its references, if they
  resolve, and of its sections.
-/
theorem choose_madeOf
    (planner : Planner)
    (ancestry : List String) :
    ∀ p : SectionPart,
      (∀ q ∈ p.placements ancestry,
        planner.resolves q.ref = true → IsRef q.ref) →
      (∀ s ∈ p.sections, IsInfo s.info) →
        Yields (AllMadeOf IsRef IsInfo) (choose planner p)
  | .item ref, hRefs, _ => by
      rw [choose]
      split
      next hResolves =>
        refine Yields.pure (.single (.item ref ?_))
        exact hRefs ⟨ref, ancestry⟩ List.mem_cons_self hResolves
      next => exact Yields.skip fun _ => Yields.pure .nil
  | .nested info parts, hRefs, hInfos => by
      rw [choose]
      refine Yields.skip fun counts => ?_
      have hParts := chooseEach_madeOf planner
        (ancestry ++ [info.identifier]) counts parts hRefs
        fun s hMem => hInfos s (List.mem_cons_of_mem _ hMem)
      refine Yields.bind hParts fun children hChildren => ?_
      refine Yields.bind (arrange_madeOf info hChildren)
        fun ordered hOrdered => ?_
      have hOwn := hInfos ⟨info, parts⟩ List.mem_cons_self
      exact Yields.pure
        (.single (.group info ordered hOwn hOrdered))

theorem chooseEach_madeOf
    (planner : Planner)
    (ancestry : List String) :
    ∀ (counts : List Nat) (ps : List SectionPart),
      (∀ q ∈ SectionPart.placementsIn ancestry ps,
        planner.resolves q.ref = true → IsRef q.ref) →
      (∀ s ∈ SectionPart.sectionsIn ps, IsInfo s.info) →
        Yields (AllMadeOf IsRef IsInfo)
          (chooseEach planner counts ps)
  | counts, [], _, _ => by
      rw [chooseEach]
      exact Yields.pure .nil
  | [], p :: rest, _, _ => by
      rw [chooseEach]
      exact Yields.pure .nil
  | n :: ns, p :: rest, hRefs, hInfos => by
      rw [chooseEach]
      have hOnce := choose_madeOf planner ancestry p
        (fun q hMem => hRefs q (List.mem_append_left _ hMem))
        fun s hMem => hInfos s (List.mem_append_left _ hMem)
      have hOthers := chooseEach_madeOf planner ancestry ns rest
        (fun q hMem => hRefs q (List.mem_append_right _ hMem))
        fun s hMem => hInfos s (List.mem_append_right _ hMem)
      refine Yields.bind (times_madeOf hOnce n)
        fun first hFirst => ?_
      refine Yields.bind hOthers fun others hRest => ?_
      exact Yields.pure (hFirst.append hRest)

end

theorem chooseSections_madeOf
    (planner : Planner)
    (ss : List Section)
    (hRefs :
      ∀ q ∈ ss.flatMap Section.placements,
        planner.resolves q.ref = true → IsRef q.ref)
    (hInfos :
      ∀ s ∈ ss.flatMap Section.withNested, IsInfo s.info) :
    Yields (AllMadeOf IsRef IsInfo)
      (chooseSections planner ss) := by
  induction ss with
  | nil => exact Yields.pure .nil
  | cons s rest ih =>
      rw [List.flatMap_cons] at hRefs hInfos
      have hFirst := choose_madeOf planner [] s.part
        (fun q hMem => hRefs q (List.mem_append_left _ hMem))
        fun x hMem => hInfos x (List.mem_append_left _ hMem)
      have hOthers := ih
        (fun q hMem => hRefs q (List.mem_append_right _ hMem))
        fun x hMem => hInfos x (List.mem_append_right _ hMem)
      rw [chooseSections]
      refine Yields.bind hFirst fun first hMade => ?_
      refine Yields.bind hOthers fun others hRest => ?_
      exact Yields.pure ((hMade.dissolved _).append hRest)

------------------------------------------------------------
-- Nodes
------------------------------------------------------------

/- What a node below a test part stands for. -/
def StandsFor
    (IsRef : ItemRef → Prop)
    (IsInfo : SectionInfo → Prop)
    (n : PlanNode) :
    Prop :=
  match n.kind with
  | .item => ∃ ref, IsRef ref ∧ ref.identifier = n.identifier
  | .group =>
      ∃ info, IsInfo info ∧ info.identifier = n.identifier
  | .part => False

mutual

theorem standsFor_of_mem_numbered
    (given : Keyed Nat) :
    ∀ c : Chosen, c.MadeOf IsRef IsInfo →
      ∀ n ∈ (numbered given c).1.nodes,
        StandsFor IsRef IsInfo n
  | .item ref, hMade, n, hMem => by
      cases hMade with
      | item _ hRef =>
          rcases List.mem_singleton.mp hMem with rfl
          exact ⟨ref, hRef, rfl⟩
  | .group info children, hMade, n, hMem => by
      cases hMade with
      | group _ _ hInfo hChildren =>
          rcases List.mem_cons.mp hMem with rfl | hBelow
          · exact ⟨info, hInfo, rfl⟩
          · exact standsFor_of_mem_numberedAll _ children
              hChildren n hBelow

/- Nodes stand for what their choices are made of. -/
theorem standsFor_of_mem_numberedAll
    (given : Keyed Nat) :
    ∀ cs : List Chosen, AllMadeOf IsRef IsInfo cs →
      ∀ n ∈ PlanNode.nodesIn (numberedAll given cs).1,
        StandsFor IsRef IsInfo n
  | [], _, n, hMem => absurd hMem List.not_mem_nil
  | c :: rest, hAll, n, hMem => by
      rcases List.mem_append.mp hMem with hFirst | hRest
      · exact standsFor_of_mem_numbered given c
          (hAll c List.mem_cons_self) n hFirst
      · exact standsFor_of_mem_numberedAll _ rest
          (fun d hD => hAll d (List.mem_cons_of_mem c hD)) n
          hRest

end

/- A reference that resolves stands in a test part. -/
def Holds
    (resolves : ItemRef → Bool)
    (part : TestPart)
    (ref : ItemRef) :
    Prop :=
  resolves ref = true ∧
    ∃ q ∈ part.sections.flatMap Section.placements, q.ref = ref

/- A section is one of those of a test part. -/
def Encloses (part : TestPart) (info : SectionInfo) : Prop :=
  ∃ s ∈ part.allSections, s.info = info

/- A node of a plan against the test part it comes from. -/
structure Stems
    (resolves : ItemRef → Bool)
    (part : TestPart)
    (node : PlanNode) :
    Prop where
  isPart : node.kind = .part
  sameName : node.identifier = part.identifier
  below :
    ∀ n ∈ node.nodes, n = node ∨
      StandsFor (Holds resolves part) (Encloses part) n

theorem planParts_stem
    (planner : Planner)
    (given : Keyed Nat)
    (parts : List TestPart) :
    Yields (List.Forall₂ (Stems planner.resolves) parts)
      (planParts planner given parts) := by
  induction parts generalizing given with
  | nil => exact Yields.pure .nil
  | cons p rest ih =>
      have hChosen :
          Yields
            (AllMadeOf (Holds planner.resolves p) (Encloses p))
            (chooseSections planner p.sections) :=
        chooseSections_madeOf planner p.sections
          (fun q hMem hResolves => ⟨hResolves, q, hMem, rfl⟩)
          fun s hMem => ⟨s, hMem, rfl⟩
      rw [planParts]
      refine Yields.bind hChosen fun chosen hMade => ?_
      refine Yields.bind (ih _) fun others hOthers => ?_
      refine Yields.pure (.cons ⟨rfl, rfl, ?_⟩ hOthers)
      intro n hMem
      rcases List.mem_cons.mp hMem with rfl | hBelow
      · exact Or.inl rfl
      · exact Or.inr
          (standsFor_of_mem_numberedAll _ chosen hMade n hBelow)

end Planning

/- Every node of a plan comes from the test. -/
theorem plan_stems (t : Test) (resolves : ItemRef → Bool) :
    Yields
      (fun p =>
        List.Forall₂ (Planning.Stems resolves) t.parts p.parts)
      (plan t resolves) := by
  refine Yields.bind (Planning.planParts_stem _ [] t.parts) ?_
  exact fun nodes hStems => Yields.pure hStems

------------------------------------------------------------
-- Nodes of a Plan
------------------------------------------------------------

theorem PlanNode.mem_nodesIn
    {n : PlanNode}
    {nodes : List PlanNode} :
    n ∈ nodesIn nodes ↔ ∃ m ∈ nodes, n ∈ m.nodes := by
  induction nodes with
  | nil => simp [nodesIn]
  | cons first rest ih => simp [nodesIn, ih]

namespace Plan

/- Items are nodes below the node of their test part. -/
theorem mem_items {p : Plan} {x : Nat × PlanNode} :
    x ∈ p.items ↔
      ∃ node, p.parts[x.1]? = some node ∧
        x.2 ∈ node.nodes ∧ x.2.kind = .item := by
  rcases x with ⟨i, n⟩
  unfold items
  simp only [List.mem_flatMap, List.mem_map, List.mem_filter,
    beq_iff_eq, Prod.exists, List.mem_zipIdx_iff_getElem?,
    Prod.mk.injEq]
  constructor
  · rintro ⟨node, k, hNode, m, ⟨hMem, hKind⟩, rfl, rfl⟩
    exact ⟨node, hNode, hMem, hKind⟩
  · rintro ⟨node, hNode, hMem, hKind⟩
    exact ⟨node, i, hNode, n, ⟨hMem, hKind⟩, rfl, rfl⟩

/- Items come in the order of all nodes. -/
theorem map_snd_items (p : Plan) :
    p.items.map Prod.snd =
      (PlanNode.nodesIn p.parts).filter fun n =>
        n.kind == .item := by
  have hFrom : ∀ (nodes : List PlanNode) (k : Nat),
      ((nodes.zipIdx k).flatMap fun x =>
        (x.1.nodes.filter fun n => n.kind == .item).map
          (x.2, ·)).map Prod.snd =
        (PlanNode.nodesIn nodes).filter fun n =>
          n.kind == .item := by
    intro nodes
    induction nodes with
    | nil => exact fun _ => rfl
    | cons node rest ih =>
        intro k
        have hRest := ih (k + 1)
        rw [List.zipIdx_cons, List.flatMap_cons,
          List.map_append, hRest, PlanNode.nodesIn,
          List.filter_append]
        simp [Function.comp_def]
  exact hFrom p.parts 0

end Plan

namespace Planning

variable {t : Test}
variable {resolves : ItemRef → Bool}
variable {p : Plan}

/- An item of a plan is a reference of its part that resolves. -/
theorem exists_placement_of_mem_items
    (hStems : List.Forall₂ (Stems resolves) t.parts p.parts)
    {x : Nat × PlanNode}
    (hMem : x ∈ p.items) :
    ∃ part, t.parts[x.1]? = some part ∧
      ∃ q ∈ part.sections.flatMap Section.placements,
        q.ref.identifier = x.2.identifier ∧
          resolves q.ref = true := by
  rcases Plan.mem_items.mp hMem with
    ⟨node, hNode, hBelow, hKind⟩
  have hBound := (List.getElem?_eq_some_iff.mp hNode).1
  rw [← hStems.length_eq] at hBound
  have hStem : Stems resolves t.parts[x.1] node := by
    have hGet := (List.forall₂_iff_get.mp hStems).2 x.1 hBound
      (List.getElem?_eq_some_iff.mp hNode).1
    rw [← (List.getElem?_eq_some_iff.mp hNode).2]
    exact hGet
  refine ⟨_, List.getElem?_eq_getElem hBound, ?_⟩
  rcases hStem.below x.2 hBelow with hSelf | hStands
  · rw [hSelf, hStem.isPart] at hKind
    cases hKind
  · unfold StandsFor at hStands
    rw [hKind] at hStands
    rcases hStands with ⟨ref, ⟨hResolves, q, hQ, rfl⟩, hName⟩
    exact ⟨q, hQ, hName, hResolves⟩

/- What is no item is named as a part or a section is. -/
theorem named_of_mem_nodesIn
    (hStems : List.Forall₂ (Stems resolves) t.parts p.parts)
    {n : PlanNode}
    (hMem : n ∈ PlanNode.nodesIn p.parts)
    (hOther : n.kind ≠ .item) :
    n.identifier ∈ t.parts.map TestPart.identifier ∨
      n.identifier ∈
        t.sections.map fun s => s.info.identifier := by
  rcases PlanNode.mem_nodesIn.mp hMem with ⟨node, hNode, hBelow⟩
  rcases List.forall₂_iff_get.mp hStems with ⟨hLength, hAll⟩
  rcases List.getElem_of_mem hNode with ⟨k, hK, rfl⟩
  have hPart : k < t.parts.length := by omega
  have hStem : Stems resolves t.parts[k] p.parts[k] :=
    hAll k hPart hK
  rcases hStem.below n hBelow with rfl | hStands
  · rw [hStem.sameName]
    exact Or.inl (List.mem_map_of_mem (List.getElem_mem hPart))
  · unfold StandsFor at hStands
    cases hKind : n.kind with
    | part =>
        rw [hKind] at hStands
        cases hStands
    | item => exact absurd hKind hOther
    | group =>
        rw [hKind] at hStands
        rcases hStands with ⟨info, ⟨s, hS, rfl⟩, hName⟩
        refine Or.inr (List.mem_map.mpr ⟨s, ?_, hName⟩)
        exact List.mem_flatMap.mpr
          ⟨_, List.getElem_mem hPart, hS⟩

end Planning

end Assessment
