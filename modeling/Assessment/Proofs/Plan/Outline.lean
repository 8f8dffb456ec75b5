import Assessment.Test.Plan
import Mathlib.Data.List.Perm.Basic

/-
  The outlines of tests and plans.

  An outline lists references and sections from the top, each
  with the sections around it that are shown. Sections that
  are not visible have no place in it. What becomes of parts
  while they are chosen, put in order and numbered can be said
  by outlines alone.

  Main declarations:
    * `Spot`, a place in an outline
    * `SectionPart.outline`, `Chosen.outline` and
      `PlanNode.outline`
    * `Chosen.outlineIn_dissolved`, sections that are not
      visible may dissolve at any time
    * `Planning.outlineIn_numberedAll`
-/

------------------------------------------------------------
-- Outlines
------------------------------------------------------------

namespace Assessment

/- A reference or a section and the sections shown around it. -/
structure Spot where
  kind : NodeKind
  identifier : String
  /- Outermost first. -/
  around : List String
deriving DecidableEq, Repr

namespace SectionPart

mutual

/-
  The references that resolve and the visible sections of a
  part, in the order of the document.
-/
def outline (resolves : ItemRef → Bool) (around : List String) :
    SectionPart → List Spot
  | .item ref =>
      if resolves ref then [⟨.item, ref.identifier, around⟩]
      else []
  | .nested info parts =>
      if info.visible then
        ⟨.group, info.identifier, around⟩ ::
          outlineIn resolves (around ++ [info.identifier]) parts
      else outlineIn resolves around parts

/- The outline of parts in a row. -/
def outlineIn (resolves : ItemRef → Bool)
    (around : List String) :
    List SectionPart → List Spot
  | [] => []
  | p :: rest =>
      outline resolves around p ++ outlineIn resolves around rest

end

end SectionPart

namespace Chosen

mutual

/- The outline of what has been chosen. -/
def outline (around : List String) : Chosen → List Spot
  | .item ref => [⟨.item, ref.identifier, around⟩]
  | .group info children =>
      if info.visible then
        ⟨.group, info.identifier, around⟩ ::
          outlineIn (around ++ [info.identifier]) children
      else outlineIn around children

/- The outline of choices in a row. -/
def outlineIn (around : List String) :
    List Chosen → List Spot
  | [] => []
  | c :: rest => outline around c ++ outlineIn around rest

end

end Chosen

namespace PlanNode

mutual

/- The outline of a node of a plan. -/
def outline (around : List String) : PlanNode → List Spot
  | .node .part _ _ children => outlineIn around children
  | .node kind identifier _ children =>
      ⟨kind, identifier, around⟩ ::
        outlineIn (around ++ [identifier]) children

/- The outline of nodes in a row. -/
def outlineIn (around : List String) :
    List PlanNode → List Spot
  | [] => []
  | n :: rest => outline around n ++ outlineIn around rest

end

end PlanNode

/- The outline of a test part as its author defined it. -/
def TestPart.outline (resolves : ItemRef → Bool)
    (p : TestPart) : List Spot :=
  p.sections.flatMap fun s =>
    SectionPart.outline resolves [] (.nested s.info s.parts)

------------------------------------------------------------
-- Identifiers in an Outline
------------------------------------------------------------

/- The identifiers of one kind in an outline. -/
def Spot.named (kind : NodeKind) (spots : List Spot) :
    List String :=
  (spots.filter fun s => s.kind == kind).map Spot.identifier

namespace Spot

@[simp] theorem named_nil (kind : NodeKind) :
    named kind [] = [] := rfl

@[simp] theorem named_append
    (kind : NodeKind)
    (first rest : List Spot) :
    named kind (first ++ rest) =
      named kind first ++ named kind rest := by
  simp [named]

@[simp] theorem named_cons
    (kind : NodeKind)
    (s : Spot)
    (rest : List Spot) :
    named kind (s :: rest) =
      if s.kind == kind then s.identifier :: named kind rest
      else named kind rest := by
  unfold named
  rw [List.filter_cons]
  split <;> rfl

/- Outlines in another order have the same identifiers. -/
theorem named_perm
    {first other : List Spot}
    (hPerm : first.Perm other)
    (kind : NodeKind) :
    (named kind first).Perm (named kind other) :=
  (hPerm.filter _).map _

end Spot

namespace PlanNode

/- The identifiers of nodes of one kind in plan nodes. -/
def namedIn (kind : NodeKind) (ns : List PlanNode) :
    List String :=
  ((nodesIn ns).filter fun x => x.kind == kind).map identifier

/- Those at a node and below it. -/
def named (kind : NodeKind) (n : PlanNode) : List String :=
  (n.nodes.filter fun x => x.kind == kind).map identifier

theorem named_node
    (kind own : NodeKind)
    (identifier : String)
    (occurrence : Nat)
    (children : List PlanNode) :
    named kind (.node own identifier occurrence children) =
      if own == kind then identifier :: namedIn kind children
      else namedIn kind children := by
  unfold named namedIn
  by_cases hSame : (own == kind) = true
  · rw [if_pos hSame, nodes,
      List.filter_cons_of_pos
        (by simpa [PlanNode.kind] using hSame)]
    rfl
  · rw [if_neg hSame, nodes,
      List.filter_cons_of_neg
        (by simpa [PlanNode.kind] using hSame)]

theorem namedIn_cons
    (kind : NodeKind)
    (n : PlanNode)
    (rest : List PlanNode) :
    namedIn kind (n :: rest) =
      named kind n ++ namedIn kind rest := by
  unfold named namedIn
  rw [nodesIn, List.filter_append, List.map_append]

mutual

/- An outline has the identifiers of all nodes but parts. -/
theorem named_outline
    {kind : NodeKind}
    (hKind : kind ≠ .part)
    (around : List String) :
    ∀ n : PlanNode,
      Spot.named kind (n.outline around) = n.named kind
  | .node .part identifier occurrence children => by
      have hRest := named_outlineIn hKind around children
      rw [outline, hRest, named_node,
        if_neg (by simpa using hKind.symm)]
  | .node .group identifier occurrence children => by
      have hRest :=
        named_outlineIn hKind (around ++ [identifier]) children
      rw [outline, Spot.named_cons, hRest, named_node]
      · simp
  | .node .item identifier occurrence children => by
      have hRest :=
        named_outlineIn hKind (around ++ [identifier]) children
      rw [outline, Spot.named_cons, hRest, named_node]
      · simp

theorem named_outlineIn
    {kind : NodeKind}
    (hKind : kind ≠ .part)
    (around : List String) :
    ∀ ns : List PlanNode,
      Spot.named kind (outlineIn around ns) = namedIn kind ns
  | [] => rfl
  | n :: rest => by
      have hFirst := named_outline hKind around n
      have hRest := named_outlineIn hKind around rest
      rw [outlineIn, Spot.named_append, hFirst, hRest,
        namedIn_cons]

end

end PlanNode

namespace SectionPart

mutual

/- The references of an outline are those that resolve. -/
theorem named_item_outline
    (resolves : ItemRef → Bool)
    (around ancestry : List String) :
    ∀ p : SectionPart,
      Spot.named .item (p.outline resolves around) =
        ((p.placements ancestry).filter fun q =>
          resolves q.ref).map fun q => q.ref.identifier
  | .item ref => by
      by_cases hResolves : resolves ref = true
      · simp [outline, placements, hResolves]
      · simp [outline, placements, hResolves]
  | .nested info parts => by
      have hShown := named_item_outlineIn resolves
        (around ++ [info.identifier])
        (ancestry ++ [info.identifier]) parts
      have hHidden := named_item_outlineIn resolves around
        (ancestry ++ [info.identifier]) parts
      rw [outline, placements]
      split
      · rw [Spot.named_cons, hShown]
        rfl
      · exact hHidden

theorem named_item_outlineIn
    (resolves : ItemRef → Bool)
    (around ancestry : List String) :
    ∀ ps : List SectionPart,
      Spot.named .item (outlineIn resolves around ps) =
        ((placementsIn ancestry ps).filter fun q =>
          resolves q.ref).map fun q => q.ref.identifier
  | [] => rfl
  | p :: rest => by
      have hFirst := named_item_outline resolves around ancestry p
      have hRest :=
        named_item_outlineIn resolves around ancestry rest
      rw [outlineIn, placementsIn, Spot.named_append, hFirst,
        hRest, List.filter_append, List.map_append]

end

mutual

/- The sections of an outline are those that are visible. -/
theorem named_group_outline
    (resolves : ItemRef → Bool)
    (around : List String) :
    ∀ p : SectionPart,
      Spot.named .group (p.outline resolves around) =
        (p.sections.filter fun s => s.info.visible).map
          fun s => s.info.identifier
  | .item ref => by
      by_cases hResolves : resolves ref = true
      · simp [outline, sections, hResolves]
      · simp [outline, sections, hResolves]
  | .nested info parts => by
      have hShown := named_group_outlineIn resolves
        (around ++ [info.identifier]) parts
      have hHidden := named_group_outlineIn resolves around parts
      rw [outline, sections, List.filter_cons]
      split
      · rw [Spot.named_cons, hShown]
        rfl
      · exact hHidden

theorem named_group_outlineIn
    (resolves : ItemRef → Bool)
    (around : List String) :
    ∀ ps : List SectionPart,
      Spot.named .group (outlineIn resolves around ps) =
        ((sectionsIn ps).filter fun s => s.info.visible).map
          fun s => s.info.identifier
  | [] => rfl
  | p :: rest => by
      have hFirst := named_group_outline resolves around p
      have hRest := named_group_outlineIn resolves around rest
      rw [outlineIn, sectionsIn, Spot.named_append, hFirst,
        hRest, List.filter_append, List.map_append]

end

end SectionPart

------------------------------------------------------------
-- Choices
------------------------------------------------------------

namespace Chosen

theorem outlineIn_eq_flatMap
    (around : List String)
    (cs : List Chosen) :
    outlineIn around cs = cs.flatMap (outline around) := by
  induction cs with
  | nil => rfl
  | cons c rest ih => rw [outlineIn, ih, List.flatMap_cons]

@[simp] theorem outlineIn_append
    (around : List String)
    (first rest : List Chosen) :
    outlineIn around (first ++ rest) =
      outlineIn around first ++ outlineIn around rest := by
  simp only [outlineIn_eq_flatMap, List.flatMap_append]

/- Choices in another order have the same places in outlines. -/
theorem outlineIn_perm
    {cs ds : List Chosen}
    (hPerm : cs.Perm ds)
    (around : List String) :
    (outlineIn around cs).Perm (outlineIn around ds) := by
  rw [outlineIn_eq_flatMap, outlineIn_eq_flatMap]
  exact hPerm.flatMap_right _

/- A condition that no visible section satisfies. -/
def Hides (p : SectionInfo → Bool) : Prop :=
  ∀ info, p info = true → info.visible = false

/- Sections that are not visible may dissolve at any time. -/
theorem outlineIn_dissolved
    {p : SectionInfo → Bool}
    (hHides : Hides p)
    (around : List String)
    (cs : List Chosen) :
    outlineIn around (cs.flatMap (dissolved p)) =
      outlineIn around cs := by
  induction cs with
  | nil => rfl
  | cons c rest ih =>
      rw [List.flatMap_cons, outlineIn_append, ih, outlineIn]
      congr 1
      cases c with
      | item ref => simp [dissolved, outlineIn]
      | group info children =>
          by_cases hHidden : p info = true
          · have hOwn := hHides info hHidden
            simp [dissolved, hHidden, outline, hOwn]
          · simp [dissolved, hHidden, outlineIn]

/- Every section is visible, at any depth. -/
inductive Shown : Chosen → Prop where
  | item (ref : ItemRef) : Shown (.item ref)
  | group
      (info : SectionInfo)
      (children : List Chosen)
      (hVisible : info.visible = true)
      (hChildren : ∀ c ∈ children, Shown c) :
      Shown (.group info children)

/- Every section below the top is visible. -/
def ShownBelow (c : Chosen) : Prop :=
  ∀ info children, c = .group info children →
    ∀ d ∈ children, d.Shown

theorem Shown.shownBelow
    {c : Chosen}
    (hShown : c.Shown) :
    c.ShownBelow := by
  rintro info children rfl d hMem
  cases hShown with
  | group _ _ _ hChildren => exact hChildren d hMem

/- What dissolves leaves only sections that are visible. -/
theorem shownBelow_of_dissolved
    {p : SectionInfo → Bool}
    {cs : List Chosen}
    (hBelow : ∀ c ∈ cs, c.ShownBelow) :
    ∀ d ∈ cs.flatMap (dissolved p), d.ShownBelow := by
  intro d hMem
  rcases List.mem_flatMap.mp hMem with ⟨c, hC, hD⟩
  cases c with
  | item ref =>
      rcases List.mem_singleton.mp hD with rfl
      exact hBelow _ hC
  | group info children =>
      rw [dissolved] at hD
      split at hD
      · exact (hBelow _ hC info children rfl d hD).shownBelow
      · rcases List.mem_singleton.mp hD with rfl
        exact hBelow _ hC

/- Once the sections that are not visible have dissolved. -/
theorem shown_of_dissolved
    {cs : List Chosen}
    (hBelow : ∀ c ∈ cs, c.ShownBelow) :
    ∀ d ∈ cs.flatMap (dissolved fun info => !info.visible),
      d.Shown := by
  intro d hMem
  rcases List.mem_flatMap.mp hMem with ⟨c, hC, hD⟩
  cases c with
  | item ref =>
      rcases List.mem_singleton.mp hD with rfl
      exact .item ref
  | group info children =>
      have hChildren := hBelow _ hC info children rfl
      rw [dissolved] at hD
      split at hD
      · exact hChildren d hD
      next hVisible =>
        rcases List.mem_singleton.mp hD with rfl
        exact .group info children (by simpa using hVisible)
          hChildren

end Chosen

------------------------------------------------------------
-- Numbers
------------------------------------------------------------

namespace Planning

mutual

/- Numbers do not change the outline of what is shown. -/
theorem outline_numbered
    (around : List String)
    (given : Keyed Nat) :
    ∀ c : Chosen, c.Shown →
      (numbered given c).1.outline around = c.outline around
  | .item ref, _ => rfl
  | .group info children, hShown => by
      cases hShown with
      | group _ _ hVisible hChildren =>
          have hBelow := outlineIn_numberedAll
            (around ++ [info.identifier])
            (number given info.identifier).2 children hChildren
          rw [numbered, Chosen.outline, if_pos hVisible]
          dsimp only
          rw [PlanNode.outline, hBelow]
          · simp

theorem outlineIn_numberedAll
    (around : List String)
    (given : Keyed Nat) :
    ∀ cs : List Chosen, (∀ c ∈ cs, c.Shown) →
      PlanNode.outlineIn around (numberedAll given cs).1 =
        Chosen.outlineIn around cs
  | [], _ => rfl
  | c :: rest, hShown => by
      have hFirst := outline_numbered around given c
        (hShown c List.mem_cons_self)
      have hRest := outlineIn_numberedAll around
        (numbered given c).2 rest fun d hMem =>
          hShown d (List.mem_cons_of_mem c hMem)
      rw [numberedAll, Chosen.outlineIn]
      dsimp only
      rw [PlanNode.outlineIn, hFirst, hRest]

end

end Planning

end Assessment
