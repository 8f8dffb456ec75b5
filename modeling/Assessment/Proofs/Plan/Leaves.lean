import Assessment.Proofs.Plan.Arrangement
import Assessment.Proofs.Plan.Picking
import Mathlib.Data.List.Perm.Subperm

/-
  The references below parts and below what is chosen of them.

  Where no section selects with replacement, a plan can always
  be made, every child is chosen at most once, and what is
  chosen of some parts has no reference that the parts do not
  have. Shuffles and sections that dissolve change the order
  of the references at most, and numbers do not even that.

  Main declarations:
    * `Chosen.names` and `SectionPart.references`
    * `Rearranged`, what becomes of the children of a section
    * `Sparing`, parts that select nothing twice
    * `plans_nested` and `plans_around`, for what is chosen of
      a section and of the parts around one of them
    * `plans_chooseAll`, no more than there is
-/

------------------------------------------------------------
-- References of Choices
------------------------------------------------------------

namespace Assessment

open Stateful

namespace Chosen

mutual

/- The identifiers of the references in what is chosen. -/
def names : Chosen → List String
  | .item ref => [ref.identifier]
  | .group _ children => namesIn children

/- Those in choices in a row. -/
def namesIn : List Chosen → List String
  | [] => []
  | c :: rest => names c ++ namesIn rest

end

mutual

/- They are the references of an outline. -/
theorem named_item_outline (around : List String) :
    ∀ c : Chosen, Spot.named .item (outline around c) = c.names
  | .item ref => by simp [outline, names]
  | .group info children => by
      rw [outline, names]
      split
      · rw [Spot.named_cons, named_item_outlineIn]
        rfl
      · exact named_item_outlineIn around children

theorem named_item_outlineIn (around : List String) :
    ∀ cs : List Chosen,
      Spot.named .item (outlineIn around cs) = namesIn cs
  | [] => rfl
  | c :: rest => by
      rw [outlineIn, Spot.named_append,
        named_item_outline around c,
        named_item_outlineIn around rest, namesIn]

end

@[simp] theorem namesIn_nil : namesIn [] = [] := rfl

@[simp] theorem namesIn_append (first rest : List Chosen) :
    namesIn (first ++ rest) =
      namesIn first ++ namesIn rest := by
  simp only [← named_item_outlineIn [], outlineIn_append,
    Spot.named_append]

@[simp] theorem namesIn_group
    (info : SectionInfo)
    (children rest : List Chosen) :
    namesIn (.group info children :: rest) =
      namesIn children ++ namesIn rest := by
  rw [namesIn, names]

theorem namesIn_perm
    {cs ds : List Chosen}
    (hPerm : cs.Perm ds) :
    (namesIn cs).Perm (namesIn ds) := by
  simp only [← named_item_outlineIn []]
  exact Spot.named_perm (outlineIn_perm hPerm []) .item

/- Sections that dissolve leave the references in order. -/
theorem namesIn_dissolved
    {p : SectionInfo → Bool}
    (hHides : Hides p)
    (cs : List Chosen) :
    namesIn (cs.flatMap (dissolved p)) = namesIn cs := by
  simp only [← named_item_outlineIn [],
    outlineIn_dissolved hHides]

end Chosen

namespace Planning

mutual

/- Numbers leave the references in order. -/
theorem named_numbered (given : Keyed Nat) :
    ∀ c : Chosen, (numbered given c).1.named .item = c.names
  | .item ref => by
      simp [numbered, PlanNode.named_node, PlanNode.namedIn,
        PlanNode.nodesIn, Chosen.names]
  | .group info children => by
      rw [numbered, Chosen.names]
      dsimp only
      rw [PlanNode.named_node, namedIn_numberedAll]
      rfl

theorem namedIn_numberedAll (given : Keyed Nat) :
    ∀ cs : List Chosen,
      PlanNode.namedIn .item (numberedAll given cs).1 =
        Chosen.namesIn cs
  | [] => rfl
  | c :: rest => by
      rw [numberedAll, Chosen.namesIn]
      dsimp only
      rw [PlanNode.namedIn_cons, named_numbered,
        namedIn_numberedAll]

end

end Planning

------------------------------------------------------------
-- References of Parts
------------------------------------------------------------

namespace SectionPart

/- The references in parts that resolve, in document order. -/
def references
    (resolves : ItemRef → Bool)
    (parts : List SectionPart) :
    List String :=
  ((placementsIn [] parts).filter fun q => resolves q.ref).map
    fun q => q.ref.identifier

variable (resolves : ItemRef → Bool)

/- They are the references of an outline. -/
theorem references_eq_named (parts : List SectionPart) :
    references resolves parts =
      Spot.named .item (outlineIn resolves [] parts) :=
  (named_item_outlineIn resolves [] [] parts).symm

@[simp] theorem references_append
    (first rest : List SectionPart) :
    references resolves (first ++ rest) =
      references resolves first ++ references resolves rest := by
  simp only [references_eq_named, outlineIn_append,
    Spot.named_append]

theorem references_cons
    (p : SectionPart)
    (rest : List SectionPart) :
    references resolves (p :: rest) =
      references resolves [p] ++ references resolves rest := by
  rw [← references_append, List.singleton_append]

@[simp] theorem references_nested
    (info : SectionInfo)
    (parts : List SectionPart) :
    references resolves [.nested info parts] =
      references resolves parts := by
  have hInner := named_item_outlineIn resolves []
    [info.identifier] parts
  rw [references_eq_named resolves parts, hInner, references,
    placementsIn, placements, placementsIn, List.append_nil]
  rfl

theorem references_item (ref : ItemRef) :
    references resolves [.item ref] =
      if resolves ref then [ref.identifier] else [] := by
  cases hResolves : resolves ref <;>
    simp [references, placementsIn, placements, hResolves]

end SectionPart

------------------------------------------------------------
-- Children in Order
------------------------------------------------------------

namespace Planning

/-
  What becomes of the children of a section: sections that are
  not shown dissolve, and if the section shuffles, the others
  are mixed, where those that need not stay together dissolve
  before.
-/
inductive Rearranged
    (info : SectionInfo)
    (children : List Chosen) :
    List Chosen → Prop
  | inOrder (hInOrder : info.shuffle ≠ some true) :
      Rearranged info children
        (children.flatMap
          (Chosen.dissolved fun info => !info.visible))
  | mixed {mixed : List Chosen}
      (hShuffles : info.shuffle = some true)
      (hMixed :
        (children.flatMap (Chosen.dissolved scatters)).Perm
          mixed) :
      Rearranged info children
        ((mixed.flatMap (Chosen.dissolved travelsUnseen)).flatMap
          (Chosen.dissolved fun info => !info.visible))

theorem Rearranged.names_perm
    {info : SectionInfo}
    {children ordered : List Chosen}
    (hRearranged : Rearranged info children ordered) :
    (Chosen.namesIn ordered).Perm (Chosen.namesIn children) := by
  cases hRearranged with
  | inOrder => rw [Chosen.namesIn_dissolved hidden_hides]
  | mixed _ hMixed =>
      rw [Chosen.namesIn_dissolved hidden_hides,
        Chosen.namesIn_dissolved travelsUnseen_hides]
      have hPerm := Chosen.namesIn_perm hMixed.symm
      rwa [Chosen.namesIn_dissolved scatters_hides] at hPerm

/- A step of planning goes through with a property. -/
abbrev Plans {α : Type} (P : α → Prop) (x : Step α) : Prop :=
  Gives (fun _ => True) P x

/- There is one result, with every property of a family. -/
theorem Plans.all
    {α : Type}
    {ι : Sort _}
    {P : ι → α → Prop}
    {x : Step α}
    (hSome : Plans (fun _ => True) x)
    (hAll : ∀ i, Plans (P i) x) :
    Plans (fun a => ∀ i, P i a) x := by
  intro s _
  rcases hSome s trivial with ⟨_, a, hOk, _⟩
  refine ⟨trivial, a, hOk, fun i => ?_⟩
  rcases hAll i s trivial with ⟨_, b, hSame, hP⟩
  rw [hOk] at hSame
  cases hSame
  exact hP

theorem plans_arrange
    (info : SectionInfo)
    (children : List Chosen) :
    Plans (Rearranged info children) (arrange info children) := by
  intro tally _
  unfold arrange shuffle
  by_cases hShuffles : info.shuffle = some true
  · simp only [hShuffles, beq_self_eq_true, if_true, ends_bind,
      Step.ends_take, ends_pure]
    exact ⟨trivial, _, rfl,
      .mixed hShuffles (fill_permutation_perm _ _).symm⟩
  · simp only [beq_iff_eq, hShuffles, if_false, ends_bind,
      ends_pure]
    exact ⟨trivial, _, rfl, .inOrder hShuffles⟩

------------------------------------------------------------
-- Selections without Replacement
------------------------------------------------------------

/- No section in parts selects with replacement. -/
def Sparing (parts : List SectionPart) : Prop :=
  ∀ s ∈ SectionPart.sectionsIn parts,
    ∀ sel, s.info.selection = some sel →
      sel.withReplacement = false

/- Each of some children is counted, and at most once. -/
structure CountsOnce (children : Nat) (cs : List Nat) : Prop where
  length : cs.length = children
  once : ∀ n ∈ cs, n ≤ 1

theorem plans_counts
    (planner : Planner)
    {info : SectionInfo}
    (hNever :
      ∀ sel, info.selection = some sel →
        sel.withReplacement = false)
    (parts : List SectionPart) :
    Plans (CountsOnce parts.length)
      (counts planner info parts) := by
  intro tally _
  unfold counts
  cases hSelection : info.selection with
  | none =>
      refine ⟨trivial, _, rfl, by simp, ?_⟩
      simp
  | some sel =>
      have hOnce := hNever sel hSelection
      by_cases hZero : sel.count = 0
      · have hNone : (sel.count == 0) = true := by
          simpa using hZero
        simp only [select, hNone, if_true, ends_pure]
        refine ⟨trivial, _, rfl, by simp, ?_⟩
        simp
      · have hRoom : sel.count ≤ max sel.count parts.length :=
          Nat.le_max_left _ _
        rcases run_select (Nat.one_le_iff_ne_zero.mpr hZero)
            (.inr hOnce) hRoom (Nat.le_max_right _ _) planner
            info.identifier tally with
          ⟨cs, u, hRun, _, hPicks⟩
        unfold Ends
        rw [hRun]
        exact ⟨trivial, cs, rfl, hPicks.length,
          hPicks.once hOnce⟩

------------------------------------------------------------
-- What Is Chosen
------------------------------------------------------------

theorem chooseAll_append
    (planner : Planner)
    (first rest : List SectionPart) :
    chooseAll planner (first ++ rest) = do
      let a ← chooseAll planner first
      let b ← chooseAll planner rest
      return a ++ b := by
  induction first with
  | nil => simp [chooseAll]
  | cons p others ih =>
      rw [List.cons_append, chooseAll, chooseAll, ih]
      simp only [bind_assoc, pure_bind, List.append_assoc]

theorem plans_append
    {planner : Planner}
    {P Q : List Chosen → Prop}
    {first rest : List SectionPart}
    (hFirst : Plans P (chooseAll planner first))
    (hRest : Plans Q (chooseAll planner rest)) :
    Plans (fun cs => ∃ a b, cs = a ++ b ∧ P a ∧ Q b)
      (chooseAll planner (first ++ rest)) := by
  rw [chooseAll_append]
  refine hFirst.bind fun a hA => ?_
  refine hRest.bind fun b hB => ?_
  exact Gives.pure ⟨a, b, rfl, hA, hB⟩

/-
  A section chooses some of its parts in a row, each at most
  once, and puts what is chosen in order.
-/
theorem plans_nested
    {planner : Planner}
    {info : SectionInfo}
    {parts : List SectionPart}
    {P : List Chosen → Prop}
    (hNever :
      ∀ sel, info.selection = some sel →
        sel.withReplacement = false)
    (hParts :
      ∀ picked, picked.Sublist parts →
        Plans P (chooseAll planner picked)) :
    Plans
      (fun cs => ∃ children ordered,
        cs = [.group info ordered] ∧ P children ∧
          Rearranged info children ordered)
      (choose planner (.nested info parts)) := by
  rw [choose]
  refine (plans_counts planner hNever parts).bind
    fun cs hCounts => ?_
  rw [chooseEach_eq]
  refine (hParts _ (repeated_sublist hCounts.once parts)).bind
    fun children hChildren => ?_
  refine (plans_arrange info children).bind
    fun ordered hOrdered => ?_
  exact Gives.pure
    ⟨children, ordered, rfl, hChildren, hOrdered⟩

theorem Sparing.append
    {first rest : List SectionPart}
    (hSparing : Sparing (first ++ rest)) :
    Sparing first ∧ Sparing rest := by
  unfold Sparing at hSparing ⊢
  rw [SectionPart.sectionsIn_append] at hSparing
  exact ⟨fun s hMem => hSparing s (List.mem_append_left _ hMem),
    fun s hMem => hSparing s (List.mem_append_right _ hMem)⟩

theorem Sparing.cons
    {p : SectionPart}
    {rest : List SectionPart}
    (hSparing : Sparing (p :: rest)) :
    Sparing [p] ∧ Sparing rest := by
  have hBoth : Sparing ([p] ++ rest) := hSparing
  exact hBoth.append

theorem Sparing.nested
    {info : SectionInfo}
    {parts : List SectionPart}
    (hSparing : Sparing [.nested info parts]) :
    (∀ sel, info.selection = some sel →
      sel.withReplacement = false) ∧ Sparing parts := by
  simpa [Sparing, SectionPart.sectionsIn, SectionPart.sections]
    using hSparing

mutual

/- What is chosen has no reference that is not there. -/
theorem plans_choose
    (planner : Planner) :
    ∀ p : SectionPart, Sparing [p] →
      Plans
        (fun cs => (Chosen.namesIn cs).Subperm
          (SectionPart.references planner.resolves [p]))
        (choose planner p)
  | .item ref, _ => by
      rw [choose, SectionPart.references_item]
      split
      · exact Gives.pure (List.Subperm.refl _)
      · intro tally _
        rw [ends_bind, Step.ends_warn]
        exact ⟨trivial, [], rfl, List.nil_subperm⟩
  | .nested info parts, hSparing => by
      rcases hSparing.nested with ⟨hNever, hParts⟩
      refine (plans_nested hNever fun picked hPicked =>
        plans_chooseAll planner parts picked hPicked hParts).mono
          ?_
      rintro _ ⟨children, ordered, rfl, hWithin, hOrdered⟩
      rw [Chosen.namesIn_group, Chosen.namesIn_nil,
        List.append_nil, SectionPart.references_nested]
      exact hOrdered.names_perm.subperm.trans hWithin

theorem plans_chooseAll
    (planner : Planner) :
    ∀ parts picked : List SectionPart,
      picked.Sublist parts → Sparing parts →
        Plans
          (fun cs => (Chosen.namesIn cs).Subperm
            (SectionPart.references planner.resolves parts))
          (chooseAll planner picked)
  | [], picked, hPicked, _ => by
      rw [List.sublist_nil.mp hPicked]
      exact Gives.pure List.nil_subperm
  | p :: rest, picked, hPicked, hSparing => by
      rw [SectionPart.references_cons]
      rcases List.sublist_cons_iff.mp hPicked with
        hRest | ⟨others, rfl, hOthers⟩
      · refine (plans_chooseAll planner rest picked hRest
          hSparing.cons.2).mono fun cs hWithin => ?_
        exact hWithin.trans
          (List.sublist_append_right _ _).subperm
      · rw [chooseAll]
        refine (plans_choose planner p hSparing.cons.1).bind
          fun a hA => ?_
        refine (plans_chooseAll planner rest others hOthers
          hSparing.cons.2).bind fun b hB => ?_
        refine Gives.pure ?_
        rw [Chosen.namesIn_append]
        exact hA.append hB

end

/- What is chosen of parts around one of them. -/
theorem plans_around
    {planner : Planner}
    {p : SectionPart}
    {pre post picked : List SectionPart}
    {P : List Chosen → Prop}
    (hSparing : Sparing (pre ++ p :: post))
    (hPicked : picked.Sublist (pre ++ p :: post))
    (hMiddle : Plans P (choose planner p)) :
    Plans
      (fun cs => ∃ a x b, cs = a ++ x ++ b ∧
        (x = [] ∨ P x) ∧
        (Chosen.namesIn (a ++ b)).Subperm
          (SectionPart.references planner.resolves
            (pre ++ post)))
      (chooseAll planner picked) := by
  rcases List.sublist_append_iff.mp hPicked with
    ⟨first, rest, rfl, hFirst, hRest⟩
  rcases hSparing.append with ⟨hPre, hOthers⟩
  have hMore :
      Plans
        (fun cs => ∃ x b, cs = x ++ b ∧ (x = [] ∨ P x) ∧
          (Chosen.namesIn b).Subperm
            (SectionPart.references planner.resolves post))
        (chooseAll planner rest) := by
    have hPost := plans_chooseAll planner post
    rcases List.sublist_cons_iff.mp hRest with
      hSkipped | ⟨others, rfl, hTaken⟩
    · exact (hPost rest hSkipped hOthers.cons.2).mono
        fun b hB => ⟨[], b, rfl, .inl rfl, hB⟩
    · rw [chooseAll]
      refine hMiddle.bind fun x hX => ?_
      refine (hPost others hTaken hOthers.cons.2).bind
        fun b hB => ?_
      exact Gives.pure ⟨x, b, rfl, .inr hX, hB⟩
  refine (plans_append
    (plans_chooseAll planner pre first hFirst hPre) hMore).mono ?_
  rintro _ ⟨a, _, rfl, hA, x, b, rfl, hX, hB⟩
  refine ⟨a, x, b, by rw [List.append_assoc], hX, ?_⟩
  rw [Chosen.namesIn_append, SectionPart.references_append]
  exact hA.append hB

/- The sections of a test part are chosen as parts are. -/
theorem chooseSections_eq
    (planner : Planner)
    (ss : List Section) :
    chooseSections planner ss = do
      let chosen ← chooseAll planner (ss.map Section.part)
      return chosen.flatMap
        (Chosen.dissolved fun info => !info.visible) := by
  induction ss with
  | nil => simp [chooseSections, chooseAll]
  | cons s rest ih =>
      rw [chooseSections, List.map_cons, chooseAll, ih]
      simp only [bind_assoc, pure_bind, List.flatMap_append]
      rfl

end Planning

end Assessment
