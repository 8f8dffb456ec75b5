import Assessment.Proofs.Plan.Outline
import Assessment.Proofs.Stateful
import Assessment.Test.Plan

/-
  The numbers of occurrences in a plan, and what the order of
  a section does to its children.

  Numbers are given from the top of the plan on, to nodes of
  every kind. The numbers given so far are carried along, and
  what they say is how often each identifier has occurred. So
  the occurrences of an identifier are numbered from one, in
  the order of the plan, whatever else is planned.

  A shuffle takes the children that are not fixed out of
  their places, and puts them back into these places in
  another order. Nothing is lost, and sections that are not
  visible dissolve on the way, some before the shuffle and
  some after it.

  Main declarations:
    * `PlanNode.occurrencesIn`
    * `Planning.CountsOn`, what numbering keeps to
    * `Planning.countsOn_numberedAll`, by the tree
    * `plan_counted`
    * `fill_perm`, places are filled with what was taken out
    * `Arranged` and `ends_arrange`
-/

------------------------------------------------------------
-- Numbers Given
------------------------------------------------------------

namespace Assessment

open Stateful

/- The numbers that nodes of an identifier have, in a row. -/
def PlanNode.occurrencesIn
    (nodes : List PlanNode)
    (identifier : String) :
    List Nat :=
  (nodes.filter fun n => n.identifier == identifier).map
    PlanNode.occurrence

namespace Planning

/- The last number that has been given to an identifier. -/
def lastGiven (given : Keyed Nat) (identifier : String) : Nat :=
  (given.get? identifier).getD 0

/-
  Nodes in a row take up the numbers of every identifier where
  they have been left, and `after` says where they leave them.
-/
def CountsOn
    (given : Keyed Nat)
    (nodes : List PlanNode)
    (after : Keyed Nat) :
    Prop :=
  ∀ identifier,
    PlanNode.occurrencesIn nodes identifier =
        List.range' (lastGiven given identifier + 1)
          (PlanNode.occurrencesIn nodes identifier).length ∧
      lastGiven after identifier =
        lastGiven given identifier +
          (PlanNode.occurrencesIn nodes identifier).length

namespace CountsOn

theorem nil (given : Keyed Nat) : CountsOn given [] given :=
  fun _ => ⟨rfl, rfl⟩

theorem append
    {given middle after : Keyed Nat}
    {first rest : List PlanNode}
    (hFirst : CountsOn given first middle)
    (hRest : CountsOn middle rest after) :
    CountsOn given (first ++ rest) after := by
  intro identifier
  rcases hFirst identifier with ⟨hNumbers, hLast⟩
  rcases hRest identifier with ⟨hMore, hAfter⟩
  have hBoth :
      PlanNode.occurrencesIn (first ++ rest) identifier =
        PlanNode.occurrencesIn first identifier ++
          PlanNode.occurrencesIn rest identifier := by
    simp [PlanNode.occurrencesIn]
  constructor
  · rw [hBoth, List.length_append, hNumbers, hMore, hLast,
      List.length_range', List.length_range']
    rw [show lastGiven given identifier +
        (PlanNode.occurrencesIn first identifier).length + 1 =
      lastGiven given identifier + 1 +
        1 * (PlanNode.occurrencesIn first identifier).length by
      omega]
    exact List.range'_append
  · rw [hBoth, List.length_append, hAfter, hLast]
    omega

/- A node takes the next number of its identifier. -/
theorem single
    (given : Keyed Nat)
    (kind : NodeKind)
    (identifier : String)
    (children : List PlanNode) :
    CountsOn given
      [.node kind identifier (number given identifier).1 children]
      (number given identifier).2 := by
  intro other
  by_cases hSame : identifier = other
  · subst hSame
    simp [PlanNode.occurrencesIn, PlanNode.identifier,
      PlanNode.occurrence, number, lastGiven,
      Keyed.get?_put_self]
  · have hOther : other ≠ identifier := fun h => hSame h.symm
    simp [PlanNode.occurrencesIn, PlanNode.identifier, number,
      lastGiven, hSame, Keyed.get?_put_of_ne hOther]

/- A node comes before the nodes below it. -/
theorem node
    {given after : Keyed Nat}
    {kind : NodeKind}
    {identifier : String}
    {children : List PlanNode}
    (hBelow :
      CountsOn (number given identifier).2
        (PlanNode.nodesIn children) after) :
    CountsOn given
      (PlanNode.nodes
        (.node kind identifier (number given identifier).1
          children))
      after := by
  rw [PlanNode.nodes, ← List.singleton_append]
  exact (single given kind identifier children).append hBelow

end CountsOn

------------------------------------------------------------
-- Trees
------------------------------------------------------------

mutual

theorem countsOn_numbered (given : Keyed Nat) :
    ∀ c : Chosen,
      CountsOn given (numbered given c).1.nodes
        (numbered given c).2
  | .item _ => .node (.nil _)
  | .group info children =>
      .node (countsOn_numberedAll
        (number given info.identifier).2 children)

/- Whatever has been chosen, its numbers are kept. -/
theorem countsOn_numberedAll (given : Keyed Nat) :
    ∀ cs : List Chosen,
      CountsOn given
        (PlanNode.nodesIn (numberedAll given cs).1)
        (numberedAll given cs).2
  | [] => .nil given
  | c :: rest =>
      (countsOn_numbered given c).append
        (countsOn_numberedAll (numbered given c).2 rest)

end

/- Test parts are numbered in a row, with what they hold. -/
theorem planParts_countsOn
    (planner : Planner)
    (given : Keyed Nat)
    (parts : List TestPart) :
    Yields
      (fun nodes => ∃ after,
        CountsOn given (PlanNode.nodesIn nodes) after)
      (planParts planner given parts) := by
  induction parts generalizing given with
  | nil => exact Yields.pure ⟨given, .nil given⟩
  | cons p rest ih =>
      refine Yields.skip fun chosen => ?_
      refine Yields.bind (ih _) ?_
      rintro others ⟨after, hOthers⟩
      refine Yields.pure ⟨after, ?_⟩
      rw [PlanNode.nodesIn]
      exact (CountsOn.node
        (countsOn_numberedAll _ chosen)).append hOthers

end Planning

/-
  Whatever is drawn, the occurrences of an identifier are
  numbered from one, in the order of the plan.
-/
theorem plan_counted
    (t : Test)
    (resolves : ItemRef → Bool) :
    Yields
      (fun p => ∀ identifier,
        PlanNode.occurrencesIn (PlanNode.nodesIn p.parts)
            identifier =
          List.range' 1
            (PlanNode.occurrencesIn (PlanNode.nodesIn p.parts)
              identifier).length)
      (plan t resolves) := by
  refine Yields.bind (Planning.planParts_countsOn _ [] t.parts) ?_
  rintro nodes ⟨after, hNumbers⟩
  exact Yields.pure fun identifier => (hNumbers identifier).1

------------------------------------------------------------
-- Draws and Notes
------------------------------------------------------------

namespace Step

open Stateful (Ends)

variable {α : Type}

@[simp] theorem ends_take
    (f : Draws → α × Draws)
    (t : Tally)
    (Q : Except Failure α → Tally → Prop) :
    Ends (Step.take f) t Q ↔
      Q (.ok (f t.draws).1) { t with draws := (f t.draws).2 } :=
  Iff.rfl

@[simp] theorem ends_warn
    (source message : String)
    (t : Tally)
    (Q : Except Failure Unit → Tally → Prop) :
    Ends (Step.warn source message) t Q ↔
      Q (.ok ()) { t with
        notes := t.notes ++ [⟨.warning, source, message⟩] } :=
  Iff.rfl

end Step

------------------------------------------------------------
-- Places in a Shuffle
------------------------------------------------------------

namespace Planning

/- As many as were taken out go back, so that none is lost. -/
theorem fill_perm
    {pool moved : List Chosen}
    (hLength :
      moved.length = (pool.filter fun c => !c.fixed).length) :
    (fill pool moved).Perm
      (pool.filter (fun c => c.fixed) ++ moved) := by
  induction pool generalizing moved with
  | nil =>
      have hNone : moved = [] := by simpa using hLength
      simp [fill, hNone]
  | cons c rest ih =>
      by_cases hFixed : c.fixed = true
      · have hRest := ih (by simpa [hFixed] using hLength)
        simpa [fill, hFixed] using hRest
      · have hLoose : c.fixed = false := by simpa using hFixed
        cases moved with
        | nil => simp [hLoose] at hLength
        | cons m others =>
            have hRest := ih (by simpa [hLoose] using hLength)
            have hMiddle := @List.perm_middle _ m
              (rest.filter (fun c => c.fixed)) others
            simpa [fill, hLoose] using
              (hRest.cons m).trans hMiddle.symm

/- A shuffle of what is not fixed keeps what there is. -/
theorem fill_permutation_perm
    (d : Draws)
    (pool : List Chosen) :
    (fill pool
      (d.permutation (pool.filter fun c => !c.fixed)).1).Perm
        pool := by
  have hMoved :=
    Draws.permutation_perm d (pool.filter fun c => !c.fixed)
  calc fill pool _
      _ |>.Perm (pool.filter (fun c => c.fixed) ++ _) :=
        fill_perm hMoved.length_eq
      _ |>.Perm (pool.filter (fun c => c.fixed) ++
            pool.filter fun c => !c.fixed) :=
        hMoved.append_left _
      _ |>.Perm pool :=
        List.filter_append_perm _ _

------------------------------------------------------------
-- Arrangements
------------------------------------------------------------

theorem scatters_hides : Chosen.Hides scatters := by
  intro info hScatters
  simp [scatters] at hScatters
  exact hScatters.1

theorem travelsUnseen_hides : Chosen.Hides travelsUnseen := by
  intro info hUnseen
  simp [travelsUnseen] at hUnseen
  exact hUnseen.1

theorem hidden_hides :
    Chosen.Hides fun info => !info.visible := by
  intro info hHidden
  simpa using hHidden

/- What the children of a section are put in order to. -/
structure Arranged
    (info : SectionInfo)
    (children ordered : List Chosen) :
    Prop where
  places : ∀ around,
    (Chosen.outlineIn around ordered).Perm
      (Chosen.outlineIn around children)
  inOrder : info.shuffle ≠ some true → ∀ around,
    Chosen.outlineIn around ordered =
      Chosen.outlineIn around children
  shown : (∀ c ∈ children, c.ShownBelow) →
    ∀ c ∈ ordered, c.Shown

open Stateful

/- A shuffle changes the order of an outline and no more. -/
theorem ends_shuffle
    (children : List Chosen)
    (tally : Tally) :
    Ends (shuffle children) tally fun r t =>
      ∃ ordered, r = .ok ordered ∧ t.notes = tally.notes ∧
        (∀ around,
          (Chosen.outlineIn around ordered).Perm
            (Chosen.outlineIn around children)) ∧
        ((∀ c ∈ children, c.ShownBelow) →
          ∀ c ∈ ordered, c.ShownBelow) := by
  unfold shuffle
  rw [ends_bind, Step.ends_take]
  have hFilled := fill_permutation_perm tally.draws
    (children.flatMap (Chosen.dissolved scatters))
  refine ⟨_, rfl, rfl, ?_, ?_⟩
  · intro around
    rw [Chosen.outlineIn_dissolved travelsUnseen_hides]
    have hPlaces := Chosen.outlineIn_perm hFilled around
    rwa [Chosen.outlineIn_dissolved scatters_hides] at hPlaces
  · intro hBelow
    apply Chosen.shownBelow_of_dissolved
    intro c hMem
    exact Chosen.shownBelow_of_dissolved hBelow c
      (hFilled.subset hMem)

/- Children are put in order without a note. -/
theorem ends_arrange
    (info : SectionInfo)
    (children : List Chosen)
    (tally : Tally) :
    Ends (arrange info children) tally fun r t =>
      ∃ ordered, r = .ok ordered ∧ t.notes = tally.notes ∧
        Arranged info children ordered := by
  unfold arrange
  by_cases hShuffle : info.shuffle = some true
  · simp only [hShuffle, beq_self_eq_true, ↓reduceIte, ends_bind]
    refine (ends_shuffle children tally).mono ?_
    rintro r t ⟨ordered, rfl, hNotes, hPlaces, hBelow⟩
    refine ⟨_, rfl, hNotes, ?_, ?_, ?_⟩
    · intro around
      rw [Chosen.outlineIn_dissolved hidden_hides]
      exact hPlaces around
    · exact fun hNot => absurd hShuffle hNot
    · exact fun hChildren =>
        Chosen.shown_of_dissolved (hBelow hChildren)
  · simp only [beq_iff_eq, hShuffle, ↓reduceIte, ends_bind]
    have hSame := Chosen.outlineIn_dissolved hidden_hides
    refine ⟨_, rfl, rfl, ?_, ?_, ?_⟩
    · exact fun around => .of_eq (hSame around children)
    · exact fun _ around => hSame around children
    · exact Chosen.shown_of_dissolved

end Planning

end Assessment
