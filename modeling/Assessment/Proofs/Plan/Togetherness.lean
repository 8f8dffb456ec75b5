import Assessment.Proofs.Plan.Leaves

/-
  Sections that stay together in a plan.

  The references below a section come in a row, whatever is
  drawn, as long as the section is shown or moved as a whole.
  A section that is not shown gives up what it holds to the
  section around it. If that one is not shown either and need
  not stay together, a shuffle further out mixes the given up
  references with others, though the first section should be
  kept together. The sections around a section say whether
  this can happen.

  Main declarations:
    * `HoldsRun`, a run of some names among others
    * `Settled`, `Together` and `Boxed`, what a section has
      become among other choices
    * `StandsIn`, a section with what is around it
    * `Exposed`, where a shuffle may scatter a section
    * `plans_tracked`, by the sections around a section
    * `sections_stay_together`
-/

------------------------------------------------------------
-- Runs of Names
------------------------------------------------------------

namespace Assessment

open Stateful

namespace Planning

/- A list has no element more often than another list. -/
theorem subperm_iff_count {xs ys : List String} :
    xs.Subperm ys ↔ ∀ x, xs.count x ≤ ys.count x := by
  constructor
  · exact fun hSub x => hSub.count_le x
  · exact fun hCount =>
      List.subperm_ext_iff.mpr fun x _ => hCount x

/-
  Some names come in a row, and what stands before and after
  them are names of another kind.
-/
def HoldsRun (own others xs : List String) : Prop :=
  ∃ before run after,
    xs = before ++ run ++ after ∧ run.Subperm own ∧
      (before ++ after).Subperm others

/- What is around some names is around what they enclose. -/
theorem subperm_enclosed
    (first : List String)
    {inner others before after ys zs : List String}
    (hInner : (first ++ (before ++ after)).Subperm inner)
    (hOthers : (inner ++ (ys ++ zs)).Subperm others) :
    (first ++ (ys ++ before ++ (after ++ zs))).Subperm
      others := by
  rw [subperm_iff_count] at hInner hOthers ⊢
  intro x
  have hLess := hInner x
  have hAll := hOthers x
  simp only [List.count_append] at hLess hAll ⊢
  omega

/- There may be more names around. -/
theorem HoldsRun.around
    {own inner others xs ys zs : List String}
    (hRun : HoldsRun own inner xs)
    (hOthers : (inner ++ (ys ++ zs)).Subperm others) :
    HoldsRun own others (ys ++ xs ++ zs) := by
  rcases hRun with ⟨before, run, after, rfl, hOwn, hRest⟩
  exact ⟨ys ++ before, run, after ++ zs, by simp, hOwn,
    subperm_enclosed [] hRest hOthers⟩

------------------------------------------------------------
-- Choices with a Section among Them
------------------------------------------------------------

open Chosen

variable {own inner others : List String}

/-
  Choices in which the references of a section come in a row
  for good: none has been taken, or all that are taken are
  below a section that is shown.
-/
inductive Settled (own : List String) :
    List String → List Chosen → Prop
  | absent {others : List String} {cs : List Chosen}
      (hOthers : (namesIn cs).Subperm others) :
      Settled own others cs
  | shown
      {others inner : List String} {a b children : List Chosen}
      {info : SectionInfo}
      (hVisible : info.visible = true)
      (hRun : HoldsRun own inner (namesIn children))
      (hOthers : (inner ++ namesIn (a ++ b)).Subperm others) :
      Settled own others (a ++ .group info children :: b)
  | inside
      {others inner : List String} {a b children : List Chosen}
      {info : SectionInfo}
      (hInside : Settled own inner children)
      (hOthers : (inner ++ namesIn (a ++ b)).Subperm others) :
      Settled own others (a ++ .group info children :: b)

/- The references of a section are chosen one after another. -/
def Together
    (own others : List String)
    (cs : List Chosen) :
    Prop :=
  ∃ a run b, cs = a ++ run ++ b ∧
    (namesIn run).Subperm own ∧
    (namesIn (a ++ b)).Subperm others

/- They are so within one section among the choices. -/
def Boxed
    (h : SectionInfo)
    (own others : List String)
    (cs : List Chosen) :
    Prop :=
  ∃ a children b inner, cs = a ++ .group h children :: b ∧
    Together own inner children ∧
      (inner ++ namesIn (a ++ b)).Subperm others

/- A choice keeps its neighbours in another order. -/
theorem exists_middle
    {a b ds : List Chosen}
    {c : Chosen}
    (hPerm : (a ++ c :: b).Perm ds) :
    ∃ s t, ds = s ++ c :: t ∧ (a ++ b).Perm (s ++ t) := by
  have hMem : c ∈ ds := hPerm.subset (by simp)
  rcases List.append_of_mem hMem with ⟨s, t, rfl⟩
  refine ⟨s, t, rfl, ?_⟩
  apply List.Perm.cons_inv (a := c)
  exact (List.perm_middle.symm.trans hPerm).trans
    List.perm_middle

/- Names of neighbours, in whatever order they are chosen. -/
theorem others_of_perm
    {as bs : List Chosen}
    (hOthers : (inner ++ namesIn as).Subperm others)
    (hPerm : as.Perm bs) :
    (inner ++ namesIn bs).Subperm others :=
  ((namesIn_perm hPerm).symm.append_left inner).subperm.trans
    hOthers

theorem others_of_dissolved
    {p : SectionInfo → Bool}
    (hHides : Hides p)
    {a b : List Chosen}
    (hOthers : (inner ++ namesIn (a ++ b)).Subperm others) :
    (inner ++ namesIn
      (a.flatMap (dissolved p) ++
        b.flatMap (dissolved p))).Subperm others := by
  rwa [namesIn_append, namesIn_dissolved hHides,
    namesIn_dissolved hHides, ← namesIn_append]

namespace Together

variable {cs : List Chosen}

theorem holdsRun
    (hTogether : Together own others cs) :
    HoldsRun own others (namesIn cs) := by
  rcases hTogether with ⟨a, run, b, rfl, hOwn, hOthers⟩
  refine ⟨namesIn a, namesIn run, namesIn b, by simp, hOwn,
    ?_⟩
  rwa [← namesIn_append]

theorem dissolved
    (hTogether : Together own others cs)
    {p : SectionInfo → Bool}
    (hHides : Hides p) :
    Together own others (cs.flatMap (Chosen.dissolved p)) := by
  rcases hTogether with ⟨a, run, b, rfl, hOwn, hOthers⟩
  refine ⟨a.flatMap (Chosen.dissolved p),
    run.flatMap (Chosen.dissolved p),
    b.flatMap (Chosen.dissolved p), by simp, ?_, ?_⟩
  · rwa [namesIn_dissolved hHides]
  · rwa [← List.flatMap_append, namesIn_dissolved hHides]

theorem around
    (hTogether : Together own inner cs)
    {a b : List Chosen}
    (hOthers : (inner ++ namesIn (a ++ b)).Subperm others) :
    Together own others (a ++ cs ++ b) := by
  rcases hTogether with ⟨c, run, d, rfl, hOwn, hInner⟩
  refine ⟨a ++ c, run, d ++ b, by simp, hOwn, ?_⟩
  simp only [namesIn_append] at hInner hOthers ⊢
  exact subperm_enclosed [] hInner hOthers

end Together

namespace Boxed

variable {h : SectionInfo}
variable {cs ds : List Chosen}

theorem perm
    (hBoxed : Boxed h own others cs)
    (hPerm : cs.Perm ds) :
    Boxed h own others ds := by
  rcases hBoxed with
    ⟨a, children, b, inner, rfl, hInside, hOthers⟩
  rcases exists_middle hPerm with ⟨s, t, rfl, hAround⟩
  exact ⟨s, children, t, inner, rfl, hInside,
    others_of_perm hOthers hAround⟩

variable {p : SectionInfo → Bool}

/- The section may be one that does not dissolve. -/
theorem kept
    (hBoxed : Boxed h own others cs)
    (hHides : Hides p)
    (hKept : p h = false) :
    Boxed h own others (cs.flatMap (Chosen.dissolved p)) := by
  rcases hBoxed with
    ⟨a, children, b, inner, rfl, hInside, hOthers⟩
  refine ⟨a.flatMap (Chosen.dissolved p), children,
    b.flatMap (Chosen.dissolved p), inner, ?_, hInside,
    others_of_dissolved hHides hOthers⟩
  simp [Chosen.dissolved, hKept]

/- What it holds stays together when it dissolves. -/
theorem opened
    (hBoxed : Boxed h own others cs)
    (hHides : Hides p)
    (hOpened : p h = true) :
    Together own others (cs.flatMap (Chosen.dissolved p)) := by
  rcases hBoxed with
    ⟨a, children, b, inner, rfl, hInside, hOthers⟩
  have hAround := hInside.around
    (others_of_dissolved hHides hOthers)
  simpa [Chosen.dissolved, hOpened] using hAround

end Boxed

namespace Settled

variable {cs ds : List Chosen}

theorem around
    (hSettled : Settled own inner cs)
    {a b : List Chosen}
    (hOthers : (inner ++ namesIn (a ++ b)).Subperm others) :
    Settled own others (a ++ cs ++ b) := by
  rw [namesIn_append] at hOthers
  cases hSettled with
  | absent hInner =>
      apply absent
      simp only [namesIn_append]
      have hAlone : ([] ++ (namesIn cs ++ [])).Subperm inner := by
        simpa using hInner
      simpa using subperm_enclosed [] hAlone hOthers
  | @shown _ _ c d children info hVisible hRun hInner =>
      have hShown : Settled own others
          ((a ++ c) ++ .group info children :: (d ++ b)) := by
        apply shown hVisible hRun
        simp only [namesIn_append] at hInner ⊢
        exact subperm_enclosed _ hInner hOthers
      simpa using hShown
  | @inside _ _ c d children info hInside hInner =>
      have hAround : Settled own others
          ((a ++ c) ++ .group info children :: (d ++ b)) := by
        apply inside hInside
        simp only [namesIn_append] at hInner ⊢
        exact subperm_enclosed _ hInner hOthers
      simpa using hAround

theorem perm
    (hSettled : Settled own others cs)
    (hPerm : cs.Perm ds) :
    Settled own others ds := by
  cases hSettled with
  | absent hOthers =>
      exact .absent
        ((namesIn_perm hPerm).symm.subperm.trans hOthers)
  | shown hVisible hRun hOthers =>
      rcases exists_middle hPerm with ⟨s, t, rfl, hAround⟩
      exact .shown hVisible hRun (others_of_perm hOthers hAround)
  | inside hInside hOthers =>
      rcases exists_middle hPerm with ⟨s, t, rfl, hAround⟩
      exact .inside hInside (others_of_perm hOthers hAround)

theorem dissolved
    (hSettled : Settled own others cs)
    {p : SectionInfo → Bool}
    (hHides : Hides p) :
    Settled own others (cs.flatMap (Chosen.dissolved p)) := by
  cases hSettled with
  | absent hOthers =>
      apply absent
      rwa [namesIn_dissolved hHides]
  | @shown _ _ a b _ info hVisible hRun hOthers =>
      have hStays : p info = false := by
        by_contra hGone
        have hHidden := hHides info (by simpa using hGone)
        rw [hVisible] at hHidden
        cases hHidden
      have hAround := shown hVisible hRun
        (others_of_dissolved hHides hOthers)
      simpa [Chosen.dissolved, hStays] using hAround
  | @inside _ _ a b _ info hInside hOthers =>
      have hRest := others_of_dissolved hHides hOthers
      cases hGone : p info with
      | true =>
          simpa [Chosen.dissolved, hGone] using
            hInside.around hRest
      | false =>
          have hAround : Settled own others
              (_ ++ .group info _ :: _) := inside hInside hRest
          simpa [Chosen.dissolved, hGone] using hAround

/- Induction over the sections that the run is inside of. -/
theorem holdsRun
    (hSettled : Settled own others cs) :
    HoldsRun own others (namesIn cs) := by
  induction hSettled with
  | @absent _ cs hOthers =>
      exact ⟨namesIn cs, [], [], by simp, List.nil_subperm,
        by simpa using hOthers⟩
  | shown _ hRun hOthers =>
      rw [namesIn_append] at hOthers
      simpa using hRun.around hOthers
  | inside _ hOthers ih =>
      rw [namesIn_append] at hOthers
      simpa using ih.around hOthers

end Settled

------------------------------------------------------------
-- Putting in Order
------------------------------------------------------------

section

variable {info h : SectionInfo}
variable {children ordered : List Chosen}

theorem Settled.rearranged
    (hSettled : Settled own others children)
    (hOrdered : Rearranged info children ordered) :
    Settled own others ordered := by
  cases hOrdered with
  | inOrder => exact hSettled.dissolved hidden_hides
  | mixed _ hMixed =>
      have hMoved :=
        (hSettled.dissolved scatters_hides).perm hMixed
      exact (hMoved.dissolved travelsUnseen_hides).dissolved
        hidden_hides

/-
  A section that is not shown gives up what it holds. This
  comes before a shuffle only if the section need not stay
  together.
-/
theorem Boxed.rearranged
    (hBoxed : Boxed h own others children)
    (hHidden : h.visible = false)
    (hWhole : info.shuffle = some true → scatters h = false)
    (hOrdered : Rearranged info children ordered) :
    Together own others ordered := by
  cases hOrdered with
  | inOrder =>
      exact hBoxed.opened hidden_hides (by simp [hHidden])
  | mixed hShuffles hMixed =>
      have hKept := hWhole hShuffles
      have hUnseen : travelsUnseen h = true := by
        simp only [scatters, hHidden, Bool.not_false,
          Bool.true_and, Bool.not_eq_false_eq_eq_true] at hKept
        simp [travelsUnseen, hHidden, hKept]
      have hMoved :=
        (hBoxed.kept scatters_hides hKept).perm hMixed
      exact (hMoved.opened travelsUnseen_hides hUnseen).dissolved
        hidden_hides

end

------------------------------------------------------------
-- What Is around a Section
------------------------------------------------------------

/-
  A section stands in parts, with sections around it from the
  innermost on. The parts that neither hold it nor belong to
  it are left beside.
-/
inductive StandsIn (g : Section) :
    List SectionInfo → List SectionPart →
      List SectionPart → Prop
  | here (pre post : List SectionPart) :
      StandsIn g [] (pre ++ post) (pre ++ g.part :: post)
  | inside
      {around : List SectionInfo}
      {others parts : List SectionPart}
      (info : SectionInfo)
      (pre post : List SectionPart)
      (hInside : StandsIn g around others parts) :
      StandsIn g (around ++ [info]) (pre ++ others ++ post)
        (pre ++ .nested info parts :: post)

/- There may be parts before those that hold the section. -/
theorem StandsIn.cons
    {g : Section}
    {around : List SectionInfo}
    {others parts : List SectionPart}
    (hStands : StandsIn g around others parts)
    (p : SectionPart) :
    StandsIn g around (p :: others) (p :: parts) := by
  cases hStands with
  | here pre post => exact .here (p :: pre) post
  | inside info pre post hInside =>
      exact .inside info (p :: pre) post hInside

/- There may be parts behind them. -/
theorem StandsIn.append
    {g : Section}
    {around : List SectionInfo}
    {others parts : List SectionPart}
    (hStands : StandsIn g around others parts)
    (more : List SectionPart) :
    StandsIn g around (others ++ more) (parts ++ more) := by
  cases hStands with
  | here pre post =>
      have hMore := StandsIn.here (g := g) pre (post ++ more)
      simpa using hMore
  | inside info pre post hInside =>
      have hMore := hInside.inside info pre (post ++ more)
      simpa using hMore

mutual

/- Every section in parts stands there. -/
theorem exists_standsIn_of_sections
    {g : Section} :
    ∀ p : SectionPart, g ∈ p.sections →
      ∃ around others, StandsIn g around others [p]
  | .item ref, hMem => absurd hMem List.not_mem_nil
  | .nested info parts, hMem => by
      rcases List.mem_cons.mp hMem with rfl | hBelow
      · exact ⟨[], [], .here [] []⟩
      · rcases exists_standsIn parts hBelow with
          ⟨around, others, hStands⟩
        exact ⟨_, _, .inside info [] [] hStands⟩

theorem exists_standsIn
    {g : Section} :
    ∀ parts : List SectionPart,
      g ∈ SectionPart.sectionsIn parts →
        ∃ around others, StandsIn g around others parts
  | [], hMem => absurd hMem List.not_mem_nil
  | p :: rest, hMem => by
      rcases List.mem_append.mp hMem with hFirst | hRest
      · rcases exists_standsIn_of_sections p hFirst with
          ⟨around, others, hStands⟩
        exact ⟨around, others ++ rest, hStands.append rest⟩
      · rcases exists_standsIn rest hRest with
          ⟨around, others, hStands⟩
        exact ⟨around, p :: others, hStands.cons p⟩

end

/- What is beside a section has all references but its own. -/
theorem StandsIn.references_perm
    {g : Section}
    {around : List SectionInfo}
    {others parts : List SectionPart}
    (hStands : StandsIn g around others parts)
    (resolves : ItemRef → Bool) :
    (SectionPart.references resolves parts).Perm
      (SectionPart.references resolves g.parts ++
        SectionPart.references resolves others) := by
  induction hStands with
  | here pre post =>
      rw [SectionPart.references_append,
        SectionPart.references_append,
        SectionPart.references_cons, Section.part,
        SectionPart.references_nested]
      exact List.perm_append_comm_assoc _ _ _
  | inside info pre post _ ih =>
      simp only [SectionPart.references_append]
      rw [SectionPart.references_cons,
        SectionPart.references_nested, List.append_assoc]
      refine ((ih.append_right _).append_left _).trans ?_
      rw [List.append_assoc]
      exact List.perm_append_comm_assoc _ _ _

/-
  From a section on outwards, sections that are not shown
  come to one that need not stay together and is shuffled.
-/
def Exposed (chain : List SectionInfo) : Prop :=
  ∃ inner h s outer, chain = inner ++ h :: s :: outer ∧
    (∀ info ∈ inner, info.visible = false) ∧
    scatters h = true ∧ s.shuffle = some true

theorem Exposed.append
    {chain : List SectionInfo}
    (hExposed : Exposed chain)
    (more : List SectionInfo) :
    Exposed (chain ++ more) := by
  rcases hExposed with
    ⟨inner, h, s, outer, rfl, hHidden, hScatters, hShuffles⟩
  exact ⟨inner, h, s, outer ++ more, by simp, hHidden,
    hScatters, hShuffles⟩

------------------------------------------------------------
-- Choices around a Section
------------------------------------------------------------

/-
  What has become of a section among choices, when the
  sections from it on outwards have been chosen.
-/
def Tracked
    (own others : List String)
    (chain : List SectionInfo)
    (cs : List Chosen) :
    Prop :=
  Settled own others cs ∨
    ∃ inner h, chain = inner ++ [h] ∧
      (∀ info ∈ chain, info.visible = false) ∧
      Boxed h own others cs

/- The same when a section has put its children in order. -/
def TrackedWithin
    (own others : List String)
    (chain : List SectionInfo)
    (cs : List Chosen) :
    Prop :=
  Settled own others cs ∨
    (∀ info ∈ chain, info.visible = false) ∧
      Together own others cs

variable {chain : List SectionInfo}
variable {info : SectionInfo}
variable {cs ordered a b : List Chosen}

/- A section that is not exposed is not mixed with others. -/
theorem Tracked.rearranged
    (hTracked : Tracked own others chain cs)
    (hNot : ¬ Exposed (chain ++ [info]))
    (hOrdered : Rearranged info cs ordered) :
    TrackedWithin own others chain ordered := by
  rcases hTracked with
    hSettled | ⟨inner, h, rfl, hHidden, hBoxed⟩
  · exact .inl (hSettled.rearranged hOrdered)
  · refine .inr ⟨hHidden, hBoxed.rearranged ?_ ?_ hOrdered⟩
    · exact hHidden h (by simp)
    · intro hShuffles
      by_contra hScatters
      refine hNot ⟨inner, h, info, [], by simp, ?_,
        by simpa using hScatters, hShuffles⟩
      exact fun i hI => hHidden i (List.mem_append_left _ hI)

/- A section is a choice of its own until it dissolves. -/
theorem TrackedWithin.boxed
    (hTracked : TrackedWithin own inner chain ordered)
    (hOthers : (inner ++ namesIn (a ++ b)).Subperm others) :
    Tracked own others (chain ++ [info])
      (a ++ [.group info ordered] ++ b) := by
  rw [List.append_assoc, List.singleton_append]
  rcases hTracked with hSettled | ⟨hHidden, hTogether⟩
  · exact .inl (.inside hSettled hOthers)
  · cases hVisible : info.visible with
    | true =>
        exact .inl (.shown hVisible hTogether.holdsRun hOthers)
    | false =>
        refine .inr ⟨chain, info, rfl, ?_, a, ordered, b, inner,
          rfl, hTogether, hOthers⟩
        simpa [or_imp, forall_and, hVisible] using hHidden

/-
  Induction over what is around a section. At first it is a
  choice of its own; a section around it that is shown settles
  it, and one that is not shown holds it together.
-/
theorem plans_tracked
    (planner : Planner)
    {g : Section}
    {around : List SectionInfo}
    {others parts : List SectionPart}
    (hStands : StandsIn g around others parts)
    (hNot : ¬ Exposed (g.info :: around))
    (hSparing : Sparing parts)
    {picked : List SectionPart}
    (hPicked : picked.Sublist parts) :
    Plans
      (Tracked
        (SectionPart.references planner.resolves g.parts)
        (SectionPart.references planner.resolves others)
        (g.info :: around))
      (chooseAll planner picked) := by
  induction hStands generalizing picked with
  | here pre post =>
      rcases hSparing.append.2.cons.1.nested with
        ⟨hNever, hParts⟩
      have hNested := plans_nested hNever fun some hSome =>
        plans_chooseAll planner g.parts some hSome hParts
      refine (plans_around hSparing hPicked hNested).mono ?_
      rintro _ ⟨a, x, b, rfl, rfl | hGroup, hOthers⟩
      · exact .inl (.absent (by simpa using hOthers))
      · rcases hGroup with
          ⟨children, ordered, rfl, hWithin, hOrdered⟩
        have hOwn := hOrdered.names_perm.subperm.trans hWithin
        have hFirst :
            TrackedWithin
              (SectionPart.references planner.resolves g.parts)
              [] [] ordered :=
          .inr ⟨by simp, [], ordered, [], by simp, hOwn,
            List.nil_subperm⟩
        exact hFirst.boxed hOthers
  | @inside around others parts info pre post hInside ih =>
      rcases hSparing.append.2.cons.1.nested with
        ⟨hNever, hParts⟩
      have hInner : ¬ Exposed (g.info :: around) :=
        fun hExposed => hNot (hExposed.append [info])
      have hNested := plans_nested hNever fun some hSome =>
        ih hInner hParts hSome
      refine (plans_around hSparing hPicked hNested).mono ?_
      rintro _ ⟨a, x, b, rfl, rfl | hGroup, hOthers⟩
      · refine .inl (.absent ?_)
        rw [List.append_nil]
        refine hOthers.trans ?_
        simp only [SectionPart.references_append]
        exact ((List.sublist_append_left _ _).append
          (List.Sublist.refl _)).subperm
      · rcases hGroup with
          ⟨children, ordered, rfl, hTracked, hOrdered⟩
        have hWithin := hTracked.rearranged hNot hOrdered
        apply hWithin.boxed
        simp only [SectionPart.references_append]
          at hOthers ⊢
        refine ((List.Subperm.refl _).append hOthers).trans ?_
        rw [List.append_assoc]
        exact (List.perm_append_comm_assoc _ _ _).subperm

/- Whatever is drawn, a section that is not exposed is kept. -/
theorem plans_sections
    (planner : Planner)
    {ss : List Section}
    (hSparing : Sparing (ss.map Section.part)) :
    Plans
      (fun chosen =>
        ∀ g around others,
          StandsIn g around others (ss.map Section.part) →
          ¬ Exposed (g.info :: around) →
            HoldsRun
              (SectionPart.references planner.resolves g.parts)
              (SectionPart.references planner.resolves others)
              (namesIn chosen))
      (chooseSections planner ss) := by
  have hAny : Plans (fun _ => True)
      (chooseSections planner ss) := by
    rw [chooseSections_eq]
    refine (plans_chooseAll planner _ _
      (List.Sublist.refl _) hSparing).bind fun _ _ => ?_
    exact Gives.pure trivial
  refine Plans.all hAny fun g => ?_
  refine Plans.all hAny fun around => ?_
  refine Plans.all hAny fun others => ?_
  refine Plans.all hAny fun hStands => ?_
  refine Plans.all hAny fun hNot => ?_
  rw [chooseSections_eq]
  refine (plans_tracked planner hStands hNot hSparing
    (List.Sublist.refl _)).bind fun chosen hTracked => ?_
  refine Gives.pure ?_
  rcases hTracked with
    hSettled | ⟨inner, h, hChain, hHidden, hBoxed⟩
  · exact (hSettled.dissolved hidden_hides).holdsRun
  · have hOpened : h.visible = false :=
      hHidden h (by simp [hChain])
    have hTogether :=
      hBoxed.opened hidden_hides (by simp [hOpened])
    exact hTogether.holdsRun

------------------------------------------------------------
-- Plans of Tests
------------------------------------------------------------

/- The items of a node keep together what is not exposed. -/
def KeepsTogether
    (resolves : ItemRef → Bool)
    (part : TestPart)
    (items : List String) :
    Prop :=
  ∀ g around others,
    StandsIn g around others (part.sections.map Section.part) →
    ¬ Exposed (g.info :: around) →
      HoldsRun (SectionPart.references resolves g.parts)
        (SectionPart.references resolves others) items

theorem plans_planParts
    (planner : Planner)
    (given : Keyed Nat)
    (parts : List TestPart)
    (hSparing :
      ∀ p ∈ parts, Sparing (p.sections.map Section.part)) :
    Plans
      (List.Forall₂
        (fun part node =>
          KeepsTogether planner.resolves part
            (node.named .item))
        parts)
      (planParts planner given parts) := by
  induction parts generalizing given with
  | nil => exact Gives.pure .nil
  | cons p rest ih =>
      rw [List.forall_mem_cons] at hSparing
      rw [planParts]
      refine (plans_sections planner hSparing.1).bind
        fun chosen hChosen => ?_
      refine (ih _ hSparing.2).bind fun others hOthers => ?_
      refine Gives.pure (.cons ?_ hOthers)
      rw [PlanNode.named_node, namedIn_numberedAll]
      exact hChosen

end Planning

open Planning

/-
  Where no section selects with replacement, every test can be
  planned, whatever is drawn. Every section of a part stands
  among other parts of it, which have all references but its
  own. Unless the sections around it expose it, its references
  come in a row among the items of the part, and no others do.
-/
theorem sections_stay_together
    (t : Test)
    (resolves : ItemRef → Bool)
    (hSparing :
      ∀ s ∈ t.sections,
        ∀ sel, s.info.selection = some sel →
          sel.withReplacement = false)
    (tally : Tally) :
    ∃ p,
      (Step.run (plan t resolves) tally).1 = .ok p ∧
      p.parts.length = t.parts.length ∧
      ∀ (k : Nat) (part : TestPart),
        t.parts[k]? = some part →
          (∀ g ∈ part.allSections,
            ∃ around others,
              StandsIn g around others
                (part.sections.map Section.part) ∧
              (SectionPart.references resolves
                  (part.sections.map Section.part)).Perm
                (SectionPart.references resolves g.parts ++
                  SectionPart.references resolves others)) ∧
          ∀ g around others,
            StandsIn g around others
                (part.sections.map Section.part) →
            ¬ Exposed (g.info :: around) →
              HoldsRun
                (SectionPart.references resolves g.parts)
                (SectionPart.references resolves others)
                (p.itemsIn k) := by
  have hParts : ∀ q ∈ t.parts,
      Sparing (q.sections.map Section.part) := by
    intro q hQ s hMem
    rw [SectionPart.sectionsIn_map_part] at hMem
    exact hSparing s (List.mem_flatMap.mpr ⟨q, hQ, hMem⟩)
  rcases plans_planParts ⟨t.identifier, resolves⟩ [] t.parts
      hParts tally trivial with
    ⟨_, nodes, hOk, hNodes⟩
  refine ⟨⟨nodes⟩, ?_, hNodes.length_eq.symm, ?_⟩
  · have hRun : Ends (plan t resolves) tally fun r _ =>
        r = .ok ⟨nodes⟩ := by
      rw [plan, ends_bind]
      unfold Ends
      rw [hOk]
      rfl
    exact hRun
  · intro k part hPart
    constructor
    · intro g hMem
      rcases exists_standsIn (g := g)
          (part.sections.map Section.part)
          (by rwa [SectionPart.sectionsIn_map_part]) with
        ⟨around, others, hStands⟩
      exact ⟨around, others, hStands,
        hStands.references_perm resolves⟩
    · rw [List.forall₂_iff_get] at hNodes
      rcases List.getElem?_eq_some_iff.mp hPart with ⟨hK, rfl⟩
      have hL : k < nodes.length := hNodes.1 ▸ hK
      have hNode : (⟨nodes⟩ : Plan).parts[k]? =
          some nodes[k] := List.getElem?_eq_getElem hL
      rw [Plan.itemsIn_eq_named hNode]
      exact hNodes.2 k hK hL

/- A section that is not shown and holds two references. -/
def innerSection : Section where
  info := { plainSection "inner" with visible := false }
  parts := [
    .item (plainRef "first" "item"),
    .item (plainRef "second" "item")]

/- A section around it that is not shown either. -/
def middleInfo (keepTogether : Bool) : SectionInfo :=
  { plainSection "middle" with
    visible := false
    keepTogether := keepTogether }

/- A section that shuffles. -/
def outerInfo : SectionInfo :=
  { plainSection "outer" with shuffle := some true }

/- A part that shuffles these sections with a third reference. -/
def nestedPart (keepTogether : Bool) : TestPart where
  identifier := "part"
  navigation := .linear
  submission := .individual
  control := none
  timeLimits := none
  sections := [
    { info := outerInfo
      parts := [
        .nested (middleInfo keepTogether) [innerSection.part],
        .item (plainRef "third" "item")] }]
  feedbacks := []

/- A test of the nested part. -/
def nestedTest (keepTogether : Bool) : Test where
  identifier := "test"
  title := none
  outcomes := []
  timeLimits := none
  parts := [nestedPart keepTogether]
  outcomeProcessing := []
  feedbacks := []

theorem innerSection_standsIn (keepTogether : Bool) :
    StandsIn innerSection [middleInfo keepTogether, outerInfo]
      [.item (plainRef "third" "item")]
      ((nestedPart keepTogether).sections.map Section.part) :=
  .inside outerInfo [] []
    (.inside (middleInfo keepTogether) []
      [.item (plainRef "third" "item")] (.here [] []))

/-
  Where the section in the middle is kept together, so is the
  one inside of it.
-/
theorem sections_stay_together_nested :
    (∀ s ∈ (nestedTest true).sections,
      ∀ sel, s.info.selection = some sel →
        sel.withReplacement = false) ∧
    ∃ p,
      (Step.run (plan (nestedTest true) fun _ => true)
        ⟨default, []⟩).1 = .ok p ∧
      HoldsRun ["first", "second"] ["third"] (p.itemsIn 0) := by
  have hWhole :
      ∀ s ∈ (nestedTest true).sections,
        s.info.selection = none := by
    decide
  have hSparing :
      ∀ s ∈ (nestedTest true).sections,
        ∀ sel, s.info.selection = some sel →
          sel.withReplacement = false := by
    intro s hMem sel hSel
    rw [hWhole s hMem] at hSel
    cases hSel
  have hNot :
      ¬ Exposed
        [innerSection.info, middleInfo true, outerInfo] := by
    rintro ⟨inner, h, s, outer, hChain, _, hScatters, _⟩
    have hNone :
        ∀ info ∈
            [innerSection.info, middleInfo true, outerInfo],
          scatters info = false := by
      decide
    rw [hNone h (by simp [hChain])] at hScatters
    cases hScatters
  refine ⟨hSparing, ?_⟩
  rcases sections_stay_together (nestedTest true)
      (fun _ => true) hSparing ⟨default, []⟩ with
    ⟨p, hRun, _, hParts⟩
  exact ⟨p, hRun, (hParts 0 (nestedPart true) rfl).2 _ _ _
    (innerSection_standsIn true) hNot⟩

/-
  Where it is not, a draw comes between two references of a
  section that should be kept together.
-/
theorem kept_together_scattered :
    let t := nestedTest false
    let tally : Tally :=
      ⟨⟨fun address => if address = [0, 1] then 1 else 0, [],
        0⟩, []⟩
    innerSection.info.keepTogether = true ∧
      (∀ s ∈ t.sections, s.info.selection = none) ∧
      ∃ p around others,
        (Step.run (plan t fun _ => true) tally).1 = .ok p ∧
        StandsIn innerSection around others
          ((nestedPart false).sections.map Section.part) ∧
        p.itemsIn 0 = ["first", "third", "second"] ∧
        ¬ HoldsRun
          (SectionPart.references (fun _ => true)
            innerSection.parts)
          (SectionPart.references (fun _ => true) others)
          (p.itemsIn 0) := by
  intro t tally
  refine ⟨rfl, by decide, _, _, _, rfl,
    innerSection_standsIn false, rfl, ?_⟩
  rintro ⟨before, run, after, hSplit, hOwn, hOthers⟩
  have hItems : ["first", "third", "second"] =
      before ++ run ++ after := hSplit
  have hRun : ∀ x ∈ run, x ∈ ["first", "second"] :=
    fun x hX => hOwn.subset hX
  have hBeside : ∀ x ∈ before ++ after, x ∈ ["third"] :=
    fun x hX => hOthers.subset hX
  rcases before with _ | ⟨x, before⟩
  · rcases run with _ | ⟨x, _ | ⟨y, run⟩⟩
    · rw [List.nil_append, List.nil_append] at hItems
      exact absurd (hBeside "first" (by simp [← hItems]))
        (by decide)
    · simp only [List.nil_append, List.cons_append,
        List.cons.injEq] at hItems
      exact absurd (hBeside "second" (by simp [← hItems.2]))
        (by decide)
    · simp only [List.nil_append, List.cons_append,
        List.cons.injEq] at hItems
      exact absurd (hRun "third" (by simp [hItems.2.1]))
        (by decide)
  · simp only [List.cons_append, List.cons.injEq] at hItems
    exact absurd (hBeside "first" (by simp [hItems.1]))
      (by decide)

end Assessment
