import Assessment.Proofs.Plan.Shuffling

/-
  Plans of tests without controls.

  Controls say how the sessions of items go, and not which
  items there are. A plan is made step by step, and no step
  looks at a control. So controls can be taken from what a
  step starts with or from what it comes to, and it draws the
  same numbers. In the end there are only names and numbers
  left, which are the same.

  Main declarations:
    * `Test.bare`, a test without controls
    * `Planning.choose_bare` and `shuffle_bare`
    * `Planning.numbered_bare`
    * `plan_bare`
-/

------------------------------------------------------------
-- Tests Without Controls
------------------------------------------------------------

namespace Assessment

/- A reference without its control. -/
def ItemRef.bare (r : ItemRef) : ItemRef :=
  { r with control := none }

/- A section without its control. -/
def SectionInfo.bare (i : SectionInfo) : SectionInfo :=
  { i with control := none }

mutual

/- A part without controls at any depth. -/
def SectionPart.bare : SectionPart → SectionPart
  | .item ref => .item ref.bare
  | .nested info parts =>
      .nested info.bare (SectionPart.bareIn parts)

def SectionPart.bareIn : List SectionPart → List SectionPart
  | [] => []
  | p :: rest => p.bare :: SectionPart.bareIn rest

end

def Section.bare (s : Section) : Section :=
  ⟨s.info.bare, SectionPart.bareIn s.parts⟩

def TestPart.bare (p : TestPart) : TestPart :=
  { p with control := none, sections := p.sections.map Section.bare }

/- A test without controls. -/
def Test.bare (t : Test) : Test :=
  { t with parts := t.parts.map TestPart.bare }

mutual

/- A choice without controls at any depth. -/
def Chosen.bare : Chosen → Chosen
  | .item ref => .item ref.bare
  | .group info children =>
      .group info.bare (Chosen.bareIn children)

def Chosen.bareIn : List Chosen → List Chosen
  | [] => []
  | c :: rest => c.bare :: Chosen.bareIn rest

end

@[simp] theorem SectionPart.bareIn_eq (parts : List SectionPart) :
    bareIn parts = parts.map bare := by
  induction parts with
  | nil => rfl
  | cons p rest ih => rw [bareIn, ih, List.map_cons]

@[simp] theorem Chosen.bareIn_eq (cs : List Chosen) :
    bareIn cs = cs.map bare := by
  induction cs with
  | nil => rfl
  | cons c rest ih => rw [bareIn, ih, List.map_cons]

@[simp] theorem SectionPart.required_bare (p : SectionPart) :
    p.bare.required = p.required := by
  cases p <;> rfl

@[simp] theorem Chosen.fixed_bare (c : Chosen) :
    c.bare.fixed = c.fixed := by
  cases c <;> rfl

/- A reference in its place, without its control. -/
def Placement.bare (q : Placement) : Placement :=
  ⟨q.ref.bare, q.ancestry⟩

namespace SectionPart

mutual

theorem placements_bare :
    ∀ (ancestry : List String) (p : SectionPart),
      p.bare.placements ancestry =
        (p.placements ancestry).map Placement.bare
  | _, .item ref => rfl
  | ancestry, .nested info parts => by
      have hParts :=
        placementsIn_bare (ancestry ++ [info.identifier]) parts
      rw [bare, bareIn_eq, placements, placements]
      exact hParts

theorem placementsIn_bare :
    ∀ (ancestry : List String) (parts : List SectionPart),
      placementsIn ancestry (parts.map bare) =
        (placementsIn ancestry parts).map Placement.bare
  | _, [] => rfl
  | ancestry, p :: rest => by
      have hFirst := placements_bare ancestry p
      have hRest := placementsIn_bare ancestry rest
      rw [List.map_cons, placementsIn, placementsIn, hFirst, hRest,
        List.map_append]

end

mutual

theorem sections_bare :
    ∀ p : SectionPart, p.bare.sections = p.sections.map Section.bare
  | .item ref => rfl
  | .nested info parts => by
      have hParts := sectionsIn_bare parts
      rw [bare, bareIn_eq, sections, sections, hParts]
      simp [Section.bare]

theorem sectionsIn_bare :
    ∀ parts : List SectionPart,
      sectionsIn (parts.map bare) =
        (sectionsIn parts).map Section.bare
  | [] => rfl
  | p :: rest => by
      have hFirst := sections_bare p
      have hRest := sectionsIn_bare rest
      rw [List.map_cons, sectionsIn, sectionsIn, hFirst, hRest,
        List.map_append]

end

end SectionPart

namespace Test

variable (t : Test)

/- References and sections keep their places and names. -/
theorem placements_bare :
    t.bare.placements = t.placements.map Placement.bare := by
  simp only [placements, bare, TestPart.bare, Section.bare,
    Section.placements, SectionPart.bareIn_eq,
    SectionPart.placementsIn_bare, SectionInfo.bare,
    List.flatMap_map, List.map_flatMap]

theorem sections_bare :
    t.bare.sections = t.sections.map Section.bare := by
  simp only [sections, bare, TestPart.bare, Section.bare,
    Section.withNested, SectionPart.bareIn_eq,
    SectionPart.sectionsIn_bare, List.flatMap_map,
    List.map_flatMap, List.map_cons]

theorem refNames_bare :
    (t.bare.placements.map fun q => q.ref.identifier) =
      t.placements.map fun q => q.ref.identifier := by
  rw [placements_bare, List.map_map]
  rfl

theorem sectionNames_bare :
    (t.bare.sections.map fun s => s.info.identifier) =
      t.sections.map fun s => s.info.identifier := by
  rw [sections_bare, List.map_map]
  rfl

end Test

namespace Planning

open Chosen

------------------------------------------------------------
-- Selection
------------------------------------------------------------

/- As many children are taken. -/
theorem counts_bare
    (planner : Planner)
    (info : SectionInfo)
    (parts : List SectionPart) :
    counts planner info.bare (parts.map SectionPart.bare) =
      counts planner info parts := by
  have hRequired :
      requiredCounts (parts.map SectionPart.bare) =
        requiredCounts parts := by
    simp [requiredCounts, Function.comp_def]
  simp only [counts, SectionInfo.bare, select, hRequired,
    List.map_map, List.length_map, Function.comp_def]

------------------------------------------------------------
-- Order
------------------------------------------------------------

/- Conditions that do not look at controls. -/
theorem dissolved_bare
    {p : SectionInfo → Bool}
    (hP : ∀ info : SectionInfo, p info.bare = p info)
    (cs : List Chosen) :
    (cs.map bare).flatMap (dissolved p) =
      (cs.flatMap (dissolved p)).map bare := by
  rw [List.flatMap_map, List.map_flatMap]
  apply List.flatMap_congr
  intro c _
  cases c with
  | item ref => rfl
  | group info children =>
      rw [bare, dissolved, dissolved, hP, bareIn_eq]
      split_ifs
      · rfl
      · simp [bare]

theorem fill_bare (pool moved : List Chosen) :
    fill (pool.map bare) (moved.map bare) =
      (fill pool moved).map bare := by
  induction pool generalizing moved with
  | nil => rfl
  | cons c rest ih =>
      have hNone := ih []
      rw [List.map_nil] at hNone
      rw [List.map_cons]
      unfold fill
      rw [fixed_bare]
      split_ifs
      · rw [ih, List.map_cons]
      · cases moved with
        | nil => simp only [List.map_nil, hNone, List.map_cons]
        | cons m others => simp only [List.map_cons, ih]

theorem shuffle_bare (cs : List Chosen) :
    shuffle (cs.map bare) = List.map bare <$> shuffle cs := by
  have hPool := dissolved_bare (p := scatters) (fun _ => rfl) cs
  have hDissolved :=
    dissolved_bare (p := travelsUnseen) (fun _ => rfl)
  have hLoose (pool : List Chosen) :
      (pool.map bare).filter (fun c => !c.fixed) =
        (pool.filter fun c => !c.fixed).map bare := by
    simp [List.filter_map, Function.comp_def]
  have hTake (loose : List Chosen) :
      (Step.take fun d => d.permutation (loose.map bare)) =
        List.map bare <$> Step.take fun d => d.permutation loose := by
    simp only [Draws.permutation_map]
    rfl
  unfold shuffle
  simp only [hPool, hLoose, hTake, fill_bare, hDissolved,
    bind_map_left, map_bind, map_pure]

theorem arrange_bare (info : SectionInfo) (cs : List Chosen) :
    arrange info.bare (cs.map bare) =
      List.map bare <$> arrange info cs := by
  have hDissolved :=
    dissolved_bare (p := fun info => !info.visible) (fun _ => rfl)
  have hShuffle : info.bare.shuffle = info.shuffle := rfl
  unfold arrange
  rw [hShuffle]
  split_ifs
  · simp only [shuffle_bare, hDissolved, bind_map_left, map_bind,
      map_pure]
  · simp only [hDissolved, pure_bind, map_pure]

------------------------------------------------------------
-- Sections
------------------------------------------------------------

theorem times_map
    {α β : Type}
    (f : α → β)
    (x : Step (List α))
    (n : Nat) :
    times (List.map f <$> x) n = List.map f <$> times x n := by
  induction n with
  | zero => simp [times]
  | succ n ih =>
      simp only [times, ih, bind_map_left, map_bind, map_pure,
        List.map_append]

/- Whether a reference resolves is not up to its control. -/
def Blind (resolves : ItemRef → Bool) : Prop :=
  ∀ ref : ItemRef, resolves ref.bare = resolves ref

variable {planner : Planner}

mutual

/- Parts are chosen in the same way. -/
theorem choose_bare (hBlind : Blind planner.resolves) :
    ∀ p : SectionPart,
      choose planner p.bare = List.map bare <$> choose planner p
  | .item ref => by
      rw [SectionPart.bare, choose, choose, hBlind]
      split_ifs
      · simp [bare]
      · simp [ItemRef.bare]
  | .nested info parts => by
      have hEach := fun counts =>
        chooseEach_bare hBlind counts parts
      rw [SectionPart.bare, SectionPart.bareIn_eq, choose, choose,
        counts_bare]
      simp only [hEach, arrange_bare, bind_map_left, map_bind,
        map_pure, List.map_cons, List.map_nil, bare, bareIn_eq]

theorem chooseEach_bare (hBlind : Blind planner.resolves) :
    ∀ (counts : List Nat) (parts : List SectionPart),
      chooseEach planner counts (parts.map SectionPart.bare) =
        List.map bare <$> chooseEach planner counts parts
  | counts, [] => by simp [chooseEach]
  | [], p :: rest => by simp [chooseEach]
  | n :: ns, p :: rest => by
      have hFirst := choose_bare hBlind p
      have hRest := chooseEach_bare hBlind ns rest
      rw [List.map_cons, chooseEach, chooseEach, hFirst, hRest,
        times_map]
      simp only [bind_map_left, map_bind, map_pure, List.map_append]

end

theorem chooseSections_bare
    (hBlind : Blind planner.resolves)
    (ss : List Section) :
    chooseSections planner (ss.map Section.bare) =
      List.map bare <$> chooseSections planner ss := by
  have hDissolved :=
    dissolved_bare (p := fun info => !info.visible) (fun _ => rfl)
  induction ss with
  | nil => simp [chooseSections]
  | cons s rest ih =>
      have hFirst := choose_bare hBlind (.nested s.info s.parts)
      rw [List.map_cons, chooseSections, chooseSections, ih]
      simp only [SectionPart.bare] at hFirst
      simp only [Section.bare, hFirst, hDissolved, bind_map_left,
        map_bind, map_pure, List.map_append]

------------------------------------------------------------
-- Numbering
------------------------------------------------------------

mutual

/- Names are numbered in the same way. -/
theorem numbered_bare :
    ∀ (given : Keyed Nat) (c : Chosen),
      numbered given c.bare = numbered given c
  | given, .item ref => rfl
  | given, .group info children => by
      have hChildren := fun given => numberedAll_bare given children
      rw [bare, bareIn_eq, numbered, numbered]
      simp only [hChildren, SectionInfo.bare]

theorem numberedAll_bare :
    ∀ (given : Keyed Nat) (cs : List Chosen),
      numberedAll given (cs.map bare) = numberedAll given cs
  | given, [] => rfl
  | given, c :: rest => by
      have hFirst := numbered_bare given c
      have hRest := fun given => numberedAll_bare given rest
      rw [List.map_cons, numberedAll, numberedAll, hFirst]
      simp only [hRest]

end

theorem planParts_bare
    (hBlind : Blind planner.resolves)
    (given : Keyed Nat)
    (parts : List TestPart) :
    planParts planner given (parts.map TestPart.bare) =
      planParts planner given parts := by
  induction parts generalizing given with
  | nil => rfl
  | cons p rest ih =>
      rw [List.map_cons, planParts, planParts]
      simp only [TestPart.bare, chooseSections_bare hBlind,
        numberedAll_bare, ih, bind_map_left]

end Planning

/- A plan is the same without controls. -/
theorem plan_bare
    (t : Test)
    {resolves : ItemRef → Bool}
    (hBlind : Planning.Blind resolves) :
    plan t.bare resolves = plan t resolves := by
  unfold plan
  rw [Test.bare, Planning.planParts_bare hBlind]

end Assessment
