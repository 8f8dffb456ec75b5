import Assessment.Proofs.Plan.Controls
import Assessment.Proofs.Test.Course
import Assessment.Proofs.Test.Sections

/-
  Controls of item sessions.

  A reference stands in sections, and these in a test part.
  Any of them may have a control, which makes some settings.
  An item session has each setting from the first control that
  makes it, from the reference outwards, and else the default.
  The session looks sections up by their identifiers, but the
  sections it finds are those that the reference stands in.

  Controls elsewhere make no difference. They do not even
  matter to the plan, so the same items are in its places.

  Main declarations:
    * `Control.nearest`, and `foldl_inherit`
    * `SectionPart.Stands`, a reference in its sections
    * `Test.Controls`, the controls around a reference
    * `TestSession.effectiveControl_eq`
    * `ItemSession.GoesBy`, with the settings and defaults
    * `TestSession.nearest_control_wins`
-/

------------------------------------------------------------
-- Settings
------------------------------------------------------------

namespace Assessment

namespace Control

/- Each setting from the first control that makes it. -/
def nearest (cs : List Control) : Control where
  maxAttempts := cs.findSome? Control.maxAttempts
  showFeedback := cs.findSome? Control.showFeedback
  allowReview := cs.findSome? Control.allowReview
  showSolution := cs.findSome? Control.showSolution
  allowComment := cs.findSome? Control.allowComment
  allowSkipping := cs.findSome? Control.allowSkipping
  validateResponses := cs.findSome? Control.validateResponses

theorem inherit_none (c : Control) : c.inherit {} = c := by
  simp [inherit]

theorem none_inherit (c : Control) : inherit {} c = c := by
  simp [inherit]

theorem inherit_assoc (a b c : Control) :
    (a.inherit b).inherit c = a.inherit (b.inherit c) := by
  simp [inherit, Option.or_assoc]

theorem findSome?_cons_or
    {α : Type}
    (setting : Control → Option α)
    (c : Control)
    (cs : List Control) :
    (c :: cs).findSome? setting =
      (setting c).or (cs.findSome? setting) := by
  rw [List.findSome?_cons]
  cases setting c <;> rfl

theorem nearest_cons (c : Control) (cs : List Control) :
    nearest (c :: cs) = c.inherit (nearest cs) := by
  simp only [nearest, inherit, findSome?_cons_or]

/- To inherit from one after the other is to go outwards. -/
theorem foldl_inherit (c : Control) (cs : List Control) :
    cs.foldl inherit c = c.inherit (nearest cs) := by
  induction cs generalizing c with
  | nil => exact c.inherit_none.symm
  | cons d rest ih =>
      rw [List.foldl_cons, ih, inherit_assoc, nearest_cons]

theorem getD_inherit (c : Option Control) (cs : List Control) :
    (c.getD {}).inherit (nearest cs) = nearest (c.toList ++ cs) := by
  cases c with
  | none => exact none_inherit _
  | some c => exact (nearest_cons c cs).symm

end Control

/-
  A session has the settings of the first controls that make
  them, and the defaults for the settings that none makes.
-/
structure ItemSession.GoesBy
    (x : ItemSession)
    (engine : Engine)
    (cs : List Control) :
    Prop where
  maxAttempts :
    x.maxAttempts =
      (cs.findSome? Control.maxAttempts).getD
        engine.settings.maxAttempts
  showFeedback :
    x.control.showsFeedback =
      (cs.findSome? Control.showFeedback).getD false
  allowReview :
    x.control.allowsReview =
      (cs.findSome? Control.allowReview).getD true
  showSolution :
    x.control.showsSolution =
      (cs.findSome? Control.showSolution).getD false
  allowComment :
    x.control.allowsComment =
      (cs.findSome? Control.allowComment).getD false
  allowSkipping :
    x.control.allowsSkipping =
      (cs.findSome? Control.allowSkipping).getD true
  validateResponses :
    x.control.validates =
      (cs.findSome? Control.validateResponses).getD false

/- It does if it was made with the nearest controls. -/
theorem ItemSession.goesBy_of_nearest
    {x : ItemSession}
    {cs : List Control}
    (hControl : x.control = Control.nearest cs) :
    x.GoesBy x.engine cs := by
  constructor
  · rw [maxAttempts, hControl]
    rfl
  all_goals
    rw [hControl]
    rfl

------------------------------------------------------------
-- References in Their Sections
------------------------------------------------------------

namespace SectionPart

/-
  A reference stands in a part, with the sections around it
  from the innermost on.
-/
inductive Stands (ref : ItemRef) :
    SectionPart → List SectionInfo → Prop
  | here : Stands ref (.item ref) []
  | inside
      {infos : List SectionInfo}
      {parts : List SectionPart}
      {p : SectionPart}
      (info : SectionInfo)
      (hP : p ∈ parts)
      (hStands : Stands ref p infos) :
      Stands ref (.nested info parts) (infos ++ [info])

theorem mem_placementsIn
    {ancestry : List String}
    {q : Placement}
    {ps : List SectionPart} :
    q ∈ placementsIn ancestry ps ↔
      ∃ p ∈ ps, q ∈ p.placements ancestry := by
  induction ps with
  | nil => simp [placementsIn]
  | cons p rest ih => simp [placementsIn, ih]

theorem mem_sectionsIn
    {s : Section}
    {ps : List SectionPart} :
    s ∈ sectionsIn ps ↔ ∃ p ∈ ps, s ∈ p.sections := by
  induction ps with
  | nil => simp [sectionsIn]
  | cons p rest ih => simp [sectionsIn, ih]

variable {ref : ItemRef} {p : SectionPart}
variable {infos : List SectionInfo}

/- It is found there under their identifiers. -/
theorem Stands.mem_placements
    (hStands : p.Stands ref infos)
    (ancestry : List String) :
    ⟨ref, ancestry ++ (infos.map SectionInfo.identifier).reverse⟩ ∈
      p.placements ancestry := by
  induction hStands generalizing ancestry with
  | here => simp [placements]
  | inside info hP _ ih =>
      rw [placements, mem_placementsIn]
      refine ⟨_, hP, ?_⟩
      simpa using ih (ancestry ++ [info.identifier])

/- The sections around it are sections of the part. -/
theorem Stands.exists_section
    (hStands : p.Stands ref infos)
    {info : SectionInfo}
    (hInfo : info ∈ infos) :
    ∃ s ∈ p.sections, s.info = info := by
  induction hStands with
  | here => cases hInfo
  | inside own hP _ ih =>
      rw [sections]
      rcases List.mem_append.mp hInfo with hInner | hOwn
      · obtain ⟨s, hS, hSame⟩ := ih hInner
        exact ⟨s, List.mem_cons_of_mem _
          (mem_sectionsIn.mpr ⟨_, hP, hS⟩), hSame⟩
      · rcases List.mem_singleton.mp hOwn with rfl
        exact ⟨_, List.mem_cons_self, rfl⟩

mutual

/- What is found in a part stands there. -/
theorem exists_stands
    {q : Placement}
    {ancestry : List String} :
    ∀ p : SectionPart, q ∈ p.placements ancestry →
      ∃ infos, p.Stands q.ref infos
  | .item ref, hQ => by
      rw [placements, List.mem_singleton] at hQ
      subst hQ
      exact ⟨[], .here⟩
  | .nested info parts, hQ => by
      obtain ⟨p, hP, infos, hStands⟩ := exists_standsIn parts hQ
      exact ⟨_, .inside info hP hStands⟩

theorem exists_standsIn
    {q : Placement}
    {ancestry : List String} :
    ∀ ps : List SectionPart, q ∈ placementsIn ancestry ps →
      ∃ p ∈ ps, ∃ infos, p.Stands q.ref infos
  | [], hQ => absurd hQ List.not_mem_nil
  | p :: rest, hQ => by
      rcases List.mem_append.mp hQ with hFirst | hLater
      · exact ⟨p, List.mem_cons_self, exists_stands p hFirst⟩
      · obtain ⟨r, hR, hStands⟩ := exists_standsIn rest hLater
        exact ⟨r, List.mem_cons_of_mem p hR, hStands⟩

end

end SectionPart

/- A reference stands in a section of a test part. -/
def TestPart.Stands
    (part : TestPart)
    (ref : ItemRef)
    (infos : List SectionInfo) :
    Prop :=
  ∃ s ∈ part.sections, s.part.Stands ref infos

/- The references of a test part. -/
def TestPart.placements (part : TestPart) : List Placement :=
  part.sections.flatMap Section.placements

namespace TestPart

variable {part : TestPart} {ref : ItemRef}
variable {infos : List SectionInfo}

theorem Stands.mem_placements (hStands : part.Stands ref infos) :
    ⟨ref, (infos.map SectionInfo.identifier).reverse⟩ ∈
      part.placements := by
  obtain ⟨s, hS, hIn⟩ := hStands
  exact List.mem_flatMap.mpr ⟨s, hS, hIn.mem_placements []⟩

theorem Stands.exists_section
    (hStands : part.Stands ref infos)
    {info : SectionInfo}
    (hInfo : info ∈ infos) :
    ∃ s ∈ part.allSections, s.info = info := by
  obtain ⟨top, hTop, hIn⟩ := hStands
  obtain ⟨s, hS, hSame⟩ := hIn.exists_section hInfo
  exact ⟨s, List.mem_flatMap.mpr ⟨top, hTop, hS⟩, hSame⟩

theorem exists_stands
    {q : Placement}
    (hQ : q ∈ part.placements) :
    ∃ infos, part.Stands q.ref infos := by
  obtain ⟨s, hS, hIn⟩ := List.mem_flatMap.mp hQ
  have hPlaced : q ∈ s.part.placements [] := hIn
  obtain ⟨infos, hStands⟩ := s.part.exists_stands hPlaced
  exact ⟨infos, s, hS, hStands⟩

end TestPart

namespace Test

variable {t : Test}

/-
  The controls around a reference with an identifier, from its
  own outwards.
-/
def Controls
    (t : Test)
    (identifier : String)
    (cs : List Control) :
    Prop :=
  ∃ part ∈ t.parts, ∃ ref infos, part.Stands ref infos ∧
    ref.identifier = identifier ∧
    cs =
      ref.control.toList ++ infos.filterMap SectionInfo.control ++
        part.control.toList

theorem placements_eq (t : Test) :
    t.placements = t.parts.flatMap TestPart.placements :=
  rfl

/- References with an identifier stand in one part only. -/
theorem part_eq_of_refs
    (hRefs : (t.placements.map fun q => q.ref.identifier).Nodup)
    {part part' : TestPart}
    {q q' : Placement}
    (hPart : part ∈ t.parts)
    (hPart' : part' ∈ t.parts)
    (hQ : q ∈ part.placements)
    (hQ' : q' ∈ part'.placements)
    (hName : q.ref.identifier = q'.ref.identifier) :
    part = part' := by
  rw [placements_eq, List.map_flatMap, List.nodup_flatMap] at hRefs
  obtain ⟨i, hI, rfl⟩ := List.getElem_of_mem hPart
  obtain ⟨j, hJ, rfl⟩ := List.getElem_of_mem hPart'
  have hNamed := List.mem_map_of_mem
    (f := fun q => q.ref.identifier) hQ
  have hNamed' := List.mem_map_of_mem
    (f := fun q => q.ref.identifier) hQ'
  rw [← hName] at hNamed'
  have hApart := List.pairwise_iff_getElem.mp hRefs.2
  rcases Nat.lt_trichotomy i j with hLess | rfl | hMore
  · exact absurd hNamed' (hApart i j hI hJ hLess hNamed)
  · rfl
  · exact absurd hNamed (hApart j i hJ hI hMore hNamed')

/- Sections are found by their identifiers. -/
theorem control_of_section?
    (hSections : (t.sections.map fun s => s.info.identifier).Nodup)
    {part : TestPart}
    {ref : ItemRef}
    {infos : List SectionInfo}
    (hPart : part ∈ t.parts)
    (hStands : part.Stands ref infos) :
    (infos.map SectionInfo.identifier).filterMap (fun identifier =>
        (t.section? identifier).bind fun s => s.info.control) =
      infos.filterMap SectionInfo.control := by
  rw [List.filterMap_map]
  apply List.filterMap_congr
  intro info hInfo
  obtain ⟨s, hS, rfl⟩ := hStands.exists_section hInfo
  have hMem : s ∈ t.sections :=
    List.mem_flatMap.mpr ⟨part, hPart, hS⟩
  rw [Function.comp_apply, section?_of_distinct hSections hMem,
    Option.bind_some]

end Test

namespace TestSession

variable {t : Test}

/-
  The control of a reference is made of the nearest controls
  around it.
-/
theorem effectiveControl_eq
    (hSections : (t.sections.map fun s => s.info.identifier).Nodup)
    (hRefs : (t.placements.map fun q => q.ref.identifier).Nodup)
    {k : Nat}
    {part : TestPart}
    {q : Placement}
    {cs : List Control}
    (hPart : t.parts[k]? = some part)
    (hQ : q ∈ part.placements)
    (hControls : t.Controls q.ref.identifier cs) :
    effectiveControl t q k = Control.nearest cs := by
  obtain ⟨part', hPart', ref, infos, hStands, hName, rfl⟩ :=
    hControls
  have hMem := List.mem_of_getElem? hPart
  have hPlaced := hStands.mem_placements
  have hSamePart := Test.part_eq_of_refs hRefs hMem hPart' hQ
    hPlaced hName.symm
  subst hSamePart
  have hSame := Test.placement_eq_of_refs hRefs
    (List.mem_flatMap.mpr ⟨part, hMem, hPlaced⟩)
    (List.mem_flatMap.mpr ⟨part, hMem, hQ⟩) hName
  subst hSame
  unfold effectiveControl
  dsimp only
  rw [List.reverse_reverse, hPart, Option.bind_some,
    Test.control_of_section? hSections hMem hStands,
    Control.foldl_inherit, Control.getD_inherit, List.append_assoc]

/- Around a reference there are controls, or none at all. -/
theorem exists_controls
    {k : Nat}
    {part : TestPart}
    {q : Placement}
    (hPart : t.parts[k]? = some part)
    (hQ : q ∈ part.placements) :
    ∃ cs, t.Controls q.ref.identifier cs := by
  obtain ⟨infos, hStands⟩ := TestPart.exists_stands hQ
  exact ⟨_, part, List.mem_of_getElem? hPart, q.ref, infos,
    hStands, rfl, rfl⟩

------------------------------------------------------------
-- Sessions
------------------------------------------------------------

variable {items : Keyed Item}
variable {engine : Engine}
variable {draws : Draws}
variable {first : TestSession}

/-
  The session of a planned item goes by the nearest controls,
  whatever calls are made.
-/
theorem after_control
    (hSections : (t.sections.map fun s => s.info.identifier).Nodup)
    (hRefs : (t.placements.map fun q => q.ref.identifier).Nodup)
    (hStart : start t items engine draws = .ok first)
    (calls : List TestCall)
    {i : Nat}
    {x : Nat × PlanNode}
    {e : ItemEntry}
    (hX : first.plan.items[i]? = some x)
    (hE : (first.after calls).entries[i]? = some e)
    {cs : List Control}
    (hControls : t.Controls x.2.identifier cs) :
    e.session.engine = engine ∧
      e.session.control = Control.nearest cs := by
  have hRealizes := start_realizes_of_refs hRefs hStart
  have hPlaces := first.after_sameSetup calls
  obtain ⟨d, hD⟩ := hPlaces.exists_before hE
  have hFresh := start_fresh hStart d (List.mem_of_getElem? hD)
  have hSetup := (hPlaces.entries i d e hD hE).2
  have hStands := hRealizes.entries i x d hX hD
  obtain ⟨part, hPart, hPlaced⟩ := hStands.placement
  rw [← hStands.part] at hPart
  rw [← hStands.identifier] at hControls
  rw [hSetup.engine, hSetup.control, hFresh.engine,
    hFresh.control]
  exact ⟨rfl, effectiveControl_eq hSections hRefs hPart hPlaced
    hControls⟩

/- Another test with other controls has the same plan. -/
theorem exists_start_of_bare
    {t' : Test}
    (hBare : t'.bare = t.bare)
    (hStart : start t items engine draws = .ok first) :
    ∃ first', start t' items engine draws = .ok first' ∧
      first'.plan = first.plan := by
  have hPlan :
      Assessment.plan t' (fun r => (items.get? r.href).isSome) =
        Assessment.plan t fun r => (items.get? r.href).isSome := by
    rw [← plan_bare t' fun _ => rfl, hBare,
      plan_bare t fun _ => rfl]
  obtain ⟨plan, tally, hRun, rfl⟩ := start_iff.mp hStart
  rw [← hPlan] at hRun
  exact ⟨_, start_iff.mpr ⟨plan, tally, hRun, rfl⟩, rfl⟩

/-
  The session of every planned item has each setting from the
  nearest control around its reference that makes it, and else
  the default. In another test that only differs in controls,
  and not in those around the reference, the session at this
  place of the plan has the same settings.
-/
theorem nearest_control_wins
    (hSections : (t.sections.map fun s => s.info.identifier).Nodup)
    (hRefs : (t.placements.map fun q => q.ref.identifier).Nodup)
    (hStart : start t items engine draws = .ok first)
    (calls : List TestCall) :
    (first.after calls).Realizes t items first.plan ∧
      ∀ (i : Nat) (x : Nat × PlanNode) (e : ItemEntry),
        first.plan.items[i]? = some x →
          (first.after calls).entries[i]? = some e →
            (∃ cs, t.Controls x.2.identifier cs) ∧
              ∀ cs, t.Controls x.2.identifier cs →
                e.session.GoesBy engine cs ∧
                  ∀ t' : Test, t'.bare = t.bare →
                    t'.Controls x.2.identifier cs →
                      ∃ first',
                        start t' items engine draws = .ok first' ∧
                          first'.plan = first.plan ∧
                          ∀ calls', ∃ e',
                            (first'.after calls').entries[i]? =
                                some e' ∧
                              e'.ref.identifier = x.2.identifier ∧
                              e'.session.control =
                                e.session.control ∧
                              e'.session.maxAttempts =
                                e.session.maxAttempts := by
  have hRealizes :=
    (start_realizes_of_refs hRefs hStart).after calls
  refine ⟨hRealizes, fun i x e hX hE => ⟨?_, fun cs hControls => ?_⟩⟩
  · have hStands := hRealizes.entries i x e hX hE
    obtain ⟨part, hPart, hPlaced⟩ := hStands.placement
    rw [← hStands.identifier]
    exact exists_controls hPart hPlaced
  obtain ⟨hEngine, hControl⟩ :=
    after_control hSections hRefs hStart calls hX hE hControls
  refine ⟨hEngine ▸ ItemSession.goesBy_of_nearest hControl,
    fun t' hBare hControls' => ?_⟩
  obtain ⟨first', hStart', hPlan⟩ := exists_start_of_bare hBare hStart
  refine ⟨first', hStart', hPlan, fun calls' => ?_⟩
  have hSections' :
      (t'.sections.map fun s => s.info.identifier).Nodup := by
    rwa [← t'.sectionNames_bare, hBare, t.sectionNames_bare]
  have hRefs' :
      (t'.placements.map fun q => q.ref.identifier).Nodup := by
    rwa [← t'.refNames_bare, hBare, t.refNames_bare]
  have hRealizes' :=
    (start_realizes_of_refs hRefs' hStart').after calls'
  rw [← hPlan] at hX
  have hBound : i < (first'.after calls').entries.length := by
    rw [hRealizes'.length]
    exact (List.getElem?_eq_some_iff.mp hX).1
  have hE' := List.getElem?_eq_getElem hBound
  obtain ⟨hEngine', hControl'⟩ :=
    after_control hSections' hRefs' hStart' calls' hX hE' hControls'
  refine ⟨_, hE', (hRealizes'.entries i x _ hX hE').identifier,
    hControl'.trans hControl.symm, ?_⟩
  rw [ItemSession.maxAttempts, ItemSession.maxAttempts, hControl,
    hControl', hEngine, hEngine']

/-
  A part with a control, a section that gives no review, and in
  it a section with its own limit next to one with another.
-/
def controlledPart : TestPart :=
  { blankPart "part" with
    control := some { maxAttempts := some 3 }
    sections := [
      { info :=
          { plainSection "outer" with
            control := some { allowReview := some false } }
        parts := [
          .nested
            { plainSection "inner" with
              control := some { maxAttempts := some 2 } }
            [.item
              { plainRef "ref" "item" with
                control := some { showFeedback := some true } }],
          .nested
            { plainSection "other" with
              control := some { maxAttempts := some 9 } }
            [.item (plainRef "beside" "item")]] }] }

/- A test of this part. -/
def controlledTest : Test :=
  { blankTest with parts := [controlledPart] }

/- The limit of the inner section wins, and the others stay. -/
theorem nearest_control_wins_nested :
    ∃ first : TestSession,
      start controlledTest [("item", blankItem)] ⟨{}, none⟩
        default = .ok first ∧
      ∀ (calls : List TestCall) (e : ItemEntry),
        (first.after calls).entries[0]? = some e →
          e.session.maxAttempts = 2 ∧
            e.session.control.showsFeedback = true ∧
            e.session.control.allowsReview = false ∧
            e.session.control.allowsSkipping = true := by
  obtain ⟨first, hStart, x, hX, hName⟩ : ∃ first,
      start controlledTest [("item", blankItem)] ⟨{}, none⟩
          default = .ok first ∧
        ∃ x, first.plan.items[0]? = some x ∧
          x.2.identifier = "ref" :=
    ⟨_, rfl, _, rfl, rfl⟩
  refine ⟨first, hStart, fun calls e hE => ?_⟩
  have hControls : controlledTest.Controls x.2.identifier _ :=
    ⟨controlledPart, List.mem_cons_self, _, _,
      ⟨_, List.mem_cons_self,
        .inside _ List.mem_cons_self
          (.inside _ List.mem_cons_self .here)⟩,
      hName.symm, rfl⟩
  have hGoes := ((nearest_control_wins (by decide) (by decide)
    hStart calls).2 0 x e hX hE).2 _ hControls
  exact ⟨hGoes.1.maxAttempts, hGoes.1.showFeedback,
    hGoes.1.allowReview, hGoes.1.allowSkipping⟩

end TestSession

end Assessment
