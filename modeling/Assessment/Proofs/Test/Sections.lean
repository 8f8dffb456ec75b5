import Assessment.Proofs.Test.Entries

/-
  The sections around the items of a test.

  An entry keeps the identifiers of the sections around the
  reference that it was made for. They lead back to sections,
  as identifiers do, to the first that has the identifier.
  Where identifiers are distinct, these are the sections that
  the reference stands in.

  Main declarations:
    * `SectionPart.placements_within`
    * `Section.Encloses`, for what stands in a section
    * `Test.Encloses` and `Test.Names`, two ways to say which
      sections are around an item
    * `Test.names_iff_encloses`
-/

------------------------------------------------------------
-- Placements
------------------------------------------------------------

namespace Assessment

/- A placement seen from further out. -/
def Placement.within
    (outer : List String)
    (q : Placement) :
    Placement :=
  ⟨q.ref, outer ++ q.ancestry⟩

namespace SectionPart

mutual

/- What is around a part is around all its references. -/
theorem placements_within
    (outer ancestry : List String) :
    ∀ p : SectionPart,
      p.placements (outer ++ ancestry) =
        (p.placements ancestry).map (Placement.within outer)
  | .item ref => rfl
  | .nested info parts => by
      have hParts := placementsIn_within outer
        (ancestry ++ [info.identifier]) parts
      rw [placements, placements, List.append_assoc, hParts]

theorem placementsIn_within
    (outer ancestry : List String) :
    ∀ ps : List SectionPart,
      placementsIn (outer ++ ancestry) ps =
        (placementsIn ancestry ps).map (Placement.within outer)
  | [] => rfl
  | p :: rest => by
      have hFirst := placements_within outer ancestry p
      have hRest := placementsIn_within outer ancestry rest
      rw [placementsIn, placementsIn, hFirst, hRest,
        List.map_append]

end

end SectionPart

/- A reference stands in a section, or in one below it. -/
def Section.Encloses (x : Section) (ref : ItemRef) : Prop :=
  ∃ q ∈ x.placements, q.ref = ref

/- A section encloses what stands in it, seen from outside. -/
theorem Section.encloses_of_mem
    {info : SectionInfo}
    {parts : List SectionPart}
    {ancestry : List String}
    {q : Placement}
    (hQ :
      q ∈ SectionPart.placementsIn
        (ancestry ++ [info.identifier]) parts) :
    (Section.mk info parts).Encloses q.ref := by
  rw [SectionPart.placementsIn_within] at hQ
  rcases List.mem_map.mp hQ with ⟨r, hR, rfl⟩
  exact ⟨r, hR, rfl⟩

namespace SectionPart

mutual

/-
  An identifier around a reference in a part is around the
  part, or is that of a section of the part that encloses the
  reference.
-/
theorem exists_section
    (ancestry : List String)
    {q : Placement}
    {k : String} :
    ∀ p : SectionPart,
      q ∈ p.placements ancestry →
        k ∈ q.ancestry →
          k ∈ ancestry ∨
            ∃ x ∈ p.sections,
              x.info.identifier = k ∧ x.Encloses q.ref
  | .item ref => by
      intro hQ hK
      rw [placements, List.mem_singleton] at hQ
      subst hQ
      exact Or.inl hK
  | .nested info parts => by
      intro hQ hK
      rw [placements] at hQ
      rcases exists_sectionIn (ancestry ++ [info.identifier])
        parts hQ hK with hAround | ⟨x, hX, hBelow⟩
      · rcases List.mem_append.mp hAround with hOuter | hOwn
        · exact Or.inl hOuter
        · refine Or.inr ⟨⟨info, parts⟩, List.mem_cons_self, ?_⟩
          exact ⟨(List.mem_singleton.mp hOwn).symm,
            Section.encloses_of_mem hQ⟩
      · exact Or.inr ⟨x, List.mem_cons_of_mem _ hX, hBelow⟩

theorem exists_sectionIn
    (ancestry : List String)
    {q : Placement}
    {k : String} :
    ∀ ps : List SectionPart,
      q ∈ placementsIn ancestry ps →
        k ∈ q.ancestry →
          k ∈ ancestry ∨
            ∃ x ∈ sectionsIn ps,
              x.info.identifier = k ∧ x.Encloses q.ref
  | [] => by
      intro hQ
      cases hQ
  | p :: rest => by
      intro hQ hK
      rw [placementsIn] at hQ
      rw [sectionsIn]
      rcases List.mem_append.mp hQ with hFirst | hLater
      · rcases exists_section ancestry p hFirst hK with
          hOuter | ⟨x, hX, hBelow⟩
        · exact Or.inl hOuter
        · exact Or.inr ⟨x, List.mem_append_left _ hX, hBelow⟩
      · rcases exists_sectionIn ancestry rest hLater hK with
          hOuter | ⟨x, hX, hBelow⟩
        · exact Or.inl hOuter
        · exact Or.inr ⟨x, List.mem_append_right _ hX, hBelow⟩

end

mutual

/- The identifier of a section is around what it encloses. -/
theorem exists_placement
    (ancestry : List String)
    {x : Section}
    {ref : ItemRef}
    (hIn : x.Encloses ref) :
    ∀ p : SectionPart,
      x ∈ p.sections →
        ∃ q ∈ p.placements ancestry,
          q.ref = ref ∧ x.info.identifier ∈ q.ancestry
  | .item _ => by
      intro hX
      cases hX
  | .nested info parts => by
      intro hX
      rw [sections] at hX
      rcases List.mem_cons.mp hX with rfl | hBelow
      · rcases hIn with ⟨q, hQ, rfl⟩
        refine ⟨q.within ancestry, ?_, rfl, ?_⟩
        · rw [placements, placementsIn_within]
          exact List.mem_map_of_mem hQ
        · rw [Section.placements,
            ← List.append_nil [info.identifier],
            placementsIn_within] at hQ
          rcases List.mem_map.mp hQ with ⟨r, _, rfl⟩
          simp [Placement.within]
      · exact exists_placementIn
          (ancestry ++ [info.identifier]) hIn parts hBelow

theorem exists_placementIn
    (ancestry : List String)
    {x : Section}
    {ref : ItemRef}
    (hIn : x.Encloses ref) :
    ∀ ps : List SectionPart,
      x ∈ sectionsIn ps →
        ∃ q ∈ placementsIn ancestry ps,
          q.ref = ref ∧ x.info.identifier ∈ q.ancestry
  | [] => by
      intro hX
      cases hX
  | p :: rest => by
      intro hX
      rw [sectionsIn] at hX
      rw [placementsIn]
      rcases List.mem_append.mp hX with hFirst | hLater
      · rcases exists_placement ancestry hIn p hFirst with
          ⟨q, hQ, hAround⟩
        exact ⟨q, List.mem_append_left _ hQ, hAround⟩
      · rcases exists_placementIn ancestry hIn rest hLater with
          ⟨q, hQ, hAround⟩
        exact ⟨q, List.mem_append_right _ hQ, hAround⟩

end

end SectionPart

------------------------------------------------------------
-- Sections of a Test
------------------------------------------------------------

namespace Test

variable {t : Test}

/- A section of the test encloses the reference of an item. -/
def Encloses (t : Test) (e : ItemEntry) (x : Section) : Prop :=
  x ∈ t.sections ∧ x.Encloses e.ref

/-
  An item names a section: it is the first one with an
  identifier that is around the item.
-/
def Names (t : Test) (e : ItemEntry) (x : Section) : Prop :=
  x.info.identifier ∈ e.sections ∧
    t.section? x.info.identifier = some x

/- The top section of a test as a part with what is in it. -/
theorem mem_placements_iff {q : Placement} :
    q ∈ t.placements ↔
      ∃ p ∈ t.parts, ∃ s ∈ p.sections,
        q ∈ (SectionPart.nested s.info s.parts).placements
          [] := by
  simp only [placements, List.mem_flatMap]
  rfl

theorem mem_sections_iff {x : Section} :
    x ∈ t.sections ↔
      ∃ p ∈ t.parts, ∃ s ∈ p.sections,
        x ∈ (SectionPart.nested s.info s.parts).sections := by
  simp only [sections, List.mem_flatMap]
  rfl

/- What is around a reference are sections that enclose it. -/
theorem exists_section_of_mem
    {q : Placement}
    {k : String}
    (hQ : q ∈ t.placements)
    (hK : k ∈ q.ancestry) :
    ∃ x ∈ t.sections,
      x.info.identifier = k ∧ x.Encloses q.ref := by
  rcases mem_placements_iff.mp hQ with ⟨p, hP, s, hS, hIn⟩
  rcases SectionPart.exists_section [] _ hIn hK with
    hNone | ⟨x, hX, hBelow⟩
  · cases hNone
  · exact ⟨x, mem_sections_iff.mpr ⟨p, hP, s, hS, hX⟩, hBelow⟩

theorem exists_placement_of_mem
    {x : Section}
    {ref : ItemRef}
    (hX : x ∈ t.sections)
    (hIn : x.Encloses ref) :
    ∃ q ∈ t.placements,
      q.ref = ref ∧ x.info.identifier ∈ q.ancestry := by
  rcases mem_sections_iff.mp hX with ⟨p, hP, s, hS, hBelow⟩
  rcases SectionPart.exists_placement [] hIn _ hBelow with
    ⟨q, hQ, hAround⟩
  exact ⟨q, mem_placements_iff.mpr ⟨p, hP, s, hS, hQ⟩, hAround⟩

/- The first section with an identifier is the only one. -/
theorem section?_of_distinct
    (hNames : (t.sections.map fun s => s.info.identifier).Nodup)
    {x : Section}
    (hX : x ∈ t.sections) :
    t.section? x.info.identifier = some x := by
  cases hFound : t.section? x.info.identifier with
  | none =>
      have hNot := List.find?_eq_none.mp hFound x hX
      simp at hNot
  | some y =>
      have hMem := List.mem_of_find?_eq_some hFound
      have hName : y.info.identifier = x.info.identifier := by
        simpa using List.find?_some hFound
      rw [List.inj_on_of_nodup_map hNames hMem hX hName]

theorem section?_of_mem
    (hDistinct : t.identifiers.Nodup)
    {x : Section}
    (hX : x ∈ t.sections) :
    t.section? x.info.identifier = some x := by
  have hFirst := (List.nodup_append.mp hDistinct).1
  exact section?_of_distinct (List.nodup_append.mp hFirst).2.1 hX

/-
  Where identifiers are distinct, an item names the sections
  that enclose its reference.
-/
theorem names_iff_encloses
    (hDistinct : t.identifiers.Nodup)
    {e : ItemEntry}
    (hPlace : ⟨e.ref, e.sections⟩ ∈ t.placements)
    (x : Section) :
    t.Names e x ↔ t.Encloses e x := by
  constructor
  · rintro ⟨hAround, hFirst⟩
    rcases exists_section_of_mem hPlace hAround with
      ⟨y, hY, hName, hIn⟩
    have hSame := section?_of_mem hDistinct hY
    rw [hName, hFirst] at hSame
    cases hSame
    exact ⟨hY, hIn⟩
  · rintro ⟨hX, hIn⟩
    rcases exists_placement_of_mem hX hIn with
      ⟨q, hQ, hRef, hAround⟩
    have hSame :=
      placement_eq hDistinct hQ hPlace
        (congrArg ItemRef.identifier hRef)
    subst hSame
    exact ⟨hAround, section?_of_mem hDistinct hX⟩

end Test

end Assessment
