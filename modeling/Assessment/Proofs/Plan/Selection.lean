import Assessment.Proofs.Plan.Whole
import Mathlib.Algebra.GroupWithZero.Nat

/-
  What a section selects of its children.

  Children are counted, the required ones first. Further
  ones are drawn either from all children or from those that
  have not been taken. A draw needs something to draw from:
  where the numbers of a selection go together and there is
  a child to draw, exactly as many children are taken as were
  asked for, and no warning is left.

  Main declarations:
    * `Section.Suits`, numbers that go together
    * `ends_takeAny` and `ends_takeOnce`, loops of draws
    * `ends_counts`, the sum of what is taken
    * `Contributes` and `contributes_of_suits`
-/

------------------------------------------------------------
-- Draws
------------------------------------------------------------

namespace Assessment

open Stateful

namespace Step

/- A draw below a bound that is not zero is below it. -/
theorem ends_below
    {bound : Nat}
    {t : Tally}
    {Q : Except Failure Nat → Tally → Prop}
    (hBound : 0 < bound)
    (hQ : ∀ (n : Nat) (u : Tally), n < bound →
      u.notes = t.notes → Q (.ok n) u) :
    Ends (Step.draw fun d => d.below bound) t Q := by
  have hRun : run (Step.draw fun d => d.below bound) t =
      (.ok (t.draws.next.1 % bound),
        { t with draws := t.draws.next.2 }) := by
    have hNot : (bound == 0) = false := by
      simpa using Nat.ne_of_gt hBound
    simp only [run, Step.draw, Draws.below, hNot]
    rfl
  unfold Ends
  rw [show Stateful.run _ t = _ from hRun]
  exact hQ _ _ (Nat.mod_lt _ hBound) rfl

end Step

------------------------------------------------------------
-- Counts
------------------------------------------------------------

namespace Planning

@[simp] theorem length_increment
    (counts : List Nat)
    (place : Nat) :
    (increment counts place).length = counts.length := by
  simp [increment]

/- One more child is taken. -/
theorem sum_increment
    {counts : List Nat}
    {place : Nat}
    (hPlace : place < counts.length) :
    (increment counts place).sum = counts.sum + 1 := by
  induction counts generalizing place with
  | nil => simp at hPlace
  | cons n rest ih =>
      cases place with
      | zero =>
          simp [increment]
          omega
      | succ place =>
          have hRest := ih (by simpa using hPlace)
          unfold increment at hRest ⊢
          simp only [List.modify_succ_cons, List.sum_cons]
          omega

/- The places of zeros are as many as there are zeros. -/
theorem length_freePlaces (counts : List Nat) :
    (freePlaces counts).length = counts.count 0 := by
  induction counts with
  | nil => rfl
  | cons n rest ih =>
      unfold freePlaces at ih ⊢
      rw [List.length_cons, List.range_succ_eq_map,
        List.filter_cons, List.filter_map, List.count_cons]
      simp only [Function.comp_def, List.getElem?_cons_succ,
        List.getElem?_cons_zero]
      split
      next hZero =>
        have hN : n = 0 := by simpa using hZero
        simp [hN, ih]
      next hNot =>
        have hN : n ≠ 0 := by simpa using hNot
        simp [hN, ih]

theorem lt_of_mem_freePlaces
    {counts : List Nat}
    {place : Nat}
    (hMem : place ∈ freePlaces counts) :
    place < counts.length := by
  have hRange := (List.mem_filter.mp hMem).1
  exact List.mem_range.mp hRange

/- Required children are counted once, and the others free. -/
theorem requiredCounts_sums (parts : List SectionPart) :
    (requiredCounts parts).sum =
        (parts.filter SectionPart.required).length ∧
      (requiredCounts parts).count 0 +
        (requiredCounts parts).sum = parts.length := by
  induction parts with
  | nil => exact ⟨rfl, rfl⟩
  | cons p rest ih =>
      unfold requiredCounts at ih ⊢
      by_cases hRequired : p.required = true
      · simp [hRequired]
        omega
      · simp [hRequired]
        omega

------------------------------------------------------------
-- Loops of Draws
------------------------------------------------------------

/- Counts of children that come to a sum, without a note. -/
def Counted
    (children sum : Nat)
    (t : Tally)
    (r : Except Failure (List Nat))
    (u : Tally) :
    Prop :=
  ∃ cs, r = .ok cs ∧ cs.length = children ∧ cs.sum = sum ∧
    u.notes = t.notes

/- Every draw from all children takes one of them. -/
theorem ends_takeAny
    (n : Nat)
    (counts : List Nat)
    (tally : Tally)
    (hSome : 0 < counts.length) :
    Ends (takeAny n counts) tally
      (Counted counts.length (counts.sum + n) tally) := by
  induction n generalizing counts tally with
  | zero => exact ⟨counts, rfl, rfl, rfl, rfl⟩
  | succ n ih =>
      rw [takeAny, ends_bind]
      refine Step.ends_below hSome fun place t hPlace hNotes => ?_
      dsimp only
      have hLength := length_increment counts place
      have hSum := sum_increment hPlace
      refine (ih (increment counts place) t
        (by rwa [hLength])).mono ?_
      rintro r u ⟨cs, rfl, hCs, hTotal, hSame⟩
      exact ⟨cs, rfl, by omega, by omega, hSame.trans hNotes⟩

/- So does every draw from the children that are left. -/
theorem ends_takeOnce
    (n : Nat)
    (left counts : List Nat)
    (tally : Tally)
    (hEnough : n ≤ left.length)
    (hLeft : ∀ place ∈ left, place < counts.length) :
    Ends (takeOnce n left counts) tally
      (Counted counts.length (counts.sum + n) tally) := by
  induction n generalizing left counts tally with
  | zero =>
      cases left with
      | nil => exact ⟨counts, rfl, rfl, rfl, rfl⟩
      | cons p rest => exact ⟨counts, rfl, rfl, rfl, rfl⟩
  | succ n ih =>
      cases left with
      | nil => simp at hEnough
      | cons p rest =>
          rw [takeOnce, ends_bind]
          refine Step.ends_below (by simp)
            fun pick t hPick hNotes => ?_
          dsimp only
          rw [List.getElem?_eq_getElem hPick, Option.getD_some]
          generalize hTaken : (p :: rest)[pick] = place
          have hMem : place ∈ p :: rest :=
            hTaken ▸ List.getElem_mem hPick
          have hLength := length_increment counts place
          have hSum := sum_increment (hLeft place hMem)
          have hFewer := List.length_eraseIdx_of_lt hPick
          refine (ih ((p :: rest).eraseIdx pick)
            (increment counts place) t ?_ ?_).mono ?_
          · simp only [List.length_cons] at hEnough hFewer
            omega
          · intro other hOther
            rw [hLength]
            exact hLeft other (List.mem_of_mem_eraseIdx hOther)
          · rintro r u ⟨cs, rfl, hCs, hTotal, hSame⟩
            exact ⟨cs, rfl, by omega, by omega,
              hSame.trans hNotes⟩

------------------------------------------------------------
-- Selections
------------------------------------------------------------

end Planning

/-
  The numbers of a selection go together, and if children are
  drawn, there are children.
-/
structure Section.Suits (s : Section) : Prop where
  required : ∀ sel, s.info.selection = some sel →
    (s.parts.filter SectionPart.required).length ≤ sel.count
  enough : ∀ sel, s.info.selection = some sel →
    sel.withReplacement = true ∨ sel.count ≤ s.parts.length
  children : ∀ sel, s.info.selection = some sel →
    s.parts = [] → sel.count = 0

namespace Planning

/- How many children a section takes. -/
def taking (s : Section) : Nat :=
  match s.info.selection with
  | some sel => sel.count
  | none => s.parts.length

/- As many children are counted as the section takes. -/
theorem ends_counts
    (planner : Planner)
    {s : Section}
    (hSuits : s.Suits)
    (tally : Tally) :
    Ends (counts planner s.info s.parts) tally
      (Counted s.parts.length (taking s) tally) := by
  unfold counts taking
  cases hSelection : s.info.selection with
  | none => exact ⟨_, rfl, by simp, by simp, rfl⟩
  | some sel =>
      have hRequired := hSuits.required sel hSelection
      have hEnough := hSuits.enough sel hSelection
      have hChildren := hSuits.children sel hSelection
      rcases requiredCounts_sums s.parts with ⟨hSum, hFree⟩
      have hLength : (requiredCounts s.parts).length =
          s.parts.length := by simp [requiredCounts]
      have hFold : (requiredCounts s.parts).foldr (· + ·) 0 =
          (requiredCounts s.parts).sum := rfl
      dsimp only
      unfold select
      rw [ends_ite]
      split
      next hZero =>
        have hCount : sel.count = 0 := by simpa using hZero
        exact ⟨_, rfl, by simp, by simp [hCount], rfl⟩
      next hSome =>
        have hCount : sel.count ≠ 0 := by simpa using hSome
        have hFew : ¬ (!sel.withReplacement &&
            decide (s.parts.length < sel.count)) = true := by
          rcases hEnough with hAgain | hAll
          · simp [hAgain]
          · simp [hAll]
        have hMet : ¬ sel.count <
            (requiredCounts s.parts).sum := by omega
        rw [if_neg hFew]
        simp only [hFold, if_neg hMet]
        rw [ends_ite]
        split
        next hAgain =>
          have hPositive : 0 < s.parts.length := by
            apply List.length_pos_of_ne_nil
            exact fun hNil => hCount (hChildren hNil)
          have hDrawn := ends_takeAny
            (sel.count - (requiredCounts s.parts).sum)
            (requiredCounts s.parts) tally (by omega)
          rw [hLength, Nat.add_sub_cancel' (by omega)] at hDrawn
          exact hDrawn
        next hNever =>
          have hAll := hEnough.resolve_left hNever
          have hPlaces := length_freePlaces
            (requiredCounts s.parts)
          have hDrawn := ends_takeOnce
            (sel.count - (requiredCounts s.parts).sum)
            (freePlaces (requiredCounts s.parts))
            (requiredCounts s.parts) tally (by omega)
            fun _ hMem => lt_of_mem_freePlaces hMem
          rw [hLength, Nat.add_sub_cancel' (by omega)] at hDrawn
          exact hDrawn

------------------------------------------------------------
-- What Is Taken
------------------------------------------------------------

end Planning

/- What is chosen of a part, apart from its children. -/
inductive Chosen.StandsFor : Chosen → SectionPart → Prop where
  | item (ref : ItemRef) :
      StandsFor (.item ref) (.item ref)
  | group
      (info : SectionInfo)
      (children : List Chosen)
      (parts : List SectionPart) :
      StandsFor (.group info children) (.nested info parts)

namespace Planning

/- Choices among parts, of a number and without a note. -/
def Gathered
    (parts : List SectionPart)
    (n : Nat)
    (t : Tally)
    (r : Except Failure (List Chosen))
    (u : Tally) :
    Prop :=
  ∃ cs, r = .ok cs ∧ cs.length = n ∧
    (∀ c ∈ cs, ∃ p ∈ parts, c.StandsFor p) ∧
    u.notes = t.notes

/-
  What a section takes of its children, with repetition, in
  the order of the document.
-/
def taken (planner : Planner) (s : Section) :
    Step (List Chosen) := do
  let counts ← counts planner s.info s.parts
  chooseEach planner counts s.parts

/- A section holds what it takes, put in order. -/
theorem choose_nested
    (planner : Planner)
    (info : SectionInfo)
    (parts : List SectionPart) :
    choose planner (.nested info parts) =
      taken planner ⟨info, parts⟩ >>= fun children => do
        return [.group info (← arrange info children)] := by
  rw [choose, taken, bind_assoc]

/- Whatever is drawn, a section takes a number of choices. -/
def Contributes
    (planner : Planner)
    (s : Section)
    (n : Nat) :
    Prop :=
  ∀ tally, Ends (taken planner s) tally
    (Gathered s.parts n tally)

/- The sections suit, and every reference resolves. -/
structure Ready
    (planner : Planner)
    (ancestry : List String)
    (parts : List SectionPart) :
    Prop where
  suits : ∀ s ∈ SectionPart.sectionsIn parts, s.Suits
  resolves : ∀ q ∈ SectionPart.placementsIn ancestry parts,
    planner.resolves q.ref = true

namespace Ready

variable {planner : Planner}
variable {ancestry : List String}

theorem head
    {p : SectionPart}
    {rest : List SectionPart}
    (hReady : Ready planner ancestry (p :: rest)) :
    Ready planner ancestry [p] := by
  rcases hReady with ⟨hSuits, hResolves⟩
  constructor
  · intro s hMem
    rw [SectionPart.sectionsIn] at hMem hSuits
    exact hSuits s (by simpa [SectionPart.sectionsIn] using
      List.mem_append_left _ (by simpa [SectionPart.sectionsIn]
        using hMem))
  · intro q hMem
    rw [SectionPart.placementsIn] at hMem hResolves
    exact hResolves q (List.mem_append_left _ (by
      simpa [SectionPart.placementsIn] using hMem))

theorem tail
    {p : SectionPart}
    {rest : List SectionPart}
    (hReady : Ready planner ancestry (p :: rest)) :
    Ready planner ancestry rest := by
  rcases hReady with ⟨hSuits, hResolves⟩
  constructor
  · exact fun s hMem => hSuits s (List.mem_append_right _ hMem)
  · exact fun q hMem =>
      hResolves q (List.mem_append_right _ hMem)

theorem inner
    {info : SectionInfo}
    {parts : List SectionPart}
    (hReady : Ready planner ancestry [.nested info parts]) :
    Section.Suits ⟨info, parts⟩ ∧
      Ready planner (ancestry ++ [info.identifier]) parts := by
  rcases hReady with ⟨hSuits, hResolves⟩
  simp only [SectionPart.sectionsIn, SectionPart.sections,
    List.append_nil, List.mem_cons, forall_eq_or_imp]
    at hSuits
  simp only [SectionPart.placementsIn, SectionPart.placements,
    List.append_nil] at hResolves
  exact ⟨hSuits.1, hSuits.2, hResolves⟩

end Ready

mutual

/- What is ready is ready at every depth. -/
theorem ready_sections
    (planner : Planner)
    (ancestry : List String) :
    ∀ p : SectionPart, Ready planner ancestry [p] →
      ∀ s ∈ p.sections, s.Suits ∧
        ∃ inner, Ready planner inner s.parts
  | .item ref, _, s, hMem => absurd hMem List.not_mem_nil
  | .nested info parts, hReady, s, hMem => by
      rcases hReady.inner with ⟨hSuits, hParts⟩
      rcases List.mem_cons.mp hMem with rfl | hBelow
      · exact ⟨hSuits, _, hParts⟩
      · exact ready_sectionsIn planner _ parts hParts s hBelow

theorem ready_sectionsIn
    (planner : Planner)
    (ancestry : List String) :
    ∀ ps : List SectionPart, Ready planner ancestry ps →
      ∀ s ∈ SectionPart.sectionsIn ps, s.Suits ∧
        ∃ inner, Ready planner inner s.parts
  | [], _, s, hMem => absurd hMem List.not_mem_nil
  | p :: rest, hReady, s, hMem => by
      rcases List.mem_append.mp hMem with hFirst | hRest
      · exact ready_sections planner ancestry p hReady.head s
          hFirst
      · exact ready_sectionsIn planner ancestry rest
          hReady.tail s hRest

end

/- A section takes as much as its children can be chosen for. -/
theorem contributes_of_each
    {planner : Planner}
    {s : Section}
    (hSuits : s.Suits)
    (hEach : ∀ (cs : List Nat) (t : Tally),
      cs.length = s.parts.length →
        Ends (chooseEach planner cs s.parts) t
          (Gathered s.parts cs.sum t)) :
    Contributes planner s (taking s) := by
  intro tally
  rw [taken, ends_bind]
  refine (ends_counts planner hSuits tally).mono ?_
  rintro r t ⟨cs, rfl, hLength, hSum, hNotes⟩
  dsimp only
  refine (hEach cs t hLength).mono ?_
  rintro r u ⟨chosen, rfl, hChosen, hStand, hSame⟩
  exact ⟨chosen, rfl, hChosen.trans hSum, hStand,
    hSame.trans hNotes⟩

/- Repeated choices add up. -/
theorem ends_times
    {parts : List SectionPart}
    {x : Step (List Chosen)}
    (hOnce : ∀ t, Ends x t (Gathered parts 1 t))
    (n : Nat)
    (tally : Tally) :
    Ends (times x n) tally (Gathered parts n tally) := by
  induction n generalizing tally with
  | zero => exact ⟨[], rfl, rfl, by simp, rfl⟩
  | succ n ih =>
      rw [times, ends_bind]
      refine (hOnce tally).mono ?_
      rintro r t ⟨first, rfl, hFirst, hStand, hNotes⟩
      dsimp only
      rw [ends_bind]
      refine (ih t).mono ?_
      rintro r u ⟨others, rfl, hOthers, hAlso, hSame⟩
      refine ⟨first ++ others, rfl, ?_, ?_, hSame.trans hNotes⟩
      · rw [List.length_append]
        omega
      · intro c hMem
        rcases List.mem_append.mp hMem with hC | hC
        · exact hStand c hC
        · exact hAlso c hC

mutual

/- Where all is ready, a part is one choice. -/
theorem gathered_choose
    (planner : Planner)
    (ancestry : List String) :
    ∀ (p : SectionPart) (tally : Tally),
      Ready planner ancestry [p] →
        Ends (choose planner p) tally (Gathered [p] 1 tally)
  | .item ref, tally, hReady => by
      have hResolves := hReady.resolves ⟨ref, ancestry⟩
        (by simp [SectionPart.placementsIn,
          SectionPart.placements])
      rw [choose, if_pos hResolves]
      refine ⟨_, rfl, rfl, ?_, rfl⟩
      intro c hMem
      rcases List.mem_singleton.mp hMem with rfl
      exact ⟨_, List.mem_cons_self, .item ref⟩
  | .nested info parts, tally, hReady => by
      rcases hReady.inner with ⟨hSuits, hParts⟩
      have hTaken := contributes_of_each hSuits
        fun cs t hLength =>
          gathered_chooseEach planner _ parts cs t hParts hLength
      rw [choose_nested, ends_bind]
      refine (hTaken tally).mono ?_
      rintro r t ⟨children, rfl, -, -, hNotes⟩
      dsimp only
      rw [ends_bind]
      refine (ends_arrange info children t).mono ?_
      rintro r u ⟨ordered, rfl, hSame, -⟩
      refine ⟨_, rfl, rfl, ?_, hSame.trans hNotes⟩
      intro c hMem
      rcases List.mem_singleton.mp hMem with rfl
      exact ⟨_, List.mem_cons_self, .group info ordered parts⟩

theorem gathered_chooseEach
    (planner : Planner)
    (ancestry : List String) :
    ∀ (parts : List SectionPart) (cs : List Nat)
      (tally : Tally),
      Ready planner ancestry parts →
        cs.length = parts.length →
          Ends (chooseEach planner cs parts) tally
            (Gathered parts cs.sum tally)
  | [], [], tally, _, _ => ⟨[], rfl, rfl, by simp, rfl⟩
  | p :: rest, n :: ns, tally, hReady, hLength => by
      have hOnce := fun t =>
        gathered_choose planner ancestry p t hReady.head
      rw [chooseEach, ends_bind]
      refine (ends_times hOnce n tally).mono ?_
      rintro r t ⟨first, rfl, hFirst, hStand, hNotes⟩
      dsimp only
      rw [ends_bind]
      refine (gathered_chooseEach planner ancestry rest ns t
        hReady.tail (by simpa using hLength)).mono ?_
      rintro r u ⟨others, rfl, hOthers, hAlso, hSame⟩
      refine ⟨first ++ others, rfl, ?_, ?_, hSame.trans hNotes⟩
      · rw [List.length_append, List.sum_cons]
        omega
      · intro c hMem
        rcases List.mem_append.mp hMem with hC | hC
        · rcases hStand c hC with ⟨q, hQ, hIs⟩
          rcases List.mem_singleton.mp hQ with rfl
          exact ⟨q, List.mem_cons_self, hIs⟩
        · rcases hAlso c hC with ⟨q, hQ, hIs⟩
          exact ⟨q, List.mem_cons_of_mem p hQ, hIs⟩

end

------------------------------------------------------------
-- Plans
------------------------------------------------------------

/- Something is planned without a note. -/
def Quiet
    {α : Type}
    (t : Tally)
    (r : Except Failure α)
    (u : Tally) :
    Prop :=
  (∃ a, r = .ok a) ∧ u.notes = t.notes

theorem quiet_chooseSections
    (planner : Planner)
    (ss : List Section)
    (tally : Tally)
    (hReady : Ready planner [] (ss.map Section.part)) :
    Ends (chooseSections planner ss) tally (Quiet tally) := by
  induction ss generalizing tally with
  | nil => exact ⟨⟨[], rfl⟩, rfl⟩
  | cons s rest ih =>
      rw [chooseSections, ends_bind]
      refine (gathered_choose planner [] s.part tally
        hReady.head).mono ?_
      rintro r t ⟨first, rfl, -, -, hNotes⟩
      dsimp only
      rw [ends_bind]
      refine (ih t hReady.tail).mono ?_
      rintro r u ⟨⟨others, rfl⟩, hSame⟩
      exact ⟨⟨_, rfl⟩, hSame.trans hNotes⟩

theorem quiet_planParts
    (planner : Planner)
    (given : Keyed Nat)
    (parts : List TestPart)
    (tally : Tally)
    (hReady : ∀ p ∈ parts,
      Ready planner [] (p.sections.map Section.part)) :
    Ends (planParts planner given parts) tally
      (Quiet tally) := by
  induction parts generalizing given tally with
  | nil => exact ⟨⟨[], rfl⟩, rfl⟩
  | cons p rest ih =>
      rw [planParts, ends_bind]
      refine (quiet_chooseSections planner p.sections tally
        (hReady p List.mem_cons_self)).mono ?_
      rintro r t ⟨⟨chosen, rfl⟩, hNotes⟩
      dsimp only
      rw [ends_bind]
      refine (ih _ t fun q hMem =>
        hReady q (List.mem_cons_of_mem p hMem)).mono ?_
      rintro r u ⟨⟨others, rfl⟩, hSame⟩
      exact ⟨⟨_, rfl⟩, hSame.trans hNotes⟩

end Planning

/- The sections of a test suit, and its references resolve. -/
structure Test.Ready
    (t : Test)
    (resolves : ItemRef → Bool) :
    Prop where
  suits : ∀ s ∈ t.sections, s.Suits
  resolves : ∀ q ∈ t.placements, resolves q.ref = true

theorem SectionPart.placementsIn_map_part
    (ss : List Section) :
    placementsIn [] (ss.map Section.part) =
      ss.flatMap Section.placements := by
  induction ss with
  | nil => rfl
  | cons s rest ih =>
      rw [List.map_cons, placementsIn, ih, List.flatMap_cons]
      rfl

namespace Test.Ready

open Planning

variable {t : Test}
variable {resolves : ItemRef → Bool}

/- Its parts are ready to be planned. -/
theorem sections
    (hReady : t.Ready resolves)
    {p : TestPart}
    (hPart : p ∈ t.parts) :
    Planning.Ready ⟨t.identifier, resolves⟩ []
      (p.sections.map Section.part) := by
  constructor
  · intro s hMem
    rw [SectionPart.sectionsIn_map_part] at hMem
    exact hReady.suits s
      (List.mem_flatMap.mpr ⟨p, hPart, hMem⟩)
  · intro q hMem
    rw [SectionPart.placementsIn_map_part] at hMem
    exact hReady.resolves q
      (List.mem_flatMap.mpr ⟨p, hPart, hMem⟩)

/- A test that is ready is planned without a note. -/
theorem plan_quiet
    (hReady : t.Ready resolves)
    (tally : Tally) :
    Ends (Assessment.plan t resolves) tally (Quiet tally) := by
  unfold Assessment.plan
  rw [ends_bind]
  refine (quiet_planParts _ _ t.parts tally
    fun p hPart => hReady.sections hPart).mono ?_
  rintro r u ⟨⟨nodes, rfl⟩, hNotes⟩
  exact ⟨⟨_, rfl⟩, hNotes⟩

/- Each of its sections takes as many children as it asks for. -/
theorem contributes
    (hReady : t.Ready resolves)
    {s : Section}
    (hMem : s ∈ t.sections) :
    Contributes ⟨t.identifier, resolves⟩ s (taking s) := by
  rcases List.mem_flatMap.mp hMem with ⟨p, hPart, hSection⟩
  rw [← SectionPart.sectionsIn_map_part] at hSection
  rcases ready_sectionsIn _ _ _ (hReady.sections hPart) s
    hSection with ⟨hSuits, inner, hParts⟩
  exact contributes_of_each hSuits fun cs tally hLength =>
    gathered_chooseEach _ inner s.parts cs tally hParts hLength

end Test.Ready

end Assessment
