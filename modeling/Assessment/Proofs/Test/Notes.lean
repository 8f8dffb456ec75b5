import Assessment.Proofs.Rule.Targets
import Assessment.Proofs.Test.Frame
import Assessment.Test.Plan

/-
  The notes of planning and of a test session.

  Planning notes selections that cannot be met and references
  that lead nowhere. Apart from the notes of its items, a test
  session has those of its plan and what its outcome rules
  say. Where these rules find the outcomes that they write to,
  no call leaves a warning about a target.

  Main declarations:
    * `plan_works`, whatever is drawn
    * `TestSession.UpToRules`, laws that leave the rules over
    * `TestCall.moves_of_rules`, from the rules to all calls
    * `Test.Resolved`
    * `TestCall.unalarmed` and `TestSession.start_unalarming`
-/

------------------------------------------------------------
-- Selection
------------------------------------------------------------

namespace Assessment

open Stateful

namespace Planning

/- A computation that leaves no warning about a target. -/
abbrev Unalarming {α : Type} (x : Step α) : Prop :=
  Step.Works Note.Unalarming False x

variable {α : Type}

theorem warn_unalarming
    {source opening message : String}
    (hStarts : Text.Starts opening message)
    (hApart :
      ∀ o ∈ TargetWarning.openings,
        Text.Apart o opening) :
    Unalarming (Step.warn source message) :=
  Step.warn_works (TargetWarning.not_of_starts hStarts hApart)

theorem takeAny_works (n : Nat) (counts : List Nat) :
    Unalarming (takeAny n counts) := by
  induction n generalizing counts with
  | zero => exact Step.pure_works counts
  | succ n ih =>
      apply Works.bind (Step.draw_works False.elim)
      exact fun place => ih _

theorem takeOnce_works
    (n : Nat)
    (left counts : List Nat) :
    Unalarming (takeOnce n left counts) := by
  induction n generalizing left counts with
  | zero => exact Step.pure_works counts
  | succ n ih =>
      cases left with
      | nil => exact Step.pure_works counts
      | cons p rest =>
          apply Works.bind (Step.draw_works False.elim)
          exact fun pick => ih _ _

/- A section says which selection it cannot meet. -/
theorem select_works
    (planner : Planner)
    (owner : String)
    (s : Selection)
    (parts : List SectionPart) :
    Unalarming (select planner owner s parts) := by
  have hTake : ∀ (required : Nat) (counts : List Nat),
      Unalarming
        (if s.withReplacement then
          takeAny (s.count - required) counts
        else
          takeOnce (s.count - required) (freePlaces counts)
            counts) := by
    intro required counts
    split
    · exact takeAny_works _ _
    · exact takeOnce_works _ _ _
  have hWarn : ∀ rest : String,
      Unalarming (Step.warn planner.source
        ("section '" ++ owner ++ rest)) := by
    intro rest
    apply warn_unalarming
    · exact (Text.starts_append _ _).append _
    · decide
  unfold select
  dsimp only
  split
  · exact Step.pure_works _
  · split
    · apply Works.bind _ fun _ => Step.pure_works _
      simpa only [String.append_assoc] using hWarn _
    · split
      · apply Works.bind _ fun _ => hTake _ _
        simpa only [String.append_assoc] using hWarn _
      · exact hTake _ _

theorem counts_works
    (planner : Planner)
    (info : SectionInfo)
    (parts : List SectionPart) :
    Unalarming (counts planner info parts) := by
  unfold counts
  split
  · exact select_works _ _ _ _
  · exact Step.pure_works _

------------------------------------------------------------
-- Choices
------------------------------------------------------------

theorem arrange_works
    (info : SectionInfo)
    (children : List Chosen) :
    Unalarming (arrange info children) := by
  unfold arrange
  dsimp only
  split
  · apply Works.bind _ fun _ => Step.pure_works _
    apply Works.bind (Step.take_works _)
    exact fun _ => Step.pure_works _
  · exact Step.pure_works _

theorem times_works
    {x : Step (List α)}
    (hOnce : Unalarming x)
    (n : Nat) :
    Unalarming (times x n) := by
  induction n with
  | zero => exact Step.pure_works []
  | succ n ih =>
      apply Works.bind hOnce
      intro a
      apply Works.bind ih
      exact fun b => Step.pure_works _

variable (planner : Planner)

mutual

/- Induction over what a section holds. -/
theorem choose_works (p : SectionPart) :
    Unalarming (choose planner p) := by
  match p with
  | .item ref =>
      rw [choose]
      split
      · exact Step.pure_works _
      · apply Works.bind _ fun _ => Step.pure_works _
        apply warn_unalarming
        · exact ((Text.starts_append _ _).append
            _).append _
        · decide
  | .nested info parts =>
      rw [choose]
      apply Works.bind (counts_works planner info parts)
      intro counts
      apply Works.bind (chooseEach_works counts parts)
      intro children
      apply Works.bind (arrange_works info children)
      exact fun _ => Step.pure_works _

theorem chooseEach_works
    (ns : List Nat)
    (ps : List SectionPart) :
    Unalarming (chooseEach planner ns ps) := by
  match ns, ps with
  | _, [] =>
      rw [chooseEach]
      exact Step.pure_works _
  | [], _ :: _ =>
      rw [chooseEach]
      exact Step.pure_works _
  | n :: ns, p :: rest =>
      rw [chooseEach]
      apply Works.bind (times_works (choose_works p) n)
      intro a
      apply Works.bind (chooseEach_works ns rest)
      exact fun b => Step.pure_works _

end

theorem chooseSections_works (sections : List Section) :
    Unalarming (chooseSections planner sections) := by
  induction sections with
  | nil => exact Step.pure_works []
  | cons s rest ih =>
      apply Works.bind (choose_works planner _)
      intro a
      apply Works.bind ih
      exact fun b => Step.pure_works _

------------------------------------------------------------
-- Plans
------------------------------------------------------------

theorem planParts_works
    (given : Keyed Nat)
    (parts : List TestPart) :
    Unalarming (planParts planner given parts) := by
  induction parts generalizing given with
  | nil => exact Step.pure_works []
  | cons p rest ih =>
      apply Works.bind (chooseSections_works planner p.sections)
      intro chosen
      apply Works.bind (ih _)
      exact fun others => Step.pure_works _

end Planning

/- Whatever is drawn, a plan says nothing of targets. -/
theorem plan_works (t : Test) (resolves : ItemRef → Bool) :
    Planning.Unalarming (plan t resolves) := by
  unfold plan
  apply Works.bind (Planning.planParts_works _ [] t.parts)
  exact fun parts => Step.pure_works _

------------------------------------------------------------
-- Laws up to Rules
------------------------------------------------------------

open Stateful

namespace TestSession

/-
  A law that only the rules of a test can break, its items and
  outcomes being of no matter.
-/
structure UpToRules (R : TestSession → TestSession → Prop) :
    Prop where
  test : ∀ s t, R s t → t.test = s.test
  same :
    ∀ {s t : TestSession}, t.test = s.test →
      t.tally = s.tally → R s t
  outcomes :
    ∀ engine s,
      Ends
        (runRules
          (Rule.executeAll engine s.test.outcomeProcessing)) s
        fun _ t => R s t

namespace UpToRules

variable {α : Type}
variable {R : TestSession → TestSession → Prop}

theorem frames (hLaw : UpToRules R) : Frames R :=
  ⟨fun hTest _ hTally _ => hLaw.same hTest hTally⟩

/- What an item does is of no matter. -/
theorem onItem
    (hLaw : UpToRules R)
    (i : Nat)
    (x : Action α) :
    Moves R (onItem i x) := by
  intro s
  rw [ends_onItem]
  split
  · exact hLaw.same rfl rfl
  · exact Ends.of_forall fun _ _ => hLaw.same rfl rfl

theorem lifts (hLaw : UpToRules R) : Lifts Anyhow R :=
  ⟨fun _ i => hLaw.onItem i _⟩

variable [Std.Refl R]
variable [IsTrans TestSession R]

/- The rules are those of the test that is not replaced. -/
theorem processOutcomes (hLaw : UpToRules R) :
    Moves R processOutcomes := by
  refine processOutcomes_moves (hLaw.frames.announced _)
    (fun _ => hLaw.same rfl rfl) fun s t hReset => ?_
  rw [← hLaw.test s t hReset]
  exact hLaw.outcomes s.engine t

theorem partsMove (hLaw : UpToRules R) : PartsMove R :=
  hLaw.lifts.partsMove ItemCall.obey_anyhow.way hLaw.frames
    (fun _ => hLaw.same rfl rfl) hLaw.processOutcomes

theorem initialise (hLaw : UpToRules R) :
    Moves R initialise :=
  initialise_moves (hLaw.frames.announced _)
    (fun _ _ => hLaw.same rfl rfl)
    (initialiseItems_moves fun i _ => hLaw.onItem i _)
    fun _ => hLaw.same rfl rfl

end UpToRules

end TestSession

/- What the rules of a test obey is obeyed by all calls. -/
theorem TestCall.moves_of_rules
    {R : TestSession → TestSession → Prop}
    [Std.Refl R]
    [IsTrans TestSession R]
    (hLaw : TestSession.UpToRules R)
    (c : TestCall) :
    Moves R c.action :=
  hLaw.lifts.call_moves ItemCall.obey_anyhow
    hLaw.partsMove.steps hLaw.initialise c

------------------------------------------------------------
-- Outcome Rules
------------------------------------------------------------

/- The rules of a test find what they write to, all values. -/
structure Test.Resolved (t : Test) : Prop where
  resolves :
    ∀ w ∈ Rule.writingsIn t.outcomeProcessing,
      w.Resolves t.declarations
  values :
    ∀ w ∈ Rule.writingsIn t.outcomeProcessing,
      w.store = .values

namespace TestSession

/-
  A step that adds no warning about a target, if the rules of
  the test find theirs.
-/
structure Unalarmed (s t : TestSession) : Prop where
  test : t.test = s.test
  notes : s.test.Resolved → s.tally.Adds Note.Unalarming t.tally

instance : Std.Refl Unalarmed where
  refl _ := ⟨rfl, fun _ => Tally.Adds.of_eq rfl⟩

instance : IsTrans TestSession Unalarmed where
  trans s t u hFirst hThen := by
    refine ⟨hThen.test.trans hFirst.test, fun hResolved => ?_⟩
    have hLater := hThen.notes (hFirst.test.symm ▸ hResolved)
    exact IsTrans.trans (r := Tally.Adds Note.Unalarming) _ _ _
      (hFirst.notes hResolved) hLater

theorem upToRules_unalarmed : UpToRules Unalarmed where
  test _ _ hStep := hStep.test
  same hTest hTally :=
    ⟨hTest, fun _ => Tally.Adds.of_eq (by rw [hTally])⟩
  outcomes engine s := by
    rw [ends_runRules]
    refine ⟨rfl, fun hResolved => ?_⟩
    have hWorks := Rule.executeAll_works engine true
      hResolved.resolves fun _ => hResolved.values
    exact (hWorks ⟨s.scope, s.tally⟩ ⟨rfl, rfl⟩).2.1

/- A test starts with the notes of its plan. -/
theorem start_unalarming
    {t : Test}
    {items : Keyed Item}
    {engine : Engine}
    {draws : Draws}
    {first : TestSession}
    (hStart : start t items engine draws = .ok first) :
    ∀ n ∈ first.tally.notes, n.Unalarming := by
  have hPlan := plan_works t
    (fun r => (items.get? r.href).isSome) ⟨draws, []⟩ trivial
  rcases start_iff.mp hStart with ⟨plan, tally, hRun, rfl⟩
  have hAdds : Tally.Adds Note.Unalarming ⟨draws, []⟩ tally :=
    (hPlan.of_run hRun).2.1
  exact hAdds.forall_mem (by simp)

end TestSession

/- No call leaves a warning about a target of such a test. -/
theorem TestCall.unalarmed (c : TestCall) :
    Moves TestSession.Unalarmed c.action :=
  c.moves_of_rules TestSession.upToRules_unalarmed

end Assessment
