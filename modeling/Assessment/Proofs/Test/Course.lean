import Assessment.Proofs.Test.Parts
import Mathlib.Data.List.Induction
import Mathlib.Data.List.Infix

/-
  The course of a test session.

  Whatever calls are made, in whatever order and whether they
  fail or not, a test session leads through its parts one by
  one, has at most one item open, and closes the items of a
  part with the part. Items of parts that have not been
  entered stay untouched until the test is left.

  Main declarations:
    * `TestSession.start_orderly`
    * `TestCall.proceeds`, the law of one call
    * `TestSession.Led`, what a session guarantees
    * `TestSession.course_of_calls`, the law of all runs
-/

------------------------------------------------------------
-- The First State
------------------------------------------------------------

namespace Assessment

open Stateful

namespace TestSession

/- A session that has been started is in order. -/
theorem start_orderly
    {t : Test}
    {items : Keyed Item}
    {engine : Engine}
    {draws : Draws}
    {s : TestSession}
    (hStart : start t items engine draws = .ok s) :
    s.Orderly := by
  have hFresh : ∀ (i : Nat) (e : ItemEntry),
      s.entries[i]? = some e → e.session.state = {} :=
    fun _ e hE =>
      (start_fresh hStart e (List.mem_of_getElem? hE)).state
  rcases start_iff.mp hStart with ⟨plan, tally, _, rfl⟩
  refine ⟨?_, ?_, ?_, ?_, ?_, ?_, ?_, ?_, ?_, ?_, ?_, ?_⟩
  · intro i e hE
    rw [hFresh i e hE]
    exact ItemState.coherent_default
  · intro hInit
    cases hInit
  · intro i hItem
    cases hItem
  · intro i e hE hPhase
    rw [hFresh i e hE] at hPhase
    cases hPhase
  · intro p hPart
    cases hPart
  · intro p hPart
    cases hPart
  · exact fun _ _ => rfl
  · intro q b hGet
    simp only [TestState.standing, freshState,
      List.getElem?_map, Option.map_eq_some_iff] at hGet
    rcases hGet with ⟨_, ⟨_, _, rfl⟩, rfl⟩
    exact ⟨fun hRuns => (by cases hRuns),
      fun hNever => (by cases hNever.1)⟩
  · simp [TestState.standing, freshState]
  · intro i e _ hEnded
    cases hEnded
  · intro _ i e hE hBegun
    rw [hFresh i e hE] at hBegun
    rcases hBegun with hShown | hClosed
    · cases hShown
    · cases hClosed
  · intro hExited
    cases hExited

end TestSession

------------------------------------------------------------
-- Calls
------------------------------------------------------------

/- A call that does not leave the test cannot be an exit. -/
theorem TestSession.Proceeds.mono
    {s t : TestSession}
    {leaves may : Prop}
    (hProceeds : s.Proceeds leaves t)
    (hMay : leaves → may) :
    s.Proceeds may t :=
  ⟨hProceeds.orderly, hProceeds.ended,
    Or.imp_right hMay ∘ hProceeds.exited⟩

/- Every call leaves a session in order. -/
theorem TestCall.proceeds
    (c : TestCall)
    {s : TestSession}
    (hOrder : s.Orderly) :
    Ends c.action s fun r t =>
      s.Proceeds ((∃ now, c = .exit now) ∧ r.isOk = true) t := by
  have hOther :
      ∀ {r : Except Failure Unit} {t : TestSession},
        s.Proceeds False t →
        s.Proceeds ((∃ now, c = .exit now) ∧ r.isOk = true) t :=
    fun h => h.mono False.elim
  cases c with
  | initialise =>
      exact (TestSession.ends_initialise hOrder).mono
        fun _ _ => hOther
  | enterTest now =>
      exact (TestSession.ends_enterTest hOrder now).mono
        fun _ _ => hOther
  | nextPart now =>
      exact (ends_discard.mpr
        (TestSession.ends_nextPart hOrder now)).mono
          fun _ _ => hOther
  | nextItem now =>
      exact (ends_discard.mpr
        (TestSession.ends_nextItem hOrder now)).mono
          fun _ _ h => hOther (h.2.proceeds h.1 False)
  | selectItem ref occurrence now =>
      exact (ends_discard.mpr
        (TestSession.ends_selectItem hOrder ref occurrence
          now)).mono
            fun _ _ h => hOther (h.2.proceeds h.1 False)
  | submit responses now =>
      exact (ends_discard.mpr
        (TestSession.submit_calm hOrder responses now)).mono
          fun _ _ h =>
            hOther (h.near.proceeds (h.orderly hOrder) False)
  | endPart now =>
      exact (TestSession.ends_endPart hOrder now).mono
        fun _ _ => hOther
  | exit now =>
      exact (TestSession.ends_exit hOrder now).mono
        fun _ _ h => h.mono fun hOk => ⟨⟨now, rfl⟩, hOk⟩
  | processOutcomes =>
      exact (TestSession.processOutcomes_calm s).mono
        fun _ _ h =>
          hOther (h.near.proceeds (h.orderly hOrder) False)
  | touch now =>
      exact (TestSession.touch_calm hOrder now).mono
        fun _ _ h =>
          hOther (h.near.proceeds (h.orderly hOrder) False)

------------------------------------------------------------
-- Runs
------------------------------------------------------------

namespace TestSession

theorem after_snoc
    (s : TestSession)
    (calls : List TestCall)
    (c : TestCall) :
    s.after (calls ++ [c]) =
      (Stateful.run c.action (s.after calls)).2 := by
  simp [after]

/- A session stays in order, whatever calls are made. -/
theorem after_orderly
    {s : TestSession}
    (hOrder : s.Orderly)
    (calls : List TestCall) :
    (s.after calls).Orderly := by
  induction calls using List.reverseRecOn with
  | nil => exact hOrder
  | append_singleton calls c ih =>
      rw [after_snoc]
      exact (c.proceeds ih).orderly

/- A part ends, or is under way, only after it was entered. -/
theorem entered_of_ended
    {s : TestSession}
    (hOrder : s.Orderly)
    (hNone : s.state.ended = [])
    (calls : List TestCall)
    {q : Nat}
    (hReached :
      q ∈ (s.after calls).state.ended ∨
        (s.after calls).state.part = some q) :
    ∃ earlier, earlier <+: calls ∧
      (s.after earlier).state.part = some q := by
  induction calls using List.reverseRecOn with
  | nil =>
      rcases hReached with hEnded | hPart
      · rw [show (s.after []).state.ended = [] from hNone]
          at hEnded
        cases hEnded
      · exact ⟨[], List.prefix_rfl, hPart⟩
  | append_singleton calls c ih =>
      rcases hReached with hEnded | hPart
      · have hProceeds :=
          c.proceeds (after_orderly hOrder calls)
        rw [after_snoc] at hEnded
        rcases ih (hProceeds.ended q hEnded) with
          ⟨earlier, hPrefix, hPart⟩
        exact ⟨earlier,
          hPrefix.trans (List.prefix_append calls [c]), hPart⟩
      · exact ⟨calls ++ [c], List.prefix_rfl, hPart⟩

/- Only an exit that goes through leaves the test. -/
theorem hasLeft_of_exited
    {s : TestSession}
    (hOrder : s.Orderly)
    (hStays : s.state.exited = false)
    (calls : List TestCall)
    (hExited : (s.after calls).state.exited = true) :
    s.HasLeft calls := by
  induction calls using List.reverseRecOn with
  | nil =>
      rw [show (s.after []).state.exited = false from hStays]
        at hExited
      cases hExited
  | append_singleton calls c ih =>
      have hProceeds := c.proceeds (after_orderly hOrder calls)
      rw [after_snoc] at hExited
      rcases hProceeds.exited hExited with hEarlier |
        ⟨⟨now, rfl⟩, hOk⟩
      · rcases ih hEarlier with ⟨earlier, now, later, hSplit, hOk⟩
        refine ⟨earlier, now, later ++ [c], ?_, hOk⟩
        rw [hSplit]
        simp
      · exact ⟨calls, now, [], rfl, hOk⟩

/-
  How a session leads a candidate through a test: its current
  item, its parts and their timers, and its items agree.
-/
structure Led (s : TestSession) : Prop where
  /- The current item is one of the part under way. -/
  current :
    ∀ i, s.state.item = some i →
      ∃ e, s.entries[i]? = some e ∧
        s.state.part = some e.part ∧
        e.part ∉ s.state.ended ∧ s.state.finished = false
  /- Only the current item is open, and only its clock runs. -/
  interacting :
    ∀ (i : Nat) (e : ItemEntry), s.entries[i]? = some e →
      (e.session.state.phase = .interacting ∨
        e.session.state.timer.isRunning = true) →
      s.state.item = some i
  before :
    ∀ p, s.state.part = some p →
      ∀ q, q < p → q ∈ s.state.ended
  behind :
    ∀ p, s.state.part = some p →
      ∀ q, p < q → q ∉ s.state.ended
  /- Every part has a timer, which runs while it is under way. -/
  timers :
    s.state.partTimers.length = s.test.parts.length ∧
      ∀ (q : Nat) (timer : Timer),
        s.state.partTimers[q]? = some timer →
        (timer.isRunning = true ↔
          s.state.part = some q ∧ q ∉ s.state.ended)
  closed :
    ∀ e ∈ s.entries, e.part ∈ s.state.ended →
      e.session.state.phase = .finished

/- A session in order leads its candidate. -/
theorem Orderly.led
    {s : TestSession}
    (hOrder : s.Orderly) :
    s.Led := by
  refine ⟨InOrder.current hOrder, ?_, InOrder.before hOrder,
    InOrder.behind hOrder, ⟨?_, ?_⟩, ?_⟩
  · intro i e hE hOpen
    refine InOrder.interacting hOrder i e hE ?_
    rcases hOpen with hPhase | hRuns
    · exact hPhase
    · exact (InOrder.coherent hOrder i e hE).clock.mp hRuns
  · have hCount := InOrder.count hOrder
    simpa [TestState.standing] using hCount
  · intro q timer hTimer
    refine InOrder.timers hOrder q timer.isRunning ?_
    simp [TestState.standing, hTimer]
  · intro e hMem hEnded
    rcases List.getElem?_of_mem hMem with ⟨i, hE⟩
    rw [ItemState.phase_eq_finished_iff]
    exact InOrder.closed hOrder i e hE hEnded

/-
  In every state that calls lead to, a session leads its
  candidate, and as long as the test has not been left, items
  of parts that were never entered have been neither presented
  nor closed.
-/
theorem course_of_calls
    (t : Test)
    (items : Keyed Item)
    (engine : Engine)
    (draws : Draws)
    (first : TestSession)
    (hStart : start t items engine draws = .ok first)
    (calls : List TestCall) :
    (first.after calls).Led ∧
      (¬ first.HasLeft calls →
        ∀ e ∈ (first.after calls).entries,
          (∀ earlier, earlier <+: calls →
            (first.after earlier).state.part ≠ some e.part) →
          e.session.state.presented = false ∧
            e.session.state.finished = false) := by
  have hFirst := start_orderly hStart
  have hFreshEnded : first.state.ended = [] := by
    rw [start_state hStart]
    rfl
  have hFreshExited : first.state.exited = false := by
    rw [start_state hStart]
    rfl
  have hOrder := after_orderly hFirst calls
  refine ⟨hOrder.led, ?_⟩
  intro hStays e hMem hNever
  rcases List.getElem?_of_mem hMem with ⟨i, hE⟩
  have hNotExited : (first.after calls).state.exited = false := by
    cases hExited : (first.after calls).state.exited with
    | false => rfl
    | true =>
        exact absurd
          (hasLeft_of_exited hFirst hFreshExited calls hExited)
          hStays
  have hNotBegun : ¬ e.session.state.IsBegun := by
    intro hBegun
    have hReached :=
      InOrder.begun hOrder hNotExited i e hE hBegun
    rcases entered_of_ended hFirst hFreshEnded calls hReached with
      ⟨earlier, hPrefix, hPart⟩
    exact hNever earlier hPrefix hPart
  unfold ItemState.IsBegun at hNotBegun
  simpa using hNotBegun

/- An item that declares nothing. -/
def blankItem : Item where
  identifier := "blank"
  title := none
  adaptive := false
  timeDependent := false
  responses := []
  outcomes := []
  templates := []
  templateProcessing := []
  responseProcessing := []
  endAttempts := []

/- A part with one reference to the blank item. -/
def blankPart (identifier : String) : TestPart where
  identifier := identifier
  navigation := .linear
  submission := .individual
  control := none
  timeLimits := none
  sections := [
    { info :=
        { identifier := identifier ++ "-section"
          title := none
          visible := true
          keepTogether := true
          required := false
          fixed := false
          selection := none
          shuffle := none
          control := none
          timeLimits := none }
      parts := [.item
        { identifier := identifier ++ "-item"
          href := "blank"
          required := false
          fixed := false
          categories := []
          weights := []
          templateDefaults := []
          control := none
          timeLimits := none }] }]
  feedbacks := []

/- A test of two parts, an item each. -/
def blankTest : Test where
  identifier := "test"
  title := none
  outcomes := []
  timeLimits := none
  parts := [blankPart "first", blankPart "second"]
  outcomeProcessing := []
  feedbacks := []

/- The calls that lead a candidate to the first item. -/
def openingCalls
    (now : Instant) :
    List TestCall :=
  [.initialise, .enterTest now, .nextPart now, .nextItem now]

/-
  The opening calls present the first item, and lead. Nothing
  has happened to the item of the second part by then.
-/
theorem course_of_calls_opening :
    ∃ first : TestSession,
      start blankTest [("blank", blankItem)] ⟨{}, none⟩
        default = .ok first ∧
      (first.after (openingCalls ⟨0⟩)).state.item = some 0 ∧
      (first.after (openingCalls ⟨0⟩)).Led ∧
      ∀ e ∈ (first.after (openingCalls ⟨0⟩)).entries,
        e.part = 1 → e.session.state.presented = false := by
  refine ⟨_, rfl, ?_, ?_⟩
  · decide +kernel
  have hCourse :=
    course_of_calls blankTest [("blank", blankItem)]
      ⟨{}, none⟩ default _ rfl (openingCalls ⟨0⟩)
  refine ⟨hCourse.1, fun e hMem hSecond => ?_⟩
  refine (hCourse.2 ?_ e hMem ?_).1
  · rintro ⟨earlier, now, later, hSplit, _⟩
    have hExit : TestCall.exit now ∈ openingCalls ⟨0⟩ := by
      simp [hSplit]
    simp [openingCalls] at hExit
  · intro earlier hPrefix
    rw [hSecond]
    rw [← List.mem_inits] at hPrefix
    revert earlier
    decide +kernel

end TestSession

end Assessment
