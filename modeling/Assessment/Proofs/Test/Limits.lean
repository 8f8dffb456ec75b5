import Assessment.Proofs.Item.Limits
import Assessment.Proofs.Test.Breakdown
import Assessment.Proofs.Test.Sections
import Assessment.Proofs.Test.Timekeeping

/-
  Time limits of tests.

  A submission is checked against the time limits of the item,
  of the sections around it, of its part and of the test, once
  the time spent has been brought up to date. If one of them
  has been reached, the item is closed and nothing is
  processed, unless the item accepts what comes late. In all
  other cases the responses are handed to the item, which has
  no objection to the time.

  Main declarations:
    * `TestSession.IsTimeUp`, with `isInTime_eq_false_iff`
    * `TestSession.TimedOut` and `TestSession.HandedOver`, what
      becomes of a submission
    * `TestSession.Limited`, what decides between the two
    * `submissions_limited_of_calls`
    * `limits_of_namesakes`
-/

------------------------------------------------------------
-- Limits Around an Item
------------------------------------------------------------

namespace Assessment

open Stateful

namespace TestSession

open ItemSession

/-
  The time is up for an item: a limit of its own, of a section
  around it, of its part or of the test has been reached.
-/
inductive IsTimeUp
    (s : TestSession)
    (around : Section → Prop)
    (e : ItemEntry) :
    Prop
  | ofItem
      (reached :
        e.session.state.timer.HasReached e.ref.timeLimits)
  | ofSection
      {x : Section}
      {timer : Timer}
      (isAround : around x)
      (clock :
        s.state.sectionTimers.get? x.info.identifier =
          some timer)
      (reached : timer.HasReached x.info.timeLimits)
  | ofPart
      {p : TestPart}
      {timer : Timer}
      (own : s.test.parts[e.part]? = some p)
      (clock : s.state.partTimers[e.part]? = some timer)
      (reached : timer.HasReached p.timeLimits)
  | ofTest
      (reached : s.state.timer.HasReached s.test.timeLimits)

/- It does not matter how the sections around are described. -/
theorem IsTimeUp.mono
    {s : TestSession}
    {around others : Section → Prop}
    {e : ItemEntry}
    (hUp : s.IsTimeUp around e)
    (hOthers : ∀ x, around x → others x) :
    s.IsTimeUp others e := by
  cases hUp with
  | ofItem hReached => exact .ofItem hReached
  | ofSection hAround hClock hReached =>
      exact .ofSection (hOthers _ hAround) hClock hReached
  | ofPart hOwn hClock hReached =>
      exact .ofPart hOwn hClock hReached
  | ofTest hReached => exact .ofTest hReached

/-
  An item has the limits of its reference, and there are
  clocks for all that is around it.
-/
structure Clocked (s : TestSession) (e : ItemEntry) :
    Prop where
  limits : e.session.timeLimits = e.ref.timeLimits
  place : ⟨e.ref, e.sections⟩ ∈ s.test.placements
  sections :
    ∀ x ∈ s.test.sections,
      ∃ timer,
        s.state.sectionTimers.get? x.info.identifier =
          some timer
  part : ∃ timer, s.state.partTimers[e.part]? = some timer

section

variable {t : Test}
variable {items : Keyed Item}
variable {engine : Engine}
variable {draws : Draws}
variable {first : TestSession}
variable (hStart : start t items engine draws = .ok first)

include hStart

/- No call changes the limits of an item, or its reference. -/
theorem limits_after
    (calls : List TestCall)
    {i : Nat}
    {e : ItemEntry}
    (hE : (first.after calls).entries[i]? = some e) :
    e.session.timeLimits = e.ref.timeLimits := by
  have hPlaces := after_sameSetup first calls
  rcases hPlaces.exists_before hE with ⟨d, hD⟩
  have hSetup := (hPlaces.entries i d e hD hE).2
  have hKeeps : KeepsEntries first (first.after calls) :=
    after_moves call_keepsEntries first calls
  have hSame := congrArg (fun entries => entries[i]?) hKeeps
  simp only [List.getElem?_map, hD, hE, Option.map_some,
    Option.some.injEq, Prod.mk.injEq] at hSame
  rw [hSetup.timeLimits, hSame.1]
  have hFresh := start_fresh hStart d (List.mem_of_getElem? hD)
  exact hFresh.timeLimits

theorem clocked_after
    (calls : List TestCall)
    {i : Nat}
    {e : ItemEntry}
    (hE : (first.after calls).entries[i]? = some e) :
    (first.after calls).Clocked e := by
  have hTest : (first.after calls).test = t := by
    rw [after_test, start_test hStart]
  have hPlace := places_after hStart calls e
    (List.mem_of_getElem? hE)
  constructor
  · exact limits_after hStart calls hE
  · rw [hTest]
    exact List.mem_reverse.mp
      (List.mem_of_find?_eq_some hPlace.2)
  · rw [hTest]
    exact fun x hX => exists_sectionTimer hStart calls hX
  · have hTimers :=
      (after_orderly (start_orderly hStart) calls).led.timers.1
    rw [hTest] at hTimers
    exact ⟨_, List.getElem?_eq_getElem (hTimers ▸ hPlace.1)⟩

end

section Chains

variable {s : TestSession}
variable {e : ItemEntry}

theorem isInTime_eq_false
    {i : Nat}
    (hE : s.entries[i]? = some e) :
    s.isInTime i = false ↔
      ∃ x ∈ s.timeChain e, x.isOver = true := by
  unfold isInTime withinMaximum
  rw [hE, List.all_eq_false]
  simp

theorem mem_timeChain (x : Timed) :
    x ∈ s.timeChain e ↔
      x = e.session.timed ∨
        (∃ k ∈ e.sections, x = s.timedSection k) ∨
          x =
            { limits :=
                (s.test.parts[e.part]?).bind
                  TestPart.timeLimits
              seconds :=
                ((s.state.partTimers[e.part]?).map
                  Timer.seconds).getD 0 } ∨
            x = ⟨s.test.timeLimits, s.state.timer.seconds⟩ := by
  simp only [timeChain, List.mem_append, List.mem_map,
    List.mem_reverse, List.mem_cons, List.not_mem_nil, or_false,
    eq_comm, or_assoc]

/- A section is timed by its limits and its clock. -/
theorem timedSection_eq
    {x : Section}
    {timer : Timer}
    (hFirst : s.test.section? x.info.identifier = some x)
    (hClock :
      s.state.sectionTimers.get? x.info.identifier =
        some timer) :
    s.timedSection x.info.identifier =
      ⟨x.info.timeLimits, timer.seconds⟩ := by
  simp [timedSection, secondsIn, hFirst, hClock]

/- Only sections of the test have limits. -/
theorem timedSection_isOver
    (hClocked : s.Clocked e)
    {k : String}
    (hIn : k ∈ e.sections)
    (hOver : (s.timedSection k).isOver = true) :
    s.IsTimeUp (s.test.Names e) e := by
  cases hFirst : s.test.section? k with
  | none =>
      simp [timedSection, hFirst, Timed.isOver,
        Timed.maximum?] at hOver
  | some x =>
      have hName : x.info.identifier = k := by
        simpa using List.find?_some hFirst
      subst hName
      have hMem := List.mem_of_find?_eq_some hFirst
      rcases hClocked.sections x hMem with ⟨timer, hClock⟩
      rw [timedSection_eq hFirst hClock,
        Timer.isOver_iff] at hOver
      exact .ofSection ⟨hIn, hFirst⟩ hClock hOver

/- The chain of limits goes through all that is around. -/
theorem isInTime_eq_false_iff
    {i : Nat}
    (hE : s.entries[i]? = some e)
    (hClocked : s.Clocked e) :
    s.isInTime i = false ↔ s.IsTimeUp (s.test.Names e) e := by
  rcases hClocked.part with ⟨timer, hPart⟩
  have hOwn :
      e.session.timed =
        ⟨e.ref.timeLimits, e.session.state.timer.seconds⟩ := by
    rw [timed, hClocked.limits]
  rw [isInTime_eq_false hE]
  constructor
  · rintro ⟨x, hX, hOver⟩
    rcases (mem_timeChain x).mp hX with
      rfl | ⟨k, hIn, rfl⟩ | rfl | rfl
    · rw [hOwn, Timer.isOver_iff] at hOver
      exact .ofItem hOver
    · exact timedSection_isOver hClocked hIn hOver
    · cases hFound : s.test.parts[e.part]? with
      | none =>
          simp [hFound, Timed.isOver, Timed.maximum?] at hOver
      | some p =>
          rw [hFound, hPart] at hOver
          exact .ofPart hFound hPart
            ((Timer.isOver_iff _ _).mp hOver)
    · exact .ofTest ((Timer.isOver_iff _ _).mp hOver)
  · intro hUp
    cases hUp with
    | ofItem hReached =>
        refine ⟨_, (mem_timeChain _).mpr (Or.inl rfl), ?_⟩
        rw [hOwn]
        exact (Timer.isOver_iff _ _).mpr hReached
    | @ofSection x timer hNames hClock hReached =>
        refine ⟨_, (mem_timeChain _).mpr
          (Or.inr (Or.inl ⟨_, hNames.1, rfl⟩)), ?_⟩
        rw [timedSection_eq hNames.2 hClock]
        exact (Timer.isOver_iff _ _).mpr hReached
    | ofPart hFound hClock hReached =>
        refine ⟨_, (mem_timeChain _).mpr
          (Or.inr (Or.inr (Or.inl rfl))), ?_⟩
        rw [hFound, hClock]
        exact (Timer.isOver_iff _ _).mpr hReached
    | ofTest hReached =>
        refine ⟨_, (mem_timeChain _).mpr
          (Or.inr (Or.inr (Or.inr rfl))), ?_⟩
        exact (Timer.isOver_iff _ _).mpr hReached

end Chains

end TestSession

------------------------------------------------------------
-- Variables
------------------------------------------------------------

/- The variables of an item, without the time spent. -/
def ItemState.contents
    (s : ItemState) :
    Bindings × Bindings × Bindings :=
  (Keyed.without Builtin.duration s.values, s.defaults,
    s.corrects)

theorem ItemState.contents_timeless (s : ItemState) :
    s.timeless.contents = s.contents := by
  simp only [contents, timeless, Keyed.without_without]

theorem ItemState.contents_closed
    (s : ItemState)
    (now : Instant) :
    (s.closed now).contents = s.contents := by
  simp only [contents, closed, syncDuration, bind,
    Keyed.without_put]

namespace TestSession

open ItemSession

/- The variables of a test and of its items, likewise. -/
def contents
    (s : TestSession) :
    Bindings × List (Bindings × Bindings × Bindings) :=
  (Keyed.without Builtin.duration s.state.values,
    s.entries.map fun e => e.session.state.contents)

theorem contents_timeless (s : TestSession) :
    s.timeless.contents = s.contents := by
  simp only [contents, timeless, TestState.timeless,
    ItemEntry.timeless, ItemSession.timeless, List.map_map,
    Function.comp_def, Keyed.without_without,
    ItemState.contents_timeless]

/- What processing leaves behind besides variables. -/
def traces
    (s : TestSession) :
    List Event × Tally × List Tally :=
  (s.events, s.tally, s.entries.map fun e => e.session.tally)

theorem traces_timeless (s : TestSession) :
    s.timeless.traces = s.traces := by
  simp only [traces, timeless, ItemEntry.timeless,
    ItemSession.timeless, List.map_map, Function.comp_def]

------------------------------------------------------------
-- Submissions
------------------------------------------------------------

/-
  A submission that has timed out: the item is closed, and
  neither have variables changed nor has anything been
  processed.
-/
structure TimedOut
    (s : TestSession)
    (i : Nat)
    (a : Submission)
    (t : TestSession) :
    Prop where
  answer : a = { timedOut := true }
  closed :
    ∃ e, t.entries[i]? = some e ∧
      e.session.state.phase = .finished ∧
      e.session.state.timedOut = true
  contents : t.contents = s.contents
  unprocessed : t.traces = s.traces

/-
  A submission that has been handed to an item, which has
  answered it and has not timed out. Outcomes are processed
  after responses.
-/
def HandedOver
    (responses : Responses)
    (now : Instant)
    (s : TestSession)
    (i : Nat)
    (e : ItemEntry)
    (a : Submission)
    (t : TestSession) :
    Prop :=
  ∃ session : ItemSession,
    Stateful.run (ItemSession.submit responses now) e.session =
        (.ok a, session) ∧
      session.state.timedOut = e.session.state.timedOut ∧
      Stateful.run
          (if a.processed then processOutcomes else pure ())
          (putSession s i e session) = (.ok (), t)

/-
  A submission that has been answered, with the time limits of
  what is around the current item observed. Whether it times
  out is decided once the time spent is up to date.
-/
def Limited
    (around : ItemEntry → Section → Prop)
    (responses : Responses)
    (now : Instant)
    (s : TestSession)
    (a : Submission)
    (t : TestSession) :
    Prop :=
  ∃ (u : TestSession) (i : Nat) (e : ItemEntry),
    Stateful.run (touch now) s = (.ok (), u) ∧
      u.state.item = some i ∧
      u.entries[i]? = some e ∧
      (a.timedOut = true ↔
        u.IsTimeUp (around e) e ∧
          ¬ e.ref.timeLimits.any TimeLimits.allowsLate) ∧
      (a.timedOut = true → s.TimedOut i a t) ∧
      (a.timedOut = false → u.HandedOver responses now i e a t)

/- The current item is brought up to date with all the rest. -/
theorem exists_of_run_touch
    {s u : TestSession}
    {i : Nat}
    {d : ItemEntry}
    {now : Instant}
    (hItem : s.state.item = some i)
    (hD : s.entries[i]? = some d)
    (hTouch : Stateful.run (touch now) s = (.ok (), u)) :
    u.state.item = some i ∧
      u.test = s.test ∧
      ∃ e, u.entries[i]? = some e ∧
        e.session =
          { d.session.touchedAt now with events := [] } := by
  have hThere : (s.touchedTimers now).entries[i]? = some d := hD
  have hEnds :
      Ends (touch now) s fun _ t =>
        t =
          (putSession (s.touchedTimers now) i d
            (d.session.touchedAt now)).syncDuration := by
    rw [ends_touch_iff, hItem]
    dsimp only
    rw [ends_onItem, hThere]
    dsimp only
    rw [ItemSession.ends_touch]
    rfl
  rw [hEnds.of_run hTouch]
  refine ⟨hItem, rfl, _, List.getElem?_set_self ?_, rfl⟩
  exact (List.getElem?_eq_some_iff.mp hD).1

/- An item is closed when its submission comes too late. -/
theorem timedOut_of_late
    {s u t : TestSession}
    (hTime : u.timeless = s.timeless)
    (hQuiet : u.Quiet)
    {i : Nat}
    {e : ItemEntry}
    (hE : u.entries[i]? = some e)
    {now : Instant}
    (hRun :
      Stateful.run (onItem i (ItemSession.timeOut now)) u =
        (.ok (), t)) :
    s.TimedOut i { timedOut := true } t := by
  obtain ⟨f, session, hF, hClosed, rfl⟩ :=
    exists_of_run_onItem hRun
  rw [hE] at hF
  cases hF
  have hEnds :
      Ends (ItemSession.timeOut now) e.session fun r v =>
        r = .ok () → v = e.session.timedOutAt now := by
    rw [ends_timeOut]
    split
    · split
      · exact fun hSame => by cases hSame
      · exact fun _ => rfl
    · exact fun hSame => by cases hSame
  have hSession := hEnds.of_run hClosed rfl
  subst hSession
  have hNothing : (e.session.timedOutAt now).events = [] :=
    withoutEvents_of_quiet hQuiet hE
  rw [putSession_quiet hNothing]
  constructor
  · rfl
  · refine ⟨_, List.getElem?_set_self ?_, rfl, rfl⟩
    exact (List.getElem?_eq_some_iff.mp hE).1
  · rw [← contents_timeless s, ← hTime, contents_timeless]
    have hValues :
        (e.session.timedOutAt now).state.contents =
          e.session.state.contents :=
      ItemState.contents_closed _ now
    unfold contents
    rw [map_set_of_eq hE hValues]
  · rw [← traces_timeless s, ← hTime, traces_timeless]
    unfold traces
    rw [map_set_of_eq hE]
    rfl

/- An item that is handed a submission in time answers it. -/
theorem handedOver_of_inTime
    {s t u : TestSession}
    {i : Nat}
    {d e : ItemEntry}
    {responses : Responses}
    {now : Instant}
    {a : Submission}
    (hE : u.entries[i]? = some e)
    (hTouched :
      e.session =
        { d.session.touchedAt now with events := [] })
    (hClocked : u.Clocked e)
    (hTime :
      u.isInTime i = true ∨
        e.session.timeLimits.any TimeLimits.allowsLate = true)
    (hRun :
      Stateful.run
          (onItem i (ItemSession.submit responses now)) u =
        (.ok a, s))
    (hProcessed :
      Stateful.run
          (if a.processed then processOutcomes else pure ()) s =
        (.ok (), t)) :
    a.timedOut = false ∧
      u.HandedOver responses now i e a t := by
  obtain ⟨f, session, hF, hTaken, rfl⟩ :=
    exists_of_run_onItem hRun
  rw [hE] at hF
  cases hF
  have hNotLate : (e.session.touchedAt now).isLate = false := by
    have hAgain :
        ((d.session.touchedAt now).touchedAt now).isLate =
          false := by
      apply isLate_touchedAt_again
      rcases hTime with hEarly | hLate
      · left
        intro hReached
        have hOwn :
            e.session.state.timer.HasReached
              e.ref.timeLimits := by
          rw [← hClocked.limits, hTouched]
          exact hReached
        have hUp : u.isInTime i = false :=
          (isInTime_eq_false_iff hE hClocked).mpr (.ofItem hOwn)
        rw [hUp] at hEarly
        cases hEarly
      · right
        rw [hTouched] at hLate
        exact hLate
    rw [hTouched]
    exact hAgain
  have hInTime :=
    (ends_submit_inTime hNotLate responses).of_run hTaken a rfl
  exact ⟨hInTime.1, session, hTaken, hInTime.2, hProcessed⟩

theorem run_getState_bind
    {α : Type}
    (f : TestState → TestAction α)
    (s : TestSession) :
    Stateful.run (getState >>= f) s =
      Stateful.run (f s.state) s := rfl

theorem run_get_bind
    {α : Type}
    (f : TestSession → TestAction α)
    (s : TestSession) :
    Stateful.run (get >>= f) s = Stateful.run (f s) s := rfl

/-
  A submission that is answered brings the time up to date
  and then either times out or is handed over.
-/
theorem exists_of_run_submit
    {s t : TestSession}
    {responses : Responses}
    {now : Instant}
    {a : Submission}
    (hRun :
      Stateful.run (submit responses now) s = (.ok a, t)) :
    ∃ i u,
      s.state.item = some i ∧
        Stateful.run (touch now) s = (.ok (), u) ∧
        (((u.isInTime i = false ∧
              u.current?.any allowsLate = false) ∧
            a = { timedOut := true } ∧
            Stateful.run (onItem i (ItemSession.timeOut now))
                u = (.ok (), t)) ∨
          ((u.isInTime i = true ∨
              u.current?.any allowsLate = true) ∧
            ∃ v,
              Stateful.run
                  (onItem i (ItemSession.submit responses now))
                  u = (.ok a, v) ∧
                Stateful.run
                  (if a.processed then processOutcomes
                    else pure ()) v = (.ok (), t))) := by
  rw [submit] at hRun
  obtain ⟨_, u, hRunning, hRest⟩ := run_bind_eq_ok.mp hRun
  obtain ⟨rfl, _⟩ := (Gates.ensureRunning s).of_run hRunning
  rw [run_getState_bind] at hRest
  cases hItem : u.state.item with
  | none =>
      rw [hItem] at hRest
      cases hRest
  | some i =>
      rw [hItem] at hRest
      obtain ⟨_, v, hTouch, hThen⟩ := run_bind_eq_ok.mp hRest
      rw [run_get_bind] at hThen
      dsimp only at hThen
      refine ⟨i, v, rfl, hTouch, ?_⟩
      split at hThen
      next hLate =>
        obtain ⟨_, w, hOut, hEnd⟩ := run_bind_eq_ok.mp hThen
        cases hEnd
        left
        refine ⟨?_, rfl, hOut⟩
        simpa using hLate
      next hTime =>
        obtain ⟨b, w, hTaken, hLast⟩ := run_bind_eq_ok.mp hThen
        right
        refine ⟨?_, w, ?_⟩
        · simpa [or_iff_not_imp_left] using hTime
        · split at hLast
          next hProcessed =>
            obtain ⟨_, x, hOutcomes, hEnd⟩ :=
              run_bind_eq_ok.mp hLast
            cases hEnd
            rw [if_pos hProcessed]
            exact ⟨hTaken, hOutcomes⟩
          next hNot =>
            cases hLast
            rw [if_neg hNot]
            exact ⟨hTaken, rfl⟩

/- Submissions to a session on which all is clocked. -/
theorem limited_of_run
    {around : ItemEntry → Section → Prop}
    {s t : TestSession}
    {responses : Responses}
    {now : Instant}
    {a : Submission}
    (hReady : s.Ready)
    (hClocked :
      ∀ (u : TestSession) (i : Nat) (e : ItemEntry),
        Stateful.run (touch now) s = (.ok (), u) →
          u.entries[i]? = some e → u.Clocked e)
    (hAround :
      ∀ e : ItemEntry, ⟨e.ref, e.sections⟩ ∈ s.test.placements →
        ∀ x, s.test.Names e x ↔ around e x)
    (hRun :
      Stateful.run (submit responses now) s = (.ok a, t)) :
    Limited around responses now s a t := by
  obtain ⟨i, u, hItem, hTouch, hEnds⟩ :=
    exists_of_run_submit hRun
  obtain ⟨_, hTime, hCalm⟩ :=
    (ends_touch_ready hReady now).of_run hTouch
  rcases InOrder.current hReady.order i hItem with ⟨d, hD, _⟩
  obtain ⟨hHere, hTest, e, hE, hTouched⟩ :=
    exists_of_run_touch hItem hD hTouch
  have hClock := hClocked u i e hTouch hE
  have hNamed := hAround e (hTest ▸ hClock.place)
  have hGate :
      u.isInTime i = false ↔ u.IsTimeUp (around e) e := by
    rw [isInTime_eq_false_iff hE hClock, hTest]
    exact ⟨fun hUp => hUp.mono fun x => (hNamed x).mp,
      fun hUp => hUp.mono fun x => (hNamed x).mpr⟩
  have hLate :
      u.current?.any allowsLate =
        e.ref.timeLimits.any TimeLimits.allowsLate := by
    rw [current?, hHere, Option.bind_some, hE, Option.any_some,
      allowsLate, hClock.limits]
  rw [hLate] at hEnds
  refine ⟨u, i, e, hTouch, hHere, hE, ?_⟩
  rcases hEnds with
    ⟨⟨hUp, hNot⟩, rfl, hOut⟩ | ⟨hOpen, v, hTaken, hThen⟩
  · refine ⟨?_, ?_, ?_⟩
    · rw [hNot]
      exact ⟨fun _ => ⟨hGate.mp hUp, Bool.false_ne_true⟩,
        fun _ => rfl⟩
    · exact fun _ => timedOut_of_late hTime hCalm.quiet hE hOut
    · intro hSame
      cases hSame
  · have hOwn :
        u.isInTime i = true ∨
          e.session.timeLimits.any TimeLimits.allowsLate =
            true := by
      rwa [hClock.limits]
    obtain ⟨hInTime, hHanded⟩ :=
      handedOver_of_inTime hE hTouched hClock hOwn hTaken hThen
    have hNever : ¬ a.timedOut = true := by
      rw [hInTime]
      exact Bool.false_ne_true
    refine ⟨?_, fun hSame => absurd hSame hNever,
      fun _ => hHanded⟩
    refine ⟨fun hSame => absurd hSame hNever, ?_⟩
    rintro ⟨hUp, hNot⟩
    have hEarly := hOpen.resolve_right hNot
    rw [hGate.mpr hUp] at hEarly
    cases hEarly

/-
  Whatever calls have been made, a submission that is answered
  has timed out exactly if a limit of the item or of something
  around it has been reached, and the item does not accept
  what comes late. Sections are told by their identifiers.
  Where these are distinct, the sections around an item are
  those that enclose its reference.
-/
theorem submissions_limited_of_calls
    (t : Test)
    (items : Keyed Item)
    (engine : Engine)
    (draws : Draws)
    (first : TestSession)
    (hStart : start t items engine draws = .ok first)
    (calls : List TestCall)
    (responses : Responses)
    (now : Instant)
    (a : Submission)
    (u : TestSession)
    (hRun :
      Stateful.run (submit responses now) (first.after calls) =
        (.ok a, u)) :
    Limited t.Names responses now (first.after calls) a u ∧
      (t.identifiers.Nodup →
        Limited t.Encloses responses now (first.after calls) a
          u) := by
  have hReady := ready_after hStart calls
  have hTest : (first.after calls).test = t := by
    rw [after_test, start_test hStart]
  have hClocked :
      ∀ (v : TestSession) (i : Nat) (e : ItemEntry),
        Stateful.run (touch now) (first.after calls) =
            (.ok (), v) →
          v.entries[i]? = some e → v.Clocked e := by
    intro v i e hTouch hE
    have hAfter : first.after (calls ++ [.touch now]) = v := by
      rw [after_snoc]
      exact congrArg Prod.snd hTouch
    subst hAfter
    exact clocked_after hStart _ hE
  constructor
  · apply limited_of_run hReady hClocked _ hRun
    intro e _ x
    rw [hTest]
  · intro hDistinct
    apply limited_of_run hReady hClocked _ hRun
    intro e hPlace x
    rw [hTest] at hPlace ⊢
    exact Test.names_iff_encloses hDistinct hPlace x

/- A section that may take five seconds, with one reference. -/
def hurriedSection : Section where
  info :=
    { plainSection "section" with
      timeLimits := some ⟨none, some 5, false⟩ }
  parts := [.item (plainRef "ref" "blank")]

/- A test that comes to this section after some others. -/
def hurriedTest (others : List Section) : Test :=
  { blankTest with
    parts := [
      { blankPart "part" with
        sections := others ++ [hurriedSection] }] }

/- Ten seconds after the item has been presented is too late. -/
theorem submissions_limited_of_calls_late :
    ∃ first : TestSession,
      start (hurriedTest []) [("blank", blankItem)] ⟨{}, none⟩
          default = .ok first ∧
        ∃ u : TestSession,
          Stateful.run (submit [] ⟨10000000000⟩)
              (first.after (openingCalls ⟨0⟩)) =
            (.ok { timedOut := true }, u) ∧
          Limited (hurriedTest []).Encloses [] ⟨10000000000⟩
            (first.after (openingCalls ⟨0⟩))
            { timedOut := true } u := by
  have hRun : ∀ first : TestSession,
      start (hurriedTest []) [("blank", blankItem)] ⟨{}, none⟩
          default = .ok first →
        (Stateful.run (submit [] ⟨10000000000⟩)
          (first.after (openingCalls ⟨0⟩))).1.toOption =
            some { timedOut := true } := by
    intro first hStart
    cases hStart
    decide +kernel
  obtain ⟨first, hStart⟩ :
      ∃ first : TestSession,
        start (hurriedTest []) [("blank", blankItem)] ⟨{}, none⟩
          default = .ok first := ⟨_, rfl⟩
  have hAnswer :
      Stateful.run (submit [] ⟨10000000000⟩)
          (first.after (openingCalls ⟨0⟩)) =
        (.ok { timedOut := true }, _) :=
    Prod.ext (eq_ok_of_toOption (hRun first hStart)) rfl
  have hLimited :=
    submissions_limited_of_calls (hurriedTest [])
      [("blank", blankItem)] ⟨{}, none⟩ default first hStart
      (openingCalls ⟨0⟩) [] ⟨10000000000⟩ _ _ hAnswer
  exact ⟨first, hStart, _, hAnswer, hLimited.2 (by decide)⟩

/-
  Where two sections have one identifier, a limit of the second
  is not observed.
-/
theorem limits_of_namesakes :
    ¬ ∀ (t : Test) (items : Keyed Item) (engine : Engine)
        (draws : Draws) (first : TestSession),
      start t items engine draws = .ok first →
        ∀ (calls : List TestCall) (responses : Responses)
          (now : Instant) (a : Submission) (u : TestSession),
          Stateful.run (submit responses now)
              (first.after calls) = (.ok a, u) →
            Limited t.Encloses responses now
              (first.after calls) a u := by
  intro hClaim
  have hRun : ∀ first : TestSession,
      start (hurriedTest [⟨plainSection "section", []⟩])
          [("blank", blankItem)] ⟨{}, none⟩ default =
            .ok first →
        (Stateful.run (submit [] ⟨10000000000⟩)
            (first.after (openingCalls ⟨0⟩))).1.toOption =
          some { processed := true } ∧
        ((first.after
            (openingCalls ⟨0⟩ ++
              [.touch ⟨10000000000⟩])).state.sectionTimers.get?
            "section") =
          some ⟨[10000000000], some ⟨10000000000⟩⟩ := by
    intro first hStart
    cases hStart
    decide +kernel
  obtain ⟨first, hStart⟩ :
      ∃ first : TestSession,
        start (hurriedTest [⟨plainSection "section", []⟩])
            [("blank", blankItem)] ⟨{}, none⟩ default =
          .ok first := ⟨_, rfl⟩
  obtain ⟨hAnswer, hClock⟩ := hRun first hStart
  obtain ⟨v, i, e, hTouch, _, hE, hGate, _⟩ :=
    hClaim _ _ _ _ first hStart (openingCalls ⟨0⟩) []
      ⟨10000000000⟩ _ _
      (Prod.ext (eq_ok_of_toOption hAnswer) rfl)
  have hAfter :
      first.after (openingCalls ⟨0⟩ ++ [.touch ⟨10000000000⟩]) =
        v := by
    rw [after_snoc]
    exact congrArg Prod.snd hTouch
  subst hAfter
  have hPlace := (clocked_after hStart _ hE).place
  rw [after_test, start_test hStart] at hPlace
  have hOnly := List.mem_singleton.mp hPlace
  have hRef : e.ref = plainRef "ref" "blank" :=
    congrArg Placement.ref hOnly
  have hUp :
      (first.after
          (openingCalls ⟨0⟩ ++
            [.touch ⟨10000000000⟩])).IsTimeUp
        ((hurriedTest [⟨plainSection "section", []⟩]).Encloses
          e) e := by
    refine .ofSection (x := hurriedSection) ⟨?_, ?_⟩ hClock ?_
    · exact List.mem_cons_of_mem _ List.mem_cons_self
    · rw [hRef]
      exact ⟨⟨plainRef "ref" "blank", ["section"]⟩,
        List.mem_singleton.mpr rfl, rfl⟩
    · exact ⟨_, 5, rfl, rfl, by decide +kernel⟩
  have hNot :
      ¬ e.ref.timeLimits.any TimeLimits.allowsLate = true := by
    rw [hRef]
    exact Bool.false_ne_true
  have hLate := hGate.mpr ⟨hUp, hNot⟩
  cases hLate

end TestSession

end Assessment
