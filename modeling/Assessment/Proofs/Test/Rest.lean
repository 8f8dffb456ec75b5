import Assessment.Proofs.Test.Clock
import Assessment.Proofs.Test.Ending

/-
  A finished test at rest.

  A test is finished when its last part ends, or when it is
  left. All its items are closed then, all timers of parts and
  sections have stopped, and no call takes anything of this
  up again.

  The clock of the test itself has stopped as well, if the
  test was entered before it was finished. A test that was
  left before it was entered can still be entered, and its
  clock starts then.

  Main declarations:
    * `TestSession.IsOver` and `TestSession.Rests`
    * `TestSession.IsOver.rests_after`, the law of one call
    * `TestSession.isOver_of_finished`, for all runs
    * `TestSession.rest_of_calls`
-/

------------------------------------------------------------
-- Finished Items
------------------------------------------------------------

namespace Assessment

open Stateful

/- The clock of a finished item has stopped. -/
theorem ItemState.Coherent.stopped
    {s : ItemState}
    (hCoherent : s.Coherent)
    (hFinished : s.finished = true) :
    s.timer.isRunning = false := by
  cases hRuns : s.timer.isRunning with
  | false => rfl
  | true =>
      have hPhase := hCoherent.clock.mp hRuns
      rw [ItemState.phase_eq_interacting_iff, hFinished]
        at hPhase
      cases hPhase.1

namespace ItemSession

/- Of a finished item, only an exit is still taken note of. -/
def Sealed (a b : ItemSession) : Prop :=
  a.state.finished = true →
    b.state = { a.state with exited := b.state.exited }

instance : Std.Refl Sealed where
  refl _ _ := rfl

instance : IsTrans ItemSession Sealed where
  trans a b c hFirst hThen := by
    intro hFinished
    have hB := hFirst hFinished
    have hStill : b.state.finished = true := by
      rw [hB]
      exact hFinished
    have hC := hThen hStill
    rw [hB] at hC
    exact hC

theorem exit_sealed (now : Instant) :
    Moves Sealed (exit now) := by
  refine exit_moves (fun _ _ _ _ => rfl)
    fun s _ hOpen hFinished => ?_
  rw [hOpen] at hFinished
  cases hFinished

end ItemSession

namespace TestSession

open ItemSession

/- Items are closed for good, and nothing else happens. -/
structure Shuts (s t : TestSession) : Prop where
  places : Placewise Sealed s t
  state : t.state = s.state

instance : Std.Refl Shuts where
  refl s := ⟨Std.Refl.refl (r := Placewise Sealed) s, rfl⟩

instance : IsTrans TestSession Shuts where
  trans _ _ _ hFirst hThen :=
    ⟨IsTrans.trans _ _ _ hFirst.places hThen.places,
      hThen.state.trans hFirst.state⟩

theorem exitItems_shuts
    (now : Instant)
    (items : List (ItemEntry × Nat)) :
    Moves Shuts (exitItems now items) := by
  have hState : ∀ i, Moves
      (fun s t : TestSession => t.state = s.state)
      (onItem i (ItemSession.exit now)) := by
    intro i s
    rw [ends_onItem]
    split
    next => rfl
    next => exact Ends.of_forall fun _ _ => rfl
  refine exitItems_moves (fun i s => ?_) items
  have hEvents : IgnoresEvents Sealed := fun _ _ _ => rfl
  have hPlaces := onItem_placewise hEvents (exit_sealed now) i s
  exact (Ends.and hPlaces (hState i s)).mono
    fun _ _ hBoth => ⟨hBoth.1, hBoth.2⟩

------------------------------------------------------------
-- Rest
------------------------------------------------------------

/- The test is finished, and so are its items and parts. -/
structure IsOver (s : TestSession) : Prop where
  initialized : s.state.initialized = true
  finished : s.state.finished = true
  item : s.state.item = none
  parts : ∀ x ∈ s.state.partTimers, x.isRunning = false
  sections :
    ∀ x ∈ s.state.sectionTimers, x.2.isRunning = false
  closed :
    ∀ e ∈ s.entries, e.session.state.finished = true ∧
      e.session.state.timer.isRunning = false

/-
  A test that is over has stayed so: its timers show what they
  showed, and its items are what they were.
-/
structure Rests (s t : TestSession) : Prop where
  isOver : t.IsOver
  parts : t.state.partTimers = s.state.partTimers
  sections : t.state.sectionTimers = s.state.sectionTimers
  items : Placewise Sealed s t

theorem Rests.trans
    {s t u : TestSession}
    (hFirst : s.Rests t)
    (hThen : t.Rests u) :
    s.Rests u :=
  ⟨hThen.isOver, hThen.parts.trans hFirst.parts,
    hThen.sections.trans hFirst.sections,
    IsTrans.trans _ _ _ hFirst.items hThen.items⟩

namespace IsOver

variable {s : TestSession}

/- What is left as it was is still over. -/
theorem rests
    (hOver : s.IsOver)
    {t : TestSession}
    (hPlaces : Placewise Sealed s t)
    (hInit : t.state.initialized = true)
    (hFinished : t.state.finished = true)
    (hItem : t.state.item = none)
    (hParts : t.state.partTimers = s.state.partTimers)
    (hSections :
      t.state.sectionTimers = s.state.sectionTimers) :
    s.Rests t := by
  refine ⟨⟨hInit, hFinished, hItem, ?_, ?_, ?_⟩, hParts,
    hSections, hPlaces⟩
  · rw [hParts]
    exact hOver.parts
  · rw [hSections]
    exact hOver.sections
  · intro f hMem
    rcases List.getElem?_of_mem hMem with ⟨i, hF⟩
    rcases hPlaces.exists_before hF with ⟨e, hE⟩
    have hClosed := hOver.closed e (List.mem_of_getElem? hE)
    have hSame := (hPlaces.entries i e f hE hF).2 hClosed.1
    rw [hSame]
    exact hClosed

theorem refl (hOver : s.IsOver) : s.Rests s :=
  hOver.rests (Std.Refl.refl (r := Placewise Sealed) s)
    hOver.initialized hOver.finished hOver.item rfl rfl

/- Stopped timers stay as they are, whatever is done to all. -/
theorem map_partTimers
    (hOver : s.IsOver)
    {f : Timer → Timer}
    (hStopped : ∀ x, x.isRunning = false → f x = x) :
    s.state.partTimers.map f = s.state.partTimers := by
  conv_rhs => rw [← List.map_id s.state.partTimers]
  exact List.map_congr_left fun x hMem =>
    hStopped x (hOver.parts x hMem)

theorem map_sectionTimers
    (hOver : s.IsOver)
    {f : Timer → Timer}
    (hStopped : ∀ x, x.isRunning = false → f x = x) :
    (s.state.sectionTimers.map fun x => (x.1, f x.2)) =
      s.state.sectionTimers := by
  conv_rhs => rw [← List.map_id s.state.sectionTimers]
  refine List.map_congr_left fun x hMem => ?_
  rw [hStopped x.2 (hOver.sections x hMem)]
  rfl

/- Where no timer runs, no time is spent. -/
theorem touch
    (hOver : s.IsOver)
    (now : Instant) :
    Ends (touch now) s fun _ t => s.Rests t := by
  rw [ends_touch_iff, hOver.item]
  refine hOver.rests (.of_eq rfl rfl) hOver.initialized
    hOver.finished hOver.item ?_ ?_
  · exact hOver.map_partTimers fun x hStopped =>
      Timer.touch_of_stopped hStopped now
  · exact hOver.map_sectionTimers fun x hStopped =>
      Timer.touch_of_stopped hStopped now

/- A test that is over may still be left. -/
theorem exit
    (hOver : s.IsOver)
    (now : Instant) :
    Ends (exit now) s fun _ t => s.Rests t := by
  rw [TestSession.exit]
  refine ends_ensureInitialized_bind (fun _ => hOver.refl)
    fun _ => ?_
  rw [ends_getState_bind]
  dsimp only
  rw [ends_ite]
  split
  · rw [ends_bind, ends_refuse]
    exact hOver.refl
  refine Ends.seq (hOver.touch now) (fun _ _ hRests => hRests)
    fun _ t hRests => ?_
  have hOver' := hRests.isOver
  rw [ends_get_bind]
  refine Ends.seq (exitItems_shuts now _ t) ?_ ?_
  · intro _ u hShuts
    refine hRests.trans (hOver'.rests hShuts.places ?_ ?_ ?_ ?_
      ?_) <;> rw [hShuts.state]
    · exact hOver'.initialized
    · exact hOver'.finished
    · exact hOver'.item
  · intro _ u hShuts
    simp only [ends_bind, ends_changeState,
      ends_switchSections]
    refine hRests.trans (hOver'.rests ⟨hShuts.places.test,
      hShuts.places.length, hShuts.places.entries⟩ ?_ rfl rfl
      ?_ ?_)
    · exact hShuts.state ▸ hOver'.initialized
    · change u.state.partTimers.map _ = _
      rw [hShuts.state]
      exact hOver'.map_partTimers fun x hStopped =>
        Timer.stop_of_stopped hStopped now
    · change u.state.sectionTimers.map _ = _
      rw [hShuts.state]
      exact hOver'.map_sectionTimers fun x hStopped =>
        Timer.stop_of_stopped hStopped now

theorem processOutcomes (hOver : s.IsOver) :
    Ends processOutcomes s fun _ t => s.Rests t := by
  rw [TestSession.processOutcomes]
  refine ends_ensureInitialized_bind (fun _ => hOver.refl)
    fun _ => ?_
  rw [ends_announced]
  simp only [ends_bind, ends_get, ends_changeState,
    ends_runRules]
  refine Ends.of_forall fun r stage => ?_
  cases r <;>
    exact hOver.rests (.of_eq rfl rfl) hOver.initialized
      hOver.finished hOver.item rfl rfl

/- No call takes up a test that is over. -/
theorem rests_after
    (hOver : s.IsOver)
    (c : TestCall) :
    s.Rests (s.after [c]) := by
  have hNotOpen : s.state.finished ≠ false := by
    rw [hOver.finished]
    decide
  change Ends c.action s fun _ t => s.Rests t
  cases c with
  | initialise =>
      exact ends_initialise_again hOver.initialized
        fun _ => hOver.refl
  | enterTest now =>
      refine (ends_enterTest_iff now s _).mpr ?_
      split
      · split
        · exact hOver.refl
        · exact hOver.rests (.of_eq rfl rfl)
            hOver.initialized hOver.finished hOver.item rfl rfl
      · exact hOver.refl
  | nextPart now =>
      exact ends_discard.mpr
        (ends_ensureRunning_bind (fun _ => hOver.refl)
          fun _ hOpen => absurd hOpen hNotOpen)
  | nextItem now =>
      exact ends_discard.mpr
        (ends_ensureRunning_bind (fun _ => hOver.refl)
          fun _ hOpen => absurd hOpen hNotOpen)
  | selectItem ref occurrence now =>
      exact ends_discard.mpr
        (ends_ensureRunning_bind (fun _ => hOver.refl)
          fun _ hOpen => absurd hOpen hNotOpen)
  | submit responses now =>
      exact ends_discard.mpr
        (ends_ensureRunning_bind (fun _ => hOver.refl)
          fun _ hOpen => absurd hOpen hNotOpen)
  | endPart now =>
      change Ends (endPart now) s _
      rw [endPart, ends_bind, mayEndPart]
      exact ends_ensureRunning_bind (fun _ => hOver.refl)
        fun _ hOpen => absurd hOpen hNotOpen
  | exit now => exact hOver.exit now
  | processOutcomes => exact hOver.processOutcomes
  | touch now => exact hOver.touch now

/- However many calls are made, a test that is over rests. -/
theorem rests_after_calls
    (hOver : s.IsOver)
    (later : List TestCall) :
    s.Rests (s.after later) := by
  induction later using List.reverseRecOn with
  | nil => exact hOver.refl
  | append_singleton later c ih =>
      rw [after_append]
      exact ih.trans (ih.isOver.rests_after c)

end IsOver

------------------------------------------------------------
-- Ways to Finish
------------------------------------------------------------

/- Without the timer of the part under way, none runs. -/
theorem Orderly.stopped_of_set
    {s : TestSession}
    (hOrder : s.Orderly)
    {p : Nat}
    (hPart : s.state.part = some p)
    {b : Bool}
    (hMem :
      b ∈ (s.state.partTimers.map Timer.isRunning).set p
        false) :
    b = false := by
  rcases List.getElem?_of_mem hMem with ⟨q, hQ⟩
  rcases getElem?_set_cases hQ with ⟨_, rfl⟩ | ⟨hNe, hOld⟩
  · rfl
  · have hTimer := InOrder.timers hOrder q b hOld
    cases b with
    | false => rfl
    | true =>
        have hHere : s.state.part = some q := (hTimer.mp rfl).1
        rw [hPart] at hHere
        exact absurd (Option.some.inj hHere).symm hNe

/- Once its last part is marked, a test is over. -/
theorem isOver_marked
    {s : TestSession}
    (hOrder : s.Orderly)
    (hParts : s.HasParts)
    (hInit : s.state.initialized = true)
    (hOpen : s.state.finished = false)
    {p : Nat}
    (hPart : s.state.part = some p)
    (hNone : s.state.item = none)
    (hClosed : s.ClosedIn p)
    (now : Instant)
    (hFinished : (s.marked p now).state.finished = true) :
    (s.marked p now).IsOver := by
  have hLast : p + 1 = s.test.parts.length := by
    have hSame : (s.state.finished ||
        (p + 1 == s.test.parts.length)) = true := hFinished
    simpa [hOpen] using hSame
  have hItems : ∀ e ∈ s.entries,
      e.session.state.finished = true := by
    intro e hMem
    rcases List.getElem?_of_mem hMem with ⟨i, hE⟩
    have hBound := hParts e hMem
    rw [← hLast] at hBound
    rcases Nat.lt_or_eq_of_le (Nat.le_of_lt_succ hBound) with
      hBefore | hHere
    · have hEnded := InOrder.before hOrder p hPart e.part hBefore
      exact InOrder.closed hOrder i e hE hEnded
    · exact hClosed i e hE hHere
  refine ⟨hInit, hFinished, hNone, ?_, ?_, ?_⟩
  · intro x hMem
    rcases List.mem_map.mp hMem with ⟨y, hY, rfl⟩
    rw [Timer.isRunning_touch]
    have hRuns := List.mem_map_of_mem (f := Timer.isRunning) hY
    have hSet := isRunning_modify s.state.partTimers p
      (fun x => x.stop now) fun x => x.isRunning_stop now
    rw [show (s.switched [] now).state.partTimers =
      s.state.partTimers from rfl, hSet] at hRuns
    exact hOrder.stopped_of_set hPart hRuns
  · intro x hMem
    rcases List.mem_map.mp hMem with ⟨y, hY, rfl⟩
    rcases List.mem_map.mp hY with ⟨z, _, rfl⟩
    rw [Timer.isRunning_touch, isRunning_switchTimer]
    rfl
  · intro e hMem
    rcases List.getElem?_of_mem hMem with ⟨i, hE⟩
    have hCoherent := InOrder.coherent hOrder i e hE
    exact ⟨hItems e hMem, hCoherent.stopped (hItems e hMem)⟩

theorem ends_endPart_over
    {s : TestSession}
    (hOrder : s.Orderly)
    (hParts : s.HasParts)
    (hOpen : s.state.finished = false)
    (now : Instant) :
    Ends (endPart now) s fun _ t =>
      t.state.finished = true → t.IsOver := by
  refine ends_endPart_marked hOrder now ?_ ?_
  · intro t _ hNear hFinished
    rw [hNear.finished_eq, hOpen] at hFinished
    cases hFinished
  · intro p t hInit _ hPart hOrderT hNear hNone hClosed
    have hPartsT : t.HasParts := by
      intro f hMem
      rcases List.getElem?_of_mem hMem with ⟨i, hF⟩
      have hBound := (List.getElem?_eq_some_iff.mp hF).1
      rw [hNear.length] at hBound
      have hE := List.getElem?_eq_getElem hBound
      rw [hNear.part i _ f hE hF, hNear.test]
      exact hParts _ (List.getElem_mem hBound)
    exact isOver_marked hOrderT hPartsT
      (hNear.initialized_eq.trans hInit)
      (hNear.finished_eq.trans hOpen)
      (hNear.part_eq.trans hPart) hNone hClosed now

/- Once it is left, a test is over. -/
theorem ends_exit_over
    {s : TestSession}
    (hOrder : s.Orderly)
    (hOpen : s.state.finished = false)
    (now : Instant) :
    Ends (exit now) s fun _ t =>
      t.state.finished = true → t.IsOver := by
  have hNotOver : ∀ t : TestSession,
      t.state.finished = false → t.state.finished = true →
        t.IsOver := by
    intro t hStill hFinished
    rw [hStill] at hFinished
    cases hFinished
  rw [exit]
  refine ends_ensureInitialized_bind (fun _ => hNotOver s hOpen)
    fun hInit => ?_
  rw [ends_getState_bind]
  dsimp only
  rw [ends_ite]
  split
  · rw [ends_bind, ends_refuse]
    exact hNotOver s hOpen
  refine Ends.seq (touch_calm hOrder now) ?_ ?_
  · intro _ t hTouched
    exact hNotOver t (hTouched.near.finished_eq.trans hOpen)
  intro _ t hTouched
  have hOrderT := hTouched.orderly hOrder
  have hInitT := hTouched.initialized.trans hInit
  have hReady :
      ∀ (i : Nat) (e : ItemEntry), t.entries[i]? = some e →
        e.session.state.Coherent ∧
          e.session.state.initialized = true :=
    fun i e hE =>
      ⟨InOrder.coherent hOrderT i e hE,
        InOrder.initialized hOrderT hInitT i e hE⟩
  rw [ends_get_bind, ends_bind]
  refine (ends_exitItems now t.entries.zipIdx hReady
    fun x hx => ⟨x.1, List.mem_zipIdx_iff_getElem?.mp hx⟩).mono
      fun r u hSwept => ?_
  cases r with
  | error => cases hSwept.sure trivial
  | ok =>
      intro _
      refine ⟨hSwept.onward.initialized.trans hInitT, rfl, rfl,
        ?_, ?_, ?_⟩
      · intro x hMem
        rcases List.mem_map.mp hMem with ⟨y, _, rfl⟩
        exact Timer.isRunning_stop y now
      · intro x hMem
        rcases List.mem_map.mp hMem with ⟨y, _, rfl⟩
        exact isRunning_switchTimer [] now y
      · intro f hMem
        rcases List.getElem?_of_mem hMem with ⟨i, hF⟩
        have hFinished := hSwept.all rfl rfl i f hF
        have hCoherent := hSwept.onward.coherent
          (fun i e hE => (hReady i e hE).1) i f hF
        exact ⟨hFinished, hCoherent.stopped hFinished⟩

/- A call that finishes a test leaves it over. -/
theorem ends_call_over
    {s : TestSession}
    (hOrder : s.Orderly)
    (hParts : s.HasParts)
    (hOpen : s.state.finished = false)
    (c : TestCall) :
    Ends c.action s fun _ t =>
      t.state.finished = true → t.IsOver := by
  have hOther : Moves StaysOpen c.action →
      Ends c.action s fun _ t =>
        t.state.finished = true → t.IsOver := by
    intro hMoves
    refine (hMoves s).mono fun _ t hStays hFinished => ?_
    rw [hStays hOpen] at hFinished
    cases hFinished
  cases c with
  | endPart now =>
      exact ends_endPart_over hOrder hParts hOpen now
  | exit now => exact ends_exit_over hOrder hOpen now
  | initialise | enterTest | nextPart | nextItem | selectItem
  | submit | processOutcomes | touch =>
      refine hOther (ignoresItems_staysOpen.call_moves
        touch_staysOpen enterTest_staysOpen ?_ ?_)
      · exact fun _ hNever => by cases hNever
      · exact fun _ hNever => by cases hNever

------------------------------------------------------------
-- Runs
------------------------------------------------------------

/- Whenever a test is finished, it is over. -/
theorem isOver_of_finished
    {s : TestSession}
    (hOrder : s.Orderly)
    (hParts : s.HasParts)
    (hOpen : s.state.finished = false)
    (calls : List TestCall)
    (hFinished : (s.after calls).state.finished = true) :
    (s.after calls).IsOver := by
  induction calls using List.reverseRecOn with
  | nil =>
      rw [show (s.after []).state.finished = false from hOpen]
        at hFinished
      cases hFinished
  | append_singleton calls c ih =>
      cases hBefore : (s.after calls).state.finished with
      | true =>
          rw [after_append]
          exact ((ih hBefore).rests_after c).isOver
      | false =>
          have hCall := ends_call_over
            (after_orderly hOrder calls)
            ((after_sameSetup s calls).hasParts hParts)
            hBefore c
          rw [after_snoc] at hFinished ⊢
          exact hCall hFinished

/- A test has been under way at some time of a run. -/
def WasUnderWay (s : TestSession) (calls : List TestCall) :
    Prop :=
  ∃ earlier, earlier <+: calls ∧
    (s.after earlier).state.entered = true ∧
    (s.after earlier).state.finished = false

/-
  What a finished test keeps, whatever calls are made: no item
  is current, the timers of parts, sections and items have
  stopped and show what they showed, and of its items nothing
  changes but that they may be marked as left.
-/
structure KeepsRest (s t : TestSession) : Prop where
  finished : t.state.finished = true
  item : t.state.item = none
  parts :
    t.state.partTimers = s.state.partTimers ∧
      ∀ x ∈ t.state.partTimers, x.isRunning = false
  sections :
    t.state.sectionTimers = s.state.sectionTimers ∧
      ∀ x ∈ t.state.sectionTimers, x.2.isRunning = false
  length : t.entries.length = s.entries.length
  items :
    ∀ (i : Nat) (e f : ItemEntry), s.entries[i]? = some e →
      t.entries[i]? = some f →
        f.session.state.phase = .finished ∧
          f.session.state.timer.isRunning = false ∧
          f.session.state =
            { e.session.state with
              exited := f.session.state.exited }

theorem Rests.keepsRest
    {s t : TestSession}
    (hRests : s.Rests t)
    (hOver : s.IsOver) :
    s.KeepsRest t := by
  refine ⟨hRests.isOver.finished, hRests.isOver.item,
    ⟨hRests.parts, hRests.isOver.parts⟩,
    ⟨hRests.sections, hRests.isOver.sections⟩,
    hRests.items.length, ?_⟩
  intro i e f hE hF
  have hMem := List.mem_of_getElem? hF
  have hClosed := hRests.isOver.closed f hMem
  refine ⟨(ItemState.phase_eq_finished_iff _).mpr hClosed.1,
    hClosed.2, ?_⟩
  exact (hRests.items.entries i e f hE hF).2
    (hOver.closed e (List.mem_of_getElem? hE)).1

/- At the start, a test is not under way, and its clock new. -/
theorem start_clock
    {t : Test}
    {items : Keyed Item}
    {engine : Engine}
    {draws : Draws}
    {s : TestSession}
    (hStart : start t items engine draws = .ok s) :
    s.state.clock = ⟨false, false, .new⟩ := by
  rw [start_state hStart]
  rfl

/-
  The clock of a finished test has stopped and shows what it
  showed, if the test was under way before, and as long as the
  test has not been entered.
-/
theorem timer_of_finished
    {s : TestSession}
    (hNew : s.state.clock = ⟨false, false, .new⟩)
    (calls : List TestCall)
    (hFinished : (s.after calls).state.finished = true)
    (later : List TestCall)
    (hEntry :
      s.WasUnderWay calls ∨
        ((s.after calls).after later).state.entered = false) :
    ((s.after calls).after later).state.timer =
        (s.after calls).state.timer ∧
      (s.after calls).state.timer.isRunning = false := by
  have hLater := after_ticks (s.after calls) later
  rcases hEntry with ⟨earlier, ⟨rest, rfl⟩, hEntered, hOpen⟩ |
    hNever
  · rw [after_append] at hFinished hLater ⊢
    have hTicks := after_ticks (s.after earlier) rest
    have hStopped :=
      hTicks.stopped_of_finished hEntered hOpen hFinished
    exact ⟨hLater.stopped (hTicks.entered hEntered) hStopped,
      hStopped⟩
  · have hNeverBefore :
        (s.after calls).state.entered = false := by
      cases hEntered : (s.after calls).state.entered with
      | false => rfl
      | true =>
          have hStays :
              ((s.after calls).after later).state.entered =
                true :=
            hLater.entered hEntered
          rw [hNever] at hStays
          cases hStays
    have hTicks := after_ticks s calls
    have hStart : s.state.timer.isRunning = false := by
      have hTimer := congrArg TestClock.timer hNew
      rw [show s.state.timer = .new from hTimer]
      rfl
    have hSame := hTicks.unentered hNeverBefore hStart
    have hStopped :
        (s.after calls).state.timer.isRunning = false := by
      rw [show (s.after calls).state.timer = s.state.timer
        from hSame]
      exact hStart
    exact ⟨hLater.unentered hNever hStopped, hStopped⟩

/-
  A test that was left before it was entered can still be
  entered. Its clock starts then.
-/
theorem timer_of_late_entry
    {s : TestSession}
    (hOver : s.IsOver)
    (hNever : s.state.entered = false)
    (hNew : s.state.timer = .new)
    (a b : Instant) :
    (run (enterTest a) s).1 = .ok () ∧
      (s.after [.enterTest a, .touch b]).state.timer =
        ⟨[a.elapsed b], some b⟩ := by
  have hEntered :
      Ends (enterTest a) s fun r t =>
        r = .ok () ∧ t.state.timer = .start .new a ∧
          t.state.item = none := by
    rw [ends_enterTest_iff, if_pos hOver.initialized,
      hNever, ← hNew]
    exact ⟨rfl, rfl, hOver.item⟩
  rcases hEntered with ⟨hOk, hStarted, hItem⟩
  refine ⟨hOk, ?_⟩
  have hTouched :
      Ends (touch b) (run (enterTest a) s).2 fun _ t =>
        t.state.timer = ⟨[a.elapsed b], some b⟩ := by
    refine (ends_touch_none hItem b _).mpr ?_
    change (run (enterTest a) s).2.state.timer.touch b = _
    rw [show (run (enterTest a) s).2.state.timer = _
      from hStarted]
    rfl
  exact hTouched

/-
  A finished test stays finished, whatever calls are made. So
  does its clock, unless the test is entered only after it was
  finished: then that is not refused, and the clock runs.
-/
theorem rest_of_calls
    (t : Test)
    (items : Keyed Item)
    (engine : Engine)
    (draws : Draws)
    (first : TestSession)
    (hStart : start t items engine draws = .ok first)
    (calls : List TestCall)
    (hFinished : (first.after calls).state.finished = true) :
    (∀ later,
      (first.after calls).KeepsRest
        ((first.after calls).after later)) ∧
    (∀ later,
      (first.WasUnderWay calls ∨
        ((first.after calls).after later).state.entered =
          false) →
        ((first.after calls).after later).state.timer =
            (first.after calls).state.timer ∧
          (first.after calls).state.timer.isRunning = false) ∧
    ((first.after calls).state.entered = false →
      ∀ a b,
        (run (enterTest a) (first.after calls)).1 = .ok () ∧
          ((first.after calls).after
            [.enterTest a, .touch b]).state.timer =
              ⟨[a.elapsed b], some b⟩) := by
  have hClock := start_clock hStart
  have hOpen : first.state.finished = false :=
    congrArg TestClock.finished hClock
  have hOver := isOver_of_finished (start_orderly hStart)
    (start_hasParts hStart) hOpen calls hFinished
  refine ⟨?_, ?_, ?_⟩
  · intro later
    exact (hOver.rests_after_calls later).keepsRest hOver
  · intro later hEntry
    exact timer_of_finished hClock calls hFinished later hEntry
  · intro hNever a b
    have hNew : (first.after calls).state.timer = .new := by
      have hTimer : first.state.timer = .new :=
        congrArg TestClock.timer hClock
      have hTicks := after_ticks first calls
      have hStopped : first.state.timer.isRunning = false := by
        rw [hTimer]
        rfl
      exact (hTicks.unentered hNever hStopped).trans hTimer
    exact timer_of_late_entry hOver hNever hNew a b

/- A test that is left a second after it was entered. -/
def leavingCalls : List TestCall :=
  [.initialise, .enterTest ⟨0⟩, .exit ⟨Instant.second⟩]

/- Its clock shows that second from then on. -/
theorem rest_of_calls_left :
    ∃ first : TestSession,
      start blankTest [("blank", blankItem)] ⟨{}, none⟩
        default = .ok first ∧
      ∀ later,
        ((first.after leavingCalls).after
          later).state.timer.total = Instant.second := by
  obtain ⟨first, hStart, hFinished, hTimer, hUnderWay⟩ :
      ∃ first : TestSession,
        start blankTest [("blank", blankItem)] ⟨{}, none⟩
          default = .ok first ∧
        (first.after leavingCalls).state.finished = true ∧
        (first.after leavingCalls).state.timer.total =
          Instant.second ∧
        first.WasUnderWay leavingCalls := by
    refine ⟨_, rfl, ?_, ?_, [.initialise, .enterTest ⟨0⟩],
      ⟨[.exit ⟨Instant.second⟩], rfl⟩, ?_, ?_⟩
    · decide +kernel
    · decide +kernel
    · decide +kernel
    · decide +kernel
  refine ⟨first, hStart, fun later => ?_⟩
  have hRests := rest_of_calls blankTest
    [("blank", blankItem)] ⟨{}, none⟩ default first hStart
    leavingCalls hFinished
  rw [(hRests.2.1 later (Or.inl hUnderWay)).1]
  exact hTimer

/- The clock of a test that is finished may start to run. -/
theorem finished_clock_runs :
    ¬ ∀ (t : Test) (items : Keyed Item) (engine : Engine)
        (draws : Draws) (first : TestSession),
        start t items engine draws = .ok first →
          ∀ calls, (first.after calls).state.finished = true →
            ∀ later,
              ((first.after calls).after
                later).state.timer.isRunning = false := by
  obtain ⟨first, hStart, hFinished, hRuns⟩ :
      ∃ first : TestSession,
        start blankTest [("blank", blankItem)] ⟨{}, none⟩
          default = .ok first ∧
        (first.after
          [.initialise, .exit ⟨0⟩]).state.finished = true ∧
        ((first.after [.initialise, .exit ⟨0⟩]).after
          [.enterTest ⟨0⟩]).state.timer.isRunning = true := by
    refine ⟨_, rfl, ?_, ?_⟩
    · decide +kernel
    · decide +kernel
  intro hClaim
  have hStopped := hClaim _ _ _ _ first hStart _ hFinished
    [.enterTest ⟨0⟩]
  rw [hRuns] at hStopped
  cases hStopped

end TestSession

end Assessment
