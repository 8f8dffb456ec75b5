import Assessment.Proofs.Item.Lifecycle
import Assessment.Proofs.Test.Frame
import Assessment.Proofs.Test.Timeless
import Mathlib.Logic.Relation

/-
  The clock of a test.

  The clock starts when the test is entered, which happens at
  most once, and it stops when the test is finished. Apart
  from that it is only brought up to date. Every call is made
  of such ticks, whatever else it does.

  Main declarations:
    * `TestClock` and `TestClock.Tick`
    * `TestSession.IgnoresItems`, what matters to the clock,
      with the steps that leave it alone
    * `TestSession.Ticks` and `TestSession.StaysOpen`, which
      calls obey
-/

------------------------------------------------------------
-- Stopped Timers
------------------------------------------------------------

namespace Assessment

open Stateful

namespace Timer

/- A stopped timer measures nothing. -/
theorem touch_of_stopped
    {t : Timer}
    (hStopped : t.isRunning = false)
    (now : Instant) :
    t.touch now = t := by
  rcases t with ⟨laps, since | since⟩
  · rfl
  · cases hStopped

theorem stop_of_stopped
    {t : Timer}
    (hStopped : t.isRunning = false)
    (now : Instant) :
    t.stop now = t := by
  rcases t with ⟨laps, since | since⟩
  · rfl
  · cases hStopped

end Timer

------------------------------------------------------------
-- Ticks
------------------------------------------------------------

/- What bears on the clock of a test. -/
structure TestClock where
  entered : Bool
  finished : Bool
  timer : Timer

/- The clock of a test in a state. -/
def TestState.clock (s : TestState) : TestClock where
  entered := s.entered
  finished := s.finished
  timer := s.timer

namespace TestClock

/- One change of the clock of a test. -/
inductive Tick : TestClock → TestClock → Prop
  | touch (c : TestClock) (now : Instant) :
      Tick c { c with timer := c.timer.touch now }
  | enter (c : TestClock) (now : Instant)
      (hFirst : c.entered = false) :
      Tick c
        { c with entered := true
                 timer := c.timer.start now }
  | finish (c : TestClock) (now : Instant) :
      Tick c
        { c with finished := true
                 timer := c.timer.stop now }

/- Changes in a row. -/
abbrev Ticks : TestClock → TestClock → Prop :=
  Relation.ReflTransGen Tick

namespace Ticks

variable {c d : TestClock}

/- A test that has been entered stays entered. -/
theorem entered
    (hTicks : Ticks c d)
    (hEntered : c.entered = true) :
    d.entered = true := by
  induction hTicks with
  | refl => exact hEntered
  | tail _ hTick ih =>
      cases hTick with
      | touch now => exact ih
      | enter now _ => rfl
      | finish now => exact ih

/- Until the test is entered, its clock measures nothing. -/
theorem unentered
    (hTicks : Ticks c d)
    (hNever : d.entered = false)
    (hStopped : c.timer.isRunning = false) :
    d.timer = c.timer := by
  induction hTicks with
  | refl => rfl
  | tail _ hTick ih =>
      cases hTick with
      | touch now =>
          have hSame := ih hNever
          rw [← hSame] at hStopped
          rw [Timer.touch_of_stopped hStopped, hSame]
      | enter now _ => cases hNever
      | finish now =>
          have hSame := ih hNever
          rw [← hSame] at hStopped
          rw [Timer.stop_of_stopped hStopped, hSame]

/- A clock that has been entered does not start again. -/
theorem stopped
    (hTicks : Ticks c d)
    (hEntered : c.entered = true)
    (hStopped : c.timer.isRunning = false) :
    d.timer = c.timer := by
  induction hTicks with
  | refl => rfl
  | tail hTicks hTick ih =>
      rw [← ih] at hStopped ⊢
      cases hTick with
      | touch now =>
          exact Timer.touch_of_stopped hStopped now
      | enter now hFirst =>
          rw [Ticks.entered hTicks hEntered] at hFirst
          cases hFirst
      | finish now =>
          exact Timer.stop_of_stopped hStopped now

/-
  The clock of a test that was entered before it was finished
  has stopped once it is finished.
-/
theorem stopped_of_finished
    (hTicks : Ticks c d)
    (hEntered : c.entered = true)
    (hOpen : c.finished = false)
    (hFinished : d.finished = true) :
    d.timer.isRunning = false := by
  induction hTicks with
  | refl =>
      rw [hOpen] at hFinished
      cases hFinished
  | tail hTicks hTick ih =>
      cases hTick with
      | touch now =>
          rw [Timer.isRunning_touch]
          exact ih hFinished
      | enter now hFirst =>
          rw [Ticks.entered hTicks hEntered] at hFirst
          cases hFirst
      | finish now => exact Timer.isRunning_stop _ now

end Ticks

end TestClock

------------------------------------------------------------
-- What Matters to the Clock
------------------------------------------------------------

namespace TestSession

open ItemSession

variable {α : Type}
variable {R : TestSession → TestSession → Prop}

/- A change that leaves the clock alone is obeyed. -/
structure IgnoresItems
    (R : TestSession → TestSession → Prop) :
    Prop where
  same :
    ∀ {s t : TestSession},
      t.state.clock = s.state.clock → R s t

namespace IgnoresItems

theorem changeState
    (hIgnores : IgnoresItems R)
    {f : TestState → TestState}
    (hSame : ∀ s, (f s).clock = s.clock) :
    Moves R (changeState f) :=
  fun s => hIgnores.same (hSame s.state)

theorem onItem
    (hIgnores : IgnoresItems R)
    (i : Nat)
    (x : Action α) :
    Moves R (onItem i x) := by
  intro s
  rw [ends_onItem]
  split
  next => exact hIgnores.same rfl
  next => exact Ends.of_forall fun _ _ => hIgnores.same rfl

variable [Std.Refl R]
variable [IsTrans TestSession R]

omit [Std.Refl R] in
theorem announced
    (hIgnores : IgnoresItems R)
    (activity : Activity)
    {x : TestAction α}
    (hMoves : Moves R x) :
    Moves R (announced activity x) :=
  announced_moves activity (fun _ _ => hIgnores.same rfl) hMoves

/- The test takes its time between two steps of an item. -/
theorem touch
    (hIgnores : IgnoresItems R)
    (now : Instant)
    (hClock : ∀ s, R s (s.touchedTimers now)) :
    Moves R (touch now) :=
  touch_moves hClock (fun i => hIgnores.onItem i _)
    (hIgnores.changeState fun _ => rfl)

theorem processOutcomes (hIgnores : IgnoresItems R) :
    Moves R processOutcomes :=
  processOutcomes_moves (hIgnores.announced _)
    (fun _ => hIgnores.same rfl)
    fun _ t _ => runRules_moves (fun _ _ => hIgnores.same rfl) _ t

theorem initialise (hIgnores : IgnoresItems R) :
    Moves R initialise :=
  initialise_moves (hIgnores.announced _)
    (fun _ => hIgnores.changeState fun _ => rfl)
    (initialiseItems_moves fun i _ => hIgnores.onItem i _)
    (hIgnores.changeState fun _ => rfl)

theorem leaveCurrent
    (hIgnores : IgnoresItems R)
    (now : Instant) :
    Moves R (leaveCurrent now) :=
  leaveCurrent_moves (fun i _ => hIgnores.onItem i _)
    (hIgnores.changeState fun _ => rfl)

theorem present
    (hIgnores : IgnoresItems R)
    (i : Nat)
    (now : Instant) :
    Moves R (present i now) :=
  present_moves (fun _ => hIgnores.changeState fun _ => rfl)
    (fun _ => hIgnores.onItem i _)
    (hIgnores.changeState fun _ => rfl)

/- A part ends by being marked so. -/
theorem endPart
    (hIgnores : IgnoresItems R)
    {now : Instant}
    (hTouch : Moves R (TestSession.touch now))
    (hMark : ∀ part last, Moves R (markEnded part last now)) :
    Moves R (endPart now) :=
  (endPart_moves hTouch
    (hIgnores.changeState fun _ => rfl) hMark
    (hIgnores.leaveCurrent now)
    (fun i => (hIgnores.onItem i _).cleanly)
    hIgnores.processOutcomes).moves

/- The test is left last of all. -/
theorem exit
    (hIgnores : IgnoresItems R)
    {now : Instant}
    (hTouch : Moves R (TestSession.touch now))
    (hLeave : Moves R (TestSession.changeState fun s =>
      { s with
        timer := s.timer.stop now
        item := none
        part := none
        finished := true
        exited := true })) :
    Moves R (exit now) :=
  exit_moves hTouch (fun i => hIgnores.onItem i _)
    (hIgnores.changeState fun _ => rfl)
    (hIgnores.changeState fun _ => rfl) hLeave

/- Calls obey a relation that what they do to the clock does. -/
theorem call_moves
    (hIgnores : IgnoresItems R)
    (hTouch : ∀ now, Moves R (TestSession.touch now))
    (hEnter : ∀ now, Moves R (enterTest now))
    {c : TestCall}
    (hEndPart :
      ∀ now, c = .endPart now →
        Moves R (TestSession.endPart now))
    (hExit :
      ∀ now, c = .exit now → Moves R (TestSession.exit now)) :
    Moves R c.action := by
  cases c with
  | initialise => exact hIgnores.initialise
  | enterTest now => exact hEnter now
  | nextPart now =>
      exact fun s => ends_discard.mpr
        (nextPart_moves
          (fun _ => hIgnores.changeState fun _ => rfl) s)
  | nextItem now =>
      exact fun s => ends_discard.mpr
        (nextItem_moves (hTouch now)
          (hIgnores.leaveCurrent now)
          (hIgnores.present · now)
          (hIgnores.changeState fun _ => rfl) s)
  | selectItem ref occurrence now =>
      exact fun s => ends_discard.mpr
        (selectItem_moves (hTouch now)
          (hIgnores.leaveCurrent now)
          (hIgnores.present · now) ref occurrence s)
  | submit responses now =>
      exact fun s => ends_discard.mpr
        (submit_moves (hTouch now)
          (fun i => hIgnores.onItem i _)
          (fun i => hIgnores.onItem i _)
          hIgnores.processOutcomes s)
  | endPart now => exact hEndPart now rfl
  | exit now => exact hExit now rfl
  | processOutcomes => exact hIgnores.processOutcomes
  | touch now => exact hTouch now

end IgnoresItems

/- A test is entered once, and its clock starts then. -/
theorem ends_enterTest_iff
    (now : Instant)
    (s : TestSession)
    (Q : Except Failure Unit → TestSession → Prop) :
    Ends (enterTest now) s Q ↔
      if s.state.initialized then
        if s.state.entered then
          Q (.error (.refused .testEntered)) s
        else
          Q (.ok ())
            { s with state := {
                s.state with
                entered := true
                timer := s.state.timer.start now } }
      else Q (.error .notInitialized) s := by
  simp [enterTest, ends_ensureInitialized]

------------------------------------------------------------
-- Calls
------------------------------------------------------------

/- The clock of a session has ticked. -/
def Ticks (s t : TestSession) : Prop :=
  TestClock.Ticks s.state.clock t.state.clock

instance : Std.Refl Ticks where
  refl _ := .refl

instance : IsTrans TestSession Ticks where
  trans _ _ _ hFirst hThen := hFirst.trans hThen

theorem ignoresItems_ticks : IgnoresItems Ticks := by
  constructor
  intro s t hSame
  unfold Ticks
  rw [hSame]

theorem touch_ticks (now : Instant) :
    Moves Ticks (touch now) :=
  ignoresItems_ticks.touch now fun s =>
    .single (.touch s.state.clock now)

theorem enterTest_ticks (now : Instant) :
    Moves Ticks (enterTest now) := by
  intro s
  rw [ends_enterTest_iff]
  split
  · split
    next => exact Std.Refl.refl (r := Ticks) s
    next hNew =>
      have hFirst : s.state.entered = false := by
        simpa using hNew
      exact .single (.enter s.state.clock now hFirst)
  · exact Std.Refl.refl (r := Ticks) s

/- The clock stops if the part that ends is the last. -/
theorem markEnded_ticks
    (part : Nat)
    (last : Bool)
    (now : Instant) :
    Moves Ticks (markEnded part last now) := by
  intro s
  rw [markEnded, ends_changeState]
  cases last with
  | false =>
      exact ignoresItems_ticks.same
        (by simp [TestState.clock])
  | true =>
      have hFinish := TestClock.Tick.finish s.state.clock now
      exact .single (by simpa [TestState.clock] using hFinish)

/- The clock of a test ticks, whatever call is made. -/
theorem call_ticks (c : TestCall) : Moves Ticks c.action := by
  refine ignoresItems_ticks.call_moves touch_ticks
    enterTest_ticks ?_ ?_
  · intro now _
    exact ignoresItems_ticks.endPart (touch_ticks now)
      fun part last => markEnded_ticks part last now
  · intro now _
    exact ignoresItems_ticks.exit (touch_ticks now)
      fun s => .single (.finish s.state.clock now)

theorem after_ticks
    (s : TestSession)
    (calls : List TestCall) :
    s.Ticks (s.after calls) :=
  after_moves call_ticks s calls

/- A test is only finished by a call that ends or leaves it. -/
def StaysOpen (s t : TestSession) : Prop :=
  s.state.finished = false → t.state.finished = false

instance : Std.Refl StaysOpen where
  refl _ := id

instance : IsTrans TestSession StaysOpen where
  trans _ _ _ hFirst hThen := hThen ∘ hFirst

theorem ignoresItems_staysOpen : IgnoresItems StaysOpen := by
  constructor
  intro s t hSame hOpen
  have hFinished := congrArg TestClock.finished hSame
  exact hFinished.trans hOpen

theorem touch_staysOpen (now : Instant) :
    Moves StaysOpen (touch now) :=
  ignoresItems_staysOpen.touch now fun _ hOpen => hOpen

theorem enterTest_staysOpen (now : Instant) :
    Moves StaysOpen (enterTest now) := by
  intro s
  rw [ends_enterTest_iff]
  split
  · split <;> exact id
  · exact id

end TestSession

end Assessment
