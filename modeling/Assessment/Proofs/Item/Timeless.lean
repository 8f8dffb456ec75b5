import Assessment.Proofs.Item.Processing

/-
  Item sessions apart from the time spent on them.

  What is forgotten of a session is what its timer has
  measured and the variable that shows it. Two sessions that
  look the same then differ in time alone. How an item is left
  depends on nothing else.

  Main declarations:
    * `Timer.timeless` and `ItemSession.timeless`
    * `ItemState.leftBehind`, an item that has been left
      as the modes of its part say
    * `timeless_touched` and `timeless_leftBehind`
-/

------------------------------------------------------------
-- Timers
------------------------------------------------------------

namespace Assessment

open Stateful

namespace Timer

/- A timer that has measured nothing, and runs or does not. -/
def idle (running : Bool) : Timer :=
  if running then ⟨[], some ⟨0⟩⟩ else .new

/- A timer without what it has measured. -/
def timeless (t : Timer) : Timer :=
  idle t.isRunning

theorem timeless_touch (t : Timer) (now : Instant) :
    (t.touch now).timeless = t.timeless := by
  rw [timeless, isRunning_touch, timeless]

theorem timeless_stop (t : Timer) (now : Instant) :
    (t.stop now).timeless = idle false := by
  rw [timeless, isRunning_stop]

theorem isRunning_idle (running : Bool) :
    (idle running).isRunning = running := by
  cases running <;> rfl

theorem timeless_timeless (t : Timer) :
    t.timeless.timeless = t.timeless := by
  rw [timeless, timeless, isRunning_idle]

end Timer

------------------------------------------------------------
-- Bindings
------------------------------------------------------------

namespace Keyed

variable {α : Type}

/- The entries under other names. -/
def without (name : String) (m : Keyed α) : Keyed α :=
  m.filter fun e => e.1 != name

/- What is put under the name is not among them. -/
theorem without_put
    (name : String)
    (a : α)
    (m : Keyed α) :
    without name (m.put name a) = without name m := by
  induction m with
  | nil => simp [put, without]
  | cons e rest ih =>
      obtain ⟨k, b⟩ := e
      unfold put
      split
      · simp [without]
      · split
        next hSame =>
          have hName : name = k := by simpa using hSame
          subst hName
          simp [without]
        next =>
          unfold without at ih ⊢
          rw [List.filter_cons, List.filter_cons, ih]

theorem without_without (name : String) (m : Keyed α) :
    without name (without name m) = without name m := by
  simp [without, List.filter_filter]

end Keyed

------------------------------------------------------------
-- States
------------------------------------------------------------

namespace ItemState

/- A state without the time spent. -/
def timeless (s : ItemState) : ItemState :=
  { s with
    timer := s.timer.timeless
    values := Keyed.without Builtin.duration s.values }

theorem timeless_timeless (s : ItemState) :
    s.timeless.timeless = s.timeless := by
  unfold timeless
  simp only [Timer.timeless_timeless, Keyed.without_without]

/- To bring the time up to date changes nothing else. -/
theorem timeless_touched (s : ItemState) (now : Instant) :
    (s.touched now).timeless = s.timeless := by
  unfold timeless touched syncDuration bind
  simp only [Timer.timeless_touch, Keyed.without_put]

theorem timeless_putAside (s : ItemState) (now : Instant) :
    (s.putAside now).timeless =
      (s.timeless.putAside now).timeless := by
  unfold timeless putAside syncDuration bind
  simp only [Timer.timeless_stop, Keyed.without_put,
    Keyed.without_without]

theorem timeless_closed (s : ItemState) (now : Instant) :
    (s.closed now).timeless =
      (s.timeless.closed now).timeless := by
  unfold timeless closed syncDuration bind
  simp only [Timer.timeless_stop, Keyed.without_put,
    Keyed.without_without]

/-
  An item that has been closed because it is left: it counts
  as skipped unless it has been responded to.
-/
def movedOn (now : Instant) (s : ItemState) : ItemState :=
  if s.responded then s.closed now
  else { s with skipped := true }.closed now

theorem timeless_movedOn (s : ItemState) (now : Instant) :
    (s.movedOn now).timeless =
      (s.timeless.movedOn now).timeless := by
  unfold movedOn
  by_cases hResponded : s.responded = true
  · rw [if_pos hResponded,
      if_pos (show s.timeless.responded = true from hResponded)]
    exact timeless_closed s now
  · rw [if_neg hResponded,
      if_neg (show ¬ s.timeless.responded = true from
        hResponded)]
    exact timeless_closed { s with skipped := true } now

/-
  An item that has been left, in a part that keeps its items
  open or closes them.
-/
def leftBehind
    (keeps : Bool)
    (now : Instant)
    (s : ItemState) :
    ItemState :=
  match s.phase, keeps with
  | .interacting, true => s.putAside now
  | .interacting, false | .suspended, false => s.movedOn now
  | _, _ => s

/- How an item is left does not depend on the time spent. -/
theorem timeless_leftBehind
    (keeps : Bool)
    (now : Instant)
    (s : ItemState) :
    (s.leftBehind keeps now).timeless =
      (s.timeless.leftBehind keeps now).timeless := by
  have hPhase : s.timeless.phase = s.phase := rfl
  unfold leftBehind
  rw [hPhase]
  split
  · exact timeless_putAside s now
  · exact timeless_movedOn s now
  · exact timeless_movedOn s now
  · exact (timeless_timeless s).symm

end ItemState

------------------------------------------------------------
-- Sessions
------------------------------------------------------------

namespace ItemSession

/- A session without the time spent. -/
def timeless (s : ItemSession) : ItemSession :=
  { s with state := s.state.timeless }

theorem timeless_touchedAt (s : ItemSession) (now : Instant) :
    (s.touchedAt now).timeless = s.timeless := by
  unfold timeless touchedAt
  rw [ItemState.timeless_touched]

/- A session of an item that has been left. -/
def leftBehind
    (keeps : Bool)
    (now : Instant)
    (s : ItemSession) :
    ItemSession :=
  { s with state := s.state.leftBehind keeps now }

end ItemSession

end Assessment
