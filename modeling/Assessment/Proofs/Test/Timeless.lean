import Assessment.Proofs.Item.Timeless
import Assessment.Proofs.Test.Navigation

/-
  Test sessions apart from the time spent on them.

  To bring the timers up to date changes nothing but the time
  spent. To leave the current item, and to let other timers
  run, are changes of their own, which the time spent does not
  bear on.

  Main declarations:
    * `TestSession.timeless`
    * `ends_touch_iff` and `TestSession.syncDuration`
    * `TestSession.switched`, with other timers running
    * `TestSession.left`, with the current item left
-/

------------------------------------------------------------
-- Sessions
------------------------------------------------------------

namespace Assessment

open Stateful

/- An entry without the time spent. -/
def ItemEntry.timeless (e : ItemEntry) : ItemEntry :=
  { e with session := e.session.timeless }

theorem ItemEntry.timeless_timeless (e : ItemEntry) :
    e.timeless.timeless = e.timeless := by
  simp only [ItemEntry.timeless, ItemSession.timeless,
    ItemState.timeless_timeless]

/- A state without the time spent. -/
def TestState.timeless (s : TestState) : TestState :=
  { s with
    timer := s.timer.timeless
    partTimers := s.partTimers.map Timer.timeless
    sectionTimers := s.sectionTimers.map fun x =>
      (x.1, x.2.timeless)
    values := Keyed.without Builtin.duration s.values }

theorem TestState.timeless_timeless (s : TestState) :
    s.timeless.timeless = s.timeless := by
  simp only [TestState.timeless, List.map_map,
    Function.comp_def, Timer.timeless_timeless,
    Keyed.without_without]

namespace TestSession

open ItemSession

/- A session without the time spent on test and items. -/
def timeless (s : TestSession) : TestSession :=
  { s with
    entries := s.entries.map ItemEntry.timeless
    state := s.state.timeless }

theorem timeless_timeless (s : TestSession) :
    s.timeless.timeless = s.timeless := by
  simp only [timeless, List.map_map, Function.comp_def,
    ItemEntry.timeless_timeless, TestState.timeless_timeless]

------------------------------------------------------------
-- Times
------------------------------------------------------------

/- The session with the timers of the test up to date. -/
def touchedTimers
    (now : Instant)
    (s : TestSession) :
    TestSession :=
  { s with
    state := {
      s.state with
      timer := s.state.timer.touch now
      partTimers := s.state.partTimers.map fun t => t.touch now
      sectionTimers := s.state.sectionTimers.map fun (k, t) =>
        (k, t.touch now) } }

/- The session with the time that the test has taken bound. -/
def syncDuration (s : TestSession) : TestSession :=
  { s with
    state := {
      s.state with
      values :=
        s.state.values.put Builtin.duration
          (.float s.state.timer.seconds) } }

/- The timers are touched between two changes of the test. -/
theorem ends_touch_iff
    (now : Instant)
    (s : TestSession)
    (Q : Except Failure Unit → TestSession → Prop) :
    Ends (touch now) s Q ↔
      match s.state.item with
      | none => Q (.ok ()) (s.touchedTimers now).syncDuration
      | some i =>
          Ends (onItem i (ItemSession.touch now))
            (s.touchedTimers now) fun r t =>
              match r with
              | .ok _ => Q (.ok ()) t.syncDuration
              | .error e => Q (.error e) t := by
  have hItem :
      (s.touchedTimers now).state.item = s.state.item := rfl
  rw [touch, ends_bind, ends_changeState]
  change Ends _ (s.touchedTimers now) Q ↔ _
  rw [ends_getState_bind, hItem]
  cases s.state.item with
  | none => rfl
  | some i =>
      dsimp only
      rw [ends_bind]
      apply ends_congr
      intro r t
      cases r <;> rfl

theorem timeless_touchedTimers
    (now : Instant)
    (s : TestSession) :
    (s.touchedTimers now).timeless = s.timeless := by
  simp only [touchedTimers, timeless, TestState.timeless,
    List.map_map, Function.comp_def, Timer.timeless_touch]

theorem timeless_syncDuration (s : TestSession) :
    s.syncDuration.timeless = s.timeless := by
  simp only [syncDuration, timeless, TestState.timeless,
    Keyed.without_put]

------------------------------------------------------------
-- Switching Timers
------------------------------------------------------------

/- The timer of a section starts or stops. -/
def switchTimer
    (sections : List String)
    (now : Instant)
    (x : String × Timer) :
    String × Timer :=
  if sections.contains x.1 then (x.1, x.2.start now)
  else (x.1, x.2.stop now)

/- The session with the timers of some sections running. -/
def switched
    (sections : List String)
    (now : Instant)
    (s : TestSession) :
    TestSession :=
  { s with
    state := {
      s.state with
      sectionTimers :=
        s.state.sectionTimers.map (switchTimer sections now) } }

theorem ends_switchSections
    (sections : List String)
    (now : Instant)
    (s : TestSession)
    (Q : Except Failure Unit → TestSession → Prop) :
    Ends (switchSections sections now) s Q ↔
      Q (.ok ()) (s.switched sections now) :=
  Iff.rfl

theorem switchTimer_fst
    (sections : List String)
    (now : Instant)
    (x : String × Timer) :
    (switchTimer sections now x).1 = x.1 := by
  unfold switchTimer
  split <;> rfl

/- The timers of the sections run then, and no others. -/
theorem isRunning_switchTimer
    (sections : List String)
    (now : Instant)
    (x : String × Timer) :
    (switchTimer sections now x).2.isRunning =
      sections.contains x.1 := by
  unfold switchTimer
  by_cases hIn : sections.contains x.1 = true
  · rw [if_pos hIn, Timer.isRunning_start, hIn]
  · rw [if_neg hIn, Timer.isRunning_stop,
      Bool.eq_false_of_not_eq_true hIn]

/- The session with other timers of sections. -/
def withTimers
    (timers : Keyed Timer)
    (s : TestSession) :
    TestSession :=
  { s with state := { s.state with sectionTimers := timers } }

theorem timeless_switched
    (sections : List String)
    (now : Instant)
    (s : TestSession) :
    (s.switched sections now).timeless =
      s.timeless.withTimers
        (s.state.sectionTimers.map fun x =>
          (x.1, Timer.idle (sections.contains x.1))) := by
  have hTimers :
      ((s.state.sectionTimers.map
        (switchTimer sections now)).map fun x =>
          (x.1, x.2.timeless)) =
        s.state.sectionTimers.map fun x =>
          (x.1, Timer.idle (sections.contains x.1)) := by
    rw [List.map_map]
    apply List.map_congr_left
    intro x _
    rw [Function.comp_apply, Timer.timeless, switchTimer_fst,
      isRunning_switchTimer]
  rw [← hTimers]
  rfl

/- Which timers run then does not depend on the time spent. -/
theorem switched_congr
    {s t : TestSession}
    (hSame : s.timeless = t.timeless)
    (sections : List String)
    (now : Instant) :
    (s.switched sections now).timeless =
      (t.switched sections now).timeless := by
  have hNames : ∀ u : TestSession,
      (u.state.sectionTimers.map fun x =>
        (x.1, Timer.idle (sections.contains x.1))) =
      u.timeless.state.sectionTimers.map fun x =>
        (x.1, Timer.idle (sections.contains x.1)) := by
    intro u
    simp only [timeless, TestState.timeless, List.map_map,
      Function.comp_def]
  rw [timeless_switched, timeless_switched, hNames, hNames t,
    hSame]

------------------------------------------------------------
-- Leaving
------------------------------------------------------------

/- The current item stays open when it is left. -/
def keepsCurrent (s : TestSession) : Bool :=
  (s.current?.bind fun e => s.test.parts[e.part]?).any keepsOpen

/- The entry of an item that has been left. -/
def leaveEntry
    (keeps : Bool)
    (now : Instant)
    (e : ItemEntry) :
    ItemEntry :=
  { e with session := e.session.leftBehind keeps now }

/- The session once the current item has been left. -/
def left (now : Instant) (s : TestSession) : TestSession :=
  match s.state.item with
  | none => s
  | some i =>
      { s with
        entries :=
          s.entries.modify i (leaveEntry s.keepsCurrent now)
        state := { s.state with item := none } }

theorem keepsCurrent_timeless (s : TestSession) :
    s.timeless.keepsCurrent = s.keepsCurrent := by
  have hItem : s.timeless.state.item = s.state.item := rfl
  have hEntries :
      s.timeless.entries = s.entries.map ItemEntry.timeless :=
    rfl
  have hTest : s.timeless.test = s.test := rfl
  unfold keepsCurrent current?
  rw [hItem, hEntries, hTest]
  cases s.state.item with
  | none => rfl
  | some i =>
      simp only [Option.bind_some, List.getElem?_map]
      cases s.entries[i]? <;> rfl

theorem timeless_leaveEntry
    (keeps : Bool)
    (now : Instant)
    (e : ItemEntry) :
    (leaveEntry keeps now e).timeless =
      (leaveEntry keeps now e.timeless).timeless := by
  simp only [ItemEntry.timeless, ItemSession.timeless,
    leaveEntry, ItemSession.leftBehind]
  rw [ItemState.timeless_leftBehind]

/- How an item is left does not depend on the time spent. -/
theorem timeless_left (now : Instant) (s : TestSession) :
    (s.left now).timeless = (s.timeless.left now).timeless := by
  have hItem : s.timeless.state.item = s.state.item := rfl
  unfold left
  rw [keepsCurrent_timeless, hItem]
  split
  next => exact (timeless_timeless s).symm
  next i _ =>
    have hEntries :
        (s.entries.modify i
          (leaveEntry s.keepsCurrent now)).map
            ItemEntry.timeless =
          ((s.entries.map ItemEntry.timeless).modify i
            (leaveEntry s.keepsCurrent now)).map
              ItemEntry.timeless := by
      apply List.ext_getElem?
      intro j
      simp only [List.getElem?_map, List.getElem?_modify]
      cases s.entries[j]? with
      | none => rfl
      | some e =>
          simp only [Option.map_some]
          split
          · exact congrArg some
              (timeless_leaveEntry s.keepsCurrent now e)
          · exact congrArg some e.timeless_timeless.symm
    have hState :
        ({ s.state with item := none } : TestState).timeless =
          ({ s.timeless.state with
            item := none } : TestState).timeless := by
      have hTwice := TestState.timeless_timeless s.state
      exact congrArg
        (fun u : TestState => { u with item := none })
        hTwice.symm
    unfold timeless at hState ⊢
    rw [hEntries, hState]

theorem left_congr
    {s t : TestSession}
    (hSame : s.timeless = t.timeless)
    (now : Instant) :
    (s.left now).timeless = (t.left now).timeless := by
  rw [timeless_left, hSame, ← timeless_left]

end TestSession

end Assessment
