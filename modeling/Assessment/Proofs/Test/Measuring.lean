import Assessment.Proofs.Item.Processing
import Assessment.Proofs.Test.Clock
import Assessment.Proofs.Test.Dials
import Assessment.Proofs.Test.Ending

/-
  What calls do to the timers of a test session.

  A call has one instant at which it starts, touches and stops
  timers, so that what any of them shows then stays the same.
  A call that goes beyond starting a timer begins with a touch
  of all that run. So the laps of all timers have been
  measured up to the call once it has come to an end, whether
  it goes through or not.

  Main declarations:
    * `TestSession.AlongDials`, a relation timer by timer
    * `ItemSession.Turned`, what items do at an instant
    * `TestSession.Measures`, what a call does at an instant
    * `TestCall.time?`, the instant of a call
    * `TestCall.measures` and `TestCall.keepsDials`
-/

------------------------------------------------------------
-- Items
------------------------------------------------------------

namespace Assessment

open Stateful

namespace ItemSession

variable {α : Type}

/- Timers of items are related. -/
def OnTimer
    (R : Timer → Timer → Prop)
    (s t : ItemSession) :
    Prop :=
  R s.state.timer t.state.timer

/- The timer has been turned at an instant, if at all. -/
abbrev Turned (now : Instant) : ItemSession → ItemSession → Prop :=
  OnTimer (Timer.Turned now)

instance
    {R : Timer → Timer → Prop}
    [Std.Refl R] :
    Std.Refl (OnTimer R) where
  refl s := Std.Refl.refl (r := R) s.state.timer

instance
    {R : Timer → Timer → Prop}
    [IsTrans Timer R] :
    IsTrans ItemSession (OnTimer R) where
  trans _ _ _ hFirst hThen :=
    IsTrans.trans (r := R) _ _ _ hFirst hThen

/- Bindings have no part in the timer. -/
theorem SameLife.timer_eq
    {s t : ItemSession}
    (hLife : s.SameLife t) :
    t.state.timer = s.state.timer := by
  have hTimer := congrArg ItemState.timer hLife
  exact hTimer

theorem initialise_keepsTimer
    (defaults : List TemplateDefault) :
    Moves (OnTimer Eq) (initialise defaults) := by
  intro s
  apply (ends_initialise defaults s).mono
  intro r t hEnds
  cases r with
  | error => exact hEnds.timer_eq.symm
  | ok =>
      rcases hEnds with ⟨_, u, hLife, hState⟩
      have hTimer := congrArg ItemState.timer hLife
      unfold OnTimer
      rw [hState]
      exact hTimer.symm

section

variable (now : Instant)

theorem enter_turned : Moves (Turned now) (enter now) :=
  enter_moves fun s _ _ _ => s.state.timer.turned_start now

theorem suspend_turned : Moves (Turned now) (suspend now) :=
  suspend_moves fun s _ _ => s.state.timer.turned_stop now

theorem resume_turned : Moves (Turned now) (resume now) :=
  resume_moves fun s _ _ => s.state.timer.turned_start now

theorem touch_turned : Moves (Turned now) (touch now) :=
  fun s => s.state.timer.turned_touch now

theorem finish_turned : Moves (Turned now) (finish now) :=
  finish_moves fun s _ _ => s.state.timer.turned_stop now

theorem exit_turned : Moves (Turned now) (exit now) :=
  exit_moves
    (fun s _ _ => Std.Refl.refl (r := Turned now) s)
    fun s _ _ => s.state.timer.turned_stop now

theorem skip_turned : Moves (Turned now) (skip now) :=
  skip_moves fun s _ _ _ _ => s.state.timer.turned_stop now

theorem timeOut_turned : Moves (Turned now) (timeOut now) :=
  timeOut_moves fun s _ _ => s.state.timer.turned_stop now

theorem processResponses_turned :
    Moves (Turned now) processResponses := by
  apply processResponses_sameLife.mono
  intro s t hLife
  unfold Turned OnTimer
  rw [hLife.timer_eq]
  exact Std.Refl.refl (r := Timer.Turned now) _

/- Counting an attempt leaves the timer alone. -/
theorem timer_counted (s : ItemSession) :
    s.counted.state.timer = s.state.timer := by
  unfold counted
  split <;> rfl

theorem turned_concluded (s : ItemSession) :
    s.Turned now (s.concluded now) := by
  unfold concluded
  split
  · exact s.state.timer.turned_stop now
  · exact Std.Refl.refl (r := Turned now) s

theorem submit_turned (responses : Responses) :
    Moves (Turned now) (submit responses now) := by
  intro s
  apply ends_submit_cases
  · exact fun _ _ => Std.Refl.refl (r := Turned now) s
  · intro hInit hPhase hAllowed
    have hTouched := s.state.timer.turned_touch now
    have hStopped :=
      IsTrans.trans (r := Timer.Turned now) _ _ _ hTouched
        ((s.state.timer.touch now).turned_stop now)
    rw [ends_submit_open hInit hPhase hAllowed]
    split
    · exact hStopped
    · extract_lets b
      split
      · exact hTouched
      · apply Ends.of_forall
        intro r u
        have hProcessed : ∀ done,
            s.Turned now (b.counted.processed u done) := by
          intro done
          have hSame :
              (b.counted.processed u done).state.timer =
                s.state.timer.touch now :=
            timer_counted b
          unfold Turned OnTimer
          rw [hSame]
          exact hTouched
        cases r with
        | error => exact hProcessed _
        | ok =>
            exact IsTrans.trans (r := Turned now) _ _ _
              (hProcessed _) (turned_concluded now _)

end

end ItemSession

------------------------------------------------------------
-- Items in a Test
------------------------------------------------------------

namespace TestSession

open ItemSession

variable {α : Type}
variable (now : Instant)

theorem leaveItem_turned (keeps : Bool) :
    Moves (ItemSession.Turned now) (leaveItem keeps now) :=
  leaveItem_moves_at (suspend_turned now) (finish_turned now)
    (skip_turned now) keeps

theorem presentItem_turned (ref : String) :
    Moves (ItemSession.Turned now) (presentItem ref now) :=
  presentItem_moves_at (enter_turned now) (resume_turned now)
    ref

theorem closeItem_turned :
    Moves (ItemSession.Turned now) (closeItem now) :=
  closeItem_moves_at (processResponses_turned now)
    (finish_turned now)

------------------------------------------------------------
-- Timers of a Test
------------------------------------------------------------

/- The timers of two sessions are related one by one. -/
def AlongDials
    (R : Timer → Timer → Prop)
    (s t : TestSession) :
    Prop :=
  s.dials.Along R t.dials

section

variable {R : Timer → Timer → Prop}
variable [Std.Refl R]

instance : Std.Refl (AlongDials R) where
  refl s := Std.Refl.refl (r := Dials.Along R) s.dials

instance [IsTrans Timer R] :
    IsTrans TestSession (AlongDials R) where
  trans _ _ _ hFirst hThen :=
    IsTrans.trans (r := Dials.Along R) _ _ _ hFirst hThen

/- One value of a list may change, and others stay. -/
theorem forall₂_set
    {γ : Type}
    {S : γ → γ → Prop}
    (hRefl : ∀ a, S a a)
    {xs : List γ}
    {i : Nat}
    {x y : γ}
    (hX : xs[i]? = some x)
    (hChange : S x y) :
    List.Forall₂ S xs (xs.set i y) := by
  induction xs generalizing i with
  | nil => exact .nil
  | cons z rest ih =>
      cases i with
      | zero =>
          cases hX
          exact .cons hChange
            (List.forall₂_same.mpr fun a _ => hRefl a)
      | succ i => exact .cons (hRefl z) (ih hX)

theorem forall₂_modify
    {f : Timer → Timer}
    (hChange : ∀ t, R t (f t))
    (timers : List Timer)
    (i : Nat) :
    List.Forall₂ R timers (timers.modify i f) := by
  induction timers generalizing i with
  | nil =>
      rw [List.modify_nil]
      exact .nil
  | cons t rest ih =>
      cases i with
      | zero =>
          exact .cons (hChange t) (List.forall₂_refl rest)
      | succ i => exact .cons (Std.Refl.refl (r := R) t) (ih i)

omit [Std.Refl R] in
theorem forall₂_map
    {f : Timer → Timer}
    (hChange : ∀ t, R t (f t))
    (timers : List Timer) :
    List.Forall₂ R timers (timers.map f) :=
  List.forall₂_map_right_iff.mpr
    (List.forall₂_same.mpr fun t _ => hChange t)

omit [Std.Refl R] in
theorem forall₂_map_sections
    {f : String × Timer → String × Timer}
    (hChange : ∀ x, (f x).1 = x.1 ∧ R x.2 (f x).2)
    (timers : Keyed Timer) :
    List.Forall₂ (fun x y => y.1 = x.1 ∧ R x.2 y.2) timers
      (timers.map f) :=
  List.forall₂_map_right_iff.mpr
    (List.forall₂_same.mpr fun x _ => hChange x)

/- A step of an item relates what it does to the timer. -/
theorem onItem_alongDials
    {x : Action α}
    (hMoves : Moves (OnTimer R) x)
    (i : Nat) :
    Moves (AlongDials R) (onItem i x) := by
  intro s
  rw [ends_onItem]
  split
  next => exact Std.Refl.refl (r := AlongDials R) s
  next e hE =>
    apply (hMoves e.session).mono
    intro _ session hMove
    have hSame := Std.Refl.refl (r := Dials.Along R) s.dials
    refine ⟨hSame.test, hSame.parts, hSame.sections, ?_⟩
    simp only [dials, putSession, List.map_set]
    refine forall₂_set (x := e.dial) ?_ ?_ ⟨rfl, rfl, hMove⟩
    · exact fun a => ⟨rfl, rfl, Std.Refl.refl (r := R) a.own⟩
    · rw [List.getElem?_map, hE, Option.map_some]

/- A change of the state relates the timers that it changes. -/
theorem alongDials_of_state
    {s : TestSession}
    {u : TestState}
    (hTest : R s.state.timer u.timer)
    (hParts :
      List.Forall₂ R s.state.partTimers u.partTimers)
    (hSections :
      List.Forall₂ (fun x y => y.1 = x.1 ∧ R x.2 y.2)
        s.state.sectionTimers u.sectionTimers) :
    s.AlongDials R { s with state := u } :=
  ⟨hTest, hParts, hSections,
    (Std.Refl.refl (r := Dials.Along R) s.dials).items⟩

/- What is announced is no matter of timers. -/
theorem announced_alongDials
    [IsTrans Timer R]
    (activity : Activity)
    {x : TestAction α}
    (hMoves : Moves (AlongDials R) x) :
    Moves (AlongDials R) (announced activity x) :=
  announced_moves activity
    (fun s _ => Std.Refl.refl (r := AlongDials R) s) hMoves

/- Outcome processing leaves the timers alone. -/
theorem processOutcomes_alongDials [IsTrans Timer R] :
    Moves (AlongDials R) processOutcomes :=
  processOutcomes_moves (announced_alongDials _)
    (fun s => Std.Refl.refl (r := AlongDials R) s)
    fun _ t _ =>
      runRules_moves
        (fun s _ => Std.Refl.refl (r := AlongDials R) s) _ t

end

/- To initialize items starts no timer. -/
theorem initialise_keepsDials :
    Moves (AlongDials Eq) initialise :=
  initialise_moves (announced_alongDials _)
    (fun _ s => Std.Refl.refl (r := AlongDials Eq) s)
    (initialiseItems_moves fun i defaults =>
      onItem_alongDials (initialise_keepsTimer defaults) i)
    fun s => Std.Refl.refl (r := AlongDials Eq) s

------------------------------------------------------------
-- Parts of Steps
------------------------------------------------------------

/- All timers show at an instant what they showed before. -/
abbrev Turned (s t : TestSession) : Prop :=
  s.AlongDials (Timer.Turned now) t

theorem switchSections_turned (sections : List String) :
    Moves (Turned now) (switchSections sections now) := by
  intro s
  have hSwitched :
      List.Forall₂
        (fun x y => y.1 = x.1 ∧ Timer.Turned now x.2 y.2)
        s.state.sectionTimers
        (s.state.sectionTimers.map
          (switchTimer sections now)) := by
    apply forall₂_map_sections
    intro x
    unfold switchTimer
    split
    · exact ⟨rfl, x.2.turned_start now⟩
    · exact ⟨rfl, x.2.turned_stop now⟩
  have hSame :=
    Std.Refl.refl (r := Dials.Along (Timer.Turned now)) s.dials
  rw [ends_switchSections]
  exact alongDials_of_state hSame.test hSame.parts hSwitched

theorem touchedTimers_turned (s : TestSession) :
    s.Turned now (s.touchedTimers now) :=
  alongDials_of_state (s.state.timer.turned_touch now)
    (forall₂_map (fun t => t.turned_touch now) _)
    (forall₂_map_sections (f := fun x => (x.1, x.2.touch now))
      (fun x => ⟨rfl, x.2.turned_touch now⟩) _)

theorem touch_turned : Moves (Turned now) (touch now) :=
  touch_moves (touchedTimers_turned now)
    (onItem_alongDials (ItemSession.touch_turned now))
    fun s => Std.Refl.refl (r := Turned now) s

theorem leaveCurrent_turned :
    Moves (Turned now) (leaveCurrent now) :=
  leaveCurrent_moves
    (fun i keeps =>
      onItem_alongDials (leaveItem_turned now keeps) i)
    fun s => Std.Refl.refl (r := Turned now) s

theorem present_turned (i : Nat) :
    Moves (Turned now) (present i now) :=
  present_moves (switchSections_turned now)
    (fun ref =>
      onItem_alongDials (presentItem_turned now ref) i)
    fun s => Std.Refl.refl (r := Turned now) s

theorem markEnded_turned (part : Nat) (last : Bool) :
    Moves (Turned now) (markEnded part last now) := by
  intro s
  have hSame :=
    Std.Refl.refl (r := Dials.Along (Timer.Turned now)) s.dials
  have hParts :=
    forall₂_modify (fun t => Timer.turned_stop t now)
      s.state.partTimers part
  rw [markEnded, ends_changeState]
  refine ⟨?_, hParts, hSame.sections, hSame.items⟩
  cases last with
  | false => exact hSame.test
  | true => exact s.state.timer.turned_stop now

------------------------------------------------------------
-- Steps
------------------------------------------------------------

/-
  At an instant, timers are turned. In the end all of them
  have measured their time up to then, unless some have only
  been started.
-/
structure Measures (s t : TestSession) : Prop where
  turned : s.Turned now t
  laps :
    t.dials.All (Timer.IsFresh now) ∨
      t.dials.map Timer.total = s.dials.map Timer.total

namespace Measures

variable {now}
variable {s t : TestSession}

theorem refl (s : TestSession) : s.Measures now s :=
  ⟨Std.Refl.refl (r := Turned now) s, .inr rfl⟩

/- Whatever else is turned then, the time stays measured. -/
theorem of_fresh
    {u : TestSession}
    (hFirst : s.Turned now t)
    (hFresh : t.dials.All (Timer.IsFresh now))
    (hThen : t.Turned now u) :
    s.Measures now u where
  turned := IsTrans.trans (r := Turned now) _ _ _ hFirst hThen
  laps := .inl (hThen.all (fun _ _ h => h.fresh) hFresh)

/- Timers that are started keep their laps. -/
theorem of_started
    (hStarted : s.AlongDials (Timer.Started now) t) :
    s.Measures now t where
  turned := hStarted.mono fun _ _ h => h.turned
  laps := .inr (hStarted.map_eq fun _ _ h => h.total_eq)

end Measures

/- Only the timer of the current item runs. -/
theorem ends_touch_fresh
    {s : TestSession}
    (hLed : s.Led) :
    Ends (touch now) s fun _ t =>
      t.dials.All (Timer.IsFresh now) := by
  have hStopped :
      ∀ (i : Nat) (e : ItemEntry), s.entries[i]? = some e →
        s.state.item ≠ some i →
          e.session.state.timer.IsFresh now := by
    intro i e hE hOther
    apply Timer.isFresh_of_stopped
    by_contra hRuns
    exact hOther
      (hLed.interacting i e hE (.inr (by simpa using hRuns)))
  have hOwn : ∀ es : List ItemEntry,
      (∀ e ∈ es, e.session.state.timer.IsFresh now) →
        Dials.All (Timer.IsFresh now)
          { (s.touchedTimers now).dials with
            items := es.map ItemEntry.dial } := by
    intro es hItems
    constructor
    · exact s.state.timer.isFresh_touch now
    · intro t hMem
      rcases List.mem_map.mp hMem with ⟨u, _, rfl⟩
      exact u.isFresh_touch now
    · intro x hMem
      rcases List.mem_map.mp hMem with ⟨y, _, rfl⟩
      exact y.2.isFresh_touch now
    · intro x hMem
      rcases List.mem_map.mp hMem with ⟨e, hE, rfl⟩
      exact hItems e hE
  rw [ends_touch_iff]
  split
  next hNone =>
    apply hOwn s.entries
    intro e hMem
    rcases List.getElem?_of_mem hMem with ⟨i, hE⟩
    exact hStopped i e hE (by simp [hNone])
  next i hItem =>
    rw [ends_onItem]
    split
    next hMissing =>
      apply hOwn s.entries
      intro e hMem
      rcases List.getElem?_of_mem hMem with ⟨j, hE⟩
      apply hStopped j e hE
      rintro hSame
      rw [hItem] at hSame
      cases hSame
      have hMissing' : s.entries[i]? = none := hMissing
      rw [hE] at hMissing'
      cases hMissing'
    next e hE =>
      apply hOwn (s.entries.set i _)
      intro f hMem
      rcases List.getElem?_of_mem hMem with ⟨j, hF⟩
      rcases getElem?_set_cases hF with ⟨_, rfl⟩ | ⟨hNe, hSame⟩
      · exact e.session.state.timer.isFresh_touch now
      · apply hStopped j f hSame
        rw [hItem]
        exact fun h => hNe (Option.some.inj h).symm

/- What follows a touch only turns timers. -/
theorem ends_touch_bind_measures
    {s : TestSession}
    (hLed : s.Led)
    {f : Unit → TestAction α}
    (hRest : ∀ a, Moves (Turned now) (f a)) :
    Ends (touch now >>= f) s fun _ t => s.Measures now t := by
  rw [ends_bind]
  apply ((touch_turned now s).and (ends_touch_fresh now hLed)).mono
  rintro r t ⟨hTurned, hFresh⟩
  cases r with
  | error =>
      exact .of_fresh hTurned hFresh
        (Std.Refl.refl (r := Turned now) t)
  | ok a =>
      exact (hRest a t).mono fun _ _ hThen =>
        .of_fresh hTurned hFresh hThen

theorem enterTest_measures :
    Moves (Measures now) (enterTest now) := by
  intro s
  have hSame :=
    Std.Refl.refl (r := Dials.Along (Timer.Started now)) s.dials
  rw [ends_enterTest_iff]
  split_ifs
  · exact .refl s
  · exact .of_started
      ⟨.inr rfl, hSame.parts, hSame.sections, hSame.items⟩
  · exact .refl s

theorem nextPart_measures :
    Moves (Measures now) (nextPart now) := by
  intro s
  have hSame :=
    Std.Refl.refl (r := Dials.Along (Timer.Started now)) s.dials
  rw [nextPart]
  apply ends_ensureRunning_bind fun _ => .refl s
  intro _ _
  rw [ends_get_bind]
  dsimp only
  rw [ends_ite]
  split
  · rw [ends_bind, ends_refuse]
    exact .refl s
  · split
    next => exact .refl s
    next =>
      rw [ends_bind, ends_changeState]
      exact .of_started
        ⟨hSame.test, forall₂_modify (fun _ => .inr rfl) _ _,
          hSame.sections, hSame.items⟩

section

variable {s : TestSession}
variable (hLed : s.Led)

include hLed

theorem ends_nextItem_measures :
    Ends (nextItem now) s fun _ t => s.Measures now t := by
  rw [nextItem]
  apply ends_ensureRunning_bind fun _ => .refl s
  intro _ _
  apply ends_runningPart_bind fun _ => .refl s
  intro p _ _
  apply ends_touch_bind_measures now hLed
  intro _
  apply Moves.bind Moves.get
  intro t
  apply Moves.bind (leaveCurrent_turned now)
  intro _
  split
  · apply Moves.bind (present_turned now _)
    exact fun _ => Moves.bind Moves.get fun _ => Moves.pure _
  · exact Moves.bind (switchSections_turned now _)
      fun _ => Moves.pure _

theorem ends_selectItem_measures
    (ref : String)
    (occurrence : Nat) :
    Ends (selectItem ref occurrence now) s fun _ t =>
      s.Measures now t := by
  rw [selectItem]
  apply ends_ensureRunning_bind fun _ => .refl s
  intro _ _
  apply ends_runningPart_bind fun _ => .refl s
  intro p _ _
  rw [ends_get_bind]
  dsimp only
  rw [ends_ite]
  split
  · split
    next => exact .refl s
    next i _ =>
      apply ends_touch_bind_measures now hLed
      intro _
      apply Moves.bind getState_moves
      intro t
      apply Moves.ite_bind (leaveCurrent_turned now)
      intro _
      apply Moves.bind (present_turned now _)
      exact fun _ => Moves.bind Moves.get fun _ => Moves.pure _
  · rw [ends_bind, ends_refuse]
    exact .refl s

theorem ends_submit_measures (responses : Responses) :
    Ends (submit responses now) s fun _ t =>
      s.Measures now t := by
  rw [submit]
  apply ends_ensureRunning_bind fun _ => .refl s
  intro _ _
  rw [ends_getState_bind]
  split
  next => exact .refl s
  next i _ =>
    apply ends_touch_bind_measures now hLed
    intro _
    apply Moves.bind Moves.get
    intro t
    dsimp only
    split
    · exact Moves.bind
        (onItem_alongDials (timeOut_turned now) _)
        fun _ => Moves.pure _
    · apply Moves.bind
        (onItem_alongDials (submit_turned now responses) _)
      intro _
      exact Moves.ite_bind processOutcomes_alongDials
        fun _ => Moves.pure _

theorem ends_endPart_measures :
    Ends (endPart now) s fun _ t => s.Measures now t := by
  have hClose : ∀ i,
      MovesCleanly False (Turned now)
        (onItem i (closeItem now)) :=
    fun i =>
      (onItem_alongDials (closeItem_turned now) i).cleanly
  apply ends_endPart_gates (Measures.refl s)
  intro p _ _ _ _
  apply ends_touch_bind_measures now hLed
  intro _
  apply Moves.bind (leaveCurrent_turned now)
  intro _
  apply Moves.bind Moves.get
  intro t
  apply Moves.bind (closeItems_moves hClose _).moves
  intro processed
  apply Moves.ite_bind processOutcomes_alongDials
  intro _
  exact marking_moves (touch_turned now)
    (switchSections_turned now []) (markEnded_turned now) p

theorem ends_exit_measures :
    Ends (exit now) s fun _ t => s.Measures now t := by
  rw [exit]
  apply ends_ensureInitialized_bind fun _ => .refl s
  intro _
  rw [ends_getState_bind]
  dsimp only
  rw [ends_ite]
  split
  · rw [ends_bind, ends_refuse]
    exact .refl s
  · apply ends_touch_bind_measures now hLed
    intro _
    apply Moves.bind Moves.get
    intro t
    apply Moves.bind (exitItems_moves
      (fun i => onItem_alongDials (exit_turned now) i) _)
    intro _
    apply Moves.bind
    · intro u
      have hSame :=
        Std.Refl.refl (r := Dials.Along (Timer.Turned now))
          u.dials
      exact ⟨hSame.test,
        forall₂_map (fun x => Timer.turned_stop x now) _,
        hSame.sections, hSame.items⟩
    intro _
    apply Moves.bind (switchSections_turned now _)
    intro _ u
    have hSame :=
      Std.Refl.refl (r := Dials.Along (Timer.Turned now)) u.dials
    exact ⟨u.state.timer.turned_stop now, hSame.parts,
      hSame.sections, hSame.items⟩

end

end TestSession

------------------------------------------------------------
-- Calls
------------------------------------------------------------

namespace TestCall

/- The instant that a call is made at, if it matters. -/
def time? : TestCall → Option Instant
  | initialise => none
  | enterTest now => some now
  | nextPart now => some now
  | nextItem now => some now
  | selectItem _ _ now => some now
  | submit _ now => some now
  | endPart now => some now
  | exit now => some now
  | processOutcomes => none
  | touch now => some now

/- A call turns timers at its instant, and measures them. -/
theorem measures
    {s : TestSession}
    (hLed : s.Led)
    {c : TestCall}
    {now : Instant}
    (hTime : c.time? = some now) :
    Ends c.action s fun _ t => s.Measures now t := by
  cases c <;> cases hTime
  case enterTest =>
    exact TestSession.enterTest_measures now s
  case nextPart =>
    exact ends_discard.mpr (TestSession.nextPart_measures now s)
  case nextItem =>
    exact ends_discard.mpr
      (TestSession.ends_nextItem_measures now hLed)
  case selectItem ref occurrence =>
    exact ends_discard.mpr
      (TestSession.ends_selectItem_measures now hLed ref
        occurrence)
  case submit responses =>
    exact ends_discard.mpr
      (TestSession.ends_submit_measures now hLed responses)
  case endPart =>
    exact TestSession.ends_endPart_measures now hLed
  case exit => exact TestSession.ends_exit_measures now hLed
  case touch =>
    exact ((TestSession.touch_turned now s).and
      (TestSession.ends_touch_fresh now hLed)).mono
        fun _ _ hTouched => ⟨hTouched.1, .inl hTouched.2⟩

/- Any other call leaves the timers alone. -/
theorem keepsDials
    {c : TestCall}
    (hNone : c.time? = none) :
    Moves (TestSession.AlongDials Eq) c.action := by
  cases c <;> cases hNone
  case initialise => exact TestSession.initialise_keepsDials
  case processOutcomes =>
    exact TestSession.processOutcomes_alongDials

end TestCall

end Assessment
