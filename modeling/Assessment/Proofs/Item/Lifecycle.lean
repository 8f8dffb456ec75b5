import Assessment.Proofs.Item.Steps

/-
  The life of an item session.

  The flags, the times and the clock of a session agree with
  each other in every state that calls lead to, and its life
  goes one way: a finished session stays finished, and phases
  come in their order except that a suspended session may be
  taken up again.

  Main declarations:
    * `ItemState.Coherent`, how flags, times and clock agree
    * `ItemState.Advances`, which every step obeys
    * `ItemCall.advances`, the law of one call
    * `ItemSession.life_of_calls`, the law of all runs
-/

------------------------------------------------------------
-- Clocks and Phases
------------------------------------------------------------

namespace Assessment

open Stateful

namespace Timer

@[simp] theorem isRunning_start (t : Timer) (now : Instant) :
    (t.start now).isRunning = true := by
  rcases t with ⟨laps, since | since⟩ <;> rfl

@[simp] theorem isRunning_touch (t : Timer) (now : Instant) :
    (t.touch now).isRunning = t.isRunning := by
  rcases t with ⟨laps, since | since⟩ <;> rfl

end Timer

/- The place of a phase in the order of a life. -/
def Phase.rank : Phase → Nat
  | .notAttempted => 0
  | .initialized => 1
  | .interacting => 2
  | .suspended => 3
  | .finished => 4

/-
  A life has gone on from one phase to another: it never goes
  back, except that a suspended session is taken up again.
-/
def Phase.LeadsTo (p q : Phase) : Prop :=
  p.rank ≤ q.rank ∨ (p = .suspended ∧ q = .interacting)

instance : Std.Refl Phase.LeadsTo where
  refl _ := Or.inl (Nat.le_refl _)

instance : IsTrans Phase Phase.LeadsTo where
  trans p q r hFirst hThen := by
    revert hFirst hThen
    cases p <;> cases q <;> cases r <;>
      simp [Phase.LeadsTo, Phase.rank]

namespace ItemState

theorem phase_eq_initialized_iff (s : ItemState) :
    s.phase = .initialized ↔
      s.finished = false ∧ s.suspended = false ∧
        s.entryTime = none ∧ s.initialized = true := by
  unfold phase
  cases s.finished <;> cases s.suspended <;>
    cases s.entryTime <;> cases s.initialized <;> simp

theorem phase_eq_interacting_iff (s : ItemState) :
    s.phase = .interacting ↔
      s.finished = false ∧ s.suspended = false ∧
        s.entryTime.isSome = true := by
  unfold phase
  cases s.finished <;> cases s.suspended <;>
    cases s.entryTime <;> cases s.initialized <;> simp

theorem phase_eq_suspended_iff (s : ItemState) :
    s.phase = .suspended ↔
      s.finished = false ∧ s.suspended = true := by
  unfold phase
  cases s.finished <;> cases s.suspended <;>
    cases s.entryTime <;> cases s.initialized <;> simp

theorem phase_putAside
    {s : ItemState}
    (hOpen : s.finished = false)
    (now : Instant) :
    (s.putAside now).phase = .suspended := by
  rw [phase_eq_suspended_iff]
  exact ⟨hOpen, rfl⟩

theorem phase_eq_finished_iff (s : ItemState) :
    s.phase = .finished ↔ s.finished = true := by
  unfold phase
  cases s.finished <;> cases s.suspended <;>
    cases s.entryTime <;> cases s.initialized <;> simp

------------------------------------------------------------
-- Coherence
------------------------------------------------------------

/- How the flags, the times and the clock of a state agree. -/
structure Coherent (s : ItemState) : Prop where
  /- The clock runs while the candidate interacts. -/
  clock : s.timer.isRunning = true ↔ s.phase = .interacting
  presented : s.presented = true ↔ s.entryTime.isSome = true
  ended : s.endTime.isSome = true ↔ s.finished = true
  suspended :
    s.suspended = true →
      s.entryTime.isSome = true ∧ s.finished = false
  skipped :
    s.skipped = true → s.finished = true ∧ s.responded = false
  timedOut : s.timedOut = true → s.finished = true
  exited : s.exited = true → s.finished = true
  initialized :
    s.presented = true ∨ s.finished = true →
      s.initialized = true

/- Only an initialized session is suspended. -/
theorem Coherent.initialized_of_suspended
    {s : ItemState}
    (hCoherent : s.Coherent)
    (hPhase : s.phase = .suspended) :
    s.initialized = true := by
  rw [phase_eq_suspended_iff] at hPhase
  have hEntry := (hCoherent.suspended hPhase.2).1
  exact hCoherent.initialized
    (Or.inl (hCoherent.presented.mpr hEntry))

/- Only an initialized session is entered. -/
theorem Coherent.entryTime_eq_none
    {s : ItemState}
    (hCoherent : s.Coherent)
    (hNew : s.initialized = false) :
    s.entryTime = none := by
  cases hEntry : s.entryTime with
  | none => rfl
  | some now =>
      have hEntered : s.entryTime.isSome = true := by
        rw [hEntry]
        rfl
      have hInit :=
        hCoherent.initialized
          (Or.inl (hCoherent.presented.mpr hEntered))
      rw [hNew] at hInit
      cases hInit

/- Nothing has happened in the first state. -/
theorem coherent_default : ({} : ItemState).Coherent := by
  constructor <;> simp [Timer.isRunning, Timer.new, phase]

/- A state without its bindings and without what waits. -/
def life (s : ItemState) : ItemState :=
  { s with
    values := []
    defaults := []
    corrects := []
    pending := false
    unbound := []
    invalid := [] }

theorem phase_of_life
    {s t : ItemState}
    (hLife : t.life = s.life) :
    t.phase = s.phase := by
  have hPhase := congrArg ItemState.phase hLife
  exact hPhase

theorem initialized_of_life
    {s t : ItemState}
    (hLife : t.life = s.life) :
    t.initialized = s.initialized := by
  have hFlag := congrArg ItemState.initialized hLife
  exact hFlag

theorem finished_of_life
    {s t : ItemState}
    (hLife : t.life = s.life) :
    t.finished = s.finished := by
  have hFlag := congrArg ItemState.finished hLife
  exact hFlag

theorem presented_of_life
    {s t : ItemState}
    (hLife : t.life = s.life) :
    t.presented = s.presented := by
  have hFlag := congrArg ItemState.presented hLife
  exact hFlag

/- Bindings and what waits have no part in coherence. -/
theorem Coherent.of_life
    {s t : ItemState}
    (hCoherent : s.Coherent)
    (hLife : t.life = s.life) :
    t.Coherent := by
  have hOwn : s.life.Coherent :=
    ⟨hCoherent.clock, hCoherent.presented, hCoherent.ended,
      hCoherent.suspended, hCoherent.skipped,
      hCoherent.timedOut, hCoherent.exited,
      hCoherent.initialized⟩
  rw [← hLife] at hOwn
  exact ⟨hOwn.clock, hOwn.presented, hOwn.ended,
    hOwn.suspended, hOwn.skipped, hOwn.timedOut, hOwn.exited,
    hOwn.initialized⟩

/- A session has been initialized once. -/
theorem Coherent.withInitialized
    {s : ItemState}
    (hCoherent : s.Coherent)
    (hNew : s.initialized = false) :
    { s with initialized := true }.Coherent := by
  have hNever : s.presented = false ∧ s.finished = false := by
    have := hCoherent.initialized
    grind
  have hNoEntry : s.entryTime.isSome = false := by
    have := hCoherent.presented
    grind
  have hStopped : s.timer.isRunning = false := by
    have := hCoherent.clock
    rw [phase_eq_interacting_iff] at this
    grind
  refine ⟨?_, hCoherent.presented, hCoherent.ended,
    hCoherent.suspended, hCoherent.skipped, hCoherent.timedOut,
    hCoherent.exited, fun _ => rfl⟩
  rw [phase_eq_interacting_iff]
  simp [hStopped, hNoEntry]

theorem Coherent.entered
    {s : ItemState}
    (hCoherent : s.Coherent)
    (hInit : s.initialized = true)
    (hOpen : s.finished = false)
    (hFirst : s.entryTime = none)
    (now : Instant) :
    (s.entered now).Coherent := by
  have hAwake : s.suspended = false := by
    have := hCoherent.suspended
    grind
  refine ⟨?_, ?_, hCoherent.ended, ?_, hCoherent.skipped,
    hCoherent.timedOut, hCoherent.exited, fun _ => hInit⟩
  · rw [phase_eq_interacting_iff]
    simp [ItemState.entered, hOpen, hAwake]
  · simp [ItemState.entered]
  · simp [ItemState.entered, hAwake]

theorem Coherent.putAside
    {s : ItemState}
    (hCoherent : s.Coherent)
    (hPhase : s.phase = .interacting)
    (now : Instant) :
    (s.putAside now).Coherent := by
  rw [phase_eq_interacting_iff] at hPhase
  rcases hPhase with ⟨hOpen, hAwake, hEntry⟩
  refine ⟨?_, hCoherent.presented, hCoherent.ended,
    fun _ => ⟨hEntry, hOpen⟩, hCoherent.skipped,
    hCoherent.timedOut, hCoherent.exited, hCoherent.initialized⟩
  rw [phase_eq_interacting_iff]
  simp [ItemState.putAside, syncDuration, bind,
    Timer.isRunning_stop]

theorem Coherent.takenUp
    {s : ItemState}
    (hCoherent : s.Coherent)
    (hPhase : s.phase = .suspended)
    (now : Instant) :
    (s.takenUp now).Coherent := by
  rw [phase_eq_suspended_iff] at hPhase
  rcases hPhase with ⟨hOpen, hAside⟩
  have hEntry := (hCoherent.suspended hAside).1
  refine ⟨?_, hCoherent.presented, hCoherent.ended, ?_,
    hCoherent.skipped, hCoherent.timedOut, hCoherent.exited,
    hCoherent.initialized⟩
  · rw [phase_eq_interacting_iff]
    simp [ItemState.takenUp, hOpen, hEntry]
  · simp [ItemState.takenUp]

theorem Coherent.touched
    {s : ItemState}
    (hCoherent : s.Coherent)
    (now : Instant) :
    (s.touched now).Coherent := by
  refine ⟨?_, hCoherent.presented, hCoherent.ended,
    hCoherent.suspended, hCoherent.skipped, hCoherent.timedOut,
    hCoherent.exited, hCoherent.initialized⟩
  have hClock := hCoherent.clock
  rw [phase_eq_interacting_iff] at hClock ⊢
  simpa [ItemState.touched, syncDuration, bind] using hClock

/-
  Closing needs little: the state may just have been marked as
  skipped or timed out, which only a finished one can be.
-/
theorem coherent_closed
    {s : ItemState}
    (hInit : s.initialized = true)
    (hPresented : s.presented = true ↔ s.entryTime.isSome = true)
    (hSkipped : s.skipped = true → s.responded = false)
    (now : Instant) :
    (s.closed now).Coherent := by
  refine ⟨?_, hPresented, ?_, ?_, fun h => ⟨rfl, hSkipped h⟩,
    fun _ => rfl, fun _ => rfl, fun _ => hInit⟩
  · rw [phase_eq_interacting_iff]
    simp [ItemState.closed, syncDuration, bind,
      Timer.isRunning_stop]
  · simp [ItemState.closed, syncDuration, bind]
  · simp [ItemState.closed, syncDuration, bind]

theorem Coherent.closed
    {s : ItemState}
    (hCoherent : s.Coherent)
    (hInit : s.initialized = true)
    (now : Instant) :
    (s.closed now).Coherent :=
  coherent_closed hInit hCoherent.presented
    (fun h => (hCoherent.skipped h).2) now

/- A response is given before the session is finished. -/
theorem Coherent.withResponded
    {s : ItemState}
    (hCoherent : s.Coherent)
    (hOpen : s.finished = false)
    (responded : Bool) :
    { s with responded := responded }.Coherent := by
  refine ⟨hCoherent.clock, hCoherent.presented, hCoherent.ended,
    hCoherent.suspended, ?_, hCoherent.timedOut,
    hCoherent.exited, hCoherent.initialized⟩
  intro hSkipped
  have := hCoherent.skipped hSkipped
  simp_all

theorem Coherent.withExited
    {s : ItemState}
    (hCoherent : s.Coherent)
    (hFinished : s.finished = true) :
    { s with exited := true }.Coherent :=
  ⟨hCoherent.clock, hCoherent.presented, hCoherent.ended,
    hCoherent.suspended, hCoherent.skipped, hCoherent.timedOut,
    fun _ => hFinished, hCoherent.initialized⟩

------------------------------------------------------------
-- Advances
------------------------------------------------------------

/- What holds of a state and a later one of the same life. -/
structure Progress (s t : ItemState) : Prop where
  coherent : t.Coherent
  initialized : s.initialized = true → t.initialized = true
  finished : s.finished = true → t.finished = true
  phase : s.phase.LeadsTo t.phase

theorem Progress.trans
    {s t u : ItemState}
    (hFirst : s.Progress t)
    (hThen : t.Progress u) :
    s.Progress u :=
  ⟨hThen.coherent, hThen.initialized ∘ hFirst.initialized,
    hThen.finished ∘ hFirst.finished,
    IsTrans.trans _ _ _ hFirst.phase hThen.phase⟩

/- From a coherent state, a life goes on. -/
def Advances (s t : ItemState) : Prop :=
  s.Coherent → s.Progress t

instance : Std.Refl Advances where
  refl _ hCoherent :=
    ⟨hCoherent, id, id, Std.Refl.refl (r := Phase.LeadsTo) _⟩

instance : IsTrans ItemState Advances where
  trans _ _ _ hFirst hThen hCoherent :=
    have hMid := hFirst hCoherent
    hMid.trans (hThen hMid.coherent)

/- A state with the same flags and times has advanced. -/
theorem advances_of_life
    {s t : ItemState}
    (hLife : t.life = s.life) :
    s.Advances t := by
  intro hCoherent
  refine ⟨hCoherent.of_life hLife, ?_, ?_, ?_⟩
  · exact fun hInit => (initialized_of_life hLife).trans hInit
  · exact fun hFin => (finished_of_life hLife).trans hFin
  · rw [phase_of_life hLife]
    exact Std.Refl.refl (r := Phase.LeadsTo) s.phase

/- A state may be closed from any phase. -/
theorem leadsTo_closed (s : ItemState) (now : Instant) :
    s.phase.LeadsTo (s.closed now).phase := by
  have hPhase : (s.closed now).phase = .finished := rfl
  rw [hPhase]
  cases s.phase <;> simp [Phase.LeadsTo, Phase.rank]

end ItemState

------------------------------------------------------------
-- Steps
------------------------------------------------------------

namespace ItemSession

/- The life of a session goes on. -/
def Advances (s t : ItemSession) : Prop :=
  s.state.Advances t.state

instance : Std.Refl Advances where
  refl s := Std.Refl.refl (r := ItemState.Advances) s.state

instance : IsTrans ItemSession Advances where
  trans s t u hFirst hThen :=
    IsTrans.trans (r := ItemState.Advances) s.state t.state
      u.state hFirst hThen

theorem enter_advances (now : Instant) :
    Moves Advances (enter now) := by
  refine enter_moves fun s hInit hOpen hNone hCoherent => ?_
  refine ⟨hCoherent.entered hInit hOpen hNone now, id, id,
    Or.inl ?_⟩
  unfold ItemState.phase ItemState.entered
  cases s.state.finished <;> cases s.state.suspended <;>
    simp [Phase.rank, hInit, hNone]

theorem suspend_advances (now : Instant) :
    Moves Advances (suspend now) := by
  refine suspend_moves fun s _ hPhase hCoherent => ?_
  refine ⟨hCoherent.putAside hPhase now, id, id, Or.inl ?_⟩
  rw [ItemState.phase_eq_interacting_iff] at hPhase
  rw [ItemState.phase_putAside hPhase.1 now,
    (s.state.phase_eq_interacting_iff).mpr hPhase]
  decide

theorem resume_advances (now : Instant) :
    Moves Advances (resume now) := by
  refine resume_moves fun s _ hPhase hCoherent => ?_
  have hUp := hCoherent.takenUp hPhase now
  refine ⟨hUp, id, id, Or.inr ⟨hPhase, ?_⟩⟩
  exact hUp.clock.mp (Timer.isRunning_start _ _)

theorem touch_advances (now : Instant) :
    Moves Advances (touch now) := by
  intro s
  rw [ends_touch]
  intro hCoherent
  exact ⟨hCoherent.touched now, id, id,
    Std.Refl.refl (r := Phase.LeadsTo) _⟩

theorem finish_advances (now : Instant) :
    Moves Advances (finish now) :=
  finish_moves fun s hInit _ hCoherent =>
    ⟨hCoherent.closed hInit now, id, fun _ => rfl,
      s.state.leadsTo_closed now⟩

theorem exit_advances (now : Instant) :
    Moves Advances (exit now) := by
  refine exit_moves (fun s _ hFinished hCoherent => ?_)
    fun s hInit _ hCoherent => ?_
  · exact ⟨hCoherent.withExited hFinished, id, id,
      Std.Refl.refl (r := Phase.LeadsTo) _⟩
  · exact ⟨(hCoherent.closed hInit now).withExited rfl, id,
      fun _ => rfl, s.state.leadsTo_closed now⟩

theorem skip_advances (now : Instant) :
    Moves Advances (skip now) := by
  refine skip_moves fun s hInit _ _ hNoResponse hCoherent => ?_
  have hClosed :=
    ItemState.coherent_closed
      (s := { s.state with skipped := true }) hInit
      hCoherent.presented (fun _ => hNoResponse) now
  exact ⟨hClosed, id, fun _ => rfl,
    s.state.leadsTo_closed now⟩

theorem timeOut_advances (now : Instant) :
    Moves Advances (timeOut now) := by
  refine timeOut_moves fun s hInit _ hCoherent => ?_
  have hClosed :=
    ItemState.coherent_closed
      (s := { s.state with timedOut := true }) hInit
      hCoherent.presented (fun h => (hCoherent.skipped h).2)
      now
  exact ⟨hClosed, id, fun _ => rfl,
    s.state.leadsTo_closed now⟩

------------------------------------------------------------
-- Processing
------------------------------------------------------------

/- Nothing but bindings and what waits has changed. -/
def SameLife (s t : ItemSession) : Prop :=
  t.state.life = s.state.life

instance : Std.Refl SameLife where
  refl _ := rfl

instance : IsTrans ItemSession SameLife where
  trans _ _ _ hFirst hThen := Eq.trans hThen hFirst

/- Rules touch bindings alone. -/
theorem runRules_sameLife {α : Type} (x : Run α) :
    Moves SameLife (runRules x) := by
  intro s
  rw [ends_runRules]
  exact rfl

theorem changeState_sameLife
    {f : ItemState → ItemState}
    (hLife : ∀ s, (f s).life = s.life) :
    Moves SameLife (changeState f) :=
  fun s => hLife s.state

theorem processResponses_sameLife :
    Moves SameLife processResponses :=
  processResponses_moves
    (announced_moves _ fun _ _ => rfl)
    (changeState_sameLife fun _ => rfl)
    (fun _ t _ => runRules_sameLife _ t)
    (changeState_sameLife fun _ => rfl)

theorem SameLife.advances
    {s t : ItemSession}
    (hLife : s.SameLife t) :
    s.Advances t :=
  ItemState.advances_of_life hLife

/- Getting initialized is the first step of a life. -/
theorem withInitialized_advances
    (s : ItemState)
    (hNew : s.initialized = false) :
    s.Advances { s with initialized := true } := by
  intro hCoherent
  refine ⟨hCoherent.withInitialized hNew, fun _ => rfl, id,
    Or.inl ?_⟩
  unfold ItemState.phase
  cases s.finished <;> cases s.suspended <;>
    cases s.entryTime <;> simp [Phase.rank, hNew]

/-
  An initialization that goes through marks a session that
  differs in its bindings; any other leaves such a session.
-/
theorem ends_initialise
    (defaults : List TemplateDefault)
    (s : ItemSession) :
    Ends (initialise defaults) s fun r t =>
      match r with
      | .ok _ =>
          s.state.initialized = false ∧
            ∃ u : ItemState, u.life = s.state.life ∧
              t.state = { u with initialized := true }
      | .error _ => s.SameLife t := by
  simp only [initialise, ends_bind, ends_getState, ends_ite,
    ends_throw, ends_announced, ends_get, ends_changeState]
  split
  next => exact rfl
  next hNew =>
    rw [ends_runRules]
    refine Ends.of_forall fun r stage => ?_
    cases r with
    | error => exact rfl
    | ok =>
        exact ⟨by simpa using hNew, (s.takeOver stage).state,
          rfl, rfl⟩

theorem initialise_advances (defaults : List TemplateDefault) :
    Moves Advances (initialise defaults) := by
  intro s
  refine (ends_initialise defaults s).mono fun r t hEnds => ?_
  cases r with
  | error => exact hEnds.advances
  | ok =>
      rcases hEnds with ⟨hNew, u, hLife, hState⟩
      have hNew' : u.initialized = false :=
        (ItemState.initialized_of_life hLife).trans hNew
      have hMarked : u.Advances t.state := by
        rw [hState]
        exact withInitialized_advances u hNew'
      exact IsTrans.trans (r := ItemState.Advances) _ _ _
        (ItemState.advances_of_life hLife) hMarked

/- Responses are bound to a session that is still open. -/
theorem bindResponses_advances (responses : Responses) :
    Moves Advances (bindResponses responses) := by
  refine bindResponses_moves fun s _ hOpen hCoherent => ?_
  have hResponded :=
    hCoherent.withResponded hOpen
      (s.bound responses).state.responded
  exact ⟨hResponded.of_life rfl, id, id,
    Std.Refl.refl (r := Phase.LeadsTo) _⟩

theorem processResponses_advances :
    Moves Advances processResponses :=
  processResponses_sameLife.mono fun _ _ => SameLife.advances

theorem partsMove_advances : PartsMove Advances where
  touch := touch_advances
  timeOut := timeOut_advances
  finish := finish_advances
  bindResponses := bindResponses_advances
  processResponses := processResponses_advances

theorem submit_advances (responses : Responses) (now : Instant) :
    Moves Advances (submit responses now) :=
  submit_moves partsMove_advances responses now

end ItemSession

------------------------------------------------------------
-- Runs
------------------------------------------------------------

/- Every call carries the life of a session on. -/
theorem ItemCall.advances (c : ItemCall) :
    Moves ItemSession.Advances c.action := by
  cases c with
  | initialise defaults =>
      exact ItemSession.initialise_advances defaults
  | enter now => exact ItemSession.enter_advances now
  | suspend now => exact ItemSession.suspend_advances now
  | resume now => exact ItemSession.resume_advances now
  | touch now => exact ItemSession.touch_advances now
  | bindResponses responses =>
      exact Moves.bind
        (ItemSession.bindResponses_advances responses)
        fun _ => Moves.pure _
  | processResponses =>
      exact ItemSession.processResponses_advances
  | submit responses now =>
      exact Moves.bind
        (ItemSession.submit_advances responses now)
        fun _ => Moves.pure _
  | skip now => exact ItemSession.skip_advances now
  | timeOut now => exact ItemSession.timeOut_advances now
  | finish now => exact ItemSession.finish_advances now
  | exit now => exact ItemSession.exit_advances now

namespace ItemSession

/- A run carries the life of a session on. -/
theorem after_advances
    (s : ItemSession)
    (calls : List ItemCall) :
    s.Advances (s.after calls) :=
  after_moves ItemCall.advances s calls

/-
  In every state that calls lead to, however they are ordered
  and whether they fail or not, the flags, the times and the
  clock agree. Once a session is finished it stays finished,
  and its life goes one way.
-/
theorem life_of_calls
    (item : Item)
    (engine : Engine)
    (draws : Draws)
    (control : Control)
    (timeLimits : Option TimeLimits)
    (submission : SubmissionMode)
    (earlier later : List ItemCall) :
    let first :=
      fresh item engine draws control timeLimits submission
    let s := (first.after earlier).state
    let t := ((first.after earlier).after later).state
    s.Coherent ∧
      (s.finished = true → t.finished = true) ∧
      s.phase.LeadsTo t.phase := by
  intro first s t
  have hReached : s.Coherent :=
    (after_advances first earlier
      ItemState.coherent_default).coherent
  have hProgress : s.Progress t :=
    after_advances (first.after earlier) later hReached
  exact ⟨hReached, hProgress.finished, hProgress.phase⟩

end ItemSession

end Assessment
