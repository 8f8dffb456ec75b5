import Assessment.Item.Session
import Assessment.Proofs.Stateful

/-
  What each step of an item session comes to, and runs of a
  session.

  A step is refused and leaves the session as it was, or it
  goes through and changes the state in one way. The laws
  below say when it does which, so that no later proof looks
  into a step.

  A run is a list of calls, each with its own arguments and
  its own time. A call that fails leaves what it has done, and
  the run goes on.

  Main declarations:
    * `ItemState.entered`, `putAside`, `takenUp`, `touched`
      and `closed`, the changes that steps make
    * `ends_enter`, `ends_finish` and their companions
    * `ends_announced` and `ends_runRules`, the frame that
      processing runs in
    * `enter_moves`, `finish_moves` and their companions, for
      relations that the changes obey
    * `processResponses_moves` and `initialise_moves`
    * `submit_moves`, from the parts of a submission to the
      whole
    * `ItemCall`, with the step it takes
    * `ItemSession.fresh`, a session before its first call
    * `ItemSession.after`, a session after calls in a row
-/

------------------------------------------------------------
-- Changes of State
------------------------------------------------------------

namespace Assessment

open Stateful

namespace ItemState

/- The state once the item has been presented. -/
def entered (now : Instant) (s : ItemState) : ItemState :=
  { s with
    entryTime := some now
    presented := true
    timer := s.timer.start now
    values := s.values.put Builtin.completionStatus
      (.identifier Builtin.unknown) }

/- The state once the session has been put aside. -/
def putAside (now : Instant) (s : ItemState) : ItemState :=
  { s with timer := s.timer.stop now
           suspended := true }.syncDuration

/- The state once the session has been taken up again. -/
def takenUp (now : Instant) (s : ItemState) : ItemState :=
  { s with suspended := false
           timer := s.timer.start now }

/- The state with the time spent up to date. -/
def touched (now : Instant) (s : ItemState) : ItemState :=
  { s with timer := s.timer.touch now }.syncDuration

/- The state once the session has been closed. -/
def closed (now : Instant) (s : ItemState) : ItemState :=
  { s with
    timer := s.timer.stop now
    suspended := false
    finished := true
    endTime := some now }.syncDuration

end ItemState

namespace ItemSession

variable {α : Type}

/- The session with responses bound, before they are judged. -/
def bound (s : ItemSession) (responses : Responses) :
    ItemSession :=
  let b := bindEach s.item
    (clearControls s.item s.state.values) responses
  { s with state := {
      s.state with
      values := b.1
      responded := s.state.responded || !responses.isEmpty
      pending := true
      unbound := b.2 } }

/- The session with its invalid responses found out. -/
def judged (s : ItemSession) : ItemSession :=
  { s with state := {
      s.state with invalid := s.invalidResponses } }

------------------------------------------------------------
-- Parts of Steps
------------------------------------------------------------

@[simp] theorem ends_changeState
    (f : ItemState → ItemState)
    (s : ItemSession)
    (Q : Except Failure Unit → ItemSession → Prop) :
    Ends (changeState f) s Q ↔
      Q (.ok ()) { s with state := f s.state } :=
  Iff.rfl

@[simp] theorem ends_getState
    (s : ItemSession)
    (Q : Except Failure ItemState → ItemSession → Prop) :
    Ends getState s Q ↔ Q (.ok s.state) s :=
  Iff.rfl

@[simp] theorem ends_refuse
    (cause : Refusal)
    (s : ItemSession)
    (Q : Except Failure α → ItemSession → Prop) :
    Ends (refuse cause : Action α) s Q ↔
      Q (.error (.refused cause)) s :=
  Iff.rfl

/- An activity runs between its two events. -/
theorem ends_announced
    (activity : Activity)
    (x : Action α)
    (s : ItemSession)
    (Q : Except Failure α → ItemSession → Prop) :
    Ends (announced activity x) s Q ↔
      Ends x { s with events := s.events ++ [.starting activity] }
        fun r t =>
          Q r
            { t with events := t.events ++ [.finished activity] } :=
  Iff.rfl

/- Rules run over the variables, which are then taken over. -/
theorem ends_runRules
    (x : Run α)
    (s : ItemSession)
    (Q : Except Failure α → ItemSession → Prop) :
    Ends (runRules x) s Q ↔
      Ends x ⟨s.scope, s.tally⟩ fun r stage =>
        Q r (s.takeOver stage) :=
  Iff.rfl

theorem ends_ensureInitialized
    (s : ItemSession)
    (Q : Except Failure Unit → ItemSession → Prop) :
    Ends ensureInitialized s Q ↔
      if s.state.initialized then Q (.ok ()) s
      else Q (.error .notInitialized) s := by
  simp [ensureInitialized]

theorem ends_ensureOpen
    (s : ItemSession)
    (Q : Except Failure Unit → ItemSession → Prop) :
    Ends ensureOpen s Q ↔
      if s.state.initialized then
        if s.state.finished then
          Q (.error (.refused (.itemFinished s.item.identifier)))
            s
        else Q (.ok ()) s
      else Q (.error .notInitialized) s := by
  simp [ensureOpen, ends_ensureInitialized]

------------------------------------------------------------
-- Steps of a Life
------------------------------------------------------------

theorem ends_enter
    (now : Instant)
    (s : ItemSession)
    (Q : Except Failure Unit → ItemSession → Prop) :
    Ends (enter now) s Q ↔
      if s.state.initialized then
        if s.state.finished then
          Q (.error (.refused (.itemFinished s.item.identifier)))
            s
        else if s.state.entryTime.isSome then
          Q (.error (.refused (.itemEntered s.item.identifier)))
            s
        else Q (.ok ()) { s with state := s.state.entered now }
      else Q (.error .notInitialized) s := by
  simp [enter, ends_ensureOpen, ItemState.entered]

theorem ends_suspend
    (now : Instant)
    (s : ItemSession)
    (Q : Except Failure Unit → ItemSession → Prop) :
    Ends (suspend now) s Q ↔
      if s.state.initialized then
        if s.state.phase = .interacting then
          Q (.ok ()) { s with state := s.state.putAside now }
        else
          Q (.error (.refused (.cannotSuspend s.state.phase))) s
      else Q (.error .notInitialized) s := by
  simp [suspend, ends_ensureInitialized, ItemState.putAside]

theorem ends_resume
    (now : Instant)
    (s : ItemSession)
    (Q : Except Failure Unit → ItemSession → Prop) :
    Ends (resume now) s Q ↔
      if s.state.initialized then
        if s.state.phase = .suspended then
          Q (.ok ()) { s with state := s.state.takenUp now }
        else
          Q (.error (.refused (.cannotResume s.state.phase))) s
      else Q (.error .notInitialized) s := by
  simp [resume, ends_ensureInitialized, ItemState.takenUp]

@[simp] theorem ends_touch
    (now : Instant)
    (s : ItemSession)
    (Q : Except Failure Unit → ItemSession → Prop) :
    Ends (touch now) s Q ↔
      Q (.ok ()) { s with state := s.state.touched now } :=
  Iff.rfl

theorem ends_finish
    (now : Instant)
    (s : ItemSession)
    (Q : Except Failure Unit → ItemSession → Prop) :
    Ends (finish now) s Q ↔
      if s.state.initialized then
        if s.state.finished then
          Q (.error (.refused (.itemFinished s.item.identifier)))
            s
        else Q (.ok ()) { s with state := s.state.closed now }
      else Q (.error .notInitialized) s := by
  simp [finish, ends_ensureOpen, ItemState.closed]

theorem ends_exit
    (now : Instant)
    (s : ItemSession)
    (Q : Except Failure Unit → ItemSession → Prop) :
    Ends (exit now) s Q ↔
      if s.state.initialized then
        if s.state.finished then
          Q (.ok ()) { s with state := {
            s.state with exited := true } }
        else
          Q (.ok ()) { s with state := {
            s.state.closed now with exited := true } }
      else Q (.error .notInitialized) s := by
  by_cases hInit : s.state.initialized
  · by_cases hFin : s.state.finished <;>
      simp [exit, ends_ensureInitialized, ends_finish, hInit,
        hFin]
  · simp [exit, ends_ensureInitialized, hInit]

theorem ends_skip
    (now : Instant)
    (s : ItemSession)
    (Q : Except Failure Unit → ItemSession → Prop) :
    Ends (skip now) s Q ↔
      if s.state.initialized then
        if s.state.finished then
          Q (.error (.refused (.itemFinished s.item.identifier)))
            s
        else if !s.control.allowsSkipping then
          Q (.error (.refused (.noSkipping s.item.identifier))) s
        else if s.state.responded then
          Q (.error
            (.refused (.alreadyResponded s.item.identifier))) s
        else
          Q (.ok ()) { s with state :=
            { s.state with skipped := true }.closed now }
      else Q (.error .notInitialized) s := by
  by_cases hInit : s.state.initialized
  · by_cases hFin : s.state.finished <;>
      simp [skip, ends_ensureOpen, ends_finish, hInit, hFin]
  · simp [skip, ends_ensureOpen, hInit]

theorem ends_timeOut
    (now : Instant)
    (s : ItemSession)
    (Q : Except Failure Unit → ItemSession → Prop) :
    Ends (timeOut now) s Q ↔
      if s.state.initialized then
        if s.state.finished then
          Q (.error (.refused (.itemFinished s.item.identifier)))
            s
        else
          Q (.ok ()) { s with state :=
            { s.state with timedOut := true }.closed now }
      else Q (.error .notInitialized) s := by
  by_cases hInit : s.state.initialized
  · by_cases hFin : s.state.finished <;>
      simp [timeOut, ends_ensureOpen, ends_finish, hInit, hFin]
  · simp [timeOut, ends_ensureOpen, hInit]

------------------------------------------------------------
-- Responses
------------------------------------------------------------

theorem ends_bindResponses
    (responses : Responses)
    (s : ItemSession)
    (Q : Except Failure (List String) → ItemSession → Prop) :
    Ends (bindResponses responses) s Q ↔
      if s.state.initialized then
        if s.state.finished then
          Q (.error (.refused (.itemFinished s.item.identifier)))
            s
        else
          Q (.ok (s.bound responses).state.unbound)
            (s.bound responses).judged
      else Q (.error .notInitialized) s := by
  simp [bindResponses, ends_ensureOpen, bound, judged]

------------------------------------------------------------
-- Steps in a Row
------------------------------------------------------------

variable {R : ItemSession → ItemSession → Prop}
variable [Std.Refl R]

theorem ensureInitialized_moves :
    Moves R ensureInitialized := by
  intro s
  rw [ends_ensureInitialized]
  split <;> exact Std.Refl.refl (r := R) s

theorem ensureOpen_moves : Moves R ensureOpen := by
  intro s
  rw [ends_ensureOpen]
  split
  · split <;> exact Std.Refl.refl (r := R) s
  · exact Std.Refl.refl (r := R) s

theorem getState_moves : Moves R getState := by
  intro s
  rw [ends_getState]
  exact Std.Refl.refl (r := R) s

/-
  Where a step of a life goes through, it makes one change,
  and any relation that the change obeys then is obeyed.
-/
section Life

variable {now : Instant}

theorem enter_moves
    (hEnter :
      ∀ s : ItemSession, s.state.initialized = true →
        s.state.finished = false → s.state.entryTime = none →
          R s { s with state := s.state.entered now }) :
    Moves R (enter now) := by
  intro s
  rw [ends_enter]
  split
  next hInit =>
    split
    next => exact Std.Refl.refl (r := R) s
    next hOpen =>
      split
      next => exact Std.Refl.refl (r := R) s
      next hFirst =>
        exact hEnter s hInit (by simpa using hOpen)
          (by simpa using hFirst)
  next => exact Std.Refl.refl (r := R) s

theorem suspend_moves
    (hSuspend :
      ∀ s : ItemSession, s.state.initialized = true →
        s.state.phase = .interacting →
          R s { s with state := s.state.putAside now }) :
    Moves R (suspend now) := by
  intro s
  rw [ends_suspend]
  split
  next hInit =>
    split
    next hPhase => exact hSuspend s hInit hPhase
    next => exact Std.Refl.refl (r := R) s
  next => exact Std.Refl.refl (r := R) s

theorem resume_moves
    (hResume :
      ∀ s : ItemSession, s.state.initialized = true →
        s.state.phase = .suspended →
          R s { s with state := s.state.takenUp now }) :
    Moves R (resume now) := by
  intro s
  rw [ends_resume]
  split
  next hInit =>
    split
    next hPhase => exact hResume s hInit hPhase
    next => exact Std.Refl.refl (r := R) s
  next => exact Std.Refl.refl (r := R) s

theorem finish_moves
    (hClose :
      ∀ s : ItemSession, s.state.initialized = true →
        s.state.finished = false →
          R s { s with state := s.state.closed now }) :
    Moves R (finish now) := by
  intro s
  rw [ends_finish]
  split
  next hInit =>
    split
    next => exact Std.Refl.refl (r := R) s
    next hOpen => exact hClose s hInit (by simpa using hOpen)
  next => exact Std.Refl.refl (r := R) s

theorem exit_moves
    (hLeave :
      ∀ s : ItemSession, s.state.initialized = true →
        s.state.finished = true →
          R s { s with state := {
            s.state with exited := true } })
    (hClose :
      ∀ s : ItemSession, s.state.initialized = true →
        s.state.finished = false →
          R s { s with state := {
            s.state.closed now with exited := true } }) :
    Moves R (exit now) := by
  intro s
  rw [ends_exit]
  split
  next hInit =>
    split
    next hFinished => exact hLeave s hInit hFinished
    next hOpen => exact hClose s hInit (by simpa using hOpen)
  next => exact Std.Refl.refl (r := R) s

theorem skip_moves
    (hSkip :
      ∀ s : ItemSession, s.state.initialized = true →
        s.state.finished = false →
          s.control.allowsSkipping = true →
            s.state.responded = false →
              R s { s with state :=
                { s.state with skipped := true }.closed now }) :
    Moves R (skip now) := by
  intro s
  rw [ends_skip]
  split
  next hInit =>
    split
    next => exact Std.Refl.refl (r := R) s
    next hOpen =>
      split
      next => exact Std.Refl.refl (r := R) s
      next hAllowed =>
        split
        next => exact Std.Refl.refl (r := R) s
        next hNone =>
          exact hSkip s hInit (by simpa using hOpen)
            (by simpa using hAllowed) (by simpa using hNone)
  next => exact Std.Refl.refl (r := R) s

theorem timeOut_moves
    (hTimeOut :
      ∀ s : ItemSession, s.state.initialized = true →
        s.state.finished = false →
          R s { s with state :=
            { s.state with timedOut := true }.closed now }) :
    Moves R (timeOut now) := by
  intro s
  rw [ends_timeOut]
  split
  next hInit =>
    split
    next => exact Std.Refl.refl (r := R) s
    next hOpen =>
      exact hTimeOut s hInit (by simpa using hOpen)
  next => exact Std.Refl.refl (r := R) s

theorem bindResponses_moves
    {responses : Responses}
    (hBind :
      ∀ s : ItemSession, s.state.initialized = true →
        s.state.finished = false →
          R s (s.bound responses).judged) :
    Moves R (bindResponses responses) := by
  intro s
  rw [ends_bindResponses]
  split
  next hInit =>
    split
    next => exact Std.Refl.refl (r := R) s
    next hOpen => exact hBind s hInit (by simpa using hOpen)
  next => exact Std.Refl.refl (r := R) s

end Life

variable [IsTrans ItemSession R]

omit [Std.Refl R] in
/- Announcing does no more than the activity itself. -/
theorem announced_moves
    (activity : Activity)
    {x : Action α}
    (hEvents : ∀ s events, R s { s with events := events })
    (hMoves : Moves R x) :
    Moves R (announced activity x) := by
  intro s
  rw [ends_announced]
  refine (hMoves _).mono fun _ t hMove => ?_
  have hStart := hEvents s (s.events ++ [.starting activity])
  have hEnd := hEvents t (t.events ++ [.finished activity])
  exact IsTrans.trans _ _ _ hStart
    (IsTrans.trans _ _ _ hMove hEnd)

section Announced

/- What happens inside may obey a relation of its own. -/
variable {S : ItemSession → ItemSession → Prop}
variable [Std.Refl S]
variable [IsTrans ItemSession S]

omit [Std.Refl S] in
theorem initialise_moves
    {defaults : List TemplateDefault}
    (hAnnounced :
      ∀ {x : Action Unit}, Moves S x →
        Moves R (announced .itemInitialisation x))
    (hPrepare :
      ∀ s : ItemSession,
        Ends (runRules (prepare s.engine s.item defaults)) s
          fun _ t => S s t)
    (hReady :
      Moves S (changeState fun s =>
        { s with initialized := true })) :
    Moves R (initialise defaults) := by
  refine Moves.bind getState_moves fun _ => ?_
  refine Moves.ite_bind (Moves.throw _) fun _ => ?_
  refine hAnnounced fun s => ?_
  rw [ends_get_bind]
  exact Ends.bind (hPrepare s) fun _ t _ => hReady t

/-
  The rules that respond are those of the item that processing
  began with, whether the attempt counts or not.
-/
theorem processResponses_moves
    (hAnnounced :
      ∀ {x : Action Unit}, Moves S x →
        Moves R (announced .itemResponseProcessing x))
    (hCount :
      Moves S (changeState fun s =>
        s.bind Builtin.numAttempts (.integer (s.attempts + 1))))
    (hRespond :
      ∀ s t, S s t →
        Ends (runRules (respond s.engine s.item)) t
          fun _ u => S t u)
    (hDone :
      Moves S (changeState fun s =>
        { s with pending := false })) :
    Moves R processResponses := by
  refine Moves.bind ensureInitialized_moves fun _ => ?_
  refine hAnnounced fun s => ?_
  have hRest : ∀ t, S s t →
      Ends (do
        runRules (respond s.engine s.item)
        changeState fun s => { s with pending := false }) t
        fun _ u => S t u :=
    fun t hStart =>
      Ends.bind (hRespond s t hStart) fun _ u _ => hDone u
  rw [ends_get_bind]
  dsimp only
  split
  · exact Ends.bind (hCount s) fun _ t hCounted =>
      hRest t hCounted
  · exact hRest s (Std.Refl.refl (r := S) s)

end Announced

/- What submitting is made of obeys a relation. -/
structure PartsMove (R : ItemSession → ItemSession → Prop) :
    Prop where
  touch : ∀ now, Moves R (touch now)
  timeOut : ∀ now, Moves R (timeOut now)
  finish : ∀ now, Moves R (finish now)
  bindResponses :
    ∀ responses, Moves R (bindResponses responses)
  processResponses : Moves R processResponses

theorem submit_moves
    (hParts : PartsMove R)
    (responses : Responses)
    (now : Instant) :
    Moves R (submit responses now) := by
  refine Moves.bind ensureOpen_moves fun _ => ?_
  refine Moves.bind Moves.get fun s => ?_
  extract_lets checked attempt
  refine Moves.ite_bind (Moves.throw _) fun _ => ?_
  refine Moves.ite_bind_else (Moves.throw _) fun _ => ?_
  refine Moves.bind (hParts.touch now) fun _ => ?_
  refine Moves.bind Moves.get fun s => ?_
  refine Moves.ite ?_ ?_
  · exact Moves.bind (hParts.timeOut now) fun _ =>
      Moves.pure _
  · refine Moves.bind (hParts.bindResponses responses)
      fun unbound => ?_
    refine Moves.bind Moves.get fun s => ?_
    refine Moves.ite (Moves.pure _) ?_
    refine Moves.bind hParts.processResponses fun _ => ?_
    refine Moves.bind Moves.get fun s => ?_
    exact Moves.ite_bind (hParts.finish now) fun _ =>
      Moves.pure _

theorem processPending_moves
    (hProcess : Moves R processResponses) :
    Moves R processPending :=
  Moves.bind getState_moves fun _ =>
    Moves.ite
      (Moves.bind hProcess fun _ => Moves.pure _)
      (Moves.pure _)

end ItemSession

------------------------------------------------------------
-- Calls
------------------------------------------------------------

/- A call to an item session with its arguments. -/
inductive ItemCall where
  | initialise (defaults : List TemplateDefault)
  | enter (now : Instant)
  | suspend (now : Instant)
  | resume (now : Instant)
  | touch (now : Instant)
  | bindResponses (responses : ItemSession.Responses)
  | processResponses
  | submit (responses : ItemSession.Responses) (now : Instant)
  | skip (now : Instant)
  | timeOut (now : Instant)
  | finish (now : Instant)
  | exit (now : Instant)

namespace ItemCall

/- The step that a call takes, without what it gives back. -/
def action : ItemCall → Action Unit
  | initialise defaults => ItemSession.initialise defaults
  | enter now => ItemSession.enter now
  | suspend now => ItemSession.suspend now
  | resume now => ItemSession.resume now
  | touch now => ItemSession.touch now
  | bindResponses responses =>
      discard (ItemSession.bindResponses responses)
  | processResponses => ItemSession.processResponses
  | submit responses now =>
      discard (ItemSession.submit responses now)
  | skip now => ItemSession.skip now
  | timeOut now => ItemSession.timeOut now
  | finish now => ItemSession.finish now
  | exit now => ItemSession.exit now

end ItemCall

------------------------------------------------------------
-- Runs
------------------------------------------------------------

namespace ItemSession

/- A session before its first call. -/
def fresh
    (item : Item)
    (engine : Engine)
    (draws : Draws)
    (control : Control)
    (timeLimits : Option TimeLimits)
    (submission : SubmissionMode) :
    ItemSession :=
  { new item engine draws with
    control := control
    timeLimits := timeLimits
    submission := submission }

/- The session after calls in a row. -/
def after (s : ItemSession) (calls : List ItemCall) :
    ItemSession :=
  Stateful.after ItemCall.action s calls

end ItemSession

end Assessment
