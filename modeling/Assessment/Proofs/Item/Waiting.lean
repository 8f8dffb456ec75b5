import Assessment.Proofs.Item.Processing
import Assessment.Proofs.Item.Setup

/-
  Responses that wait to be processed.

  In a simultaneous part, a submission binds its responses and
  leaves them waiting. They wait while the clock of the
  session goes on, and also when their processing breaks off.
  In the end they have been processed once and the session has
  been closed, or the session was closed for lack of time and
  they are left waiting for good.

  Main declarations:
    * `ItemSession.Rests`, the clock alone has gone on
    * `ItemSession.Holds`, responses that wait
    * `ItemSession.Fate`, what becomes of them
    * `ends_submit_waiting`, the law of a submission
-/

------------------------------------------------------------
-- Resting
------------------------------------------------------------

namespace Assessment

open Stateful

/- All responses are bound and wait in an open session. -/
structure ItemState.IsWaiting (s : ItemState) : Prop where
  initialized : s.initialized = true
  entered : s.entryTime.isSome = true
  finished : s.finished = false
  timedOut : s.timedOut = false
  pending : s.pending = true
  unbound : s.unbound = []

namespace ItemSession

/-
  The clock of a session has gone on, it has been put aside or
  taken up, and its events have been taken over. All variables
  but the time spent are bound to what they were.
-/
def Rests (s t : ItemSession) : Prop :=
  ∃ timer suspended values events,
    t =
      { s with
        events := events
        state := {
          s.state with
          timer := timer
          suspended := suspended
          values := values } } ∧
    ∀ name, name ≠ Builtin.duration →
      values.get? name = s.state.values.get? name

instance : Std.Refl Rests where
  refl _ := ⟨_, _, _, _, rfl, fun _ _ => rfl⟩

instance : IsTrans ItemSession Rests where
  trans _ _ _ hFirst hThen := by
    rcases hFirst with ⟨_, _, _, _, rfl, hSame⟩
    rcases hThen with ⟨_, _, _, _, rfl, hSame'⟩
    refine ⟨_, _, _, _, rfl, fun name hOther => ?_⟩
    exact (hSame' name hOther).trans (hSame name hOther)

theorem rests_events (s : ItemSession) (events : List Event) :
    s.Rests { s with events := events } :=
  ⟨_, _, _, _, rfl, fun _ _ => rfl⟩

/- The time spent may be bound. -/
theorem rests_syncDuration
    (s : ItemSession)
    (timer : Timer)
    (suspended : Bool) :
    s.Rests { s with state :=
      { s.state with
        timer := timer
        suspended := suspended }.syncDuration } := by
  refine ⟨_, _, _, _, rfl, fun name hOther => ?_⟩
  exact Keyed.get?_put_of_ne hOther _ _

theorem Rests.isWaiting
    {s t : ItemSession}
    (hRests : s.Rests t)
    (hWaiting : s.state.IsWaiting) :
    t.state.IsWaiting := by
  rcases hRests with ⟨_, _, _, _, rfl, _⟩
  exact ⟨hWaiting.initialized, hWaiting.entered,
    hWaiting.finished, hWaiting.timedOut, hWaiting.pending,
    hWaiting.unbound⟩

theorem touch_rests (now : Instant) :
    Moves Rests (touch now) := by
  intro s
  rw [ends_touch]
  exact rests_syncDuration s _ _

theorem suspend_rests (now : Instant) :
    Moves Rests (suspend now) :=
  suspend_moves fun s _ _ => rests_syncDuration s _ _

theorem resume_rests (now : Instant) :
    Moves Rests (resume now) :=
  resume_moves fun _ _ _ => ⟨_, _, _, _, rfl, fun _ _ => rfl⟩

------------------------------------------------------------
-- Processing
------------------------------------------------------------

/-
  Processing settles responses that wait if it goes through,
  and lets them wait on if it breaks off.
-/
theorem ends_processResponses_waiting
    {s : ItemSession}
    (hWaiting : s.state.IsWaiting) :
    Ends processResponses s fun r t =>
      t.state.finished = false ∧
        t.state.initialized = true ∧
        t.state.timedOut = false ∧
        (r.isOk = true → t.state.pending = false) ∧
        (r.isOk = false → t.state.IsWaiting) := by
  have hRules : ∀ u : ItemSession, u.state.IsWaiting →
      Ends
        (do
          runRules (respond s.engine s.item)
          changeState fun x => { x with pending := false }) u
        fun r t =>
          t.state.finished = false ∧
            t.state.initialized = true ∧
            t.state.timedOut = false ∧
            (r.isOk = true → t.state.pending = false) ∧
            (r.isOk = false → t.state.IsWaiting) := by
    intro u hStill
    rw [ends_bind, ends_runRules]
    refine Ends.of_forall fun r stage => ?_
    have hLater : (u.takeOver stage).state.IsWaiting :=
      ⟨hStill.initialized, hStill.entered, hStill.finished,
        hStill.timedOut, hStill.pending, hStill.unbound⟩
    cases r with
    | error =>
        exact ⟨hLater.finished, hLater.initialized,
          hLater.timedOut, fun hOk => (by cases hOk),
          fun _ => hLater⟩
    | ok =>
        exact ⟨hLater.finished, hLater.initialized,
          hLater.timedOut, fun _ => rfl,
          fun hFailed => (by cases hFailed)⟩
  rw [processResponses, ends_bind, ends_ensureInitialized,
    if_pos hWaiting.initialized]
  dsimp only
  rw [ends_announced, ends_get_bind]
  dsimp only
  rw [ends_ite]
  split
  · rw [ends_bind, ends_changeState]
    exact hRules _ ⟨hWaiting.initialized, hWaiting.entered,
      hWaiting.finished, hWaiting.timedOut, hWaiting.pending,
      hWaiting.unbound⟩
  · exact hRules _ hWaiting

/-
  Sessions that hold what was bound in a first one. Their
  clocks have gone on, and unless the run is known to be
  clean, processing may have broken off.
-/
inductive Holds (clean : Prop) (first : ItemSession) :
    ItemSession → Prop
  where
  | bound : Holds clean first first
  | rests
      {s t : ItemSession}
      (hHolds : Holds clean first s)
      (hRests : s.Rests t) :
      Holds clean first t
  | brokeOff
      {s t : ItemSession}
      {failure : Failure}
      (hBroken : ¬ clean)
      (hHolds : Holds clean first s)
      (hRun : Stateful.run processResponses s =
        (.error failure, t)) :
      Holds clean first t

variable {clean : Prop}
variable {first : ItemSession}

/- What is held still waits. -/
theorem Holds.isWaiting
    {s : ItemSession}
    (hHolds : Holds clean first s)
    (hFirst : first.state.IsWaiting) :
    s.state.IsWaiting := by
  induction hHolds with
  | bound => exact hFirst
  | rests _ hRests ih => exact hRests.isWaiting ih
  | brokeOff _ _ hRun ih =>
      have hEnds := ends_processResponses_waiting ih
      unfold Ends at hEnds
      rw [hRun] at hEnds
      exact hEnds.2.2.2.2 rfl

/- What was held has been processed once, and closed then. -/
def ProcessedOnce (clean : Prop) (first t : ItemSession) :
    Prop :=
  ∃ s u now, Holds clean first s ∧
    Stateful.run processResponses s = (.ok (), u) ∧
    Rests { u with state := u.state.closed now } t

/- The session was closed in time-out while it held on. -/
def LeftWaiting (clean : Prop) (first t : ItemSession) :
    Prop :=
  ∃ s now, Holds clean first s ∧
    Rests
      { s with state :=
        { s.state with timedOut := true }.closed now } t

variable {late : Prop}

/-
  What has become of responses that were bound. They are left
  only if a submission is known to have come too late.
-/
inductive Fate (clean late : Prop) (first t : ItemSession) :
    Prop where
  | held (hHolds : Holds clean first t)
  | processed (hProcessed : ProcessedOnce clean first t)
  | left (hLate : late) (hLeft : LeftWaiting clean first t)

/- A session that has been processed is closed and settled. -/
theorem ProcessedOnce.settled
    {t : ItemSession}
    (hProcessed : ProcessedOnce clean first t)
    (hFirst : first.state.IsWaiting) :
    t.state.initialized = true ∧ t.state.finished = true ∧
      t.state.timedOut = false ∧ t.state.pending = false := by
  rcases hProcessed with ⟨s, u, now, hHolds, hRun, hRests⟩
  have hEnds :=
    ends_processResponses_waiting (hHolds.isWaiting hFirst)
  unfold Ends at hEnds
  rw [hRun] at hEnds
  rcases hEnds with ⟨_, hInit, hTimely, hSettled, _⟩
  rcases hRests with ⟨_, _, _, _, rfl, _⟩
  exact ⟨hInit, rfl, hTimely, hSettled rfl⟩

/- A session closed in time-out has its responses waiting. -/
theorem LeftWaiting.unsettled
    {t : ItemSession}
    (hLeft : LeftWaiting clean first t)
    (hFirst : first.state.IsWaiting) :
    t.state.initialized = true ∧ t.state.finished = true ∧
      t.state.timedOut = true ∧ t.state.pending = true := by
  rcases hLeft with ⟨s, now, hHolds, hRests⟩
  have hWaiting := hHolds.isWaiting hFirst
  rcases hRests with ⟨_, _, _, _, rfl, _⟩
  exact ⟨hWaiting.initialized, rfl, rfl, hWaiting.pending⟩

------------------------------------------------------------
-- Steps
------------------------------------------------------------

/- Responses that were bound have the fate of such. -/
def KeepsFate
    (clean late : Prop)
    (first s t : ItemSession) :
    Prop :=
  Fate clean late first s → Fate clean late first t

instance : Std.Refl (KeepsFate clean late first) where
  refl _ := id

instance : IsTrans ItemSession (KeepsFate clean late first) where
  trans _ _ _ hFirst hThen := hThen ∘ hFirst

theorem Rests.keepsFate
    {s t : ItemSession}
    (hRests : s.Rests t) :
    KeepsFate clean late first s t := by
  rintro (hHolds | ⟨a, b, now, hHolds, hRun, hSame⟩ |
    ⟨hLate, a, now, hHolds, hSame⟩)
  · exact .held (.rests hHolds hRests)
  · exact .processed ⟨a, b, now, hHolds, hRun,
      IsTrans.trans _ _ _ hSame hRests⟩
  · exact .left hLate ⟨a, now, hHolds,
      IsTrans.trans _ _ _ hSame hRests⟩

/- A session is closed once its responses wait no more. -/
theorem Fate.cases
    {s : ItemSession}
    (hFate : Fate clean late first s)
    (hFirst : first.state.IsWaiting) :
    s.state.initialized = true ∧
      ((Holds clean first s ∧ s.state.IsWaiting) ∨
        s.state.finished = true) := by
  rcases hFate with hHolds | hProcessed | ⟨_, hLeft⟩
  · have hWaiting := hHolds.isWaiting hFirst
    exact ⟨hWaiting.initialized, Or.inl ⟨hHolds, hWaiting⟩⟩
  · have hSettled := hProcessed.settled hFirst
    exact ⟨hSettled.1, Or.inr hSettled.2.1⟩
  · have hUnsettled := hLeft.unsettled hFirst
    exact ⟨hUnsettled.1, Or.inr hUnsettled.2.1⟩

/- A closed session was processed, or left in time-out. -/
theorem Fate.of_finished
    {s : ItemSession}
    (hFate : Fate clean late first s)
    (hFirst : first.state.IsWaiting)
    (hFinished : s.state.finished = true) :
    (ProcessedOnce clean first s ∧
        s.state.timedOut = false ∧ s.state.pending = false) ∨
      (late ∧ LeftWaiting clean first s ∧
        s.state.timedOut = true ∧ s.state.pending = true) := by
  rcases hFate with hHolds | hProcessed | ⟨hLate, hLeft⟩
  · have hOpen := (hHolds.isWaiting hFirst).finished
    rw [hFinished] at hOpen
    cases hOpen
  · exact Or.inl ⟨hProcessed, (hProcessed.settled hFirst).2.2⟩
  · exact Or.inr ⟨hLate, hLeft, (hLeft.unsettled hFirst).2.2⟩

theorem touch_keepsFate (now : Instant) :
    Moves (KeepsFate clean late first) (touch now) :=
  (touch_rests now).mono fun _ _ => Rests.keepsFate

theorem suspend_keepsFate (now : Instant) :
    Moves (KeepsFate clean late first) (suspend now) :=
  (suspend_rests now).mono fun _ _ => Rests.keepsFate

theorem resume_keepsFate (now : Instant) :
    Moves (KeepsFate clean late first) (resume now) :=
  (resume_rests now).mono fun _ _ => Rests.keepsFate

/- A session that was initialized is not initialized again. -/
theorem initialise_keepsFate
    (hFirst : first.state.IsWaiting)
    (defaults : List TemplateDefault) :
    Moves (KeepsFate clean late first)
      (initialise defaults) := by
  intro s
  by_cases hInit : s.state.initialized = true
  · rw [initialise, ends_bind, ends_getState]
    dsimp only
    rw [ends_ite, if_pos hInit, ends_bind, ends_throw]
    exact id
  · exact Ends.of_forall fun _ _ hFate =>
      absurd (hFate.cases hFirst).1 hInit

/- Nor is it entered again. -/
theorem enter_keepsFate
    (hFirst : first.state.IsWaiting)
    (now : Instant) :
    Moves (KeepsFate clean late first) (enter now) := by
  refine enter_moves fun s _ hOpen hNew hFate => ?_
  rcases (hFate.cases hFirst).2 with
    ⟨_, hWaiting⟩ | hFinished
  · have hEntered := hWaiting.entered
    rw [hNew] at hEntered
    cases hEntered
  · rw [hOpen] at hFinished
    cases hFinished

/- In time-out, responses are left waiting. -/
theorem ends_timeOut_keepsFate
    (hFirst : first.state.IsWaiting)
    (now : Instant)
    (s : ItemSession) :
    Ends (timeOut now) s fun r t =>
      (r.isOk = true → late) →
        KeepsFate clean late first s t := by
  rw [ends_timeOut]
  split
  · split
    next => exact fun _ => id
    next hOpen =>
      intro hLate hFate
      rcases (hFate.cases hFirst).2 with
        ⟨hHolds, _⟩ | hFinished
      · exact .left (hLate rfl) ⟨s, now, hHolds,
          Std.Refl.refl (r := Rests) _⟩
      · exact absurd hFinished hOpen
  · exact fun _ => id

/-
  Where responses still wait, they are processed before the
  session is closed.
-/
theorem ends_processPending_waiting
    {s : ItemSession}
    (hWaiting : s.state.IsWaiting)
    {β : Type}
    (f : Bool → Action β)
    (Q : Except Failure β → ItemSession → Prop) :
    Ends (processPending >>= f) s Q ↔
      Ends (processResponses >>= fun _ => f true) s Q := by
  have hWaits :
      (s.state.pending && s.state.unbound.isEmpty) = true := by
    rw [hWaiting.pending, hWaiting.unbound]
    rfl
  rw [ends_bind, processPending, ends_bind, ends_getState]
  dsimp only
  rw [ends_ite, if_pos hWaits, ends_bind, ends_bind]
  rfl

/- At the end, responses that wait are processed. -/
theorem ends_settle_keepsFate
    {s : ItemSession}
    (hFirst : first.state.IsWaiting)
    (hHolds : Holds clean first s)
    (now : Instant) :
    Ends
      (do
        processResponses
        finish now
        return true) s fun r t =>
      (clean → r.isOk = true) → Fate clean late first t := by
  have hWaiting := hHolds.isWaiting hFirst
  have hProcessed := ends_processResponses_waiting hWaiting
  rw [ends_bind]
  unfold Ends at hProcessed ⊢
  rcases hRun : Stateful.run processResponses s with ⟨r, t⟩
  rw [hRun] at hProcessed
  rcases hProcessed with ⟨hOpen, hInit, _⟩
  -- Responses wait on if processing breaks off, so that the
  -- next end of the part finds them again.
  cases r with
  | error =>
      intro hClean
      refine .held (.brokeOff (fun h => ?_) hHolds hRun)
      cases hClean h
  | ok =>
      change t.state.finished = false at hOpen
      have hFinish :
          Ends (finish now) t fun _ u =>
            Fate clean late first u := by
        rw [ends_finish, if_pos hInit, if_neg (by simp [hOpen])]
        exact .processed ⟨s, t, now, hHolds, hRun,
          Std.Refl.refl (r := Rests) _⟩
      change Ends (finish now >>= fun _ => pure true) t
        fun r u =>
          (clean → r.isOk = true) → Fate clean late first u
      exact Ends.seq (P := Fate clean late first) hFinish
        (fun _ _ hFate _ => hFate) fun _ _ hFate _ => hFate

------------------------------------------------------------
-- Submissions
------------------------------------------------------------

/-
  What a submission in a simultaneous part comes to: nothing
  is processed, and responses that have all been bound wait.
  If it is refused or comes too late, what was bound before
  keeps its fate. A session is closed when one comes too late.
-/
structure Submitted
    (s : ItemSession)
    (r : Except Failure Submission)
    (t : ItemSession) :
    Prop where
  unprocessed : ∀ sub, r = .ok sub → sub.processed = false
  waiting :
    ∀ sub, r = .ok sub → sub.timedOut = false →
      sub.unbound = [] → t.state.IsWaiting
  late :
    ∀ sub, r = .ok sub → sub.timedOut = true →
      t.state.finished = true ∧ t.state.timedOut = true
  keepsFate :
    ∀ (clean late : Prop) (first : ItemSession),
      (∀ sub, r = .ok sub → sub.timedOut = true ∧ late) →
        first.state.IsWaiting → KeepsFate clean late first s t

/- A refusal changes nothing but the clock. -/
theorem Submitted.of_error
    {s t : ItemSession}
    (hRests : s.Rests t)
    (e : Failure) :
    Submitted s (.error e) t :=
  ⟨fun _ h => (by cases h), fun _ h => (by cases h),
    fun _ h => (by cases h),
    fun _ _ _ _ _ => hRests.keepsFate⟩

/- A submission that is too late closes the session. -/
theorem submitted_late
    {s t : ItemSession}
    (hRests : s.Rests t)
    (hInit : t.state.initialized = true)
    (hOpen : t.state.finished = false)
    (now : Instant) :
    Submitted s (.ok { timedOut := true })
      { t with state :=
        { t.state with timedOut := true }.closed now } := by
  refine ⟨?_, ?_, fun _ _ _ => ⟨rfl, rfl⟩,
    fun clean late first hLate hFirst => ?_⟩
  · rintro sub hSub
    cases hSub
    rfl
  · rintro sub hSub hTimely
    cases hSub
    cases hTimely
  · have hClosed :
        Ends (timeOut now) t fun r u =>
          (r.isOk = true → late) →
            KeepsFate clean late first t u :=
      ends_timeOut_keepsFate hFirst now t
    rw [ends_timeOut, if_pos hInit,
      if_neg (by simp [hOpen])] at hClosed
    exact IsTrans.trans _ _ _ hRests.keepsFate
      (hClosed fun _ => (hLate _ rfl).2)

/- A time-out is what a submission that is too late comes to. -/
theorem ends_timeOut_submitted
    (now : Instant)
    (s : ItemSession) :
    Ends (timeOut now) s fun r t =>
      Submitted s (r.map fun _ => { timedOut := true }) t := by
  have hSame : s.Rests s := Std.Refl.refl (r := Rests) s
  rw [ends_timeOut]
  split
  next hInit =>
    split
    next => exact .of_error hSame _
    next hOpen =>
      rw [Bool.not_eq_true] at hOpen
      exact submitted_late hSame hInit hOpen now
  next => exact .of_error hSame _

/- Bound responses wait in an open session. -/
theorem submitted_bound
    {s t : ItemSession}
    (hInit : t.state.initialized = true)
    (hEntered : t.state.entryTime.isSome = true)
    (hOpen : t.state.finished = false)
    (hTimely : t.state.timedOut = false)
    (responses : Responses)
    (invalid : List String) :
    Submitted s
      (.ok
        { unbound := (t.bound responses).state.unbound
          invalid := invalid })
      (t.bound responses).judged := by
  refine ⟨?_, ?_, ?_, ?_⟩
  · rintro sub hSub
    cases hSub
    rfl
  · rintro sub hSub _ hBound
    cases hSub
    exact ⟨hInit, hEntered, hOpen, hTimely, rfl, hBound⟩
  · rintro sub hSub hLate
    cases hSub
    cases hLate
  · intro _ _ _ hLate
    cases (hLate _ rfl).1

theorem ends_submit_waiting
    {s : ItemSession}
    (hCoherent : s.state.Coherent)
    (hMode : s.submission = .simultaneous)
    (responses : Responses)
    (now : Instant) :
    Ends (submit responses now) s (Submitted s) := by
  refine ends_submit_cases ?_ fun hInit hPhase hAllowed => ?_
  · exact fun e _ =>
      .of_error (Std.Refl.refl (r := Rests) s) e
  have hOpen := (s.state.phase_eq_interacting_iff).mp hPhase
  have hTimely : s.state.timedOut = false := by
    by_contra hLate
    have hFinished :=
      hCoherent.timedOut (by simpa using hLate)
    rw [hOpen.1] at hFinished
    cases hFinished
  -- In this mode, nothing is processed that has been bound.
  have hBlocked :
      ((s.touchedAt now).bound responses).judged.isBlocked =
        true := by
    simp [isBlocked, bound, judged, touchedAt, hMode]
  rw [ends_submit_open hInit hPhase hAllowed]
  split
  · exact submitted_late (touch_rests now s) hInit hOpen.1 now
  · dsimp only
    rw [if_pos hBlocked]
    exact submitted_bound (t := s.touchedAt now) hInit
      hOpen.2.2 hOpen.1 hTimely responses _

end ItemSession

end Assessment
