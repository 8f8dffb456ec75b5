import Assessment.Proofs.Item.Processing

/-
  What is known of the responses of an item.

  Whether any responses were given, and which of them could
  not be bound or do not fit, only changes when responses are
  bound. A finished session binds none.

  Responses that do not fit are not processed where they are
  validated. So as long as submissions are all that processes
  responses, those that have been processed fit.

  Main declarations:
    * `ItemSession.SameAnswers` and `LeavesAnswers`
    * `ItemCall.shut`, what finished sessions keep
    * `ItemSession.IsScreened` and `submit_keepsScreened`
-/

------------------------------------------------------------
-- Answers
------------------------------------------------------------

namespace Assessment

open Stateful

namespace ItemSession

/- The same is known of the responses, and of their control. -/
structure SameAnswers (s t : ItemSession) : Prop where
  control : t.control = s.control
  finished :
    s.state.finished = true → t.state.finished = true
  responded : t.state.responded = s.state.responded
  unbound : t.state.unbound = s.state.unbound
  invalid : t.state.invalid = s.state.invalid

instance : Std.Refl SameAnswers where
  refl _ := ⟨rfl, id, rfl, rfl, rfl⟩

instance : IsTrans ItemSession SameAnswers where
  trans _ _ _ hFirst hThen :=
    ⟨hThen.control.trans hFirst.control,
      hThen.finished ∘ hFirst.finished,
      hThen.responded.trans hFirst.responded,
      hThen.unbound.trans hFirst.unbound,
      hThen.invalid.trans hFirst.invalid⟩

/- What waits to be processed is the same as well. -/
structure LeavesAnswers (s t : ItemSession) : Prop
    extends SameAnswers s t where
  pending : t.state.pending = s.state.pending

instance : Std.Refl LeavesAnswers where
  refl s :=
    ⟨Std.Refl.refl (r := SameAnswers) s, rfl⟩

instance : IsTrans ItemSession LeavesAnswers where
  trans _ _ _ hFirst hThen :=
    ⟨IsTrans.trans _ _ _ hFirst.toSameAnswers
        hThen.toSameAnswers,
      hThen.pending.trans hFirst.pending⟩

theorem leavesAnswers_events
    (s : ItemSession)
    (events : List Event) :
    s.LeavesAnswers { s with events := events } :=
  ⟨⟨rfl, id, rfl, rfl, rfl⟩, rfl⟩

------------------------------------------------------------
-- Steps That Leave Answers
------------------------------------------------------------

theorem touch_leavesAnswers (now : Instant) :
    Moves LeavesAnswers (touch now) :=
  fun _ => ⟨⟨rfl, id, rfl, rfl, rfl⟩, rfl⟩

theorem enter_leavesAnswers (now : Instant) :
    Moves LeavesAnswers (enter now) :=
  enter_moves fun _ _ _ _ =>
    ⟨⟨rfl, id, rfl, rfl, rfl⟩, rfl⟩

theorem suspend_leavesAnswers (now : Instant) :
    Moves LeavesAnswers (suspend now) :=
  suspend_moves fun _ _ _ =>
    ⟨⟨rfl, id, rfl, rfl, rfl⟩, rfl⟩

theorem resume_leavesAnswers (now : Instant) :
    Moves LeavesAnswers (resume now) :=
  resume_moves fun _ _ _ =>
    ⟨⟨rfl, id, rfl, rfl, rfl⟩, rfl⟩

theorem finish_leavesAnswers (now : Instant) :
    Moves LeavesAnswers (finish now) :=
  finish_moves fun _ _ _ =>
    ⟨⟨rfl, fun _ => rfl, rfl, rfl, rfl⟩, rfl⟩

theorem timeOut_leavesAnswers (now : Instant) :
    Moves LeavesAnswers (timeOut now) :=
  timeOut_moves fun _ _ _ =>
    ⟨⟨rfl, fun _ => rfl, rfl, rfl, rfl⟩, rfl⟩

theorem skip_leavesAnswers (now : Instant) :
    Moves LeavesAnswers (skip now) :=
  skip_moves fun _ _ _ _ _ =>
    ⟨⟨rfl, fun _ => rfl, rfl, rfl, rfl⟩, rfl⟩

theorem exit_leavesAnswers (now : Instant) :
    Moves LeavesAnswers (exit now) :=
  exit_moves
    (fun _ _ _ => ⟨⟨rfl, id, rfl, rfl, rfl⟩, rfl⟩)
    fun _ _ _ => ⟨⟨rfl, fun _ => rfl, rfl, rfl, rfl⟩, rfl⟩

theorem initialise_leavesAnswers
    (defaults : List TemplateDefault) :
    Moves LeavesAnswers (initialise defaults) := by
  refine initialise_moves
    (announced_moves _ leavesAnswers_events) (fun s => ?_)
    fun _ => ⟨⟨rfl, id, rfl, rfl, rfl⟩, rfl⟩
  rw [ends_runRules]
  exact Ends.of_forall fun _ _ =>
    ⟨⟨rfl, id, rfl, rfl, rfl⟩, rfl⟩

/- Counting an attempt has no part in its responses. -/
theorem counted_leavesAnswers (s : ItemSession) :
    s.LeavesAnswers s.counted := by
  unfold counted
  split <;> exact ⟨⟨rfl, id, rfl, rfl, rfl⟩, rfl⟩

/- Processing takes responses as they have been bound. -/
theorem processed_sameAnswers
    (s : ItemSession)
    (stage : Stage)
    (done : Bool) :
    s.SameAnswers (s.counted.processed stage done) := by
  have hProcessed :
      s.counted.SameAnswers (s.counted.processed stage done) :=
    ⟨rfl, id, rfl, rfl, rfl⟩
  exact IsTrans.trans _ _ _
    (counted_leavesAnswers s).toSameAnswers hProcessed

theorem processResponses_sameAnswers :
    Moves SameAnswers processResponses := by
  intro s
  cases hInit : s.state.initialized with
  | false =>
      rw [ends_processResponses_new hInit]
      exact Std.Refl.refl (r := SameAnswers) s
  | true =>
      rw [ends_processResponses hInit]
      exact Ends.of_forall fun _ stage =>
        processed_sameAnswers s stage _

------------------------------------------------------------
-- Finished Sessions
------------------------------------------------------------

/- Of a finished session, nothing else becomes known. -/
def Shut (s t : ItemSession) : Prop :=
  s.state.finished = true → s.SameAnswers t

instance : Std.Refl Shut where
  refl s _ := Std.Refl.refl (r := SameAnswers) s

instance : IsTrans ItemSession Shut where
  trans s t u hFirst hThen hFinished :=
    IsTrans.trans (r := SameAnswers) s t u (hFirst hFinished)
      (hThen ((hFirst hFinished).finished hFinished))

theorem shut_events : ∀ (s : ItemSession) (events : List Event),
    s.Shut { s with events := events } :=
  fun s events _ => (leavesAnswers_events s events).toSameAnswers

theorem shut_of_leavesAnswers
    {x : Action Unit}
    (hMoves : Moves LeavesAnswers x) :
    Moves Shut x :=
  hMoves.mono fun _ _ hLeaves _ => hLeaves.toSameAnswers

theorem bindResponses_shut (responses : Responses) :
    Moves Shut (bindResponses responses) := by
  refine bindResponses_moves fun s _ hOpen hFinished => ?_
  rw [hOpen] at hFinished
  cases hFinished

theorem submit_shut (responses : Responses) (now : Instant) :
    Moves Shut (submit responses now) :=
  submit_moves
    { touch := fun now =>
        shut_of_leavesAnswers (touch_leavesAnswers now)
      timeOut := fun now =>
        shut_of_leavesAnswers (timeOut_leavesAnswers now)
      finish := fun now =>
        shut_of_leavesAnswers (finish_leavesAnswers now)
      bindResponses := bindResponses_shut
      processResponses :=
        processResponses_sameAnswers.mono
          fun _ _ hSame _ => hSame }
    responses now

end ItemSession

open ItemSession in
/- No call gives a finished session other responses. -/
theorem ItemCall.shut (c : ItemCall) : Moves Shut c.action := by
  cases c with
  | initialise defaults =>
      exact shut_of_leavesAnswers
        (initialise_leavesAnswers defaults)
  | enter now =>
      exact shut_of_leavesAnswers (enter_leavesAnswers now)
  | suspend now =>
      exact shut_of_leavesAnswers (suspend_leavesAnswers now)
  | resume now =>
      exact shut_of_leavesAnswers (resume_leavesAnswers now)
  | touch now =>
      exact shut_of_leavesAnswers (touch_leavesAnswers now)
  | bindResponses responses =>
      exact fun s => ends_discard.mpr
        (bindResponses_shut responses s)
  | processResponses =>
      exact processResponses_sameAnswers.mono
        fun _ _ hSame _ => hSame
  | submit responses now =>
      exact fun s => ends_discard.mpr
        (submit_shut responses now s)
  | skip now =>
      exact shut_of_leavesAnswers (skip_leavesAnswers now)
  | timeOut now =>
      exact shut_of_leavesAnswers (timeOut_leavesAnswers now)
  | finish now =>
      exact shut_of_leavesAnswers (finish_leavesAnswers now)
  | exit now =>
      exact shut_of_leavesAnswers (exit_leavesAnswers now)

------------------------------------------------------------
-- Responses That Fit
------------------------------------------------------------

namespace ItemSession

/- All responses were bound, and fit if they have to. -/
def IsFit (s : ItemSession) : Prop :=
  s.state.unbound = [] ∧
    (s.control.validates = true → s.state.invalid = [])

/- What has been processed fits. -/
def IsScreened (s : ItemSession) : Prop :=
  s.state.pending = false → s.IsFit

/- Responses are screened before they are processed. -/
def KeepsScreened (s t : ItemSession) : Prop :=
  s.IsScreened → t.IsScreened

instance : Std.Refl KeepsScreened where
  refl _ := id

instance : IsTrans ItemSession KeepsScreened where
  trans _ _ _ hFirst hThen := hThen ∘ hFirst

theorem SameAnswers.isFit
    {s t : ItemSession}
    (hSame : s.SameAnswers t)
    (hFit : s.IsFit) :
    t.IsFit := by
  unfold IsFit
  rw [hSame.unbound, hSame.control, hSame.invalid]
  exact hFit

theorem LeavesAnswers.keepsScreened
    {s t : ItemSession}
    (hLeaves : s.LeavesAnswers t) :
    s.KeepsScreened t := by
  intro hScreened hDone
  rw [hLeaves.pending] at hDone
  exact hLeaves.isFit (hScreened hDone)

/- Responses that are processed at once fit. -/
theorem isFit_of_isBlocked
    {s : ItemSession}
    (hTaken : s.isBlocked = false) :
    s.IsFit := by
  unfold isBlocked at hTaken
  simp only [Bool.or_eq_false_iff, Bool.not_eq_false',
    List.isEmpty_iff, Bool.and_eq_false_imp] at hTaken
  exact ⟨hTaken.1.1, hTaken.1.2⟩

/- Of what is submitted, only what fits is processed. -/
theorem submit_keepsScreened
    (responses : Responses)
    (now : Instant) :
    Moves KeepsScreened (submit responses now) := by
  intro s
  have hTouched : s.LeavesAnswers (s.touchedAt now) :=
    ⟨⟨rfl, id, rfl, rfl, rfl⟩, rfl⟩
  have hTimedOut : (s.touchedAt now).LeavesAnswers
      ((s.touchedAt now).timedOutAt now) :=
    ⟨⟨rfl, fun _ => rfl, rfl, rfl, rfl⟩, rfl⟩
  apply ends_submit_cases
  · exact fun _ _ => id
  · intro hInit hPhase hAllowed
    rw [ends_submit_open hInit hPhase hAllowed]
    split
    · exact hTimedOut.keepsScreened ∘ hTouched.keepsScreened
    extract_lets b
    split
    next =>
      -- What has been bound waits.
      intro _ hDone
      cases hDone
    next hNotBlocked =>
      have hFit : b.IsFit :=
        isFit_of_isBlocked (by simpa using hNotBlocked)
      refine Ends.of_forall fun r stage => ?_
      have hProcessed :=
        (processed_sameAnswers b stage r.isOk).isFit hFit
      cases r with
      | error => exact fun _ _ => hProcessed
      | ok =>
          have hConcluded :
              ((b.counted.processed stage true).concluded
                now).IsFit := by
            unfold concluded
            split <;> exact hProcessed
          exact fun _ _ => hConcluded

end ItemSession

end Assessment
