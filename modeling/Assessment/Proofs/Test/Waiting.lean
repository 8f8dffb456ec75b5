import Assessment.Proofs.Item.Waiting
import Assessment.Proofs.Test.Course
import Assessment.Proofs.Test.Frame
import Assessment.Proofs.Test.Navigation

/-
  Responses that wait for the end of a part.

  In a simultaneous part, submitted responses wait while the
  candidate moves about, and are processed once at the end of
  the part. Responses of an item that was closed for lack of
  time are passed over at the end, and never processed.

  Main declarations:
    * `TestCall.binds`, what a submission binds
    * `TestSession.FateAt`, the fate of responses at a place
    * `TestSession.EndsCleanly` and `TestSession.ComesLate`,
      what a run shows of failures and of time-outs
    * `TestSession.waiting_left_in_time_out`
    * `TestSession.waiting_settled_at_end`
-/

------------------------------------------------------------
-- Submissions
------------------------------------------------------------

namespace Assessment

open Stateful

/-
  A submission to the item at a place that is accepted in
  time, with the session that it leaves.
-/
def TestCall.binds
    (i : Nat)
    (c : TestCall)
    (s : TestSession) :
    Option (Submission × ItemSession) :=
  match c with
  | .submit responses now =>
      match TestSession.run (TestSession.submit responses now) s
        with
      | (.ok sub, t) =>
          if s.state.item = some i ∧ sub.timedOut = false then
            t.entries[i]?.map fun e => (sub, e.session)
          else none
      | _ => none
  | _ => none

namespace TestSession

open ItemSession

/- The submissions to the item at a place, in a row. -/
def bindings
    (i : Nat)
    (s : TestSession)
    (calls : List TestCall) :
    List (Submission × ItemSession) :=
  s.gathered (TestCall.binds i) calls

------------------------------------------------------------
-- Fates
------------------------------------------------------------

/-
  The item at a place is of a part whose items stay open, and
  responses that were bound there have the fate of such.
-/
def FateAt
    (clean late : Prop)
    (i : Nat)
    (first : ItemSession)
    (s : TestSession) :
    Prop :=
  ∃ e, s.entries[i]? = some e ∧
    (s.test.parts[e.part]?).any keepsOpen = true ∧
    Fate clean late first e.session

def KeepsFateAt
    (clean late : Prop)
    (i : Nat)
    (first : ItemSession)
    (s t : TestSession) :
    Prop :=
  FateAt clean late i first s → FateAt clean late i first t

variable {clean late : Prop}
variable {i : Nat}
variable {first : ItemSession}

instance : Std.Refl (KeepsFateAt clean late i first) where
  refl _ := id

instance :
    IsTrans TestSession (KeepsFateAt clean late i first) where
  trans _ _ _ hFirst hThen := hThen ∘ hFirst

theorem ignoresState_keepsFateAt :
    IgnoresState (KeepsFateAt clean late i first) := by
  refine ⟨fun hTest hEntries => ?_⟩
  unfold KeepsFateAt FateAt
  rw [hTest, hEntries]
  exact id

/- Whatever has been bound at a place keeps its fate. -/
def KeepsFates (i : Nat) (s t : TestSession) : Prop :=
  ∀ (clean late : Prop) (first : ItemSession),
    first.state.IsWaiting → KeepsFateAt clean late i first s t

instance : Std.Refl (KeepsFates i) where
  refl _ _ _ _ _ := id

instance : IsTrans TestSession (KeepsFates i) where
  trans _ _ _ hFirst hThen clean late first hWaiting :=
    hThen clean late first hWaiting ∘
      hFirst clean late first hWaiting

theorem ignoresState_keepsFates :
    IgnoresState (KeepsFates i) :=
  ⟨fun hTest hEntries _ _ _ _ =>
    ignoresState_keepsFateAt.same hTest hEntries⟩

/- A step of the item matters, and one of another does not. -/
theorem putSession_keepsFateAt
    {s : TestSession}
    {j : Nat}
    {e : ItemEntry}
    (hE : s.entries[j]? = some e)
    {t : ItemSession}
    (hKeeps : j = i → KeepsFate clean late first e.session t) :
    KeepsFateAt clean late i first s (putSession s j e t) := by
  have hBound := (List.getElem?_eq_some_iff.mp hE).1
  rintro ⟨d, hD, hOpen, hFate⟩
  by_cases hSame : j = i
  · have hKeeps' := hKeeps hSame
    subst hSame
    rw [hE] at hD
    cases hD
    refine ⟨_, List.getElem?_set_self hBound, hOpen, ?_⟩
    exact (rests_events t []).keepsFate (hKeeps' hFate)
  · refine ⟨d, ?_, hOpen, hFate⟩
    rw [putSession, List.getElem?_set_ne hSame]
    exact hD

theorem onItem_keepsFateAt
    {α : Type}
    {x : Action α}
    {strict : Prop}
    (hMoves : MovesCleanly strict (KeepsFate clean late first) x)
    (j : Nat) :
    MovesCleanly strict (KeepsFateAt clean late i first)
      (onItem j x) := by
  intro s
  rw [ends_onItem]
  split
  next => exact fun _ => id
  next e hE =>
    exact (hMoves e.session).mono fun r t hKeeps hStrict =>
      putSession_keepsFateAt hE fun _ => hKeeps hStrict

------------------------------------------------------------
-- Steps
------------------------------------------------------------

/- Where items stay open, they are put aside when left. -/
theorem leaveItem_keepsFate (now : Instant) :
    Moves (KeepsFate clean late first) (leaveItem true now) := by
  intro s
  simp only [leaveItem, ends_bind, ItemSession.ends_getState]
  split
  next => exact suspend_keepsFate now s
  next hKeeps => cases hKeeps
  next hKeeps => cases hKeeps
  next => exact id

theorem presentItem_keepsFate
    (hFirst : first.state.IsWaiting)
    (ref : String)
    (now : Instant) :
    Moves (KeepsFate clean late first)
      (presentItem ref now) :=
  presentItem_moves_at (enter_keepsFate hFirst now)
    (resume_keepsFate now) ref

/- An item that is closed has its responses processed first. -/
theorem closeItem_keepsFate
    (hFirst : first.state.IsWaiting)
    (now : Instant) :
    MovesCleanly clean (KeepsFate clean late first)
      (closeItem now) := by
  intro s
  rw [closeItem, ends_bind, ItemSession.ends_getState]
  dsimp only
  rw [ends_ite]
  split
  next => exact fun _ => id
  next hOpen =>
    by_cases hFate : Fate clean late first s
    · rcases (hFate.cases hFirst).2 with
        ⟨hHolds, hWaiting⟩ | hFinished
      · rw [ends_processPending_waiting hWaiting]
        exact (ends_settle_keepsFate hFirst hHolds now).mono
          fun _ _ hSettled hClean _ => hSettled hClean
      · rw [← ItemState.phase_eq_finished_iff] at hFinished
        exact absurd (by rw [hFinished]; rfl) hOpen
    · exact Ends.of_forall fun _ _ _ hHas =>
        absurd hHas hFate

theorem leaveCurrent_keepsFateAt (now : Instant) :
    Moves (KeepsFateAt clean late i first)
      (leaveCurrent now) := by
  intro s
  by_cases hHas : FateAt clean late i first s
  · rw [leaveCurrent, ends_get_bind]
    split
    next j hItem =>
      refine Ends.bind (R := KeepsFateAt clean late i first) ?_
        fun _ t _ => ignoresState_keepsFateAt.same rfl rfl
      rw [ends_onItem]
      split
      next => exact id
      next e hE =>
        by_cases hSame : j = i
        · rcases hHas with ⟨d, hD, hOpen, _⟩
          rw [← hSame, hE] at hD
          cases hD
          have hKeeps :
              ((s.current?.bind fun e =>
                s.test.parts[e.part]?).any keepsOpen) =
                  true := by
            rw [current?, hItem]
            simp only [Option.bind_some, hE]
            exact hOpen
          rw [hKeeps]
          exact (leaveItem_keepsFate now e.session).mono
            fun _ _ hFate => putSession_keepsFateAt hE
              fun _ => hFate
        · exact Ends.of_forall fun _ _ =>
            putSession_keepsFateAt hE fun h => absurd h hSame
    next => exact id
  · exact Ends.of_forall fun _ _ hFate => absurd hFate hHas

theorem partsMove_keepsFateAt
    (hFirst : first.state.IsWaiting) :
    PartsMove (KeepsFateAt clean late i first) :=
  ignoresState_keepsFateAt.partsMove
    (fun j now =>
      (onItem_keepsFateAt (touch_keepsFate now).cleanly j).moves)
    leaveCurrent_keepsFateAt
    (fun j ref now =>
      (onItem_keepsFateAt
        (presentItem_keepsFate hFirst ref now).cleanly j).moves)

theorem endPart_keepsFateAt
    (hFirst : first.state.IsWaiting)
    (now : Instant) :
    MovesCleanly clean (KeepsFateAt clean late i first)
      (endPart now) :=
  (partsMove_keepsFateAt hFirst).steps.endPart
    (onItem_keepsFateAt (closeItem_keepsFate hFirst now))

------------------------------------------------------------
-- Submissions to the Item
------------------------------------------------------------

/-
  What a submission comes to at a place. If it is accepted in
  time and binds all responses, they wait there. If it is
  refused, comes too late or goes to another item, responses
  that were bound before keep their fate.
-/
structure SubmittedAt
    (i : Nat)
    (s : TestSession)
    (r : Except Failure Submission)
    (t : TestSession) :
    Prop where
  waiting :
    ∀ sub, r = .ok sub → s.state.item = some i →
      sub.timedOut = false → sub.unbound = [] →
        ∀ e, t.entries[i]? = some e →
          e.session.state.IsWaiting
  late :
    ∀ sub, r = .ok sub → s.state.item = some i →
      sub.timedOut = true → ∀ e, t.entries[i]? = some e →
        e.session.state.finished = true ∧
          e.session.state.timedOut = true
  keepsFate :
    ∀ (clean late : Prop) (first : ItemSession),
      (∀ sub, r = .ok sub → s.state.item = some i →
        sub.timedOut = true ∧ late) →
        first.state.IsWaiting →
          KeepsFateAt clean late i first s t

theorem SubmittedAt.of_error
    {s t : TestSession}
    (hKeeps : KeepsFates i s t)
    (e : Failure) :
    SubmittedAt i s (.error e) t :=
  ⟨fun _ hSub => (by cases hSub),
    fun _ hSub => (by cases hSub),
    fun clean late first _ => hKeeps clean late first⟩

/- A submission to another item is none to this one. -/
theorem SubmittedAt.of_elsewhere
    {s t : TestSession}
    (hElse : s.state.item ≠ some i)
    (hKeeps : KeepsFates i s t)
    (r : Except Failure Submission) :
    SubmittedAt i s r t :=
  ⟨fun _ _ h => absurd h hElse, fun _ _ h => absurd h hElse,
    fun clean late first _ => hKeeps clean late first⟩

/- What a submission to the item comes to shows at its place. -/
theorem SubmittedAt.of_submitted
    {s t : TestSession}
    (hItem : s.state.item = some i)
    (hKeeps : KeepsFates i s t)
    {e : ItemEntry}
    (hE : t.entries[i]? = some e)
    {r : Except Failure Submission}
    {u : ItemSession}
    (hSubmitted : Submitted e.session r u) :
    SubmittedAt i s r (putSession t i e u) := by
  have hBound := (List.getElem?_eq_some_iff.mp hE).1
  have hPut : (putSession t i e u).entries[i]? =
      some { e with session := { u with events := [] } } :=
    List.getElem?_set_self hBound
  refine ⟨?_, ?_, ?_⟩
  · rintro sub hSub _ hTimely hAll f hF
    rw [hPut] at hF
    cases hF
    exact hSubmitted.waiting sub hSub hTimely hAll
  · rintro sub hSub _ hLate f hF
    rw [hPut] at hF
    cases hF
    exact hSubmitted.late sub hSub hLate
  · intro clean late first hLate hFirst hHas
    rcases hKeeps clean late first hFirst hHas with
      ⟨d, hD, hOpen, hOld⟩
    rw [hE] at hD
    cases hD
    refine ⟨_, hPut, hOpen, ?_⟩
    exact (rests_events u []).keepsFate
      (hSubmitted.keepsFate clean late first
        (fun sub hSub => hLate sub hSub hItem) hFirst hOld)

/- The items at a place all wait for the end of their part. -/
def WaitsAt (i : Nat) (s : TestSession) : Prop :=
  ∀ e, s.entries[i]? = some e →
    e.session.submission = .simultaneous

theorem WaitsAt.later
    {s t : TestSession}
    (hMode : WaitsAt i s)
    (hPlaces : Placewise SameSetup s t) :
    WaitsAt i t := by
  intro f hF
  rcases hPlaces.exists_before hF with ⟨e, hE⟩
  rcases hPlaces.entries i e f hE hF with ⟨_, hSetup⟩
  exact hSetup.submission.trans (hMode e hE)

/- An item waits throughout a run if it does at first. -/
theorem waitsAt_after
    {s : TestSession}
    {e : ItemEntry}
    (hE : s.entries[i]? = some e)
    (hMode : e.session.submission = .simultaneous)
    (calls : List TestCall) :
    WaitsAt i (s.after calls) := by
  refine WaitsAt.later (fun d hD => ?_) (after_sameSetup s calls)
  rw [hE] at hD
  cases hD
  exact hMode

/- A submission to the current item, once timers are touched. -/
theorem ends_submitItem_at
    {s t : TestSession}
    (hItem : s.state.item = some i)
    (hKeeps : KeepsFates i s t)
    (hOrder : t.Orderly)
    (hMode : WaitsAt i t)
    (responses : Responses)
    (now : Instant) :
    Ends
      (do
        let submission ←
          onItem i (ItemSession.submit responses now)
        if submission.processed then processOutcomes
        return submission) t (SubmittedAt i s) := by
  rw [ends_bind, ends_onItem]
  split
  next => exact .of_error hKeeps _
  next e hE =>
    refine (ends_submit_waiting (InOrder.coherent hOrder i e hE)
      (hMode e hE) responses now).mono fun r u hSubmitted => ?_
    have hPlace := SubmittedAt.of_submitted hItem hKeeps hE
      hSubmitted
    cases r with
    | error => exact hPlace
    | ok sub =>
        dsimp only
        rw [hSubmitted.unprocessed sub rfl, ends_ite,
          if_neg Bool.false_ne_true, ends_pure]
        exact hPlace

/- A submission that comes too late. -/
theorem ends_timeOutItem_at
    {s t : TestSession}
    (hItem : s.state.item = some i)
    (hKeeps : KeepsFates i s t)
    (now : Instant) :
    Ends
      (do
        onItem i (ItemSession.timeOut now)
        return { timedOut := true }) t (SubmittedAt i s) := by
  rw [ends_bind, ends_onItem]
  split
  next => exact .of_error hKeeps _
  next e hE =>
    refine (ends_timeOut_submitted now e.session).mono
      fun r u hSubmitted => ?_
    have hPlace := SubmittedAt.of_submitted hItem hKeeps hE
      hSubmitted
    cases r with
    | error => exact hPlace
    | ok => exact hPlace

/- A step of another item leaves the item alone. -/
theorem onItem_keepsFates
    {α : Type}
    {j : Nat}
    (hOther : j ≠ i)
    (x : Action α) :
    Moves (KeepsFates i) (onItem j x) := by
  intro s
  rw [ends_onItem]
  split
  next => exact Std.Refl.refl (r := KeepsFates i) s
  next e hE =>
    exact Ends.of_forall fun _ _ _ _ _ _ =>
      putSession_keepsFateAt hE fun h => absurd h hOther

/- A submission, to whichever item it goes. -/
theorem ends_submit_at
    {s : TestSession}
    (hOrder : s.Orderly)
    (hMode : WaitsAt i s)
    (responses : Responses)
    (now : Instant) :
    Ends (submit responses now) s (SubmittedAt i s) := by
  have hRefused := SubmittedAt.of_error
    (Std.Refl.refl (r := KeepsFates i) s)
  rw [submit]
  refine ends_ensureRunning_bind hRefused fun _ _ => ?_
  rw [ends_getState_bind]
  split
  next => exact hRefused _
  next j hItem =>
    have hTouch :
        Ends (touch now) s fun _ t =>
          s.Calm t ∧ Placewise SameSetup s t ∧
            KeepsFates i s t :=
      ⟨touch_calm hOrder now,
        TestCall.placewise sameSetup_events
          ItemCall.keepsSetup (.touch now) s,
        fun _ _ _ hFirst =>
          (partsMove_keepsFateAt hFirst).touch now s⟩
    rw [ends_bind]
    refine hTouch.mono fun r t hTouched => ?_
    rcases hTouched with ⟨hCalm, hPlaces, hKeeps⟩
    cases r with
    | error => exact .of_error hKeeps _
    | ok =>
        dsimp only
        rw [ends_get_bind]
        by_cases hSame : j = i
        · subst hSame
          rw [ends_ite]
          split
          · exact ends_timeOutItem_at hItem hKeeps now
          · exact ends_submitItem_at hItem hKeeps
              (hCalm.orderly hOrder) (hMode.later hPlaces)
              responses now
        · have hElse : s.state.item ≠ some i := by
            rw [hItem]
            exact fun h => hSame (Option.some.inj h)
          refine Ends.mono (P := fun _ u => KeepsFates i t u) ?_
            fun r u hLater => .of_elsewhere hElse
              (IsTrans.trans _ _ _ hKeeps hLater) r
          refine Moves.ite ?_ ?_ t
          · exact Moves.bind (onItem_keepsFates hSame _)
              fun _ => Moves.pure _
          · refine Moves.bind (onItem_keepsFates hSame _)
              fun sub => ?_
            exact Moves.ite_bind
              ignoresState_keepsFates.processOutcomes
              fun _ => Moves.pure _

------------------------------------------------------------
-- Calls
------------------------------------------------------------

theorem after_submit
    (s : TestSession)
    (responses : Responses)
    (now : Instant) :
    s.after [.submit responses now] =
      (run (submit responses now) s).2 :=
  run_discard_snd (submit responses now) s

/- A submission that binds nothing in time comes too late. -/
theorem late_of_binds_none
    {s : TestSession}
    {responses : Responses}
    {now : Instant}
    (hNone : (TestCall.submit responses now).binds i s = none)
    {e : ItemEntry}
    (hE : (s.after [.submit responses now]).entries[i]? = some e)
    {sub : Submission}
    (hSub : (run (submit responses now) s).1 = .ok sub)
    (hItem : s.state.item = some i) :
    sub.timedOut = true := by
  rw [after_submit] at hE
  by_contra hTimely
  rw [Bool.not_eq_true] at hTimely
  unfold TestCall.binds at hNone
  dsimp only at hNone
  rcases hRun : run (submit responses now) s with ⟨r, t⟩
  rw [hRun] at hNone hSub hE
  dsimp only at hSub hE
  subst hSub
  simp [hItem, hTimely, hE] at hNone

/- What has been bound waits at its place. -/
theorem fateAt_of_binds
    {s : TestSession}
    (hOrder : s.Orderly)
    (hMode : WaitsAt i s)
    {c : TestCall}
    {sub : Submission}
    {bound : ItemSession}
    (hBinds : c.binds i s = some (sub, bound))
    (hAll : sub.unbound = []) :
    bound.state.IsWaiting ∧
      ∃ e, (s.after [c]).entries[i]? = some e ∧
        e.session = bound := by
  unfold TestCall.binds at hBinds
  split at hBinds
  next responses now =>
    split at hBinds
    next sub' t hRun =>
      split at hBinds
      next hTimely =>
        rcases Option.map_eq_some_iff.mp hBinds with
          ⟨e, hE, hSame⟩
        cases hSame
        have hSubmitted :=
          ends_submit_at hOrder hMode responses now
        unfold Ends at hSubmitted
        rw [show Stateful.run (submit responses now) s =
          (.ok sub, t) from hRun] at hSubmitted
        refine ⟨hSubmitted.waiting sub rfl hTimely.1 hTimely.2
          hAll e hE, e, ?_, rfl⟩
        rw [after_submit, hRun]
        exact hE
      next => cases hBinds
    next => cases hBinds
  next => cases hBinds

/-
  Until something is bound anew, responses that were bound
  keep their fate, or the test is left. A part has to end
  without failure for that, if nothing may break off.
-/
theorem fateAt_after
    {s : TestSession}
    (hOrder : s.Orderly)
    (hMode : WaitsAt i s)
    (hFirst : first.state.IsWaiting)
    (hFate : FateAt clean late i first s)
    {c : TestCall}
    (hNone : c.binds i s = none)
    (hClean :
      clean → ∀ now, c = .endPart now →
        (run (endPart now) s).1.isOk = true)
    (hLate :
      ∀ responses now sub, c = .submit responses now →
        s.state.item = some i →
          (run (submit responses now) s).1 = .ok sub →
            sub.timedOut = true → late) :
    FateAt clean late i first (s.after [c]) ∨
      (s.after [c]).IsLeft := by
  have hParts : PartsMove (KeepsFateAt clean late i first) :=
    partsMove_keepsFateAt hFirst
  have hInitialise :
      Moves (KeepsFateAt clean late i first) initialise :=
    ignoresState_keepsFateAt.initialise fun j defaults =>
      (onItem_keepsFateAt
        (initialise_keepsFate hFirst defaults).cleanly j).moves
  cases c with
  | submit responses now =>
      refine Or.inl ?_
      have hSubmitted :=
        ends_submit_at hOrder hMode responses now
      have hPlaces := after_sameSetup s [.submit responses now]
      rcases hFate with ⟨e, hE, hRest⟩
      rcases hPlaces.exists_after hE with ⟨f, hF⟩
      rw [after_submit]
      refine hSubmitted.keepsFate clean late first ?_ hFirst
        ⟨e, hE, hRest⟩
      intro sub hSub hItem
      have hTooLate : sub.timedOut = true :=
        late_of_binds_none hNone hF hSub hItem
      exact ⟨hTooLate,
        hLate responses now sub rfl hItem hSub hTooLate⟩
  | exit now =>
      have hLeft := ends_exit_left hOrder now
      rcases hLeft with hSame | hGone
      · refine Or.inl ?_
        rw [show s.after [.exit now] = s from hSame]
        exact hFate
      · exact Or.inr hGone
  | endPart now =>
      exact Or.inl (endPart_keepsFateAt hFirst now s
        (fun h => hClean h now rfl) hFate)
  | _ =>
      exact Or.inl (call_moves hParts.steps hInitialise
        (fun _ _ hSame => by cases hSame)
        (fun _ hSame => by cases hSame)
        (fun _ hSame => by cases hSame) s hFate)

------------------------------------------------------------
-- Runs
------------------------------------------------------------

/- No end of a part that was called for has failed. -/
def EndsCleanly
    (s : TestSession)
    (calls : List TestCall) :
    Prop :=
  ∀ (earlier : List TestCall) (now : Instant),
    earlier ++ [.endPart now] <+: calls →
      (run (endPart now) (s.after earlier)).1.isOk = true

theorem EndsCleanly.before
    {s : TestSession}
    {calls : List TestCall}
    {c : TestCall}
    (hClean : s.EndsCleanly (calls ++ [c])) :
    s.EndsCleanly calls :=
  fun earlier now hPrefix => hClean earlier now
    (hPrefix.trans (List.prefix_append calls [c]))

/- A submission to the item at a place has come too late. -/
def ComesLate
    (i : Nat)
    (s : TestSession)
    (calls : List TestCall) :
    Prop :=
  ∃ (earlier : List TestCall) (responses : Responses)
      (now : Instant) (sub : Submission),
    earlier ++ [.submit responses now] <+: calls ∧
      (s.after earlier).state.item = some i ∧
      (run (submit responses now) (s.after earlier)).1 =
        .ok sub ∧
      sub.timedOut = true

theorem ComesLate.later
    {s : TestSession}
    {calls : List TestCall}
    (hLate : s.ComesLate i calls)
    (c : TestCall) :
    s.ComesLate i (calls ++ [c]) := by
  rcases hLate with
    ⟨earlier, responses, now, sub, hPrefix, hRest⟩
  exact ⟨earlier, responses, now, sub,
    hPrefix.trans (List.prefix_append calls [c]), hRest⟩

/-
  In every run, the last responses that were bound at a place
  have the fate of such, unless the test has been left.
-/
theorem fateAt_of_bindings
    {s : TestSession}
    (hOrder : s.Orderly)
    {e : ItemEntry}
    (hE : s.entries[i]? = some e)
    (hMode : e.session.submission = .simultaneous)
    (hOpen : (s.test.parts[e.part]?).any keepsOpen = true)
    (calls : List TestCall)
    (hClean : clean → s.EndsCleanly calls)
    (hLate : s.ComesLate i calls → late)
    {sub : Submission}
    {bound : ItemSession}
    (hLast : (s.bindings i calls).getLast? = some (sub, bound))
    (hAll : sub.unbound = []) :
    bound.state.IsWaiting ∧
      (FateAt clean late i bound (s.after calls) ∨
        (s.after calls).IsLeft) := by
  -- From the end: the last call binds anew, or is a step that
  -- what was bound before it survives.
  induction calls using List.reverseRecOn generalizing sub bound
    with
  | nil => cases hLast
  | append_singleton calls c ih =>
      have hOrder' := after_orderly hOrder calls
      have hMode' := waitsAt_after hE hMode calls
      rw [bindings, gathered_snoc, ← bindings] at hLast
      rw [after_append]
      cases hBinds : c.binds i (s.after calls) with
      | some x =>
          rw [hBinds, Option.toList_some,
            List.getLast?_concat] at hLast
          cases hLast
          rcases fateAt_of_binds hOrder' hMode' hBinds hAll with
            ⟨hWaiting, f, hF, hBound⟩
          have hPlaces' := after_sameSetup s (calls ++ [c])
          rw [after_append] at hPlaces'
          refine ⟨hWaiting, Or.inl ⟨f, hF, ?_, ?_⟩⟩
          · rw [hPlaces'.test,
              (hPlaces'.entries i e f hE hF).1]
            exact hOpen
          · rw [hBound]
            exact .held .bound
      | none =>
          rw [hBinds, Option.toList_none, List.append_nil]
            at hLast
          rcases ih (fun h => (hClean h).before)
            (fun h => hLate (h.later c)) hLast hAll with
            ⟨hWaiting, hFate | hLeft⟩
          · refine ⟨hWaiting, fateAt_after hOrder' hMode'
              hWaiting hFate hBinds ?_ ?_⟩
            · rintro h now rfl
              exact hClean h calls now List.prefix_rfl
            · rintro responses now sub rfl hItem hSub hTooLate
              exact hLate ⟨calls, responses, now, sub,
                List.prefix_rfl, hItem, hSub, hTooLate⟩
          · exact ⟨hWaiting, Or.inr (hLeft.after hOrder' c)⟩

/-
  A submission that comes too late closes the item, and what
  was bound there before is left waiting.
-/
theorem waiting_left_in_time_out
    {s : TestSession}
    (hOrder : s.Orderly)
    {e : ItemEntry}
    (hE : s.entries[i]? = some e)
    (hMode : e.session.submission = .simultaneous)
    (hOpen : (s.test.parts[e.part]?).any keepsOpen = true)
    (calls : List TestCall)
    {sub late : Submission}
    {bound : ItemSession}
    (hLast : (s.bindings i calls).getLast? = some (sub, bound))
    (hAll : sub.unbound = [])
    (hItem : (s.after calls).state.item = some i)
    {responses : Responses}
    {now : Instant}
    (hSub :
      (run (submit responses now) (s.after calls)).1 = .ok late)
    (hLate : late.timedOut = true) :
    ∃ f,
      (s.after (calls ++ [.submit responses now])).entries[i]? =
        some f ∧
      LeftWaiting (s.EndsCleanly calls) bound f.session ∧
        f.session.state.pending = true := by
  have hOrder' := after_orderly hOrder calls
  have hMode' := waitsAt_after hE hMode calls
  have hBefore :
      bound.state.IsWaiting ∧
        (FateAt (s.EndsCleanly calls) True i bound
            (s.after calls) ∨
          (s.after calls).IsLeft) :=
    fateAt_of_bindings hOrder hE hMode hOpen calls id
      (fun _ => trivial) hLast hAll
  rcases hBefore with ⟨hWaiting, hFate⟩
  have hRunning :
      Ends (submit responses now) (s.after calls) fun r _ =>
        r.isOk = true →
          (s.after calls).state.finished = false := by
    rw [submit]
    exact ends_ensureRunning_bind (fun _ hOk => by cases hOk)
      fun _ hOpen => Ends.of_forall fun _ _ _ => hOpen
  have hSubmitted :=
    ends_submit_at hOrder' hMode' responses now
  unfold Ends at hRunning hSubmitted
  rw [after_append, after_submit]
  change (Stateful.run (submit responses now)
    (s.after calls)).1 = .ok late at hSub
  rw [hSub] at hRunning hSubmitted
  -- What is left was not processed: it shows the time-out.
  rcases hFate with hFate | hLeft
  · have hOnlyLate : ∀ x : Submission,
        (Except.ok late : Except Failure Submission) = .ok x →
          (s.after calls).state.item = some i →
            x.timedOut = true ∧ True := by
      rintro _ hSame _
      cases hSame
      exact ⟨hLate, trivial⟩
    rcases hSubmitted.keepsFate _ True bound hOnlyLate hWaiting
      hFate with ⟨f, hF, _, hWhat⟩
    rcases hSubmitted.late late rfl hItem hLate f hF with
      ⟨hFinished, hTimedOut⟩
    refine ⟨f, hF, ?_⟩
    rcases hWhat.of_finished hWaiting hFinished with
      ⟨_, hTimely, _⟩ | ⟨_, hLeft, _, hPending⟩
    · rw [hTimedOut] at hTimely
      cases hTimely
    · exact ⟨hLeft, hPending⟩
  · have hGone := hRunning rfl
    rw [hLeft.finished] at hGone
    cases hGone

------------------------------------------------------------
-- The End of a Part
------------------------------------------------------------

theorem ends_touch_ended (now : Instant) (s : TestSession) :
    Ends (touch now) s fun _ t =>
      t.state.ended = s.state.ended := by
  rw [touch, ends_bind, ends_changeState]
  dsimp only
  rw [ends_getState_bind]
  split
  · refine Ends.seq
      (P := fun t => t.state.ended = s.state.ended) ?_
      (fun _ _ hSame => hSame) ?_
    · rw [ends_onItem]
      split
      next => rfl
      next => exact Ends.of_forall fun _ _ => rfl
    · intro _ t hSame
      rw [ends_changeState]
      exact hSame
  · rfl

/- Only a part under way ends, and then it has ended. -/
theorem ends_endPart_ended (now : Instant) (s : TestSession) :
    Ends (endPart now) s fun r t =>
      r.isOk = true →
        s.state.finished = false ∧
          ∃ p, s.state.part = some p ∧ p ∉ s.state.ended ∧
            p ∈ t.state.ended := by
  have hFailed : ∀ (e : Failure) (t : TestSession),
      (Except.error e : Except Failure Unit).isOk = true →
        s.state.finished = false ∧
          ∃ p, s.state.part = some p ∧ p ∉ s.state.ended ∧
            p ∈ t.state.ended :=
    fun _ _ hOk => by cases hOk
  rw [endPart, mayEndPart, ends_bind]
  refine ends_ensureRunning_bind (fun e => hFailed e s)
    fun _ hRunning => ?_
  refine ends_runningPart_bind (fun e => hFailed e s)
    fun _ _ _ => ?_
  rw [ends_get_bind, ends_pure]
  dsimp only
  rw [ends_ite]
  split
  · refine ends_runningPart_bind (fun e => hFailed e s)
      fun p hPart hOpen => ?_
    have hMarked : ∀ t : TestSession,
        Ends
          (do
            switchSections [] now
            let last := p + 1 == (← get).test.parts.length
            TestSession.markEnded p last now
            touch now) t fun r u =>
          r.isOk = true →
            s.state.finished = false ∧
              ∃ q, s.state.part = some q ∧
                q ∉ s.state.ended ∧ q ∈ u.state.ended := by
      intro t
      refine Ends.skip hFailed fun _ t => ?_
      rw [ends_get_bind]
      dsimp only
      rw [TestSession.markEnded, ends_bind, ends_changeState]
      refine (ends_touch_ended now _).mono
        fun r u hSame _ => ?_
      refine ⟨hRunning, p, hPart, hOpen, ?_⟩
      rw [hSame]
      exact (mem_insertPlace p p _).mpr (Or.inl rfl)
    refine Ends.skip hFailed fun _ t => ?_
    refine Ends.skip hFailed fun _ t => ?_
    rw [ends_get_bind]
    refine Ends.skip hFailed fun processed t => ?_
    rw [ends_ite]
    split
    · exact Ends.skip hFailed fun _ t => hMarked t
    · exact hMarked t
  · rw [ends_bind, ends_refuse]
    exact hFailed _ s

/-
  At the end of a simultaneous part, the last responses of an
  item, all of them bound, have been processed once, and none
  of them wait any more. Only where a submission to the item
  came too late was it closed then, and they are left waiting.
-/
theorem waiting_settled_at_end
    (t : Test)
    (items : Keyed Item)
    (engine : Engine)
    (draws : Draws)
    (first : TestSession)
    (hStart : start t items engine draws = .ok first)
    (calls : List TestCall)
    (now : Instant)
    (p : Nat)
    (part : TestPart)
    (hPart : t.parts[p]? = some part)
    (hMode : part.submission = .simultaneous)
    (hCurrent : (first.after calls).state.part = some p)
    (hEnd : (run (endPart now) (first.after calls)).1 = .ok ())
    (i : Nat)
    (e : ItemEntry)
    (hItem : first.entries[i]? = some e)
    (hOwn : e.part = p)
    (sub : Submission)
    (bound : ItemSession)
    (hLast :
      (first.bindings i calls).getLast? = some (sub, bound))
    (hAll : sub.unbound = []) :
    ∃ f,
      (first.after (calls ++ [.endPart now])).entries[i]? =
        some f ∧
      ((ProcessedOnce (first.EndsCleanly calls) bound f.session ∧
          f.session.state.timedOut = false ∧
          f.session.state.pending = false) ∨
        (first.ComesLate i calls ∧
          LeftWaiting (first.EndsCleanly calls) bound f.session ∧
          f.session.state.timedOut = true ∧
          f.session.state.pending = true)) := by
  have hOrder := start_orderly hStart
  have hTest := start_test hStart
  have hFresh := start_fresh hStart e (List.mem_of_getElem? hItem)
  have hWaits : e.session.submission = .simultaneous := by
    rw [hFresh.submission, hOwn, hPart]
    exact hMode
  have hOpen :
      (first.test.parts[e.part]?).any keepsOpen = true := by
    rw [hTest, hOwn, hPart]
    simp [keepsOpen, hMode]
  have hLater :
      bound.state.IsWaiting ∧
        (FateAt (first.EndsCleanly calls)
            (first.ComesLate i calls) i bound
            (first.after calls) ∨
          (first.after calls).IsLeft) :=
    fateAt_of_bindings hOrder hItem hWaits hOpen calls id id
      hLast hAll
  rcases hLater with ⟨hWaiting, hFate⟩
  -- A part that ends is under way, so nobody has left.
  have hEnded := ends_endPart_ended now (first.after calls)
  unfold Ends at hEnded
  rw [show (Stateful.run (endPart now) (first.after calls)).1 =
    .ok () from hEnd] at hEnded
  rcases hEnded rfl with ⟨hRunning, q, hQ, _, hDone⟩
  have hSame : q = p :=
    Option.some.inj (hQ.symm.trans hCurrent)
  subst hSame
  have hAfter : first.after (calls ++ [.endPart now]) =
      (run (endPart now) (first.after calls)).2 := by
    rw [after_append]
    rfl
  have hOrder' :=
    after_orderly hOrder (calls ++ [.endPart now])
  have hPlaces := after_sameSetup first (calls ++ [.endPart now])
  have hFate' :
      FateAt (first.EndsCleanly calls)
        (first.ComesLate i calls) i bound
        (first.after (calls ++ [.endPart now])) := by
    rcases hFate with hFate | hLeft
    · rw [hAfter]
      refine endPart_keepsFateAt hWaiting now _ (fun _ => ?_)
        hFate
      rw [show (Stateful.run (endPart now)
        (first.after calls)).1 = .ok () from hEnd]
      rfl
    · rw [hLeft.finished] at hRunning
      cases hRunning
  rcases hFate' with ⟨f, hF, _, hWhat⟩
  have hFinished : f.session.state.finished = true := by
    refine InOrder.closed hOrder' i f hF ?_
    rw [(hPlaces.entries i e f hItem hF).1, hOwn, hAfter]
    exact hDone
  exact ⟨f, hF, hWhat.of_finished hWaiting hFinished⟩

/- A test of one part, whose one item waits for its end. -/
def waitingTest : Test :=
  { blankTest with
    parts :=
      [{ blankPart "only" with submission := .simultaneous }] }

/- The item is shown, and answered in time. -/
def answeredCalls : List TestCall :=
  openingCalls ⟨0⟩ ++ [.submit [] ⟨1⟩]

/-
  One submission is accepted, no end of a part fails, and at
  the end the item has been processed.
-/
theorem waiting_settled_at_end_once :
    ∃ first : TestSession,
      start waitingTest [("blank", blankItem)] ⟨{}, none⟩
        default = .ok first ∧
      first.EndsCleanly answeredCalls ∧
      ∃ (bound : ItemSession) (f : ItemEntry),
        first.bindings 0 answeredCalls = [({}, bound)] ∧
        (first.after
          (answeredCalls ++ [.endPart ⟨2⟩])).entries[0]? =
            some f ∧
        ProcessedOnce (first.EndsCleanly answeredCalls) bound
          f.session ∧
        f.session.state.pending = false := by
  have hRun : ∀ first : TestSession,
      start waitingTest [("blank", blankItem)] ⟨{}, none⟩
          default = .ok first →
        (first.entries[0]?.map ItemEntry.part = some 0 ∧
          (first.after answeredCalls).state.part = some 0) ∧
        (first.bindings 0 answeredCalls).map Prod.fst = [{}] ∧
        (run (endPart ⟨2⟩)
          (first.after answeredCalls)).1.toOption = some () ∧
        (first.after
          (answeredCalls ++ [.endPart ⟨2⟩])).entries[0]?.map
            (fun f => f.session.state.timedOut) =
              some false := by
    intro first hStart
    cases hStart
    decide +kernel
  have hClean : ∀ first : TestSession,
      first.EndsCleanly answeredCalls := by
    intro first earlier now hPrefix
    have hMem : TestCall.endPart now ∈ answeredCalls :=
      hPrefix.subset (by simp)
    simp [answeredCalls, openingCalls] at hMem
  refine ⟨_, rfl, hClean _, ?_⟩
  rcases hRun _ rfl with
    ⟨⟨hItem, hPart⟩, hBound, hEnd, hTimely⟩
  rcases Option.map_eq_some_iff.mp hItem with ⟨e, hE, hOwn⟩
  rcases List.map_eq_singleton_iff.mp hBound with
    ⟨⟨_, bound⟩, hOne, rfl⟩
  have hSettled :=
    waiting_settled_at_end waitingTest [("blank", blankItem)]
      ⟨{}, none⟩ default _ rfl answeredCalls ⟨2⟩ 0 _ rfl rfl
      hPart (eq_ok_of_toOption hEnd) 0 e hE hOwn {} bound
      (by rw [hOne]; rfl) rfl
  rcases hSettled with ⟨f, hF, hProcessed | hLeft⟩
  · exact ⟨bound, f, hOne, hF, hProcessed.1, hProcessed.2.2⟩
  · rw [hF] at hTimely
    cases hLeft.2.2.1.symm.trans (Option.some.inj hTimely)

end TestSession

end Assessment
