import Assessment.Proofs.Item.Answers
import Assessment.Proofs.Test.Clock
import Assessment.Proofs.Test.Ending
import Assessment.Proofs.Test.Walk
import Assessment.Proofs.Test.Waiting

/-
  Parts that cannot be ended.

  Whether a part may be ended is decided by what is known of
  the responses of its items. That stays as it is once all of
  them are finished. So the part can be ended then, or it is
  locked: as long as nobody leaves the test, every call to end
  the part and to go on to the next one is refused.

  Main declarations:
    * `ItemEntry.Bars`, a finished item that locks its part
    * `TestSession.IsUnderWay.run_mayEndPart` and
      `TestSession.IsUnderWay.ends_endPart`
    * `TestSession.IsDone.run_endPart`, the way on
    * `TestSession.IsLocked` and `IsLocked.after`
    * `TestSession.end_of_part_of_calls`
-/

------------------------------------------------------------
-- Responses in a Test
------------------------------------------------------------

namespace Assessment

open Stateful

namespace TestSession

open ItemSession

/- To go from item to item binds and processes nothing. -/
theorem wayMoves_leavesAnswers : WayMoves LeavesAnswers where
  touch := touch_leavesAnswers
  enter := enter_leavesAnswers
  suspend := suspend_leavesAnswers
  resume := resume_leavesAnswers
  finish := finish_leavesAnswers
  skip := skip_leavesAnswers

theorem partsMove_leavesAnswers :
    PartsMove (Placewise LeavesAnswers) :=
  partsMove_placewise leavesAnswers_events
    wayMoves_leavesAnswers

theorem sameAnswers_events : IgnoresEvents SameAnswers :=
  fun s events => (leavesAnswers_events s events).toSameAnswers

theorem screened_events : IgnoresEvents KeepsScreened :=
  fun s events => (leavesAnswers_events s events).keepsScreened

theorem onItem_screened
    {α : Type}
    {x : Action α}
    (hMoves : Moves LeavesAnswers x)
    (i : Nat) :
    Moves (Placewise KeepsScreened) (onItem i x) :=
  onItem_placewise screened_events
    (hMoves.mono fun _ _ hLeaves => hLeaves.keepsScreened) i

theorem partsMove_screened :
    PartsMove (Placewise KeepsScreened) := by
  have hLifts :
      Lifts LeavesAnswers (Placewise KeepsScreened) :=
    ⟨fun hMoves i => onItem_screened hMoves i⟩
  exact hLifts.partsMove_of_ignores wayMoves_leavesAnswers
    ignoresState_placewise

------------------------------------------------------------
-- Closing Items
------------------------------------------------------------

/- Responses fit where they have to. -/
def IsValid (s : ItemSession) : Prop :=
  s.control.validates = true → s.state.invalid = []

/- What waits is processed at the end if it was all bound. -/
theorem ends_closeItem_screened
    {s : ItemSession}
    (hValid : IsValid s)
    (now : Instant) :
    Ends (closeItem now) s fun _ t =>
      s.SameAnswers t ∧ s.KeepsScreened t := by
  have hFinish : ∀ t, s.SameAnswers t → s.KeepsScreened t →
      Ends (finish now) t fun _ u =>
        s.SameAnswers u ∧ s.KeepsScreened u := by
    intro t hSame hKeeps
    refine (finish_leavesAnswers now t).mono fun _ u hLeaves => ?_
    exact ⟨IsTrans.trans _ _ _ hSame hLeaves.toSameAnswers,
      hLeaves.keepsScreened ∘ hKeeps⟩
  have hSelf : s.SameAnswers s ∧ s.KeepsScreened s :=
    ⟨Std.Refl.refl (r := SameAnswers) s, id⟩
  simp only [closeItem, processPending, ends_bind,
    ItemSession.ends_getState, ends_ite, ends_pure]
  split
  next => exact hSelf
  split
  next hWaits =>
    have hBound : s.state.unbound = [] := by
      simp only [Bool.and_eq_true, List.isEmpty_iff] at hWaits
      exact hWaits.2
    refine (processResponses_sameAnswers s).mono
      fun r t hSame => ?_
    have hKeeps : s.KeepsScreened t :=
      fun _ _ => hSame.isFit ⟨hBound, hValid⟩
    cases r with
    | error => exact ⟨hSame, hKeeps⟩
    | ok =>
        refine (hFinish t hSame hKeeps).mono fun r u hBoth => ?_
        cases r <;> exact hBoth
  next =>
    refine (hFinish s hSelf.1 hSelf.2).mono fun r u hBoth => ?_
    cases r <;> exact hBoth

theorem ends_closeItems_screened
    (now : Instant)
    (places : List (ItemEntry × Nat))
    {s : TestSession}
    (hValid :
      ∀ x ∈ places, ∀ e, s.entries[x.2]? = some e →
        IsValid e.session) :
    Ends (closeItems now places) s fun _ t =>
      Placewise KeepsScreened s t := by
  induction places generalizing s with
  | nil => exact Std.Refl.refl (r := Placewise KeepsScreened) s
  | cons x rest ih =>
      rcases x with ⟨d, i⟩
      rw [closeItems, ends_bind, ends_onItem]
      split
      next =>
        exact Std.Refl.refl (r := Placewise KeepsScreened) s
      next e hE =>
        have hOwn := hValid (d, i) List.mem_cons_self e hE
        refine (ends_closeItem_screened hOwn now).mono
          fun r session hClosed => ?_
        have hPut :=
          putSession_placewise screened_events hE hClosed.2
        have hSame :=
          putSession_placewise sameAnswers_events hE hClosed.1
        cases r with
        | error => exact hPut
        | ok =>
            dsimp only
            rw [ends_bind]
            refine (ih ?_).mono fun r t hRest => ?_
            · intro x hMem f hF
              rcases hSame.exists_before hF with ⟨g, hG⟩
              have hKept := (hSame.entries _ g f hG hF).2
              have hFit :=
                hValid x (List.mem_cons_of_mem _ hMem) g hG
              unfold IsValid
              rw [hKept.control, hKept.invalid]
              exact hFit
            · cases r <;> exact IsTrans.trans _ _ _ hPut hRest

------------------------------------------------------------
-- What Bars a Part
------------------------------------------------------------

/- What is known of its responses decides about an item. -/
theorem mayLeave_of_sameAnswers
    {e f : ItemEntry}
    (hSame : e.session.SameAnswers f.session) :
    mayLeave f = mayLeave e := by
  simp only [mayLeave, ItemState.respondedValidly,
    hSame.control, hSame.responded, hSame.unbound,
    hSame.invalid]

theorem isValid_of_mayLeave
    {e : ItemEntry}
    (hMay : mayLeave e = true) :
    IsValid e.session := by
  intro hValidates
  unfold mayLeave ItemState.respondedValidly at hMay
  simp only [hValidates, Bool.not_true, Bool.false_or,
    Bool.and_eq_true, List.isEmpty_iff] at hMay
  exact hMay.2.2

theorem releases_iff (p : Nat) (s : TestSession) :
    s.releases p = true ↔
      ∀ (i : Nat) (e : ItemEntry), s.entries[i]? = some e →
        e.part = p → mayLeave e = true := by
  unfold releases
  rw [List.all_eq_true]
  constructor
  · rintro hAll i e hE rfl
    exact hAll (e, i) (mem_entriesIn_of_getElem? hE)
  · rintro hAll ⟨e, i⟩ hMem
    rcases mem_entriesIn hMem with ⟨hE, hPart⟩
    exact hAll i e hE hPart

/- A part is released by what its items tell. -/
theorem Placewise.releases_eq
    {s t : TestSession}
    {p : Nat}
    (hPlaces : Placewise Shut s t)
    (hClosed : s.ClosedIn p) :
    t.releases p = s.releases p := by
  have hSame : ∀ (i : Nat) (e f : ItemEntry),
      s.entries[i]? = some e → t.entries[i]? = some f →
        e.part = p → mayLeave f = mayLeave e :=
    fun i e f hE hF hPart => mayLeave_of_sameAnswers
      ((hPlaces.entries i e f hE hF).2 (hClosed i e hE hPart))
  rw [Bool.eq_iff_iff, TestSession.releases_iff,
    TestSession.releases_iff]
  constructor
  · intro hAll i e hE hPart
    rcases hPlaces.exists_after hE with ⟨f, hF⟩
    have hKept := (hPlaces.entries i e f hE hF).1
    rw [← hSame i e f hE hF hPart]
    exact hAll i f hF (hKept.trans hPart)
  · intro hAll i f hF hPart
    rcases hPlaces.exists_before hF with ⟨e, hE⟩
    have hKept := (hPlaces.entries i e f hE hF).1
    rw [hSame i e f hE hF (hKept.symm.trans hPart)]
    exact hAll i e hE (hKept.symm.trans hPart)

/- Finished items of a part stay finished. -/
theorem Placewise.closedIn
    {s t : TestSession}
    {p : Nat}
    (hPlaces : Placewise Shut s t)
    (hClosed : s.ClosedIn p) :
    t.ClosedIn p := by
  intro i f hF hPart
  rcases hPlaces.exists_before hF with ⟨e, hE⟩
  have hKept := hPlaces.entries i e f hE hF
  have hDone := hClosed i e hE (hKept.1.symm.trans hPart)
  exact (hKept.2 hDone).finished hDone

/- What may be left behind is valid, and stays so. -/
theorem isValid_of_releases
    {s t : TestSession}
    {p : Nat}
    (hMay : s.releases p = true)
    (hLeft : Placewise LeavesAnswers s t)
    (x : ItemEntry × Nat)
    (hMem : x ∈ t.entriesIn p)
    (f : ItemEntry)
    (hF : t.entries[x.2]? = some f) :
    IsValid f.session := by
  rcases mem_entriesIn hMem with ⟨hOwn, hPart⟩
  rw [hOwn] at hF
  cases hF
  rcases hLeft.exists_before hOwn with ⟨e, hE⟩
  have hKept := hLeft.entries x.2 e _ hE hOwn
  have hLeave := (releases_iff p s).mp hMay x.2 e hE
    (hKept.1.symm.trans hPart)
  rw [← mayLeave_of_sameAnswers hKept.2.toSameAnswers]
    at hLeave
  exact isValid_of_mayLeave hLeave

/- To mark a part leaves its items as they are. -/
theorem marking_screened (p : Nat) (now : Instant) :
    Moves (Placewise KeepsScreened) (do
      switchSections [] now
      let last := p + 1 == (← get).test.parts.length
      TestSession.markEnded p last now
      TestSession.touch now) := by
  have hChange :=
    (ignoresState_placewise (A := KeepsScreened)).frames
  exact marking_moves (partsMove_screened.touch now)
    (hChange.changeState fun _ => rfl)
    (fun _ _ => hChange.changeState fun _ => rfl) p

/- Ending a part screens what it processes. -/
theorem endPart_screened (now : Instant) :
    Moves (Placewise KeepsScreened) (endPart now) := by
  intro s
  refine ends_endPart_gates
    (Std.Refl.refl (r := Placewise KeepsScreened) s) now
    fun p _ _ _ hMay => ?_
  have hWider : ∀ t, Placewise LeavesAnswers s t →
      Placewise KeepsScreened s t :=
    fun _ hPlaces => hPlaces.mono fun _ _ hLeaves =>
      hLeaves.keepsScreened
  rw [ending]
  -- Until the items are closed, their responses stay.
  refine Ends.seq (partsMove_leavesAnswers.touch now s)
    (fun _ t hTouched => hWider t hTouched)
    fun _ t hTouched => ?_
  refine Ends.seq (partsMove_leavesAnswers.leaveCurrent now t)
    (fun _ u hMove => hWider u (IsTrans.trans _ _ _ hTouched
      hMove))
    fun _ u hMove => ?_
  have hLeft : Placewise LeavesAnswers s u :=
    IsTrans.trans _ _ _ hTouched hMove
  rw [ends_get_bind]
  refine Ends.seq (ends_closeItems_screened now _
      (isValid_of_releases hMay hLeft))
    (fun _ v hClosed => IsTrans.trans _ _ _ (hWider u hLeft)
      hClosed)
    fun processed v hClosed => ?_
  have hRest :=
    Moves.ite_bind (c := processed = true)
      partsMove_screened.processOutcomes
      fun _ => marking_screened p now
  exact (hRest v).mono fun _ w hMarked =>
    IsTrans.trans _ _ _
      (IsTrans.trans _ _ _ (hWider u hLeft) hClosed) hMarked

/- All calls screen what they process. -/
theorem call_screened (c : TestCall) :
    Moves (Placewise KeepsScreened) c.action := by
  refine call_moves partsMove_screened.steps
    (ignoresState_placewise.initialise fun i defaults => ?_)
    (fun responses now _ =>
      partsMove_screened.steps.submit (fun i => ?_) fun i => ?_)
    (fun now _ => endPart_screened now)
    (fun now _ =>
      partsMove_screened.steps.exit fun i => ?_)
  · exact onItem_screened (initialise_leavesAnswers defaults) i
  · exact onItem_screened (timeOut_leavesAnswers now) i
  · exact onItem_placewise screened_events
      (submit_keepsScreened responses now) i
  · exact onItem_screened (exit_leavesAnswers now) i

/- At the start, nothing has been bound. -/
theorem start_screened
    {t : Test}
    {items : Keyed Item}
    {engine : Engine}
    {draws : Draws}
    {s : TestSession}
    (hStart : start t items engine draws = .ok s)
    (e : ItemEntry)
    (hMem : e ∈ s.entries) :
    e.session.IsScreened := by
  intro _
  unfold IsFit
  rw [(start_fresh hStart e hMem).state]
  exact ⟨rfl, fun _ => rfl⟩

theorem after_screened
    {t : Test}
    {items : Keyed Item}
    {engine : Engine}
    {draws : Draws}
    {first : TestSession}
    (hStart : start t items engine draws = .ok first)
    (calls : List TestCall)
    {i : Nat}
    {f : ItemEntry}
    (hF : (first.after calls).entries[i]? = some f) :
    f.session.IsScreened := by
  have hPlaces : Placewise KeepsScreened first
      (first.after calls) :=
    after_moves call_screened first calls
  rcases hPlaces.exists_before hF with ⟨e, hE⟩
  exact (hPlaces.entries i e f hE hF).2
    (start_screened hStart e (List.mem_of_getElem? hE))

end TestSession

/-
  An item bars the end of its part: nothing has been answered
  where something has to be, or its last responses, which are
  validated, did not fit and were never processed.
-/
def ItemEntry.Bars (e : ItemEntry) : Prop :=
  let s := e.session.state
  let control := e.session.control
  (s.responded = false ∧
      (control.allowsSkipping = false ∨
        control.validates = true)) ∨
    (s.responded = true ∧ control.validates = true ∧
      s.pending = true ∧ ¬ e.session.IsFit)

namespace TestSession

open ItemSession

theorem mayLeave_iff_not_bars
    {e : ItemEntry}
    (hScreened : e.session.IsScreened) :
    mayLeave e = true ↔ ¬ e.Bars := by
  have hDone := hScreened
  unfold IsScreened IsFit at hDone
  unfold ItemEntry.Bars IsFit
  simp only [mayLeave, ItemState.respondedValidly]
  cases hResponded : e.session.state.responded <;>
    cases hSkips : e.session.control.allowsSkipping <;>
    cases hValidates : e.session.control.validates <;>
    cases hPending : e.session.state.pending <;>
    simp_all

------------------------------------------------------------
-- Parts With All Items Finished
------------------------------------------------------------

/- A part is under way, and all of its items are finished. -/
structure IsDone (p : Nat) (s : TestSession) : Prop
    extends IsUnderWay p s where
  closed : s.ClosedIn p

/- Whether a part may be ended is only looked at. -/
theorem IsUnderWay.run_mayEndPart
    {p : Nat}
    {s : TestSession}
    (hUnderWay : IsUnderWay p s) :
    run mayEndPart s = (.ok (s.releases p), s) := by
  have hEnds : Ends mayEndPart s fun r t =>
      (r, t) = (.ok (s.releases p), s) := by
    rw [mayEndPart, hUnderWay.ends_ensureRunning,
      hUnderWay.ends_runningPart]
    rfl
  exact hEnds

/- It is ended if its items may be left, and refused if not. -/
theorem IsUnderWay.ends_endPart
    {p : Nat}
    {s : TestSession}
    (hUnderWay : IsUnderWay p s)
    (now : Instant)
    (Q : Except Failure Unit → TestSession → Prop) :
    Ends (endPart now) s Q ↔
      if s.releases p = true then Ends (ending p now) s Q
      else Q (.error (.refused .partIncomplete)) s := by
  rw [endPart, mayEndPart, ends_bind,
    hUnderWay.ends_ensureRunning, hUnderWay.ends_runningPart,
    ends_get_bind, ends_pure]
  dsimp only
  rw [ends_ite]
  unfold releases
  split
  · rw [hUnderWay.ends_runningPart]
    rfl
  · rw [ends_bind, ends_refuse]

/- With its current item in place, a test takes its time. -/
theorem ends_touch_ok
    {s : TestSession}
    (hOrder : s.Orderly)
    (now : Instant) :
    Ends (touch now) s fun r _ => r = .ok () := by
  rw [ends_touch_iff]
  cases hItem : s.state.item with
  | none => rfl
  | some i =>
      rcases InOrder.current hOrder i hItem with ⟨e, hE, _⟩
      dsimp only
      rw [ends_onItem, show (s.touchedTimers now).entries[i]? =
        some e from hE]
      rfl

/- A finished item is left without further ado. -/
theorem ends_leaveCurrent_ok
    {s : TestSession}
    (hFinished :
      ∀ i, s.state.item = some i →
        ∃ e, s.entries[i]? = some e ∧
          e.session.state.finished = true)
    (now : Instant) :
    Ends (leaveCurrent now) s fun r _ => r = .ok () := by
  rw [leaveCurrent, ends_get_bind]
  split
  next i hItem =>
    rcases hFinished i hItem with ⟨e, hE, hDone⟩
    have hPhase : e.session.state.phase = .finished :=
      (ItemState.phase_eq_finished_iff _).mpr hDone
    rw [ends_bind, ends_onItem, hE]
    simp [leaveItem, hPhase]
  next => rfl

/- Finished items need not be closed. -/
theorem ends_closeItems_finished
    (now : Instant)
    (places : List (ItemEntry × Nat))
    {s : TestSession}
    (hFinished :
      ∀ x ∈ places, ∃ e, s.entries[x.2]? = some e ∧
        e.session.state.finished = true) :
    Ends (closeItems now places) s fun r t =>
      r = .ok false ∧ t.state = s.state := by
  induction places generalizing s with
  | nil => exact ⟨rfl, rfl⟩
  | cons x rest ih =>
      rcases x with ⟨d, i⟩
      rcases hFinished (d, i) List.mem_cons_self with
        ⟨e, hE, hDone⟩
      have hPhase : e.session.state.phase = .finished :=
        (ItemState.phase_eq_finished_iff _).mpr hDone
      have hClose :
          Ends (closeItem now) e.session fun r t =>
            r = .ok false ∧ t = e.session := by
        simp [closeItem, hPhase]
      rw [closeItems, ends_bind, ends_onItem, hE]
      refine hClose.mono ?_
      rintro r session ⟨rfl, rfl⟩
      dsimp only
      rw [ends_bind]
      refine (ih ?_).mono ?_
      · intro x hMem
        rcases hFinished x (List.mem_cons_of_mem _ hMem) with
          ⟨f, hF, hOver⟩
        have hPlaces : Placewise Shut s
            (putSession s i e e.session) :=
          putSession_placewise shut_events hE
            (Std.Refl.refl (r := Shut) _)
        rcases hPlaces.exists_after hF with ⟨g, hG⟩
        have hKept := (hPlaces.entries _ f g hF hG).2 hOver
        exact ⟨g, hG, hKept.finished hOver⟩
      · rintro r t ⟨rfl, hSame⟩
        exact ⟨rfl, hSame⟩

/- A part whose items are all finished is ended without fail. -/
theorem ends_ending_ok
    {p : Nat}
    {s : TestSession}
    (hOrder : s.Orderly)
    (hPart : s.state.part = some p)
    (hClosed : s.ClosedIn p)
    (now : Instant) :
    Ends (ending p now) s fun r _ => r = .ok () := by
  have hShut : ItemCall.Obey Shut := fun c _ => c.shut
  have hParts := partsMove_placewise shut_events hShut.way
  rw [ending, ends_bind]
  refine ((ends_touch_ok hOrder now).and
    ((touch_calm hOrder now).and (hParts.touch now s))).mono ?_
  rintro r t ⟨rfl, hCalm, hPlaces⟩
  have hOrderT := hCalm.orderly hOrder
  have hPartT := (Onward.part hCalm).trans hPart
  have hClosedT := hPlaces.closedIn hClosed
  have hCurrent : ∀ i, t.state.item = some i →
      ∃ e, t.entries[i]? = some e ∧
        e.session.state.finished = true := by
    intro i hItem
    rcases InOrder.current hOrderT i hItem with ⟨e, hE, hOwn, _⟩
    have hSame : some e.part = some p := hOwn.symm.trans hPartT
    exact ⟨e, hE, hClosedT i e hE (Option.some.inj hSame)⟩
  dsimp only
  rw [ends_bind]
  refine ((ends_leaveCurrent_ok hCurrent now).and
    ((ends_leaveCurrent hOrderT now).and
      (hParts.leaveCurrent now t))).mono ?_
  rintro r u ⟨rfl, ⟨_, _, hNone⟩, hPlacesU⟩
  have hClosedU := hPlacesU.closedIn hClosedT
  dsimp only
  rw [ends_get_bind, ends_bind]
  refine (ends_closeItems_finished now (u.entriesIn p) ?_).mono
    ?_
  · rintro ⟨e, i⟩ hMem
    rcases mem_entriesIn hMem with ⟨hE, hOwn⟩
    exact ⟨e, hE, hClosedU i e hE hOwn⟩
  · rintro r v ⟨rfl, hState⟩
    have hItem : v.state.item = none := by
      rw [hState]
      exact hNone rfl
    exact (ends_marked hItem p now _).mpr rfl

/- A part that is done and released can be ended. -/
theorem IsDone.run_endPart
    {p : Nat}
    {s : TestSession}
    (hOrder : s.Orderly)
    (hDone : IsDone p s)
    (hReleased : s.releases p = true)
    (now : Instant) :
    ∃ t, run (endPart now) s = (.ok (), t) ∧
      p ∈ t.state.ended := by
  have hOk : Ends (endPart now) s fun r _ => r = .ok () := by
    rw [hDone.ends_endPart, if_pos hReleased]
    exact ends_ending_ok hOrder hDone.part hDone.closed now
  have hEnded := ends_endPart_ended now s
  unfold Ends at hOk hEnded
  rcases hEnded (by rw [hOk]; rfl) with ⟨_, q, hQ, _, hMem⟩
  have hSame : q = p := by
    rw [hDone.part] at hQ
    exact (Option.some.inj hQ).symm
  subst hSame
  exact ⟨_, Prod.ext hOk rfl, hMem⟩

------------------------------------------------------------
-- Locked Parts
------------------------------------------------------------

/- A part is done, but it may not be ended. -/
structure IsLocked (p : Nat) (s : TestSession) : Prop
    extends IsDone p s where
  locked : s.releases p = false

namespace IsLocked

variable {p : Nat}
variable {s t : TestSession}

theorem of_near
    (hLocked : IsLocked p s)
    (hNear : s.Near t)
    (hEntered : t.state.entered = true)
    (hPlaces : Placewise Shut s t) :
    IsLocked p t where
  initialized := hNear.initialized_eq.trans hLocked.initialized
  entered := hEntered
  finished := hNear.finished_eq.trans hLocked.finished
  part := hNear.part_eq.trans hLocked.part
  ended := by
    rw [hNear.ended_eq]
    exact hLocked.ended
  closed := hPlaces.closedIn hLocked.closed
  locked := by
    rw [hPlaces.releases_eq hLocked.closed]
    exact hLocked.locked

/- A locked part cannot be ended. -/
theorem run_endPart
    (hLocked : IsLocked p s)
    (now : Instant) :
    run (endPart now) s =
      (.error (.refused .partIncomplete), s) := by
  have hEnds : Ends (endPart now) s fun r t =>
      (r, t) = (.error (.refused .partIncomplete), s) := by
    rw [hLocked.ends_endPart, hLocked.locked]
    rfl
  exact hEnds

/- Nor is there a way from a locked part to the next. -/
theorem run_nextPart
    (hLocked : IsLocked p s)
    (now : Instant) :
    run (nextPart now) s =
      (.error (.refused .partNotEnded), s) := by
  have hOpen :
      (s.state.part.any fun i => !s.state.ended.contains i) =
        true := by
    simp [hLocked.part, hLocked.ended]
  have hEnds : Ends (nextPart now) s fun r t =>
      (r, t) = (.error (.refused .partNotEnded), s) := by
    rw [nextPart, hLocked.ends_ensureRunning, ends_get_bind]
    dsimp only
    rw [hOpen, ends_ite, if_pos rfl, ends_bind, ends_refuse]
  exact hEnds

/- A call that does not leave the test leaves it locked. -/
theorem step
    (hLocked : IsLocked p s)
    (hOrder : s.Orderly)
    (c : TestCall)
    (hStays : ∀ now, c ≠ .exit now) :
    IsLocked p (s.after [c]) := by
  have hPlaces : Placewise Shut s (s.after [c]) :=
    TestCall.placewise shut_events ItemCall.shut c s
  have hEntered : (s.after [c]).state.entered = true :=
    (call_ticks c s).entered hLocked.entered
  have hNear : s.Near (s.after [c]) → IsLocked p (s.after [c]) :=
    fun hNear => hLocked.of_near hNear hEntered hPlaces
  have hSame : ∀ x : TestAction Unit, (run x s).2 = s →
      s.Near (run x s).2 := by
    intro x hRun
    rw [hRun]
    exact Near.refl s
  cases c with
  | initialise =>
      refine hNear (hSame initialise ?_)
      exact ends_initialise_again hLocked.initialized
        (Q := fun _ t => t = s) fun _ => rfl
  | enterTest now =>
      refine hNear (hSame (enterTest now) ?_)
      have hRefused : Ends (enterTest now) s fun _ t => t = s := by
        rw [ends_enterTest_iff, if_pos hLocked.initialized,
          if_pos hLocked.entered]
      exact hRefused
  | nextPart now =>
      refine hNear (hSame (discard (nextPart now)) ?_)
      have hRun := run_discard_snd (nextPart now) s
      rw [show Stateful.run (nextPart now) s = _ from
        hLocked.run_nextPart now] at hRun
      exact hRun
  | nextItem now =>
      exact hNear (ends_discard.mpr
        ((ends_nextItem hOrder now).mono fun _ _ h => h.2))
  | selectItem ref occurrence now =>
      exact hNear (ends_discard.mpr
        ((ends_selectItem hOrder ref occurrence now).mono
          fun _ _ h => h.2))
  | submit responses now =>
      exact hNear (ends_discard.mpr
        ((submit_calm hOrder responses now).mono
          fun _ _ hCalm => hCalm.near))
  | endPart now =>
      refine hNear (hSame (endPart now) ?_)
      rw [hLocked.run_endPart now]
  | exit now => exact absurd rfl (hStays now)
  | processOutcomes =>
      exact hNear ((processOutcomes_calm s).mono
        fun _ _ hCalm => hCalm.near)
  | touch now =>
      exact hNear ((touch_calm hOrder now).mono
        fun _ _ hCalm => hCalm.near)

/- As long as nobody leaves the test, the part stays locked. -/
theorem after
    (hLocked : IsLocked p s)
    (hOrder : s.Orderly)
    (later : List TestCall)
    (hStays : ∀ now, TestCall.exit now ∉ later) :
    IsLocked p (s.after later) := by
  induction later using List.reverseRecOn with
  | nil => exact hLocked
  | append_singleton later c ih =>
      rw [after_append]
      refine (ih ?_).step (after_orderly hOrder later) c ?_
      · intro now hMem
        exact hStays now (List.mem_append_left _ hMem)
      · rintro now rfl
        exact hStays now (List.mem_append_right _
          (List.mem_singleton_self _))

end IsLocked

/- A part in which nothing but to leave the test is left. -/
structure NoWayOn (p : Nat) (s : TestSession) : Prop where
  part : s.state.part = some p ∧ p ∉ s.state.ended
  finished : s.state.finished = false
  mayEndPart : run mayEndPart s = (.ok false, s)
  endPart :
    ∀ now, run (endPart now) s =
      (.error (.refused .partIncomplete), s)
  nextPart :
    ∀ now, run (nextPart now) s =
      (.error (.refused .partNotEnded), s)

theorem IsLocked.noWayOn
    {p : Nat}
    {s : TestSession}
    (hLocked : IsLocked p s) :
    NoWayOn p s where
  part := ⟨hLocked.part, hLocked.ended⟩
  finished := hLocked.finished
  mayEndPart := by
    rw [hLocked.run_mayEndPart, hLocked.locked]
  endPart := hLocked.run_endPart
  nextPart := hLocked.run_nextPart

/-
  When all items of the part under way are finished, the part
  may be ended unless one of them bars it. If it may, it can
  be. If not, that stays so whatever calls are made, until the
  test is left.
-/
theorem end_of_part_of_calls
    (t : Test)
    (items : Keyed Item)
    (engine : Engine)
    (draws : Draws)
    (first : TestSession)
    (hStart : start t items engine draws = .ok first)
    (calls : List TestCall)
    (p : Nat)
    (hUnderWay : IsUnderWay p (first.after calls))
    (hClosed :
      ∀ e ∈ (first.after calls).entries, e.part = p →
        e.session.state.phase = .finished) :
    ∃ may,
      run mayEndPart (first.after calls) =
          (.ok may, first.after calls) ∧
        (may = true ↔
          ∀ e ∈ (first.after calls).entries, e.part = p →
            ¬ e.Bars) ∧
        (may = true →
          ∀ now, ∃ u,
            run (endPart now) (first.after calls) =
                (.ok (), u) ∧
              p ∈ u.state.ended) ∧
        (may = false →
          ∀ later, (∀ now, TestCall.exit now ∉ later) →
            NoWayOn p ((first.after calls).after later)) := by
  have hOrder := after_orderly (start_orderly hStart) calls
  have hDone : IsDone p (first.after calls) := by
    refine ⟨hUnderWay, fun i e hE hPart => ?_⟩
    exact (ItemState.phase_eq_finished_iff _).mp
      (hClosed e (List.mem_of_getElem? hE) hPart)
  refine ⟨_, hUnderWay.run_mayEndPart, ?_, ?_, ?_⟩
  · rw [releases_iff]
    constructor
    · intro hAll e hMem hPart
      rcases List.getElem?_of_mem hMem with ⟨i, hE⟩
      exact (mayLeave_iff_not_bars
        (after_screened hStart calls hE)).mp (hAll i e hE hPart)
    · intro hNone i e hE hPart
      exact (mayLeave_iff_not_bars
        (after_screened hStart calls hE)).mpr
          (hNone e (List.mem_of_getElem? hE) hPart)
  · exact fun hMay => hDone.run_endPart hOrder hMay
  · intro hMay later hStays
    exact (IsLocked.after ⟨hDone, hMay⟩ hOrder later
      hStays).noWayOn

/- A test with one item, that must not be skipped. -/
def strictTest : Test :=
  { blankTest with
    parts := [
      { blankPart "only" with
        control := some { allowSkipping := some false } }] }

/- The item is finished by a submission without responses. -/
theorem strict_finished :
    ∃ first : TestSession,
      start strictTest [("blank", blankItem)] ⟨{}, none⟩
          default = .ok first ∧
        IsUnderWay 0 (first.after answeredCalls) ∧
        (∀ e ∈ (first.after answeredCalls).entries,
          e.part = 0 → e.session.state.phase = .finished) ∧
        (first.after answeredCalls).releases 0 = false := by
  refine ⟨_, rfl, ⟨⟨?_, ?_, ?_⟩, ?_, ?_⟩, ?_, ?_⟩
  · decide +kernel
  · decide +kernel
  · decide +kernel
  · decide +kernel
  · decide +kernel
  · decide +kernel
  · decide +kernel

/- Its part cannot be ended, however often that is tried. -/
theorem end_of_part_of_calls_strict :
    ∃ first : TestSession,
      start strictTest [("blank", blankItem)] ⟨{}, none⟩
          default = .ok first ∧
        ∀ later, (∀ now, TestCall.exit now ∉ later) →
          NoWayOn 0
            ((first.after answeredCalls).after later) := by
  rcases strict_finished with
    ⟨first, hStart, hUnderWay, hClosed, hLocked⟩
  refine ⟨first, hStart, ?_⟩
  rcases end_of_part_of_calls strictTest [("blank", blankItem)]
    ⟨{}, none⟩ default first hStart answeredCalls 0 hUnderWay
    hClosed with ⟨may, hMay, _, _, hNoWay⟩
  rw [hUnderWay.run_mayEndPart, hLocked] at hMay
  cases hMay
  exact hNoWay rfl

/- A part may have to stay though all items are finished. -/
theorem finished_items_lock_part :
    ¬ ∀ (t : Test) (items : Keyed Item) (engine : Engine)
        (draws : Draws) (first : TestSession),
        start t items engine draws = .ok first →
          ∀ (calls : List TestCall) (p : Nat),
            IsUnderWay p (first.after calls) →
              (∀ e ∈ (first.after calls).entries, e.part = p →
                e.session.state.phase = .finished) →
                (run mayEndPart (first.after calls)).1 =
                  .ok true := by
  intro hClaim
  rcases strict_finished with
    ⟨first, hStart, hUnderWay, hClosed, hLocked⟩
  have hMay := hClaim _ _ _ _ first hStart answeredCalls 0
    hUnderWay hClosed
  rw [hUnderWay.run_mayEndPart, hLocked] at hMay
  cases hMay

end TestSession

end Assessment
