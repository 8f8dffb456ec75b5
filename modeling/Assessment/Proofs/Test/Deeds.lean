import Assessment.Proofs.Test.Ending
import Assessment.Proofs.Test.Waiting
import Assessment.Proofs.Test.Walk

/-
  What calls to a test session bring about.

  A call that goes through enters a part, shows an item, takes
  a submission or ends a part. Which items are still to come
  in the part under way is known from the current item, and
  with every item that is shown there is one less of them.

  Main declarations:
    * `TestDeed` and `TestCall.deed?`, what comes of a call
    * `TestSession.upcoming`, the places still to come, with
      `Turns.upcoming_eq`
    * `ends_hasMoreParts`, `ends_nextPart_entering`,
      `ends_hasMoreItems` and `ends_endPart_closing`
-/

------------------------------------------------------------
-- Deeds
------------------------------------------------------------

namespace Assessment

open Stateful

/- What comes of a call to a test session. -/
inductive TestDeed where
  | enters (part : Nat)
  | shows (place : Nat)
  | submits (place : Nat) (responses : ItemSession.Responses)
  | ends (part : Nat)
deriving DecidableEq

/- What a call brings about, if it goes through. -/
def TestCall.deed? (c : TestCall) (s : TestSession) :
    Option TestDeed :=
  match c with
  | .nextPart now =>
      match TestSession.run (TestSession.nextPart now) s with
      | (.ok (some _), t) => t.state.part.map .enters
      | _ => none
  | .nextItem _ => (c.shows s).map .shows
  | .selectItem ref occurrence now =>
      match TestSession.run
          (TestSession.selectItem ref occurrence now) s with
      | (.ok (some _), t) => t.state.item.map .shows
      | _ => none
  | .submit responses now =>
      match TestSession.run
          (TestSession.submit responses now) s with
      | (.ok _, _) => s.state.item.map (.submits · responses)
      | _ => none
  | .endPart now =>
      match TestSession.run (TestSession.endPart now) s with
      | (.ok _, _) => s.state.part.map .ends
      | _ => none
  | _ => none

namespace TestCall

variable {s t : TestSession}
variable {now : Instant}

theorem deed?_nextPart
    {part : TestPart}
    (hRun :
      run (TestSession.nextPart now) s = (.ok (some part), t)) :
    (nextPart now).deed? s = t.state.part.map .enters := by
  simp only [deed?]
  rw [show TestSession.run _ s = _ from hRun]

theorem deed?_nextItem
    {e : ItemEntry}
    (hRun :
      run (TestSession.nextItem now) s = (.ok (some e), t)) :
    (nextItem now).deed? s = t.state.item.map .shows := by
  simp only [deed?, shows]
  rw [show TestSession.run _ s = _ from hRun]

theorem deed?_submit
    {responses : ItemSession.Responses}
    {submission : Submission}
    (hRun :
      run (TestSession.submit responses now) s =
        (.ok submission, t)) :
    (submit responses now).deed? s =
      s.state.item.map (.submits · responses) := by
  simp only [deed?]
  rw [show TestSession.run _ s = _ from hRun]

theorem deed?_endPart
    (hRun : run (TestSession.endPart now) s = (.ok (), t)) :
    (endPart now).deed? s = s.state.part.map .ends := by
  simp only [deed?]
  rw [show TestSession.run _ s = _ from hRun]

end TestCall

namespace TestSession

variable {s t : TestSession}

------------------------------------------------------------
-- Places Still to Come
------------------------------------------------------------

/- The places of the part under way behind the current item. -/
def upcoming (s : TestSession) : List Nat :=
  (s.state.part.toList.flatMap s.placesIn).filter fun i =>
    s.state.item.all fun c => decide (c < i)

theorem upcoming_of_part
    {p : Nat}
    (hPart : s.state.part = some p) :
    s.upcoming = (s.placesIn p).filter fun i =>
      s.state.item.all fun c => decide (c < i) := by
  simp [upcoming, hPart]

/- When a part has been entered, all of its items are. -/
theorem upcoming_of_entered
    {p : Nat}
    (hPart : s.state.part = some p)
    (hNone : s.state.item = none) :
    s.upcoming = s.placesIn p := by
  simp [upcoming, hPart, hNone]

/- The next item is the first of those. -/
theorem nextPlace?_eq_head?
    {p : Nat}
    (hPart : s.state.part = some p) :
    s.nextPlace? p = s.upcoming.head? := by
  rw [nextPlace?_eq, upcoming_of_part hPart, List.head?_filter]

/- Places come in a rising order. -/
theorem placesIn_rising (s : TestSession) (p : Nat) :
    (s.placesIn p).Pairwise (· < ·) :=
  (zipIdx_snd_rising s.entries).sublist
    (List.filter_sublist.map Prod.snd)

theorem length_upcoming_le (s : TestSession) :
    s.upcoming.length ≤ s.entries.length := by
  cases hPart : s.state.part with
  | none => simp [upcoming, hPart]
  | some p =>
      rw [upcoming_of_part hPart]
      refine Nat.le_trans (List.length_filter_le _ _) ?_
      rw [placesIn, List.length_map, entriesIn]
      refine Nat.le_trans (List.length_filter_le _ _) ?_
      rw [List.length_zipIdx]

/- If the current item stays, so do the items to come. -/
theorem Going.upcoming_eq
    (hGoing : s.Going t)
    (hItem : t.state.item = s.state.item) :
    t.upcoming = s.upcoming := by
  rw [upcoming, upcoming, hItem, hGoing.part]
  congr 2
  funext p
  exact hGoing.placesIn p

/- The item that is shown is the first of those to come. -/
theorem Turns.upcoming_eq
    {closes : Prop}
    {p j : Nat}
    (hTurns : s.Turns closes p j t)
    (hPart : s.state.part = some p) :
    s.upcoming = j :: t.upcoming := by
  have hHead := hTurns.next
  rw [nextPlace?_eq_head? hPart] at hHead
  rcases List.head?_eq_some_iff.mp hHead with ⟨rest, hRest⟩
  have hRising : s.upcoming.Pairwise (· < ·) := by
    rw [upcoming_of_part hPart]
    exact (placesIn_rising s p).filter _
  rw [hRest, List.pairwise_cons] at hRising
  -- what lies behind the place lies behind the current item
  have hBehind : t.upcoming = s.upcoming.filter (j < ·) := by
    rw [upcoming_of_part (hTurns.part.trans hPart),
      hTurns.placesIn, hTurns.item, upcoming_of_part hPart,
      List.filter_filter]
    refine List.filter_congr fun i _ => ?_
    have hFirst : ∀ c, s.state.item = some c → c < j :=
      fun c => lt_of_nextPlace? hTurns.next
    cases hItem : s.state.item with
    | none => simp
    | some c =>
        have hLess := hFirst c hItem
        rw [Option.all_some, Option.all_some, ← Bool.decide_and,
          decide_eq_decide]
        omega
  rw [hBehind, hRest, List.filter_cons_of_neg (by simp)]
  congr 1
  symm
  rw [List.filter_eq_self]
  exact fun i hMem => decide_eq_true (hRising.1 i hMem)

------------------------------------------------------------
-- Parts
------------------------------------------------------------

/- Whether there are more parts is only looked at. -/
theorem ends_hasMoreParts (s : TestSession) :
    Ends hasMoreParts s fun r t =>
      t = s ∧
        ∀ more, r = .ok more →
          (more = true ↔
            following s.state < s.test.parts.length) := by
  rw [hasMoreParts]
  refine ends_ensureRunning_bind
    (fun _ => ⟨rfl, fun _ h => by cases h⟩) fun _ _ => ?_
  rw [ends_get_bind, ends_pure]
  refine ⟨rfl, fun more hMore => ?_⟩
  cases hMore
  exact decide_eq_true_iff

/- To initialize a test enters no part. -/
theorem ends_initialise_part (hOrder : s.Orderly) :
    Ends initialise s fun _ t =>
      t.state.part = s.state.part := by
  rw [initialise, ends_getState_bind]
  dsimp only
  rw [ends_ite]
  split
  · rw [ends_bind, ends_throw]
  · rw [ends_announced, ends_get_bind, ends_bind,
      ends_changeState]
    dsimp only
    rw [ends_bind]
    refine Ends.mono (ends_initialiseItems (fun _ => False) _
      (InOrder.coherent hOrder)) fun r t hSwept => ?_
    have hPart := hSwept.onward.part
    cases r <;> exact hPart

/- The next part is entered, without an item. -/
theorem ends_nextPart_entering
    (now : Instant)
    (s : TestSession) :
    Ends (nextPart now) s fun r t =>
      match r with
      | .ok (some _) =>
          t.state.part = some (following s.state) ∧
            t.state.item = none
      | .ok none => s.test.parts.length ≤ following s.state
      | .error _ => True := by
  rw [nextPart]
  refine ends_ensureRunning_bind (fun _ => trivial)
    fun _ _ => ?_
  rw [ends_get_bind]
  dsimp only
  rw [ends_ite]
  split
  · rw [ends_bind, ends_refuse]
    trivial
  · split
    next hNone =>
      rw [ends_pure]
      exact List.getElem?_eq_none_iff.mp hNone
    next =>
      rw [ends_bind, ends_changeState]
      dsimp only
      rw [ends_pure]
      exact ⟨rfl, rfl⟩

/- The test is finished with its last part, and not before. -/
theorem ends_endPart_closing
    (hOrder : s.Orderly)
    (now : Instant) :
    Ends (endPart now) s fun r t =>
      r.isOk = true →
        ∃ p, s.state.part = some p ∧ t.state.part = some p ∧
          p ∈ t.state.ended ∧
          t.state.finished = (p + 1 == s.test.parts.length) := by
  have hMarks :
      Ends (endPart now) s fun _ t =>
        s.state.finished = false → ∀ p,
          s.state.part = some p → p ∉ s.state.ended →
            p ∈ t.state.ended →
              t.state.part = some p ∧
                t.state.finished =
                  (p + 1 == s.test.parts.length) := by
    refine ends_endPart_marked hOrder now ?_ ?_
    · intro t _ hNear _ p _ hOpen hEnded
      rw [hNear.ended_eq] at hEnded
      exact absurd hEnded hOpen
    · intro q t _ _ hQ _ hNear _ _ hOpen p hPart hNotYet hEnded
      rw [hPart] at hQ
      cases hQ
      refine ⟨hNear.part_eq.trans hPart, ?_⟩
      change (t.state.finished || _) = _
      rw [hNear.finished_eq, hOpen, Bool.false_or]
      exact congrArg (fun u : Test => q + 1 == u.parts.length)
        hNear.test
  refine (hMarks.and (ends_endPart_ended now s)).mono
    fun r t hBoth hOk => ?_
  rcases hBoth.2 hOk with ⟨hRunning, p, hPart, hOpen, hEnded⟩
  rcases hBoth.1 hRunning p hPart hOpen hEnded with
    ⟨hStill, hFinished⟩
  exact ⟨p, hPart, hStill, hEnded, hFinished⟩

------------------------------------------------------------
-- Items
------------------------------------------------------------

/- Whether there are more items is only looked at. -/
theorem ends_hasMoreItems (s : TestSession) :
    Ends hasMoreItems s fun r t =>
      t = s ∧
        ∀ more, r = .ok more →
          s.state.initialized = true ∧
            (∃ p, s.state.part = some p) ∧
            (more = true ↔ s.upcoming ≠ []) := by
  have hFailed : ∀ e : Failure, s = s ∧
      ∀ more, (Except.error e : Except Failure Bool) =
        .ok more →
          s.state.initialized = true ∧
            (∃ p, s.state.part = some p) ∧
            (more = true ↔ s.upcoming ≠ []) :=
    fun _ => ⟨rfl, fun _ h => by cases h⟩
  rw [hasMoreItems]
  refine ends_ensureRunning_bind hFailed fun hInit _ => ?_
  refine ends_runningPart_bind hFailed fun p hPart _ => ?_
  rw [ends_get_bind, ends_pure]
  refine ⟨rfl, fun more hMore => ?_⟩
  cases hMore
  refine ⟨hInit, ⟨p, hPart⟩, ?_⟩
  rw [nextPlace?_eq_head? hPart]
  cases s.upcoming <;> simp

/- The item that moving on gives is the current one. -/
theorem ends_nextItem_current
    (now : Instant)
    (s : TestSession) :
    Ends (nextItem now) s fun r t =>
      ∀ e, r = .ok (some e) → t.current? = some e := by
  have hFailed : ∀ (x : Failure) (t : TestSession),
      ∀ e, (Except.error x : Except Failure _) = .ok (some e) →
        t.current? = some e :=
    fun _ _ _ h => by cases h
  have hPresented : ∀ (i : Nat) (t : TestSession),
      Ends (do
        present i now
        return (← get).entries[i]?) t fun r u =>
          ∀ e, r = .ok (some e) → u.current? = some e := by
    intro i t
    rw [present, ends_bind, ends_get_bind]
    cases hE : t.entries[i]? with
    | none =>
        simp only [ends_pure, ends_get_bind, hE]
        exact fun e h => by cases h
    | some d =>
        refine Ends.skip (hFailed · ·) fun _ u => ?_
        refine Ends.skip (hFailed · ·) fun _ v => ?_
        rw [ends_changeState]
        dsimp only
        rw [ends_get_bind, ends_pure]
        intro e hSame
        exact Except.ok.inj hSame
  rw [nextItem]
  refine Ends.skip hFailed fun _ _ => ?_
  refine Ends.skip hFailed fun p _ => ?_
  refine Ends.skip hFailed fun _ t => ?_
  rw [ends_get_bind]
  refine Ends.skip hFailed fun _ u => ?_
  split
  next i _ => exact hPresented i u
  next =>
    refine Ends.skip hFailed fun _ _ => ?_
    exact fun _ h => by cases h

end TestSession

end Assessment
