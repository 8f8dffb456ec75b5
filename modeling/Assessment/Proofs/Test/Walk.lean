import Assessment.Proofs.Test.Course
import Assessment.Proofs.Test.Frame
import Assessment.Proofs.Test.Navigation

/-
  The way through a linear part of a test.

  Within one stay in a linear part, the items shown lie in a
  rising order as long as some item is the current one. Where
  items are closed when they are left, this order is never
  broken, and nothing is shown after the end of the part.

  A session without a current item stands before the first
  item again. So at the end of a part there are said to be
  more items, and where items stay open when they are left,
  the way begins anew.

  Main declarations:
    * `TestSession.shownBy`, the places shown by calls in a row
    * `TestSession.LinearStay`, a stay in a linear part
    * `TestSession.Walked` and `TestSession.PassedFirst`, what
      calls keep up on the way
    * `TestSession.linear_way_of_calls`, the law of all stays
-/

------------------------------------------------------------
-- What Is Shown
------------------------------------------------------------

namespace Assessment

open Stateful

namespace TestSession

/- The places of the items that calls show, in a row. -/
def shownBy (s : TestSession) (calls : List TestCall) :
    List Nat :=
  s.gathered TestCall.shows calls

------------------------------------------------------------
-- Stays in Linear Parts
------------------------------------------------------------

/-
  Calls that do not leave a linear part, which has just been
  entered.
-/
structure LinearStay
    (p : Nat)
    (s : TestSession)
    (calls : List TestCall) :
    Prop where
  orderly : s.Orderly
  initialized : s.state.initialized = true
  item : s.state.item = none
  linear : IsLinear s.test p
  part :
    ∀ earlier, earlier <+: calls →
      (s.after earlier).state.part = some p

namespace LinearStay

variable {p : Nat}
variable {s : TestSession}
variable {calls earlier later : List TestCall}
variable {c : TestCall}

/- The items have gone on since the part was entered. -/
theorem going
    (hStay : LinearStay p s calls)
    (hPrefix : earlier <+: calls) :
    s.Going (s.after earlier) := by
  induction earlier using List.reverseRecOn with
  | nil => exact (Stays.refl False hStay.orderly).toGoing
  | append_singleton earlier c ih =>
      have hBefore :=
        (List.prefix_append earlier [c]).trans hPrefix
      have hGoing := ih hBefore
      have hOrder := after_orderly hStay.orderly earlier
      have hPart := hStay.part _ hPrefix
      rw [after_append] at hPart ⊢
      have hLinear : IsLinear (s.after earlier).test p := by
        rw [hGoing.test]
        exact hStay.linear
      have hNever :
          False → ClosesItems (s.after earlier).test p :=
        False.elim
      rcases stays_or_turns hOrder
        (hGoing.initialized hStay.initialized)
        (hStay.part _ hBefore) hLinear hNever c hPart with
        ⟨_, hStays⟩ | ⟨_, _, hTurns⟩
      · exact hGoing.trans hStays.toGoing
      · exact hGoing.trans hTurns.toGoing

/- Every call of a stay follows the law of one call. -/
theorem step
    (hStay : LinearStay p s calls)
    (closes : Prop)
    (hCloses : closes → ClosesItems s.test p)
    (hPrefix : earlier ++ [c] <+: calls) :
    (c.shows (s.after earlier) = none ∧
        (s.after earlier).Stays closes
          (s.after (earlier ++ [c]))) ∨
      ∃ j, c.shows (s.after earlier) = some j ∧
        (s.after earlier).Turns closes p j
          (s.after (earlier ++ [c])) := by
  have hBefore :=
    (List.prefix_append earlier [c]).trans hPrefix
  have hGoing := hStay.going hBefore
  have hPart := hStay.part _ hPrefix
  rw [after_append] at hPart ⊢
  refine stays_or_turns (after_orderly hStay.orderly earlier)
    (hGoing.initialized hStay.initialized)
    (hStay.part _ hBefore) ?_ ?_ c hPart
  · rw [hGoing.test]
    exact hStay.linear
  · rw [hGoing.test]
    exact hCloses

end LinearStay

------------------------------------------------------------
-- Rising Places
------------------------------------------------------------

/- Places in a rising order, the current one at their end. -/
structure Walked (prior : List Nat) (s : TestSession) :
    Prop where
  rising : prior.Pairwise (· < ·)
  current :
    ∀ i, s.state.item = some i →
      i ∈ prior ∧ ∀ j ∈ prior, j ≤ i

namespace Walked

variable {closes : Prop}
variable {p j : Nat}
variable {prior : List Nat}
variable {s t : TestSession}

theorem stays
    (hWalked : Walked prior s)
    (hStays : s.Stays closes t) :
    Walked prior t := by
  refine ⟨hWalked.rising, fun i hItem => ?_⟩
  rcases hStays.item with hSame | hNone
  · exact hWalked.current i (hSame.symm.trans hItem)
  · rw [hNone] at hItem
    cases hItem

/- The next place lies behind all places before. -/
theorem turns
    (hWalked : Walked prior s)
    (hTurns : s.Turns closes p j t)
    (hFresh : s.state.item = none → prior = []) :
    Walked (prior ++ [j]) t := by
  have hBehind : ∀ i ∈ prior, i < j := by
    intro i hMem
    cases hItem : s.state.item with
    | none =>
        rw [hFresh hItem] at hMem
        cases hMem
    | some c =>
        exact Nat.lt_of_le_of_lt
          ((hWalked.current c hItem).2 i hMem)
          (lt_of_nextPlace? hTurns.next hItem)
  refine ⟨?_, fun i hItem => ?_⟩
  · refine List.pairwise_append.mpr
      ⟨hWalked.rising, List.pairwise_singleton _ _, ?_⟩
    intro i hMem k hLast
    rw [List.mem_singleton.mp hLast]
    exact hBehind i hMem
  · have hSame : j = i :=
      Option.some.inj (hTurns.item.symm.trans hItem)
    subst hSame
    refine ⟨by simp, fun k hMem => ?_⟩
    rcases List.mem_append.mp hMem with hPrior | hLast
    · exact Nat.le_of_lt (hBehind k hPrior)
    · exact Nat.le_of_eq (List.mem_singleton.mp hLast)

end Walked

/-
  As long as there is a current item once the first has been
  shown, places are shown in a rising order.
-/
theorem LinearStay.walked_of_current
    {p : Nat}
    {s : TestSession}
    {calls : List TestCall}
    (hStay : LinearStay p s calls)
    (hCurrent :
      ∀ earlier, earlier <+: calls → s.shownBy earlier ≠ [] →
        (s.after earlier).state.item ≠ none)
    {earlier : List TestCall}
    (hPrefix : earlier <+: calls) :
    Walked (s.shownBy earlier) (s.after earlier) := by
  induction earlier using List.reverseRecOn with
  | nil =>
      refine ⟨List.Pairwise.nil, fun i hItem => ?_⟩
      rw [show (s.after []).state.item = none from hStay.item]
        at hItem
      cases hItem
  | append_singleton earlier c ih =>
      have hBefore :=
        (List.prefix_append earlier [c]).trans hPrefix
      have hWalked := ih hBefore
      rw [shownBy, gathered_snoc, ← shownBy]
      rcases hStay.step False False.elim hPrefix with
        ⟨hNone, hStays⟩ | ⟨j, hShows, hTurns⟩
      · rw [hNone, Option.toList_none, List.append_nil]
        exact hWalked.stays hStays
      · rw [hShows, Option.toList_some]
        refine hWalked.turns hTurns fun hItem => ?_
        by_contra hPrior
        exact hCurrent earlier hBefore hPrior hItem

------------------------------------------------------------
-- The First Item Behind
------------------------------------------------------------

/- The first item of a part has been shown, and closed after. -/
def PassedFirst (p : Nat) (s : TestSession) : Prop :=
  ∀ i, (s.placesIn p).head? = some i →
    ∃ e, s.entries[i]? = some e ∧
      e.session.state.IsOpened ∧
      (s.state.item = some i ∨ e.session.state.finished = true)

namespace PassedFirst

variable {p j : Nat}
variable {s t : TestSession}

theorem stays
    (hPassed : PassedFirst p s)
    (hStays : s.Stays True t) :
    PassedFirst p t := by
  intro i hHead
  rw [hStays.placesIn] at hHead
  rcases hPassed i hHead with ⟨e, hE, hOpened, hBehind⟩
  rcases hStays.exists_after hE with ⟨f, hF⟩
  have hProgress := hStays.progress i e f hE hF
  refine ⟨f, hF, hProgress.isOpened hOpened, ?_⟩
  rcases hBehind with hCurrent | hFinished
  · rcases hStays.item with hSame | hNone
    · exact Or.inl (hSame.trans hCurrent)
    · exact Or.inr (hStays.closed trivial hNone i e f hCurrent
        hE hF hOpened)
  · exact Or.inr (hProgress.finished hFinished)

theorem turns
    (hPassed : PassedFirst p s)
    (hTurns : s.Turns True p j t) :
    PassedFirst p t := by
  intro i hHead
  rw [hTurns.placesIn] at hHead
  rcases hPassed i hHead with ⟨e, hE, hOpened, hBehind⟩
  rcases hTurns.exists_after hE with ⟨f, hF⟩
  have hProgress := hTurns.progress i e f hE hF
  refine ⟨f, hF, hProgress.isOpened hOpened, Or.inr ?_⟩
  rcases hBehind with hCurrent | hFinished
  · exact hTurns.closed trivial i e f hCurrent hE hF hOpened
  · exact hProgress.finished hFinished

/- Without a current item, no item is shown any more. -/
theorem not_turns
    (hPassed : PassedFirst p s)
    (hNone : s.state.item = none) :
    ¬ s.Turns True p j t := by
  intro hTurns
  have hHead := hTurns.next
  rw [nextPlace?_of_none hNone] at hHead
  rcases hPassed j hHead with ⟨e, hE, _, hCurrent | hFinished⟩
  · rw [hNone] at hCurrent
    cases hCurrent
  · rw [hTurns.fresh e hE] at hFinished
    cases hFinished

end PassedFirst

/- The first item that is shown is the first of the part. -/
theorem Turns.passedFirst
    {p j : Nat}
    {s t : TestSession}
    (hTurns : s.Turns True p j t)
    (hNone : s.state.item = none) :
    PassedFirst p t := by
  intro i hHead
  have hNext := hTurns.next
  rw [nextPlace?_of_none hNone] at hNext
  rw [hTurns.placesIn, hNext] at hHead
  cases hHead
  rcases hTurns.opened with ⟨f, hF, hOpened⟩
  exact ⟨f, hF, hOpened, Or.inl hTurns.item⟩

namespace LinearStay

variable {p : Nat}
variable {s : TestSession}
variable {calls earlier : List TestCall}

/-
  Where items are closed when they are left, places are shown
  in a rising order, and the first item stays behind.
-/
theorem walked_of_closes
    (hStay : LinearStay p s calls)
    (hCloses : ClosesItems s.test p)
    (hPrefix : earlier <+: calls) :
    Walked (s.shownBy earlier) (s.after earlier) ∧
      (s.shownBy earlier ≠ [] →
        PassedFirst p (s.after earlier)) := by
  induction earlier using List.reverseRecOn with
  | nil =>
      refine ⟨⟨List.Pairwise.nil, fun i hItem => ?_⟩,
        fun hShown => absurd rfl hShown⟩
      rw [show (s.after []).state.item = none from hStay.item]
        at hItem
      cases hItem
  | append_singleton earlier c ih =>
      rcases ih ((List.prefix_append earlier [c]).trans hPrefix)
        with ⟨hWalked, hPassed⟩
      rw [shownBy, gathered_snoc, ← shownBy]
      rcases hStay.step True (fun _ => hCloses) hPrefix with
        ⟨hNone, hStays⟩ | ⟨j, hShows, hTurns⟩
      · rw [hNone, Option.toList_none, List.append_nil]
        exact ⟨hWalked.stays hStays,
          fun hShown => (hPassed hShown).stays hStays⟩
      · rw [hShows, Option.toList_some]
        have hFresh : (s.after earlier).state.item = none →
            s.shownBy earlier = [] := by
          intro hItem
          by_contra hPrior
          exact (hPassed hPrior).not_turns hItem hTurns
        refine ⟨hWalked.turns hTurns hFresh, fun _ => ?_⟩
        by_cases hPrior : s.shownBy earlier = []
        · cases hItem : (s.after earlier).state.item with
          | none => exact hTurns.passedFirst hItem
          | some i =>
              have hMem := (hWalked.current i hItem).1
              rw [hPrior] at hMem
              cases hMem
        · exact (hPassed hPrior).turns hTurns

/- At the end of a part, the current item is left. -/
theorem stays_of_end
    (hStay : LinearStay p s calls)
    (closes : Prop)
    (hCloses : closes → ClosesItems s.test p)
    {now : Instant}
    (hPrefix : earlier ++ [.nextItem now] <+: calls)
    (hEnd :
      (run (nextItem now) (s.after earlier)).1 = .ok none) :
    (s.after earlier).Stays closes
        (s.after (earlier ++ [.nextItem now])) ∧
      (s.after (earlier ++ [.nextItem now])).state.item =
        none ∧
      (s.after earlier).nextPlace? p = none := by
  have hBefore :=
    (List.prefix_append earlier [.nextItem now]).trans hPrefix
  have hGoing := hStay.going hBefore
  have hClosesNow :
      closes → ClosesItems (s.after earlier).test p := by
    rw [hGoing.test]
    exact hCloses
  have hTurn := ends_nextItem_turn
    (after_orderly hStay.orderly earlier)
    (hGoing.initialized hStay.initialized)
    (hStay.part _ hBefore) hClosesNow now
  unfold Ends at hTurn
  rw [show (Stateful.run (nextItem now) (s.after earlier)).1 =
    .ok none from hEnd] at hTurn
  rw [after_append, after_nextItem]
  exact hTurn

/- Where items are closed, its first item has been passed. -/
theorem passedFirst_of_end
    (hStay : LinearStay p s calls)
    (hCloses : ClosesItems s.test p)
    {now : Instant}
    (hPrefix : earlier ++ [.nextItem now] <+: calls)
    (hEnd :
      (run (nextItem now) (s.after earlier)).1 = .ok none) :
    PassedFirst p (s.after (earlier ++ [.nextItem now])) := by
  have hBefore :=
    (List.prefix_append earlier [.nextItem now]).trans hPrefix
  rcases hStay.stays_of_end True (fun _ => hCloses) hPrefix
    hEnd with ⟨hStays, _, hNext⟩
  cases hItem : (s.after earlier).state.item with
  | none =>
      -- The part has no items at all.
      intro i hHead
      rw [nextPlace?_of_none hItem] at hNext
      rw [hStays.placesIn, hNext] at hHead
      cases hHead
  | some i =>
      rcases hStay.walked_of_closes hCloses hBefore with
        ⟨hWalked, hPassed⟩
      exact (hPassed (List.ne_nil_of_mem
        (hWalked.current i hItem).1)).stays hStays

/- Past its end, a part shows nothing any more. -/
theorem shown_of_passedFirst
    (hStay : LinearStay p s calls)
    (hCloses : ClosesItems s.test p)
    (hPassed : PassedFirst p (s.after earlier))
    (hNone : (s.after earlier).state.item = none)
    {later : List TestCall}
    (hPrefix : earlier ++ later <+: calls) :
    (s.after earlier).shownBy later = [] ∧
      PassedFirst p (s.after (earlier ++ later)) ∧
      (s.after (earlier ++ later)).state.item = none := by
  induction later using List.reverseRecOn with
  | nil =>
      rw [List.append_nil]
      exact ⟨rfl, hPassed, hNone⟩
  | append_singleton later c ih =>
      rw [← List.append_assoc] at hPrefix ⊢
      rcases ih ((List.prefix_append _ [c]).trans hPrefix) with
        ⟨hShown, hStill, hIdle⟩
      rw [shownBy, gathered_snoc, ← shownBy, hShown,
        ← after_append]
      rcases hStay.step True (fun _ => hCloses) hPrefix with
        ⟨hShows, hStays⟩ | ⟨j, _, hTurns⟩
      · refine ⟨by rw [hShows]; rfl, hStill.stays hStays, ?_⟩
        rcases hStays.item with hSame | hGone
        · exact hSame.trans hIdle
        · exact hGone
      · exact absurd hTurns (hStill.not_turns hIdle)

end LinearStay

------------------------------------------------------------
-- Parts under Way
------------------------------------------------------------

/- The test is under way. -/
structure IsRunning (s : TestSession) : Prop where
  initialized : s.state.initialized = true
  entered : s.state.entered = true
  finished : s.state.finished = false

variable {α : Type}

theorem IsRunning.ends_ensureRunning
    {s : TestSession}
    (hRunning : s.IsRunning)
    (f : Unit → TestAction α)
    (Q : Except Failure α → TestSession → Prop) :
    Ends (ensureRunning >>= f) s Q ↔ Ends (f ()) s Q := by
  rw [ends_bind]
  simp [ensureRunning, ends_ensureInitialized,
    hRunning.initialized, hRunning.entered, hRunning.finished]

/- The first part comes after no part. -/
theorem following_of_none
    {s : TestState}
    (hNone : s.part = none) :
    following s = 0 := by
  rw [following, hNone]

/- After a part that has ended comes the next one, if any. -/
theorem IsRunning.run_nextPart
    {s : TestSession}
    (hRunning : s.IsRunning)
    (hEnded : ∀ p ∈ s.state.part, p ∈ s.state.ended)
    (now : Instant) :
    (run (nextPart now) s).1 =
      .ok s.test.parts[following s.state]? := by
  have hOver : (s.state.part.any fun i =>
      !s.state.ended.contains i) = false := by
    cases hPart : s.state.part with
    | none => rfl
    | some p =>
        have hMem := hEnded p hPart
        simp [hMem]
  have hEnds : Ends (nextPart now) s fun r _ =>
      r = .ok s.test.parts[following s.state]? := by
    rw [nextPart, hRunning.ends_ensureRunning, ends_get_bind]
    dsimp only
    rw [hOver, ends_ite, if_neg Bool.false_ne_true]
    split
    next hNone => rw [ends_pure, hNone]
    next part hPart =>
      rw [ends_bind, ends_changeState]
      dsimp only
      rw [ends_pure, hPart]
  exact hEnds

/- The test is under way, and so is the part. -/
structure IsUnderWay (p : Nat) (s : TestSession) : Prop
    extends IsRunning s where
  part : s.state.part = some p
  ended : p ∉ s.state.ended

namespace IsUnderWay

variable {p : Nat}
variable {s : TestSession}

theorem ends_runningPart
    (hUnderWay : IsUnderWay p s)
    (f : Nat → TestAction α)
    (Q : Except Failure α → TestSession → Prop) :
    Ends (TestSession.runningPart >>= f) s Q ↔
      Ends (f p) s Q := by
  rw [ends_bind, TestSession.runningPart, ends_getState_bind,
    hUnderWay.part]
  simp [hUnderWay.ended]

/- There are more items if some place is behind the current. -/
theorem run_hasMoreItems (hUnderWay : IsUnderWay p s) :
    (run hasMoreItems s).1 =
      .ok ((s.placesIn p).any fun i =>
        s.state.item.all fun c => decide (c < i)) := by
  have hEnds : Ends hasMoreItems s fun r _ =>
      r = .ok (s.nextPlace? p).isSome := by
    rw [hasMoreItems, hUnderWay.ends_ensureRunning,
      hUnderWay.ends_runningPart]
    rfl
  have hSame : (s.nextPlace? p).isSome =
      (s.placesIn p).any fun i =>
        s.state.item.all fun c => decide (c < i) := by
    rw [nextPlace?_eq, Bool.eq_iff_iff, List.find?_isSome,
      List.any_eq_true]
  rw [← hSame]
  exact hEnds

/-
  Without a current item, moving on shows the first item of
  the part, unless it is finished.
-/
theorem shows_nextItem
    (hUnderWay : IsUnderWay p s)
    (hOrder : s.Orderly)
    (hNone : s.state.item = none)
    {i : Nat}
    {e : ItemEntry}
    (hHead : (s.placesIn p).head? = some i)
    (hE : s.entries[i]? = some e)
    (now : Instant) :
    (TestCall.nextItem now).shows s = some i ↔
      e.session.state.phase ≠ .finished := by
  have hNext := hHead
  rw [← nextPlace?_of_none hNone] at hNext
  have hTouch :
      Ends (touch now) s fun r t =>
        r = .ok () ∧ s.Calm t ∧ t.entries = s.entries ∧
          t.state.item = none := by
    refine Ends.and (P := fun r _ => r = .ok ()) ?_
      ((touch_calm hOrder now).and ?_) <;>
      simp [touch, hNone]
  have hShown :
      Ends (nextItem now) s fun r t =>
        (r.isOk = true ↔ e.session.state.phase ≠ .finished) ∧
          (r.isOk = true → ∃ f, r = .ok (some f) ∧
            t.state.item = some i) := by
    rw [nextItem, hUnderWay.ends_ensureRunning,
      hUnderWay.ends_runningPart, ends_bind]
    refine hTouch.mono fun r t hTouched => ?_
    rcases hTouched with ⟨rfl, hCalm, hEntries, hStill⟩
    have hPlace : t.nextPlace? p = some i := by
      rw [nextPlace?, entriesIn, hEntries, hStill,
        ← hNone]
      exact hNext
    have hLeave : Ends (leaveCurrent now) t fun r u =>
        r = .ok () ∧ u = t := by
      simp [leaveCurrent, hStill]
    dsimp only
    rw [ends_get_bind, hPlace, ends_bind]
    refine hLeave.mono fun r u hLeft => ?_
    rcases hLeft with ⟨rfl, rfl⟩
    dsimp only
    rw [ends_bind]
    refine (ends_present_open (hCalm.orderly hOrder)
      ((Onward.initialized hCalm).trans hUnderWay.initialized)
      (hEntries ▸ hE) now).mono fun r v hPresented => ?_
    rcases hPresented with ⟨_, hOk, hOpen, _⟩
    cases r with
    | error => exact ⟨hOk, fun h => by cases h⟩
    | ok =>
        rcases hOpen rfl with ⟨hItem, f, hF, _⟩
        dsimp only
        rw [ends_get_bind, ends_pure, hF]
        exact ⟨hOk, fun _ => ⟨f, rfl, hItem⟩⟩
  unfold Ends at hShown
  rw [← hShown.1]
  simp only [TestCall.shows]
  rcases hRun : run (nextItem now) s with ⟨r, t⟩
  rw [show Stateful.run (nextItem now) s = (r, t) from hRun]
    at hShown ⊢
  cases r with
  | error => simp [Except.isOk, Except.toBool]
  | ok =>
      rcases hShown.2 rfl with ⟨f, hSome, hItem⟩
      cases hSome
      exact ⟨fun _ => rfl, fun _ => hItem⟩

end IsUnderWay

------------------------------------------------------------
-- Entering a Part
------------------------------------------------------------

/- A part that is entered is under way, without an item. -/
theorem ends_nextPart_entered (now : Instant) (s : TestSession) :
    Ends (nextPart now) s fun r t =>
      ∀ part, r = .ok (some part) →
        ∃ p, t.test.parts[p]? = some part ∧
          t.state.part = some p ∧ t.state.item = none ∧
          t.state.initialized = true := by
  rw [nextPart]
  refine ends_ensureRunning_bind (fun _ _ h => by cases h)
    fun hInit _ => ?_
  rw [ends_get_bind]
  dsimp only
  rw [ends_ite]
  split
  · rw [ends_bind, ends_refuse]
    exact fun _ h => by cases h
  · split
    next => exact fun _ h => by cases h
    next part hPart =>
      rw [ends_bind, ends_changeState]
      dsimp only
      rw [ends_pure]
      intro other hSame
      cases hSame
      exact ⟨following s.state, hPart, rfl, rfl, hInit⟩

------------------------------------------------------------
-- The Way
------------------------------------------------------------

/-
  How calls lead through the items of a linear part, from the
  state in which the part has just been entered.
-/
structure LinearWay
    (part : TestPart)
    (p : Nat)
    (s : TestSession)
    (calls : List TestCall) :
    Prop where
  /- An item that is shown is the first behind the current. -/
  next :
    ∀ earlier c j, earlier ++ [c] <+: calls →
      c.shows (s.after earlier) = some j →
        ((s.placesIn p).find? fun i =>
          (s.after earlier).state.item.all fun k =>
            decide (k < i)) = some j
  /- Where items are closed, the order is never broken. -/
  rises :
    part.submission = .individual →
      (s.shownBy calls).Pairwise (· < ·)
  /- Elsewhere, it holds while there is a current item. -/
  follows :
    (∀ earlier, earlier <+: calls → s.shownBy earlier ≠ [] →
      (s.after earlier).state.item ≠ none) →
      (s.shownBy calls).Pairwise (· < ·)
  /- At the end of the part, no item is the current one. -/
  leaves :
    ∀ earlier now, earlier ++ [.nextItem now] <+: calls →
      (run (nextItem now) (s.after earlier)).1 = .ok none →
      (s.after (earlier ++ [.nextItem now])).state.item = none
  /- Where items are closed, nothing is shown after the end. -/
  stops :
    part.submission = .individual →
      ∀ earlier now later,
        calls = earlier ++ .nextItem now :: later →
        (run (nextItem now) (s.after earlier)).1 = .ok none →
        (s.after (earlier ++ [.nextItem now])).shownBy later = []
  /- There are more items behind the current one, if any. -/
  more :
    ∀ earlier, earlier <+: calls →
      IsUnderWay p (s.after earlier) →
        (run hasMoreItems (s.after earlier)).1 =
          .ok ((s.placesIn p).any fun i =>
            (s.after earlier).state.item.all fun c =>
              decide (c < i))
  /- Without a current item, the way begins anew. -/
  restarts :
    ∀ earlier, earlier <+: calls →
      IsUnderWay p (s.after earlier) →
      (s.after earlier).state.item = none →
        ∀ (i : Nat) (e : ItemEntry) (now : Instant),
          (s.placesIn p).head? = some i →
          (s.after earlier).entries[i]? = some e →
            ((TestCall.nextItem now).shows (s.after earlier) =
                some i ↔
              e.session.state.phase ≠ .finished)

/- A stay in a linear part goes one way. -/
theorem LinearStay.way
    {part : TestPart}
    {p : Nat}
    {s : TestSession}
    {calls : List TestCall}
    (hStay : LinearStay p s calls)
    (hPart : s.test.parts[p]? = some part)
    (hLinear : part.navigation = .linear) :
    LinearWay part p s calls := by
  have hCloses : part.submission = .individual →
      ClosesItems s.test p := by
    intro hIndividual
    simp [ClosesItems, hPart, keepsOpen, hLinear, hIndividual]
  refine ⟨?_, ?_, ?_, ?_, ?_, ?_, ?_⟩
  · intro earlier c j hPrefix hShows
    have hBefore :=
      (List.prefix_append earlier [c]).trans hPrefix
    rcases hStay.step False False.elim hPrefix with
      ⟨hNone, _⟩ | ⟨k, hSome, hTurns⟩
    · rw [hNone] at hShows
      cases hShows
    · rw [hSome] at hShows
      cases hShows
      rw [← (hStay.going hBefore).placesIn, ← nextPlace?_eq]
      exact hTurns.next
  · intro hIndividual
    exact (hStay.walked_of_closes (hCloses hIndividual)
      List.prefix_rfl).1.rising
  · intro hCurrent
    exact (hStay.walked_of_current hCurrent
      List.prefix_rfl).rising
  · intro earlier now hPrefix hEnd
    exact (hStay.stays_of_end False False.elim hPrefix
      hEnd).2.1
  · intro hIndividual earlier now later hCalls hEnd
    have hSplit : calls =
        (earlier ++ [.nextItem now]) ++ later := by
      rw [hCalls, List.append_assoc, List.singleton_append]
    have hPrefix : earlier ++ [.nextItem now] <+: calls := by
      rw [hSplit]
      exact List.prefix_append _ _
    have hPassed := hStay.passedFirst_of_end
      (hCloses hIndividual) hPrefix hEnd
    have hNone := (hStay.stays_of_end False False.elim
      hPrefix hEnd).2.1
    exact (hStay.shown_of_passedFirst (hCloses hIndividual)
      hPassed hNone (by rw [hSplit])).1
  · intro earlier hPrefix hUnderWay
    rw [hUnderWay.run_hasMoreItems,
      (hStay.going hPrefix).placesIn]
  · intro earlier hPrefix hUnderWay hNone i e now hHead hE
    rw [← (hStay.going hPrefix).placesIn] at hHead
    exact hUnderWay.shows_nextItem
      (after_orderly hStay.orderly earlier) hNone hHead hE now

/-
  Whatever calls are made during a stay in a linear part of a
  test, they lead one way through its items.
-/
theorem linear_way_of_calls
    (t : Test)
    (items : Keyed Item)
    (engine : Engine)
    (draws : Draws)
    (first : TestSession)
    (hStart : start t items engine draws = .ok first)
    (before : List TestCall)
    (now : Instant)
    (part : TestPart)
    (hEntered :
      (run (nextPart now) (first.after before)).1 =
        .ok (some part))
    (hLinear : part.navigation = .linear)
    (p : Nat)
    (calls : List TestCall)
    (hStay :
      ∀ earlier, earlier <+: calls →
        (first.after
          (before ++ .nextPart now :: earlier)).state.part =
            some p) :
    LinearWay part p
      (first.after (before ++ [.nextPart now])) calls := by
  have hAfter : first.after (before ++ [.nextPart now]) =
      (run (nextPart now) (first.after before)).2 := by
    rw [after_append]
    exact run_discard_snd (nextPart now) (first.after before)
  have hNext :
      ∃ q, (first.after
          (before ++ [.nextPart now])).test.parts[q]? =
            some part ∧
        (first.after (before ++ [.nextPart now])).state.part =
          some q ∧
        (first.after (before ++ [.nextPart now])).state.item =
          none ∧
        (first.after
          (before ++ [.nextPart now])).state.initialized =
            true := by
    rw [hAfter]
    exact ends_nextPart_entered now (first.after before)
      part hEntered
  rcases hNext with ⟨q, hPart, hCurrent, hNone, hInit⟩
  have hStays : ∀ earlier, earlier <+: calls →
      ((first.after (before ++ [.nextPart now])).after
        earlier).state.part = some p := by
    intro earlier hPrefix
    rw [← after_append, List.append_assoc,
      List.singleton_append]
    exact hStay earlier hPrefix
  have hSame : q = p :=
    Option.some.inj
      (hCurrent.symm.trans (hStays [] List.nil_prefix))
  subst hSame
  refine LinearStay.way ⟨?_, hInit, hNone, ?_, hStays⟩
    hPart hLinear
  · exact after_orderly (start_orderly hStart) _
  · simp [IsLinear, hPart, hLinear]

/- A linear part of two items, submitted in some mode. -/
def pairPart (mode : SubmissionMode) : TestPart :=
  { blankPart "only" with
    submission := mode
    sections :=
      (blankPart "first").sections ++
        (blankPart "second").sections }

/- A test of the one linear part of two items. -/
def pairTest (mode : SubmissionMode) : Test :=
  { blankTest with parts := [pairPart mode] }

/- The calls that come before the first part is entered. -/
def arrivalCalls (now : Instant) : List TestCall :=
  [.initialise, .enterTest now]

/-
  Where items are closed, two items are shown in their order,
  the third call finds the end of the part, and the fourth
  shows nothing any more.
-/
theorem linear_way_of_calls_pair :
    ∃ first : TestSession,
      start (pairTest .individual) [("blank", blankItem)]
        ⟨{}, none⟩ default = .ok first ∧
      LinearWay (pairPart .individual) 0
        (first.after (arrivalCalls ⟨0⟩ ++ [.nextPart ⟨0⟩]))
        (List.replicate 4 (.nextItem ⟨0⟩)) ∧
      (first.after
        (arrivalCalls ⟨0⟩ ++ [.nextPart ⟨0⟩])).shownBy
          (List.replicate 4 (.nextItem ⟨0⟩)) = [0, 1] := by
  refine ⟨_, rfl, ?_, ?_⟩
  · refine linear_way_of_calls (pairTest .individual)
      [("blank", blankItem)] ⟨{}, none⟩ default _ rfl
      (arrivalCalls ⟨0⟩) ⟨0⟩ (pairPart .individual) ?_ rfl 0
      (List.replicate 4 (.nextItem ⟨0⟩)) ?_
    · rw [IsRunning.run_nextPart ⟨?_, ?_, ?_⟩ ?_ ⟨0⟩,
        after_test, following_of_none ?_]
      · rfl
      · decide +kernel
      · decide +kernel
      · decide +kernel
      · decide +kernel
      · decide +kernel
    · intro earlier hPrefix
      rw [← List.mem_inits] at hPrefix
      revert earlier
      decide +kernel
  · decide +kernel

theorem eq_ok_none
    {r : Except Failure (Option α)}
    (hNone : r.toOption.map Option.isSome = some false) :
    r = .ok none := by
  rcases r with _ | _ | _
  · cases hNone
  · rfl
  · cases hNone

/-
  Where items stay open, the first item is shown again after
  the end of the part, where there are said to be more items.
-/
theorem linear_way_begins_anew :
    ∃ first : TestSession,
      start (pairTest .simultaneous) [("blank", blankItem)]
        ⟨{}, none⟩ default = .ok first ∧
      (pairPart .simultaneous).navigation = .linear ∧
      ∃ s, s = first.after
          (arrivalCalls ⟨0⟩ ++ [.nextPart ⟨0⟩]) ∧
        (∀ earlier,
          earlier <+: List.replicate 4 (.nextItem ⟨0⟩) →
            (s.after earlier).state.part = some 0) ∧
        (run (nextItem ⟨0⟩)
          (s.after (List.replicate 2 (.nextItem ⟨0⟩)))).1 =
            .ok none ∧
        (run hasMoreItems
          (s.after (List.replicate 3 (.nextItem ⟨0⟩)))).1 =
            .ok true ∧
        s.shownBy (List.replicate 4 (.nextItem ⟨0⟩)) =
          [0, 1, 0] := by
  refine ⟨_, rfl, rfl, _, rfl, ?_, ?_, ?_, ?_⟩
  · intro earlier hPrefix
    rw [← List.mem_inits] at hPrefix
    revert earlier
    decide +kernel
  · refine eq_ok_none ?_
    decide +kernel
  · refine eq_ok_of_toOption ?_
    decide +kernel
  · decide +kernel

end TestSession

end Assessment
