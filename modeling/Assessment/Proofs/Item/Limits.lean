import Mathlib
import Assessment.Proofs.Item.Processing

/-
  Time limits of items.

  The time that an item has taken is read off a timer, which
  adds up laps in double arithmetic. To bring a timer up to
  date a second time, at the same instant, adds a lap without
  length. What the timer shows is then as great as before, so
  a limit that it had not reached is not reached now. A
  submission that is not late does not time out.

  Main declarations:
    * `Timer.HasReached`, for a limit on the time
    * `Timer.hasReached_touch_again`
    * `ItemSession.ends_submit_inTime`
-/

------------------------------------------------------------
-- Zero
------------------------------------------------------------

namespace Assessment

open Stateful

namespace Double

open Float (Model)
open Float.Model (UnpackedFloat)

/- A double is what its bits stand for. -/
theorem pack_unpack (m : Model) :
    Model.pack m.unpack = m := by
  rcases m with ⟨⟨bits⟩, hValid⟩
  have hBack :=
    UnpackedFloat.pack_unpack_of_valid hValid (by decide)
  unfold Model.pack Model.unpack
  simp only [hBack]

theorem unpack_zero :
    (0 : Float).toModel.unpack = .zero .positive := by
  with_unfolding_all rfl

theorem unpack_pack_zero :
    (Model.pack (.zero .positive)).unpack =
      .zero .positive := by
  with_unfolding_all rfl

theorem toModel_add_zero (x : Float) :
    (x + 0).toModel =
      Model.pack
        (.add .binary64 x.toModel.unpack
          (.zero .positive)) := by
  rw [← unpack_zero]
  rfl

/- A sum with zero is the other summand, up to its sign. -/
theorem add_zero_cases (x : Float) :
    x + 0 = x ∨
      ∃ s t,
        x.toModel.unpack = .zero s ∧
          (x + 0).toModel.unpack = .zero t := by
  have hSame :
      UnpackedFloat.add .binary64 x.toModel.unpack
          (.zero .positive) = x.toModel.unpack →
        x + 0 = x := by
    intro hAdd
    have hModel := toModel_add_zero x
    rw [hAdd, pack_unpack] at hModel
    exact congrArg Float.ofModel hModel
  cases hX : x.toModel.unpack with
  | notANumber =>
      rw [hX] at hSame
      exact Or.inl (hSame rfl)
  | infinity s =>
      rw [hX] at hSame
      exact Or.inl (hSame rfl)
  | finite s m e hPos =>
      rw [hX] at hSame
      exact Or.inl (hSame rfl)
  | zero s =>
      cases s with
      | positive =>
          rw [hX] at hSame
          exact Or.inl (hSame rfl)
      | negative =>
          refine Or.inr ⟨_, .positive, rfl, ?_⟩
          rw [toModel_add_zero, hX]
          exact unpack_pack_zero

/- The sign of a zero does not matter to an order. -/
theorem compare_zero
    (a : UnpackedFloat)
    (s t : UnpackedFloat.Sign) :
    a.compare (.zero s) = a.compare (.zero t) := by
  rcases a with sign | _ | sign | ⟨sign, m, e, hPos⟩
  · cases sign <;> rfl
  · rfl
  · rfl
  · cases sign <;> rfl

theorem le_add_zero_iff (a x : Float) :
    a ≤ x + 0 ↔ a ≤ x := by
  have hLe : ∀ y : Float,
      (a ≤ y) =
        (decide (a.toModel.unpack.le y.toModel.unpack = true) =
          true) :=
    fun _ => rfl
  rcases add_zero_cases x with hSame | ⟨s, t, hX, hSum⟩
  · rw [hSame]
  · rw [hLe, hLe, hX, hSum, UnpackedFloat.le, UnpackedFloat.le,
      compare_zero _ s t]

end Double

------------------------------------------------------------
-- Limits
------------------------------------------------------------

namespace Timer

/- A timer shows the greatest time that limits allow. -/
def HasReached
    (t : Timer)
    (limits : Option TimeLimits) :
    Prop :=
  ∃ l maximum, limits = some l ∧ l.maxTime = some maximum ∧
    maximum ≤ t.seconds

theorem isOver_iff
    (t : Timer)
    (limits : Option TimeLimits) :
    (Timed.mk limits t.seconds).isOver = true ↔
      t.HasReached limits := by
  unfold Timed.isOver Timed.maximum? HasReached
  cases limits with
  | none => simp
  | some l =>
      cases hMaximum : l.maxTime with
      | none => simp [hMaximum]
      | some maximum => simp [hMaximum]

theorem elapsed_self (now : Instant) : now.elapsed now = 0 :=
  Instant.elapsed_of_le now now (Int.le_refl _)

theorem lapSeconds_zero : lapSeconds 0 = 0 := by
  with_unfolding_all rfl

/- Twice at one instant, a timer measures nothing more. -/
theorem hasReached_touch_again
    (t : Timer)
    (now : Instant)
    (limits : Option TimeLimits) :
    ((t.touch now).touch now).HasReached limits ↔
      (t.touch now).HasReached limits := by
  rcases t with ⟨laps, _ | since⟩
  · rfl
  · have hSeconds :
        (((⟨laps, some since⟩ : Timer).touch now).touch
            now).seconds =
          ((⟨laps, some since⟩ : Timer).touch now).seconds +
            0 := by
      rw [← lapSeconds_zero, ← elapsed_self now]
      rfl
    unfold HasReached
    simp only [hSeconds, Double.le_add_zero_iff]

end Timer

------------------------------------------------------------
-- Submissions
------------------------------------------------------------

namespace ItemSession

theorem timedOut_counted (s : ItemSession) :
    s.counted.state.timedOut = s.state.timedOut := by
  unfold counted
  split <;> rfl

theorem timedOut_concluded (s : ItemSession) (now : Instant) :
    (s.concluded now).state.timedOut = s.state.timedOut := by
  unfold concluded
  split <;> rfl

/- A submission that is not late does not time out. -/
theorem ends_submit_inTime
    {s : ItemSession}
    {now : Instant}
    (hTime : (s.touchedAt now).isLate = false)
    (responses : Responses) :
    Ends (submit responses now) s fun r t =>
      ∀ a, r = .ok a →
        a.timedOut = false ∧
          t.state.timedOut = s.state.timedOut := by
  apply ends_submit_cases
  · intro e _ a hOk
    cases hOk
  · intro hInit hPhase hAllowed
    rw [ends_submit_open hInit hPhase hAllowed, hTime,
      if_neg (by simp)]
    dsimp only
    split
    · intro a hOk
      cases hOk
      exact ⟨rfl, rfl⟩
    · apply Ends.of_forall
      intro r u
      cases r with
      | error e =>
          intro a hOk
          cases hOk
      | ok _ =>
          intro a hOk
          cases hOk
          refine ⟨rfl, ?_⟩
          rw [timedOut_concluded]
          exact timedOut_counted _

/-
  An item whose time is not up, or that accepts what comes
  late, does not find a submission late at the instant that
  its time has been brought up to.
-/
theorem isLate_touchedAt_again
    {s : ItemSession}
    {now : Instant}
    (hTime :
      ¬ (s.touchedAt now).state.timer.HasReached s.timeLimits ∨
        s.timeLimits.any TimeLimits.allowsLate = true) :
    ((s.touchedAt now).touchedAt now).isLate = false := by
  unfold isLate
  rcases hTime with hEarly | hLate
  · have hNot :
        ¬ ((s.touchedAt now).touchedAt
          now).state.timer.HasReached s.timeLimits :=
      fun hReached => hEarly
        ((Timer.hasReached_touch_again _ now _).mp hReached)
    rw [← Timer.isOver_iff] at hNot
    have hOver :
        ((s.touchedAt now).touchedAt now).timed.isOver =
          false :=
      Bool.eq_false_of_not_eq_true hNot
    simp [withinMaximum, hOver]
  · have hSame :
        ((s.touchedAt now).touchedAt now).timeLimits =
          s.timeLimits := rfl
    rw [hSame, hLate, Bool.not_true, Bool.and_false]

end ItemSession

end Assessment
