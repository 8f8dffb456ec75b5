import Assessment.Proofs.Item.Attempts

/-
  Steps that are refused.

  A session refuses a step before it changes anything. Some
  steps are made of others that may be refused themselves, but
  what comes before them rules that out, and rules that are
  run fail of a service only. So a step that is refused leaves
  the session as it was, with its variables, its clock and its
  notes, and can be left out of a run.

  Main declarations:
    * `Failure.IsRefusal`
    * `ItemSession.RefusedCleanly`, steps that change nothing
      when they are refused
    * `ItemCall.action_refusedCleanly`, for every call
    * `ItemSession.accepted`, the calls that are not refused,
      with `after_accepted`
    * `ItemSession.refusals_change_nothing`
-/

------------------------------------------------------------
-- Refusals
------------------------------------------------------------

namespace Assessment

open Stateful

/- A session does not take a step in its present state. -/
def Failure.IsRefusal : Failure → Prop
  | .notInitialized => True
  | .alreadyInitialized => True
  | .refused _ => True
  | _ => False

instance (e : Failure) : Decidable e.IsRefusal := by
  unfold Failure.IsRefusal
  split <;> infer_instance

/- A service that gives no answer refuses no step. -/
theorem Failure.IsService.not_isRefusal
    {e : Failure}
    (hService : e.IsService) :
    ¬ e.IsRefusal := by
  rcases hService with ⟨cause, rfl⟩
  exact not_false

namespace ItemSession

variable {α : Type}

/- A step that is refused leaves the session as it was. -/
def RefusedCleanly (x : Action α) : Prop :=
  ∀ s, Ends x s fun r t =>
    ∀ e, r = .error e → e.IsRefusal → t = s

/- Rules that fail do not refuse the step they belong to. -/
theorem not_isRefusal_of_run
    {item : Item}
    {x : Assessment.Run α}
    (hSound : x.SoundFor item)
    {stage : Stage}
    (hItem : stage.IsOf item) :
    Ends x stage fun r _ =>
      ∀ e, r = .error e → ¬ e.IsRefusal :=
  (hSound stage hItem).mono fun _ _ hFails e hError =>
    (hFails.2 e hError).not_isRefusal

------------------------------------------------------------
-- Steps
------------------------------------------------------------

theorem initialise_refusedCleanly
    (defaults : List TemplateDefault) :
    RefusedCleanly (initialise defaults) := by
  intro s
  cases hInit : s.state.initialized with
  | true =>
      rw [ends_initialise_again hInit]
      exact fun _ _ _ => rfl
  | false =>
      rw [ends_initialise_new hInit]
      have hSound :
          (prepare s.engine s.item defaults).SoundFor s.item :=
        prepare_soundFor s.engine defaults
      apply (not_isRefusal_of_run hSound ⟨rfl, rfl⟩).mono
      intro r u hFails e hError hRefusal
      exact absurd hRefusal (hFails e hError)

theorem processResponses_refusedCleanly :
    RefusedCleanly processResponses := by
  intro s
  cases hInit : s.state.initialized with
  | false =>
      rw [ends_processResponses_new hInit]
      exact fun _ _ _ => rfl
  | true =>
      rw [ends_processResponses hInit]
      have hRules :=
        not_isRefusal_of_run
          (respond_soundFor s.engine) (stage_counted_isOf s)
      apply hRules.mono
      intro r u hFails e hError hRefusal
      exact absurd hRefusal (hFails e hError)

/-
  Once a submission is taken, its parts are not refused: the
  session is open until it closes it as the last thing.
-/
theorem submit_refusedCleanly
    (responses : Responses)
    (now : Instant) :
    RefusedCleanly (submit responses now) := by
  intro s
  apply ends_submit_cases
  · exact fun _ _ _ _ _ => rfl
  · intro hInit hPhase hAllowed
    rw [ends_submit_open hInit hPhase hAllowed]
    split
    · exact fun e hError => nomatch hError
    · extract_lets b
      split
      · exact fun e hError => nomatch hError
      · have hRules :=
          not_isRefusal_of_run
            (respond_soundFor b.engine) (stage_counted_isOf b)
        apply hRules.mono
        intro r u hFails
        cases r with
        | ok _ => exact fun e hError => nomatch hError
        | error e =>
            intro t e' hError hRefusal
            cases hError
            exact absurd hRefusal (hFails e rfl)

end ItemSession

------------------------------------------------------------
-- Calls
------------------------------------------------------------

namespace ItemCall

open ItemSession

/- What is given back does not matter to a refusal. -/
theorem discard_refusedCleanly
    {α : Type}
    {x : Action α}
    (hClean : RefusedCleanly x) :
    RefusedCleanly (discard x) := by
  intro s
  change Ends ((fun _ => PUnit.unit) <$> x) s _
  rw [ends_map]
  apply (hClean s).mono
  intro r t hLeft
  cases r with
  | ok _ => exact fun e hError => nomatch hError
  | error e =>
      intro e' hError
      cases hError
      exact hLeft e rfl

/- A call that is refused leaves the session as it was. -/
theorem action_refusedCleanly (c : ItemCall) :
    RefusedCleanly c.action := by
  cases c with
  | initialise defaults =>
      exact initialise_refusedCleanly defaults
  | processResponses => exact processResponses_refusedCleanly
  | submit responses now =>
      exact discard_refusedCleanly
        (submit_refusedCleanly responses now)
  | bindResponses responses =>
      apply discard_refusedCleanly
      intro s
      rw [ends_bindResponses]
      split_ifs <;> simp
  | enter now =>
      intro s
      rw [action, ends_enter]
      split_ifs <;> simp
  | suspend now =>
      intro s
      rw [action, ends_suspend]
      split_ifs <;> simp
  | resume now =>
      intro s
      rw [action, ends_resume]
      split_ifs <;> simp
  | touch now =>
      intro s
      rw [action, ends_touch]
      simp
  | skip now =>
      intro s
      rw [action, ends_skip]
      split_ifs <;> simp
  | timeOut now =>
      intro s
      rw [action, ends_timeOut]
      split_ifs <;> simp
  | finish now =>
      intro s
      rw [action, ends_finish]
      split_ifs <;> simp
  | exit now =>
      intro s
      rw [action, ends_exit]
      split_ifs <;> simp

/- Whether a call is refused by a session. -/
def isRefused (c : ItemCall) (s : ItemSession) : Bool :=
  match (Stateful.run c.action s).1 with
  | .ok _ => false
  | .error e => e.IsRefusal

theorem run_of_isRefused
    {c : ItemCall}
    {s : ItemSession}
    (hRefused : c.isRefused s = true) :
    (Stateful.run c.action s).2 = s := by
  have hClean := c.action_refusedCleanly s
  unfold Ends at hClean
  unfold isRefused at hRefused
  cases hResult : (Stateful.run c.action s).1 with
  | ok _ =>
      rw [hResult] at hRefused
      cases hRefused
  | error e =>
      rw [hResult] at hRefused hClean
      exact hClean e rfl (of_decide_eq_true hRefused)

end ItemCall

------------------------------------------------------------
-- Runs
------------------------------------------------------------

namespace ItemSession

/- The calls of a run that are not refused. -/
def accepted (s : ItemSession) : List ItemCall → List ItemCall
  | [] => []
  | c :: calls =>
      let later := accepted (Stateful.run c.action s).2 calls
      if c.isRefused s then later else c :: later

/- A run comes to the same without the calls it refuses. -/
theorem after_accepted
    (s : ItemSession)
    (calls : List ItemCall) :
    s.after (s.accepted calls) = s.after calls := by
  induction calls generalizing s with
  | nil => rfl
  | cons c calls ih =>
      have hLater :
          s.after (c :: calls) =
            (Stateful.run c.action s).2.after calls := rfl
      rw [accepted, hLater]
      split
      next hRefused =>
        rw [ItemCall.run_of_isRefused hRefused]
        exact ih s
      next => exact ih (Stateful.run c.action s).2

/-
  Whatever a session has been through, a call that is refused
  leaves all of it as it was: the variables, the flags, the
  clock, what overrides defaults and correct responses, the
  notes and the events. So a run comes to the same without its
  refused calls.
-/
theorem refusals_change_nothing (s : ItemSession) :
    (∀ (c : ItemCall) (e : Failure),
      (Stateful.run c.action s).1 = .error e →
        e.IsRefusal →
          (Stateful.run c.action s).2 = s) ∧
    ∀ calls, s.after (s.accepted calls) = s.after calls :=
  ⟨fun c e => c.action_refusedCleanly s e, s.after_accepted⟩

/- An item that has been entered is not entered again. -/
theorem refusals_change_nothing_entered :
    let s :=
      (fresh openItem ⟨{ maxAttempts := 2 }, none⟩ default {}
        none .individual).after openingCalls
    (Stateful.run (ItemCall.enter ⟨5⟩).action s).1 =
        .error (.refused (.itemEntered "item")) ∧
      (Stateful.run (ItemCall.enter ⟨5⟩).action s).2 = s ∧
      s.accepted [.enter ⟨5⟩, .suspend ⟨7⟩] =
        [.suspend ⟨7⟩] := by
  intro s
  have hRefused :
      (Stateful.run (ItemCall.enter ⟨5⟩).action s).1 =
        .error (.refused (.itemEntered "item")) := rfl
  exact ⟨hRefused,
    (refusals_change_nothing s).1 _ _ hRefused trivial, rfl⟩

end ItemSession

end Assessment
