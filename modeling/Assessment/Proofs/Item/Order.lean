import Assessment.Proofs.Item.Defaults
import Assessment.Proofs.Item.Steps

/-
  The bindings of an item session stay in order.

  Every step puts values under names, and putting keeps the
  names rising. So sessions in which the same is bound to
  every name have the same bindings.

  Main declarations:
    * `ItemSession.Rises`, which every step obeys
    * `ItemCall.rises`, the law of one call
    * `ItemSession.after_rises`, the law of all runs
-/

------------------------------------------------------------
-- Order
------------------------------------------------------------

namespace Assessment

open Stateful

namespace ItemSession

/- Bindings that were in order are in order. -/
def Rises (s t : ItemSession) : Prop :=
  ∀ store, (s.scope.bindings store).Rising →
    (t.scope.bindings store).Rising

instance : Std.Refl Rises where
  refl _ _ := id

instance : IsTrans ItemSession Rises where
  trans _ _ _ hFirst hThen store hRising :=
    hThen store (hFirst store hRising)

/- A change of values keeps the order of the others. -/
theorem rises_of_values
    {s t : ItemSession}
    (hValues : s.state.values.Rising → t.state.values.Rising)
    (hDefaults : t.state.defaults = s.state.defaults)
    (hCorrects : t.state.corrects = s.state.corrects) :
    s.Rises t := by
  intro store hRising
  cases store with
  | values => exact hValues hRising
  | defaults =>
      change t.state.defaults.Rising
      rw [hDefaults]
      exact hRising
  | corrects =>
      change t.state.corrects.Rising
      rw [hCorrects]
      exact hRising

theorem changeState_rises
    {f : ItemState → ItemState}
    (hValues :
      ∀ s, s.values.Rising → (f s).values.Rising)
    (hDefaults : ∀ s, (f s).defaults = s.defaults)
    (hCorrects : ∀ s, (f s).corrects = s.corrects) :
    Moves Rises (changeState f) :=
  fun s => rises_of_values (hValues s.state)
    (hDefaults s.state) (hCorrects s.state)

theorem runRules_rises
    {α : Type}
    {P : Store → String → Prop}
    {x : Run α}
    (hChanges : Moves (Stage.Follows (Scope.ChangesAt P)) x) :
    Moves Rises (runRules x) := by
  intro s
  rw [ends_runRules]
  exact (hChanges _).mono fun _ _ hStage => hStage.rising

------------------------------------------------------------
-- Steps
------------------------------------------------------------

/- What a closing step changes keeps the order of values. -/
theorem closed_rises
    {s : ItemSession}
    {u : ItemState}
    (hValues : u.values = s.state.values)
    (hDefaults : u.defaults = s.state.defaults)
    (hCorrects : u.corrects = s.state.corrects)
    (now : Instant) :
    s.Rises { s with state := u.closed now } :=
  rises_of_values
    (fun hRising => (hValues ▸ hRising).put _ _) hDefaults
    hCorrects

theorem finish_rises (now : Instant) :
    Moves Rises (finish now) :=
  finish_moves fun _ _ _ => closed_rises rfl rfl rfl now

theorem timeOut_rises (now : Instant) :
    Moves Rises (timeOut now) :=
  timeOut_moves fun _ _ _ => closed_rises rfl rfl rfl now

theorem clearControls_rising
    (item : Item)
    {b : Bindings}
    (hRising : b.Rising) :
    (clearControls item b).Rising := by
  unfold clearControls
  induction item.endAttempts generalizing b with
  | nil => exact hRising
  | cons e rest ih =>
      rw [List.foldl_cons]
      apply ih
      split
      · exact hRising.put _ _
      · exact hRising

theorem bindEach_rising
    (item : Item)
    {b : Bindings}
    (hRising : b.Rising)
    (responses : Responses) :
    (bindEach item b responses).1.Rising := by
  induction responses generalizing b with
  | nil => exact hRising
  | cons response rest ih =>
      rw [bindEach]
      split
      · exact ih (hRising.put _ _)
      · exact ih hRising

theorem bindResponses_rises (responses : Responses) :
    Moves Rises (bindResponses responses) :=
  bindResponses_moves fun s _ _ =>
    rises_of_values
      (fun hRising =>
        bindEach_rising s.item
          (clearControls_rising s.item hRising) responses)
      rfl rfl

theorem processResponses_rises :
    Moves Rises processResponses :=
  processResponses_moves
    (announced_moves _ fun _ _ _ => id)
    (changeState_rises (fun _ hRising => hRising.put _ _)
      (fun _ => rfl) fun _ => rfl)
    (fun s t _ =>
      runRules_rises (respond_changesAt s.engine s.item) t)
    (changeState_rises (fun _ => id) (fun _ => rfl)
      fun _ => rfl)

theorem touch_rises (now : Instant) :
    Moves Rises (touch now) :=
  changeState_rises (fun _ hRising => hRising.put _ _)
    (fun _ => rfl) fun _ => rfl

theorem partsMove_rises : PartsMove Rises where
  touch := touch_rises
  timeOut := timeOut_rises
  finish := finish_rises
  bindResponses := bindResponses_rises
  processResponses := processResponses_rises

theorem initialise_rises (defaults : List TemplateDefault) :
    Moves Rises (initialise defaults) :=
  initialise_moves (announced_moves _ fun _ _ _ => id)
    (fun s =>
      runRules_rises
        (prepare_changesAt s.engine s.item defaults) s)
    (changeState_rises (fun _ => id) (fun _ => rfl)
      fun _ => rfl)

end ItemSession

------------------------------------------------------------
-- Calls
------------------------------------------------------------

open ItemSession in
/- Every call keeps bindings in order. -/
theorem ItemCall.rises (c : ItemCall) :
    Moves Rises c.action := by
  cases c with
  | initialise defaults => exact initialise_rises defaults
  | enter now =>
      exact enter_moves fun _ _ _ _ =>
        rises_of_values (fun hRising => hRising.put _ _)
          rfl rfl
  | suspend now =>
      exact suspend_moves fun _ _ _ =>
        rises_of_values (fun hRising => hRising.put _ _)
          rfl rfl
  | resume now =>
      exact resume_moves fun _ _ _ =>
        rises_of_values id rfl rfl
  | touch now => exact touch_rises now
  | bindResponses responses =>
      exact fun s => ends_discard.mpr
        (bindResponses_rises responses s)
  | processResponses => exact processResponses_rises
  | submit responses now =>
      exact fun s => ends_discard.mpr
        (submit_moves partsMove_rises responses now s)
  | skip now =>
      exact skip_moves fun _ _ _ _ _ =>
        closed_rises rfl rfl rfl now
  | timeOut now => exact timeOut_rises now
  | finish now => exact finish_rises now
  | exit now =>
      exact exit_moves
        (fun _ _ _ => rises_of_values id rfl rfl)
        fun _ _ _ =>
          rises_of_values (fun hRising => hRising.put _ _)
            rfl rfl

/- In every state that calls lead to, bindings are in order. -/
theorem ItemSession.after_rises
    (s : ItemSession)
    (calls : List ItemCall) :
    s.Rises (s.after calls) :=
  after_moves ItemCall.rises s calls

end Assessment
