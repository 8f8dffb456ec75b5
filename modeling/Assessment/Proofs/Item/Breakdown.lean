import Assessment.Proofs.Item.Attempts
import Assessment.Proofs.Item.Setup
import Assessment.Proofs.Item.Timeless

/-
  Item sessions whose rules break off.

  A service that fails for good ends the call that has asked
  it, and what the call has done by then is not taken back.
  It is little: a session that breaks off while it is prepared
  is not initialized, and one that breaks off while it
  processes responses has bound and counted them, and they
  wait. Otherwise only what the rules write to has changed.

  Main declarations:
    * `ItemState.bare`, a state without its variables
    * `ItemSession.BrokenOff`, what rules leave behind
    * `BrokenInitialisation`, `BrokenSubmission` and
      `BrokenClosing`
    * `ItemSession.breaksOff`, what the calls leave
-/

------------------------------------------------------------
-- Rules
------------------------------------------------------------

namespace Assessment

open Stateful

/- A state without its variables. -/
def ItemState.bare (s : ItemState) : ItemState :=
  { s with
    values := []
    defaults := []
    corrects := [] }

namespace ItemSession

/-
  What is left of a session whose rules have broken off: only
  variables have changed, and those in some places only.
-/
structure BrokenOff
    (P : Store → String → Prop)
    (s t : ItemSession) :
    Prop where
  setup : s.SameSetup t
  bare : t.state.bare = s.state.bare
  scope : s.scope.ChangesAt P t.scope

/- Rules that have broken off have changed variables alone. -/
theorem BrokenOff.of_takeOver
    {P : Store → String → Prop}
    {s t : ItemSession}
    {u : Stage}
    (hChanges : s.scope.ChangesAt P u.scope)
    (hState : t.state = (s.takeOver u).state)
    (hSetup : s.SameSetup t) :
    s.BrokenOff P t where
  setup := hSetup
  bare := by
    rw [hState]
    rfl
  scope := by
    have hScope : t.scope = (s.takeOver u).scope := by
      unfold ItemSession.scope
      rw [hState, hSetup.item]
      rfl
    rw [hScope, scope_takeOver hChanges]
    exact hChanges

------------------------------------------------------------
-- Initialization
------------------------------------------------------------

/-
  The places that a preparation writes to before the defaults
  are given to all variables.
-/
def preparationPlaces
    (item : Item)
    (defaults : List TemplateDefault)
    (store : Store)
    (name : String) :
    Prop :=
  templatePlaces item store name ∨
    (store = .defaults ∧
      name ∈ defaults.map TemplateDefault.identifier)

/- What follows template processing does not break off. -/
theorem breaks_prepare
    (engine : Engine)
    {item : Item}
    (defaults : List TemplateDefault)
    {s : Stage}
    (hItem : s.IsOf item) :
    Breaks (prepare engine item defaults) s fun t =>
      s.scope.ChangesAt (preparationPlaces item defaults)
        t.scope := by
  have hTakes :=
    takeDefaults_changesAt
      (P := preparationPlaces item defaults) engine
      (fun _ hMem => Or.inr ⟨rfl, List.mem_map_of_mem hMem⟩) s
  apply Breaks.seq (Breaks.of_ends hTakes)
  intro _ given hTaken
  have hGiven := hTakes.of_run hTaken
  have hRuns :
      Ends
        (processTemplates engine item
          engine.settings.templateLimit 0)
        given fun _ t =>
          s.scope.ChangesAt (preparationPlaces item defaults)
            t.scope := by
    apply (processTemplates_changesAt engine item _ 0
      given).mono
    intro _ t hChanges
    exact IsTrans.trans _ _ _ hGiven
      (Scope.ChangesAt.mono hChanges fun _ _ => Or.inl)
  apply Breaks.seq (Breaks.of_ends hRuns)
  intro runs u hRun
  have hOwn : u.IsOf item := (hRuns.of_run hRun).isOf hItem
  apply Breaks.of_isOk
  exact ends_settle_noted hOwn runs fun _ _ => rfl

/-
  A session that has broken off while it was prepared is still
  not initialized.
-/
structure BrokenInitialisation
    (defaults : List TemplateDefault)
    (s t : ItemSession) :
    Prop where
  fresh : s.state.initialized = false
  rest : s.BrokenOff (preparationPlaces s.item defaults) t

theorem breaks_initialise
    (defaults : List TemplateDefault)
    (s : ItemSession) :
    Breaks (initialise defaults) s
      (s.BrokenInitialisation defaults) := by
  unfold Breaks
  by_cases hDone : s.state.initialized = true
  · rw [ends_initialise_again hDone]
    intro cause hCause
    cases hCause
  · have hNew : s.state.initialized = false := by
      simpa using hDone
    rw [ends_initialise_new hNew]
    have hBreaks := breaks_prepare s.engine defaults
      s.stage_isOf
    unfold Breaks at hBreaks
    apply hBreaks.mono
    rintro r u hChanges cause rfl
    constructor
    · exact hNew
    · apply BrokenOff.of_takeOver (hChanges cause rfl)
      · simp [prepared, takeOver, hNew, Except.isOk,
          Except.toBool]
      · exact ⟨rfl, rfl, rfl, rfl, rfl⟩

------------------------------------------------------------
-- Response Processing
------------------------------------------------------------

/- Rules of processing that have broken off end nothing. -/
theorem brokenOff_processed
    {P : Store → String → Prop}
    {s : ItemSession}
    {u : Stage}
    (hChanges : Stage.Follows (Scope.ChangesAt P) s.stage u) :
    s.BrokenOff P (s.processed u false) := by
  apply BrokenOff.of_takeOver hChanges
  · simp [processed, takeOver]
  · exact s.processed_sameSetup u false

/- An attempt that has broken off counts all the same. -/
theorem breaks_processResponses (s : ItemSession) :
    Breaks processResponses s
      (s.counted.BrokenOff (responsePlaces s.item)) := by
  unfold Breaks
  by_cases hInit : s.state.initialized = true
  · rw [ends_processResponses hInit]
    apply (respond_changesAt s.engine s.item
      s.counted.stage).mono
    rintro r u hChanges cause rfl
    exact brokenOff_processed hChanges
  · rw [ends_processResponses_new (by simpa using hInit)]
    intro cause hCause
    cases hCause

------------------------------------------------------------
-- Submissions
------------------------------------------------------------

/-
  A submission that has broken off had been admitted and was
  in time. Its responses have been bound, all of them, and its
  attempt has been counted if it counts.
-/
structure BrokenSubmission
    (responses : Responses)
    (now : Instant)
    (s t : ItemSession) :
    Prop where
  interacting : s.state.phase = .interacting
  admitted : s.isAttemptAllowed = true
  inTime : (s.touchedAt now).isLate = false
  atOnce : (s.answered responses now).isBlocked = false
  rest :
    (s.answered responses now).counted.BrokenOff
      (responsePlaces s.item) t

theorem breaks_submit
    (responses : Responses)
    (now : Instant)
    (s : ItemSession) :
    Breaks (submit responses now) s
      (s.BrokenSubmission responses now) := by
  unfold Breaks
  apply ends_submit_cases
  · intro e hOther cause hCause
    cases hCause
    exact absurd ⟨cause, rfl⟩ hOther
  · intro hInit hPhase hAllowed
    rw [ends_submit_open hInit hPhase hAllowed]
    split
    · intro cause hCause
      cases hCause
    next hInTime =>
      have hAnswered :
          ((s.touchedAt now).bound responses).judged =
            s.answered responses now := rfl
      rw [hAnswered]
      dsimp only
      split
      · intro cause hCause
        cases hCause
      next hAtOnce =>
        apply (respond_changesAt s.engine s.item
          (s.answered responses now).counted.stage).mono
        intro r u hChanges
        cases r with
        | ok =>
            intro cause hCause
            cases hCause
        | error e =>
            intro cause hCause
            constructor
            · exact hPhase
            · exact hAllowed
            · simpa using hInTime
            · simpa using hAtOnce
            · exact brokenOff_processed hChanges

/-
  The session is still open, and what it has been given waits
  as if it had been submitted for the end of a part.
-/
theorem BrokenSubmission.bare
    {responses : Responses}
    {now : Instant}
    {s t : ItemSession}
    (hBroken : s.BrokenSubmission responses now t) :
    t.state.bare =
      { s.state.bare with
        timer := s.state.timer.touch now
        responded :=
          s.state.responded || !responses.isEmpty
        pending := true
        unbound := []
        invalid :=
          (s.answered responses now).state.invalid } := by
  have hBound :
      (s.answered responses now).state.unbound = [] := by
    have hFree := hBroken.atOnce
    simp only [isBlocked, Bool.or_eq_false_iff] at hFree
    simpa using hFree.1.1
  have hCounted :
      (s.answered responses now).counted.state.bare =
        (s.answered responses now).state.bare := by
    unfold counted
    split <;> rfl
  rw [hBroken.rest.bare, hCounted, ← hBound]
  rfl

------------------------------------------------------------
-- Ends
------------------------------------------------------------

/-
  An item that has broken off while it was closed has not been
  closed. The responses that wait still wait, and their
  attempt has been counted if it counts.
-/
structure BrokenClosing (s t : ItemSession) : Prop where
  waiting : s.state.pending = true
  bound : s.state.unbound = []
  rest : s.counted.BrokenOff (responsePlaces s.item) t

theorem breaks_processPending (s : ItemSession) :
    Breaks processPending s s.BrokenClosing := by
  unfold Breaks
  rw [processPending, ends_bind, ends_getState]
  dsimp only
  rw [ends_ite]
  split
  next hWaits =>
    rw [Bool.and_eq_true] at hWaits
    apply Breaks.seq
    · exact (breaks_processResponses s).mono fun t hBroken =>
        ⟨hWaits.1, List.isEmpty_iff.mp hWaits.2, hBroken⟩
    · intro _ t _
      exact Breaks.of_isOk rfl
  · intro cause hCause
    cases hCause

/- No service is asked when a session is closed. -/
theorem breaks_finish
    {Q : ItemSession → Prop}
    (now : Instant)
    (s : ItemSession) :
    Breaks (finish now) s Q := by
  unfold Breaks
  rw [ends_finish]
  split
  · split
    · intro cause hCause
      cases hCause
    · intro cause hCause
      cases hCause
  · intro cause hCause
    cases hCause

theorem breaks_timeOut
    {Q : ItemSession → Prop}
    (now : Instant)
    (s : ItemSession) :
    Breaks (timeOut now) s Q := by
  unfold Breaks
  rw [ends_timeOut]
  split
  · split
    · intro cause hCause
      cases hCause
    · intro cause hCause
      cases hCause
  · intro cause hCause
    cases hCause

end ItemSession

------------------------------------------------------------
-- Calls
------------------------------------------------------------

/- A call that the service has not answered has broken off. -/
theorem Stateful.Breaks.of_isUnanswered
    {σ α : Type}
    {x : Stateful σ α}
    {s : σ}
    {Q : σ → Prop}
    (hBreaks : Breaks x s Q)
    (hUnanswered : isUnanswered (run x s).1 = true) :
    Q (run x s).2 := by
  unfold isUnanswered at hUnanswered
  split at hUnanswered
  next cause hCause => exact hBreaks cause hCause
  next => cases hUnanswered

namespace ItemSession

/- What calls to an item leave when they break off. -/
structure BreaksOff (s : ItemSession) : Prop where
  initialise :
    ∀ defaults,
      Breaks (initialise defaults) s
        (s.BrokenInitialisation defaults)
  submit :
    ∀ responses now,
      Breaks (submit responses now) s
        (s.BrokenSubmission responses now)

theorem breaksOff (s : ItemSession) : s.BreaksOff where
  initialise defaults := breaks_initialise defaults s
  submit responses now := breaks_submit responses now s

/- Calls to an item that break off change nothing but time. -/
structure Undone (s : ItemSession) : Prop where
  initialise :
    ∀ defaults,
      Breaks (initialise defaults) s fun t =>
        t.state.timeless = s.state.timeless
  submit :
    ∀ responses now,
      Breaks (submit responses now) s fun t =>
        t.state.timeless = s.state.timeless

/- An item whose score is a number that a service knows. -/
def servedItem : Item :=
  { openItem with
    outcomes := [
      { identifier := "SCORE"
        cardinality := .single
        baseType := some .float
        defaultValue := none
        detail := .outcome ⟨none, none, none, none, none⟩ }]
    responseProcessing := [
      .setValue .outcome "SCORE" (.leaf (.constant .pi))] }

/- A service that answers nothing. -/
def silentService : Service :=
  ⟨fun _ _ => .error (.unavailable "silent"),
    fun _ => .error (.unavailable "silent")⟩

/- An engine for which such a service is the end of a call. -/
def silentEngine : Engine :=
  ⟨{ policy := .fatal }, some silentService⟩

/- The item has been presented. -/
def servedSession : ItemSession :=
  (fresh servedItem silentEngine default {} none
    .individual).after openingCalls

/- A submission then breaks off and counts. -/
theorem served_submission :
    isUnanswered
        (Stateful.run (submit [] ⟨0⟩)
          servedSession).1 = true ∧
      (Stateful.run (submit [] ⟨0⟩)
        servedSession).2.state.timeless.attempts = 1 ∧
      servedSession.state.timeless.attempts = 0 := by
  decide +kernel

end ItemSession

end Assessment
