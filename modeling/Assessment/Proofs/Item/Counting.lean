import Assessment.Proofs.Item.Attempts

/-
  Which attempts are counted.

  Before the rules of processing run, an attempt is counted
  unless a control that ends attempts waives it. Of several
  controls that are true, the first one decides: an attempt
  that one control would waive is counted if a counting
  control stands before it.

  Over a run of calls the number of attempts is therefore the
  number of submissions that came to be processed and were
  not waived.

  Main declarations:
    * `ItemSession.IsWaived`, decided by the first control
    * `ItemSession.Counts`, what counting changes
    * `ItemSession.handed?`, the session whose responses a
      call hands to its rules
    * `ItemSession.tallied`, the attempts that a run counts
    * `attempts_counted_by_first`
-/

------------------------------------------------------------
-- Waiving
------------------------------------------------------------

namespace Assessment

open Stateful

namespace ItemSession

/- The response of a control is true. -/
def IsPressed (s : ItemSession) (e : EndAttempt) : Prop :=
  (s.state.value e.response).isTrue = true

instance (s : ItemSession) (e : EndAttempt) :
    Decidable (s.IsPressed e) := by
  unfold IsPressed
  infer_instance

/-
  The attempt is waived: the first control whose response is
  true does not count it.
-/
def IsWaived (s : ItemSession) : Prop :=
  ∃ before e after,
    s.item.endAttempts = before ++ e :: after ∧
      s.IsPressed e ∧ e.counts = false ∧
        ∀ earlier ∈ before, ¬ s.IsPressed earlier

theorem countsAttempt_eq_false_iff (s : ItemSession) :
    s.countsAttempt = false ↔ s.IsWaived := by
  unfold countsAttempt IsWaived IsPressed
  constructor
  · intro hOff
    split at hOff
    next e hFirst =>
      obtain ⟨hTrue, before, after, hSplit, hBefore⟩ :=
        List.find?_eq_some_iff_append.mp hFirst
      refine ⟨before, e, after, hSplit, hTrue, hOff, ?_⟩
      simpa using hBefore
    next => cases hOff
  · rintro ⟨before, e, after, hSplit, hTrue, hOff, hBefore⟩
    have hFirst :
        (s.item.endAttempts.find? fun e =>
          (s.state.value e.response).isTrue) = some e := by
      refine List.find?_eq_some_iff_append.mpr
        ⟨hTrue, before, after, hSplit, ?_⟩
      simpa using hBefore
    rw [hFirst]
    exact hOff

instance (s : ItemSession) : Decidable s.IsWaived :=
  decidable_of_iff _ s.countsAttempt_eq_false_iff

/-
  Where the controls that are true agree, any of them that
  does not count waives the attempt.
-/
theorem isWaived_iff_of_agree
    {s : ItemSession}
    (hAgree :
      ∀ e ∈ s.item.endAttempts, ∀ e' ∈ s.item.endAttempts,
        s.IsPressed e → s.IsPressed e' →
          e.counts = e'.counts) :
    s.IsWaived ↔
      ∃ e ∈ s.item.endAttempts,
        s.IsPressed e ∧ e.counts = false := by
  constructor
  · rintro ⟨before, e, after, hSplit, hTrue, hOff, _⟩
    exact ⟨e, by simp [hSplit], hTrue, hOff⟩
  · rintro ⟨e, hMem, hTrue, hOff⟩
    rw [← countsAttempt_eq_false_iff, countsAttempt]
    split
    next first hFirst =>
      have hPressed : s.IsPressed first := by
        simpa [IsPressed] using List.find?_some hFirst
      rw [hAgree first (List.mem_of_find?_eq_some hFirst) e
        hMem hPressed hTrue]
      exact hOff
    next hNone =>
      exact absurd hTrue (List.find?_eq_none.mp hNone e hMem)

------------------------------------------------------------
-- One Processing
------------------------------------------------------------

/-
  A session as the rules of processing find it: its attempt
  has been counted, unless it is waived, and nothing else has
  changed.
-/
structure Counts (s b : ItemSession) : Prop where
  waived : s.IsWaived → b = s
  counted :
    ¬ s.IsWaived →
      b.state.attempts.toInt = s.state.attempts.toInt + 1
  same :
    ∃ values,
      b = { s with state := { s.state with values := values } } ∧
        ∀ name, name ≠ Builtin.numAttempts →
          values.get? name = s.state.values.get? name

/- One more than a number that is not the greatest. -/
theorem toInt_succ
    {n : Int64}
    (hRoom : n < Int64.maxValue) :
    (n + 1).toInt = n.toInt + 1 := by
  have hBelow : n.toInt < 2 ^ 63 - 1 :=
    Int64.lt_iff_toInt_lt.mp hRoom
  have hAbove := n.le_toInt
  have hOne : (1 : Int64).toInt = 1 := rfl
  rw [Int64.toInt_add, hOne]
  rw [Int.bmod_eq_of_le] <;> omega

theorem counted_eq (s : ItemSession) :
    s.counted =
      if s.IsWaived then s
      else { s with state := counting s.state } := by
  unfold counted
  by_cases hWaived : s.IsWaived
  · rw [if_pos hWaived, if_neg]
    simpa using s.countsAttempt_eq_false_iff.mpr hWaived
  · rw [if_neg hWaived, if_pos]
    rw [← countsAttempt_eq_false_iff] at hWaived
    simpa using hWaived

theorem attempts_counting (s : ItemState) :
    (counting s).attempts = s.attempts + 1 := by
  unfold counting ItemState.bind
  conv_lhs => unfold ItemState.attempts
  rw [Keyed.get?_put_self]
  rfl

theorem counts_counted
    {s : ItemSession}
    (hRoom : s.state.attempts < Int64.maxValue) :
    s.Counts s.counted := by
  rw [counted_eq]
  by_cases hWaived : s.IsWaived
  · rw [if_pos hWaived]
    exact ⟨fun _ => rfl, fun h => absurd hWaived h,
      s.state.values, rfl, fun _ _ => rfl⟩
  · rw [if_neg hWaived]
    refine ⟨fun h => absurd h hWaived, fun _ => ?_, _, rfl,
      fun name hOther => Keyed.get?_put_of_ne hOther _ _⟩
    change (counting s.state).attempts.toInt = _
    rw [attempts_counting, toInt_succ hRoom]

/-
  Processing runs the rules from the session with its attempt
  counted, and takes over what they leave.
-/
def ProcessesCounted (s : ItemSession) : Prop :=
  ∃ b r u, s.Counts b ∧
    Stateful.run (respond s.engine s.item) b.stage = (r, u) ∧
      Stateful.run processResponses s =
        (r, b.processed u r.isOk)

theorem processesCounted
    {s : ItemSession}
    (hInit : s.state.initialized = true)
    (hRoom : s.state.attempts < Int64.maxValue) :
    s.ProcessesCounted := by
  refine ⟨s.counted, _, _, counts_counted hRoom, rfl, ?_⟩
  have hEnds :=
    (ends_processResponses hInit fun r t =>
      Stateful.run processResponses s = (r, t)).mp rfl
  exact hEnds

------------------------------------------------------------
-- Calls
------------------------------------------------------------

/-
  Whether responses have been handed to the rules. A service
  that leaves the rules without an answer does not undo that.
-/
def isHanded : Except Failure Submission → Bool
  | .ok answer => answer.processed
  | .error e => isUnanswered (.error e : Except Failure Unit)

/- The session whose responses a call hands to the rules. -/
def handed? (s : ItemSession) : ItemCall → Option ItemSession
  | .submit responses now =>
      if isHanded (Stateful.run (submit responses now) s).1 then
        some (s.answered responses now)
      else none
  | .processResponses =>
      if s.state.initialized then some s else none
  | _ => none

/- One attempt, unless it is waived. -/
def attemptOf (b : ItemSession) : Nat :=
  if b.IsWaived then 0 else 1

/- The attempts that a call counts. -/
def countedBy (s : ItemSession) (c : ItemCall) : Nat :=
  ((s.handed? c).map attemptOf).getD 0

/- The attempts that a run of calls counts. -/
def tallied (s : ItemSession) : List ItemCall → Nat
  | [] => 0
  | c :: rest =>
      s.countedBy c +
        tallied (Stateful.run c.action s).2 rest

theorem countedBy_submit
    (s : ItemSession)
    (responses : Responses)
    (now : Instant) :
    s.countedBy (.submit responses now) =
      if isHanded (Stateful.run (submit responses now) s).1 then
        (s.answered responses now).attemptOf
      else 0 := by
  unfold countedBy handed?
  dsimp only
  split <;> rfl

/- No rule and no control writes to the number of attempts. -/
structure LeavesCount (item : Item) : Prop where
  rules :
    ¬ Rule.WritesTo item.responseProcessing .values
      Builtin.numAttempts
  controls :
    ∀ e ∈ item.endAttempts, e.response ≠ Builtin.numAttempts

theorem attempts_counted_eq (s : ItemSession) :
    s.counted.state.attempts =
      s.state.attempts + Int64.ofNat s.attemptOf := by
  rw [counted_eq, attemptOf]
  by_cases hWaived : s.IsWaived
  · rw [if_pos hWaived, if_pos hWaived]
    exact (Int64.add_zero _).symm
  · rw [if_neg hWaived, if_neg hWaived]
    exact attempts_counting s.state

theorem attempts_answered
    {s : ItemSession}
    (hLeaves : LeavesCount s.item)
    (responses : Responses)
    (now : Instant) :
    (s.answered responses now).state.attempts =
      s.state.attempts := by
  have hTouched := (touch_quiet now s).attempts
  refine Eq.trans ?_ hTouched
  have hSame :
      (s.answered responses now).state.values.get?
          Builtin.numAttempts =
        (s.touchedAt now).state.values.get?
          Builtin.numAttempts := by
    refine (get?_bindEach (by decide) _ responses).trans ?_
    exact get?_clearControls_of_ne hLeaves.controls _
  unfold ItemState.attempts
  rw [hSame]
  rfl

/- Rules that leave the count alone add nothing to it. -/
theorem attempts_after_rules
    {b : ItemSession}
    (hLeaves : LeavesCount b.item) :
    Ends (respond b.engine b.item) b.counted.stage fun _ u =>
      ∀ done,
        (b.counted.processed u done).state.attempts =
          b.state.attempts + Int64.ofNat b.attemptOf := by
  have hItem := b.counted_sameSetup.item
  refine (respond_changesAt b.engine b.item
    b.counted.stage).mono
    fun _ u hChanges done => ?_
  rw [← hItem] at hChanges hLeaves
  rw [attempts_processed hLeaves.rules hChanges done,
    attempts_counted_eq]

theorem attempts_processResponses
    {s : ItemSession}
    (hLeaves : LeavesCount s.item) :
    Ends processResponses s fun _ t =>
      t.state.attempts =
        s.state.attempts +
          Int64.ofNat (s.countedBy .processResponses) := by
  unfold countedBy handed?
  by_cases hInit : s.state.initialized = true
  · rw [ends_processResponses hInit, if_pos hInit]
    exact (attempts_after_rules hLeaves).mono
      fun r u hCount => hCount r.isOk
  · have hNew : s.state.initialized = false := by
      simpa using hInit
    rw [ends_processResponses_new hNew, if_neg hInit]
    exact (Int64.add_zero _).symm

/- A submission counts what it hands to the rules. -/
theorem attempts_submit
    {s : ItemSession}
    (hLeaves : LeavesCount s.item)
    (responses : Responses)
    (now : Instant) :
    Ends (submit responses now) s fun r t =>
      t.state.attempts =
        s.state.attempts + Int64.ofNat
          (if isHanded r then
            (s.answered responses now).attemptOf
          else 0) := by
  have hNone :
      s.state.attempts = s.state.attempts + Int64.ofNat 0 :=
    (Int64.add_zero _).symm
  refine ends_submit_cases ?_ fun hInit hPhase hAllowed => ?_
  · intro e hOther
    have hOff : isHanded (.error e) = false := by
      cases e with
      | service cause => exact absurd ⟨cause, rfl⟩ hOther
      | _ => rfl
    rw [hOff]
    exact hNone
  · rw [ends_submit_open hInit hPhase hAllowed]
    split
    next =>
      refine Eq.trans ?_ hNone
      have hTouched := (touch_quiet now s).attempts
      have hClosed :
          (s.touchedAt now).Quiet
            { s.touchedAt now with state :=
              { (s.touchedAt now).state with
                timedOut := true }.closed now } :=
        quiet_of_state ⟨_, Or.inr rfl⟩ rfl fun _ => rfl
      exact hClosed.attempts.trans hTouched
    next =>
      have hSame := attempts_answered hLeaves responses now
      dsimp only
      change
        if (s.answered responses now).isBlocked = true then _
        else _
      split
      next =>
        exact hSame.trans hNone
      next =>
        have hRules :=
          attempts_after_rules (b := s.answered responses now)
            hLeaves
        have hFails :=
          respond_soundFor (s.answered responses now).engine
            (s.answered responses now).counted.stage
            (s.answered responses now).stage_counted_isOf
        refine (hRules.and hFails).mono
          fun r u ⟨hCount, hService⟩ => ?_
        rw [← hSame]
        cases r with
        | ok _ =>
            refine Eq.trans ?_ (hCount true)
            exact (concluded_quiet now _).attempts
        | error e =>
            have hHanded : isHanded (.error e) = true :=
              isUnanswered_of_isService (hService.2 e rfl)
            refine Eq.trans (hCount false) ?_
            rw [hHanded]
            rfl

theorem attempts_bindResponses
    {s : ItemSession}
    (hLeaves : LeavesCount s.item)
    (responses : Responses) :
    Ends (bindResponses responses) s fun _ t =>
      t.state.attempts = s.state.attempts := by
  rw [ends_bindResponses]
  split
  next =>
    split
    next => rfl
    next =>
      have hSame :
          (s.bound responses).state.values.get?
              Builtin.numAttempts =
            s.state.values.get? Builtin.numAttempts := by
        refine (get?_bindEach (by decide) _ responses).trans ?_
        exact get?_clearControls_of_ne hLeaves.controls _
      change
        (((s.bound responses).state.values.get?
          Builtin.numAttempts).bind Value.int64?).getD 0 = _
      rw [hSame]
      rfl
  next => rfl

theorem attempts_enter (now : Instant) (s : ItemSession) :
    Ends (enter now) s fun _ t =>
      t.state.attempts = s.state.attempts := by
  have hEntered :
      (s.state.entered now).attempts = s.state.attempts := by
    unfold ItemState.attempts ItemState.entered
    dsimp only
    rw [Keyed.get?_put_of_ne (by decide)]
  rw [ends_enter]
  split
  next =>
    split
    next => rfl
    next =>
      split
      next => rfl
      next => exact hEntered
  next => rfl

/- A call adds the attempts that it counts. -/
theorem attempts_call
    {s : ItemSession}
    (hInit : s.state.initialized = true)
    (hLeaves : LeavesCount s.item)
    (c : ItemCall) :
    Ends c.action s fun _ t =>
      t.state.attempts =
        s.state.attempts + Int64.ofNat (s.countedBy c) := by
  have hSame :
      ∀ {t : ItemSession},
        t.state.attempts = s.state.attempts →
          t.state.attempts =
            s.state.attempts + Int64.ofNat 0 :=
    fun h => h.trans (Int64.add_zero _).symm
  have hQuiet :
      Moves Quiet c.action →
        Ends c.action s fun _ t =>
          t.state.attempts =
            s.state.attempts + Int64.ofNat 0 :=
    fun hMoves => (hMoves s).mono
      fun _ _ hQuiet => hSame hQuiet.attempts
  cases c with
  | initialise defaults =>
      refine (ends_initialise_again hInit defaults _).mpr ?_
      exact hSame rfl
  | enter now =>
      exact (attempts_enter now s).mono fun _ _ => hSame
  | suspend now => exact hQuiet (suspend_quiet now)
  | resume now => exact hQuiet (resume_quiet now)
  | touch now => exact hQuiet (touch_quiet now)
  | bindResponses responses =>
      exact ends_discard.mpr
        ((attempts_bindResponses hLeaves responses).mono
          fun _ _ => hSame)
  | processResponses => exact attempts_processResponses hLeaves
  | submit responses now =>
      refine ends_discard.mpr ?_
      rw [countedBy_submit]
      exact attempts_submit hLeaves responses now
  | skip now => exact hQuiet (skip_quiet now)
  | timeOut now => exact hQuiet (timeOut_quiet now)
  | finish now => exact hQuiet (finish_quiet now)
  | exit now => exact hQuiet (exit_quiet now)

------------------------------------------------------------
-- Runs
------------------------------------------------------------

/- A run of an initialized session adds what it counts. -/
theorem attempts_after
    {s : ItemSession}
    (hCoherent : s.state.Coherent)
    (hInit : s.state.initialized = true)
    (hLeaves : LeavesCount s.item)
    (calls : List ItemCall) :
    (s.after calls).state.attempts =
      s.state.attempts + Int64.ofNat (s.tallied calls) := by
  induction calls generalizing s with
  | nil => exact (Int64.add_zero _).symm
  | cons c rest ih =>
      have hProgress := c.advances s hCoherent
      have hSetup := c.keepsSetup s
      have hFirst := attempts_call hInit hLeaves c
      unfold Ends at hProgress hSetup hFirst
      have hRest :=
        ih hProgress.coherent (hProgress.initialized hInit)
          (hSetup.item.symm ▸ hLeaves)
      rw [hFirst, Int64.add_assoc, ← Int64.ofNat_add] at hRest
      exact hRest

/-
  Before a session is initialized no attempt is counted, and
  initializing it sets the number of attempts to zero.
-/
theorem attempts_call_new
    {s : ItemSession}
    (hNew : s.state.initialized = false)
    (c : ItemCall) :
    s.countedBy c = 0 ∧
      Ends c.action s fun _ t =>
        t.state.initialized = true → t.state.attempts = 0 := by
  have hStill :
      s.state.initialized = true → s.state.attempts = 0 := by
    simp [hNew]
  have hOff : ¬ s.state.initialized = true := by simp [hNew]
  cases c with
  | initialise defaults =>
      refine ⟨rfl, (ends_initialise_new hNew defaults _).mpr ?_⟩
      have hCourse :
          Ends (prepare s.engine s.item defaults) s.stage _ :=
        ends_prepare_course defaults s.stage_isOf
      refine hCourse.mono fun r u hTaken hDone => ?_
      obtain ⟨_, _, _, _, hScope⟩ := hTaken hDone
      exact attempts_prepared (s := s) hScope r.isOk
  | submit responses now =>
      have hRefused :=
        ends_submit_refused (fun h => absurd h hOff)
          responses now (s := s)
      constructor
      · obtain ⟨_, e, hError, hOther, _⟩ := hRefused
        rw [countedBy_submit, hError]
        cases e with
        | service cause => exact absurd ⟨cause, rfl⟩ hOther
        | _ => rfl
      · refine ends_discard.mpr (hRefused.mono ?_)
        rintro _ _ ⟨rfl, _⟩
        exact hStill
  | processResponses =>
      refine ⟨?_, (ends_processResponses_new hNew _).mpr hStill⟩
      rw [countedBy, handed?, if_neg hOff]
      rfl
  | bindResponses responses =>
      refine ⟨rfl, ends_discard.mpr ?_⟩
      rw [ends_bindResponses, if_neg hOff]
      exact hStill
  | enter now =>
      refine ⟨rfl, (ends_enter now s _).mpr ?_⟩
      rw [if_neg hOff]
      exact hStill
  | suspend now =>
      refine ⟨rfl, (ends_suspend now s _).mpr ?_⟩
      rw [if_neg hOff]
      exact hStill
  | resume now =>
      refine ⟨rfl, (ends_resume now s _).mpr ?_⟩
      rw [if_neg hOff]
      exact hStill
  | touch now =>
      refine ⟨rfl, (ends_touch now s _).mpr fun hInit => ?_⟩
      exact absurd hInit hOff
  | skip now =>
      refine ⟨rfl, (ends_skip now s _).mpr ?_⟩
      rw [if_neg hOff]
      exact hStill
  | timeOut now =>
      refine ⟨rfl, (ends_timeOut now s _).mpr ?_⟩
      rw [if_neg hOff]
      exact hStill
  | finish now =>
      refine ⟨rfl, (ends_finish now s _).mpr ?_⟩
      rw [if_neg hOff]
      exact hStill
  | exit now =>
      refine ⟨rfl, (ends_exit now s _).mpr ?_⟩
      rw [if_neg hOff]
      exact hStill

/- A session has the attempts that have been counted. -/
theorem attempts_after_new
    {s : ItemSession}
    (hCoherent : s.state.Coherent)
    (hNew : s.state.initialized = false)
    (hLeaves : LeavesCount s.item)
    {calls : List ItemCall}
    (hInit : (s.after calls).state.initialized = true) :
    (s.after calls).state.attempts =
      Int64.ofNat (s.tallied calls) := by
  induction calls generalizing s with
  | nil =>
      rw [after, after_nil, hNew] at hInit
      cases hInit
  | cons c rest ih =>
      have hProgress := c.advances s hCoherent
      have hSetup := c.keepsSetup s
      obtain ⟨hNone, hZero⟩ := attempts_call_new hNew c
      unfold Ends at hProgress hSetup hZero
      have hKeeps := hSetup.item.symm ▸ hLeaves
      rw [tallied, hNone, Nat.zero_add]
      by_cases hThere :
        (Stateful.run c.action s).2.state.initialized = true
      · have hRest :=
          attempts_after hProgress.coherent hThere hKeeps rest
        rw [hZero hThere, Int64.zero_add] at hRest
        exact hRest
      · exact ih hProgress.coherent (by simpa using hThere)
          hKeeps hInit

/-
  Processing counts an attempt before the rules run unless the
  first control that is true waives it, and so does any of
  them where those that are true agree. As long as no rule and
  no control writes to the number of attempts, every run of
  calls to an initialized session leaves it at the number of
  submissions that were processed and not waived.
-/
theorem attempts_counted_by_first
    (item : Item)
    (engine : Engine)
    (draws : Draws)
    (control : Control)
    (timeLimits : Option TimeLimits)
    (submission : SubmissionMode)
    (hLeaves : LeavesCount item) :
    let first :=
      fresh item engine draws control timeLimits submission
    (∀ s : ItemSession,
      s.state.initialized = true →
        s.state.attempts < Int64.maxValue →
          s.ProcessesCounted) ∧
      (∀ s : ItemSession,
        (∀ e ∈ s.item.endAttempts, ∀ e' ∈ s.item.endAttempts,
          s.IsPressed e → s.IsPressed e' →
            e.counts = e'.counts) →
          (s.IsWaived ↔
            ∃ e ∈ s.item.endAttempts,
              s.IsPressed e ∧ e.counts = false)) ∧
      ∀ calls,
        (first.after calls).state.initialized = true →
          first.tallied calls < 2 ^ 63 →
            (first.after calls).state.attempts.toInt =
              first.tallied calls := by
  intro first
  refine ⟨fun s => processesCounted,
    fun s => isWaived_iff_of_agree, ?_⟩
  intro calls hInit hShort
  have hCount :=
    attempts_after_new (s := first) ItemState.coherent_default
      rfl hLeaves hInit
  rw [hCount]
  exact Int64.toInt_ofNat_of_lt hShort

/- An item with controls that end an attempt. -/
def controlled (controls : List EndAttempt) : Item :=
  { openItem with
    responses := controls.map fun e =>
      ⟨e.response, .single, some .boolean, none,
        .response Builtin.plainResponse⟩
    endAttempts := controls }

/- Its session before the first call. -/
def controlledSession (controls : List EndAttempt) :
    ItemSession :=
  fresh (controlled controls) ⟨{}, none⟩ default {
    maxAttempts := some 0 } none .individual

/- A hint is waived, and two answers are counted. -/
theorem attempts_counted_beside_hint :
    let first := controlledSession [⟨"HINT", false⟩]
    let calls : List ItemCall :=
      [.initialise [], .enter ⟨0⟩, .submit [] ⟨1⟩,
        .submit [("HINT", ["true"])] ⟨2⟩, .submit [] ⟨3⟩]
    LeavesCount (controlled [⟨"HINT", false⟩]) ∧
      (first.after calls).ProcessesCounted ∧
      (first.after calls).state.attempts.toInt =
        first.tallied calls ∧
      first.tallied calls = 2 := by
  have hLeaves :
      LeavesCount (controlled [⟨"HINT", false⟩]) := by
    constructor
    · rintro ⟨w, hMem, _⟩
      cases hMem
    · decide
  have hLaw :=
    attempts_counted_by_first (controlled [⟨"HINT", false⟩])
      ⟨{}, none⟩ default { maxAttempts := some 0 } none
      .individual hLeaves
  refine ⟨hLeaves, hLaw.1 _ ?_ ?_, hLaw.2.2 _ ?_ ?_, ?_⟩ <;>
    decide +kernel

/-
  An attempt that a control waives is counted if another that
  is true stands before it.
-/
theorem attempts_raised_though_waived :
    let s :=
      (controlledSession [⟨"STOP", true⟩, ⟨"HINT", false⟩]).after
        [.initialise [],
          .bindResponses
            [("HINT", ["true"]), ("STOP", ["true"])]]
    s.state.initialized = true ∧ s.state.attempts = 0 ∧
      (∃ e ∈ s.item.endAttempts,
        e.counts = false ∧ s.IsPressed e) ∧
      (Stateful.run processResponses s).2.state.attempts =
        1 := by
  decide +kernel

end ItemSession

end Assessment
