import Assessment.Proofs.Item.Processing
import Assessment.Proofs.Item.Templates

/-
  Attempts and their limit.

  The number of attempts is raised by processing, the criteria
  for closing a session are checked after it, and submissions
  are admitted before it. As long as services answer, the
  three agree: an item that is open to the candidate admits
  an attempt, and the number of attempts never exceeds its
  limit.

  Main declarations:
    * `ItemSession.Quiet`, steps that leave attempts alone
    * `ItemSession.Agrees`, which every step keeps
    * `ItemCall.agrees`, the law of one call
    * `ItemSession.attempts_agree_of_calls`
-/

------------------------------------------------------------
-- Runs
------------------------------------------------------------

namespace Assessment

open Stateful

variable {α : Type}

/- Whether a service has left a step without an answer. -/
def isUnanswered : Except Failure α → Bool
  | .error (.service _) => true
  | _ => false

/- What would have been given back does not matter. -/
theorem isUnanswered_error
    {β : Type}
    (e : Failure) :
    isUnanswered (.error e : Except Failure α) =
      isUnanswered (.error e : Except Failure β) := by
  cases e <;> rfl

theorem isUnanswered_of_isService
    {e : Failure}
    (hService : e.IsService) :
    isUnanswered (.error e : Except Failure α) = true := by
  obtain ⟨cause, rfl⟩ := hService
  rfl

/- Calls other than those that a submission consists of. -/
def ItemCall.isWhole : ItemCall → Bool
  | .bindResponses _ | .processResponses => false
  | _ => true

namespace ItemSession

/- No call of a run is left without an answer. -/
def isAnswered (s : ItemSession) : List ItemCall → Bool
  | [] => true
  | c :: rest =>
      !isUnanswered (Stateful.run c.action s).1 &&
        isAnswered (Stateful.run c.action s).2 rest

theorem isAnswered_append
    (s : ItemSession)
    (calls others : List ItemCall) :
    s.isAnswered (calls ++ others) =
      (s.isAnswered calls &&
        (s.after calls).isAnswered others) := by
  induction calls generalizing s with
  | nil => rfl
  | cons c rest ih =>
      rw [List.cons_append, isAnswered, isAnswered, ih,
        Bool.and_assoc]
      rfl

------------------------------------------------------------
-- Quiet Steps
------------------------------------------------------------

/-
  A step has left the number of attempts and the completion
  status alone. It may have closed the session.
-/
structure Quiet (s t : ItemSession) : Prop where
  setup : s.SameSetup t
  attempts : t.state.attempts = s.state.attempts
  completion : t.state.completion? = s.state.completion?
  entered : t.state.entryTime = s.state.entryTime
  finished :
    s.state.finished = true → t.state.finished = true

instance : Std.Refl Quiet where
  refl s := ⟨Std.Refl.refl (r := SameSetup) s, rfl, rfl, rfl, id⟩

instance : IsTrans ItemSession Quiet where
  trans s t u hFirst hThen :=
    ⟨IsTrans.trans (r := SameSetup) s t u hFirst.setup
        hThen.setup,
      hThen.attempts.trans hFirst.attempts,
      hThen.completion.trans hFirst.completion,
      hThen.entered.trans hFirst.entered,
      hThen.finished ∘ hFirst.finished⟩

/- What is bound to two names says it all. -/
theorem quiet_of_values
    {s t : ItemSession}
    (hSetup : s.SameSetup t)
    (hNumber :
      t.state.values.get? Builtin.numAttempts =
        s.state.values.get? Builtin.numAttempts)
    (hStatus :
      t.state.values.get? Builtin.completionStatus =
        s.state.values.get? Builtin.completionStatus)
    (hEntered : t.state.entryTime = s.state.entryTime)
    (hFinished :
      s.state.finished = true → t.state.finished = true) :
    s.Quiet t := by
  refine ⟨hSetup, ?_, ?_, hEntered, hFinished⟩
  · unfold ItemState.attempts
    rw [hNumber]
  · unfold ItemState.completion?
    rw [hStatus]

/- Time may be brought up to date. -/
theorem quiet_of_state
    {s : ItemSession}
    {u : ItemState}
    (hValues :
      ∃ x, u.values = s.state.values ∨
        u.values = s.state.values.put Builtin.duration x)
    (hEntered : u.entryTime = s.state.entryTime)
    (hFinished :
      s.state.finished = true → u.finished = true) :
    s.Quiet { s with state := u } := by
  have hSame :
      ∀ name, name ≠ Builtin.duration →
        u.values.get? name = s.state.values.get? name := by
    intro name hOther
    obtain ⟨x, hEq | hPut⟩ := hValues
    · rw [hEq]
    · rw [hPut]
      exact Keyed.get?_put_of_ne hOther _ _
  apply quiet_of_values
  · exact ⟨rfl, rfl, rfl, rfl, rfl⟩
  · exact hSame _ (by decide)
  · exact hSame _ (by decide)
  · exact hEntered
  · exact hFinished

theorem touch_quiet (now : Instant) : Moves Quiet (touch now) :=
  fun _ => quiet_of_state ⟨_, Or.inr rfl⟩ rfl id

theorem suspend_quiet (now : Instant) :
    Moves Quiet (suspend now) :=
  suspend_moves fun _ _ _ =>
    quiet_of_state ⟨_, Or.inr rfl⟩ rfl id

theorem resume_quiet (now : Instant) :
    Moves Quiet (resume now) :=
  resume_moves fun _ _ _ =>
    quiet_of_state ⟨.null, Or.inl rfl⟩ rfl id

theorem finish_quiet (now : Instant) :
    Moves Quiet (finish now) :=
  finish_moves fun _ _ _ =>
    quiet_of_state ⟨_, Or.inr rfl⟩ rfl fun _ => rfl

theorem timeOut_quiet (now : Instant) :
    Moves Quiet (timeOut now) :=
  timeOut_moves fun _ _ _ =>
    quiet_of_state ⟨_, Or.inr rfl⟩ rfl fun _ => rfl

theorem skip_quiet (now : Instant) : Moves Quiet (skip now) :=
  skip_moves fun _ _ _ _ _ =>
    quiet_of_state ⟨_, Or.inr rfl⟩ rfl fun _ => rfl

theorem exit_quiet (now : Instant) : Moves Quiet (exit now) :=
  exit_moves
    (fun _ _ _ => quiet_of_state ⟨.null, Or.inl rfl⟩ rfl id)
    fun _ _ _ =>
      quiet_of_state ⟨_, Or.inr rfl⟩ rfl fun _ => rfl

/- Responses are no built-in variables. -/
theorem get?_bindEach
    {item : Item}
    {name : String}
    (hBuiltin : Builtin.isBuiltin name = true)
    (b : Bindings)
    (responses : Responses) :
    (bindEach item b responses).1.get? name = b.get? name := by
  induction responses generalizing b with
  | nil => rfl
  | cons response rest ih =>
      obtain ⟨identifier, texts⟩ := response
      rw [bindEach]
      split
      next v hBound =>
        have hOther : name ≠ identifier := by
          rintro rfl
          unfold responseValue? at hBound
          cases hFound : item.declaration? name with
          | none => simp [hFound] at hBound
          | some d => simp [hFound, hBuiltin] at hBound
        rw [ih]
        exact Keyed.get?_put_of_ne hOther v b
      next => exact ih b

theorem get?_clearControls_of_ne
    {item : Item}
    {name : String}
    (hNone : ∀ e ∈ item.endAttempts, e.response ≠ name)
    (b : Bindings) :
    (clearControls item b).get? name = b.get? name := by
  unfold clearControls
  generalize item.endAttempts = controls at hNone
  induction controls generalizing b with
  | nil => rfl
  | cons e rest ih =>
      rw [List.foldl_cons, ih _ fun e' hMem =>
        hNone e' (List.mem_cons_of_mem e hMem)]
      split
      · exact Keyed.get?_put_of_ne
          (fun h => hNone e List.mem_cons_self h.symm) _ b
      · rfl

theorem quiet_bound
    {s : ItemSession}
    (hControls :
      ∀ e ∈ s.item.endAttempts,
        Builtin.isBuiltin e.response = false)
    (responses : Responses) :
    s.Quiet (s.bound responses).judged := by
  have hSame :
      ∀ name, Builtin.isBuiltin name = true →
        (s.bound responses).judged.state.values.get? name =
          s.state.values.get? name := by
    intro name hBuiltin
    apply (get?_bindEach hBuiltin _ responses).trans
    apply get?_clearControls_of_ne
    intro e hMem hName
    have hOther := hControls e hMem
    rw [hName, hBuiltin] at hOther
    cases hOther
  apply quiet_of_values
  · exact ⟨rfl, rfl, rfl, rfl, rfl⟩
  · exact hSame _ (by decide)
  · exact hSame _ (by decide)
  · rfl
  · exact id

------------------------------------------------------------
-- Agreement
------------------------------------------------------------

/-
  What the agreement rests on: the limit is a limit, and no
  rule or control writes to the number of attempts.
-/
structure KeepsCount (s : ItemSession) : Prop where
  limit : 0 ≤ s.maxAttempts
  rules :
    ∀ store,
      ¬ Rule.WritesTo s.item.responseProcessing store
        Builtin.numAttempts
  controls :
    ∀ e ∈ s.item.endAttempts,
      Builtin.isBuiltin e.response = false

/-
  The number of attempts, its limit and the criteria for
  closing a session agree.
-/
structure Agrees (s : ItemSession) : Prop
    extends s.KeepsCount where
  coherent : s.state.Coherent
  unentered :
    s.state.entryTime = none → s.state.attempts = 0
  bounded :
    s.item.adaptive = false → 0 < s.maxAttempts →
      s.state.attempts ≤ s.maxAttempts
  admitted :
    s.state.finished = false →
      s.state.entryTime.isSome = true →
        s.isAttemptAllowed = true

theorem SameSetup.maxAttempts_eq
    {s t : ItemSession}
    (hSetup : s.SameSetup t) :
    t.maxAttempts = s.maxAttempts := by
  unfold maxAttempts
  rw [hSetup.control, hSetup.engine]

theorem SameSetup.keepsCount
    {s t : ItemSession}
    (hSetup : s.SameSetup t)
    (hKeeps : s.KeepsCount) :
    t.KeepsCount := by
  constructor
  · rw [hSetup.maxAttempts_eq]
    exact hKeeps.limit
  · rw [hSetup.item]
    exact hKeeps.rules
  · rw [hSetup.item]
    exact hKeeps.controls

/- Whether there may be an attempt depends on little. -/
theorem Quiet.isAttemptAllowed_eq
    {s t : ItemSession}
    (hQuiet : s.Quiet t) :
    t.isAttemptAllowed = s.isAttemptAllowed := by
  unfold isAttemptAllowed isCompleted
  rw [hQuiet.setup.item, hQuiet.setup.maxAttempts_eq,
    hQuiet.attempts, hQuiet.completion]

/- Quiet steps keep the agreement. -/
theorem Quiet.agrees
    {s t : ItemSession}
    (hQuiet : s.Quiet t)
    (hCoherent : t.state.Coherent)
    (hAgrees : s.Agrees) :
    t.Agrees where
  toKeepsCount := hQuiet.setup.keepsCount hAgrees.toKeepsCount
  coherent := hCoherent
  unentered := by
    rw [hQuiet.entered, hQuiet.attempts]
    exact hAgrees.unentered
  bounded := by
    rw [hQuiet.setup.item, hQuiet.setup.maxAttempts_eq,
      hQuiet.attempts]
    exact hAgrees.bounded
  admitted := by
    intro hOpen hEntered
    rw [hQuiet.isAttemptAllowed_eq]
    rw [hQuiet.entered] at hEntered
    apply hAgrees.admitted _ hEntered
    cases hFinished : s.state.finished with
    | false => rfl
    | true =>
        rw [hQuiet.finished hFinished] at hOpen
        cases hOpen

/- A session that is not over admits an attempt. -/
theorem isAttemptAllowed_of_isOver
    {s : ItemSession}
    (hGoesOn : s.isOver = false) :
    s.isAttemptAllowed = true := by
  unfold isOver at hGoesOn
  unfold isAttemptAllowed
  split
  next hAdaptive =>
    rw [if_pos hAdaptive] at hGoesOn
    simp [hGoesOn]
  next hPlain =>
    rw [if_neg hPlain] at hGoesOn
    rw [Bool.or_eq_false_iff] at hGoesOn
    have hBelow := hGoesOn.2
    by_cases hUnlimited : s.maxAttempts = 0
    · simp [hUnlimited]
    · have hNot : ¬ s.maxAttempts ≤ s.state.attempts := by
        simpa [hUnlimited] using hBelow
      have hLess : s.state.attempts < s.maxAttempts := by
        grind
      simp [hLess]

/- Before the first attempt every limit leaves room. -/
theorem isUnlimited_or_pos
    {limit : Int64}
    (hLimit : 0 ≤ limit) :
    (limit == 0 || decide (0 < limit)) = true := by
  by_cases hZero : limit = 0
  · simp [hZero]
  · have hPos : 0 < limit := by grind
    simp [hPos]

/- An attempt that is admitted may be counted. -/
theorem attempts_succ_le
    {s : ItemSession}
    (hAllowed : s.isAttemptAllowed = true)
    (hPlain : s.item.adaptive = false)
    (hLimit : 0 < s.maxAttempts) :
    s.state.attempts < s.maxAttempts := by
  unfold isAttemptAllowed at hAllowed
  rw [hPlain, if_neg (by simp), Bool.or_eq_true] at hAllowed
  rcases hAllowed with hZero | hLess
  · have hNone : s.maxAttempts = 0 := by simpa using hZero
    rw [hNone] at hLimit
    exact absurd hLimit (by decide)
  · simpa using hLess

------------------------------------------------------------
-- Calls
------------------------------------------------------------

/-
  What a call that is answered comes to: the agreement is kept,
  and at most one attempt has been counted.
-/
structure Led (s t : ItemSession) : Prop where
  agrees : t.Agrees
  counted :
    t.state.attempts = s.state.attempts ∨
      t.state.attempts = s.state.attempts + 1

theorem Quiet.led
    {s t : ItemSession}
    (hQuiet : s.Quiet t)
    (hCoherent : t.state.Coherent)
    (hAgrees : s.Agrees) :
    s.Led t :=
  ⟨hQuiet.agrees hCoherent hAgrees, Or.inl hQuiet.attempts⟩

/- Entering opens a session that has counted nothing. -/
theorem ends_enter_led
    {s : ItemSession}
    (hAgrees : s.Agrees)
    (now : Instant) :
    Ends (enter now) s fun _ t =>
      t.state.Coherent → s.Led t := by
  have hStays : s.Led s := ⟨hAgrees, Or.inl rfl⟩
  rw [ends_enter]
  split
  next =>
    split
    next => exact fun _ => hStays
    next =>
      split
      next => exact fun _ => hStays
      next hFirst =>
        intro hCoherent
        have hNumber :
            (s.state.entered now).attempts =
              s.state.attempts := by
          unfold ItemState.attempts ItemState.entered
          dsimp only
          rw [Keyed.get?_put_of_ne (by decide)]
        have hZero : s.state.attempts = 0 := by
          apply hAgrees.unentered
          simpa using hFirst
        refine ⟨⟨?_, hCoherent, ?_, ?_, ?_⟩, Or.inl hNumber⟩
        · exact SameSetup.keepsCount (s := s)
            ⟨rfl, rfl, rfl, rfl, rfl⟩ hAgrees.toKeepsCount
        · intro hNone
          cases hNone
        · intro _ hLimit
          change (s.state.entered now).attempts ≤ _
          rw [hNumber, hZero]
          exact hAgrees.limit
        · intro _ _
          unfold isAttemptAllowed
          split
          · have hStatus :
                (s.state.entered now).completion? =
                  some Builtin.unknown := by
              unfold ItemState.completion? ItemState.entered
              dsimp only
              rw [Keyed.get?_put_self]
              rfl
            unfold isCompleted
            rw [hStatus]
            decide
          · dsimp only
            rw [hNumber, hZero]
            exact isUnlimited_or_pos hAgrees.limit
  next => exact fun _ => hStays

/- What is settled has no attempts. -/
theorem attempts_prepared
    {s : ItemSession}
    {u : Stage}
    {v : Scope}
    (hSettled : u.scope = v.settled s.item)
    (done : Bool) :
    (s.prepared u done).state.attempts = 0 := by
  have hBound :
      u.scope.values.get? Builtin.numAttempts =
        some (.integer 0) := by
    rw [hSettled]
    apply (Keyed.get?_put_of_ne (by decide) _ _).trans
    exact Keyed.get?_put_self _ _ _
  unfold ItemState.attempts prepared takeOver
  dsimp only
  rw [hBound]
  rfl

/- Preparation ends with no attempts. -/
theorem ends_initialise_led
    {s : ItemSession}
    (hAgrees : s.Agrees)
    (defaults : List TemplateDefault) :
    Ends (initialise defaults) s fun r t =>
      t.state.Coherent → isUnanswered r = false →
        s.Led t := by
  by_cases hInit : s.state.initialized = true
  · rw [ends_initialise_again hInit]
    exact fun _ _ => ⟨hAgrees, Or.inl rfl⟩
  · have hNew : s.state.initialized = false := by
      simpa using hInit
    rw [ends_initialise_new hNew]
    have hCourse :
        Ends (prepare s.engine s.item defaults) s.stage _ :=
      ends_prepare_course defaults s.stage_isOf
    have hFails :=
      prepare_soundFor s.engine defaults s.stage s.stage_isOf
    have hBoth := hCourse.and hFails
    apply hBoth.mono
    rintro r u ⟨hTaken, hService⟩ hCoherent hAnswered
    cases r with
    | error e =>
        rw [isUnanswered_of_isService (hService.2 e rfl)]
          at hAnswered
        cases hAnswered
    | ok _ =>
        obtain ⟨_, _, _, _, hScope⟩ := hTaken rfl
        have hZero := attempts_prepared (s := s) hScope true
        have hNone := hAgrees.coherent.entryTime_eq_none hNew
        refine ⟨⟨?_, hCoherent, ?_, ?_, ?_⟩, Or.inl ?_⟩
        · exact SameSetup.keepsCount (s := s)
            ⟨rfl, rfl, rfl, rfl, rfl⟩ hAgrees.toKeepsCount
        · exact fun _ => hZero
        · intro _ hLimit
          rw [Except.isOk, Except.toBool, hZero]
          exact hAgrees.limit
        · intro _ hEntered
          have hEntry :
              (s.prepared u true).state.entryTime = none :=
            hNone
          rw [Except.isOk, Except.toBool, hEntry] at hEntered
          cases hEntered
        · rw [hAgrees.unentered hNone]
          exact hZero

/- An attempt is counted at most once. -/
theorem attempts_counted (s : ItemSession) :
    s.counted.state.attempts = s.state.attempts ∨
      s.counted.state.attempts = s.state.attempts + 1 := by
  unfold counted
  split
  · right
    unfold counting ItemState.bind ItemState.attempts
    dsimp only
    rw [Keyed.get?_put_self]
    rfl
  · exact Or.inl rfl

/- Rules that keep the count leave it as it was. -/
theorem attempts_processed
    {s : ItemSession}
    {u : Stage}
    (hRules :
      ¬ Rule.WritesTo s.item.responseProcessing .values
        Builtin.numAttempts)
    (hChanges :
      s.scope.ChangesAt (responsePlaces s.item) u.scope)
    (done : Bool) :
    (s.processed u done).state.attempts = s.state.attempts := by
  have hNumber :
      u.scope.values.get? Builtin.numAttempts =
        s.state.values.get? Builtin.numAttempts := by
    apply hChanges.elsewhere .values
    rintro ⟨hWrites | ⟨_, _, hOwn, _⟩, _⟩
    · exact hRules hWrites
    · cases hOwn
  unfold ItemState.attempts processed takeOver
  dsimp only
  rw [hNumber]

theorem counted_sameSetup (s : ItemSession) :
    s.SameSetup s.counted := by
  unfold counted
  split <;> exact ⟨rfl, rfl, rfl, rfl, rfl⟩

theorem processed_sameSetup
    (s : ItemSession)
    (u : Stage)
    (done : Bool) :
    s.SameSetup (s.processed u done) :=
  ⟨rfl, rfl, rfl, rfl, rfl⟩

theorem entryTime_counted (s : ItemSession) :
    s.counted.state.entryTime = s.state.entryTime := by
  unfold counted
  split <;> rfl

theorem concluded_quiet (now : Instant) (s : ItemSession) :
    s.Quiet (s.concluded now) := by
  unfold concluded
  split
  · exact quiet_of_state ⟨_, Or.inr rfl⟩ rfl fun _ => rfl
  · exact Std.Refl.refl (r := Quiet) _

/- Only a session that admits another attempt stays open. -/
theorem isAttemptAllowed_concluded
    {s : ItemSession}
    (now : Instant)
    (hOpen : (s.concluded now).state.finished = false) :
    (s.concluded now).isAttemptAllowed = true := by
  unfold concluded at hOpen ⊢
  split at hOpen
  · cases hOpen
  next hGoesOn =>
    rw [if_neg hGoesOn]
    exact isAttemptAllowed_of_isOver (by simpa using hGoesOn)

/-
  Processing counts one attempt at most, which the limit has
  room for, and leaves an open session only if it admits
  another.
-/
theorem led_concluded
    {s b : ItemSession}
    (hAgrees : s.Agrees)
    (hQuiet : s.Quiet b)
    (hEntered : s.state.entryTime.isSome = true)
    (hAllowed : s.isAttemptAllowed = true)
    {u : Stage}
    (hChanges :
      b.counted.scope.ChangesAt (responsePlaces b.item) u.scope)
    (now : Instant)
    (hCoherent :
      ((b.counted.processed u true).concluded
        now).state.Coherent) :
    s.Led ((b.counted.processed u true).concluded now) := by
  have hCounted : s.SameSetup b.counted :=
    IsTrans.trans (r := SameSetup) _ _ _ hQuiet.setup
      b.counted_sameSetup
  have hKeeps := hCounted.keepsCount hAgrees.toKeepsCount
  rw [← b.counted_sameSetup.item] at hChanges
  have hProcessed :=
    attempts_processed (hKeeps.rules .values) hChanges true
  have hClosing :=
    concluded_quiet now (b.counted.processed u true)
  have hOver :=
    isAttemptAllowed_concluded (s := b.counted.processed u true)
      now
  generalize
    (b.counted.processed u true).concluded now = t at *
  have hTogether : s.SameSetup t :=
    IsTrans.trans (r := SameSetup) _ _ _ hCounted
      (IsTrans.trans (r := SameSetup) _ _ _
        (b.counted.processed_sameSetup u true) hClosing.setup)
  have hTotal :
      t.state.attempts = s.state.attempts ∨
        t.state.attempts = s.state.attempts + 1 := by
    rw [hClosing.attempts, hProcessed, ← hQuiet.attempts]
    exact b.attempts_counted
  refine ⟨⟨hTogether.keepsCount hAgrees.toKeepsCount,
    hCoherent, ?_, ?_, fun hOpen _ => hOver hOpen⟩, hTotal⟩
  · intro hNone
    have hEntry :
        (b.counted.processed u true).state.entryTime =
          b.state.entryTime :=
      b.entryTime_counted
    rw [hClosing.entered, hEntry, hQuiet.entered] at hNone
    rw [hNone] at hEntered
    cases hEntered
  · intro hPlain hLimit
    rw [hTogether.item] at hPlain
    rw [hTogether.maxAttempts_eq] at hLimit ⊢
    have hRoom := attempts_succ_le hAllowed hPlain hLimit
    rcases hTotal with hSame | hMore
    · rw [hSame]
      grind
    · rw [hMore]
      grind

/- A submission is admitted and keeps the agreement. -/
theorem ends_submit_led
    {s : ItemSession}
    (hAgrees : s.Agrees)
    (responses : Responses)
    (now : Instant) :
    Ends (submit responses now) s fun r t =>
      (∀ item,
        r ≠ .error (.refused (.noMoreAttempts item))) ∧
      (t.state.Coherent → isUnanswered r = false →
        s.Led t) := by
  by_cases hOpen :
      s.state.initialized = true ∧
        s.state.phase = .interacting
  · obtain ⟨hInit, hPhase⟩ := hOpen
    have hFlags :=
      (s.state.phase_eq_interacting_iff).mp hPhase
    have hAllowed : s.isAttemptAllowed = true :=
      hAgrees.admitted hFlags.1 hFlags.2.2
    have hTouched : s.Quiet (s.touchedAt now) :=
      touch_quiet now s
    rw [ends_submit_open hInit hPhase hAllowed]
    split
    · constructor
      · intro item hError
        cases hError
      · intro hCoherent _
        apply Quiet.led _ hCoherent hAgrees
        apply IsTrans.trans (r := Quiet) _ _ _ hTouched
        exact quiet_of_state ⟨_, Or.inr rfl⟩ rfl fun _ => rfl
    · dsimp only
      have hBound :
          s.Quiet
            ((s.touchedAt now).bound responses).judged := by
        apply IsTrans.trans (r := Quiet) _ _ _ hTouched
        exact quiet_bound (s := s.touchedAt now)
          hAgrees.controls responses
      generalize
        ((s.touchedAt now).bound responses).judged = b
          at hBound ⊢
      split
      · constructor
        · intro item hError
          cases hError
        · exact fun hCoherent _ =>
            hBound.led hCoherent hAgrees
      · have hFails :=
          respond_soundFor b.engine b.counted.stage
            b.stage_counted_isOf
        have hChanges :=
          respond_changesAt b.engine b.item b.counted.stage
        apply (hFails.and hChanges).mono
        rintro r u ⟨hService, hFollows⟩
        cases r with
        | error e =>
            constructor
            · intro item hError
              cases hError
              obtain ⟨_, hSame⟩ := hService.2 _ rfl
              cases hSame
            · intro _ hAnswered
              rw [isUnanswered_of_isService (hService.2 e rfl)]
                at hAnswered
              cases hAnswered
        | ok _ =>
            constructor
            · intro item hError
              cases hError
            · exact fun hCoherent _ =>
                led_concluded hAgrees hBound hFlags.2.2 hAllowed
                  hFollows now hCoherent
  · apply (ends_submit_refused _ responses now).mono
    · rintro r t ⟨rfl, e, rfl, _, hOnly⟩
      constructor
      · intro item hError
        cases hError
        exact hOpen (hOnly item rfl)
      · exact fun _ _ => ⟨hAgrees, Or.inl rfl⟩
    · exact fun hInit hPhase => absurd ⟨hInit, hPhase⟩ hOpen

end ItemSession

open ItemSession in
/- Every call that is answered keeps the agreement. -/
theorem ItemCall.led
    {c : ItemCall}
    (hWhole : c.isWhole = true)
    {s : ItemSession}
    (hAgrees : s.Agrees) :
    Ends c.action s fun r t =>
      isUnanswered r = false → s.Led t := by
  have hCoherent :
      Ends c.action s fun _ t => t.state.Coherent := by
    apply (c.advances s).mono
    exact fun _ _ hAdvances =>
      (hAdvances hAgrees.coherent).coherent
  have hQuiet :
      Moves Quiet c.action →
        Ends c.action s fun r t =>
          isUnanswered r = false → s.Led t := by
    intro hMoves
    apply ((hMoves s).and hCoherent).mono
    rintro r t ⟨hQuiet, hThere⟩ _
    exact hQuiet.led hThere hAgrees
  cases c with
  | initialise defaults =>
      apply ((ends_initialise_led hAgrees defaults).and
        hCoherent).mono
      exact fun r t hBoth => hBoth.1 hBoth.2
  | enter now =>
      apply ((ends_enter_led hAgrees now).and hCoherent).mono
      exact fun r t hBoth _ => hBoth.1 hBoth.2
  | suspend now => exact hQuiet (suspend_quiet now)
  | resume now => exact hQuiet (resume_quiet now)
  | touch now => exact hQuiet (touch_quiet now)
  | bindResponses responses => cases hWhole
  | processResponses => cases hWhole
  | submit responses now =>
      have hSubmitted := submit_advances responses now s
      change Ends
        ((fun _ => PUnit.unit) <$>
          ItemSession.submit responses now) s _
      rw [ends_map]
      apply ((ends_submit_led hAgrees responses now).and
        hSubmitted).mono
      rintro r t ⟨⟨_, hLed⟩, hThere⟩
      cases r with
      | ok _ => exact hLed (hThere hAgrees.coherent).coherent
      | error e =>
          intro hAnswered
          apply hLed (hThere hAgrees.coherent).coherent
          rw [isUnanswered_error]
          exact hAnswered
  | skip now => exact hQuiet (skip_quiet now)
  | timeOut now => exact hQuiet (timeOut_quiet now)
  | finish now => exact hQuiet (finish_quiet now)
  | exit now => exact hQuiet (exit_quiet now)

------------------------------------------------------------
-- Runs
------------------------------------------------------------

namespace ItemSession

/- A run counts one attempt a call at most. -/
theorem after_led
    {s : ItemSession}
    (hAgrees : s.Agrees)
    {calls : List ItemCall}
    (hWhole : ∀ c ∈ calls, c.isWhole = true)
    (hAnswered : s.isAnswered calls = true) :
    (s.after calls).Agrees ∧
      ∃ n, n ≤ calls.length ∧
        (s.after calls).state.attempts =
          s.state.attempts + Int64.ofNat n := by
  induction calls generalizing s with
  | nil => exact ⟨hAgrees, 0, Nat.le_refl 0, by simp [after]⟩
  | cons c rest ih =>
      rw [isAnswered, Bool.and_eq_true] at hAnswered
      have hLed :=
        ItemCall.led (hWhole c List.mem_cons_self) hAgrees
          (by simpa using hAnswered.1)
      obtain ⟨hLater, n, hLess, hTotal⟩ :=
        ih hLed.agrees
          (fun d hMem => hWhole d (List.mem_cons_of_mem c hMem))
          hAnswered.2
      refine ⟨hLater, ?_⟩
      have hSplit :
          (s.after (c :: rest)).state.attempts =
            (Stateful.run c.action s).2.state.attempts +
              Int64.ofNat n := hTotal
      rcases hLed.counted with hSame | hMore
      · refine ⟨n, by simp; omega, ?_⟩
        rw [hSplit, hSame]
      · refine ⟨n + 1, by simp; omega, ?_⟩
        rw [hSplit, hMore, Nat.add_comm, Int64.ofNat_add,
          Int64.add_assoc]
        rfl

theorem fresh_agrees
    {item : Item}
    {engine : Engine}
    {control : Control}
    (hLimit : 0 ≤ control.attempts engine.settings.maxAttempts)
    (hRules :
      ∀ store,
        ¬ Rule.WritesTo item.responseProcessing store
          Builtin.numAttempts)
    (hControls :
      ∀ e ∈ item.endAttempts,
        Builtin.isBuiltin e.response = false)
    (draws : Draws)
    (timeLimits : Option TimeLimits)
    (submission : SubmissionMode) :
    (fresh item engine draws control timeLimits
      submission).Agrees where
  limit := hLimit
  rules := hRules
  controls := hControls
  coherent := ItemState.coherent_default
  unentered := fun _ => rfl
  bounded := fun _ _ => hLimit
  admitted := by
    intro _ hEntered
    cases hEntered

/-
  Attempts of a session and of a later one: they have been
  counted one by one, the limit holds, and as long as the
  candidate interacts there may be another.
-/
structure AttemptsAgree
    (s t : ItemSession)
    (calls : Nat) :
    Prop where
  counted :
    ∃ n k, n + k ≤ calls ∧
      s.state.attempts = Int64.ofNat n ∧
      t.state.attempts = Int64.ofNat (n + k)
  /- No run is long enough to bring the counter to its end. -/
  monotone :
    calls < 2 ^ 63 → s.state.attempts ≤ t.state.attempts
  bounded :
    t.item.adaptive = false → 0 < t.maxAttempts →
      t.state.attempts ≤ t.maxAttempts
  admitted :
    t.state.phase = .interacting → t.isAttemptAllowed = true
  /- Out of attempts, a session that was entered is over. -/
  closed :
    t.state.entryTime.isSome = true →
      t.isAttemptAllowed = false → t.state.phase = .finished
  unrefused :
    ∀ responses now item,
      (Stateful.run (submit responses now) t).1 ≠
        .error (.refused (.noMoreAttempts item))

/-
  Where no rule of response processing writes to the number of
  attempts and no control is a built-in variable, every run of
  calls that services answer keeps the number of attempts, the
  limit and the criteria for closing a session in agreement.
-/
theorem attempts_agree_of_calls
    (item : Item)
    (engine : Engine)
    (draws : Draws)
    (control : Control)
    (timeLimits : Option TimeLimits)
    (submission : SubmissionMode)
    (hLimit : 0 ≤ control.attempts engine.settings.maxAttempts)
    (hRules :
      ∀ store,
        ¬ Rule.WritesTo item.responseProcessing store
          Builtin.numAttempts)
    (hControls :
      ∀ e ∈ item.endAttempts,
        Builtin.isBuiltin e.response = false)
    (earlier later : List ItemCall)
    (hWhole : ∀ c ∈ earlier ++ later, c.isWhole = true)
    (hAnswered :
      (fresh item engine draws control timeLimits
        submission).isAnswered (earlier ++ later) = true) :
    let first :=
      fresh item engine draws control timeLimits submission
    AttemptsAgree (first.after earlier)
      ((first.after earlier).after later)
      (earlier ++ later).length := by
  intro first
  have hFirst : first.Agrees :=
    fresh_agrees hLimit hRules hControls draws timeLimits
      submission
  rw [isAnswered_append, Bool.and_eq_true] at hAnswered
  obtain ⟨hMid, n, hLess, hEarlier⟩ :=
    after_led hFirst
      (fun c hMem => hWhole c (List.mem_append_left _ hMem))
      hAnswered.1
  obtain ⟨hLast, k, hFewer, hLater⟩ :=
    after_led hMid
      (fun c hMem => hWhole c (List.mem_append_right _ hMem))
      hAnswered.2
  have hZero : first.state.attempts = 0 := rfl
  have hStart :
      (first.after earlier).state.attempts =
        Int64.ofNat n := by
    rw [hEarlier, hZero]
    exact Int64.zero_add _
  have hEnd :
      ((first.after earlier).after later).state.attempts =
        Int64.ofNat (n + k) := by
    rw [hLater, hStart, Int64.ofNat_add]
  have hTotal : n + k ≤ (earlier ++ later).length := by
    rw [List.length_append]
    omega
  constructor
  · exact ⟨n, k, hTotal, hStart, hEnd⟩
  · intro hShort
    rw [hStart, hEnd,
      Int64.ofNat_le_iff_le (by omega) (by omega)]
    omega
  · exact hLast.bounded
  · intro hPhase
    rw [ItemState.phase_eq_interacting_iff] at hPhase
    exact hLast.admitted hPhase.1 hPhase.2.2
  · intro hEntered hNone
    rw [ItemState.phase_eq_finished_iff]
    by_contra hOpen
    have hAllowed :=
      hLast.admitted (by simpa using hOpen) hEntered
    rw [hNone] at hAllowed
    cases hAllowed
  · intro responses now item hError
    exact (ends_submit_led hLast responses now).1 item hError

/- An item whose answers are never known to be correct. -/
def openItem : Item where
  identifier := "item"
  title := none
  adaptive := false
  timeDependent := false
  responses := [
    { identifier := "RESPONSE"
      cardinality := .single
      baseType := some .string
      defaultValue := none
      detail := .response ⟨none, none, none⟩ }]
  outcomes := []
  templates := []
  templateProcessing := []
  responseProcessing := []
  endAttempts := []

/- Calls that come before the first submission. -/
def openingCalls : List ItemCall :=
  [.initialise [], .enter ⟨0⟩]

/- Two submissions use the attempts up and close the session. -/
theorem attempts_agree_of_calls_twice :
    let first :=
      fresh openItem ⟨{ maxAttempts := 2 }, none⟩ default {}
        none .individual
    let last :=
      (first.after openingCalls).after
        [.submit [] ⟨0⟩, .submit [] ⟨0⟩]
    AttemptsAgree (first.after openingCalls) last 4 ∧
      last.state.attempts = 2 ∧
      last.state.phase = .finished := by
  refine ⟨?_, ?_, ?_⟩
  · apply attempts_agree_of_calls openItem
      ⟨{ maxAttempts := 2 }, none⟩ default {} none .individual
    · decide
    · rintro store ⟨w, hMem, _⟩
      cases hMem
    · intro e hMem
      cases hMem
    · decide
    · decide +kernel
  · decide +kernel
  · decide +kernel

end ItemSession

end Assessment
