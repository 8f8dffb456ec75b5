import Assessment.Proofs.Item.Defaults
import Assessment.Proofs.Item.Lifecycle
import Assessment.Proofs.Rule.Execution

/-
  What initializing and submitting come to.

  Both run rules over the variables of the session and take
  over what these have done, whether they go through or not.
  Whatever else such a step does is written down here, and so
  is what it can fail of.

  Main declarations:
    * `Run.SoundFor`, runs over the variables of an item
    * `ItemSession.prepared` and `ends_initialise_new`
    * `ItemSession.counted`, `processed` and
      `ends_processResponses`
    * `ends_submit_open` and `ends_submit_refused`, which
      `ends_submit_cases` tells apart
-/

------------------------------------------------------------
-- Failures
------------------------------------------------------------

namespace Assessment

open Stateful

variable {α : Type}
variable {item : Item}

/- Over the variables of an item, a run fails of a service. -/
def Run.SoundFor (item : Item) (x : Run α) : Prop :=
  FailsOnly (Stage.IsOf item) Failure.IsService x

/- A run that changes bindings alone stays with its item. -/
theorem Run.Sound.soundFor
    {P : Store → String → Prop}
    {x : Run α}
    (hSound : x.Sound)
    (hChanges : Moves (Stage.Follows (Scope.ChangesAt P)) x) :
    x.SoundFor item := by
  intro s hItem
  have hBoth := (hSound s hItem.test).and (hChanges s)
  apply hBoth.mono
  rintro r t ⟨hFails, hFollows⟩
  exact ⟨hFollows.isOf hItem, hFails.2⟩

namespace ItemSession

theorem resetAll_soundFor
    {ds : List Declaration}
    (hDeclared : ds ⊆ item.declarations) :
    (resetAll ds).SoundFor item := by
  intro s hItem
  rw [ends_resetAll hItem hDeclared]
  constructor
  · exact ⟨hItem.declarations, hItem.test⟩
  · intro e hError
    cases hError

/- Only declared variables are given defaults. -/
theorem takeDefaults_soundFor
    (engine : Engine)
    (defaults : List TemplateDefault) :
    (takeDefaults engine defaults).SoundFor item := by
  induction defaults with
  | nil => exact FailsOnly.pure _
  | cons g rest ih =>
      intro s hItem
      rw [takeDefaults, ends_bind, Run.ends_scope]
      dsimp only
      split
      next hTemplate =>
        rw [ends_bind, Rule.valueOf, Run.ends_step]
        have hValue :=
          g.value.evaluate_sound engine s.scope s.tally trivial
        unfold Ends at hValue
        split
        next v hOk =>
          have hDeclared :
              (s.scope.declaration? g.identifier).isSome =
                true := by
            unfold namesTemplate at hTemplate
            cases hFound : s.scope.declaration? g.identifier with
            | none => simp [hFound] at hTemplate
            | some d => rfl
          obtain ⟨d, hFound⟩ :=
            Option.isSome_iff_exists.mp hDeclared
          have hSet :
              s.scope.setDefault g.identifier v =
                .ok { s.scope with
                  defaults :=
                    s.scope.defaults.put g.identifier v } := by
            simp [Scope.setDefault, Scope.isTest, hItem.test,
              Scope.ifDeclared, hFound]
          rw [ends_bind, Run.ends_write_ok hSet]
          exact ih _ ⟨hItem.declarations, hItem.test⟩
        next e hError =>
          constructor
          · exact ⟨hItem.declarations, hItem.test⟩
          · intro e' hSame
            cases hSame
            exact hValue.2 e hError
      next =>
        apply FailsOnly.bind _ (fun _ => ih) s hItem
        exact (Run.warn_sound _).soundFor
          (P := fun _ _ => False) (Run.step_follows _)

theorem templateRun_soundFor
    (engine : Engine) :
    (templateRun engine item).SoundFor item := by
  apply FailsOnly.bind
  · exact resetAll_soundFor item.templates_declared
  · intro _
    apply (Rule.executeAll_sound engine _).soundFor
    exact Rule.executeAll_changesAt engine fun _ _ h => h

theorem processTemplates_soundFor
    (engine : Engine)
    (left runs : Nat) :
    (processTemplates engine item left runs).SoundFor item := by
  induction left generalizing runs with
  | zero =>
      rw [processTemplates]
      apply FailsOnly.bind
      · exact resetAll_soundFor item.templates_declared
      · intro _
        apply FailsOnly.bind _ fun _ => FailsOnly.pure _
        exact (Run.warn_sound _).soundFor
          (P := fun _ _ => False) (Run.step_follows _)
  | succ left ih =>
      rw [processTemplates_eq]
      apply FailsOnly.bind (templateRun_soundFor engine)
      intro outcome
      cases outcome with
      | retry => exact ih (runs + 1)
      | «continue» => exact FailsOnly.pure _
      | exit => exact FailsOnly.pure _

theorem prepare_soundFor
    (engine : Engine)
    (defaults : List TemplateDefault) :
    (prepare engine item defaults).SoundFor item := by
  have hSettle : (settle item).SoundFor item := by
    intro s hItem
    rw [ends_settle hItem]
    constructor
    · exact ⟨hItem.declarations, hItem.test⟩
    · intro e hError
      cases hError
  apply FailsOnly.bind (takeDefaults_soundFor engine defaults)
  intro _
  apply FailsOnly.bind (processTemplates_soundFor engine _ 0)
  intro runs s hItem
  dsimp only
  split
  · apply FailsOnly.bind _ (fun _ => hSettle) s hItem
    exact (Run.step_sound fun _ => Step.act_sound _).soundFor
      (P := fun _ _ => False) (Run.step_follows _)
  · exact hSettle s hItem

theorem respond_soundFor (engine : Engine) :
    (respond engine item).SoundFor item := by
  have hRules :
      Run.SoundFor item (do
        let _ ← Rule.executeAll engine item.responseProcessing
        : Run Unit) := by
    apply FailsOnly.bind _ fun _ => FailsOnly.pure _
    apply (Rule.executeAll_sound engine _).soundFor
    exact Rule.executeAll_changesAt engine fun _ _ h => h
  unfold respond
  dsimp only
  split
  · exact hRules
  · apply FailsOnly.bind _ fun _ => hRules
    apply resetAll_soundFor
    intro d hMem
    exact item.outcomes_declared (List.mem_filter.mp hMem).1

------------------------------------------------------------
-- Initialization
------------------------------------------------------------

/- The session that rules of preparation leave behind. -/
def prepared (s : ItemSession) (u : Stage) (done : Bool) :
    ItemSession :=
  { s.takeOver u with
    events :=
      s.events ++ [.starting .itemInitialisation] ++
        [.finished .itemInitialisation]
    state :=
      { (s.takeOver u).state with initialized := done } }

/- A session is prepared, and initialized if that succeeds. -/
theorem ends_initialise_new
    {s : ItemSession}
    (hNew : s.state.initialized = false)
    (defaults : List TemplateDefault)
    (Q : Except Failure Unit → ItemSession → Prop) :
    Ends (initialise defaults) s Q ↔
      Ends (prepare s.engine s.item defaults) s.stage
        fun r u => Q r (s.prepared u r.isOk) := by
  unfold initialise
  rw [ends_bind, ends_getState]
  dsimp only
  rw [hNew, if_neg (by simp), ends_announced, ends_get_bind,
    ends_bind, ends_runRules]
  apply ends_congr
  intro r u
  cases r with
  | ok _ => exact Iff.rfl
  | error e =>
      have hSame :
          s.prepared u false =
            { s.takeOver u with
              events :=
                s.events ++ [.starting .itemInitialisation] ++
                  [.finished .itemInitialisation] } := by
        simp [prepared, takeOver, hNew]
      rw [Except.isOk, Except.toBool, hSame]
      exact Iff.rfl

/- A session is initialized once. -/
theorem ends_initialise_again
    {s : ItemSession}
    (hDone : s.state.initialized = true)
    (defaults : List TemplateDefault)
    (Q : Except Failure Unit → ItemSession → Prop) :
    Ends (initialise defaults) s Q ↔
      Q (.error .alreadyInitialized) s := by
  unfold initialise
  rw [ends_bind, ends_getState]
  dsimp only
  rw [hDone, if_pos rfl]
  exact Iff.rfl

------------------------------------------------------------
-- Response Processing
------------------------------------------------------------

/- The state with another attempt counted. -/
def counting (s : ItemState) : ItemState :=
  s.bind Builtin.numAttempts (.integer (s.attempts + 1))

/- The session with its attempt counted, if it counts. -/
def counted (s : ItemSession) : ItemSession :=
  if s.countsAttempt then
    { s with state := counting s.state }
  else s

/- The session that rules of processing leave behind. -/
def processed (s : ItemSession) (u : Stage) (done : Bool) :
    ItemSession :=
  { s.takeOver u with
    events :=
      s.events ++ [.starting .itemResponseProcessing] ++
        [.finished .itemResponseProcessing]
    state :=
      { (s.takeOver u).state with
        pending := s.state.pending && !done } }

/- Responses wait until rules of processing go through. -/
theorem ends_process_rules
    (x : Run Unit)
    (s : ItemSession)
    (Q : Except Failure Unit → ItemSession → Prop) :
    Ends
        (do
          runRules x
          changeState fun t => { t with pending := false })
        { s with events :=
            s.events ++ [.starting .itemResponseProcessing] }
        (fun r t => Q r
          { t with events :=
              t.events ++
                [.finished .itemResponseProcessing] }) ↔
      Ends x s.stage fun r u => Q r (s.processed u r.isOk) := by
  rw [ends_bind, ends_runRules]
  apply ends_congr
  intro r u
  cases r with
  | ok _ =>
      have hSame :
          s.processed u true =
            { s.takeOver u with
              events :=
                s.events ++
                    [.starting .itemResponseProcessing] ++
                  [.finished .itemResponseProcessing]
              state :=
                { (s.takeOver u).state with
                  pending := false } } := by
        simp [processed]
      rw [Except.isOk, Except.toBool, hSame]
      exact Iff.rfl
  | error e =>
      have hSame :
          s.processed u false =
            { s.takeOver u with
              events :=
                s.events ++
                    [.starting .itemResponseProcessing] ++
                  [.finished .itemResponseProcessing] } := by
        simp [processed, takeOver]
      rw [Except.isOk, Except.toBool, hSame]
      exact Iff.rfl

/- An attempt is counted before its responses are processed. -/
theorem ends_processResponses
    {s : ItemSession}
    (hInit : s.state.initialized = true)
    (Q : Except Failure Unit → ItemSession → Prop) :
    Ends processResponses s Q ↔
      Ends (respond s.engine s.item) s.counted.stage
        fun r u => Q r (s.counted.processed u r.isOk) := by
  rw [processResponses, ends_bind, ends_ensureInitialized,
    if_pos hInit]
  dsimp only
  rw [ends_announced, ends_get_bind]
  dsimp only
  rw [ends_ite]
  -- The event that comes first has no part in the count.
  split
  next hCounts =>
    have hOwn : s.countsAttempt = true := hCounts
    have hSame :
        s.counted = { s with state := counting s.state } := by
      simp [counted, hOwn]
    rw [hSame, ends_bind, ends_changeState]
    exact ends_process_rules _
      { s with state := counting s.state } Q
  next hCounts =>
    have hOwn : ¬ s.countsAttempt = true := hCounts
    have hSame : s.counted = s := by simp [counted, hOwn]
    rw [hSame]
    exact ends_process_rules _ s Q

theorem ends_processResponses_new
    {s : ItemSession}
    (hNew : s.state.initialized = false)
    (Q : Except Failure Unit → ItemSession → Prop) :
    Ends processResponses s Q ↔
      Q (.error .notInitialized) s := by
  rw [processResponses, ends_bind, ends_ensureInitialized,
    if_neg (by simp [hNew])]

------------------------------------------------------------
-- Submissions
------------------------------------------------------------

/- The session with the time spent up to date. -/
def touchedAt (now : Instant) (s : ItemSession) : ItemSession :=
  { s with state := s.state.touched now }

/- Responses would come too late. -/
def isLate (s : ItemSession) : Bool :=
  !withinMaximum [s.timed] &&
    !s.timeLimits.any TimeLimits.allowsLate

/- The session closed for lack of time. -/
def timedOutAt (now : Instant) (s : ItemSession) :
    ItemSession :=
  { s with state := { s.state with timedOut := true }.closed now }

/- The session with responses bound in time and judged. -/
def answered
    (responses : Responses)
    (now : Instant)
    (s : ItemSession) :
    ItemSession :=
  ((s.touchedAt now).bound responses).judged

/- Responses that have been bound are not processed at once. -/
def isBlocked (s : ItemSession) : Bool :=
  !s.state.unbound.isEmpty ||
    (s.control.validates && !s.state.invalid.isEmpty) ||
    s.submission == .simultaneous

/- The session closed if it is over. -/
def concluded (now : Instant) (s : ItemSession) : ItemSession :=
  if s.isOver then { s with state := s.state.closed now } else s

/- Counting an attempt leaves the life of a session alone. -/
theorem life_counted (s : ItemSession) :
    s.counted.state.life = s.state.life := by
  unfold counted
  split <;> rfl

theorem stage_counted_isOf (s : ItemSession) :
    s.counted.stage.IsOf s.item := by
  unfold counted
  split <;> exact ⟨rfl, rfl⟩

/- What becomes of responses that have been bound. -/
theorem ends_submit_bound
    {b : ItemSession}
    (hInit : b.state.initialized = true)
    (hOpen : b.state.finished = false)
    (now : Instant)
    (Q : Except Failure Submission → ItemSession → Prop) :
    (if b.isBlocked then
      Ends
        (pure {
          unbound := b.state.unbound
          invalid := b.state.invalid }) b Q
    else
      Ends
        (do
          processResponses
          if (← get).isOver then finish now
          return {
            unbound := b.state.unbound
            invalid := b.state.invalid
            processed := true }) b Q) ↔
      if b.isBlocked then
        Q (.ok {
            unbound := b.state.unbound
            invalid := b.state.invalid })
          b
      else
        Ends (respond b.engine b.item) b.counted.stage
          fun r u =>
            let t := b.counted.processed u r.isOk
            match r with
            | .ok _ =>
                Q (.ok {
                    unbound := b.state.unbound
                    invalid := b.state.invalid
                    processed := true })
                  (t.concluded now)
            | .error e => Q (.error e) t := by
  by_cases hBlocked : b.isBlocked = true
  · rw [if_pos hBlocked, if_pos hBlocked]
    exact Iff.rfl
  · rw [if_neg hBlocked, if_neg hBlocked, ends_bind,
      ends_processResponses hInit]
    apply ends_congr
    intro r u
    cases r with
    | error e => exact Iff.rfl
    | ok _ =>
        dsimp only
        rw [ends_get_bind]
        have hLife := life_counted b
        have hReady :
            (b.counted.processed u true).state.initialized =
              true :=
          (ItemState.initialized_of_life hLife).trans hInit
        have hStill :
            (b.counted.processed u true).state.finished =
              false :=
          (ItemState.finished_of_life hLife).trans hOpen
        by_cases hOver :
            (b.counted.processed u true).isOver = true
        · have hSame :
              (b.counted.processed u true).concluded now =
                { b.counted.processed u true with
                  state :=
                    (b.counted.processed u true).state.closed
                      now } := by
            simp [concluded, hOver]
          rw [Except.isOk, Except.toBool, hSame]
          rw [if_pos hOver, ends_bind, ends_finish,
            if_pos hReady, if_neg (by simp [hStill])]
          exact Iff.rfl
        · have hSame :
              (b.counted.processed u true).concluded now =
                b.counted.processed u true := by
            simp [concluded, hOver]
          rw [Except.isOk, Except.toBool, hSame, if_neg hOver]
          exact Iff.rfl

/- What becomes of a submission that is not refused. -/
theorem ends_submit_open
    {s : ItemSession}
    (hInit : s.state.initialized = true)
    (hPhase : s.state.phase = .interacting)
    (hAllowed : s.isAttemptAllowed = true)
    (responses : Responses)
    (now : Instant)
    (Q : Except Failure Submission → ItemSession → Prop) :
    Ends (submit responses now) s Q ↔
      if (s.touchedAt now).isLate then
        Q (.ok { timedOut := true })
          ((s.touchedAt now).timedOutAt now)
      else
        let b := ((s.touchedAt now).bound responses).judged
        if b.isBlocked then
          Q (.ok {
              unbound := b.state.unbound
              invalid := b.state.invalid })
            b
        else
          Ends (respond b.engine b.item) b.counted.stage
            fun r u =>
              let t := b.counted.processed u r.isOk
              match r with
              | .ok _ =>
                  Q (.ok {
                      unbound := b.state.unbound
                      invalid := b.state.invalid
                      processed := true })
                    (t.concluded now)
              | .error e => Q (.error e) t := by
  have hOpen : s.state.finished = false :=
    ((s.state.phase_eq_interacting_iff).mp hPhase).1
  rw [submit, ends_bind, ends_ensureOpen, if_pos hInit,
    if_neg (by simp [hOpen])]
  dsimp only
  rw [ends_get_bind, hPhase, if_neg (by simp), hAllowed,
    if_pos rfl, ends_bind, ends_touch]
  dsimp only
  rw [ends_get_bind, ends_ite]
  have hReady : (s.touchedAt now).state.initialized = true :=
    hInit
  have hStill : (s.touchedAt now).state.finished = false := hOpen
  change
    (if (s.touchedAt now).isLate = true then
      Ends _ (s.touchedAt now) Q
    else Ends _ (s.touchedAt now) Q) ↔ _
  split
  · rw [ends_bind, ends_timeOut, if_pos hReady,
      if_neg (by simp [hStill])]
    exact Iff.rfl
  · rw [ends_bind, ends_bindResponses, if_pos hReady,
      if_neg (by simp [hStill])]
    dsimp only
    rw [ends_get_bind, ends_ite]
    exact ends_submit_bound
      (b := ((s.touchedAt now).bound responses).judged)
      hReady hStill now Q

/- A refused submission changes nothing. -/
theorem ends_submit_refused
    {s : ItemSession}
    (hRefused :
      s.state.initialized = true →
        s.state.phase = .interacting →
          s.isAttemptAllowed = false)
    (responses : Responses)
    (now : Instant) :
    Ends (submit responses now) s fun r t =>
      t = s ∧ ∃ e, r = .error e ∧ ¬ e.IsService ∧
        ∀ item, e = .refused (.noMoreAttempts item) →
          s.state.initialized = true ∧
            s.state.phase = .interacting := by
  have hNoService :
      ∀ cause, ¬ (Failure.refused cause).IsService := by
    rintro cause ⟨_, hSame⟩
    cases hSame
  rw [submit, ends_bind, ends_ensureOpen]
  split
  next hInit =>
    split
    next hFinished =>
      refine ⟨rfl, _, rfl, hNoService _, ?_⟩
      intro item hSame
      cases hSame
    next =>
      dsimp only
      rw [ends_get_bind]
      split
      next hOther =>
        refine ⟨rfl, _, rfl, hNoService _, ?_⟩
        intro item hSame
        cases hSame
      next hSame =>
        have hPhase : s.state.phase = .interacting := by
          simpa using hSame
        rw [hRefused hInit hPhase, if_neg (by simp)]
        exact ⟨rfl, _, rfl, hNoService _,
          fun _ _ => ⟨hInit, hPhase⟩⟩
  next =>
    refine ⟨rfl, _, rfl, ?_, ?_⟩
    · rintro ⟨_, hSame⟩
      cases hSame
    · intro item hSame
      cases hSame

/- A submission is refused, or the session is open for it. -/
theorem ends_submit_cases
    {s : ItemSession}
    {responses : Responses}
    {now : Instant}
    {Q : Except Failure Submission → ItemSession → Prop}
    (hRefused : ∀ e, ¬ e.IsService → Q (.error e) s)
    (hTaken :
      s.state.initialized = true →
        s.state.phase = .interacting →
          s.isAttemptAllowed = true →
            Ends (submit responses now) s Q) :
    Ends (submit responses now) s Q := by
  by_cases hOpen :
      s.state.initialized = true ∧
        s.state.phase = .interacting ∧
          s.isAttemptAllowed = true
  · exact hTaken hOpen.1 hOpen.2.1 hOpen.2.2
  · have hShut :
        s.state.initialized = true →
          s.state.phase = .interacting →
            s.isAttemptAllowed = false := by
      intro hInit hPhase
      simpa [hInit, hPhase] using hOpen
    apply (ends_submit_refused hShut responses now).mono
    rintro _ t ⟨rfl, e, rfl, hOther, _⟩
    exact hRefused e hOther

end ItemSession

end Assessment
