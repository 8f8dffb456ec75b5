import Assessment.Proofs.Item.Breakdown
import Assessment.Proofs.Test.Refusal
import Assessment.Proofs.Test.Sweeps
import Assessment.Proofs.Test.Waiting

/-
  Test sessions whose calls break off.

  A service that fails for good ends a call to a test session
  wherever in its items or its outcomes the answer was needed.
  What has been done by then stays, and it is confined: to the
  items of a sweep up to the one that broke off, or to the
  current item, or to the outcomes. The call gets no further.

  Main declarations:
    * `TestSession.BrokenInitialisation`, `BrokenOutcomes`,
      `BrokenSubmission` and `BrokenEnd`
    * `broken_off_of_calls`
    * `broken_submission_counts`
-/

------------------------------------------------------------
-- Bindings
------------------------------------------------------------

namespace Assessment

open Stateful

namespace Keyed

/- The bindings with declared variables at initial values. -/
def reinitialised
    (ds : List Declaration)
    (b : Bindings) :
    Bindings :=
  ds.foldl (fun b d => b.put d.identifier d.initial) b

/- What is bound to a variable does not matter to its reset. -/
theorem get?_reinitialised_congr
    {ds : List Declaration}
    {b c : Bindings}
    {name : String}
    (hSame :
      name ∉ ds.map Declaration.identifier →
        b.get? name = c.get? name) :
    (reinitialised ds b).get? name =
      (reinitialised ds c).get? name := by
  induction ds generalizing b c with
  | nil => exact hSame List.not_mem_nil
  | cons d rest ih =>
      apply ih
      intro hLater
      by_cases hHead : name = d.identifier
      · subst hHead
        rw [get?_put_self, get?_put_self]
      · rw [get?_put_of_ne hHead, get?_put_of_ne hHead]
        apply hSame
        simpa [hHead] using hLater

end Keyed

/- Rules may be heard of for what they do to values alone. -/
theorem Scope.ChangesAt.valuesAlone
    {P : Store → String → Prop}
    {s t : Scope}
    (hChanges : s.ChangesAt P t) :
    s.ChangesAt
      (fun store name => store = .values ∧ P .values name)
      { s with values := t.values } := by
  constructor
  · rfl
  · rfl
  · rfl
  · intro store name hNot
    cases store with
    | values =>
        apply hChanges.elsewhere .values name
        exact fun hPlace => hNot ⟨⟨rfl, hPlace.1⟩, hPlace.2⟩
    | defaults => rfl
    | corrects => rfl
  · intro store hRising
    cases store with
    | values => exact hChanges.rising .values hRising
    | defaults => exact hRising
    | corrects => exact hRising

/- Initial values are put where variables are declared. -/
theorem Scope.changesAt_reinitialised
    {P : Store → String → Prop}
    {ds : List Declaration}
    {s : Scope}
    (hDeclared : ds ⊆ s.declarations)
    (hPlaces : ∀ d ∈ ds, P .values d.identifier) :
    s.ChangesAt P
      { s with values := Keyed.reinitialised ds s.values } := by
  induction ds generalizing s with
  | nil => exact Std.Refl.refl (r := ChangesAt P) s
  | cons d rest ih =>
      have hThere :=
        isSome_declaration? (hDeclared List.mem_cons_self)
      have hFirst :=
        changesAt_putAt hThere
          (hPlaces d List.mem_cons_self) d.initial
      have hRest :=
        ih (s := s.putAt .values d.identifier d.initial)
          (fun e hMem => hDeclared (List.mem_cons_of_mem d hMem))
          fun e hMem => hPlaces e (List.mem_cons_of_mem d hMem)
      exact IsTrans.trans _ _ _ hFirst hRest

------------------------------------------------------------
-- Entries
------------------------------------------------------------

namespace ItemEntry

/- The session has been initialized for its reference. -/
def Initialised
    (e : ItemEntry)
    (session : ItemSession) :
    Prop :=
  GoesThrough
    (ItemSession.initialise e.ref.templateDefaults)
    e.session session

/- The session has broken off while it was initialized. -/
def InitialisedHalf
    (e : ItemEntry)
    (session : ItemSession) :
    Prop :=
  e.session.BrokenInitialisation e.ref.templateDefaults session

/- The session has been closed with its part. -/
def Closed
    (now : Instant)
    (e : ItemEntry)
    (session : ItemSession) :
    Prop :=
  GoesThrough (TestSession.closeItem now) e.session session

/- The session has broken off while it was closed. -/
def ClosedHalf
    (e : ItemEntry)
    (session : ItemSession) :
    Prop :=
  e.session.BrokenClosing session

end ItemEntry

namespace TestSession

open ItemSession

------------------------------------------------------------
-- Gates
------------------------------------------------------------

/- What is refused does not break off. -/
theorem breaks_of_plain
    {α : Type}
    {x : TestAction α}
    {s : TestSession}
    {Q : TestSession → Prop}
    (hPlain :
      Ends x s fun r _ =>
        ∀ e, r = .error e → e.isPlain = true) :
    Breaks x s Q := by
  apply hPlain.mono
  rintro r t hRefused cause rfl
  cases hRefused _ rfl

theorem breaks_getState_bind
    {α : Type}
    {f : TestState → TestAction α}
    {s : TestSession}
    {Q : TestSession → Prop}
    (hThen : Breaks (f s.state) s Q) :
    Breaks (getState >>= f) s Q :=
  hThen

/- A part of a call only reads, and refuses on plain grounds. -/
def Gates
    {α : Type}
    (x : TestAction α)
    (s : TestSession) :
    Prop :=
  Ends x s fun r t =>
    t = s ∧ ∀ e, r = .error e → e.isPlain = true

namespace Gates

variable {α β : Type}
variable {s : TestSession}

theorem breaks
    {x : TestAction α}
    {Q : TestSession → Prop}
    (hGates : Gates x s) :
    Breaks x s Q :=
  breaks_of_plain (hGates.mono fun _ _ hEnds => hEnds.2)

theorem bind
    {x : TestAction α}
    {f : α → TestAction β}
    (hFirst : Gates x s)
    (hThen : ∀ a, Gates (f a) s) :
    Gates (x >>= f) s := by
  unfold Gates
  rw [ends_bind]
  apply hFirst.mono
  rintro r t ⟨rfl, hPlain⟩
  cases r with
  | error e =>
      refine ⟨rfl, ?_⟩
      rintro e' hSame
      cases hSame
      exact hPlain e rfl
  | ok a => exact hThen a

theorem ensureRunning (s : TestSession) :
    Gates TestSession.ensureRunning s :=
  (ends_ensureRunning_other s).mono fun _ _ hEnds =>
    ⟨hEnds.1, hEnds.2.1⟩

theorem runningPart (s : TestSession) :
    Gates TestSession.runningPart s :=
  (ends_runningPart_other s).mono fun _ _ hEnds =>
    ⟨hEnds.1, hEnds.2.1⟩

theorem mayEndPart (s : TestSession) :
    Gates TestSession.mayEndPart s := by
  rw [TestSession.mayEndPart]
  apply bind (ensureRunning s)
  intro _
  apply bind (runningPart s)
  intro _
  exact ⟨rfl, fun _ hSame => by cases hSame⟩

end Gates

/- A step of an item breaks off where the item does. -/
theorem breaks_onItem
    {α : Type}
    {i : Nat}
    {x : Action α}
    {s : TestSession}
    {Q : TestSession → Prop}
    (hStep :
      ∀ e, s.entries[i]? = some e →
        Breaks x e.session fun session =>
          Q (putSession s i e session)) :
    Breaks (onItem i x) s Q := by
  unfold Breaks
  rw [ends_onItem]
  cases hE : s.entries[i]? with
  | none =>
      intro cause hCause
      cases hCause
  | some e => exact hStep e hE

/- A step of an item that goes through is put back. -/
theorem exists_of_run_onItem
    {α : Type}
    {i : Nat}
    {x : Action α}
    {s t : TestSession}
    {a : α}
    (hRun : Stateful.run (onItem i x) s = (.ok a, t)) :
    ∃ e session,
      s.entries[i]? = some e ∧
        Stateful.run x e.session = (.ok a, session) ∧
        t = putSession s i e session := by
  have hEnds :
      Ends (onItem i x) s fun r t =>
        r = .ok a →
          ∃ e session,
            s.entries[i]? = some e ∧
              Stateful.run x e.session = (.ok a, session) ∧
              t = putSession s i e session := by
    rw [ends_onItem]
    cases hE : s.entries[i]? with
    | none => exact fun hSame => by cases hSame
    | some e =>
        intro hSame
        exact ⟨e, _, rfl, Prod.ext hSame rfl, rfl⟩
  exact hEnds.of_run hRun rfl

/- Time is brought up to date without the service. -/
theorem breaks_touch
    {Q : TestSession → Prop}
    (now : Instant)
    (s : TestSession) :
    Breaks (touch now) s Q := by
  unfold Breaks
  rw [ends_touch_iff]
  split
  · intro cause hCause
    cases hCause
  · rw [ends_onItem]
    split
    · intro cause hCause
      cases hCause
    · rw [ItemSession.ends_touch]
      intro cause hCause
      cases hCause

------------------------------------------------------------
-- Initialization
------------------------------------------------------------

/- The session with its outcomes at their initial values. -/
def withInitialValues (s : TestSession) : TestSession :=
  { s with
    state := {
      s.state with
      values := Keyed.ofList
        (s.test.declarations.map fun d =>
          (d.identifier, d.initial)) } }

theorem ends_initialiseItems_until
    {places : List (ItemEntry × Nat)}
    {s : TestSession}
    (hPlaces : s.Places places) :
    Ends (initialiseItems places) s
      (SweptUntil (places.map Prod.snd) ItemEntry.Initialised
        ItemEntry.InitialisedHalf s) := by
  induction places generalizing s with
  | nil => exact sweptUntil_nil s ()
  | cons x rest ih =>
      obtain ⟨d, i⟩ := x
      obtain ⟨hD, hOther⟩ := hPlaces.head
      rw [initialiseItems]
      apply ends_sweepUntil hD hOther
      · apply (ends_goesThrough _ d.session).and
        exact ItemSession.breaks_initialise _ d.session
      · intro _ session
        exact ih (hPlaces.tail session)

/-
  A test that has broken off while it was initialized is still
  not initialized. Its outcomes are, and so are its items up
  to the one that has broken off.
-/
structure BrokenInitialisation (s t : TestSession) : Prop where
  fresh : s.state.initialized = false
  rest : s.withInitialValues.MovesItems t
  items :
    StoppedIn (List.range s.entries.length)
      ItemEntry.Initialised ItemEntry.InitialisedHalf
      s.entries t.entries

theorem breaks_initialise (s : TestSession) :
    Breaks initialise s s.BrokenInitialisation := by
  have hPlaces :
      s.entries.zipIdx.map Prod.snd =
        List.range s.entries.length := by
    rw [List.zipIdx_map_snd, List.range_eq_range']
  unfold Breaks
  rw [initialise, ends_getState_bind, ends_ite]
  split
  · rw [ends_bind, ends_throw]
    intro cause hCause
    cases hCause
  next hNew =>
    rw [ends_announced, ends_get_bind, ends_bind,
      ends_changeState]
    dsimp only
    rw [ends_bind]
    have hSweep :=
      ends_initialiseItems_until
        (places_zipIdx
          { s.withInitialValues with
            events :=
              s.events ++ [.starting .testInitialisation] })
    apply hSweep.mono
    intro r u hSwept
    cases r with
    | error e =>
        intro cause hCause
        cases hCause
        constructor
        · simpa using hNew
        · exact hSwept.items.announced _ _
        · rw [← hPlaces]
          exact hSwept.stopped cause rfl
    | ok =>
        rw [ends_changeState]
        intro cause hCause
        cases hCause

------------------------------------------------------------
-- Outcomes
------------------------------------------------------------

/- The outcomes that processing starts from their beginnings. -/
def resets (t : Test) : List Declaration :=
  t.declarations.filter fun d =>
    !Builtin.isBuiltin d.identifier

/- The places that outcome processing writes to. -/
def outcomePlaces
    (t : Test)
    (store : Store)
    (name : String) :
    Prop :=
  store = .values ∧
    (Rule.WritesTo t.outcomeProcessing .values name ∨
      name ∈ (resets t).map Declaration.identifier)

/-
  Outcome processing that has broken off has changed outcomes
  alone. When it is made again, it starts from the same values,
  apart from built-in variables that its rules write to.
-/
structure BrokenOutcomes (s t : TestSession) : Prop where
  rest :
    t =
      { s with
        tally := t.tally
        events := t.events
        state := { s.state with values := t.state.values } }
  scope : s.scope.ChangesAt (outcomePlaces s.test) t.scope
  again :
    ∀ name,
      (Builtin.isBuiltin name = true →
        ¬ Rule.WritesTo s.test.outcomeProcessing .values
          name) →
      (Keyed.reinitialised (resets s.test)
          t.state.values).get? name =
        (Keyed.reinitialised (resets s.test)
          s.state.values).get? name

/- What has not been reset has only been written to. -/
theorem again_of_changesAt
    {s t : TestSession}
    (hChanges :
      s.scope.ChangesAt (outcomePlaces s.test) t.scope)
    {name : String}
    (hBuiltin :
      Builtin.isBuiltin name = true →
        ¬ Rule.WritesTo s.test.outcomeProcessing .values
          name) :
    (Keyed.reinitialised (resets s.test)
        t.state.values).get? name =
      (Keyed.reinitialised (resets s.test)
        s.state.values).get? name := by
  apply Keyed.get?_reinitialised_congr
  intro hNot
  apply hChanges.elsewhere .values name
  rintro ⟨⟨_, hWritten | hReset⟩, hDeclared⟩
  · apply hNot
    obtain ⟨d, hFound⟩ := Option.isSome_iff_exists.mp hDeclared
    have hMem : d ∈ s.test.declarations :=
      List.mem_of_find?_eq_some hFound
    have hName : d.identifier = name := by
      simpa using List.find?_some hFound
    subst hName
    apply List.mem_map_of_mem
    apply List.mem_filter.mpr
    refine ⟨hMem, ?_⟩
    by_contra hOwn
    exact hBuiltin (by simpa using hOwn) hWritten
  · exact hNot hReset

/- Rules of outcome processing leave the outcomes behind. -/
theorem changesAt_outcomes
    {s : TestSession}
    {u : Scope}
    (hRules :
      Scope.ChangesAt
        (Rule.WritesTo s.test.outcomeProcessing)
        { s.scope with
          values :=
            Keyed.reinitialised (resets s.test)
              s.state.values }
        u) :
    s.scope.ChangesAt (outcomePlaces s.test)
      { s.scope with values := u.values } := by
  have hReset :
      s.scope.ChangesAt (outcomePlaces s.test)
        { s.scope with
          values :=
            Keyed.reinitialised (resets s.test)
              s.state.values } := by
    apply Scope.changesAt_reinitialised
    · exact fun d hMem => (List.mem_filter.mp hMem).1
    · exact fun d hMem =>
        ⟨rfl, Or.inr (List.mem_map_of_mem hMem)⟩
  have hValues := hRules.valuesAlone.mono
    (Q := outcomePlaces s.test) fun store name hPlace =>
      ⟨hPlace.1, Or.inl hPlace.2⟩
  exact IsTrans.trans _ _ _ hReset hValues

theorem breaks_processOutcomes (s : TestSession) :
    Breaks processOutcomes s s.BrokenOutcomes := by
  unfold Breaks
  rw [processOutcomes, ends_bind, ends_ensureInitialized]
  split
  · dsimp only
    rw [ends_announced, ends_get_bind, ends_bind,
      ends_changeState]
    dsimp only
    rw [ends_bind, ends_runRules]
    have hRules :
        Moves
          (Stage.Follows
            (Scope.ChangesAt
              (Rule.WritesTo s.test.outcomeProcessing)))
          (Rule.executeAll s.engine
            s.test.outcomeProcessing) :=
      Rule.executeAll_changesAt s.engine
        fun _ _ hWrites => hWrites
    apply (hRules _).mono
    intro r u hChanges
    cases r with
    | ok =>
        intro cause hCause
        cases hCause
    | error e =>
        intro cause hCause
        have hScope := changesAt_outcomes hChanges
        constructor
        · rfl
        · exact hScope
        · intro name hBuiltin
          exact again_of_changesAt hScope hBuiltin
  · intro cause hCause
    cases hCause

------------------------------------------------------------
-- Submissions
------------------------------------------------------------

/-
  A submission that has broken off has touched the current
  item only. Either the submission to the item has broken off,
  or it has gone through and outcome processing has broken off
  after it.
-/
inductive BrokenSubmission
    (responses : Responses)
    (now : Instant)
    (s t : TestSession) :
    Prop where
  | item
      {i : Nat}
      {e : ItemEntry}
      {u : TestSession}
      {session : ItemSession}
      (current : s.state.item = some i)
      (touched : u.timeless = s.timeless)
      (entry : u.entries[i]? = some e)
      (broken : e.session.BrokenSubmission responses now session)
      (put : t = putSession u i e session)
  | outcomes
      {i : Nat}
      {e : ItemEntry}
      {u : TestSession}
      {session : ItemSession}
      {submission : Submission}
      (current : s.state.item = some i)
      (touched : u.timeless = s.timeless)
      (entry : u.entries[i]? = some e)
      (submitted :
        Stateful.run (ItemSession.submit responses now)
          e.session = (.ok submission, session))
      (processed : submission.processed = true)
      (broken : (putSession u i e session).BrokenOutcomes t)

theorem breaks_submit
    {s : TestSession}
    (hReady : s.Ready)
    (responses : Responses)
    (now : Instant) :
    Breaks (submit responses now) s
      (s.BrokenSubmission responses now) := by
  rw [submit]
  apply Breaks.seq
  · exact (Gates.ensureRunning s).breaks
  intro _ t hRun
  obtain ⟨rfl, _⟩ := (Gates.ensureRunning s).of_run hRun
  apply breaks_getState_bind
  cases hItem : t.state.item with
  | none =>
      unfold Breaks
      rw [ends_refuse]
      intro cause hCause
      cases hCause
  | some i =>
      have hTouch := ends_touch_ready hReady now
      apply Breaks.seq
      · exact breaks_touch now t
      intro _ u hTouched
      obtain ⟨_, hTime, _⟩ := hTouch.of_run hTouched
      apply Breaks.get_bind
      dsimp only
      split
      · apply Breaks.seq
        · apply breaks_onItem
          exact fun e _ => ItemSession.breaks_timeOut now e.session
        · intro _ v _
          exact Breaks.of_isOk rfl
      · apply Breaks.seq
        · apply breaks_onItem
          intro e hE
          have hBreaks :=
            ItemSession.breaks_submit responses now e.session
          exact hBreaks.mono fun session hBroken =>
            .item hItem hTime hE hBroken rfl
        · intro submission v hSubmitted
          obtain ⟨e, session, hE, hOk, rfl⟩ :=
            exists_of_run_onItem hSubmitted
          split
          next hProcessed =>
            apply Breaks.seq
            · have hBreaks :=
                breaks_processOutcomes (putSession u i e session)
              exact hBreaks.mono fun w hBroken =>
                .outcomes hItem hTime hE hOk hProcessed hBroken
            · intro _ w _
              exact Breaks.of_isOk rfl
          · exact Breaks.of_isOk rfl

------------------------------------------------------------
-- Ends
------------------------------------------------------------

theorem breaks_closeItem (now : Instant) (s : ItemSession) :
    Breaks (closeItem now) s s.BrokenClosing := by
  unfold Breaks
  rw [closeItem, ends_bind, ItemSession.ends_getState]
  dsimp only
  rw [ends_ite]
  split
  · intro cause hCause
    cases hCause
  · apply Breaks.seq (breaks_processPending s)
    intro _ t _
    apply Breaks.seq
    · exact breaks_finish now t
    · intro _ u _
      exact Breaks.of_isOk rfl

theorem ends_closeItems_until
    (now : Instant)
    {places : List (ItemEntry × Nat)}
    {s : TestSession}
    (hPlaces : s.Places places) :
    Ends (closeItems now places) s
      (SweptUntil (places.map Prod.snd) (ItemEntry.Closed now)
        ItemEntry.ClosedHalf s) := by
  induction places generalizing s with
  | nil => exact sweptUntil_nil s false
  | cons x rest ih =>
      obtain ⟨d, i⟩ := x
      obtain ⟨hD, hOther⟩ := hPlaces.head
      rw [closeItems]
      apply ends_sweepUntil hD hOther
      · apply (ends_goesThrough _ d.session).and
        exact breaks_closeItem now d.session
      · intro processed session
        rw [ends_bind]
        apply (ih (hPlaces.tail session)).mono
        intro r u hSwept
        cases r with
        | error e => exact hSwept
        | ok others =>
            constructor
            · exact hSwept.items
            · exact fun _ => hSwept.through rfl
            · exact fun _ hCause => by cases hCause

/-
  An end of a part that has broken off has left the current
  item, and the part has not ended. Either closing one of its
  items has broken off, and those before it are closed, or all
  are closed and outcome processing has broken off.
-/
inductive BrokenEnd
    (now : Instant)
    (s t : TestSession) :
    Prop where
  | closing
      {p : Nat}
      {u : TestSession}
      (part : s.state.part = some p)
      (left : u.timeless = (s.left now).timeless)
      (rest : u.MovesItems t)
      (items :
        StoppedIn (u.placesIn p) (ItemEntry.Closed now)
          ItemEntry.ClosedHalf u.entries t.entries)
  | outcomes
      {p : Nat}
      {u v : TestSession}
      (part : s.state.part = some p)
      (left : u.timeless = (s.left now).timeless)
      (rest : u.MovesItems v)
      (items :
        ChangedIn (u.placesIn p) (ItemEntry.Closed now)
          u.entries v.entries)
      (broken : v.BrokenOutcomes t)

/- Once an item has been left, its part may break off. -/
theorem breaks_endLeft
    {now : Instant}
    {s u : TestSession}
    {p : Nat}
    (hPart : s.state.part = some p)
    (hLeft : u.timeless = (s.left now).timeless) :
    Breaks (do
      let processed ← closeItems now ((← get).entriesIn p)
      if processed then processOutcomes
      switchSections [] now
      let last := p + 1 == (← get).test.parts.length
      TestSession.markEnded p last now
      touch now) u (s.BrokenEnd now) := by
  have hMark : ∀ t : TestSession,
      Breaks (do
        switchSections [] now
        let last := p + 1 == (← get).test.parts.length
        TestSession.markEnded p last now
        touch now) t (s.BrokenEnd now) := by
    intro t
    apply Breaks.seq
    · exact Breaks.of_isOk rfl
    intro _ v _
    apply Breaks.get_bind
    apply Breaks.seq
    · exact Breaks.of_isOk rfl
    · exact fun _ w _ => breaks_touch now w
  have hSweep :=
    ends_closeItems_until now (u.places_entriesIn p)
  apply Breaks.get_bind
  apply Breaks.seq
  · apply hSweep.mono
    rintro r t hSwept cause rfl
    exact .closing hPart hLeft hSwept.items
      (hSwept.stopped cause rfl)
  intro processed v hClosed
  have hSwept := hSweep.of_run hClosed
  dsimp only
  split
  · apply Breaks.seq
    · exact (breaks_processOutcomes v).mono fun t hBroken =>
        .outcomes hPart hLeft hSwept.items
          (hSwept.through rfl) hBroken
    · exact fun _ t _ => hMark t
  · exact hMark v

theorem breaks_endPart
    {s : TestSession}
    (hReady : s.Ready)
    (now : Instant) :
    Breaks (endPart now) s (s.BrokenEnd now) := by
  rw [endPart]
  apply Breaks.seq
  · exact (Gates.mayEndPart s).breaks
  intro may t hRun
  obtain ⟨rfl, _⟩ := (Gates.mayEndPart s).of_run hRun
  dsimp only
  split
  · apply Breaks.seq
    · exact (Gates.runningPart t).breaks
    intro p u hRun
    obtain ⟨rfl, _, hPart⟩ :=
      (ends_runningPart_other t).of_run hRun
    have hTouch := ends_touch_ready hReady now
    apply Breaks.seq
    · exact breaks_touch now u
    intro _ v hTouched
    obtain ⟨_, hTime, hReadyV⟩ := hTouch.of_run hTouched
    have hLeave := ends_leaveCurrent_left hReadyV.order
      hReadyV.quiet now
    apply Breaks.seq
    · apply breaks_of_plain
      apply hLeave.mono
      rintro r w (⟨rfl, _⟩ | ⟨e, rfl, _, hPlain⟩)
      · exact fun _ hSame => by cases hSame
      · intro e' hSame
        cases hSame
        exact hPlain
    intro _ w hLeft
    rcases hLeave.of_run hLeft with ⟨_, rfl⟩ | ⟨e, hError, _⟩
    · exact breaks_endLeft (hPart p rfl)
        (left_congr hTime now)
    · cases hError
  · intro cause hCause
    cases hCause

------------------------------------------------------------
-- Calls
------------------------------------------------------------

/- What calls to a test leave when they break off. -/
structure BreaksOff (s : TestSession) : Prop where
  initialise :
    Breaks initialise s s.BrokenInitialisation
  submit :
    ∀ responses now,
      Breaks (submit responses now) s
        (s.BrokenSubmission responses now)
  endPart :
    ∀ now, Breaks (endPart now) s (s.BrokenEnd now)
  outcomes :
    Breaks processOutcomes s s.BrokenOutcomes

/-
  A call that breaks off because its service fails is not
  undone. What it leaves is known all the same, for an item in
  every state, and for a test after any calls: the call has
  not reached its end, and only what came before the failure
  has changed.
-/
theorem broken_off_of_calls :
    (∀ s : ItemSession, s.BreaksOff) ∧
      ∀ (t : Test) (items : Keyed Item) (engine : Engine)
        (draws : Draws) (first : TestSession),
        start t items engine draws = .ok first →
          ∀ calls, (first.after calls).BreaksOff := by
  constructor
  · exact ItemSession.breaksOff
  · intro t items engine draws first hStart calls
    have hReady := ready_after hStart calls
    constructor
    · exact breaks_initialise _
    · exact breaks_submit hReady
    · exact breaks_endPart hReady
    · exact breaks_processOutcomes _

/- A part breaks off with what waits for its end. -/
theorem served_end :
    ∃ first : TestSession,
      start waitingTest [("blank", servedItem)] silentEngine
          default = .ok first ∧
        isUnanswered
          (Stateful.run (endPart ⟨2⟩)
            (first.after answeredCalls)).1 = true ∧
        (Stateful.run (endPart ⟨2⟩)
          (first.after answeredCalls)).2.state.ended = [] := by
  refine ⟨_, rfl, ?_, ?_⟩
  · decide +kernel
  · decide +kernel

/-
  When the service keeps silent, the submission has been bound
  and counted, and the part has not ended.
-/
theorem broken_off_of_calls_silent :
    (∃ t, servedSession.BrokenSubmission [] ⟨0⟩ t ∧
      t.state.timeless.attempts = 1) ∧
    ∃ first : TestSession,
      start waitingTest [("blank", servedItem)] silentEngine
          default = .ok first ∧
        ∃ t, (first.after answeredCalls).BrokenEnd ⟨2⟩ t ∧
          t.state.ended = [] := by
  constructor
  · obtain ⟨hUnanswered, hOne, _⟩ := served_submission
    have hLaws := broken_off_of_calls.1 servedSession
    have hBreaks := hLaws.submit [] ⟨0⟩
    exact ⟨_, hBreaks.of_isUnanswered hUnanswered, hOne⟩
  · obtain ⟨first, hStart, hUnanswered, hEnded⟩ := served_end
    have hLaws := broken_off_of_calls.2 waitingTest
      [("blank", servedItem)] silentEngine default first hStart
      answeredCalls
    have hBreaks := hLaws.endPart ⟨2⟩
    exact ⟨first, hStart, _,
      hBreaks.of_isUnanswered hUnanswered, hEnded⟩

/- The states of a test and its items differ in time alone. -/
def SameStates (s t : TestSession) : Prop :=
  t.state.timeless = s.state.timeless ∧
    t.entries.map (fun e => e.session.state.timeless) =
      s.entries.map fun e => e.session.state.timeless

/- Calls to a test that break off change nothing but time. -/
structure Undone (s : TestSession) : Prop where
  initialise : Breaks initialise s s.SameStates
  submit :
    ∀ responses now,
      Breaks (submit responses now) s s.SameStates
  endPart :
    ∀ now, Breaks (endPart now) s s.SameStates
  outcomes : Breaks processOutcomes s s.SameStates

/- A submission that breaks off has been counted. -/
theorem broken_submission_counts :
    ¬ ((∀ (item : Item) (engine : Engine) (draws : Draws)
          (control : Control) (limits : Option TimeLimits)
          (mode : SubmissionMode) (calls : List ItemCall),
          engine.settings.policy = .fatal →
            ((fresh item engine draws control limits
              mode).after calls).Undone) ∧
        ∀ (t : Test) (items : Keyed Item) (engine : Engine)
          (draws : Draws) (first : TestSession),
          engine.settings.policy = .fatal →
            start t items engine draws = .ok first →
              ∀ calls, (first.after calls).Undone) := by
  rintro ⟨hClaim, -⟩
  have hUndone : servedSession.Undone :=
    hClaim servedItem silentEngine default {} none .individual
      ItemSession.openingCalls rfl
  obtain ⟨hUnanswered, hOne, hZero⟩ := served_submission
  have hBreaks := hUndone.submit [] ⟨0⟩
  have hSame := hBreaks.of_isUnanswered hUnanswered
  rw [hSame, hZero] at hOne
  exact absurd hOne (by decide)

end TestSession

end Assessment
