import Assessment.Proofs.Test.Lifecycle

/-
  The parts and the ends of a test session.

  Initializing a test, ending a part and leaving a test go
  through items one after the other. What such a sweep has
  done to an item stays done, even when it fails at a later
  item.

  Main declarations:
    * `TestSession.Swept`, what a sweep over items comes to
    * `ends_initialise`, `ends_nextPart`, `ends_endPart` and
      `ends_exit`
-/

------------------------------------------------------------
-- Sweeps
------------------------------------------------------------

namespace Assessment

open Stateful

namespace TestSession

open ItemSession (Settles)

variable {α β : Type}

/-
  A sweep over places of items leaves the session where it
  stands. Something is done with every item when it goes
  through, and where it is sure to go through, it does.
-/
structure Swept
    (mayBegin : Nat → Prop)
    (Done : ItemState → Prop)
    (sure : Prop)
    (places : List (ItemEntry × Nat))
    (s : TestSession)
    (r : Except Failure α)
    (t : TestSession) :
    Prop where
  onward : s.Onward mayBegin t
  done :
    r.isOk = true → ∀ x ∈ places, ∀ f,
      t.entries[x.2]? = some f → Done f.session.state
  sure : sure → r.isOk = true

/- What is done with an item, in a life that goes on. -/
def IsLasting (Done : ItemState → Prop) : Prop :=
  ∀ s t : ItemState, s.Progress t → Done s → Done t

/- A sweep takes a step of one item and goes on to the others. -/
theorem ends_sweep
    {mayBegin : Nat → Prop}
    {Done : ItemState → Prop}
    {sure : Prop}
    (hLasting : IsLasting Done)
    {s : TestSession}
    (hCoherent :
      ∀ (i : Nat) (e : ItemEntry), s.entries[i]? = some e →
        e.session.state.Coherent)
    {d : ItemEntry}
    {i : Nat}
    {places : List (ItemEntry × Nat)}
    {x : Action α}
    {rest : α → TestAction β}
    (hPlace : sure → ∃ e, s.entries[i]? = some e)
    (hStep :
      ∀ e, s.entries[i]? = some e →
        Ends x e.session fun r t =>
          e.session.Settles t ∧
            (t.state.IsBegun →
              e.session.state.IsBegun ∨ mayBegin e.part) ∧
            (r.isOk = true → Done t.state) ∧
            (sure → r.isOk = true))
    (hRest :
      ∀ a t, s.Onward mayBegin t →
        Ends (rest a) t
          (Swept mayBegin Done sure places t)) :
    Ends (onItem i x >>= rest) s
      (Swept mayBegin Done sure ((d, i) :: places) s) := by
  rw [ends_bind, ends_onItem]
  split
  next hNone =>
    refine ⟨Onward.refl mayBegin s,
      fun hOk => (by cases hOk), ?_⟩
    intro hSure
    rcases hPlace hSure with ⟨e, hE⟩
    rw [hNone] at hE
    cases hE
  next e hE =>
    refine (hStep e hE).mono fun r session hDone => ?_
    rcases hDone with ⟨hSettles, hBegun, hDone, hSure⟩
    have hOnward : s.Onward mayBegin (putSession s i e session) :=
      putSession_onward hE hSettles hBegun
    cases r with
    | error =>
        exact ⟨hOnward, fun hOk => (by cases hOk),
          fun h => (by cases hSure h)⟩
    | ok a =>
        refine (hRest a _ hOnward).mono fun r u hSwept => ?_
        refine ⟨hOnward.trans hSwept.onward, ?_, hSwept.sure⟩
        intro hOk x hx f hF
        rcases List.mem_cons.mp hx with rfl | hLater
        · have hBound : i < s.entries.length :=
            (List.getElem?_eq_some_iff.mp hE).1
          have hLater :=
            hSwept.onward.kept.settles i _ f
              (List.getElem?_set_self hBound) hF
          have hMid :=
            (hSettles.advances (hCoherent i e hE)).coherent
          exact hLasting _ _ (hLater.advances hMid) (hDone rfl)
        · exact hSwept.done hOk x hLater f hF

/- The lives of items stay coherent where they go on. -/
theorem Onward.coherent
    {mayBegin : Nat → Prop}
    {s t : TestSession}
    (hOnward : s.Onward mayBegin t)
    (hCoherent :
      ∀ (i : Nat) (e : ItemEntry), s.entries[i]? = some e →
        e.session.state.Coherent) :
    ∀ (i : Nat) (f : ItemEntry), t.entries[i]? = some f →
      f.session.state.Coherent := by
  intro i f hF
  rcases hOnward.kept.exists_before hF with ⟨e, hE⟩
  have hSettles := hOnward.kept.settles i e f hE hF
  exact (hSettles.advances (hCoherent i e hE)).coherent

theorem isLasting_initialized :
    IsLasting fun s => s.initialized = true :=
  fun _ _ hProgress => hProgress.initialized

theorem isLasting_finished :
    IsLasting fun s => s.finished = true :=
  fun _ _ hProgress => hProgress.finished

/- A sweep over no items does nothing. -/
theorem swept_nil
    {mayBegin : Nat → Prop}
    {Done : ItemState → Prop}
    {sure : Prop}
    (s : TestSession)
    (a : α) :
    Swept mayBegin Done sure [] s (.ok a) s :=
  ⟨Onward.refl mayBegin s, fun _ _ hMem => (by cases hMem),
    fun _ => rfl⟩

/- A sweep over all items that goes through deals with all. -/
theorem Swept.all
    {mayBegin : Nat → Prop}
    {Done : ItemState → Prop}
    {sure : Prop}
    {places : List (ItemEntry × Nat)}
    {s t : TestSession}
    {r : Except Failure α}
    (hSwept : Swept mayBegin Done sure places s r t)
    (hPlaces : places = s.entries.zipIdx)
    (hOk : r.isOk = true)
    (i : Nat)
    (f : ItemEntry)
    (hF : t.entries[i]? = some f) :
    Done f.session.state := by
  rcases hSwept.onward.kept.exists_before hF with ⟨e, hE⟩
  refine hSwept.done hOk (e, i) ?_ f hF
  rw [hPlaces]
  exact List.mem_zipIdx_iff_getElem?.mpr hE

/- Initializing items begins none of them. -/
theorem ends_initialiseItems
    (mayBegin : Nat → Prop)
    (places : List (ItemEntry × Nat))
    {s : TestSession}
    (hCoherent :
      ∀ (i : Nat) (e : ItemEntry), s.entries[i]? = some e →
        e.session.state.Coherent) :
    Ends (initialiseItems places) s
      (Swept mayBegin (fun u => u.initialized = true) False
        places s) := by
  induction places generalizing s with
  | nil => exact swept_nil s ()
  | cons x rest ih =>
      rcases x with ⟨d, i⟩
      refine ends_sweep isLasting_initialized hCoherent
        False.elim (fun e hE => ?_) fun _ t hOnward =>
          ih (hOnward.coherent hCoherent)
      refine (ItemSession.ends_initialise_settles
        d.ref.templateDefaults e.session).mono
          fun r t hEnds => ?_
      exact ⟨hEnds.1, Or.inl ∘ hEnds.2.1, hEnds.2.2,
        False.elim⟩

/- Closing items finishes them. -/
theorem ends_closeItems
    (mayBegin : Nat → Prop)
    (now : Instant)
    (places : List (ItemEntry × Nat))
    {s : TestSession}
    (hCoherent :
      ∀ (i : Nat) (e : ItemEntry), s.entries[i]? = some e →
        e.session.state.Coherent)
    (hMay :
      ∀ x ∈ places, ∀ e, s.entries[x.2]? = some e →
        mayBegin e.part) :
    Ends (closeItems now places) s
      (Swept mayBegin (fun u => u.finished = true) False
        places s) := by
  induction places generalizing s with
  | nil => exact swept_nil s false
  | cons x rest ih =>
      rcases x with ⟨d, i⟩
      refine ends_sweep isLasting_finished hCoherent
        False.elim (fun e hE => ?_) fun _ t hOnward => ?_
      · refine (ends_closeItem now e.session).mono
          fun r t hEnds => ?_
        exact ⟨hEnds.1,
          fun _ => Or.inr (hMay (d, i) List.mem_cons_self e hE),
          hEnds.2, False.elim⟩
      · rw [ends_bind]
        have hMayT : ∀ x ∈ rest, ∀ f,
            t.entries[x.2]? = some f → mayBegin f.part := by
          intro x hx f hF
          rcases hOnward.kept.exists_before hF with ⟨e, hE⟩
          rw [hOnward.kept.part x.2 e f hE hF]
          exact hMay x (List.mem_cons_of_mem _ hx) e hE
        refine (ih (hOnward.coherent hCoherent) hMayT).mono
          fun r u hSwept => ?_
        cases r with
        | error => exact hSwept
        | ok => exact ⟨hSwept.onward, hSwept.done, hSwept.sure⟩

/- Initialized items can all be left, and are then finished. -/
theorem ends_exitItems
    (now : Instant)
    (places : List (ItemEntry × Nat))
    {s : TestSession}
    (hReady :
      ∀ (i : Nat) (e : ItemEntry), s.entries[i]? = some e →
        e.session.state.Coherent ∧
          e.session.state.initialized = true)
    (hPlaces : ∀ x ∈ places, ∃ e, s.entries[x.2]? = some e) :
    Ends (exitItems now places) s
      (Swept (fun _ => True) (fun u => u.finished = true)
        True places s) := by
  induction places generalizing s with
  | nil => exact swept_nil s ()
  | cons x rest ih =>
      rcases x with ⟨d, i⟩
      have hCoherent := fun i e hE => (hReady i e hE).1
      refine ends_sweep isLasting_finished hCoherent
        (fun _ => hPlaces (d, i) List.mem_cons_self)
        (fun e hE => ?_) fun _ t hOnward => ih ?_ ?_
      · have hExit :=
          Ends.and (ItemSession.exit_settles now e.session)
            (ItemSession.ends_exit_initialized
              (hReady i e hE).2 now)
        refine hExit.mono fun r t hEnds => ?_
        exact ⟨hEnds.1, fun _ => Or.inr trivial,
          fun _ => hEnds.2.2, fun _ => hEnds.2.1⟩
      · intro j f hF
        rcases hOnward.kept.exists_before hF with ⟨e, hE⟩
        have hSettles := hOnward.kept.settles j e f hE hF
        have hProgress :=
          hSettles.advances (hReady j e hE).1
        exact ⟨hProgress.coherent,
          hProgress.initialized (hReady j e hE).2⟩
      · intro x hx
        rcases hPlaces x (List.mem_cons_of_mem _ hx) with ⟨e, hE⟩
        exact hOnward.kept.exists_after hE

------------------------------------------------------------
-- Calls That Change the Standing
------------------------------------------------------------

/-
  A call leaves the session in order. Only the part that was
  under way may have ended, and only an exit that goes through
  leaves the test.
-/
structure Proceeds
    (s : TestSession)
    (leaves : Prop)
    (t : TestSession) :
    Prop where
  orderly : t.Orderly
  ended :
    ∀ q ∈ t.state.ended,
      q ∈ s.state.ended ∨ s.state.part = some q
  exited : t.state.exited = true → s.state.exited = true ∨ leaves

theorem Near.proceeds
    {s t : TestSession}
    (hNear : s.Near t)
    (hOrder : t.Orderly)
    (leaves : Prop) :
    s.Proceeds leaves t := by
  refine ⟨hOrder, ?_, ?_⟩
  · rw [hNear.ended_eq]
    exact fun _ => Or.inl
  · rw [hNear.exited_eq]
    exact Or.inl

theorem ends_initialise
    {s : TestSession}
    (hOrder : s.Orderly) :
    Ends initialise s fun _ t => s.Proceeds False t := by
  have hSelf : s.Proceeds False s :=
    (Near.refl s).proceeds hOrder False
  rw [initialise, ends_getState_bind]
  dsimp only
  rw [ends_ite]
  split
  · rw [ends_bind, ends_throw]
    exact hSelf
  · rw [ends_announced, ends_get_bind, ends_bind,
      ends_changeState]
    dsimp only
    rw [ends_bind]
    refine Ends.mono (ends_initialiseItems
      (fun q => s.state.part = some q) _ ?_)
        fun r t hSwept => ?_
    · exact InOrder.coherent hOrder
    have hCalm : s.Calm t :=
      ⟨hSwept.onward.test, hSwept.onward.standing,
        hSwept.onward.kept⟩
    have hOrderT := hCalm.orderly hOrder
    cases r with
    | error =>
        have hEvents : ∀ events,
            s.Calm { t with events := events } :=
          fun _ => ⟨hCalm.test, hCalm.standing, hCalm.kept⟩
        dsimp only
        refine (hEvents _).near.proceeds ?_ False
        exact hOrderT
    | ok =>
        have hNear := hCalm.near
        refine ⟨InOrder.initialise hOrderT
          (hSwept.all rfl rfl), ?_, ?_⟩
        · intro q hq
          exact Or.inl (hNear.ended_eq ▸ hq)
        · intro hExited
          exact Or.inl (hNear.exited_eq ▸ hExited)

theorem ends_enterTest
    {s : TestSession}
    (hOrder : s.Orderly)
    (now : Instant) :
    Ends (enterTest now) s fun _ t => s.Proceeds False t := by
  have hSelf : s.Proceeds False s :=
    (Near.refl s).proceeds hOrder False
  rw [enterTest]
  refine ends_ensureInitialized_bind (fun _ => hSelf)
    fun hInit => ?_
  rw [ends_getState_bind]
  dsimp only
  rw [ends_ite]
  split
  · rw [ends_bind, ends_refuse]
    exact hSelf
  · exact ⟨hOrder, fun _ => Or.inl, Or.inl⟩

/- Starting a stopped timer of a part. -/
theorem isRunning_modify
    (timers : List Timer)
    (i : Nat)
    (f : Timer → Timer)
    {b : Bool}
    (hRuns : ∀ t, (f t).isRunning = b) :
    (timers.modify i f).map Timer.isRunning =
      (timers.map Timer.isRunning).set i b := by
  refine List.ext_getElem? fun j => ?_
  rw [List.getElem?_map, List.getElem?_modify,
    List.getElem?_set, List.length_map, List.getElem?_map]
  by_cases hSame : i = j
  · subst hSame
    cases hTimer : timers[i]? with
    | none => simpa using hTimer
    | some t =>
        have hBound : i < timers.length :=
          (List.getElem?_eq_some_iff.mp hTimer).1
        simp [hRuns, hBound]
  · simp [hSame]

theorem ends_nextPart
    {s : TestSession}
    (hOrder : s.Orderly)
    (now : Instant) :
    Ends (nextPart now) s fun _ t => s.Proceeds False t := by
  have hSelf : s.Proceeds False s :=
    (Near.refl s).proceeds hOrder False
  rw [nextPart]
  refine ends_ensureRunning_bind (fun _ => hSelf)
    fun hInit hFinished => ?_
  rw [ends_get_bind]
  dsimp only
  rw [ends_ite]
  split
  · rw [ends_bind, ends_refuse]
    exact hSelf
  next hEnded =>
    split
    next => exact hSelf
    next =>
      rw [ends_bind, ends_changeState]
      dsimp only
      rw [ends_pure]
      have hOver : ∀ p, s.state.part = some p →
          p ∈ s.state.ended := by
        intro p hp
        simpa [hp] using hEnded
      have hNext : following s.state =
          s.state.part.elim 0 (· + 1) := by
        unfold following
        cases s.state.part <;> rfl
      have hEntered :=
        InOrder.enterPart hOrder hFinished hOver hNext
      refine ⟨?_, fun _ => Or.inl, Or.inl⟩
      unfold Orderly TestState.standing
      rw [isRunning_modify _ _ _ fun t => t.isRunning_start now]
      exact hEntered

/- Whether a part may be ended is only looked at. -/
theorem ends_mayEndPart
    {s : TestSession}
    {Q : Except Failure Bool → TestSession → Prop}
    (hAll : ∀ r, Q r s) :
    Ends mayEndPart s Q := by
  rw [mayEndPart]
  refine ends_ensureRunning_bind (fun _ => hAll _) fun _ _ => ?_
  refine ends_runningPart_bind (fun _ => hAll _) fun _ _ _ => ?_
  exact hAll _

theorem mem_insertPlace (n q : Nat) (places : List Nat) :
    q ∈ insertPlace n places ↔ q = n ∨ q ∈ places := by
  induction places with
  | nil => simp [insertPlace]
  | cons m rest ih =>
      rw [insertPlace]
      split
      · simp
      · split
        next hSame =>
          have hEq : n = m := by simpa using hSame
          simp [hEq]
        next =>
          rw [List.mem_cons, ih, List.mem_cons]
          exact or_left_comm

/- Every item of a part is finished. -/
def ClosedIn (p : Nat) (s : TestSession) : Prop :=
  ∀ (i : Nat) (e : ItemEntry), s.entries[i]? = some e →
    e.part = p → e.session.state.finished = true

/- Finished items stay finished. -/
theorem Calm.closedIn
    {s t : TestSession}
    (hCalm : s.Calm t)
    (hOrder : s.Orderly)
    {p : Nat}
    (hClosed : s.ClosedIn p) :
    t.ClosedIn p := by
  intro i f hF hPart
  rcases hCalm.kept.exists_before hF with ⟨e, hE⟩
  rw [hCalm.kept.part i e f hE hF] at hPart
  have hSettles := hCalm.kept.settles i e f hE hF
  exact (hSettles.advances
    (InOrder.coherent hOrder i e hE)).finished
      (hClosed i e hE hPart)

/- The part under way is marked once its items are finished. -/
theorem Orderly.markEnded
    {s : TestSession}
    (hOrder : s.Orderly)
    {p : Nat}
    (hPart : s.state.part = some p)
    (hNoItem : s.state.item = none)
    (hClosed : s.ClosedIn p)
    (last : Bool)
    (now : Instant) :
    Ends (markEnded p last now) s fun _ t =>
      s.Proceeds False t := by
  rw [TestSession.markEnded, ends_changeState]
  have hEnded :=
    InOrder.endPart hOrder hPart hNoItem hClosed
      (fun q => mem_insertPlace p q s.state.ended)
      (s.state.finished || last)
  refine ⟨?_, ?_, Or.inl⟩
  · unfold Orderly TestState.standing
    rw [isRunning_modify _ _ _ fun t => t.isRunning_stop now]
    exact hEnded
  · intro q hq
    rcases (mem_insertPlace p q s.state.ended).mp hq with
      rfl | hOld
    · exact Or.inr hPart
    · exact Or.inl hOld

/- The items of the part under way are closed. -/
theorem ends_closePart
    {s : TestSession}
    (hOrder : s.Orderly)
    {p : Nat}
    (hPart : s.state.part = some p)
    (now : Instant) :
    Ends (closeItems now (s.entriesIn p)) s fun r t =>
      s.Calm t ∧ (r.isOk = true → t.ClosedIn p) := by
  have hMay : ∀ x ∈ s.entriesIn p, ∀ e,
      s.entries[x.2]? = some e →
        s.state.part = some e.part := by
    intro x hx e hE
    rcases mem_entriesIn hx with ⟨hOwn, hSame⟩
    rw [hE] at hOwn
    cases hOwn
    rw [hSame]
    exact hPart
  refine (ends_closeItems (fun q => s.state.part = some q) now
    (s.entriesIn p) (InOrder.coherent hOrder) hMay).mono
      fun r t hSwept => ⟨hSwept.onward, fun hOk => ?_⟩
  intro i f hF hSame
  rcases hSwept.onward.kept.exists_before hF with ⟨e, hE⟩
  have hMem : (e, i) ∈ s.entriesIn p := by
    rw [hSwept.onward.kept.part i e f hE hF] at hSame
    rw [entriesIn, List.mem_filter]
    exact ⟨List.mem_zipIdx_iff_getElem?.mpr hE, by simpa⟩
  exact hSwept.done hOk (e, i) hMem f hF

theorem Near.trans_proceeds
    {s t u : TestSession}
    (hNear : s.Near t)
    {leaves : Prop}
    (hThen : t.Proceeds leaves u) :
    s.Proceeds leaves u := by
  refine ⟨hThen.orderly, ?_, ?_⟩
  · rw [← hNear.ended_eq, ← hNear.part_eq]
    exact hThen.ended
  · rw [← hNear.exited_eq]
    exact hThen.exited

theorem Proceeds.trans_calm
    {s t u : TestSession}
    {leaves : Prop}
    (hFirst : s.Proceeds leaves t)
    (hThen : t.Calm u) :
    s.Proceeds leaves u := by
  refine ⟨hThen.orderly hFirst.orderly, ?_, ?_⟩
  · rw [hThen.near.ended_eq]
    exact hFirst.ended
  · rw [hThen.near.exited_eq]
    exact hFirst.exited

/- With all items closed, the part is marked as ended. -/
theorem ends_markClosed
    {s : TestSession}
    (hOrder : s.Orderly)
    {p : Nat}
    (hPart : s.state.part = some p)
    (hNoItem : s.state.item = none)
    (hClosed : s.ClosedIn p)
    (now : Instant) :
    Ends (do
      switchSections [] now
      let last := p + 1 == (← get).test.parts.length
      TestSession.markEnded p last now
      touch now) s fun _ t => s.Proceeds False t := by
  refine Ends.seq (switchSections_calm [] now s) ?_ ?_
  · intro e t hCalm
    exact hCalm.near.proceeds (hCalm.orderly hOrder) False
  intro _ t hCalm
  have hMarked :=
    (hCalm.orderly hOrder).markEnded
      (hCalm.part.trans hPart) (hCalm.item.trans hNoItem)
      (hCalm.closedIn hOrder hClosed)
      (p + 1 == t.test.parts.length) now
  rw [ends_get_bind]
  refine Ends.seq hMarked ?_ ?_
  · exact fun _ _ => hCalm.near.trans_proceeds
  intro _ u hProceeds
  refine (touch_calm hProceeds.orderly now).mono
    fun _ _ hTouched => ?_
  exact hCalm.near.trans_proceeds
    (hProceeds.trans_calm hTouched)

/- Once no item is current, the part under way is ended. -/
theorem ends_endLeft
    {s : TestSession}
    (hOrder : s.Orderly)
    {p : Nat}
    (hPart : s.state.part = some p)
    (hNoItem : s.state.item = none)
    (now : Instant) :
    Ends (do
      let processed ← closeItems now ((← get).entriesIn p)
      if processed then processOutcomes
      switchSections [] now
      let last := p + 1 == (← get).test.parts.length
      TestSession.markEnded p last now
      touch now) s fun _ t => s.Proceeds False t := by
  have hMark : ∀ t, s.Calm t → t.ClosedIn p →
      Ends _ t fun _ u => s.Proceeds False u :=
    fun t hCalm hClosed =>
      (ends_markClosed (hCalm.orderly hOrder)
        (hCalm.part.trans hPart) (hCalm.item.trans hNoItem)
        hClosed now).mono fun _ _ => hCalm.near.trans_proceeds
  rw [ends_get_bind, ends_bind]
  refine (ends_closePart hOrder hPart now).mono
    fun r t hEnds => ?_
  rcases hEnds with ⟨hCalm, hClosed⟩
  have hOrderT := hCalm.orderly hOrder
  cases r with
  | error => exact hCalm.near.proceeds hOrderT False
  | ok processed =>
      dsimp only
      rw [ends_ite]
      split
      · refine Ends.seq (processOutcomes_calm t) ?_ ?_
        · intro _ u hThen
          have hAll : s.Calm u := IsTrans.trans _ _ _ hCalm hThen
          exact hAll.near.proceeds (hAll.orderly hOrder) False
        · intro _ u hThen
          exact hMark u (IsTrans.trans _ _ _ hCalm hThen)
            (hThen.closedIn hOrderT (hClosed rfl))
      · exact hMark t hCalm (hClosed rfl)

theorem ends_endPart
    {s : TestSession}
    (hOrder : s.Orderly)
    (now : Instant) :
    Ends (endPart now) s fun _ t => s.Proceeds False t := by
  have hSelf : s.Proceeds False s :=
    (Near.refl s).proceeds hOrder False
  rw [endPart, ends_bind]
  refine ends_mayEndPart fun r => ?_
  cases r with
  | error => exact hSelf
  | ok may =>
      dsimp only
      rw [ends_ite]
      split
      · refine ends_runningPart_bind (fun _ => hSelf)
          fun p hPart _ => ?_
        refine Ends.seq (touch_calm hOrder now) ?_ ?_
        · intro _ t hTouched
          exact hTouched.near.proceeds
            (hTouched.orderly hOrder) False
        intro _ t hTouched
        rw [ends_bind]
        refine (ends_leaveCurrent (hTouched.orderly hOrder)
          now).mono fun r u hLeft => ?_
        rcases hLeft with ⟨hOrderU, hNearU, hNone⟩
        have hNear := hTouched.near.trans hNearU
        cases r with
        | error => exact hNear.proceeds hOrderU False
        | ok =>
            exact (ends_endLeft hOrderU
              (hNear.part_eq.trans hPart) (hNone rfl)
              now).mono fun _ _ => hNear.trans_proceeds
      · rw [ends_bind, ends_refuse]
        exact hSelf

/- With all of its items finished, the test is left. -/
theorem orderly_left
    {s : TestSession}
    (hCount : s.state.partTimers.length = s.test.parts.length)
    (hCoherent :
      ∀ (i : Nat) (e : ItemEntry), s.entries[i]? = some e →
        e.session.state.Coherent)
    (hClosed :
      ∀ (i : Nat) (e : ItemEntry), s.entries[i]? = some e →
        e.session.state.finished = true)
    (now : Instant) :
    InOrder s.test.parts.length
      { s.state.standing with
        part := none
        item := none
        finished := true
        exited := true
        running := (s.state.partTimers.map fun t =>
          t.stop now).map Timer.isRunning } s.entries := by
  have hStopped :
      (s.state.partTimers.map fun t => t.stop now).map
          Timer.isRunning =
        s.state.standing.running.map fun _ => false := by
    simp [TestState.standing, Function.comp_def,
      Timer.isRunning_stop]
  rw [hStopped]
  exact InOrder.leaveTest
    (by simpa [TestState.standing] using hCount)
    hCoherent hClosed

/- A test can be left at any time, once. -/
theorem ends_exit
    {s : TestSession}
    (hOrder : s.Orderly)
    (now : Instant) :
    Ends (exit now) s fun r t =>
      s.Proceeds (r.isOk = true) t := by
  have hSelf : ∀ leaves, s.Proceeds leaves s :=
    (Near.refl s).proceeds hOrder
  rw [exit]
  refine ends_ensureInitialized_bind (fun _ => hSelf _)
    fun hInit => ?_
  rw [ends_getState_bind]
  dsimp only
  rw [ends_ite]
  split
  · rw [ends_bind, ends_refuse]
    exact hSelf _
  · refine Ends.seq (touch_calm hOrder now) ?_ ?_
    · intro _ t hTouched
      exact hTouched.near.proceeds (hTouched.orderly hOrder) _
    intro _ t hTouched
    have hOrderT := hTouched.orderly hOrder
    rw [ends_get_bind, ends_bind]
    have hReady :
        ∀ (i : Nat) (e : ItemEntry), t.entries[i]? = some e →
          e.session.state.Coherent ∧
            e.session.state.initialized = true :=
      fun i e hE =>
        ⟨InOrder.coherent hOrderT i e hE,
          InOrder.initialized hOrderT
            (hTouched.initialized.trans hInit) i e hE⟩
    refine (ends_exitItems now t.entries.zipIdx hReady
      fun x hx => ⟨x.1, List.mem_zipIdx_iff_getElem?.mp hx⟩).mono
        fun r u hSwept => ?_
    cases r with
    | error => cases hSwept.sure trivial
    | ok =>
        have hCount := InOrder.count hOrderT
        rw [← hSwept.onward.standing,
          ← hSwept.onward.test] at hCount
        have hLeft :=
          orderly_left (by simpa [TestState.standing] using hCount)
            (hSwept.onward.coherent (InOrder.coherent hOrderT))
            (hSwept.all rfl rfl) now
        refine ⟨hLeft, fun q hq => Or.inl ?_,
          fun _ => Or.inr rfl⟩
        have hEnded : u.state.ended = s.state.ended :=
          hSwept.onward.ended.trans hTouched.ended
        exact hEnded ▸ hq

end TestSession

end Assessment
