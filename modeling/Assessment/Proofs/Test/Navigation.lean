import Assessment.Proofs.Test.Parts

/-
  Moving about in a part of a test.

  As long as a part is the current one, a call either shows
  the next item of the part, or it stays with the current
  item or leaves it. Where items are closed when they are
  left, an item that is not current any more is finished.

  Main declarations:
    * `TestSession.placesIn`, the places of a part in a row
    * `TestSession.Stays` and `TestSession.Turns`
    * `TestCall.shows`, the item that a call shows
    * `TestCall.stays_or_turns`, the law of one call
-/

------------------------------------------------------------
-- Items That Have Been Opened
------------------------------------------------------------

namespace Assessment

open Stateful

namespace ItemState

/- The item is open, or it has been. -/
def IsOpened (s : ItemState) : Prop :=
  Phase.interacting.rank ≤ s.phase.rank

theorem Progress.isOpened
    {s t : ItemState}
    (hProgress : s.Progress t)
    (hOpened : s.IsOpened) :
    t.IsOpened := by
  unfold IsOpened at hOpened ⊢
  rcases hProgress.phase with hLater | ⟨_, hAgain⟩
  · exact Nat.le_trans hOpened hLater
  · exact Nat.le_of_eq (by rw [hAgain])

theorem isOpened_of_phase
    {s : ItemState}
    (hPhase : s.phase = .interacting) :
    s.IsOpened := by
  unfold IsOpened
  exact Nat.le_of_eq (by rw [hPhase])

end ItemState

namespace TestSession

open ItemSession

/- An item that is closed when it is left is finished then. -/
theorem ends_leaveItem_closing
    (now : Instant)
    {s : ItemSession}
    (hOpened : s.state.IsOpened) :
    Ends (leaveItem false now) s fun r t =>
      r.isOk = true → t.state.finished = true := by
  have hEnd :
      Ends
        (if s.state.responded = true then finish now
          else skip now) s fun r t =>
        r.isOk = true → t.state.finished = true := by
    rw [ends_ite]
    split
    · exact ends_finish_finished now s
    · exact ends_skip_finished now s
  simp only [leaveItem, ends_bind, ItemSession.ends_getState]
  split
  next hKeeps => cases hKeeps
  next => exact hEnd
  next => exact hEnd
  next hNotOpen hNotAside =>
    intro _
    rw [← ItemState.phase_eq_finished_iff]
    unfold ItemState.IsOpened at hOpened
    cases hPhase : s.state.phase with
    | notAttempted => rw [hPhase] at hOpened; cases hOpened
    | initialized =>
        rw [hPhase] at hOpened
        exact absurd hOpened (by decide)
    | interacting => exact absurd rfl (hNotOpen hPhase)
    | suspended => exact absurd rfl (hNotAside hPhase)
    | finished => exact hPhase

/- Unless it is finished, an item that is presented opens. -/
theorem ends_presentItem_open
    (ref : String)
    (now : Instant)
    {s : ItemSession}
    (hCoherent : s.state.Coherent)
    (hInit : s.state.initialized = true) :
    Ends (presentItem ref now) s fun r t =>
      (r.isOk = true ↔ s.state.phase ≠ .finished) ∧
        (r.isOk = true → t.state.phase = .interacting) := by
  simp only [presentItem, ends_bind,
    ItemSession.ends_getState]
  split
  next hPhase =>
    have hNew := hPhase
    rw [ItemState.phase_eq_initialized_iff] at hNew
    simp only [ends_enter, hNew]
    refine ⟨by simp [hPhase, Except.isOk, Except.toBool], ?_⟩
    intro _
    rw [ItemState.phase_eq_interacting_iff]
    simp [ItemState.entered, hNew]
  next hPhase =>
    have hAside := hPhase
    rw [ItemState.phase_eq_suspended_iff] at hAside
    have hEntry := (hCoherent.suspended hAside.2).1
    simp only [ends_resume, hPhase, hInit]
    refine ⟨by simp [Except.isOk, Except.toBool], ?_⟩
    intro _
    rw [ItemState.phase_eq_interacting_iff]
    simp [ItemState.takenUp, hAside, hEntry]
  next hPhase =>
    rw [ends_pure]
    refine ⟨by simp [hPhase, Except.isOk, Except.toBool], ?_⟩
    exact fun _ => hPhase
  next hNotNew hNotAside hNotOpen =>
    rw [ItemSession.ends_refuse]
    refine ⟨?_, fun hOk => by cases hOk⟩
    have hFinished : s.state.phase = .finished := by
      unfold ItemState.phase at hNotNew hNotAside hNotOpen ⊢
      grind
    simp [hFinished, Except.isOk, Except.toBool]

------------------------------------------------------------
-- Places
------------------------------------------------------------

/- The places of the items of a part, in rising order. -/
def placesIn (s : TestSession) (p : Nat) : List Nat :=
  (s.entriesIn p).map Prod.snd

/- Places depend on the parts of the items alone. -/
theorem placesIn_eq (s : TestSession) (p : Nat) :
    s.placesIn p =
      ((s.entries.map ItemEntry.part).zipIdx.filter fun x =>
        x.1 == p).map Prod.snd := by
  rw [placesIn, entriesIn, List.zipIdx_map, List.filter_map,
    List.map_map]
  rfl

/- The next place is the first one after the current item. -/
theorem nextPlace?_eq (s : TestSession) (p : Nat) :
    s.nextPlace? p =
      (s.placesIn p).find? fun i =>
        s.state.item.all fun c => decide (c < i) := by
  rw [nextPlace?, placesIn, List.find?_map]
  congr 2
  funext x
  cases s.state.item <;> rfl

/- Without a current item, it is the first place of all. -/
theorem nextPlace?_of_none
    {s : TestSession}
    (hNone : s.state.item = none)
    (p : Nat) :
    s.nextPlace? p = (s.placesIn p).head? := by
  rw [nextPlace?_eq, hNone]
  cases s.placesIn p <;> rfl

theorem lt_of_nextPlace?
    {s : TestSession}
    {p i j : Nat}
    (hNext : s.nextPlace? p = some j)
    (hItem : s.state.item = some i) :
    i < j := by
  rw [nextPlace?_eq, hItem] at hNext
  simpa using List.find?_some hNext

------------------------------------------------------------
-- Staying in a Part
------------------------------------------------------------

/- The part is the same, and the items have gone on. -/
structure Going (s t : TestSession) : Prop where
  test : t.test = s.test
  part : t.state.part = s.state.part
  initialized :
    s.state.initialized = true → t.state.initialized = true
  parts :
    t.entries.map ItemEntry.part = s.entries.map ItemEntry.part
  progress :
    ∀ (i : Nat) (e f : ItemEntry), s.entries[i]? = some e →
      t.entries[i]? = some f →
        e.session.state.Progress f.session.state

namespace Going

variable {s t u : TestSession}

theorem placesIn
    (hGoing : s.Going t)
    (p : Nat) :
    t.placesIn p = s.placesIn p := by
  rw [placesIn_eq, placesIn_eq, hGoing.parts]

theorem exists_after
    (hGoing : s.Going t)
    {i : Nat}
    {e : ItemEntry}
    (hE : s.entries[i]? = some e) :
    ∃ f, t.entries[i]? = some f := by
  have hLength := congrArg List.length hGoing.parts
  rw [List.length_map, List.length_map] at hLength
  have hBound := (List.getElem?_eq_some_iff.mp hE).1
  rw [← hLength] at hBound
  exact ⟨t.entries[i], List.getElem?_eq_getElem hBound⟩

theorem trans
    (hFirst : s.Going t)
    (hThen : t.Going u) :
    s.Going u := by
  refine ⟨hThen.test.trans hFirst.test,
    hThen.part.trans hFirst.part,
    hThen.initialized ∘ hFirst.initialized,
    hThen.parts.trans hFirst.parts, ?_⟩
  intro i e g hE hG
  rcases hFirst.exists_after hE with ⟨f, hF⟩
  exact (hFirst.progress i e f hE hF).trans
    (hThen.progress i f g hF hG)

/- Nothing but the standing has changed. -/
theorem of_entries
    (hCoherent :
      ∀ (i : Nat) (e : ItemEntry), s.entries[i]? = some e →
        e.session.state.Coherent)
    (hTest : t.test = s.test)
    (hPart : t.state.part = s.state.part)
    (hInit : s.state.initialized = true →
      t.state.initialized = true)
    (hEntries : t.entries = s.entries) :
    s.Going t := by
  refine ⟨hTest, hPart, hInit, by rw [hEntries], ?_⟩
  intro i e f hE hF
  rw [hEntries, hE] at hF
  cases hF
  exact Std.Refl.refl (r := ItemState.Advances) _
    (hCoherent i e hE)

end Going

/-
  No other item has been shown, and where items are closed
  when they are left, an item that was left is finished.
-/
structure Stays (closes : Prop) (s t : TestSession) : Prop
    extends Going s t where
  item : t.state.item = s.state.item ∨ t.state.item = none
  closed :
    closes → t.state.item = none →
      ∀ (i : Nat) (e f : ItemEntry), s.state.item = some i →
        s.entries[i]? = some e → t.entries[i]? = some f →
          e.session.state.IsOpened →
            f.session.state.finished = true

namespace Stays

variable {closes : Prop}
variable {s t u : TestSession}

theorem trans
    (hFirst : s.Stays closes t)
    (hThen : t.Stays closes u) :
    s.Stays closes u := by
  refine ⟨hFirst.toGoing.trans hThen.toGoing, ?_, ?_⟩
  · rcases hThen.item with hSame | hNone
    · rw [hSame]
      exact hFirst.item
    · exact Or.inr hNone
  · intro hCloses hNone i e g hItem hE hG hOpened
    rcases hFirst.exists_after hE with ⟨f, hF⟩
    have hMid := hFirst.progress i e f hE hF
    have hEnd := hThen.progress i f g hF hG
    rcases hFirst.item with hSame | hLeft
    · exact hThen.closed hCloses hNone i f g
        (hSame.trans hItem) hF hG (hMid.isOpened hOpened)
    · exact hEnd.finished
        (hFirst.closed hCloses hLeft i e f hItem hE hF hOpened)

/- The current item has stayed the same. -/
theorem of_item
    (hGoing : s.Going t)
    (hItem : t.state.item = s.state.item) :
    s.Stays closes t := by
  refine ⟨hGoing, Or.inl hItem, ?_⟩
  intro _ hNone i e f hCurrent
  rw [hItem, hCurrent] at hNone
  cases hNone

theorem refl
    (closes : Prop)
    (hOrder : s.Orderly) :
    s.Stays closes s :=
  of_item (.of_entries (InOrder.coherent hOrder) rfl rfl id rfl)
    rfl

end Stays

/- Where items go on in place, a session stays. -/
theorem Onward.going
    {mayBegin : Nat → Prop}
    {s t : TestSession}
    (hOnward : s.Onward mayBegin t)
    (hOrder : s.Orderly) :
    s.Going t := by
  refine ⟨hOnward.test, hOnward.part,
    fun hInit => hOnward.initialized.trans hInit, ?_, ?_⟩
  · refine List.ext_getElem? fun i => ?_
    rw [List.getElem?_map, List.getElem?_map]
    cases hE : s.entries[i]? with
    | none =>
        have hBound := List.getElem?_eq_none_iff.mp hE
        rw [← hOnward.kept.length] at hBound
        rw [List.getElem?_eq_none hBound]
    | some e =>
        rcases hOnward.kept.exists_after hE with ⟨f, hF⟩
        rw [hF, Option.map_some, Option.map_some,
          hOnward.kept.part i e f hE hF]
  · intro i e f hE hF
    exact (hOnward.kept.settles i e f hE hF).advances
      (InOrder.coherent hOrder i e hE)

theorem Onward.stays
    {mayBegin : Nat → Prop}
    {s t : TestSession}
    (hOnward : s.Onward mayBegin t)
    (hOrder : s.Orderly)
    (closes : Prop) :
    s.Stays closes t :=
  .of_item (hOnward.going hOrder) hOnward.item

------------------------------------------------------------
-- Leaving and Showing
------------------------------------------------------------

/- Items of a part are closed when they are left. -/
def ClosesItems (t : Test) (p : Nat) : Prop :=
  (t.parts[p]?).any keepsOpen = false

/- The current item is left, and closed where items are. -/
theorem leaveCurrent_stays
    {closes : Prop}
    {s : TestSession}
    (hOrder : s.Orderly)
    {p : Nat}
    (hPart : s.state.part = some p)
    (hCloses : closes → ClosesItems s.test p)
    (now : Instant) :
    Ends (leaveCurrent now) s fun _ t =>
      s.Stays closes t := by
  rw [leaveCurrent, ends_get_bind]
  split
  next i hItem =>
    rcases InOrder.current hOrder i hItem with
      ⟨e, hE, hOwn, _⟩
    have hSame : some e.part = some p :=
      hOwn.symm.trans hPart
    have hKeeps :
        ((s.current?.bind fun e => s.test.parts[e.part]?).any
          keepsOpen) = (s.test.parts[p]?).any keepsOpen := by
      rw [current?, show s.state.item = some i from hItem]
      simp only [Option.bind_some, hE, Option.some.inj hSame]
    dsimp only
    rw [hKeeps, ends_bind, ends_onItem, hE]
    have hLeft := ends_leaveItem
      ((s.test.parts[p]?).any keepsOpen) now e.session
    have hClosed :
        Ends (leaveItem ((s.test.parts[p]?).any keepsOpen) now)
          e.session fun r t =>
            closes → e.session.state.IsOpened →
              r.isOk = true → t.state.finished = true := by
      intro hC hOpened
      rw [hCloses hC]
      exact ends_leaveItem_closing now hOpened
    refine (hLeft.and hClosed).mono fun r session hBoth => ?_
    have hCalm : s.Calm (putSession s i e session) :=
      putSession_onward hE hBoth.1.1 fun _ => Or.inr hOwn
    have hStays := Onward.stays hCalm hOrder closes
    cases r with
    | error => exact hStays
    | ok =>
        refine ⟨⟨rfl, rfl, id, hStays.parts, hStays.progress⟩,
          Or.inr rfl, ?_⟩
        intro hC _ j d f hJ hD hF hOpened
        rw [show s.state.item = some i from hItem] at hJ
        cases hJ
        rw [hE] at hD
        cases hD
        rcases getElem?_set_cases hF with ⟨_, rfl⟩ | ⟨hNe, _⟩
        · exact hBoth.2 hC hOpened rfl
        · exact absurd rfl hNe
  next => exact Stays.refl closes hOrder

/- An item that is put back has gone on in its place. -/
theorem putSession_going
    {s : TestSession}
    (hOrder : s.Orderly)
    {i : Nat}
    {e : ItemEntry}
    (hE : s.entries[i]? = some e)
    {session : ItemSession}
    (hAdvances : e.session.Advances session) :
    s.Going (putSession s i e session) := by
  have hBound := (List.getElem?_eq_some_iff.mp hE).1
  refine ⟨rfl, rfl, id, ?_, ?_⟩
  · refine List.ext_getElem? fun j => ?_
    rw [List.getElem?_map, List.getElem?_map]
    by_cases hSame : i = j
    · subst hSame
      rw [putSession, List.getElem?_set_self hBound, hE]
      rfl
    · rw [putSession, List.getElem?_set_ne hSame]
  · intro j d f hD hF
    have hCoherent := InOrder.coherent hOrder j d hD
    rcases getElem?_set_cases hF with ⟨rfl, rfl⟩ | ⟨_, hSame⟩
    · rw [hE] at hD
      cases hD
      exact hAdvances hCoherent
    · rw [hD] at hSame
      cases hSame
      exact Std.Refl.refl (r := ItemState.Advances) _ hCoherent

/- An item that is not finished becomes the current one. -/
theorem ends_present_open
    {s : TestSession}
    (hOrder : s.Orderly)
    (hInit : s.state.initialized = true)
    {i : Nat}
    {e : ItemEntry}
    (hE : s.entries[i]? = some e)
    (now : Instant) :
    Ends (present i now) s fun r t =>
      s.Going t ∧
        (r.isOk = true ↔ e.session.state.phase ≠ .finished) ∧
        (r.isOk = true → t.state.item = some i ∧
          ∃ f, t.entries[i]? = some f ∧
            f.session.state.IsOpened) ∧
        (r.isOk = false → t.state.item = s.state.item) := by
  have hBound := (List.getElem?_eq_some_iff.mp hE).1
  have hCoherent := InOrder.coherent hOrder i e hE
  have hReady := InOrder.initialized hOrder hInit i e hE
  have hSwitched :
      Ends (switchSections e.sections now) s fun r t =>
        r = .ok () ∧ s.Calm t ∧ t.entries = s.entries ∧
          t.state.item = s.state.item :=
    ⟨rfl, switchSections_calm e.sections now s, rfl, rfl⟩
  rw [present, ends_get_bind, hE]
  dsimp only
  rw [ends_bind]
  refine hSwitched.mono fun r t hSwitch => ?_
  rcases hSwitch with ⟨rfl, hCalm, hEntries, hItem⟩
  have hE' : t.entries[i]? = some e := hEntries ▸ hE
  have hOrder' := hCalm.orderly hOrder
  dsimp only
  rw [ends_bind, ends_onItem, hE']
  refine ((ends_presentItem e.ref.identifier now hCoherent).and
    (ends_presentItem_open e.ref.identifier now hCoherent
      hReady)).mono fun r session hBoth => ?_
  rcases hBoth with ⟨⟨hAdvances, _⟩, hOk, hOpen⟩
  have hGoing :=
    (Onward.going hCalm hOrder).trans
      (putSession_going hOrder' hE' hAdvances)
  cases r with
  | error =>
      exact ⟨hGoing, hOk, fun h => (by cases h), fun _ => hItem⟩
  | ok =>
      have hPut : (t.entries.set i
          { e with session := { session with events := [] } })[i]?
            = some _ :=
        List.getElem?_set_self (hEntries ▸ hBound)
      refine ⟨⟨hGoing.test, hGoing.part, hGoing.initialized,
        hGoing.parts, hGoing.progress⟩, hOk, ?_,
        fun h => by cases h⟩
      exact fun _ => ⟨rfl, _, hPut,
        ItemState.isOpened_of_phase (hOpen rfl)⟩

/- The next item of the part has been shown. -/
structure Turns
    (closes : Prop)
    (p j : Nat)
    (s t : TestSession) :
    Prop
    extends Going s t where
  next : s.nextPlace? p = some j
  item : t.state.item = some j
  opened :
    ∃ f, t.entries[j]? = some f ∧ f.session.state.IsOpened
  fresh :
    ∀ e, s.entries[j]? = some e →
      e.session.state.finished = false
  closed :
    closes →
      ∀ (i : Nat) (e f : ItemEntry), s.state.item = some i →
        s.entries[i]? = some e → t.entries[i]? = some f →
          e.session.state.IsOpened →
            f.session.state.finished = true

/- A place that is found still belongs to an item later on. -/
theorem exists_entry_of_nextPlace?
    {s t : TestSession}
    (hGoing : s.Going t)
    {p j : Nat}
    (hNext : s.nextPlace? p = some j) :
    ∃ e f, s.entries[j]? = some e ∧ t.entries[j]? = some f := by
  rcases exists_of_nextPlace? hNext with ⟨e, hE, _⟩
  rcases hGoing.exists_after hE with ⟨f, hF⟩
  exact ⟨e, f, hE, hF⟩

/- Once the current item has been left, the next is shown. -/
theorem ends_present_next
    {closes : Prop}
    {s t : TestSession}
    (hStays : s.Stays closes t)
    (hOrder : t.Orderly)
    (hInit : t.state.initialized = true)
    (hNone : t.state.item = none)
    {p j : Nat}
    (hNext : s.nextPlace? p = some j)
    (now : Instant) :
    Ends (do
      present j now
      return (← get).entries[j]?) t fun r u =>
        match r with
        | .ok (some _) => s.Turns closes p j u
        | .ok none => False
        | .error _ => s.Stays closes u := by
  rcases exists_entry_of_nextPlace? hStays.toGoing hNext with
    ⟨e, f, hE, hF⟩
  rw [ends_bind]
  refine (ends_present_open hOrder hInit hF now).mono
    fun r u hShown => ?_
  rcases hShown with ⟨hGoing, hOk, hOpen, hFailed⟩
  have hAll := hStays.toGoing.trans hGoing
  cases r with
  | error =>
      have hSame : u.state.item = t.state.item := hFailed rfl
      exact hStays.trans (.of_item hGoing hSame)
  | ok =>
      rcases hOpen rfl with ⟨hItem, g, hG, hOpened⟩
      dsimp only
      rw [ends_get_bind, ends_pure, hG]
      refine ⟨hAll, hNext, hItem, ⟨g, hG, hOpened⟩, ?_, ?_⟩
      · intro d hD
        rw [hE] at hD
        cases hD
        have hPhase := hOk.mp rfl
        rw [ne_eq, ItemState.phase_eq_finished_iff] at hPhase
        have hLasting := (hStays.progress j e f hE hF).finished
        cases hDone : e.session.state.finished with
        | false => rfl
        | true => exact absurd (hLasting hDone) hPhase
      · intro hC i d k hCurrent hD hK hOpened
        rcases hStays.exists_after hD with ⟨m, hM⟩
        exact (hGoing.progress i m k hM hK).finished
          (hStays.closed hC hNone i d m hCurrent hD hM hOpened)

/- Moving on shows the next item, if there is one. -/
theorem ends_nextItem_turn
    {closes : Prop}
    {s : TestSession}
    (hOrder : s.Orderly)
    (hInit : s.state.initialized = true)
    {p : Nat}
    (hPart : s.state.part = some p)
    (hCloses : closes → ClosesItems s.test p)
    (now : Instant) :
    Ends (nextItem now) s fun r t =>
      match r with
      | .ok (some _) => ∃ j, s.Turns closes p j t
      | .ok none =>
          s.Stays closes t ∧ t.state.item = none ∧
            s.nextPlace? p = none
      | .error _ => s.Stays closes t := by
  have hSelf := Stays.refl closes hOrder
  rw [nextItem]
  refine ends_ensureRunning_bind (fun _ => hSelf) fun _ _ => ?_
  refine ends_runningPart_bind (fun _ => hSelf)
    fun q hQ _ => ?_
  have hSamePart : q = p := by
    rw [hPart] at hQ
    exact (Option.some.inj hQ).symm
  subst hSamePart
  rw [ends_bind]
  refine (touch_calm hOrder now).mono fun r t hTouched => ?_
  have hOrderT := hTouched.orderly hOrder
  have hStaysT := Onward.stays hTouched hOrder closes
  have hNextT : t.nextPlace? q = s.nextPlace? q := by
    rw [nextPlace?_eq, nextPlace?_eq, hStaysT.placesIn,
      Onward.item hTouched]
  cases r with
  | error => exact hStaysT
  | ok =>
      dsimp only
      rw [ends_get_bind, hNextT, ends_bind]
      have hClosesT : closes → ClosesItems t.test q := by
        rw [hTouched.test]
        exact hCloses
      refine ((ends_leaveCurrent hOrderT now).and
        (leaveCurrent_stays hOrderT (hStaysT.part.trans hPart)
          hClosesT now)).mono fun r u hLeft => ?_
      rcases hLeft with ⟨⟨hOrderU, _, hNone⟩, hStaysU⟩
      have hStays := hStaysT.trans hStaysU
      cases r with
      | error => exact hStays
      | ok =>
          dsimp only
          split
          next j hNext =>
            refine (ends_present_next hStays hOrderU
              (hStays.initialized hInit) (hNone rfl) hNext
              now).mono fun r v hShown => ?_
            rcases r with _ | _ | _
            · exact hShown
            · exact hShown.elim
            · exact ⟨j, hShown⟩
          next hNext =>
            rw [ends_bind]
            refine ⟨hStays.trans (.of_item
              (.of_entries (InOrder.coherent hOrderU) rfl rfl id
                rfl) rfl),
              hNone rfl, hNext⟩

------------------------------------------------------------
-- Other Calls
------------------------------------------------------------

/- Items of a part are shown in one order only. -/
def IsLinear (t : Test) (p : Nat) : Prop :=
  ((t.parts[p]?).any fun q => q.navigation == .nonlinear) =
    false

/- In a linear part, no item can be selected. -/
theorem ends_selectItem_linear
    {s : TestSession}
    {p : Nat}
    (hPart : s.state.part = some p)
    (hLinear : IsLinear s.test p)
    (ref : String)
    (occurrence : Nat)
    (now : Instant) :
    Ends (selectItem ref occurrence now) s fun _ t =>
      t = s := by
  rw [selectItem]
  refine ends_ensureRunning_bind (fun _ => rfl) fun _ _ => ?_
  refine ends_runningPart_bind (fun _ => rfl) fun _ _ _ => ?_
  have hCurrent : (s.currentPart?.any fun q =>
      q.navigation == .nonlinear) = false := by
    rw [currentPart?, hPart]
    exact hLinear
  rw [ends_get_bind]
  dsimp only
  rw [ends_ite, if_neg (by simp [hCurrent]), ends_bind,
    ends_refuse]

/- The test is over, and there is no part any more. -/
structure IsLeft (s : TestSession) : Prop where
  initialized : s.state.initialized = true
  finished : s.state.finished = true
  part : s.state.part = none

/- A test is left for good, or nothing happens. -/
theorem ends_exit_left
    {s : TestSession}
    (hOrder : s.Orderly)
    (now : Instant) :
    Ends (exit now) s fun _ t => t = s ∨ t.IsLeft := by
  rw [exit]
  refine ends_ensureInitialized_bind (fun _ => Or.inl rfl)
    fun hInit => ?_
  rw [ends_getState_bind]
  dsimp only
  rw [ends_ite]
  split
  · rw [ends_bind, ends_refuse]
    exact Or.inl rfl
  · have hTouch :
        Ends (touch now) s fun r t => r = .ok () ∧ s.Calm t := by
      refine Ends.and ?_ (touch_calm hOrder now)
      have hItem := InOrder.current hOrder
      rw [touch, ends_bind, ends_changeState]
      dsimp only
      rw [ends_getState_bind]
      split
      next i hCurrent =>
        rcases hItem i hCurrent with ⟨e, hE, _⟩
        rw [ends_bind, ends_onItem, show _ = some e from hE]
        rfl
      next => rfl
    rw [ends_bind]
    refine hTouch.mono fun r t hTouched => ?_
    rcases hTouched with ⟨rfl, hCalm⟩
    dsimp only
    have hOrderT := hCalm.orderly hOrder
    have hInitT := hCalm.initialized.trans hInit
    have hReady :
        ∀ (i : Nat) (e : ItemEntry), t.entries[i]? = some e →
          e.session.state.Coherent ∧
            e.session.state.initialized = true :=
      fun i e hE =>
        ⟨InOrder.coherent hOrderT i e hE,
          InOrder.initialized hOrderT hInitT i e hE⟩
    rw [ends_get_bind, ends_bind]
    refine (ends_exitItems now t.entries.zipIdx hReady
      fun x hx => ⟨x.1, List.mem_zipIdx_iff_getElem?.mp hx⟩).mono
        fun r u hSwept => ?_
    cases r with
    | error => cases hSwept.sure trivial
    | ok =>
        exact Or.inr ⟨hSwept.onward.initialized.trans hInitT,
          rfl, rfl⟩

/- Without a current item, closing a part moves no item. -/
theorem ends_markClosed_entries
    {s : TestSession}
    (hNone : s.state.item = none)
    (p : Nat)
    (now : Instant) :
    Ends (do
      switchSections [] now
      let last := p + 1 == (← get).test.parts.length
      TestSession.markEnded p last now
      touch now) s fun _ t =>
        t.test = s.test ∧ t.state.part = s.state.part ∧
          t.state.initialized = s.state.initialized ∧
          t.state.item = s.state.item ∧
          t.entries = s.entries := by
  simp [switchSections, TestSession.markEnded, touch, hNone]

/- Once no item is current, the rest of a part shows none. -/
theorem ends_endLeft_stays
    {s : TestSession}
    (hOrder : s.Orderly)
    {p : Nat}
    (hPart : s.state.part = some p)
    (hNone : s.state.item = none)
    (closes : Prop)
    (now : Instant) :
    Ends (do
      let processed ← closeItems now ((← get).entriesIn p)
      if processed then processOutcomes
      switchSections [] now
      let last := p + 1 == (← get).test.parts.length
      TestSession.markEnded p last now
      touch now) s fun _ t => s.Stays closes t := by
  have hStays : ∀ t, s.Calm t → s.Stays closes t :=
    fun _ hCalm => Onward.stays hCalm hOrder closes
  have hMark : ∀ t, s.Calm t →
      Ends (do
        switchSections [] now
        let last := p + 1 == (← get).test.parts.length
        TestSession.markEnded p last now
        touch now) t fun _ u => s.Stays closes u := by
    intro t hCalm
    refine (ends_markClosed_entries
      ((Onward.item hCalm).trans hNone) p now).mono
        fun _ u hMarked => ?_
    rcases hMarked with ⟨hTest, hSame, hInit, hItem, hEntries⟩
    exact (hStays t hCalm).trans (.of_item
      (.of_entries (InOrder.coherent (hCalm.orderly hOrder))
        hTest hSame (fun h => hInit.trans h) hEntries) hItem)
  rw [ends_get_bind, ends_bind]
  refine (ends_closePart hOrder hPart now).mono
    fun r t hClosed => ?_
  have hCalm := hClosed.1
  cases r with
  | error => exact hStays t hCalm
  | ok processed =>
      dsimp only
      rw [ends_ite]
      split
      · refine Ends.seq (processOutcomes_calm t) ?_ ?_
        · exact fun _ u hThen =>
            hStays u (IsTrans.trans _ _ _ hCalm hThen)
        · exact fun _ u hThen =>
            hMark u (IsTrans.trans _ _ _ hCalm hThen)
      · exact hMark t hCalm

/- Ending a part leaves its current item and shows no other. -/
theorem ends_endPart_stays
    {closes : Prop}
    {s : TestSession}
    (hOrder : s.Orderly)
    {p : Nat}
    (hPart : s.state.part = some p)
    (hCloses : closes → ClosesItems s.test p)
    (now : Instant) :
    Ends (endPart now) s fun _ t => s.Stays closes t := by
  have hSelf := Stays.refl closes hOrder
  rw [endPart, ends_bind]
  refine ends_mayEndPart fun r => ?_
  cases r with
  | error => exact hSelf
  | ok may =>
      dsimp only
      rw [ends_ite]
      split
      · refine ends_runningPart_bind (fun _ => hSelf)
          fun q hQ _ => ?_
        have hSamePart : q = p := by
          rw [hPart] at hQ
          exact (Option.some.inj hQ).symm
        subst hSamePart
        refine Ends.seq (touch_calm hOrder now) ?_ ?_
        · exact fun _ t hTouched =>
            Onward.stays hTouched hOrder closes
        intro _ t hTouched
        have hOrderT := hTouched.orderly hOrder
        have hStaysT := Onward.stays hTouched hOrder closes
        have hPartT := hStaysT.part.trans hPart
        have hClosesT : closes → ClosesItems t.test q := by
          rw [hTouched.test]
          exact hCloses
        rw [ends_bind]
        refine ((ends_leaveCurrent hOrderT now).and
          (leaveCurrent_stays hOrderT hPartT hClosesT
            now)).mono fun r u hLeft => ?_
        rcases hLeft with ⟨⟨hOrderU, _, hNone⟩, hStaysU⟩
        have hStays := hStaysT.trans hStaysU
        cases r with
        | error => exact hStays
        | ok =>
            exact (ends_endLeft_stays hOrderU
              (hStays.part.trans hPart) (hNone rfl) closes
              now).mono fun _ _ => hStays.trans
      · rw [ends_bind, ends_refuse]
        exact hSelf

------------------------------------------------------------
-- Calls
------------------------------------------------------------

end TestSession

/- The place of the item that a call shows, if it shows one. -/
def TestCall.shows (c : TestCall) (s : TestSession) :
    Option Nat :=
  match c with
  | .nextItem now =>
      match TestSession.run (TestSession.nextItem now) s with
      | (.ok (some _), t) => t.state.item
      | _ => none
  | _ => none

namespace TestSession

theorem after_nextItem (s : TestSession) (now : Instant) :
    s.after [.nextItem now] = (run (nextItem now) s).2 :=
  run_discard_snd (nextItem now) s

theorem Calm.isLeft
    {s t : TestSession}
    (hCalm : s.Calm t)
    (hLeft : s.IsLeft) :
    t.IsLeft :=
  ⟨(Onward.initialized hCalm).trans hLeft.initialized,
    hCalm.near.finished_eq.trans hLeft.finished,
    (Onward.part hCalm).trans hLeft.part⟩

/- A session is initialized once. -/
theorem ends_initialise_again
    {s : TestSession}
    {Q : Except Failure Unit → TestSession → Prop}
    (hInit : s.state.initialized = true)
    (hRefused : ∀ e, Q (.error e) s) :
    Ends initialise s Q := by
  rw [initialise, ends_getState_bind]
  dsimp only
  rw [ends_ite, if_pos hInit, ends_bind, ends_throw]
  exact hRefused _

/- Once the test has been left, no call takes it up again. -/
theorem IsLeft.after
    {s : TestSession}
    (hLeft : s.IsLeft)
    (hOrder : s.Orderly)
    (c : TestCall) :
    (s.after [c]).IsLeft := by
  have hOver : s.state.finished ≠ false := by
    rw [hLeft.finished]
    decide
  change Ends c.action s fun _ t => t.IsLeft
  cases c with
  | initialise =>
      exact ends_initialise_again hLeft.initialized
        fun _ => hLeft
  | enterTest now =>
      change Ends (enterTest now) s _
      rw [enterTest]
      refine ends_ensureInitialized_bind (fun _ => hLeft)
        fun _ => ?_
      rw [ends_getState_bind]
      dsimp only
      rw [ends_ite]
      split
      · rw [ends_bind, ends_refuse]
        exact hLeft
      · exact ⟨hLeft.initialized, hLeft.finished, hLeft.part⟩
  | nextPart now =>
      exact ends_discard.mpr
        (ends_ensureRunning_bind (fun _ => hLeft)
          fun _ hNot => absurd hNot hOver)
  | nextItem now =>
      exact ends_discard.mpr
        (ends_ensureRunning_bind (fun _ => hLeft)
          fun _ hNot => absurd hNot hOver)
  | selectItem ref occurrence now =>
      exact ends_discard.mpr
        (ends_ensureRunning_bind (fun _ => hLeft)
          fun _ hNot => absurd hNot hOver)
  | submit responses now =>
      exact ends_discard.mpr
        (ends_ensureRunning_bind (fun _ => hLeft)
          fun _ hNot => absurd hNot hOver)
  | endPart now =>
      change Ends (endPart now) s _
      rw [endPart, ends_bind, mayEndPart]
      exact ends_ensureRunning_bind (fun _ => hLeft)
        fun _ hNot => absurd hNot hOver
  | exit now =>
      refine (ends_exit_left hOrder now).mono fun _ t hExit => ?_
      rcases hExit with rfl | hGone
      · exact hLeft
      · exact hGone
  | processOutcomes =>
      exact (processOutcomes_calm s).mono
        fun _ _ hCalm => Calm.isLeft hCalm hLeft
  | touch now =>
      exact (touch_calm hOrder now).mono
        fun _ _ hCalm => Calm.isLeft hCalm hLeft

theorem ends_enterTest_stays
    {s : TestSession}
    (hOrder : s.Orderly)
    (closes : Prop)
    (now : Instant) :
    Ends (enterTest now) s fun _ t => s.Stays closes t := by
  have hSelf := Stays.refl closes hOrder
  rw [enterTest]
  refine ends_ensureInitialized_bind (fun _ => hSelf)
    fun _ => ?_
  rw [ends_getState_bind]
  dsimp only
  rw [ends_ite]
  split
  · rw [ends_bind, ends_refuse]
    exact hSelf
  · exact .of_item (.of_entries
      (InOrder.coherent hOrder) rfl rfl id rfl) rfl

/- No part is entered twice in a row. -/
theorem ends_nextPart_stays
    {s : TestSession}
    (hOrder : s.Orderly)
    {p : Nat}
    (hPart : s.state.part = some p)
    (closes : Prop)
    (now : Instant) :
    Ends (nextPart now) s fun _ t =>
      t.state.part = some p → s.Stays closes t := by
  have hSelf := Stays.refl closes hOrder
  rw [nextPart]
  refine ends_ensureRunning_bind (fun _ _ => hSelf)
    fun _ _ => ?_
  rw [ends_get_bind]
  dsimp only
  rw [ends_ite]
  split
  · rw [ends_bind, ends_refuse]
    exact fun _ => hSelf
  · split
    next => exact fun _ => hSelf
    next =>
      rw [ends_bind, ends_changeState]
      dsimp only
      rw [ends_pure]
      intro hSame
      have hNext : following s.state = p :=
        Option.some.inj hSame
      rw [following, hPart] at hNext
      exact absurd hNext (Nat.succ_ne_self p)

/-
  As long as the part stays the current one, a call to move on
  shows the next item, and every other call shows none.
-/
theorem stays_or_turns
    {closes : Prop}
    {s : TestSession}
    (hOrder : s.Orderly)
    (hInit : s.state.initialized = true)
    {p : Nat}
    (hPart : s.state.part = some p)
    (hLinear : IsLinear s.test p)
    (hCloses : closes → ClosesItems s.test p)
    (c : TestCall)
    (hStay : (s.after [c]).state.part = some p) :
    (c.shows s = none ∧ s.Stays closes (s.after [c])) ∨
      ∃ j, c.shows s = some j ∧
        s.Turns closes p j (s.after [c]) := by
  have hSelf := Stays.refl closes hOrder
  have hOther : c.shows s = none →
      (Ends c.action s fun _ t =>
        t.state.part = some p → s.Stays closes t) →
      (c.shows s = none ∧ s.Stays closes (s.after [c])) ∨
        ∃ j, c.shows s = some j ∧
          s.Turns closes p j (s.after [c]) :=
    fun hNone hEnds => Or.inl ⟨hNone, hEnds hStay⟩
  cases c with
  | initialise =>
      exact hOther rfl
        (ends_initialise_again hInit fun _ _ => hSelf)
  | enterTest now =>
      refine hOther rfl ?_
      exact (ends_enterTest_stays hOrder closes now).mono
        fun _ _ hStays _ => hStays
  | nextPart now =>
      refine hOther rfl (ends_discard.mpr ?_)
      exact ends_nextPart_stays hOrder hPart closes now
  | nextItem now =>
      have hTurn :=
        ends_nextItem_turn hOrder hInit hPart hCloses now
      rw [after_nextItem]
      rcases hRun : run (nextItem now) s with ⟨r, t⟩
      unfold Ends at hTurn
      rw [show Stateful.run (nextItem now) s = (r, t) from hRun]
        at hTurn
      simp only [TestCall.shows, hRun]
      rcases r with _ | _ | e
      · exact Or.inl ⟨rfl, hTurn⟩
      · exact Or.inl ⟨rfl, hTurn.1⟩
      · rcases hTurn with ⟨j, hTurns⟩
        exact Or.inr ⟨j, hTurns.item, hTurns⟩
  | selectItem ref occurrence now =>
      refine hOther rfl (ends_discard.mpr ?_)
      refine (ends_selectItem_linear hPart hLinear ref
        occurrence now).mono fun _ t hSame _ => ?_
      rw [hSame]
      exact hSelf
  | submit responses now =>
      refine hOther rfl (ends_discard.mpr ?_)
      exact (submit_calm hOrder responses now).mono
        fun _ _ hCalm _ => Onward.stays hCalm hOrder closes
  | endPart now =>
      refine hOther rfl ?_
      exact (ends_endPart_stays hOrder hPart hCloses now).mono
        fun _ _ hStays _ => hStays
  | exit now =>
      refine hOther rfl ?_
      refine (ends_exit_left hOrder now).mono
        fun _ t hLeft hSame => ?_
      rcases hLeft with rfl | hGone
      · exact hSelf
      · rw [hGone.part] at hSame
        cases hSame
  | processOutcomes =>
      refine hOther rfl ?_
      exact (processOutcomes_calm s).mono
        fun _ _ hCalm _ => Onward.stays hCalm hOrder closes
  | touch now =>
      refine hOther rfl ?_
      exact (touch_calm hOrder now).mono
        fun _ _ hCalm _ => Onward.stays hCalm hOrder closes

end TestSession

end Assessment
