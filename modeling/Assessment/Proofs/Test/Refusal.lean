import Assessment.Proofs.Test.Pacing
import Assessment.Proofs.Test.Walk

/-
  Moves that are refused.

  To move to another item is to leave the current one, to
  switch the timers of sections and to present the item moved
  to. A move that is refused before the item is presented
  changes nothing but the time spent. An item that is finished
  refuses to be presented when the current item has been left
  and the timers have been switched, and neither is undone.

  Main declarations:
    * `TestSession.Ready`, what holds between calls
    * `TestSession.RefusedMove`, what a refused move leaves
    * `refused_moves_of_calls`
    * `refused_move_leaves_item`
-/

------------------------------------------------------------
-- Between Calls
------------------------------------------------------------

namespace Assessment

open Stateful

namespace TestSession

open ItemSession

/- What holds of a session between two calls. -/
structure Ready (s : TestSession) : Prop where
  order : s.Orderly
  quiet : s.Quiet
  paced : s.Paced

theorem ready_after
    {t : Test}
    {items : Keyed Item}
    {engine : Engine}
    {draws : Draws}
    {first : TestSession}
    (hStart : start t items engine draws = .ok first)
    (calls : List TestCall) :
    (first.after calls).Ready where
  order := after_orderly (start_orderly hStart) calls
  quiet := after_quiet (start_quiet hStart) calls
  paced :=
    after_paced (start_orderly hStart) (start_paced hStart)
      calls

section Alike

variable {s t : TestSession}

theorem item_of_timeless (hSame : t.timeless = s.timeless) :
    t.state.item = s.state.item := by
  have hItem :=
    congrArg (fun u : TestSession => u.state.item) hSame
  exact hItem

theorem initialized_of_timeless
    (hSame : t.timeless = s.timeless) :
    t.state.initialized = s.state.initialized := by
  have hInit :=
    congrArg (fun u : TestSession => u.state.initialized) hSame
  exact hInit

/- Items are at the same places, apart from time the same. -/
theorem entry_of_timeless
    (hSame : t.timeless = s.timeless)
    {i : Nat}
    {e : ItemEntry}
    (hE : s.entries[i]? = some e) :
    ∃ f, t.entries[i]? = some f ∧ f.timeless = e.timeless := by
  have hEntries :
      t.entries.map ItemEntry.timeless =
        s.entries.map ItemEntry.timeless :=
    congrArg TestSession.entries hSame
  have hAt := congrArg (fun es => es[i]?) hEntries
  simp only [List.getElem?_map, hE, Option.map_some,
    Option.map_eq_some_iff] at hAt
  exact hAt

theorem nextPlace?_of_timeless
    (hSame : t.timeless = s.timeless)
    (p : Nat) :
    t.nextPlace? p = s.nextPlace? p := by
  have hParts : ∀ u : TestSession,
      u.entries.map ItemEntry.part =
        u.timeless.entries.map ItemEntry.part := by
    intro u
    simp only [timeless, List.map_map, Function.comp_def,
      ItemEntry.timeless]
  rw [nextPlace?_eq, nextPlace?_eq, placesIn_eq, placesIn_eq,
    item_of_timeless hSame, hParts, hSame, ← hParts]

end Alike

------------------------------------------------------------
-- Parts of Moves
------------------------------------------------------------

theorem withoutEvents_of_quiet
    {s : TestSession}
    (hQuiet : s.Quiet)
    {i : Nat}
    {e : ItemEntry}
    (hE : s.entries[i]? = some e) :
    e.session.events = [] :=
  hQuiet e (List.mem_of_getElem? hE)

/- An item that has announced nothing is just put back. -/
theorem putSession_quiet
    {s : TestSession}
    {i : Nat}
    {e : ItemEntry}
    {session : ItemSession}
    (hNothing : session.events = []) :
    putSession s i e session =
      { s with
        entries := s.entries.set i
          { e with session := session } } := by
  have hSession : { session with events := [] } = session := by
    rw [← hNothing]
  unfold putSession
  rw [hSession, hNothing, List.append_nil]

/- An item that has done nothing is where it was. -/
theorem putSession_self
    {s : TestSession}
    (hQuiet : s.Quiet)
    {i : Nat}
    {e : ItemEntry}
    (hE : s.entries[i]? = some e) :
    putSession s i e e.session = s := by
  have hEntries : s.entries.set i e = s.entries := by
    obtain ⟨hBound, rfl⟩ := List.getElem?_eq_some_iff.mp hE
    exact List.set_getElem_self hBound
  rw [putSession_quiet (withoutEvents_of_quiet hQuiet hE),
    hEntries]

/- An item that has changed in time alone is put back. -/
theorem timeless_putSession
    {s : TestSession}
    {i : Nat}
    {e : ItemEntry}
    {session : ItemSession}
    (hE : s.entries[i]? = some e)
    (hNothing : session.events = [])
    (hSame : session.timeless = e.session.timeless) :
    (putSession s i e session).timeless = s.timeless := by
  have hEntry :
      ({ e with session := session } : ItemEntry).timeless =
        e.timeless := by
    simp only [ItemEntry.timeless, hSame]
  rw [putSession_quiet hNothing]
  simp only [timeless, map_set_of_eq hE hEntry]

/- To bring the timers up to date is a matter of time alone. -/
theorem ends_touch_timeless
    {s : TestSession}
    (hOrder : s.Orderly)
    (hQuiet : s.Quiet)
    (now : Instant) :
    Ends (touch now) s fun r t =>
      r = .ok () ∧ t.timeless = s.timeless := by
  rw [ends_touch_iff]
  cases hItem : s.state.item with
  | none =>
      refine ⟨rfl, ?_⟩
      rw [timeless_syncDuration, timeless_touchedTimers]
  | some i =>
      rcases InOrder.current hOrder i hItem with ⟨e, hE, _⟩
      have hThere : (s.touchedTimers now).entries[i]? = some e :=
        hE
      have hNothing : (e.session.touchedAt now).events = [] :=
        withoutEvents_of_quiet hQuiet hE
      have hPut := timeless_putSession hThere hNothing
        (ItemSession.timeless_touchedAt e.session now)
      dsimp only
      rw [ends_onItem, hThere]
      dsimp only
      rw [ItemSession.ends_touch]
      refine ⟨rfl, ?_⟩
      rw [timeless_syncDuration]
      exact hPut.trans (timeless_touchedTimers now s)

/- The time spent is brought up to date, and all goes on. -/
theorem ends_touch_ready
    {s : TestSession}
    (hReady : s.Ready)
    (now : Instant) :
    Ends (touch now) s fun r t =>
      r = .ok () ∧ t.timeless = s.timeless ∧ t.Ready := by
  have hSame :=
    ends_touch_timeless hReady.order hReady.quiet now
  have hPaced := ends_touch_paced hReady.order now
  have hQuiet := partsMove_keepsQuiet.touch now s
  apply (hSame.and (hPaced.and hQuiet)).mono
  rintro r t ⟨⟨hOk, hTime⟩, ⟨hKeeps, hCalm⟩, hStill⟩
  exact ⟨hOk, hTime, hCalm.orderly hReady.order,
    hStill hReady.quiet, hKeeps hReady.paced⟩

end TestSession

namespace Failure

/- Whether an item has refused to be presented. -/
def isOfPhase : Failure → Bool
  | .refused (.cannotPresent _ _) => true
  | _ => false

/- Neither has an item refused to be presented nor a service. -/
def isPlain : Failure → Bool
  | .refused (.cannotPresent _ _) => false
  | .service _ => false
  | _ => true

theorem isOfPhase_of_isPlain
    {e : Failure}
    (hPlain : e.isPlain = true) :
    e.isOfPhase = false := by
  unfold isPlain at hPlain
  unfold isOfPhase
  split at hPlain
  · cases hPlain
  · cases hPlain
  next hOther _ =>
    split
    · exact absurd rfl (hOther _ _)
    · rfl

end Failure

namespace TestSession

open ItemSession

/- An item is moved on from, or it stays as it was. -/
theorem ends_movedOn
    (now : Instant)
    (s : ItemSession) :
    Ends
      (if s.state.responded = true then finish now
        else skip now) s fun r t =>
      (r = .ok () ∧
        t = { s with state := s.state.movedOn now }) ∨
        ∃ e, r = .error e ∧ t = s ∧ e.isPlain = true := by
  rw [ends_ite, ends_finish, ends_skip]
  unfold ItemState.movedOn
  by_cases hResponded : s.state.responded = true
  · rw [if_pos hResponded, if_pos hResponded]
    split
    · split
      · exact Or.inr ⟨_, rfl, rfl, rfl⟩
      · exact Or.inl ⟨rfl, rfl⟩
    · exact Or.inr ⟨_, rfl, rfl, rfl⟩
  · rw [if_neg hResponded, if_neg hResponded]
    split
    · split
      · exact Or.inr ⟨_, rfl, rfl, rfl⟩
      · split
        · exact Or.inr ⟨_, rfl, rfl, rfl⟩
        · exact Or.inl ⟨rfl, rfl⟩
    · exact Or.inr ⟨_, rfl, rfl, rfl⟩

/- An item is left as its part says, or it stays as it was. -/
theorem ends_leaveItem_behind
    (keeps : Bool)
    (now : Instant)
    (s : ItemSession) :
    Ends (leaveItem keeps now) s fun r t =>
      (r = .ok () ∧ t = s.leftBehind keeps now) ∨
        ∃ e, r = .error e ∧ t = s ∧ e.isPlain = true := by
  unfold leaveItem ItemSession.leftBehind ItemState.leftBehind
  rw [ends_bind, ItemSession.ends_getState]
  dsimp only
  cases hPhase : s.state.phase with
  | interacting =>
      cases keeps with
      | true =>
          dsimp only
          rw [ends_suspend, if_pos hPhase]
          split
          · exact Or.inl ⟨rfl, rfl⟩
          · exact Or.inr ⟨_, rfl, rfl, rfl⟩
      | false => exact ends_movedOn now s
  | suspended =>
      cases keeps with
      | true => exact Or.inl ⟨rfl, rfl⟩
      | false => exact ends_movedOn now s
  | notAttempted => exact Or.inl ⟨rfl, rfl⟩
  | initialized => exact Or.inl ⟨rfl, rfl⟩
  | finished => exact Or.inl ⟨rfl, rfl⟩

/- The current item is left, or nothing has happened. -/
theorem ends_leaveCurrent_left
    {s : TestSession}
    (hOrder : s.Orderly)
    (hQuiet : s.Quiet)
    (now : Instant) :
    Ends (leaveCurrent now) s fun r t =>
      (r = .ok () ∧ t = s.left now) ∨
        ∃ e, r = .error e ∧ t = s ∧ e.isPlain = true := by
  rw [leaveCurrent, ends_get_bind]
  cases hItem : s.state.item with
  | none =>
      refine Or.inl ⟨rfl, ?_⟩
      rw [left, hItem]
      rfl
  | some i =>
      rcases InOrder.current hOrder i hItem with ⟨e, hE, _⟩
      have hNothing :
          (e.session.leftBehind s.keepsCurrent now).events =
            [] :=
        withoutEvents_of_quiet hQuiet hE
      dsimp only
      rw [ends_bind, ends_onItem, hE]
      apply (ends_leaveItem_behind s.keepsCurrent now
        e.session).mono
      intro r session hLeft
      rcases hLeft with ⟨rfl, rfl⟩ | ⟨e', rfl, rfl, hOther⟩
      · refine Or.inl ⟨rfl, ?_⟩
        have hEntries :
            s.entries.modify i (leaveEntry s.keepsCurrent now) =
              s.entries.set i
                (leaveEntry s.keepsCurrent now e) := by
          rw [List.modify_eq_set_getElem?, hE]
          rfl
        have hPut := putSession_quiet (s := s) (i := i) (e := e)
          hNothing
        rw [left, hItem]
        dsimp only
        rw [hEntries]
        exact congrArg
          (fun u : TestSession =>
            { u with state := { u.state with item := none } })
          hPut
      · exact Or.inr
          ⟨e', rfl, putSession_self hQuiet hE, hOther⟩

/- A finished item cannot be presented, and all others can. -/
theorem ends_presentItem_refused
    (ref : String)
    (now : Instant)
    {s : ItemSession}
    (hCoherent : s.state.Coherent)
    (hInit : s.state.initialized = true) :
    Ends (presentItem ref now) s fun r t =>
      ∀ e, r = .error e →
        t = s ∧ s.state.phase = .finished ∧
          e = .refused (.cannotPresent ref .finished) := by
  by_cases hFinished : s.state.phase = .finished
  · rw [presentItem, ends_bind, ItemSession.ends_getState]
    dsimp only
    rw [hFinished]
    intro e hSame
    cases hSame
    exact ⟨rfl, rfl, rfl⟩
  · apply (ends_presentItem_open ref now hCoherent hInit).mono
    rintro r t ⟨hOpens, _⟩ e rfl
    have hOk := hOpens.mpr hFinished
    cases hOk

/-
  Only a finished item refuses to be presented, and it does so
  after the timers have been switched to its sections.
-/
theorem ends_present_refused
    {s : TestSession}
    (hOrder : s.Orderly)
    (hQuiet : s.Quiet)
    (hInit : s.state.initialized = true)
    {i : Nat}
    {e : ItemEntry}
    (hE : s.entries[i]? = some e)
    (now : Instant) :
    Ends (present i now) s fun r t =>
      ∀ f, r = .error f →
        e.session.state.phase = .finished ∧
          f = .refused
            (.cannotPresent e.ref.identifier .finished) ∧
          t = s.switched e.sections now := by
  have hThere :
      (s.switched e.sections now).entries[i]? = some e := hE
  rw [present, ends_get_bind, hE]
  dsimp only
  rw [ends_bind, ends_switchSections]
  dsimp only
  have hOrderS : (s.switched e.sections now).Orderly :=
    (switchSections_calm e.sections now s).orderly hOrder
  have hCoherent := InOrder.coherent hOrder i e hE
  have hReady := InOrder.initialized hOrder hInit i e hE
  rw [ends_bind, ends_onItem, hThere]
  dsimp only
  apply (ends_presentItem_refused e.ref.identifier now hCoherent
    hReady).mono
  intro r session hRefused
  cases r with
  | error e' =>
      rcases hRefused e' rfl with ⟨rfl, hPhase, rfl⟩
      intro f hSame
      cases hSame
      have hStill : (s.switched e.sections now).Quiet := hQuiet
      exact ⟨hPhase, rfl, putSession_self hStill hThere⟩
  | ok => exact fun f hSame => by cases hSame

------------------------------------------------------------
-- Refused Moves
------------------------------------------------------------

/-
  What a move to a place that was refused leaves: where it was
  not the item at the place that refused, nothing but time has
  gone on. Where it was, the item is finished, and nothing but
  time has gone on if it is the current one. Otherwise the
  current item has been left, no item is the current one any
  more, and the timers have been switched all the same.
-/
structure RefusedMove
    (now : Instant)
    (aim : Option Nat)
    (s : TestSession)
    (e : Failure)
    (t : TestSession) :
    Prop where
  elsewhere : e.isOfPhase = false → t.timeless = s.timeless
  finished :
    e.isOfPhase = true →
      ∃ i f, aim = some i ∧ s.entries[i]? = some f ∧
        f.session.state.phase = .finished ∧
        e = .refused
          (.cannotPresent f.ref.identifier .finished) ∧
        t.timeless =
          if s.state.item = some i then s.timeless
          else
            ((s.left now).switched f.sections now).timeless

/- What is refused at once changes nothing. -/
theorem RefusedMove.of_same
    {now : Instant}
    {aim : Option Nat}
    {s t : TestSession}
    {e : Failure}
    (hPlain : e.isPlain = true)
    (hSame : t.timeless = s.timeless) :
    s.RefusedMove now aim e t := by
  constructor
  · exact fun _ => hSame
  · intro hPhase
    rw [Failure.isOfPhase_of_isPlain hPlain] at hPhase
    cases hPhase

/- Other items are not touched when the current one is left. -/
theorem entry_left
    {s : TestSession}
    {i : Nat}
    {e : ItemEntry}
    (hE : s.entries[i]? = some e)
    (hOther : s.state.item ≠ some i)
    (now : Instant) :
    (s.left now).entries[i]? = some e := by
  unfold left
  cases hItem : s.state.item with
  | none => exact hE
  | some j =>
      have hPlace : j ≠ i := by
        rintro rfl
        exact hOther hItem
      dsimp only
      rw [List.getElem?_modify, hE]
      exact congrArg some (if_neg hPlace)

/- The timers of the current item run already. -/
theorem timeless_switched_current
    {s : TestSession}
    (hPaced : s.Paced)
    {i : Nat}
    {e : ItemEntry}
    (hItem : s.state.item = some i)
    (hE : s.entries[i]? = some e)
    (now : Instant) :
    (s.switched e.sections now).timeless = s.timeless := by
  have hTimers :
      (s.state.sectionTimers.map fun x =>
        (x.1, Timer.idle (e.sections.contains x.1))) =
        s.timeless.state.sectionTimers := by
    apply List.map_congr_left
    intro x hMem
    have hRuns :
        x.2.isRunning = e.sections.contains x.1 :=
      hPaced i e hItem hE (x.1, x.2.isRunning)
        (List.mem_map_of_mem hMem)
    rw [Timer.timeless, hRuns]
  rw [timeless_switched, hTimers]
  rfl

/-
  The last part of a move, in which an item is presented once
  no other is the current one.
-/
theorem ends_present_move
    {s u : TestSession}
    (hOrder : u.Orderly)
    (hQuiet : u.Quiet)
    (hInit : u.state.initialized = true)
    {i : Nat}
    {f g : ItemEntry}
    (hF : s.entries[i]? = some f)
    (hG : u.entries[i]? = some g)
    (hEntry : g.timeless = f.timeless)
    (now : Instant)
    (hAfter :
      (u.switched g.sections now).timeless =
        if s.state.item = some i then s.timeless
        else ((s.left now).switched f.sections now).timeless) :
    Ends (do
      present i now
      return (← get).entries[i]?) u fun r v =>
        ∀ e, r = .error e →
          s.RefusedMove now (some i) e v := by
  rw [ends_bind]
  apply (ends_present_refused hOrder hQuiet hInit hG now).mono
  intro r v hRefused
  cases r with
  | ok =>
      dsimp only
      rw [ends_get_bind, ends_pure]
      exact fun e hSame => by cases hSame
  | error e' =>
      rcases hRefused e' rfl with ⟨hPhase, rfl, rfl⟩
      rintro e hSame
      cases hSame
      constructor
      · intro hOther
        cases hOther
      · intro _
        have hRef : g.timeless.ref = f.timeless.ref :=
          congrArg ItemEntry.ref hEntry
        have hState :
            g.timeless.session.state.phase =
              f.timeless.session.state.phase := by
          rw [hEntry]
        refine ⟨i, f, rfl, hF, ?_, ?_, hAfter⟩
        · exact hState.symm.trans hPhase
        · exact congrArg
            (fun ref : ItemRef => Failure.refused
              (.cannotPresent ref.identifier .finished)) hRef

/- A test that is not under way refuses on its own grounds. -/
theorem ends_ensureRunning_other (s : TestSession) :
    Ends ensureRunning s fun r t =>
      t = s ∧ (∀ e, r = .error e → e.isPlain = true) ∧
        (r.isOk = true → s.state.initialized = true) := by
  unfold ensureRunning
  rw [ends_bind, ends_ensureInitialized]
  by_cases hInit : s.state.initialized = true
  · simp [hInit, Failure.isPlain]
  · simp [hInit, Failure.isPlain, Except.isOk, Except.toBool]

theorem ends_runningPart_other (s : TestSession) :
    Ends runningPart s fun r t =>
      t = s ∧ (∀ e, r = .error e → e.isPlain = true) ∧
        ∀ p, r = .ok p → s.state.part = some p := by
  rw [runningPart, ends_getState_bind]
  cases hPart : s.state.part with
  | none => simp [Failure.isPlain]
  | some p => simp [Failure.isPlain]

/- A move goes on if a part of the test is under way. -/
theorem ends_gates
    {α : Type}
    {s : TestSession}
    {now : Instant}
    {aim : Option Nat}
    {f : Nat → TestAction α}
    (hThen :
      ∀ p, s.state.initialized = true →
        s.state.part = some p →
        Ends (f p) s fun r t =>
          ∀ e, r = .error e → s.RefusedMove now aim e t) :
    Ends (do
      ensureRunning
      let part ← runningPart
      f part) s fun r t =>
        ∀ e, r = .error e → s.RefusedMove now aim e t := by
  rw [ends_bind]
  apply (ends_ensureRunning_other s).mono
  rintro r t ⟨rfl, hOther, hInit⟩
  cases r with
  | error e =>
      rintro e' hSame
      cases hSame
      exact .of_same (hOther e rfl) rfl
  | ok =>
      dsimp only
      rw [ends_bind]
      apply (ends_runningPart_other t).mono
      rintro r u ⟨rfl, hOther, hPart⟩
      cases r with
      | error e =>
          rintro e' hSame
          cases hSame
          exact .of_same (hOther e rfl) rfl
      | ok p => exact hThen p (hInit rfl) (hPart p rfl)

/-
  The current item is left and another one presented, or the
  current item refuses to be left.
-/
theorem ends_leave_present
    {s t : TestSession}
    (hReady : t.Ready)
    (hTime : t.timeless = s.timeless)
    (hInit : s.state.initialized = true)
    {i : Nat}
    {f : ItemEntry}
    (hF : s.entries[i]? = some f)
    (hOther : s.state.item ≠ some i)
    (now : Instant) :
    Ends (do
      leaveCurrent now
      present i now
      return (← get).entries[i]?) t fun r u =>
        ∀ e, r = .error e →
          s.RefusedMove now (some i) e u := by
  obtain ⟨g, hG, hEntry⟩ := entry_of_timeless hTime hF
  have hNotCurrent : t.state.item ≠ some i := by
    rw [item_of_timeless hTime]
    exact hOther
  have hSections : g.timeless.sections = f.timeless.sections :=
    congrArg ItemEntry.sections hEntry
  have hLeft := ends_leaveCurrent_left hReady.order
    hReady.quiet now
  have hOrder := ends_leaveCurrent hReady.order now
  have hQuiet := partsMove_keepsQuiet.leaveCurrent now t
  rw [ends_bind]
  apply (hLeft.and (hOrder.and hQuiet)).mono
  rintro r u ⟨hEither, ⟨hOrderU, hNear, _⟩, hStill⟩
  rcases hEither with ⟨rfl, rfl⟩ | ⟨e, rfl, rfl, hNot⟩
  · have hInitT := initialized_of_timeless hTime
    have hInitU :
        (t.left now).state.initialized =
          t.state.initialized :=
      congrArg Standing.initialized hNear.standing
    apply ends_present_move hOrderU (hStill hReady.quiet)
      ((hInitU.trans hInitT).trans hInit) hF
      (entry_left hG hNotCurrent now) hEntry
    have hSame : g.sections = f.sections := hSections
    rw [if_neg hOther, hSame]
    exact switched_congr (left_congr hTime now) f.sections now
  · intro e' hSame
    cases hSame
    exact .of_same hNot hTime

/- The next item is presented, or it refuses. -/
theorem ends_nextItem_refused
    {s : TestSession}
    (hReady : s.Ready)
    (now : Instant) :
    Ends (nextItem now) s fun r t =>
      ∀ e, r = .error e →
        s.RefusedMove now (s.state.part.bind s.nextPlace?) e
          t := by
  rw [nextItem]
  apply ends_gates
  intro p hInit hPart
  rw [ends_bind]
  apply (ends_touch_ready hReady now).mono
  rintro r t ⟨rfl, hTime, hReadyT⟩
  dsimp only
  rw [ends_get_bind, nextPlace?_of_timeless hTime, hPart,
    Option.bind_some]
  cases hNext : s.nextPlace? p with
  | some i =>
      obtain ⟨f, hF, _⟩ := exists_of_nextPlace? hNext
      apply ends_leave_present hReadyT hTime hInit hF
      intro hItem
      exact Nat.lt_irrefl i (lt_of_nextPlace? hNext hItem)
  | none =>
      rw [ends_bind]
      apply (ends_leaveCurrent_left hReadyT.order
        hReadyT.quiet now).mono
      rintro r u (⟨rfl, rfl⟩ | ⟨e, rfl, rfl, hNot⟩)
      · dsimp only
        rw [ends_bind, ends_switchSections]
        dsimp only
        rw [ends_pure]
        exact fun e hSame => by cases hSame
      · intro e' hSame
        cases hSame
        exact .of_same hNot hTime

/- An item that is selected is presented, or it refuses. -/
theorem ends_selectItem_refused
    {s : TestSession}
    (hReady : s.Ready)
    (ref : String)
    (occurrence : Nat)
    (now : Instant) :
    Ends (selectItem ref occurrence now) s fun r t =>
      ∀ e, r = .error e →
        s.RefusedMove now
          (s.state.part.bind fun p =>
            s.placeIn? p ref occurrence) e t := by
  rw [selectItem]
  apply ends_gates
  intro p hInit hPart
  rw [ends_get_bind, hPart, Option.bind_some]
  dsimp only
  rw [ends_ite]
  split
  swap
  · rw [ends_bind, ends_refuse]
    intro e hSame
    cases hSame
    exact .of_same rfl rfl
  cases hPlace : s.placeIn? p ref occurrence with
  | none =>
      dsimp only
      rw [ends_refuse]
      intro e hSame
      cases hSame
      exact .of_same rfl rfl
  | some i =>
      obtain ⟨f, hF, _⟩ := exists_of_placeIn? hPlace
      dsimp only
      rw [ends_bind]
      apply (ends_touch_ready hReady now).mono
      rintro r t ⟨rfl, hTime, hReadyT⟩
      dsimp only
      rw [ends_getState_bind, ends_ite]
      split
      next hOther =>
        apply ends_leave_present hReadyT hTime hInit hF
        rw [← item_of_timeless hTime]
        simpa using hOther
      next hCurrent =>
        have hItem : t.state.item = some i := by
          simpa using hCurrent
        obtain ⟨g, hG, hEntry⟩ := entry_of_timeless hTime hF
        have hInitT := initialized_of_timeless hTime
        apply ends_present_move hReadyT.order hReadyT.quiet
          (hInitT.trans hInit) hF hG hEntry
        rw [if_pos ((item_of_timeless hTime).symm.trans hItem)]
        exact (timeless_switched_current hReadyT.paced hItem hG
          now).trans hTime

------------------------------------------------------------
-- Moves of a Session
------------------------------------------------------------

/-
  Whatever calls have been made, a move that is refused before
  the item moved to is presented changes nothing but the time
  spent. Only a finished item of the part refuses to be
  presented, and unless it is the current item, the current
  item has been left for it then and the timers of its
  sections run.
-/
theorem refused_moves_of_calls
    (t : Test)
    (items : Keyed Item)
    (engine : Engine)
    (draws : Draws)
    (first : TestSession)
    (hStart : start t items engine draws = .ok first)
    (calls : List TestCall) :
    (∀ now e u,
      run (nextItem now) (first.after calls) = (.error e, u) →
        (first.after calls).RefusedMove now
          ((first.after calls).state.part.bind
            (first.after calls).nextPlace?) e u) ∧
    (∀ ref occurrence now e u,
      run (selectItem ref occurrence now) (first.after calls) =
          (.error e, u) →
        (first.after calls).RefusedMove now
          ((first.after calls).state.part.bind fun p =>
            (first.after calls).placeIn? p ref occurrence)
          e u) := by
  have hReady := ready_after hStart calls
  constructor
  · intro now e u hRun
    exact (ends_nextItem_refused hReady now).of_run hRun e rfl
  · intro ref occurrence now e u hRun
    exact (ends_selectItem_refused hReady ref occurrence
      now).of_run hRun e rfl

/- A test of one part with two items, free to choose from. -/
def freeTest : Test :=
  { blankTest with
    parts := [
      { pairPart .individual with navigation := .nonlinear }] }

/-
  The calls of a candidate who has submitted the first item,
  so that it is finished, and has gone on to the second.
-/
def submittedCalls (now : Instant) : List TestCall :=
  arrivalCalls now ++ [
    .nextPart now,
    .selectItem "first-item" 1 now,
    .submit [] now,
    .selectItem "second-item" 1 now]

theorem exists_error_of_isOk
    {α : Type}
    {r : Except Failure α}
    (hFailed : r.isOk = false) :
    ∃ e, r = .error e := by
  cases r with
  | error e => exact ⟨e, rfl⟩
  | ok => cases hFailed

/- The way back to a finished item is refused. -/
theorem back_refused :
    ∃ first : TestSession,
      start freeTest [("blank", blankItem)] ⟨{}, none⟩ default =
          .ok first ∧
        ∃ s, s = first.after (submittedCalls ⟨0⟩) ∧
          s.state.item = some 1 ∧
          (s.state.part.bind fun p =>
            s.placeIn? p "first-item" 1) = some 0 ∧
          (run (selectItem "first-item" 1 ⟨0⟩) s).1.isOk =
            false ∧
          (run (selectItem "first-item" 1 ⟨0⟩) s).2.state.item =
            none := by
  refine ⟨_, rfl, _, rfl, ?_, ?_, ?_, ?_⟩
  · decide +kernel
  · decide +kernel
  · decide +kernel
  · decide +kernel

/- No item is the current one then. -/
theorem refused_moves_of_calls_back :
    ∃ first : TestSession,
      start freeTest [("blank", blankItem)] ⟨{}, none⟩ default =
          .ok first ∧
        ∃ s, s = first.after (submittedCalls ⟨0⟩) ∧
          s.state.item = some 1 ∧
          ∃ e u, s.RefusedMove ⟨0⟩ (some 0) e u ∧
            u.state.item = none := by
  obtain ⟨first, hStart, s, hState, hItem, hAim, hFailed,
    hNone⟩ := back_refused
  cases hRun : run (selectItem "first-item" 1 ⟨0⟩) s with
  | mk r u =>
      rw [hRun] at hFailed hNone
      obtain ⟨e, rfl⟩ := exists_error_of_isOk hFailed
      have hLaws := refused_moves_of_calls freeTest
        [("blank", blankItem)] ⟨{}, none⟩ default first hStart
        (submittedCalls ⟨0⟩)
      rw [← hState] at hLaws
      have hLaw := hLaws.2 "first-item" 1 ⟨0⟩ e u hRun
      rw [hAim] at hLaw
      exact ⟨first, hStart, s, hState, hItem, e, u, hLaw,
        hNone⟩

/- A move that is refused changes nothing but time. -/
def StaysWhenRefused (s : TestSession) : Prop :=
  (∀ now e u, run (nextItem now) s = (.error e, u) →
    u.timeless = s.timeless) ∧
  (∀ ref occurrence now e u,
    run (selectItem ref occurrence now) s = (.error e, u) →
      u.timeless = s.timeless)

/- The way back leaves the current item all the same. -/
theorem refused_move_leaves_item :
    ¬ ∀ (t : Test) (items : Keyed Item) (engine : Engine)
        (draws : Draws) (first : TestSession),
        start t items engine draws = .ok first →
          ∀ calls, (first.after calls).StaysWhenRefused := by
  intro hClaim
  obtain ⟨first, hStart, s, hState, hItem, _, hFailed,
    hNone⟩ := back_refused
  have hStays := hClaim _ _ _ _ first hStart
    (submittedCalls ⟨0⟩)
  rw [← hState] at hStays
  cases hRun : run (selectItem "first-item" 1 ⟨0⟩) s with
  | mk r u =>
      rw [hRun] at hFailed hNone
      obtain ⟨e, rfl⟩ := exists_error_of_isOk hFailed
      have hSame := item_of_timeless
        (hStays.2 "first-item" 1 ⟨0⟩ e u hRun)
      rw [hNone, hItem] at hSame
      cases hSame

end TestSession

end Assessment
