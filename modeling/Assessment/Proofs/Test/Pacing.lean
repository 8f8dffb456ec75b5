import Assessment.Proofs.Test.Course
import Assessment.Proofs.Test.Frame
import Assessment.Proofs.Test.Timeless

/-
  Section timers and announcements between calls.

  While an item is the current one, the timers that run are
  those of the sections around it. What items announce is
  passed on at once, so that nothing is left to announce
  between two calls.

  Main declarations:
    * `TestSession.Quiet`, kept by all calls
    * `TestSession.Paced`, kept by all calls of a session in
      order
    * `after_quiet` and `after_paced`
-/

------------------------------------------------------------
-- Announcements
------------------------------------------------------------

namespace Assessment

open Stateful

namespace TestSession

open ItemSession

variable {α : Type}

/- No item has anything left to announce. -/
def Quiet (s : TestSession) : Prop :=
  ∀ e ∈ s.entries, e.session.events = []

/- Sessions stay quiet. -/
def KeepsQuiet (s t : TestSession) : Prop :=
  s.Quiet → t.Quiet

instance : Std.Refl KeepsQuiet where
  refl _ := id

instance : IsTrans TestSession KeepsQuiet where
  trans _ _ _ hFirst hThen := hThen ∘ hFirst

theorem ignoresState_keepsQuiet : IgnoresState KeepsQuiet := by
  constructor
  intro s t _ hEntries hQuiet
  unfold Quiet
  rw [hEntries]
  exact hQuiet

/- What an item announces is taken from it. -/
theorem onItem_keepsQuiet (i : Nat) (x : Action α) :
    Moves KeepsQuiet (onItem i x) := by
  intro s
  rw [ends_onItem]
  split
  next => exact id
  next e hE =>
    apply Ends.of_forall
    intro _ session hQuiet f hMem
    rcases List.mem_or_eq_of_mem_set hMem with hBefore | rfl
    · exact hQuiet f hBefore
    · rfl

theorem lifts_keepsQuiet : Lifts Anyhow KeepsQuiet :=
  ⟨fun _ i => onItem_keepsQuiet i _⟩

theorem partsMove_keepsQuiet :
    TestSession.PartsMove KeepsQuiet :=
  lifts_keepsQuiet.partsMove_of_ignores
    ItemCall.obey_anyhow.way ignoresState_keepsQuiet

/- No call leaves anything to announce. -/
theorem call_keepsQuiet (c : TestCall) :
    Moves KeepsQuiet c.action := by
  refine lifts_keepsQuiet.call_moves ItemCall.obey_anyhow
    partsMove_keepsQuiet.steps ?_ c
  exact ignoresState_keepsQuiet.initialise
    fun i _ => onItem_keepsQuiet i _

/- Items are made with nothing to announce. -/
theorem start_quiet
    {t : Test}
    {items : Keyed Item}
    {engine : Engine}
    {draws : Draws}
    {s : TestSession}
    (hStart : start t items engine draws = .ok s) :
    s.Quiet := by
  intro e hMem
  exact (start_fresh hStart e hMem).events

theorem after_quiet
    {s : TestSession}
    (hQuiet : s.Quiet)
    (calls : List TestCall) :
    (s.after calls).Quiet := by
  have hKeeps : KeepsQuiet s (s.after calls) :=
    after_moves call_keepsQuiet s calls
  exact hKeeps hQuiet

end TestSession

------------------------------------------------------------
-- Timers of Sections
------------------------------------------------------------

/- The sections, each with whether its timer runs. -/
def TestState.running (s : TestState) : List (String × Bool) :=
  s.sectionTimers.map fun x => (x.1, x.2.isRunning)

namespace TestSession

open ItemSession

variable {α : Type}

/- The timers of the sections around the current item run. -/
def Paced (s : TestSession) : Prop :=
  ∀ (i : Nat) (e : ItemEntry), s.state.item = some i →
    s.entries[i]? = some e →
      ∀ x ∈ s.state.running, x.2 = e.sections.contains x.1

/- Sessions keep their pace. -/
def KeepsPace (s t : TestSession) : Prop :=
  s.Paced → t.Paced

instance : Std.Refl KeepsPace where
  refl _ := id

instance : IsTrans TestSession KeepsPace where
  trans _ _ _ hFirst hThen := hThen ∘ hFirst

/- Without a current item, no timers have to run. -/
theorem paced_of_none
    {s : TestSession}
    (hNone : s.state.item = none) :
    s.Paced := by
  intro i e hItem
  rw [hNone] at hItem
  cases hItem

/- The pace depends on a few things only. -/
theorem Paced.of_same
    {s t : TestSession}
    (hPaced : s.Paced)
    (hItem : t.state.item = s.state.item)
    (hSections :
      t.entries.map ItemEntry.sections =
        s.entries.map ItemEntry.sections)
    (hRunning : t.state.running = s.state.running) :
    t.Paced := by
  intro i f hCurrent hF x hMem
  rw [hItem] at hCurrent
  rw [hRunning] at hMem
  have hOf :
      (s.entries.map ItemEntry.sections)[i]? =
        some f.sections := by
    rw [← hSections, List.getElem?_map, hF, Option.map_some]
  rw [List.getElem?_map, Option.map_eq_some_iff] at hOf
  rcases hOf with ⟨e, hE, hSame⟩
  rw [← hSame]
  exact hPaced i e hCurrent hE x hMem

theorem changeState_keepsPace
    {f : TestState → TestState}
    (hItem : ∀ s, (f s).item = s.item)
    (hRunning : ∀ s, (f s).running = s.running) :
    Moves KeepsPace (changeState f) :=
  fun s hPaced => hPaced.of_same (hItem s.state) rfl
    (hRunning s.state)

theorem changeState_paced
    {f : TestState → TestState}
    (hItem : ∀ s, (f s).item = none) :
    Moves KeepsPace (changeState f) :=
  fun s _ => paced_of_none (hItem s.state)

/- An item that is put back is still in its sections. -/
theorem sections_putSession
    {s : TestSession}
    {i : Nat}
    {e : ItemEntry}
    (hE : s.entries[i]? = some e)
    (session : ItemSession) :
    (putSession s i e session).entries.map
        ItemEntry.sections =
      s.entries.map ItemEntry.sections :=
  map_entries_putSession (fun _ _ => rfl) hE session

/- A step of an item leaves current item and timers alone. -/
theorem onItem_keepsPace (i : Nat) (x : Action α) :
    Moves KeepsPace (onItem i x) := by
  intro s
  rw [ends_onItem]
  split
  next => exact id
  next e hE =>
    apply Ends.of_forall
    intro _ session hPaced
    exact hPaced.of_same rfl (sections_putSession hE session)
      rfl

theorem touch_keepsPace (now : Instant) :
    Moves KeepsPace (touch now) := by
  refine touch_moves ?_ (fun i => onItem_keepsPace i _)
    (changeState_keepsPace (fun _ => rfl) fun _ => rfl)
  refine changeState_keepsPace (fun _ => rfl) fun s => ?_
  simp only [TestState.running, List.map_map,
    Function.comp_def, Timer.isRunning_touch]

theorem announced_keepsPace
    (activity : Activity)
    {x : TestAction α}
    (hMoves : Moves KeepsPace x) :
    Moves KeepsPace (announced activity x) :=
  announced_moves activity
    (fun _ _ hPaced => hPaced.of_same rfl rfl rfl) hMoves

theorem processOutcomes_keepsPace :
    Moves KeepsPace processOutcomes :=
  processOutcomes_moves (announced_keepsPace _)
    (fun _ hPaced => hPaced.of_same rfl rfl rfl)
    fun _ t _ =>
      runRules_moves
        (fun _ _ hPaced => hPaced.of_same rfl rfl rfl) _ t

------------------------------------------------------------
-- Moving Between Items
------------------------------------------------------------

theorem leaveCurrent_keepsPace (now : Instant) :
    Moves KeepsPace (leaveCurrent now) :=
  leaveCurrent_moves (fun i _ => onItem_keepsPace i _)
    (changeState_paced fun _ => rfl)

/- Once timers are switched to its sections, they run. -/
theorem paced_switched
    {s : TestSession}
    {i : Nat}
    {e : ItemEntry}
    (hE : s.entries[i]? = some e)
    (hItem : ∀ j, s.state.item = some j → j = i)
    (now : Instant) :
    (s.switched e.sections now).Paced := by
  intro j f hJ hF x hMem
  have hSame : j = i := hItem j hJ
  subst hSame
  have hEntry : some f = some e := hF.symm.trans hE
  cases hEntry
  simp only [switched, TestState.running, List.map_map,
    List.mem_map, Function.comp_apply] at hMem
  rcases hMem with ⟨y, _, rfl⟩
  rw [isRunning_switchTimer, switchTimer_fst]

/- An item is presented with the timers of its sections. -/
theorem ends_present_paced
    {s : TestSession}
    {i : Nat}
    (hItem : ∀ j, s.state.item = some j → j = i)
    (now : Instant) :
    Ends (present i now) s fun _ t => KeepsPace s t := by
  rw [present, ends_get_bind]
  split
  next e hE =>
    have hSwitched := paced_switched hE hItem now
    have hShown :
        (({ s with
          state := { s.state with item := some i } } :
            TestSession).switched e.sections now).Paced := by
      refine paced_switched (i := i) ?_ ?_ now
      · exact hE
      · intro j hJ
        exact (Option.some.inj hJ).symm
    rw [ends_bind, ends_switchSections]
    dsimp only
    have hThere :
        (s.switched e.sections now).entries[i]? = some e := hE
    rw [ends_bind, ends_onItem, hThere]
    apply Ends.of_forall
    intro r session
    have hSections := sections_putSession hThere session
    cases r with
    | error => exact fun _ => hSwitched.of_same rfl hSections rfl
    | ok => exact fun _ => hShown.of_same rfl hSections rfl
  next => exact id

/- The current item is left, and no other takes its place. -/
theorem ends_leaveCurrent_paced
    {s : TestSession}
    (hOrder : s.Orderly)
    (now : Instant) :
    Ends (leaveCurrent now) s fun r t =>
      KeepsPace s t ∧ (r.isOk = true → t.state.item = none) :=
  (Ends.and (leaveCurrent_keepsPace now s)
    (ends_leaveCurrent hOrder now)).mono
      fun _ _ hLeft => ⟨hLeft.1, hLeft.2.2.2⟩

theorem ends_touch_paced
    {s : TestSession}
    (hOrder : s.Orderly)
    (now : Instant) :
    Ends (touch now) s fun _ t => KeepsPace s t ∧ s.Calm t :=
  Ends.and (touch_keepsPace now s) (touch_calm hOrder now)

theorem ends_nextItem_paced
    {s : TestSession}
    (hOrder : s.Orderly)
    (now : Instant) :
    Ends (nextItem now) s fun _ t => KeepsPace s t := by
  rw [nextItem]
  apply ends_ensureRunning_bind (fun _ => id)
  intro _ _
  apply ends_runningPart_bind (fun _ => id)
  intro p _ _
  apply Ends.seq (ends_touch_paced hOrder now)
  · exact fun _ t hTouched => hTouched.1
  rintro _ t ⟨hTouched, hCalm⟩
  rw [ends_get_bind, ends_bind]
  apply (ends_leaveCurrent_paced
    (hCalm.orderly hOrder) now).mono
  rintro r u ⟨hLeft, hNone⟩
  have hKeeps : KeepsPace s u := hLeft ∘ hTouched
  cases r with
  | error => exact hKeeps
  | ok =>
      have hFree : u.state.item = none := hNone rfl
      dsimp only
      split
      next i _ =>
        have hItem : ∀ j, u.state.item = some j → j = i := by
          intro j hSome
          rw [hFree] at hSome
          cases hSome
        apply Ends.seq (ends_present_paced hItem now)
        · exact fun _ v hShown => hShown ∘ hKeeps
        · intro _ v hShown
          rw [ends_get_bind, ends_pure]
          exact hShown ∘ hKeeps
      next =>
        rw [ends_bind, ends_switchSections]
        dsimp only
        rw [ends_pure]
        exact fun _ => paced_of_none hFree

theorem ends_selectItem_paced
    {s : TestSession}
    (hOrder : s.Orderly)
    (ref : String)
    (occurrence : Nat)
    (now : Instant) :
    Ends (selectItem ref occurrence now) s fun _ t =>
      KeepsPace s t := by
  rw [selectItem]
  apply ends_ensureRunning_bind (fun _ => id)
  intro _ _
  apply ends_runningPart_bind (fun _ => id)
  intro p _ _
  rw [ends_get_bind]
  dsimp only
  rw [ends_ite]
  split
  swap
  · rw [ends_bind, ends_refuse]
    exact id
  split
  next => exact id
  next i _ =>
    have hPresent : ∀ u : TestSession, KeepsPace s u →
        (∀ j, u.state.item = some j → j = i) →
        Ends (do
          present i now
          return (← get).entries[i]?) u fun _ v =>
            KeepsPace s v := by
      intro u hKeeps hItem
      apply Ends.seq (ends_present_paced hItem now)
      · exact fun _ v hShown => hShown ∘ hKeeps
      · intro _ v hShown
        rw [ends_get_bind, ends_pure]
        exact hShown ∘ hKeeps
    apply Ends.seq (ends_touch_paced hOrder now)
    · exact fun _ t hTouched => hTouched.1
    rintro _ t ⟨hTouched, hCalm⟩
    rw [ends_getState_bind, ends_ite]
    split
    next =>
      rw [ends_bind]
      apply (ends_leaveCurrent_paced
        (hCalm.orderly hOrder) now).mono
      rintro r u ⟨hLeft, hNone⟩
      cases r with
      | error => exact hLeft ∘ hTouched
      | ok =>
          apply hPresent u (hLeft ∘ hTouched)
          intro j hSome
          rw [hNone rfl] at hSome
          cases hSome
    next hCurrent =>
      apply hPresent t hTouched
      intro j hSome
      simp only [bne_iff_ne, ne_eq, not_not] at hCurrent
      rw [hCurrent] at hSome
      exact (Option.some.inj hSome).symm

------------------------------------------------------------
-- Calls
------------------------------------------------------------

theorem initialise_keepsPace : Moves KeepsPace initialise :=
  initialise_moves (announced_keepsPace _)
    (fun _ =>
      changeState_keepsPace (fun _ => rfl) fun _ => rfl)
    (initialiseItems_moves fun i _ => onItem_keepsPace i _)
    (changeState_keepsPace (fun _ => rfl) fun _ => rfl)

theorem enterTest_keepsPace (now : Instant) :
    Moves KeepsPace (enterTest now) :=
  enterTest_moves
    (changeState_keepsPace (fun _ => rfl) fun _ => rfl)

theorem nextPart_keepsPace (now : Instant) :
    Moves KeepsPace (nextPart now) :=
  nextPart_moves fun _ => changeState_paced fun _ => rfl

theorem submit_keepsPace
    (responses : Responses)
    (now : Instant) :
    Moves KeepsPace (submit responses now) :=
  submit_moves (touch_keepsPace now)
    (fun i => onItem_keepsPace i _)
    (fun i => onItem_keepsPace i _) processOutcomes_keepsPace

/- With its current item left, the part ends without one. -/
theorem ends_endPart_paced
    {s : TestSession}
    (hOrder : s.Orderly)
    (now : Instant) :
    Ends (endPart now) s fun _ t => KeepsPace s t := by
  rw [endPart, ends_bind]
  apply ends_mayEndPart
  intro r
  cases r with
  | error => exact id
  | ok may =>
    dsimp only
    rw [ends_ite]
    split
    · apply ends_runningPart_bind (fun _ => id)
      intro p hPart _
      apply Ends.seq (ends_touch_paced hOrder now)
      · exact fun _ t hTouched => hTouched.1
      rintro _ t ⟨hTouched, hCalm⟩
      rw [ends_bind]
      apply (Ends.and (leaveCurrent_keepsPace now t)
        (ends_leaveCurrent (hCalm.orderly hOrder) now)).mono
      rintro r u ⟨hLeft, hOrderU, hNear, hNone⟩
      cases r with
      | error => exact hLeft ∘ hTouched
      | ok =>
          have hPartU : u.state.part = some p :=
            hNear.part_eq.trans
              ((Onward.part hCalm).trans hPart)
          apply (ends_endLeft_stays hOrderU hPartU (hNone rfl)
            False now).mono
          intro _ v hStays _
          apply paced_of_none
          rcases hStays.item with hSame | hGone
          · exact hSame.trans (hNone rfl)
          · exact hGone
    · rw [ends_bind, ends_refuse]
      exact id

theorem ends_exit_paced
    {s : TestSession}
    (hOrder : s.Orderly)
    (now : Instant) :
    Ends (exit now) s fun _ t => KeepsPace s t := by
  apply (Ends.and (ends_exit_left hOrder now)
    (ends_exit hOrder now)).mono
  rintro _ t ⟨hLeft, hProceeds⟩
  rcases hLeft with rfl | hGone
  · exact id
  · intro _
    apply paced_of_none
    apply Option.eq_none_iff_forall_ne_some.mpr
    intro i hItem
    rcases InOrder.current hProceeds.orderly i hItem with
      ⟨e, _, hPart, _⟩
    have hNone : t.state.standing.part = none := hGone.part
    rw [hNone] at hPart
    cases hPart

/- All calls keep the pace of a session that is in order. -/
theorem call_keepsPace
    {s : TestSession}
    (hOrder : s.Orderly)
    (c : TestCall) :
    Ends c.action s fun _ t => KeepsPace s t := by
  cases c with
  | initialise => exact initialise_keepsPace s
  | enterTest now => exact enterTest_keepsPace now s
  | nextPart now =>
      exact ends_discard.mpr (nextPart_keepsPace now s)
  | nextItem now =>
      exact ends_discard.mpr (ends_nextItem_paced hOrder now)
  | selectItem ref occurrence now =>
      exact ends_discard.mpr
        (ends_selectItem_paced hOrder ref occurrence now)
  | submit responses now =>
      exact ends_discard.mpr (submit_keepsPace responses now s)
  | endPart now => exact ends_endPart_paced hOrder now
  | exit now => exact ends_exit_paced hOrder now
  | processOutcomes => exact processOutcomes_keepsPace s
  | touch now => exact touch_keepsPace now s

/- At the start, there is no current item. -/
theorem start_paced
    {t : Test}
    {items : Keyed Item}
    {engine : Engine}
    {draws : Draws}
    {s : TestSession}
    (hStart : start t items engine draws = .ok s) :
    s.Paced := by
  apply paced_of_none
  rw [start_state hStart]
  rfl

theorem after_paced
    {s : TestSession}
    (hOrder : s.Orderly)
    (hPaced : s.Paced)
    (calls : List TestCall) :
    (s.after calls).Paced := by
  induction calls using List.reverseRecOn with
  | nil => exact hPaced
  | append_singleton calls c ih =>
      rw [after_snoc]
      have hKeeps :=
        call_keepsPace (after_orderly hOrder calls) c
      exact hKeeps ih

end TestSession

end Assessment
