import Assessment.Proofs.Test.Moves
import Assessment.Proofs.Test.Order

/-
  The life of a test session.

  Main declarations:
    * `TestSession.Onward` and `TestSession.Calm`, steps that
      leave a session where it stands
-/

------------------------------------------------------------
-- Calm Steps
------------------------------------------------------------

namespace Assessment

open Stateful

namespace TestSession

open ItemSession (Settles)

/- A session stands where it stood, and its items go on. -/
structure Onward
    (mayBegin : Nat → Prop)
    (s t : TestSession) :
    Prop where
  test : t.test = s.test
  standing : t.state.standing = s.state.standing
  kept : Kept mayBegin s.entries t.entries

theorem Onward.refl
    (mayBegin : Nat → Prop)
    (s : TestSession) :
    s.Onward mayBegin s :=
  ⟨rfl, rfl, Kept.refl mayBegin s.entries⟩

theorem Onward.trans
    {mayBegin : Nat → Prop}
    {s t u : TestSession}
    (hFirst : s.Onward mayBegin t)
    (hThen : t.Onward mayBegin u) :
    s.Onward mayBegin u :=
  ⟨hThen.test.trans hFirst.test,
    hThen.standing.trans hFirst.standing,
    hFirst.kept.trans hThen.kept⟩

/- The part under way stays the same. -/
theorem Onward.part
    {mayBegin : Nat → Prop}
    {s t : TestSession}
    (hOnward : s.Onward mayBegin t) :
    t.state.part = s.state.part := by
  have hPart := congrArg Standing.part hOnward.standing
  exact hPart

theorem Onward.initialized
    {mayBegin : Nat → Prop}
    {s t : TestSession}
    (hOnward : s.Onward mayBegin t) :
    t.state.initialized = s.state.initialized := by
  have hInit := congrArg Standing.initialized hOnward.standing
  exact hInit

theorem Onward.ended
    {mayBegin : Nat → Prop}
    {s t : TestSession}
    (hOnward : s.Onward mayBegin t) :
    t.state.ended = s.state.ended := by
  have hEnded := congrArg Standing.ended hOnward.standing
  exact hEnded

theorem Onward.item
    {mayBegin : Nat → Prop}
    {s t : TestSession}
    (hOnward : s.Onward mayBegin t) :
    t.state.item = s.state.item := by
  have hItem := congrArg Standing.item hOnward.standing
  exact hItem

/- Meanwhile only items of the part under way have begun. -/
def Calm (s t : TestSession) : Prop :=
  s.Onward (fun q => s.state.part = some q) t

instance : Std.Refl Calm where
  refl s := Onward.refl _ s

instance : IsTrans TestSession Calm where
  trans s t u hFirst hThen := by
    unfold Calm at hThen
    rw [Onward.part hFirst] at hThen
    exact Onward.trans hFirst hThen

/- A session stays in order where it stands. -/
theorem Calm.orderly
    {s t : TestSession}
    (hCalm : s.Calm t)
    (hOrder : s.Orderly) :
    t.Orderly := by
  unfold Orderly
  rw [hCalm.test, hCalm.standing]
  exact InOrder.kept hOrder hCalm.kept fun _ _ hPart =>
    Or.inr hPart

/- Events and outcomes are no part of the standing. -/
theorem calm_of_state
    {s t : TestSession}
    (hTest : t.test = s.test)
    (hStanding : t.state.standing = s.state.standing)
    (hEntries : t.entries = s.entries) :
    s.Calm t := by
  refine ⟨hTest, hStanding, ?_⟩
  rw [hEntries]
  exact Kept.refl _ s.entries

theorem changeState_calm
    {f : TestState → TestState}
    (hStanding : ∀ s, (f s).standing = s.standing) :
    Moves Calm (changeState f) :=
  fun s => calm_of_state rfl (hStanding s.state) rfl

theorem switchSections_calm
    (running : List String)
    (now : Instant) :
    Moves Calm (switchSections running now) :=
  changeState_calm fun _ => rfl

/- An item that is put back has gone on. -/
theorem putSession_onward
    {mayBegin : Nat → Prop}
    {s : TestSession}
    {i : Nat}
    {e : ItemEntry}
    (hE : s.entries[i]? = some e)
    {session : ItemSession}
    (hSettles : e.session.Settles session)
    (hBegun :
      session.state.IsBegun →
        e.session.state.IsBegun ∨ mayBegin e.part) :
    s.Onward mayBegin (putSession s i e session) :=
  ⟨rfl, rfl,
    Kept.set hE
      (t := { session with events := [] })
      ⟨hSettles.advances, hSettles.shut⟩ hBegun⟩

/- An item of the part under way may be settled at any time. -/
theorem onItem_calm
    {α : Type}
    {i : Nat}
    {x : Action α}
    (hMoves : Moves ItemSession.Settles x)
    {s : TestSession}
    (hPart :
      ∀ e, s.entries[i]? = some e →
        s.state.part = some e.part) :
    Ends (onItem i x) s fun _ t => s.Calm t := by
  rw [ends_onItem]
  split
  next => exact Std.Refl.refl (r := Calm) s
  next e hE =>
    refine (hMoves e.session).mono fun r session hSettles => ?_
    exact putSession_onward hE hSettles fun _ =>
      Or.inr (hPart e hE)

/- The current item belongs to the part under way. -/
theorem Orderly.part_of_current
    {s : TestSession}
    (hOrder : s.Orderly)
    {i : Nat}
    (hItem : s.state.item = some i)
    (e : ItemEntry)
    (hE : s.entries[i]? = some e) :
    s.state.part = some e.part := by
  rcases InOrder.current hOrder i hItem with ⟨f, hF, hPart, _⟩
  rw [hE] at hF
  cases hF
  exact hPart

theorem touch_calm
    {s : TestSession}
    (hOrder : s.Orderly)
    (now : Instant) :
    Ends (touch now) s fun _ t => s.Calm t := by
  have hTimers : ∀ u : TestState,
      (u.partTimers.map fun t => t.touch now).map
        Timer.isRunning = u.partTimers.map Timer.isRunning := by
    intro u
    simp [Function.comp_def]
  refine Ends.bind ?_ fun _ t hTouched => ?_
  · exact changeState_calm (fun u => by
      simp only [TestState.standing, hTimers]) s
  rw [ends_getState_bind]
  split
  next i hItem =>
    refine Ends.bind ?_ fun _ u _ => ?_
    · exact onItem_calm (ItemSession.touch_settles now)
        ((hTouched.orderly hOrder).part_of_current hItem)
    · exact changeState_calm (fun _ => by rfl) u
  next => exact changeState_calm (fun _ => by rfl) t

/- Outcome processing reads the items and leaves them alone. -/
theorem processOutcomes_calm : Moves Calm processOutcomes :=
  processOutcomes_moves
    (announced_moves _ fun _ _ => calm_of_state rfl rfl rfl)
    (fun _ => calm_of_state rfl rfl rfl)
    fun _ t _ =>
      runRules_moves (fun _ _ => calm_of_state rfl rfl rfl) _ t

theorem submit_calm
    {s : TestSession}
    (hOrder : s.Orderly)
    (responses : ItemSession.Responses)
    (now : Instant) :
    Ends (submit responses now) s fun _ t => s.Calm t := by
  rw [submit]
  refine ends_ensureRunning_bind ?_ ?_
  · exact fun _ => Std.Refl.refl (r := Calm) s
  intro _ _
  rw [ends_getState_bind]
  split
  next => exact Std.Refl.refl (r := Calm) s
  next i hItem =>
    refine Ends.bind (touch_calm hOrder now) ?_
    intro _ t hTouched
    rw [ends_get_bind]
    extract_lets late
    have hPart :=
      (hTouched.orderly hOrder).part_of_current
        (hTouched.item.trans hItem)
    split
    · refine Ends.bind ?_ fun _ u _ => ?_
      · exact onItem_calm (ItemSession.timeOut_settles now) hPart
      · exact Std.Refl.refl (r := Calm) u
    · refine Ends.bind ?_ fun _ u _ => ?_
      · exact onItem_calm
          (ItemSession.submit_settles responses now) hPart
      · exact Moves.ite_bind processOutcomes_calm
          (fun _ => Moves.pure _) u

------------------------------------------------------------
-- Moving Between Items
------------------------------------------------------------

/- A session is where it was, except for the current item. -/
structure Near (s t : TestSession) : Prop where
  test : t.test = s.test
  standing :
    { t.state.standing with item := none } =
      { s.state.standing with item := none }
  length : t.entries.length = s.entries.length
  part :
    ∀ (i : Nat) (e f : ItemEntry),
      s.entries[i]? = some e → t.entries[i]? = some f →
      f.part = e.part

namespace Near

variable {s t : TestSession}

theorem part_eq (hNear : s.Near t) :
    t.state.part = s.state.part := by
  have hPart := congrArg Standing.part hNear.standing
  exact hPart

theorem ended_eq (hNear : s.Near t) :
    t.state.ended = s.state.ended := by
  have hEnded := congrArg Standing.ended hNear.standing
  exact hEnded

theorem finished_eq (hNear : s.Near t) :
    t.state.finished = s.state.finished := by
  have hFinished := congrArg Standing.finished hNear.standing
  exact hFinished

theorem exited_eq (hNear : s.Near t) :
    t.state.exited = s.state.exited := by
  have hExited := congrArg Standing.exited hNear.standing
  exact hExited

/- An item is still there, and still of its part. -/
theorem exists_after
    (hNear : s.Near t)
    {i : Nat}
    {e : ItemEntry}
    (hE : s.entries[i]? = some e) :
    ∃ f, t.entries[i]? = some f ∧ f.part = e.part := by
  have hBound : i < t.entries.length := by
    rw [hNear.length]
    exact (List.getElem?_eq_some_iff.mp hE).1
  have hF := List.getElem?_eq_getElem hBound
  exact ⟨t.entries[i], hF, hNear.part i e _ hE hF⟩

end Near

theorem Calm.near
    {s t : TestSession}
    (hCalm : s.Calm t) :
    s.Near t :=
  ⟨hCalm.test, by rw [hCalm.standing], hCalm.kept.length,
    hCalm.kept.part⟩

theorem Near.refl (s : TestSession) : s.Near s :=
  (Std.Refl.refl (r := Calm) s).near

theorem Near.trans
    {s t u : TestSession}
    (hFirst : s.Near t)
    (hThen : t.Near u) :
    s.Near u := by
  refine ⟨hThen.test.trans hFirst.test,
    hThen.standing.trans hFirst.standing,
    hThen.length.trans hFirst.length, ?_⟩
  intro i e g hE hG
  rcases hFirst.exists_after hE with ⟨f, hF, hPart⟩
  exact (hThen.part i f g hF hG).trans hPart

/- An item that is not open any more may be left. -/
theorem Orderly.leaveItem
    {s : TestSession}
    (hOrder : s.Orderly)
    (hShut :
      ∀ (i : Nat) (e : ItemEntry), s.state.item = some i →
        s.entries[i]? = some e →
        e.session.state.phase ≠ .interacting) :
    { s with state := { s.state with item := none } }.Orderly :=
  InOrder.leaveItem hOrder fun i e hE hPhase =>
    hShut i e (InOrder.interacting hOrder i e hE hPhase) hE
      hPhase

/- The current item is left, unless that is refused. -/
theorem ends_leaveCurrent
    {s : TestSession}
    (hOrder : s.Orderly)
    (now : Instant) :
    Ends (leaveCurrent now) s fun r t =>
      t.Orderly ∧ s.Near t ∧
        (r.isOk = true → t.state.item = none) := by
  rw [leaveCurrent, ends_get_bind]
  split
  next i hItem =>
    rcases InOrder.current hOrder i hItem with ⟨e, hE, hPart, _⟩
    rw [ends_bind, ends_onItem, hE]
    refine (ends_leaveItem _ now e.session).mono
      fun r session hLeft => ?_
    have hCalm : s.Calm (putSession s i e session) :=
      putSession_onward hE hLeft.1 fun _ => Or.inr hPart
    cases r with
    | error => exact ⟨hCalm.orderly hOrder, hCalm.near,
        fun hOk => by cases hOk⟩
    | ok =>
        refine ⟨(hCalm.orderly hOrder).leaveItem ?_, ?_,
          fun _ => rfl⟩
        · intro j f hJ hF
          rcases getElem?_set_cases hF with ⟨_, rfl⟩ | ⟨hNe, _⟩
          · exact hLeft.2 rfl
          · rw [show s.state.item = some j from hJ] at hItem
            exact absurd (Option.some.inj hItem) hNe
        · exact ⟨rfl, rfl, hCalm.kept.length, hCalm.kept.part⟩
  next hNone =>
    refine ⟨hOrder, Near.refl s, ?_⟩
    intro _
    exact Option.eq_none_iff_forall_ne_some.mpr hNone

/-
  An item of the part under way is presented, when it is the
  current one or there is none.
-/
theorem ends_present
    {s : TestSession}
    (hOrder : s.Orderly)
    {i : Nat}
    {e : ItemEntry}
    (hE : s.entries[i]? = some e)
    (hPart : s.state.part = some e.part)
    (hOpen : e.part ∉ s.state.ended)
    (hFinished : s.state.finished = false)
    (hFree : s.state.item = none ∨ s.state.item = some i)
    (now : Instant) :
    Ends (present i now) s fun _ t => t.Orderly ∧ s.Near t := by
  have hSwitched :
      Ends (switchSections e.sections now) s fun r t =>
        r = .ok () ∧ s.Calm t ∧ t.entries = s.entries ∧
          t.state.standing = s.state.standing :=
    ⟨rfl, switchSections_calm e.sections now s, rfl, rfl⟩
  rw [present, ends_get_bind, hE]
  dsimp only
  rw [ends_bind]
  refine hSwitched.mono fun r t hSwitch => ?_
  rcases hSwitch with ⟨rfl, hCalm, hEntries, hStanding⟩
  have hOrder' : t.Orderly := hCalm.orderly hOrder
  have hCoherent := InOrder.coherent hOrder i e hE
  have hE' : t.entries[i]? = some e := hEntries ▸ hE
  rw [ends_bind, ends_onItem, hE']
  refine (ends_presentItem e.ref.identifier now hCoherent).mono
    fun r session hPresented => ?_
  cases r with
  | error =>
      have hSame : session = e.session := (hPresented.2 rfl).1
      have hBack : t.Calm (putSession t i e session) := by
        refine putSession_onward hE' ?_ fun _ => Or.inr ?_
        · rw [hSame]
          exact Std.Refl.refl (r := Settles) e.session
        · exact hCalm.part.trans hPart
      exact ⟨hBack.orderly hOrder', hCalm.near.trans hBack.near⟩
  | ok =>
      have hPut :=
        InOrder.present hOrder' hE' (hCalm.part.trans hPart)
          (hStanding ▸ hOpen) (hStanding ▸ hFinished)
          (hStanding ▸ hFree)
          (t := { session with events := [] })
          hPresented.1
      refine ⟨hPut, hCalm.near.trans ⟨rfl, rfl, ?_, ?_⟩⟩
      · exact List.length_set
      · exact fun _ _ _ => part_of_set hE'

theorem mem_entriesIn
    {s : TestSession}
    {p i : Nat}
    {e : ItemEntry}
    (hMem : (e, i) ∈ s.entriesIn p) :
    s.entries[i]? = some e ∧ e.part = p := by
  rw [entriesIn, List.mem_filter] at hMem
  exact ⟨List.mem_zipIdx_iff_getElem?.mp hMem.1,
    by simpa using hMem.2⟩

/- An item of a part is found in its place there. -/
theorem mem_entriesIn_of_getElem?
    {s : TestSession}
    {i : Nat}
    {e : ItemEntry}
    (hE : s.entries[i]? = some e) :
    (e, i) ∈ s.entriesIn e.part := by
  rw [entriesIn, List.mem_filter, List.mem_zipIdx_iff_getElem?]
  exact ⟨hE, by simp⟩

/- A place that is found belongs to an item of the part. -/
theorem exists_of_nextPlace?
    {s : TestSession}
    {p i : Nat}
    (hNext : s.nextPlace? p = some i) :
    ∃ e, s.entries[i]? = some e ∧ e.part = p := by
  rw [nextPlace?, Option.map_eq_some_iff] at hNext
  rcases hNext with ⟨⟨e, _⟩, hFind, rfl⟩
  exact ⟨e, mem_entriesIn (List.mem_of_find?_eq_some hFind)⟩

theorem exists_of_placeIn?
    {s : TestSession}
    {p i : Nat}
    {ref : String}
    {occurrence : Nat}
    (hPlace : s.placeIn? p ref occurrence = some i) :
    ∃ e, s.entries[i]? = some e ∧ e.part = p := by
  rw [placeIn?, Option.map_eq_some_iff] at hPlace
  rcases hPlace with ⟨⟨e, _⟩, hFind, rfl⟩
  exact ⟨e, mem_entriesIn (List.mem_of_find?_eq_some hFind)⟩

/- An item of the part under way is shown, once none is open. -/
theorem ends_presented
    {s t : TestSession}
    (hNear : s.Near t)
    (hOrder : t.Orderly)
    {i : Nat}
    {e : ItemEntry}
    (hE : s.entries[i]? = some e)
    (hPart : s.state.part = some e.part)
    (hOpen : e.part ∉ s.state.ended)
    (hFinished : s.state.finished = false)
    (hFree : t.state.item = none ∨ t.state.item = some i)
    (now : Instant) :
    Ends (do
      present i now
      return (← get).entries[i]?) t fun _ u =>
        u.Orderly ∧ s.Near u := by
  rcases hNear.exists_after hE with ⟨f, hF, hSame⟩
  rw [← hSame] at hPart hOpen
  rw [ends_bind]
  refine (ends_present hOrder hF (hNear.part_eq.trans hPart)
    (hNear.ended_eq ▸ hOpen) (hNear.finished_eq.trans hFinished)
    hFree now).mono fun r u hShown => ?_
  have hAll := hNear.trans hShown.2
  cases r <;> exact ⟨hShown.1, hAll⟩

theorem ends_nextItem
    {s : TestSession}
    (hOrder : s.Orderly)
    (now : Instant) :
    Ends (nextItem now) s fun _ t => t.Orderly ∧ s.Near t := by
  have hSelf : s.Orderly ∧ s.Near s := ⟨hOrder, Near.refl s⟩
  rw [nextItem]
  refine ends_ensureRunning_bind (fun _ => hSelf)
    fun _ hFinished => ?_
  refine ends_runningPart_bind (fun _ => hSelf)
    fun p hPart hOpen => ?_
  rw [ends_bind]
  refine (touch_calm hOrder now).mono fun r t hTouched => ?_
  have hOrderT : t.Orderly := hTouched.orderly hOrder
  cases r with
  | error => exact ⟨hOrderT, hTouched.near⟩
  | ok =>
      dsimp only
      rw [ends_get_bind, ends_bind]
      refine (ends_leaveCurrent hOrderT now).mono
        fun r u hLeft => ?_
      rcases hLeft with ⟨hOrderU, hNearU, hNone⟩
      have hNear := hTouched.near.trans hNearU
      cases r with
      | error => exact ⟨hOrderU, hNear⟩
      | ok =>
          dsimp only
          split
          next i hNext =>
            rcases exists_of_nextPlace? hNext with
              ⟨e, hE, hSame⟩
            have hBefore : ∃ d, s.entries[i]? = some d :=
              hTouched.kept.exists_before hE
            rcases hBefore with ⟨d, hD⟩
            have hDPart : d.part = p :=
              (hTouched.kept.part i d e hD hE).symm.trans hSame
            subst hDPart
            exact ends_presented hNear hOrderU hD hPart hOpen
              hFinished (Or.inl (hNone rfl)) now
          next =>
            rw [ends_bind]
            refine (switchSections_calm [] now u).mono
              fun r v hCalm => ?_
            have hAll := hNear.trans hCalm.near
            cases r <;> exact ⟨hCalm.orderly hOrderU, hAll⟩

theorem ends_selectItem
    {s : TestSession}
    (hOrder : s.Orderly)
    (ref : String)
    (occurrence : Nat)
    (now : Instant) :
    Ends (selectItem ref occurrence now) s fun _ t =>
      t.Orderly ∧ s.Near t := by
  have hSelf : s.Orderly ∧ s.Near s := ⟨hOrder, Near.refl s⟩
  rw [selectItem]
  refine ends_ensureRunning_bind (fun _ => hSelf)
    fun _ hFinished => ?_
  refine ends_runningPart_bind (fun _ => hSelf)
    fun p hPart hOpen => ?_
  rw [ends_get_bind]
  dsimp only
  rw [ends_ite]
  split
  · split
    next => exact hSelf
    next i hPlace =>
      rcases exists_of_placeIn? hPlace with ⟨e, hE, hSame⟩
      rw [ends_bind]
      refine (touch_calm hOrder now).mono fun r t hTouched => ?_
      have hOrderT : t.Orderly := hTouched.orderly hOrder
      cases r with
      | error => exact ⟨hOrderT, hTouched.near⟩
      | ok =>
          dsimp only
          rw [ends_getState_bind, ends_ite]
          subst hSame
          split
          next =>
            rw [ends_bind]
            refine (ends_leaveCurrent hOrderT now).mono
              fun r u hLeft => ?_
            rcases hLeft with ⟨hOrderU, hNearU, hNone⟩
            have hNear := hTouched.near.trans hNearU
            cases r with
            | error => exact ⟨hOrderU, hNear⟩
            | ok =>
                exact ends_presented hNear hOrderU hE hPart
                  hOpen hFinished (Or.inl (hNone rfl)) now
          next hCurrent =>
            exact ends_presented hTouched.near hOrderT hE hPart
              hOpen hFinished (Or.inr (by simpa using hCurrent))
              now
  · rw [ends_bind, ends_refuse]
    exact hSelf

end TestSession

end Assessment
