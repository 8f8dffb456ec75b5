import Assessment.Proofs.Item.Lifecycle
import Assessment.Proofs.Test.Steps
import Assessment.Test.Session

/-
  The order of a test session.

  A test opens an item in one way only, by presenting it.
  Everything else it does with an item settles it: the life of
  the item goes on, and the item is not open afterwards unless
  it was open before.

  A test session leads through its parts one after the other
  and has at most one item open, which is the current one.
  Where a session stands, and what its items have come to,
  agree with each other in every state that calls lead to.

  Main declarations:
    * `ItemSession.Settles`, and the steps that obey it
    * `ends_leaveItem`, `ends_presentItem` and `ends_closeItem`
    * `Standing`, where a test session stands
    * `InOrder`, how the standing agrees with the items
    * `Onward`, what leaves the standing as it is
-/

------------------------------------------------------------
-- Settling
------------------------------------------------------------

namespace Assessment

open Stateful

namespace ItemSession

/- The life goes on, and the item has not been opened. -/
structure Settles (s t : ItemSession) : Prop where
  advances : s.Advances t
  shut :
    t.state.phase = .interacting → s.state.phase = .interacting

instance : Std.Refl Settles where
  refl s := ⟨Std.Refl.refl (r := Advances) s, id⟩

instance : IsTrans ItemSession Settles where
  trans s t u hFirst hThen :=
    ⟨IsTrans.trans (r := Advances) s t u hFirst.advances
      hThen.advances, hFirst.shut ∘ hThen.shut⟩

theorem SameLife.settles
    {s t : ItemSession}
    (hLife : s.SameLife t) :
    s.Settles t :=
  ⟨hLife.advances, fun hPhase =>
    (ItemState.phase_of_life hLife).symm.trans hPhase⟩

/- The item has not been opened. -/
def StaysShut (s t : ItemSession) : Prop :=
  t.state.phase = .interacting → s.state.phase = .interacting

instance : Std.Refl StaysShut where
  refl _ := id

theorem settles_of_staysShut
    {α : Type}
    {x : Action α}
    (hAdvances : Moves Advances x)
    (hShut : Moves StaysShut x) :
    Moves Settles x :=
  fun s => ⟨hAdvances s, hShut s⟩

theorem touch_settles (now : Instant) :
    Moves Settles (touch now) :=
  settles_of_staysShut (touch_advances now) fun _ => id

theorem suspend_settles (now : Instant) :
    Moves Settles (suspend now) :=
  settles_of_staysShut (suspend_advances now)
    (suspend_moves fun _ _ hPhase _ => hPhase)

/- A closed session is not open. -/
theorem closed_phase (s : ItemState) (now : Instant) :
    (s.closed now).phase ≠ .interacting :=
  Phase.noConfusion

theorem finish_settles (now : Instant) :
    Moves Settles (finish now) :=
  settles_of_staysShut (finish_advances now)
    (finish_moves fun _ _ _ hOpen =>
      absurd hOpen (closed_phase _ now))

theorem timeOut_settles (now : Instant) :
    Moves Settles (timeOut now) :=
  settles_of_staysShut (timeOut_advances now)
    (timeOut_moves fun _ _ _ hOpen =>
      absurd hOpen (closed_phase _ now))

theorem skip_settles (now : Instant) :
    Moves Settles (skip now) :=
  settles_of_staysShut (skip_advances now)
    (skip_moves fun _ _ _ _ _ hOpen =>
      absurd hOpen (closed_phase _ now))

theorem exit_settles (now : Instant) :
    Moves Settles (exit now) :=
  settles_of_staysShut (exit_advances now)
    (exit_moves (fun _ _ _ => id)
      fun _ _ _ hOpen => absurd hOpen (closed_phase _ now))

theorem bindResponses_settles (responses : Responses) :
    Moves Settles (bindResponses responses) :=
  settles_of_staysShut (bindResponses_advances responses)
    (bindResponses_moves fun _ _ _ => id)

theorem processResponses_settles :
    Moves Settles processResponses :=
  processResponses_sameLife.mono fun _ _ => SameLife.settles

theorem partsMove_settles : PartsMove Settles where
  touch := touch_settles
  timeOut := timeOut_settles
  finish := finish_settles
  bindResponses := bindResponses_settles
  processResponses := processResponses_settles

theorem submit_settles (responses : Responses) (now : Instant) :
    Moves Settles (submit responses now) :=
  submit_moves partsMove_settles responses now

end ItemSession

namespace ItemState

/- The item has been presented, or it has been closed. -/
def IsBegun (s : ItemState) : Prop :=
  s.presented = true ∨ s.finished = true

end ItemState

namespace ItemSession

/- A session that has been put aside is not open. -/
theorem ends_suspend_shut (now : Instant) (s : ItemSession) :
    Ends (suspend now) s fun r t =>
      r.isOk = true → t.state.phase ≠ .interacting := by
  rw [ends_suspend]
  split
  · split
    next hPhase =>
      rw [ItemState.phase_eq_interacting_iff] at hPhase
      have hAside := ItemState.phase_putAside hPhase.1 now
      simp [hAside]
    next => exact fun hOk => by cases hOk
  · exact fun hOk => by cases hOk

theorem ends_finish_finished (now : Instant) (s : ItemSession) :
    Ends (finish now) s fun r t =>
      r.isOk = true → t.state.finished = true := by
  rw [ends_finish]
  split
  · split
    · exact fun hOk => by cases hOk
    · exact fun _ => rfl
  · exact fun hOk => by cases hOk

theorem ends_skip_finished (now : Instant) (s : ItemSession) :
    Ends (skip now) s fun r t =>
      r.isOk = true → t.state.finished = true := by
  rw [ends_skip]
  split
  · split
    · exact fun hOk => by cases hOk
    · split
      · exact fun hOk => by cases hOk
      · split
        · exact fun hOk => by cases hOk
        · exact fun _ => rfl
  · exact fun hOk => by cases hOk

/-
  An initialization settles, begins nothing, and when it goes
  through the session is initialized.
-/
theorem ends_initialise_settles
    (defaults : List TemplateDefault)
    (s : ItemSession) :
    Ends (initialise defaults) s fun r t =>
      s.Settles t ∧ (t.state.IsBegun → s.state.IsBegun) ∧
        (r.isOk = true → t.state.initialized = true) := by
  have hBoth :=
    (ends_initialise defaults s).and
      (initialise_advances defaults s)
  refine hBoth.mono fun r t hEnds => ?_
  rcases hEnds with ⟨hEnds, hAdvances⟩
  cases r with
  | error =>
      refine ⟨hEnds.settles, ?_, fun hOk => by cases hOk⟩
      unfold ItemState.IsBegun
      rw [ItemState.presented_of_life hEnds,
        ItemState.finished_of_life hEnds]
      exact id
  | ok =>
      rcases hEnds with ⟨_, u, hLife, hState⟩
      refine ⟨⟨hAdvances, ?_⟩, ?_, fun _ => by rw [hState]⟩
      · rw [hState, ItemState.phase_eq_interacting_iff,
          ← ItemState.phase_of_life hLife,
          ItemState.phase_eq_interacting_iff]
        exact id
      · rw [hState]
        unfold ItemState.IsBegun
        rw [← ItemState.presented_of_life hLife,
          ← ItemState.finished_of_life hLife]
        exact id

/- An initialized session can always be left for good. -/
theorem ends_exit_initialized
    {s : ItemSession}
    (hInit : s.state.initialized = true)
    (now : Instant) :
    Ends (exit now) s fun r t =>
      r.isOk = true ∧ t.state.finished = true := by
  rw [ends_exit, if_pos hInit]
  split
  next hFinished => exact ⟨rfl, hFinished⟩
  next => exact ⟨rfl, rfl⟩

end ItemSession

------------------------------------------------------------
-- Items in a Test
------------------------------------------------------------

namespace TestSession

open ItemSession

/- An item that has been left is not open. -/
theorem ends_leaveItem
    (keeps : Bool)
    (now : Instant)
    (s : ItemSession) :
    Ends (leaveItem keeps now) s fun r t =>
      s.Settles t ∧
        (r.isOk = true → t.state.phase ≠ .interacting) := by
  have hClosed : ∀ t : ItemSession, t.state.finished = true →
      t.state.phase ≠ .interacting := by
    intro t hFinished
    rw [ne_eq, ItemState.phase_eq_interacting_iff, hFinished]
    simp
  have hEnd :
      Ends
        (if s.state.responded = true then finish now
          else skip now) s fun r t =>
        s.Settles t ∧
          (r.isOk = true → t.state.phase ≠ .interacting) := by
    rw [ends_ite]
    split
    · exact (Ends.and (finish_settles now s)
        (ends_finish_finished now s)).mono fun r t hBoth =>
          ⟨hBoth.1, hClosed t ∘ hBoth.2⟩
    · exact (Ends.and (skip_settles now s)
        (ends_skip_finished now s)).mono fun r t hBoth =>
          ⟨hBoth.1, hClosed t ∘ hBoth.2⟩
  simp only [leaveItem, ends_bind, ItemSession.ends_getState]
  split
  next =>
    exact Ends.and (suspend_settles now s)
      (ends_suspend_shut now s)
  next => exact hEnd
  next => exact hEnd
  next keeps _ _ hNotOpen hNotClosing _ =>
    refine ⟨Std.Refl.refl (r := Settles) s, fun _ hOpen => ?_⟩
    cases keeps with
    | true => exact hNotOpen hOpen rfl
    | false => exact hNotClosing hOpen rfl

/-
  Presenting an item opens it. An item that cannot be
  presented is left as it is.
-/
theorem ends_presentItem
    (ref : String)
    (now : Instant)
    {s : ItemSession}
    (hCoherent : s.state.Coherent) :
    Ends (presentItem ref now) s fun r t =>
      s.Advances t ∧
        (r.isOk = false →
          t = s ∧ s.state.phase ≠ .interacting) := by
  simp only [presentItem, ends_bind, ItemSession.ends_getState]
  split
  next hPhase =>
    refine Ends.and (enter_advances now s) ?_
    rw [ItemState.phase_eq_initialized_iff] at hPhase
    simp [ends_enter, hPhase, Except.isOk, Except.toBool]
  next hPhase =>
    refine Ends.and (resume_advances now s) ?_
    have hInit := hCoherent.initialized_of_suspended hPhase
    simp [ends_resume, hPhase, hInit, Except.isOk,
      Except.toBool]
  next =>
    exact ⟨Std.Refl.refl (r := Advances) s,
      fun hFailed => by cases hFailed⟩
  next hNotOpen =>
    exact ⟨Std.Refl.refl (r := Advances) s,
      fun _ => ⟨rfl, hNotOpen⟩⟩

/- An item that has been closed is finished. -/
theorem ends_closeItem (now : Instant) (s : ItemSession) :
    Ends (closeItem now) s fun r t =>
      s.Settles t ∧
        (r.isOk = true → t.state.finished = true) := by
  simp only [closeItem, ends_bind, ItemSession.ends_getState, ends_ite,
    ends_pure]
  split
  next hFinished =>
    refine ⟨Std.Refl.refl (r := Settles) s, fun _ => ?_⟩
    rw [← ItemState.phase_eq_finished_iff]
    simpa using hFinished
  next =>
    refine (processPending_moves processResponses_settles
      s).mono fun r t hFirst => ?_
    cases r with
    | error => exact ⟨hFirst, fun hOk => by cases hOk⟩
    | ok processed =>
        refine (Ends.and (finish_settles now t)
          (ends_finish_finished now t)).mono
            fun r u hThen => ?_
        have hAll : s.Settles u :=
          IsTrans.trans _ _ _ hFirst hThen.1
        cases r with
        | error => exact ⟨hAll, fun hOk => by cases hOk⟩
        | ok => exact ⟨hAll, fun _ => hThen.2 rfl⟩

end TestSession

------------------------------------------------------------
-- Standing
------------------------------------------------------------

open Stateful

/- Where a test session stands, and which timers run. -/
structure Standing where
  initialized : Bool
  finished : Bool
  exited : Bool
  part : Option Nat
  item : Option Nat
  ended : List Nat
  running : List Bool

/- Where a test session stands in a state. -/
def TestState.standing (s : TestState) : Standing where
  initialized := s.initialized
  finished := s.finished
  exited := s.exited
  part := s.part
  item := s.item
  ended := s.ended
  running := s.partTimers.map Timer.isRunning

------------------------------------------------------------
-- Order
------------------------------------------------------------

/-
  How the standing of a session on a test of some parts agrees
  with the items of the session.
-/
structure InOrder
    (parts : Nat)
    (c : Standing)
    (es : List ItemEntry) :
    Prop where
  coherent :
    ∀ (i : Nat) (e : ItemEntry), es[i]? = some e →
      e.session.state.Coherent
  initialized :
    c.initialized = true →
      ∀ (i : Nat) (e : ItemEntry), es[i]? = some e →
        e.session.state.initialized = true
  /- The current item belongs to the part under way. -/
  current :
    ∀ i, c.item = some i →
      ∃ e : ItemEntry, es[i]? = some e ∧ c.part = some e.part ∧
        e.part ∉ c.ended ∧ c.finished = false
  /- No other item is open. -/
  interacting :
    ∀ (i : Nat) (e : ItemEntry), es[i]? = some e →
      e.session.state.phase = .interacting → c.item = some i
  before : ∀ p, c.part = some p → ∀ q, q < p → q ∈ c.ended
  behind : ∀ p, c.part = some p → ∀ q, p < q → q ∉ c.ended
  /- No part has ended before the first one is entered. -/
  unentered : c.part = none → c.exited = false → c.ended = []
  timers :
    ∀ (q : Nat) (b : Bool), c.running[q]? = some b →
      (b = true ↔ c.part = some q ∧ q ∉ c.ended)
  count : c.running.length = parts
  closed :
    ∀ (i : Nat) (e : ItemEntry), es[i]? = some e →
      e.part ∈ c.ended → e.session.state.finished = true
  /- Only items of parts that were entered have begun. -/
  begun :
    c.exited = false →
      ∀ (i : Nat) (e : ItemEntry), es[i]? = some e →
        e.session.state.IsBegun →
          e.part ∈ c.ended ∨ c.part = some e.part
  left : c.exited = true → c.part = none ∧ c.finished = true

/- A test session is in order. -/
def TestSession.Orderly (s : TestSession) : Prop :=
  InOrder s.test.parts.length s.state.standing s.entries

------------------------------------------------------------
-- Items That Go On
------------------------------------------------------------

/-
  Items have been settled, and only items of some parts have
  begun meanwhile.
-/
structure Kept
    (mayBegin : Nat → Prop)
    (es fs : List ItemEntry) :
    Prop where
  length : fs.length = es.length
  part :
    ∀ (i : Nat) (e f : ItemEntry),
      es[i]? = some e → fs[i]? = some f →
      f.part = e.part
  settles :
    ∀ (i : Nat) (e f : ItemEntry),
      es[i]? = some e → fs[i]? = some f →
      e.session.Settles f.session
  begun :
    ∀ (i : Nat) (e f : ItemEntry),
      es[i]? = some e → fs[i]? = some f →
      f.session.state.IsBegun →
        e.session.state.IsBegun ∨ mayBegin e.part

/- An item keeps its part whatever becomes of its session. -/
theorem part_of_set
    {es : List ItemEntry}
    {i : Nat}
    {e : ItemEntry}
    (hE : es[i]? = some e)
    {session : ItemSession}
    {j : Nat}
    {d f : ItemEntry}
    (hD : es[j]? = some d)
    (hF :
      (es.set i { e with session := session })[j]? = some f) :
    f.part = d.part := by
  rcases getElem?_set_cases hF with ⟨rfl, rfl⟩ | ⟨_, hSame⟩
  · rw [hE] at hD
    cases hD
    rfl
  · rw [hD] at hSame
    cases hSame
    rfl

namespace Kept

variable {mayBegin : Nat → Prop}
variable {es fs gs : List ItemEntry}

theorem refl (mayBegin : Nat → Prop) (es : List ItemEntry) :
    Kept mayBegin es es := by
  refine ⟨rfl, ?_, ?_, ?_⟩
  · intro i e f hE hF
    rw [hE] at hF
    cases hF
    rfl
  · intro i e f hE hF
    rw [hE] at hF
    cases hF
    exact Std.Refl.refl (r := ItemSession.Settles) e.session
  · intro i e f hE hF hBegun
    rw [hE] at hF
    cases hF
    exact Or.inl hBegun

/- An item has gone on from an item in the same place. -/
theorem exists_before
    (hKept : Kept mayBegin es fs)
    {i : Nat}
    {f : ItemEntry}
    (hF : fs[i]? = some f) :
    ∃ e, es[i]? = some e := by
  have hBound : i < fs.length :=
    (List.getElem?_eq_some_iff.mp hF).1
  rw [hKept.length] at hBound
  exact ⟨es[i], List.getElem?_eq_getElem hBound⟩

/- An item goes on to an item in the same place. -/
theorem exists_after
    (hKept : Kept mayBegin es fs)
    {i : Nat}
    {e : ItemEntry}
    (hE : es[i]? = some e) :
    ∃ f, fs[i]? = some f := by
  have hBound : i < es.length :=
    (List.getElem?_eq_some_iff.mp hE).1
  rw [← hKept.length] at hBound
  exact ⟨fs[i], List.getElem?_eq_getElem hBound⟩

theorem trans
    (hFirst : Kept mayBegin es fs)
    (hThen : Kept mayBegin fs gs) :
    Kept mayBegin es gs := by
  refine ⟨hThen.length.trans hFirst.length, ?_, ?_, ?_⟩
  · intro i e g hE hG
    rcases hFirst.exists_after hE with ⟨f, hF⟩
    exact (hThen.part i f g hF hG).trans
      (hFirst.part i e f hE hF)
  · intro i e g hE hG
    rcases hFirst.exists_after hE with ⟨f, hF⟩
    exact IsTrans.trans _ _ _ (hFirst.settles i e f hE hF)
      (hThen.settles i f g hF hG)
  · intro i e g hE hG hBegun
    rcases hFirst.exists_after hE with ⟨f, hF⟩
    rcases hThen.begun i f g hF hG hBegun with hEarlier | hMay
    · exact hFirst.begun i e f hE hF hEarlier
    · rw [hFirst.part i e f hE hF] at hMay
      exact Or.inr hMay

/- One item goes on and the others stay as they are. -/
theorem set
    {i : Nat}
    {e : ItemEntry}
    (hE : es[i]? = some e)
    {t : ItemSession}
    (hSettles : e.session.Settles t)
    (hBegun :
      t.state.IsBegun →
        e.session.state.IsBegun ∨ mayBegin e.part) :
    Kept mayBegin es
      (es.set i { e with session := t }) := by
  refine ⟨List.length_set, fun _ _ _ => part_of_set hE, ?_, ?_⟩
  · intro j d f hD hF
    rcases getElem?_set_cases hF with ⟨rfl, rfl⟩ | ⟨_, hSame⟩
    · rw [hE] at hD
      cases hD
      exact hSettles
    · rw [hD] at hSame
      cases hSame
      exact Std.Refl.refl (r := ItemSession.Settles) d.session
  · intro j d f hD hF
    rcases getElem?_set_cases hF with ⟨rfl, rfl⟩ | ⟨_, hSame⟩
    · rw [hE] at hD
      cases hD
      exact hBegun
    · rw [hD] at hSame
      cases hSame
      exact Or.inl

end Kept

------------------------------------------------------------
-- Changes of Standing
------------------------------------------------------------

namespace InOrder

variable {parts : Nat}
variable {c : Standing}
variable {es fs : List ItemEntry}

/- Items may go on as long as none begins before its part. -/
theorem kept
    {mayBegin : Nat → Prop}
    (hOrder : InOrder parts c es)
    (hKept : Kept mayBegin es fs)
    (hMay :
      c.exited = false →
        ∀ q, mayBegin q → q ∈ c.ended ∨ c.part = some q) :
    InOrder parts c fs where
  coherent i f hF := by
    rcases hKept.exists_before hF with ⟨e, hE⟩
    have hSettles := hKept.settles i e f hE hF
    exact (hSettles.advances (hOrder.coherent i e hE)).coherent
  initialized hInit i f hF := by
    rcases hKept.exists_before hF with ⟨e, hE⟩
    have hSettles := hKept.settles i e f hE hF
    exact (hSettles.advances
      (hOrder.coherent i e hE)).initialized
        (hOrder.initialized hInit i e hE)
  current i hItem := by
    rcases hOrder.current i hItem with
      ⟨e, hE, hPart, hOpen, hFinished⟩
    rcases hKept.exists_after hE with ⟨f, hF⟩
    refine ⟨f, hF, ?_⟩
    rw [hKept.part i e f hE hF]
    exact ⟨hPart, hOpen, hFinished⟩
  interacting i f hF hPhase := by
    rcases hKept.exists_before hF with ⟨e, hE⟩
    have hSettles := hKept.settles i e f hE hF
    exact hOrder.interacting i e hE (hSettles.shut hPhase)
  before := hOrder.before
  behind := hOrder.behind
  unentered := hOrder.unentered
  timers := hOrder.timers
  count := hOrder.count
  closed i f hF hEnded := by
    rcases hKept.exists_before hF with ⟨e, hE⟩
    have hSettles := hKept.settles i e f hE hF
    rw [hKept.part i e f hE hF] at hEnded
    exact (hSettles.advances (hOrder.coherent i e hE)).finished
      (hOrder.closed i e hE hEnded)
  begun hStays i f hF hBegun := by
    rcases hKept.exists_before hF with ⟨e, hE⟩
    rw [hKept.part i e f hE hF]
    rcases hKept.begun i e f hE hF hBegun with hEarlier | hMay'
    · exact hOrder.begun hStays i e hE hEarlier
    · exact hMay hStays e.part hMay'
  left := hOrder.left

/- Once all items are initialized, so is the test. -/
theorem initialise
    (hOrder : InOrder parts c es)
    (hItems :
      ∀ (i : Nat) (e : ItemEntry), es[i]? = some e →
        e.session.state.initialized = true) :
    InOrder parts { c with initialized := true } es :=
  ⟨hOrder.coherent, fun _ => hItems, hOrder.current,
    hOrder.interacting, hOrder.before, hOrder.behind,
    hOrder.unentered, hOrder.timers, hOrder.count,
    hOrder.closed, hOrder.begun, hOrder.left⟩

/- An item is left once it is not open any more. -/
theorem leaveItem
    (hOrder : InOrder parts c es)
    (hShut :
      ∀ (i : Nat) (e : ItemEntry), es[i]? = some e →
        e.session.state.phase ≠ .interacting) :
    InOrder parts { c with item := none } es where
  coherent := hOrder.coherent
  initialized := hOrder.initialized
  current _ hItem := by cases hItem
  interacting i e hE hPhase := absurd hPhase (hShut i e hE)
  before := hOrder.before
  behind := hOrder.behind
  unentered := hOrder.unentered
  timers := hOrder.timers
  count := hOrder.count
  closed := hOrder.closed
  begun := hOrder.begun
  left := hOrder.left

/- An item of the part under way is opened when no other is. -/
theorem present
    (hOrder : InOrder parts c es)
    {i : Nat}
    {e : ItemEntry}
    (hE : es[i]? = some e)
    (hPart : c.part = some e.part)
    (hOpen : e.part ∉ c.ended)
    (hFinished : c.finished = false)
    (hFree : c.item = none ∨ c.item = some i)
    {t : ItemSession}
    (hAdvances : e.session.Advances t) :
    InOrder parts { c with item := some i }
      (es.set i { e with session := t }) := by
  have hProgress := hAdvances (hOrder.coherent i e hE)
  have hBound : i < es.length :=
    (List.getElem?_eq_some_iff.mp hE).1
  refine ⟨?_, ?_, ?_, ?_, hOrder.before, hOrder.behind,
    hOrder.unentered, hOrder.timers, hOrder.count, ?_, ?_,
    hOrder.left⟩
  · intro j f hF
    rcases getElem?_set_cases hF with ⟨_, rfl⟩ | ⟨_, hSame⟩
    · exact hProgress.coherent
    · exact hOrder.coherent j f hSame
  · intro hInit j f hF
    rcases getElem?_set_cases hF with ⟨_, rfl⟩ | ⟨_, hSame⟩
    · exact hProgress.initialized
        (hOrder.initialized hInit i e hE)
    · exact hOrder.initialized hInit j f hSame
  · intro j hItem
    cases hItem
    exact ⟨{ e with session := t },
      List.getElem?_set_self hBound, hPart, hOpen, hFinished⟩
  · intro j f hF hPhase
    rcases getElem?_set_cases hF with ⟨rfl, _⟩ | ⟨hNe, hSame⟩
    · rfl
    · have hItem := hOrder.interacting j f hSame hPhase
      rcases hFree with hNone | hSelf
      · rw [hNone] at hItem
        cases hItem
      · exact hSelf.symm.trans hItem
  · intro j f hF hEnded
    rcases getElem?_set_cases hF with ⟨_, rfl⟩ | ⟨_, hSame⟩
    · exact absurd hEnded hOpen
    · exact hOrder.closed j f hSame hEnded
  · intro hStays j f hF hBegun
    rcases getElem?_set_cases hF with ⟨_, rfl⟩ | ⟨_, hSame⟩
    · exact Or.inr hPart
    · exact hOrder.begun hStays j f hSame hBegun

/- A test that is not finished has not been left. -/
theorem not_exited
    (hOrder : InOrder parts c es)
    (hFinished : c.finished = false) :
    c.exited = false := by
  cases hExited : c.exited with
  | false => rfl
  | true =>
      have hOver := (hOrder.left hExited).2
      rw [hFinished] at hOver
      cases hOver

/-
  Between two parts, the parts that have ended are those
  before the next one.
-/
theorem mem_ended_iff
    (hOrder : InOrder parts c es)
    (hStays : c.exited = false)
    (hEnded : ∀ p, c.part = some p → p ∈ c.ended)
    (q : Nat) :
    q ∈ c.ended ↔ q < c.part.elim 0 (· + 1) := by
  cases hPart : c.part with
  | none => simp [hOrder.unentered hPart hStays]
  | some p =>
      simp only [Option.elim_some, Nat.lt_succ_iff]
      constructor
      · intro hMem
        rcases Nat.lt_or_ge p q with hLate | hLe
        · exact absurd hMem (hOrder.behind p hPart q hLate)
        · exact hLe
      · intro hLe
        rcases Nat.lt_or_eq_of_le hLe with hLt | rfl
        · exact hOrder.before p hPart q hLt
        · exact hEnded q hPart

/- No item is open between two parts. -/
theorem not_interacting
    (hOrder : InOrder parts c es)
    (hEnded : ∀ p, c.part = some p → p ∈ c.ended)
    {i : Nat}
    {e : ItemEntry}
    (hE : es[i]? = some e) :
    e.session.state.phase ≠ .interacting := by
  intro hPhase
  rcases hOrder.current i (hOrder.interacting i e hE hPhase)
    with ⟨f, _, hPart, hOpen, _⟩
  exact hOpen (hEnded f.part hPart)

/-
  The part after the last one that ended is entered, and its
  timer starts.
-/
theorem enterPart
    (hOrder : InOrder parts c es)
    (hFinished : c.finished = false)
    (hEnded : ∀ p, c.part = some p → p ∈ c.ended)
    {next : Nat}
    (hNext : next = c.part.elim 0 (· + 1)) :
    InOrder parts
      { c with
        part := some next
        item := none
        running := c.running.set next true } es := by
  have hStays := hOrder.not_exited hFinished
  have hPast := hOrder.mem_ended_iff hStays hEnded
  rw [← hNext] at hPast
  refine ⟨hOrder.coherent, hOrder.initialized, ?_, ?_, ?_, ?_,
    ?_, ?_, ?_, hOrder.closed, ?_, ?_⟩
  · intro i hItem
    cases hItem
  · intro i e hE hPhase
    exact absurd hPhase (hOrder.not_interacting hEnded hE)
  · intro p hPart q hq
    cases hPart
    exact (hPast q).mpr hq
  · intro p hPart q hq hMem
    cases hPart
    exact Nat.lt_asymm hq ((hPast q).mp hMem)
  · intro hPart
    cases hPart
  · intro q b hGet
    rcases getElem?_set_cases hGet with ⟨rfl, rfl⟩ | ⟨hNe, hOld⟩
    · simp [hPast]
    · -- the timer of an earlier part has stopped with the part
      have hTimer := hOrder.timers q b hOld
      have hNotNext : next ≠ q := fun h => hNe h.symm
      constructor
      · intro hRuns
        have hPart := (hTimer.mp hRuns).1
        exact absurd (hEnded q hPart) (hTimer.mp hRuns).2
      · rintro ⟨hPart, _⟩
        cases hPart
        exact absurd rfl hNotNext
  · simpa using hOrder.count
  · intro _ i e hE hBegun
    rcases hOrder.begun hStays i e hE hBegun with hOver | hPart
    · exact Or.inl hOver
    · exact Or.inl (hEnded e.part hPart)
  · intro hExited
    rw [hStays] at hExited
    cases hExited

/- A part ends once all of its items are finished. -/
theorem endPart
    (hOrder : InOrder parts c es)
    {p : Nat}
    (hPart : c.part = some p)
    (hNoItem : c.item = none)
    (hClosed :
      ∀ (i : Nat) (e : ItemEntry), es[i]? = some e →
        e.part = p → e.session.state.finished = true)
    {ended : List Nat}
    (hEnded : ∀ q, q ∈ ended ↔ q = p ∨ q ∈ c.ended)
    (finished : Bool) :
    InOrder parts
      { c with
        ended := ended
        finished := finished
        running := c.running.set p false } es := by
  refine ⟨hOrder.coherent, hOrder.initialized, ?_,
    hOrder.interacting, ?_, ?_, ?_, ?_, ?_, ?_, ?_, ?_⟩
  · intro i hItem
    rw [hNoItem] at hItem
    cases hItem
  · intro p' hPart' q hq
    exact (hEnded q).mpr (Or.inr (hOrder.before p' hPart' q hq))
  · intro p' hPart' q hq hMem
    rw [hPart] at hPart'
    cases hPart'
    rcases (hEnded q).mp hMem with rfl | hOld
    · exact Nat.lt_irrefl q hq
    · exact hOrder.behind p hPart q hq hOld
  · intro hNone
    rw [hPart] at hNone
    cases hNone
  · intro q b hGet
    rcases getElem?_set_cases hGet with ⟨rfl, rfl⟩ | ⟨hNe, hOld⟩
    · simp [(hEnded q).mpr (Or.inl rfl)]
    · rw [hOrder.timers q b hOld, hEnded]
      simp [hNe]
  · simpa using hOrder.count
  · intro i e hE hMem
    rcases (hEnded e.part).mp hMem with hSame | hOld
    · exact hClosed i e hE hSame
    · exact hOrder.closed i e hE hOld
  · intro hStays i e hE hBegun
    rcases hOrder.begun hStays i e hE hBegun with hOver | hHere
    · exact Or.inl ((hEnded e.part).mpr (Or.inr hOver))
    · exact Or.inr hHere
  · intro hExited
    have hNone := (hOrder.left hExited).1
    rw [hPart] at hNone
    cases hNone

/- A test is left with all of its items finished. -/
theorem leaveTest
    (hCount : c.running.length = parts)
    (hCoherent :
      ∀ (i : Nat) (e : ItemEntry), es[i]? = some e →
        e.session.state.Coherent)
    (hClosed :
      ∀ (i : Nat) (e : ItemEntry), es[i]? = some e →
        e.session.state.finished = true) :
    InOrder parts
      { c with
        part := none
        item := none
        finished := true
        exited := true
        running := c.running.map fun _ => false } es := by
  refine ⟨hCoherent, ?_, ?_, ?_, ?_, ?_, ?_, ?_, ?_,
    fun i e hE _ => hClosed i e hE, ?_, fun _ => ⟨rfl, rfl⟩⟩
  · intro _ i e hE
    exact (hCoherent i e hE).initialized
      (Or.inr (hClosed i e hE))
  · intro i hItem
    cases hItem
  · intro i e hE hPhase
    rw [ItemState.phase_eq_interacting_iff,
      hClosed i e hE] at hPhase
    cases hPhase.1
  · intro p hPart
    cases hPart
  · intro p hPart
    cases hPart
  · intro _ hStays
    cases hStays
  · intro q b hGet
    rw [List.getElem?_map, Option.map_eq_some_iff] at hGet
    rcases hGet with ⟨_, _, rfl⟩
    simp
  · simpa using hCount
  · intro hStays
    cases hStays

end InOrder

end Assessment
