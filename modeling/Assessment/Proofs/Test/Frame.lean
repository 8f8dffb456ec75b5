import Assessment.Proofs.Item.Setup
import Assessment.Proofs.Test.Moves

/-
  Relations that the steps of a test obey.

  The steps of a test session share a few parts: to bring the
  timers up to date, to leave and to present an item, to close
  it, and to process outcomes. A relation between sessions
  that these parts obey is obeyed by the steps. Whatever all
  calls to an item session obey is obeyed, place by place, by
  all calls to a test session.

  Main declarations:
    * `TestSession.PartsMove`, a relation that the parts obey,
      and `StepsMove`, with the steps made of them
    * `TestSession.call_moves`, from the parts to all calls
    * `TestSession.Lifts`, from what items obey to what the
      test does
    * `TestSession.Placewise`, a relation between the item
      sessions at every place
    * `TestCall.placewise`, from items to the test
    * `TestSession.after_sameSetup`
-/

------------------------------------------------------------
-- Steps of Items
------------------------------------------------------------

namespace Assessment

open Stateful

/- Calls to an item session obey a relation, once it is ready. -/
def ItemCall.Obey (A : ItemSession → ItemSession → Prop) :
    Prop :=
  ∀ c : ItemCall, (∀ defaults, c ≠ .initialise defaults) →
    Moves A c.action

namespace ItemSession

/- What is announced does not matter to a relation. -/
def IgnoresEvents
    (A : ItemSession → ItemSession → Prop) :
    Prop :=
  ∀ (s : ItemSession) (events : List Event),
    A s { s with events := events }

/- What is done to items on the way obeys a relation. -/
structure WayMoves
    (A : ItemSession → ItemSession → Prop) :
    Prop where
  touch : ∀ now, Moves A (touch now)
  enter : ∀ now, Moves A (enter now)
  suspend : ∀ now, Moves A (suspend now)
  resume : ∀ now, Moves A (resume now)
  finish : ∀ now, Moves A (finish now)
  skip : ∀ now, Moves A (skip now)

/- What happens to an item is of no matter. -/
def Anyhow (_ _ : ItemSession) : Prop :=
  True

instance : Std.Refl Anyhow where
  refl _ := trivial

instance : IsTrans ItemSession Anyhow where
  trans _ _ _ _ _ := trivial

end ItemSession

theorem ItemCall.obey_anyhow : Obey ItemSession.Anyhow :=
  fun _ _ _ => Ends.of_forall fun _ _ => trivial

theorem ItemCall.Obey.way
    {A : ItemSession → ItemSession → Prop}
    (hCalls : ItemCall.Obey A) :
    ItemSession.WayMoves A where
  touch now := hCalls (.touch now) (by simp)
  enter now := hCalls (.enter now) (by simp)
  suspend now := hCalls (.suspend now) (by simp)
  resume now := hCalls (.resume now) (by simp)
  finish now := hCalls (.finish now) (by simp)
  skip now := hCalls (.skip now) (by simp)

namespace TestSession

open ItemSession

section Items

variable {A : ItemSession → ItemSession → Prop}

theorem submitItem_moves
    (hCalls : ItemCall.Obey A)
    (responses : Responses)
    (now : Instant) :
    Moves A (ItemSession.submit responses now) :=
  fun s => ends_discard.mp
    (hCalls (.submit responses now) (by simp) s)

variable [Std.Refl A]

/- What is done to an item on the way, at one instant. -/
theorem leaveItem_moves_at
    {now : Instant}
    (hSuspend : Moves A (suspend now))
    (hFinish : Moves A (finish now))
    (hSkip : Moves A (skip now))
    (keeps : Bool) :
    Moves A (leaveItem keeps now) := by
  intro s
  have hEnd :
      Moves A
        (if s.state.responded = true then finish now
          else skip now) :=
    Moves.ite hFinish hSkip
  simp only [leaveItem, ends_bind, ItemSession.ends_getState]
  split
  · exact hSuspend s
  · exact hEnd s
  · exact hEnd s
  · exact Std.Refl.refl (r := A) s

theorem presentItem_moves_at
    {now : Instant}
    (hEnter : Moves A (enter now))
    (hResume : Moves A (resume now))
    (ref : String) :
    Moves A (presentItem ref now) := by
  intro s
  simp only [presentItem, ends_bind, ItemSession.ends_getState]
  split
  · exact hEnter s
  · exact hResume s
  · exact Std.Refl.refl (r := A) s
  · exact Std.Refl.refl (r := A) s

theorem closeItem_moves_at
    [IsTrans ItemSession A]
    {now : Instant}
    (hProcess : Moves A processResponses)
    (hFinish : Moves A (finish now)) :
    Moves A (closeItem now) := by
  refine Moves.bind ItemSession.getState_moves fun s => ?_
  refine Moves.ite (Moves.pure _) ?_
  refine Moves.bind (processPending_moves hProcess)
    fun processed => ?_
  exact Moves.bind hFinish fun _ => Moves.pure _

theorem leaveItem_moves
    (hWay : WayMoves A)
    (keeps : Bool)
    (now : Instant) :
    Moves A (leaveItem keeps now) :=
  leaveItem_moves_at (hWay.suspend now) (hWay.finish now)
    (hWay.skip now) keeps

theorem presentItem_moves
    (hWay : WayMoves A)
    (ref : String)
    (now : Instant) :
    Moves A (presentItem ref now) :=
  presentItem_moves_at (hWay.enter now) (hWay.resume now) ref

theorem closeItem_moves
    [IsTrans ItemSession A]
    (hCalls : ItemCall.Obey A)
    (now : Instant) :
    Moves A (closeItem now) :=
  closeItem_moves_at (hCalls .processResponses (by simp))
    (hCalls (.finish now) (by simp))

end Items

------------------------------------------------------------
-- Parts of Steps
------------------------------------------------------------

variable {α : Type}
variable {R : TestSession → TestSession → Prop}

/-
  A change that leaves test, items, notes and outcomes is
  obeyed.
-/
structure Frames (R : TestSession → TestSession → Prop) :
    Prop where
  same :
    ∀ {s t : TestSession}, t.test = s.test →
      t.entries = s.entries → t.tally = s.tally →
      t.state.values = s.state.values → R s t

/- What the steps of a test are made of obeys a relation. -/
structure PartsMove (R : TestSession → TestSession → Prop) :
    Prop where
  frame : Frames R
  touch : ∀ now, Moves R (touch now)
  leaveCurrent : ∀ now, Moves R (leaveCurrent now)
  present : ∀ i now, Moves R (present i now)
  processOutcomes : Moves R processOutcomes

/-
  What the steps of a test are made of obeys a relation, which
  may look at what is announced.
-/
structure StepsMove (R : TestSession → TestSession → Prop) :
    Prop where
  changeState :
    ∀ {f : TestState → TestState},
      (∀ s, (f s).values = s.values) →
        Moves R (TestSession.changeState f)
  touch : ∀ now, Moves R (touch now)
  leaveCurrent : ∀ now, Moves R (leaveCurrent now)
  present : ∀ i now, Moves R (present i now)
  processOutcomes : Moves R processOutcomes

theorem Frames.changeState
    (hFrames : Frames R)
    {f : TestState → TestState}
    (hValues : ∀ s, (f s).values = s.values) :
    Moves R (changeState f) :=
  fun s => hFrames.same rfl rfl rfl (hValues s.state)

theorem PartsMove.steps
    (hParts : PartsMove R) :
    StepsMove R where
  changeState := hParts.frame.changeState
  touch := hParts.touch
  leaveCurrent := hParts.leaveCurrent
  present := hParts.present
  processOutcomes := hParts.processOutcomes

namespace Frames

variable [Std.Refl R]
variable [IsTrans TestSession R]
variable {now : Instant}

omit [Std.Refl R] in
theorem announced
    (hFrames : Frames R)
    (activity : Activity)
    {x : TestAction α}
    (hMoves : Moves R x) :
    Moves R (announced activity x) :=
  announced_moves activity
    (fun _ _ => hFrames.same rfl rfl rfl rfl) hMoves

theorem touch
    (hFrames : Frames R)
    (hItem : ∀ i, Moves R (onItem i (ItemSession.touch now)))
    (hDuration :
      Moves R (TestSession.changeState fun s =>
        { s with
          values :=
            s.values.put Builtin.duration
              (.float s.timer.seconds) })) :
    Moves R (TestSession.touch now) :=
  touch_moves (hFrames.changeState fun _ => rfl) hItem
    hDuration

theorem present
    (hFrames : Frames R)
    {i : Nat}
    (hPresent :
      ∀ ref, Moves R (onItem i (presentItem ref now))) :
    Moves R (TestSession.present i now) :=
  present_moves
    (fun _ => hFrames.changeState fun _ => rfl) hPresent
    (hFrames.changeState fun _ => rfl)

end Frames

/- A change that leaves test and items alone is obeyed. -/
structure IgnoresState
    (R : TestSession → TestSession → Prop) :
    Prop where
  same :
    ∀ {s t : TestSession}, t.test = s.test →
      t.entries = s.entries → R s t

namespace IgnoresState

theorem frames (hIgnores : IgnoresState R) : Frames R :=
  ⟨fun hTest hEntries _ _ => hIgnores.same hTest hEntries⟩

variable [Std.Refl R]
variable [IsTrans TestSession R]

/- Outcome processing changes outcomes and announces. -/
theorem processOutcomes (hIgnores : IgnoresState R) :
    Moves R processOutcomes :=
  processOutcomes_moves (hIgnores.frames.announced _)
    (fun _ => hIgnores.same rfl rfl)
    fun _ t _ =>
      runRules_moves (fun _ _ => hIgnores.same rfl rfl) _ t

/- To initialize is to initialize every item. -/
theorem initialise
    (hIgnores : IgnoresState R)
    (hInitialise :
      ∀ i defaults, Moves R
        (onItem i (ItemSession.initialise defaults))) :
    Moves R initialise :=
  initialise_moves (hIgnores.frames.announced _)
    (fun _ _ => hIgnores.same rfl rfl)
    (initialiseItems_moves hInitialise)
    fun _ => hIgnores.same rfl rfl

/- The other parts of steps are made of steps of items. -/
theorem partsMove
    (hIgnores : IgnoresState R)
    (hTouch :
      ∀ i now, Moves R (onItem i (ItemSession.touch now)))
    (hLeave : ∀ now, Moves R (leaveCurrent now))
    (hPresent :
      ∀ i ref now, Moves R (onItem i (presentItem ref now))) :
    PartsMove R where
  frame := hIgnores.frames
  touch := fun now =>
    hIgnores.frames.touch (fun i => hTouch i now)
      fun _ => hIgnores.same rfl rfl
  leaveCurrent := hLeave
  present := fun i now =>
    hIgnores.frames.present fun ref => hPresent i ref now
  processOutcomes := hIgnores.processOutcomes

end IgnoresState

------------------------------------------------------------
-- Steps
------------------------------------------------------------

section Steps

variable [Std.Refl R]
variable [IsTrans TestSession R]

namespace StepsMove

theorem submit
    (hSteps : StepsMove R)
    {responses : Responses}
    {now : Instant}
    (hTimeOut :
      ∀ i, Moves R (onItem i (ItemSession.timeOut now)))
    (hSubmit :
      ∀ i, Moves R
        (onItem i (ItemSession.submit responses now))) :
    Moves R (submit responses now) :=
  submit_moves (hSteps.touch now) hTimeOut hSubmit
    hSteps.processOutcomes

theorem endPart
    (hSteps : StepsMove R)
    {clean : Prop}
    {now : Instant}
    (hClose :
      ∀ i, MovesCleanly clean R (onItem i (closeItem now))) :
    MovesCleanly clean R (endPart now) :=
  endPart_moves (hSteps.touch now)
    (hSteps.changeState fun _ => rfl)
    (fun _ _ => hSteps.changeState fun _ => rfl)
    (hSteps.leaveCurrent now) hClose hSteps.processOutcomes

theorem exit
    (hSteps : StepsMove R)
    {now : Instant}
    (hExit : ∀ i, Moves R (onItem i (ItemSession.exit now))) :
    Moves R (exit now) :=
  exit_moves (hSteps.touch now) hExit
    (hSteps.changeState fun _ => rfl)
    (hSteps.changeState fun _ => rfl)
    (hSteps.changeState fun _ => rfl)

end StepsMove

/-
  Calls obey a relation that the parts of steps obey, as far
  as initializing, submitting and the steps that end do.
-/
theorem call_moves
    (hSteps : StepsMove R)
    (hInitialise : Moves R initialise)
    {c : TestCall}
    (hSubmit :
      ∀ responses now, c = .submit responses now →
        Moves R (submit responses now))
    (hEndPart :
      ∀ now, c = .endPart now → Moves R (endPart now))
    (hExit : ∀ now, c = .exit now → Moves R (exit now)) :
    Moves R c.action := by
  have hState := @hSteps.changeState
  cases c with
  | initialise => exact hInitialise
  | enterTest now => exact enterTest_moves (hState fun _ => rfl)
  | nextPart now =>
      exact fun s => ends_discard.mpr
        (nextPart_moves (fun _ => hState fun _ => rfl) s)
  | nextItem now =>
      exact fun s => ends_discard.mpr
        (nextItem_moves (hSteps.touch now)
          (hSteps.leaveCurrent now) (hSteps.present · now)
          (hState fun _ => rfl) s)
  | selectItem ref occurrence now =>
      exact fun s => ends_discard.mpr
        (selectItem_moves (hSteps.touch now)
          (hSteps.leaveCurrent now) (hSteps.present · now)
          ref occurrence s)
  | submit responses now =>
      exact fun s => ends_discard.mpr
        (hSubmit responses now rfl s)
  | endPart now => exact hEndPart now rfl
  | exit now => exact hExit now rfl
  | processOutcomes => exact hSteps.processOutcomes
  | touch now => exact hSteps.touch now

end Steps

------------------------------------------------------------
-- From Items to the Test
------------------------------------------------------------

/- What items obey in one way, the test obeys in another. -/
structure Lifts
    (A : ItemSession → ItemSession → Prop)
    (R : TestSession → TestSession → Prop) :
    Prop where
  item :
    ∀ {β : Type} {x : Action β}, Moves A x →
      ∀ i, Moves R (onItem i x)

namespace Lifts

variable {A : ItemSession → ItemSession → Prop}
variable [Std.Refl A]
variable [IsTrans ItemSession A]
variable [Std.Refl R]
variable [IsTrans TestSession R]

section Way

variable (hLifts : Lifts A R)
variable (hWay : WayMoves A)

include hLifts hWay

omit [IsTrans ItemSession A] in
/- Items are touched, left and presented on the way. -/
theorem stepsMove
    (hState :
      ∀ {f : TestState → TestState},
        (∀ s, (f s).values = s.values) →
          Moves R (changeState f))
    (hDuration :
      Moves R (changeState fun s =>
        { s with
          values :=
            s.values.put Builtin.duration
              (.float s.timer.seconds) }))
    (hOutcomes : Moves R processOutcomes) :
    StepsMove R where
  changeState := hState
  touch now :=
    touch_moves (hState fun _ => rfl)
      (hLifts.item (hWay.touch now)) hDuration
  leaveCurrent now :=
    leaveCurrent_moves
      (fun i keeps =>
        hLifts.item (leaveItem_moves hWay keeps now) i)
      (hState fun _ => rfl)
  present i now :=
    present_moves (fun _ => hState fun _ => rfl)
      (fun ref =>
        hLifts.item (presentItem_moves hWay ref now) i)
      (hState fun _ => rfl)
  processOutcomes := hOutcomes

omit [IsTrans ItemSession A] in
theorem partsMove
    (hFrames : Frames R)
    (hDuration :
      Moves R (changeState fun s =>
        { s with
          values :=
            s.values.put Builtin.duration
              (.float s.timer.seconds) }))
    (hOutcomes : Moves R processOutcomes) :
    PartsMove R := by
  have hSteps :=
    hLifts.stepsMove hWay hFrames.changeState hDuration
      hOutcomes
  exact
    { frame := hFrames
      touch := hSteps.touch
      leaveCurrent := hSteps.leaveCurrent
      present := hSteps.present
      processOutcomes := hOutcomes }

omit [IsTrans ItemSession A] in
theorem partsMove_of_ignores
    (hIgnores : IgnoresState R) :
    PartsMove R :=
  hLifts.partsMove hWay hIgnores.frames
    (fun _ => hIgnores.same rfl rfl) hIgnores.processOutcomes

end Way

/- Whatever else is done to items is done by calls to them. -/
theorem call_moves
    (hLifts : Lifts A R)
    (hCalls : ItemCall.Obey A)
    (hSteps : StepsMove R)
    (hInitialise : Moves R initialise)
    (c : TestCall) :
    Moves R c.action := by
  refine TestSession.call_moves hSteps hInitialise
    (fun responses now _ => hSteps.submit ?_ ?_)
    (fun now _ => (hSteps.endPart fun i =>
      Moves.cleanly ?_).moves)
    (fun now _ => hSteps.exit ?_)
  · exact hLifts.item (hCalls (.timeOut now) (by simp))
  · exact hLifts.item (submitItem_moves hCalls responses now)
  · exact hLifts.item (closeItem_moves hCalls now) i
  · exact hLifts.item (hCalls (.exit now) (by simp))

end Lifts

------------------------------------------------------------
-- Places
------------------------------------------------------------

/-
  Every item has stayed at its place, and its session has
  moved by a relation.
-/
structure Placewise
    (A : ItemSession → ItemSession → Prop)
    (s t : TestSession) :
    Prop where
  test : t.test = s.test
  length : t.entries.length = s.entries.length
  entries :
    ∀ (i : Nat) (e f : ItemEntry), s.entries[i]? = some e →
      t.entries[i]? = some f →
        f.part = e.part ∧ A e.session f.session

variable {A : ItemSession → ItemSession → Prop}

namespace Placewise

theorem exists_after
    {s t : TestSession}
    (hPlaces : Placewise A s t)
    {i : Nat}
    {e : ItemEntry}
    (hE : s.entries[i]? = some e) :
    ∃ f, t.entries[i]? = some f := by
  have hBound := (List.getElem?_eq_some_iff.mp hE).1
  rw [← hPlaces.length] at hBound
  exact ⟨t.entries[i], List.getElem?_eq_getElem hBound⟩

theorem exists_before
    {s t : TestSession}
    (hPlaces : Placewise A s t)
    {i : Nat}
    {f : ItemEntry}
    (hF : t.entries[i]? = some f) :
    ∃ e, s.entries[i]? = some e := by
  have hBound := (List.getElem?_eq_some_iff.mp hF).1
  rw [hPlaces.length] at hBound
  exact ⟨s.entries[i], List.getElem?_eq_getElem hBound⟩

/- What is related in one way is related in a wider one. -/
theorem mono
    {B : ItemSession → ItemSession → Prop}
    {s t : TestSession}
    (hPlaces : Placewise A s t)
    (hWider : ∀ a b, A a b → B a b) :
    Placewise B s t :=
  ⟨hPlaces.test, hPlaces.length, fun i e f hE hF =>
    ⟨(hPlaces.entries i e f hE hF).1,
      hWider _ _ (hPlaces.entries i e f hE hF).2⟩⟩

/- Test and items are the same. -/
theorem of_eq
    [Std.Refl A]
    {s t : TestSession}
    (hTest : t.test = s.test)
    (hEntries : t.entries = s.entries) :
    Placewise A s t := by
  refine ⟨hTest, by rw [hEntries], fun i e f hE hF => ?_⟩
  rw [hEntries, hE] at hF
  cases hF
  exact ⟨rfl, Std.Refl.refl (r := A) _⟩

end Placewise

instance [Std.Refl A] : Std.Refl (Placewise A) where
  refl _ := .of_eq rfl rfl

instance [IsTrans ItemSession A] :
    IsTrans TestSession (Placewise A) where
  trans s t u hFirst hThen := by
    refine ⟨hThen.test.trans hFirst.test,
      hThen.length.trans hFirst.length, ?_⟩
    intro i e g hE hG
    rcases hFirst.exists_after hE with ⟨f, hF⟩
    rcases hFirst.entries i e f hE hF with ⟨hPart, hMove⟩
    rcases hThen.entries i f g hF hG with ⟨hPart', hMove'⟩
    exact ⟨hPart'.trans hPart,
      IsTrans.trans _ _ _ hMove hMove'⟩

/- An item that is put back has moved in its place. -/
theorem putSession_placewise
    [Std.Refl A]
    [IsTrans ItemSession A]
    (hEvents : ItemSession.IgnoresEvents A)
    {s : TestSession}
    {i : Nat}
    {e : ItemEntry}
    (hE : s.entries[i]? = some e)
    {session : ItemSession}
    (hMove : A e.session session) :
    Placewise A s (putSession s i e session) := by
  refine ⟨rfl, List.length_set, fun j d f hD hF => ?_⟩
  rcases getElem?_set_cases hF with ⟨rfl, rfl⟩ | ⟨_, hSame⟩
  · rw [hE] at hD
    cases hD
    exact ⟨rfl, IsTrans.trans _ _ _ hMove (hEvents session [])⟩
  · rw [hD] at hSame
    cases hSame
    exact ⟨rfl, Std.Refl.refl (r := A) _⟩

/- A step of one item moves that item, and no other. -/
theorem onItem_placewise
    [Std.Refl A]
    [IsTrans ItemSession A]
    (hEvents : ItemSession.IgnoresEvents A)
    {x : Action α}
    (hMoves : Moves A x)
    (i : Nat) :
    Moves (Placewise A) (onItem i x) := by
  intro s
  rw [ends_onItem]
  split
  next => exact Std.Refl.refl (r := Placewise A) s
  next e hE =>
    exact (hMoves e.session).mono fun _ _ hMove =>
      putSession_placewise hEvents hE hMove

variable [Std.Refl A]
variable [IsTrans ItemSession A]

theorem lifts_placewise
    (hEvents : IgnoresEvents A) :
    Lifts A (Placewise A) :=
  ⟨fun hMoves i => onItem_placewise hEvents hMoves i⟩

omit [IsTrans ItemSession A] in
theorem ignoresState_placewise : IgnoresState (Placewise A) :=
  ⟨fun hTest hEntries => .of_eq hTest hEntries⟩

theorem partsMove_placewise
    (hEvents : IgnoresEvents A)
    (hWay : WayMoves A) :
    PartsMove (Placewise A) :=
  (lifts_placewise hEvents).partsMove_of_ignores hWay
    ignoresState_placewise

end TestSession

/-
  What all calls to an item session obey, all calls to a test
  session obey at every place.
-/
theorem TestCall.placewise
    {A : ItemSession → ItemSession → Prop}
    [Std.Refl A]
    [IsTrans ItemSession A]
    (hEvents : ItemSession.IgnoresEvents A)
    (hCalls : ∀ c : ItemCall, Moves A c.action)
    (c : TestCall) :
    Moves (TestSession.Placewise A) c.action := by
  have hObey : ItemCall.Obey A := fun c _ => hCalls c
  have hLifts := TestSession.lifts_placewise hEvents
  have hParts :=
    TestSession.partsMove_placewise hEvents hObey.way
  refine hLifts.call_moves hObey hParts.steps ?_ c
  exact TestSession.ignoresState_placewise.initialise
    fun i defaults =>
      hLifts.item (hCalls (.initialise defaults)) i

namespace TestSession

open ItemSession

/- Items stay at their places, set up as they were. -/
theorem after_sameSetup
    (s : TestSession)
    (calls : List TestCall) :
    Placewise SameSetup s (s.after calls) :=
  after_moves
    (TestCall.placewise sameSetup_events ItemCall.keepsSetup)
    s calls

/- No call puts another test in place. -/
theorem after_test
    (s : TestSession)
    (calls : List TestCall) :
    (s.after calls).test = s.test :=
  (after_sameSetup s calls).test

end TestSession

end Assessment
