import Assessment.Proofs.Test.Steps

/-
  The steps of a test session, told by what they are made of.

  A step of a test changes the state, takes steps of items and
  takes other steps in between. A relation between sessions
  that each of these obeys is obeyed by the step. The lemmas
  go through every step once, and ask of a relation only what
  the step does.

  Main declarations:
    * `TestSession.ensureRunning_moves` and other gates
    * `announced_moves`, for what is announced around a step
    * `touch_moves`, `leaveCurrent_moves` and `present_moves`
    * `initialise_moves` and `processOutcomes_moves`, which
      look at what happens inside of what they announce
    * `enterTest_moves`, `nextPart_moves`, `nextItem_moves`,
      `selectItem_moves`, `submit_moves`, `endPart_moves` and
      `exit_moves`
-/

------------------------------------------------------------
-- Gates
------------------------------------------------------------

namespace Assessment

open Stateful

namespace TestSession

variable {α : Type}
variable {R : TestSession → TestSession → Prop}

section Gates

variable [Std.Refl R]

theorem getState_moves : Moves R getState :=
  fun s => Std.Refl.refl (r := R) s

theorem ensureInitialized_moves :
    Moves R ensureInitialized := by
  intro s
  rw [ends_ensureInitialized]
  split <;> exact Std.Refl.refl (r := R) s

theorem runningPart_moves [IsTrans TestSession R] :
    Moves R runningPart := by
  refine Moves.bind getState_moves fun s => ?_
  split
  · exact Moves.throw _
  · exact Moves.ite (Moves.throw _) (Moves.pure _)

theorem ensureRunning_moves [IsTrans TestSession R] :
    Moves R ensureRunning := by
  refine Moves.bind ensureInitialized_moves fun _ => ?_
  refine Moves.bind getState_moves fun s => ?_
  refine Moves.ite_bind_else (Moves.throw _) fun _ => ?_
  exact Moves.ite (Moves.throw _) (Moves.pure _)

theorem mayEndPart_moves [IsTrans TestSession R] :
    Moves R mayEndPart := by
  refine Moves.bind ensureRunning_moves fun _ => ?_
  refine Moves.bind runningPart_moves fun part => ?_
  exact Moves.bind Moves.get fun _ => Moves.pure _

end Gates

------------------------------------------------------------
-- Parts of Steps
------------------------------------------------------------

variable [IsTrans TestSession R]

/- Announcing does no more than the activity itself. -/
theorem announced_moves
    (activity : Activity)
    {x : TestAction α}
    (hEvents : ∀ s events, R s { s with events := events })
    (hMoves : Moves R x) :
    Moves R (announced activity x) := by
  intro s
  rw [ends_announced]
  refine (hMoves _).mono fun _ t hMove => ?_
  have hStart := hEvents s (s.events ++ [.starting activity])
  have hEnd := hEvents t (t.events ++ [.finished activity])
  exact IsTrans.trans _ _ _ hStart
    (IsTrans.trans _ _ _ hMove hEnd)

omit [IsTrans TestSession R] in
/- Rules over the outcomes change outcomes and notes. -/
theorem runRules_moves
    (hRules :
      ∀ (s : TestSession) (stage : Stage),
        R s
          { s with
            tally := stage.tally
            state := {
              s.state with values := stage.scope.values } })
    (x : Run α) :
    Moves R (runRules x) := by
  intro s
  rw [ends_runRules]
  exact Ends.of_forall fun _ stage => hRules s stage

variable [Std.Refl R]
variable {now : Instant}

/- An item is touched between two changes of the state. -/
theorem touch_moves
    (hTimers :
      Moves R (changeState fun s =>
        { s with
          timer := s.timer.touch now
          partTimers := s.partTimers.map fun t => t.touch now
          sectionTimers := s.sectionTimers.map fun (k, t) =>
            (k, t.touch now) }))
    (hItem : ∀ i, Moves R (onItem i (ItemSession.touch now)))
    (hDuration :
      Moves R (changeState fun s =>
        { s with
          values :=
            s.values.put Builtin.duration
              (.float s.timer.seconds) })) :
    Moves R (touch now) := by
  refine Moves.bind hTimers fun _ => ?_
  refine Moves.bind getState_moves fun s => ?_
  split
  · exact Moves.bind (hItem _) fun _ => hDuration
  · exact hDuration

theorem leaveCurrent_moves
    (hLeave :
      ∀ i keeps, Moves R (onItem i (leaveItem keeps now)))
    (hNone :
      Moves R (changeState fun s => { s with item := none })) :
    Moves R (leaveCurrent now) := by
  refine Moves.bind Moves.get fun s => ?_
  split
  · exact Moves.bind (hLeave _ _) fun _ => hNone
  · exact Moves.pure _

theorem present_moves
    {i : Nat}
    (hSwitch :
      ∀ sections, Moves R (switchSections sections now))
    (hPresent :
      ∀ ref, Moves R (onItem i (presentItem ref now)))
    (hCurrent :
      Moves R (changeState fun s => { s with item := some i })) :
    Moves R (present i now) := by
  refine Moves.bind Moves.get fun s => ?_
  split
  · refine Moves.bind (hSwitch _) fun _ => ?_
    exact Moves.bind (hPresent _) fun _ => hCurrent
  · exact Moves.pure _

------------------------------------------------------------
-- Items in a Row
------------------------------------------------------------

theorem initialiseItems_moves
    (hInitialise :
      ∀ i defaults, Moves R
        (onItem i (ItemSession.initialise defaults)))
    (items : List (ItemEntry × Nat)) :
    Moves R (initialiseItems items) := by
  induction items with
  | nil => exact Moves.pure _
  | cons first rest ih =>
      exact Moves.bind (hInitialise _ _) fun _ => ih

theorem exitItems_moves
    (hExit : ∀ i, Moves R (onItem i (ItemSession.exit now)))
    (items : List (ItemEntry × Nat)) :
    Moves R (exitItems now items) := by
  induction items with
  | nil => exact Moves.pure _
  | cons first rest ih =>
      exact Moves.bind (hExit _) fun _ => ih

theorem closeItems_moves
    {clean : Prop}
    (hClose :
      ∀ i, MovesCleanly clean R (onItem i (closeItem now)))
    (items : List (ItemEntry × Nat)) :
    MovesCleanly clean R (closeItems now items) := by
  induction items with
  | nil => exact (Moves.pure _).cleanly
  | cons first rest ih =>
      refine MovesCleanly.bind (hClose _) fun _ => ?_
      exact MovesCleanly.bind ih fun _ =>
        (Moves.pure _).cleanly

------------------------------------------------------------
-- Announced Steps
------------------------------------------------------------

section Announced

/- What happens inside may obey a relation of its own. -/
variable {S : TestSession → TestSession → Prop}
variable [Std.Refl S]
variable [IsTrans TestSession S]

/-
  Outcomes are set back and rules are run over them, which are
  those of the test that processing began with.
-/
theorem processOutcomes_moves
    (hAnnounced :
      ∀ {x : TestAction Unit}, Moves S x →
        Moves R (announced .testOutcomeProcessing x))
    (hReset :
      ∀ s : TestSession,
        S s
          { s with
            state := {
              s.state with
              values :=
                (s.test.declarations.filter fun d =>
                  !Builtin.isBuiltin d.identifier).foldl
                  (fun b d => b.put d.identifier d.initial)
                  s.state.values } })
    (hRules :
      ∀ s t, S s t →
        Ends
          (runRules
            (Rule.executeAll s.engine
              s.test.outcomeProcessing)) t
          fun _ u => S t u) :
    Moves R processOutcomes := by
  refine Moves.bind ensureInitialized_moves fun _ => ?_
  refine hAnnounced fun s => ?_
  rw [ends_get_bind]
  refine Ends.bind (R := S) (hReset s) fun _ t hStart => ?_
  exact Ends.bind (hRules s t hStart)
    fun _ u _ => Std.Refl.refl (r := S) u

/- To initialize is to initialize every item. -/
theorem initialise_moves
    (hAnnounced :
      ∀ {x : TestAction Unit}, Moves S x →
        Moves R (announced .testInitialisation x))
    (hValues :
      ∀ s : TestSession,
        Moves S (changeState fun state =>
          { state with
            values := Keyed.ofList
              (s.test.declarations.map fun d =>
                (d.identifier, d.initial)) }))
    (hItems : ∀ items, Moves S (initialiseItems items))
    (hReady :
      Moves S (changeState fun state =>
        { state with initialized := true })) :
    Moves R initialise := by
  refine Moves.bind getState_moves fun s => ?_
  refine Moves.ite_bind (Moves.throw _) fun _ => ?_
  refine hAnnounced ?_
  refine Moves.bind Moves.get fun s => ?_
  refine Moves.bind (hValues s) fun _ => ?_
  exact Moves.bind (hItems _) fun _ => hReady

end Announced

------------------------------------------------------------
-- Steps
------------------------------------------------------------

theorem enterTest_moves
    (hEnter :
      Moves R (changeState fun s =>
        { s with
          entered := true
          timer := s.timer.start now })) :
    Moves R (enterTest now) := by
  refine Moves.bind ensureInitialized_moves fun _ => ?_
  refine Moves.bind getState_moves fun s => ?_
  exact Moves.ite_bind (Moves.throw _) fun _ => hEnter

theorem nextPart_moves
    (hEnter :
      ∀ next,
        Moves R (changeState fun s =>
          { s with
            part := some next
            item := none
            partTimers := s.partTimers.modify next fun t =>
              t.start now })) :
    Moves R (nextPart now) := by
  refine Moves.bind ensureRunning_moves fun _ => ?_
  refine Moves.bind Moves.get fun s => ?_
  refine Moves.ite_bind (Moves.throw _) fun _ => ?_
  dsimp only
  split
  · exact Moves.pure _
  · exact Moves.bind (hEnter _) fun _ => Moves.pure _

/- The steps below begin with a touch. -/
variable (hTouch : Moves R (touch now))

section Items

variable (hLeave : Moves R (leaveCurrent now))
variable (hPresent : ∀ i, Moves R (present i now))

include hTouch hLeave hPresent

theorem nextItem_moves
    (hStop : Moves R (switchSections [] now)) :
    Moves R (nextItem now) := by
  refine Moves.bind ensureRunning_moves fun _ => ?_
  refine Moves.bind runningPart_moves fun part => ?_
  refine Moves.bind hTouch fun _ => ?_
  refine Moves.bind Moves.get fun s => ?_
  refine Moves.bind hLeave fun _ => ?_
  split
  · refine Moves.bind (hPresent _) fun _ => ?_
    exact Moves.bind Moves.get fun _ => Moves.pure _
  · exact Moves.bind hStop fun _ => Moves.pure _

theorem selectItem_moves
    (ref : String)
    (occurrence : Nat) :
    Moves R (selectItem ref occurrence now) := by
  refine Moves.bind ensureRunning_moves fun _ => ?_
  refine Moves.bind runningPart_moves fun part => ?_
  refine Moves.bind Moves.get fun s => ?_
  refine Moves.ite_bind_else (Moves.throw _) fun _ => ?_
  split
  · exact Moves.throw _
  · refine Moves.bind hTouch fun _ => ?_
    refine Moves.bind getState_moves fun s => ?_
    refine Moves.ite_bind hLeave fun _ => ?_
    refine Moves.bind (hPresent _) fun _ => ?_
    exact Moves.bind Moves.get fun _ => Moves.pure _

end Items

include hTouch

/- A submission times an item out, or is one to the item. -/
theorem submit_moves
    {responses : ItemSession.Responses}
    (hTimeOut :
      ∀ i, Moves R (onItem i (ItemSession.timeOut now)))
    (hSubmit :
      ∀ i, Moves R
        (onItem i (ItemSession.submit responses now)))
    (hOutcomes : Moves R processOutcomes) :
    Moves R (submit responses now) := by
  refine Moves.bind ensureRunning_moves fun _ => ?_
  refine Moves.bind getState_moves fun s => ?_
  split
  · exact Moves.throw _
  · refine Moves.bind hTouch fun _ => ?_
    refine Moves.bind Moves.get fun s => ?_
    dsimp only
    split
    · exact Moves.bind (hTimeOut _) fun _ => Moves.pure _
    · refine Moves.bind (hSubmit _) fun _ => ?_
      exact Moves.ite_bind hOutcomes fun _ => Moves.pure _

section Marking

variable (hStop : Moves R (switchSections [] now))
variable (hMark : ∀ part last, Moves R (markEnded part last now))

include hStop hMark

/- A part that has ended is marked so between two touches. -/
theorem marking_moves (part : Nat) :
    Moves R (do
      switchSections [] now
      let last := part + 1 == (← get).test.parts.length
      markEnded part last now
      touch now) := by
  refine Moves.bind hStop fun _ => ?_
  refine Moves.bind Moves.get fun s => ?_
  exact Moves.bind (hMark part _) fun _ => hTouch

/- A part ends cleanly if its items are closed cleanly. -/
theorem endPart_moves
    {clean : Prop}
    (hLeave : Moves R (leaveCurrent now))
    (hClose :
      ∀ i, MovesCleanly clean R (onItem i (closeItem now)))
    (hOutcomes : Moves R processOutcomes) :
    MovesCleanly clean R (endPart now) := by
  have hRefused : ∀ f : Unit → TestAction Unit,
      Moves R (refuse .partIncomplete >>= f) :=
    fun _ s => Std.Refl.refl (r := R) s
  refine MovesCleanly.bind mayEndPart_moves.cleanly
    fun may => ?_
  refine MovesCleanly.ite ?_ (hRefused _).cleanly
  refine MovesCleanly.bind runningPart_moves.cleanly
    fun part => ?_
  refine MovesCleanly.bind hTouch.cleanly fun _ => ?_
  refine MovesCleanly.bind hLeave.cleanly fun _ => ?_
  refine MovesCleanly.bind Moves.get.cleanly fun s => ?_
  refine MovesCleanly.bind (closeItems_moves hClose _)
    fun processed => ?_
  exact (Moves.ite_bind hOutcomes fun _ =>
    marking_moves hTouch hStop hMark part).cleanly

end Marking

theorem exit_moves
    (hExit : ∀ i, Moves R (onItem i (ItemSession.exit now)))
    (hParts :
      Moves R (changeState fun s =>
        { s with
          partTimers := s.partTimers.map fun t =>
            t.stop now }))
    (hStop : Moves R (switchSections [] now))
    (hLeft :
      Moves R (changeState fun s =>
        { s with
          timer := s.timer.stop now
          item := none
          part := none
          finished := true
          exited := true })) :
    Moves R (exit now) := by
  refine Moves.bind ensureInitialized_moves fun _ => ?_
  refine Moves.bind getState_moves fun s => ?_
  refine Moves.ite_bind (Moves.throw _) fun _ => ?_
  refine Moves.bind hTouch fun _ => ?_
  refine Moves.bind Moves.get fun s => ?_
  refine Moves.bind (exitItems_moves hExit _) fun _ => ?_
  refine Moves.bind hParts fun _ => ?_
  exact Moves.bind hStop fun _ => hLeft

end TestSession

end Assessment
