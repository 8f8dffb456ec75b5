import Assessment.Proofs.Item.Steps

/-
  What an item session has been set up with.

  A session is set up with an item, an engine, a control, time
  limits and a submission mode. Its calls change its state,
  its notes and its events, and nothing else. Notes come from
  two runs of rules alone: those that prepare a session, and
  those that respond to an attempt.

  Main declarations:
    * `ItemSession.UpToProcessing`, laws that leave response
      processing over
    * `ItemCall.moves_of_processing`, from there to all calls,
      up to initialization
    * `ItemSession.UpToRules`, laws that leave the rules over
    * `ItemCall.moves_of_rules`, from the rules to all calls
    * `ItemSession.SameSetup`
    * `ItemCall.keepsSetup`, the law of all calls
-/

------------------------------------------------------------
-- Laws up to Processing
------------------------------------------------------------

namespace Assessment

open Stateful

namespace ItemSession

/-
  A law that states cannot break, and that response processing
  obeys.
-/
structure UpToProcessing
    (R : ItemSession → ItemSession → Prop) :
    Prop where
  state : ∀ s state, R s { s with state := state }
  processResponses : Moves R processResponses

namespace UpToProcessing

variable {R : ItemSession → ItemSession → Prop}

theorem changeState
    (hLaw : UpToProcessing R)
    (f : ItemState → ItemState) :
    Moves R (changeState f) :=
  fun s => hLaw.state s (f s.state)

variable [Std.Refl R]

theorem bindResponses
    (hLaw : UpToProcessing R)
    (responses : Responses) :
    Moves R (bindResponses responses) :=
  bindResponses_moves fun s _ _ => hLaw.state s _

theorem finish
    (hLaw : UpToProcessing R)
    (now : Instant) :
    Moves R (finish now) :=
  finish_moves fun s _ _ => hLaw.state s _

theorem timeOut
    (hLaw : UpToProcessing R)
    (now : Instant) :
    Moves R (timeOut now) :=
  timeOut_moves fun s _ _ => hLaw.state s _

theorem partsMove (hLaw : UpToProcessing R) : PartsMove R where
  touch := fun _ => hLaw.changeState _
  timeOut := hLaw.timeOut
  finish := hLaw.finish
  bindResponses := hLaw.bindResponses
  processResponses := hLaw.processResponses

end UpToProcessing

end ItemSession

open ItemSession in
/- Calls obey a law as far as initialization does. -/
theorem ItemCall.moves_of_processing
    {R : ItemSession → ItemSession → Prop}
    [Std.Refl R]
    [IsTrans ItemSession R]
    (hLaw : UpToProcessing R)
    (c : ItemCall)
    (hInitialise :
      ∀ defaults, c = .initialise defaults →
        Moves R (ItemSession.initialise defaults)) :
    Moves R c.action := by
  cases c with
  | initialise defaults => exact hInitialise defaults rfl
  | enter now => exact enter_moves fun s _ _ _ => hLaw.state s _
  | suspend now => exact suspend_moves fun s _ _ => hLaw.state s _
  | resume now => exact resume_moves fun s _ _ => hLaw.state s _
  | touch now => exact hLaw.changeState _
  | bindResponses responses =>
      exact fun s => ends_discard.mpr
        (hLaw.bindResponses responses s)
  | processResponses => exact hLaw.processResponses
  | submit responses now =>
      exact fun s => ends_discard.mpr
        (submit_moves hLaw.partsMove responses now s)
  | skip now => exact skip_moves fun s _ _ _ _ => hLaw.state s _
  | timeOut now => exact hLaw.timeOut now
  | finish now => exact hLaw.finish now
  | exit now =>
      exact exit_moves (fun s _ _ => hLaw.state s _)
        fun s _ _ => hLaw.state s _

------------------------------------------------------------
-- Laws up to Rules
------------------------------------------------------------

namespace ItemSession

/-
  A law that states and events cannot break, and that both
  runs of rules obey.
-/
structure UpToRules (R : ItemSession → ItemSession → Prop) :
    Prop where
  item : ∀ s t, R s t → t.item = s.item
  state : ∀ s state, R s { s with state := state }
  events : ∀ s events, R s { s with events := events }
  prepare :
    ∀ engine defaults s,
      Ends (runRules (prepare engine s.item defaults)) s
        fun _ t => R s t
  respond :
    ∀ engine s,
      Ends (runRules (respond engine s.item)) s fun _ t => R s t

namespace UpToRules

variable {R : ItemSession → ItemSession → Prop}

theorem changeState
    (hLaw : UpToRules R)
    (f : ItemState → ItemState) :
    Moves R (changeState f) :=
  fun s => hLaw.state s (f s.state)

variable [Std.Refl R]
variable [IsTrans ItemSession R]

theorem processResponses (hLaw : UpToRules R) :
    Moves R processResponses := by
  refine processResponses_moves
    (announced_moves _ hLaw.events) (hLaw.changeState _)
    (fun s t hStart => ?_) (hLaw.changeState _)
  rw [← hLaw.item s t hStart]
  exact hLaw.respond s.engine t

theorem initialise
    (hLaw : UpToRules R)
    (defaults : List TemplateDefault) :
    Moves R (initialise defaults) :=
  initialise_moves (announced_moves _ hLaw.events)
    (fun s => hLaw.prepare s.engine defaults s)
    (hLaw.changeState _)

theorem upToProcessing (hLaw : UpToRules R) :
    UpToProcessing R where
  state := hLaw.state
  processResponses := hLaw.processResponses

end UpToRules

end ItemSession

open ItemSession in
/- What both runs of rules obey is obeyed by all calls. -/
theorem ItemCall.moves_of_rules
    {R : ItemSession → ItemSession → Prop}
    [Std.Refl R]
    [IsTrans ItemSession R]
    (hLaw : UpToRules R)
    (c : ItemCall) :
    Moves R c.action :=
  c.moves_of_processing hLaw.upToProcessing
    fun defaults _ => hLaw.initialise defaults

------------------------------------------------------------
-- Setups
------------------------------------------------------------

namespace ItemSession

/- Two sessions have been set up with the same. -/
structure SameSetup (s t : ItemSession) : Prop where
  item : t.item = s.item
  engine : t.engine = s.engine
  control : t.control = s.control
  timeLimits : t.timeLimits = s.timeLimits
  submission : t.submission = s.submission

instance : Std.Refl SameSetup where
  refl _ := ⟨rfl, rfl, rfl, rfl, rfl⟩

instance : IsTrans ItemSession SameSetup where
  trans _ _ _ hFirst hThen :=
    ⟨hThen.item.trans hFirst.item,
      hThen.engine.trans hFirst.engine,
      hThen.control.trans hFirst.control,
      hThen.timeLimits.trans hFirst.timeLimits,
      hThen.submission.trans hFirst.submission⟩

theorem sameSetup_events
    (s : ItemSession)
    (events : List Event) :
    s.SameSetup { s with events := events } :=
  ⟨rfl, rfl, rfl, rfl, rfl⟩

theorem runRules_sameSetup {α : Type} (x : Run α) :
    Moves SameSetup (runRules x) := by
  intro s
  rw [ends_runRules]
  exact ⟨rfl, rfl, rfl, rfl, rfl⟩

theorem upToRules_sameSetup : UpToRules SameSetup where
  item _ _ hSetup := hSetup.item
  state _ _ := ⟨rfl, rfl, rfl, rfl, rfl⟩
  events := sameSetup_events
  prepare _ _ s := runRules_sameSetup _ s
  respond _ s := runRules_sameSetup _ s

end ItemSession

/- No call changes what a session has been set up with. -/
theorem ItemCall.keepsSetup (c : ItemCall) :
    Moves ItemSession.SameSetup c.action :=
  c.moves_of_rules ItemSession.upToRules_sameSetup

end Assessment
