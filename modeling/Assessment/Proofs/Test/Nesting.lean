import Assessment.Engine.Basic
import Assessment.Proofs.Item.Setup
import Assessment.Proofs.Test.Pacing
import Assessment.Proofs.Test.Walk

/-
  Nesting of what is announced.

  The start of an activity puts it on a stack, and its finish
  takes it off again, if it is the innermost. Events are
  proper if they leave the stack as they have found it and
  every activity in them may start where it does. Events are
  put together from proper ones by doing one after the other
  and by enclosing them in an activity.

  A call to an item session adds proper events to those that
  were announced before. Only initialization and response
  processing announce anything, each with a pair of its own.

  What items announce is passed on by a test at once, in the
  midst of what the test announces itself. Items are
  initialized while the test is, and their responses are
  processed apart from its outcomes.

  Main declarations:
    * `underway?`, the activities under way after events
    * `WellNested` and `StartsWithin`
    * `Proper`, with `Proper.append` and `Proper.enclosed`
    * `ItemSession.Announces`, proper events are added
    * `ItemCall.announces`, as all calls do
    * `ItemSession.wellNested_after`
    * `TestSession.MayStart`, where activities may start
    * `TestSession.Announces`, kept by all calls
    * `lifecycle_events_nested`, for tests and for items
-/

------------------------------------------------------------
-- Activities under Way
------------------------------------------------------------

namespace Assessment

namespace Event

/-
  The activities under way after events, innermost first, if
  `outer` were under way before. There is no answer if an
  activity finishes that is not the innermost.
-/
def underway? :
    List Activity → List Event → Option (List Activity)
  | outer, [] => some outer
  | outer, .starting a :: es => underway? (a :: outer) es
  | [], .finished _ :: _ => none
  | a :: outer, .finished b :: es =>
      if a = b then underway? outer es else none

theorem underway?_append
    (outer : List Activity)
    (es fs : List Event) :
    underway? outer (es ++ fs) =
      (underway? outer es).bind fun inner =>
        underway? inner fs := by
  induction es generalizing outer with
  | nil => rfl
  | cons e es ih =>
      cases e with
      | starting a => exact ih (a :: outer)
      | finished b =>
          cases outer with
          | nil => rfl
          | cons a outer =>
              simp only [List.cons_append, underway?]
              split
              · exact ih outer
              · rfl

/- Every start has its finish, and none is left open. -/
def WellNested (es : List Event) : Prop :=
  underway? [] es = some []

instance (es : List Event) : Decidable (WellNested es) :=
  inferInstanceAs (Decidable (underway? [] es = some []))

/- An activity starts while others are under way. -/
def StartsWithin
    (outer : List Activity)
    (es : List Event)
    (a : Activity)
    (inner : List Activity) :
    Prop :=
  ∃ before later,
    es = before ++ .starting a :: later ∧
      underway? outer before = some inner

/- What starts in two lists starts in one or the other. -/
theorem StartsWithin.of_append
    {outer middle inner : List Activity}
    {es fs : List Event}
    {a : Activity}
    (hStarts : StartsWithin outer (es ++ fs) a inner)
    (hFirst : underway? outer es = some middle) :
    StartsWithin outer es a inner ∨
      StartsWithin middle fs a inner := by
  rcases hStarts with ⟨before, later, hSplit, hInner⟩
  rcases List.append_eq_append_iff.mp hSplit with
    ⟨rest, hBefore, hLater⟩ | ⟨rest, hBefore, hLater⟩
  · refine Or.inr ⟨rest, later, hLater, ?_⟩
    rw [hBefore, underway?_append, hFirst] at hInner
    exact hInner
  · cases rest with
    | nil =>
        refine Or.inr ⟨[], later, hLater.symm, ?_⟩
        rw [List.append_nil] at hBefore
        rw [← hInner, ← hBefore, hFirst]
        rfl
    | cons e rest =>
        have hBoth := List.cons.inj hLater
        rw [← hBoth.1] at hBefore
        exact Or.inl ⟨before, rest, hBefore, hInner⟩

------------------------------------------------------------
-- Proper Events
------------------------------------------------------------

/-
  Events leave the activities under way as they have found
  them, and activities start only where they may.
-/
structure Proper
    (MayStart : Activity → List Activity → Prop)
    (outer : List Activity)
    (es : List Event) :
    Prop where
  closes : underway? outer es = some outer
  starts :
    ∀ a inner, StartsWithin outer es a inner → MayStart a inner

namespace Proper

variable {MayStart : Activity → List Activity → Prop}
variable {outer : List Activity}

theorem nil : Proper MayStart outer [] := by
  refine ⟨rfl, ?_⟩
  rintro a inner ⟨before, later, hSplit, _⟩
  simp at hSplit

theorem append
    {es fs : List Event}
    (hFirst : Proper MayStart outer es)
    (hThen : Proper MayStart outer fs) :
    Proper MayStart outer (es ++ fs) := by
  constructor
  · rw [underway?_append, hFirst.closes]
    exact hThen.closes
  · intro a inner hStarts
    rcases hStarts.of_append hFirst.closes with
      hBefore | hAfter
    · exact hFirst.starts a inner hBefore
    · exact hThen.starts a inner hAfter

/- An activity that may start encloses what it is made of. -/
theorem enclosed
    {a : Activity}
    {es : List Event}
    (hMay : MayStart a outer)
    (hInside : Proper MayStart (a :: outer) es) :
    Proper MayStart outer
      ([.starting a] ++ es ++ [.finished a]) := by
  have hOpened :
      underway? outer ([.starting a] ++ es) =
        some (a :: outer) :=
    hInside.closes
  constructor
  · rw [underway?_append, hOpened]
    simp [underway?]
  · intro b inner hStarts
    rcases hStarts.of_append hOpened with
      hBefore | ⟨before, later, hSplit, _⟩
    · have hStart : underway? outer [.starting a] =
          some (a :: outer) := rfl
      rcases hBefore.of_append hStart with
        ⟨before, later, hSplit, hInner⟩ | hWithin
      · cases before with
        | nil =>
            cases hSplit
            cases hInner
            exact hMay
        | cons => simp at hSplit
      · exact hInside.starts b inner hWithin
    · cases before with
      | nil => cases hSplit
      | cons => simp at hSplit

theorem wellNested
    {es : List Event}
    (hProper : Proper MayStart [] es) :
    WellNested es :=
  hProper.closes

end Proper

end Event

------------------------------------------------------------
-- Announcing
------------------------------------------------------------

open Stateful

namespace ItemSession

/-
  To what has been announced before, a session adds proper
  events, while some activities are under way.
-/
def Announces
    (MayStart : Activity → List Activity → Prop)
    (outer : List Activity)
    (s t : ItemSession) :
    Prop :=
  ∃ new, t.events = s.events ++ new ∧
    Event.Proper MayStart outer new

variable {α : Type}
variable {MayStart : Activity → List Activity → Prop}
variable {outer : List Activity}

/- Nothing may be added. -/
theorem announces_of_eq
    {s t : ItemSession}
    (hEvents : t.events = s.events) :
    Announces MayStart outer s t :=
  ⟨[], by rw [hEvents, List.append_nil], .nil⟩

instance : Std.Refl (Announces MayStart outer) where
  refl _ := announces_of_eq rfl

instance : IsTrans ItemSession (Announces MayStart outer) where
  trans s t u := by
    rintro ⟨new, hNew, hFirst⟩ ⟨newer, hNewer, hThen⟩
    refine ⟨new ++ newer, ?_, hFirst.append hThen⟩
    rw [hNewer, hNew, List.append_assoc]

/- An activity encloses what is announced on its way. -/
theorem announced_announces
    {activity : Activity}
    {x : Action α}
    (hMay : MayStart activity outer)
    (hInside : Moves (Announces MayStart (activity :: outer)) x) :
    Moves (Announces MayStart outer) (announced activity x) := by
  intro s
  rw [ends_announced]
  apply (hInside _).mono
  rintro _ t ⟨new, hNew, hProper⟩
  refine ⟨_, ?_, hProper.enclosed hMay⟩
  simp only [hNew, List.append_assoc]

theorem changeState_announces
    (f : ItemState → ItemState) :
    Moves (Announces MayStart outer) (changeState f) :=
  fun _ => announces_of_eq rfl

/- Rules announce nothing. -/
theorem runRules_announces (x : Run α) :
    Moves (Announces MayStart outer) (runRules x) := by
  intro s
  rw [ends_runRules]
  exact announces_of_eq rfl

theorem initialise_announces
    (hMay : MayStart .itemInitialisation outer)
    (defaults : List TemplateDefault) :
    Moves (Announces MayStart outer) (initialise defaults) :=
  initialise_moves (announced_announces hMay)
    (fun s => runRules_announces _ s) (changeState_announces _)

theorem processResponses_announces
    (hMay : MayStart .itemResponseProcessing outer) :
    Moves (Announces MayStart outer) processResponses :=
  processResponses_moves (announced_announces hMay)
    (changeState_announces _)
    (fun _ t _ => runRules_announces _ t)
    (changeState_announces _)

theorem upToProcessing_announces
    (hMay : MayStart .itemResponseProcessing outer) :
    UpToProcessing (Announces MayStart outer) where
  state _ _ := announces_of_eq rfl
  processResponses := processResponses_announces hMay

end ItemSession

open ItemSession in
/-
  A call announces proper events, if what it starts may start
  where it does.
-/
theorem ItemCall.announces
    {MayStart : Activity → List Activity → Prop}
    {outer : List Activity}
    (hProcess : MayStart .itemResponseProcessing outer)
    (c : ItemCall)
    (hInitialise :
      ∀ defaults, c = .initialise defaults →
        MayStart .itemInitialisation outer) :
    Moves (Announces MayStart outer) c.action :=
  c.moves_of_processing (upToProcessing_announces hProcess)
    fun defaults hCall =>
      initialise_announces (hInitialise defaults hCall) defaults

namespace ItemSession

/- Whatever calls are made, what is announced is well nested. -/
theorem wellNested_after
    {s : ItemSession}
    (hNone : s.events = [])
    (calls : List ItemCall) :
    Event.WellNested (s.after calls).events := by
  have hCalls : ∀ c : ItemCall,
      Moves (Announces (fun _ _ => True) []) c.action :=
    fun c => c.announces trivial fun _ _ => trivial
  have hRun :
      Announces (fun _ _ => True) [] s (s.after calls) :=
    after_moves hCalls s calls
  rcases hRun with ⟨new, hNew, hProper⟩
  rw [hNew, hNone, List.nil_append]
  exact hProper.wellNested

end ItemSession

------------------------------------------------------------
-- Announcing
------------------------------------------------------------

open Stateful

namespace TestSession

/- Among which others an activity of a test may start. -/
def MayStart : Activity → List Activity → Prop
  | .itemInitialisation, outer => .testInitialisation ∈ outer
  | .itemResponseProcessing, outer =>
      .testOutcomeProcessing ∉ outer
  | .testOutcomeProcessing, outer =>
      .itemResponseProcessing ∉ outer
  | .testInitialisation, _ => True

/-
  To what has been announced before, a session without
  anything left to announce adds proper events.
-/
def Announces
    (outer : List Activity)
    (s t : TestSession) :
    Prop :=
  s.Quiet → t.Quiet ∧
    ∃ new, t.events = s.events ++ new ∧
      Event.Proper MayStart outer new

variable {α : Type}
variable {outer : List Activity}

/- Nothing may be added. -/
theorem announces_of_eq
    {s t : TestSession}
    (hEntries : t.entries = s.entries)
    (hEvents : t.events = s.events) :
    Announces outer s t := by
  intro hQuiet
  refine ⟨?_, [], by rw [hEvents, List.append_nil], .nil⟩
  unfold Quiet
  rw [hEntries]
  exact hQuiet

instance : Std.Refl (Announces outer) where
  refl _ := announces_of_eq rfl rfl

instance : IsTrans TestSession (Announces outer) where
  trans s t u hFirst hThen hQuiet := by
    rcases hFirst hQuiet with ⟨hMiddle, new, hNew, hProper⟩
    rcases hThen hMiddle with ⟨hLast, newer, hNewer, hProper'⟩
    refine ⟨hLast, new ++ newer, ?_, hProper.append hProper'⟩
    rw [hNewer, hNew, List.append_assoc]

/- An activity encloses what is announced on its way. -/
theorem announced_announces
    {activity : Activity}
    {x : TestAction α}
    (hMay : MayStart activity outer)
    (hInside : Moves (Announces (activity :: outer)) x) :
    Moves (Announces outer) (announced activity x) := by
  intro s
  rw [ends_announced]
  apply (hInside _).mono
  intro _ t hAnnounces hQuiet
  rcases hAnnounces hQuiet with ⟨hLeft, new, hNew, hProper⟩
  refine ⟨hLeft, _, ?_, hProper.enclosed hMay⟩
  simp only [hNew, List.append_assoc]

theorem changeState_announces (f : TestState → TestState) :
    Moves (Announces outer) (changeState f) :=
  fun _ => announces_of_eq rfl rfl

/- What an item announces is passed on as it is. -/
theorem onItem_announces
    {x : Action α}
    (hItem : Moves (ItemSession.Announces MayStart outer) x)
    (i : Nat) :
    Moves (Announces outer) (onItem i x) := by
  intro s
  have hQuiet := onItem_keepsQuiet i x s
  rw [ends_onItem] at hQuiet ⊢
  split
  next => exact Std.Refl.refl (r := Announces outer) s
  next e hE =>
    rw [hE] at hQuiet
    apply (Ends.and (hItem e.session) hQuiet).mono
    rintro _ session ⟨⟨new, hNew, hProper⟩, hLeft⟩ hBefore
    refine ⟨hLeft hBefore, new, ?_, hProper⟩
    have hNone := hBefore e (List.mem_of_getElem? hE)
    rw [hNone, List.nil_append] at hNew
    rw [← hNew]
    rfl

------------------------------------------------------------
-- Steps
------------------------------------------------------------

/- By themselves, items announce what they do. -/
theorem obey_announces :
    ItemCall.Obey (ItemSession.Announces MayStart []) := by
  intro c hOther
  have hAlone : MayStart .itemResponseProcessing [] := by
    simp [MayStart]
  apply c.announces hAlone
  intro defaults hCall
  exact absurd hCall (hOther defaults)

theorem lifts_announces :
    Lifts (ItemSession.Announces MayStart []) (Announces []) :=
  ⟨fun hItem i => onItem_announces hItem i⟩

/- Rules over the outcomes announce nothing by themselves. -/
theorem processOutcomes_announces :
    Moves (Announces []) processOutcomes := by
  have hAlone : MayStart .testOutcomeProcessing [] := by
    simp [MayStart]
  exact processOutcomes_moves (announced_announces hAlone)
    (fun _ => announces_of_eq rfl rfl)
    fun _ t _ =>
      runRules_moves (fun _ _ => announces_of_eq rfl rfl) _ t

theorem stepsMove_announces : StepsMove (Announces []) :=
  lifts_announces.stepsMove obey_announces.way
    (fun _ => changeState_announces _)
    (changeState_announces _) processOutcomes_announces

/- Items are initialized inside the pair of the test. -/
theorem initialise_announces :
    Moves (Announces []) initialise := by
  have hInside :
      MayStart .itemInitialisation [.testInitialisation] := by
    simp [MayStart]
  refine initialise_moves (announced_announces trivial)
    (fun _ => changeState_announces _)
    (initialiseItems_moves fun i defaults => ?_)
    (changeState_announces _)
  exact onItem_announces
    (ItemSession.initialise_announces hInside defaults) i

/- Whatever happens in a call, its events are proper. -/
theorem call_announces (c : TestCall) :
    Moves (Announces []) c.action :=
  lifts_announces.call_moves obey_announces
    stepsMove_announces initialise_announces c

------------------------------------------------------------
-- Events of Sessions
------------------------------------------------------------

theorem proper_after
    {s : TestSession}
    (hQuiet : s.Quiet)
    (hNone : s.events = [])
    (calls : List TestCall) :
    Event.Proper MayStart [] (s.after calls).events := by
  have hRun : Announces [] s (s.after calls) :=
    after_moves call_announces s calls
  rcases hRun hQuiet with ⟨_, new, hNew, hProper⟩
  rw [hNew, hNone, List.nil_append]
  exact hProper

end TestSession

/-
  What a test session has announced is in order. Items are
  initialized inside the initialization of the test, and the
  processing of responses and of outcomes are kept apart.
-/
structure Event.InTestOrder (es : List Event) : Prop where
  nested : WellNested es
  initialisation :
    ∀ outer, StartsWithin [] es .itemInitialisation outer →
      .testInitialisation ∈ outer
  responses :
    ∀ outer, StartsWithin [] es .itemResponseProcessing outer →
      .testOutcomeProcessing ∉ outer
  outcomes :
    ∀ outer, StartsWithin [] es .testOutcomeProcessing outer →
      .itemResponseProcessing ∉ outer

/-
  Whatever calls are made, and whether they fail or not, what
  a test session has announced after them is in order, and
  what an item session by itself has announced is well nested.
-/
theorem lifecycle_events_nested :
    (∀ (t : Test) (items : Keyed Item) (engine : Engine)
      (draws : Draws) (first : TestSession),
      TestSession.start t items engine draws = .ok first →
        ∀ calls, Event.InTestOrder (first.after calls).events) ∧
    ∀ (item : Item) (engine : Engine) (draws : Draws)
      (control : Control) (timeLimits : Option TimeLimits)
      (submission : SubmissionMode) (calls : List ItemCall),
      Event.WellNested
        ((ItemSession.fresh item engine draws control
          timeLimits submission).after calls).events := by
  constructor
  · intro t items engine draws first hStart calls
    have hProper := TestSession.proper_after
      (TestSession.start_quiet hStart)
      (TestSession.start_events hStart) calls
    exact {
      nested := hProper.wellNested
      initialisation := hProper.starts .itemInitialisation
      responses := hProper.starts .itemResponseProcessing
      outcomes := hProper.starts .testOutcomeProcessing }
  · intro item engine draws control timeLimits submission calls
    exact ItemSession.wellNested_after rfl calls

/- The start and the finish of an activity, in a row. -/
def Event.pair (a : Activity) : List Event :=
  [.starting a, .finished a]

/-
  A candidate submits the first of two items. To initialize
  the test once more is refused, and announces nothing.
-/
theorem lifecycle_events_nested_submitted :
    ∃ first : TestSession,
      TestSession.start (TestSession.pairTest .individual)
        [("blank", TestSession.blankItem)] ⟨{}, none⟩ default =
          .ok first ∧
      (first.after
        (TestSession.openingCalls ⟨0⟩ ++
          [.initialise, .submit [] ⟨0⟩])).events =
        [.starting .testInitialisation] ++
          Event.pair .itemInitialisation ++
          Event.pair .itemInitialisation ++
          [.finished .testInitialisation] ++
          Event.pair .itemResponseProcessing ++
          Event.pair .testOutcomeProcessing ∧
      Event.InTestOrder
        (first.after
          (TestSession.openingCalls ⟨0⟩ ++
            [.initialise, .submit [] ⟨0⟩])).events := by
  refine ⟨_, rfl, ?_, ?_⟩
  · decide +kernel
  · exact lifecycle_events_nested.1
      (TestSession.pairTest .individual)
      [("blank", TestSession.blankItem)] ⟨{}, none⟩ default _
      rfl _

end Assessment
