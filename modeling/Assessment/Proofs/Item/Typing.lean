import Assessment.Proofs.Item.Reset
import Assessment.Proofs.Item.Setup

/-
  The types of the variables of an item session.

  Of all that is called on a session two things bind values
  without asking. Initialization binds defaults that have been
  given to template variables from outside, and controls that
  end attempts are set to false whatever they name. Everything
  else asks, or writes what the declaration is known to take.

  Main declarations:
    * `ItemSession.Typed`
    * `ItemSession.TemplatesFit` and `Item.ControlsFit`, the
      two conditions
    * `ItemSession.KeepsTypes`, with the steps that obey it
    * `ItemSession.ends_initialise_takesOver`
    * `ItemCall.ends_typed` and `ItemCall.ends_suited`
-/

------------------------------------------------------------
-- Sessions
------------------------------------------------------------

namespace Assessment

open Stateful

/- Controls that end attempts name what can be false. -/
def Item.ControlsFit (i : Item) : Prop :=
  ∀ e ∈ i.endAttempts, ∀ d,
    i.declaration? e.response = some d →
      d.accepts (.boolean false) = true

/- Whatever a default comes to fits the variable it names. -/
def Item.Suits (i : Item) (g : TemplateDefault) : Prop :=
  ∀ d, i.declaration? g.identifier = some d →
    d.kind = .template → ∀ v, g.Yields v → d.accepts v = true

namespace ItemSession

/- Every declared variable has a value that it accepts. -/
def Typed (s : ItemSession) : Prop :=
  ∀ d ∈ s.item.declarations,
    d.accepts (s.state.value d.identifier) = true

/- The session takes responses. -/
def IsOpen (s : ItemSession) : Prop :=
  s.state.initialized = true ∧ s.state.finished = false

/-
  A template variable that has for its value a default from
  outside accepts it.
-/
def TemplatesFit (s : ItemSession) : Prop :=
  ∀ d ∈ s.item.declarations, d.kind = .template →
    s.state.defaults.get? d.identifier =
      some (s.state.value d.identifier) →
    d.accepts (s.state.value d.identifier) = true

/- Among declarations that go together values are looked up. -/
theorem typed_iff_fits
    {s : ItemSession}
    (hDeclared : s.item.WellDeclared) :
    s.Typed ↔ Fits s.item.declarations s.state.values := by
  constructor
  · intro hTyped identifier d v hFound hBound
    rcases mem_of_findDeclaration? hFound with ⟨hMem, rfl⟩
    have hAccepts := hTyped d hMem
    rw [ItemState.value, hBound] at hAccepts
    exact hAccepts
  · intro hFits d hMem
    exact hFits.accepts (hDeclared.declared.found d hMem)

/-
  A step that keeps the types of a session, if it does not
  meet an open session with a control that does not fit.
-/
structure KeepsTypes (s t : ItemSession) : Prop where
  item : t.item = s.item
  opened : t.IsOpen → s.IsOpen
  types :
    s.item.WellDeclared → (s.IsOpen → s.item.ControlsFit) →
      s.scope.KeepsTypes t.scope

instance : Std.Refl KeepsTypes where
  refl s :=
    ⟨rfl, id, fun _ _ =>
      Std.Refl.refl (r := Scope.KeepsTypes) s.scope⟩

instance : IsTrans ItemSession KeepsTypes where
  trans s t u hFirst hThen := by
    refine ⟨hThen.item.trans hFirst.item,
      hFirst.opened ∘ hThen.opened, ?_⟩
    intro hDeclared hControls
    have hThen' := hThen.types
    rw [hFirst.item] at hThen'
    exact IsTrans.trans (r := Scope.KeepsTypes) _ t.scope _
      (hFirst.types hDeclared hControls)
      (hThen' hDeclared (hControls ∘ hFirst.opened))

/- A step that changes nothing but values. -/
theorem keepsTypes_of_values
    {s t : ItemSession}
    (hItem : t.item = s.item)
    (hDefaults : t.state.defaults = s.state.defaults)
    (hCorrects : t.state.corrects = s.state.corrects)
    (hOpened : t.IsOpen → s.IsOpen)
    (hValues :
      s.item.WellDeclared → (s.IsOpen → s.item.ControlsFit) →
        Revises s.item.declarations Accepted s.state.values
          t.state.values) :
    s.KeepsTypes t := by
  refine ⟨hItem, hOpened, fun hDeclared hControls => ?_⟩
  have hRevises := hValues hDeclared hControls
  refine ⟨⟨by simp [scope, hItem], ?_, ?_⟩, ?_, ?_⟩
  · simpa only [scope, hDefaults] using Revises.refl _ _ _
  · simp [scope, hDefaults]
  · simpa only [scope, hCorrects] using Revises.refl _ _ _
  · exact fun _ _ => hRevises

/- A step that writes to a built-in variable, or to none. -/
theorem keepsTypes_of_put
    {s t : ItemSession}
    (hItem : t.item = s.item)
    (hDefaults : t.state.defaults = s.state.defaults)
    (hCorrects : t.state.corrects = s.state.corrects)
    (hOpened : t.IsOpen → s.IsOpen)
    {b : Declaration}
    (hBuiltin : b ∈ Builtin.ofItem)
    {v : Value}
    (hAccepts : b.accepts v = true)
    (hValues :
      t.state.values = s.state.values.put b.identifier v) :
    s.KeepsTypes t := by
  refine keepsTypes_of_values hItem hDefaults hCorrects hOpened
    fun hDeclared _ => ?_
  rw [hValues]
  exact Revises.put
    (hDeclared.declared.accepts hBuiltin hAccepts)

/- The time spent is brought up to date. -/
theorem keepsTypes_of_duration
    {s t : ItemSession}
    (hItem : t.item = s.item)
    (hDefaults : t.state.defaults = s.state.defaults)
    (hCorrects : t.state.corrects = s.state.corrects)
    (hOpened : t.IsOpen → s.IsOpen)
    (x : Float)
    (hValues :
      t.state.values =
        s.state.values.put Builtin.duration (.float x)) :
    s.KeepsTypes t :=
  keepsTypes_of_put hItem hDefaults hCorrects hOpened
    (b := Builtin.durationDeclaration)
    (by simp [Builtin.ofItem]) (Value.conformsTo_float x)
    hValues

------------------------------------------------------------
-- Steps of a Life
------------------------------------------------------------

theorem keepsTypes_closed
    {s : ItemSession}
    {u : ItemState}
    (hValues : u.values = s.state.values)
    (hDefaults : u.defaults = s.state.defaults)
    (hCorrects : u.corrects = s.state.corrects)
    (now : Instant) :
    s.KeepsTypes { s with state := u.closed now } := by
  refine keepsTypes_of_duration rfl hDefaults hCorrects ?_
    (u.timer.stop now).seconds ?_
  · rintro ⟨_, hOpen⟩
    cases hOpen
  · rw [← hValues]
    rfl

theorem enter_keepsTypes (now : Instant) :
    Moves KeepsTypes (enter now) :=
  enter_moves fun _ _ _ _ =>
    keepsTypes_of_put rfl rfl rfl id
      (b := Builtin.completionDeclaration)
      (by simp [Builtin.ofItem]) rfl rfl

theorem suspend_keepsTypes (now : Instant) :
    Moves KeepsTypes (suspend now) :=
  suspend_moves fun _ _ _ =>
    keepsTypes_of_duration rfl rfl rfl id _ rfl

theorem resume_keepsTypes (now : Instant) :
    Moves KeepsTypes (resume now) :=
  resume_moves fun _ _ _ =>
    keepsTypes_of_values rfl rfl rfl id
      fun _ _ => Revises.refl _ _ _

theorem touch_keepsTypes (now : Instant) :
    Moves KeepsTypes (touch now) := by
  intro s
  rw [ends_touch]
  exact keepsTypes_of_duration rfl rfl rfl id _ rfl

theorem finish_keepsTypes (now : Instant) :
    Moves KeepsTypes (finish now) :=
  finish_moves fun _ _ _ => keepsTypes_closed rfl rfl rfl now

theorem exit_keepsTypes (now : Instant) :
    Moves KeepsTypes (exit now) := by
  refine exit_moves (fun s _ _ => ?_) fun s _ _ => ?_
  · exact keepsTypes_of_values rfl rfl rfl id
      fun _ _ => Revises.refl _ _ _
  · have hClosed : s.KeepsTypes
        { s with state := s.state.closed now } :=
      keepsTypes_closed rfl rfl rfl now
    exact ⟨hClosed.item, hClosed.opened, hClosed.types⟩

theorem skip_keepsTypes (now : Instant) :
    Moves KeepsTypes (skip now) :=
  skip_moves fun s _ _ _ _ =>
    keepsTypes_closed (u := { s.state with skipped := true })
      rfl rfl rfl now

theorem timeOut_keepsTypes (now : Instant) :
    Moves KeepsTypes (timeOut now) :=
  timeOut_moves fun s _ _ =>
    keepsTypes_closed (u := { s.state with timedOut := true })
      rfl rfl rfl now

------------------------------------------------------------
-- Responses
------------------------------------------------------------

/- What is read for a response is a value of it. -/
theorem accepts_of_responseValue?
    {item : Item}
    {identifier : String}
    {texts : List String}
    {v : Value}
    (hRead : responseValue? item identifier texts = some v)
    (d : Declaration)
    (hFound : item.declaration? identifier = some d) :
    d.accepts v = true := by
  simp only [responseValue?, hFound, Option.bind_eq_bind,
    Option.bind_some] at hRead
  split at hRead
  · cases hRead
  · rcases Option.bind_eq_some_iff.mp hRead with
      ⟨type, hType, hRest⟩
    split at hRest
    · cases hRest
    · rcases Option.bind_eq_some_iff.mp hRest with
        ⟨scalars, _, hList⟩
      cases hBuild : Value.ofList d.cardinality type scalars with
      | error =>
          rw [hBuild] at hList
          cases hList
      | ok w =>
          rw [hBuild] at hList
          cases hList
          unfold Declaration.accepts
          rw [hType]
          exact Value.conformsTo_of_ofList hBuild

/- The bindings with one control cleared. -/
def cleared
    (item : Item)
    (b : Bindings)
    (e : EndAttempt) :
    Bindings :=
  match item.declaration? e.response with
  | some _ => b.put e.response (.boolean false)
  | none => b

theorem clearControls_eq (item : Item) (b : Bindings) :
    clearControls item b =
      item.endAttempts.foldl (cleared item) b := rfl

/- Clearing a control clears one declared variable. -/
theorem get?_cleared
    {item : Item}
    {identifier : String}
    {d : Declaration}
    (hFound : item.declaration? identifier = some d)
    (b : Bindings)
    (e : EndAttempt) :
    (cleared item b e).get? identifier =
      if e.response = identifier then some (.boolean false)
      else b.get? identifier := by
  unfold cleared
  split
  next hSome =>
    split
    next hSame =>
      rw [hSame]
      exact Keyed.get?_put_self identifier _ b
    next hOther =>
      exact Keyed.get?_put_of_ne (fun h => hOther h.symm) _ b
  next hNone =>
    rw [if_neg]
    rintro rfl
    rw [hFound] at hNone
    cases hNone

/- A control that names a variable is cleared for good. -/
theorem get?_foldl_cleared
    {item : Item}
    {identifier : String}
    {d : Declaration}
    (hFound : item.declaration? identifier = some d)
    {es : List EndAttempt}
    {b : Bindings}
    (hBefore :
      (∃ e ∈ es, e.response = identifier) ∨
        b.get? identifier = some (.boolean false)) :
    Keyed.get? identifier (es.foldl (cleared item) b) =
      some (.boolean false) := by
  induction es generalizing b with
  | nil =>
      rcases hBefore with ⟨e, hNone, _⟩ | hDone
      · cases hNone
      · exact hDone
  | cons first rest ih =>
      refine ih ?_
      rw [get?_cleared hFound]
      by_cases hSame : first.response = identifier
      · exact Or.inr (if_pos hSame)
      · rw [if_neg hSame]
        refine hBefore.imp_left ?_
        rintro ⟨e, hMem, hName⟩
        rcases List.mem_cons.mp hMem with rfl | hRest
        · exact absurd hName hSame
        · exact ⟨e, hRest, hName⟩

theorem get?_clearControls
    {item : Item}
    {e : EndAttempt}
    (hMem : e ∈ item.endAttempts)
    {d : Declaration}
    (hFound : item.declaration? e.response = some d)
    (b : Bindings) :
    (clearControls item b).get? e.response =
      some (.boolean false) := by
  rw [clearControls_eq]
  exact get?_foldl_cleared hFound (Or.inl ⟨e, hMem, rfl⟩)

/- Controls are cleared without harm if they fit. -/
theorem foldl_cleared_revises
    {item : Item}
    {es : List EndAttempt}
    (hFit :
      ∀ e ∈ es, ∀ d, item.declaration? e.response = some d →
        d.accepts (.boolean false) = true)
    (b : Bindings) :
    Revises item.declarations Accepted b
      (es.foldl (cleared item) b) := by
  induction es generalizing b with
  | nil => exact Revises.refl _ _ b
  | cons e rest ih =>
      refine Revises.trans ?_
        (ih (fun e' h => hFit e' (List.mem_cons_of_mem e h)) _)
      unfold cleared
      split
      · exact Revises.put (hFit e List.mem_cons_self)
      · exact Revises.refl _ _ b

theorem bindEach_revises
    (item : Item)
    (responses : Responses)
    (b : Bindings) :
    Revises item.declarations Accepted b
      (bindEach item b responses).1 := by
  induction responses generalizing b with
  | nil => exact Revises.refl _ _ b
  | cons first rest ih =>
      rcases first with ⟨identifier, texts⟩
      rw [bindEach]
      split
      next v hRead =>
        refine Revises.trans (Revises.put ?_) (ih _)
        exact accepts_of_responseValue? hRead
      next => exact ih b

theorem bindResponses_keepsTypes (responses : Responses) :
    Moves KeepsTypes (bindResponses responses) := by
  refine bindResponses_moves fun s hInit hOpen => ?_
  refine keepsTypes_of_values rfl rfl rfl id
    fun _ hControls => ?_
  have hFit := hControls ⟨hInit, hOpen⟩
  exact (foldl_cleared_revises hFit s.state.values).trans
    (bindEach_revises s.item responses _)

------------------------------------------------------------
-- Processing
------------------------------------------------------------

/- Rules that keep types do so in a session. -/
theorem ends_runRules_keepsTypes
    {α : Type}
    {x : Run α}
    {s : ItemSession}
    (hRules :
      s.item.WellDeclared →
        Ends x ⟨s.scope, s.tally⟩ fun _ t =>
          s.scope.KeepsTypes t.scope) :
    Ends (runRules x) s fun _ t => s.KeepsTypes t := by
  rw [ends_runRules]
  refine ⟨rfl, id, fun hDeclared _ => ?_⟩
  have hKeeps := hRules hDeclared
  exact ⟨⟨rfl, hKeeps.defaults, hKeeps.templates⟩,
    hKeeps.corrects, hKeeps.values⟩

theorem processResponses_keepsTypes :
    Moves KeepsTypes processResponses := by
  refine processResponses_moves
    (announced_moves _ fun _ _ => ?_) ?_
    (fun s t hStart => ?_) fun _ => ?_
  · exact keepsTypes_of_values rfl rfl rfl id
      fun _ _ => Revises.refl _ _ _
  · exact fun _ => keepsTypes_of_put rfl rfl rfl id
      (b := Builtin.attemptsDeclaration)
      (by simp [Builtin.ofItem]) rfl rfl
  · refine ends_runRules_keepsTypes fun hDeclared => ?_
    rw [hStart.item] at hDeclared
    exact ends_respond_keepsTypes s.engine hDeclared
      (congrArg Item.declarations hStart.item)
  · exact keepsTypes_of_values rfl rfl rfl id
      fun _ _ => Revises.refl _ _ _

theorem partsMove_keepsTypes : PartsMove KeepsTypes where
  touch := touch_keepsTypes
  timeOut := timeOut_keepsTypes
  finish := finish_keepsTypes
  bindResponses := bindResponses_keepsTypes
  processResponses := processResponses_keepsTypes

theorem submit_keepsTypes
    (responses : Responses)
    (now : Instant) :
    Moves KeepsTypes (submit responses now) :=
  submit_moves partsMove_keepsTypes responses now

------------------------------------------------------------
-- Initialization
------------------------------------------------------------

/-
  Initialization takes over what is given from outside, and
  then resets variables and runs rules.
-/
theorem ends_initialise_takesOver
    (defaults : List TemplateDefault)
    {s : ItemSession}
    (hDeclared : s.item.WellDeclared) :
    Ends (initialise defaults) s fun _ t =>
      t.item = s.item ∧
        ∃ given : Scope, s.scope.TakesOver defaults given ∧
          given.Restores t.scope := by
  rw [initialise, ends_bind, ends_getState]
  dsimp only
  split
  · exact ⟨rfl, s.scope,
      Std.Refl.refl (r := Scope.TakesOver _) s.scope,
      Std.Refl.refl (r := Scope.Restores) s.scope⟩
  · rw [ends_announced, ends_get_bind]
    refine Ends.seq
      (P := fun t => t.item = s.item ∧
        ∃ given : Scope, s.scope.TakesOver defaults given ∧
          given.Restores t.scope) ?_ ?_ ?_
    · rw [ends_runRules]
      refine (ends_prepare s.engine s.item defaults _
        hDeclared.declared).mono fun r stage hPrepared => ?_
      rcases hPrepared with ⟨given, hTakes, hRestores⟩
      exact ⟨rfl, given, hTakes,
        ⟨hTakes.declarations.symm, hRestores.defaults,
          hRestores.templates⟩, hRestores.values⟩
    · exact fun _ _ hP => hP
    · exact fun _ _ hP => hP

/-
  A value that initialization has bound fits, unless it comes
  from outside and does not fit its template variable.
-/
theorem typed_of_revises
    {s : ItemSession}
    (hDeclared : s.item.WellDeclared)
    {b : Bindings}
    (hBefore : Fits s.item.declarations b)
    (hRevises :
      Revises s.item.declarations s.scope.MayReset b
        s.state.values)
    (hTemplates : s.TemplatesFit) :
    s.Typed := by
  intro d hMem
  have hFound := hDeclared.declared.found d hMem
  rcases hRevises d.identifier d hFound with
    hSame | ⟨v, hBound, hAccepts | ⟨hKind, hGiven⟩⟩
  · rw [ItemState.value, hSame]
    exact hBefore.accepts hFound
  · rw [ItemState.value, hBound]
    exact hAccepts
  · refine hTemplates d hMem hKind ?_
    rw [ItemState.value, hBound]
    exact hGiven

end ItemSession

------------------------------------------------------------
-- Calls
------------------------------------------------------------

namespace ItemCall

/- Calls other than initialization keep types. -/
theorem keepsTypes
    {c : ItemCall}
    (hOther : ∀ defaults, c ≠ .initialise defaults) :
    Moves ItemSession.KeepsTypes c.action := by
  cases c with
  | initialise defaults => exact absurd rfl (hOther defaults)
  | enter now => exact ItemSession.enter_keepsTypes now
  | suspend now => exact ItemSession.suspend_keepsTypes now
  | resume now => exact ItemSession.resume_keepsTypes now
  | touch now => exact ItemSession.touch_keepsTypes now
  | bindResponses responses =>
      exact fun s => ends_discard.mpr
        (ItemSession.bindResponses_keepsTypes responses s)
  | processResponses =>
      exact ItemSession.processResponses_keepsTypes
  | submit responses now =>
      exact fun s => ends_discard.mpr
        (ItemSession.submit_keepsTypes responses now s)
  | skip now => exact ItemSession.skip_keepsTypes now
  | timeOut now => exact ItemSession.timeOut_keepsTypes now
  | finish now => exact ItemSession.finish_keepsTypes now
  | exit now => exact ItemSession.exit_keepsTypes now

/- No call takes a session to another item. -/
theorem keepsItem (c : ItemCall) :
    Moves (fun s t : ItemSession => t.item = s.item)
      c.action :=
  c.keepsSetup.mono fun _ _ hSetup => hSetup.item

/-
  A call leaves a typed session typed, if what it binds
  unasked fits: defaults from outside when it initializes the
  session, and the controls of an open session.
-/
theorem ends_typed
    {s : ItemSession}
    (hDeclared : s.item.WellDeclared)
    (hFit : s.scope.DefaultsFit)
    (hTyped : s.Typed)
    (hControls : s.IsOpen → s.item.ControlsFit)
    (c : ItemCall) :
    Ends c.action s fun _ t =>
      t.scope.DefaultsFit ∧
        ((∀ defaults, c = .initialise defaults →
          t.TemplatesFit) → t.Typed) := by
  have hFits := (ItemSession.typed_iff_fits hDeclared).mp hTyped
  by_cases hInit : ∃ defaults, c = .initialise defaults
  · rcases hInit with ⟨defaults, rfl⟩
    have hEnds :=
      ItemSession.ends_initialise_takesOver defaults hDeclared
    refine hEnds.mono fun _ t hInitialised => ?_
    rcases hInitialised with ⟨hItem, given, hTakes, hRestores⟩
    rcases hTakes.restores hRestores hDeclared.declared.sound
      hFit with ⟨hFit', hRevises⟩
    refine ⟨hFit', fun hTemplates => ?_⟩
    change Revises s.item.declarations _ _ _ at hRevises
    rw [← hItem] at hDeclared hFits hRevises
    exact ItemSession.typed_of_revises hDeclared hFits hRevises
      (hTemplates defaults rfl)
  · have hOther : ∀ defaults, c ≠ .initialise defaults :=
      fun defaults hSame => hInit ⟨defaults, hSame⟩
    refine (keepsTypes hOther s).mono fun _ t hKeeps => ?_
    have hTypes := hKeeps.types hDeclared hControls
    refine ⟨hTypes.defaultsFit hFit, fun _ => ?_⟩
    rw [ItemSession.typed_iff_fits (hKeeps.item ▸ hDeclared),
      hKeeps.item]
    exact (hTypes.values hDeclared.declared.sound hFit).fits
      hFits

/-
  Overriding defaults fit after a call, if those that the call
  gives from outside suit the item.
-/
theorem ends_suited
    {s : ItemSession}
    (hDeclared : s.item.WellDeclared)
    (hControls : s.IsOpen → s.item.ControlsFit)
    (hFits : Fits s.item.declarations s.state.defaults)
    {c : ItemCall}
    (hSuits :
      ∀ defaults, c = .initialise defaults →
        ∀ g ∈ defaults, s.item.Suits g) :
    Ends c.action s fun _ t =>
      Fits s.item.declarations t.state.defaults := by
  by_cases hInit : ∃ defaults, c = .initialise defaults
  · rcases hInit with ⟨defaults, rfl⟩
    have hEnds :=
      ItemSession.ends_initialise_takesOver defaults hDeclared
    refine hEnds.mono fun _ t hInitialised => ?_
    rcases hInitialised with ⟨_, given, hTakes, hRestores⟩
    have hDefaults := hRestores.defaults
    rw [hTakes.declarations] at hDefaults
    refine hDefaults.fits (Revises.fits ?_ hFits)
    refine hTakes.defaults.mono fun _ d v hFound hGiven => ?_
    rcases hGiven with ⟨hKind, g, hMem, rfl, hYields⟩
    exact hSuits defaults rfl g hMem d hFound hKind v hYields
  · have hOther : ∀ defaults, c ≠ .initialise defaults :=
      fun defaults hSame => hInit ⟨defaults, hSame⟩
    refine (keepsTypes hOther s).mono fun _ t hKeeps => ?_
    exact (hKeeps.types hDeclared hControls).defaults.fits hFits

end ItemCall

end Assessment
