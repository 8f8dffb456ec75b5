import Assessment.Package.Basic
import Assessment.Proofs.Item.Typing
import Assessment.Proofs.Validation.Package

/-
  The item sessions of a package.

  A session on an item of a package is given those template
  defaults only that the package has for the item, and apart
  from that it may be called in any way. A test does the same
  with the sessions it holds, and takes over the events that
  they announce.

  Main declarations:
    * `Package.Offers`, the template defaults of an item
    * `Package.Reaches`, the item sessions of a package
    * `Package.GapsClosed`, what validation does not ask
    * `Package.Reaches.typed`
-/

------------------------------------------------------------
-- Sessions of a Package
------------------------------------------------------------

namespace Assessment

open Stateful

namespace Package

/-
  Template defaults that a package has for an item: none, or
  those of a reference to it.
-/
def Offers
    (p : Package)
    (i : Item)
    (defaults : List TemplateDefault) :
    Prop :=
  defaults = [] ∨
    ∃ name t, p.tests.get? name = some t ∧
      ∃ q ∈ t.placements,
        p.items.get? q.ref.href = some i ∧
          defaults = q.ref.templateDefaults

/- A call gives an item nothing but what a package has. -/
def Permits (p : Package) (i : Item) (c : ItemCall) : Prop :=
  ∀ defaults, c = .initialise defaults → p.Offers i defaults

/- The sessions on items of a package, in all their states. -/
inductive Reaches (p : Package) : ItemSession → Prop where
  | fresh
      (name : String)
      (item : Item)
      (engine : Engine)
      (draws : Draws)
      (control : Control)
      (timeLimits : Option TimeLimits)
      (submission : SubmissionMode)
      (hItem : p.items.get? name = some item) :
      Reaches p
        (ItemSession.fresh item engine draws control timeLimits
          submission)
  | call
      (s : ItemSession)
      (c : ItemCall)
      (hReached : Reaches p s)
      (hPermits : p.Permits s.item c) :
      Reaches p (s.after [c])
  | handOver
      (s : ItemSession)
      (hReached : Reaches p s) :
      Reaches p { s with events := [] }

/- A run of permitted calls only reaches such sessions. -/
theorem Reaches.after
    {p : Package}
    {s : ItemSession}
    (hReached : p.Reaches s)
    {calls : List ItemCall}
    (hPermits : ∀ c ∈ calls, p.Permits s.item c) :
    p.Reaches (s.after calls) := by
  induction calls generalizing s with
  | nil => exact hReached
  | cons c rest ih =>
      have hFirst := hPermits c List.mem_cons_self
      have hItem : (s.after [c]).item = s.item := c.keepsItem s
      refine ih (s := s.after [c]) (hReached.call s c hFirst)
        fun d hMem => ?_
      rw [hItem]
      exact hPermits d (List.mem_cons_of_mem c hMem)

theorem Reaches.item
    {p : Package}
    {s : ItemSession}
    (hReached : p.Reaches s) :
    ∃ name, p.items.get? name = some s.item := by
  induction hReached with
  | fresh name item _ _ _ _ _ hItem => exact ⟨name, hItem⟩
  | call s c _ _ ih =>
      have hItem : (s.after [c]).item = s.item := c.keepsItem s
      rw [hItem]
      exact ih
  | handOver s _ ih => exact ih

/-
  What validation does not ask: that template defaults from
  outside fit where they are still the values of variables
  once a session is initialized, and that controls fit on
  every item that gets as far as taking responses.
-/
structure GapsClosed (p : Package) : Prop where
  templates :
    ∀ s, p.Reaches s → ∀ defaults, p.Offers s.item defaults →
      (s.after [.initialise defaults]).TemplatesFit
  controls :
    ∀ s, p.Reaches s → s.IsOpen → s.item.ControlsFit

/- Where the gaps are closed, item sessions are typed. -/
theorem Reaches.typed
    {p : Package}
    (hDeclared : p.WellDeclared)
    (hClosed : p.GapsClosed)
    {s : ItemSession}
    (hReached : p.Reaches s) :
    s.scope.DefaultsFit ∧ s.Typed := by
  induction hReached with
  | fresh name item engine draws control timeLimits
      submission hItem =>
      refine ⟨?_, fun d _ => rfl⟩
      intro identifier d v _ _ hBound
      cases hBound
  | call s c hReached hPermits ih =>
      rcases ih with ⟨hFit, hTyped⟩
      rcases hReached.item with ⟨name, hItem⟩
      have hStep :=
        ItemCall.ends_typed (hDeclared.items name s.item hItem)
          hFit hTyped (hClosed.controls s hReached) c
      refine ⟨hStep.1, hStep.2 ?_⟩
      rintro defaults rfl
      exact hClosed.templates s hReached defaults
        (hPermits defaults rfl)
  | handOver s _ ih => exact ih

/-
  What validation could ask to close the gaps: that whatever
  a default comes to suits the item that it is given to, and
  that the controls of every item fit.
-/
structure Suited (p : Package) : Prop where
  templates :
    ∀ i defaults, p.Offers i defaults →
      ∀ g ∈ defaults, i.Suits g
  controls :
    ∀ name i, p.items.get? name = some i → i.ControlsFit

/- In such a package overriding defaults always fit. -/
theorem Reaches.suited
    {p : Package}
    (hDeclared : p.WellDeclared)
    (hSuited : p.Suited)
    {s : ItemSession}
    (hReached : p.Reaches s) :
    Fits s.item.declarations s.state.defaults := by
  induction hReached with
  | fresh _ item => exact fits_nil item.declarations
  | call s c hReached hPermits ih =>
      rcases hReached.item with ⟨name, hItem⟩
      have hSame : (s.after [c]).item = s.item := c.keepsItem s
      rw [hSame]
      exact ItemCall.ends_suited
        (hDeclared.items name s.item hItem)
        (fun _ => hSuited.controls name s.item hItem) ih
        fun defaults hInit => hSuited.templates s.item defaults
          (hPermits defaults hInit)
  | handOver s _ ih => exact ih

theorem Suited.gapsClosed
    {p : Package}
    (hDeclared : p.WellDeclared)
    (hSuited : p.Suited) :
    p.GapsClosed := by
  constructor
  · intro s hReached defaults hOffers d hMem _ hGiven
    have hNext := hReached.call s (.initialise defaults) (by
      rintro _ ⟨⟩
      exact hOffers)
    rcases hNext.item with ⟨name, hItem⟩
    exact hNext.suited hDeclared hSuited d.identifier d _
      ((hDeclared.items name _ hItem).declared.found d hMem)
      hGiven
  · intro s hReached _
    rcases hReached.item with ⟨name, hItem⟩
    exact hSuited.controls name s.item hItem

end Package

end Assessment
