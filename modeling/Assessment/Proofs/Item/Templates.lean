import Assessment.Proofs.Item.Order
import Assessment.Proofs.Item.Setup

/-
  What runs of template processing leave behind.

  A run that fails a constraint is followed by another one,
  which begins with the template variables at their defaults.
  Nothing else is taken back: overridden defaults, overridden
  correct responses and values of other variables stay as the
  failed run left them, and the overriding ones stay when the
  limit is used up.

  Main declarations:
    * `Scope.Renews`, what is forgotten when values are given
    * `FailedRuns` and `TemplateCourse`, runs in a row
    * `TemplateTraces`, what is left of them
    * `ItemSession.LeavesNoTrace`
    * `ItemSession.template_traces_of_calls`
-/

------------------------------------------------------------
-- Renewal
------------------------------------------------------------

namespace Assessment

open Stateful

namespace Scope

variable {P : Store → String → Prop}
variable {N M : String → Prop}
variable {F G : Scope → Scope}
variable {s t : Scope}

/- The values of some variables. -/
def ValuesOf
    (N : String → Prop)
    (store : Store)
    (name : String) :
    Prop :=
  store = .values ∧ N name

/-
  Some variables are given values that depend on declarations
  and overridden defaults alone, and nothing else is changed.
-/
structure Renews
    (N : String → Prop)
    (F : Scope → Scope) :
    Prop where
  source : ∀ s, (F s).source = s.source
  declarations : ∀ s, (F s).declarations = s.declarations
  test : ∀ s, (F s).test = s.test
  defaults : ∀ s, (F s).defaults = s.defaults
  corrects : ∀ s, (F s).corrects = s.corrects
  renewed :
    ∀ s t name, N name →
      t.declarations = s.declarations →
      t.defaults = s.defaults →
      (F t).values.get? name = (F s).values.get? name
  kept :
    ∀ s name, ¬ N name →
      (F s).values.get? name = s.values.get? name
  rising : ∀ s, s.values.Rising → (F s).values.Rising

theorem renews_reset (ds : List Declaration) :
    Renews (fun name => name ∈ ds.map Declaration.identifier)
      (reset ds) := by
  constructor
  · exact fun _ => rfl
  · exact fun _ => rfl
  · exact fun _ => rfl
  · exact fun _ => rfl
  · exact fun _ => rfl
  · intro s t name hMem hDeclarations hDefaults
    rw [get?_reset, get?_reset, if_pos hMem, if_pos hMem]
    unfold initial default? declaration?
    rw [hDeclarations, hDefaults]
  · intro s name hNot
    rw [get?_reset, if_neg hNot]
  · exact fun s hRising => rising_reset hRising ds

theorem renews_putAt (name : String) (v : Value) :
    Renews (fun other => other = name)
      (fun s => s.putAt .values name v) := by
  constructor
  · exact fun _ => rfl
  · exact fun _ => rfl
  · exact fun _ => rfl
  · exact fun _ => rfl
  · exact fun _ => rfl
  · rintro s t _ rfl _ _
    exact (Keyed.get?_put_self _ _ _).trans
      (Keyed.get?_put_self _ _ _).symm
  · exact fun s other hOther => Keyed.get?_put_of_ne hOther _ _
  · exact fun s hRising => hRising.put name v

/- What the second renews hides what the first did to it. -/
theorem Renews.comp
    (hFirst : Renews N F)
    (hThen : Renews M G) :
    Renews (fun name => N name ∨ M name)
      (fun s => G (F s)) := by
  constructor
  · exact fun s => (hThen.source _).trans (hFirst.source s)
  · exact fun s =>
      (hThen.declarations _).trans (hFirst.declarations s)
  · exact fun s => (hThen.test _).trans (hFirst.test s)
  · exact fun s => (hThen.defaults _).trans (hFirst.defaults s)
  · exact fun s => (hThen.corrects _).trans (hFirst.corrects s)
  · intro s t name hEither hDeclarations hDefaults
    by_cases hSecond : M name
    · apply hThen.renewed _ _ name hSecond
      · rw [hFirst.declarations, hFirst.declarations,
          hDeclarations]
      · rw [hFirst.defaults, hFirst.defaults, hDefaults]
    · rw [hThen.kept _ name hSecond, hThen.kept _ name hSecond]
      have hOwn : N name := hEither.resolve_right hSecond
      exact hFirst.renewed s t name hOwn hDeclarations hDefaults
  · intro s name hNeither
    rw [not_or] at hNeither
    rw [hThen.kept _ name hNeither.2,
      hFirst.kept s name hNeither.1]
  · exact fun s hRising =>
      hThen.rising _ (hFirst.rising s hRising)

/- A renewal does not hide what it does not renew. -/
theorem Renews.changesAt_of_eq
    (hRenews : Renews N F)
    (hChanges : s.ChangesAt P t)
    (hSame : F t = F s) :
    s.ChangesAt (ValuesOf N) t := by
  refine ⟨hChanges.source, hChanges.declarations,
    hChanges.test, ?_, hChanges.rising⟩
  intro store name hNot
  by_cases hDeclared : (s.declaration? name).isSome = true
  · cases store with
    | values =>
        have hKept : ¬ N name :=
          fun h => hNot ⟨⟨rfl, h⟩, hDeclared⟩
        have hValue := congrArg
          (fun u : Scope => u.values.get? name) hSame
        rw [hRenews.kept t name hKept,
          hRenews.kept s name hKept] at hValue
        exact hValue
    | defaults =>
        have hStore := congrArg Scope.defaults hSame
        rw [hRenews.defaults, hRenews.defaults] at hStore
        change t.defaults.get? name = s.defaults.get? name
        rw [hStore]
    | corrects =>
        have hStore := congrArg Scope.corrects hSame
        rw [hRenews.corrects, hRenews.corrects] at hStore
        change t.corrects.get? name = s.corrects.get? name
        rw [hStore]
  · exact hChanges.elsewhere store name
      fun hPlace => hDeclared hPlace.2

/- A renewal hides changes of what it renews. -/
theorem Renews.eq_of_changesAt
    (hRenews : Renews N F)
    (hRising : ∀ store, (s.bindings store).Rising)
    (hValues : s.ChangesAt (ValuesOf N) t) :
    F t = F s := by
  have hDefaults :
      t.bindings .defaults = s.bindings .defaults :=
    hValues.bindings_eq (fun _ h => by cases h.1)
      (hRising .defaults)
  have hCorrects :
      t.bindings .corrects = s.bindings .corrects :=
    hValues.bindings_eq (fun _ h => by cases h.1)
      (hRising .corrects)
  apply eq_of_stores
  · rw [hRenews.source, hRenews.source, hValues.source]
  · rw [hRenews.declarations, hRenews.declarations,
      hValues.declarations]
  · rw [hRenews.test, hRenews.test, hValues.test]
  · have hOwn := hRising .values
    apply (hRenews.rising t (hValues.rising .values hOwn)).ext
      (hRenews.rising s hOwn)
    intro name
    by_cases hName : N name
    · exact hRenews.renewed s t name hName
        hValues.declarations hDefaults
    · rw [hRenews.kept t name hName,
        hRenews.kept s name hName]
      exact hValues.elsewhere .values name
        fun hPlace => hName hPlace.1.2
  · rw [hRenews.defaults, hRenews.defaults]
    exact hDefaults
  · rw [hRenews.corrects, hRenews.corrects]
    exact hCorrects

/-
  A renewal forgets a change if and only if the change is one
  of values that are renewed.
-/
theorem Renews.eq_iff
    (hRenews : Renews N F)
    (hChanges : s.ChangesAt P t)
    (hRising : ∀ store, (s.bindings store).Rising) :
    F t = F s ↔ s.ChangesAt (ValuesOf N) t :=
  ⟨hRenews.changesAt_of_eq hChanges,
    hRenews.eq_of_changesAt hRising⟩

end Scope

------------------------------------------------------------
-- Runs in a Row
------------------------------------------------------------

namespace ItemSession

variable {engine : Engine}
variable {item : Item}

/- Runs in a row, each of which asked for another one. -/
inductive FailedRuns (engine : Engine) (item : Item) :
    Nat → Stage → Stage → Prop where
  | none (s : Stage) : FailedRuns engine item 0 s s
  | more
      {n : Nat}
      {s t u : Stage}
      (hRetry :
        Stateful.run (templateRun engine item) s =
          (.ok .retry, t))
      (hRest : FailedRuns engine item n t u) :
      FailedRuns engine item (n + 1) s u

/- Failed runs change only what the rules write to. -/
theorem FailedRuns.changesAt
    {n : Nat}
    {s t : Stage}
    (hFailed : FailedRuns engine item n s t) :
    s.scope.ChangesAt (templatePlaces item) t.scope := by
  induction hFailed with
  | none s =>
      exact Std.Refl.refl
        (r := Scope.ChangesAt (templatePlaces item)) s.scope
  | @more _ s _ _ hRetry _ ih =>
      have hFirst := templateRun_changesAt engine item s
      unfold Ends at hFirst
      rw [hRetry] at hFirst
      exact IsTrans.trans (r := Scope.ChangesAt _) _ _ _
        hFirst ih

/-
  The scope that template processing ends with: that of a last
  run, or that of a reset when the limit has been used up.
-/
def lastScope
    (engine : Engine)
    (item : Item)
    (n : Nat)
    (s : Stage) :
    Scope :=
  if n < engine.settings.templateLimit then
    (Stateful.run (templateRun engine item) s).2.scope
  else s.scope.reset item.templates

/-
  How template processing goes: defaults are taken over, some
  runs fail, and if the limit allows it a last one does not.
-/
structure TemplateCourse
    (engine : Engine)
    (item : Item)
    (defaults : List TemplateDefault)
    (n : Nat)
    (first given worn : Stage) :
    Prop where
  taken :
    Stateful.run (takeDefaults engine defaults) first =
      (.ok (), given)
  failed : FailedRuns engine item n given worn
  limit : n ≤ engine.settings.templateLimit
  last :
    n < engine.settings.templateLimit →
      ∃ outcome,
        (Stateful.run (templateRun engine item) worn).1 =
            .ok outcome ∧
          outcome ≠ .retry

theorem run_resetAll
    {s : Stage}
    (hItem : s.IsOf item)
    {ds : List Declaration}
    (hDeclared : ds ⊆ item.declarations) :
    Stateful.run (resetAll ds) s =
      (.ok (), { s with scope := s.scope.reset ds }) := by
  have hEnds :=
    (ends_resetAll hItem hDeclared fun r t =>
      (r, t) = (.ok (), { s with scope := s.scope.reset ds })).mpr
        rfl
  exact hEnds

/- A run is settled by the scope that it starts over with. -/
theorem run_templateRun
    {s : Stage}
    (hItem : s.IsOf item) :
    Stateful.run (templateRun engine item) s =
      Stateful.run
        (Rule.executeAll engine item.templateProcessing)
        { s with scope := s.scope.reset item.templates } := by
  rw [templateRun, Stateful.run_bind,
    run_resetAll hItem (item.templates_declared)]

/-
  Template processing that goes through ends after some failed
  runs, with one that does not fail or with the limit.
-/
theorem ends_processTemplates
    (left runs : Nat)
    {s : Stage}
    (hItem : s.IsOf item) :
    Ends (processTemplates engine item left runs) s fun r t =>
      r.isOk = true →
        ∃ n worn, FailedRuns engine item n s worn ∧
          (n < left ∧
              (∃ outcome, outcome ≠ .retry ∧
                Stateful.run (templateRun engine item) worn =
                  (.ok outcome, t)) ∨
            n = left ∧
              t.scope = worn.scope.reset item.templates) := by
  induction left generalizing runs s with
  | zero =>
      rw [processTemplates, ends_bind,
        ends_resetAll hItem (item.templates_declared)]
      intro _
      exact ⟨0, s, .none s, Or.inr ⟨rfl, rfl⟩⟩
  | succ left ih =>
      rw [processTemplates_eq]
      apply Ends.through
      · exact fun _ _ hOk => by cases hOk
      intro outcome t hRun
      have hChanges :=
        (templateRun_changesAt engine item s).of_run hRun
      by_cases hRetry : outcome = .retry
      · subst hRetry
        apply (ih (runs + 1) (hChanges.isOf hItem)).mono
        intro r u hEnds hOk
        obtain ⟨n, worn, hFailed, hLast⟩ := hEnds hOk
        refine ⟨n + 1, worn, .more hRun hFailed, ?_⟩
        rcases hLast with ⟨hLess, hDone⟩ | ⟨hEq, hReset⟩
        · exact Or.inl ⟨by omega, hDone⟩
        · exact Or.inr ⟨by omega, hReset⟩
      · have hLast :
            0 < left + 1 ∧
              ∃ outcome, outcome ≠ .retry ∧
                Stateful.run (templateRun engine item) s =
                  (.ok outcome, t) :=
          ⟨by omega, outcome, hRetry, hRun⟩
        cases outcome with
        | retry => contradiction
        | «continue» =>
            exact fun _ => ⟨0, s, .none s, Or.inl hLast⟩
        | exit => exact fun _ => ⟨0, s, .none s, Or.inl hLast⟩

/- A preparation that goes through takes its course. -/
theorem ends_prepare_course
    (defaults : List TemplateDefault)
    {s : Stage}
    (hItem : s.IsOf item) :
    Ends (prepare engine item defaults) s fun r t =>
      r.isOk = true →
        ∃ n given worn,
          TemplateCourse engine item defaults n s given worn ∧
            t.scope =
              (lastScope engine item n worn).settled item := by
  apply Ends.through
  · exact fun _ _ hOk => by cases hOk
  intro _ given hTaken
  have hGiven : given.IsOf item := by
    have hTakes :=
      takeDefaults_changesAt (P := fun _ _ => True) engine
        (fun g (_ : g ∈ defaults) => trivial) s
    exact (hTakes.of_run hTaken).isOf hItem
  apply Ends.through
  · exact fun _ _ hOk => by cases hOk
  intro runs u hRuns
  have hOwn : u.IsOf item :=
    ((processTemplates_changesAt engine item _ 0 given).of_run
      hRuns).isOf hGiven
  obtain ⟨n, worn, hFailed, hLast⟩ :=
    (ends_processTemplates _ 0 hGiven).of_run hRuns rfl
  have hCourse :
      TemplateCourse engine item defaults n s given worn ∧
        u.scope = lastScope engine item n worn := by
    unfold lastScope
    rcases hLast with
      ⟨hLess, outcome, hNoRetry, hDone⟩ | ⟨hEq, hReset⟩
    · rw [if_pos hLess, hDone]
      refine ⟨⟨hTaken, hFailed, hLess.le, fun _ => ?_⟩, rfl⟩
      exact ⟨outcome, by rw [hDone], hNoRetry⟩
    · rw [if_neg (by omega)]
      refine ⟨⟨hTaken, hFailed, hEq.le, fun hLess => ?_⟩, hReset⟩
      omega
  apply ends_settle_noted hOwn runs
  intro t hSettled _
  refine ⟨n, given, worn, hCourse.1, ?_⟩
  rw [hSettled, hCourse.2]

------------------------------------------------------------
-- Traces
------------------------------------------------------------

/- The values of template variables. -/
def ofTemplates (item : Item) : Store → String → Prop :=
  Scope.ValuesOf fun name =>
    name ∈ item.templates.map Declaration.identifier

/- The values that preparation gives in the end. -/
def givenInTheEnd (item : Item) : Store → String → Prop :=
  Scope.ValuesOf fun name =>
    ((name ∈ item.templates.map Declaration.identifier ∨
        name ∈
          (Scope.others item).map Declaration.identifier) ∨
      name = Builtin.numAttempts) ∨
    name = Builtin.duration

theorem renews_settled (item : Item) :
    Scope.Renews
      (fun name =>
        ((name ∈ item.templates.map Declaration.identifier ∨
            name ∈
              (Scope.others item).map Declaration.identifier) ∨
          name = Builtin.numAttempts) ∨
        name = Builtin.duration)
      (fun s => (s.reset item.templates).settled item) :=
  (((Scope.renews_reset item.templates).comp
    (Scope.renews_reset (Scope.others item))).comp
      (Scope.renews_putAt _ _)).comp (Scope.renews_putAt _ _)

/-
  What is left of failed runs, which began with one stage and
  wore it down to another, in the scope that initialization
  ends with.
-/
structure TemplateTraces
    (engine : Engine)
    (item : Item)
    (n : Nat)
    (given worn : Stage)
    (final : Scope) :
    Prop where
  /- Failed runs change only what the rules write to. -/
  confined : given.scope.ChangesAt (templatePlaces item) worn.scope
  /- What they have changed is there in the end. -/
  carried : final = (lastScope engine item n worn).settled item
  /- A reset takes back values of template variables alone. -/
  takenBack :
    worn.scope.reset item.templates =
        given.scope.reset item.templates ↔
      given.scope.ChangesAt (ofTemplates item) worn.scope
  /- Failed runs that changed no more have left no trace. -/
  traceless :
    given.scope.ChangesAt (ofTemplates item) worn.scope →
      final =
        (lastScope engine item n
          { worn with scope := given.scope }).settled item
  /- Beyond the limit, values given in the end do not matter. -/
  usedUp :
    n = engine.settings.templateLimit →
      (final =
          (given.scope.reset item.templates).settled item ↔
        given.scope.ChangesAt (givenInTheEnd item) worn.scope)

/- Rules that write to template variables leave no trace. -/
theorem TemplateTraces.of_writes
    {n : Nat}
    {given worn : Stage}
    {final : Scope}
    (hTraces :
      TemplateTraces engine item n given worn final)
    (hOnly :
      ∀ store name,
        Rule.WritesTo item.templateProcessing store name →
        ofTemplates item store name) :
    final =
      (lastScope engine item n
        { worn with scope := given.scope }).settled item := by
  apply hTraces.traceless
  apply hTraces.confined.mono
  intro store name hPlace
  rcases hPlace with hWrites | hReset
  · exact hOnly store name hWrites
  · exact hReset

/- A last run sees the scope that it starts over with alone. -/
theorem lastScope_congr
    {s t : Stage}
    (hFirst : s.IsOf item)
    (hSecond : t.IsOf item)
    (hTally : t.tally = s.tally)
    (hReset :
      t.scope.reset item.templates =
        s.scope.reset item.templates)
    (n : Nat) :
    lastScope engine item n t = lastScope engine item n s := by
  unfold lastScope
  rw [run_templateRun hFirst, run_templateRun hSecond, hReset,
    hTally]

theorem TemplateCourse.traces
    {defaults : List TemplateDefault}
    {n : Nat}
    {first given worn : Stage}
    (hCourse :
      TemplateCourse engine item defaults n first given worn)
    (hGiven : given.IsOf item)
    (hRising : ∀ store, (given.scope.bindings store).Rising) :
    TemplateTraces engine item n given worn
      ((lastScope engine item n worn).settled item) := by
  have hChanges := hCourse.failed.changesAt
  have hTakenBack :=
    (Scope.renews_reset item.templates).eq_iff hChanges hRising
  refine ⟨hChanges, rfl, hTakenBack, ?_, ?_⟩
  · intro hClear
    have hOwn : ({ worn with scope := given.scope }).IsOf item :=
      ⟨hGiven.declarations, hGiven.test⟩
    rw [lastScope_congr hOwn (hChanges.isOf hGiven) rfl
      (hTakenBack.mpr hClear) n]
  · intro hLimit
    have hLast :
        lastScope engine item n worn =
          worn.scope.reset item.templates := by
      unfold lastScope
      rw [if_neg (by omega)]
    rw [hLast]
    exact (renews_settled item).eq_iff hChanges hRising

------------------------------------------------------------
-- Sessions
------------------------------------------------------------

/-
  An initialization ends as if its failed runs had not been
  made: as if the last run had been the only one, with its own
  draws, or, with the limit used up, as if there had been none.
-/
def LeavesNoTrace
    (s : ItemSession)
    (defaults : List TemplateDefault) :
    Prop :=
  ∀ t n given worn,
    Stateful.run (initialise defaults) s = (.ok (), t) →
    TemplateCourse s.engine s.item defaults n s.stage given
      worn →
    t.scope =
      (lastScope s.engine s.item n
        { worn with scope := given.scope }).settled s.item

/- An initialization that goes through has taken its course. -/
theorem course_of_initialise
    {s t : ItemSession}
    {defaults : List TemplateDefault}
    (hDone :
      Stateful.run (initialise defaults) s = (.ok (), t)) :
    ∃ n given worn,
      TemplateCourse s.engine s.item defaults n s.stage given
          worn ∧
        t.scope =
          (lastScope s.engine s.item n worn).settled s.item := by
  have hEnds :
      Ends (initialise defaults) s fun r t =>
        r.isOk = true →
          ∃ n given worn,
            TemplateCourse s.engine s.item defaults n s.stage
                given worn ∧
              t.scope =
                (lastScope s.engine s.item n worn).settled
                  s.item := by
    simp only [initialise, ends_bind, ends_getState, ends_ite,
      ends_throw, ends_announced, ends_get, ends_changeState]
    split
    · exact fun hOk => by cases hOk
    · rw [ends_runRules]
      have hCourse :
          Ends (prepare s.engine s.item defaults) s.stage _ :=
        ends_prepare_course defaults s.stage_isOf
      have hChanges :=
        prepare_changesAt s.engine s.item defaults s.stage
      refine (hCourse.and hChanges).mono ?_
      rintro r u ⟨hTaken, hFollows⟩
      cases r with
      | error e => exact fun hOk => by cases hOk
      | ok _ =>
          intro _
          obtain ⟨n, given, worn, hCourse, hScope⟩ :=
            hTaken rfl
          refine ⟨n, given, worn, hCourse, ?_⟩
          have hSame : (s.takeOver u).scope = u.scope :=
            scope_takeOver hFollows
          exact hSame.trans hScope
  exact hEnds.of_run hDone rfl

/-
  After any calls, an initialization that goes through has made
  some failed runs and ends as the last run leaves it, or as a
  reset does beyond the limit. The failed runs have changed
  what the rules write to, and of that the resets take back the
  values of template variables alone. Where no more has been
  changed, no trace is left.
-/
theorem template_traces_of_calls
    (item : Item)
    (engine : Engine)
    (draws : Draws)
    (control : Control)
    (timeLimits : Option TimeLimits)
    (submission : SubmissionMode)
    (calls : List ItemCall)
    (defaults : List TemplateDefault)
    (t : ItemSession)
    (hDone :
      Stateful.run (initialise defaults)
        ((fresh item engine draws control timeLimits
          submission).after calls) = (.ok (), t)) :
    ∃ n given worn,
      TemplateCourse engine item defaults n
        ((fresh item engine draws control timeLimits
          submission).after calls).stage given worn ∧
      TemplateTraces engine item n given worn t.scope := by
  have hSetup :
      (fresh item engine draws control timeLimits
        submission).SameSetup
        ((fresh item engine draws control timeLimits
          submission).after calls) :=
    after_moves ItemCall.keepsSetup _ calls
  obtain ⟨n, given, worn, hCourse, hScope⟩ :=
    course_of_initialise hDone
  have hTakes :=
    (takeDefaults_changesAt (P := fun _ _ => True) _
      (fun g (_ : g ∈ defaults) => trivial) _).of_run
        hCourse.taken
  have hRising :
      ∀ store, (given.scope.bindings store).Rising := by
    intro store
    apply hTakes.rising store
    apply after_rises _ calls store
    cases store <;> exact Keyed.rising_nil
  have hTraces :=
    hCourse.traces (hTakes.isOf (stage_isOf _)) hRising
  rw [← hScope] at hTraces
  rw [hSetup.engine, hSetup.item] at hCourse hTraces
  exact ⟨n, given, worn, hCourse, hTraces⟩

/-
  An item whose template processing gives its response another
  correct value and then fails.
-/
def spoiltItem : Item where
  identifier := "item"
  title := none
  adaptive := false
  timeDependent := false
  responses := [
    { identifier := "RESPONSE"
      cardinality := .single
      baseType := some .integer
      defaultValue := none
      detail := .response ⟨none, none, none⟩ }]
  outcomes := []
  templates := []
  templateProcessing := [
    .setValue .correctResponse "RESPONSE"
      (.leaf (.base (.integer 3))),
    .constraint (.leaf .null)]
  responseProcessing := []
  endAttempts := []

/- An engine that gives template processing one run. -/
def oneRun : Engine :=
  ⟨{ templateLimit := 1 }, none⟩

/- The one run fails and leaves its correct response. -/
theorem template_traces_of_calls_spoilt :
    ∃ t : ItemSession,
      Stateful.run (initialise [])
        ((fresh spoiltItem oneRun default {} none
          .individual).after []) = (.ok (), t) ∧
      t.state.corrects = [("RESPONSE", .integer 3)] ∧
      ∃ n given worn,
        TemplateCourse oneRun spoiltItem [] n
          ((fresh spoiltItem oneRun default {} none
            .individual).after []).stage given worn ∧
        TemplateTraces oneRun spoiltItem n given worn
          t.scope := by
  refine ⟨_, rfl, rfl, ?_⟩
  exact template_traces_of_calls spoiltItem oneRun default {}
    none .individual [] [] _ rfl

/- Without its failed run the session has no such response. -/
theorem failed_run_leaves_trace :
    ¬ ∀ (item : Item) (engine : Engine) (draws : Draws)
        (defaults : List TemplateDefault),
        LeavesNoTrace (new item engine draws) defaults := by
  intro hClaim
  have hCourse :
      TemplateCourse oneRun spoiltItem [] 1
        (new spoiltItem oneRun default).stage
        (new spoiltItem oneRun default).stage
        (Stateful.run (templateRun oneRun spoiltItem)
          (new spoiltItem oneRun default).stage).2 := by
    refine ⟨rfl, .more rfl (.none _), Nat.le_refl 1, ?_⟩
    intro hLess
    exact absurd hLess (Nat.lt_irrefl 1)
  have hScope :=
    hClaim spoiltItem oneRun default [] _ 1 _ _ rfl hCourse
  have hCorrects := congrArg Scope.corrects hScope
  cases hCorrects

end ItemSession

end Assessment
