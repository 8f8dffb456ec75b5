import Assessment.Item.Session
import Assessment.Proofs.Rule.Typing
import Assessment.Proofs.Typing.Declared

/-
  Resetting variables to their defaults.

  A reset binds what overrides the declared default without
  asking whether it fits. For template variables it may be
  anything that has been given from outside; all others are
  overridden by rules only, and those have asked.

  Main declarations:
    * `Scope.Restores`, a scope after resets and rules
    * `Scope.TakesOver`, a scope after it has been given
      defaults from outside
    * `ItemSession.ends_prepare`
    * `ItemSession.ends_respond_keepsTypes`
-/

------------------------------------------------------------
-- Scopes
------------------------------------------------------------

namespace Assessment

open Stateful

/- A value that a default comes to, wherever it is evaluated. -/
def TemplateDefault.Yields
    (g : TemplateDefault)
    (v : Value) :
    Prop :=
  ∃ (engine : Engine) (s : Scope) (tally : Tally),
    ((g.value.evaluate engine s).run tally).1 = .ok v

namespace Scope

/- A value that a reset may come up with. -/
def MayReset
    (s : Scope)
    (identifier : String)
    (d : Declaration)
    (v : Value) :
    Prop :=
  d.accepts v = true ∨
    (d.kind = .template ∧ s.defaults.get? identifier = some v)

/- The default in force is what a reset comes up with. -/
theorem mayReset_default?
    {s : Scope}
    (hSound : s.Sound)
    (hFit : s.DefaultsFit)
    {identifier : String}
    {d : Declaration}
    (hDeclared : s.declaration? identifier = some d) :
    s.MayReset identifier d
      ((s.default? identifier).getD .null) := by
  simp only [default?, hDeclared, Option.map_some,
    Option.getD_some]
  cases hBound : s.defaults.get? identifier with
  | none =>
      exact Or.inl (hSound d
        (mem_of_findDeclaration? hDeclared).1).initial
  | some v =>
      by_cases hKind : d.kind = .template
      · exact Or.inr ⟨hKind, hBound⟩
      · exact Or.inl
          (hFit identifier d v hDeclared hKind hBound)

/- Defaults are kept, and values are revised by resets too. -/
structure Restores (s t : Scope) : Prop
    extends s.KeepsDefaults t where
  values :
    s.Sound → s.DefaultsFit →
      Revises s.declarations s.MayReset s.values t.values

instance : Std.Refl Restores where
  refl s :=
    ⟨KeepsDefaults.refl s, fun _ _ => Revises.refl _ _ _⟩

/- A reset comes up with the same in the later scope. -/
theorem KeepsDefaults.mayReset_iff
    {s t : Scope}
    (hKeeps : s.KeepsDefaults t)
    {identifier : String}
    {d : Declaration}
    (hDeclared : s.declaration? identifier = some d)
    (v : Value) :
    t.MayReset identifier d v ↔ s.MayReset identifier d v := by
  unfold MayReset
  refine or_congr Iff.rfl (and_congr_right fun hKind => ?_)
  rw [hKeeps.templates identifier d hDeclared hKind]

instance : IsTrans Scope Restores where
  trans s t u hFirst hThen := by
    refine ⟨hFirst.toKeepsDefaults.trans hThen.toKeepsDefaults,
      fun hSound hFit => ?_⟩
    have hValues :=
      hThen.values (hFirst.sound hSound)
        (hFirst.defaultsFit hFit)
    rw [hFirst.declarations] at hValues
    exact (hFirst.values hSound hFit).trans
      (hValues.mono fun _ _ v hDeclared =>
        (hFirst.mayReset_iff hDeclared v).mp)

theorem KeepsTypes.restores
    {s t : Scope}
    (hKeeps : s.KeepsTypes t) :
    s.Restores t where
  toKeepsDefaults := hKeeps.toKeepsDefaults
  values hSound hFit :=
    (hKeeps.values hSound hFit).mono fun _ _ _ _ => Or.inl

/- A variable may be reset. -/
theorem setValue_restores
    {s t : Scope}
    {identifier : String}
    (hSet :
      s.setValue identifier
        ((s.default? identifier).getD .null) = .ok t) :
    s.Restores t := by
  rw [ifDeclared_eq_ok hSet]
  refine ⟨⟨rfl, Revises.refl _ _ _, fun _ _ _ _ => rfl⟩, ?_⟩
  intro hSound hFit
  exact Revises.put fun d hDeclared =>
    mayReset_default? hSound hFit hDeclared

/-
  A value that one of some defaults from outside may give to
  the template variable it names.
-/
def IsGiven
    (defaults : List TemplateDefault)
    (identifier : String)
    (d : Declaration)
    (v : Value) :
    Prop :=
  d.kind = .template ∧
    ∃ g ∈ defaults, g.identifier = identifier ∧ g.Yields v

/- Only template variables are given defaults from outside. -/
structure TakesOver
    (defaults : List TemplateDefault)
    (s t : Scope) :
    Prop where
  declarations : t.declarations = s.declarations
  values : t.values = s.values
  defaults :
    Revises s.declarations (IsGiven defaults) s.defaults
      t.defaults

variable {defaults : List TemplateDefault}

instance : Std.Refl (TakesOver defaults) where
  refl _ := ⟨rfl, rfl, Revises.refl _ _ _⟩

instance : IsTrans Scope (TakesOver defaults) where
  trans s t u hFirst hThen := by
    refine ⟨hThen.declarations.trans hFirst.declarations,
      hThen.values.trans hFirst.values, ?_⟩
    have hDefaults := hThen.defaults
    rw [hFirst.declarations] at hDefaults
    exact hFirst.defaults.trans hDefaults

namespace TakesOver

variable {s t : Scope}

theorem sound
    (hTakes : s.TakesOver defaults t)
    (hSound : s.Sound) :
    t.Sound := by
  unfold Sound
  rw [hTakes.declarations]
  exact hSound

theorem defaultsFit
    (hTakes : s.TakesOver defaults t)
    (hFit : s.DefaultsFit) :
    t.DefaultsFit := by
  intro identifier d v hDeclared hKind hBound
  rw [declaration?, hTakes.declarations] at hDeclared
  rcases hTakes.defaults identifier d hDeclared with
    hSame | ⟨_, _, hTemplate, _⟩
  · exact hFit identifier d v hDeclared hKind (hSame ▸ hBound)
  · exact absurd hTemplate hKind

/- Resets that follow bind what fits, or what was given. -/
theorem restores
    {u : Scope}
    (hTakes : s.TakesOver defaults t)
    (hRestores : t.Restores u)
    (hSound : s.Sound)
    (hFit : s.DefaultsFit) :
    u.DefaultsFit ∧
      Revises s.declarations u.MayReset s.values u.values := by
  have hFit' := hTakes.defaultsFit hFit
  have hValues := hRestores.values (hTakes.sound hSound) hFit'
  refine ⟨hRestores.defaultsFit hFit', ?_⟩
  rw [← hTakes.declarations, ← hTakes.values]
  exact hValues.mono fun _ _ v hDeclared =>
    (hRestores.mayReset_iff hDeclared v).mpr

end TakesOver

/- A template variable may be given what a default yields. -/
theorem setDefault_takesOver
    {s t : Scope}
    {g : TemplateDefault}
    (hMem : g ∈ defaults)
    {v : Value}
    (hYields : g.Yields v)
    (hTemplate :
      ItemSession.namesTemplate s g.identifier = true)
    (hSet : s.setDefault g.identifier v = .ok t) :
    s.TakesOver defaults t := by
  unfold setDefault at hSet
  split at hSet
  · cases hSet
  · rw [ifDeclared_eq_ok hSet]
    refine ⟨rfl, rfl, Revises.put fun d hDeclared => ?_⟩
    simp only [ItemSession.namesTemplate, declaration?,
      hDeclared, Option.any_some, beq_iff_eq] at hTemplate
    exact ⟨hTemplate, g, hMem, rfl, hYields⟩

end Scope

------------------------------------------------------------
-- Resets
------------------------------------------------------------

namespace ItemSession

theorem resetAll_restores (ds : List Declaration) :
    Moves (Stage.Follows Scope.Restores) (resetAll ds) := by
  induction ds with
  | nil => exact Moves.pure _
  | cons d rest ih =>
      refine Moves.bind (fun s => ?_) fun _ => ih
      exact Run.ends_write_follows fun _ hSet =>
        Scope.setValue_restores hSet

/- Variables that are given nothing from outside fit then. -/
theorem resetAll_keepsTypes
    {ds : List Declaration}
    {s : Stage}
    (hOwn :
      ∀ d ∈ ds, ∀ d', s.scope.declaration? d.identifier =
        some d' → d'.kind ≠ .template) :
    Ends (resetAll ds) s fun _ t =>
      s.scope.KeepsTypes t.scope := by
  induction ds generalizing s with
  | nil => exact Std.Refl.refl (r := Scope.KeepsTypes) s.scope
  | cons d rest ih =>
      refine Ends.bind
        (R := Stage.Follows Scope.KeepsTypes) ?_ ?_
      · refine Run.ends_write_follows fun scope hSet => ?_
        refine Scope.setValue_keepsTypes hSet ?_
        intro hSound hFit d' hDeclared
        rcases Scope.mayReset_default? hSound hFit hDeclared
          with hAccepts | ⟨hKind, _⟩
        · exact hAccepts
        · exact absurd hKind
            (hOwn d List.mem_cons_self d' hDeclared)
      · intro _ t hKeeps
        refine ih fun e hMem d' hDeclared => ?_
        rw [Scope.declaration?, hKeeps.declarations] at hDeclared
        exact hOwn e (List.mem_cons_of_mem d hMem) d' hDeclared

------------------------------------------------------------
-- Preparation
------------------------------------------------------------

variable (engine : Engine)

theorem takeDefaults_takesOver
    {defaults given : List TemplateDefault}
    (hGiven : given ⊆ defaults) :
    Moves (Stage.Follows (Scope.TakesOver defaults))
      (takeDefaults engine given) := by
  induction given with
  | nil => exact Moves.pure _
  | cons g rest ih =>
      have hRest := ih fun _ h =>
        hGiven (List.mem_cons_of_mem g h)
      intro s
      simp only [takeDefaults]
      rw [ends_bind, Run.ends_scope]
      dsimp only
      split
      next hTemplate =>
        -- Evaluation leaves the scope that was asked alone.
        rw [ends_bind, Rule.valueOf, Run.ends_step]
        split
        next v hValue =>
          refine Ends.bind
            (R := Stage.Follows (Scope.TakesOver defaults))
            ?_ fun _ t _ => hRest t
          exact Run.ends_write_follows fun _ hSet =>
            Scope.setDefault_takesOver
              (hGiven List.mem_cons_self)
              ⟨engine, s.scope, s.tally, hValue⟩ hTemplate hSet
        next =>
          exact Std.Refl.refl (r := Scope.TakesOver _) s.scope
      next =>
        exact Moves.bind (Run.step_follows _)
          (fun _ => hRest) s

theorem processTemplates_restores
    (item : Item)
    (left runs : Nat) :
    Moves (Stage.Follows Scope.Restores)
      (processTemplates engine item left runs) := by
  induction left generalizing runs with
  | zero =>
      refine Moves.bind (resetAll_restores item.templates)
        fun _ => ?_
      exact Moves.bind (Run.step_follows _) fun _ =>
        Moves.pure _
  | succ left ih =>
      refine Moves.bind (resetAll_restores item.templates)
        fun _ => ?_
      refine Moves.bind ?_ fun outcome => ?_
      · refine (Rule.executeAll_keepsTypes engine
          item.templateProcessing).mono fun _ _ hKeeps => ?_
        exact Scope.KeepsTypes.restores hKeeps
      · cases outcome with
        | retry => exact ih (runs + 1)
        | «continue» => exact Moves.pure _
        | exit => exact Moves.pure _

omit engine in
/- A session may write to its built-in variables. -/
theorem ends_write_builtin
    {b : Declaration}
    (hBuiltin : b ∈ Builtin.ofItem)
    {v : Value}
    (hAccepts : b.accepts v = true)
    {s : Stage}
    (hDeclared :
      WellDeclared s.scope.declarations Builtin.ofItem) :
    Ends (Run.write fun s => s.setValue b.identifier v) s
      fun _ t => Stage.Follows Scope.Restores s t := by
  refine Run.ends_write_follows fun _ hSet => ?_
  refine Scope.KeepsTypes.restores ?_
  exact Scope.setValue_keepsTypes hSet fun _ _ =>
    hDeclared.accepts hBuiltin hAccepts

/- In the end the variables of other families are reset. -/
theorem ends_resetOthers
    (ds : List Declaration)
    {s : Stage}
    (hDeclared :
      WellDeclared s.scope.declarations Builtin.ofItem) :
    Ends (do
      resetAll ds
      Run.write fun s =>
        s.setValue Builtin.numAttempts (.integer 0)
      Run.write fun s =>
        s.setValue Builtin.duration (.float 0)) s
      fun _ t => Stage.Follows Scope.Restores s t := by
  refine Ends.bind (resetAll_restores ds s) ?_
  intro _ t hReset
  rw [← hReset.declarations] at hDeclared
  refine Ends.bind
    (ends_write_builtin (b := Builtin.attemptsDeclaration)
      (by simp [Builtin.ofItem]) rfl hDeclared) ?_
  intro _ u hAttempts
  rw [← hAttempts.declarations] at hDeclared
  exact ends_write_builtin (b := Builtin.durationDeclaration)
    (by simp [Builtin.ofItem]) (Value.conformsTo_float 0)
    hDeclared

/-
  Preparation takes over what is given from outside, and from
  then on resets and rules are all that changes a variable.
-/
theorem ends_prepare
    (item : Item)
    (defaults : List TemplateDefault)
    (s : Stage)
    (hDeclared :
      WellDeclared s.scope.declarations Builtin.ofItem) :
    Ends (prepare engine item defaults) s fun _ t =>
      ∃ given : Scope, s.scope.TakesOver defaults given ∧
        given.Restores t.scope := by
  refine Ends.seq
    (takeDefaults_takesOver engine (List.Subset.refl defaults) s)
    ?_ ?_
  · exact fun _ t hTakes => ⟨t.scope, hTakes,
      Std.Refl.refl (r := Scope.Restores) t.scope⟩
  intro _ given hTakes
  rw [← hTakes.declarations] at hDeclared
  suffices hRestores :
      Ends _ given fun _ t =>
        Stage.Follows Scope.Restores given t from
    hRestores.mono fun _ _ hR => ⟨given.scope, hTakes, hR⟩
  refine Ends.bind
    (processTemplates_restores engine item _ 0 given) ?_
  intro runs t hTemplates
  rw [← hTemplates.declarations] at hDeclared
  dsimp only
  split
  · refine Ends.bind (Run.step_follows _ t) ?_
    intro _ u hNote
    rw [← hNote.declarations] at hDeclared
    exact ends_resetOthers _ hDeclared
  · exact ends_resetOthers _ hDeclared

/-
  Response processing resets outcomes only, which are given
  nothing from outside.
-/
theorem ends_respond_keepsTypes
    {item : Item}
    (hDeclared : item.WellDeclared)
    {s : Stage}
    (hItem : s.scope.declarations = item.declarations) :
    Ends (respond engine item) s fun _ t =>
      s.scope.KeepsTypes t.scope := by
  have hRules :
      Moves (Stage.Follows Scope.KeepsTypes) (do
        let _ ← Rule.executeAll engine item.responseProcessing
        : Run Unit) :=
    Moves.bind (Rule.executeAll_keepsTypes engine _) fun _ =>
      Moves.pure _
  unfold respond
  dsimp only
  split
  · exact hRules s
  · refine Ends.bind
      (R := Stage.Follows Scope.KeepsTypes) ?_
      fun _ t _ => hRules t
    refine resetAll_keepsTypes fun d hMem d' hFound => ?_
    have hOutcome := (List.mem_filter.mp hMem).1
    have hOwn := hDeclared.declared.found d
      (by simp [Item.declarations, hOutcome])
    rw [Scope.declaration?, hItem, hOwn] at hFound
    cases hFound
    simp [hDeclared.outcomes d hOutcome]

end ItemSession

end Assessment
