import Assessment.Proofs.Expression.Parts
import Assessment.Proofs.Stateful
import Assessment.Rule.Execution

/-
  Execution of rules, read off its parts.

  What holds of evaluations and of the writes of a rule holds
  of the rule, however deeply conditions and fragments are
  nested and wherever an exit rule or a failure ends the run.

  An expression is NULL where its operands do not fit, and a
  rule leaves a warning where its value does not fit. Over the
  variables of an item a service is all that rules can fail
  of.

  Main declarations:
    * `Run.ends_step` and `Run.ends_write`
    * `Stage.Follows`, stages with related scopes
    * `Writing` and `Rule.writingsIn`, what rules write
    * `Rule.executeAll_closed`, from the parts to the rules
    * `Rule.executeAll_moves`, for a relation between stages
    * `Failure.IsService`
    * `Step.Sound` and `Expression.evaluate_sound`
    * `Run.Sound` and `Rule.executeAll_sound`
-/

------------------------------------------------------------
-- Parts of Runs
------------------------------------------------------------

namespace Assessment

open Stateful

variable {α : Type}

namespace Run

/- An evaluation reads the variables and keeps them. -/
theorem ends_step
    (f : Scope → Step α)
    (s : Stage)
    (Q : Except Failure α → Stage → Prop) :
    Ends (step f) s Q ↔
      Q ((f s.scope).run s.tally).1
        { s with tally := ((f s.scope).run s.tally).2 } :=
  Iff.rfl

@[simp] theorem ends_scope
    (s : Stage)
    (Q : Except Failure Scope → Stage → Prop) :
    Ends scope s Q ↔ Q (.ok s.scope) s :=
  Iff.rfl

/- A write that fails changes nothing. -/
theorem ends_write
    (f : Scope → Except Failure Scope)
    (s : Stage)
    (Q : Except Failure Unit → Stage → Prop) :
    Ends (write f) s Q ↔
      match f s.scope with
      | .ok scope => Q (.ok ()) { s with scope := scope }
      | .error e => Q (.error e) s := by
  cases hWrite : f s.scope <;>
    simp [Ends, Stateful.run, write, hWrite, ExceptT.run,
      ExceptT.mk, StateT.run]

theorem ends_write_ok
    {f : Scope → Except Failure Scope}
    {s : Stage}
    {t : Scope}
    (hOk : f s.scope = .ok t)
    (Q : Except Failure Unit → Stage → Prop) :
    Ends (write f) s Q ↔ Q (.ok ()) { s with scope := t } := by
  rw [ends_write, hOk]

end Run

/- The scopes of two stages are related. -/
def Stage.Follows
    (R : Scope → Scope → Prop)
    (s t : Stage) :
    Prop :=
  R s.scope t.scope

section

variable {R : Scope → Scope → Prop}
variable [Std.Refl R]

instance : Std.Refl (Stage.Follows R) where
  refl s := Std.Refl.refl (r := R) s.scope

omit [Std.Refl R] in
instance [IsTrans Scope R] : IsTrans Stage (Stage.Follows R) where
  trans s t u hFirst hThen :=
    IsTrans.trans (r := R) s.scope t.scope u.scope hFirst hThen

namespace Run

theorem step_follows (f : Scope → Step α) :
    Moves (Stage.Follows R) (step f) := by
  intro s
  rw [ends_step]
  exact Std.Refl.refl (r := R) s.scope

/- A write relates scopes if the change it makes does. -/
theorem ends_write_follows
    {f : Scope → Except Failure Scope}
    {s : Stage}
    (hWrite :
      ∀ scope, f s.scope = .ok scope → R s.scope scope) :
    Ends (write f) s fun _ t => Stage.Follows R s t := by
  rw [ends_write]
  split
  next scope hOk => exact hWrite scope hOk
  next => exact Std.Refl.refl (r := R) s.scope

end Run

end

------------------------------------------------------------
-- Writings
------------------------------------------------------------

/- A write that a rule may make. -/
inductive Writing where
  | set (target : SetTarget) (identifier : String)
  /- To an outcome, from its lookup table. -/
  | lookup (identifier : String)
deriving DecidableEq, Repr

/- The variable that is written to. -/
def Writing.identifier : Writing → String
  | .set _ identifier => identifier
  | .lookup identifier => identifier

namespace Rule

mutual

/- The writes of a rule, in whichever branch they stand. -/
def writings : Rule → List Writing
  | .condition _ _ rules rest =>
      writingsIn rules ++ chainWritings rest
  | .setValue target identifier _ => [.set target identifier]
  | .lookup identifier _ => [.lookup identifier]
  | .exit _ => []
  | .constraint _ => []
  | .fragment _ rules => writingsIn rules

/- The writes of rules in a row. -/
def writingsIn : List Rule → List Writing
  | [] => []
  | r :: rest => writings r ++ writingsIn rest

/- The writes of the branches of a condition. -/
def chainWritings : Chain → List Writing
  | .branch _ rules rest =>
      writingsIn rules ++ chainWritings rest
  | .otherwise rules => writingsIn rules
  | .nothing => []

end

end Rule

------------------------------------------------------------
-- Rules
------------------------------------------------------------

namespace Rule

variable {engine : Engine}

/-
  What rules with some writes do apart from each other belongs
  to a family of computations.
-/
structure PartsIn
    (C : (α : Type) → Run α → Prop)
    (engine : Engine)
    (ws : List Writing) :
    Prop where
  value : ∀ e, C Value (valueOf engine e)
  assign :
    ∀ target identifier, .set target identifier ∈ ws →
      ∀ v, C Unit (target.assign identifier v)
  lookup :
    ∀ identifier, .lookup identifier ∈ ws →
      ∀ v, C Unit (assignLookup identifier v)

variable {C : (α : Type) → Run α → Prop}

/- Fewer writes do no more. -/
theorem PartsIn.mono
    {ws vs : List Writing}
    (hParts : PartsIn C engine ws)
    (hFewer : vs ⊆ ws) :
    PartsIn C engine vs where
  value := hParts.value
  assign target identifier hMem :=
    hParts.assign target identifier (hFewer hMem)
  lookup identifier hMem :=
    hParts.lookup identifier (hFewer hMem)

mutual

/-
  Induction over rules. A branch is taken after its condition
  has been evaluated, and writes come after evaluations.
-/
theorem execute_closed
    (hClosed : Closed C)
    (r : Rule)
    (hParts : PartsIn C engine r.writings) :
    C Outcome (execute engine r) := by
  match r with
  | .condition _ test rules rest =>
      rw [writings] at hParts
      have hRules := executeAll_closed hClosed rules
        (hParts.mono (List.subset_append_left _ _))
      have hRest := executeChain_closed hClosed rest
        (hParts.mono (List.subset_append_right _ _))
      rw [execute]
      apply hClosed.bind (hParts.value test)
      intro v
      split
      · exact hRules
      · exact hRest
  | .setValue target identifier e =>
      rw [execute]
      apply hClosed.bind (hParts.value e)
      intro v
      apply hClosed.bind
      · exact hParts.assign target identifier
          (by simp [writings]) v
      · exact fun _ => hClosed.pure _
  | .lookup identifier e =>
      rw [execute]
      apply hClosed.bind (hParts.value e)
      intro v
      apply hClosed.bind
      · exact hParts.lookup identifier (by simp [writings]) v
      · exact fun _ => hClosed.pure _
  | .exit _ =>
      rw [execute]
      exact hClosed.pure _
  | .constraint test =>
      rw [execute]
      apply hClosed.bind (hParts.value test)
      exact fun _ => hClosed.pure _
  | .fragment _ rules =>
      rw [writings] at hParts
      rw [execute]
      exact executeAll_closed hClosed rules hParts

theorem executeAll_closed
    (hClosed : Closed C)
    (rules : List Rule)
    (hParts : PartsIn C engine (writingsIn rules)) :
    C Outcome (executeAll engine rules) := by
  match rules with
  | [] =>
      rw [executeAll]
      exact hClosed.pure _
  | r :: rest =>
      rw [writingsIn] at hParts
      have hFirst := execute_closed hClosed r
        (hParts.mono (List.subset_append_left _ _))
      have hRest := executeAll_closed hClosed rest
        (hParts.mono (List.subset_append_right _ _))
      rw [executeAll]
      apply hClosed.bind hFirst
      intro outcome
      split
      · exact hRest
      · exact hClosed.pure _

theorem executeChain_closed
    (hClosed : Closed C)
    (c : Chain)
    (hParts : PartsIn C engine (chainWritings c)) :
    C Outcome (executeChain engine c) := by
  match c with
  | .branch test rules rest =>
      rw [chainWritings] at hParts
      have hRules := executeAll_closed hClosed rules
        (hParts.mono (List.subset_append_left _ _))
      have hRest := executeChain_closed hClosed rest
        (hParts.mono (List.subset_append_right _ _))
      rw [executeChain]
      apply hClosed.bind (hParts.value test)
      intro v
      split
      · exact hRules
      · exact hRest
  | .otherwise rules =>
      rw [chainWritings] at hParts
      rw [executeChain]
      exact executeAll_closed hClosed rules hParts
  | .nothing =>
      rw [executeChain]
      exact hClosed.pure _

end

------------------------------------------------------------
-- Moves
------------------------------------------------------------

variable {R : Stage → Stage → Prop}

/- What rules do apart from each other obeys a relation. -/
structure PartsMove
    (R : Stage → Stage → Prop)
    (engine : Engine) :
    Prop where
  value : ∀ e, Moves R (valueOf engine e)
  assign :
    ∀ (target : SetTarget) (identifier : String) (v : Value),
      Moves R (target.assign identifier v)
  lookup :
    ∀ (identifier : String) (v : Value),
      Moves R (assignLookup identifier v)

/- Rules obey what their parts obey, whatever they write. -/
theorem executeAll_moves
    [Std.Refl R]
    [IsTrans Stage R]
    (hParts : PartsMove R engine)
    (rules : List Rule) :
    Moves R (executeAll engine rules) :=
  executeAll_closed Moves.closed rules
    { value := hParts.value
      assign := fun target identifier _ =>
        hParts.assign target identifier
      lookup := fun identifier _ => hParts.lookup identifier }

end Rule

------------------------------------------------------------
-- Evaluations
------------------------------------------------------------

open Stateful

/- A service has given no answer. -/
def Failure.IsService (e : Failure) : Prop :=
  ∃ cause, e = .service cause

variable {α : Type}

/- An evaluation fails of a service, if at all. -/
def Step.Sound (x : Step α) : Prop :=
  FailsOnly (fun _ => True) Failure.IsService x

namespace Step

theorem act_sound (f : Tally → α × Tally) :
    Sound (act f) := by
  intro t _
  constructor
  · trivial
  · intro e hError
    cases hError

theorem draw_sound
    {f : Draws → Except Failure (α × Draws)}
    (hDraws : ∀ d, ∃ r, f d = .ok r) :
    Sound (draw f) := by
  intro t _
  constructor
  · trivial
  · intro e hError
    obtain ⟨r, hOk⟩ := hDraws t.draws
    have hNone : (Stateful.run (draw f) t).1 = .ok r.1 := by
      simp [Stateful.run, draw, hOk, ExceptT.run, ExceptT.mk,
        StateT.run]
    rw [hNone] at hError
    cases hError

/- The steps of evaluations fail of a service alone. -/
theorem sound_partsIn (engine : Engine) :
    PartsIn (fun _ => Sound) engine where
  warn _ _ _ := act_sound _
  take _ := act_sound _
  draw _ hDraws := draw_sound hDraws
  fatal cause _ := FailsOnly.throw ⟨cause, rfl⟩

end Step

theorem Expression.evaluate_sound
    (engine : Engine)
    (scope : Scope)
    (e : Expression) :
    (evaluate engine scope e).Sound :=
  e.evaluate_partsIn FailsOnly.closed
    (Step.sound_partsIn engine)

------------------------------------------------------------
-- Rules
------------------------------------------------------------

/- Over the variables of an item, a run fails of a service. -/
def Run.Sound (x : Run α) : Prop :=
  FailsOnly (fun s : Stage => s.scope.test = none)
    Failure.IsService x

namespace Run

theorem step_sound
    {f : Scope → Step α}
    (hSound : ∀ scope, (f scope).Sound) :
    Sound (step f) := by
  intro s hItem
  rw [ends_step]
  constructor
  · exact hItem
  · exact (hSound s.scope s.tally trivial).2

theorem warn_sound (message : String) :
    Sound (warn message) :=
  step_sound fun _ => Step.act_sound _

/- A write that goes through changes no more than bindings. -/
theorem ends_write_sound
    {f : Scope → Except Failure Scope}
    {s : Stage}
    {t : Scope}
    (hOk : f s.scope = .ok t)
    (hTest : t.test = none) :
    Ends (write f) s fun r u =>
      u.scope.test = none ∧
        ∀ e, r = .error e → Failure.IsService e := by
  rw [ends_write_ok hOk]
  constructor
  · exact hTest
  · intro e hError
    cases hError

end Run

/- What has been checked can be written. -/
theorem SetTarget.put_of_check
    {target : SetTarget}
    {identifier : String}
    {s : Scope}
    {v w : Value}
    (hItem : s.test = none)
    (hCheck :
      target.check identifier (s.declaration? identifier) v =
        .ok w) :
    ∃ t, target.put identifier w s = .ok t ∧ t.test = none := by
  cases hDeclared : s.declaration? identifier with
  | none =>
      rw [hDeclared] at hCheck
      cases hCheck
  | some d =>
      have hNoTest : s.isTest = false := by
        simp [Scope.isTest, hItem]
      cases target <;>
        simp [put, Scope.setValue, Scope.setDefault,
          Scope.setCorrect, Scope.ifDeclared, hDeclared,
          hNoTest, hItem]

theorem SetTarget.assign_sound
    (target : SetTarget)
    (identifier : String)
    (v : Value) :
    (target.assign identifier v).Sound := by
  intro s hItem
  simp only [assign, ends_bind, Run.ends_scope]
  split
  next w hCheck =>
    obtain ⟨t, hPut, hTest⟩ := put_of_check hItem hCheck
    exact Run.ends_write_sound hPut hTest
  next message _ => exact Run.warn_sound message s hItem

theorem assignLookup_sound
    (identifier : String)
    (source : Value) :
    (assignLookup identifier source).Sound := by
  intro s hItem
  simp only [assignLookup, ends_bind, Run.ends_scope]
  split
  next => exact Run.warn_sound _ s hItem
  next d hDeclared =>
    split
    next => exact Run.warn_sound _ s hItem
    next table _ =>
      apply Run.ends_write_sound
      · simp only [Scope.setValue, Scope.ifDeclared, hDeclared]
        rfl
      · exact hItem

/- Over the variables of an item, rules fail of a service. -/
theorem Rule.executeAll_sound
    (engine : Engine)
    (rules : List Rule) :
    (executeAll engine rules).Sound := by
  apply executeAll_closed FailsOnly.closed
  constructor
  · intro e
    exact Run.step_sound fun scope =>
      e.evaluate_sound engine scope
  · exact fun target identifier _ =>
      target.assign_sound identifier
  · exact fun identifier _ => assignLookup_sound identifier

end Assessment
