import Assessment.Proofs.Expression.Parts
import Assessment.Proofs.Rule.Footprint
import Assessment.Proofs.Text

/-
  The targets of rules.

  A rule warns of a target that is not declared, is of the
  wrong family or lacks a lookup table. Over declarations in
  which all writes of some rules find their targets, these
  rules leave no such warning, and unless failures of a
  service are fatal they go through. Only a constraint asks to
  start over.

  Main declarations:
    * `TargetWarning`, what rules say of their targets
    * `Writing.Resolves`, a write that finds its target
    * `Rule.executeAll_works`
    * `Rule.constraintsIn` and `Rule.executeAll_proceeds`
-/

------------------------------------------------------------
-- Warnings about Targets
------------------------------------------------------------

namespace Assessment

open Stateful Text

/-
  What rules say of a target that is not declared or is of the
  wrong family, and of an outcome without a lookup table.
-/
inductive TargetWarning : String → Prop where
  | undeclared (target : SetTarget) (identifier : String) :
      TargetWarning
        (target.ruleName ++ ": undeclared variable '" ++
          identifier ++ "'")
  | wrongFamily
      (target : SetTarget)
      (identifier : String)
      (kind : VariableKind) :
      TargetWarning
        (target.ruleName ++ ": '" ++ identifier ++ "' is a " ++
          kind.name ++ " variable")
  | undeclaredOutcome (identifier : String) :
      TargetWarning
        ("lookupOutcomeValue: undeclared outcome '" ++
          identifier ++ "'")
  | noTable (identifier : String) :
      TargetWarning
        ("lookupOutcomeValue: outcome '" ++ identifier ++
          "' has no lookup table")

namespace TargetWarning

/- What follows the name of a rule in such a warning. -/
def complaints : List String :=
  [": undeclared variable '", ": '"]

/- Such a warning complains about a target, or of a lookup. -/
theorem exists_complaint
    {message : String}
    (hWarning : TargetWarning message) :
    (∃ target : SetTarget, ∃ complaint ∈ complaints,
      Starts (target.ruleName ++ complaint) message) ∨
      Starts "lookup" message := by
  cases hWarning with
  | undeclared target identifier =>
      left
      exact ⟨target, ": undeclared variable '",
        by simp [complaints], (starts_append _ _).append _⟩
  | wrongFamily target identifier kind =>
      left
      exact ⟨target, ": '", by simp [complaints],
        (((starts_append _ _).append _).append _).append _⟩
  | undeclaredOutcome identifier =>
      right
      apply Starts.append
      apply Starts.append
      decide
  | noTable identifier =>
      right
      apply Starts.append
      apply Starts.append
      decide

theorem starts_ruleName (target : SetTarget) :
    Starts "set" target.ruleName := by
  cases target <;> decide

/- How all of them start. -/
def openings : List String :=
  ["set", "lookup"]

/- What starts in another way is no warning about a target. -/
theorem not_of_starts
    {opening message : String}
    (hStarts : Starts opening message)
    (hApart : ∀ o ∈ openings, Apart o opening) :
    ¬ TargetWarning message := by
  intro hWarning
  rcases exists_complaint hWarning with
    ⟨target, complaint, _, hComplains⟩ | hLookup
  · have hSet : Starts "set" message :=
      ((starts_ruleName target).append complaint).trans
        hComplains
    exact (hApart "set" (by simp [openings])).not_starts hSet
      hStarts
  · exact (hApart "lookup" (by simp [openings])).not_starts
      hLookup hStarts

/- No rule has a name that starts with another rule's. -/
theorem eq_of_starts_ruleName :
    ∀ a b : SetTarget, Starts a.ruleName b.ruleName → a = b := by
  intro a b
  cases a <;> cases b <;> decide

/- What a rule says of other things is no such warning. -/
theorem not_of_ruleName
    (target : SetTarget)
    (word : String)
    {message : String}
    (hStarts : Starts (target.ruleName ++ word) message)
    (hOther : ∀ complaint ∈ complaints, Apart complaint word) :
    ¬ TargetWarning message := by
  have hName : Starts target.ruleName message :=
    (starts_append _ _).trans hStarts
  intro hWarning
  rcases exists_complaint hWarning with
    ⟨target', complaint, hMem, hComplains⟩ | hLookup
  · have hName' : Starts target'.ruleName message :=
      (starts_append _ _).trans hComplains
    have hSame : target' = target := by
      rcases List.prefix_or_prefix_of_prefix hName' hName with
        hFirst | hFirst
      · exact eq_of_starts_ruleName target' target hFirst
      · exact (eq_of_starts_ruleName target target' hFirst).symm
    subst hSame
    exact ((hOther complaint hMem).append_left _).not_starts
      hComplains hStarts
  · have hSet : Starts "set" message :=
      (starts_ruleName target).trans hName
    have hApart : Apart "set" "lookup" := by
      decide
    exact hApart.not_starts hSet hLookup

end TargetWarning

/- A note that is no warning about a target. -/
def Note.Unalarming (n : Note) : Prop :=
  ¬ TargetWarning n.message

namespace TargetWarning

/- No evaluation says the like. -/
theorem not_of_evaluationNote
    {message : String}
    (hNote : EvaluationNote message) :
    ¬ TargetWarning message := by
  cases hNote with
  | undeclared identifier =>
      apply not_of_starts ((starts_append _ _).append _)
      decide
  | noDefault identifier =>
      apply not_of_starts ((starts_append _ _).append _)
      decide
  | noCorrect identifier =>
      apply not_of_starts ((starts_append _ _).append _)
      decide
  | noResponse name identifier hName =>
      have hStarts : Starts "mapResponse" name := by
        revert name
        decide
      apply not_of_starts
        (((hStarts.append _).append _).append _)
      decide
  | noScoring name identifier lacking hName =>
      have hStarts : Starts "mapResponse" name := by
        revert name
        decide
      apply not_of_starts
        ((((hStarts.append _).append _).append _).append _)
      decide
  | severalInstances text reference count =>
      apply not_of_starts
        ((((((starts_append _ _).append _).append _).append
          _).append _).append _)
      decide
  | noInstance text reference =>
      apply not_of_starts
        ((((starts_append _ _).append _).append _).append _)
      decide
  | unresolved text =>
      apply not_of_starts ((starts_append _ _).append _)
      decide
  | outsideTest kind =>
      have hNames :
          ∀ name ∈ ["numberCorrect", "numberIncorrect",
              "numberPresented", "numberResponded",
              "numberSelected", "outcomeMinimum",
              "outcomeMaximum", "testVariables"],
            ∀ o ∈ openings, Apart o name := by
        decide +kernel
      apply not_of_starts (starts_append kind.name _)
      apply hNames
      cases kind <;> simp [SubsetKind.name]
  | noAnswer cause =>
      cases cause with
      | unavailable reason =>
          apply not_of_starts ((starts_append _ _).append _)
          decide
      | rejected name reason =>
          apply not_of_starts
            ((((starts_append _ _).append _).append _).append _)
          decide

end TargetWarning

theorem Note.IsEvaluations.unalarming
    {n : Note}
    (hNote : n.IsEvaluations) :
    n.Unalarming :=
  TargetWarning.not_of_evaluationNote hNote

------------------------------------------------------------
-- Writes
------------------------------------------------------------

/-
  Among declarations a write finds its target, of a family it
  may write to and with a lookup table if it needs one.
-/
def Writing.Resolves
    (declarations : List Declaration) :
    Writing → Prop
  | .set target identifier =>
      ∃ d, findDeclaration? declarations identifier = some d ∧
        target.allows d.kind = true
  | .lookup identifier =>
      ∃ d, findDeclaration? declarations identifier = some d ∧
        d.table?.isSome = true

/- A declared variable takes a value, in a test no other. -/
theorem Scope.put_eq_ok
    {s : Scope}
    {target : SetTarget}
    {name : String}
    (hDeclared : (s.declaration? name).isSome = true)
    (hStore : s.isTest = true → target.store = .values)
    (v : Value) :
    target.put name v s = .ok (s.putAt target.store name v) := by
  obtain ⟨d, hFound⟩ := Option.isSome_iff_exists.mp hDeclared
  cases hTest : s.isTest with
  | false =>
      cases target <;>
        simp [SetTarget.put, setValue, setDefault, setCorrect,
          ifDeclared, hFound, hTest, SetTarget.store, putAt]
  | true =>
      have hValues := hStore hTest
      cases target <;>
        simp [SetTarget.store] at hValues <;>
        simp [SetTarget.put, setValue, ifDeclared, hFound,
          SetTarget.store, putAt]

/- The variables of an item, or those of a test. -/
structure Stage.Over
    (declarations : List Declaration)
    (isTest : Bool)
    (s : Stage) :
    Prop where
  declarations : s.scope.declarations = declarations
  isTest : s.scope.isTest = isTest

/- Notes with a property have been added on a stage. -/
def Stage.Adds (N : Note → Prop) (s t : Stage) : Prop :=
  s.tally.Adds N t.tally

instance (N : Note → Prop) : Std.Refl (Stage.Adds N) where
  refl s := Std.Refl.refl (r := Tally.Adds N) s.tally

instance (N : Note → Prop) : IsTrans Stage (Stage.Adds N) where
  trans s t u hFirst hThen :=
    IsTrans.trans (r := Tally.Adds N) s.tally t.tally u.tally
      hFirst hThen

/-
  Over some variables a run adds notes with a property, and
  goes through if something can be relied on.
-/
abbrev Run.Works
    {α : Type}
    (declarations : List Declaration)
    (isTest : Bool)
    (N : Note → Prop)
    (relied : Prop)
    (x : Run α) :
    Prop :=
  Stateful.Works (Stage.Over declarations isTest)
    (Stage.Adds N) relied x

section

variable {α : Type}
variable {declarations : List Declaration}
variable {isTest : Bool}
variable {N : Note → Prop}
variable {relied : Prop}
variable {engine : Engine}

namespace Run

/- An evaluation leaves the variables alone. -/
theorem step_works
    {f : Scope → Step α}
    (hStep : ∀ scope, Step.Works N relied (f scope)) :
    Works declarations isTest N relied (step f) := by
  intro s hOver
  rw [ends_step]
  obtain ⟨_, hAdds, hOk⟩ := hStep s.scope s.tally trivial
  exact ⟨⟨hOver.declarations, hOver.isTest⟩, hAdds, hOk⟩

theorem warn_works
    {message : String}
    (hNote : ∀ source, N ⟨.warning, source, message⟩) :
    Works declarations isTest N relied (warn message) :=
  step_works fun scope => Step.warn_works (hNote scope.source)

theorem note_works
    {level : Level}
    {message : String}
    (hNote : ∀ source, N ⟨level, source, message⟩) :
    Works declarations isTest N relied (note level message) := by
  apply step_works
  intro scope t _
  refine ⟨trivial, ⟨[⟨level, scope.source, message⟩], rfl, ?_⟩,
    fun _ => ⟨(), rfl⟩⟩
  simpa using hNote scope.source

/- A declared variable can be written. -/
theorem ends_put_works
    {f : Scope → Except Failure Scope}
    {s : Stage}
    (hOver : s.Over declarations isTest)
    (target : SetTarget)
    {name : String}
    {v : Value}
    (hPut : f s.scope = target.put name v s.scope)
    (hDeclared : (s.scope.declaration? name).isSome = true)
    (hStore : isTest = true → target.store = .values) :
    Ends (write f) s fun r t =>
      t.Over declarations isTest ∧ s.Adds N t ∧
        (relied → ∃ a, r = .ok a) := by
  have hOk : f s.scope =
      .ok (s.scope.putAt target.store name v) := by
    rw [hPut]
    apply Scope.put_eq_ok hDeclared
    exact fun hTest => hStore (hOver.isTest.symm.trans hTest)
  rw [ends_write_ok hOk]
  refine ⟨⟨?_, ?_⟩, Std.Refl.refl (r := Tally.Adds N) s.tally,
    fun _ => ⟨(), rfl⟩⟩
  · rw [← hOver.declarations]
    cases target <;> rfl
  · rw [← hOver.isTest]
    cases target <;> rfl

/- A write that may fail leaves the same variables. -/
theorem write_works
    {f : Scope → Except Failure Scope}
    (hPut :
      ∀ s, ∃ (target : SetTarget) (name : String) (v : Value),
        f s = target.put name v s) :
    Works declarations isTest N False (write f) := by
  intro s hOver
  rw [ends_write]
  obtain ⟨target, name, v, hSame⟩ := hPut s.scope
  split
  next scope hOk =>
    rw [hSame] at hOk
    obtain ⟨_, rfl⟩ := Scope.eq_putAt_of_put hOk
    refine ⟨⟨?_, ?_⟩, Std.Refl.refl (r := Tally.Adds N) s.tally,
      False.elim⟩
    · rw [← hOver.declarations]
      cases target <;> rfl
    · rw [← hOver.isTest]
      cases target <;> rfl
  next =>
    exact ⟨hOver, Std.Refl.refl (r := Tally.Adds N) s.tally,
      False.elim⟩

end Run

/- How what a value is starts, after the name of a rule. -/
def TargetWarning.descriptions : List String :=
  [": NULL", ": record", ": single ", ": multiple ",
    ": ordered "]

theorem Value.exists_describe (v : Value) :
    ∃ word ∈ TargetWarning.descriptions,
      Starts word (": " ++ v.describe) := by
  cases v with
  | null => exact ⟨": NULL", by decide, by decide⟩
  | record fields =>
      refine ⟨": record", by decide, ?_⟩
      simp [Starts, describe]
  | single s =>
      refine ⟨": single ", by decide, ?_⟩
      simp [Starts, describe]
  | multiple t xs =>
      refine ⟨": multiple ", by decide, ?_⟩
      simp [Starts, describe]
  | ordered t xs =>
      refine ⟨": ordered ", by decide, ?_⟩
      simp [Starts, describe]

theorem TargetWarning.apart_description :
    ∀ word ∈ descriptions, ∀ complaint ∈ complaints,
      Apart complaint word := by
  decide +kernel

/- A value that does not fit is no matter of the target. -/
theorem SetTarget.unalarming_of_check
    {target : SetTarget}
    {identifier : String}
    {d : Declaration}
    (hAllows : target.allows d.kind = true)
    {v : Value}
    {message : String}
    (hCheck :
      target.check identifier (some d) v = .error message) :
    ¬ TargetWarning message := by
  simp only [check, hAllows] at hCheck
  split at hCheck
  next hNot => cases hNot
  next =>
    split at hCheck
    next =>
      cases hCheck
      obtain ⟨word, hMem, hWord⟩ :=
        Value.exists_describe (d.coerce v)
      apply TargetWarning.not_of_ruleName target word
      · iterate 7 apply Starts.append
        rw [String.append_assoc]
        simpa [Starts] using hWord
      · exact TargetWarning.apart_description word hMem
    next => cases hCheck

/- An assignment that finds its target leaves no alarm. -/
theorem SetTarget.assign_works
    {target : SetTarget}
    {identifier : String}
    (hResolves :
      (Writing.set target identifier).Resolves declarations)
    (hStore : isTest = true → target.store = .values)
    (v : Value) :
    Run.Works declarations isTest Note.Unalarming relied
      (target.assign identifier v) := by
  intro s hOver
  obtain ⟨d, hFound, hAllows⟩ := hResolves
  have hDeclared : s.scope.declaration? identifier = some d := by
    rw [Scope.declaration?, hOver.declarations]
    exact hFound
  simp only [assign, ends_bind, Run.ends_scope]
  split
  next w hCheck =>
    exact Run.ends_put_works hOver target rfl
      (by rw [hDeclared]; rfl) hStore
  next message hCheck =>
    rw [hDeclared] at hCheck
    exact Run.warn_works
      (fun _ => unalarming_of_check hAllows hCheck) s hOver

/- So does a lookup. -/
theorem assignLookup_works
    {identifier : String}
    (hResolves :
      (Writing.lookup identifier).Resolves declarations)
    (v : Value) :
    Run.Works declarations isTest Note.Unalarming relied
      (assignLookup identifier v) := by
  intro s hOver
  obtain ⟨d, hFound, hTable⟩ := hResolves
  have hDeclared : s.scope.declaration? identifier = some d := by
    rw [Scope.declaration?, hOver.declarations]
    exact hFound
  obtain ⟨table, hTable⟩ := Option.isSome_iff_exists.mp hTable
  simp only [assignLookup, ends_bind, Run.ends_scope,
    hDeclared, hTable]
  exact Run.ends_put_works hOver .outcome rfl
    (by rw [hDeclared]; rfl) fun _ => rfl

------------------------------------------------------------
-- Rules
------------------------------------------------------------

/- The value of an expression is had without an alarm. -/
theorem Rule.valueOf_works (e : Expression) :
    Run.Works declarations isTest Note.Unalarming
      engine.Lenient (valueOf engine e) := by
  apply Run.step_works
  intro scope t _
  have hWorks :
      Step.Works Note.IsEvaluations engine.Lenient
        (e.evaluate engine scope) :=
    e.evaluate_works
  rcases hWorks t trivial with
    ⟨_, ⟨more, hNotes, hMore⟩, hOk⟩
  exact ⟨trivial,
    ⟨more, hNotes, fun n hMem => (hMore n hMem).unalarming⟩,
    hOk⟩

/-
  Rules all of whose writes find their targets leave no alarm,
  and go through unless a failure of the service is fatal.
-/
theorem Rule.executeAll_works
    (engine : Engine)
    (isTest : Bool)
    {rules : List Rule}
    (hResolve :
      ∀ w ∈ writingsIn rules, w.Resolves declarations)
    (hStore :
      isTest = true →
        ∀ w ∈ writingsIn rules, w.store = .values) :
    Run.Works declarations isTest Note.Unalarming
      engine.Lenient (executeAll engine rules) := by
  apply executeAll_closed Stateful.Works.closed
  constructor
  · exact valueOf_works
  · intro target identifier hMem
    exact SetTarget.assign_works (hResolve _ hMem) fun hTest =>
      hStore hTest _ hMem
  · intro identifier hMem
    exact assignLookup_works (hResolve _ hMem)

end

------------------------------------------------------------
-- Starting Over
------------------------------------------------------------

namespace Rule

mutual

/- The constraints of a rule, in whichever branch they stand. -/
def constraints : Rule → List Expression
  | .condition _ _ rules rest =>
      constraintsIn rules ++ chainConstraints rest
  | .setValue .. => []
  | .lookup .. => []
  | .exit _ => []
  | .constraint test => [test]
  | .fragment _ rules => constraintsIn rules

/- The constraints of rules in a row. -/
def constraintsIn : List Rule → List Expression
  | [] => []
  | r :: rest => constraints r ++ constraintsIn rest

/- The constraints of the branches of a condition. -/
def chainConstraints : Chain → List Expression
  | .branch _ rules rest =>
      constraintsIn rules ++ chainConstraints rest
  | .otherwise rules => constraintsIn rules
  | .nothing => []

end

/- A run does not ask to start over. -/
def Proceeds (x : Run Outcome) : Prop :=
  ∀ s, Ends x s fun r _ => r ≠ .ok .retry

theorem proceeds_pure
    {outcome : Outcome}
    (hOther : outcome ≠ .retry) :
    Proceeds (pure outcome) := by
  intro s
  rw [ends_pure]
  intro hSame
  cases hSame
  exact hOther rfl

/- It matters only how the last part of a run ends. -/
theorem proceeds_bind
    {α : Type}
    {x : Run α}
    {f : α → Run Outcome}
    (hThen : ∀ a, Proceeds (f a)) :
    Proceeds (x >>= f) := by
  intro s
  apply Ends.skip
  · intro e t hSame
    cases hSame
  · exact hThen

variable (engine : Engine)

mutual

/- Induction over rules. Nothing but a constraint starts over. -/
theorem execute_proceeds
    (r : Rule)
    (hNone : r.constraints = []) :
    Proceeds (execute engine r) := by
  match r with
  | .condition _ test rules rest =>
      rw [constraints, List.append_eq_nil_iff] at hNone
      have hTaken := executeAll_proceeds rules hNone.1
      have hOther := executeChain_proceeds rest hNone.2
      rw [execute]
      apply proceeds_bind
      intro v
      split
      · exact hTaken
      · exact hOther
  | .setValue target identifier e =>
      rw [execute]
      apply proceeds_bind
      intro v
      apply proceeds_bind
      intro _
      exact proceeds_pure (by decide)
  | .lookup identifier e =>
      rw [execute]
      apply proceeds_bind
      intro v
      apply proceeds_bind
      intro _
      exact proceeds_pure (by decide)
  | .exit _ =>
      rw [execute]
      exact proceeds_pure (by decide)
  | .constraint test =>
      rw [constraints] at hNone
      cases hNone
  | .fragment _ rules =>
      rw [constraints] at hNone
      rw [execute]
      exact executeAll_proceeds rules hNone

theorem executeAll_proceeds
    (rules : List Rule)
    (hNone : constraintsIn rules = []) :
    Proceeds (executeAll engine rules) := by
  match rules with
  | [] =>
      rw [executeAll]
      exact proceeds_pure (by decide)
  | r :: rest =>
      rw [constraintsIn, List.append_eq_nil_iff] at hNone
      have hFirst := execute_proceeds r hNone.1
      have hRest := executeAll_proceeds rest hNone.2
      intro s
      rw [executeAll, ends_bind]
      apply (hFirst s).mono
      intro outcome t hProceeds
      cases outcome with
      | error e =>
          intro hSame
          cases hSame
      | ok o =>
          dsimp only
          split
          · exact hRest t
          · rw [ends_pure]
            exact hProceeds

theorem executeChain_proceeds
    (c : Chain)
    (hNone : chainConstraints c = []) :
    Proceeds (executeChain engine c) := by
  match c with
  | .branch test rules rest =>
      rw [chainConstraints, List.append_eq_nil_iff] at hNone
      have hTaken := executeAll_proceeds rules hNone.1
      have hOther := executeChain_proceeds rest hNone.2
      rw [executeChain]
      apply proceeds_bind
      intro v
      split
      · exact hTaken
      · exact hOther
  | .otherwise rules =>
      rw [chainConstraints] at hNone
      rw [executeChain]
      exact executeAll_proceeds rules hNone
  | .nothing =>
      rw [executeChain]
      exact proceeds_pure (by decide)

end

end Rule

end Assessment
