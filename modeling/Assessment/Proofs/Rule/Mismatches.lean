import Assessment.Proofs.Rule.Execution
import Assessment.Proofs.Rule.Flattening
import Assessment.Proofs.Rule.Targets
import Assessment.Proofs.Rule.Typing

/-
  Values that cannot be written.

  A rule whose value cannot be written to its target leaves a
  warning and changes nothing, and the rules behind it are
  executed. Two kinds of writes slip through. Over a test, a
  default that passes all checks is refused when it is to be
  stored, and the refusal ends the run with a failure. And
  what an outcome has in its lookup table is written without a
  check, though it may be a single value for an outcome that
  holds several. Over the variables of an item no run fails.

  Main declarations:
    * `Writing.Mismatch`, why a value cannot be written
    * `SetTarget.Denied` and `Writing.Unchecked`, the writes
      that slip through
    * `Rule.Faces`, a rule that a run comes to, with the rules
      behind it
    * `Rule.FailsAt`, where a run fails
    * `Rule.mismatches_reported`
-/

------------------------------------------------------------
-- Mismatches
------------------------------------------------------------

namespace Assessment

open Stateful

/- Why a value cannot be written to the target of a write. -/
inductive Writing.Mismatch
    (s : Scope)
    (v : Value) :
    Writing → Prop
  | undeclared {w : Writing}
      (hNone : s.declaration? w.identifier = none) :
      Mismatch s v w
  | wrongFamily
      {target : SetTarget} {name : String} {d : Declaration}
      (hDeclared : s.declaration? name = some d)
      (hFamily : target.allows d.kind = false) :
      Mismatch s v (.set target name)
  | misfit
      {target : SetTarget} {name : String} {d : Declaration}
      (hDeclared : s.declaration? name = some d)
      (hMisfit : d.accepts (d.coerce v) = false) :
      Mismatch s v (.set target name)
  /- A test keeps its defaults and has no correct values. -/
  | fixed {target : SetTarget} {name : String}
      (hTest : s.isTest = true)
      (hStore : target.store ≠ .values) :
      Mismatch s v (.set target name)
  | noTable {name : String} {d : Declaration}
      (hDeclared : s.declaration? name = some d)
      (hNone : d.table? = none) :
      Mismatch s v (.lookup name)
  | misfitFound
      {name : String} {d : Declaration} {table : LookupTable}
      (hDeclared : s.declaration? name = some d)
      (hTable : d.table? = some table)
      (hMisfit :
        d.accepts (d.coerce (d.lookup table v)) = false) :
      Mismatch s v (.lookup name)

/-
  A value that passes the checks of a target in a test, but is
  for one of the places that a test keeps as they are.
-/
structure SetTarget.Denied
    (target : SetTarget)
    (name : String)
    (s : Scope)
    (v : Value) :
    Prop where
  isTest : s.isTest = true
  store : target.store ≠ .values
  checked :
    ∃ d, s.declaration? name = some d ∧
      target.allows d.kind = true ∧
      d.accepts (d.coerce v) = true

/- The failure that such a value meets with. -/
def SetTarget.refusal
    (target : SetTarget)
    (name : String) :
    Failure :=
  match target with
  | .correctResponse => .mismatch (.noCorrectResponse name)
  | _ => .mismatch (.fixedDefault name)

/- A value from a lookup table that does not fit its outcome. -/
structure Writing.Unchecked
    (name : String)
    (s : Scope)
    (v : Value)
    (d : Declaration)
    (table : LookupTable) :
    Prop where
  declared : s.declaration? name = some d
  hasTable : d.table? = some table
  misfit : d.accepts (d.coerce (d.lookup table v)) = false

/- A mismatch that the checks of a write do not find. -/
inductive Writing.Slips
    (s : Scope)
    (v : Value) :
    Writing → Prop
  | denied {target : SetTarget} {name : String}
      (hDenied : target.Denied name s v) :
      Slips s v (.set target name)
  | unchecked
      {name : String} {d : Declaration} {table : LookupTable}
      (hUnchecked : Unchecked name s v d table) :
      Slips s v (.lookup name)

/- A stage on which a warning has been left. -/
def Stage.warned (s : Stage) (message : String) : Stage :=
  { s with
    tally :=
      { s.tally with
        notes := s.tally.notes ++
          [⟨.warning, s.scope.source, message⟩] } }

------------------------------------------------------------
-- Writes
------------------------------------------------------------

/- Makes a write with a value. -/
def Writing.apply (w : Writing) (v : Value) : Run Unit :=
  match w with
  | .set target name => target.assign name v
  | .lookup name => assignLookup name v

namespace SetTarget

variable {target : SetTarget}
variable {name : String}
variable {v : Value}

/- A value is put in place if it passes the checks. -/
theorem run_assign (s : Stage) :
    run (target.assign name v) s =
      match target.check name (s.scope.declaration? name) v with
      | .ok w => run (Run.write (target.put name w)) s
      | .error message => (.ok (), s.warned message) := by
  have hScope : run Run.scope s = (.ok s.scope, s) := rfl
  rw [assign, run_bind, hScope]
  dsimp only
  cases target.check name (s.scope.declaration? name) v <;> rfl

/- The checks are passed by what fits, and by that alone. -/
theorem check_eq_ok
    {d : Declaration}
    {w : Value} :
    target.check name (some d) v = .ok w ↔
      target.allows d.kind = true ∧
        d.accepts (d.coerce v) = true ∧ w = d.coerce v := by
  cases hAllows : target.allows d.kind with
  | false => simp [check, hAllows]
  | true =>
      cases hAccepts : d.accepts (d.coerce v) with
      | false => simp [check, hAllows, hAccepts]
      | true => simp [check, hAllows, hAccepts, eq_comm]

/- A test refuses to store defaults and correct values. -/
theorem put_eq_refusal
    {s : Scope}
    (hTest : s.isTest = true)
    (hStore : target.store ≠ .values) :
    target.put name v s = .error (target.refusal name) := by
  cases target with
  | defaultValue =>
      simp [put, Scope.setDefault, hTest, refusal]
  | correctResponse =>
      simp [put, Scope.setCorrect, hTest, refusal]
  | _ => exact absurd rfl hStore

theorem Denied.run_assign
    {s : Stage}
    (hDenied : target.Denied name s.scope v) :
    run (target.assign name v) s =
      (.error (target.refusal name), s) := by
  rcases hDenied.checked with
    ⟨d, hDeclared, hAllows, hAccepts⟩
  rw [SetTarget.run_assign, hDeclared,
    check_eq_ok.mpr ⟨hAllows, hAccepts, rfl⟩]
  have hRefused :
      target.put name (d.coerce v) s.scope =
        .error (target.refusal name) :=
    put_eq_refusal hDenied.isTest hDenied.store
  have hEnds :
      Ends (Run.write (target.put name (d.coerce v))) s
        fun r t =>
          (r, t) = (.error (target.refusal name), s) := by
    rw [Run.ends_write, hRefused]
  exact hEnds

/- An assignment fails only where it is denied. -/
theorem denied_of_error
    {s t : Stage}
    {e : Failure}
    (hRun : run (target.assign name v) s = (.error e, t)) :
    target.Denied name s.scope v := by
  rw [run_assign] at hRun
  split at hRun
  next x hCheck =>
    cases hDeclared : s.scope.declaration? name with
    | none =>
        rw [hDeclared] at hCheck
        cases hCheck
    | some d =>
        rw [hDeclared, check_eq_ok] at hCheck
        by_contra hNot
        have hPut :
            target.put name x s.scope =
              .ok (s.scope.putAt target.store name x) := by
          apply Scope.put_eq_ok (by rw [hDeclared]; rfl)
          intro hTest
          by_contra hStore
          exact hNot
            ⟨hTest, hStore, d, hDeclared, hCheck.1,
              hCheck.2.1⟩
        have hOk :
            Ends (Run.write (target.put name x)) s fun r _ =>
              r = .ok () :=
          (Run.ends_write_ok hPut _).mpr rfl
        cases hOk.of_run hRun
  next => cases hRun

/- Checks that are not passed lead to a warning. -/
theorem exists_warned
    {s : Stage}
    (hNot :
      ∀ w, target.check name (s.scope.declaration? name) v ≠
        .ok w) :
    ∃ message,
      run (target.assign name v) s =
        (.ok (), s.warned message) := by
  rw [run_assign]
  split
  next w hCheck => exact absurd hCheck (hNot w)
  next message _ => exact ⟨message, rfl⟩

end SetTarget

namespace Writing

variable {s : Stage}
variable {v : Value}

/- A declared variable can be given a value. -/
theorem run_setValue
    {name : String}
    {d : Declaration}
    (hDeclared : s.scope.declaration? name = some d)
    (x : Value) :
    run (Run.write fun scope => scope.setValue name x) s =
      (.ok (),
        { s with scope := s.scope.putAt .values name x }) := by
  have hPut :
      s.scope.setValue name x =
        .ok (s.scope.putAt .values name x) := by
    simp [Scope.setValue, Scope.ifDeclared, hDeclared,
      Scope.putAt]
  have hEnds :
      Ends (Run.write fun scope => scope.setValue name x) s
        fun r t =>
          (r, t) = (.ok (),
            { s with
              scope := s.scope.putAt .values name x }) := by
    rw [Run.ends_write, hPut]
  exact hEnds

theorem Unchecked.run_apply
    {name : String}
    {d : Declaration}
    {table : LookupTable}
    (hUnchecked : Unchecked name s.scope v d table) :
    run ((Writing.lookup name).apply v) s =
      (.ok (),
        { s with
          scope := s.scope.putAt .values name
            (d.coerce (d.lookup table v)) }) := by
  have hScope : run Run.scope s = (.ok s.scope, s) := rfl
  rw [apply, assignLookup, run_bind, hScope]
  simp only [hUnchecked.declared, hUnchecked.hasTable]
  exact run_setValue hUnchecked.declared _

/- A mismatch that does not slip through is warned of. -/
theorem Mismatch.exists_warned
    {w : Writing}
    (hMismatch : w.Mismatch s.scope v)
    (hFound : ¬ w.Slips s.scope v) :
    ∃ message,
      run (w.apply v) s = (.ok (), s.warned message) := by
  have hScope : run Run.scope s = (.ok s.scope, s) := rfl
  cases hMismatch with
  | undeclared hNone =>
      cases w with
      | set target name =>
          rw [Writing.identifier] at hNone
          apply SetTarget.exists_warned
          rw [hNone]
          intro w hCheck
          cases hCheck
      | lookup name =>
          rw [Writing.identifier] at hNone
          rw [apply, assignLookup, run_bind, hScope]
          simp only [hNone]
          exact ⟨_, rfl⟩
  | wrongFamily hDeclared hFamily =>
      apply SetTarget.exists_warned
      intro w hCheck
      rw [hDeclared, SetTarget.check_eq_ok, hFamily] at hCheck
      cases hCheck.1
  | misfit hDeclared hMisfit =>
      apply SetTarget.exists_warned
      intro w hCheck
      rw [hDeclared, SetTarget.check_eq_ok, hMisfit] at hCheck
      cases hCheck.2.1
  | fixed hTest hStore =>
      apply SetTarget.exists_warned
      intro w hCheck
      apply hFound
      refine .denied ⟨hTest, hStore, ?_⟩
      cases hDeclared : s.scope.declaration? _ with
      | none =>
          rw [hDeclared] at hCheck
          cases hCheck
      | some d =>
          rw [hDeclared, SetTarget.check_eq_ok] at hCheck
          exact ⟨d, rfl, hCheck.1, hCheck.2.1⟩
  | noTable hDeclared hNone =>
      rw [apply, assignLookup, run_bind, hScope]
      simp only [hDeclared, hNone]
      exact ⟨_, rfl⟩
  | misfitFound hDeclared hTable hMisfit =>
      exact absurd
        (.unchecked ⟨hDeclared, hTable, hMisfit⟩) hFound

/- A write fails only where it is denied. -/
theorem denied_of_error
    {w : Writing}
    {t : Stage}
    {e : Failure}
    (hRun : run (w.apply v) s = (.error e, t)) :
    ∃ target name, w = .set target name ∧
      target.Denied name s.scope v ∧
      e = target.refusal name ∧ t = s := by
  have hScope : run Run.scope s = (.ok s.scope, s) := rfl
  cases w with
  | lookup name =>
      rw [apply, assignLookup, run_bind, hScope] at hRun
      dsimp only at hRun
      split at hRun
      next => cases hRun
      next d hDeclared =>
        split at hRun
        next => cases hRun
        next table _ =>
          rw [run_setValue hDeclared] at hRun
          cases hRun
  | set target name =>
      have hDenied := SetTarget.denied_of_error hRun
      rw [apply, hDenied.run_assign] at hRun
      cases hRun
      exact ⟨target, name, rfl, hDenied, rfl, rfl⟩

end Writing

------------------------------------------------------------
-- Rules That Are Faced
------------------------------------------------------------

namespace Rule

variable {engine : Engine}

/- The write of a rule, with the expression for its value. -/
def write? : Rule → Option (Writing × Expression)
  | .setValue target name e => some (.set target name, e)
  | .lookup name e => some (.lookup name, e)
  | _ => none

/-
  A run of rules that begins on a stage comes to a rule on
  another stage, with rules behind it that are executed if it
  goes through. The rules of a fragment, and those of the
  branch that a condition comes to, stand before the rules
  behind the fragment or the condition.
-/
inductive Faces (engine : Engine) :
    List Rule → Stage → Rule → List Rule → Stage → Prop
  | here (r : Rule) (rest : List Rule) (s : Stage) :
      Faces engine (r :: rest) s r rest s
  | later {r met : Rule} {rest ahead : List Rule}
      {s u t : Stage}
      (hFirst : run (execute engine r) s = (.ok .continue, u))
      (hThen : Faces engine rest u met ahead t) :
      Faces engine (r :: rest) s met ahead t
  | inFragment {met : Rule} {rules rest ahead : List Rule}
      {s t : Stage}
      (kind : ProcessingKind)
      (hInside : Faces engine (rules ++ rest) s met ahead t) :
      Faces engine (.fragment kind rules :: rest) s met ahead t
  | inBranch {test : Expression} {other : Chain} {met : Rule}
      {rules rest chosen ahead : List Rule} {s u t : Stage}
      (kind : ProcessingKind)
      (hTaken :
        run (taken engine test rules other) s = (.ok chosen, u))
      (hInside : Faces engine (chosen ++ rest) u met ahead t) :
      Faces engine (.condition kind test rules other :: rest) s
        met ahead t

namespace Faces

variable {rules ahead : List Rule}
variable {met : Rule}
variable {s t : Stage}

/- More rules at the end are more rules ahead. -/
theorem append
    (hFaces : Faces engine rules s met ahead t)
    (more : List Rule) :
    Faces engine (rules ++ more) s met (ahead ++ more) t := by
  induction hFaces with
  | here r rest s => exact .here r (rest ++ more) s
  | later hFirst _ ih => exact .later hFirst ih
  | inFragment kind _ ih =>
      rw [List.append_assoc] at ih
      exact .inFragment kind ih
  | inBranch kind hTaken _ ih =>
      rw [List.append_assoc] at ih
      exact .inBranch kind hTaken ih

/- A run goes on with the rule it faces and what is ahead. -/
theorem run_eq
    (hFaces : Faces engine rules s met ahead t) :
    run (executeAll engine rules) s =
      run (executeAll engine (met :: ahead)) t := by
  induction hFaces with
  | here r rest s => rfl
  | later hFirst _ ih =>
      rw [executeAll, run_bind, hFirst]
      exact ih
  | inFragment kind _ ih =>
      rw [executeAll_fragment]
      exact ih
  | inBranch kind hTaken _ ih =>
      rw [executeAll_condition, run_bind, hTaken]
      exact ih

/- A rule that goes through leaves the run to those ahead. -/
theorem run_ahead
    {u : Stage}
    (hFaces : Faces engine rules s met ahead t)
    (hMet : run (execute engine met) t = (.ok .continue, u)) :
    run (executeAll engine rules) s =
      run (executeAll engine ahead) u := by
  rw [hFaces.run_eq, executeAll, run_bind, hMet]
  rfl

/- A rule that fails makes the run fail. -/
theorem run_error
    {u : Stage}
    {e : Failure}
    (hFaces : Faces engine rules s met ahead t)
    (hMet : run (execute engine met) t = (.error e, u)) :
    run (executeAll engine rules) s = (.error e, u) := by
  rw [hFaces.run_eq, executeAll, run_bind, hMet]

end Faces

------------------------------------------------------------
-- Writes of Rules
------------------------------------------------------------

variable {r : Rule}
variable {w : Writing}
variable {e : Expression}

/- A rule with a write evaluates, writes and goes on. -/
theorem execute_of_write
    (hWrite : r.write? = some (w, e)) :
    execute engine r = do
      let v ← valueOf engine e
      w.apply v
      return .continue := by
  cases r with
  | setValue target name value =>
      cases hWrite
      rw [execute]
      rfl
  | lookup name value =>
      cases hWrite
      rw [execute]
      rfl
  | _ => cases hWrite

variable {s t u : Stage}
variable {v : Value}

theorem run_execute_of_apply
    (hWrite : r.write? = some (w, e))
    (hValue : run (valueOf engine e) s = (.ok v, t))
    (hApply : run (w.apply v) t = (.ok (), u)) :
    run (execute engine r) s = (.ok .continue, u) := by
  rw [execute_of_write hWrite, run_bind, hValue]
  dsimp only
  rw [run_bind, hApply]
  rfl

theorem run_execute_of_refused
    {failure : Failure}
    (hWrite : r.write? = some (w, e))
    (hValue : run (valueOf engine e) s = (.ok v, t)) :
    run (execute engine r) s = (.error failure, u) ↔
      run (w.apply v) t = (.error failure, u) := by
  rw [execute_of_write hWrite, run_bind, hValue]
  dsimp only
  rw [run_bind]
  cases run (w.apply v) t with
  | mk result x =>
      constructor
      · intro hSame
        cases result <;> cases hSame
        rfl
      · intro hSame
        cases hSame
        rfl

/- An expression has a value unless the service is fatal. -/
theorem exists_value
    (hLenient : engine.Lenient)
    (e : Expression)
    (s : Stage) :
    ∃ v t, run (valueOf engine e) s = (.ok v, t) ∧
      t.scope = s.scope := by
  have hWorks :
      Step.Works Note.IsEvaluations engine.Lenient
        (e.evaluate engine s.scope) :=
    e.evaluate_works
  rcases (hWorks s.tally trivial).2.2 hLenient with ⟨v, hOk⟩
  refine ⟨v, (run (valueOf engine e) s).2, ?_, rfl⟩
  exact Prod.ext hOk rfl

------------------------------------------------------------
-- Runs That Fail
------------------------------------------------------------

/- A condition comes to one of its branches. -/
theorem exists_firstTrue
    (hLenient : engine.Lenient)
    (otherwise : List Rule)
    (branches : List (Expression × List Rule))
    (s : Stage) :
    ∃ chosen t,
      run (firstTrue engine otherwise branches) s =
        (.ok chosen, t) := by
  induction branches generalizing s with
  | nil => exact ⟨otherwise, s, rfl⟩
  | cons branch more ih =>
      rcases branch with ⟨test, rules⟩
      rcases exists_value hLenient test s with
        ⟨v, t, hValue, _⟩
      rw [firstTrue, run_bind, hValue]
      dsimp only
      split
      · exact ⟨rules, t, rfl⟩
      · exact ih t

/- A run faces a write that fails. -/
def FailsAt
    (engine : Engine)
    (rules : List Rule)
    (s : Stage)
    (failure : Failure)
    (u : Stage) :
    Prop :=
  ∃ met ahead t w e,
    Faces engine rules s met ahead t ∧
      met.write? = some (w, e) ∧
      run (execute engine met) t = (.error failure, u)

theorem FailsAt.append
    {rules : List Rule}
    {failure : Failure}
    (hFails : FailsAt engine rules s failure u)
    (more : List Rule) :
    FailsAt engine (rules ++ more) s failure u := by
  rcases hFails with ⟨met, ahead, t, w, e, hFaces, hRest⟩
  exact ⟨met, ahead ++ more, t, w, e, hFaces.append more,
    hRest⟩

/-
  Induction over rules. Conditions and constraints do not
  fail, so it is a write that fails, and the run comes to it.
-/
mutual

theorem failsAt_of_execute
    (hLenient : engine.Lenient)
    (r : Rule)
    (rest : List Rule)
    {s u : Stage}
    {failure : Failure}
    (hRun : run (execute engine r) s = (.error failure, u)) :
    FailsAt engine (r :: rest) s failure u := by
  match r with
  | .condition kind test rules other =>
      rcases exists_firstTrue hLenient other.final
          ((test, rules) :: other.branches) s with
        ⟨chosen, t, hTaken⟩
      rw [execute_condition, run_bind, taken, hTaken] at hRun
      have hInside : FailsAt engine chosen t failure u := by
        rcases run_firstTrue_cons hTaken with
          hSame | ⟨w, hRest⟩
        · rw [hSame] at hRun ⊢
          exact failsAt_of_executeAll hLenient rules hRun
        · exact failsAt_of_chain hLenient other hRest hRun
      rcases hInside.append rest with
        ⟨met, ahead, w, write, e, hFaces, hFails⟩
      exact ⟨met, ahead, w, write, e,
        .inBranch kind hTaken hFaces, hFails⟩
  | .setValue target name e =>
      exact ⟨_, rest, s, _, e, .here _ rest s, rfl, hRun⟩
  | .lookup name e =>
      exact ⟨_, rest, s, _, e, .here _ rest s, rfl, hRun⟩
  | .exit kind =>
      rw [execute] at hRun
      cases hRun
  | .constraint test =>
      rcases exists_value hLenient test s with
        ⟨v, t, hValue, _⟩
      rw [execute, run_bind, hValue] at hRun
      cases hRun
  | .fragment kind rules =>
      rw [execute] at hRun
      have hInside := failsAt_of_executeAll hLenient rules hRun
      rcases hInside.append rest with
        ⟨met, ahead, t, write, e, hFaces, hFails⟩
      exact ⟨met, ahead, t, write, e, .inFragment kind hFaces,
        hFails⟩

theorem failsAt_of_executeAll
    (hLenient : engine.Lenient)
    (rules : List Rule)
    {s u : Stage}
    {failure : Failure}
    (hRun :
      run (executeAll engine rules) s = (.error failure, u)) :
    FailsAt engine rules s failure u := by
  match rules with
  | [] =>
      rw [executeAll] at hRun
      cases hRun
  | r :: rest =>
      rw [executeAll, run_bind] at hRun
      rcases hFirst : run (execute engine r) s with ⟨first, t⟩
      rw [hFirst] at hRun
      cases first with
      | error cause =>
          cases hRun
          exact failsAt_of_execute hLenient r rest hFirst
      | ok outcome =>
          by_cases hGoesOn : outcome = .continue
          · subst hGoesOn
            rcases failsAt_of_executeAll hLenient rest hRun with
              ⟨met, ahead, w, write, e, hFaces, hFails⟩
            exact ⟨met, ahead, w, write, e,
              .later hFirst hFaces, hFails⟩
          · simp only [beq_iff_eq, hGoesOn, if_false] at hRun
            cases hRun

theorem failsAt_of_chain
    (hLenient : engine.Lenient)
    (c : Chain)
    {chosen : List Rule}
    {s t u : Stage}
    {failure : Failure}
    (hTaken :
      run (firstTrue engine c.final c.branches) s =
        (.ok chosen, t))
    (hRun :
      run (executeAll engine chosen) t = (.error failure, u)) :
    FailsAt engine chosen t failure u := by
  match c with
  | .branch test rules rest =>
      rcases run_firstTrue_cons hTaken with hSame | ⟨w, hRest⟩
      · rw [hSame] at hRun ⊢
        exact failsAt_of_executeAll hLenient rules hRun
      · exact failsAt_of_chain hLenient rest hRest hRun
  | .otherwise rules =>
      have hSame : chosen = rules := by
        cases hTaken
        rfl
      rw [hSame] at hRun ⊢
      exact failsAt_of_executeAll hLenient rules hRun
  | .nothing =>
      rw [Chain.final, Chain.branches, firstTrue] at hTaken
      cases hTaken
      rw [executeAll] at hRun
      cases hRun

end

/- A run that fails comes to a write that is denied. -/
theorem exists_denied
    (hLenient : engine.Lenient)
    {rules : List Rule}
    {failure : Failure}
    (hRun :
      run (executeAll engine rules) s = (.error failure, u)) :
    ∃ target name e ahead t v,
      Faces engine rules s (.setValue target name e) ahead t ∧
        run (valueOf engine e) t = (.ok v, u) ∧
        target.Denied name u.scope v ∧
        failure = target.refusal name := by
  rcases failsAt_of_executeAll hLenient rules hRun with
    ⟨met, ahead, t, w, e, hFaces, hWrite, hMet⟩
  rcases exists_value hLenient e t with ⟨v, x, hValue, _⟩
  rw [run_execute_of_refused hWrite hValue] at hMet
  rcases Writing.denied_of_error hMet with
    ⟨target, name, rfl, hDenied, rfl, rfl⟩
  cases met with
  | setValue target name e =>
      cases hWrite
      exact ⟨target, name, e, ahead, t, v, hFaces, hValue,
        hDenied, rfl⟩
  | _ => cases hWrite

/- Over an item no write is denied, and no run fails. -/
theorem exists_outcome_of_item
    (hLenient : engine.Lenient)
    (rules : List Rule)
    (hItem : s.scope.isTest = false) :
    ∃ outcome u,
      run (executeAll engine rules) s = (.ok outcome, u) := by
  rcases hRun : run (executeAll engine rules) s with ⟨r, u⟩
  cases r with
  | ok outcome => exact ⟨outcome, u, rfl⟩
  | error failure =>
      -- Over an item rules fail of a service alone.
      have hNone : s.scope.test = none := by
        simpa [Scope.isTest] using hItem
      have hSound := executeAll_sound engine rules s hNone
      rcases (hSound.of_run hRun).2 failure rfl with
        ⟨cause, rfl⟩
      rcases exists_denied hLenient hRun with
        ⟨target, name, e, ahead, t, v, _, _, _, hSame⟩
      cases target <;> cases hSame

------------------------------------------------------------
-- Main Theorem
------------------------------------------------------------

/-
  Over the variables of an item no run of rules fails. Over
  those of a test a run fails where it comes to a rule that
  sets a default or a correct value, of a variable for which
  such a rule may be and to a value that fits, and only there.
  Every other rule that a run comes to and whose value cannot
  be written leaves one warning beside what its expression
  leaves, keeps all variables and what overrides them, and the
  run goes on with the rules behind it. The exception is what
  a lookup table gives: it is written even where it does not
  fit, and nothing is said of it.
-/
theorem mismatches_reported
    (hLenient : engine.Lenient)
    (rules : List Rule)
    (s : Stage) :
    (s.scope.isTest = false →
      ∃ outcome u,
        run (executeAll engine rules) s = (.ok outcome, u)) ∧
    (∀ failure u,
      run (executeAll engine rules) s = (.error failure, u) ↔
        ∃ target name e ahead t v,
          Faces engine rules s (.setValue target name e) ahead
              t ∧
            run (valueOf engine e) t = (.ok v, u) ∧
            target.Denied name u.scope v ∧
            failure = target.refusal name) ∧
    ∀ met ahead t w e,
      Faces engine rules s met ahead t →
      met.write? = some (w, e) →
        ∃ v u,
          run (valueOf engine e) t = (.ok v, u) ∧
          u.scope = t.scope ∧
          (w.Mismatch u.scope v → ¬ w.Slips u.scope v →
            ∃ message,
              run (execute engine met) t =
                  (.ok .continue, u.warned message) ∧
                run (executeAll engine rules) s =
                  run (executeAll engine ahead)
                    (u.warned message)) ∧
          ∀ name d table,
            w = .lookup name →
            Writing.Unchecked name u.scope v d table →
              run (execute engine met) t =
                (.ok .continue,
                  { u with
                    scope := u.scope.putAt .values name
                      (d.coerce (d.lookup table v)) }) := by
  refine ⟨exists_outcome_of_item hLenient rules, ?_, ?_⟩
  · intro failure u
    constructor
    · exact exists_denied hLenient
    · rintro ⟨target, name, e, ahead, t, v, hFaces, hValue,
        hDenied, rfl⟩
      apply hFaces.run_error
      rw [run_execute_of_refused rfl hValue]
      exact hDenied.run_assign
  · intro met ahead t w e hFaces hWrite
    rcases exists_value hLenient e t with
      ⟨v, u, hValue, hSame⟩
    refine ⟨v, u, hValue, hSame, ?_, ?_⟩
    · intro hMismatch hFound
      rcases hMismatch.exists_warned hFound with
        ⟨message, hWarned⟩
      have hMet :=
        run_execute_of_apply hWrite hValue hWarned
      exact ⟨message, hMet, hFaces.run_ahead hMet⟩
    · rintro name d table rfl hUnchecked
      exact run_execute_of_apply hWrite hValue
        hUnchecked.run_apply

/-
  A number is no grade. The rule that would set it leaves a
  warning, and the rule behind it is executed.
-/
theorem mismatches_reported_number :
    ∃ d, Declaration.ofJson .outcome gradeOutcome = .ok d ∧
      let engine : Engine := ⟨{}, none⟩
      let number : Expression := .leaf (.base (.integer 1))
      engine.Lenient ∧
        ∃ message,
          run
              (executeAll engine
                [.setValue .outcome "GRADE" number,
                  .lookup "GRADE" number])
              (singleStage d) =
            run (executeAll engine [.lookup "GRADE" number])
              ((singleStage d).warned message) := by
  have hLenient : Engine.Lenient ⟨{}, none⟩ := .inl rfl
  let number : Expression := .leaf (.base (.integer 1))
  let later : List Rule := [.lookup "GRADE" number]
  have hWarned : ∀ d : Declaration,
      (singleStage d).scope.declaration? "GRADE" = some d →
      d.accepts (d.coerce (.integer 1)) = false →
        ∃ message,
          run
              (executeAll ⟨{}, none⟩
                (.setValue .outcome "GRADE" number :: later))
              (singleStage d) =
            run (executeAll ⟨{}, none⟩ later)
              ((singleStage d).warned message) := by
    intro d hDeclared hMisfit
    rcases
        (mismatches_reported hLenient _ (singleStage d)).2.2
          _ _ _ _ _
          (.here (.setValue .outcome "GRADE" number) later _)
          rfl with
      ⟨v, u, hValue, _, hWarns, _⟩
    cases hValue
    have hFound :
        ¬ (Writing.set .outcome "GRADE").Slips
          (singleStage d).scope (.integer 1) := by
      rintro ⟨hDenied⟩
      cases hDenied.isTest
    rcases hWarns (.misfit hDeclared hMisfit) hFound with
      ⟨message, _, hRun⟩
    exact ⟨message, hRun⟩
  exact ⟨_, rfl, hLenient, hWarned _ rfl rfl⟩

/- An outcome that may hold several grades. -/
def gradesOutcome : Json :=
  .ofMembers [
    ("identifier", .string "GRADE"),
    ("cardinality", .string "multiple"),
    ("baseType", .string "identifier"),
    ("lookupTable", .ofMembers [
      ("matchTable", .ofMembers [
        ("entries", .array [
          .ofMembers [("sourceValue", .int 1),
            ("targetValue", .string "pass")]])])])]

/-
  A default that fits an outcome of a test ends the run with a
  failure instead of a warning. And an outcome that may hold
  several grades is given a single one without a warning.
-/
theorem mismatches_slip_through :
    (∃ d, Declaration.ofJson .outcome gradeOutcome = .ok d ∧
      let s : Stage :=
        { singleStage d with
          scope :=
            { (singleStage d).scope with
              test := some ⟨[], []⟩ } }
      let grade : Value := .identifier "pass"
      let left :=
        run
          (executeAll ⟨{}, none⟩
            [.setValue .defaultValue "GRADE"
              (.leaf (.base grade)), .exit .test]) s
      (Writing.set .defaultValue "GRADE").Mismatch s.scope
          grade ∧
        left.1 = .error (.mismatch (.fixedDefault "GRADE")) ∧
        left.2.tally.notes = []) ∧
    ∃ d, Declaration.ofJson .outcome gradesOutcome = .ok d ∧
      let s := singleStage d
      let left :=
        run
          (executeAll ⟨{}, none⟩
            [.lookup "GRADE" (.leaf (.base (.integer 1)))]) s
      (Writing.lookup "GRADE").Mismatch s.scope (.integer 1) ∧
        left.2.scope.value? "GRADE" =
          some (.identifier "pass") ∧
        left.2.tally.notes = [] := by
  refine ⟨⟨_, rfl, ?_, rfl, rfl⟩, _, rfl, ?_, rfl, rfl⟩
  · exact .fixed rfl (by decide)
  · exact .misfitFound rfl rfl rfl

end Rule

end Assessment
