import Assessment.Proofs.Expression.Parts
import Assessment.Proofs.Rule.Footprint

/-
  Evaluations and rules that agree.

  An evaluation reads the variables of its scope, and draws
  and notes. Where the same is read and the same is drawn, its
  result is the same and the same notes are added, whatever
  had been noted before.

  Rules read the variables and write to them. Over the same
  variables, with the same bound to each, they take the same
  branches and write the same values, however the run ends.

  Main declarations:
    * `Agrees`, a computation from related states
    * `Scope.Alike`, scopes in which the same is read
    * `Tally.Beside`, tallies to which the same is added
    * `Expression.evaluate_alike` and
      `Expression.evaluate_agrees`
    * `Scope.put_keepsAlike`, on writes
    * `Keyed.get?_foldl_put_congr`, on resets
    * `Stage.Alike`, stages that rules cannot tell apart
    * `Rule.executeAll_agrees`
-/

------------------------------------------------------------
-- Agreement
------------------------------------------------------------

namespace Assessment

namespace Stateful

variable {σ α β : Type}

/-
  Begun in related states, a computation has one result and
  leaves related states.
-/
def Agrees (R : σ → σ → Prop) (x : Stateful σ α) : Prop :=
  ∀ s t, R s t →
    (run x t).1 = (run x s).1 ∧ R (run x s).2 (run x t).2

namespace Agrees

variable {R : σ → σ → Prop}

theorem pure (a : α) :
    Agrees R (Pure.pure a : Stateful σ α) :=
  fun _ _ hRelated => ⟨rfl, hRelated⟩

theorem throw (e : Failure) :
    Agrees R (MonadExcept.throw e : Stateful σ α) :=
  fun _ _ hRelated => ⟨rfl, hRelated⟩

/- The second part goes on from one result on both sides. -/
theorem bind
    {x : Stateful σ α}
    {f : α → Stateful σ β}
    (hFirst : Agrees R x)
    (hThen : ∀ a, Agrees R (f a)) :
    Agrees R (x >>= f) := by
  intro s t hRelated
  have hBoth := hFirst s t hRelated
  rw [run_bind, run_bind]
  cases hS : run x s with
  | mk r s' =>
      cases hT : run x t with
      | mk r' t' =>
          rw [hS, hT] at hBoth
          obtain ⟨hResult, hLeft⟩ := hBoth
          dsimp only at hResult hLeft
          subst hResult
          cases r' with
          | error e => exact ⟨rfl, hLeft⟩
          | ok a => exact hThen a s' t' hLeft

theorem closed :
    Closed fun _ (x : Stateful σ _) => Agrees R x :=
  ⟨Agrees.pure, Agrees.bind⟩

end Agrees

end Stateful

open Stateful

------------------------------------------------------------
-- Scopes
------------------------------------------------------------

/-
  Two scopes differ in values alone, and not in those of
  variables that are declared.
-/
structure Scope.Alike (s t : Scope) : Prop where
  rest : t = { s with values := t.values }
  values :
    ∀ name, (s.declaration? name).isSome = true →
      t.values.get? name = s.values.get? name

namespace Scope.Alike

variable {s t : Scope}

theorem source (hAlike : s.Alike t) : t.source = s.source := by
  rw [hAlike.rest]

theorem declarations (hAlike : s.Alike t) :
    t.declarations = s.declarations := by
  rw [hAlike.rest]

theorem test (hAlike : s.Alike t) : t.test = s.test := by
  rw [hAlike.rest]

theorem declaration? (hAlike : s.Alike t) (name : String) :
    t.declaration? name = s.declaration? name := by
  unfold Scope.declaration?
  rw [hAlike.declarations]

/- What is read of a variable is the same. -/
theorem value? (hAlike : s.Alike t) (name : String) :
    t.value? name = s.value? name := by
  unfold Scope.value?
  rw [hAlike.declaration? name]
  cases hFound : s.declaration? name with
  | none => rfl
  | some d =>
      have hDeclared : (s.declaration? name).isSome = true := by
        rw [hFound]
        rfl
      rw [hAlike.values name hDeclared]

theorem default? (hAlike : s.Alike t) (name : String) :
    t.default? name = s.default? name := by
  rw [hAlike.rest]
  rfl

theorem correct? (hAlike : s.Alike t) (name : String) :
    t.correct? name = s.correct? name := by
  rw [hAlike.rest]
  rfl

end Scope.Alike

------------------------------------------------------------
-- Values
------------------------------------------------------------

variable {engine : Engine}
variable {s t : Scope}

theorem readVariable_alike
    (hAlike : s.Alike t)
    (identifier : String)
    (weight : Option String) :
    readVariable t identifier weight =
      readVariable s identifier weight := by
  simp only [readVariable, orWarn, hAlike.source, hAlike.test,
    hAlike.value? identifier]

theorem score_alike
    {α : Type}
    (hAlike : s.Alike t)
    (name identifier lacking : String)
    (scoring? : Declaration → Option α)
    (apply : α → Declaration → Value → Value) :
    score t name identifier lacking scoring? apply =
      score s name identifier lacking scoring? apply := by
  simp only [score, hAlike.source,
    hAlike.declaration? identifier, hAlike.value? identifier]

theorem Leaf.evaluate_alike
    (hAlike : s.Alike t)
    (l : Leaf) :
    l.evaluate engine t = l.evaluate engine s := by
  cases l with
  | base v => rfl
  | null => rfl
  | fetch identifier weight => exact readVariable_alike hAlike _ _
  | initial identifier =>
      simp only [evaluate, orWarn, hAlike.source,
        hAlike.default? identifier]
  | correct identifier =>
      simp only [evaluate, orWarn, hAlike.source,
        hAlike.correct? identifier]
  | mapResponse identifier => exact score_alike hAlike _ _ _ _ _
  | mapPoints identifier => exact score_alike hAlike _ _ _ _ _
  | randomInteger min max step => rfl
  | randomFloat min max => rfl
  | constant c => simp only [evaluate, hAlike.source]
  | items x => simp only [evaluate, hAlike.source, hAlike.test]

namespace Expression

theorem evaluateAll_alike
    {es : List Expression}
    (hEach :
      ∀ e ∈ es, evaluate engine t e = evaluate engine s e) :
    evaluateAll engine t es = evaluateAll engine s es := by
  induction es with
  | nil => rfl
  | cons e rest ih =>
      have hFirst := hEach e List.mem_cons_self
      have hRest := ih fun e' hMem =>
        hEach e' (List.mem_cons_of_mem e hMem)
      rw [evaluateAll, evaluateAll, hFirst, hRest]

/-
  Induction over the expression. In scopes that are alike it
  is evaluated in one way.
-/
theorem evaluate_alike
    (hAlike : s.Alike t)
    (e : Expression) :
    evaluate engine t e = evaluate engine s e := by
  induction e using inductionOn with
  | leaf l =>
      rw [evaluate, evaluate]
      exact l.evaluate_alike hAlike
  | node op args ih =>
      rw [evaluate, evaluate, evaluateAll_alike ih, hAlike.source]

end Expression

------------------------------------------------------------
-- Tallies
------------------------------------------------------------

/-
  Two tallies with the same draws to come. The same notes have
  been added in both, after those that each began with.
-/
structure Tally.Beside (n m : List Note) (t u : Tally) : Prop where
  draws : u.draws = t.draws
  notes : ∃ more, t.notes = n ++ more ∧ u.notes = m ++ more

/- Tallies with the same draws stand beside each other. -/
theorem Tally.beside_of_draws
    {t u : Tally}
    (hDraws : u.draws = t.draws) :
    Tally.Beside t.notes u.notes t u where
  draws := hDraws
  notes := ⟨[], by simp, by simp⟩

namespace Step

variable {α : Type}
variable {n m : List Note}

theorem note_agrees (x : Note) :
    Agrees (Tally.Beside n m) (note x) := by
  rintro t u ⟨hDraws, more, hFirst, hSecond⟩
  refine ⟨rfl, hDraws, more ++ [x], ?_, ?_⟩
  · rw [← List.append_assoc, ← hFirst]
    rfl
  · rw [← List.append_assoc, ← hSecond]
    rfl

theorem draw_agrees
    (f : Draws → Except Failure (α × Draws)) :
    Agrees (Tally.Beside n m) (draw f) := by
  rintro t u ⟨hDraws, hNotes⟩
  simp only [Stateful.run, draw, ExceptT.run, ExceptT.mk,
    StateT.run]
  rw [hDraws]
  cases f t.draws with
  | ok r => exact ⟨rfl, rfl, hNotes⟩
  | error e => exact ⟨rfl, hDraws, hNotes⟩

theorem take_agrees (f : Draws → α × Draws) :
    Agrees (Tally.Beside n m) (take f) := by
  rintro t u ⟨hDraws, hNotes⟩
  refine ⟨?_, ?_, hNotes⟩
  · change Except.ok (f u.draws).1 = .ok (f t.draws).1
    rw [hDraws]
  · change (f u.draws).2 = (f t.draws).2
    rw [hDraws]

end Step

/- Earlier notes have no part in an evaluation. -/
theorem Expression.evaluate_agrees
    {n m : List Note}
    (scope : Scope)
    (e : Expression) :
    Agrees (Tally.Beside n m) (e.evaluate engine scope) := by
  apply evaluate_partsIn Agrees.closed
  constructor
  · exact fun _ _ _ => Step.note_agrees _
  · exact Step.take_agrees
  · exact fun f _ => Step.draw_agrees f
  · exact fun _ _ => Agrees.throw _

------------------------------------------------------------
-- Writes
------------------------------------------------------------

open Stateful

variable {s t : Scope}

/- The same value is put in both scopes. -/
theorem Scope.Alike.putAt
    (hAlike : s.Alike t)
    (store : Store)
    (name : String)
    (v : Value) :
    (s.putAt store name v).Alike (t.putAt store name v) := by
  have hRest := hAlike.rest
  cases store with
  | values =>
      constructor
      · rw [hRest]
        rfl
      · intro other hDeclared
        by_cases hName : other = name
        · subst hName
          exact (Keyed.get?_put_self _ _ _).trans
            (Keyed.get?_put_self _ _ _).symm
        · change (t.values.put name v).get? other =
            (s.values.put name v).get? other
          rw [Keyed.get?_put_of_ne hName,
            Keyed.get?_put_of_ne hName]
          exact hAlike.values other hDeclared
  | defaults =>
      constructor
      · rw [hRest]
        rfl
      · exact hAlike.values
  | corrects =>
      constructor
      · rw [hRest]
        rfl
      · exact hAlike.values

/-
  A change to scopes that are alike fails in both for one
  cause, or leaves scopes that are alike.
-/
def Scope.KeepsAlike (f : Scope → Except Failure Scope) : Prop :=
  ∀ s t, s.Alike t →
    (∃ e, f s = .error e ∧ f t = .error e) ∨
      ∃ s' t', f s = .ok s' ∧ f t = .ok t' ∧ s'.Alike t'

namespace Scope

theorem ifDeclared_keepsAlike
    (store : Store)
    (name : String)
    (v : Value) :
    KeepsAlike fun s => s.ifDeclared name (s.putAt store name v) := by
  intro s t hAlike
  simp only [ifDeclared, hAlike.declaration? name]
  cases s.declaration? name with
  | none => exact Or.inl ⟨_, rfl, rfl⟩
  | some d => exact Or.inr ⟨_, _, rfl, rfl, hAlike.putAt _ _ _⟩

/- Whether a target can be put is seen from the variables. -/
theorem put_keepsAlike
    (target : SetTarget)
    (name : String)
    (v : Value) :
    KeepsAlike (target.put name v) := by
  intro s t hAlike
  have hPut := fun store =>
    ifDeclared_keepsAlike store name v s t hAlike
  have hTest : t.isTest = s.isTest := by
    unfold isTest
    rw [hAlike.test]
  cases target with
  | outcome => exact hPut .values
  | response => exact hPut .values
  | template => exact hPut .values
  | defaultValue =>
      simp only [SetTarget.put, setDefault, hTest]
      split
      · exact Or.inl ⟨_, rfl, rfl⟩
      · exact hPut .defaults
  | correctResponse =>
      simp only [SetTarget.put, setCorrect, hTest]
      split
      · exact Or.inl ⟨_, rfl, rfl⟩
      · exact hPut .corrects

end Scope

------------------------------------------------------------
-- Resets
------------------------------------------------------------

/- What is reset does not show what was bound before. -/
theorem Keyed.get?_foldl_put_congr
    (f : Declaration → Value)
    (ds : List Declaration)
    {b c : Bindings}
    {name : String}
    (hElsewhere :
      name ∉ ds.map Declaration.identifier →
        c.get? name = b.get? name) :
    (ds.foldl (fun b d => b.put d.identifier (f d)) c).get?
        name =
      (ds.foldl (fun b d => b.put d.identifier (f d)) b).get?
        name := by
  induction ds generalizing b c with
  | nil => exact hElsewhere (by simp)
  | cons d rest ih =>
      rw [List.foldl_cons, List.foldl_cons]
      apply ih
      intro hLater
      by_cases hName : name = d.identifier
      · subst hName
        rw [Keyed.get?_put_self, Keyed.get?_put_self]
      · rw [Keyed.get?_put_of_ne hName,
          Keyed.get?_put_of_ne hName]
        exact hElsewhere (by simp [hName, hLater])

/- What is not reset is kept. -/
theorem Keyed.get?_foldl_put_of_notMem
    (f : Declaration → Value)
    {ds : List Declaration}
    {name : String}
    (hElsewhere : name ∉ ds.map Declaration.identifier)
    (b : Bindings) :
    (ds.foldl (fun b d => b.put d.identifier (f d)) b).get?
        name =
      b.get? name := by
  induction ds generalizing b with
  | nil => rfl
  | cons d rest ih =>
      rw [List.map_cons, List.mem_cons, not_or] at hElsewhere
      rw [List.foldl_cons, ih hElsewhere.2]
      exact Keyed.get?_put_of_ne hElsewhere.1 _ _

------------------------------------------------------------
-- Stages
------------------------------------------------------------

/-
  Two stages with variables alike and tallies to which the
  same is added.
-/
structure Stage.Alike (n m : List Note) (s t : Stage) : Prop where
  scope : s.scope.Alike t.scope
  tally : Tally.Beside n m s.tally t.tally

variable {α : Type}
variable {n m : List Note}

namespace Run

theorem step_agrees
    {f : Scope → Step α}
    (hRead : ∀ s t, s.Alike t → f t = f s)
    (hStep : ∀ s, Agrees (Tally.Beside n m) (f s)) :
    Agrees (Stage.Alike n m) (step f) := by
  intro s t hAlike
  have hSame := hRead s.scope t.scope hAlike.scope
  have hBoth := hStep s.scope s.tally t.tally hAlike.tally
  refine ⟨?_, hAlike.scope, ?_⟩
  · change (Stateful.run (f t.scope) t.tally).1 =
      (Stateful.run (f s.scope) s.tally).1
    rw [hSame]
    exact hBoth.1
  · change Tally.Beside n m
      (Stateful.run (f s.scope) s.tally).2
      (Stateful.run (f t.scope) t.tally).2
    rw [hSame]
    exact hBoth.2

theorem warn_agrees (message : String) :
    Agrees (Stage.Alike n m) (warn message) := by
  apply step_agrees
  · intro s t hAlike
    rw [hAlike.source]
  · exact fun s => Step.note_agrees _

theorem write_agrees
    {f : Scope → Except Failure Scope}
    (hKeeps : Scope.KeepsAlike f) :
    Agrees (Stage.Alike n m) (write f) := by
  intro s t hAlike
  rcases hKeeps s.scope t.scope hAlike.scope with
    ⟨e, hS, hT⟩ | ⟨s', t', hS, hT, hLeft⟩
  · have hFirst : Ends (write f) s fun r u =>
        r = .error e ∧ u = s := by
      rw [ends_write, hS]
      exact ⟨rfl, rfl⟩
    have hSecond : Ends (write f) t fun r u =>
        r = .error e ∧ u = t := by
      rw [ends_write, hT]
      exact ⟨rfl, rfl⟩
    rw [hFirst.1, hFirst.2, hSecond.1, hSecond.2]
    exact ⟨rfl, hAlike⟩
  · have hFirst : Ends (write f) s fun r u =>
        r = .ok () ∧ u = { s with scope := s' } := by
      rw [ends_write_ok hS]
      exact ⟨rfl, rfl⟩
    have hSecond : Ends (write f) t fun r u =>
        r = .ok () ∧ u = { t with scope := t' } := by
      rw [ends_write_ok hT]
      exact ⟨rfl, rfl⟩
    rw [hFirst.1, hFirst.2, hSecond.1, hSecond.2]
    exact ⟨rfl, hLeft, hAlike.tally⟩

/- What follows the reading of a scope may depend on it. -/
theorem scope_bind_agrees
    {f : Scope → Run α}
    (hSame : ∀ s t, s.Alike t → f t = f s)
    (hThen : ∀ s, Agrees (Stage.Alike n m) (f s)) :
    Agrees (Stage.Alike n m) (scope >>= f) := by
  intro s t hAlike
  change
    (Stateful.run (f t.scope) t).1 =
        (Stateful.run (f s.scope) s).1 ∧
      Stage.Alike n m
        (Stateful.run (f s.scope) s).2
        (Stateful.run (f t.scope) t).2
  rw [hSame s.scope t.scope hAlike.scope]
  exact hThen s.scope s t hAlike

end Run

------------------------------------------------------------
-- Rules
------------------------------------------------------------

theorem SetTarget.assign_agrees
    (target : SetTarget)
    (identifier : String)
    (v : Value) :
    Agrees (Stage.Alike n m) (target.assign identifier v) := by
  apply Run.scope_bind_agrees
  · intro s t hAlike
    rw [hAlike.declaration? identifier]
  · intro s
    split
    · exact Run.write_agrees (Scope.put_keepsAlike target _ _)
    · exact Run.warn_agrees _

/- A lookup writes as an assignment to an outcome does. -/
theorem assignLookup_agrees
    (identifier : String)
    (source : Value) :
    Agrees (Stage.Alike n m)
      (assignLookup identifier source) := by
  apply Run.scope_bind_agrees
  · intro s t hAlike
    rw [hAlike.declaration? identifier]
  · intro s
    split
    · exact Run.warn_agrees _
    · split
      · exact Run.warn_agrees _
      · exact Run.write_agrees (Scope.put_keepsAlike .outcome _ _)

/-
  From stages that are alike, rules come to one outcome and
  leave stages that are alike.
-/
theorem Rule.executeAll_agrees
    (engine : Engine)
    (rules : List Rule) :
    Agrees (Stage.Alike n m) (executeAll engine rules) := by
  apply executeAll_closed Agrees.closed
  constructor
  · intro e
    apply Run.step_agrees
    · exact fun _ _ hAlike => e.evaluate_alike hAlike
    · exact fun _ => e.evaluate_agrees _
  · exact fun target identifier _ =>
      target.assign_agrees identifier
  · exact fun identifier _ => assignLookup_agrees identifier

------------------------------------------------------------
-- Traces
------------------------------------------------------------

/-
  Scopes that are alike have the same bindings, if undeclared
  names were bound alike before: these have not changed.
-/
theorem Scope.Alike.get?_values
    {P : Store → String → Prop}
    {u v : Scope}
    (hAlike : u.Alike v)
    (hFirst : s.ChangesAt P u)
    (hSecond : t.ChangesAt P v)
    (hUndeclared :
      ∀ name, ¬ (s.declaration? name).isSome = true →
        t.values.get? name = s.values.get? name)
    (name : String) :
    v.values.get? name = u.values.get? name := by
  by_cases hDeclared : (u.declaration? name).isSome = true
  · exact hAlike.values name hDeclared
  · have hNotFirst : ¬ (s.declaration? name).isSome = true := by
      rw [← hFirst.declaration?_eq name]
      exact hDeclared
    have hNotSecond : ¬ (t.declaration? name).isSome = true := by
      rw [← hSecond.declaration?_eq name,
        hAlike.declaration? name]
      exact hDeclared
    calc
      v.values.get? name = t.values.get? name :=
        hSecond.elsewhere .values name fun h => hNotSecond h.2
      _ = s.values.get? name := hUndeclared name hNotFirst
      _ = u.values.get? name :=
        (hFirst.elsewhere .values name fun h =>
          hNotFirst h.2).symm

end Assessment
