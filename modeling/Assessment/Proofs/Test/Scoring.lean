import Assessment.Proofs.Rule.Agreement
import Assessment.Proofs.Test.Course
import Assessment.Proofs.Test.Frame

/-
  Outcomes of a test that forget.

  Outcome processing starts from the defaults of the outcomes,
  so that what they were before has no part in what they
  become. An outcome that bears the name of a built-in
  variable is not set back: it keeps what it was unless a rule
  writes to it, and rules can add to it.

  Main declarations:
    * `TestSession.unscored`, what outcome rules begin with
    * `TestSession.run_processOutcomes`
    * `TestSession.outcomes_forgotten`, for two sessions and
      for one that is processed again
-/

------------------------------------------------------------
-- Outcome Processing
------------------------------------------------------------

namespace Assessment

open Stateful

namespace TestSession

variable {s t : TestSession}

/- The outcomes that are set back before they are processed. -/
def resettable (t : Test) : List Declaration :=
  t.declarations.filter fun d =>
    !Builtin.isBuiltin d.identifier

/- The stage that outcome rules begin with. -/
def unscored (s : TestSession) : Stage :=
  { scope := {
      s.scope with
      values :=
        (resettable s.test).foldl
          (fun b d => b.put d.identifier d.initial)
          s.state.values }
    tally := s.tally }

/- The session that outcome rules leave behind. -/
def scored (s : TestSession) (u : Stage) : TestSession :=
  { s with
    tally := u.tally
    events :=
      s.events ++ [.starting .testOutcomeProcessing] ++
        [.finished .testOutcomeProcessing]
    state := { s.state with values := u.scope.values } }

/- The outcomes are set back, and then the rules are run. -/
theorem ends_processOutcomes
    (hInit : s.state.initialized = true)
    (Q : Except Failure Unit → TestSession → Prop) :
    Ends processOutcomes s Q ↔
      Ends (Rule.executeAll s.engine s.test.outcomeProcessing)
        s.unscored fun r u =>
          Q (r.map fun _ => ()) (s.scored u) := by
  rw [processOutcomes, ends_bind, ends_ensureInitialized,
    if_pos hInit]
  dsimp only
  rw [ends_announced, ends_get_bind, ends_bind,
    ends_changeState]
  dsimp only
  rw [ends_bind, ends_runRules]
  apply ends_congr
  intro r u
  cases r <;> exact Iff.rfl

/- What outcome rules give and leave. -/
def ran (s : TestSession) : Except Failure Outcome × Stage :=
  Stateful.run
    (Rule.executeAll s.engine s.test.outcomeProcessing)
    s.unscored

theorem run_processOutcomes
    (hInit : s.state.initialized = true) :
    Stateful.run processOutcomes s =
      (s.ran.1.map fun _ => (), s.scored s.ran.2) :=
  (ends_processOutcomes hInit fun r u =>
    (r, u) = (s.ran.1.map fun _ => (), s.scored s.ran.2)).mpr rfl

/- Outcome rules write to declared outcomes alone. -/
theorem ran_changesAt (s : TestSession) :
    s.unscored.scope.ChangesAt
      (Rule.WritesTo s.test.outcomeProcessing) s.ran.2.scope :=
  Rule.executeAll_changesAt s.engine (fun _ _ h => h) s.unscored

/- The values of outcomes are those that the rules leave. -/
theorem value?_scored (s : TestSession) (name : String) :
    (s.scored s.ran.2).value? name =
      s.ran.2.scope.value? name := by
  unfold Scope.value? Scope.declaration?
  rw [s.ran_changesAt.declarations]
  rfl

------------------------------------------------------------
-- Earlier Outcomes
------------------------------------------------------------

/- A declared outcome is set back unless it is a built-in. -/
theorem mem_resettable
    {t : Test}
    {name : String}
    (hDeclared : (t.declaration? name).isSome = true)
    (hOwn : Builtin.isBuiltin name = false) :
    name ∈ (resettable t).map Declaration.identifier := by
  obtain ⟨d, hFound⟩ := Option.isSome_iff_exists.mp hDeclared
  have hName : d.identifier = name := by
    simpa using List.find?_some hFound
  subst hName
  apply List.mem_map_of_mem
  exact List.mem_filter.mpr
    ⟨List.mem_of_find?_eq_some hFound, by simp [hOwn]⟩

theorem isBuiltin_eq_false_of_mem
    {t : Test}
    {name : String}
    (hMem : name ∈ (resettable t).map Declaration.identifier) :
    Builtin.isBuiltin name = false := by
  obtain ⟨d, hReset, rfl⟩ := List.mem_map.mp hMem
  simpa using (List.mem_filter.mp hReset).2

/- An outcome of a test bears the name of a built-in variable. -/
def NamesBuiltin (t : Test) (name : String) : Prop :=
  Builtin.isBuiltin name = true ∧
    (t.declaration? name).isSome = true

/-
  Two sessions on a test with the same items, in which the
  outcomes named as built-in variables are the same.
-/
structure SameBeneath (s t : TestSession) : Prop where
  test : t.test = s.test
  engine : t.engine = s.engine
  entries : t.entries = s.entries
  draws : t.tally.draws = s.tally.draws
  builtins :
    ∀ name, NamesBuiltin s.test name →
      t.state.values.get? name = s.state.values.get? name

/- Outcome rules cannot tell such sessions apart. -/
theorem SameBeneath.unscored (hSame : s.SameBeneath t) :
    Stage.Alike s.tally.notes t.tally.notes
      s.unscored t.unscored := by
  refine ⟨⟨?_, ?_⟩, Tally.beside_of_draws hSame.draws⟩
  · simp only [TestSession.unscored, scope, hSame.test,
      hSame.entries]
  · intro name hDeclared
    simp only [TestSession.unscored, hSame.test]
    apply Keyed.get?_foldl_put_congr Declaration.initial
    intro hKept
    refine hSame.builtins name ⟨?_, hDeclared⟩
    by_contra hOwn
    apply hKept
    exact mem_resettable hDeclared (by simpa using hOwn)

/- The result and the outcomes are the same in both. -/
theorem SameBeneath.processed
    (hSame : s.SameBeneath t)
    (hInit : s.state.initialized = true)
    (hInit' : t.state.initialized = true) :
    (Stateful.run processOutcomes t).1 =
        (Stateful.run processOutcomes s).1 ∧
      ∀ name,
        (Stateful.run processOutcomes t).2.value? name =
          (Stateful.run processOutcomes s).2.value? name := by
  have hBoth :=
    Rule.executeAll_agrees s.engine s.test.outcomeProcessing
      _ _ hSame.unscored
  have hRan :
      t.ran.1 = s.ran.1 ∧
        Stage.Alike s.tally.notes t.tally.notes s.ran.2
          t.ran.2 := by
    unfold ran
    rw [hSame.engine, hSame.test]
    exact hBoth
  rw [run_processOutcomes hInit, run_processOutcomes hInit']
  refine ⟨?_, fun name => ?_⟩
  · dsimp only
    rw [hRan.1]
  · dsimp only
    rw [value?_scored, value?_scored]
    exact hRan.2.scope.value? name

/- A built-in name that no rule writes to keeps its value. -/
theorem builtin_kept
    {name : String}
    (hInit : s.state.initialized = true)
    (hBuiltin : Builtin.isBuiltin name = true)
    (hUnwritten :
      ¬ Rule.WritesTo s.test.outcomeProcessing .values name) :
    (Stateful.run processOutcomes s).2.state.values.get? name =
      s.state.values.get? name := by
  rw [run_processOutcomes hInit]
  refine (s.ran_changesAt.elsewhere .values name
    fun h => hUnwritten h.1).trans ?_
  apply Keyed.get?_foldl_put_of_notMem Declaration.initial
  intro hMem
  rw [isBuiltin_eq_false_of_mem hMem] at hBuiltin
  cases hBuiltin

------------------------------------------------------------
-- Processing Again
------------------------------------------------------------

/- The session with other draws to come. -/
def redrawn (s : TestSession) (draws : Draws) : TestSession :=
  { s with tally := { s.tally with draws := draws } }

/-
  For any two sessions on a test with the same items and the
  same draws to come, outcome processing has one result and
  gives the same value to every outcome, if those named as
  built-in variables were the same before. So it is the same
  to process twice as to process once, if the first time left
  these as they were, and it does so where no rule writes to
  them.
-/
theorem outcomes_forgotten
    {s : TestSession}
    (hInit : s.state.initialized = true) :
    let u := (Stateful.run processOutcomes s).2
    let again :=
      Stateful.run processOutcomes (u.redrawn s.tally.draws)
    (∀ t, t.state.initialized = true → s.SameBeneath t →
      (Stateful.run processOutcomes t).1 =
          (Stateful.run processOutcomes s).1 ∧
        ∀ name,
          (Stateful.run processOutcomes t).2.value? name =
            u.value? name) ∧
    ((∀ name, NamesBuiltin s.test name →
        u.state.values.get? name = s.state.values.get? name) →
      again.1 = (Stateful.run processOutcomes s).1 ∧
        ∀ name, again.2.value? name = u.value? name) ∧
    (∀ name, NamesBuiltin s.test name →
      ¬ Rule.WritesTo s.test.outcomeProcessing .values name →
      u.state.values.get? name =
        s.state.values.get? name) := by
  intro u again
  have hU : u = s.scored s.ran.2 :=
    congrArg Prod.snd (run_processOutcomes hInit)
  refine ⟨fun t hInit' hSame => hSame.processed hInit hInit',
    fun hKept => ?_,
    fun name hNames => builtin_kept hInit hNames.1⟩
  have hSame : s.SameBeneath (u.redrawn s.tally.draws) := by
    refine ⟨?_, ?_, ?_, rfl, hKept⟩
    · rw [hU]
      rfl
    · rw [hU]
      rfl
    · rw [hU]
      rfl
  apply hSame.processed hInit
  rw [hU]
  exact hInit

/- A rule that adds one to an outcome. -/
def raisingRule (name : String) : Rule :=
  .setValue .outcome name
    (.node (.plain .sum)
      [.leaf (.fetch name none), .leaf (.base (.integer 1))])

/- An outcome that counts from zero. -/
def countingOutcome (name : String) : Declaration where
  identifier := name
  cardinality := .single
  baseType := some .integer
  defaultValue := some (.integer 0)
  detail := .outcome Builtin.plainOutcome

/- A test that raises two outcomes, one named as a built-in. -/
def raisingTest : Test where
  identifier := "test"
  title := none
  outcomes := [
    countingOutcome "TOTAL",
    countingOutcome Builtin.completionStatus]
  timeLimits := none
  parts := [blankPart "only"]
  outcomeProcessing := [
    raisingRule "TOTAL",
    raisingRule Builtin.completionStatus]
  feedbacks := []

/- The session when it has come to a total. -/
def withTotal (s : TestSession) (total : Int64) : TestSession :=
  { s with
    state := {
      s.state with
      values := s.state.values.put "TOTAL" (.integer total) } }

/- What a session on the test comes to. -/
theorem raising_outcomes :
    ∃ first : TestSession,
      start raisingTest [("blank", blankItem)] ⟨{}, none⟩
        default = .ok first ∧
      first.test = raisingTest ∧
      ∃ s, s = first.after [.initialise] ∧
        s.state.initialized = true ∧
        ((Stateful.run processOutcomes
          (s.withTotal 5)).2.value? "TOTAL").bind
            Value.int64? = some 1 ∧
        ((Stateful.run processOutcomes s).2.value?
          Builtin.completionStatus).bind Value.int64? = some 1 ∧
        ((Stateful.run processOutcomes
          ((Stateful.run processOutcomes s).2.redrawn
            s.tally.draws)).2.value?
              Builtin.completionStatus).bind
                Value.int64? = some 2 := by
  refine ⟨_, rfl, rfl, _, rfl, ?_, ?_, ?_, ?_⟩
  · decide +kernel
  · decide +kernel
  · decide +kernel
  · decide +kernel

/- A total of five is raised to one, as none at all is. -/
theorem outcomes_forgotten_total :
    ∃ first : TestSession,
      start raisingTest [("blank", blankItem)] ⟨{}, none⟩
        default = .ok first ∧
      ∃ s, s = first.after [.initialise] ∧
        (Stateful.run processOutcomes
            (s.withTotal 5)).2.value? "TOTAL" =
          (Stateful.run processOutcomes s).2.value? "TOTAL" ∧
        ((Stateful.run processOutcomes
          (s.withTotal 5)).2.value? "TOTAL").bind
            Value.int64? = some 1 := by
  obtain ⟨first, hStart, _, s, hState, hInit, hTotal, _⟩ :=
    raising_outcomes
  refine ⟨first, hStart, s, hState, ?_, hTotal⟩
  refine ((outcomes_forgotten hInit).1 (s.withTotal 5) hInit
    ⟨rfl, rfl, rfl, rfl, ?_⟩).2 "TOTAL"
  intro name hNames
  apply Keyed.get?_put_of_ne
  rintro rfl
  exact absurd hNames.1 (by decide)

/-
  Two sessions on a test with the same items, the same draws to
  come and the same time spent give the same values to their
  outcomes.
-/
def Forgets (s : TestSession) : Prop :=
  ∀ t : TestSession,
    t.state.initialized = true → t.test = s.test →
    t.engine = s.engine → t.entries = s.entries →
    t.tally.draws = s.tally.draws →
    t.state.values.get? Builtin.duration =
      s.state.values.get? Builtin.duration →
    ∀ name,
      (Stateful.run processOutcomes t).2.value? name =
        (Stateful.run processOutcomes s).2.value? name

/- An outcome named as a built-in is raised time and again. -/
theorem builtin_outcome_grows :
    ¬ ∀ (t : Test) (items : Keyed Item) (engine : Engine)
        (draws : Draws) (first : TestSession),
        start t items engine draws = .ok first →
          ∀ calls,
            (first.after calls).state.initialized = true →
              (first.after calls).Forgets := by
  intro hClaim
  obtain ⟨first, hStart, hTest, s, hState, hInit, _, hOnce,
    hTwice⟩ := raising_outcomes
  have hForgets := hClaim _ _ _ _ first hStart [.initialise]
  rw [← hState] at hForgets
  have hRun := congrArg Prod.snd (run_processOutcomes hInit)
  have hDuration :
      (Stateful.run processOutcomes s).2.state.values.get?
          Builtin.duration =
        s.state.values.get? Builtin.duration := by
    apply builtin_kept hInit (by decide)
    rw [hState, after_test, hTest]
    decide
  have hSame :=
    hForgets hInit
      ((Stateful.run processOutcomes s).2.redrawn s.tally.draws)
      (by rw [hRun]; exact hInit) (by rw [hRun]; rfl)
      (by rw [hRun]; rfl) (by rw [hRun]; rfl) rfl hDuration
      Builtin.completionStatus
  rw [hSame, hOnce] at hTwice
  cases hTwice

end TestSession

end Assessment
