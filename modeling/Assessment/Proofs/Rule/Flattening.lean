import Assessment.Proofs.Rule.Execution

/-
  Rules as one list.

  Conditions and fragments hold lists of rules, and a run goes
  through them as if they stood in the list around them. A
  fragment may be replaced by its rules, and a condition by
  the rules of the branch that it comes to. So an exit rule or
  a constraint that fails ends the whole run, however deep in
  the rules it is met.

  Main declarations:
    * `Rule.executeAll_append`
    * `Rule.executeAll_fragment`, for fragments
    * `Rule.firstTrue`, the branch that a condition comes to,
      with `Rule.executeAll_condition`
    * `Rule.Meets`, a rule that a run comes to, and
      `Rule.Stops`, a rule that ends a run
    * `Rule.runs_flatten`
-/

------------------------------------------------------------
-- Lists of Rules
------------------------------------------------------------

namespace Assessment

open Stateful

/- The conditions of a chain with the rules they guard. -/
def Chain.branches : Chain → List (Expression × List Rule)
  | .branch test rules rest => (test, rules) :: rest.branches
  | .otherwise _ => []
  | .nothing => []

/- The rules for the case that no condition is true. -/
def Chain.final : Chain → List Rule
  | .branch _ _ rest => rest.final
  | .otherwise rules => rules
  | .nothing => []

namespace Rule

variable {engine : Engine}

/- Later rules are executed if the earlier ones go through. -/
theorem executeAll_append (a b : List Rule) :
    executeAll engine (a ++ b) = do
      let outcome ← executeAll engine a
      if outcome == .continue then executeAll engine b
      else return outcome := by
  induction a with
  | nil => simp [executeAll]
  | cons r rest ih =>
      rw [List.cons_append, executeAll, executeAll, bind_assoc]
      apply bind_congr
      intro outcome
      rw [ih]
      cases outcome <;> simp

/- A fragment does what its rules do. -/
theorem executeAll_fragment
    (kind : ProcessingKind)
    (rules b : List Rule) :
    executeAll engine (.fragment kind rules :: b) =
      executeAll engine (rules ++ b) := by
  rw [executeAll, execute, executeAll_append]

/-
  Evaluates conditions up to the first that is true, and gives
  the rules that it guards.
-/
def firstTrue
    (engine : Engine)
    (otherwise : List Rule) :
    List (Expression × List Rule) → Run (List Rule)
  | [] => return otherwise
  | (test, rules) :: more => do
      let v ← valueOf engine test
      if v.isTrue then return rules
      else firstTrue engine otherwise more

/- A chain comes to the rules of one of its branches. -/
theorem executeChain_eq (c : Chain) :
    executeChain engine c =
      firstTrue engine c.final c.branches >>=
        executeAll engine := by
  match c with
  | .branch test rules rest =>
      rw [executeChain, Chain.final, Chain.branches, firstTrue,
        bind_assoc]
      apply bind_congr
      intro v
      rw [executeChain_eq rest]
      split <;> simp
  | .otherwise rules =>
      rw [executeChain, Chain.final, Chain.branches, firstTrue,
        pure_bind]
  | .nothing =>
      rw [executeChain, Chain.final, Chain.branches, firstTrue,
        pure_bind, executeAll]

/- The branch that a condition comes to. -/
def taken
    (engine : Engine)
    (test : Expression)
    (rules : List Rule)
    (rest : Chain) :
    Run (List Rule) :=
  firstTrue engine rest.final ((test, rules) :: rest.branches)

theorem execute_condition
    (kind : ProcessingKind)
    (test : Expression)
    (rules : List Rule)
    (rest : Chain) :
    execute engine (.condition kind test rules rest) =
      taken engine test rules rest >>= executeAll engine := by
  rw [execute, taken, firstTrue, bind_assoc]
  apply bind_congr
  intro v
  rw [executeChain_eq]
  split <;> simp

/- A condition does what the branch does that it comes to. -/
theorem executeAll_condition
    (kind : ProcessingKind)
    (test : Expression)
    (rules : List Rule)
    (rest : Chain)
    (b : List Rule) :
    executeAll engine (.condition kind test rules rest :: b) =
      taken engine test rules rest >>= fun chosen =>
        executeAll engine (chosen ++ b) := by
  rw [executeAll, execute_condition, bind_assoc]
  apply bind_congr
  intro chosen
  rw [executeAll_append]

------------------------------------------------------------
-- Rules That Are Met
------------------------------------------------------------

/- A chain of conditions with nothing to do in its branches. -/
def bareChain : Chain → Chain
  | .branch test _ rest => .branch test [] (bareChain rest)
  | .otherwise _ => .nothing
  | .nothing => .nothing

/-
  A run of rules that begins on a stage comes to a rule, which
  may stand in a branch or a fragment at any depth. By then it
  has executed the rules before it, evaluated the conditions
  of the branches around it, and left another stage.
-/
inductive Meets (engine : Engine) :
    List Rule → Stage → List Rule → Rule → Stage → Prop
  | here (r : Rule) (rest : List Rule) (s : Stage) :
      Meets engine (r :: rest) s [] r s
  | later {r met : Rule} {rest before : List Rule}
      {s u t : Stage}
      (hFirst : run (execute engine r) s = (.ok .continue, u))
      (hThen : Meets engine rest u before met t) :
      Meets engine (r :: rest) s (r :: before) met t
  | inFragment {met : Rule} {rules before : List Rule}
      {s t : Stage}
      (kind : ProcessingKind) (rest : List Rule)
      (hInside : Meets engine rules s before met t) :
      Meets engine (.fragment kind rules :: rest) s before met t
  | inBranch {test : Expression} {rules : List Rule}
      {other : Chain} {met : Rule} {chosen before : List Rule}
      {s u t : Stage}
      (kind : ProcessingKind) (rest : List Rule)
      (hTaken :
        run (taken engine test rules other) s = (.ok chosen, u))
      (hInside : Meets engine chosen u before met t) :
      Meets engine (.condition kind test rules other :: rest) s
        (.condition kind test [] (bareChain other) :: before)
        met t

/- An exit rule, or a constraint that fails, ends a run. -/
inductive Stops (engine : Engine) :
    Rule → Stage → Outcome → Stage → Prop
  | exit (kind : ExitKind) (s : Stage) :
      Stops engine (.exit kind) s .exit s
  | constraint {test : Expression} {v : Value} {s t : Stage}
      (hValue : run (valueOf engine test) s = (.ok v, t))
      (hFails : v.isTrue = false) :
      Stops engine (.constraint test) s .retry t

namespace Stops

variable {met : Rule}
variable {s t : Stage}
variable {outcome : Outcome}

theorem ne_continue
    (hStops : Stops engine met s outcome t) :
    outcome ≠ .continue := by
  cases hStops <;> simp

theorem run_execute
    (hStops : Stops engine met s outcome t) :
    run (execute engine met) s = (.ok outcome, t) := by
  cases hStops with
  | exit kind =>
      rw [execute]
      rfl
  | constraint hValue hFails =>
      rw [execute, run_bind, hValue]
      simp only [hFails]
      rfl

/- To end a run changes no variables. -/
theorem scope_eq
    (hStops : Stops engine met s outcome t) :
    t.scope = s.scope := by
  cases hStops with
  | exit kind => rfl
  | @constraint test _ _ _ hValue _ =>
      have hKept :
          Ends (valueOf engine test) s fun _ t =>
            t.scope = s.scope := rfl
      exact hKept.of_run hValue

end Stops

/- Conditions are evaluated as they would be with branches. -/
theorem firstTrue_bareChain (c : Chain) :
    firstTrue engine (bareChain c).final
        (bareChain c).branches =
      firstTrue engine c.final c.branches >>= fun _ =>
        pure [] := by
  match c with
  | .branch test rules rest =>
      simp only [bareChain, Chain.final, Chain.branches,
        firstTrue, bind_assoc]
      apply bind_congr
      intro v
      rw [firstTrue_bareChain rest]
      split <;> simp
  | .otherwise rules =>
      simp [bareChain, Chain.final, Chain.branches, firstTrue]
  | .nothing =>
      simp [bareChain, Chain.final, Chain.branches, firstTrue]

theorem run_bare_condition
    {kind : ProcessingKind}
    {test : Expression}
    {rules chosen : List Rule}
    {other : Chain}
    {s u : Stage}
    (hTaken :
      run (taken engine test rules other) s = (.ok chosen, u)) :
    run
        (execute engine
          (.condition kind test [] (bareChain other))) s =
      (.ok .continue, u) := by
  have hBare :
      taken engine test [] (bareChain other) =
        taken engine test rules other >>= fun _ => pure [] := by
    simp only [taken, firstTrue, bind_assoc]
    apply bind_congr
    intro v
    rw [firstTrue_bareChain]
    split <;> simp
  rw [execute_condition, hBare, bind_assoc, run_bind, hTaken]
  simp only [pure_bind]
  rw [executeAll]
  rfl

namespace Meets

variable {rules before : List Rule}
variable {met : Rule}
variable {s t : Stage}

/- What comes before the rule that is met goes through. -/
theorem run_before
    (hMeets : Meets engine rules s before met t) :
    run (executeAll engine before) s = (.ok .continue, t) := by
  induction hMeets with
  | here r rest s =>
      rw [executeAll]
      rfl
  | later hFirst _ ih =>
      rw [executeAll, run_bind, hFirst]
      exact ih
  | inFragment kind rest _ ih => exact ih
  | inBranch kind rest hTaken _ ih =>
      rw [executeAll, run_bind, run_bare_condition hTaken]
      exact ih

/-
  From where a rule is met, the run goes on as if the rule
  stood in the list itself, before all that is left.
-/
theorem run_from
    (hMeets : Meets engine rules s before met t)
    (more : List Rule) :
    ∃ after,
      run (executeAll engine (rules ++ more)) s =
        run (executeAll engine (met :: after)) t := by
  induction hMeets generalizing more with
  | here r rest s => exact ⟨rest ++ more, rfl⟩
  | later hFirst _ ih =>
      rcases ih more with ⟨after, hAfter⟩
      refine ⟨after, ?_⟩
      rw [List.cons_append, executeAll, run_bind, hFirst]
      exact hAfter
  | inFragment kind rest _ ih =>
      rw [List.cons_append, executeAll_fragment]
      exact ih (rest ++ more)
  | inBranch kind rest hTaken _ ih =>
      rcases ih (rest ++ more) with ⟨after, hAfter⟩
      refine ⟨after, ?_⟩
      rw [List.cons_append, executeAll_condition, run_bind,
        hTaken]
      exact hAfter

/- A rule that ends a run ends the whole of it. -/
theorem run_executeAll
    (hMeets : Meets engine rules s before met t)
    {outcome : Outcome}
    {u : Stage}
    (hStops : Stops engine met t outcome u) :
    run (executeAll engine rules) s = (.ok outcome, u) := by
  rcases hMeets.run_from [] with ⟨after, hAfter⟩
  rw [List.append_nil] at hAfter
  rw [hAfter, executeAll, run_bind, hStops.run_execute]
  simp only [beq_iff_eq, hStops.ne_continue, if_false]
  rfl

end Meets

------------------------------------------------------------
-- Runs That Are Ended
------------------------------------------------------------

/- A branch that is come to is the first or a later one. -/
theorem run_firstTrue_cons
    {test : Expression}
    {rules otherwise chosen : List Rule}
    {more : List (Expression × List Rule)}
    {s t : Stage}
    (hRun :
      run (firstTrue engine otherwise ((test, rules) :: more))
        s = (.ok chosen, t)) :
    chosen = rules ∨
      ∃ u, run (firstTrue engine otherwise more) u =
        (.ok chosen, t) := by
  rw [firstTrue, run_bind_eq_ok] at hRun
  rcases hRun with ⟨v, u, _, hThen⟩
  cases hTrue : v.isTrue with
  | true =>
      rw [hTrue] at hThen
      cases hThen
      exact .inl rfl
  | false =>
      rw [hTrue] at hThen
      exact .inr ⟨u, hThen⟩

/-
  Induction over rules. Whatever makes a run of a rule end
  early stands in the rule, and the run comes to it.
-/
mutual

theorem exists_meets_of_execute
    (r : Rule)
    {rest : List Rule}
    {s u : Stage}
    {outcome : Outcome}
    (hEnded : outcome ≠ .continue)
    (hRun : run (execute engine r) s = (.ok outcome, u)) :
    ∃ before met t,
      Meets engine (r :: rest) s before met t ∧
        Stops engine met t outcome u := by
  match r with
  | .condition kind test rules other =>
      rw [execute_condition, run_bind_eq_ok] at hRun
      rcases hRun with ⟨chosen, t, hTaken, hChosen⟩
      have hInside : ∃ before met w,
          Meets engine chosen t before met w ∧
            Stops engine met w outcome u := by
        rcases run_firstTrue_cons hTaken with hSame | ⟨w, hRest⟩
        · rw [hSame] at hChosen ⊢
          exact exists_meets rules hEnded hChosen
        · exact exists_meets_of_chain other hEnded hRest hChosen
      rcases hInside with ⟨before, met, w, hMeets, hStops⟩
      exact ⟨_, met, w, .inBranch kind rest hTaken hMeets,
        hStops⟩
  | .setValue target identifier e =>
      rw [execute, run_bind_eq_ok] at hRun
      rcases hRun with ⟨v, t, _, hAssign⟩
      rw [run_bind_eq_ok] at hAssign
      rcases hAssign with ⟨_, w, _, hPure⟩
      cases hPure
      exact absurd rfl hEnded
  | .lookup identifier e =>
      rw [execute, run_bind_eq_ok] at hRun
      rcases hRun with ⟨v, t, _, hAssign⟩
      rw [run_bind_eq_ok] at hAssign
      rcases hAssign with ⟨_, w, _, hPure⟩
      cases hPure
      exact absurd rfl hEnded
  | .exit kind =>
      rw [execute] at hRun
      cases hRun
      exact ⟨[], _, s, .here _ rest s, .exit kind s⟩
  | .constraint test =>
      rw [execute, run_bind_eq_ok] at hRun
      rcases hRun with ⟨v, t, hValue, hPure⟩
      cases hTrue : v.isTrue with
      | true =>
          rw [hTrue] at hPure
          cases hPure
          exact absurd rfl hEnded
      | false =>
          rw [hTrue] at hPure
          cases hPure
          exact ⟨[], _, s, .here _ rest s,
            .constraint hValue hTrue⟩
  | .fragment kind rules =>
      rw [execute] at hRun
      rcases exists_meets rules hEnded hRun with
        ⟨before, met, t, hMeets, hStops⟩
      exact ⟨before, met, t, .inFragment kind rest hMeets,
        hStops⟩

theorem exists_meets
    (rules : List Rule)
    {s u : Stage}
    {outcome : Outcome}
    (hEnded : outcome ≠ .continue)
    (hRun : run (executeAll engine rules) s = (.ok outcome, u)) :
    ∃ before met t,
      Meets engine rules s before met t ∧
        Stops engine met t outcome u := by
  match rules with
  | [] =>
      rw [executeAll] at hRun
      cases hRun
      exact absurd rfl hEnded
  | r :: rest =>
      rw [executeAll, run_bind_eq_ok] at hRun
      rcases hRun with ⟨first, t, hFirst, hThen⟩
      by_cases hGoesOn : first = .continue
      · subst hGoesOn
        rcases exists_meets rest hEnded hThen with
          ⟨before, met, w, hMeets, hStops⟩
        exact ⟨r :: before, met, w, .later hFirst hMeets,
          hStops⟩
      · simp only [beq_iff_eq, hGoesOn, if_false] at hThen
        cases hThen
        exact exists_meets_of_execute r hEnded hFirst

theorem exists_meets_of_chain
    (c : Chain)
    {chosen : List Rule}
    {s t u : Stage}
    {outcome : Outcome}
    (hEnded : outcome ≠ .continue)
    (hTaken :
      run (firstTrue engine c.final c.branches) s =
        (.ok chosen, t))
    (hRun :
      run (executeAll engine chosen) t = (.ok outcome, u)) :
    ∃ before met w,
      Meets engine chosen t before met w ∧
        Stops engine met w outcome u := by
  match c with
  | .branch test rules rest =>
      rcases run_firstTrue_cons hTaken with hSame | ⟨w, hRest⟩
      · rw [hSame] at hRun ⊢
        exact exists_meets rules hEnded hRun
      · exact exists_meets_of_chain rest hEnded hRest hRun
  | .otherwise rules =>
      have hSame : chosen = rules := by
        cases hTaken
        rfl
      rw [hSame] at hRun ⊢
      exact exists_meets rules hEnded hRun
  | .nothing =>
      rw [Chain.final, Chain.branches, firstTrue] at hTaken
      cases hTaken
      rw [executeAll] at hRun
      cases hRun
      exact absurd rfl hEnded

end

------------------------------------------------------------
-- Main Theorem
------------------------------------------------------------

/-
  A fragment can be replaced by its rules, and a condition by
  the branch that it comes to. So a run ends early only at a
  rule that it meets, however deep that stands, and does then
  what it would do if the rules ended there.
-/
theorem runs_flatten (engine : Engine) :
    (∀ (kind : ProcessingKind) (a rules b : List Rule),
      executeAll engine (a ++ [.fragment kind rules] ++ b) =
        executeAll engine (a ++ rules ++ b)) ∧
    (∀ (kind : ProcessingKind) (test : Expression)
        (rules : List Rule) (rest : Chain) (b : List Rule),
      executeAll engine
          ([.condition kind test rules rest] ++ b) =
        firstTrue engine rest.final
            ((test, rules) :: rest.branches) >>= fun chosen =>
          executeAll engine (chosen ++ b)) ∧
    (∀ (rules : List Rule) (s u : Stage) (outcome : Outcome),
      outcome ≠ .continue →
        (run (executeAll engine rules) s = (.ok outcome, u) ↔
          ∃ before met t,
            Meets engine rules s before met t ∧
              Stops engine met t outcome u)) ∧
    (∀ (rules before : List Rule) (met : Rule)
        (s t u : Stage) (outcome : Outcome),
      Meets engine rules s before met t →
        Stops engine met t outcome u →
          run (executeAll engine before) s =
              (.ok .continue, t) ∧
            run (executeAll engine (before ++ [met])) s =
              run (executeAll engine rules) s ∧
            u.scope = t.scope) := by
  refine ⟨?_, ?_, ?_, ?_⟩
  · intro kind a rules b
    rw [List.append_assoc, List.append_assoc,
      List.singleton_append, executeAll_append,
      executeAll_fragment, ← executeAll_append]
  · intro kind test rules rest b
    exact executeAll_condition kind test rules rest b
  · intro rules s u outcome hEnded
    constructor
    · exact exists_meets rules hEnded
    · rintro ⟨before, met, t, hMeets, hStops⟩
      exact hMeets.run_executeAll hStops
  · intro rules before met s t u outcome hMeets hStops
    refine ⟨hMeets.run_before, ?_, hStops.scope_eq⟩
    rw [hMeets.run_executeAll hStops, executeAll_append,
      run_bind, hMeets.run_before]
    exact (Meets.here met [] t).run_executeAll hStops

/-
  An exit rule in a fragment of a branch ends the run. What a
  rule before it reports is noted, and no rule behind it
  reports anything.
-/
theorem runs_flatten_nested :
    let report : Rule :=
      .lookup "SCORE" (.leaf (.base (.integer 1)))
    let nested : Rule :=
      .condition .response (.leaf (.base (.boolean true)))
        [.fragment .response [.exit .response, report]]
        .nothing
    let s : Stage := ⟨⟨"item", [], [], [], [], none⟩, default, []⟩
    let left :=
      run (executeAll ⟨{}, none⟩ [report, nested, report]) s
    left.1.toOption = some .exit ∧
      left.2.tally.notes.length = 1 := by
  intro report nested s left
  have hMeets :
      Meets ⟨{}, none⟩ [report, nested, report] s
        [report, .condition .response
          (.leaf (.base (.boolean true))) [] .nothing]
        (.exit .response) _ :=
    .later rfl (.inBranch .response [report] rfl
      (.inFragment .response [] (.here _ [report] _)))
  have hEnds :=
    ((runs_flatten ⟨{}, none⟩).2.2.1 _ s _ .exit
      (by decide)).mpr
      ⟨_, _, _, hMeets, .exit .response _⟩
  constructor
  · exact congrArg (fun r => r.1.toOption) hEnds
  · exact congrArg (fun r => r.2.tally.notes.length) hEnds

end Rule

end Assessment
