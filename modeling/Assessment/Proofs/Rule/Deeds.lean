import Assessment.Proofs.Expression.Evaluation
import Assessment.Proofs.Rule.Execution
import Assessment.Rule.Reader

/-
  What rules do with expressions.

  Rules evaluate expressions, either to decide what runs next
  or to write a value. What holds of each of these deeds holds
  of a run of rules, and the expressions that a run evaluates
  are those of its deeds.

  Main declarations:
    * `Deed` and `Rule.deedsIn`
    * `Rule.executeAll_deeds`, from the deeds to the run
    * `Rule.visitsAll`, what a run evaluates and where
-/

------------------------------------------------------------
-- Deeds
------------------------------------------------------------

namespace Assessment

open Stateful

/- What a rule does with the value of an expression. -/
inductive Deed where
  /- It decides what runs next. -/
  | decide (test : Expression)
  | write (w : Writing) (e : Expression)

/- The expression that is evaluated. -/
def Deed.expression : Deed → Expression
  | .decide test => test
  | .write _ e => e

/- Writes a value, or reports what is wrong with it. -/
def Writing.perform : Writing → Value → Run Unit
  | .set target identifier, v => target.assign identifier v
  | .lookup identifier, v => assignLookup identifier v

/- A deed by itself belongs to a family of computations. -/
def Deed.In
    (C : (α : Type) → Run α → Prop)
    (engine : Engine) :
    Deed → Prop
  | .decide test => C Value (Rule.valueOf engine test)
  | .write w e =>
      C Unit (Rule.valueOf engine e >>= w.perform)

namespace Rule

mutual

/- The deeds of a rule, in whichever branch they stand. -/
def deeds : Rule → List Deed
  | .condition _ test rules rest =>
      .decide test :: (deedsIn rules ++ chainDeeds rest)
  | .setValue target identifier e =>
      [.write (.set target identifier) e]
  | .lookup identifier e => [.write (.lookup identifier) e]
  | .exit _ => []
  | .constraint test => [.decide test]
  | .fragment _ rules => deedsIn rules

/- The deeds of rules in a row. -/
def deedsIn : List Rule → List Deed
  | [] => []
  | r :: rest => deeds r ++ deedsIn rest

/- The deeds of the branches of a condition. -/
def chainDeeds : Chain → List Deed
  | .branch test rules rest =>
      .decide test :: (deedsIn rules ++ chainDeeds rest)
  | .otherwise rules => deedsIn rules
  | .nothing => []

end

mutual

/- Every write of a rule is one of its deeds. -/
theorem exists_write_mem_deeds
    (r : Rule)
    {w : Writing}
    (hMem : w ∈ r.writings) :
    ∃ e, .write w e ∈ r.deeds := by
  match r with
  | .condition _ test rules rest =>
      rw [writings, List.mem_append] at hMem
      simp only [deeds, List.mem_cons, List.mem_append]
      rcases hMem with hTaken | hOther
      · obtain ⟨e, hDeed⟩ := exists_write_mem_deedsIn rules hTaken
        exact ⟨e, Or.inr (Or.inl hDeed)⟩
      · obtain ⟨e, hDeed⟩ := exists_write_mem_chain rest hOther
        exact ⟨e, Or.inr (Or.inr hDeed)⟩
  | .setValue target identifier e =>
      obtain rfl := List.mem_singleton.mp hMem
      exact ⟨e, List.mem_cons_self⟩
  | .lookup identifier e =>
      obtain rfl := List.mem_singleton.mp hMem
      exact ⟨e, List.mem_cons_self⟩
  | .exit _ => cases hMem
  | .constraint _ => cases hMem
  | .fragment _ rules =>
      rw [writings] at hMem
      rw [deeds]
      exact exists_write_mem_deedsIn rules hMem

theorem exists_write_mem_deedsIn
    (rules : List Rule)
    {w : Writing}
    (hMem : w ∈ writingsIn rules) :
    ∃ e, .write w e ∈ deedsIn rules := by
  match rules with
  | [] => cases hMem
  | r :: rest =>
      rw [writingsIn, List.mem_append] at hMem
      simp only [deedsIn, List.mem_append]
      rcases hMem with hFirst | hLater
      · obtain ⟨e, hDeed⟩ := exists_write_mem_deeds r hFirst
        exact ⟨e, Or.inl hDeed⟩
      · obtain ⟨e, hDeed⟩ := exists_write_mem_deedsIn rest hLater
        exact ⟨e, Or.inr hDeed⟩

theorem exists_write_mem_chain
    (c : Chain)
    {w : Writing}
    (hMem : w ∈ chainWritings c) :
    ∃ e, .write w e ∈ chainDeeds c := by
  match c with
  | .branch test rules rest =>
      rw [chainWritings, List.mem_append] at hMem
      simp only [chainDeeds, List.mem_cons, List.mem_append]
      rcases hMem with hTaken | hOther
      · obtain ⟨e, hDeed⟩ := exists_write_mem_deedsIn rules hTaken
        exact ⟨e, Or.inr (Or.inl hDeed)⟩
      · obtain ⟨e, hDeed⟩ := exists_write_mem_chain rest hOther
        exact ⟨e, Or.inr (Or.inr hDeed)⟩
  | .otherwise rules =>
      rw [chainWritings] at hMem
      rw [chainDeeds]
      exact exists_write_mem_deedsIn rules hMem
  | .nothing => cases hMem

end

------------------------------------------------------------
-- Runs
------------------------------------------------------------

section

variable {engine : Engine}
variable {C : (α : Type) → Run α → Prop}

/- A value that is written goes straight into the write. -/
theorem closed_write
    (hClosed : Closed C)
    {w : Writing}
    {e : Expression}
    (hDeed : Deed.In C engine (.write w e))
    (outcome : Outcome) :
    C Outcome do
      let v ← valueOf engine e
      w.perform v
      return outcome := by
  rw [← bind_assoc]
  apply hClosed.bind hDeed
  exact fun _ => hClosed.pure _

mutual

/- Induction over rules. -/
theorem execute_deeds
    (hClosed : Closed C)
    (r : Rule)
    (hDeeds : ∀ d ∈ r.deeds, d.In C engine) :
    C Outcome (execute engine r) := by
  match r with
  | .condition _ test rules rest =>
      simp only [deeds, List.forall_mem_cons,
        List.forall_mem_append] at hDeeds
      obtain ⟨hTest, hRules, hRest⟩ := hDeeds
      have hTaken := executeAll_deeds hClosed rules hRules
      have hOther := executeChain_deeds hClosed rest hRest
      rw [execute]
      apply hClosed.bind hTest
      intro v
      split
      · exact hTaken
      · exact hOther
  | .setValue target identifier e =>
      simp only [deeds, List.forall_mem_singleton] at hDeeds
      rw [execute]
      exact closed_write hClosed hDeeds .continue
  | .lookup identifier e =>
      simp only [deeds, List.forall_mem_singleton] at hDeeds
      rw [execute]
      exact closed_write hClosed hDeeds .continue
  | .exit _ =>
      rw [execute]
      exact hClosed.pure _
  | .constraint test =>
      simp only [deeds, List.forall_mem_singleton] at hDeeds
      rw [execute]
      apply hClosed.bind hDeeds
      exact fun _ => hClosed.pure _
  | .fragment _ rules =>
      rw [deeds] at hDeeds
      rw [execute]
      exact executeAll_deeds hClosed rules hDeeds

theorem executeAll_deeds
    (hClosed : Closed C)
    (rules : List Rule)
    (hDeeds : ∀ d ∈ deedsIn rules, d.In C engine) :
    C Outcome (executeAll engine rules) := by
  match rules with
  | [] =>
      rw [executeAll]
      exact hClosed.pure _
  | r :: rest =>
      simp only [deedsIn, List.forall_mem_append] at hDeeds
      have hFirst := execute_deeds hClosed r hDeeds.1
      have hRest := executeAll_deeds hClosed rest hDeeds.2
      rw [executeAll]
      apply hClosed.bind hFirst
      intro outcome
      split
      · exact hRest
      · exact hClosed.pure _

theorem executeChain_deeds
    (hClosed : Closed C)
    (c : Chain)
    (hDeeds : ∀ d ∈ chainDeeds c, d.In C engine) :
    C Outcome (executeChain engine c) := by
  match c with
  | .branch test rules rest =>
      simp only [chainDeeds, List.forall_mem_cons,
        List.forall_mem_append] at hDeeds
      obtain ⟨hTest, hRules, hRest⟩ := hDeeds
      have hTaken := executeAll_deeds hClosed rules hRules
      have hOther := executeChain_deeds hClosed rest hRest
      rw [executeChain]
      apply hClosed.bind hTest
      intro v
      split
      · exact hTaken
      · exact hOther
  | .otherwise rules =>
      rw [chainDeeds] at hDeeds
      rw [executeChain]
      exact executeAll_deeds hClosed rules hDeeds
  | .nothing =>
      rw [executeChain]
      exact hClosed.pure _

end

end

------------------------------------------------------------
-- Visits
------------------------------------------------------------

mutual

/-
  The expressions that a rule evaluates when it is executed,
  each with the stage it is evaluated on.
-/
def visits (engine : Engine) :
    Rule → Stage → List (Expression × Stage)
  | .condition _ test rules rest, s =>
      (test, s) ::
        match (valueOf engine test).run s with
        | (.ok v, t) =>
            if v.isTrue then visitsAll engine rules t
            else visitsChain engine rest t
        | (.error _, _) => []
  | .setValue _ _ e, s => [(e, s)]
  | .lookup _ e, s => [(e, s)]
  | .exit _, _ => []
  | .constraint test, s => [(test, s)]
  | .fragment _ rules, s => visitsAll engine rules s

/- Rules are executed until one of them ends the run. -/
def visitsAll (engine : Engine) :
    List Rule → Stage → List (Expression × Stage)
  | [], _ => []
  | r :: rest, s =>
      visits engine r s ++
        match (execute engine r).run s with
        | (.ok .continue, t) => visitsAll engine rest t
        | _ => []

/- Conditions are evaluated until one of them is true. -/
def visitsChain (engine : Engine) :
    Chain → Stage → List (Expression × Stage)
  | .branch test rules rest, s =>
      (test, s) ::
        match (valueOf engine test).run s with
        | (.ok v, t) =>
            if v.isTrue then visitsAll engine rules t
            else visitsChain engine rest t
        | (.error _, _) => []
  | .otherwise rules, s => visitsAll engine rules s
  | .nothing, _ => []

end

section

variable {engine : Engine}
variable {I : Stage → Prop}

/- Whatever is done leaves stages as they are wanted. -/
def Stays (I : Stage → Prop) (α : Type) (x : Run α) : Prop :=
  ∀ s, I s → Ends x s fun _ t => I t

theorem stays_closed : Closed (Stays I) where
  pure a s hI := by
    rw [ends_pure]
    exact hI
  bind hFirst hThen s hI :=
    (hFirst s hI).seq (fun _ _ hLeft => hLeft)
      fun a t hLeft => hThen a t hLeft

variable {P : Expression → Prop}

/- A condition is evaluated where the rule begins. -/
theorem visits_branch
    {test : Expression}
    {s : Stage}
    (hTest : Deed.In (Stays I) engine (.decide test))
    (hHolds : P test)
    (hI : I s)
    {taken other : Stage → List (Expression × Stage)}
    (hTaken : ∀ t, I t → ∀ v ∈ taken t, P v.1 ∧ I v.2)
    (hOther : ∀ t, I t → ∀ v ∈ other t, P v.1 ∧ I v.2) :
    ∀ v ∈ (test, s) ::
        match (valueOf engine test).run s with
        | (.ok v, t) => if v.isTrue then taken t else other t
        | (.error _, _) => [],
      P v.1 ∧ I v.2 := by
  intro v hMem
  rcases List.mem_cons.mp hMem with rfl | hLater
  · exact ⟨hHolds, hI⟩
  · split at hLater
    next w t hRun =>
      have hLeft : I t := (hTest s hI).of_run hRun
      split at hLater
      · exact hTaken t hLeft v hLater
      · exact hOther t hLeft v hLater
    next => cases hLater

mutual

/-
  Induction over rules, from one stage to the next. What is
  evaluated is evaluated for one of the deeds.
-/
theorem visits_of_deeds
    (r : Rule)
    (hDeeds :
      ∀ d ∈ r.deeds, d.In (Stays I) engine ∧ P d.expression)
    {s : Stage}
    (hI : I s) :
    ∀ v ∈ visits engine r s, P v.1 ∧ I v.2 := by
  match r with
  | .condition _ test rules rest =>
      simp only [deeds, List.forall_mem_cons,
        List.forall_mem_append] at hDeeds
      obtain ⟨⟨hTest, hHolds⟩, hRules, hRest⟩ := hDeeds
      rw [visits]
      exact visits_branch hTest hHolds hI
        (fun t hT => visitsAll_of_deeds rules hRules hT)
        fun t hT => visitsChain_of_deeds rest hRest hT
  | .setValue target identifier e =>
      simp only [deeds, List.forall_mem_singleton] at hDeeds
      simp only [visits, List.forall_mem_singleton]
      exact ⟨hDeeds.2, hI⟩
  | .lookup identifier e =>
      simp only [deeds, List.forall_mem_singleton] at hDeeds
      simp only [visits, List.forall_mem_singleton]
      exact ⟨hDeeds.2, hI⟩
  | .exit _ =>
      intro v hMem
      rw [visits] at hMem
      cases hMem
  | .constraint test =>
      simp only [deeds, List.forall_mem_singleton] at hDeeds
      simp only [visits, List.forall_mem_singleton]
      exact ⟨hDeeds.2, hI⟩
  | .fragment _ rules =>
      rw [deeds] at hDeeds
      rw [visits]
      exact visitsAll_of_deeds rules hDeeds hI

theorem visitsAll_of_deeds
    (rules : List Rule)
    (hDeeds :
      ∀ d ∈ deedsIn rules,
        d.In (Stays I) engine ∧ P d.expression)
    {s : Stage}
    (hI : I s) :
    ∀ v ∈ visitsAll engine rules s, P v.1 ∧ I v.2 := by
  match rules with
  | [] =>
      intro v hMem
      rw [visitsAll] at hMem
      cases hMem
  | r :: rest =>
      simp only [deedsIn, List.forall_mem_append] at hDeeds
      obtain ⟨hFirst, hRest⟩ := hDeeds
      rw [visitsAll, List.forall_mem_append]
      constructor
      · exact visits_of_deeds r hFirst hI
      · intro v hLater
        split at hLater
        next t hRun =>
          have hStays :=
            execute_deeds stays_closed r fun d hMem =>
              (hFirst d hMem).1
          have hLeft : I t := (hStays s hI).of_run hRun
          exact visitsAll_of_deeds rest hRest hLeft v hLater
        next => cases hLater

theorem visitsChain_of_deeds
    (c : Chain)
    (hDeeds :
      ∀ d ∈ chainDeeds c,
        d.In (Stays I) engine ∧ P d.expression)
    {s : Stage}
    (hI : I s) :
    ∀ v ∈ visitsChain engine c s, P v.1 ∧ I v.2 := by
  match c with
  | .branch test rules rest =>
      simp only [chainDeeds, List.forall_mem_cons,
        List.forall_mem_append] at hDeeds
      obtain ⟨⟨hTest, hHolds⟩, hRules, hRest⟩ := hDeeds
      rw [visitsChain]
      exact visits_branch hTest hHolds hI
        (fun t hT => visitsAll_of_deeds rules hRules hT)
        fun t hT => visitsChain_of_deeds rest hRest hT
  | .otherwise rules =>
      rw [chainDeeds] at hDeeds
      rw [visitsChain]
      exact visitsAll_of_deeds rules hDeeds hI
  | .nothing =>
      intro v hMem
      rw [visitsChain] at hMem
      cases hMem

end

end

end Rule

end Assessment
