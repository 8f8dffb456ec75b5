import Assessment.Proofs.Rule.Execution
import Assessment.Proofs.Typing.Scope

/-
  Rules keep types.

  An assignment writes what its target accepts and nothing
  else. A lookup writes without asking, and relies on the
  table to give values of the outcome. So a well-typed scope
  stays well typed whatever rules run over it, and however
  they end.

  Main declarations:
    * `SetTarget.assign_keepsTypes`
    * `assignLookup_keepsTypes`
    * `Rule.execution_keeps_types`
-/

------------------------------------------------------------
-- Assignments
------------------------------------------------------------

namespace Assessment

open Stateful

/- What passes the check is accepted by the target. -/
theorem SetTarget.accepts_of_check
    {target : SetTarget}
    {identifier : String}
    {declaration : Option Declaration}
    {v w : Value}
    (hCheck :
      target.check identifier declaration v = .ok w) :
    ∀ d, declaration = some d →
      target.allows d.kind = true ∧ d.accepts w = true := by
  intro d hDeclared
  subst hDeclared
  simp only [check] at hCheck
  split at hCheck
  next => cases hCheck
  next hAllows =>
    split at hCheck
    next => cases hCheck
    next hAccepts =>
      cases hCheck
      exact ⟨by simpa using hAllows, by simpa using hAccepts⟩

theorem SetTarget.put_keepsTypes
    {target : SetTarget}
    {identifier : String}
    {v : Value}
    {s t : Scope}
    (hPut : target.put identifier v s = .ok t)
    (hFits :
      ∀ d, s.declaration? identifier = some d →
        target.allows d.kind = true ∧ d.accepts v = true) :
    s.KeepsTypes t := by
  have hAccepts := fun d hDeclared => (hFits d hDeclared).2
  cases target with
  | correctResponse =>
      exact Scope.setCorrect_keepsTypes hPut hAccepts
  | defaultValue =>
      refine Scope.setDefault_keepsTypes hPut ?_
      intro d hDeclared
      have hKind := (hFits d hDeclared).1
      exact ⟨by simpa [allows] using hKind,
        hAccepts d hDeclared⟩
  | outcome =>
      exact Scope.setValue_keepsTypes hPut fun _ _ => hAccepts
  | response =>
      exact Scope.setValue_keepsTypes hPut fun _ _ => hAccepts
  | template =>
      exact Scope.setValue_keepsTypes hPut fun _ _ => hAccepts

/- Only values that fit are written. -/
theorem SetTarget.assign_keepsTypes
    (target : SetTarget)
    (identifier : String)
    (v : Value) :
    Moves (Stage.Follows Scope.KeepsTypes)
      (target.assign identifier v) := by
  intro s
  simp only [assign, ends_bind, Run.ends_scope]
  split
  next w hCheck =>
    refine Run.ends_write_follows fun scope hPut => ?_
    exact put_keepsTypes hPut (accepts_of_check hCheck)
  next message _ => exact Run.step_follows _ s

/- A lookup writes a value of the outcome without asking. -/
theorem assignLookup_keepsTypes
    (identifier : String)
    (source : Value) :
    Moves (Stage.Follows Scope.KeepsTypes)
      (assignLookup identifier source) := by
  intro s
  simp only [assignLookup, ends_bind, Run.ends_scope]
  split
  next => exact Run.step_follows _ s
  next d hDeclared =>
    split
    next => exact Run.step_follows _ s
    next table hTable =>
      refine Run.ends_write_follows fun scope hSet => ?_
      refine Scope.setValue_keepsTypes hSet ?_
      intro hSound _ d' hDeclared'
      have hSame : d' = d := by
        rw [hDeclared] at hDeclared'
        cases hDeclared'
        rfl
      subst hSame
      have hMem := (mem_of_findDeclaration? hDeclared).1
      exact (hSound d' hMem).lookup table hTable source

------------------------------------------------------------
-- Rules
------------------------------------------------------------

namespace Rule

theorem partsMove_keepsTypes (engine : Engine) :
    PartsMove (Stage.Follows Scope.KeepsTypes) engine where
  value _ := Run.step_follows _
  assign := SetTarget.assign_keepsTypes
  lookup := assignLookup_keepsTypes

theorem executeAll_keepsTypes
    (engine : Engine)
    (rules : List Rule) :
    Moves (Stage.Follows Scope.KeepsTypes)
      (executeAll engine rules) :=
  executeAll_moves (partsMove_keepsTypes engine) rules

/-
  Over declarations that have been read, where only single
  variables have lookup tables, a scope is well typed at its
  start, and stays so under any rules: whether they run to
  their end, are ended by an exit rule, ask to start over or
  fail, and whatever their expressions come to.
-/
theorem execution_keeps_types
    (engine : Engine)
    (declarations : List Declaration)
    (hBuilt : ∀ d ∈ declarations, d.IsBuilt)
    (hSingle :
      ∀ d ∈ declarations, d.table?.isSome = true →
        d.cardinality = .single) :
    (∀ s : Scope, s.declarations = declarations →
      s.AtStart → s.WellTyped) ∧
    ∀ (rules : List Rule) (stage : Stage),
      stage.scope.declarations = declarations →
      stage.scope.WellTyped →
      let left := ((executeAll engine rules).run stage).2.scope
      left.declarations = declarations ∧ left.WellTyped := by
  have hSound : ∀ s : Scope,
      s.declarations = declarations → s.Sound := by
    intro s hSame d hd
    rw [hSame] at hd
    exact (hBuilt d hd).sound (hSingle d hd)
  constructor
  · intro s hSame hStart
    exact hStart.wellTyped (hSound s hSame)
  · intro rules stage hSame hTyped left
    have hKeeps : stage.scope.KeepsTypes left :=
      executeAll_keepsTypes engine rules stage
    exact ⟨hKeeps.declarations.trans hSame,
      hKeeps.wellTyped (hSound stage.scope hSame) hTyped⟩

/- An outcome that grades two counts of points. -/
def gradeOutcome : Json :=
  .ofMembers [
    ("identifier", .string "GRADE"),
    ("cardinality", .string "single"),
    ("baseType", .string "identifier"),
    ("lookupTable", .ofMembers [
      ("matchTable", .ofMembers [
        ("entries", .array [
          .ofMembers [("sourceValue", .int 0),
            ("targetValue", .string "fail")],
          .ofMembers [("sourceValue", .int 1),
            ("targetValue", .string "pass")]])])])]

/- A stage on which one declared variable has its default. -/
def singleStage (d : Declaration) : Stage where
  scope :=
    { source := "item"
      declarations := [d]
      values := [(d.identifier, d.initial)]
      defaults := []
      corrects := []
      test := none }
  tally := ⟨default, []⟩

theorem singleStage_atStart (d : Declaration) :
    (singleStage d).scope.AtStart := by
  refine ⟨?_, rfl, rfl⟩
  intro identifier d' v hDeclared hBound
  have hMem := (mem_of_findDeclaration? hDeclared).1
  rcases List.mem_singleton.mp hMem with rfl
  have hKey : d'.identifier = identifier :=
    (mem_of_findDeclaration? hDeclared).2
  simp only [singleStage, Keyed.get?, hKey] at hBound
  simpa using hBound.symm

/- A grade is looked up and written. -/
theorem execution_keeps_types_grade :
    ∃ d, Declaration.ofJson .outcome gradeOutcome = .ok d ∧
      d.table?.isSome = true ∧
      let left := ((executeAll ⟨{}, none⟩
        [.lookup "GRADE" (.leaf (.base (.integer 1)))]).run
          (singleStage d)).2.scope
      left.value? "GRADE" = some (.identifier "pass") ∧
        left.WellTyped := by
  refine ⟨_, rfl, rfl, rfl, ?_⟩
  have hTypes :=
    execution_keeps_types ⟨{}, none⟩ [_]
      (fun d hd => List.mem_singleton.mp hd ▸
        .read .outcome gradeOutcome _ rfl)
      (fun d hd _ => List.mem_singleton.mp hd ▸ rfl)
  have hStart :=
    hTypes.1 (singleStage _).scope rfl (singleStage_atStart _)
  exact (hTypes.2 _ (singleStage _) rfl hStart).2

end Rule

end Assessment
