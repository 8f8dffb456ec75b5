import Assessment.Proofs.Rule.Footprint
import Assessment.Proofs.Rule.Typing

/-
  What rules can write to.

  A rule writes to the variable that it names, and only if
  that is declared as a variable of the family that the rule
  is for. So what a run of rules may change, through branches
  and fragments and until it ends or fails, can be told from
  the rules and the declarations.

  Main declarations:
    * `Writing.admits`, the families that a write is for
    * `Scope.Reached`, the places that writes may change
    * `Scope.WrittenBy`, scopes that differ by some writes
    * `Rule.executeAll_writes_only_targets`
-/

------------------------------------------------------------
-- Families of Variables
------------------------------------------------------------

namespace Assessment

open Stateful

/-
  Whether a write can be to a variable of a family. A lookup
  has no check of its own, but only outcomes have a table.
-/
def Writing.admits (w : Writing) (kind : VariableKind) : Bool :=
  match w with
  | .set target _ => target.allows kind
  | .lookup _ => kind == .outcome

theorem Declaration.kind_of_table
    {d : Declaration}
    {table : LookupTable}
    (hTable : d.table? = some table) :
    d.kind = .outcome := by
  unfold table? outcome? at hTable
  unfold kind
  split at hTable
  · simp [*]
  · cases hTable

------------------------------------------------------------
-- Places
------------------------------------------------------------

namespace Scope

/-
  The places that writes reach: those they name, where the
  variable is of a family that the write is for.
-/
def Reached
    (ws : List Writing)
    (s : Scope)
    (store : Store)
    (name : String) :
    Prop :=
  ∃ w ∈ ws, w.store = store ∧ w.identifier = name ∧
    ∃ d, s.declaration? name = some d ∧
      w.admits d.kind = true

/- One scope becomes another by some of the writes. -/
def WrittenBy
    (ws : List Writing)
    (s t : Scope) :
    Prop :=
  s.ChangesAt (s.Reached ws) t

variable {ws : List Writing}

instance : Std.Refl (WrittenBy ws) where
  refl s := Std.Refl.refl (r := ChangesAt (s.Reached ws)) s

/- Writes leave the declarations that they depend on. -/
instance : IsTrans Scope (WrittenBy ws) where
  trans s t u hFirst hThen := by
    have hSame : t.Reached ws = s.Reached ws := by
      funext store name
      unfold Reached
      rw [hFirst.declaration?_eq]
    unfold WrittenBy at hThen
    rw [hSame] at hThen
    exact IsTrans.trans (r := ChangesAt (s.Reached ws))
      s t u hFirst hThen

/- What has changed has been reached. -/
theorem WrittenBy.reached
    {s t : Scope}
    (hWritten : s.WrittenBy ws t)
    (store : Store)
    {name : String}
    (hChanged :
      (t.bindings store).get? name ≠
        (s.bindings store).get? name) :
    s.Reached ws store name := by
  by_contra hNot
  exact hChanged
    (hWritten.elsewhere store name fun hPlace => hNot hPlace.1)

end Scope

------------------------------------------------------------
-- Rules
------------------------------------------------------------

variable {ws : List Writing}

theorem SetTarget.assign_writtenBy
    {target : SetTarget}
    {identifier : String}
    (hMem : .set target identifier ∈ ws)
    (v : Value) :
    Moves (Stage.Follows (Scope.WrittenBy ws))
      (target.assign identifier v) := by
  intro s
  simp only [assign, ends_bind, Run.ends_scope]
  split
  next w hCheck =>
    apply Run.ends_write_follows
    intro scope hPut
    rcases Option.isSome_iff_exists.mp
        (Scope.eq_putAt_of_put hPut).1 with ⟨d, hDeclared⟩
    have hAllows := (accepts_of_check hCheck d hDeclared).1
    exact Scope.changesAt_of_put hPut
      ⟨_, hMem, rfl, rfl, d, hDeclared, hAllows⟩
  next => exact Run.step_follows _ s

theorem assignLookup_writtenBy
    {identifier : String}
    (hMem : .lookup identifier ∈ ws)
    (source : Value) :
    Moves (Stage.Follows (Scope.WrittenBy ws))
      (assignLookup identifier source) := by
  intro s
  simp only [assignLookup, ends_bind, Run.ends_scope]
  split
  next => exact Run.step_follows _ s
  next d hDeclared =>
    split
    next => exact Run.step_follows _ s
    next table hTable =>
      apply Run.ends_write_follows
      intro scope hPut
      have hKind : d.kind = .outcome :=
        Declaration.kind_of_table hTable
      have hReached :
          s.scope.Reached ws SetTarget.outcome.store
            identifier :=
        ⟨_, hMem, rfl, rfl, d, hDeclared, by rw [hKind]; rfl⟩
      have hStored :
          SetTarget.outcome.put identifier _ s.scope =
            .ok scope := hPut
      exact Scope.changesAt_of_put hStored hReached

namespace Rule

/- Rules change a scope by the writes they have. -/
theorem executeAll_writtenBy
    (engine : Engine)
    (rules : List Rule) :
    Moves (Stage.Follows (Scope.WrittenBy (writingsIn rules)))
      (executeAll engine rules) := by
  apply executeAll_closed Moves.closed
  constructor
  · exact fun e => Run.step_follows _
  · exact fun target identifier hMem v =>
      SetTarget.assign_writtenBy hMem v
  · exact fun identifier hMem v =>
      assignLookup_writtenBy hMem v

/-
  However a run of rules ends, a value has changed only if a
  rule for the family of the variable names it, a correct
  response only if a rule sets that of the response, and a
  default only if a rule sets that of the response or the
  outcome. To evaluate an expression changes none of them.
-/
theorem executeAll_writes_only_targets
    (engine : Engine)
    (rules : List Rule)
    (s : Stage) :
    let left := (run (executeAll engine rules) s).2.scope
    (∀ name,
      left.values.get? name ≠ s.scope.values.get? name →
        ∃ d, s.scope.declaration? name = some d ∧
          ((d.kind = .outcome ∧
              (.set .outcome name ∈ writingsIn rules ∨
                .lookup name ∈ writingsIn rules)) ∨
            (d.kind = .response ∧
              .set .response name ∈ writingsIn rules) ∨
            (d.kind = .template ∧
              .set .template name ∈ writingsIn rules))) ∧
    (∀ name,
      left.corrects.get? name ≠ s.scope.corrects.get? name →
        .set .correctResponse name ∈ writingsIn rules ∧
          ∃ d, s.scope.declaration? name = some d ∧
            d.kind = .response) ∧
    (∀ name,
      left.defaults.get? name ≠ s.scope.defaults.get? name →
        .set .defaultValue name ∈ writingsIn rules ∧
          ∃ d, s.scope.declaration? name = some d ∧
            (d.kind = .response ∨ d.kind = .outcome)) ∧
    left.declarations = s.scope.declarations ∧
    ∀ (e : Expression) (t : Stage),
      (run (valueOf engine e) t).2.scope = t.scope := by
  intro left
  have hWritten :
      s.scope.WrittenBy (writingsIn rules) left :=
    executeAll_writtenBy engine rules s
  refine ⟨?_, ?_, ?_, hWritten.declarations, fun _ _ => rfl⟩
  · intro name hChanged
    rcases hWritten.reached .values hChanged with
      ⟨w, hMem, hStore, rfl, d, hDeclared, hAdmits⟩
    refine ⟨d, hDeclared, ?_⟩
    cases w with
    | lookup identifier =>
        exact .inl ⟨by simpa [Writing.admits] using hAdmits,
          .inr hMem⟩
    | set target identifier =>
        cases target with
        | outcome =>
            exact .inl ⟨beq_iff_eq.mp hAdmits, .inl hMem⟩
        | response =>
            exact .inr (.inl ⟨beq_iff_eq.mp hAdmits, hMem⟩)
        | template =>
            exact .inr (.inr ⟨beq_iff_eq.mp hAdmits, hMem⟩)
        | correctResponse => cases hStore
        | defaultValue => cases hStore
  · intro name hChanged
    rcases hWritten.reached .corrects hChanged with
      ⟨w, hMem, hStore, rfl, d, hDeclared, hAdmits⟩
    cases w with
    | lookup identifier => cases hStore
    | set target identifier =>
        cases target with
        | correctResponse =>
            exact ⟨hMem, d, hDeclared, beq_iff_eq.mp hAdmits⟩
        | _ => cases hStore
  · intro name hChanged
    rcases hWritten.reached .defaults hChanged with
      ⟨w, hMem, hStore, rfl, d, hDeclared, hAdmits⟩
    cases w with
    | lookup identifier => cases hStore
    | set target identifier =>
        cases target with
        | defaultValue =>
            refine ⟨hMem, d, hDeclared, ?_⟩
            cases hKind : d.kind with
            | response => exact .inl rfl
            | outcome => exact .inr rfl
            | template =>
                rw [hKind] at hAdmits
                cases hAdmits
        | _ => cases hStore

/- A grade has changed, since a lookup of outcomes names it. -/
theorem executeAll_writes_only_targets_grade :
    ∃ d, Declaration.ofJson .outcome gradeOutcome = .ok d ∧
      let rules : List Rule :=
        [.lookup "GRADE" (.leaf (.base (.integer 1)))]
      let s := (singleStage d).scope
      let left :=
        (run (executeAll ⟨{}, none⟩ rules) (singleStage d)).2.scope
      left.values.get? "GRADE" ≠ s.values.get? "GRADE" ∧
        ∃ d', s.declaration? "GRADE" = some d' ∧
          ((d'.kind = .outcome ∧
              (.set .outcome "GRADE" ∈ writingsIn rules ∨
                .lookup "GRADE" ∈ writingsIn rules)) ∨
            (d'.kind = .response ∧
              .set .response "GRADE" ∈ writingsIn rules) ∨
            (d'.kind = .template ∧
              .set .template "GRADE" ∈ writingsIn rules)) := by
  refine ⟨_, rfl, ?_⟩
  intro rules s left
  have hGraded :
      left.values.get? "GRADE" = some (.identifier "pass") :=
    rfl
  have hFresh : s.values.get? "GRADE" = some .null := rfl
  have hChanged :
      left.values.get? "GRADE" ≠ s.values.get? "GRADE" := by
    rw [hGraded, hFresh]
    intro hSame
    cases hSame
  exact ⟨hChanged,
    (executeAll_writes_only_targets ⟨{}, none⟩ rules
      (singleStage _)).1 "GRADE" hChanged⟩

end Rule

end Assessment
