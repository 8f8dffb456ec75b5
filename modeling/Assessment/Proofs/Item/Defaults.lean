import Assessment.Proofs.Item.Steps
import Assessment.Proofs.Rule.Footprint

/-
  Variables at their defaults.

  Over the declarations of an item a reset never fails: every
  variable that it names is declared. What it leaves is a
  scope that can be written down, and so is what preparation
  ends with.

  Main declarations:
    * `Stage.IsOf`, a stage with the declarations of an item
    * `Scope.reset` and `ItemSession.ends_resetAll`
    * `Scope.settled` and `ItemSession.ends_settle`
    * `templateRun`, one run of template processing
    * `ItemSession.prepare_changesAt` and
      `ItemSession.respond_changesAt`, where processing leaves
      traces
-/

------------------------------------------------------------
-- Scopes
------------------------------------------------------------

namespace Assessment

open Stateful

namespace Scope

/- The value that a reset gives to a variable. -/
def initial (s : Scope) (name : String) : Value :=
  (s.default? name).getD .null

/- The scope with some variables back at their defaults. -/
def reset (ds : List Declaration) (s : Scope) : Scope :=
  let put := fun (b : Bindings) (d : Declaration) =>
    b.put d.identifier (s.initial d.identifier)
  { s with values := ds.foldl put s.values }

/- The variables that are no template variables. -/
def others (item : Item) : List Declaration :=
  item.declarations.filter fun d => d.kind != .template

/- The scope that preparation ends with. -/
def settled (item : Item) (s : Scope) : Scope :=
  ((s.reset (others item)).putAt .values Builtin.numAttempts
    (.integer 0)).putAt .values Builtin.duration (.float 0)

theorem get?_foldl_put
    (f : String → Value)
    (ds : List Declaration)
    (b : Bindings)
    (name : String) :
    (ds.foldl
      (fun b d => b.put d.identifier (f d.identifier))
      b).get? name =
      if name ∈ ds.map Declaration.identifier then
        some (f name)
      else b.get? name := by
  induction ds generalizing b with
  | nil => simp
  | cons d rest ih =>
      rw [List.foldl_cons, ih]
      by_cases hLater : name ∈ rest.map Declaration.identifier
      · simp [hLater]
      · by_cases hSame : name = d.identifier
        · subst hSame
          simp [hLater, Keyed.get?_put_self]
        · simp [hLater, hSame, Keyed.get?_put_of_ne hSame]

/- A variable that is reset has its default. -/
theorem get?_reset
    (ds : List Declaration)
    (s : Scope)
    (name : String) :
    (s.reset ds).values.get? name =
      if name ∈ ds.map Declaration.identifier then
        some (s.initial name)
      else s.values.get? name :=
  get?_foldl_put s.initial ds s.values name

theorem rising_reset
    {s : Scope}
    (hRising : s.values.Rising)
    (ds : List Declaration) :
    (s.reset ds).values.Rising := by
  have hFold :
      ∀ (f : String → Value) (b : Bindings), b.Rising →
        (ds.foldl
          (fun b d => b.put d.identifier (f d.identifier))
          b).Rising := by
    intro f
    induction ds with
    | nil => exact fun b hRising => hRising
    | cons d rest ih =>
        exact fun b hRising => ih _ (hRising.put _ _)
  exact hFold s.initial s.values hRising

/- A declared variable can be given a value. -/
theorem setValue_eq_ok
    {s : Scope}
    {name : String}
    (hDeclared : (s.declaration? name).isSome = true)
    (v : Value) :
    s.setValue name v = .ok (s.putAt .values name v) := by
  obtain ⟨d, hFound⟩ := Option.isSome_iff_exists.mp hDeclared
  simp only [setValue, ifDeclared, hFound]
  rfl

/- Two scopes of one item with the same stores are the same. -/
theorem eq_of_stores
    {s t : Scope}
    (hSource : t.source = s.source)
    (hDeclarations : t.declarations = s.declarations)
    (hTest : t.test = s.test)
    (hValues : t.values = s.values)
    (hDefaults : t.defaults = s.defaults)
    (hCorrects : t.corrects = s.corrects) :
    t = s := by
  cases s
  cases t
  simp_all

/- What is declared can be found. -/
theorem isSome_declaration?
    {s : Scope}
    {d : Declaration}
    (hMem : d ∈ s.declarations) :
    (s.declaration? d.identifier).isSome = true := by
  unfold declaration? findDeclaration?
  rw [List.find?_isSome]
  exact ⟨d, hMem, by simp⟩

end Scope

/- A built-in variable is declared, by the author or not. -/
theorem Item.isSome_declaration?_builtin
    (item : Item)
    {b : Declaration}
    (hBuiltin :
      b ∈ [Builtin.completionDeclaration,
        Builtin.attemptsDeclaration,
        Builtin.durationDeclaration]) :
    (item.declaration? b.identifier).isSome = true := by
  unfold declaration? findDeclaration?
  rw [List.find?_isSome]
  by_cases hAuthored :
      (item.responses ++ item.outcomes).any
        (fun d => d.identifier == b.identifier) = true
  · obtain ⟨d, hMem, hSame⟩ := List.any_eq_true.mp hAuthored
    refine ⟨d, ?_, hSame⟩
    unfold declarations
    apply List.mem_append_left
    exact List.mem_append_left _ hMem
  · refine ⟨b, ?_, by simp⟩
    unfold declarations
    apply List.mem_append_right
    apply List.mem_filter.mpr
    exact ⟨hBuiltin, by simpa using hAuthored⟩

theorem Item.templates_declared (item : Item) :
    item.templates ⊆ item.declarations := by
  intro d hMem
  simp [declarations, hMem]

theorem Item.outcomes_declared (item : Item) :
    item.outcomes ⊆ item.declarations := by
  intro d hMem
  simp [declarations, hMem]

/- The variables of a stage are those of an item. -/
structure Stage.IsOf (item : Item) (s : Stage) : Prop where
  declarations : s.scope.declarations = item.declarations
  test : s.scope.test = none

theorem Scope.ChangesAt.isOf
    {P : Store → String → Prop}
    {item : Item}
    {s t : Stage}
    (hChanges : s.scope.ChangesAt P t.scope)
    (hItem : s.IsOf item) :
    t.IsOf item where
  declarations :=
    hChanges.declarations.trans hItem.declarations
  test := hChanges.test.trans hItem.test

------------------------------------------------------------
-- Resets
------------------------------------------------------------

namespace ItemSession

variable {item : Item}
variable {s : Stage}

/- The stage that a session gives its rules. -/
def stage (s : ItemSession) : Stage :=
  ⟨s.scope, s.tally⟩

theorem stage_isOf (s : ItemSession) : s.stage.IsOf s.item :=
  ⟨rfl, rfl⟩

/- Rules leave the session what they leave the stage. -/
theorem scope_takeOver
    {P : Store → String → Prop}
    {s : ItemSession}
    {t : Stage}
    (hChanges : s.scope.ChangesAt P t.scope) :
    (s.takeOver t).scope = t.scope := by
  apply Scope.eq_of_stores
  · exact hChanges.source.symm
  · exact hChanges.declarations.symm
  · exact hChanges.test.symm
  · rfl
  · rfl
  · rfl

/- A reset of declared variables goes through. -/
theorem ends_resetAll
    {ds : List Declaration}
    (hItem : s.IsOf item)
    (hDeclared : ds ⊆ item.declarations)
    (Q : Except Failure Unit → Stage → Prop) :
    Ends (resetAll ds) s Q ↔
      Q (.ok ()) { s with scope := s.scope.reset ds } := by
  induction ds generalizing s with
  | nil => exact Iff.rfl
  | cons d rest ih =>
      have hMem : d ∈ s.scope.declarations := by
        rw [hItem.declarations]
        exact hDeclared List.mem_cons_self
      have hRest : rest ⊆ item.declarations :=
        fun e h => hDeclared (List.mem_cons_of_mem d h)
      rw [resetAll, ends_bind, Run.ends_write_ok
        (Scope.setValue_eq_ok (Scope.isSome_declaration? hMem) _)]
      apply ih _ hRest
      exact ⟨hItem.declarations, hItem.test⟩

/- What follows template processing. -/
def settle (item : Item) : Run Unit := do
  resetAll (Scope.others item)
  Run.write fun s =>
    s.setValue Builtin.numAttempts (.integer 0)
  Run.write fun s => s.setValue Builtin.duration (.float 0)

theorem ends_settle
    (hItem : s.IsOf item)
    (Q : Except Failure Unit → Stage → Prop) :
    Ends (settle item) s Q ↔
      Q (.ok ()) { s with scope := s.scope.settled item } := by
  have hOthers : Scope.others item ⊆ item.declarations :=
    fun d hMem => (List.mem_filter.mp hMem).1
  have hNumber :=
    item.isSome_declaration?_builtin
      (b := Builtin.attemptsDeclaration) (by simp)
  have hTime :=
    item.isSome_declaration?_builtin
      (b := Builtin.durationDeclaration) (by simp)
  unfold Item.declaration? at hNumber hTime
  rw [← hItem.declarations] at hNumber hTime
  have hAttempts :=
    Scope.setValue_eq_ok (s := s.scope.reset (Scope.others item))
      hNumber (.integer 0)
  have hDuration :=
    Scope.setValue_eq_ok
      (s := (s.scope.reset (Scope.others item)).putAt .values
        Builtin.numAttempts (.integer 0))
      hTime (.float 0)
  unfold settle
  rw [ends_bind, ends_resetAll hItem hOthers]
  dsimp only
  rw [ends_bind, Run.ends_write_ok hAttempts]
  dsimp only
  rw [Run.ends_write_ok hDuration]
  rfl

/- It is told before how often template processing has run. -/
theorem ends_settle_noted
    (hItem : s.IsOf item)
    (runs : Nat)
    {Q : Except Failure Unit → Stage → Prop}
    (hSettled :
      ∀ t, t.scope = s.scope.settled item → Q (.ok ()) t) :
    Ends (do
      if 1 < runs then
        Run.note .info
          ("template processing ran " ++ toString runs ++
            " times")
      settle item) s Q := by
  have hSettles :
      ∀ u : Stage, u.scope = s.scope →
        Ends (settle item) u Q := by
    intro u hScope
    have hThere : u.IsOf item :=
      ⟨hScope ▸ hItem.declarations, hScope ▸ hItem.test⟩
    rw [ends_settle hThere]
    apply hSettled
    rw [hScope]
  dsimp only
  split
  · rw [ends_bind, Run.note, Run.ends_step]
    exact hSettles _ rfl
  · exact hSettles s rfl

------------------------------------------------------------
-- Traces
------------------------------------------------------------

variable {P : Store → String → Prop}

theorem resetAll_changesAt
    {ds : List Declaration}
    (hPlaces : ∀ d ∈ ds, P .values d.identifier) :
    Moves (Stage.Follows (Scope.ChangesAt P))
      (resetAll ds) := by
  induction ds with
  | nil => exact Moves.pure _
  | cons d rest ih =>
      rw [resetAll]
      apply Moves.bind
      · exact Run.write_changesAt .outcome
          (hPlaces d List.mem_cons_self) fun _ => ⟨_, rfl⟩
      · intro _
        exact ih fun e hMem =>
          hPlaces e (List.mem_cons_of_mem d hMem)

/- Defaults are overridden for template variables only. -/
theorem takeDefaults_changesAt
    (engine : Engine)
    {defaults : List TemplateDefault}
    (hPlaces : ∀ g ∈ defaults, P .defaults g.identifier) :
    Moves (Stage.Follows (Scope.ChangesAt P))
      (takeDefaults engine defaults) := by
  induction defaults with
  | nil => exact Moves.pure _
  | cons g rest ih =>
      have hRest := ih fun e hMem =>
        hPlaces e (List.mem_cons_of_mem g hMem)
      intro s
      rw [takeDefaults, ends_bind, Run.ends_scope]
      dsimp only
      split
      · apply Moves.bind (Run.step_follows _) _ s
        intro v
        apply Moves.bind _ fun _ => hRest
        exact Run.write_changesAt .defaultValue
          (hPlaces g List.mem_cons_self) fun _ => ⟨v, rfl⟩
      · exact Moves.bind (Run.step_follows _)
          (fun _ => hRest) s

/- The places that runs of template processing write to. -/
def templatePlaces
    (item : Item)
    (store : Store)
    (name : String) :
    Prop :=
  Rule.WritesTo item.templateProcessing store name ∨
    (store = .values ∧
      name ∈ item.templates.map Declaration.identifier)

/- One run of template processing, from the defaults. -/
def templateRun (engine : Engine) (item : Item) :
    Run Outcome := do
  resetAll item.templates
  Rule.executeAll engine item.templateProcessing

theorem resetTemplates_changesAt (item : Item) :
    Moves (Stage.Follows (Scope.ChangesAt (templatePlaces item)))
      (resetAll item.templates) := by
  apply resetAll_changesAt
  intro d hMem
  exact Or.inr ⟨rfl, List.mem_map_of_mem hMem⟩

theorem templateRun_changesAt
    (engine : Engine)
    (item : Item) :
    Moves (Stage.Follows (Scope.ChangesAt (templatePlaces item)))
      (templateRun engine item) := by
  apply Moves.bind (resetTemplates_changesAt item)
  intro _
  apply Rule.executeAll_changesAt
  exact fun store name hWrites => Or.inl hWrites

theorem processTemplates_eq
    (engine : Engine)
    (item : Item)
    (left runs : Nat) :
    processTemplates engine item (left + 1) runs = (do
      match ← templateRun engine item with
      | .retry => processTemplates engine item left (runs + 1)
      | .continue | .exit => return runs + 1) := by
  rw [processTemplates, templateRun]
  exact (bind_assoc _ _ _).symm

theorem processTemplates_changesAt
    (engine : Engine)
    (item : Item)
    (left runs : Nat) :
    Moves (Stage.Follows (Scope.ChangesAt (templatePlaces item)))
      (processTemplates engine item left runs) := by
  induction left generalizing runs with
  | zero =>
      rw [processTemplates]
      apply Moves.bind (resetTemplates_changesAt item)
      intro _
      apply Moves.bind (Run.step_follows _)
      exact fun _ => Moves.pure _
  | succ left ih =>
      rw [processTemplates_eq]
      apply Moves.bind (templateRun_changesAt engine item)
      intro outcome
      cases outcome with
      | retry => exact ih (runs + 1)
      | «continue» => exact Moves.pure _
      | exit => exact Moves.pure _


/- A preparation changes declared variables. -/
theorem prepare_changesAt
    (engine : Engine)
    (item : Item)
    (defaults : List TemplateDefault) :
    Moves (Stage.Follows (Scope.ChangesAt fun _ _ => True))
      (prepare engine item defaults) := by
  have hSettle :
      Moves (Stage.Follows (Scope.ChangesAt fun _ _ => True))
        (settle item) := by
    apply Moves.bind (resetAll_changesAt fun _ _ => trivial)
    intro _
    apply Moves.bind
    · exact Run.write_changesAt .outcome trivial
        fun _ => ⟨_, rfl⟩
    · intro _
      exact Run.write_changesAt .outcome trivial
        fun _ => ⟨_, rfl⟩
  apply Moves.bind
    (takeDefaults_changesAt engine fun _ _ => trivial)
  intro _
  apply Moves.bind
  · apply (processTemplates_changesAt engine item _ 0).mono
    intro s t hChanges
    exact Scope.ChangesAt.mono hChanges fun _ _ _ => trivial
  · intro runs
    exact Moves.ite_bind (Run.step_follows _) fun _ => hSettle

/- The places that response processing writes to. -/
def responsePlaces
    (item : Item)
    (store : Store)
    (name : String) :
    Prop :=
  Rule.WritesTo item.responseProcessing store name ∨
    (store = .values ∧ item.adaptive = false ∧
      Builtin.isBuiltin name = false ∧
      name ∈ item.outcomes.map Declaration.identifier)

theorem respond_changesAt
    (engine : Engine)
    (item : Item) :
    Moves (Stage.Follows (Scope.ChangesAt (responsePlaces item)))
      (respond engine item) := by
  have hRules :
      Moves
        (Stage.Follows (Scope.ChangesAt (responsePlaces item)))
        (do let _ ← Rule.executeAll engine
              item.responseProcessing
            : Run Unit) := by
    apply Moves.bind _ fun _ => Moves.pure _
    apply Rule.executeAll_changesAt
    exact fun store name hWrites => Or.inl hWrites
  unfold respond
  dsimp only
  split
  · exact hRules
  next hPlain =>
    apply Moves.bind _ fun _ => hRules
    apply resetAll_changesAt
    intro d hMem
    obtain ⟨hOutcome, hOwn⟩ := List.mem_filter.mp hMem
    refine Or.inr ⟨rfl, ?_, ?_, List.mem_map_of_mem hOutcome⟩
    · simpa using hPlain
    · simpa using hOwn

end ItemSession

end Assessment
