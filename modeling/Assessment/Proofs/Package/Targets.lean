import Assessment.Proofs.Item.Setup
import Assessment.Proofs.Package.Sessions
import Assessment.Proofs.Rule.Targets
import Assessment.Proofs.Test.Notes
import Assessment.Proofs.Test.Typing
import Assessment.Proofs.Validation.Rules

/-
  The rules of validated packages.

  Besides what its rules say, an item session notes template
  defaults for what is no template variable, and how often
  template processing has run. Where the rules of the item
  find the variables that they write to, no call leaves a
  warning about a target.

  Validation promises that rules do what they are written to
  do: every one finds what it writes to, whatever has happened
  before, and rules break off for nothing but a fatal failure
  of a service. To start over is up to template processing.

  Main declarations:
    * `Item.Resolved`
    * `ItemSession.Unalarmed`
    * `ItemCall.unalarmed`
    * `Definition.RulesHold`, for the rules of a document
    * `Package.TargetsFound`, for all sessions of a package
    * `Package.validated_targetsFound`
-/

------------------------------------------------------------
-- Processing
------------------------------------------------------------

namespace Assessment

open Stateful

/- The rules of an item find what they write to. -/
structure Item.Resolved (i : Item) : Prop where
  templates :
    ∀ w ∈ Rule.writingsIn i.templateProcessing,
      w.Resolves i.declarations
  responses :
    ∀ w ∈ Rule.writingsIn i.responseProcessing,
      w.Resolves i.declarations

namespace ItemSession

variable {declarations : List Declaration}
variable {N : Note → Prop}

theorem resetAll_works (ds : List Declaration) :
    Run.Works declarations false N False (resetAll ds) := by
  induction ds with
  | nil => exact Works.pure ()
  | cons d rest ih =>
      apply Works.bind _ fun _ => ih
      apply Run.write_works
      exact fun s => ⟨.outcome, _, _, rfl⟩

theorem takeDefaults_works
    (engine : Engine)
    (defaults : List TemplateDefault) :
    Run.Works declarations false Note.Unalarming False
      (takeDefaults engine defaults) := by
  induction defaults with
  | nil => exact Works.pure ()
  | cons g rest ih =>
      intro s hOver
      simp only [takeDefaults]
      rw [ends_bind, Run.ends_scope]
      dsimp only
      split
      · refine Works.bind ?_ (fun v => ?_) s hOver
        · exact (Rule.valueOf_works g.value).weaken False.elim
        · apply Works.bind _ fun _ => ih
          apply Run.write_works
          exact fun s => ⟨.defaultValue, _, _, rfl⟩
      · refine Works.bind (Run.warn_works fun _ => ?_)
          (fun _ => ih) s hOver
        apply TargetWarning.not_of_starts
        · exact (Text.starts_append _ _).append _
        · decide

variable {item : Item}

/- Template rules leave no alarm, however often they run. -/
theorem processTemplates_works
    (engine : Engine)
    (hResolve :
      ∀ w ∈ Rule.writingsIn item.templateProcessing,
        w.Resolves declarations)
    (left runs : Nat) :
    Run.Works declarations false Note.Unalarming False
      (processTemplates engine item left runs) := by
  induction left generalizing runs with
  | zero =>
      rw [processTemplates]
      apply Works.bind (resetAll_works item.templates)
      intro _
      apply Works.bind _ fun _ => Works.pure _
      apply Run.warn_works
      intro _
      apply TargetWarning.not_of_starts
      · exact (Text.starts_append _ _).append _
      · decide
  | succ left ih =>
      rw [processTemplates]
      apply Works.bind (resetAll_works item.templates)
      intro _
      apply Works.bind
      · have hRules :=
          Rule.executeAll_works engine false hResolve (by simp)
        exact hRules.weaken False.elim
      · intro outcome
        cases outcome with
        | retry => exact ih (runs + 1)
        | «continue» => exact Works.pure _
        | exit => exact Works.pure _

theorem prepare_works
    (engine : Engine)
    (hResolve :
      ∀ w ∈ Rule.writingsIn item.templateProcessing,
        w.Resolves declarations)
    (defaults : List TemplateDefault) :
    Run.Works declarations false Note.Unalarming False
      (prepare engine item defaults) := by
  have hBuiltins :
      Run.Works declarations false Note.Unalarming False (do
        resetAll (item.declarations.filter fun d =>
          d.kind != .template)
        Run.write fun s =>
          s.setValue Builtin.numAttempts (.integer 0)
        Run.write fun s =>
          s.setValue Builtin.duration (.float 0)) := by
    apply Works.bind (resetAll_works _)
    intro _
    apply Works.bind
    · apply Run.write_works
      exact fun s => ⟨.outcome, _, _, rfl⟩
    · intro _
      apply Run.write_works
      exact fun s => ⟨.outcome, _, _, rfl⟩
  unfold prepare
  apply Works.bind (takeDefaults_works engine defaults)
  intro _
  apply Works.bind (processTemplates_works engine hResolve _ 0)
  intro runs
  dsimp only
  split
  · apply Works.bind _ fun _ => hBuiltins
    apply Run.note_works
    intro _
    apply TargetWarning.not_of_starts
    · exact (Text.starts_append _ _).append _
    · decide
  · exact hBuiltins

theorem respond_works
    (engine : Engine)
    (hResolve :
      ∀ w ∈ Rule.writingsIn item.responseProcessing,
        w.Resolves declarations) :
    Run.Works declarations false Note.Unalarming False
      (respond engine item) := by
  have hRules :
      Run.Works declarations false Note.Unalarming False (do
        let _ ← Rule.executeAll engine item.responseProcessing
        : Run Unit) := by
    apply Works.bind _ fun _ => Works.pure ()
    have hAll :=
      Rule.executeAll_works engine false hResolve (by simp)
    exact hAll.weaken False.elim
  unfold respond
  dsimp only
  split
  · exact hRules
  · exact Works.bind (resetAll_works _) fun _ => hRules

------------------------------------------------------------
-- Sessions
------------------------------------------------------------

/-
  A step that adds no warning about a target, if the rules of
  the item find theirs.
-/
structure Unalarmed (s t : ItemSession) : Prop where
  item : t.item = s.item
  notes : s.item.Resolved → s.tally.Adds Note.Unalarming t.tally

theorem unalarmed_of_tally
    {s t : ItemSession}
    (hItem : t.item = s.item)
    (hTally : t.tally = s.tally) :
    s.Unalarmed t :=
  ⟨hItem, fun _ => Tally.Adds.of_eq (by rw [hTally])⟩

instance : Std.Refl Unalarmed where
  refl _ := unalarmed_of_tally rfl rfl

instance : IsTrans ItemSession Unalarmed where
  trans s t u hFirst hThen := by
    refine ⟨hThen.item.trans hFirst.item, fun hResolved => ?_⟩
    have hLater := hThen.notes (hFirst.item.symm ▸ hResolved)
    exact IsTrans.trans (r := Tally.Adds Note.Unalarming) _ _ _
      (hFirst.notes hResolved) hLater

/- A run over the variables of a session tells what it adds. -/
theorem ends_runRules_unalarmed
    {α : Type}
    {x : Run α}
    {s : ItemSession}
    (hWorks :
      s.item.Resolved →
        Run.Works s.item.declarations false Note.Unalarming
          False x) :
    Ends (runRules x) s fun _ t => s.Unalarmed t := by
  rw [ends_runRules]
  refine ⟨rfl, fun hResolved => ?_⟩
  exact (hWorks hResolved ⟨s.scope, s.tally⟩ ⟨rfl, rfl⟩).2.1

theorem upToRules_unalarmed : UpToRules Unalarmed where
  item _ _ hStep := hStep.item
  state _ _ := unalarmed_of_tally rfl rfl
  events _ _ := unalarmed_of_tally rfl rfl
  prepare engine defaults _ :=
    ends_runRules_unalarmed fun hResolved =>
      prepare_works engine hResolved.templates defaults
  respond engine _ :=
    ends_runRules_unalarmed fun hResolved =>
      respond_works engine hResolved.responses

end ItemSession

/- No call leaves a warning about a target of such an item. -/
theorem ItemCall.unalarmed (c : ItemCall) :
    Moves ItemSession.Unalarmed c.action :=
  c.moves_of_rules ItemSession.upToRules_unalarmed

------------------------------------------------------------
-- Documents
------------------------------------------------------------

open Stateful

/- Whether a definition is that of a test. -/
def Definition.isTest : Definition → Bool
  | .item _ => false
  | .test _ => true

/-
  The rules of a document find their targets. Whatever values
  its variables have, they go through as long as no failure of
  a service is fatal, without a warning about a target, and
  only template processing may have to start over.
-/
structure Definition.RulesHold (d : Definition) : Prop where
  resolves :
    ∀ l ∈ d.ruleLists, ∀ w ∈ Rule.writingsIn l.rules,
      w.Resolves d.declarations
  works :
    ∀ l ∈ d.ruleLists, ∀ (engine : Engine) (s : Stage),
      s.Over d.declarations d.isTest → engine.Lenient →
      Ends (Rule.executeAll engine l.rules) s fun r t =>
        s.Adds Note.Unalarming t ∧
          ∃ outcome, r = .ok outcome ∧
            (outcome = .retry → l.kind = .template)

namespace Package

variable {c : Catalogue}
variable {p : Package}

/- In a test only values are written, item by item anything. -/
theorem Cleared.writes_values
    (hCleared : p.Cleared c)
    {d : Definition}
    (hDefined : d ∈ c.definitions)
    {l : RuleList}
    (hList : l ∈ d.ruleLists)
    (hTest : d.isTest = true)
    (w : Writing)
    (hMem : w ∈ Rule.writingsIn l.rules) :
    w.store = .values := by
  apply (hCleared.resolves hDefined hList hMem).2
  cases d with
  | item i => cases hTest
  | test t =>
      rw [Definition.ruleLists, List.mem_singleton] at hList
      rw [hList]

theorem Cleared.rulesHold
    (hCleared : p.Cleared c)
    {d : Definition}
    (hDefined : d ∈ c.definitions) :
    d.RulesHold := by
  have hResolves : ∀ l ∈ d.ruleLists,
      ∀ w ∈ Rule.writingsIn l.rules,
        w.Resolves d.declarations :=
    fun l hList w hMem =>
      (hCleared.resolves hDefined hList hMem).1
  refine ⟨hResolves, ?_⟩
  intro l hList engine s hOver hLenient
  have hWorks := Rule.executeAll_works engine d.isTest
    (hResolves l hList)
    (fun hTest => hCleared.writes_values hDefined hList hTest)
    s hOver
  by_cases hTemplate : l.kind = .template
  · apply hWorks.mono
    rintro r t ⟨_, hAdds, hOk⟩
    obtain ⟨outcome, hSame⟩ := hOk hLenient
    exact ⟨hAdds, outcome, hSame, fun _ => hTemplate⟩
  · have hProceeds := Rule.executeAll_proceeds engine l.rules
      (hCleared.constraintsIn_eq_nil hDefined hList hTemplate) s
    apply (hWorks.and hProceeds).mono
    rintro r t ⟨⟨_, hAdds, hOk⟩, hOther⟩
    obtain ⟨outcome, rfl⟩ := hOk hLenient
    refine ⟨hAdds, outcome, rfl, ?_⟩
    rintro rfl
    exact absurd rfl hOther

------------------------------------------------------------
-- Sessions
------------------------------------------------------------

/-
  The rules of all documents hold, and no session on an item
  or a test ever has a warning about the target of a rule.
-/
structure TargetsFound (p : Package) : Prop where
  items :
    ∀ name i, p.items.get? name = some i →
      (Definition.item i).RulesHold
  tests :
    ∀ name t, p.tests.get? name = some t →
      (Definition.test t).RulesHold
  itemNotes :
    ∀ s, p.Reaches s →
      ∀ n ∈ s.tally.notes, ¬ TargetWarning n.message
  testNotes :
    ∀ name t, p.tests.get? name = some t →
      ∀ (engine : Engine) (draws : Draws) (first : TestSession),
        TestSession.start t p.items engine draws = .ok first →
        ∀ calls : List TestCall,
          ∀ n ∈ (first.after calls).allNotes,
            ¬ TargetWarning n.message

theorem Cleared.item_resolved
    (hCleared : p.Cleared c)
    {name : String}
    {i : Item}
    (hItem : p.items.get? name = some i) :
    i.Resolved := by
  have hHold :=
    hCleared.rulesHold (hCleared.items name i hItem)
  constructor
  · exact hHold.resolves
      ⟨"templateProcessing", .template, i.templateProcessing⟩
      (by simp [Definition.ruleLists])
  · exact hHold.resolves
      ⟨"responseProcessing", .response, i.responseProcessing⟩
      (by simp [Definition.ruleLists])

theorem Cleared.test_resolved
    (hCleared : p.Cleared c)
    {name : String}
    {t : Test}
    (hTest : p.tests.get? name = some t) :
    t.Resolved := by
  have hDefined := hCleared.tests name t hTest
  have hHold := hCleared.rulesHold hDefined
  have hList :
      (⟨"outcomeProcessing", .outcome, t.outcomeProcessing⟩ :
        RuleList) ∈ (Definition.test t).ruleLists := by
    simp [Definition.ruleLists]
  exact ⟨hHold.resolves _ hList,
    hCleared.writes_values hDefined hList rfl⟩

/- From call to call no warning about a target is added. -/
theorem Cleared.reaches_unalarming
    (hCleared : p.Cleared c)
    {s : ItemSession}
    (hReached : p.Reaches s) :
    ∀ n ∈ s.tally.notes, n.Unalarming := by
  induction hReached with
  | fresh name item engine draws control timeLimits submission
      hItem => simp [ItemSession.fresh, ItemSession.new]
  | call s call hReached hPermits ih =>
      obtain ⟨name, hItem⟩ := hReached.item
      have hStep : s.Unalarmed (s.after [call]) :=
        call.unalarmed s
      exact (hStep.notes
        (hCleared.item_resolved hItem)).forall_mem ih
  | handOver s _ ih => exact ih

theorem Cleared.targetsFound (hCleared : p.Cleared c) :
    p.TargetsFound := by
  constructor
  · intro name i hItem
    exact hCleared.rulesHold (hCleared.items name i hItem)
  · intro name t hTest
    exact hCleared.rulesHold (hCleared.tests name t hTest)
  · exact fun s hReached => hCleared.reaches_unalarming hReached
  · intro name t hTest engine draws first hStart calls
    obtain ⟨rfl, hHosts, _⟩ :=
      TestSession.start_hosts hTest hStart
    have hOwn : first.Unalarmed (first.after calls) :=
      after_moves TestCall.unalarmed first calls
    have hKeeps : first.Keeps p (first.after calls) :=
      after_moves TestCall.keeps first calls
    have hTally := (hOwn.notes
      (hCleared.test_resolved hTest)).forall_mem
        (TestSession.start_unalarming hStart)
    rw [TestSession.allNotes, List.forall_mem_append]
    refine ⟨hTally, fun n hMem => ?_⟩
    obtain ⟨e, hEntry, hNote⟩ := List.mem_flatMap.mp hMem
    have hReached := (hKeeps.hosts hHosts e hEntry).1
    exact hCleared.reaches_unalarming hReached n hNote

/-
  In a package that validation finds no error in, rules always
  find their targets, whatever is called on its sessions.
-/
theorem validated_targetsFound
    (v : Json)
    (r : Report)
    (hValid : validate v (Pass.all.map Pass.name) = .ok r)
    (hClean : r.has .error = false) :
    ∃ p, ofJson v = .ok p ∧ p.TargetsFound := by
  obtain ⟨_, p, _, hBuild, hCleared⟩ := exists_cleared hValid hClean
  exact ⟨p, hBuild, hCleared.targetsFound⟩

------------------------------------------------------------
-- A Graded Item
------------------------------------------------------------

/- The number that the item has drawn. -/
def gradedSeed : Json :=
  .ofMembers [
    ("expr", .string "variable"),
    ("identifier", .string "SEED")]

/-
  An item whose template processing draws a number until it
  is as wanted, and whose response processing looks a grade
  up for it.
-/
def gradedPackage : Json :=
  .ofMembers [
    ("id", .string "package"),
    ("documents", .array [
      .ofMembers [
        ("kind", .string "AssessmentItem"),
        ("identifier", .string "item"),
        ("templateDeclarations", .array [
          .ofMembers [
            ("identifier", .string "SEED"),
            ("cardinality", .string "single"),
            ("baseType", .string "integer")]]),
        ("outcomeDeclarations", .array [
          .ofMembers [
            ("identifier", .string "GRADE"),
            ("cardinality", .string "single"),
            ("baseType", .string "boolean"),
            ("lookupTable", .ofMembers [
              ("matchTable", .ofMembers [
                ("entries", .array [
                  .ofMembers [
                    ("sourceValue", .nat 1),
                    ("targetValue", .bool true)]])])])]]),
        ("templateProcessing", .array [
          .ofMembers [
            ("rule", .string "setTemplateValue"),
            ("identifier", .string "SEED"),
            ("expression", .ofMembers [
              ("expr", .string "randomInteger"),
              ("max", .nat 2)])],
          .ofMembers [
            ("rule", .string "templateConstraint"),
            ("expression", .ofMembers [
              ("expr", .string "match"),
              ("args", .array [
                gradedSeed,
                .ofMembers [
                  ("expr", .string "baseValue"),
                  ("baseType", .string "integer"),
                  ("value", .nat 1)]])])]]),
        ("responseProcessing", .array [
          .ofMembers [
            ("rule", .string "lookupOutcomeValue"),
            ("identifier", .string "GRADE"),
            ("expression", gradedSeed)]])]])]

/- Its rules find what they write to. -/
theorem validated_targetsFound_graded :
    ∃ r, validate gradedPackage (Pass.all.map Pass.name) =
        .ok r ∧
      r.has .error = false ∧
      ∃ p i, ofJson gradedPackage = .ok p ∧
        p.items.get? "item" = some i ∧
        Rule.writingsIn i.responseProcessing =
          [.lookup "GRADE"] ∧
        p.TargetsFound := by
  refine ⟨⟨Pass.all, []⟩, rfl, rfl, ?_⟩
  obtain ⟨p, hBuild, hFound⟩ := validated_targetsFound
    gradedPackage ⟨Pass.all, []⟩ rfl rfl
  have hItem : ∃ p i, ofJson gradedPackage = .ok p ∧
      p.items.get? "item" = some i ∧
      Rule.writingsIn i.responseProcessing =
        [.lookup "GRADE"] :=
    ⟨_, _, rfl, rfl, rfl⟩
  obtain ⟨p', i, hBuild', hItem, hWrites⟩ := hItem
  rw [hBuild] at hBuild'
  cases hBuild'
  exact ⟨p, i, hBuild, hItem, hWrites, hFound⟩

end Package

end Assessment
