import Assessment.Proofs.Rule.Deeds
import Assessment.Proofs.Rule.Targets
import Assessment.Proofs.Validation.Cleared
import Assessment.Validation.Walk

/-
  What validation ensures of rules.

  Validation looks at the nodes of rules and expressions one
  by one. Whatever rules do, they do at one of the nodes that
  it looks at, and every expression inside theirs is such a
  node too.

  In a cleared package every rule writes to a variable of its
  own document, of a family it may write to and with a lookup
  table if it needs one. Constraints stand in template
  processing only, and tests write nothing but the values of
  outcomes.

  Main declarations:
    * `Rule.ownDeeds`, what a rule does itself
    * `Rule.Covers`, nodes at which everything is done
    * `Rule.nodesIn_covers`
    * `Definition.exists_mem_expressions`
    * `Definition.declarations`
    * `Package.Cleared.lookup_ne_unresolved`
    * `Package.Cleared.resolves`, for writes
    * `Package.Cleared.constraintsIn_eq_nil`
-/

------------------------------------------------------------
-- Rules
------------------------------------------------------------

namespace Assessment

/- The tests of the branches of a condition. -/
def Chain.tests : Chain → List Expression
  | .branch test _ rest => test :: rest.tests
  | .otherwise _ | .nothing => []

namespace Rule

/- What a rule does itself, the rules below it left out. -/
def ownDeeds : Rule → List Deed
  | .condition _ test _ rest =>
      .decide test :: rest.tests.map .decide
  | .setValue target identifier e =>
      [.write (.set target identifier) e]
  | .lookup identifier e => [.write (.lookup identifier) e]
  | .constraint test => [.decide test]
  | .exit _ | .fragment .. => []

/- All of some deeds are done, and some constraints set. -/
structure Covers
    (nodes : List (Path × Rule))
    (deeds : List Deed)
    (constraints : List Expression) :
    Prop where
  deeds : ∀ d ∈ deeds, ∃ x ∈ nodes, d ∈ x.2.ownDeeds
  constraints :
    ∀ e ∈ constraints, ∃ x ∈ nodes, x.2 = .constraint e

namespace Covers

variable {nodes more : List (Path × Rule)}
variable {ds ds' : List Deed}
variable {cs cs' : List Expression}

theorem nothing (nodes : List (Path × Rule)) :
    Covers nodes [] [] := by
  constructor <;> simp

/- There may be more nodes. -/
theorem mono
    (hCovers : Covers nodes ds cs)
    (hSubset : nodes ⊆ more) :
    Covers more ds cs := by
  constructor
  · intro d hMem
    obtain ⟨x, hNode, hOwn⟩ := hCovers.deeds d hMem
    exact ⟨x, hSubset hNode, hOwn⟩
  · intro e hMem
    obtain ⟨x, hNode, hIs⟩ := hCovers.constraints e hMem
    exact ⟨x, hSubset hNode, hIs⟩

theorem append
    (hFirst : Covers nodes ds cs)
    (hSecond : Covers nodes ds' cs') :
    Covers nodes (ds ++ ds') (cs ++ cs') := by
  constructor
  · rw [List.forall_mem_append]
    exact ⟨hFirst.deeds, hSecond.deeds⟩
  · rw [List.forall_mem_append]
    exact ⟨hFirst.constraints, hSecond.constraints⟩

/- A node does one deed more. -/
theorem cons
    {x : Path × Rule}
    (hNode : x ∈ nodes)
    {d : Deed}
    (hOwn : d ∈ x.2.ownDeeds)
    (hCovers : Covers nodes ds cs) :
    Covers nodes (d :: ds) cs := by
  constructor
  · rw [List.forall_mem_cons]
    exact ⟨⟨x, hNode, hOwn⟩, hCovers.deeds⟩
  · exact hCovers.constraints

end Covers

mutual

/- Induction over rules. The tests of a chain are its rule's. -/
theorem nodes_covers (path : Path) (r : Rule) :
    Covers (r.nodes path) r.deeds r.constraints := by
  match r with
  | .condition kind test rules rest =>
      have hRules :=
        nodesIn_covers (path.child kind.ifBranch) "rules" 0 rules
      have hRest := chainNodes_covers path kind 0 rest
        (path, .condition kind test rules rest)
        (by simp +contextual [ownDeeds])
      rw [nodes, deeds, constraints, List.cons_append]
      apply Covers.cons List.mem_cons_self
      · simp [ownDeeds]
      · apply Covers.append
        · apply hRules.mono
          intro x hMem
          simp [hMem]
        · apply hRest.mono
          intro x hMem
          simp only [List.mem_cons, List.mem_append] at hMem ⊢
          tauto
  | .setValue target identifier e =>
      rw [nodes, deeds, constraints]
      apply Covers.cons List.mem_cons_self
      · simp [ownDeeds]
      · exact Covers.nothing _
  | .lookup identifier e =>
      rw [nodes, deeds, constraints]
      apply Covers.cons List.mem_cons_self
      · simp [ownDeeds]
      · exact Covers.nothing _
  | .exit kind =>
      rw [nodes, deeds, constraints]
      exact Covers.nothing _
  | .constraint test =>
      rw [nodes, deeds, constraints]
      constructor <;> simp [ownDeeds]
  | .fragment kind rules =>
      have hRules := nodesIn_covers path "rules" 0 rules
      rw [nodes, deeds, constraints]
      exact hRules.mono (List.subset_cons_self _ _)

theorem nodesIn_covers
    (parent : Path)
    (field : String)
    (index : Nat)
    (rules : List Rule) :
    Covers (nodesIn parent field index rules) (deedsIn rules)
      (constraintsIn rules) := by
  match rules with
  | [] => exact Covers.nothing _
  | r :: rest =>
      have hFirst := nodes_covers (parent.indexed field index) r
      have hRest := nodesIn_covers parent field (index + 1) rest
      rw [nodesIn, deedsIn, constraintsIn]
      apply Covers.append
      · exact hFirst.mono (List.subset_append_left _ _)
      · exact hRest.mono (List.subset_append_right _ _)

theorem chainNodes_covers
    (path : Path)
    (kind : ProcessingKind)
    (index : Nat)
    (c : Chain)
    (x : Path × Rule)
    (hTests : ∀ e ∈ c.tests, .decide e ∈ x.2.ownDeeds) :
    Covers (x :: Chain.nodes path kind index c) (chainDeeds c)
      (chainConstraints c) := by
  match c with
  | .branch test rules rest =>
      rw [Chain.tests, List.forall_mem_cons] at hTests
      have hRules := nodesIn_covers
        (path.indexed kind.elseIfBranch index) "rules" 0 rules
      have hRest := chainNodes_covers path kind (index + 1) rest
        x hTests.2
      rw [Chain.nodes, chainDeeds, chainConstraints]
      apply Covers.cons List.mem_cons_self hTests.1
      apply Covers.append
      · apply hRules.mono
        intro y hMem
        simp [hMem]
      · apply hRest.mono
        intro y hMem
        simp only [List.mem_cons, List.mem_append] at hMem ⊢
        tauto
  | .otherwise rules =>
      have hRules := nodesIn_covers
        (path.child kind.elseBranch) "rules" 0 rules
      rw [Chain.nodes, chainDeeds, chainConstraints]
      exact hRules.mono (List.subset_cons_self _ _)
  | .nothing => exact Covers.nothing _

end

------------------------------------------------------------
-- Expressions
------------------------------------------------------------

theorem exists_mem_conditions
    (path : Path)
    (kind : ProcessingKind)
    (index : Nat)
    {c : Chain}
    {test : Expression}
    (hMem : test ∈ c.tests) :
    ∃ field, (field, test) ∈ c.conditions path kind index := by
  match c with
  | .branch first rules rest =>
      rcases List.mem_cons.mp hMem with rfl | hLater
      · exact ⟨_, List.mem_cons_self⟩
      · obtain ⟨field, hField⟩ :=
          exists_mem_conditions path kind (index + 1) hLater
        exact ⟨field, List.mem_cons_of_mem _ hField⟩
  | .otherwise rules => cases hMem
  | .nothing => cases hMem

/- What a rule does itself it does with its expressions. -/
theorem exists_mem_expressions
    (path : Path)
    {r : Rule}
    {d : Deed}
    (hOwn : d ∈ r.ownDeeds) :
    ∃ field, (field, d.expression) ∈ r.expressions path := by
  cases r with
  | condition kind test rules rest =>
      rcases List.mem_cons.mp hOwn with rfl | hTest
      · exact ⟨_, List.mem_cons_self⟩
      · obtain ⟨test', hMem, rfl⟩ := List.mem_map.mp hTest
        obtain ⟨field, hField⟩ :=
          exists_mem_conditions path kind 0 hMem
        exact ⟨field, List.mem_cons_of_mem _ hField⟩
  | setValue target identifier e =>
      obtain rfl := List.mem_singleton.mp hOwn
      exact ⟨_, List.mem_cons_self⟩
  | lookup identifier e =>
      obtain rfl := List.mem_singleton.mp hOwn
      exact ⟨_, List.mem_cons_self⟩
  | exit kind => cases hOwn
  | constraint test =>
      obtain rfl := List.mem_singleton.mp hOwn
      exact ⟨_, List.mem_cons_self⟩
  | fragment kind rules => cases hOwn

end Rule

/- All that is inside an expression is among its nodes. -/
theorem Expression.exists_mem_nodes
    {e x : Expression}
    (hInside : x ∈ e.subexpressions)
    (path : Path) :
    ∃ inner, (inner, x) ∈ e.nodes path := by
  induction e using inductionOn generalizing path with
  | leaf l =>
      obtain rfl := mem_subexpressions_leaf.mp hInside
      exact ⟨path, by simp [nodes]⟩
  | node op args ih =>
      rw [nodes]
      rcases mem_subexpressions_node.mp hInside with
        rfl | ⟨arg, hArg, hWithin⟩
      · exact ⟨path, List.mem_cons_self⟩
      · have hArgs : ∀ index, ∃ inner,
            (inner, x) ∈ nodesIn path index args := by
          clear hInside
          induction args with
          | nil => cases hArg
          | cons first rest ihArgs =>
              intro index
              rw [nodesIn]
              rcases List.mem_cons.mp hArg with rfl | hLater
              · obtain ⟨inner, hInner⟩ :=
                  ih arg List.mem_cons_self hWithin
                    (path.indexed arg.name index)
                exact ⟨inner, List.mem_append_left _ hInner⟩
              · obtain ⟨inner, hInner⟩ := ihArgs
                  (fun e hMem =>
                    ih e (List.mem_cons_of_mem _ hMem))
                  hLater (index + 1)
                exact ⟨inner, List.mem_append_right _ hInner⟩
        obtain ⟨inner, hInner⟩ := hArgs 0
        exact ⟨inner, List.mem_cons_of_mem _ hInner⟩

------------------------------------------------------------
-- Definitions
------------------------------------------------------------

namespace Definition

variable {d : Definition}
variable {l : RuleList}

theorem mem_rules
    (hList : l ∈ d.ruleLists)
    {x : Path × Rule}
    (hMem :
      x ∈ Rule.nodesIn (.root d.identifier) l.field 0 l.rules) :
    (l.kind, x) ∈ d.rules :=
  List.mem_flatMap.mpr ⟨l, hList, List.mem_map_of_mem hMem⟩

/- Whatever its rules do is done at one of its rules. -/
theorem exists_mem_rules
    (hList : l ∈ d.ruleLists)
    {deed : Deed}
    (hDeed : deed ∈ Rule.deedsIn l.rules) :
    ∃ path r, (l.kind, path, r) ∈ d.rules ∧
      deed ∈ r.ownDeeds := by
  obtain ⟨⟨path, r⟩, hNode, hOwn⟩ :=
    (Rule.nodesIn_covers (.root d.identifier) l.field 0
      l.rules).deeds deed hDeed
  exact ⟨path, r, mem_rules hList hNode, hOwn⟩

/- Every constraint of its rules is one of its rules. -/
theorem exists_constraint_mem_rules
    (hList : l ∈ d.ruleLists)
    {test : Expression}
    (hConstraint : test ∈ Rule.constraintsIn l.rules) :
    ∃ path, (l.kind, path, .constraint test) ∈ d.rules := by
  obtain ⟨⟨path, r⟩, hNode, rfl⟩ :=
    (Rule.nodesIn_covers (.root d.identifier) l.field 0
      l.rules).constraints test hConstraint
  exact ⟨path, mem_rules hList hNode⟩

/- All that is inside their expressions is among the nodes. -/
theorem exists_mem_expressions
    (hList : l ∈ d.ruleLists)
    {deed : Deed}
    (hDeed : deed ∈ Rule.deedsIn l.rules)
    {e : Expression}
    (hInside : e ∈ deed.expression.subexpressions) :
    ∃ path, (path, e) ∈ d.expressions := by
  obtain ⟨path, r, hRule, hOwn⟩ := exists_mem_rules hList hDeed
  obtain ⟨field, hField⟩ := Rule.exists_mem_expressions path hOwn
  obtain ⟨inner, hInner⟩ := Expression.exists_mem_nodes hInside
    (field.child deed.expression.name)
  exact ⟨inner, List.mem_flatMap.mpr ⟨_, hRule,
    List.mem_flatMap.mpr ⟨_, hField, hInner⟩⟩⟩

end Definition

------------------------------------------------------------
-- Names
------------------------------------------------------------

open Finding (NoErrors noErrors_append eq_false_of_noErrors_when)

/- The variables of an item or of a test. -/
def Definition.declarations : Definition → List Declaration
  | .item i => i.declarations
  | .test t => t.declarations

/- Text without a dot is no dotted name. -/
theorem DottedName.splitAtDot_eq_none
    {text : List Char}
    (hPlain : text.contains '.' = false) :
    splitAtDot text = none := by
  induction text with
  | nil => rfl
  | cons c rest ih =>
      rw [List.contains_cons, Bool.or_eq_false_iff] at hPlain
      have hOther : (c == '.') = false := by
        rw [beq_eq_false_iff_ne] at hPlain ⊢
        exact hPlain.1.symm
      simp [splitAtDot, hOther, ih hPlain.2]

/- A plain name stands for a variable of its own document. -/
theorem Catalogue.lookup_of_plain
    {name : String}
    (hPlain : name.toList.contains '.' = false)
    (c : Catalogue)
    (d : Definition) :
    c.lookup d name =
      .ofOption (findDeclaration? d.declarations name) := by
  cases d with
  | item i => rfl
  | test t =>
      have hNone : DottedName.parse? name = none := by
        simp [DottedName.parse?,
          DottedName.splitAtDot_eq_none hPlain]
      simp only [lookup, hNone]
      rfl

/- A reference with an identifier is one of the placements. -/
theorem Test.exists_placement_of_itemRef?
    {t : Test}
    {name : String}
    {ref : ItemRef}
    (hFound : t.itemRef? name = some ref) :
    ∃ q ∈ t.placements, q.ref = ref ∧ ref.identifier = name := by
  obtain ⟨q, hFirst, rfl⟩ := Option.map_eq_some_iff.mp hFound
  refine ⟨q, List.mem_of_find?_eq_some hFirst, rfl, ?_⟩
  simpa using List.find?_some hFirst

/- The families that validation asks for can be written to. -/
theorem SetTarget.allows_of_mem_families
    {target : SetTarget}
    {kind : VariableKind}
    (hMem : kind ∈ Rule.families target) :
    target.allows kind = true := by
  revert hMem
  cases target <;> cases kind <;> decide

/- In a test only values are written. -/
theorem SetTarget.store_of_mem_kindsOfTarget
    {target : SetTarget}
    (hMem : .outcome ∈ Rule.kindsOfTarget target) :
    target.store = .values := by
  revert hMem
  cases target <;> decide

namespace Package

variable {c : Catalogue}
variable {p : Package}

namespace Cleared

/- In a cleared package names lead somewhere or nowhere. -/
theorem lookup_ne_unresolved
    (hCleared : p.Cleared c)
    {d : Definition}
    (hDefined : d ∈ c.definitions)
    (name : String) :
    c.lookup d name ≠ .unresolved := by
  have hOption : ∀ o : Option Declaration,
      Lookup.ofOption o ≠ .unresolved := by
    intro o
    cases o <;> simp [Lookup.ofOption]
  cases d with
  | item i => exact hOption _
  | test t =>
      rw [Catalogue.lookup]
      split
      next => exact hOption _
      next dotted _ =>
        unfold Catalogue.lookupDotted
        split
        next => simp
        next ref hRef =>
          obtain ⟨q, hMem, rfl, _⟩ :=
            Test.exists_placement_of_itemRef? hRef
          have hItem := hCleared.hrefs t hDefined q hMem
          rw [← hCleared.item?] at hItem
          split
          next hNone => simp [hNone] at hItem
          next => exact hOption _

------------------------------------------------------------
-- Targets
------------------------------------------------------------

/- A target that passes is a variable of the document. -/
theorem exists_target
    (hCleared : p.Cleared c)
    {d : Definition}
    (hDefined : d ∈ c.definitions)
    {path : Path}
    {rule identifier : String}
    {wanted : List VariableKind}
    {check : Declaration → Rule.Findings}
    (hClean :
      NoErrors RuleProblem.severity
        (Rule.withTarget path
          (Rule.target (c.lookup d) rule identifier wanted)
          check)) :
    ∃ x, findDeclaration? d.declarations identifier = some x ∧
      x.kind ∈ wanted ∧
      NoErrors RuleProblem.severity (check x) := by
  have hKnown :=
    hCleared.lookup_ne_unresolved hDefined identifier
  have hNoError : ∀ problem : RuleProblem,
      problem.severity = .error →
        ¬ NoErrors RuleProblem.severity [⟨path, problem⟩] := by
    intro problem hError hNone
    exact hNone _ List.mem_cons_self hError
  unfold Rule.target at hClean
  split at hClean
  next hUnresolved => exact absurd hUnresolved hKnown
  next => exact absurd hClean (hNoError _ rfl)
  next x hFound =>
    split at hClean
    next => exact absurd hClean (hNoError _ rfl)
    next hPlain =>
      split at hClean
      next => exact absurd hClean (hNoError _ rfl)
      next hKind =>
        rw [Catalogue.lookup_of_plain (by simpa using hPlain)]
          at hFound
        refine ⟨x, ?_, by simpa using hKind, hClean⟩
        cases hOwn :
            findDeclaration? d.declarations identifier with
        | none =>
            rw [hOwn] at hFound
            cases hFound
        | some y =>
            rw [hOwn] at hFound
            cases hFound
            rfl

/- The rules of a definition are checked one by one. -/
theorem noErrors_check
    (hCleared : p.Cleared c)
    {d : Definition}
    (hDefined : d ∈ c.definitions)
    {kind : ProcessingKind}
    {path : Path}
    {r : Rule}
    (hRule : (kind, path, r) ∈ d.rules) :
    kind ∈ r.kinds ∧
      NoErrors RuleProblem.severity
        (r.checkEffect (c.lookup d) path) := by
  have hCheck :
      NoErrors RuleProblem.severity
        (r.check (c.lookup d) kind path) := by
    intro f hMem
    apply hCleared.rules d hDefined
    exact List.mem_flatMap.mpr ⟨(kind, path, r), hRule, hMem⟩
  rw [Rule.check, noErrors_append] at hCheck
  have hPlace := eq_false_of_noErrors_when hCheck.1 rfl
  exact ⟨by simpa using hPlace, hCheck.2⟩

/- What a rule writes to is there for it. -/
theorem resolves_own
    (hCleared : p.Cleared c)
    {d : Definition}
    (hDefined : d ∈ c.definitions)
    {kind : ProcessingKind}
    {path : Path}
    {r : Rule}
    (hRule : (kind, path, r) ∈ d.rules)
    {w : Writing}
    {e : Expression}
    (hOwn : .write w e ∈ r.ownDeeds) :
    w.Resolves d.declarations ∧
      (kind = .outcome → w.store = .values) := by
  obtain ⟨hKind, hEffect⟩ :=
    hCleared.noErrors_check hDefined hRule
  cases r with
  | condition kind test rules rest =>
      simp [Rule.ownDeeds] at hOwn
  | setValue target identifier value =>
      obtain ⟨rfl, rfl⟩ : w = .set target identifier ∧ e = value := by
        simpa [Rule.ownDeeds] using hOwn
      obtain ⟨x, hFound, hFamily, _⟩ :=
        hCleared.exists_target hDefined hEffect
      constructor
      · exact ⟨x, hFound, SetTarget.allows_of_mem_families hFamily⟩
      · rintro rfl
        exact SetTarget.store_of_mem_kindsOfTarget hKind
  | lookup identifier value =>
      obtain ⟨rfl, rfl⟩ : w = .lookup identifier ∧ e = value := by
        simpa [Rule.ownDeeds] using hOwn
      obtain ⟨x, hFound, _, hTable⟩ :=
        hCleared.exists_target hDefined hEffect
      refine ⟨⟨x, hFound, ?_⟩, fun _ => rfl⟩
      cases hSome : x.table? with
      | none =>
          rw [hSome] at hTable
          exact absurd rfl (hTable _ List.mem_cons_self)
      | some table => rfl
  | exit kind => cases hOwn
  | constraint test => simp [Rule.ownDeeds] at hOwn
  | fragment kind rules => cases hOwn

------------------------------------------------------------
-- Rules of a Document
------------------------------------------------------------

/- Every write of a document finds its target. -/
theorem resolves
    (hCleared : p.Cleared c)
    {d : Definition}
    (hDefined : d ∈ c.definitions)
    {l : RuleList}
    (hList : l ∈ d.ruleLists)
    {w : Writing}
    (hMem : w ∈ Rule.writingsIn l.rules) :
    w.Resolves d.declarations ∧
      (l.kind = .outcome → w.store = .values) := by
  obtain ⟨e, hDeed⟩ := Rule.exists_write_mem_deedsIn l.rules hMem
  obtain ⟨path, r, hRule, hOwn⟩ :=
    Definition.exists_mem_rules hList hDeed
  exact hCleared.resolves_own hDefined hRule hOwn

/- Constraints stand in template processing only. -/
theorem constraintsIn_eq_nil
    (hCleared : p.Cleared c)
    {d : Definition}
    (hDefined : d ∈ c.definitions)
    {l : RuleList}
    (hList : l ∈ d.ruleLists)
    (hOther : l.kind ≠ .template) :
    Rule.constraintsIn l.rules = [] := by
  apply List.eq_nil_iff_forall_not_mem.mpr
  intro test hMem
  obtain ⟨path, hRule⟩ :=
    Definition.exists_constraint_mem_rules hList hMem
  have hKind := (hCleared.noErrors_check hDefined hRule).1
  exact hOther (by simpa [Rule.kinds] using hKind)

end Cleared

end Package

end Assessment
