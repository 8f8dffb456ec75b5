import Assessment.Validation.Report
import Mathlib.Data.List.Basic

/-
  Visits of rules and expressions.

  The rules and expressions of a definition are a tree, and a
  node of it has an address: the numbers of the children on
  the way down. Validation visits rule after rule, each with
  the expressions that it holds. These visits come in the
  order of addresses, and every address is visited once.

  Main declarations:
    * `ProcessingNode`, with `below`, `at?` and `stepsTo`
    * `Rule.visited` and `Definition.visits`
    * `Tours` and `ToursIn`, visits in the order of addresses
    * `Expression.toured`, `Rule.toured` and
      `Definition.toured`, by the tree
-/

------------------------------------------------------------
-- Nodes
------------------------------------------------------------

namespace Assessment

/- Steps down from a path. -/
def Path.extend (p : Path) (steps : List PathStep) : Path :=
  { p with steps := p.steps ++ steps }

@[simp] theorem Path.extend_nil (p : Path) : p.extend [] = p := by
  simp [extend]

theorem Path.extend_append (p : Path) (first rest : List PathStep) :
    p.extend (first ++ rest) = (p.extend first).extend rest := by
  simp [extend]

/- A definition, a rule or an expression. -/
inductive ProcessingNode where
  | definition (d : Definition)
  | rule (r : Rule)
  | expression (e : Expression)

/- The rules of a list with the steps that lead to them. -/
def Rule.listed (field : String) (rules : List Rule) :
    List (List PathStep × Rule) :=
  rules.zipIdx.map fun (r, i) => ([⟨field, some i⟩], r)

/- The conditions of branches with the steps to them. -/
def Chain.held (kind : ProcessingKind) (index : Nat) :
    Chain → List (List PathStep × Expression)
  | .branch test _ rest =>
      ([⟨kind.elseIfBranch, some index⟩, ⟨"condition", none⟩],
        test) :: rest.held kind (index + 1)
  | .otherwise _ | .nothing => []

/- The rules of branches with the steps to them. -/
def Chain.inner (kind : ProcessingKind) (index : Nat) :
    Chain → List (List PathStep × Rule)
  | .branch _ rules rest =>
      (Rule.listed "rules" rules).map
          (fun (l, r) => (⟨kind.elseIfBranch, some index⟩ :: l, r)) ++
        rest.inner kind (index + 1)
  | .otherwise rules =>
      (Rule.listed "rules" rules).map fun (l, r) =>
        (⟨kind.elseBranch, none⟩ :: l, r)
  | .nothing => []

/- The expressions that a rule holds, with the steps to them. -/
def Rule.held : Rule → List (List PathStep × Expression)
  | .condition kind test _ rest =>
      ([⟨kind.ifBranch, none⟩, ⟨"condition", none⟩], test) ::
        rest.held kind 0
  | .setValue _ _ e | .lookup _ e | .constraint e =>
      [([⟨"expression", none⟩], e)]
  | .exit _ | .fragment .. => []

/- The rules right below a rule, with the steps to them. -/
def Rule.inner : Rule → List (List PathStep × Rule)
  | .condition kind _ rules rest =>
      (Rule.listed "rules" rules).map
          (fun (l, r) => (⟨kind.ifBranch, none⟩ :: l, r)) ++
        rest.inner kind 0
  | .fragment _ rules => Rule.listed "rules" rules
  | _ => []

namespace ProcessingNode

/-
  The nodes right below a node, with the steps that lead to
  them. The expressions that a rule holds come before its
  rules.
-/
def below : ProcessingNode → List (List PathStep × ProcessingNode)
  | .definition d =>
      d.ruleLists.flatMap fun l =>
        (Rule.listed l.field l.rules).map fun (steps, r) =>
          (steps, .rule r)
  | .rule r =>
      r.held.map
          (fun (l, e) => (l ++ [⟨e.name, none⟩], .expression e)) ++
        r.inner.map fun (l, r) => (l, .rule r)
  | .expression e =>
      e.args.zipIdx.map fun (a, i) =>
        ([⟨a.name, some i⟩], .expression a)

/- The node at an address, the numbers of the children. -/
def at? (n : ProcessingNode) : List Nat → Option ProcessingNode
  | [] => some n
  | i :: rest => n.below[i]?.bind fun (_, m) => m.at? rest

/- The steps that lead down to an address. -/
def stepsTo (n : ProcessingNode) : List Nat → List PathStep
  | [] => []
  | i :: rest =>
      match n.below[i]? with
      | some (l, m) => l ++ m.stepsTo rest
      | none => []

end ProcessingNode

/- The visits of a rule and of the expressions it holds. -/
def Rule.visited (path : Path) (r : Rule) :
    List (Path × ProcessingNode) :=
  (path, .rule r) ::
    ((r.expressions path).flatMap fun (field, e) =>
      e.nodesAt field).map fun (p, e) => (p, .expression e)

/- The visits of all rules and expressions of a definition. -/
def Definition.visits (d : Definition) :
    List (Path × ProcessingNode) :=
  d.rules.flatMap fun (_, path, r) => r.visited path

namespace ProcessingNode

/- The rule that a node is. -/
def rule? : ProcessingNode → Option Rule
  | .rule r => some r
  | _ => none

/- The expression that a node is. -/
def expression? : ProcessingNode → Option Expression
  | .expression e => some e
  | _ => none

end ProcessingNode

------------------------------------------------------------
-- Tours
------------------------------------------------------------

namespace ProcessingNode

/- A row of nodes, with the steps that lead to them. -/
abbrev Row := List (List PathStep × ProcessingNode)

/- The node at an address below a row of nodes. -/
def atIn? (row : Row) : List Nat → Option ProcessingNode
  | [] => none
  | i :: rest => row[i]?.bind fun (_, m) => m.at? rest

/- The steps that lead down to it. -/
def stepsIn (row : Row) : List Nat → List PathStep
  | [] => []
  | i :: rest =>
      match row[i]? with
      | some (l, m) => l ++ m.stepsTo rest
      | none => []

/- An address below a row that comes behind other nodes. -/
def shift (count : Nat) : List Nat → List Nat
  | [] => []
  | i :: rest => (i + count) :: rest

end ProcessingNode

open ProcessingNode

/-
  Visits of a node and all nodes below it. Every address is
  visited once, with its path, and in the order of addresses.
-/
structure Tours
    (n : ProcessingNode)
    (path : Path)
    (visits : List (Path × ProcessingNode))
    (places : List (List Nat)) :
    Prop where
  same :
    places.map (fun a => (path.extend (n.stepsTo a), n.at? a)) =
      visits.map fun v => (v.1, some v.2)
  complete : ∀ a m, n.at? a = some m → a ∈ places
  ordered : places.Pairwise (· < ·)

/- Visits of all nodes below a row of nodes. -/
structure ToursIn
    (row : Row)
    (path : Path)
    (visits : List (Path × ProcessingNode))
    (places : List (List Nat)) :
    Prop where
  same :
    places.map (fun a => (path.extend (stepsIn row a), atIn? row a)) =
      visits.map fun v => (v.1, some v.2)
  complete : ∀ a m, atIn? row a = some m → a ∈ places
  ordered : places.Pairwise (· < ·)

namespace ToursIn

variable {row more : Row} {path : Path}
variable {visits others : List (Path × ProcessingNode)}
variable {places further : List (List Nat)}

theorem nil (path : Path) : ToursIn [] path [] [] where
  same := rfl
  complete a m hAt := by
    cases a <;> simp [atIn?] at hAt
  ordered := .nil

/- An address that is visited begins with a number. -/
theorem exists_index
    (hTours : ToursIn row path visits places)
    {a : List Nat}
    (hMem : a ∈ places) :
    ∃ i rest, a = i :: rest ∧ i < row.length := by
  obtain ⟨v, _, hSame⟩ := List.mem_map.mp
    (hTours.same ▸ List.mem_map_of_mem hMem)
  have hAt : atIn? row a = some v.2 :=
    (congrArg Prod.snd hSame).symm
  cases a with
  | nil => cases hAt
  | cons i rest =>
      obtain ⟨x, hX, _⟩ := Option.bind_eq_some_iff.mp hAt
      exact ⟨i, rest, rfl, (List.getElem?_eq_some_iff.mp hX).1⟩

/- A single node is toured as a row. -/
theorem single
    {n : ProcessingNode}
    {steps : List PathStep}
    (hTours : Tours n (path.extend steps) visits places) :
    ToursIn [(steps, n)] path visits (places.map (0 :: ·)) := by
  constructor
  · rw [← hTours.same, List.map_map]
    apply List.map_congr_left
    intro a _
    exact Prod.ext (path.extend_append steps (n.stepsTo a)) rfl
  · intro a m hAt
    cases a with
    | nil => cases hAt
    | cons i rest =>
        cases i with
        | zero => exact List.mem_map_of_mem (hTours.complete _ _ hAt)
        | succ i => simp [atIn?] at hAt
  · rw [List.pairwise_map]
    exact hTours.ordered.imp fun hLess =>
      List.cons_lt_cons_iff.mpr (Or.inr ⟨rfl, hLess⟩)

/- Rows are toured one after the other. -/
theorem append
    (hFirst : ToursIn row path visits places)
    (hRest : ToursIn more path others further) :
    ToursIn (row ++ more) path (visits ++ others)
      (places ++ further.map (shift row.length)) := by
  constructor
  · rw [List.map_append, List.map_append, ← hFirst.same,
      ← hRest.same, List.map_map]
    congr 1
    · apply List.map_congr_left
      intro a hMem
      obtain ⟨i, rest, rfl, hI⟩ := hFirst.exists_index hMem
      simp only [stepsIn, atIn?, List.getElem?_append_left hI]
    · apply List.map_congr_left
      intro a hMem
      obtain ⟨i, rest, rfl, hI⟩ := hRest.exists_index hMem
      have hAt :
          (row ++ more)[i + row.length]? = more[i]? := by
        rw [List.getElem?_append_right (by omega),
          Nat.add_sub_cancel]
      simp only [Function.comp_apply, shift, stepsIn, atIn?, hAt]
  · intro a m hAt
    cases a with
    | nil => cases hAt
    | cons i rest =>
        rw [List.mem_append]
        rcases Nat.lt_or_ge i row.length with hI | hI
        · rw [atIn?, List.getElem?_append_left hI] at hAt
          exact Or.inl (hFirst.complete _ _ hAt)
        · obtain ⟨j, rfl⟩ := Nat.exists_eq_add_of_le' hI
          rw [atIn?, List.getElem?_append_right (by omega),
            Nat.add_sub_cancel] at hAt
          have hMem := hRest.complete (j :: rest) m hAt
          exact Or.inr (List.mem_map.mpr ⟨_, hMem, rfl⟩)
  · rw [List.pairwise_append, List.pairwise_map]
    refine ⟨hFirst.ordered, ?_, ?_⟩
    · have hShift :
          ∀ a b : List Nat, a < b →
            shift row.length a < shift row.length b := by
        intro a b hLess
        cases a <;> cases b <;>
          simp_all [shift, List.cons_lt_cons_iff]
      exact hRest.ordered.imp fun hLess => hShift _ _ hLess
    · intro a hA b hB
      obtain ⟨i, rest, rfl, hI⟩ := hFirst.exists_index hA
      obtain ⟨c, hC, rfl⟩ := List.mem_map.mp hB
      obtain ⟨j, later, rfl, _⟩ := hRest.exists_index hC
      exact List.cons_lt_cons_iff.mpr (Or.inl (by omega))

end ToursIn

/- A node is visited before what is below it. -/
theorem Tours.node
    {n : ProcessingNode}
    {path : Path}
    {visits : List (Path × ProcessingNode)}
    {places : List (List Nat)}
    (hBelow : ToursIn n.below path visits places) :
    Tours n path ((path, n) :: visits) ([] :: places) := by
  constructor
  · rw [List.map_cons, List.map_cons, ← hBelow.same]
    congr 1
    · exact Prod.ext path.extend_nil rfl
    · apply List.map_congr_left
      intro a hMem
      obtain ⟨i, rest, rfl, -⟩ := hBelow.exists_index hMem
      rfl
  · intro a m hAt
    cases a with
    | nil => exact List.mem_cons_self
    | cons i rest =>
        exact List.mem_cons_of_mem _ (hBelow.complete _ m hAt)
  · rw [List.pairwise_cons]
    refine ⟨fun a hMem => ?_, hBelow.ordered⟩
    obtain ⟨i, rest, rfl, -⟩ := hBelow.exists_index hMem
    exact List.nil_lt_cons i rest

/- Some addresses make visits a tour. -/
def Toured
    (n : ProcessingNode)
    (path : Path)
    (visits : List (Path × ProcessingNode)) :
    Prop :=
  ∃ places, Tours n path visits places

/- So do some addresses below a row. -/
def TouredIn
    (row : Row)
    (path : Path)
    (visits : List (Path × ProcessingNode)) :
    Prop :=
  ∃ places, ToursIn row path visits places

namespace TouredIn

variable {row more : Row} {path : Path}
variable {visits others : List (Path × ProcessingNode)}

theorem append
    (hFirst : TouredIn row path visits)
    (hRest : TouredIn more path others) :
    TouredIn (row ++ more) path (visits ++ others) := by
  obtain ⟨places, hPlaces⟩ := hFirst
  obtain ⟨further, hFurther⟩ := hRest
  exact ⟨_, hPlaces.append hFurther⟩

theorem cons
    {n : ProcessingNode}
    {steps : List PathStep}
    (hFirst : Toured n (path.extend steps) visits)
    (hRest : TouredIn row path others) :
    TouredIn ((steps, n) :: row) path (visits ++ others) := by
  obtain ⟨places, hPlaces⟩ := hFirst
  exact append ⟨_, .single hPlaces⟩ hRest

theorem node
    {n : ProcessingNode}
    (hBelow : TouredIn n.below path visits) :
    Toured n path ((path, n) :: visits) := by
  obtain ⟨places, hPlaces⟩ := hBelow
  exact ⟨_, .node hPlaces⟩

/- Steps that lead to a whole row may be part of the path. -/
theorem within
    {steps : List PathStep}
    (hRow : TouredIn row (path.extend steps) visits) :
    TouredIn (row.map fun (l, n) => (steps ++ l, n)) path visits := by
  obtain ⟨places, hPlaces⟩ := hRow
  refine ⟨places, ?_, ?_, hPlaces.ordered⟩
  · rw [← hPlaces.same]
    apply List.map_congr_left
    intro a hMem
    obtain ⟨i, rest, rfl, hI⟩ := hPlaces.exists_index hMem
    simp only [stepsIn, atIn?, List.getElem?_map,
      List.getElem?_eq_getElem hI, Option.map_some,
      Option.bind_some, List.append_assoc, Path.extend_append]
  · intro a m hAt
    refine hPlaces.complete a m ?_
    cases a with
    | nil => cases hAt
    | cons i rest =>
        rw [atIn?, List.getElem?_map, Option.bind_map] at hAt
        exact hAt

end TouredIn

------------------------------------------------------------
-- Visits of Expressions and Rules
------------------------------------------------------------

mutual

theorem Expression.toured (path : Path) :
    ∀ e : Expression,
      Toured (.expression e) path
        ((e.nodes path).map fun (p, e) => (p, .expression e))
  | .leaf l => TouredIn.node ⟨_, .nil path⟩
  | .node op args => by
      have hArgs := Expression.toured_args path 0 args
      rw [Expression.nodes, List.map_cons]
      exact TouredIn.node hArgs

/- All arguments are visited, and what is below them. -/
theorem Expression.toured_args (path : Path) (index : Nat) :
    ∀ es : List Expression,
      TouredIn
        ((es.zipIdx index).map fun (a, i) =>
          ([⟨a.name, some i⟩], .expression a))
        path
        ((Expression.nodesIn path index es).map fun (p, e) =>
          (p, .expression e))
  | [] => ⟨_, .nil path⟩
  | e :: rest => by
      have hFirst :=
        Expression.toured (path.indexed e.name index) e
      have hRest := Expression.toured_args path (index + 1) rest
      rw [Expression.nodesIn, List.map_append, List.zipIdx_cons,
        List.map_cons]
      exact .cons hFirst hRest

end

/- Expressions that are held are visited with what is below. -/
theorem toured_held
    (path : Path)
    (held : List (List PathStep × Expression)) :
    TouredIn
      (held.map fun (l, e) => (l ++ [⟨e.name, none⟩], .expression e))
      path
      ((held.flatMap fun (l, e) => e.nodesAt (path.extend l)).map
        fun (p, e) => (p, .expression e)) := by
  induction held with
  | nil => exact ⟨_, .nil path⟩
  | cons x rest ih =>
      have hFirst := Expression.toured
        (path.extend (x.1 ++ [⟨x.2.name, none⟩])) x.2
      have hPath :
          path.extend (x.1 ++ [⟨x.2.name, none⟩]) =
            (path.extend x.1).child x.2.name :=
        path.extend_append x.1 _
      rw [List.flatMap_cons, List.map_append, List.map_cons]
      refine .cons ?_ ih
      simp only [Expression.nodesAt, ← hPath]
      exact hFirst

theorem Chain.conditions_eq
    (path : Path)
    (kind : ProcessingKind)
    (index : Nat) :
    ∀ c : Chain,
      c.conditions path kind index =
        (c.held kind index).map fun (l, e) => (path.extend l, e)
  | .branch test rules rest => by
      have hRest := Chain.conditions_eq path kind (index + 1) rest
      simp [conditions, held, hRest, Path.child, Path.indexed,
        Path.extend]
  | .otherwise _ | .nothing => rfl

theorem Rule.expressions_eq (path : Path) (r : Rule) :
    r.expressions path =
      r.held.map fun (l, e) => (path.extend l, e) := by
  cases r with
  | condition kind test rules rest =>
      rw [expressions, rest.conditions_eq]
      simp [held, Path.child, Path.extend]
  | _ => rfl

/- A rule is visited with what it holds and what is below. -/
theorem Rule.toured_of_inner
    {path : Path}
    {r : Rule}
    {visits : List (Path × ProcessingNode)}
    (hInner :
      TouredIn (r.inner.map fun (l, r) => (l, .rule r)) path
        visits) :
    Toured (.rule r) path (r.visited path ++ visits) := by
  have hHeld := toured_held path r.held
  rw [Rule.visited, Rule.expressions_eq, List.flatMap_map,
    List.cons_append]
  exact TouredIn.node (hHeld.append hInner)

/- The visits of rules that have been listed. -/
def visitsOf (rules : List (Path × Rule)) :
    List (Path × ProcessingNode) :=
  rules.flatMap fun (path, r) => r.visited path

theorem visitsOf_append (first rest : List (Path × Rule)) :
    visitsOf (first ++ rest) = visitsOf first ++ visitsOf rest :=
  List.flatMap_append

theorem visitsOf_cons (path : Path) (r : Rule)
    (rest : List (Path × Rule)) :
    visitsOf ((path, r) :: rest) = r.visited path ++ visitsOf rest :=
  List.flatMap_cons

/- A rule without rules below it is visited alone. -/
theorem Rule.toured_alone
    {path : Path}
    {r : Rule}
    (hInner : r.inner = [])
    (hNodes : r.nodes path = [(path, r)]) :
    Toured (.rule r) path (visitsOf (r.nodes path)) := by
  rw [hNodes, visitsOf_cons]
  apply Rule.toured_of_inner
  rw [hInner]
  exact ⟨_, .nil path⟩

mutual

theorem Rule.toured (path : Path) :
    ∀ r : Rule, Toured (.rule r) path (visitsOf (r.nodes path))
  | .condition kind test rules rest => by
      have hRules : TouredIn _ path _ :=
        .within (Rule.toured_listed (path.child kind.ifBranch)
          "rules" 0 rules)
      have hChain := Chain.toured path kind 0 rest
      rw [Rule.nodes, List.cons_append, visitsOf_cons,
        visitsOf_append]
      refine Rule.toured_of_inner ?_
      rw [Rule.inner, List.map_append]
      refine .append ?_ hChain
      simpa [Rule.listed, Function.comp_def] using hRules
  | .fragment kind rules => by
      have hRules := Rule.toured_listed path "rules" 0 rules
      rw [Rule.nodes, visitsOf_cons]
      refine Rule.toured_of_inner ?_
      simpa [Rule.inner, Rule.listed, Function.comp_def] using hRules
  | .setValue .. => Rule.toured_alone rfl rfl
  | .lookup .. => Rule.toured_alone rfl rfl
  | .exit _ => Rule.toured_alone rfl rfl
  | .constraint _ => Rule.toured_alone rfl rfl

/- The rules of a list are visited one after the other. -/
theorem Rule.toured_listed
    (path : Path)
    (field : String)
    (index : Nat) :
    ∀ rules : List Rule,
      TouredIn
        ((rules.zipIdx index).map fun (r, i) =>
          ([⟨field, some i⟩], .rule r))
        path
        (visitsOf (Rule.nodesIn path field index rules))
  | [] => ⟨_, .nil path⟩
  | r :: rest => by
      have hFirst := Rule.toured (path.indexed field index) r
      have hRest := Rule.toured_listed path field (index + 1) rest
      rw [Rule.nodesIn, visitsOf_append, List.zipIdx_cons,
        List.map_cons]
      exact .cons hFirst hRest

theorem Chain.toured
    (path : Path)
    (kind : ProcessingKind)
    (index : Nat) :
    ∀ c : Chain,
      TouredIn
        ((c.inner kind index).map fun (l, r) => (l, .rule r))
        path
        (visitsOf (c.nodes path kind index))
  | .branch test rules rest => by
      have hRules : TouredIn _ path _ :=
        .within (Rule.toured_listed
          (path.indexed kind.elseIfBranch index) "rules" 0 rules)
      have hRest := Chain.toured path kind (index + 1) rest
      rw [Chain.nodes, visitsOf_append, Chain.inner,
        List.map_append]
      refine .append ?_ hRest
      simpa [Rule.listed, Function.comp_def] using hRules
  | .otherwise rules => by
      have hRules : TouredIn _ path _ :=
        .within (Rule.toured_listed (path.child kind.elseBranch)
          "rules" 0 rules)
      rw [Chain.nodes, Chain.inner]
      simpa [Rule.listed, Function.comp_def] using hRules
  | .nothing => ⟨_, .nil path⟩

end

/- All rules and expressions of a definition are visited. -/
theorem Definition.toured (d : Definition) :
    TouredIn (ProcessingNode.definition d).below
      (.root d.identifier) d.visits := by
  have hLists :
      ∀ ls : List RuleList,
        TouredIn
          (ls.flatMap fun l =>
            (Rule.listed l.field l.rules).map fun (steps, r) =>
              (steps, .rule r))
          (.root d.identifier)
          (ls.flatMap fun l =>
            visitsOf
              (Rule.nodesIn (.root d.identifier) l.field 0 l.rules)) := by
    intro ls
    induction ls with
    | nil => exact ⟨_, .nil _⟩
    | cons l rest ih =>
        have hRules := Rule.toured_listed (.root d.identifier)
          l.field 0 l.rules
        rw [List.flatMap_cons, List.flatMap_cons]
        refine .append ?_ ih
        simpa [Rule.listed, Function.comp_def] using hRules
  have hVisits :
      d.visits =
        d.ruleLists.flatMap fun l =>
          visitsOf
            (Rule.nodesIn (.root d.identifier) l.field 0 l.rules) := by
    simp [visits, rules, visitsOf, List.flatMap_assoc,
      List.flatMap_map]
  rw [hVisits]
  exact hLists d.ruleLists

end Assessment
