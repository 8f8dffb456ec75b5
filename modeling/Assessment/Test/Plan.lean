import Assessment.Engine.Basic
import Assessment.Test.Basic

/-
  Plans of tests.

  A plan says which items are taken, and in which order.
  Sections select and shuffle what they hold. Sections that
  are not visible do not appear; what they hold takes their
  place. Occurrences of an identifier are numbered from one
  across the whole plan.

  Key definitions include:
    * `Chosen`, what has been chosen before it is numbered
    * `counts`, how often each child of a section is taken
    * `shuffle`, the children of a section in random order
    * `PlanNode` and `Plan`, with `Plan.items`
    * `plan`, the plan of a test
-/

------------------------------------------------------------
-- Choices
------------------------------------------------------------

namespace Assessment

/- A reference or a section that has been chosen. -/
inductive Chosen where
  | item (ref : ItemRef)
  | group (info : SectionInfo) (children : List Chosen)

namespace Chosen

/- Whether something keeps its place in a shuffle. -/
def fixed : Chosen → Bool
  | .item ref => ref.fixed
  | .group info _ => info.fixed

/- What a section holds, if it satisfies a condition. -/
def dissolved (p : SectionInfo → Bool) :
    Chosen → List Chosen
  | .item ref => [.item ref]
  | .group info children =>
      if p info then children else [.group info children]

end Chosen

namespace Planning

/- Who plans: where notes come from, and what can be taken. -/
structure Planner where
  source : String
  resolves : ItemRef → Bool

------------------------------------------------------------
-- Selection
------------------------------------------------------------

/- Adds one to the count at a place. -/
def increment (counts : List Nat) (place : Nat) : List Nat :=
  counts.modify place (· + 1)

/- Takes children at random, however often. -/
def takeAny : Nat → List Nat → Step (List Nat)
  | 0, counts => pure counts
  | n + 1, counts => do
      let place ← Step.draw fun d => d.below counts.length
      takeAny n (increment counts place)

/- Takes children at random, each at most once. -/
def takeOnce :
    Nat → List Nat → List Nat → Step (List Nat)
  | 0, _, counts => pure counts
  | _ + 1, [], counts => pure counts
  | n + 1, p :: rest, counts => do
      let left := p :: rest
      let pick ← Step.draw fun d => d.below left.length
      takeOnce n (left.eraseIdx pick)
        (increment counts (left[pick]?.getD p))

/- The children that are taken in any case, once each. -/
def requiredCounts (parts : List SectionPart) : List Nat :=
  parts.map fun p => if p.required then 1 else 0

/- The places of the children not taken yet. -/
def freePlaces (counts : List Nat) : List Nat :=
  (List.range counts.length).filter fun i => counts[i]? == some 0

/- Takes as many children as are asked for. -/
def select
    (planner : Planner)
    (owner : String)
    (s : Selection)
    (parts : List SectionPart) :
    Step (List Nat) := do
  if s.count == 0 then
    return parts.map fun _ => 0
  if !s.withReplacement && parts.length < s.count then
    Step.warn planner.source
      ("section '" ++ owner ++ "' selects " ++
        toString s.count ++ " of " ++ toString parts.length ++
        " children without replacement;" ++
        " all children are selected")
    return parts.map fun _ => 1
  let counts := requiredCounts parts
  let required := counts.foldr (· + ·) 0
  if s.count < required then
    Step.warn planner.source
      ("section '" ++ owner ++ "' selects " ++
        toString s.count ++ " children but " ++
        toString required ++
        " are required; all required children are selected")
  let remaining := s.count - required
  if s.withReplacement then takeAny remaining counts
  else takeOnce remaining (freePlaces counts) counts

/- How often each child of a section is taken. -/
def counts
    (planner : Planner)
    (info : SectionInfo)
    (parts : List SectionPart) :
    Step (List Nat) :=
  match info.selection with
  | some s => select planner info.identifier s parts
  | none => pure (parts.map fun _ => 1)

------------------------------------------------------------
-- Order
------------------------------------------------------------

/- Fills the places of children that are not fixed. -/
def fill : List Chosen → List Chosen → List Chosen
  | [], _ => []
  | c :: rest, moved =>
      if c.fixed then c :: fill rest moved
      else
        match moved with
        | [] => c :: fill rest []
        | m :: moved => m :: fill rest moved

/- Whether a section gives its children up to a shuffle. -/
def scatters (info : SectionInfo) : Bool :=
  !info.visible && !info.keepTogether

/- Whether a section is shuffled as a whole but not shown. -/
def travelsUnseen (info : SectionInfo) : Bool :=
  !info.visible && info.keepTogether

/-
  Children in random order, where fixed ones keep their
  places. Unseen sections that need not stay together are
  shuffled child by child.
-/
def shuffle (children : List Chosen) : Step (List Chosen) := do
  let pool := children.flatMap (Chosen.dissolved scatters)
  let loose := pool.filter fun c => !c.fixed
  let moved ← Step.take fun d => d.permutation loose
  return (fill pool moved).flatMap
    (Chosen.dissolved travelsUnseen)

/- Children in the order that a section asks for. -/
def arrange (info : SectionInfo) (children : List Chosen) :
    Step (List Chosen) := do
  let ordered ←
    if info.shuffle == some true then shuffle children
    else pure children
  return ordered.flatMap
    (Chosen.dissolved fun info => !info.visible)

------------------------------------------------------------
-- Sections
------------------------------------------------------------

/- Does something a number of times. -/
def times (x : Step (List α)) : Nat → Step (List α)
  | 0 => pure []
  | n + 1 => do
      let a ← x
      let b ← times x n
      return a ++ b

mutual

/- What is chosen of a part; unknown items are left out. -/
def choose (planner : Planner) :
    SectionPart → Step (List Chosen)
  | .item ref =>
      if planner.resolves ref then pure [.item ref]
      else do
        Step.warn planner.source
          ("item ref '" ++ ref.identifier ++
            "' does not resolve to an item" ++
            " and is dropped from the test plan")
        return []
  | .nested info parts => do
      let counts ← counts planner info parts
      let children ← chooseEach planner counts parts
      return [.group info (← arrange info children)]

/- What is chosen of parts, each as often as it is taken. -/
def chooseEach (planner : Planner) :
    List Nat → List SectionPart → Step (List Chosen)
  | _, [] => pure []
  | [], _ :: _ => pure []
  | n :: ns, p :: rest => do
      let a ← times (choose planner p) n
      let b ← chooseEach planner ns rest
      return a ++ b

end

/- What is chosen of the sections of a test part. -/
def chooseSections (planner : Planner) :
    List Section → Step (List Chosen)
  | [] => pure []
  | s :: rest => do
      let a ← choose planner (.nested s.info s.parts)
      let b ← chooseSections planner rest
      return a.flatMap
        (Chosen.dissolved fun info => !info.visible) ++ b

end Planning

------------------------------------------------------------
-- Plans
------------------------------------------------------------

/- What a node of a plan stands for. -/
inductive NodeKind where
  | part
  | group
  | item
deriving DecidableEq, Repr

/- A node of a plan with the number of its occurrence. -/
inductive PlanNode where
  | node
      (kind : NodeKind)
      (identifier : String)
      (occurrence : Nat)
      (children : List PlanNode)

namespace PlanNode

instance : Inhabited PlanNode := ⟨.node .part "" 0 []⟩

/- What a node stands for. -/
def kind : PlanNode → NodeKind
  | .node kind .. => kind

/- The identifier of a node. -/
def identifier : PlanNode → String
  | .node _ identifier .. => identifier

/- The occurrence of the identifier. -/
def occurrence : PlanNode → Nat
  | .node _ _ occurrence _ => occurrence

mutual

/- A node and all nodes below it, from the top. -/
def nodes : PlanNode → List PlanNode
  | .node kind identifier occurrence children =>
      .node kind identifier occurrence children ::
        nodesIn children

/- Nodes and all nodes below them. -/
def nodesIn : List PlanNode → List PlanNode
  | [] => []
  | n :: rest => nodes n ++ nodesIn rest

end

end PlanNode

/- The plan of a test, one node for each part. -/
structure Plan where
  parts : List PlanNode

namespace Plan

/- The nodes of items, each with the place of its part. -/
def items (p : Plan) : List (Nat × PlanNode) :=
  p.parts.zipIdx.flatMap fun (part, i) =>
    (part.nodes.filter fun n => n.kind == .item).map (i, ·)

/- The sections of a plan, each one once. -/
def sections (p : Plan) : List String :=
  let names :=
    ((PlanNode.nodesIn p.parts).filter fun n =>
      n.kind == .group).map PlanNode.identifier
  names.eraseDups

end Plan

------------------------------------------------------------
-- Numbering
------------------------------------------------------------

namespace Planning

/- The next number of an identifier, and the numbers given. -/
def number (given : Keyed Nat) (identifier : String) :
    Nat × Keyed Nat :=
  let n := (given.get? identifier).getD 0 + 1
  (n, given.put identifier n)

mutual

/- Numbers what was chosen, sections before their children. -/
def numbered (given : Keyed Nat) :
    Chosen → PlanNode × Keyed Nat
  | .item ref =>
      let (n, given) := number given ref.identifier
      (.node .item ref.identifier n [], given)
  | .group info children =>
      let (n, given) := number given info.identifier
      let (nodes, given) := numberedAll given children
      (.node .group info.identifier n nodes, given)

/- Numbers choices in a row. -/
def numberedAll (given : Keyed Nat) :
    List Chosen → List PlanNode × Keyed Nat
  | [] => ([], given)
  | c :: rest =>
      let (node, given) := numbered given c
      let (nodes, given) := numberedAll given rest
      (node :: nodes, given)

end

/- The nodes of test parts. -/
def planParts (planner : Planner) (given : Keyed Nat) :
    List TestPart → Step (List PlanNode)
  | [] => pure []
  | p :: rest => do
      let chosen ← chooseSections planner p.sections
      let (n, given) := number given p.identifier
      let (nodes, given) := numberedAll given chosen
      let others ← planParts planner given rest
      return .node .part p.identifier n nodes :: others

end Planning

/-
  The plan of a test. References that do not resolve are left
  out with a warning.
-/
def plan (t : Test) (resolves : ItemRef → Bool) : Step Plan := do
  let parts ←
    Planning.planParts ⟨t.identifier, resolves⟩ [] t.parts
  return ⟨parts⟩

end Assessment
