import Assessment.Validation.Catalogue

/-
  What validation finds, and where it looks.

  A path starts at a document and goes down field by field; a
  field that holds a list is followed by an index. Its text is
  what findings show, such as
  `q1/responseProcessing[0]/responseIf/condition/match`.

  Every walk lists nodes with their paths, each node before
  those below it and in the order of the document.

  Key definitions include:
    * `Path`, with `child` and `indexed`
    * `Path.text`
    * `isUnder`, whether one text leads below another
    * `Severity`
    * `Finding`, a problem at a path
    * `Definition.rules`, all rules of a definition
    * `Rule.expressions`, the expressions that a rule holds
    * `Expression.nodes`, an expression and all below it
    * `Test.nodes`, parts, sections and references
-/

------------------------------------------------------------
-- Paths
------------------------------------------------------------

namespace Assessment

/- A step down to a field, or to an element of its list. -/
structure PathStep where
  field : String
  index : Option Nat
deriving DecidableEq, Repr

/- The text of a step. -/
def PathStep.text (s : PathStep) : String :=
  match s.index with
  | none => "/" ++ s.field
  | some i => "/" ++ s.field ++ "[" ++ toString i ++ "]"

/- A document and the steps down from it. -/
structure Path where
  document : String
  steps : List PathStep
deriving DecidableEq, Repr

namespace Path

/- The path of a document itself. -/
def root (document : String) : Path :=
  ⟨document, []⟩

/- The path of a field. -/
def child (p : Path) (field : String) : Path :=
  { p with steps := p.steps ++ [⟨field, none⟩] }

/- The path of an element of a list. -/
def indexed (p : Path) (field : String) (index : Nat) : Path :=
  { p with steps := p.steps ++ [⟨field, some index⟩] }

/- The text of steps. -/
def stepsText : List PathStep → String
  | [] => ""
  | s :: rest => s.text ++ stepsText rest

/- The text of a path. -/
def text (p : Path) : String :=
  p.document ++ stepsText p.steps

end Path

------------------------------------------------------------
-- Texts Below Texts
------------------------------------------------------------

/- Whether characters end a step of a path. -/
def endsStep : List Char → Bool
  | [] => true
  | c :: _ => c == '/' || c == '['

/- Whether a text is that of a place or leads below it. -/
def isUnder (place path : String) : Bool :=
  place.toList.isPrefixOf path.toList &&
    endsStep (path.toList.drop place.toList.length)

------------------------------------------------------------
-- Findings
------------------------------------------------------------

/- How bad a problem is. -/
inductive Severity where
  | error
  | warning
  | info
deriving DecidableEq, Repr

/- The name of a severity. -/
def Severity.name : Severity → String
  | .error => "error"
  | .warning => "warning"
  | .info => "info"

/- A problem with the node at a path. -/
structure Finding (Problem : Type) where
  path : Path
  problem : Problem

namespace Finding

/- A problem at a path, if a condition holds. -/
def when (condition : Bool) (path : Path) (problem : Problem) :
    List (Finding Problem) :=
  if condition then [⟨path, problem⟩] else []

/- A finding among problems of a wider family. -/
def map (f : P → Q) (x : Finding P) : Finding Q :=
  ⟨x.path, f x.problem⟩

end Finding

------------------------------------------------------------
-- Rules
------------------------------------------------------------

mutual

/- A rule and all rules below it. -/
def Rule.nodes (path : Path) : Rule → List (Path × Rule)
  | .condition kind test rules rest =>
      (path, .condition kind test rules rest) ::
        Rule.nodesIn (path.child kind.ifBranch) "rules" 0 rules ++
        Chain.nodes path kind 0 rest
  | .fragment kind rules =>
      (path, .fragment kind rules) ::
        Rule.nodesIn path "rules" 0 rules
  | .setValue target identifier value =>
      [(path, .setValue target identifier value)]
  | .lookup identifier value =>
      [(path, .lookup identifier value)]
  | .exit kind => [(path, .exit kind)]
  | .constraint test => [(path, .constraint test)]

/- The rules in a list that starts at an index. -/
def Rule.nodesIn (parent : Path) (field : String) (index : Nat) :
    List Rule → List (Path × Rule)
  | [] => []
  | r :: rest =>
      Rule.nodes (parent.indexed field index) r ++
        Rule.nodesIn parent field (index + 1) rest

/- The rules of branches, which are counted from an index. -/
def Chain.nodes
    (path : Path)
    (kind : ProcessingKind)
    (index : Nat) :
    Chain → List (Path × Rule)
  | .branch _ rules rest =>
      Rule.nodesIn (path.indexed kind.elseIfBranch index)
        "rules" 0 rules ++
        Chain.nodes path kind (index + 1) rest
  | .otherwise rules =>
      Rule.nodesIn (path.child kind.elseBranch) "rules" 0 rules
  | .nothing => []

end

/- A list of rules that a definition holds. -/
structure RuleList where
  field : String
  kind : ProcessingKind
  rules : List Rule

namespace Definition

/- The lists of rules that a definition holds. -/
def ruleLists : Definition → List RuleList
  | .item i =>
      [⟨"templateProcessing", .template, i.templateProcessing⟩,
       ⟨"responseProcessing", .response, i.responseProcessing⟩]
  | .test t =>
      [⟨"outcomeProcessing", .outcome, t.outcomeProcessing⟩]

/- All rules, each with the kind of processing it is part of. -/
def rules (d : Definition) :
    List (ProcessingKind × Path × Rule) :=
  d.ruleLists.flatMap fun l =>
    (Rule.nodesIn (.root d.identifier) l.field 0 l.rules).map
      (l.kind, ·)

end Definition

------------------------------------------------------------
-- Expressions
------------------------------------------------------------

/- The conditions of branches counted from an index. -/
def Chain.conditions
    (path : Path)
    (kind : ProcessingKind)
    (index : Nat) :
    Chain → List (Path × Expression)
  | .branch test _ rest =>
      let branch := path.indexed kind.elseIfBranch index
      (branch.child "condition", test) ::
        Chain.conditions path kind (index + 1) rest
  | .otherwise _ | .nothing => []

/- The expressions that a rule holds itself. -/
def Rule.expressions (path : Path) :
    Rule → List (Path × Expression)
  | .condition kind test _ rest =>
      ((path.child kind.ifBranch).child "condition", test) ::
        rest.conditions path kind 0
  | .setValue _ _ e | .lookup _ e | .constraint e =>
      [(path.child "expression", e)]
  | .exit _ | .fragment .. => []

mutual

/- An expression and all expressions below it. -/
def Expression.nodes (path : Path) :
    Expression → List (Path × Expression)
  | .leaf l => [(path, .leaf l)]
  | .node op args =>
      (path, .node op args) :: Expression.nodesIn path 0 args

/- The arguments of a node counted from an index. -/
def Expression.nodesIn (parent : Path) (index : Nat) :
    List Expression → List (Path × Expression)
  | [] => []
  | e :: rest =>
      Expression.nodes (parent.indexed e.name index) e ++
        Expression.nodesIn parent (index + 1) rest

end

/- The nodes of an expression that a field holds. -/
def Expression.nodesAt (field : Path) (e : Expression) :
    List (Path × Expression) :=
  e.nodes (field.child e.name)

/- The nodes of all expressions in the rules. -/
def Definition.expressions (d : Definition) :
    List (Path × Expression) :=
  d.rules.flatMap fun (_, path, rule) =>
    (rule.expressions path).flatMap fun (field, e) =>
      e.nodesAt field

------------------------------------------------------------
-- Structure
------------------------------------------------------------

/- A node in the structure of a test. -/
inductive StructureNode where
  | part (p : TestPart)
  | group (info : SectionInfo) (parts : List SectionPart)
  | item (ref : ItemRef)

namespace StructureNode

/- The identifier of a node. -/
def identifier : StructureNode → String
  | .part p => p.identifier
  | .group info _ => info.identifier
  | .item ref => ref.identifier

/- The control that a node sets. -/
def control : StructureNode → Option Control
  | .part p => p.control
  | .group info _ => info.control
  | .item ref => ref.control

/- The limits that a node sets. -/
def timeLimits : StructureNode → Option TimeLimits
  | .part p => p.timeLimits
  | .group info _ => info.timeLimits
  | .item ref => ref.timeLimits

end StructureNode

namespace SectionPart

mutual

/- A part of a section and all nodes below it. -/
def nodes (path : Path) :
    SectionPart → List (Path × StructureNode)
  | .item ref => [(path, .item ref)]
  | .nested info parts =>
      (path, .group info parts) :: nodesIn path 0 parts

/- Parts of a section counted from an index. -/
def nodesIn (parent : Path) (index : Nat) :
    List SectionPart → List (Path × StructureNode)
  | [] => []
  | p :: rest =>
      nodes (parent.indexed "sectionParts" index) p ++
        nodesIn parent (index + 1) rest

end

end SectionPart

namespace Test

/- A test part and all nodes below it. -/
def partNodes (path : Path) (p : TestPart) :
    List (Path × StructureNode) :=
  (path, .part p) ::
    p.sections.zipIdx.flatMap fun (s, i) =>
      SectionPart.nodes (path.indexed "assessmentSections" i)
        (.nested s.info s.parts)

/- All nodes of a test, each with the part it belongs to. -/
def nodes (t : Test) :
    List (TestPart × Path × StructureNode) :=
  t.parts.zipIdx.flatMap fun (p, i) =>
    let path := (Path.root t.identifier).indexed "testParts" i
    (partNodes path p).map (p, ·)

end Test

end Assessment
