import Assessment.Validation.Declarations
import Assessment.Validation.Expressions
import Assessment.Validation.Rules
import Assessment.Validation.Walk

/-
  Validation of packages, and the structure of tests.

  Identifiers are used once, references lead to items, enough
  children can be selected, and limits make sense.

  Validation runs passes over all definitions of a package, in
  a fixed order. Documents that cannot be built are reported
  before any pass.

  Key definitions include:
    * `StructureProblem`
    * `Catalogue.checkStructure`
    * `Pass`, with the names of the passes
    * `Problem`, any problem, with its severity and message
    * `Report`, with counts and views
    * `Report.ofJson`, which validates package data
-/

------------------------------------------------------------
-- Problems
------------------------------------------------------------

namespace Assessment

/- What can be wrong with the structure of a test. -/
inductive StructureProblem where
  | usedTwice (identifier : String)
  | negativeAttempts
  | negativeTime (field : String)
  | timesCrossed
  | unenforced
  | undeclaredOutcome (feedback outcome : String)
  | partWithoutSections (identifier : String)
  | emptySection (identifier : String)
  | selectsNothing
  | selectsTooFew (count required : Nat)
  | selectsTooMany (count children : Nat)
  | danglingRef (ref href : String)
  | singleAttempt (item part : String)
  | notATemplate (identifier item : String)

namespace StructureProblem

/- How bad a problem is. -/
def severity : StructureProblem → Severity
  | .unenforced => .info
  | .emptySection _ | .selectsNothing | .singleAttempt .. =>
      .warning
  | _ => .error

/- The wording of a problem. -/
def message : StructureProblem → String
  | .usedTwice identifier =>
      "identifier '" ++ identifier ++
        "' is used more than once in the test"
  | .negativeAttempts => "maxAttempts cannot be negative"
  | .negativeTime field => field ++ " cannot be negative"
  | .timesCrossed => "minTime is greater than maxTime"
  | .unenforced => "minTime is recorded but not enforced"
  | .undeclaredOutcome feedback outcome =>
      "testFeedback '" ++ feedback ++
        "' uses undeclared outcome '" ++ outcome ++ "'"
  | .partWithoutSections identifier =>
      "testPart '" ++ identifier ++
        "' has no assessmentSections"
  | .emptySection identifier =>
      "section '" ++ identifier ++ "' is empty"
  | .selectsNothing =>
      "select is 0, the section never presents anything"
  | .selectsTooFew count required =>
      "select " ++ toString count ++ " is smaller than the " ++
        toString required ++ " required children"
  | .selectsTooMany count children =>
      "select " ++ toString count ++ " exceeds the " ++
        toString children ++
        " children and withReplacement is false"
  | .danglingRef ref href =>
      "item ref '" ++ ref ++ "' points at '" ++ href ++
        "', which is not an item in the package"
  | .singleAttempt item part =>
      "adaptive item '" ++ item ++
        "' in simultaneous testPart '" ++ part ++
        "' gets a single attempt"
  | .notATemplate identifier item =>
      "'" ++ identifier ++
        "' is not a template variable of item '" ++ item ++ "'"

end StructureProblem

namespace Test

/- Findings about the structure of tests. -/
abbrev Findings := List (Finding StructureProblem)

------------------------------------------------------------
-- Limits and Feedback
------------------------------------------------------------

/- A time that is negative. -/
def checkTime (path : Path) (field : String) (t : Option Float) :
    Findings :=
  Finding.when (t.any (· < 0)) path (.negativeTime field)

/- Problems with time limits. -/
def checkLimits (path : Path) (l : TimeLimits) : Findings :=
  let crossed :=
    match l.minTime, l.maxTime with
    | some least, some greatest => greatest < least
    | _, _ => false
  checkTime path "minTime" l.minTime ++
    checkTime path "maxTime" l.maxTime ++
    Finding.when crossed path .timesCrossed ++
    Finding.when l.minTime.isSome path .unenforced

/- Problems with limits that may be set at a node. -/
def checkOwnLimits (path : Path) (l : Option TimeLimits) :
    Findings :=
  match l with
  | some l => checkLimits (path.child "timeLimits") l
  | none => []

/- Problems with a control that may be set at a node. -/
def checkControl (path : Path) (c : Option Control) :
    Findings :=
  match c with
  | some c =>
      Finding.when (c.maxAttempts.any (· < 0))
        (path.child "itemSessionControl") .negativeAttempts
  | none => []

/- Feedback on something that is no outcome. -/
def checkFeedback
    (lookup : String → Lookup)
    (path : Path)
    (fs : List Feedback) :
    Findings :=
  fs.zipIdx.flatMap fun (f, i) =>
    let declared :=
      (lookup f.outcome).declaration?.any fun d =>
        d.kind == .outcome
    Finding.when (!declared) (path.indexed "testFeedbacks" i)
      (.undeclaredOutcome f.identifier f.outcome)

------------------------------------------------------------
-- Nodes
------------------------------------------------------------

/- Problems with a selection among children. -/
def checkSelection
    (path : Path)
    (s : Selection)
    (parts : List SectionPart) :
    Findings :=
  let required := (parts.filter SectionPart.required).length
  let children := parts.length
  Finding.when (s.count == 0) path .selectsNothing ++
    Finding.when (s.count < required) path
      (.selectsTooFew s.count required) ++
    Finding.when (!s.withReplacement && children < s.count) path
      (.selectsTooMany s.count children)

/- Problems with a section. -/
def checkSection
    (path : Path)
    (info : SectionInfo)
    (parts : List SectionPart) :
    Findings :=
  let selection :=
    match info.selection with
    | some s => checkSelection (path.child "selection") s parts
    | none => []
  Finding.when parts.isEmpty path
    (.emptySection info.identifier) ++ selection

/- Template defaults for what is no template variable. -/
def checkTemplates (path : Path) (ref : ItemRef) (i : Item) :
    Findings :=
  ref.templateDefaults.zipIdx.flatMap fun (d, k) =>
    let known :=
      (i.declaration? d.identifier).any fun x =>
        x.kind == .template
    Finding.when (!known) (path.indexed "templateDefaults" k)
      (.notATemplate d.identifier i.identifier)

/- Problems with a reference in a test part. -/
def checkRef
    (c : Catalogue)
    (part : TestPart)
    (path : Path)
    (ref : ItemRef) :
    Findings :=
  if !c.hasItem ref.href then
    [⟨path, .danglingRef ref.identifier ref.href⟩]
  else
    match c.item? ref.href with
    | none => []
    | some i =>
        Finding.when
          (i.adaptive && part.submission == .simultaneous) path
          (.singleAttempt i.identifier part.identifier) ++
          checkTemplates path ref i

/- Problems with what a node is. -/
def checkNode
    (c : Catalogue)
    (t : Test)
    (part : TestPart)
    (path : Path) :
    StructureNode → Findings
  | .part p =>
      Finding.when p.sections.isEmpty path
        (.partWithoutSections p.identifier) ++
        checkFeedback (c.lookup (.test t)) path p.feedbacks
  | .group info parts => checkSection path info parts
  | .item ref => checkRef c part path ref

/- Problems with nodes after earlier identifiers. -/
def checkNodes (c : Catalogue) (t : Test) (earlier : List String) :
    List (TestPart × Path × StructureNode) → Findings
  | [] => []
  | (part, path, node) :: rest =>
      let identifier := node.identifier
      Finding.when (earlier.contains identifier) path
        (.usedTwice identifier) ++
        checkControl path node.control ++
        checkOwnLimits path node.timeLimits ++
        checkNode c t part path node ++
        checkNodes c t (identifier :: earlier) rest

end Test

/- Problems with the structure of a test. -/
def Catalogue.checkStructure (c : Catalogue) (t : Test) :
    Test.Findings :=
  let root := Path.root t.identifier
  Test.checkOwnLimits root t.timeLimits ++
    Test.checkFeedback (c.lookup (.test t)) root t.feedbacks ++
    Test.checkNodes c t [] t.nodes

------------------------------------------------------------
-- Passes
------------------------------------------------------------

/- The passes of validation. -/
inductive Pass where
  | declarations
  | expressions
  | rules
  | testStructure
deriving DecidableEq, Repr

namespace Pass

/- The name of a pass. -/
def name : Pass → String
  | .declarations => "v1"
  | .expressions => "v2"
  | .rules => "v3"
  | .testStructure => "v4"

/- All passes, in the order they run. -/
def all : List Pass :=
  [.declarations, .expressions, .rules, .testStructure]

/- The pass with a name. -/
def ofName? (name : String) : Option Pass :=
  all.find? fun p => p.name == name

end Pass

------------------------------------------------------------
-- Problems
------------------------------------------------------------

/- Any problem of a package. -/
inductive Problem where
  /- A document that cannot be built. -/
  | rejected (cause : Failure)
  | declaration (p : DeclarationProblem)
  | expression (p : ExpressionProblem)
  | rule (p : RuleProblem)
  | testStructure (p : StructureProblem)

namespace Problem

/- The name of the pass that finds a problem. -/
def pass : Problem → String
  | .rejected _ => "load"
  | .declaration _ => Pass.declarations.name
  | .expression _ => Pass.expressions.name
  | .rule _ => Pass.rules.name
  | .testStructure _ => Pass.testStructure.name

/- How bad a problem is. -/
def severity : Problem → Severity
  | .rejected _ => .error
  | .declaration p => p.severity
  | .expression p => p.severity
  | .rule p => p.severity
  | .testStructure p => p.severity

/- The wording of a problem. -/
def message : Problem → String
  | .rejected cause => cause.message
  | .declaration p => p.message
  | .expression p => p.message
  | .rule p => p.message
  | .testStructure p => p.message

end Problem

/- A finding in one line. -/
def Finding.line (f : Finding Problem) : String :=
  f.problem.severity.name ++ ": " ++ f.path.text ++ ": " ++
    f.problem.message

------------------------------------------------------------
-- Reports
------------------------------------------------------------

/- The passes that have run and what they have found. -/
structure Report where
  passes : List Pass
  findings : List (Finding Problem)

namespace Report

/- The findings of one severity. -/
def ofSeverity (r : Report) (s : Severity) :
    List (Finding Problem) :=
  r.findings.filter fun f => f.problem.severity == s

/- The number of findings of one severity. -/
def count (r : Report) (s : Severity) : Nat :=
  (r.ofSeverity s).length

/- Whether there are findings of one severity. -/
def has (r : Report) (s : Severity) : Bool :=
  r.findings.any fun f => f.problem.severity == s

/- The findings at a path or below it. -/
def under (r : Report) (place : String) :
    List (Finding Problem) :=
  r.findings.filter fun f => isUnder place f.path.text

/- What a pass finds. -/
def run (c : Catalogue) : Pass → List (Finding Problem)
  | .declarations =>
      (c.definitions.flatMap Definition.checkDeclarations).map
        (Finding.map .declaration)
  | .expressions =>
      (c.definitions.flatMap c.checkExpressions).map
        (Finding.map .expression)
  | .rules =>
      (c.definitions.flatMap c.checkRules).map
        (Finding.map .rule)
  | .testStructure =>
      (c.tests.flatMap c.checkStructure).map
        (Finding.map .testStructure)

/- Findings about documents that could not be built. -/
def rejections (c : Catalogue) : List (Finding Problem) :=
  c.rejected.map fun (name, cause) =>
    ⟨Path.root name, .rejected cause⟩

/- Runs the wanted passes over a catalogue. -/
def ofCatalogue (c : Catalogue) (wanted : List Pass) : Report :=
  let passes := Pass.all.filter wanted.contains
  { passes := passes
    findings := rejections c ++ passes.flatMap (run c) }

/- Runs the wanted passes over package data. -/
def ofJson (v : Json) (wanted : List Pass) :
    Except EnvelopeFault Report :=
  (Envelope.ofJson v).map fun e =>
    ofCatalogue (.ofEnvelope e) wanted

end Report

------------------------------------------------------------
-- Named Passes
------------------------------------------------------------

/- Why a package cannot be validated. -/
inductive ValidationFailure where
  | unknownPass (name : String)
  | envelope (fault : EnvelopeFault)
deriving DecidableEq, Repr

namespace ValidationFailure

/- The name of the family of a failure. -/
def kind : ValidationFailure → String
  | .unknownPass _ => "UnknownPass"
  | .envelope _ => "Interchange"

/- The wording of a failure. -/
def message : ValidationFailure → String
  | .unknownPass name =>
      "unknown validation pass '" ++ name ++ "'"
  | .envelope fault => fault.message

end ValidationFailure

/- The passes with some names, all of which must be known. -/
def Pass.ofNames :
    List String → Except ValidationFailure (List Pass)
  | [] => .ok []
  | name :: rest =>
      match ofName? name with
      | none => .error (.unknownPass name)
      | some p => do
          let ps ← ofNames rest
          return p :: ps

/- Runs the passes with some names over package data. -/
def validate (v : Json) (names : List String) :
    Except ValidationFailure Report := do
  let passes ← Pass.ofNames names
  match Report.ofJson v passes with
  | .ok r => return r
  | .error fault => throw (.envelope fault)

end Assessment
