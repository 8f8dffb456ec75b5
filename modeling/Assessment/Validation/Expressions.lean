import Assessment.Shape.Problem
import Assessment.Validation.Catalogue
import Assessment.Validation.Walk

/-
  Problems with expressions.

  Every node is looked at by itself: the number and the types
  of its arguments, the variables and weights it refers to,
  and the fields of its operator.

  Key definitions include:
    * `ExpressionProblem`
    * `Expression.check`, the problems of a node
    * `Catalogue.checkExpressions`
-/

------------------------------------------------------------
-- Problems
------------------------------------------------------------

namespace Assessment

/- What an operator needs its arguments to be. -/
inductive Need where
  | numeric
  | integer
  | boolean
deriving DecidableEq, Repr

namespace Need

/- The name of a need. -/
def name : Need → String
  | .numeric => "numeric"
  | .integer => "integer"
  | .boolean => "boolean"

/- Whether values of a base type meet a need. -/
def isMetBy : Need → BaseType → Bool
  | .numeric, t => t.isNumeric
  | .integer, t => t == .integer
  | .boolean, t => t == .boolean

end Need

/- What can be wrong with an expression. -/
inductive ExpressionProblem where
  | argumentCount (name : String) (arity : Nat × Option Nat)
      (count : Nat)
  | undeclared (identifier : String)
  /- A variable that is not what an expression works on. -/
  | wrongVariable (name wanted identifier : String)
  | weightInItem
  | weightOfOutcome
  | unknownRefWeight (weight ref : String)
  | wrongType (name : String) (need : Need) (got : BaseType)
  | statsOfSingle
  | recordArgument (name : String)
  | containerArgument (name : String)
  | matchTypes (left right : BaseType)
  | matchCardinalities (left right : Cardinality)
  | matchDurations
  | idleTolerance
  | noTolerance
  | manyTolerances (count : Nat)
  | negativeTolerance
  | fewFigures (least : Nat) (figures : Int64)
  | anyNegative
  | anyCrossed (min max : Int64)
  | anyUnreachable (min : Int64) (count : Nat)
  | integersCrossed (min max : Int64)
  | stepTooSmall
  | floatsCrossed (min max : Float)
  | indexTooSmall (n : Int64)
  | badCoords (line : String)
  | onlyInTests (name : String)
  | unknownSection (identifier : String)
  | unknownWeight (weight : String)

namespace ExpressionProblem

/- How bad a problem is. -/
def severity : ExpressionProblem → Severity
  | .weightOfOutcome | .unknownRefWeight .. | .matchDurations
  | .idleTolerance | .anyNegative | .anyCrossed ..
  | .anyUnreachable .. | .indexTooSmall _ | .unknownWeight _ =>
      .warning
  | _ => .error

/- A number of arguments in words. -/
def arityText : Nat × Option Nat → String
  | (least, none) => "at least " ++ toString least
  | (least, some greatest) =>
      if greatest == least then toString least
      else toString least ++ " to " ++ toString greatest

/- The decimal digits of an integer. -/
def digits (n : Int64) : String :=
  toString n.toInt

/- The wording of a problem. -/
def message : ExpressionProblem → String
  | .argumentCount name arity count =>
      name ++ " expects " ++ arityText arity ++
        " argument(s), got " ++ toString count
  | .undeclared identifier =>
      "variable '" ++ identifier ++ "' is not declared"
  | .wrongVariable name wanted identifier =>
      name ++ " requires " ++ wanted ++ ", '" ++ identifier ++
        "' is not"
  | .weightInItem =>
      "weightIdentifier may only be used in tests"
  | .weightOfOutcome =>
      "weightIdentifier has no effect on a test-level variable"
  | .unknownRefWeight weight ref =>
      "weight '" ++ weight ++
        "' is not defined on item ref '" ++ ref ++ "'"
  | .wrongType name need got =>
      name ++ " requires " ++ need.name ++ " arguments, got " ++
        got.name
  | .statsOfSingle =>
      "statsOperator requires a multiple or ordered container"
  | .recordArgument name =>
      name ++ " cannot take a record argument"
  | .containerArgument name =>
      name ++ " requires single cardinality arguments"
  | .matchTypes left right =>
      "match compares " ++ left.name ++ " with " ++ right.name
  | .matchCardinalities left right =>
      "match compares " ++ left.name ++ " with " ++
        right.name ++ " cardinality"
  | .matchDurations =>
      "match on durations is exact;" ++
        " durationLT/durationGTE are usually meant"
  | .idleTolerance =>
      "tolerance is ignored when toleranceMode is exact"
  | .noTolerance =>
      "tolerance is required when toleranceMode is" ++
        " absolute or relative"
  | .manyTolerances count =>
      "tolerance takes one or two values, got " ++
        toString count
  | .negativeTolerance =>
      "tolerance values must not be negative"
  | .fewFigures least figures =>
      "figures must be at least " ++ toString least ++
        " for this roundingMode, got " ++ digits figures
  | .anyNegative => "anyN min is negative"
  | .anyCrossed min max =>
      "anyN min " ++ digits min ++ " is greater than max " ++
        digits max
  | .anyUnreachable min count =>
      "anyN min " ++ digits min ++ " exceeds its " ++
        toString count ++ " argument(s) and can never be met"
  | .integersCrossed min max =>
      "randomInteger min " ++ digits min ++
        " is greater than max " ++ digits max
  | .stepTooSmall => "randomInteger step must be at least 1"
  | .floatsCrossed min max =>
      "randomFloat min " ++ floatText FloatText.plain min ++
        " is greater than max " ++
        floatText FloatText.plain max
  | .indexTooSmall n =>
      "index n is 1-based, " ++ digits n ++
        " always yields NULL"
  | .badCoords line => line
  | .onlyInTests name => name ++ " may only be used in tests"
  | .unknownSection identifier =>
      "sectionIdentifier '" ++ identifier ++
        "' is not a section of this test"
  | .unknownWeight weight =>
      "weight '" ++ weight ++
        "' is not defined on any item ref"

end ExpressionProblem

namespace Expression

/- Findings about expressions. -/
abbrev Findings := List (Finding ExpressionProblem)

------------------------------------------------------------
-- Numbers of Arguments
------------------------------------------------------------

/- The name of an expression in a report on its arguments. -/
def nameForArity : Expression → String
  | .node (.math op) _ => "mathOperator '" ++ op.name ++ "'"
  | e => e.name

/- A wrong number of arguments. -/
def checkArity (path : Path) (e : Expression) : Findings :=
  let n := e.args.length
  let (least, greatest) := e.arity
  let fits :=
    least ≤ n &&
      match greatest with
      | some m => n ≤ m
      | none => true
  Finding.when (!fits) path
    (.argumentCount e.nameForArity e.arity n)

------------------------------------------------------------
-- References
------------------------------------------------------------

/- What a leaf wants a variable to be, unless it is that. -/
def unmet? (l : Leaf) (d : Declaration) : Option String :=
  match l with
  | .correct _ =>
      if d.kind == .response then none
      else some "a response variable"
  | .mapResponse _ =>
      if d.mapping?.isSome then none
      else some "a response variable with a mapping"
  | .mapPoints _ =>
      if d.areaMapping?.isSome then none
      else some "a response variable with an areaMapping"
  | _ => none

/- Problems with the weight of a variable. -/
def checkWeight
    (owner : Definition)
    (path : Path)
    (identifier weight : String) :
    Findings :=
  match owner with
  | .item _ => [⟨path, .weightInItem⟩]
  | .test t =>
      match DottedName.parse? identifier with
      | none => [⟨path, .weightOfOutcome⟩]
      | some name =>
          let known :=
            (t.itemRef? name.reference).any fun r =>
              (r.weights.get? weight).isSome
          Finding.when (!known) path
            (.unknownRefWeight weight name.reference)

/- Problems with a variable that is declared. -/
def checkDeclared
    (owner : Definition)
    (path : Path)
    (l : Leaf)
    (identifier : String)
    (d : Declaration) :
    Findings :=
  let wrong :=
    match unmet? l d with
    | some wanted =>
        [⟨path, .wrongVariable l.name wanted identifier⟩]
    | none => []
  let weight :=
    match l with
    | .fetch _ (some weight) =>
        checkWeight owner path identifier weight
    | _ => []
  wrong ++ weight

/- Problems with the variable that a leaf refers to. -/
def checkReference
    (c : Catalogue)
    (owner : Definition)
    (path : Path)
    (l : Leaf) :
    Findings :=
  match l.identifier? with
  | none => []
  | some identifier =>
      match c.lookup owner identifier with
      | .declared d => checkDeclared owner path l identifier d
      | .unresolved => []
      | .undeclared => [⟨path, .undeclared identifier⟩]

------------------------------------------------------------
-- Types of Arguments
------------------------------------------------------------

/-
  What an operator needs its arguments to be, and whether
  they may be containers.
-/
def need? : Operator → Option (Need × Bool)
  | .math _ | .roundTo .. | .equalRounded .. | .equal _ =>
      some (.numeric, false)
  | .stats _ => some (.numeric, true)
  | .anyN .. => some (.boolean, false)
  | .plain op =>
      match op with
      | .sum | .product | .subtract | .divide | .power
      | .truncate | .round | .lt | .lte | .gt | .gte =>
          some (.numeric, false)
      | .max | .min => some (.numeric, true)
      | .integerDivide | .integerModulus | .integerToFloat =>
          some (.integer, false)
      | .and | .or | .not => some (.boolean, false)
      | _ => none
  | _ => none

/- Whether an operator is a statistic. -/
def isStats : Operator → Bool
  | .stats _ => true
  | _ => false

/- An argument of the wrong cardinality. -/
def checkCardinality
    (path : Path)
    (op : Operator)
    (containers : Bool) :
    Option Cardinality → Findings
  | some .single =>
      Finding.when (isStats op) path .statsOfSingle
  | some .record => [⟨path, .recordArgument op.name⟩]
  | some .multiple | some .ordered =>
      Finding.when (!containers) path
        (.containerArgument op.name)
  | none => []

/- An argument of the wrong base type. -/
def checkBaseType
    (path : Path)
    (op : Operator)
    (need : Need) :
    Option BaseType → Findings
  | some t =>
      Finding.when (!need.isMetBy t) path
        (.wrongType op.name need t)
  | none => []

/- Problems with the two sides of a match. -/
def checkMatch (path : Path) (left right : StaticType) :
    Findings :=
  let types :=
    match left.baseType, right.baseType with
    | some a, some b =>
        Finding.when (a != b) path (.matchTypes a b)
    | _, _ => []
  let cardinalities :=
    match left.cardinality, right.cardinality with
    | some a, some b =>
        Finding.when (a != b) path (.matchCardinalities a b)
    | _, _ => []
  types ++ cardinalities ++
    Finding.when
      (left.baseType == some .duration ||
        right.baseType == some .duration)
      path .matchDurations

/- Problems with the types of arguments. -/
def checkArguments
    (lookup : String → Lookup)
    (path : Path)
    (op : Operator)
    (args : List Expression) :
    Findings :=
  match op, args, need? op with
  | .plain .match, [left, right], _ =>
      checkMatch path (left.staticType lookup)
        (right.staticType lookup)
  | _, _, some (need, containers) =>
      args.zipIdx.flatMap fun (arg, i) =>
        let place := path.indexed arg.name i
        let type := arg.staticType lookup
        checkBaseType place op need type.baseType ++
          checkCardinality place op containers type.cardinality
  | _, _, none => []

------------------------------------------------------------
-- Fields of Operators
------------------------------------------------------------

/- Problems with a tolerance. -/
def checkTolerance (path : Path) (t : Tolerance) : Findings :=
  let n := t.amounts.length
  let count :=
    match t.mode with
    | .exact => Finding.when (0 < n) path .idleTolerance
    | .absolute | .relative =>
        Finding.when (n == 0) path .noTolerance ++
          Finding.when (2 < n) path (.manyTolerances n)
  count ++
    Finding.when (t.amounts.any (· < 0)) path
      .negativeTolerance

/- The least number of figures to round to. -/
def leastFigures : RoundingMode → Nat
  | .significantFigures => 1
  | .decimalPlaces => 0

/- Too few figures to round to. -/
def checkFigures
    (path : Path)
    (mode : RoundingMode)
    (figures : Int64) :
    Findings :=
  let least := leastFigures mode
  Finding.when (figures.toInt < least) path
    (.fewFigures least figures)

/- Bounds on a number of true arguments. -/
def checkAnyN (path : Path) (min max : Int64) (count : Nat) :
    Findings :=
  Finding.when (min < 0) path .anyNegative ++
    Finding.when (max < min) path (.anyCrossed min max) ++
    Finding.when (count < min.toInt) path
      (.anyUnreachable min count)

/- Problems with the fields of an operator. -/
def checkOperator (path : Path) (op : Operator) (count : Nat) :
    Findings :=
  match op with
  | .equal tolerance => checkTolerance path tolerance
  | .roundTo mode figures | .equalRounded mode figures =>
      checkFigures path mode figures
  | .anyN min max => checkAnyN path min max count
  | .index n => Finding.when (n < 1) path (.indexTooSmall n)
  | .inside shape coords =>
      match shape.countProblem? coords with
      | some line => [⟨path, .badCoords line⟩]
      | none => []
  | _ => []

/- Problems with the fields of a leaf. -/
def checkRange (path : Path) (l : Leaf) : Findings :=
  match l with
  | .randomInteger min max step =>
      Finding.when (max < min) path (.integersCrossed min max) ++
        Finding.when (step < 1) path .stepTooSmall
  | .randomFloat min max =>
      Finding.when (max < min) path (.floatsCrossed min max)
  | _ => []

------------------------------------------------------------
-- Subsets of Items
------------------------------------------------------------

/- The weight that a subset names. -/
def weightOf? : SubsetKind → Option String
  | .outcomeMinimum _ weight | .outcomeMaximum _ weight
  | .testVariables _ weight _ => weight
  | _ => none

/- Problems with a subset of the items of a test. -/
def checkSubset (owner : Definition) (path : Path)
    (s : ItemSubset) : Findings :=
  match owner with
  | .item _ => [⟨path, .onlyInTests s.kind.name⟩]
  | .test t =>
      let inSection :=
        match s.within with
        | some name =>
            Finding.when (t.section? name).isNone path
              (.unknownSection name)
        | none => []
      let weight :=
        match weightOf? s.kind with
        | some weight =>
            let known := t.placements.any fun p =>
              (p.ref.weights.get? weight).isSome
            Finding.when (!known) path (.unknownWeight weight)
        | none => []
      inSection ++ weight

------------------------------------------------------------
-- Nodes
------------------------------------------------------------

/- Problems with a leaf. -/
def checkLeaf
    (c : Catalogue)
    (owner : Definition)
    (path : Path)
    (l : Leaf) :
    Findings :=
  let subset :=
    match l with
    | .items s => checkSubset owner path s
    | _ => []
  checkReference c owner path l ++ checkRange path l ++ subset

/- The problems of a node by itself. -/
def check
    (c : Catalogue)
    (owner : Definition)
    (path : Path)
    (e : Expression) :
    Findings :=
  checkArity path e ++
    match e with
    | .leaf l => checkLeaf c owner path l
    | .node op args =>
        checkArguments (c.lookup owner) path op args ++
          checkOperator path op args.length

end Expression

------------------------------------------------------------
-- Catalogues
------------------------------------------------------------

namespace Catalogue

/- Problems with nodes that belong to a definition. -/
def checkNodes (c : Catalogue) (owner : Definition)
    (nodes : List (Path × Expression)) : Expression.Findings :=
  nodes.flatMap fun (path, e) => e.check c owner path

/- Template defaults of a reference; they belong to its item. -/
def checkDefaults (c : Catalogue) (path : Path) (ref : ItemRef) :
    Expression.Findings :=
  match c.item? ref.href with
  | none => []
  | some i =>
      ref.templateDefaults.zipIdx.flatMap fun (d, k) =>
        let field :=
          (path.indexed "templateDefaults" k).child "expression"
        c.checkNodes (.item i) (d.value.nodesAt field)

/- Template defaults of all references of a test. -/
def checkAllDefaults (c : Catalogue) (t : Test) :
    Expression.Findings :=
  t.nodes.flatMap fun (_, path, node) =>
    match node with
    | .item ref => c.checkDefaults path ref
    | _ => []

/- Problems with the expressions of a definition. -/
def checkExpressions (c : Catalogue) (d : Definition) :
    Expression.Findings :=
  c.checkNodes d d.expressions ++
    match d with
    | .item _ => []
    | .test t => c.checkAllDefaults t

end Catalogue

end Assessment
