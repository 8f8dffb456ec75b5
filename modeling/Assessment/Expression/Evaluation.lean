import Assessment.Engine.Basic
import Assessment.Expression.Arithmetic
import Assessment.Expression.Basic
import Assessment.Expression.Container
import Assessment.Scope.Basic

/-
  Evaluation of expressions.

  Arguments are evaluated from the first to the last, all of
  them before the operator is applied. Operands that do not
  fit an operator give NULL. A failure comes from a service
  alone, when the policy is that its failures are fatal.

  Key definitions include:
    * `PlainOperator.value` and `Operator.apply`
    * `Leaf.evaluate` and `Expression.evaluate`
-/

------------------------------------------------------------
-- Plain Operators
------------------------------------------------------------

namespace Assessment

/- Compares two numbers. -/
def compareNumbers (values : List Value)
    (holds : Float → Float → Bool) : Value :=
  Arithmetic.ofNumbers values fun x y => .boolean (holds x y)

/- The seconds of a single duration. -/
def Value.duration? : Value → Option Float
  | .single (.duration x) => some x
  | _ => none

/- Compares two durations. -/
def compareDurations (v w : Value)
    (holds : Float → Float → Bool) : Value :=
  match v.duration?, w.duration? with
  | some x, some y => .boolean (holds x y)
  | _, _ => .null

/-
  The value of a plain operator on its operands. A random
  choice has no value of its own and is drawn elsewhere.
-/
def PlainOperator.value
    (op : PlainOperator)
    (values : List Value) :
    Value :=
  let first := values.headD .null
  let second := values[1]?.getD .null
  match op with
  | .and => Logic.conjunction values
  | .or => Logic.disjunction values
  | .not => Logic.negation first
  | .isNull => .boolean (Logic.isEmpty first)
  | .match => Logic.same first second
  | .lt => compareNumbers values fun x y => x < y
  | .lte => compareNumbers values fun x y => x ≤ y
  | .gt => compareNumbers values fun x y => y < x
  | .gte => compareNumbers values fun x y => y ≤ x
  | .durationLt => compareDurations first second fun x y => x < y
  | .durationGte => compareDurations first second fun x y => y ≤ x
  | .sum => Arithmetic.sum values
  | .product => Arithmetic.product values
  | .subtract => Arithmetic.difference values
  | .divide => Arithmetic.ofNumbers values Arithmetic.divide
  | .power =>
      Arithmetic.ofNumbers values fun x y => .float (x.pow y)
  | .integerDivide =>
      Arithmetic.ofIntegers values Arithmetic.quotient?
  | .integerModulus =>
      Arithmetic.ofIntegers values Arithmetic.modulus?
  | .truncate => Arithmetic.ofNumber values Arithmetic.truncate
  | .round => Arithmetic.ofNumber values Arithmetic.round
  | .integerToFloat =>
      match first.int64? with
      | some n => .float (Binary64.ofInt64 n)
      | none => .null
  | .max => Arithmetic.greatest values
  | .min => Arithmetic.least values
  | .multiple => Container.collect .multiple values
  | .ordered => Container.collect .ordered values
  | .containerSize => Container.size first
  | .member => Container.member first second
  | .contains => Container.contains first second
  | .delete => Container.delete first second
  | .random => .null

/- One element of a container, drawn at random. -/
def chooseElement : Value → Step Value
  | .multiple _ xs | .ordered _ xs => do
      return .ofScalar? (← Step.take fun d => d.pick xs)
  | _ => pure .null

------------------------------------------------------------
-- Operators
------------------------------------------------------------

/- The value of a statistic of a container. -/
def StatsOperator.ofContainer (op : StatsOperator) :
    Value → Value
  | .multiple _ xs | .ordered _ xs =>
      match Arithmetic.numbersOf? xs with
      | some xs => op.apply xs
      | none => .null
  | _ => .null

/- Whether one of the points of an operand lies in a shape. -/
def Shape.holdsAny (shape : Shape) (coords : List Int64)
    (v : Value) : Value :=
  if v.baseType? == some .point then
    .boolean (v.elements.any fun s =>
      match s with
      | .point x y => shape.contains coords x y
      | _ => false)
  else .null

/- Whether one list of characters stands within another. -/
def isWithin (part : List Char) : List Char → Bool
  | [] => part.isEmpty
  | c :: cs =>
      part.isPrefixOf (c :: cs) || isWithin part cs

/- Compares two strings, or looks for the first in the second. -/
def compareStrings (caseSensitive substring : Bool)
    (v w : Value) : Value :=
  match v.string?, w.string? with
  | some s, some t =>
      let s := if caseSensitive then s else Text.lowercase s
      let t := if caseSensitive then t else Text.lowercase t
      .boolean
        (if substring then isWithin s.toList t.toList
         else s == t)
  | _, _ => .null

/- Applies an operator to the values of its arguments. -/
def Operator.apply
    (engine : Engine)
    (source : String)
    (op : Operator)
    (values : List Value) :
    Step Value :=
  let first := values.headD .null
  let second := values[1]?.getD .null
  match op with
  | .plain .random => chooseElement first
  | .plain op => pure (op.value values)
  | .math op =>
      match Arithmetic.numbers? values with
      | none => pure .null
      | some xs =>
          match engine.service with
          | some service =>
              Step.ofService engine.settings.policy source
                (service.operation op.name values)
          | none => pure (op.apply xs)
  | .stats op => pure (op.ofContainer first)
  | .equal tolerance =>
      pure (compareNumbers values tolerance.accepts)
  | .equalRounded mode figures =>
      pure (Arithmetic.ofNumbers values fun x y =>
        .ofBool? (Rounding.equal? x y mode figures))
  | .roundTo mode figures =>
      pure (Arithmetic.ofNumber values fun x =>
        match Rounding.float? x mode figures with
        | some y => .float y
        | none => .null)
  | .anyN min max => pure (Logic.anyN min max values)
  | .inside shape coords => pure (shape.holdsAny coords first)
  | .stringMatch caseSensitive substring =>
      pure (compareStrings caseSensitive substring first second)
  | .patternMatch _ pattern =>
      pure (.ofBool? (first.string?.map pattern.found))
  | .index n => pure (Container.at? n first)
  | .fieldValue name => pure (Container.field name first)

------------------------------------------------------------
-- Variables
------------------------------------------------------------

/- A value under a weight of a reference of a test. -/
def weigh
    (test : TestView)
    (reference : String)
    (weight : Option String)
    (v : Value) :
    Value :=
  match weight, v.number? with
  | some name, some x =>
      match (test.weightsOf? reference).bind
          (Keyed.get? name) with
      | some factor => .float (x * factor)
      | none => v
  | _, _ => v

/- The value of a variable of an item, seen from a test. -/
def fetchDotted
    (source : String)
    (test : TestView)
    (text : String)
    (weight : Option String)
    (name : DottedName) :
    Step Value :=
  match test.resolve name.reference name.occurrence
      name.identifier with
  | .found v => pure (weigh test name.reference weight v)
  | .firstOf v count => do
      Step.warn source
        ("variable '" ++ text ++ "': item ref '" ++
          name.reference ++ "' has " ++ toString count ++
          " instances, using the first")
      pure (weigh test name.reference weight v)
  | .noInstance =>
      Step.nullWith source
        ("variable '" ++ text ++
          "': no selected instance of item ref '" ++
          name.reference ++ "'")
  | .unknown =>
      Step.nullWith source
        ("variable '" ++ text ++ "' does not resolve")

/- A value of the scope, or NULL with a warning. -/
def orWarn (scope : Scope) (message : String) :
    Option Value → Step Value
  | some v => pure v
  | none => Step.nullWith scope.source message

/- The value of a variable, dotted names included. -/
def readVariable
    (scope : Scope)
    (identifier : String)
    (weight : Option String) :
    Step Value :=
  let plain :=
    orWarn scope
      ("undeclared variable '" ++ identifier ++ "'")
      (scope.value? identifier)
  match scope.test, DottedName.parse? identifier with
  | some test, some name =>
      fetchDotted scope.source test identifier weight name
  | _, _ => plain

/- The score of a response under what its declaration has. -/
def score
    (scope : Scope)
    (name identifier lacking : String)
    (scoring? : Declaration → Option α)
    (apply : α → Declaration → Value → Value) :
    Step Value :=
  match scope.declaration? identifier with
  | none =>
      Step.nullWith scope.source
        (name ++ ": undeclared response '" ++ identifier ++
          "'")
  | some d =>
      match scoring? d with
      | none =>
          Step.nullWith scope.source
            (name ++ ": response '" ++ identifier ++
              "' has no " ++ lacking)
      | some m =>
          pure (apply m d
            ((scope.value? identifier).getD .null))

------------------------------------------------------------
-- Leaves
------------------------------------------------------------

/- An integer drawn from a range, in steps from its start. -/
def drawInteger (min max step : Int64) : Step Value :=
  let span := max.toInt - min.toInt
  if step < 1 || span < 0 || twoTo 63 ≤ span then pure .null
  else do
    let k ← Step.draw fun d =>
      d.below ((span / step.toInt).toNat + 1)
    return .integer
      (Int64.ofInt (min.toInt + step.toInt * k))

/- A double drawn from a range. -/
def drawFloat (min max : Float) : Step Value :=
  if max < min then pure .null
  else if max == min then pure (.float min)
  else do
    return .float (← Step.take fun d => d.between min max)

/- The value of a leaf. -/
def Leaf.evaluate (engine : Engine) (scope : Scope) :
    Leaf → Step Value
  | .base v => pure v
  | .null => pure .null
  | .fetch identifier weight =>
      readVariable scope identifier weight
  | .initial identifier =>
      orWarn scope
        ("default: undeclared variable '" ++ identifier ++ "'")
        (scope.default? identifier)
  | .correct identifier =>
      orWarn scope
        ("correct: undeclared response '" ++ identifier ++ "'")
        (scope.correct? identifier)
  | .mapResponse identifier =>
      score scope "mapResponse" identifier "mapping"
        Declaration.mapping? fun m d v =>
          Assessment.mapResponse m d.cardinality v
  | .mapPoints identifier =>
      score scope "mapResponsePoint" identifier "area mapping"
        Declaration.areaMapping? fun m _ v =>
          Assessment.mapPoints m v
  | .randomInteger min max step => drawInteger min max step
  | .randomFloat min max => drawFloat min max
  | .constant c =>
      match engine.service with
      | some service =>
          Step.ofService engine.settings.policy scope.source
            (service.constant c.name)
      | none => pure (.float c.value)
  | .items s =>
      match scope.test with
      | some test => pure (s.value test)
      | none =>
          Step.nullWith scope.source
            (s.kind.name ++
              " is only meaningful in test outcome processing")

------------------------------------------------------------
-- Expressions
------------------------------------------------------------

namespace Expression

mutual

/- The value of an expression. -/
def evaluate (engine : Engine) (scope : Scope) :
    Expression → Step Value
  | .leaf l => l.evaluate engine scope
  | .node op args => do
      let values ← evaluateAll engine scope args
      op.apply engine scope.source values

/- The values of expressions, from the first to the last. -/
def evaluateAll (engine : Engine) (scope : Scope) :
    List Expression → Step (List Value)
  | [] => pure []
  | e :: rest => do
      let v ← evaluate engine scope e
      let vs ← evaluateAll engine scope rest
      return v :: vs

end

end Expression

end Assessment
