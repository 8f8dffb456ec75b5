import Assessment.Expression.Mathematics
import Assessment.Expression.Subset
import Assessment.Pattern.Reader

/-
  Expressions.

  An expression is a leaf, which reads its surroundings, or a
  node, which applies an operator to the values of its
  arguments.

  Key definitions include:
    * `Leaf`, `Operator` and `Expression`
    * the name, arity, cardinality and base type of each
-/

------------------------------------------------------------
-- Leaves
------------------------------------------------------------

namespace Assessment

/- An expression without arguments. -/
inductive Leaf where
  | base (v : Value)
  | fetch (identifier : String) (weight : Option String)
  | initial (identifier : String)
  | correct (identifier : String)
  | null
  | mapResponse (identifier : String)
  | mapPoints (identifier : String)
  | randomInteger (min max step : Int64)
  | randomFloat (min max : Float)
  | constant (c : MathConstant)
  | items (s : ItemSubset)

namespace Leaf

/- The name of a leaf. -/
def name : Leaf → String
  | .base _ => "baseValue"
  | .fetch .. => "variable"
  | .initial _ => "default"
  | .correct _ => "correct"
  | .null => "null"
  | .mapResponse _ => "mapResponse"
  | .mapPoints _ => "mapResponsePoint"
  | .randomInteger .. => "randomInteger"
  | .randomFloat .. => "randomFloat"
  | .constant _ => "mathConstant"
  | .items s => s.kind.name

/- The identifier that a leaf refers to. -/
def identifier? : Leaf → Option String
  | .fetch i _ | .initial i | .correct i | .mapResponse i
  | .mapPoints i => some i
  | _ => none

/- The cardinality of the values of a leaf, if certain. -/
def cardinality? : Leaf → Option Cardinality
  | .base v => v.cardinality?
  | .constant _ | .mapResponse _ | .mapPoints _
  | .randomInteger .. | .randomFloat .. => some .single
  | .items s => some s.kind.cardinality
  | _ => none

/- The base type of the values of a leaf, if certain. -/
def baseType? : Leaf → Option BaseType
  | .base v => v.baseType?
  | .constant _ | .mapResponse _ | .mapPoints _
  | .randomFloat .. => some .float
  | .randomInteger .. => some .integer
  | .items s => s.kind.baseType?
  | _ => none

end Leaf

------------------------------------------------------------
-- Operators
------------------------------------------------------------

/- Operators that nothing but their arguments describes. -/
inductive PlainOperator where
  | and
  | or
  | not
  | isNull
  | match
  | lt
  | lte
  | gt
  | gte
  | durationLt
  | durationGte
  | sum
  | product
  | subtract
  | divide
  | power
  | integerDivide
  | integerModulus
  | truncate
  | round
  | integerToFloat
  | max
  | min
  | multiple
  | ordered
  | containerSize
  | member
  | contains
  | delete
  | random
deriving DecidableEq, Repr

namespace PlainOperator

/- All plain operators. -/
def all : List PlainOperator :=
  [.and, .or, .not, .isNull, .match, .lt, .lte, .gt, .gte,
   .durationLt, .durationGte, .sum, .product, .subtract,
   .divide, .power, .integerDivide, .integerModulus,
   .truncate, .round, .integerToFloat, .max, .min, .multiple,
   .ordered, .containerSize, .member, .contains, .delete,
   .random]

/- The name of a plain operator. -/
def name : PlainOperator → String
  | .and => "and"
  | .or => "or"
  | .not => "not"
  | .isNull => "isNull"
  | .match => "match"
  | .lt => "lt"
  | .lte => "lte"
  | .gt => "gt"
  | .gte => "gte"
  | .durationLt => "durationLT"
  | .durationGte => "durationGTE"
  | .sum => "sum"
  | .product => "product"
  | .subtract => "subtract"
  | .divide => "divide"
  | .power => "power"
  | .integerDivide => "integerDivide"
  | .integerModulus => "integerModulus"
  | .truncate => "truncate"
  | .round => "round"
  | .integerToFloat => "integerToFloat"
  | .max => "max"
  | .min => "min"
  | .multiple => "multiple"
  | .ordered => "ordered"
  | .containerSize => "containerSize"
  | .member => "member"
  | .contains => "contains"
  | .delete => "delete"
  | .random => "random"

/- The plain operator with a name. -/
def ofName? (name : String) : Option PlainOperator :=
  all.find? fun op => op.name == name

/- The least and the greatest number of arguments. -/
def arity : PlainOperator → Nat × Option Nat
  | .not | .isNull | .truncate | .round | .integerToFloat
  | .containerSize | .random => (1, some 1)
  | .and | .or | .sum | .product | .max | .min => (1, none)
  | .multiple | .ordered => (0, none)
  | _ => (2, some 2)

/- The cardinality of the values, if certain. -/
def cardinality? : PlainOperator → Option Cardinality
  | .multiple => some .multiple
  | .ordered => some .ordered
  | .delete => none
  | _ => some .single

/- The base type of the values, if certain. -/
def baseType? : PlainOperator → Option BaseType
  | .and | .or | .not | .isNull | .match | .lt | .lte | .gt
  | .gte | .durationLt | .durationGte | .member | .contains =>
      some .boolean
  | .divide | .integerToFloat | .power => some .float
  | .integerDivide | .integerModulus | .truncate | .round
  | .containerSize => some .integer
  | _ => none

end PlainOperator

/- What is applied to the values of arguments. -/
inductive Operator where
  | plain (op : PlainOperator)
  | math (op : MathOperator)
  | stats (op : StatsOperator)
  | equal (tolerance : Tolerance)
  | equalRounded (mode : RoundingMode) (figures : Int64)
  | roundTo (mode : RoundingMode) (figures : Int64)
  | anyN (min max : Int64)
  | inside (shape : Shape) (coords : List Int64)
  | stringMatch (caseSensitive substring : Bool)
  /- A pattern that a text must match as a whole. -/
  | patternMatch (text : String) (pattern : Pattern)
  | index (n : Int64)
  | fieldValue (field : String)

namespace Operator

/- The name of an operator. -/
def name : Operator → String
  | .plain op => op.name
  | .math _ => "mathOperator"
  | .stats _ => "statsOperator"
  | .equal _ => "equal"
  | .equalRounded .. => "equalRounded"
  | .roundTo .. => "roundTo"
  | .anyN .. => "anyN"
  | .inside .. => "inside"
  | .stringMatch .. => "stringMatch"
  | .patternMatch .. => "patternMatch"
  | .index _ => "index"
  | .fieldValue _ => "fieldValue"

/- The least and the greatest number of arguments. -/
def arity : Operator → Nat × Option Nat
  | .plain op => op.arity
  | .math op => (op.arity, some op.arity)
  | .stats _ | .roundTo .. | .inside .. | .patternMatch ..
  | .index _ | .fieldValue _ => (1, some 1)
  | .equal _ | .equalRounded .. | .stringMatch .. =>
      (2, some 2)
  | .anyN .. => (1, none)

/- The cardinality of the values, if certain. -/
def cardinality? : Operator → Option Cardinality
  | .plain op => op.cardinality?
  | .index _ | .fieldValue _ => none
  | _ => some .single

/- The base type of the values, if certain. -/
def baseType? : Operator → Option BaseType
  | .plain op => op.baseType?
  | .math op =>
      some (if op.givesInteger then .integer else .float)
  | .stats _ => some .float
  | .equal _ | .equalRounded .. | .anyN .. | .inside ..
  | .stringMatch .. | .patternMatch .. => some .boolean
  | .roundTo .. | .index _ | .fieldValue _ => none

end Operator

------------------------------------------------------------
-- Expressions
------------------------------------------------------------

/- A leaf, or an operator with its arguments. -/
inductive Expression where
  | leaf (l : Leaf)
  | node (op : Operator) (args : List Expression)

namespace Expression

instance : Inhabited Expression := ⟨.leaf .null⟩

/- The name of an expression. -/
def name : Expression → String
  | .leaf l => l.name
  | .node op _ => op.name

/- The arguments, in the order of evaluation. -/
def args : Expression → List Expression
  | .leaf _ => []
  | .node _ args => args

/- The least and the greatest number of arguments. -/
def arity : Expression → Nat × Option Nat
  | .leaf _ => (0, some 0)
  | .node op _ => op.arity

/- The identifier that an expression itself refers to. -/
def identifier? : Expression → Option String
  | .leaf l => l.identifier?
  | .node .. => none

/- The cardinality of the values, if certain. -/
def cardinality? : Expression → Option Cardinality
  | .leaf l => l.cardinality?
  | .node op _ => op.cardinality?

/- The base type of the values, if certain. -/
def baseType? : Expression → Option BaseType
  | .leaf l => l.baseType?
  | .node op _ => op.baseType?

end Expression

end Assessment
