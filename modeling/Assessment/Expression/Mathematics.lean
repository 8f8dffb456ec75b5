import Assessment.Number.Decimal
import Assessment.Value.Reader

/-
  Statistics, mathematical operators and constants, equality
  of numbers up to a tolerance, and rounding to decimal places
  and to significant figures.

  Numbers are rounded in the decimal model, where a half goes
  away from zero. Those too large for the model are rounded
  as exact doubles instead.

  Key definitions include:
    * `Tolerance`, with `Tolerance.range` and
      `Tolerance.accepts`
    * `RoundingMode` and `RoundingMode.allows`
    * `Rounding.decimal?`, rounding in the decimal model
    * `Rounding.float?`, rounding of any double
    * `Rounding.equal?`, equality after rounding
    * `Statistics.sum` and `product` of doubles
    * `StatsOperator` and `StatsOperator.apply`
    * `MathConstant`
    * `MathOperator`, its names and arities
    * `MathOperator.apply`, the value of an operator
-/

------------------------------------------------------------
-- Tolerances
------------------------------------------------------------

namespace Assessment

/- How a tolerance is meant. -/
inductive ToleranceMode where
  | exact
  | absolute
  /- In percent. -/
  | relative
deriving DecidableEq, Repr

/- The mode with a name. -/
def ToleranceMode.parse : String → Except Failure ToleranceMode
  | "exact" => .ok .exact
  | "absolute" => .ok .absolute
  | "relative" => .ok .relative
  | name => .error (.unknownName "toleranceMode" name)

/-
  How far a number may be from another one. The tolerances
  are those below and above it; a single one counts twice.
-/
structure Tolerance where
  mode : ToleranceMode
  amounts : List Float
  includesLower : Bool
  includesUpper : Bool

namespace Tolerance

/- The tolerance below a number. -/
def below (t : Tolerance) : Float :=
  t.amounts.headD 0

/- The tolerance above a number. -/
def above (t : Tolerance) : Float :=
  t.amounts[1]?.getD t.below

/- The range around a number, if equality is not exact. -/
def range (t : Tolerance) (x : Float) : Option (Float × Float) :=
  match t.mode with
  | .exact => none
  | .absolute => some (x - t.below, x + t.above)
  | .relative =>
      let a := x * (1 - t.below / 100)
      let b := x * (1 + t.above / 100)
      some (Binary64.smaller a b, Binary64.greater a b)

/- Whether a number lies in the range around another one. -/
def accepts (t : Tolerance) (x y : Float) : Bool :=
  match t.range x with
  | none => x == y
  | some (lower, upper) =>
      (lower < y || (t.includesLower && lower == y)) &&
        (y < upper || (t.includesUpper && y == upper))

end Tolerance

------------------------------------------------------------
-- Modes
------------------------------------------------------------

/- What is counted in rounding. -/
inductive RoundingMode where
  | significantFigures
  | decimalPlaces
deriving DecidableEq, Repr

namespace RoundingMode

/- The mode with a name. -/
def parse : String → Except Failure RoundingMode
  | "significantFigures" => .ok .significantFigures
  | "decimalPlaces" => .ok .decimalPlaces
  | name => .error (.unknownName "roundingMode" name)

/- Whether a mode can round to a number of figures. -/
def allows (mode : RoundingMode) (figures : Int64) : Bool :=
  match mode with
  | .significantFigures => 1 ≤ figures
  | .decimalPlaces => 0 ≤ figures

end RoundingMode

------------------------------------------------------------
-- Rounding
------------------------------------------------------------

namespace Rounding

/-
  A double rounded in the decimal model. The count of figures
  or places has at most 32 bits there.
-/
def decimal? (x : Float) (mode : RoundingMode)
    (figures : Int64) : Option Decimal :=
  if !mode.allows figures then none
  else
    let figures := figures.toInt.toNat
    (Decimal.ofFloat? x).bind fun d =>
      match mode with
      | .decimalPlaces =>
          if figures < twoTo 32 then some (d.toPlaces figures)
          else none
      | .significantFigures =>
          if d.isZero then some .zero
          else if (figures : Int) - d.pointPosition < twoTo 32 then
            d.toFigures? figures
          else none

/- A finite double rounded by its exact value. -/
def byValue? (x : Float) (mode : RoundingMode)
    (figures : Int64) : Option Float :=
  if !Binary64.isFinite x || !mode.allows figures then none
  else
    let figures := figures.toInt.toNat
    match mode with
    | .decimalPlaces => some (Fixed.toPlaces x figures)
    | .significantFigures => some (Fixed.toFigures x figures)

/- A rounded double, if the mode allows the figures. -/
def float? (x : Float) (mode : RoundingMode)
    (figures : Int64) : Option Float :=
  match decimal? x mode figures with
  | some d => some d.toFloat
  | none => byValue? x mode figures

/- Whether two doubles are the same number once rounded. -/
def equal? (x y : Float) (mode : RoundingMode)
    (figures : Int64) : Option Bool :=
  match decimal? x mode figures, decimal? y mode figures with
  | some a, some b => some (a.equals b)
  | _, _ => do
      let a ← float? x mode figures
      let b ← float? y mode figures
      return a == b

end Rounding

------------------------------------------------------------
-- Sums and Products
------------------------------------------------------------

namespace Statistics

/- The sum of doubles, from the first on. -/
def sum (xs : List Float) : Float :=
  xs.foldl (· + ·) (-0)

/- The product of doubles, from the first on. -/
def product (xs : List Float) : Float :=
  xs.foldl (· * ·) 1

/- The mean of doubles. -/
def mean (xs : List Float) : Float :=
  sum xs / Float.ofNat xs.length

/- The sum of the squared distances from the mean. -/
def squares (xs : List Float) : Float :=
  let m := mean xs
  sum (xs.map fun x => (x - m) * (x - m))

end Statistics

------------------------------------------------------------
-- Operators
------------------------------------------------------------

/- Named statistics. -/
inductive StatsOperator where
  | mean
  | sampleVariance
  | sampleDeviation
  | populationVariance
  | populationDeviation
deriving DecidableEq, Repr

namespace StatsOperator

/- The operator with a name. -/
def parse : String → Except Failure StatsOperator
  | "mean" => .ok .mean
  | "sampleVariance" => .ok .sampleVariance
  | "sampleSD" => .ok .sampleDeviation
  | "popVariance" => .ok .populationVariance
  | "populationVariance" => .ok .populationVariance
  | "popSD" => .ok .populationDeviation
  | "populationSD" => .ok .populationDeviation
  | name => .error (.unknownName "statsOperator" name)

/-
  The statistic of some numbers. A sample needs two of them,
  and the others need one.
-/
def apply (op : StatsOperator) (xs : List Float) : Value :=
  let n := xs.length
  let squares := Statistics.squares xs
  let sample := squares / Float.ofNat (n - 1)
  let population := squares / Float.ofNat n
  if n == 0 then .null
  else
    match op with
    | .mean => .float (Statistics.mean xs)
    | .populationVariance => .float population
    | .populationDeviation => .float population.sqrt
    | .sampleVariance =>
        if n < 2 then .null else .float sample
    | .sampleDeviation =>
        if n < 2 then .null else .float sample.sqrt

end StatsOperator

------------------------------------------------------------
-- Constants
------------------------------------------------------------

/- Named constants. -/
inductive MathConstant where
  | pi
  | e
deriving DecidableEq, Repr

namespace MathConstant

/- The name of a constant. -/
def name : MathConstant → String
  | .pi => "pi"
  | .e => "e"

/- The constant with a name. -/
def parse (name : String) : Except Failure MathConstant :=
  match [pi, e].find? fun c => c.name == name with
  | some c => .ok c
  | none => .error (.unknownName "mathConstant" name)

/- The nearest double. -/
def value : MathConstant → Float
  | .pi => 3.141592653589793
  | .e => 2.718281828459045

end MathConstant

------------------------------------------------------------
-- Operators
------------------------------------------------------------

/- Named functions of numbers. -/
inductive MathOperator where
  | sin
  | cos
  | tan
  | sec
  | csc
  | cot
  | asin
  | acos
  | atan
  | atan2
  | asec
  | acsc
  | acot
  | sinh
  | cosh
  | tanh
  | sech
  | csch
  | coth
  | log
  | ln
  | exp
  | abs
  | signum
  | floor
  | ceil
  | toDegrees
  | toRadians
deriving DecidableEq, Repr

namespace MathOperator

/- All operators. -/
def all : List MathOperator :=
  [sin, cos, tan, sec, csc, cot, asin, acos, atan, atan2,
   asec, acsc, acot, sinh, cosh, tanh, sech, csch, coth, log,
   ln, exp, abs, signum, floor, ceil, toDegrees, toRadians]

/- The name of an operator. -/
def name : MathOperator → String
  | .sin => "sin"
  | .cos => "cos"
  | .tan => "tan"
  | .sec => "sec"
  | .csc => "csc"
  | .cot => "cot"
  | .asin => "asin"
  | .acos => "acos"
  | .atan => "atan"
  | .atan2 => "atan2"
  | .asec => "asec"
  | .acsc => "acsc"
  | .acot => "acot"
  | .sinh => "sinh"
  | .cosh => "cosh"
  | .tanh => "tanh"
  | .sech => "sech"
  | .csch => "csch"
  | .coth => "coth"
  | .log => "log"
  | .ln => "ln"
  | .exp => "exp"
  | .abs => "abs"
  | .signum => "signum"
  | .floor => "floor"
  | .ceil => "ceil"
  | .toDegrees => "toDegrees"
  | .toRadians => "toRadians"

/- The operator with a name. -/
def parse (name : String) : Except Failure MathOperator :=
  match all.find? fun op => op.name == name with
  | some op => .ok op
  | none => .error (.unknownName "mathOperator" name)

/- The number of operands. -/
def arity : MathOperator → Nat
  | .atan2 => 2
  | _ => 1

/- Whether the value is an integer. -/
def givesInteger : MathOperator → Bool
  | .signum | .floor | .ceil => true
  | _ => false

/- One, zero or minus one, as a number is above or below. -/
def signOf (x : Float) : Float :=
  if 0 < x then 1 else if x < 0 then -1 else 0

/- The function of one number behind an operator. -/
def unary? : MathOperator → Option (Float → Float)
  | .sin => some Float.sin
  | .cos => some Float.cos
  | .tan => some Float.tan
  | .sec => some fun x => 1 / x.cos
  | .csc => some fun x => 1 / x.sin
  | .cot => some fun x => 1 / x.tan
  | .asin => some Float.asin
  | .acos => some Float.acos
  | .atan => some Float.atan
  | .atan2 => none
  | .asec => some fun x => (1 / x).acos
  | .acsc => some fun x => (1 / x).asin
  | .acot => some fun x => (1 / x).atan
  | .sinh => some Float.sinh
  | .cosh => some Float.cosh
  | .tanh => some Float.tanh
  | .sech => some fun x => 1 / x.cosh
  | .csch => some fun x => 1 / x.sinh
  | .coth => some fun x => 1 / x.tanh
  | .log => some Float.log10
  | .ln => some Float.log
  | .exp => some Float.exp
  | .abs => some Float.abs
  | .signum => some signOf
  | .floor => some Binary64.floor
  | .ceil => some Binary64.ceil
  | .toDegrees =>
      some fun x => x * (180 / MathConstant.pi.value)
  | .toRadians =>
      some fun x => x * (MathConstant.pi.value / 180)

/- The result of an operator on its operands, if they fit. -/
def result? (op : MathOperator) (xs : List Float) :
    Option Float :=
  match op, xs with
  | .atan2, [y, x] => some (Float.atan2 y x)
  | op, [x] => op.unary?.map (· x)
  | _, _ => none

/-
  The value of an operator. Results that are not finite, and
  integers of more than 64 bits, are NULL.
-/
def apply (op : MathOperator) (xs : List Float) : Value :=
  match op.result? xs with
  | none => .null
  | some x =>
      if op.givesInteger then
        .ofInt64? (Binary64.toInt64? x)
      else .float x

end MathOperator

end Assessment
