import Assessment.Expression.Mathematics

/-
  Arithmetic of integers and floats.

  Operands that are all integers are computed with exactly,
  and a result of more than 64 bits is NULL. Other numbers are
  computed with as doubles.

  Key definitions include:
    * `numbers?` and `integers?`, views of operands
    * `sum`, `product` and `difference`
    * `quotient?` and `modulus?`, division towards the floor
    * `extreme`, the greatest or the least element
-/

------------------------------------------------------------
-- Operands
------------------------------------------------------------

namespace Assessment

namespace Arithmetic

/- The operands as doubles, if all are single numbers. -/
def numbers? : List Value → Option (List Float)
  | [] => some []
  | v :: rest =>
      match v.number?, numbers? rest with
      | some x, some xs => some (x :: xs)
      | _, _ => none

/- The operands as integers, if all are single integers. -/
def integers? : List Value → Option (List Int64)
  | [] => some []
  | v :: rest =>
      match v.int64?, integers? rest with
      | some n, some ns => some (n :: ns)
      | _, _ => none

/- The value of a function of one number. -/
def ofNumber (values : List Value) (f : Float → Value) :
    Value :=
  match numbers? values with
  | some [x] => f x
  | _ => .null

/- The value of a function of two numbers. -/
def ofNumbers (values : List Value)
    (f : Float → Float → Value) : Value :=
  match numbers? values with
  | some [x, y] => f x y
  | _ => .null

/- The value of a function of two integers. -/
def ofIntegers (values : List Value)
    (f : Int64 → Int64 → Option Int64) : Value :=
  match integers? values with
  | some [a, b] => .ofInt64? (f a b)
  | _ => .null

/- Computes with integers, or else with doubles. -/
def withIntegers
    (values : List Value)
    (whole : List Int64 → Option Int64)
    (rounded : List Float → Float) :
    Value :=
  match integers? values with
  | some ns => .ofInt64? (whole ns)
  | none =>
      match numbers? values with
      | some xs => .float (rounded xs)
      | none => .null

------------------------------------------------------------
-- Sums, Products and Differences
------------------------------------------------------------

/- The sum of two integers within 64 bits. -/
def add? (a b : Int64) : Option Int64 :=
  Binary64.int64? (a.toInt + b.toInt)

/- The difference of two integers within 64 bits. -/
def subtract? (a b : Int64) : Option Int64 :=
  Binary64.int64? (a.toInt - b.toInt)

/- The product of two integers within 64 bits. -/
def multiply? (a b : Int64) : Option Int64 :=
  Binary64.int64? (a.toInt * b.toInt)

/- Combines integers from the first on. -/
def fold? (f : Int64 → Int64 → Option Int64) (start : Int64)
    (ns : List Int64) : Option Int64 :=
  ns.foldl (fun a? n => a?.bind fun a => f a n) (some start)

/- The sum of the operands. -/
def sum (values : List Value) : Value :=
  withIntegers values (fold? add? 0) Statistics.sum

/- The product of the operands. -/
def product (values : List Value) : Value :=
  withIntegers values (fold? multiply? 1) Statistics.product

/- The difference of two operands. -/
def difference (values : List Value) : Value :=
  withIntegers values
    (fun ns =>
      match ns with
      | [a, b] => subtract? a b
      | _ => none)
    (fun xs =>
      match xs with
      | [x, y] => x - y
      | _ => 0 / 0)

------------------------------------------------------------
-- Quotients
------------------------------------------------------------

/- The quotient of two numbers, NULL by zero. -/
def divide (x y : Float) : Value :=
  if y == 0 then .null else .float (x / y)

/-
  The quotient of two integers, rounded down. There is none
  by zero, and none that exceeds 64 bits.
-/
def quotient? (a b : Int64) : Option Int64 :=
  if b == 0 then none
  else Binary64.int64? (Int.fdiv a.toInt b.toInt)

/- What a quotient that is rounded down leaves. -/
def modulus? (a b : Int64) : Option Int64 := do
  let q ← quotient? a b
  subtract? a (← multiply? b q)

------------------------------------------------------------
-- Extremes
------------------------------------------------------------

/- The single values of operands, none of them NULL. -/
def flatten? : List Value → Option (List Scalar)
  | [] => some []
  | .null :: _ => none
  | .record _ :: _ => none
  | v :: rest => (flatten? rest).map (v.elements ++ ·)

/- The doubles of single values, if all are numbers. -/
def numbersOf? : List Scalar → Option (List Float)
  | [] => some []
  | s :: rest =>
      match s.number?, numbersOf? rest with
      | some x, some xs => some (x :: xs)
      | _, _ => none

/- Whether a single value is an integer. -/
def isInteger : Scalar → Bool
  | .integer _ => true
  | _ => false

/-
  The extreme element of the operands, an integer when all
  elements are integers.
-/
def extreme
    (pick : Float → Float → Float)
    (start : Float)
    (values : List Value) :
    Value :=
  match flatten? values with
  | none => .null
  | some elements =>
      match numbersOf? elements with
      | none => .null
      | some [] => .null
      | some xs =>
          let x := xs.foldl pick start
          if elements.all isInteger then
            .ofInt64? (Binary64.toInt64? x)
          else .float x

/- The greatest element of the operands. -/
def greatest (values : List Value) : Value :=
  extreme Binary64.greater (-1 / 0) values

/- The least element of the operands. -/
def least (values : List Value) : Value :=
  extreme Binary64.smaller (1 / 0) values

------------------------------------------------------------
-- Whole Numbers
------------------------------------------------------------

/- A number without its fraction, as an integer. -/
def truncate (x : Float) : Value :=
  .ofInt64? (Binary64.toInt64? (Binary64.truncate x))

/- The nearest integer, the greater one of two. -/
def round (x : Float) : Value :=
  .ofInt64? (Binary64.toInt64? (Binary64.floor (x + 0.5)))

end Arithmetic

end Assessment
