import Assessment.Number.Numeral
import Assessment.Number.Shortest

/-
  Rounding to decimal places, and decimals of limited size.

  A double is a fraction of natural numbers. Rounding it to a
  multiple of a power of ten is a division that goes to the
  nearest neighbour, and to the even one from the middle.

  A decimal is a whole mantissa of at most 96 bits, shifted
  by at most 28 places. A double enters the model through its
  shortest digits, and leaves it through a division of the
  mantissa.

  Key definitions include:
    * `Fixed.roundQuotient`, a quotient to the nearest integer
    * `Fixed.toPlaces` and `Fixed.toFigures`, a double to a
      number of decimal places or leading digits
    * `Decimal`, with `isZero` and `equals`
    * `ofFloat?`, a double as a decimal, if its size allows
    * `toPlaces` and `toFigures?`, rounding half away from
      zero
    * `toFloat`, the double a decimal turns into
-/

------------------------------------------------------------
-- Quotients
------------------------------------------------------------

namespace Assessment

namespace Fixed

/- The nearest integer to a quotient, the even one of two. -/
def roundQuotient (numerator denominator : Nat) : Nat :=
  let n := numerator / denominator
  let rest := 2 * (numerator % denominator)
  if denominator < rest || (rest == denominator && n % 2 == 1)
  then n + 1
  else n

/- The nearest multiple of `10 ^ exponent`, in such units. -/
def onGrid (m : Nat) (e exponent : Int) : Nat :=
  roundQuotient
    (m * twoTo e.toNat * tenTo (-exponent).toNat)
    (twoTo (-e).toNat * tenTo exponent.toNat)

/- The double nearest to `n * 10 ^ exponent` under a sign. -/
def assemble (negative : Bool) (n : Nat) (exponent : Int) :
    Float :=
  let x := Numeral.ofDecimal (Nat.toDigits 10 n) exponent
  if negative then -x else x

------------------------------------------------------------
-- Places and Figures
------------------------------------------------------------

/-
  A finite double rounded to `places` decimal places. No
  double has digits past place 1074.
-/
def toPlaces (x : Float) (places : Nat) : Float :=
  match Binary64.exact x with
  | .finite negative m e =>
      let places : Int := min places 1074
      assemble negative (onGrid m e (-places)) (-places)
  | _ => x

/- The least power of ten above a positive magnitude. -/
def pointPosition (m : Nat) (e : Int) : Int :=
  if 0 ≤ e then (Nat.toDigits 10 (m * twoTo e.toNat)).length
  else
    let scaled := m * tenTo 400 / twoTo (-e).toNat
    (Nat.toDigits 10 scaled).length - 400

/-
  A finite double rounded to `figures` leading digits. No
  double has more than 767 of them.
-/
def toFigures (x : Float) (figures : Nat) : Float :=
  match Binary64.exact x with
  | .finite negative m e =>
      if m == 0 then x
      else
        let figures : Int := min figures 800
        let exponent := pointPosition m e - figures
        assemble negative (onGrid m e exponent) exponent
  | _ => x

end Fixed

------------------------------------------------------------
-- Decimals
------------------------------------------------------------

/- The number `mantissa / 10 ^ scale` under a sign. -/
structure Decimal where
  negative : Bool
  mantissa : Nat
  scale : Nat
deriving DecidableEq, Repr

namespace Decimal

/- The greatest mantissa, of 96 bits. -/
def maxMantissa : Nat := twoTo 96 - 1

/- The greatest number of decimal places. -/
def maxScale : Nat := 28

/- A decimal, where zero has no sign. -/
def make (negative : Bool) (mantissa scale : Nat) : Decimal :=
  ⟨negative && mantissa != 0, mantissa, scale⟩

/- Zero without decimal places. -/
def zero : Decimal := ⟨false, 0, 0⟩

/- Whether a decimal is zero. -/
def isZero (d : Decimal) : Bool :=
  d.mantissa == 0

/- Whether two decimals are the same number. -/
def equals (a b : Decimal) : Bool :=
  (a.isZero && b.isZero) ||
    (a.negative == b.negative &&
      a.mantissa * tenTo b.scale == b.mantissa * tenTo a.scale)

------------------------------------------------------------
-- Entering the Model
------------------------------------------------------------

/-
  Drops the last `places` digits of a mantissa, rounding up
  when the first digit dropped is five or more.
-/
def dropDigits (mantissa places : Nat) : Nat :=
  if places == 0 then mantissa
  else
    let kept := mantissa / tenTo places
    let next := mantissa / tenTo (places - 1) % 10
    if 5 ≤ next then kept + 1 else kept

/-
  Shortest digits as a decimal. Places past the last one are
  rounded away; a mantissa that is too large does not fit.
-/
def ofDigits?
    (negative : Bool)
    (d : Shortest.Digits) :
    Option Decimal :=
  if 0 ≤ d.exponent then
    let n := d.significand * tenTo d.exponent.toNat
    if n ≤ maxMantissa then some (make negative n 0) else none
  else
    let scale := (-d.exponent).toNat
    let kept := min scale maxScale
    some (make negative
      (dropDigits d.significand (scale - kept)) kept)

/- A finite double as a decimal. -/
def ofFloat? (x : Float) : Option Decimal :=
  match Binary64.exact x with
  | .finite negative m e =>
      if m == 0 then some zero
      else ofDigits? negative (Shortest.shortest m e)
  | _ => none

------------------------------------------------------------
-- Rounding
------------------------------------------------------------

/- Rounds to decimal places, a half away from zero. -/
def toPlaces (d : Decimal) (places : Nat) : Decimal :=
  if d.scale ≤ places then d
  else
    make d.negative
      (dropDigits d.mantissa (d.scale - places)) places

/-
  The digits before the point, or minus the zeros that follow
  it: the `p` with `10 ^ (p - 1) ≤ |d| < 10 ^ p`.
-/
def pointPosition (d : Decimal) : Int :=
  (Nat.toDigits 10 d.mantissa).length - d.scale

/-
  Rounds to leading digits, a half away from zero. Nothing
  comes out when the rounded number is too large.
-/
def toFigures? (d : Decimal) (figures : Nat) : Option Decimal :=
  if d.isZero then some zero
  else
    let places : Int := figures - d.pointPosition
    if 0 ≤ places then some (d.toPlaces places.toNat)
    else
      let unit := (-places).toNat
      let n :=
        dropDigits d.mantissa (d.scale + unit) * tenTo unit
      if n ≤ maxMantissa then some (make d.negative n 0)
      else none

------------------------------------------------------------
-- Leaving the Model
------------------------------------------------------------

/-
  The double of a decimal. The integral part and the fraction
  are converted apart; their sum is rounded once more to the
  places of the decimal.
-/
def toFloat (d : Decimal) : Float :=
  let unit := tenTo d.scale
  let whole := Float.ofNat (d.mantissa / unit)
  let fraction :=
    Float.ofNat (d.mantissa % unit) / Float.ofNat unit
  let magnitude :=
    if d.mantissa % unit == 0 then whole
    else
      Binary64.round ((whole + fraction) * Float.ofNat unit) /
        Float.ofNat unit
  if d.negative then -magnitude else magnitude

end Decimal

end Assessment
