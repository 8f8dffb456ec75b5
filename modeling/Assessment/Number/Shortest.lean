import Assessment.Number.Binary64

/-
  The fewest decimal digits that read back as a double, and
  the texts of doubles that show them.

  The reals that round to a double form an interval around
  it, with its ends when the mantissa is even. For one digit,
  two digits and so on, the two neighbours of the double on
  the decimal grid are tried: the first grid with a neighbour
  in the interval decides, and of two hits the nearer one is
  taken, the greater one when they are equally near.

  Styles differ in where scientific form starts, in the sign
  of a positive exponent and in whether a whole number keeps
  a fraction.

  Key definitions include:
    * `Digits`, a decimal number in scientific form
    * `shortest`, the digits of a positive double
    * `Style` and its values `spelled`, `noted` and `plain`
    * `floatText`, a double in a style
-/

------------------------------------------------------------
-- Decimal Digits
------------------------------------------------------------

namespace Assessment

namespace Shortest

/- The number `significand * 10 ^ exponent`. -/
structure Digits where
  significand : Nat
  exponent : Int
deriving DecidableEq, Repr

namespace Digits

/- The digit characters of the significand. -/
def text (d : Digits) : List Char :=
  Nat.toDigits 10 d.significand

/- Drops zeros at the end of the significand. -/
def stripped : Nat → Digits → Digits
  | 0, d => d
  | fuel + 1, d =>
      if d.significand ≠ 0 && d.significand % 10 == 0 then
        stripped fuel ⟨d.significand / 10, d.exponent + 1⟩
      else d

end Digits

------------------------------------------------------------
-- The Rounding Interval
------------------------------------------------------------

/-
  Four times a positive double and the ends of its rounding
  interval, over a common denominator.
-/
structure Interval where
  value : Nat
  low : Nat
  high : Nat
  denominator : Nat
  closed : Bool

/- The rounding interval of `mantissa * 2 ^ exponent`. -/
def interval (mantissa : Nat) (exponent : Int) : Interval :=
  let up := twoTo exponent.toNat
  let down := twoTo (-exponent).toNat
  let below :=
    if mantissa == twoTo 52 && exponent != -1074 then 1 else 2
  { value := 4 * mantissa * up
    low := (4 * mantissa - below) * up
    high := (4 * mantissa + 2) * up
    denominator := 4 * down
    closed := mantissa % 2 == 0 }

/- Whether `n * 10 ^ exponent` lies in the interval. -/
def Interval.holds
    (i : Interval)
    (n : Nat)
    (exponent : Int) :
    Bool :=
  let point :=
    n * tenTo exponent.toNat * i.denominator
  let unit := tenTo (-exponent).toNat
  if i.closed then
    i.low * unit ≤ point && point ≤ i.high * unit
  else i.low * unit < point && point < i.high * unit

------------------------------------------------------------
-- Decimal Grids
------------------------------------------------------------

/-
  The least `e` with the value below `10 ^ e`, found from an
  estimate that is off by one at most.
-/
def Interval.magnitude (i : Interval) (estimate : Int) : Int :=
  let above (e : Int) : Bool :=
    i.value * tenTo (-e).toNat < tenTo e.toNat * i.denominator
  if above (estimate - 1) then estimate - 1
  else if above estimate then estimate
  else if above (estimate + 1) then estimate + 1
  else estimate + 2

/-
  The neighbour of the value on the grid of multiples of
  `10 ^ exponent` that lies in the interval, if any does.
-/
def Interval.onGrid
    (i : Interval)
    (exponent : Int) :
    Option Digits :=
  let unit := tenTo exponent.toNat * i.denominator
  let scaled := i.value * tenTo (-exponent).toNat
  let n := scaled / unit
  let rest := scaled % unit
  let lower := i.holds n exponent
  let upper := i.holds (n + 1) exponent
  if upper && (!lower || unit ≤ 2 * rest) then
    some ⟨n + 1, exponent⟩
  else if lower then some ⟨n, exponent⟩
  else none

/- The first grid with a hit, from `digits` digits on. -/
def Interval.search
    (i : Interval)
    (magnitude : Int) :
    Nat → Nat → Digits
  | 0, digits =>
      (i.onGrid (magnitude - digits)).getD ⟨0, 0⟩
  | fuel + 1, digits =>
      match i.onGrid (magnitude - digits) with
      | some d => d
      | none => i.search magnitude fuel (digits + 1)

/-
  The shortest digits of the positive double
  `mantissa * 2 ^ exponent`. Seventeen digits always suffice.
-/
def shortest (mantissa : Nat) (exponent : Int) : Digits :=
  let i := interval mantissa exponent
  let estimate :=
    ((Nat.log2 mantissa : Int) + exponent) * 30103 / 100000 + 1
  (i.search (i.magnitude estimate) 17 1).stripped 17

end Shortest

------------------------------------------------------------
-- Styles
------------------------------------------------------------

namespace FloatText

/- The choices that a style makes. -/
structure Style where
  /- Point positions written without an exponent. -/
  positional : Int → Bool
  /- Whether whole numbers end in `.0`. -/
  keepsFraction : Bool
  /- The sign of an exponent that is not negative. -/
  exponentSign : String

/-
  The text form of float values: scientific from 1e16 on and
  below 1e-4.
-/
def spelled : Style :=
  { positional := fun point => -4 < point && point ≤ 16
    keepsFraction := true
    exponentSign := "" }

/-
  The number form of data texts: scientific from 1e16 on and
  below 1e-5, with a sign in every exponent.
-/
def noted : Style :=
  { positional := fun point => -5 < point && point ≤ 16
    keepsFraction := true
    exponentSign := "+" }

/- Digits only, with neither exponent nor idle fraction. -/
def plain : Style :=
  { positional := fun _ => true
    keepsFraction := false
    exponentSign := "" }

------------------------------------------------------------
-- Layout
------------------------------------------------------------

/- A run of zeros. -/
def zeros (n : Nat) : List Char :=
  List.replicate n '0'

/-
  Digits with the decimal point after the first `point` of
  them, padded with zeros on either side.
-/
def layPositional
    (style : Style)
    (digits : List Char)
    (point : Int) :
    List Char :=
  if point ≤ 0 then
    '0' :: '.' :: zeros (-point).toNat ++ digits
  else
    let n := point.toNat
    if digits.length ≤ n then
      digits ++ zeros (n - digits.length) ++
        (if style.keepsFraction then ['.', '0'] else [])
    else digits.take n ++ '.' :: digits.drop n

/- The digits of an exponent with its sign. -/
def exponentText (style : Style) (e : Int) : List Char :=
  if e < 0 then '-' :: Nat.toDigits 10 e.natAbs
  else style.exponentSign.toList ++ Nat.toDigits 10 e.natAbs

/- Digits with a point after the first, and an exponent. -/
def layScientific
    (style : Style)
    (digits : List Char)
    (point : Int) :
    List Char :=
  digits.take 1 ++
    (if digits.length ≤ 1 then [] else '.' :: digits.drop 1) ++
    'e' :: exponentText style (point - 1)

/- A positive double. -/
def magnitudeText
    (style : Style)
    (mantissa : Nat)
    (exponent : Int) :
    List Char :=
  if mantissa == 0 then
    if style.keepsFraction then ['0', '.', '0'] else ['0']
  else
    let d := Shortest.shortest mantissa exponent
    let digits := d.text
    let point := d.exponent + digits.length
    if style.positional point then
      layPositional style digits point
    else layScientific style digits point

end FloatText

/- A double in a style, with words for the special values. -/
def floatText (style : FloatText.Style) (x : Float) : String :=
  match Binary64.exact x with
  | .nan => "NaN"
  | .infinite negative => if negative then "-INF" else "INF"
  | .finite negative m e =>
      let digits := FloatText.magnitudeText style m e
      String.ofList (if negative then '-' :: digits else digits)

end Assessment
