/-
  Doubles as exact dyadic numbers.

  A finite double is a sign and a natural number times a
  power of two. Rounding to whole numbers, comparison with
  the bounds of 64-bit integers and the writing of decimals
  all start from this exact view.

  Key definitions include:
    * `twoTo` and `tenTo`, powers of two and of ten
    * `Exact` and `exact`, the exact view of a double
    * `truncate`, `floor` and `ceil` to doubles
    * `smaller` and `greater`, of two doubles
    * `toInt64?`, the whole number a double stands for
-/

------------------------------------------------------------
-- Powers
------------------------------------------------------------

namespace Assessment

/- A power of two. -/
def twoTo (n : Nat) : Nat :=
  Nat.pow 2 n

/- A power of ten. -/
def tenTo (n : Nat) : Nat :=
  Nat.pow 10 n

------------------------------------------------------------
-- Exact Views
------------------------------------------------------------

namespace Binary64

/- What the bits of a double stand for. -/
inductive Exact where
  | nan
  | infinite (negative : Bool)
  /- The number `mantissa * 2 ^ exponent` under a sign. -/
  | finite
      (negative : Bool)
      (mantissa : Nat)
      (exponent : Int)
deriving DecidableEq, Repr

/- Reads the three fields of a double. -/
def exact (x : Float) : Exact :=
  let bits : Nat := x.toBits.toNat
  let negative := bits / twoTo 63 == 1
  let field : Nat := bits / twoTo 52 % twoTo 11
  let fraction := bits % twoTo 52
  if field == 2047 then
    if fraction == 0 then .infinite negative else .nan
  else if field == 0 then
    .finite negative fraction (-1074)
  else
    .finite negative (fraction + twoTo 52) ((field : Int) - 1075)

/- Whether a double is neither infinite nor NaN. -/
def isFinite (x : Float) : Bool :=
  match exact x with
  | .finite .. => true
  | _ => false

------------------------------------------------------------
-- Whole Numbers
------------------------------------------------------------

/- The integral part of a magnitude, and whether it is all. -/
def wholePart (mantissa : Nat) (exponent : Int) : Nat × Bool :=
  if 0 ≤ exponent then
    (mantissa * twoTo exponent.toNat, true)
  else
    let unit := twoTo (-exponent).toNat
    (mantissa / unit, mantissa % unit == 0)

/- A whole magnitude under a sign, zeros included. -/
def ofWhole (negative : Bool) (n : Nat) : Float :=
  if negative then -Float.ofNat n else Float.ofNat n

/- The nearest whole double towards zero. -/
def truncate (x : Float) : Float :=
  match exact x with
  | .finite negative m e => ofWhole negative (wholePart m e).1
  | _ => x

/- The greatest whole double that is not above. -/
def floor (x : Float) : Float :=
  match exact x with
  | .finite negative m e =>
      let (n, whole) := wholePart m e
      ofWhole negative (if negative && !whole then n + 1 else n)
  | _ => x

/- The least whole double that is not below. -/
def ceil (x : Float) : Float :=
  match exact x with
  | .finite negative m e =>
      let (n, whole) := wholePart m e
      ofWhole negative
        (if !negative && !whole then n + 1 else n)
  | _ => x

/- The nearest whole double, halves away from zero. -/
def round (x : Float) : Float :=
  match exact x with
  | .finite negative m e =>
      let (twice, _) := wholePart (2 * m) e
      ofWhole negative ((twice + 1) / 2)
  | _ => x

------------------------------------------------------------
-- Comparison
------------------------------------------------------------

/- The smaller of two doubles, the first one if equal. -/
def smaller (a b : Float) : Float :=
  if a.isNaN || b < a then b else a

/- The greater of two doubles, the first one if equal. -/
def greater (a b : Float) : Float :=
  if a.isNaN || a < b then b else a

------------------------------------------------------------
-- 64-bit Integers
------------------------------------------------------------

/- The 64-bit integer equal to an integer, if there is one. -/
def int64? (n : Int) : Option Int64 :=
  if -(twoTo 63 : Int) ≤ n ∧ n < twoTo 63 then some (Int64.ofInt n)
  else none

/- A 64-bit integer as the nearest double. -/
def ofInt64 (n : Int64) : Float :=
  Float.ofInt n.toInt

/-
  The integer a double stands for once its fraction is
  dropped. Nothing outside the 64-bit range has one, apart
  from 2 ^ 63 itself, which counts as the largest integer.
-/
def toInt64? (x : Float) : Option Int64 :=
  match exact x with
  | .finite negative m e =>
      let n := (wholePart m e).1
      if negative then
        if n ≤ twoTo 63 then some (Int64.ofInt (-n)) else none
      else if n < twoTo 63 then some (Int64.ofInt n)
      else if n == twoTo 63 then some Int64.maxValue
      else none
  | _ => none

end Binary64

end Assessment
