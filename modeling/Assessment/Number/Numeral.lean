import Assessment.Number.Binary64

/-
  Reading numbers from texts.

  An integer is an optional sign and decimal digits; a float
  adds a fraction and an exponent, either of which may be
  missing, and the words for infinity and NaN in any case.
  Digits are ASCII digits only, and nothing may surround the
  number.

  Key definitions include:
    * `natural?`, the value of a digit sequence
    * `integer?`, a signed 64-bit integer
    * `float?`, the double nearest to a decimal
-/

------------------------------------------------------------
-- Digits
------------------------------------------------------------

namespace Assessment

namespace Numeral

/- The ASCII decimal digits. -/
def isDigit (c : Char) : Bool :=
  '0' ≤ c && c ≤ '9'

/- Appends a digit to a number. -/
def push (n : Nat) (c : Char) : Nat :=
  10 * n + (c.toNat - 48)

/- The number that digits write. -/
def value (digits : List Char) : Nat :=
  digits.foldl push 0

/- The value of a non-empty sequence of digits. -/
def natural? (cs : List Char) : Option Nat :=
  if !cs.isEmpty && cs.all isDigit then some (value cs)
  else none

/- Splits an optional sign off: whether it is a minus. -/
def sign (cs : List Char) : Bool × List Char :=
  match cs with
  | '-' :: rest => (true, rest)
  | '+' :: rest => (false, rest)
  | _ => (false, cs)

------------------------------------------------------------
-- Integers
------------------------------------------------------------

/- A signed integer in the 64-bit range. -/
def integer? (cs : List Char) : Option Int64 :=
  let (negative, digits) := sign cs
  match natural? digits with
  | none => none
  | some n =>
      Binary64.int64? (if negative then -(n : Int) else n)

/- A count below 2 ^ 64, with an optional plus sign. -/
def count? (cs : List Char) : Option Nat :=
  let digits :=
    match cs with
    | '+' :: rest => rest
    | _ => cs
  (natural? digits).filter (· < twoTo 64)

------------------------------------------------------------
-- Floats
------------------------------------------------------------

/-
  The double nearest to `digits * 10 ^ exponent`. Beyond 400
  decimal places either way the answer is infinity or zero.
-/
def ofDecimal (digits : List Char) (exponent : Int) : Float :=
  let significant := digits.dropWhile (· == '0')
  let n := value significant
  let point := exponent + significant.length
  if n == 0 || point < -400 then 0
  else if 400 < point then 1 / 0
  else Float.ofScientific n (exponent < 0) exponent.natAbs

/- An exponent part, absent or complete. -/
def exponent? (cs : List Char) : Option Int :=
  match cs with
  | [] => some 0
  | c :: rest =>
      if c == 'e' || c == 'E' then
        let (negative, digits) := sign rest
        (natural? digits).map fun n =>
          if negative then -(n : Int) else n
      else none

/- A decimal number without sign. -/
def decimal? (cs : List Char) : Option Float :=
  let whole := cs.takeWhile isDigit
  let rest := cs.dropWhile isDigit
  let (fraction, rest) :=
    match rest with
    | '.' :: rest => (rest.takeWhile isDigit, rest.dropWhile isDigit)
    | _ => ([], rest)
  if whole.isEmpty && fraction.isEmpty then none
  else
    (exponent? rest).map fun e =>
      ofDecimal (whole ++ fraction) (e - fraction.length)

/- Lower case of ASCII capitals. -/
def lowerAscii (c : Char) : Char :=
  if 'A' ≤ c && c ≤ 'Z' then Char.ofNat (c.toNat + 32) else c

/- A number without sign, or a word for a special value. -/
def magnitude? (cs : List Char) : Option Float :=
  let word := String.ofList (cs.map lowerAscii)
  if word == "inf" || word == "infinity" then some (1 / 0)
  else if word == "nan" then some (0 / 0)
  else decimal? cs

/- A signed float. -/
def float? (cs : List Char) : Option Float :=
  let (negative, rest) := sign cs
  (magnitude? rest).map fun x => if negative then -x else x

end Numeral

end Assessment
