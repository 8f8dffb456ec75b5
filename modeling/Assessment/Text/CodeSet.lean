/-
  Sets of code points, listed as ranges in rising order.

  The character tables of the library are written as lines
  of hexadecimal ranges, such as `41-5A 5F 61-7A`, and read
  once by `ofLines`.

  Key definitions include:
    * `CodeSet` and its membership test `contains`
    * `ofLines`, the reader of the table format
-/

------------------------------------------------------------
-- Ranges and Membership
------------------------------------------------------------

namespace Assessment

namespace Text

/- Inclusive ranges of code points, in rising order. -/
abbrev CodeSet := List (Nat × Nat)

namespace CodeSet

/- Whether a code point lies in one of the ranges. -/
def contains : CodeSet → Nat → Bool
  | [], _ => false
  | (low, high) :: rest, n =>
      if n < low then false
      else if n ≤ high then true
      else contains rest n

/- Whether a character lies in one of the ranges. -/
def holds (set : CodeSet) (c : Char) : Bool :=
  set.contains c.toNat

/- No code point below every range is a member. -/
theorem contains_of_lt
    (low high n : Nat)
    (rest : CodeSet)
    (h : n < low) :
    contains ((low, high) :: rest) n = false := by
  simp [contains, h]

------------------------------------------------------------
-- The Table Format
------------------------------------------------------------

/- The value of a hexadecimal digit in capitals. -/
def hexDigit (c : Char) : Nat :=
  if '0' ≤ c && c ≤ '9' then c.toNat - 48
  else c.toNat - 55

/-
  Reads ranges from characters. `low` is the range start
  already read, if any, and `value` the number being read.
-/
def ofChars (low : Option Nat) (value : Nat) :
    List Char → CodeSet
  | [] => [(low.getD value, value)]
  | ' ' :: rest =>
      (low.getD value, value) :: ofChars none 0 rest
  | '-' :: rest => ofChars (some value) 0 rest
  | c :: rest => ofChars low (16 * value + hexDigit c) rest

/- The ranges that the lines of a table list. -/
def ofLines (lines : List String) : CodeSet :=
  lines.flatMap fun line => ofChars none 0 line.toList

end CodeSet

end Text

end Assessment
