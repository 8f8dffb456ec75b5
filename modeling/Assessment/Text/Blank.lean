/-
  White space in authored texts.

  Blank characters are those with the White_Space
  property of the character standard, all of them.

  Key definitions include:
    * `isBlank`, the character class
    * `trim`, a text without its surrounding blanks
    * `words`, the maximal runs of other characters
-/

------------------------------------------------------------
-- The Character Class
------------------------------------------------------------

namespace Assessment

namespace Text

/- The characters with the White_Space property. -/
def isBlank (c : Char) : Bool :=
  let n := c.toNat
  (0x09 ≤ n && n ≤ 0x0D) || n == 0x20 || n == 0x85 ||
    n == 0xA0 || n == 0x1680 ||
    (0x2000 ≤ n && n ≤ 0x200A) || n == 0x2028 ||
    n == 0x2029 || n == 0x202F || n == 0x205F ||
    n == 0x3000

/- Whatever core calls white space is blank. -/
theorem isBlank_of_isWhitespace
    (c : Char)
    (h : c.isWhitespace = true) :
    isBlank c = true := by
  simp only [Char.isWhitespace, Bool.or_eq_true,
    decide_eq_true_eq] at h
  rcases h with ((h | h) | h) | h <;> subst h <;> decide

------------------------------------------------------------
-- Trimming and Splitting
------------------------------------------------------------

/- The characters left once blanks are dropped at both ends. -/
def trimChars (cs : List Char) : List Char :=
  ((cs.dropWhile isBlank).reverse.dropWhile isBlank).reverse

/- A text without its surrounding blanks. -/
def trim (s : String) : String :=
  String.ofList (trimChars s.toList)

/-
  The words of a character list, where `current` holds the
  characters of the word being read, last one first.
-/
def wordsFrom (current : List Char) :
    List Char → List String
  | [] =>
      if current.isEmpty then []
      else [String.ofList current.reverse]
  | c :: rest =>
      if isBlank c then
        if current.isEmpty then wordsFrom [] rest
        else String.ofList current.reverse ::
          wordsFrom [] rest
      else wordsFrom (c :: current) rest

/- The maximal runs of characters that are not blank. -/
def words (s : String) : List String :=
  wordsFrom [] s.toList

end Text

end Assessment
