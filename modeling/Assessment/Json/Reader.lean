import Assessment.Json.Basic
import Assessment.Number.Numeral

/-
  Reading data texts.

  The reader takes the rest of the text and gives a tree with
  the rest after it, or nothing when the text is malformed.
  Arrays and objects may be nested 127 deep.

  Key definitions include:
    * `Json.parse?`, the tree that a whole text writes
    * `readNumber`, which tells integers from other numbers
-/

------------------------------------------------------------
-- Blanks and Literals
------------------------------------------------------------

namespace Assessment

namespace Json

/- A result and the text after it. -/
abbrev Parsed (α : Type) := Option (α × List Char)

/- The four characters that may stand between tokens. -/
def isSpace (c : Char) : Bool :=
  c == ' ' || c == '\n' || c == '\t' || c == '\r'

/- The text after blanks. -/
def skipSpace (cs : List Char) : List Char :=
  cs.dropWhile isSpace

/- The text after a literal word. -/
def literal (word : String) (v : Json) (cs : List Char) :
    Parsed Json :=
  let n := word.length
  if cs.take n == word.toList then some (v, cs.drop n)
  else none

------------------------------------------------------------
-- Strings
------------------------------------------------------------

/- The value of a hexadecimal digit. -/
def hexValue? (c : Char) : Option Nat :=
  if '0' ≤ c && c ≤ '9' then some (c.toNat - 48)
  else if 'a' ≤ c && c ≤ 'f' then some (c.toNat - 87)
  else if 'A' ≤ c && c ≤ 'F' then some (c.toNat - 55)
  else none

/- Four hexadecimal digits. -/
def readUnit : List Char → Parsed Nat
  | a :: b :: c :: d :: rest =>
      match hexValue? a, hexValue? b, hexValue? c,
          hexValue? d with
      | some a, some b, some c, some d =>
          some (((a * 16 + b) * 16 + c) * 16 + d, rest)
      | _, _, _, _ => none
  | _ => none

/-
  The character of an escape by number. A leading surrogate
  needs its partner in a second escape.
-/
def readEscapedUnit (cs : List Char) : Parsed Char :=
  match readUnit cs with
  | none => none
  | some (high, rest) =>
      if 0xD800 ≤ high && high < 0xDC00 then
        match rest with
        | '\\' :: 'u' :: more =>
            match readUnit more with
            | none => none
            | some (low, rest) =>
                if 0xDC00 ≤ low && low < 0xE000 then
                  some (Char.ofNat (0x10000 +
                    (high - 0xD800) * 0x400 +
                    (low - 0xDC00)), rest)
                else none
        | _ => none
      else if 0xDC00 ≤ high && high < 0xE000 then none
      else some (Char.ofNat high, rest)

/- The character of an escape, after its backslash. -/
def readEscape : List Char → Parsed Char
  | '"' :: rest => some ('"', rest)
  | '\\' :: rest => some ('\\', rest)
  | '/' :: rest => some ('/', rest)
  | 'b' :: rest => some (Char.ofNat 8, rest)
  | 'f' :: rest => some (Char.ofNat 12, rest)
  | 'n' :: rest => some ('\n', rest)
  | 'r' :: rest => some ('\r', rest)
  | 't' :: rest => some ('\t', rest)
  | 'u' :: rest => readEscapedUnit rest
  | _ => none

/-
  The rest of a string after its opening quote. `fuel` bounds
  the characters read, and `read` holds them, last one first.
-/
def readChars (read : List Char) :
    Nat → List Char → Parsed String
  | 0, _ => none
  | _ + 1, [] => none
  | fuel + 1, c :: rest =>
      if c == '"' then
        some (String.ofList read.reverse, rest)
      else if c == '\\' then
        match readEscape rest with
        | none => none
        | some (d, rest) => readChars (d :: read) fuel rest
      else if c.toNat < 32 then none
      else readChars (c :: read) fuel rest

/- A string after its opening quote. -/
def readString (cs : List Char) : Parsed String :=
  readChars [] (cs.length + 1) cs

------------------------------------------------------------
-- Numbers
------------------------------------------------------------

/- The greatest number of digits that is kept exactly. -/
def maxSignificand : Nat := twoTo 64 - 1

/-
  Reads digits into a significand while 64 bits hold it. The
  counts are of digits that were kept and digits that were
  not.
-/
def gather (significand kept dropped : Nat) :
    List Char → Nat × Nat × Nat
  | [] => (significand, kept, dropped)
  | c :: rest =>
      let next := Numeral.push significand c
      if dropped == 0 && next ≤ maxSignificand then
        gather next (kept + 1) 0 rest
      else gather significand kept (dropped + 1) rest

/-
  A significand scaled by a power of ten. It is divided by
  1e308 while the exponent is out of reach; a result beyond
  the finite doubles is an error.
-/
def scale (significand : Float) : Nat → Int → Option Float
  | 0, _ => some 0
  | fuel + 1, e =>
      if e.natAbs ≤ 308 then
        let power := Float.ofScientific 1 false e.natAbs
        if 0 ≤ e then
          let x := significand * power
          if Binary64.isFinite x then some x else none
        else some (significand / power)
      else if significand == 0 then some 0
      else if 0 ≤ e then none
      else scale (significand / 1e308) fuel (e + 308)

/- A number with a fraction or an exponent, or too long. -/
def floatNumber
    (negative : Bool)
    (significand : Nat)
    (e : Int) :
    Option Number :=
  (scale (Float.ofNat significand) 20 e).map fun x =>
    .float (if negative then -x else x)

/-
  An exponent part, absent or complete, with the text after
  it.
-/
def readExponent (cs : List Char) : Parsed Int :=
  match cs with
  | c :: rest =>
      if c == 'e' || c == 'E' then
        let (negative, rest) := Numeral.sign rest
        let digits := rest.takeWhile Numeral.isDigit
        let rest := rest.dropWhile Numeral.isDigit
        (Numeral.natural? digits).map fun n =>
          (if negative then -(n : Int) else n, rest)
      else some (0, cs)
  | [] => some (0, [])

/- Digits without an idle zero in front. -/
def readWhole (cs : List Char) : Parsed (List Char) :=
  let digits := cs.takeWhile Numeral.isDigit
  let rest := cs.dropWhile Numeral.isDigit
  match digits with
  | [] => none
  | '0' :: _ :: _ => none
  | _ => some (digits, rest)

/- A fraction, absent or complete. -/
def readFraction (cs : List Char) : Parsed (Option (List Char)) :=
  match cs with
  | '.' :: rest =>
      let digits := rest.takeWhile Numeral.isDigit
      if digits.isEmpty then none
      else some (some digits, rest.dropWhile Numeral.isDigit)
  | _ => some (none, cs)

/-
  An integer text as a number: one that 64 bits cannot hold
  is a float, and so is minus zero.
-/
def wholeNumber (negative : Bool) (digits : List Char) :
    Option Number :=
  let n := Numeral.value digits
  if negative then
    if n == 0 || twoTo 63 < n then
      let (s, _, dropped) := gather 0 0 0 digits
      floatNumber true s dropped
    else some (.whole (-n))
  else if n ≤ maxSignificand then some (.whole n)
  else
    let (s, _, dropped) := gather 0 0 0 digits
    floatNumber false s dropped

/- A number. -/
def readNumber (cs : List Char) :
    Option (Number × List Char) := do
  let (negative, cs) :=
    match cs with
    | '-' :: rest => (true, rest)
    | _ => (false, cs)
  let (digits, cs) ← readWhole cs
  let (fraction?, cs) ← readFraction cs
  let marked :=
    match cs with
    | c :: _ => c == 'e' || c == 'E'
    | [] => false
  let (e, cs) ← readExponent cs
  if fraction?.isNone && !marked then
    let n ← wholeNumber negative digits
    pure (n, cs)
  else
    let fraction := fraction?.getD []
    let (s, _, dropped) := gather 0 0 0 digits
    let (s, kept, _) := gather s 0 0 fraction
    let n ← floatNumber negative s (e + dropped - kept)
    pure (n, cs)

------------------------------------------------------------
-- Trees
------------------------------------------------------------

mutual

/-
  A tree. `depth` bounds the nesting that is left, and `fuel`
  the characters.
-/
def readTree (depth fuel : Nat) (cs : List Char) :
    Parsed Json :=
  match fuel with
  | 0 => none
  | fuel + 1 =>
      match skipSpace cs with
      | 'n' :: rest => literal "null" .null ('n' :: rest)
      | 't' :: rest => literal "true" (.bool true) ('t' :: rest)
      | 'f' :: rest =>
          literal "false" (.bool false) ('f' :: rest)
      | '"' :: rest =>
          (readString rest).map fun (s, rest) =>
            (.string s, rest)
      | '[' :: rest =>
          match depth with
          | 0 => none
          | depth + 1 =>
              match skipSpace rest with
              | ']' :: rest => some (.array [], rest)
              | rest => readElements [] depth fuel rest
      | '\x7b' :: rest =>
          match depth with
          | 0 => none
          | depth + 1 =>
              match skipSpace rest with
              | '\x7d' :: rest => some (.object [], rest)
              | rest => readMembers [] depth fuel rest
      | cs =>
          (readNumber cs).map fun (n, rest) =>
            (.number n, rest)
termination_by fuel

/- Array elements, where `read` holds the ones before. -/
def readElements
    (read : List Json)
    (depth fuel : Nat)
    (cs : List Char) :
    Parsed Json :=
  match fuel with
  | 0 => none
  | fuel + 1 =>
      match readTree depth fuel cs with
      | none => none
      | some (v, rest) =>
          match skipSpace rest with
          | ',' :: rest =>
              readElements (v :: read) depth fuel rest
          | ']' :: rest =>
              some (.array (v :: read).reverse, rest)
          | _ => none
termination_by fuel

/- Object members, where `read` holds the ones before. -/
def readMembers
    (read : List (String × Json))
    (depth fuel : Nat)
    (cs : List Char) :
    Parsed Json :=
  match fuel with
  | 0 => none
  | fuel + 1 =>
      match skipSpace cs with
      | '"' :: rest =>
          match readString rest with
          | none => none
          | some (name, rest) =>
              match skipSpace rest with
              | ':' :: rest =>
                  match readTree depth fuel rest with
                  | none => none
                  | some (v, rest) =>
                      match skipSpace rest with
                      | ',' :: rest =>
                          readMembers (Keyed.put name v read) depth
                            fuel rest
                      | '\x7d' :: rest =>
                          some (.object (Keyed.put name v read), rest)
                      | _ => none
              | _ => none
      | _ => none
termination_by fuel

end

/- The nesting that is allowed. -/
def maxDepth : Nat := 127

/- The tree that a whole text writes. -/
def parse? (text : String) : Option Json :=
  let cs := text.toList
  match readTree maxDepth (2 * cs.length + 1) cs with
  | some (v, rest) =>
      if (skipSpace rest).isEmpty then some v else none
  | none => none

end Json

end Assessment
