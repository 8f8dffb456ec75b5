import Assessment.Pattern.Basic

/-
  Escapes of the pattern notation, and its reading flags.

  In verbose notation blanks and comments between the parts
  of a pattern do not count.

  Key definitions include:
    * `Flags`, the flags that hold at a point of a pattern
    * `skip`, which drops what does not count
    * `escape?`, what follows a backslash
-/

------------------------------------------------------------
-- Flags
------------------------------------------------------------

namespace Assessment

namespace Pattern

/- The flags that hold at a point of a pattern. -/
structure Flags where
  ignoreCase : Bool := false
  multiLine : Bool := false
  dotAll : Bool := false
  swapGreed : Bool := false
  unicode : Bool := true
  returns : Bool := false
  verbose : Bool := false
deriving DecidableEq, Repr

/- The flags by letter. -/
inductive Flag where
  | ignoreCase
  | multiLine
  | dotAll
  | swapGreed
  | unicode
  | returns
  | verbose
deriving DecidableEq, Repr

/- The flag with a letter. -/
def Flag.ofChar? : Char → Option Flag
  | 'i' => some .ignoreCase
  | 'm' => some .multiLine
  | 's' => some .dotAll
  | 'U' => some .swapGreed
  | 'u' => some .unicode
  | 'R' => some .returns
  | 'x' => some .verbose
  | _ => none

/- Turns a flag on or off. -/
def Flags.set (flags : Flags) (flag : Flag) (on : Bool) : Flags :=
  match flag with
  | .ignoreCase => { flags with ignoreCase := on }
  | .multiLine => { flags with multiLine := on }
  | .dotAll => { flags with dotAll := on }
  | .swapGreed => { flags with swapGreed := on }
  | .unicode => { flags with unicode := on }
  | .returns => { flags with returns := on }
  | .verbose => { flags with verbose := on }

------------------------------------------------------------
-- What Does Not Count
------------------------------------------------------------

/- Drops blanks and comments from verbose notation. -/
def skipVerbose (inComment : Bool) : List Char → List Char
  | [] => []
  | c :: rest =>
      if inComment then skipVerbose (c != '\n') rest
      else if Text.isBlank c then skipVerbose false rest
      else if c == '#' then skipVerbose true rest
      else c :: rest

/- Drops what does not count at a point of a pattern. -/
def skip (verbose : Bool) (cs : List Char) : List Char :=
  if verbose then skipVerbose false cs else cs

------------------------------------------------------------
-- Characters by Number
------------------------------------------------------------

/- The value of a hexadecimal digit. -/
def hexValue? (c : Char) : Option Nat :=
  if '0' ≤ c && c ≤ '9' then some (c.toNat - 48)
  else if 'a' ≤ c && c ≤ 'f' then some (c.toNat - 87)
  else if 'A' ≤ c && c ≤ 'F' then some (c.toNat - 55)
  else none

/- The character with a number, if there is one. -/
def charOf? (n : Nat) : Option Char :=
  if n.isValidChar then some (Char.ofNat n) else none

/- A number of exactly so many hexadecimal digits. -/
def fixedHex (verbose : Bool) (value : Nat) :
    Nat → List Char → Option (Nat × List Char)
  | 0, cs => some (value, cs)
  | n + 1, c :: cs => do
      let d ← hexValue? c
      fixedHex verbose (16 * value + d) n (skip verbose cs)
  | _ + 1, [] => none

/-
  The hexadecimal digits up to a closing brace, at least one.
  The fuel is the number of characters left.
-/
def bracedHex (verbose : Bool) (value : Option Nat) :
    Nat → List Char → Option (Nat × List Char)
  | fuel + 1, c :: cs =>
      if c == '}' then
        value.map fun v => (v, skip verbose cs)
      else do
        let d ← hexValue? c
        bracedHex verbose (some (16 * value.getD 0 + d)) fuel
          (skip verbose cs)
  | _, _ => none

------------------------------------------------------------
-- Escapes
------------------------------------------------------------

/-
  A part of a pattern that can stand in brackets as well:
  a character, which may be given as a byte, or a set.
-/
inductive Atom where
  | char (c : Char) (isByte : Bool)
  | set (s : CharSet) (negated ofProperty : Bool)
  | look (l : Look)
deriving DecidableEq, Repr

/- Signs that an escape makes stand for themselves. -/
def isPlainEscape (c : Char) : Bool :=
  c.toNat < 128 && !c.isAlphanum && c != '<' && c != '>'

/- Characters that a letter stands for. -/
def letterEscape? : Char → Option Char
  | 'a' => some '\x07'
  | 'f' => some '\x0C'
  | 't' => some '\t'
  | 'n' => some '\n'
  | 'r' => some '\r'
  | 'v' => some '\x0B'
  | _ => none

/- A character by number, after the letter that says so. -/
def hexEscape (verbose : Bool) (digits : Nat) (cs : List Char) :
    Option (Atom × List Char) := do
  let cs := skip verbose cs
  match cs with
  | '{' :: rest =>
      let (n, rest) ←
        bracedHex verbose none cs.length (skip verbose rest)
      return (.char (← charOf? n) false, rest)
  | _ =>
      let (n, rest) ← fixedHex verbose 0 digits cs
      return (.char (← charOf? n) (digits == 2), rest)

/- The characters of a name in braces, and what follows. -/
def bracedName (verbose : Bool) :
    Nat → List Char → Option (List Char × List Char)
  | fuel + 1, c :: cs =>
      if c == '}' then some ([], cs)
      else do
        let (name, rest) ←
          bracedName verbose fuel (skip verbose cs)
        return (c :: name, rest)
  | _, _ => none

/- Splits characters around the first of a marker. -/
def splitAround (marker : List Char) :
    List Char → Option (List Char × List Char)
  | [] => none
  | c :: cs =>
      if marker.isPrefixOf (c :: cs) then
        some ([], (c :: cs).drop marker.length)
      else (splitAround marker cs).map fun (before, after) =>
        (c :: before, after)

/- The set of a name in braces, and whether it is negated. -/
def setOfName? (name : List Char) : Option (CharSet × Bool) :=
  match splitAround "!=".toList name with
  | some (family, value) =>
      (CharSet.valued? family value).map (·, true)
  | none =>
      match (splitAround [':'] name).or
          (splitAround ['='] name) with
      | some (family, value) =>
          (CharSet.valued? family value).map (·, false)
      | none => (CharSet.named? name).map (·, false)

/- The set of a property, after the letter that says so. -/
def propertyEscape
    (verbose negated : Bool)
    (cs : List Char) :
    Option (Atom × List Char) := do
  let cs := skip verbose cs
  match cs with
  | '{' :: rest =>
      let (name, rest) ←
        bracedName verbose cs.length (skip verbose rest)
      let (set, inverse) ← setOfName? name
      return (.set set (negated != inverse) true, rest)
  | c :: rest =>
      if c == '\\' then none
      else
        let set ← CharSet.named? [c]
        return (.set set negated true, skip verbose rest)
  | [] => none

/- The letters and hyphens that follow, blanks skipped. -/
def boundaryName (verbose : Bool) :
    Nat → List Char → List Char × List Char
  | fuel + 1, c :: cs =>
      if c.isAlpha || c == '-' then
        let (name, rest) :=
          boundaryName verbose fuel (skip verbose cs)
        (c :: name, rest)
      else ([], c :: cs)
  | _, cs => ([], cs)

/- A word boundary, whose side may be told in braces. -/
def boundaryEscape (flags : Flags) (cs : List Char) :
    Option (Atom × List Char) :=
  match cs with
  | '{' :: rest =>
      let (name, after) :=
        boundaryName flags.verbose cs.length
          (skip flags.verbose rest)
      match skip flags.verbose rest with
      | [] => none
      | _ =>
          if name.isEmpty then
            some (.look (.boundary flags.unicode), cs)
          else
            match String.ofList name, after with
            | "start", '}' :: after =>
                some (.look (.wordStart flags.unicode), after)
            | "end", '}' :: after =>
                some (.look (.wordEnd flags.unicode), after)
            | "start-half", '}' :: after =>
                some (.look (.halfStart flags.unicode), after)
            | "end-half", '}' :: after =>
                some (.look (.halfEnd flags.unicode), after)
            | _, _ => none
  | _ => some (.look (.boundary flags.unicode), cs)

/- What follows a backslash, and the rest. -/
def escape? (flags : Flags) :
    List Char → Option (Atom × List Char)
  | [] => none
  | c :: cs =>
      match c with
      | 'x' => hexEscape flags.verbose 2 cs
      | 'u' => hexEscape flags.verbose 4 cs
      | 'U' => hexEscape flags.verbose 8 cs
      | 'p' => propertyEscape flags.verbose false cs
      | 'P' => propertyEscape flags.verbose true cs
      | 'd' =>
          some (.set (.digits flags.unicode) false false, cs)
      | 'D' =>
          some (.set (.digits flags.unicode) true false, cs)
      | 's' =>
          some (.set (.blanks flags.unicode) false false, cs)
      | 'S' =>
          some (.set (.blanks flags.unicode) true false, cs)
      | 'w' =>
          some
            (.set (.wordMembers flags.unicode) false false, cs)
      | 'W' =>
          some
            (.set (.wordMembers flags.unicode) true false, cs)
      | 'A' => some (.look .textStart, cs)
      | 'z' => some (.look .textEnd, cs)
      | 'b' => boundaryEscape flags cs
      | 'B' => some (.look (.noBoundary flags.unicode), cs)
      | '<' => some (.look (.wordStart flags.unicode), cs)
      | '>' => some (.look (.wordEnd flags.unicode), cs)
      | c =>
          if isPlainEscape c then some (.char c false, cs)
          else (letterEscape? c).map fun d =>
            (.char d false, cs)

------------------------------------------------------------
-- Sets of Atoms
------------------------------------------------------------

/- The members of a set in any case, if case is ignored. -/
def Flags.fold (flags : Flags) (set : CharSet) : CharSet :=
  if !flags.ignoreCase then set
  else if flags.unicode then .anyCase set
  else .anyAsciiCase set

/-
  The complement of a set. It has members outside ASCII, and
  so can only be written where these are allowed.
-/
def Flags.negate? (flags : Flags) (negated : Bool)
    (set : CharSet) : Option CharSet :=
  if !negated then some set
  else if flags.unicode then some (.complement set)
  else none

/- The set of a named class under flags. -/
def Flags.namedSet? (flags : Flags)
    (set : CharSet) (negated ofProperty : Bool) :
    Option CharSet :=
  if ofProperty then
    if flags.unicode then
      flags.negate? negated (flags.fold set)
    else none
  else flags.negate? negated set

/-
  Whether a character can be written as it is. One given as a
  byte must be ASCII where bytes count.
-/
def Flags.allows (flags : Flags) (c : Char) (isByte : Bool) :
    Bool :=
  flags.unicode || !isByte || c.toNat < 128

end Pattern

end Assessment
