import Assessment.Pattern.Escape

/-
  Reading patterns from their notation.

  Brackets list characters, ranges, classes and further
  brackets. The signs `&&`, `--` and `~~` combine what stands
  on their two sides, from left to right.

  Reading keeps the open groups on a stack. Every step takes
  characters from the front, so that what is read does not
  depend on what encloses it.

  Key definitions include:
    * `SetOperator`, the three signs
    * `bracket?`, the set after an opening bracket
    * `Reading`, what has been read so far
    * `Reading.step`, which reads the next part
    * `Pattern.parse?`, the pattern that a text denotes
    * `Pattern.anchored`, a text wrapped to match as a whole
-/

------------------------------------------------------------
-- Operators
------------------------------------------------------------

namespace Assessment

namespace Pattern

/- How two sets in brackets are combined. -/
inductive SetOperator where
  | intersection
  | difference
  | symmetric
deriving DecidableEq, Repr

/- The combination of two sets. -/
def SetOperator.apply (op : SetOperator) (a b : CharSet) :
    CharSet :=
  match op with
  | .intersection => .inter a b
  | .difference => .minus a b
  | .symmetric => .differ a b

/- The set of a bracket whose last operand is `set`. -/
def combine
    (flags : Flags)
    (pending : Option (SetOperator × CharSet))
    (set : CharSet) :
    CharSet :=
  match pending with
  | none => set
  | some (op, left) =>
      op.apply (flags.fold left) (flags.fold set)

------------------------------------------------------------
-- Items
------------------------------------------------------------

/- A character or an escape within brackets. -/
def bracketAtom (flags : Flags) :
    List Char → Option (Atom × List Char)
  | [] => none
  | '\\' :: cs => escape? flags cs
  | c :: cs => some (.char c false, cs)

/- Whether a character can stand in brackets. -/
def Flags.allowsInBracket (flags : Flags) (c : Char) : Bool :=
  flags.unicode || c.toNat < 128

/- The set of a part of a bracket. -/
def atomSet? (flags : Flags) : Atom → Option CharSet
  | .char c _ =>
      if flags.allowsInBracket c then some (.only c) else none
  | .set s negated ofProperty =>
      flags.namedSet? s negated ofProperty
  | .look _ => none

/- The set of a range, which must rise. -/
def rangeSet? (flags : Flags) : Atom → Atom → Option CharSet
  | .char low _, .char high _ =>
      if low ≤ high && flags.allowsInBracket high then
        some (.range low high)
      else none
  | _, _ => none

/-
  The next character in verbose notation. A comment sign is
  passed over, but not the comment.
-/
def peekVerbose (inComment : Bool) :
    List Char → Option Char
  | [] => none
  | c :: rest =>
      if Text.isBlank c then peekVerbose inComment rest
      else if !inComment && c == '#' then peekVerbose true rest
      else some c

/- The next character that counts. -/
def peek (verbose : Bool) (cs : List Char) : Option Char :=
  if verbose then (peekVerbose false cs).or cs.head?
  else cs.head?

/- A character, a class or a range of characters. -/
def bracketItem (flags : Flags) (cs : List Char) :
    Option (CharSet × List Char) := do
  let (a, cs) ← bracketAtom flags cs
  match skip flags.verbose cs with
  | '-' :: rest =>
      let next := peek flags.verbose rest
      if next == some ']' || next == some '-' then
        return (← atomSet? flags a, '-' :: rest)
      else
        let (b, rest) ←
          bracketAtom flags (skip flags.verbose rest)
        return (← rangeSet? flags a b, rest)
  | cs => return (← atomSet? flags a, cs)

/- An ASCII class such as `[:alpha:]`, after its bracket. -/
def posixItem? :
    List Char → Option (CharSet × Bool × List Char)
  | ':' :: cs =>
      let (negated, cs) :=
        match cs with
        | '^' :: rest => (true, rest)
        | _ => (false, cs)
      let name := cs.takeWhile (· != ':')
      match cs.dropWhile (· != ':') with
      | ':' :: ']' :: rest =>
          (CharSet.posix? (String.ofList name)).map fun s =>
            (s, negated, rest)
      | _ => none
  | _ => none

------------------------------------------------------------
-- Brackets
------------------------------------------------------------

/- Leading hyphens stand for themselves. -/
def leadingHyphens (verbose : Bool) (any : Bool) :
    Nat → List Char → Bool × List Char
  | fuel + 1, '-' :: cs =>
      leadingHyphens verbose true fuel (skip verbose cs)
  | _, cs => (any, cs)

/-
  The start of a bracket: whether it is negated, its first
  members and the rest.
-/
def bracketStart (flags : Flags) (cs : List Char) :
    Bool × CharSet × List Char :=
  let cs := skip flags.verbose cs
  let (negated, cs) :=
    match cs with
    | '^' :: rest => (true, skip flags.verbose rest)
    | _ => (false, cs)
  let (hyphens, cs) :=
    leadingHyphens flags.verbose false cs.length cs
  if hyphens then (negated, .only '-', cs)
  else
    match cs with
    | ']' :: rest => (negated, .only ']', rest)
    | _ => (negated, .none, cs)

/-
  Reads a bracket to its end. `members` are the members read
  since the last operator, and `pending` is what it applies
  to. The fuel is a bound on the characters left.
-/
def bracketRest (flags : Flags) :
    Nat → Bool → Option (SetOperator × CharSet) → CharSet →
    List Char → Option (CharSet × List Char)
  | 0, _, _, _, _ => none
  | fuel + 1, negated, pending, members, cs =>
      match skip flags.verbose cs with
      | [] => none
      | '[' :: rest =>
          match posixItem? rest with
          | some (set, inverse, rest) => do
              let set ←
                flags.negate? inverse (flags.fold set)
              bracketRest flags fuel negated pending
                (.union members set) rest
          | none => do
              let (inverse, first, rest) :=
                bracketStart flags rest
              let (set, rest) ←
                bracketRest flags fuel inverse none first rest
              bracketRest flags fuel negated pending
                (.union members set) rest
      | ']' :: rest => do
          let set := combine flags pending members
          let set ← flags.negate? negated (flags.fold set)
          return (set, rest)
      | '&' :: '&' :: rest =>
          let left := combine flags pending members
          bracketRest flags fuel negated
            (some (.intersection, left)) .none rest
      | '-' :: '-' :: rest =>
          let left := combine flags pending members
          bracketRest flags fuel negated
            (some (.difference, left)) .none rest
      | '~' :: '~' :: rest =>
          let left := combine flags pending members
          bracketRest flags fuel negated
            (some (.symmetric, left)) .none rest
      | cs => do
          let (set, rest) ← bracketItem flags cs
          bracketRest flags fuel negated pending
            (.union members set) rest

/- The set after an opening bracket, and the rest. -/
def bracket? (flags : Flags) (cs : List Char) :
    Option (CharSet × List Char) :=
  let (negated, first, rest) := bracketStart flags cs
  bracketRest flags (cs.length + 1) negated none first rest

end Pattern

------------------------------------------------------------
-- What Has Been Read
------------------------------------------------------------

namespace Pattern

/-
  A part of a sequence, none for a setting of flags, which
  cannot be repeated.
-/
abbrev Part := Option Pattern

/- What encloses an open group. -/
structure Frame where
  flags : Flags
  branches : List Pattern
  parts : List Part

/-
  A reading: the flags, the finished branches and the current
  parts of the innermost group, last first, what encloses it,
  and the names of groups.
-/
structure Reading where
  flags : Flags
  branches : List Pattern
  parts : List Part
  frames : List Frame
  names : List (List Char)

/- Parts in a row, given last first. -/
def sequence (parts : List Part) : Pattern :=
  parts.foldl
    (fun rest part =>
      match part with
      | some p => .seq p rest
      | none => rest)
    .empty

namespace Reading

/- The reading of nothing. -/
def new : Reading := ⟨{}, [], [], [], []⟩

/- The pattern of the innermost group. -/
def body (s : Reading) : Pattern :=
  s.branches.foldl
    (fun rest branch => .either branch rest)
    (sequence s.parts)

/- Adds a part to the innermost group. -/
def push (s : Reading) (p : Pattern) : Reading :=
  { s with parts := some p :: s.parts }

/- Ends a branch of the innermost group. -/
def alternate (s : Reading) : Reading :=
  { s with branches := sequence s.parts :: s.branches
           parts := [] }

/- Opens a group with flags of its own. -/
def enter (s : Reading) (flags : Flags) : Reading :=
  { s with flags := flags
           branches := []
           parts := []
           frames := ⟨s.flags, s.branches, s.parts⟩ ::
             s.frames }

/- Closes the innermost group, if there is one. -/
def leave? (s : Reading) : Option Reading :=
  match s.frames with
  | [] => none
  | f :: frames =>
      some
        { s with flags := f.flags
                 branches := f.branches
                 parts := some s.body :: f.parts
                 frames := frames }

/- Repeats the last part, if it can be repeated. -/
def repeatLast? (s : Reading) (least : Nat)
    (most : Option Nat) : Option Reading :=
  match s.parts with
  | some p :: parts =>
      some { s with parts := some (.loop p least most) :: parts }
  | _ => none

end Reading

------------------------------------------------------------
-- Repetition
------------------------------------------------------------

/- Drops a sign that makes a repetition lazy. -/
def dropLazy : List Char → List Char
  | '?' :: cs => cs
  | cs => cs

/- The digits in front, blanks skipped. -/
def decimalDigits (verbose : Bool) (value : Option Nat) :
    Nat → List Char → Option Nat × List Char
  | fuel + 1, c :: cs =>
      if c.isDigit then
        decimalDigits verbose
          (some (10 * value.getD 0 + (c.toNat - 48))) fuel
          (skip verbose cs)
      else (value, c :: cs)
  | _, cs => (value, cs)

/- A count between blanks. It has at most 32 bits. -/
def count? (verbose : Bool) (cs : List Char) :
    Option (Nat × List Char) :=
  let cs := cs.dropWhile Text.isBlank
  match decimalDigits verbose none cs.length cs with
  | (some n, rest) =>
      if n < twoTo 32 then
        some (n, skip verbose (rest.dropWhile Text.isBlank))
      else none
  | (none, _) => none

/- The counts after an opening brace, and the rest. -/
def counts? (verbose : Bool) (cs : List Char) :
    Option (Nat × Option Nat × List Char) := do
  let (least, cs) ← count? verbose (skip verbose cs)
  let (most, cs) ←
    match cs with
    | ',' :: rest =>
        match skip verbose rest with
        | '}' :: rest => some (none, '}' :: rest)
        | rest => do
            let (most, rest) ← count? verbose rest
            if least ≤ most then some (some most, rest)
            else none
    | cs => some (some least, cs)
  match cs with
  | '}' :: rest =>
      return (least, most, dropLazy (skip verbose rest))
  | _ => none

------------------------------------------------------------
-- Groups
------------------------------------------------------------

/- Whether a character can stand in the name of a group. -/
def isNameChar (first : Bool) (c : Char) : Bool :=
  c == '_' || Property.alphabetic.contains c ||
    (!first &&
      (c == '.' || c == '[' || c == ']' ||
        (CharSet.anyOf CharSet.numberTables).contains c))

/- The name of a group up to its closing sign. -/
def groupName (first : Bool) :
    List Char → Option (List Char × List Char)
  | [] => none
  | c :: cs =>
      if c == '>' then
        if first then none else some ([], cs)
      else if isNameChar first c then
        (groupName false cs).map fun (name, rest) =>
          (c :: name, rest)
      else none

/-
  Reads settings of flags up to a colon or a parenthesis,
  which is given with the rest. No flag is named twice, and
  a hyphen needs a flag behind it.
-/
def flagSettings
    (flags : Flags)
    (on dangling : Bool)
    (seen : List Flag) :
    List Char → Option (Flags × List Flag × List Char)
  | [] => none
  | c :: cs =>
      if c == ':' || c == ')' then
        if dangling then none else some (flags, seen, c :: cs)
      else if c == '-' then
        if on then flagSettings flags false true seen cs
        else none
      else
        match Flag.ofChar? c with
        | none => none
        | some flag =>
            if seen.contains flag then none
            else
              flagSettings (flags.set flag on) on false
                (flag :: seen) cs

namespace Reading

/- Opens a group with a name that no other group has. -/
def named (s : Reading) (cs : List Char) :
    Option (Reading × List Char) := do
  let (name, rest) ← groupName true cs
  if s.names.contains name then none
  else
    let s := s.enter s.flags
    return ({ s with names := name :: s.names }, rest)

/- Opens a group, or sets flags, after a parenthesis. -/
def openGroup (s : Reading) (cs : List Char) :
    Option (Reading × List Char) :=
  match skip s.flags.verbose cs with
  | '?' :: '=' :: _ => none
  | '?' :: '!' :: _ => none
  | '?' :: '<' :: '=' :: _ => none
  | '?' :: '<' :: '!' :: _ => none
  | '?' :: 'P' :: '<' :: rest => s.named rest
  | '?' :: '<' :: rest => s.named rest
  | '?' :: rest =>
      match flagSettings s.flags true false [] rest with
      | some (flags, _, ':' :: rest) =>
          some (s.enter flags, rest)
      | some (flags, _ :: _, ')' :: rest) =>
          some
            ({ s with flags := flags
                      parts := none :: s.parts }, rest)
      | _ => none
  | rest => some (s.enter s.flags, rest)

------------------------------------------------------------
-- Steps
------------------------------------------------------------

/- The start or the end of the text, or of a line. -/
def edge (flags : Flags) (start : Bool) : Look :=
  match flags.multiLine, flags.returns, start with
  | false, _, true => .textStart
  | false, _, false => .textEnd
  | true, false, true => .lineStart
  | true, false, false => .lineEnd
  | true, true, true => .returnLineStart
  | true, true, false => .returnLineEnd

/- Any character, without line ends unless flags allow them. -/
def dot (flags : Flags) : CharSet :=
  if flags.dotAll then .all
  else if flags.returns then
    .minus .all (.union (.only '\n') (.only '\r'))
  else .minus .all (.only '\n')

/- Adds an escape or a single character. -/
def pushAtom (s : Reading) : Atom → Option Reading
  | .char c isByte =>
      if s.flags.allows c isByte then
        some (s.push (.one (s.flags.fold (.only c))))
      else none
  | .set set negated ofProperty =>
      (s.flags.namedSet? set negated ofProperty).map fun set =>
        s.push (.one set)
  | .look l => some (s.push (.look l))

/- Reads the next part of a pattern, after what is skipped. -/
def step (s : Reading) :
    List Char → Option (Reading × List Char)
  | [] => none
  | c :: cs =>
      match c with
      | '(' => s.openGroup cs
      | ')' => s.leave?.map (·, cs)
      | '|' => some (s.alternate, cs)
      | '[' => do
          let (set, rest) ← bracket? s.flags cs
          return (s.push (.one set), rest)
      | '?' =>
          (s.repeatLast? 0 (some 1)).map (·, dropLazy cs)
      | '*' => (s.repeatLast? 0 none).map (·, dropLazy cs)
      | '+' => (s.repeatLast? 1 none).map (·, dropLazy cs)
      | '{' => do
          let (least, most, rest) ← counts? s.flags.verbose cs
          return (← s.repeatLast? least most, rest)
      | '\\' => do
          let (atom, rest) ← escape? s.flags cs
          return (← s.pushAtom atom, rest)
      | '.' =>
          if s.flags.unicode then
            some (s.push (.one (dot s.flags)), cs)
          else none
      | '^' => some (s.push (.look (edge s.flags true)), cs)
      | '$' => some (s.push (.look (edge s.flags false)), cs)
      | c => (s.pushAtom (.char c false)).map (·, cs)

/- Reads to the end. The fuel bounds the characters left. -/
def run : Nat → Reading → List Char → Option Reading
  | 0, _, _ => none
  | fuel + 1, s, cs =>
      match skip s.flags.verbose cs with
      | [] => some s
      | cs =>
          match s.step cs with
          | some (s, rest) => run fuel s rest
          | none => none

/- The pattern of a reading in which no group is open. -/
def finish? (s : Reading) : Option Pattern :=
  match s.frames with
  | [] => some s.body
  | _ :: _ => none

end Reading

------------------------------------------------------------
-- Whole Patterns
------------------------------------------------------------

/- The pattern that characters denote, of whatever cost. -/
def ofChars? (cs : List Char) : Option Pattern :=
  (Reading.run (cs.length + 1) .new cs).bind Reading.finish?

/- The pattern that a text denotes, unless it costs too much. -/
def parse? (text : String) : Option Pattern :=
  (ofChars? text.toList).filter fun p => p.cost ≤ maxCost

/- A text wrapped so that it must match as a whole. -/
def anchored (text : String) : String :=
  "^(?:" ++ text ++ ")$"

end Pattern

end Assessment
