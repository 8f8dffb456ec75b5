import Assessment.Number.Binary64
import Assessment.Pattern.Property
import Assessment.Pattern.Script

/-
  Patterns over texts and what they match, and the sets of
  characters that have names.

  Names are compared in loose form: letter case, blanks,
  underscores and hyphens do not count, and neither does a
  leading `is`.

  A pattern is matched from a place in a text, and ends at a
  set of places. Of the ways to match only the ends count, so
  greediness has no meaning here.

  Key definitions include:
    * `loose`, the loose form of a name
    * `named?`, the set that a class such as `\p` names
    * `posix?`, the ASCII classes such as `[:alpha:]`
    * the classes behind `\d`, `\s` and `\w`
    * `Pattern` and `Look`, a test of a place
    * `Place`, a point between the characters of a text
    * `Pattern.ends`, the places where matches end
    * `Pattern.found`, whether a text has a match anywhere
-/

------------------------------------------------------------
-- Loose Names
------------------------------------------------------------

namespace Assessment

namespace CharSet

/- The characters of a name that count. -/
def plainName (cs : List Char) : List Char :=
  (cs.filter fun c =>
    c != ' ' && c != '_' && c != '-' && c.toNat < 128).map
      Char.toLower

/- A name without a leading `is`, which only `isc` keeps. -/
def loose (name : List Char) : String :=
  match name with
  | i :: s :: rest =>
      if (i == 'i' || i == 'I') && (s == 's' || s == 'S') then
        let kept := plainName rest
        if kept == ['c'] then "isc" else String.ofList kept
      else String.ofList (plainName name)
  | _ => String.ofList (plainName name)

/- The value of a name in a table of names. -/
def lookup (name : String) :
    List (List String × α) → Option α
  | [] => .none
  | (names, a) :: rest =>
      if names.contains name then some a
      else lookup name rest

------------------------------------------------------------
-- Categories and Scripts
------------------------------------------------------------

/- The categories of punctuation. -/
def punctuationTables : List Text.CodeSet :=
  [Category.connectorPunctuation, Category.dashPunctuation,
   Category.openPunctuation, Category.closePunctuation,
   Category.initialPunctuation, Category.finalPunctuation,
   Category.otherPunctuation]

/- The categories of numbers. -/
def numberTables : List Text.CodeSet :=
  [Category.decimalNumber, Category.letterNumber,
   Category.otherNumber]

/- The categories of symbols. -/
def symbolTables : List Text.CodeSet :=
  [Category.mathSymbol, Category.currencySymbol,
   Category.modifierSymbol, Category.otherSymbol]

/- The categories of separators. -/
def separatorTables : List Text.CodeSet :=
  [Category.spaceSeparator, Category.lineSeparator,
   Category.paragraphSeparator]

/- Letters, marks, numbers and other visible characters. -/
def visible : CharSet :=
  anyOf (Property.letterTables ++ Property.markTables ++
    numberTables ++ punctuationTables ++ symbolTables ++
    separatorTables)

/- The characters that some category lists. -/
def assigned : CharSet :=
  .union visible
    (anyOf [Category.control, Category.format,
      Category.privateUse])

/- The categories and their unions by name. -/
def categories : List (List String × CharSet) :=
  [(["any"], all),
   (["assigned"], assigned),
   (["ascii"], .table [(0, 0x7F)]),
   (["c", "other"], .complement visible),
   (["cc", "control", "cntrl"], .table Category.control),
   (["cf", "format"], .table Category.format),
   (["cn", "unassigned"], .complement assigned),
   (["co", "privateuse"], .table Category.privateUse),
   (["l", "letter"], anyOf Property.letterTables),
   (["lc", "casedletter"],
    anyOf (Property.letterTables.take 3)),
   (["lu", "uppercaseletter"],
    .table Category.uppercaseLetter),
   (["ll", "lowercaseletter"],
    .table Category.lowercaseLetter),
   (["lt", "titlecaseletter"],
    .table Category.titlecaseLetter),
   (["lm", "modifierletter"],
    .table Category.modifierLetter),
   (["lo", "otherletter"], .table Category.otherLetter),
   (["m", "mark", "combiningmark"],
    anyOf Property.markTables),
   (["mn", "nonspacingmark"],
    .table Category.nonspacingMark),
   (["mc", "spacingmark"], .table Category.spacingMark),
   (["me", "enclosingmark"], .table Category.enclosingMark),
   (["n", "number"], anyOf numberTables),
   (["nd", "decimalnumber", "digit"],
    .table Category.decimalNumber),
   (["nl", "letternumber"], .table Category.letterNumber),
   (["no", "othernumber"], .table Category.otherNumber),
   (["p", "punctuation", "punct"], anyOf punctuationTables),
   (["pc", "connectorpunctuation"],
    .table Category.connectorPunctuation),
   (["pd", "dashpunctuation"],
    .table Category.dashPunctuation),
   (["ps", "openpunctuation"],
    .table Category.openPunctuation),
   (["pe", "closepunctuation"],
    .table Category.closePunctuation),
   (["pi", "initialpunctuation"],
    .table Category.initialPunctuation),
   (["pf", "finalpunctuation"],
    .table Category.finalPunctuation),
   (["po", "otherpunctuation"],
    .table Category.otherPunctuation),
   (["s", "symbol"], anyOf symbolTables),
   (["sm", "mathsymbol"], .table Category.mathSymbol),
   (["sc", "currencysymbol"],
    .table Category.currencySymbol),
   (["sk", "modifiersymbol"],
    .table Category.modifierSymbol),
   (["so", "othersymbol"], .table Category.otherSymbol),
   (["z", "separator"], anyOf separatorTables),
   (["zs", "spaceseparator"],
    .table Category.spaceSeparator),
   (["zl", "lineseparator"], .table Category.lineSeparator),
   (["zp", "paragraphseparator"],
    .table Category.paragraphSeparator)]

/- A category by name. -/
def category? (name : String) : Option CharSet :=
  lookup name categories

/- A script by name. -/
def script? (name : String) : Option CharSet :=
  (lookup name Script.tables).map fun lines =>
    .table (.ofLines lines)

/-
  The set that a name stands for: a property, a category or a
  script, in this order.
-/
def named? (name : List Char) : Option CharSet :=
  let name := loose name
  (lookup name Property.named).or
    ((category? name).or (script? name))

/- The set of a category or script given with its family. -/
def valued? (family value : List Char) : Option CharSet :=
  match loose family with
  | "gc" | "generalcategory" => category? (loose value)
  | "sc" | "script" => script? (loose value)
  | _ => .none

------------------------------------------------------------
-- Classes with Short Names
------------------------------------------------------------

/- Decimal digits, of all scripts or of ASCII alone. -/
def digits (unicode : Bool) : CharSet :=
  if unicode then .table Category.decimalNumber
  else .range '0' '9'

/- Blanks, of all kinds or of ASCII alone. -/
def blanks (unicode : Bool) : CharSet :=
  if unicode then Property.whiteSpace
  else .table [(0x09, 0x0D), (0x20, 0x20)]

/- Members of words, of all scripts or of ASCII alone. -/
def wordMembers (unicode : Bool) : CharSet :=
  if unicode then Property.wordMember
  else
    .table
      [(0x30, 0x39), (0x41, 0x5A), (0x5F, 0x5F),
       (0x61, 0x7A)]

/- The ASCII classes that brackets can name. -/
def posix? : String → Option CharSet
  | "alnum" =>
      some (.table [(0x30, 0x39), (0x41, 0x5A), (0x61, 0x7A)])
  | "alpha" => some (.table [(0x41, 0x5A), (0x61, 0x7A)])
  | "ascii" => some (.table [(0, 0x7F)])
  | "blank" => some (.table [(0x09, 0x09), (0x20, 0x20)])
  | "cntrl" => some (.table [(0, 0x1F), (0x7F, 0x7F)])
  | "digit" => some (.table [(0x30, 0x39)])
  | "graph" => some (.table [(0x21, 0x7E)])
  | "lower" => some (.table [(0x61, 0x7A)])
  | "print" => some (.table [(0x20, 0x7E)])
  | "punct" =>
      some (.table
        [(0x21, 0x2F), (0x3A, 0x40), (0x5B, 0x60),
         (0x7B, 0x7E)])
  | "space" =>
      some (.table [(0x09, 0x0D), (0x20, 0x20)])
  | "upper" => some (.table [(0x41, 0x5A)])
  | "word" => some (wordMembers false)
  | "xdigit" =>
      some (.table [(0x30, 0x39), (0x41, 0x46), (0x61, 0x66)])
  | _ => .none

end CharSet

------------------------------------------------------------
-- Places
------------------------------------------------------------

/- A point in a text: what is before, nearest first, and after. -/
structure Place where
  before : List Char
  after : List Char
deriving DecidableEq, Repr

namespace Place

/- The places from a place to the end of the text. -/
def onward (before : List Char) : List Char → List Place
  | [] => [⟨before, []⟩]
  | c :: rest => ⟨before, c :: rest⟩ :: onward (c :: before) rest

/- All places of a text. -/
def ofText (text : List Char) : List Place :=
  onward [] text

/- The number of characters before a place. -/
def offset (p : Place) : Nat :=
  p.before.length

/- The place behind the next character, if it is in a set. -/
def advance? (set : CharSet) (p : Place) : Option Place :=
  match p.after with
  | [] => none
  | c :: rest =>
      if set.contains c then some ⟨c :: p.before, rest⟩
      else none

/- The places of two lists, none of them twice. -/
def merge (xs ys : List Place) : List Place :=
  xs.foldl
    (fun zs x => if zs.contains x then zs else x :: zs) ys

end Place

------------------------------------------------------------
-- Tests of Places
------------------------------------------------------------

/- A test of a place that takes no character. -/
inductive Look where
  | textStart
  | textEnd
  | lineStart
  | lineEnd
  /- Line ends that may be a return, a feed or both. -/
  | returnLineStart
  | returnLineEnd
  | boundary (unicode : Bool)
  | noBoundary (unicode : Bool)
  | wordStart (unicode : Bool)
  | wordEnd (unicode : Bool)
  /- No member of a word before the place. -/
  | halfStart (unicode : Bool)
  /- No member of a word after the place. -/
  | halfEnd (unicode : Bool)
deriving DecidableEq, Repr

namespace Look

/- Whether the first character is a member of words. -/
def touchesWord (unicode : Bool) (cs : List Char) : Bool :=
  cs.head?.any (CharSet.wordMembers unicode).contains

/- Whether the test holds at a place. -/
def holds (look : Look) (p : Place) : Bool :=
  let prior := p.before.head?
  let next := p.after.head?
  match look with
  | .textStart => prior.isNone
  | .textEnd => next.isNone
  | .lineStart => prior.isNone || prior == some '\n'
  | .lineEnd => next.isNone || next == some '\n'
  | .returnLineStart =>
      prior.isNone || prior == some '\n' ||
        (prior == some '\r' && next != some '\n')
  | .returnLineEnd =>
      next.isNone || next == some '\r' ||
        (next == some '\n' && prior != some '\r')
  | .boundary u =>
      touchesWord u p.before != touchesWord u p.after
  | .noBoundary u =>
      touchesWord u p.before == touchesWord u p.after
  | .wordStart u =>
      !touchesWord u p.before && touchesWord u p.after
  | .wordEnd u =>
      touchesWord u p.before && !touchesWord u p.after
  | .halfStart u => !touchesWord u p.before
  | .halfEnd u => !touchesWord u p.after

end Look

------------------------------------------------------------
-- Patterns
------------------------------------------------------------

/- What a text is searched for. -/
inductive Pattern where
  | empty
  | one (set : CharSet)
  | look (look : Look)
  | seq (p q : Pattern)
  | either (p q : Pattern)
  /- From `least` to `most` matches in a row. -/
  | loop (p : Pattern) (least : Nat) (most : Option Nat)
deriving DecidableEq, Repr

namespace Pattern

/- A step repeated a number of times. -/
def repeated (step : List Place → List Place) :
    Nat → List Place → List Place
  | 0, places => places
  | n + 1, places => repeated step n (step places)

/-
  The places reached in at most a number of further steps.
  All of `seen` have been reached, and only from `fresh` no
  step has been taken yet; without fresh places the search is
  over.
-/
def reached (step : List Place → List Place) :
    Nat → List Place → List Place → List Place
  | 0, seen, _ => seen
  | n + 1, seen, fresh =>
      let next := (step fresh).filter fun p => !seen.contains p
      if next.isEmpty then seen
      else reached step n (next ++ seen) next

/-
  A bound on the rounds of a loop that lead to further ends.
  Past it some round takes no character and can be left out.
-/
def rounds (places : List Place) : Nat :=
  (places.map fun p => p.after.length + 1).foldl max 0

/- The places where matches from the given places end. -/
def ends : Pattern → List Place → List Place
  | .empty, places => places
  | .one set, places => places.filterMap (Place.advance? set)
  | .look l, places => places.filter l.holds
  | .seq p q, places => q.ends (p.ends places)
  | .either p q, places =>
      Place.merge (p.ends places) (q.ends places)
  | .loop p least most, places =>
      let bound := rounds places
      let start := repeated p.ends (min least bound) places
      match most with
      | none => reached p.ends bound start start
      | some m =>
          reached p.ends (min (m - least) bound) start start

/- Whether a text has a match anywhere. -/
def found (p : Pattern) (text : String) : Bool :=
  !(p.ends (Place.ofText text.toList)).isEmpty

------------------------------------------------------------
-- Size
------------------------------------------------------------

/- The bytes that a matcher of the pattern takes, roughly. -/
def cost : Pattern → Nat
  | .empty => 32
  | .look .. => 32
  | .one set => 32 + 60 * (set.extent - 1)
  | .seq p q => p.cost + q.cost
  | .either p q => p.cost + q.cost + 32
  | .loop p least most =>
      p.cost * (max 1 (max least (most.getD (least + 1)))) + 32

/- The greatest cost of a pattern that can be used. -/
def maxCost : Nat := 10 * twoTo 20

end Pattern

end Assessment
