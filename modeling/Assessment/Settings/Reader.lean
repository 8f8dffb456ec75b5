import Assessment.Json.Reader

/-
  Settings of the engine, and how they are read from
  configuration texts.

  A configuration text assigns values to keys, one a line.
  The keys are those of the settings, each at most once, and
  their values are integers and strings; tables, arrays,
  floats and dates belong to no setting and make the text
  unreadable, as any breach of the format does.

  Key definitions include:
    * `ServicePolicy`, what a failing service leads to
    * `Settings` and its default
    * `Entry`, an assigned value
    * `readString`, all four kinds of quoted strings
    * `readInteger`, decimal and other notations
    * `Settings.parse?`, the settings of a text
-/

------------------------------------------------------------
-- Settings
------------------------------------------------------------

namespace Assessment

/- What a failure of the evaluation service leads to. -/
inductive ServicePolicy where
  /- The result is NULL and a warning is noted. -/
  | nullWithWarning
  /- The running operation fails. -/
  | fatal
deriving DecidableEq, Repr

namespace ServicePolicy

/- The name of a policy. -/
def name : ServicePolicy → String
  | .nullWithWarning => "null_with_warning"
  | .fatal => "fatal"

/- The policy with a name. -/
def ofName? (name : String) : Option ServicePolicy :=
  [nullWithWarning, fatal].find? fun p => p.name == name

end ServicePolicy

/- What an engine is set up with. -/
structure Settings where
  /- Template runs before constraints are given up. -/
  templateLimit : Nat := 100
  /- The seed of the draws, when it is fixed. -/
  seed : Option Nat := none
  policy : ServicePolicy := .nullWithWarning
  /- Attempts on items that say nothing about them. -/
  maxAttempts : Int64 := 1
deriving DecidableEq, Repr

------------------------------------------------------------
-- Characters
------------------------------------------------------------

namespace SettingsText

/- A result and the text after it. -/
abbrev Parsed (α : Type) := Option (α × List Char)

/- Blanks within a line. -/
def isSpace (c : Char) : Bool :=
  c == ' ' || c == '\t'

/- The text after blanks. -/
def skipSpace (cs : List Char) : List Char :=
  cs.dropWhile isSpace

/- Characters that may stand in comments. -/
def isPlain (c : Char) : Bool :=
  c == '\t' || (0x20 ≤ c.toNat && c.toNat ≠ 0x7F)

/- Characters of keys without quotes. -/
def isBare (c : Char) : Bool :=
  c.isAlphanum || c == '-' || c == '_'

/- The text after a line break. -/
def lineBreak? : List Char → Option (List Char)
  | '\n' :: rest => some rest
  | '\r' :: '\n' :: rest => some rest
  | _ => none

/- The text from the end of a line on, after a comment. -/
def skipComment (cs : List Char) : List Char :=
  match skipSpace cs with
  | '#' :: rest => rest.dropWhile isPlain
  | rest => rest

------------------------------------------------------------
-- Strings
------------------------------------------------------------

/- The value of exactly so many hexadecimal digits. -/
def readHex (value : Nat) : Nat → List Char → Parsed Nat
  | 0, cs => some (value, cs)
  | n + 1, c :: rest =>
      match Json.hexValue? c with
      | some d => readHex (16 * value + d) n rest
      | none => none
  | _ + 1, [] => none

/- The character of an escape by number. -/
def readScalar (digits : Nat) (cs : List Char) : Parsed Char :=
  match readHex 0 digits cs with
  | some (n, rest) =>
      if n.isValidChar then some (Char.ofNat n, rest) else none
  | none => none

/- The character of an escape, after its backslash. -/
def readEscape : List Char → Parsed Char
  | '"' :: rest => some ('"', rest)
  | '\\' :: rest => some ('\\', rest)
  | 'b' :: rest => some (Char.ofNat 8, rest)
  | 't' :: rest => some ('\t', rest)
  | 'n' :: rest => some ('\n', rest)
  | 'f' :: rest => some (Char.ofNat 12, rest)
  | 'r' :: rest => some ('\r', rest)
  | 'u' :: rest => readScalar 4 rest
  | 'U' :: rest => readScalar 8 rest
  | _ => none

/-
  The rest of a string on one line. With escapes it ends at a
  double quote, without them at a single one.
-/
def readLineString (escapes : Bool) (read : List Char) :
    Nat → List Char → Parsed String
  | 0, _ => none
  | _ + 1, [] => none
  | fuel + 1, c :: rest =>
      if c == (if escapes then '"' else '\'') then
        some (String.ofList read.reverse, rest)
      else if escapes && c == '\\' then
        match readEscape rest with
        | some (d, rest) =>
            readLineString escapes (d :: read) fuel rest
        | none => none
      else if isPlain c then
        readLineString escapes (c :: read) fuel rest
      else none

/-
  The text after a backslash at the end of a line: blanks and
  line breaks up to the next other character are dropped.
-/
def skipFold? (cs : List Char) : Option (List Char) :=
  match lineBreak? (skipSpace cs) with
  | some rest =>
      some (rest.dropWhile fun c =>
        isSpace c || c == '\n' || c == '\r')
  | none => none

/-
  The rest of a string over several lines, up to three
  quotes. Up to two more quotes directly after these belong
  to the string.
-/
def readBlockString (escapes : Bool) (read : List Char) :
    Nat → List Char → Parsed String
  | 0, _ => none
  | _ + 1, [] => none
  | fuel + 1, c :: rest =>
      let quote := if escapes then '"' else '\''
      if c == quote then
        let quotes := (c :: rest).takeWhile (· == quote)
        let after := (c :: rest).dropWhile (· == quote)
        if quotes.length < 3 then
          readBlockString escapes (c :: read) fuel rest
        else if quotes.length ≤ 5 then
          some (String.ofList
            (read.reverse ++ quotes.drop 3), after)
        else none
      else if escapes && c == '\\' then
        match readEscape rest, skipFold? rest with
        | some (d, rest), _ =>
            readBlockString escapes (d :: read) fuel rest
        | none, some rest =>
            readBlockString escapes read fuel rest
        | none, none => none
      else if isPlain c || c == '\n' then
        readBlockString escapes (c :: read) fuel rest
      else if c == '\r' && rest.head? == some '\n' then
        readBlockString escapes (c :: read) fuel rest
      else none

/- The text after a line break that opens a block. -/
def dropFirstBreak (cs : List Char) : List Char :=
  (lineBreak? cs).getD cs

/- A string in quotes of any of the four kinds. -/
def readString (cs : List Char) : Parsed String :=
  let fuel := cs.length + 1
  match cs with
  | '"' :: '"' :: '"' :: rest =>
      readBlockString true [] fuel (dropFirstBreak rest)
  | '\'' :: '\'' :: '\'' :: rest =>
      readBlockString false [] fuel (dropFirstBreak rest)
  | '"' :: rest => readLineString true [] fuel rest
  | '\'' :: rest => readLineString false [] fuel rest
  | _ => none

------------------------------------------------------------
-- Integers
------------------------------------------------------------

/- The value of a digit below a base. -/
def digit? (base : Nat) (c : Char) : Option Nat :=
  (Json.hexValue? c).filter (· < base)

/-
  The value of digits in a base, where single underscores may
  stand between digits.
-/
def readDigits (base value : Nat) : List Char → Option Nat
  | [] => none
  | c :: rest =>
      match digit? base c with
      | none => none
      | some d =>
          let value := base * value + d
          match rest with
          | [] => some value
          | '_' :: rest => readDigits base value rest
          | c :: rest => readDigits base value (c :: rest)

/- A decimal integer, which has no idle zero in front. -/
def readDecimal (cs : List Char) : Option Nat :=
  match cs with
  | '0' :: _ :: _ => none
  | _ => readDigits 10 0 cs

/- An integer in one of four bases. -/
def readInteger (cs : List Char) : Option Int64 := do
  let n : Int ←
    match cs with
    | '0' :: 'x' :: rest => (readDigits 16 0 rest).map Int.ofNat
    | '0' :: 'o' :: rest => (readDigits 8 0 rest).map Int.ofNat
    | '0' :: 'b' :: rest => (readDigits 2 0 rest).map Int.ofNat
    | '-' :: rest => (readDecimal rest).map fun n => -(n : Int)
    | '+' :: rest => (readDecimal rest).map Int.ofNat
    | _ => (readDecimal cs).map Int.ofNat
  Binary64.int64? n

------------------------------------------------------------
-- Assignments
------------------------------------------------------------

/- An assigned value. -/
inductive Entry where
  | integer (n : Int64)
  | string (s : String)
deriving DecidableEq

/- A key, with or without quotes. -/
def readKey (cs : List Char) : Parsed String :=
  match cs with
  | '"' :: rest => readLineString true [] (cs.length + 1) rest
  | '\'' :: rest => readLineString false [] (cs.length + 1) rest
  | _ =>
      let name := cs.takeWhile isBare
      if name.isEmpty then none
      else some (String.ofList name, cs.dropWhile isBare)

/- Characters that can be part of a number. -/
def isToken (c : Char) : Bool :=
  c.isAlphanum || c == '_' || c == '+' || c == '-' ||
    c == '.' || c == ':'

/- A value. -/
def readEntry (cs : List Char) : Parsed Entry :=
  match readString cs with
  | some (s, rest) => some (.string s, rest)
  | none =>
      match readInteger (cs.takeWhile isToken) with
      | some n => some (.integer n, cs.dropWhile isToken)
      | none => none

/- A key and its value. -/
def readAssignment (cs : List Char) :
    Parsed (String × Entry) :=
  match readKey cs with
  | none => none
  | some (key, rest) =>
      match skipSpace rest with
      | '=' :: rest =>
          (readEntry (skipSpace rest)).map fun (e, rest) =>
            ((key, e), rest)
      | _ => none

/- The assignments of the lines of a text. -/
def readLines : Nat → List Char → Option (List (String × Entry))
  | 0, _ => none
  | fuel + 1, cs =>
      match skipComment cs with
      | [] => some []
      | c :: rest =>
          match lineBreak? (c :: rest) with
          | some rest => readLines fuel rest
          | none =>
              match readAssignment (skipSpace cs) with
              | none => none
              | some (entry, rest) =>
                  match skipComment rest with
                  | [] => some [entry]
                  | rest =>
                      match lineBreak? rest with
                      | none => none
                      | some rest =>
                          (readLines fuel rest).map (entry :: ·)

/- The assignments of a text, after a byte order mark. -/
def readText (text : String) : Option (List (String × Entry)) :=
  let cs := text.toList
  let cs :=
    match cs with
    | c :: rest => if c.toNat == 0xFEFF then rest else cs
    | [] => []
  readLines (cs.length + 1) cs

end SettingsText

------------------------------------------------------------
-- Settings
------------------------------------------------------------

namespace Settings

open SettingsText (Entry)

/- Applies one assignment. -/
def assign (s : Settings) (key : String) (entry : Entry) :
    Option Settings :=
  match key, entry with
  | "template_processing_limit", .integer n =>
      let n := n.toInt
      if 0 ≤ n && n < twoTo 32 then
        some { s with templateLimit := n.toNat }
      else none
  | "random_seed", .integer n =>
      if 0 ≤ n.toInt then
        some { s with seed := some n.toInt.toNat }
      else none
  | "cas_failure_policy", .string name =>
      (ServicePolicy.ofName? name).map fun policy =>
        { s with policy }
  | "default_max_attempts", .integer n =>
      some { s with maxAttempts := n }
  | _, _ => none

/- Applies assignments to keys that differ. -/
def assignAll (s : Settings) :
    List (String × Entry) → Option Settings
  | [] => some s
  | (key, entry) :: rest =>
      if rest.any fun (k, _) => k == key then none
      else
        match s.assign key entry with
        | some s => assignAll s rest
        | none => none

/- The settings of a configuration text. -/
def parse? (text : String) : Option Settings :=
  match SettingsText.readText text with
  | some entries => assignAll {} entries
  | none => none

end Settings

end Assessment
