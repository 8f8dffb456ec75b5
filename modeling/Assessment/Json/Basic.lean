import Assessment.Keyed
import Assessment.Number.Binary64
import Assessment.Number.Shortest

/-
  Data trees, the form in which packages and answers travel.

  Numbers keep the difference between integers of at most 64
  bits and all others. The members of an object are sorted by
  name, each name once. A tree is written with its members in
  this order. Quotes, backslashes and control characters are
  escaped, everything else stands for itself.

  Key definitions include:
    * `Json` and `Json.Number`
    * `Json.member?`, a member of an object
    * `Json.ofMembers`, an object with given members
    * views such as `string?`, `int64?` and `float?`
    * `Json.compact`, a tree on one line without blanks
    * `Json.pretty`, a tree with two blanks per level
-/

------------------------------------------------------------
-- Trees
------------------------------------------------------------

namespace Assessment

/- A number of a data text. -/
inductive Json.Number where
  /- An integer that fits 64 bits, signed or unsigned. -/
  | whole (n : Int)
  | float (x : Float)

/- A data tree. -/
inductive Json where
  | null
  | bool (b : Bool)
  | number (n : Json.Number)
  | string (s : String)
  | array (elements : List Json)
  | object (members : List (String × Json))

namespace Json

instance : Inhabited Json := ⟨.null⟩

------------------------------------------------------------
-- Building Trees
------------------------------------------------------------

/- An integer as a tree. -/
def int (n : Int) : Json := .number (.whole n)

/- A count as a tree. -/
def nat (n : Nat) : Json := .number (.whole n)

/- Strings as a tree. -/
def strings (ss : List String) : Json :=
  .array (ss.map .string)

/- A value as a tree, null for none. -/
def optional (f : α → Json) : Option α → Json
  | some a => f a
  | none => .null

/- An object with the given members, later ones winning. -/
def ofMembers (members : List (String × Json)) : Json :=
  .object (Keyed.ofList members)

------------------------------------------------------------
-- Views
------------------------------------------------------------

/- A member of an object; nothing else has members. -/
def member? (name : String) : Json → Option Json
  | .object ms => Keyed.get? name ms
  | _ => none

/- Whether a tree is null. -/
def isNull : Json → Bool
  | .null => true
  | _ => false

/- The text of a string. -/
def string? : Json → Option String
  | .string s => some s
  | _ => none

/- A truth value. -/
def bool? : Json → Option Bool
  | .bool b => some b
  | _ => none

/- The elements of an array. -/
def array? : Json → Option (List Json)
  | .array xs => some xs
  | _ => none

/- The members of an object. -/
def object? : Json → Option (List (String × Json))
  | .object ms => some ms
  | _ => none

/- An integer in the signed 64-bit range. -/
def int64? : Json → Option Int64
  | .number (.whole n) => Binary64.int64? n
  | _ => none

/- An integer in the unsigned 64-bit range. -/
def nat? : Json → Option Nat
  | .number (.whole n) => if 0 ≤ n then some n.toNat else none
  | _ => none

/- A number as the nearest double. -/
def Number.toFloat : Number → Float
  | .whole n => Float.ofInt n
  | .float x => x

/- Any number as a double. -/
def float? : Json → Option Float
  | .number n => some n.toFloat
  | _ => none

end Json

------------------------------------------------------------
-- Scalars
------------------------------------------------------------

namespace Json

/- Lower-case hexadecimal digit of a number below 16. -/
def hexChar (n : Nat) : Char :=
  if n < 10 then Char.ofNat (48 + n) else Char.ofNat (87 + n)

/- One character inside quotes. -/
def escapeChar (c : Char) : List Char :=
  if c == '"' then ['\\', '"']
  else if c == '\\' then ['\\', '\\']
  else
    match c.toNat with
    | 8 => ['\\', 'b']
    | 9 => ['\\', 't']
    | 10 => ['\\', 'n']
    | 12 => ['\\', 'f']
    | 13 => ['\\', 'r']
    | n =>
        if n < 32 then
          ['\\', 'u', '0', '0', hexChar (n / 16),
            hexChar (n % 16)]
        else [c]

/- A text in quotes. -/
def quoted (s : String) : String :=
  String.ofList ('"' :: s.toList.flatMap escapeChar ++ ['"'])

/- A number; what no number can write is null. -/
def Number.text : Number → String
  | .whole n => toString n
  | .float x =>
      if Binary64.isFinite x then floatText FloatText.noted x
      else "null"

------------------------------------------------------------
-- Compact Text
------------------------------------------------------------

mutual

/- A tree without blanks. -/
def compact : Json → String
  | .null => "null"
  | .bool b => if b then "true" else "false"
  | .number n => n.text
  | .string s => quoted s
  | .array xs => "[" ++ ",".intercalate (compactAll xs) ++ "]"
  | .object ms =>
      "\x7b" ++ ",".intercalate (compactMembers ms) ++ "\x7d"

/- The elements of an array. -/
def compactAll : List Json → List String
  | [] => []
  | x :: rest => compact x :: compactAll rest

/- The members of an object. -/
def compactMembers : List (String × Json) → List String
  | [] => []
  | (k, v) :: rest =>
      (quoted k ++ ":" ++ compact v) :: compactMembers rest

end

------------------------------------------------------------
-- Indented Text
------------------------------------------------------------

/- A line break and the blanks of a level. -/
def newLine (level : Nat) : String :=
  String.ofList ('\n' :: List.replicate (2 * level) ' ')

/- Parts on lines of their own between two brackets. -/
def block
    (opening closing : String)
    (level : Nat)
    (parts : List String) :
    String :=
  if parts.isEmpty then opening ++ closing
  else
    opening ++ newLine (level + 1) ++
      ("," ++ newLine (level + 1)).intercalate parts ++
      newLine level ++ closing

mutual

/- A tree whose lines start at a level. -/
def prettyAt (level : Nat) : Json → String
  | .array xs => block "[" "]" level (prettyAll (level + 1) xs)
  | .object ms =>
      block "\x7b" "\x7d" level (prettyMembers (level + 1) ms)
  | .null => "null"
  | .bool b => if b then "true" else "false"
  | .number n => n.text
  | .string s => quoted s

/- The elements of an array. -/
def prettyAll (level : Nat) : List Json → List String
  | [] => []
  | x :: rest => prettyAt level x :: prettyAll level rest

/- The members of an object. -/
def prettyMembers (level : Nat) :
    List (String × Json) → List String
  | [] => []
  | (k, v) :: rest =>
      (quoted k ++ ": " ++ prettyAt level v) ::
        prettyMembers level rest

end

/- A tree over several lines. -/
def pretty (v : Json) : String :=
  prettyAt 0 v

end Json

end Assessment
