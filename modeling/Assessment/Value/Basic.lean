import Assessment.Failure
import Assessment.Keyed
import Assessment.Number.Shortest

/-
  Single values and the containers that hold them.

  A value is NULL, one single value, a list of single values
  of one base type, or a record of named fields that are
  single or NULL. Empty lists and empty records are NULL, so
  the building functions never give one.

  Key definitions include:
    * `Scalar`, a single value, and `Value`
    * `Value.ofList`, the checked building of lists
    * `Value.ofFields`, records with sorted field names
    * `Value.conformsTo`, the test that declarations make
    * views such as `number?`, `int64?` and `bool?`
-/

------------------------------------------------------------
-- Single Values
------------------------------------------------------------

namespace Assessment

/- A single value of some base type. -/
inductive Scalar where
  | identifier (s : String)
  | boolean (b : Bool)
  | integer (n : Int64)
  | float (x : Float)
  | string (s : String)
  | point (x y : Int64)
  | pair (a b : String)
  | directedPair (a b : String)
  /- A time in seconds. -/
  | duration (x : Float)
  | file (s : String)
  | uri (s : String)
  | intOrIdentifier (s : String)

namespace Scalar

/- The base type of a single value. -/
def baseType : Scalar → BaseType
  | .identifier _ => .identifier
  | .boolean _ => .boolean
  | .integer _ => .integer
  | .float _ => .float
  | .string _ => .string
  | .point .. => .point
  | .pair .. => .pair
  | .directedPair .. => .directedPair
  | .duration _ => .duration
  | .file _ => .file
  | .uri _ => .uri
  | .intOrIdentifier _ => .intOrIdentifier

/- Integers and floats as doubles. -/
def number? : Scalar → Option Float
  | .integer n => some (Binary64.ofInt64 n)
  | .float x => some x
  | _ => none

/- The text of a single value. -/
def text : Scalar → String
  | .identifier s | .string s | .file s | .uri s
  | .intOrIdentifier s => s
  | .boolean b => if b then "true" else "false"
  | .integer n => toString n.toInt
  | .float x | .duration x => floatText FloatText.spelled x
  | .point x y => toString x.toInt ++ " " ++ toString y.toInt
  | .pair a b | .directedPair a b => a ++ " " ++ b

/-
  Equality of single values. Pairs have no order, and floats
  compare as numbers.
-/
def equals : Scalar → Scalar → Bool
  | .identifier a, .identifier b => a == b
  | .boolean a, .boolean b => a == b
  | .integer a, .integer b => a == b
  | .float a, .float b => a == b
  | .string a, .string b => a == b
  | .point a b, .point c d => a == c && b == d
  | .pair a b, .pair c d =>
      (a == c && b == d) || (a == d && b == c)
  | .directedPair a b, .directedPair c d => a == c && b == d
  | .duration a, .duration b => a == b
  | .file a, .file b => a == b
  | .uri a, .uri b => a == b
  | .intOrIdentifier a, .intOrIdentifier b => a == b
  | _, _ => false

/- An integer as a float, anything else as it is. -/
def promote : Scalar → Scalar
  | .integer n => .float (Binary64.ofInt64 n)
  | other => other

end Scalar

------------------------------------------------------------
-- Values
------------------------------------------------------------

/- A value: NULL or a container of single values. -/
inductive Value where
  | null
  | single (s : Scalar)
  | multiple (type : BaseType) (elements : List Scalar)
  | ordered (type : BaseType) (elements : List Scalar)
  /- Named fields in rising order, NULL for none. -/
  | record (fields : List (String × Option Scalar))

namespace Value

instance : Inhabited Value := ⟨.null⟩

/- A truth value. -/
def boolean (b : Bool) : Value := .single (.boolean b)

/- An integer. -/
def integer (n : Int64) : Value := .single (.integer n)

/- An identifier. -/
def identifier (s : String) : Value := .single (.identifier s)

/- A finite float; infinities and NaN are NULL. -/
def float (x : Float) : Value :=
  if Binary64.isFinite x then .single (.float x) else .null

/- A multiple container, NULL when empty. -/
def multipleOf (type : BaseType) (elements : List Scalar) :
    Value :=
  if elements.isEmpty then .null else .multiple type elements

/- An ordered container, NULL when empty. -/
def orderedOf (type : BaseType) (elements : List Scalar) :
    Value :=
  if elements.isEmpty then .null else .ordered type elements

/- A single value, or NULL for none. -/
def ofScalar? : Option Scalar → Value
  | some s => .single s
  | none => .null

/- An optional truth value, NULL for none. -/
def ofBool? : Option Bool → Value
  | some b => boolean b
  | none => .null

/- An optional integer, NULL for none. -/
def ofInt64? : Option Int64 → Value
  | some n => integer n
  | none => .null

/-
  A list of single values under a cardinality. All elements
  must have the base type of the container, and a single
  value holds at most one.
-/
def ofList
    (cardinality : Cardinality)
    (type : BaseType)
    (elements : List Scalar) :
    Except Failure Value :=
  match elements.find? fun s => s.baseType != type with
  | some s =>
      .error (.mismatch
        (.foreignElement type s.baseType s.text))
  | none =>
      match cardinality with
      | .single =>
          match elements with
          | [] => .ok .null
          | [s] => .ok (.single s)
          | _ =>
              .error (.mismatch
                (.tooManyForSingle elements.length))
      | .multiple => .ok (multipleOf type elements)
      | .ordered => .ok (orderedOf type elements)
      | .record => .error (.mismatch .recordFromList)

/- A record of fields, NULL when there are none. -/
def ofFields (fields : List (String × Option Scalar)) : Value :=
  if fields.isEmpty then .null
  else .record (Keyed.ofList fields)

------------------------------------------------------------
-- Views
------------------------------------------------------------

/- Whether a value is NULL. -/
def isNull : Value → Bool
  | .null => true
  | _ => false

/- The cardinality of a value that is not NULL. -/
def cardinality? : Value → Option Cardinality
  | .null => none
  | .single _ => some .single
  | .multiple .. => some .multiple
  | .ordered .. => some .ordered
  | .record _ => some .record

/- The base type of a value other than NULL and records. -/
def baseType? : Value → Option BaseType
  | .single s => some s.baseType
  | .multiple t _ | .ordered t _ => some t
  | .null | .record _ => none

/- A single integer or float as a double. -/
def number? : Value → Option Float
  | .single s => s.number?
  | _ => none

/- A single integer. -/
def int64? : Value → Option Int64
  | .single (.integer n) => some n
  | _ => none

/- A single truth value. -/
def bool? : Value → Option Bool
  | .single (.boolean b) => some b
  | _ => none

/- Whether a value is the truth value true. -/
def isTrue (v : Value) : Bool :=
  v.bool? == some true

/- The text of a single identifier or string. -/
def identifier? : Value → Option String
  | .single (.identifier s) | .single (.string s) => some s
  | _ => none

/- The text of a single string. -/
def string? : Value → Option String
  | .single (.string s) => some s
  | _ => none

/- The single values that a value holds outside records. -/
def elements : Value → List Scalar
  | .single s => [s]
  | .multiple _ xs | .ordered _ xs => xs
  | .null | .record _ => []

/-
  Whether a value fits a cardinality and a base type. NULL
  fits all, and records are not looked into.
-/
def conformsTo
    (v : Value)
    (cardinality : Cardinality)
    (type : Option BaseType) :
    Bool :=
  match v with
  | .null => true
  | .record _ => cardinality == .record
  | _ =>
      v.cardinality? == some cardinality &&
        (type.isNone || v.baseType? == type)

/- What a value is, in a few words. -/
def describe (v : Value) : String :=
  match v with
  | .null => "NULL"
  | .record _ => "record"
  | .single s => "single " ++ s.baseType.name
  | .multiple t _ => "multiple " ++ t.name
  | .ordered t _ => "ordered " ++ t.name

/- A number that must be there. -/
def number (v : Value) : Except Failure Float :=
  match v.number? with
  | some x => .ok x
  | none => .error (.mismatch (.notNumeric v.describe))

/- The text of a field of a record. -/
def fieldText : Option Scalar → String
  | some s => s.text
  | none => "NULL"

/- The text of a value. -/
def text : Value → String
  | .null => "NULL"
  | .single s => s.text
  | .multiple _ xs =>
      "[" ++ ", ".intercalate (xs.map Scalar.text) ++ "]"
  | .ordered _ xs =>
      "<" ++ ", ".intercalate (xs.map Scalar.text) ++ ">"
  | .record fields =>
      "\x7b" ++
        ", ".intercalate (fields.map fun (k, s) =>
          k ++ ": " ++ fieldText s) ++
        "\x7d"

------------------------------------------------------------
-- Equality
------------------------------------------------------------

/- The elements left once one equal to `s` is taken away. -/
def removeOne (s : Scalar) : List Scalar → Option (List Scalar)
  | [] => none
  | t :: rest =>
      if s.equals t then some rest
      else (removeOne s rest).map (t :: ·)

/- Whether each element finds an equal partner of its own. -/
def matchedIn : List Scalar → List Scalar → Bool
  | [], _ => true
  | s :: rest, ys =>
      match removeOne s ys with
      | some ys => matchedIn rest ys
      | none => false

/- Whether two lists hold equal elements in any order. -/
def sameElements (xs ys : List Scalar) : Bool :=
  xs.length == ys.length && matchedIn xs ys

/- Whether two lists hold equal elements in the same order. -/
def sameSequence : List Scalar → List Scalar → Bool
  | [], [] => true
  | s :: xs, t :: ys => s.equals t && sameSequence xs ys
  | _, _ => false

/- Whether two fields hold equal single values or nothing. -/
def sameField : Option Scalar → Option Scalar → Bool
  | some s, some t => s.equals t
  | none, none => true
  | _, _ => false

/- Whether two records have the same fields. -/
def sameFields :
    List (String × Option Scalar) →
    List (String × Option Scalar) → Bool
  | [], [] => true
  | (k, s) :: xs, (l, t) :: ys =>
      k == l && sameField s t && sameFields xs ys
  | _, _ => false

/-
  Equality of values. The order of a multiple container does
  not count.
-/
def equals : Value → Value → Bool
  | .null, .null => true
  | .single s, .single t => s.equals t
  | .multiple t xs, .multiple u ys =>
      t == u && sameElements xs ys
  | .ordered t xs, .ordered u ys =>
      t == u && sameSequence xs ys
  | .record fs, .record gs => sameFields fs gs
  | _, _ => false

end Value

end Assessment
