import Assessment.Json.Basic
import Assessment.Number.Numeral
import Assessment.Text.Blank
import Assessment.Value.Basic

/-
  Reading values from texts and data trees, and writing them
  back.

  Key definitions include:
    * `Scalar.parse`, a single value from its text form
    * `Scalar.ofJson` and `Value.ofJson`, from package data
    * `Value.toJson`, the form that results carry
    * `Json.requireString` and its companions, which fetch
      the fields of a definition
-/

------------------------------------------------------------
-- Fields of Definitions
------------------------------------------------------------

namespace Assessment

namespace Json

/- A string field that must be there. -/
def requireString (v : Json) (field : String) :
    Except Failure String :=
  match (v.member? field).bind string? with
  | some s => .ok s
  | none => .error (.malformed (.noString field))

/- A string field, none when absent or something else. -/
def stringField? (v : Json) (field : String) : Option String :=
  (v.member? field).bind string?

/- A truth value, or a given one. -/
def boolField (v : Json) (field : String) (otherwise : Bool) :
    Bool :=
  ((v.member? field).bind bool?).getD otherwise

/- A number field. -/
def floatField? (v : Json) (field : String) : Option Float :=
  (v.member? field).bind float?

/- An integer field. -/
def int64Field? (v : Json) (field : String) : Option Int64 :=
  (v.member? field).bind int64?

/- The field of a tree that is neither absent nor null. -/
def present? (v : Json) (field : String) : Option Json :=
  (v.member? field).filter fun w => !w.isNull

/- The strings of a list. -/
def stringsOf (field : String) :
    List Json → Except Failure (List String)
  | [] => .ok []
  | .string s :: rest => do
      let ss ← stringsOf field rest
      pure (s :: ss)
  | _ :: _ => .error (.malformed (.notStrings field))

/-
  A list of strings, written as a list or as words. An absent
  one is empty.
-/
def stringList (v : Json) (field : String) :
    Except Failure (List String) :=
  match v.member? field with
  | none | some .null => .ok []
  | some (.array xs) => stringsOf field xs
  | some (.string s) => .ok (Text.words s)
  | some _ => .error (.malformed (.notStringList field))

/- The elements of an optional list. -/
def elementsOf (field : String) :
    Option Json → Except Failure (List Json)
  | none | some .null => .ok []
  | some (.array xs) => .ok xs
  | some _ => .error (.malformed (.notArray field))

/- A list field, where an absent one is empty. -/
def listField (v : Json) (field : String) :
    Except Failure (List Json) :=
  elementsOf field (v.member? field)

end Json

------------------------------------------------------------
-- Names of Kinds
------------------------------------------------------------

/- The base type with a name. -/
def BaseType.parse (name : String) : Except Failure BaseType :=
  match BaseType.ofName? name with
  | some t => .ok t
  | none => .error (.unknownName "baseType" name)

/- The cardinality with a name. -/
def Cardinality.parse (name : String) :
    Except Failure Cardinality :=
  match Cardinality.ofName? name with
  | some c => .ok c
  | none => .error (.unknownName "cardinality" name)

------------------------------------------------------------
-- Single Values
------------------------------------------------------------

namespace Scalar

/-
  A float: one of three words for the special values, or a
  number in front of which plus signs do not count.
-/
def floatOf? (s : String) : Option Float :=
  if s == "INF" then some (1 / 0)
  else if s == "-INF" then some (-1 / 0)
  else if s == "NaN" then some (0 / 0)
  else Numeral.float? (s.toList.dropWhile (· == '+'))

/- An integer in front of which plus signs do not count. -/
def integerOf? (s : String) : Option Int64 :=
  Numeral.integer? (s.toList.dropWhile (· == '+'))

/- A single value of a base type from its text, if it is one. -/
def parse? (type : BaseType) (s : String) : Option Scalar :=
  let trimmed := Text.trim s
  match type with
  | .identifier =>
      if trimmed.isEmpty || trimmed.toList.any Text.isBlank
      then none
      else some (.identifier trimmed)
  | .boolean =>
      if trimmed == "true" || trimmed == "1" then
        some (.boolean true)
      else if trimmed == "false" || trimmed == "0" then
        some (.boolean false)
      else none
  | .integer => (integerOf? trimmed).map .integer
  | .float => (floatOf? trimmed).map .float
  | .duration =>
      match floatOf? trimmed with
      | some x => if x < 0 then none else some (.duration x)
      | none => none
  | .string => some (.string s)
  | .point =>
      match Text.words trimmed with
      | [x, y] =>
          match Numeral.integer? x.toList,
              Numeral.integer? y.toList with
          | some x, some y => some (.point x y)
          | _, _ => none
      | _ => none
  | .pair =>
      match Text.words trimmed with
      | [a, b] => some (.pair a b)
      | _ => none
  | .directedPair =>
      match Text.words trimmed with
      | [a, b] => some (.directedPair a b)
      | _ => none
  | .file => some (.file s)
  | .uri => some (.uri trimmed)
  | .intOrIdentifier =>
      if trimmed.isEmpty then none
      else some (.intOrIdentifier trimmed)

/- A single value from its text. -/
def parse (type : BaseType) (s : String) :
    Except Failure Scalar :=
  match parse? type s with
  | some v => .ok v
  | none => .error (.mismatch (.badText s type))

/-
  A single value from data: a text in its text form, or a
  number or truth value where that is what the base type is.
-/
def ofJson (type : BaseType) (v : Json) :
    Except Failure Scalar :=
  match v, type with
  | .string s, _ => parse type s
  | .bool b, .boolean => .ok (.boolean b)
  | .number n, .integer =>
      match v.int64? with
      | some i => .ok (.integer i)
      | none => .error (.mismatch (.badNumber n.text type))
  | .number n, .float | .number n, .duration =>
      parse type (floatText FloatText.plain n.toFloat)
  | .number n, .intOrIdentifier =>
      .ok (.intOrIdentifier n.text)
  | .number n, _ =>
      .error (.mismatch (.numberFor n.text type))
  | other, _ =>
      .error (.mismatch (.unreadable other.compact type))

/- The number or text that a single value is written as. -/
def toJson : Scalar → Json
  | .boolean b => .bool b
  | .integer n => .int n.toInt
  | .float x | .duration x =>
      if Binary64.isFinite x then .number (.float x)
      else .string (floatText FloatText.spelled x)
  | other => .string other.text

/- Single values from data, the first failure winning. -/
def ofJsonAll (type : BaseType) :
    List Json → Except Failure (List Scalar)
  | [] => .ok []
  | v :: rest => do
      let s ← ofJson type v
      let ss ← ofJsonAll type rest
      pure (s :: ss)

end Scalar

------------------------------------------------------------
-- Values
------------------------------------------------------------

namespace Value

/- A field of a record: an object with base type and value. -/
def fieldOfJson (v : Json) : Except Failure (Option Scalar) := do
  let type ← BaseType.parse (← v.requireString "baseType")
  match v.present? "value" with
  | none => pure none
  | some w => pure (some (← Scalar.ofJson type w))

/- The fields of a record, the first failure winning. -/
def fieldsOfJson :
    List (String × Json) →
    Except Failure (List (String × Option Scalar))
  | [] => .ok []
  | (k, v) :: rest => do
      let s ← fieldOfJson v
      let fields ← fieldsOfJson rest
      pure ((k, s) :: fields)

/-
  A value of a cardinality and base type from data. A single
  value may stand in an array of its own, and a list of one
  may stand outside any.
-/
def ofJson
    (cardinality : Cardinality)
    (type : Option BaseType)
    (v : Json) :
    Except Failure Value :=
  match v, cardinality, type with
  | .null, _, _ => .ok .null
  | .object ms, .record, _ => do
      pure (ofFields (← fieldsOfJson ms))
  | _, .record, _ => .error (.mismatch .recordNotObject)
  | _, c, none => .error (.mismatch (.noBaseType c))
  | .array vs, c, some t => do
      ofList c t (← Scalar.ofJsonAll t vs)
  | v, c, some t => do
      ofList c t [← Scalar.ofJson t v]

/- The data form of a field. -/
def fieldToJson : Option Scalar → Json
  | some s => s.toJson
  | none => .null

/- The data form of a value, as results carry it. -/
def toJson : Value → Json
  | .null => .null
  | .single s => s.toJson
  | .multiple _ xs | .ordered _ xs =>
      .array (xs.map Scalar.toJson)
  | .record fields =>
      .object (fields.map fun (k, s) => (k, fieldToJson s))

end Value

end Assessment
