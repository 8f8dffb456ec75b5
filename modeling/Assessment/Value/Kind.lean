/-
  The kinds of values: base types and cardinalities.

  Key definitions include:
    * `BaseType`, what a single value is
    * `Cardinality`, how single values are held together
    * their names, and the readers of those names
-/

------------------------------------------------------------
-- Base Types
------------------------------------------------------------

namespace Assessment

/- What a single value is. -/
inductive BaseType where
  | identifier
  | boolean
  | integer
  | float
  | string
  | point
  | pair
  | directedPair
  | duration
  | file
  | uri
  | intOrIdentifier
deriving DecidableEq, Repr

namespace BaseType

/- All base types. -/
def all : List BaseType :=
  [.identifier, .boolean, .integer, .float, .string, .point,
   .pair, .directedPair, .duration, .file, .uri,
   .intOrIdentifier]

/- The name of a base type. -/
def name : BaseType → String
  | .identifier => "identifier"
  | .boolean => "boolean"
  | .integer => "integer"
  | .float => "float"
  | .string => "string"
  | .point => "point"
  | .pair => "pair"
  | .directedPair => "directedPair"
  | .duration => "duration"
  | .file => "file"
  | .uri => "uri"
  | .intOrIdentifier => "intOrIdentifier"

/- The base type with a name. -/
def ofName? (name : String) : Option BaseType :=
  all.find? fun t => t.name == name

/- Every base type is found by its name. -/
theorem ofName?_name (t : BaseType) :
    ofName? t.name = some t := by
  cases t <;> decide

/- Integer and float are the numeric base types. -/
def isNumeric : BaseType → Bool
  | .integer | .float => true
  | _ => false

end BaseType

------------------------------------------------------------
-- Cardinalities
------------------------------------------------------------

/- How single values are held together. -/
inductive Cardinality where
  | single
  | multiple
  | ordered
  | record
deriving DecidableEq, Repr

namespace Cardinality

/- All cardinalities. -/
def all : List Cardinality :=
  [.single, .multiple, .ordered, .record]

/- The name of a cardinality. -/
def name : Cardinality → String
  | .single => "single"
  | .multiple => "multiple"
  | .ordered => "ordered"
  | .record => "record"

/- The cardinality with a name. -/
def ofName? (name : String) : Option Cardinality :=
  all.find? fun c => c.name == name

/- Every cardinality is found by its name. -/
theorem ofName?_name (c : Cardinality) :
    ofName? c.name = some c := by
  cases c <;> decide

/- Multiple and ordered values are lists. -/
def isList : Cardinality → Bool
  | .multiple | .ordered => true
  | _ => false

end Cardinality

end Assessment
