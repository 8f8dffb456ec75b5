import Assessment.Shape.Basic
import Assessment.Text.Case
import Assessment.Value.Basic

/-
  Declarations of variables.

  A response collects what a candidate answers, an outcome
  what is concluded from it, and a template variable what an
  item is instantiated with. Three variables exist without
  being declared: the completion status, the number of
  attempts and the time taken.

  Scoring of response values by entries that match them.

  A scoring lists entries, each with a key and a score. A
  single value takes the score of the first entry it matches;
  a list takes the score of every entry that matches one of
  its elements, once, and the default score for each element
  that no entry matched. The result is kept within bounds.

  Key definitions include:
    * `Scoring`, shared by mappings and area mappings
    * `MapKey.fits` and `AreaKey.fits`
    * `Scoring.ofContainer`, the score of a list
    * `mapResponse` and `mapPoints`
    * `LookupTable` and its `lookup`
    * `Declaration` with the views of its details
    * `Declaration.accepts` and `Declaration.coerce`
    * the built-in declarations
-/

------------------------------------------------------------
-- Scorings
------------------------------------------------------------

namespace Assessment

/- An entry of a scoring. -/
structure ScoreEntry (Key : Type) where
  key : Key
  score : Float

/- Entries with a default score and bounds for the result. -/
structure Scoring (Key : Type) where
  lower : Option Float
  upper : Option Float
  otherwise : Float
  entries : List (ScoreEntry Key)

namespace Scoring

variable {Key : Type}

/- Keeps a score within the bounds, the upper one last. -/
def clamp (s : Scoring Key) (x : Float) : Float :=
  let raised :=
    match s.lower with
    | some l => if x < l then l else x
    | none => x
  match s.upper with
  | some u => if u < raised then u else raised
  | none => raised

/- The score of the first entry that fits a single value. -/
def ofSingle
    (s : Scoring Key)
    (fits : Key → Scalar → Bool)
    (v : Scalar) :
    Float :=
  match s.entries.find? fun e => fits e.key v with
  | some e => e.score
  | none => s.otherwise

/- Takes away one element equal to each given one. -/
def removeEach (taken rest : List Scalar) : List Scalar :=
  taken.foldl
    (fun rest v => (Value.removeOne v rest).getD rest) rest

/-
  Runs through the entries: the sum of the scores of those
  that fit an element, and the elements that are left.
-/
def collect
    (fits : Key → Scalar → Bool)
    (elements : List Scalar)
    (sum : Float)
    (rest : List Scalar) :
    List (ScoreEntry Key) → Float × List Scalar
  | [] => (sum, rest)
  | e :: entries =>
      let matched := elements.filter (fits e.key)
      let sum := if matched.isEmpty then sum else sum + e.score
      collect fits elements sum (removeEach matched rest)
        entries

/- The score of a list of elements. -/
def ofContainer
    (s : Scoring Key)
    (fits : Key → Scalar → Bool)
    (elements : List Scalar) :
    Float :=
  let (sum, rest) := collect fits elements 0 elements s.entries
  sum + s.otherwise * Float.ofNat rest.length

end Scoring

------------------------------------------------------------
-- Mappings
------------------------------------------------------------

/- A value that an entry of a mapping stands for. -/
structure MapKey where
  value : Scalar
  caseSensitive : Bool

/- Whether an element is the value of a key. -/
def MapKey.fits (key : MapKey) (v : Scalar) : Bool :=
  match key.value, v, key.caseSensitive with
  | .string a, .string b, false =>
      Text.lowercase a == Text.lowercase b
  | k, v, _ => k.equals v

/- A scoring of values. -/
abbrev Mapping := Scoring MapKey

/- The score of a response under a mapping. -/
def mapResponse
    (m : Mapping)
    (cardinality : Cardinality)
    (v : Value) :
    Value :=
  let raw :=
    match cardinality, v with
    | .single, .single s => m.ofSingle MapKey.fits s
    | c, .multiple _ xs | c, .ordered _ xs =>
        if c.isList then m.ofContainer MapKey.fits xs
        else m.otherwise
    | _, _ => m.otherwise
  .float (m.clamp raw)

------------------------------------------------------------
-- Area Mappings
------------------------------------------------------------

/- An area that an entry of an area mapping stands for. -/
structure AreaKey where
  shape : Shape
  coords : List Int64

/- Whether an element is a point of the area. -/
def AreaKey.fits (key : AreaKey) : Scalar → Bool
  | .point x y => key.shape.contains key.coords x y
  | _ => false

/- A scoring of points. -/
abbrev AreaMapping := Scoring AreaKey

/- The score of a response under an area mapping. -/
def mapPoints (m : AreaMapping) (v : Value) : Value :=
  let raw :=
    match v with
    | .single s => m.ofSingle AreaKey.fits s
    | .multiple _ xs | .ordered _ xs =>
        m.ofContainer AreaKey.fits xs
    | _ => m.otherwise
  .float (m.clamp raw)

------------------------------------------------------------
-- Lookup Tables
------------------------------------------------------------

/- An entry for one integer. -/
structure MatchEntry where
  source : Int64
  target : Scalar

/- An entry for the numbers from a bound on. -/
structure StepEntry where
  source : Float
  includesBound : Bool
  target : Scalar

/- A table from numbers to single values. -/
inductive LookupTable where
  | exact (otherwise : Option Scalar) (entries : List MatchEntry)
  | steps (otherwise : Option Scalar) (entries : List StepEntry)

namespace LookupTable

/- The value of the table where no entry applies. -/
def otherwise : LookupTable → Option Scalar
  | .exact d _ | .steps d _ => d

/- The source numbers of the entries, in their order. -/
def sources : LookupTable → List Float
  | .exact _ es => es.map fun e => Binary64.ofInt64 e.source
  | .steps _ es => es.map StepEntry.source

/- Whether a step entry applies to a number. -/
def reaches (x : Float) (e : StepEntry) : Bool :=
  e.source < x || (e.includesBound && x == e.source)

/- The target of the first entry that applies to a source. -/
def find? (table : LookupTable) (source : Value) :
    Option Scalar :=
  match table with
  | .exact _ es =>
      source.int64?.bind fun n =>
        (es.find? fun e => e.source == n).map MatchEntry.target
  | .steps _ es =>
      source.number?.bind fun x =>
        (es.find? (reaches x)).map StepEntry.target

end LookupTable

------------------------------------------------------------
-- Declarations
------------------------------------------------------------

/- The families of variables. -/
inductive VariableKind where
  | response
  | outcome
  | template
deriving DecidableEq, Repr

/- The name of a family. -/
def VariableKind.name : VariableKind → String
  | .response => "response"
  | .outcome => "outcome"
  | .template => "template"

/- What only responses declare. -/
structure ResponseDetail where
  correct : Option Value
  mapping : Option Mapping
  areaMapping : Option AreaMapping

/- What only outcomes declare. -/
structure OutcomeDetail where
  table : Option LookupTable
  normalMaximum : Option Float
  normalMinimum : Option Float
  mastery : Option Float
  interpretation : Option String

/- What only template variables declare. -/
structure TemplateDetail where
  isParam : Bool
  isMath : Bool

/- The part of a declaration that depends on its family. -/
inductive Detail where
  | response (d : ResponseDetail)
  | outcome (d : OutcomeDetail)
  | template (d : TemplateDetail)

/-
  A declared variable. Only records have no base type.
-/
structure Declaration where
  identifier : String
  cardinality : Cardinality
  baseType : Option BaseType
  defaultValue : Option Value
  detail : Detail

namespace Declaration

/- The family of a variable. -/
def kind (d : Declaration) : VariableKind :=
  match d.detail with
  | .response _ => .response
  | .outcome _ => .outcome
  | .template _ => .template

/- The details of a response. -/
def response? (d : Declaration) : Option ResponseDetail :=
  match d.detail with
  | .response r => some r
  | _ => none

/- The details of an outcome. -/
def outcome? (d : Declaration) : Option OutcomeDetail :=
  match d.detail with
  | .outcome o => some o
  | _ => none

/- The declared correct response. -/
def correct? (d : Declaration) : Option Value :=
  d.response?.bind ResponseDetail.correct

/- The mapping of a response. -/
def mapping? (d : Declaration) : Option Mapping :=
  d.response?.bind ResponseDetail.mapping

/- The area mapping of a response. -/
def areaMapping? (d : Declaration) : Option AreaMapping :=
  d.response?.bind ResponseDetail.areaMapping

/- The lookup table of an outcome. -/
def table? (d : Declaration) : Option LookupTable :=
  d.outcome?.bind OutcomeDetail.table

/- The declared greatest value of an outcome. -/
def normalMaximum? (d : Declaration) : Option Float :=
  d.outcome?.bind OutcomeDetail.normalMaximum

/- The declared least value of an outcome. -/
def normalMinimum? (d : Declaration) : Option Float :=
  d.outcome?.bind OutcomeDetail.normalMinimum

/- The base type in words, where records have none. -/
def typeName (d : Declaration) : String :=
  match d.baseType with
  | some t => t.name
  | none => "record"

/- Whether a value may be bound to the variable. -/
def accepts (d : Declaration) (v : Value) : Bool :=
  v.conformsTo d.cardinality d.baseType

/-
  Turns integers into floats for a float variable; any other
  value stays as it is.
-/
def coerce (d : Declaration) (v : Value) : Value :=
  match d.baseType, v with
  | some .float, .single s => .single s.promote
  | some .float, .multiple .integer xs =>
      .multiple .float (xs.map Scalar.promote)
  | some .float, .ordered .integer xs =>
      .ordered .float (xs.map Scalar.promote)
  | _, v => v

/- The declared default, or NULL. -/
def initial (d : Declaration) : Value :=
  d.defaultValue.getD .null

/-
  The value that an outcome takes from its table where no
  entry applies: the default of the table, or zero for a
  single number.
-/
def tableDefault (d : Declaration) (table : LookupTable) :
    Value :=
  match table.otherwise, d.cardinality, d.baseType with
  | some s, _, _ => .single s
  | none, .single, some .integer => .integer 0
  | none, .single, some .float => .float 0
  | _, _, _ => .null

/- The value that an outcome takes from its table. -/
def lookup
    (d : Declaration)
    (table : LookupTable)
    (source : Value) :
    Value :=
  match table.find? source with
  | some s => .single s
  | none => d.tableDefault table

end Declaration

/- The first declaration of an identifier. -/
def findDeclaration?
    (declarations : List Declaration)
    (identifier : String) :
    Option Declaration :=
  declarations.find? fun d => d.identifier == identifier

------------------------------------------------------------
-- Built-in Variables
------------------------------------------------------------

namespace Builtin

/- The completion status of an item. -/
def completionStatus : String := "completionStatus"

/- The number of attempts made on an item. -/
def numAttempts : String := "numAttempts"

/- The seconds spent. -/
def duration : String := "duration"

/- Whether an identifier names a built-in variable. -/
def isBuiltin (identifier : String) : Bool :=
  identifier == completionStatus ||
    identifier == numAttempts || identifier == duration

/- Values of the completion status. -/
def unknown : String := "unknown"
def notAttempted : String := "not_attempted"
def completed : String := "completed"

/- The details of an outcome that declares nothing more. -/
def plainOutcome : OutcomeDetail :=
  ⟨none, none, none, none, none⟩

/- The details of a response that declares nothing more. -/
def plainResponse : ResponseDetail := ⟨none, none, none⟩

/- The declaration of the completion status. -/
def completionDeclaration : Declaration :=
  { identifier := completionStatus
    cardinality := .single
    baseType := some .identifier
    defaultValue := some (.identifier notAttempted)
    detail := .outcome plainOutcome }

/- The declaration of the number of attempts. -/
def attemptsDeclaration : Declaration :=
  { identifier := numAttempts
    cardinality := .single
    baseType := some .integer
    defaultValue := some (.integer 0)
    detail := .response plainResponse }

/- The declaration of the time spent on an item. -/
def durationDeclaration : Declaration :=
  { identifier := duration
    cardinality := .single
    baseType := some .float
    defaultValue := some (.float 0)
    detail := .response plainResponse }

/- The declaration of the time spent on a test. -/
def testDurationDeclaration : Declaration :=
  { durationDeclaration with detail := .outcome plainOutcome }

end Builtin

end Assessment
