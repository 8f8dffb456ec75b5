import Assessment.Declaration.Basic
import Assessment.Value.Reader

/-
  Reading declarations from package data.

  Key definitions include:
    * `Mapping.ofJson`, `AreaMapping.ofJson` and
      `LookupTable.ofJson`
    * `Declaration.ofJson`, a declaration of a given family
-/

------------------------------------------------------------
-- Coordinates
------------------------------------------------------------

namespace Assessment

/- The shape with a name. -/
def Shape.parse (name : String) : Except Failure Shape :=
  match Shape.ofName? name with
  | some s => .ok s
  | none => .error (.unknownName "shape" name)

/- Integers of a list. -/
def Json.integersOf : List Json → Except Failure (List Int64)
  | [] => .ok []
  | v :: rest => do
      match v.int64? with
      | some n => pure (n :: (← integersOf rest))
      | none => .error (.malformed .coordsNotIntegers)

/- The parts of a text between commas. -/
def Text.commaParts (current : List Char) :
    List Char → List (List Char)
  | [] => [current.reverse]
  | ',' :: rest => current.reverse :: commaParts [] rest
  | c :: rest => commaParts (c :: current) rest

/- Integers of a text with commas between them. -/
def Text.commaIntegers? :
    List (List Char) → Option (List Int64)
  | [] => some []
  | part :: rest => do
      let n ← Numeral.integer? (Text.trimChars part)
      let ns ← commaIntegers? rest
      pure (n :: ns)

/- Coordinates, as a list or as a text with commas. -/
def Json.coords : Option Json → Except Failure (List Int64)
  | none | some .null => .ok []
  | some (.array vs) => integersOf vs
  | some (.string s) =>
      match Text.commaIntegers? (Text.commaParts [] s.toList) with
      | some ns => .ok ns
      | none => .error (.malformed (.coordsText s))
  | some _ => .error (.malformed .coordsNotList)

------------------------------------------------------------
-- Scorings
------------------------------------------------------------

/- The score of an entry. -/
def ScoreEntry.scoreOfJson (v : Json) : Except Failure Float :=
  match v.floatField? "mappedValue" with
  | some x => .ok x
  | none =>
      .error (.malformed
        (.lacksTyped "map entry" "numeric" "mappedValue"))

/- The base type that something needs. -/
def BaseType.needed (owner : String) :
    Option BaseType → Except Failure BaseType
  | some t => .ok t
  | none => .error (.malformed (.needsBaseType owner))

/- An entry of a mapping. -/
def MapKey.entryOfJson (type : BaseType) (v : Json) :
    Except Failure (ScoreEntry MapKey) := do
  match v.member? "mapKey" with
  | none =>
      .error (.malformed (.lacks "map entry" "mapKey"))
  | some key =>
      let s ← Scalar.ofJson type key
      let score ← ScoreEntry.scoreOfJson v
      let caseSensitive := v.boolField "caseSensitive" true
      pure ⟨⟨s, caseSensitive⟩, score⟩

/- An entry of an area mapping. -/
def AreaKey.entryOfJson (v : Json) :
    Except Failure (ScoreEntry AreaKey) := do
  let shape ← Shape.parse (← v.requireString "shape")
  let coords ← Json.coords (v.member? "coords")
  let score ← ScoreEntry.scoreOfJson v
  pure ⟨⟨shape, coords⟩, score⟩

/- A scoring with the given entries. -/
def Scoring.ofJson
    {Key : Type}
    (v : Json)
    (entries : List (ScoreEntry Key)) :
    Scoring Key :=
  { lower := v.floatField? "lowerBound"
    upper := v.floatField? "upperBound"
    otherwise := (v.floatField? "defaultValue").getD 0
    entries }

/- A mapping of values of a base type. -/
def Mapping.ofJson (type : Option BaseType) (v : Json) :
    Except Failure Mapping := do
  let type ← BaseType.needed "mapping" type
  let entries ← (← v.listField "mapEntries").mapM
    (MapKey.entryOfJson type)
  pure (Scoring.ofJson v entries)

/- An area mapping. -/
def AreaMapping.ofJson (v : Json) : Except Failure AreaMapping := do
  let entries ← (← v.listField "areaMapEntries").mapM
    AreaKey.entryOfJson
  pure (Scoring.ofJson v entries)

------------------------------------------------------------
-- Lookup Tables
------------------------------------------------------------

namespace LookupTable

/- An optional target or default of a table. -/
def targetOfJson? (type : BaseType) (field : String) (v : Json) :
    Except Failure (Option Scalar) :=
  match v.present? field with
  | none => .ok none
  | some w => do pure (some (← Scalar.ofJson type w))

/- The target that an entry must have. -/
def targetOfJson (type : BaseType) (owner : String) (v : Json) :
    Except Failure Scalar := do
  match ← targetOfJson? type "targetValue" v with
  | some s => pure s
  | none => .error (.malformed (.lacks owner "targetValue"))

/- An entry of a match table. -/
def matchOfJson (type : BaseType) (v : Json) :
    Except Failure MatchEntry := do
  match v.int64Field? "sourceValue" with
  | none =>
      .error (.malformed
        (.needsSource "matchTableEntry needs an integer"))
  | some source =>
      pure ⟨source, ← targetOfJson type "matchTableEntry" v⟩

/- An entry of an interpolation table. -/
def stepOfJson (type : BaseType) (v : Json) :
    Except Failure StepEntry := do
  match v.floatField? "sourceValue" with
  | none =>
      .error (.malformed
        (.needsSource "interpolationTableEntry needs"))
  | some source =>
      let includesBound := v.boolField "includeBoundary" true
      let target ←
        targetOfJson type "interpolationTableEntry" v
      pure ⟨source, includesBound, target⟩

/- The first name among members. -/
def firstName : Json → String
  | .object ((k, _) :: _) => k
  | _ => ""

/- A table with targets of a base type. -/
def ofJson (type : Option BaseType) (v : Json) :
    Except Failure LookupTable := do
  let type ← BaseType.needed "lookup table" type
  match v.member? "matchTable", v.member? "interpolationTable" with
  | some t, _ =>
      let entries ← (← t.listField "entries").mapM
        (matchOfJson type)
      pure (.exact (← targetOfJson? type "defaultValue" t) entries)
  | none, some t =>
      let entries ← (← t.listField "entries").mapM
        (stepOfJson type)
      pure (.steps (← targetOfJson? type "defaultValue" t) entries)
  | none, none =>
      .error (.unknownName "lookup table" (firstName v))

end LookupTable

------------------------------------------------------------
-- Declarations
------------------------------------------------------------

namespace Declaration

/- A value that a declaration may give. -/
def valueOfJson?
    (v : Json)
    (field identifier : String)
    (cardinality : Cardinality)
    (type : Option BaseType) :
    Except Failure (Option Value) :=
  match v.present? field with
  | none => .ok none
  | some w =>
      match Value.ofJson cardinality type w with
      | .ok value => .ok (some value)
      | .error cause =>
          .error (.malformed (.badValue field identifier cause))

/- A part of a declaration that is read when it is there. -/
def partOfJson?
    {α : Type}
    (v : Json)
    (field : String)
    (read : Json → Except Failure α) :
    Except Failure (Option α) :=
  match v.member? field with
  | none => .ok none
  | some w => do pure (some (← read w))

/- The base type of a declaration; only records lack one. -/
def baseTypeOfJson
    (v : Json)
    (identifier : String)
    (cardinality : Cardinality) :
    Except Failure (Option BaseType) :=
  match v.stringField? "baseType" with
  | some name => do pure (some (← BaseType.parse name))
  | none =>
      if cardinality = .record then .ok none
      else
        .error (.malformed
          (.lacks ("declaration '" ++ identifier ++ "'")
            "baseType"))

/- The part of a declaration that depends on its family. -/
def detailOfJson
    (v : Json)
    (kind : VariableKind)
    (identifier : String)
    (cardinality : Cardinality)
    (type : Option BaseType) :
    Except Failure Detail := do
  match kind with
  | .response =>
      let correct ← valueOfJson? v "correctResponse" identifier
        cardinality type
      let mapping ← partOfJson? v "mapping" (Mapping.ofJson type)
      let areaMapping ←
        partOfJson? v "areaMapping" AreaMapping.ofJson
      pure (.response ⟨correct, mapping, areaMapping⟩)
  | .outcome =>
      let table ←
        partOfJson? v "lookupTable" (LookupTable.ofJson type)
      pure (.outcome
        { table
          normalMaximum := v.floatField? "normalMaximum"
          normalMinimum := v.floatField? "normalMinimum"
          mastery := v.floatField? "masteryValue"
          interpretation := v.stringField? "interpretation" })
  | .template =>
      pure (.template
        { isParam := v.boolField "paramVariable" false
          isMath := v.boolField "mathVariable" false })

/- A declaration of a family. -/
def ofJson (kind : VariableKind) (v : Json) :
    Except Failure Declaration := do
  let identifier ← v.requireString "identifier"
  let cardinality ←
    Cardinality.parse (← v.requireString "cardinality")
  let baseType ← baseTypeOfJson v identifier cardinality
  let defaultValue ← valueOfJson? v "defaultValue" identifier
    cardinality baseType
  let detail ←
    detailOfJson v kind identifier cardinality baseType
  pure { identifier, cardinality, baseType, defaultValue, detail }

end Declaration

end Assessment
