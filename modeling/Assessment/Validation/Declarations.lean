import Assessment.Shape.Problem
import Assessment.Validation.Catalogue
import Assessment.Validation.Walk

/-
  Problems with declarations.

  Identifiers are declared once, built-in variables keep their
  type, values fit their declarations, and tables for scoring
  make sense for the variable that has them.

  Key definitions include:
    * `DeclarationProblem`
    * `Definition.checkDeclarations`
-/

------------------------------------------------------------
-- Problems
------------------------------------------------------------

namespace Assessment

/- What can be wrong with a declaration. -/
inductive DeclarationProblem where
  | declaredTwice (identifier : String)
  /- A built-in variable that is not declared as expected. -/
  | wrongBuiltin (expected : Declaration)
  /- A value in a field that the declaration does not accept. -/
  | misfit (field : String) (value : Value) (d : Declaration)
  | boundsCrossed
  | unmappableType
  | mappedRecord
  | caseOfOthers
  /- An entry for a value that an earlier entry has. -/
  | repeatedKey (key : Scalar)
  | areasWithoutPoints
  | badCoords (line : String)
  | tableForContainer (d : Declaration)
  | stepsForOthers
  | repeatedSource (source : Float)
  | normalsCrossed

namespace DeclarationProblem

/- How bad a problem is. -/
def severity : DeclarationProblem → Severity
  | .repeatedKey _ | .repeatedSource _ => .warning
  | _ => .error

/- The wording of a problem. -/
def message : DeclarationProblem → String
  | .declaredTwice identifier =>
      "identifier '" ++ identifier ++
        "' is declared more than once"
  | .wrongBuiltin d =>
      "built-in variable '" ++ d.identifier ++ "' must be a " ++
        d.cardinality.name ++ " " ++ d.typeName ++ " " ++
        d.kind.name ++ " variable"
  | .misfit field v d =>
      field ++ " is " ++ v.describe ++ " but '" ++
        d.identifier ++ "' is " ++ d.cardinality.name ++ " " ++
        d.typeName
  | .boundsCrossed =>
      "upperBound cannot be less than lowerBound"
  | .unmappableType =>
      "file or duration base types cannot be used" ++
        " with a mapping"
  | .mappedRecord => "record variables cannot be mapped"
  | .caseOfOthers =>
      "only string base types may use" ++
        " case-insensitive mapEntries"
  | .repeatedKey key =>
      "mapKey '" ++ key.text ++
        "' repeats an earlier entry and is never used"
  | .areasWithoutPoints =>
      "areaMapping requires base type point"
  | .badCoords line => line
  | .tableForContainer d =>
      "lookup tables require a single cardinality outcome, '" ++
        d.identifier ++ "' is " ++ d.cardinality.name
  | .stepsForOthers =>
      "interpolationTable requires a numeric outcome"
  | .repeatedSource x =>
      "duplicate sourceValue " ++ floatText FloatText.plain x
  | .normalsCrossed =>
      "normalMinimum is greater than normalMaximum"

end DeclarationProblem

namespace Declaration

/- Findings about declarations. -/
abbrev Findings := List (Finding DeclarationProblem)

------------------------------------------------------------
-- Values
------------------------------------------------------------

/- The built-in variable that a declaration redeclares. -/
def builtinOf? (owner : Definition) (d : Declaration) :
    Option Declaration :=
  let builtins :=
    match owner with
    | .item _ =>
        [Builtin.completionDeclaration,
         Builtin.attemptsDeclaration, Builtin.durationDeclaration]
    | .test _ => [Builtin.testDurationDeclaration]
  findDeclaration? builtins d.identifier

/- Built-in variables that are declared in another way. -/
def checkBuiltin
    (owner : Definition)
    (path : Path)
    (d : Declaration) :
    Findings :=
  match builtinOf? owner d with
  | none => []
  | some b =>
      let same :=
        d.kind == b.kind && d.cardinality == b.cardinality &&
          d.baseType == b.baseType
      Finding.when (!same) path (.wrongBuiltin b)

/- A value in a field that the variable cannot take. -/
def checkValue
    (path : Path)
    (d : Declaration)
    (field : String)
    (value : Option Value) :
    Findings :=
  match value with
  | none => []
  | some v =>
      Finding.when (!d.accepts v) (path.child field)
        (.misfit field v d)

------------------------------------------------------------
-- Scorings
------------------------------------------------------------

/- The elements like an earlier one, with their places. -/
def repeats (same : α → α → Bool) (xs : List α) :
    List (α × Nat) :=
  xs.zipIdx.filter fun (x, i) =>
    (xs.take i).any fun y => same y x

/- Bounds in the wrong order. -/
def checkBounds (path : Path) (s : Scoring κ) : Findings :=
  let crossed :=
    match s.lower, s.upper with
    | some lower, some upper => upper < lower
    | _, _ => false
  Finding.when crossed path .boundsCrossed

/- Whether a base type cannot be mapped. -/
def isUnmappable : BaseType → Bool
  | .file | .duration => true
  | _ => false

/- Problems with a mapping. -/
def checkMapping (path : Path) (d : Declaration) (m : Mapping) :
    Findings :=
  let keys := m.entries.map ScoreEntry.key
  let again :=
    repeats
      (fun (a b : MapKey) => a.value.equals b.value) keys
  checkBounds path m ++
    Finding.when (d.baseType.any isUnmappable) path
      .unmappableType ++
    Finding.when (d.cardinality == .record) path
      .mappedRecord ++
    Finding.when
      (d.baseType != some .string &&
        keys.any fun k => !k.caseSensitive)
      path .caseOfOthers ++
    again.map fun (k, i) =>
      ⟨path.indexed "mapEntries" i, .repeatedKey k.value⟩

/- Problems with the coordinates of an area. -/
def checkArea (path : Path) (area : AreaKey) (index : Nat) :
    Findings :=
  match area.shape.countProblem? area.coords with
  | some line =>
      [⟨path.indexed "areaMapEntries" index, .badCoords line⟩]
  | none => []

/- Problems with an area mapping. -/
def checkAreaMapping
    (path : Path)
    (d : Declaration)
    (m : AreaMapping) :
    Findings :=
  checkBounds path m ++
    Finding.when (d.baseType.any (· != .point)) path
      .areasWithoutPoints ++
    m.entries.zipIdx.flatMap fun (e, i) =>
      checkArea path e.key i

------------------------------------------------------------
-- Lookup Tables
------------------------------------------------------------

/- Whether a table has steps between its entries. -/
def hasSteps : LookupTable → Bool
  | .exact .. => false
  | .steps .. => true

/- The field that holds the entries of a table. -/
def tableField : LookupTable → String
  | .exact .. => "matchTable"
  | .steps .. => "interpolationTable"

/- Problems with a lookup table. -/
def checkTable
    (path : Path)
    (d : Declaration)
    (table : LookupTable) :
    Findings :=
  let entries := path.child (tableField table)
  Finding.when (d.cardinality != .single) path
    (.tableForContainer d) ++
    Finding.when
      (hasSteps table && d.baseType.any (!·.isNumeric))
      path .stepsForOthers ++
    (repeats (fun (x y : Float) => x == y) table.sources).map
      fun (x, i) =>
        ⟨entries.indexed "entries" i, .repeatedSource x⟩

/- Declared bounds of an outcome in the wrong order. -/
def checkNormals (path : Path) (d : Declaration) : Findings :=
  let crossed :=
    match d.normalMinimum?, d.normalMaximum? with
    | some least, some greatest => greatest < least
    | _, _ => false
  Finding.when crossed path .normalsCrossed

------------------------------------------------------------
-- Declarations
------------------------------------------------------------

/- Findings about a part of a declaration that may be there. -/
def checkPart (check : α → Findings) : Option α → Findings
  | none => []
  | some x => check x

/- Problems with a declaration by itself. -/
def check (owner : Definition) (path : Path) (d : Declaration) :
    Findings :=
  checkBuiltin owner path d ++
    checkValue path d "defaultValue" d.defaultValue ++
    checkValue path d "correctResponse" d.correct? ++
    checkPart (checkMapping (path.child "mapping") d)
      d.mapping? ++
    checkPart (checkAreaMapping (path.child "areaMapping") d)
      d.areaMapping? ++
    checkPart (checkTable (path.child "lookupTable") d)
      d.table? ++
    checkNormals path d

/- Problems with declarations after earlier identifiers. -/
def checkEach (owner : Definition) (earlier : List String) :
    List (Path × Declaration) → Findings
  | [] => []
  | (path, d) :: rest =>
      Finding.when (earlier.contains d.identifier) path
        (.declaredTwice d.identifier) ++
        check owner path d ++
        checkEach owner (d.identifier :: earlier) rest

end Declaration

namespace Definition

/- Declarations with their paths in a field of a document. -/
def listed (document field : String) (ds : List Declaration) :
    List (Path × Declaration) :=
  ds.zipIdx.map fun (d, i) =>
    ((Path.root document).indexed field i, d)

/- The declarations that the author wrote, with their paths. -/
def authored : Definition → List (Path × Declaration)
  | .item i =>
      listed i.identifier "responseDeclarations" i.responses ++
        listed i.identifier "outcomeDeclarations" i.outcomes ++
        listed i.identifier "templateDeclarations" i.templates
  | .test t =>
      listed t.identifier "outcomeDeclarations" t.outcomes

/- Problems with the declarations of a definition. -/
def checkDeclarations (d : Definition) : Declaration.Findings :=
  Declaration.checkEach d [] d.authored

end Definition

end Assessment
