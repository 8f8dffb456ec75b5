import Assessment.Validation.Catalogue
import Assessment.Validation.Walk

/-
  Problems with rules.

  A rule belongs to certain kinds of processing, writes to a
  variable of the right family, and gives it values it can
  take. Conditions are single truth values.

  Key definitions include:
    * `RuleProblem`
    * `Rule.check`, the problems of a rule by itself
    * `Catalogue.checkRules`
-/

------------------------------------------------------------
-- Problems
------------------------------------------------------------

namespace Assessment

/- What can be wrong with a rule. -/
inductive RuleProblem where
  | misplaced (rule : String) (kind : ProcessingKind)
  | undeclaredTarget (rule identifier : String)
  | foreignTarget (rule identifier : String)
  | wrongFamily (rule identifier : String) (kind : VariableKind)
      (wanted : List VariableKind)
  | overwritten (identifier : String)
  | wrongCardinality (rule : String) (got : Cardinality)
      (d : Declaration)
  | wrongType (rule : String) (got wanted : BaseType)
      (identifier : String)
  | noTable (identifier : String)
  | sourceNotNumeric (got : BaseType)
  | floatForIntegers
  | notBoolean (name : String) (got : StaticType)

namespace RuleProblem

/- How bad a problem is. -/
def severity : RuleProblem → Severity
  | .overwritten _ | .floatForIntegers => .warning
  | _ => .error

/- The names of families that would do. -/
def wantedText (kinds : List VariableKind) : String :=
  String.intercalate " or " (kinds.map VariableKind.name)

/- The name of a cardinality, if it is certain. -/
def cardinalityText (c : Option Cardinality) : String :=
  (c.map Cardinality.name).getD "?"

/- The name of a base type, if it is certain. -/
def typeText (t : Option BaseType) : String :=
  (t.map BaseType.name).getD "?"

/- The wording of a problem. -/
def message : RuleProblem → String
  | .misplaced rule kind =>
      rule ++ " is not allowed in " ++ kind.name ++
        " processing"
  | .undeclaredTarget rule identifier =>
      rule ++ " target '" ++ identifier ++ "' is not declared"
  | .foreignTarget rule identifier =>
      rule ++ " cannot write to '" ++ identifier ++
        "' in another item"
  | .wrongFamily rule identifier kind wanted =>
      rule ++ " target '" ++ identifier ++ "' is of kind " ++
        kind.name ++ ", expected " ++ wantedText wanted
  | .overwritten identifier =>
      "built-in variable '" ++ identifier ++
        "' is maintained by the session" ++
        " and will be overwritten"
  | .wrongCardinality rule got d =>
      rule ++ " assigns a " ++ got.name ++ " value to " ++
        d.cardinality.name ++ " variable '" ++ d.identifier ++
        "'"
  | .wrongType rule got wanted identifier =>
      rule ++ " assigns a " ++ got.name ++ " value to " ++
        wanted.name ++ " variable '" ++ identifier ++ "'"
  | .noTable identifier =>
      "lookupOutcomeValue target '" ++ identifier ++
        "' has no lookup table"
  | .sourceNotNumeric got =>
      "lookup source must be numeric, got " ++ got.name
  | .floatForIntegers =>
      "matchTable sources are integers;" ++
        " a float source only matches whole values"
  | .notBoolean name got =>
      name ++ " must be a single boolean, got " ++
        cardinalityText got.cardinality ++ " " ++
        typeText got.baseType

end RuleProblem

namespace Rule

/- Findings about rules. -/
abbrev Findings := List (Finding RuleProblem)

------------------------------------------------------------
-- Places
------------------------------------------------------------

/- The kinds of processing that a target is written in. -/
def kindsOfTarget : SetTarget → List ProcessingKind
  | .outcome => [.response, .outcome]
  | .response => [.response]
  | .template | .correctResponse | .defaultValue => [.template]

/- The kinds of processing that a rule may be part of. -/
def kinds : Rule → List ProcessingKind
  | .condition kind .. | .fragment kind _ => [kind]
  | .setValue target .. => kindsOfTarget target
  | .lookup .. => [.response, .outcome]
  | .exit .response => [.response]
  | .exit .test => [.outcome]
  | .exit .template => [.template]
  | .constraint _ => [.template]

/- The families that a target may be of. -/
def families : SetTarget → List VariableKind
  | .outcome => [.outcome]
  | .response | .correctResponse => [.response]
  | .template => [.template]
  | .defaultValue => [.response, .outcome]

------------------------------------------------------------
-- Targets
------------------------------------------------------------

/- The variable that a rule writes to, or what is wrong. -/
def target
    (lookup : String → Lookup)
    (rule identifier : String)
    (wanted : List VariableKind) :
    Except (Option RuleProblem) Declaration :=
  match lookup identifier with
  | .unresolved => .error none
  | .undeclared =>
      .error (some (.undeclaredTarget rule identifier))
  | .declared d =>
      if identifier.toList.contains '.' then
        .error (some (.foreignTarget rule identifier))
      else if !wanted.contains d.kind then
        .error
          (some (.wrongFamily rule identifier d.kind wanted))
      else .ok d

/- Checks the target of a rule, or says what is wrong. -/
def withTarget
    (path : Path)
    (found : Except (Option RuleProblem) Declaration)
    (check : Declaration → Findings) :
    Findings :=
  match found with
  | .ok d => check d
  | .error (some problem) => [⟨path, problem⟩]
  | .error none => []

/- Whether integers are taken for values of a base type. -/
def takes (wanted got : BaseType) : Bool :=
  got == wanted || (got == .integer && wanted == .float)

/- A value that a variable cannot take. -/
def checkAssignment
    (path : Path)
    (rule : String)
    (d : Declaration)
    (got : StaticType) :
    Findings :=
  let cardinality :=
    match got.cardinality with
    | some c =>
        Finding.when (c != d.cardinality) path
          (.wrongCardinality rule c d)
    | none => []
  let type :=
    match got.baseType, d.baseType with
    | some t, some wanted =>
        Finding.when (!takes wanted t) path
          (.wrongType rule t wanted d.identifier)
    | _, _ => []
  cardinality ++ type

/- Whether sessions set a built-in variable themselves. -/
def isMaintained (identifier : String) : Bool :=
  Builtin.isBuiltin identifier &&
    identifier != Builtin.completionStatus

/- A source that a table cannot look up. -/
def checkSource
    (path : Path)
    (table : LookupTable)
    (source : Option BaseType) :
    Findings :=
  match table, source with
  | _, none => []
  | .exact .., some .float => [⟨path, .floatForIntegers⟩]
  | _, some t =>
      Finding.when (!t.isNumeric) path (.sourceNotNumeric t)

------------------------------------------------------------
-- Conditions
------------------------------------------------------------

/- Whether values may be single truth values. -/
def mayBeBoolean (t : StaticType) : Bool :=
  t.baseType.all (· == .boolean) &&
    t.cardinality.all (· == .single)

/- Expressions that must be single truth values. -/
def checkConditions
    (lookup : String → Lookup)
    (path : Path)
    (r : Rule) :
    Findings :=
  (r.expressions path).flatMap fun (field, e) =>
    let type := e.staticType lookup
    Finding.when (!mayBeBoolean type) field
      (.notBoolean e.name type)

------------------------------------------------------------
-- Rules
------------------------------------------------------------

/- Problems with what a rule does. -/
def checkEffect
    (lookup : String → Lookup)
    (path : Path)
    (r : Rule) :
    Findings :=
  match r with
  | .setValue goal identifier value =>
      withTarget path
        (target lookup r.name identifier (families goal))
        fun d =>
          Finding.when (isMaintained identifier) path
            (.overwritten identifier) ++
            checkAssignment path r.name d
              (value.staticType lookup)
  | .lookup identifier value =>
      withTarget path
        (target lookup r.name identifier [.outcome])
        fun d =>
          match d.table? with
          | none => [⟨path, .noTable identifier⟩]
          | some table =>
              checkSource path table
                (value.staticType lookup).baseType
  | .condition .. | .constraint _ =>
      checkConditions lookup path r
  | .exit _ | .fragment .. => []

/- The problems of a rule by itself. -/
def check
    (lookup : String → Lookup)
    (kind : ProcessingKind)
    (path : Path)
    (r : Rule) :
    Findings :=
  Finding.when (!r.kinds.contains kind) path
    (.misplaced r.name kind) ++
    checkEffect lookup path r

end Rule

/- Problems with the rules of a definition. -/
def Catalogue.checkRules (c : Catalogue) (d : Definition) :
    Rule.Findings :=
  d.rules.flatMap fun (kind, path, r) =>
    r.check (c.lookup d) kind path

end Assessment
