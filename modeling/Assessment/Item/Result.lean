import Assessment.Clock.Timer
import Assessment.Declaration.Basic
import Assessment.Item.Session
import Assessment.Value.Reader

/-
  What is recorded about sessions, and the results of item
  sessions.

  Key definitions include:
    * `SessionStatus`
    * `ResultVariable`, a variable with its value
    * `ItemResult`, `TestResult` and `AssessmentResult`, and
      the data each is written as
    * `ItemSession.status` and `ItemSession.result`
-/

------------------------------------------------------------
-- Variables
------------------------------------------------------------

namespace Assessment

/- How far an item session has come. -/
inductive SessionStatus where
  | initial
  | pendingSubmission
  | final
deriving DecidableEq, Repr

/- The name of a status in recorded data. -/
def SessionStatus.name : SessionStatus → String
  | .initial => "initial"
  | .pendingSubmission => "pendingSubmission"
  | .final => "final"

/- A variable with its value. -/
structure ResultVariable where
  identifier : String
  kind : VariableKind
  cardinality : Cardinality
  baseType : Option BaseType
  value : Value

namespace ResultVariable

/- The result of a declared variable. -/
def ofDeclaration (d : Declaration) (v : Value) :
    ResultVariable :=
  ⟨d.identifier, d.kind, d.cardinality, d.baseType, v⟩

/- The time spent on a part or a section of a test. -/
def duration (owner : String) (seconds : Float) :
    ResultVariable :=
  ⟨owner ++ "." ++ Builtin.duration, .outcome, .single,
    some .float, .float seconds⟩

/- The data of a variable; records have no base type. -/
def toJson (v : ResultVariable) : Json :=
  let type :=
    match v.baseType with
    | some t => [("baseType", Json.string t.name)]
    | none => []
  .ofMembers
    ([("identifier", .string v.identifier),
      ("kind", .string v.kind.name),
      ("cardinality", .string v.cardinality.name),
      ("value", v.value.toJson)] ++ type)

end ResultVariable

------------------------------------------------------------
-- Results
------------------------------------------------------------

/- What is recorded about an item session. -/
structure ItemResult where
  identifier : String
  /- The place in the plan of a test, counted from one. -/
  sequenceIndex : Option Nat
  stamp : String
  status : SessionStatus
  recorded : List ResultVariable

/- The data of an item result. -/
def ItemResult.toJson (r : ItemResult) : Json :=
  let index :=
    match r.sequenceIndex with
    | some n => [("sequenceIndex", Json.nat n)]
    | none => []
  .ofMembers
    ([("identifier", .string r.identifier),
      ("dateStamp", .string r.stamp),
      ("sessionStatus", .string r.status.name),
      ("variables",
        .array (r.recorded.map ResultVariable.toJson))] ++
      index)

/- What is recorded about a test itself. -/
structure TestResult where
  identifier : String
  stamp : String
  recorded : List ResultVariable

/- The data of a test result. -/
def TestResult.toJson (r : TestResult) : Json :=
  .ofMembers
    [("identifier", .string r.identifier),
     ("dateStamp", .string r.stamp),
     ("variables",
       .array (r.recorded.map ResultVariable.toJson))]

/- What is recorded about a run through a test. -/
structure AssessmentResult where
  stamp : String
  test : TestResult
  items : List ItemResult

/- The data of an assessment result. -/
def AssessmentResult.toJson (r : AssessmentResult) : Json :=
  .ofMembers
    [("dateStamp", .string r.stamp),
     ("testResult", r.test.toJson),
     ("itemResults", .array (r.items.map ItemResult.toJson))]

------------------------------------------------------------
-- Results
------------------------------------------------------------

namespace ItemSession

/- How far a session has come. -/
def status (s : ItemSession) : SessionStatus :=
  if s.state.pending then .pendingSubmission
  else if 0 < s.state.attempts then .final
  else .initial

/- The variables of one family with their values. -/
def variablesOf (s : ItemSession) (kind : VariableKind) :
    List ResultVariable :=
  (s.item.declarations.filter fun d => d.kind == kind).map
    fun d => .ofDeclaration d (s.state.value d.identifier)

/- What is recorded about a session, outcomes first. -/
def result
    (s : ItemSession)
    (identifier : String)
    (sequenceIndex : Option Nat)
    (now : Instant) :
    ItemResult :=
  { identifier := identifier
    sequenceIndex := sequenceIndex
    stamp := now.stamp
    status := s.status
    recorded :=
      s.variablesOf .outcome ++ s.variablesOf .response ++
        s.variablesOf .template }

end ItemSession

end Assessment
