import Assessment.Item.Basic
import Assessment.Value.Reader

/-
  The envelope of a package.

  A package lists the documents of items and tests. Opening
  the envelope checks what all its readers rely on, and
  leaves declarations, rules and the structure of tests as
  data. Documents of other kinds are passed over.

  Key definitions include:
    * `ItemDocument`, `TestDocument` and `Document`
    * `Envelope` and its reader `Envelope.ofJson`
-/

------------------------------------------------------------
-- Documents
------------------------------------------------------------

namespace Assessment

/- Where a document was written. -/
structure Provenance where
  file : String
  line : Nat
deriving DecidableEq, Repr

/- The document of an item. -/
structure ItemDocument where
  identifier : String
  title : Option String
  adaptive : Bool
  timeDependent : Bool
  responses : List Json
  outcomes : List Json
  templates : List Json
  templateProcessing : List Json
  responseProcessing : List Json
  endAttempts : List EndAttempt
  provenance : Option Provenance

/- The document of a test. -/
structure TestDocument where
  identifier : String
  title : Option String
  outcomes : List Json
  timeLimits : Option Json
  parts : List Json
  outcomeProcessing : List Json
  feedbacks : List Json
  provenance : Option Provenance

/- A document of a package. -/
inductive Document where
  | item (d : ItemDocument)
  | test (d : TestDocument)

namespace Document

/- The identifier of a document. -/
def identifier : Document → String
  | .item d => d.identifier
  | .test d => d.identifier

/- Where a document was written. -/
def provenance : Document → Option Provenance
  | .item d => d.provenance
  | .test d => d.provenance

/- The item document that a document is. -/
def item? : Document → Option ItemDocument
  | .item d => some d
  | .test _ => none

/- The test document that a document is. -/
def test? : Document → Option TestDocument
  | .test d => some d
  | .item _ => none

end Document

/- A package whose documents have not been built yet. -/
structure Envelope where
  id : String
  version : String
  /- In the order of the package, no identifier twice. -/
  documents : List Document

namespace Envelope

/- The documents of items. -/
def items (e : Envelope) : List ItemDocument :=
  e.documents.filterMap Document.item?

/- The documents of tests. -/
def tests (e : Envelope) : List TestDocument :=
  e.documents.filterMap Document.test?

/- The document of the item with an identifier. -/
def item? (e : Envelope) (identifier : String) :
    Option ItemDocument :=
  e.items.find? fun d => d.identifier == identifier

end Envelope

------------------------------------------------------------
-- Fields
------------------------------------------------------------

/- The identifier that a document must have. -/
def documentIdentifier (kind : String) (v : Json) :
    Except EnvelopeFault String :=
  match v.stringField? "identifier" with
  | some s => .ok s
  | none =>
      .error (.invalid
        (kind ++ " missing 'identifier' field"))

/- A list field of a document, where an absent one is empty. -/
def documentList (kind identifier field : String) (v : Json) :
    Except EnvelopeFault (List Json) :=
  match v.present? field with
  | none => .ok []
  | some (.array xs) => .ok xs
  | some _ =>
      .error (.badDocument kind identifier
        ("'" ++ field ++ "' must be an array"))

/- Where a document was written, if it says so. -/
def Provenance.ofJson? (v : Json) : Option Provenance := do
  let p ← v.member? "provenance"
  let file ← p.stringField? "file"
  let line ← (p.member? "line").bind Json.nat?
  return ⟨file, line⟩

------------------------------------------------------------
-- Opening
------------------------------------------------------------

/- The controls of a document that end attempts. -/
def endAttemptsOf (kind identifier : String) (v : Json) :
    Except EnvelopeFault (List EndAttempt) := do
  let entries ← documentList kind identifier "endAttempts" v
  match entries.mapM EndAttempt.ofJson? with
  | some controls => return controls
  | none =>
      throw (.badDocument kind identifier
        "invalid endAttempts entry: ")

/- The document of an item. -/
def ItemDocument.ofJson (v : Json) :
    Except EnvelopeFault ItemDocument := do
  let kind := "AssessmentItem"
  let identifier ← documentIdentifier kind v
  let entries := fun field => documentList kind identifier field v
  let endAttempts ← endAttemptsOf kind identifier v
  let responses ← entries "responseDeclarations"
  let outcomes ← entries "outcomeDeclarations"
  let templates ← entries "templateDeclarations"
  let templateProcessing ← entries "templateProcessing"
  let responseProcessing ← entries "responseProcessing"
  return {
    identifier := identifier
    title := v.stringField? "title"
    adaptive := v.boolField "adaptive" false
    timeDependent := v.boolField "timeDependent" false
    responses := responses
    outcomes := outcomes
    templates := templates
    templateProcessing := templateProcessing
    responseProcessing := responseProcessing
    endAttempts := endAttempts
    provenance := Provenance.ofJson? v }

/- The document of a test, which has at least one part. -/
def TestDocument.ofJson (v : Json) :
    Except EnvelopeFault TestDocument := do
  let kind := "AssessmentTest"
  let identifier ← documentIdentifier kind v
  let entries := fun field => documentList kind identifier field v
  let parts ← entries "testParts"
  if parts.isEmpty then
    throw (.badDocument kind identifier
      "a test needs at least one testPart")
  let outcomes ← entries "outcomeDeclarations"
  let outcomeProcessing ← entries "outcomeProcessing"
  let feedbacks ← entries "testFeedbacks"
  return {
    identifier := identifier
    title := v.stringField? "title"
    outcomes := outcomes
    timeLimits := v.present? "timeLimits"
    parts := parts
    outcomeProcessing := outcomeProcessing
    feedbacks := feedbacks
    provenance := Provenance.ofJson? v }

/- A document, none when it is of another kind. -/
def Document.ofJson? (v : Json) :
    Except EnvelopeFault (Option Document) := do
  if v.object?.isNone then
    throw (.invalid "document entries must be objects")
  match v.stringField? "kind" with
  | some "AssessmentItem" =>
      return some (.item (← ItemDocument.ofJson v))
  | some "AssessmentTest" =>
      return some (.test (← TestDocument.ofJson v))
  | _ => return none

/- Documents in a row, after those already read. -/
def documentsOf (earlier : List Document) :
    List Json → Except EnvelopeFault (List Document)
  | [] => .ok earlier
  | v :: rest => do
      match ← Document.ofJson? v with
      | none => documentsOf earlier rest
      | some d =>
          if earlier.any (·.identifier == d.identifier) then
            throw (.duplicate d.identifier)
          else documentsOf (earlier ++ [d]) rest

/- Opens a package. -/
def Envelope.ofJson (v : Json) :
    Except EnvelopeFault Envelope := do
  let id ←
    match v.stringField? "id" with
    | some id => pure id
    | none => throw (.missingField "id")
  match (v.member? "documents").bind Json.array? with
  | none => throw (.missingField "documents")
  | some documents =>
      return {
        id := id
        version := (v.stringField? "qti_version").getD "2.1"
        documents := ← documentsOf [] documents }

end Assessment
