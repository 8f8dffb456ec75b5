import Assessment.Item.Basic
import Assessment.Package.Envelope
import Assessment.Test.Basic

/-
  Building items and tests from their documents.

  Key definitions include:
    * `Item.ofDocument`
    * `ItemRef.ofJson` and `SectionPart.ofJson`
    * `Test.ofDocument`
-/

------------------------------------------------------------
-- Items
------------------------------------------------------------

namespace Assessment

/- Declarations of one family, the first failure winning. -/
def Declaration.listOfJson (kind : VariableKind) :
    List Json → Except Failure (List Declaration)
  | [] => .ok []
  | v :: rest => do
      let d ← Declaration.ofJson kind v
      let ds ← listOfJson kind rest
      return d :: ds

/- The item of a document, before failures name it. -/
def Item.build (d : ItemDocument) : Except Failure Item := do
  let responses ← Declaration.listOfJson .response d.responses
  let outcomes ← Declaration.listOfJson .outcome d.outcomes
  let templates ← Declaration.listOfJson .template d.templates
  let templateProcessing ←
    Rule.listOfJson d.templateProcessing
  let responseProcessing ←
    Rule.listOfJson d.responseProcessing
  return {
    identifier := d.identifier
    title := d.title
    adaptive := d.adaptive
    timeDependent := d.timeDependent
    responses := responses
    outcomes := outcomes
    templates := templates
    templateProcessing := templateProcessing
    responseProcessing := responseProcessing
    endAttempts := d.endAttempts }

/- The item of a document. -/
def Item.ofDocument (d : ItemDocument) : Except Failure Item :=
  (build d).mapError (Failure.within "item" d.identifier)

------------------------------------------------------------
-- References
------------------------------------------------------------

/- Controls, where a field that is present counts as made. -/
def Control.ofField? (v : Json) : Option Control :=
  (v.member? "itemSessionControl").map Control.ofJson

/- Time limits, where a field that is present counts. -/
def TimeLimits.ofField? (v : Json) : Option TimeLimits :=
  (v.member? "timeLimits").map TimeLimits.ofJson

namespace ItemRef

/- The weights of a reference, of which later ones win. -/
def weightsOfJson (owner : String) :
    List Json → Except Failure (List (String × Float))
  | [] => .ok []
  | w :: rest => do
      match w.floatField? "value" with
      | none =>
          throw (.malformed
            (.lacks ("weight on item ref '" ++ owner ++ "'")
              "value"))
      | some x =>
          let name ← w.requireString "identifier"
          let weights ← weightsOfJson owner rest
          return (name, x) :: weights

/- Template defaults in a row, the first failure winning. -/
def defaultsOfJson :
    List Json → Except Failure (List TemplateDefault)
  | [] => .ok []
  | v :: rest => do
      let d ← TemplateDefault.ofJson v
      let ds ← defaultsOfJson rest
      return d :: ds

/- A reference from package data. -/
def ofJson (v : Json) : Except Failure ItemRef := do
  let identifier ← v.requireString "identifier"
  let weights ←
    weightsOfJson identifier (← v.listField "weights")
  let categories ← v.stringList "category"
  let defaults ←
    defaultsOfJson (← v.listField "templateDefaults")
  return {
    identifier := identifier
    href := (v.stringField? "href").getD identifier
    required := v.boolField "required" false
    fixed := v.boolField "fixed" false
    categories := categories
    weights := Keyed.ofList weights
    templateDefaults := defaults
    control := Control.ofField? v
    timeLimits := TimeLimits.ofField? v }

end ItemRef

------------------------------------------------------------
-- Sections
------------------------------------------------------------

/- The selection of a section. -/
def Selection.ofField? (owner : String) (v : Json) :
    Except Failure (Option Selection) :=
  match v.present? "selection" with
  | none => .ok none
  | some s =>
      match (s.member? "select").bind Json.nat? with
      | some n =>
          .ok (some ⟨n, s.boolField "withReplacement" false⟩)
      | none =>
          .error (.malformed
            (.lacks ("selection on section '" ++ owner ++ "'")
              "select"))

namespace Section

/-
  A section from its fields. Its parts have been read already;
  their failure counts after the others.
-/
def assemble (v : Json)
    (parts : Except Failure (List SectionPart)) :
    Except Failure Section := do
  let identifier ← v.requireString "identifier"
  let selection ← Selection.ofField? identifier v
  let parts ← parts
  return {
    info := {
      identifier := identifier
      title := v.stringField? "title"
      visible := v.boolField "visible" true
      keepTogether := v.boolField "keepTogether" true
      required := v.boolField "required" false
      fixed := v.boolField "fixed" false
      selection := selection
      shuffle := (v.member? "ordering").map fun o =>
        o.boolField "shuffle" false
      control := Control.ofField? v
      timeLimits := TimeLimits.ofField? v }
    parts := parts }

/- The identifier among members, or an empty one. -/
def ownerOf (ms : List (String × Json)) : String :=
  ((Keyed.get? "identifier" ms).bind Json.string?).getD ""

/- A part of a section, of which the kind has been read. -/
def partOfKind
    (owner : String)
    (v : Json)
    (parts : Except Failure (List SectionPart)) :
    Except Failure SectionPart :=
  match v.stringField? "kind" with
  | some "assessmentSection" => do
      let s ← assemble v parts
      return .nested s.info s.parts
  | some "assessmentItemRef" => do
      return .item (← ItemRef.ofJson v)
  | some name => .error (.unknownName "section part" name)
  | none =>
      .error (.malformed
        (.lacks ("section part in '" ++ owner ++ "'") "kind"))

mutual

/- A part of a section from package data. -/
def partOfJson (owner : String) :
    Json → Except Failure SectionPart
  | .object ms =>
      partOfKind owner (.object ms)
        (partsOfMembers (ownerOf ms) ms)
  | .null => partOfKind owner .null (.ok [])
  | .bool b => partOfKind owner (.bool b) (.ok [])
  | .number n => partOfKind owner (.number n) (.ok [])
  | .string s => partOfKind owner (.string s) (.ok [])
  | .array xs => partOfKind owner (.array xs) (.ok [])

/- The parts among the members of a section. -/
def partsOfMembers (owner : String) :
    List (String × Json) → Except Failure (List SectionPart)
  | [] => .ok []
  | (k, v) :: rest =>
      if k == "sectionParts" then partsOfJson owner v
      else partsOfMembers owner rest

/- The parts that a member holds. -/
def partsOfJson (owner : String) :
    Json → Except Failure (List SectionPart)
  | .null => .ok []
  | .array xs => partsOfList owner xs
  | _ => .error (.malformed (.notArray "sectionParts"))

/- Parts in a row, the first failure winning. -/
def partsOfList (owner : String) :
    List Json → Except Failure (List SectionPart)
  | [] => .ok []
  | v :: rest => do
      let p ← partOfJson owner v
      let ps ← partsOfList owner rest
      return p :: ps

end

/- A section from package data. -/
def ofJson (v : Json) : Except Failure Section :=
  match v with
  | .object ms => assemble v (partsOfMembers (ownerOf ms) ms)
  | _ => assemble v (.ok [])

/- Sections in a row, the first failure winning. -/
def listOfJson : List Json → Except Failure (List Section)
  | [] => .ok []
  | v :: rest => do
      let s ← ofJson v
      let ss ← listOfJson rest
      return s :: ss

end Section

------------------------------------------------------------
-- Tests
------------------------------------------------------------

namespace TestPart

/- A part of a test from package data. -/
def ofJson (v : Json) : Except Failure TestPart := do
  let navigation ←
    Navigation.parse (v.stringField? "navigationMode")
  let submission ←
    SubmissionMode.parse (v.stringField? "submissionMode")
  let identifier ← v.requireString "identifier"
  let sections ←
    Section.listOfJson (← v.listField "assessmentSections")
  let feedbacks ←
    Feedback.listOfJson (← v.listField "testFeedbacks")
  return {
    identifier := identifier
    navigation := navigation
    submission := submission
    control := Control.ofField? v
    timeLimits := TimeLimits.ofField? v
    sections := sections
    feedbacks := feedbacks }

/- Parts in a row, the first failure winning. -/
def listOfJson : List Json → Except Failure (List TestPart)
  | [] => .ok []
  | v :: rest => do
      let p ← ofJson v
      let ps ← listOfJson rest
      return p :: ps

end TestPart

/- The test of a document, before failures name it. -/
def Test.build (d : TestDocument) : Except Failure Test := do
  let outcomes ← Declaration.listOfJson .outcome d.outcomes
  let parts ← TestPart.listOfJson d.parts
  let outcomeProcessing ← Rule.listOfJson d.outcomeProcessing
  let feedbacks ← Feedback.listOfJson d.feedbacks
  return {
    identifier := d.identifier
    title := d.title
    outcomes := outcomes
    timeLimits := d.timeLimits.map TimeLimits.ofJson
    parts := parts
    outcomeProcessing := outcomeProcessing
    feedbacks := feedbacks }

/- The test of a document. -/
def Test.ofDocument (d : TestDocument) : Except Failure Test :=
  (build d).mapError (Failure.within "test" d.identifier)

end Assessment
