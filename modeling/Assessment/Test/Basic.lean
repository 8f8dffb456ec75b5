import Assessment.Item.Basic
import Assessment.Test.Control
import Assessment.Value.Reader

/-
  Tests.

  A test has parts, a part has sections, and a section holds
  references to items and further sections.

  Key definitions include:
    * `Feedback` and `Feedback.shows`, whether an outcome
      shows it
    * `ItemRef`, `SectionPart`, `Section`, `TestPart`
    * `Test`, with its declarations
    * `Test.placements`, every reference with the sections
      that enclose it
    * `Test.sections`, every section
-/

------------------------------------------------------------
-- Feedback
------------------------------------------------------------

namespace Assessment

/- When feedback can be seen. -/
inductive Access where
  | during
  | atEnd
deriving DecidableEq, Repr

namespace Access

/- The name of an access. -/
def name : Access → String
  | .during => "during"
  | .atEnd => "atEnd"

/- The access with a name. -/
def parse (name : String) : Except Failure Access :=
  match [during, atEnd].find? fun a => a.name == name with
  | some a => .ok a
  | none => .error (.unknownName "testFeedbackAccess" name)

end Access

/- Feedback that depends on an outcome of the test. -/
structure Feedback where
  /- The value of the outcome that it belongs to. -/
  identifier : String
  outcome : String
  access : Access
  /- Whether the value shows the feedback or hides it. -/
  showsIfMatch : Bool
  title : Option String
  content : Option String
deriving DecidableEq, Repr

namespace Feedback

/- Whether a value shows the feedback or hides it. -/
def showHide : String → Except Failure Bool
  | "show" => .ok true
  | "hide" => .ok false
  | name => .error (.unknownName "showHide" name)

/- Feedback from package data. -/
def ofJson (v : Json) : Except Failure Feedback := do
  let showsIfMatch ← showHide (← v.requireString "showHide")
  let identifier ← v.requireString "identifier"
  let outcome ← v.requireString "outcomeIdentifier"
  let access ← Access.parse (← v.requireString "access")
  return {
    identifier := identifier
    outcome := outcome
    access := access
    showsIfMatch := showsIfMatch
    title := v.stringField? "title"
    content := v.stringField? "content" }

/- Feedback in a row, the first failure winning. -/
def listOfJson : List Json → Except Failure (List Feedback)
  | [] => .ok []
  | v :: rest => do
      let f ← ofJson v
      let fs ← listOfJson rest
      return f :: fs

/- Whether feedback is shown at a value of its outcome. -/
def shows (f : Feedback) (v : Value) : Bool :=
  let matched := v.elements.any fun s => s.text == f.identifier
  matched == f.showsIfMatch

end Feedback

------------------------------------------------------------
-- References and Sections
------------------------------------------------------------

/- A reference to an item. -/
structure ItemRef where
  identifier : String
  /- The identifier of the item. -/
  href : String
  required : Bool
  fixed : Bool
  categories : List String
  weights : Weights
  templateDefaults : List TemplateDefault
  control : Option Control
  timeLimits : Option TimeLimits

/- How many children of a section are selected. -/
structure Selection where
  count : Nat
  withReplacement : Bool
deriving DecidableEq, Repr

/- A section apart from what it holds. -/
structure SectionInfo where
  identifier : String
  title : Option String
  visible : Bool
  keepTogether : Bool
  required : Bool
  fixed : Bool
  selection : Option Selection
  shuffle : Option Bool
  control : Option Control
  timeLimits : Option TimeLimits

/- What a section holds. -/
inductive SectionPart where
  | item (ref : ItemRef)
  | nested (info : SectionInfo) (parts : List SectionPart)

instance : Inhabited SectionPart :=
  ⟨.nested ⟨"", none, true, true, false, false, none, none,
    none, none⟩ []⟩

namespace SectionPart

/- The identifier of a part. -/
def identifier : SectionPart → String
  | .item ref => ref.identifier
  | .nested info _ => info.identifier

/- Whether a part is selected in any case. -/
def required : SectionPart → Bool
  | .item ref => ref.required
  | .nested info _ => info.required

/- Whether a part keeps its place in a shuffle. -/
def fixed : SectionPart → Bool
  | .item ref => ref.fixed
  | .nested info _ => info.fixed

end SectionPart

/- A section with what it holds. -/
structure Section where
  info : SectionInfo
  parts : List SectionPart

------------------------------------------------------------
-- Walks
------------------------------------------------------------

/- A reference with the sections around it, outermost first. -/
structure Placement where
  ref : ItemRef
  ancestry : List String

namespace SectionPart

mutual

/- The references in a part, in the order of the document. -/
def placements (ancestry : List String) :
    SectionPart → List Placement
  | .item ref => [⟨ref, ancestry⟩]
  | .nested info parts =>
      placementsIn (ancestry ++ [info.identifier]) parts

/- The references in parts. -/
def placementsIn (ancestry : List String) :
    List SectionPart → List Placement
  | [] => []
  | p :: rest =>
      placements ancestry p ++ placementsIn ancestry rest

end

mutual

/- The sections in a part, in the order of the document. -/
def sections : SectionPart → List Section
  | .item _ => []
  | .nested info parts => ⟨info, parts⟩ :: sectionsIn parts

/- The sections in parts. -/
def sectionsIn : List SectionPart → List Section
  | [] => []
  | p :: rest => sections p ++ sectionsIn rest

end

end SectionPart

namespace Section

/- The references in a section. -/
def placements (s : Section) : List Placement :=
  SectionPart.placementsIn [s.info.identifier] s.parts

/- A section and the sections in it. -/
def withNested (s : Section) : List Section :=
  s :: SectionPart.sectionsIn s.parts

end Section

------------------------------------------------------------
-- Tests
------------------------------------------------------------

/- A part of a test. -/
structure TestPart where
  identifier : String
  navigation : Navigation
  submission : SubmissionMode
  control : Option Control
  timeLimits : Option TimeLimits
  sections : List Section
  feedbacks : List Feedback

/- A test as its author defined it. -/
structure Test where
  identifier : String
  title : Option String
  outcomes : List Declaration
  timeLimits : Option TimeLimits
  parts : List TestPart
  outcomeProcessing : List Rule
  feedbacks : List Feedback

namespace Test

/- All declarations, with the time spent unless declared. -/
def declarations (t : Test) : List Declaration :=
  if t.outcomes.any fun d => d.identifier == Builtin.duration
  then t.outcomes
  else t.outcomes ++ [Builtin.testDurationDeclaration]

/- The declaration of an identifier. -/
def declaration? (t : Test) (identifier : String) :
    Option Declaration :=
  findDeclaration? t.declarations identifier

/- Every reference of a test with the sections around it. -/
def placements (t : Test) : List Placement :=
  t.parts.flatMap fun p => p.sections.flatMap Section.placements

/- Every section of a test, in the order of the document. -/
def sections (t : Test) : List Section :=
  t.parts.flatMap fun p => p.sections.flatMap Section.withNested

/- The first reference with an identifier. -/
def itemRef? (t : Test) (identifier : String) :
    Option ItemRef :=
  (t.placements.find? fun p => p.ref.identifier == identifier).map
    Placement.ref

/- The first section with an identifier. -/
def section? (t : Test) (identifier : String) :
    Option Section :=
  t.sections.find? fun s => s.info.identifier == identifier

/- Whether a reference stands somewhere in a section. -/
def isWithin (t : Test) (ref inSection : String) : Bool :=
  t.placements.any fun p =>
    p.ref.identifier == ref && p.ancestry.contains inSection

end Test

end Assessment
