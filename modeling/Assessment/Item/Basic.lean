import Assessment.Json.Basic
import Assessment.Rule.Reader

/-
  Items.

  Key definitions include:
    * `EndAttempt` and its reader `EndAttempt.ofJson?`, for
      controls that end an attempt
    * `Item`, with its declarations and rules
    * `Item.declarations`, all that are in scope
    * `TemplateDefault`, a value given from outside
-/

------------------------------------------------------------
-- Controls
------------------------------------------------------------

namespace Assessment

/- A response that ends an attempt when it is true. -/
structure EndAttempt where
  response : String
  /- Whether the attempt counts. -/
  counts : Bool
deriving DecidableEq, Repr

namespace EndAttempt

/- Whether an attempt counts, which it does unless told. -/
def countsOf? : Option Json → Option Bool
  | none => some true
  | some v => v.bool?

/- A control from its fields, in an object or in a row. -/
def ofJson? : Json → Option EndAttempt
  | .object ms => do
      let response ←
        (Keyed.get? "responseIdentifier" ms).bind Json.string?
      let counts ← countsOf? (Keyed.get? "countAttempt" ms)
      return ⟨response, counts⟩
  | .array [response] => do
      return ⟨← response.string?, true⟩
  | .array [response, counts] => do
      return ⟨← response.string?, ← counts.bool?⟩
  | _ => none

end EndAttempt

------------------------------------------------------------
-- Items
------------------------------------------------------------

/- An item as its author defined it. -/
structure Item where
  identifier : String
  title : Option String
  adaptive : Bool
  timeDependent : Bool
  responses : List Declaration
  outcomes : List Declaration
  templates : List Declaration
  templateProcessing : List Rule
  responseProcessing : List Rule
  endAttempts : List EndAttempt

namespace Item

/- The built-in declarations that the author left out. -/
def builtins (i : Item) : List Declaration :=
  [Builtin.completionDeclaration, Builtin.attemptsDeclaration,
   Builtin.durationDeclaration].filter fun b =>
    !(i.responses ++ i.outcomes).any fun d =>
      d.identifier == b.identifier

/- All declarations, the built-in ones last. -/
def declarations (i : Item) : List Declaration :=
  i.responses ++ i.outcomes ++ i.templates ++ i.builtins

/- The declaration of an identifier. -/
def declaration? (i : Item) (identifier : String) :
    Option Declaration :=
  findDeclaration? i.declarations identifier

/- The responses apart from the built-in ones. -/
def authoredResponses (i : Item) : List Declaration :=
  i.responses.filter fun d => !Builtin.isBuiltin d.identifier

/- The control that a response belongs to. -/
def endAttempt? (i : Item) (response : String) :
    Option EndAttempt :=
  i.endAttempts.find? fun e => e.response == response

end Item

------------------------------------------------------------
-- Template Defaults
------------------------------------------------------------

/- A default of a template variable given from outside. -/
structure TemplateDefault where
  identifier : String
  value : Expression

/- A template default from package data. -/
def TemplateDefault.ofJson (v : Json) :
    Except Failure TemplateDefault := do
  let identifier ← v.requireString "templateIdentifier"
  let value ← Rule.expressionOfJson "templateDefault" v
  return ⟨identifier, value⟩

end Assessment
