import Assessment.Declaration.Basic
import Assessment.Number.Numeral

/-
  The variables that expressions and rules see.

  The scope of an item holds its variables. The scope of a
  test holds the outcomes of the test and, beside them, a
  view of every item that was selected. A test refers to the
  variables of items by dotted names: a reference and a
  variable, and between them, if need be, the number of an
  occurrence.

  Key definitions include:
    * `DottedName` and its reader `DottedName.parse?`
    * `ItemView` and `TestView`, what a test sees of items
    * `Scope`, with reading and writing of variables
    * `Resolution`, what a dotted name refers to
-/

------------------------------------------------------------
-- Dotted Names
------------------------------------------------------------

namespace Assessment

/- A variable of an item, seen from a test. -/
structure DottedName where
  reference : String
  occurrence : Option Nat
  identifier : String
deriving DecidableEq, Repr

namespace DottedName

/- The characters before and after the first dot. -/
def splitAtDot : List Char → Option (List Char × List Char)
  | [] => none
  | c :: rest =>
      if c == '.' then some ([], rest)
      else (splitAtDot rest).map fun (a, b) => (c :: a, b)

/- The occurrence and the variable after a reference. -/
def parseRest (reference rest : List Char) : DottedName :=
  let whole : DottedName :=
    ⟨String.ofList reference, none, String.ofList rest⟩
  match splitAtDot rest with
  | none => whole
  | some (number, identifier) =>
      match Numeral.count? number with
      | none => whole
      | some n =>
          { whole with
            occurrence := some n
            identifier := String.ofList identifier }

/- The dotted name that a text with a dot stands for. -/
def parse? (text : String) : Option DottedName :=
  (splitAtDot text.toList).map fun (reference, rest) =>
    parseRest reference rest

end DottedName

------------------------------------------------------------
-- Views of Items
------------------------------------------------------------

/- Weights under their names. -/
abbrev Weights := Keyed Float

/- Values under the identifiers they are bound to. -/
abbrev Bindings := Keyed Value

/- What a test sees of a selected item. -/
structure ItemView where
  reference : String
  occurrence : Nat
  sections : List String
  categories : List String
  weights : Weights
  presented : Bool
  responded : Bool
  /- Nothing when a response has no correct value. -/
  correct : Option Bool
  incorrect : Bool
  declarations : List Declaration
  values : Bindings

namespace ItemView

/- The value of a declared variable of the item. -/
def value? (v : ItemView) (identifier : String) :
    Option Value :=
  (findDeclaration? v.declarations identifier).map fun _ =>
    (v.values.get? identifier).getD .null

end ItemView

/- What a test sees beside its own outcomes. -/
structure TestView where
  items : List ItemView
  /- The references of the test with their weights. -/
  references : List (String × Weights)

/- What a dotted name refers to. -/
inductive Resolution where
  | found (v : Value)
  /- The first of several items with the reference. -/
  | firstOf (v : Value) (count : Nat)
  | noInstance
  | unknown

namespace TestView

/- The weights of the first reference with an identifier. -/
def weightsOf? (t : TestView) (reference : String) :
    Option Weights :=
  (t.references.find? fun (r, _) => r == reference).map
    Prod.snd

/-
  Finds a variable of an item by its reference and, where
  several items share it, by its occurrence.
-/
def resolve
    (t : TestView)
    (reference : String)
    (occurrence : Option Nat)
    (identifier : String) :
    Resolution :=
  let matching :=
    t.items.filter fun v => v.reference == reference
  let chosen :=
    match occurrence with
    | some n => matching.find? fun (v : ItemView) => v.occurrence == n
    | none => matching.head?
  match chosen with
  | none =>
      if matching.isEmpty &&
          (t.weightsOf? reference).isNone then .unknown
      else .noInstance
  | some v =>
      match v.value? identifier with
      | none => .unknown
      | some w =>
          if occurrence.isNone && 1 < matching.length then
            .firstOf w matching.length
          else .found w

end TestView

------------------------------------------------------------
-- Scopes
------------------------------------------------------------

/- Declared variables, their values and what overrides them. -/
structure Scope where
  /- The identifier of the item or test. -/
  source : String
  declarations : List Declaration
  values : Bindings
  defaults : Bindings
  corrects : Bindings
  test : Option TestView

namespace Scope

/- The declaration of an identifier. -/
def declaration? (s : Scope) (identifier : String) :
    Option Declaration :=
  findDeclaration? s.declarations identifier

/- The value of a declared variable. -/
def value? (s : Scope) (identifier : String) : Option Value :=
  (s.declaration? identifier).map fun _ =>
    (s.values.get? identifier).getD .null

/- The correct value of a declared variable. -/
def correct? (s : Scope) (identifier : String) :
    Option Value :=
  (s.declaration? identifier).map fun d =>
    ((s.corrects.get? identifier).or d.correct?).getD .null

/- The default of a declared variable. -/
def default? (s : Scope) (identifier : String) :
    Option Value :=
  (s.declaration? identifier).map fun d =>
    (s.defaults.get? identifier).getD d.initial

/- Whether the variables are those of a test. -/
def isTest (s : Scope) : Bool :=
  s.test.isSome

/- Something done with a declared variable. -/
def ifDeclared (s : Scope) (identifier : String) (t : Scope) :
    Except Failure Scope :=
  match s.declaration? identifier with
  | some _ => .ok t
  | none => .error (.unknownVariable identifier)

/- Gives a declared variable a value. -/
def setValue (s : Scope) (identifier : String) (v : Value) :
    Except Failure Scope :=
  s.ifDeclared identifier
    { s with values := s.values.put identifier v }

/- Gives a declared variable another correct value. -/
def setCorrect (s : Scope) (identifier : String) (v : Value) :
    Except Failure Scope :=
  if s.isTest then
    .error (.mismatch (.noCorrectResponse identifier))
  else
    s.ifDeclared identifier
      { s with corrects := s.corrects.put identifier v }

/- Gives a declared variable another default. -/
def setDefault (s : Scope) (identifier : String) (v : Value) :
    Except Failure Scope :=
  if s.isTest then
    .error (.mismatch (.fixedDefault identifier))
  else
    s.ifDeclared identifier
      { s with defaults := s.defaults.put identifier v }

end Scope

end Assessment
