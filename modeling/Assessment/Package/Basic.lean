import Assessment.Test.Reader

/-
  Packages, ready for sessions.

  Key definitions include:
    * `Package`, its items and tests by identifier
    * `Package.ofJson`, which builds every document
-/

------------------------------------------------------------
-- Packages
------------------------------------------------------------

namespace Assessment

/- The items and tests of a package. -/
structure Package where
  id : String
  items : Keyed Item
  tests : Keyed Test

namespace Package

/- Items in a row, the first failure winning. -/
def itemsOf :
    List ItemDocument → Except Failure (List (String × Item))
  | [] => .ok []
  | d :: rest => do
      let i ← Item.ofDocument d
      let is ← itemsOf rest
      return (d.identifier, i) :: is

/- Tests in a row, the first failure winning. -/
def testsOf :
    List TestDocument → Except Failure (List (String × Test))
  | [] => .ok []
  | d :: rest => do
      let t ← Test.ofDocument d
      let ts ← testsOf rest
      return (d.identifier, t) :: ts

/- Builds every document of an opened package. -/
def ofEnvelope (e : Envelope) : Except Failure Package := do
  let items ← itemsOf e.items
  let tests ← testsOf e.tests
  return ⟨e.id, Keyed.ofList items, Keyed.ofList tests⟩

/- Opens a package and builds every document of it. -/
def ofJson (v : Json) : Except Failure Package := do
  match Envelope.ofJson v with
  | .ok e => ofEnvelope e
  | .error fault => throw (.envelope fault)

/- The item with an identifier. -/
def item (p : Package) (identifier : String) :
    Except Failure Item :=
  match p.items.get? identifier with
  | some i => .ok i
  | none => .error (.unknownDocument identifier)

/- The test with an identifier. -/
def test (p : Package) (identifier : String) :
    Except Failure Test :=
  match p.tests.get? identifier with
  | some t => .ok t
  | none => .error (.unknownDocument identifier)

end Package

end Assessment
