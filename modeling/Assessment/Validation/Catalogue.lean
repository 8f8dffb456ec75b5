import Assessment.Scope.Basic
import Assessment.Test.Reader

/-
  The definitions that validation looks at.

  Documents that cannot be built are set aside with their
  failures. The others are looked at one by one, and names in
  them are looked up as sessions would look them up. What a
  name stands for is what is known beforehand of the values
  of expressions.

  Key definitions include:
    * `Definition`, an item or a test
    * `Catalogue`, all definitions of a package
    * `Catalogue.lookup`, what a name stands for
    * `StaticType` and `Expression.staticType`
-/

------------------------------------------------------------
-- Definitions
------------------------------------------------------------

namespace Assessment

/- An item or a test. -/
inductive Definition where
  | item (i : Item)
  | test (t : Test)

namespace Definition

/- The identifier of a definition. -/
def identifier : Definition → String
  | .item i => i.identifier
  | .test t => t.identifier

/- The item that a definition is. -/
def item? : Definition → Option Item
  | .item i => some i
  | .test _ => none

/- The test that a definition is. -/
def test? : Definition → Option Test
  | .item _ => none
  | .test t => some t

/- The definition that a document holds. -/
def ofDocument : Document → Except Failure Definition
  | .item d => (Item.ofDocument d).map item
  | .test d => (Test.ofDocument d).map test

end Definition

------------------------------------------------------------
-- Catalogues
------------------------------------------------------------

/- The definitions of a package. -/
structure Catalogue where
  items : List Item
  tests : List Test
  /- Documents that could not be built. -/
  rejected : List (String × Failure)
  /- The identifiers of all items, built or not. -/
  itemNames : List String

/- What a name stands for. -/
inductive Lookup where
  | declared (d : Declaration)
  /- A variable of an item that cannot be looked at. -/
  | unresolved
  | undeclared

namespace Lookup

/- What is known of an optional declaration. -/
def ofOption : Option Declaration → Lookup
  | some d => .declared d
  | none => .undeclared

/- The declaration that was found. -/
def declaration? : Lookup → Option Declaration
  | .declared d => some d
  | _ => none

end Lookup

namespace Catalogue

/- Builds all documents of an opened package. -/
def ofEnvelope (e : Envelope) : Catalogue :=
  let built :=
    e.documents.map fun d =>
      (d.identifier, Definition.ofDocument d)
  let definitions := built.filterMap fun (_, x) => x.toOption
  { items := definitions.filterMap Definition.item?
    tests := definitions.filterMap Definition.test?
    rejected := built.filterMap fun (name, x) =>
      match x with
      | .ok _ => none
      | .error f => some (name, f)
    itemNames := e.items.map ItemDocument.identifier }

/- The item with an identifier. -/
def item? (c : Catalogue) (identifier : String) : Option Item :=
  c.items.find? fun i => i.identifier == identifier

/- Whether there is an item document, built or not. -/
def hasItem (c : Catalogue) (identifier : String) : Bool :=
  c.itemNames.contains identifier

/- All definitions, items first. -/
def definitions (c : Catalogue) : List Definition :=
  c.items.map .item ++ c.tests.map .test

/- What a dotted name stands for in a test. -/
def lookupDotted (c : Catalogue) (t : Test) (name : DottedName) :
    Lookup :=
  match t.itemRef? name.reference with
  | none => .undeclared
  | some ref =>
      match c.item? ref.href with
      | none => .unresolved
      | some i => .ofOption (i.declaration? name.identifier)

/- What a name stands for in a definition. -/
def lookup (c : Catalogue) (d : Definition) (name : String) :
    Lookup :=
  match d with
  | .item i => .ofOption (i.declaration? name)
  | .test t =>
      match DottedName.parse? name with
      | none => .ofOption (t.declaration? name)
      | some dotted => c.lookupDotted t dotted

end Catalogue

------------------------------------------------------------
-- Static Types
------------------------------------------------------------

/- What is certain about the values of an expression. -/
structure StaticType where
  cardinality : Option Cardinality
  baseType : Option BaseType
deriving DecidableEq, Repr

namespace StaticType

/- Nothing is certain. -/
def unknown : StaticType :=
  ⟨none, none⟩

/- The type of the values of a declared variable. -/
def ofDeclaration (d : Declaration) : StaticType :=
  ⟨some d.cardinality, d.baseType⟩

/- Integers become floats under a weight. -/
def weighted (t : StaticType) : StaticType :=
  match t.baseType with
  | some .integer => { t with baseType := some .float }
  | _ => t

/- The type of a leaf, where names are looked up. -/
def ofLeaf (lookup : String → Lookup) : Leaf → StaticType
  | .fetch identifier weight =>
      match lookup identifier with
      | .declared d =>
          if weight.isSome then (ofDeclaration d).weighted
          else ofDeclaration d
      | _ => unknown
  | .initial identifier | .correct identifier =>
      match lookup identifier with
      | .declared d => ofDeclaration d
      | _ => unknown
  | l => ⟨l.cardinality?, l.baseType?⟩

/- The type of a number computed from two types of numbers. -/
def join : Option BaseType → Option BaseType → Option BaseType
  | some .integer, some .integer => some .integer
  | some a, some b =>
      if a.isNumeric && b.isNumeric then some .float else none
  | _, _ => none

/- Operators with integers for integers and floats otherwise. -/
def isArithmetic : Operator → Bool
  | .plain .sum | .plain .product | .plain .subtract
  | .plain .max | .plain .min => true
  | _ => false

end StaticType

mutual

/- What is certain about the values of an expression. -/
def Expression.staticType (lookup : String → Lookup) :
    Expression → StaticType
  | .leaf l => .ofLeaf lookup l
  | .node op args =>
      if StaticType.isArithmetic op then
        ⟨op.cardinality?,
          Expression.joined lookup (some .integer) args⟩
      else ⟨op.cardinality?, op.baseType?⟩

/- The types of arguments joined one by one. -/
def Expression.joined
    (lookup : String → Lookup)
    (type : Option BaseType) :
    List Expression → Option BaseType
  | [] => type
  | e :: rest =>
      let next := (Expression.staticType lookup e).baseType
      Expression.joined lookup (StaticType.join type next) rest

end

end Assessment
