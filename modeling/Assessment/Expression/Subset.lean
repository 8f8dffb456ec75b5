import Assessment.Scope.Basic
import Assessment.Value.Reader

/-
  What a test computes over the items it has selected.

  A subset names a section and categories of items, and says
  what is counted or collected over the items that match.

  Key definitions include:
    * `ItemSubset` and its reader `ItemSubset.ofJson?`
    * `ItemSubset.selects`, whether an item belongs to it
    * `ItemSubset.value`, what is computed
-/

------------------------------------------------------------
-- Subsets
------------------------------------------------------------

namespace Assessment

/- What is computed over the items of a subset. -/
inductive SubsetKind where
  | numberCorrect
  | numberIncorrect
  | numberPresented
  | numberResponded
  | numberSelected
  | outcomeMinimum (outcome : String) (weight : Option String)
  | outcomeMaximum (outcome : String) (weight : Option String)
  | testVariables
      (identifier : String)
      (weight : Option String)
      (type : Option BaseType)
deriving DecidableEq, Repr

/- The items concerned and what is computed over them. -/
structure ItemSubset where
  kind : SubsetKind
  within : Option String
  included : List String
  excluded : List String
deriving DecidableEq, Repr

namespace SubsetKind

/- The name of the expression. -/
def name : SubsetKind → String
  | .numberCorrect => "numberCorrect"
  | .numberIncorrect => "numberIncorrect"
  | .numberPresented => "numberPresented"
  | .numberResponded => "numberResponded"
  | .numberSelected => "numberSelected"
  | .outcomeMinimum .. => "outcomeMinimum"
  | .outcomeMaximum .. => "outcomeMaximum"
  | .testVariables .. => "testVariables"

/- The cardinality of the values. -/
def cardinality : SubsetKind → Cardinality
  | .outcomeMinimum .. | .outcomeMaximum ..
  | .testVariables .. => .multiple
  | _ => .single

/- The base type of the values, if it is certain. -/
def baseType? : SubsetKind → Option BaseType
  | .outcomeMinimum .. | .outcomeMaximum .. => some .float
  | .testVariables _ _ t => t
  | _ => some .integer

/- The kind with a name, read with its fields. -/
def ofJson? (name : String) (v : Json) :
    Except Failure (Option SubsetKind) := do
  let weight := v.stringField? "weightIdentifier"
  match name with
  | "numberCorrect" => return some .numberCorrect
  | "numberIncorrect" => return some .numberIncorrect
  | "numberPresented" => return some .numberPresented
  | "numberResponded" => return some .numberResponded
  | "numberSelected" => return some .numberSelected
  | "outcomeMinimum" =>
      let outcome ← v.requireString "outcomeIdentifier"
      return some (.outcomeMinimum outcome weight)
  | "outcomeMaximum" =>
      let outcome ← v.requireString "outcomeIdentifier"
      return some (.outcomeMaximum outcome weight)
  | "testVariables" =>
      let identifier ← v.requireString "variableIdentifier"
      match v.stringField? "baseType" with
      | none =>
          return some (.testVariables identifier weight none)
      | some name =>
          let type ← BaseType.parse name
          return some
            (.testVariables identifier weight (some type))
  | _ => return none

end SubsetKind

namespace ItemSubset

/- The subset with a name, read with its fields. -/
def ofJson? (name : String) (v : Json) :
    Except Failure (Option ItemSubset) := do
  match ← SubsetKind.ofJson? name v with
  | none => return none
  | some kind =>
      let included ← v.stringList "includeCategory"
      let excluded ← v.stringList "excludeCategory"
      return some
        { kind := kind
          within := v.stringField? "sectionIdentifier"
          included := included
          excluded := excluded }

/- Whether an item belongs to a subset. -/
def selects (s : ItemSubset) (v : ItemView) : Bool :=
  let inSection :=
    match s.within with
    | some name => v.sections.contains name
    | none => true
  inSection &&
    (s.included.isEmpty ||
      s.included.any v.categories.contains) &&
    !s.excluded.any v.categories.contains

------------------------------------------------------------
-- Values
------------------------------------------------------------

/- The number of items with a property. -/
def count (items : List ItemView) (p : ItemView → Bool) :
    Value :=
  .integer (Int64.ofNat (items.filter p).length)

/- The weight with an optional name, or one. -/
def weightOf (v : ItemView) (weight : Option String) : Float :=
  (weight.bind v.weights.get?).getD 1

/- The declared bound of an outcome, weighted. -/
def weightedBound?
    (bound : Declaration → Option Float)
    (outcome : String)
    (weight : Option String)
    (v : ItemView) :
    Option Scalar :=
  ((findDeclaration? v.declarations outcome).bind bound).map
    fun x => .float (x * weightOf v weight)

/- The bounds of an outcome over items, if all have one. -/
def bounds
    (bound : Declaration → Option Float)
    (outcome : String)
    (weight : Option String)
    (items : List ItemView) :
    Value :=
  match items.mapM (weightedBound? bound outcome weight) with
  | some xs => .multipleOf .float xs
  | none => .null

/- Whether a single value is one that is collected. -/
def isWanted (type : Option BaseType) (s : Scalar) : Bool :=
  match type with
  | some t => s.baseType == t
  | none => s.baseType.isNumeric

/- A single value, weighted where a weight is given. -/
def weighted
    (v : ItemView)
    (weight : Option String)
    (type : Option BaseType)
    (s : Scalar) :
    Scalar :=
  match weight, s.number? with
  | some _, some x =>
      if type.isNone || type == some .float then
        .float (x * weightOf v weight)
      else s
  | _, _ => s

/- The value that an item adds to those collected. -/
def collected?
    (identifier : String)
    (weight : Option String)
    (type : Option BaseType)
    (v : ItemView) :
    Option Scalar :=
  match v.value? identifier with
  | some (.single s) =>
      if isWanted type s then some (weighted v weight type s)
      else none
  | _ => none

/-
  The values of a variable over items. Without a base type
  numbers are collected, and one float turns all into floats.
-/
def collect
    (identifier : String)
    (weight : Option String)
    (type : Option BaseType)
    (items : List ItemView) :
    Value :=
  let xs := items.filterMap (collected? identifier weight type)
  match type with
  | some t => .multipleOf t xs
  | none =>
      if xs.any fun s => s.baseType == .float then
        .multipleOf .float (xs.map Scalar.promote)
      else .multipleOf .integer xs

/- What a subset computes over the items of a test. -/
def value (s : ItemSubset) (test : TestView) : Value :=
  let items := test.items.filter s.selects
  match s.kind with
  | .numberSelected => count test.items fun _ => true
  | .numberPresented => count items ItemView.presented
  | .numberResponded => count items ItemView.responded
  | .numberCorrect =>
      count items fun v => v.correct == some true
  | .numberIncorrect => count items ItemView.incorrect
  | .outcomeMaximum outcome weight =>
      bounds Declaration.normalMaximum? outcome weight items
  | .outcomeMinimum outcome weight =>
      bounds Declaration.normalMinimum? outcome weight items
  | .testVariables identifier weight type =>
      collect identifier weight type items

end ItemSubset

end Assessment
