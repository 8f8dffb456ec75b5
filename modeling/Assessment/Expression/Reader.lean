import Assessment.Declaration.Reader
import Assessment.Expression.Basic

/-
  Reading expressions from package data.

  Key definitions include:
    * `Leaf.ofJson?` and `Operator.ofJson?`
    * `Expression.ofJson`, an expression with its arguments
-/

------------------------------------------------------------
-- Leaves
------------------------------------------------------------

namespace Assessment

/- An integer field that an expression must have. -/
def Json.requireInt64 (v : Json) (owner field : String) :
    Except Failure Int64 :=
  match v.int64Field? field with
  | some n => .ok n
  | none =>
      .error (.malformed (.lacksTyped owner "integer" field))

namespace Leaf

/- A value written into an expression. -/
def baseOfJson (v : Json) : Except Failure Leaf := do
  let type ← BaseType.parse (← v.requireString "baseType")
  match v.member? "value" with
  | none => throw (.malformed (.lacks "baseValue" "value"))
  | some w => return .base (← Value.ofJson .single type w)

/- The leaf with a name, read with its fields. -/
def ofJson? (name : String) (v : Json) :
    Except Failure (Option Leaf) := do
  if let some s ← ItemSubset.ofJson? name v then
    return some (.items s)
  match name with
  | "baseValue" => return some (← baseOfJson v)
  | "variable" =>
      let identifier ← v.requireString "identifier"
      return some
        (.fetch identifier (v.stringField? "weightIdentifier"))
  | "default" =>
      return some (.initial (← v.requireString "identifier"))
  | "correct" =>
      return some (.correct (← v.requireString "identifier"))
  | "null" => return some .null
  | "mapResponse" =>
      return some
        (.mapResponse (← v.requireString "identifier"))
  | "mapResponsePoint" =>
      return some (.mapPoints (← v.requireString "identifier"))
  | "randomInteger" =>
      let min := (v.int64Field? "min").getD 0
      let max ← v.requireInt64 name "max"
      let step := (v.int64Field? "step").getD 1
      return some (.randomInteger min max step)
  | "randomFloat" =>
      let min := (v.floatField? "min").getD 0
      match v.floatField? "max" with
      | some max => return some (.randomFloat min max)
      | none => throw (.malformed (.lacks name "max"))
  | "mathConstant" =>
      let c ← MathConstant.parse (← v.requireString "name")
      return some (.constant c)
  | _ => return none

end Leaf

------------------------------------------------------------
-- Operators
------------------------------------------------------------

/- Tolerances, given as a list or as a single one. -/
def Tolerance.amountsOfJson (v : Json) :
    Except Failure (List Float) :=
  let numbers (xs : List Json) :=
    match xs.mapM Json.float? with
    | some amounts => Except.ok amounts
    | none => .error (.malformed .toleranceNotNumeric)
  match v.present? "tolerance" with
  | none => .ok []
  | some (.array xs) => numbers xs
  | some x => numbers [x]

/- A tolerance, which is exact unless a mode is given. -/
def Tolerance.ofJson (v : Json) : Except Failure Tolerance := do
  let mode ←
    match v.stringField? "toleranceMode" with
    | some name => ToleranceMode.parse name
    | none => pure .exact
  let amounts ← amountsOfJson v
  return {
    mode := mode
    amounts := amounts
    includesLower := v.boolField "includeLowerBound" true
    includesUpper := v.boolField "includeUpperBound" true }

namespace Operator

/- The mode and the figures of a rounding. -/
def roundingOfJson (name : String) (v : Json) :
    Except Failure (RoundingMode × Int64) := do
  let mode ←
    match v.stringField? "roundingMode" with
    | some name => RoundingMode.parse name
    | none => pure .significantFigures
  return (mode, ← v.requireInt64 name "figures")

/- A pattern, which must be well formed once anchored. -/
def patternOfJson (v : Json) : Except Failure Operator := do
  let text ← v.requireString "pattern"
  match Pattern.parse? (Pattern.anchored text) with
  | some pattern => return .patternMatch text pattern
  | none => throw (.malformed (.badPattern text))

/- The operator with a name, read with its fields. -/
def ofJson? (name : String) (v : Json) :
    Except Failure (Option Operator) := do
  if let some op := PlainOperator.ofName? name then
    return some (.plain op)
  match name with
  | "mathOperator" =>
      let op ← MathOperator.parse (← v.requireString "name")
      return some (.math op)
  | "statsOperator" =>
      let op ← StatsOperator.parse (← v.requireString "name")
      return some (.stats op)
  | "equal" => return some (.equal (← Tolerance.ofJson v))
  | "equalRounded" =>
      let (mode, figures) ← roundingOfJson name v
      return some (.equalRounded mode figures)
  | "roundTo" =>
      let (mode, figures) ← roundingOfJson name v
      return some (.roundTo mode figures)
  | "anyN" =>
      let min ← v.requireInt64 name "min"
      let max ← v.requireInt64 name "max"
      return some (.anyN min max)
  | "inside" =>
      let shape ← Shape.parse (← v.requireString "shape")
      let coords ← Json.coords (v.member? "coords")
      return some (.inside shape coords)
  | "stringMatch" =>
      return some
        (.stringMatch (v.boolField "caseSensitive" true)
          (v.boolField "substring" false))
  | "patternMatch" => return some (← patternOfJson v)
  | "index" => return some (.index (← v.requireInt64 name "n"))
  | "fieldValue" =>
      return some
        (.fieldValue (← v.requireString "fieldIdentifier"))
  | _ => return none

end Operator

------------------------------------------------------------
-- Expressions
------------------------------------------------------------

namespace Expression

/-
  An expression from its fields. The arguments have been read
  already; their failure counts after all others.
-/
def assemble
    (v : Json)
    (args : Except Failure (List Expression)) :
    Except Failure Expression := do
  match v.stringField? "expr" with
  | none => throw (.malformed (.lacks "expression" "expr"))
  | some name =>
      match ← Operator.ofJson? name v with
      | some op => return .node op (← args)
      | none =>
          match ← Leaf.ofJson? name v with
          | some l => return .leaf l
          | none => throw (.unknownName "expression" name)

mutual

/- An expression from package data. -/
def ofJson : Json → Except Failure Expression
  | .object ms => assemble (.object ms) (argsOfMembers ms)
  | .null => assemble .null (.ok [])
  | .bool b => assemble (.bool b) (.ok [])
  | .number n => assemble (.number n) (.ok [])
  | .string s => assemble (.string s) (.ok [])
  | .array xs => assemble (.array xs) (.ok [])

/- The arguments among the members of an object. -/
def argsOfMembers :
    List (String × Json) → Except Failure (List Expression)
  | [] => .ok []
  | (k, v) :: rest =>
      if k == "args" then argsOfJson v else argsOfMembers rest

/- The arguments that a member holds. -/
def argsOfJson : Json → Except Failure (List Expression)
  | .null => .ok []
  | .array xs => allOfJson xs
  | _ => .error (.malformed (.notArray "args"))

/- Expressions in a row, the first failure winning. -/
def allOfJson : List Json → Except Failure (List Expression)
  | [] => .ok []
  | x :: rest => do
      let e ← ofJson x
      let es ← allOfJson rest
      return e :: es

end

end Expression

end Assessment
