import Assessment.Expression.Reader
import Assessment.Rule.Basic

/-
  Reading rules from package data.

  Key definitions include:
    * `Rule.ofJson`, a rule with the rules inside it
    * `Rule.listOfJson`, the rules of a list
-/

------------------------------------------------------------
-- Rules Without Rules Inside
------------------------------------------------------------

namespace Assessment

namespace Rule

/- The expression of a rule or a branch, by what owns it. -/
def expressionOfJson (owner : String) (v : Json) :
    Except Failure Expression :=
  match v.member? "expression" with
  | some e => Expression.ofJson e
  | none => .error (.malformed (.lacks owner "expression"))

/- What the parts of a rule that hold rules have been read as. -/
structure Parts where
  rules : Except Failure (List Rule)
  first : Except Failure (Expression × List Rule)
  others : Except Failure (List (Expression × List Rule))
  last : Except Failure (Option (List Rule))

/- The branches after the first as a chain. -/
def chainOf (last : Option (List Rule)) :
    List (Expression × List Rule) → Chain
  | [] =>
      match last with
      | some rules => .otherwise rules
      | none => .nothing
  | (test, rules) :: rest =>
      .branch test rules (chainOf last rest)

/- A rule from its fields and its parts. -/
def assemble (v : Json) (parts : Parts) : Except Failure Rule :=
  match v.stringField? "rule" with
  | none => .error (.malformed (.lacks "rule" "rule"))
  | some name =>
      match ProcessingKind.all.find? (·.condition == name),
          SetTarget.all.find? (·.ruleName == name),
          ExitKind.all.find? (·.ruleName == name),
          ProcessingKind.all.find? (·.fragment == name) with
      | some kind, _, _, _ => do
          if (v.member? "if").isNone then
            throw (.malformed (.lacks name "if"))
          let (test, rules) ← parts.first
          let others ← parts.others
          let last ← parts.last
          return .condition kind test rules
            (chainOf last others)
      | _, some target, _, _ => do
          let identifier ← v.requireString "identifier"
          return .setValue target identifier
            (← expressionOfJson name v)
      | _, _, some kind, _ => .ok (.exit kind)
      | _, _, _, some kind => do
          return .fragment kind (← parts.rules)
      | _, _, _, _ =>
          if name == "lookupOutcomeValue" then do
            let identifier ← v.requireString "identifier"
            return .lookup identifier
              (← expressionOfJson name v)
          else if name == "templateConstraint" then do
            return .constraint (← expressionOfJson name v)
          else .error (.unknownName "rule" name)

/- A rule without any rules inside it. -/
def assembleAlone (v : Json) : Except Failure Rule :=
  assemble v
    { rules := .ok []
      first := .error (.malformed (.lacks "rule" "if"))
      others := .ok []
      last := .ok none }

------------------------------------------------------------
-- Rules
------------------------------------------------------------

mutual

/- A rule from package data. -/
def ofJson : Json → Except Failure Rule
  | .object ms =>
      assemble (.object ms)
        { rules := rulesOfMembers ms
          first := firstOfMembers ms
          others := othersOfMembers ms
          last := lastOfMembers ms }
  | .null => assembleAlone .null
  | .bool b => assembleAlone (.bool b)
  | .number n => assembleAlone (.number n)
  | .string s => assembleAlone (.string s)
  | .array xs => assembleAlone (.array xs)

/- The rules among the members of an object. -/
def rulesOfMembers :
    List (String × Json) → Except Failure (List Rule)
  | [] => .ok []
  | (k, v) :: rest =>
      if k == "rules" then rulesOfJson v
      else rulesOfMembers rest

/- The rules that a member holds. -/
def rulesOfJson : Json → Except Failure (List Rule)
  | .null => .ok []
  | .array xs => listOfJson xs
  | _ => .error (.malformed (.notArray "rules"))

/- The rules of a list, the first failure winning. -/
def listOfJson : List Json → Except Failure (List Rule)
  | [] => .ok []
  | x :: rest => do
      let r ← ofJson x
      let rs ← listOfJson rest
      return r :: rs

/- A branch: its condition and its rules. -/
def branchOfJson (name : String) :
    Json → Except Failure (Expression × List Rule)
  | .object ms => do
      let test ←
        expressionOfJson (name ++ " branch") (.object ms)
      let rules ← rulesOfMembers ms
      return (test, rules)
  | _ =>
      .error (.malformed
        (.lacks (name ++ " branch") "expression"))

/- The first branch of a condition. -/
def firstOfMembers :
    List (String × Json) →
    Except Failure (Expression × List Rule)
  | [] => .error (.malformed (.lacks "condition" "if"))
  | (k, v) :: rest =>
      if k == "if" then branchOfJson "if" v
      else firstOfMembers rest

/- The further branches of a condition. -/
def othersOfMembers :
    List (String × Json) →
    Except Failure (List (Expression × List Rule))
  | [] => .ok []
  | (k, v) :: rest =>
      if k == "elseIf" then othersOfJson v
      else othersOfMembers rest

/- The further branches that a member holds. -/
def othersOfJson :
    Json → Except Failure (List (Expression × List Rule))
  | .null => .ok []
  | .array xs => branchesOfJson xs
  | _ => .error (.malformed (.notArray "elseIf"))

/- The branches of a list, the first failure winning. -/
def branchesOfJson :
    List Json → Except Failure (List (Expression × List Rule))
  | [] => .ok []
  | x :: rest => do
      let b ← branchOfJson "elseIf" x
      let bs ← branchesOfJson rest
      return b :: bs

/- The last branch of a condition, if it has one. -/
def lastOfMembers :
    List (String × Json) → Except Failure (Option (List Rule))
  | [] => .ok none
  | (k, v) :: rest =>
      if k == "else" then lastOfJson v
      else lastOfMembers rest

/- The last branch that a member holds. -/
def lastOfJson : Json → Except Failure (Option (List Rule))
  | .null => .ok none
  | .object ms => do
      let rules ← rulesOfMembers ms
      return some rules
  | _ => .ok (some [])

end

end Rule

end Assessment
