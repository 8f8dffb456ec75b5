import Assessment.Expression.Basic

/-
  Processing rules.

  Rules set variables, look values up, branch on conditions
  and end a run of processing.

  Key definitions include:
    * `ProcessingKind`, the three kinds of processing
    * `SetTarget`, what a rule writes to
    * `Rule`, with the `Chain` of branches of a condition
-/

------------------------------------------------------------
-- Kinds
------------------------------------------------------------

namespace Assessment

/- The kinds of processing that conditions belong to. -/
inductive ProcessingKind where
  | template
  | response
  | outcome
deriving DecidableEq, Repr

namespace ProcessingKind

/- The name of a kind. -/
def name : ProcessingKind → String
  | .template => "template"
  | .response => "response"
  | .outcome => "outcome"

/- The names of a condition and its branches. -/
def condition (k : ProcessingKind) : String :=
  k.name ++ "Condition"

def ifBranch (k : ProcessingKind) : String :=
  k.name ++ "If"

def elseIfBranch (k : ProcessingKind) : String :=
  k.name ++ "ElseIf"

def elseBranch (k : ProcessingKind) : String :=
  k.name ++ "Else"

/- The name of a fragment. -/
def fragment (k : ProcessingKind) : String :=
  k.name ++ "ProcessingFragment"

/- All kinds. -/
def all : List ProcessingKind :=
  [.template, .response, .outcome]

end ProcessingKind

/- What a rule writes to. -/
inductive SetTarget where
  | outcome
  | response
  | template
  /- The correct value of a response. -/
  | correctResponse
  /- The default of a response or an outcome. -/
  | defaultValue
deriving DecidableEq, Repr

namespace SetTarget

/- The name of the rule that writes to a target. -/
def ruleName : SetTarget → String
  | .outcome => "setOutcomeValue"
  | .response => "setResponseValue"
  | .template => "setTemplateValue"
  | .correctResponse => "setCorrectResponse"
  | .defaultValue => "setDefaultValue"

/- All targets. -/
def all : List SetTarget :=
  [.outcome, .response, .template, .correctResponse,
   .defaultValue]

/- Whether a target can be a variable of a family. -/
def allows (target : SetTarget) (kind : VariableKind) : Bool :=
  match target with
  | .outcome => kind == .outcome
  | .response | .correctResponse => kind == .response
  | .template => kind == .template
  | .defaultValue => kind != .template

end SetTarget

/- The rules that end a run of processing. -/
inductive ExitKind where
  | response
  | test
  | template
deriving DecidableEq, Repr

namespace ExitKind

/- The name of an exit rule. -/
def ruleName : ExitKind → String
  | .response => "exitResponse"
  | .test => "exitTest"
  | .template => "exitTemplate"

/- All exit rules. -/
def all : List ExitKind :=
  [.response, .test, .template]

end ExitKind

------------------------------------------------------------
-- Rules
------------------------------------------------------------

mutual

/- A step of processing. -/
inductive Rule where
  | condition
      (kind : ProcessingKind)
      (test : Expression)
      (rules : List Rule)
      (rest : Chain)
  | setValue
      (target : SetTarget)
      (identifier : String)
      (value : Expression)
  /- Sets an outcome to what its table has for a value. -/
  | lookup (identifier : String) (value : Expression)
  | exit (kind : ExitKind)
  /- Starts a run over unless an expression is true. -/
  | constraint (test : Expression)
  | fragment (kind : ProcessingKind) (rules : List Rule)

/- What follows the first branch of a condition. -/
inductive Chain where
  | branch (test : Expression) (rules : List Rule) (rest : Chain)
  | otherwise (rules : List Rule)
  | nothing

end

instance : Inhabited Rule := ⟨.exit .response⟩

/- The name of a rule. -/
def Rule.name : Rule → String
  | .condition kind .. => kind.condition
  | .setValue target .. => target.ruleName
  | .lookup .. => "lookupOutcomeValue"
  | .exit kind => kind.ruleName
  | .constraint _ => "templateConstraint"
  | .fragment kind _ => kind.fragment

end Assessment
