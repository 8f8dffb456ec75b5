import Assessment.Expression.Evaluation
import Assessment.Rule.Basic

/-
  Execution of rules.

  Rules run from the first to the last. An exit rule ends the
  run, and a constraint that is not true asks for another run.
  A value that does not fit its target is reported and not
  written.

  Key definitions include:
    * `Stage`, what rules work on, and `Run`
    * `Outcome`, how a run ends
    * `Rule.execute` and `Rule.executeAll`
-/

------------------------------------------------------------
-- Runs
------------------------------------------------------------

namespace Assessment

/- The variables, and the tally of what has been evaluated. -/
structure Stage where
  scope : Scope
  tally : Tally

/- An execution, which may fail. -/
abbrev Run := ExceptT Failure (StateM Stage)

/- How a run of rules ends. -/
inductive Outcome where
  | continue
  | exit
  /- The run has to start over. -/
  | retry
deriving DecidableEq, Repr

namespace Run

/- Runs an execution. -/
def run (x : Run α) (s : Stage) : Except Failure α × Stage :=
  StateT.run (ExceptT.run x) s

/- Evaluates something that reads the variables. -/
def step (f : Scope → Step α) : Run α :=
  ExceptT.mk fun s =>
    let (a, t) := (f s.scope).run s.tally
    (a, { s with tally := t })

/- The variables as they are. -/
def scope : Run Scope := do
  return (← get).scope

/- Changes the variables, or fails. -/
def write (f : Scope → Except Failure Scope) : Run Unit :=
  ExceptT.mk fun s =>
    match f s.scope with
    | .ok scope => (.ok (), { s with scope := scope })
    | .error e => (.error e, s)

/- Leaves a warning. -/
def warn (message : String) : Run Unit :=
  step fun scope => Step.warn scope.source message

/- Leaves a note of a level. -/
def note (level : Level) (message : String) : Run Unit :=
  step fun scope =>
    Step.note ⟨level, scope.source, message⟩

end Run

------------------------------------------------------------
-- Writing
------------------------------------------------------------

/-
  The value that a target takes, once it has been checked
  against the declaration, or what is wrong with it.
-/
def SetTarget.check
    (target : SetTarget)
    (identifier : String)
    (declaration : Option Declaration)
    (v : Value) :
    Except String Value :=
  match declaration with
  | none =>
      .error (target.ruleName ++ ": undeclared variable '" ++
        identifier ++ "'")
  | some d =>
      let v := d.coerce v
      if !target.allows d.kind then
        .error (target.ruleName ++ ": '" ++ identifier ++
          "' is a " ++ d.kind.name ++ " variable")
      else if !d.accepts v then
        .error (target.ruleName ++ ": " ++ v.describe ++
          " value does not fit '" ++ identifier ++ "' (" ++
          d.cardinality.name ++ " " ++ d.typeName ++ ")")
      else .ok v

/- Writes a value to a target. -/
def SetTarget.put
    (target : SetTarget)
    (identifier : String)
    (v : Value)
    (s : Scope) :
    Except Failure Scope :=
  match target with
  | .correctResponse => s.setCorrect identifier v
  | .defaultValue => s.setDefault identifier v
  | .outcome | .response | .template => s.setValue identifier v

/- Writes a value if it fits, and reports it if not. -/
def SetTarget.assign
    (target : SetTarget)
    (identifier : String)
    (v : Value) :
    Run Unit := do
  let scope ← Run.scope
  match target.check identifier (scope.declaration? identifier)
      v with
  | .ok v => Run.write (target.put identifier v)
  | .error message => Run.warn message

/- Sets an outcome to what its table has for a value. -/
def assignLookup (identifier : String) (source : Value) :
    Run Unit := do
  let scope ← Run.scope
  match scope.declaration? identifier with
  | none =>
      Run.warn ("lookupOutcomeValue: undeclared outcome '" ++
        identifier ++ "'")
  | some d =>
      match d.table? with
      | none =>
          Run.warn ("lookupOutcomeValue: outcome '" ++
            identifier ++ "' has no lookup table")
      | some table =>
          Run.write fun s =>
            s.setValue identifier
              (d.coerce (d.lookup table source))

------------------------------------------------------------
-- Rules
------------------------------------------------------------

namespace Rule

/- The value of an expression over the variables. -/
def valueOf (engine : Engine) (e : Expression) : Run Value :=
  Run.step fun scope => e.evaluate engine scope

mutual

/- Executes a rule. -/
def execute (engine : Engine) : Rule → Run Outcome
  | .condition _ test rules rest => do
      let v ← valueOf engine test
      if v.isTrue then executeAll engine rules
      else executeChain engine rest
  | .setValue target identifier e => do
      let v ← valueOf engine e
      target.assign identifier v
      return .continue
  | .lookup identifier e => do
      let v ← valueOf engine e
      assignLookup identifier v
      return .continue
  | .exit _ => return .exit
  | .constraint test => do
      let v ← valueOf engine test
      return if v.isTrue then .continue else .retry
  | .fragment _ rules => executeAll engine rules

/- Executes rules until one of them ends the run. -/
def executeAll (engine : Engine) : List Rule → Run Outcome
  | [] => return .continue
  | r :: rest => do
      let outcome ← execute engine r
      if outcome == .continue then executeAll engine rest
      else return outcome

/- Executes the first branch whose condition is true. -/
def executeChain (engine : Engine) : Chain → Run Outcome
  | .branch test rules rest => do
      let v ← valueOf engine test
      if v.isTrue then executeAll engine rules
      else executeChain engine rest
  | .otherwise rules => executeAll engine rules
  | .nothing => return .continue

end

end Rule

end Assessment
