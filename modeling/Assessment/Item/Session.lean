import Assessment.Clock.Timer
import Assessment.Engine.Basic
import Assessment.Failure
import Assessment.Item.Basic
import Assessment.Rule.Execution
import Assessment.Test.Control

/-
  Item sessions.

  A session is initialized, entered, suspended and resumed,
  and in the end finished. Each submission binds responses,
  runs response processing and then checks whether the
  session is over. What a step has done stays even when it
  fails later on.

  The state of an item session.

  Key definitions include:
    * `ItemState`, the flags, times and bindings
    * `ItemState.phase`, where the session is in its life
    * `ItemSession` and `Action`, a step of a session
    * `initialise`, which runs template processing
    * `enter`, `suspend`, `resume`, `finish` and `exit`
    * `bindResponses`, `processResponses` and `submit`
    * the judgements `isCorrect?`, `isAttemptAllowed` and
      `isOver`
-/

------------------------------------------------------------
-- States
------------------------------------------------------------

namespace Assessment

/-
  What an item session has come to. Variables of all families
  share one set of bindings.
-/
structure ItemState where
  initialized : Bool := false
  presented : Bool := false
  responded : Bool := false
  skipped : Bool := false
  timedOut : Bool := false
  suspended : Bool := false
  finished : Bool := false
  exited : Bool := false
  /- Whether bound responses wait to be processed. -/
  pending : Bool := false
  entryTime : Option Instant := none
  endTime : Option Instant := none
  timer : Timer := .new
  values : Bindings := []
  defaults : Bindings := []
  corrects : Bindings := []
  /- Responses that could not be bound. -/
  unbound : List String := []
  /- Responses that do not fit their declarations. -/
  invalid : List String := []

namespace ItemState

/- Where a session is in its life. -/
def phase (s : ItemState) : Phase :=
  if s.finished then .finished
  else if s.suspended then .suspended
  else if s.entryTime.isSome then .interacting
  else if s.initialized then .initialized
  else .notAttempted

/- The value bound to an identifier, or NULL. -/
def value (s : ItemState) (identifier : String) : Value :=
  (s.values.get? identifier).getD .null

/- The number of attempts. -/
def attempts (s : ItemState) : Int64 :=
  ((s.values.get? Builtin.numAttempts).bind
    Value.int64?).getD 0

/- The completion status. -/
def completion? (s : ItemState) : Option String :=
  (s.values.get? Builtin.completionStatus).bind
    Value.identifier?

/- Whether all responses of the last attempt fit. -/
def respondedValidly (s : ItemState) : Bool :=
  s.responded && s.unbound.isEmpty && s.invalid.isEmpty

/- Binds a value. -/
def bind (s : ItemState) (identifier : String) (v : Value) :
    ItemState :=
  { s with values := s.values.put identifier v }

/- Binds the time that the timer shows. -/
def syncDuration (s : ItemState) : ItemState :=
  s.bind Builtin.duration (.float s.timer.seconds)

end ItemState

------------------------------------------------------------
-- Sessions
------------------------------------------------------------

/- A session of one candidate on one item. -/
structure ItemSession where
  item : Item
  engine : Engine
  control : Control
  timeLimits : Option TimeLimits
  submission : SubmissionMode
  state : ItemState
  tally : Tally
  events : List Event

/- What became of a submission. -/
structure Submission where
  /- Responses that could not be bound. -/
  unbound : List String := []
  /- Responses that do not fit their declarations. -/
  invalid : List String := []
  processed : Bool := false
  /- Whether the session was closed for lack of time. -/
  timedOut : Bool := false
deriving DecidableEq, Repr

/- A step of an item session, which may be refused. -/
abbrev Action := ExceptT Failure (StateM ItemSession)

namespace ItemSession

/- A session that has not been initialized. -/
def new (item : Item) (engine : Engine) (draws : Draws) :
    ItemSession :=
  { item := item
    engine := engine
    control := {}
    timeLimits := none
    submission := .individual
    state := {}
    tally := ⟨draws, []⟩
    events := [] }

/- Runs a step. -/
def run (x : Action α) (s : ItemSession) :
    Except Failure α × ItemSession :=
  StateT.run (ExceptT.run x) s

/- The value of a declared variable. -/
def value? (s : ItemSession) (identifier : String) :
    Option Value :=
  (s.item.declaration? identifier).map fun _ =>
    s.state.value identifier

/- The greatest number of attempts, zero for no limit. -/
def maxAttempts (s : ItemSession) : Int64 :=
  s.control.attempts s.engine.settings.maxAttempts

/- The variables as rules see them. -/
def scope (s : ItemSession) : Scope :=
  { source := s.item.identifier
    declarations := s.item.declarations
    values := s.state.values
    defaults := s.state.defaults
    corrects := s.state.corrects
    test := none }

/- Takes over what rules have done. -/
def takeOver (s : ItemSession) (stage : Stage) : ItemSession :=
  { s with
    tally := stage.tally
    state := {
      s.state with
      values := stage.scope.values
      defaults := stage.scope.defaults
      corrects := stage.scope.corrects } }

/- Changes the state. -/
def changeState (f : ItemState → ItemState) : Action Unit :=
  modify fun s => { s with state := f s.state }

/- The state. -/
def getState : Action ItemState := do
  return (← get).state

/- Runs rules over the variables of the session. -/
def runRules (x : Run α) : Action α :=
  ExceptT.mk fun s =>
    let (a, stage) := x.run ⟨s.scope, s.tally⟩
    (a, s.takeOver stage)

/- Announces the start and, whatever comes, the end. -/
def announced (activity : Activity) (x : Action α) : Action α :=
  ExceptT.mk fun s =>
    let (a, t) :=
      run x { s with events := s.events ++ [.starting activity] }
    (a, { t with events := t.events ++ [.finished activity] })

/- Refuses a step. -/
def refuse (cause : Refusal) : Action α :=
  throw (.refused cause)

/- Goes on only if the session has been initialized. -/
def ensureInitialized : Action Unit := do
  unless (← getState).initialized do
    throw .notInitialized

/- Goes on only if the session is not over. -/
def ensureOpen : Action Unit := do
  ensureInitialized
  let s ← get
  if s.state.finished then
    refuse (.itemFinished s.item.identifier)

------------------------------------------------------------
-- Initialization
------------------------------------------------------------

/- Gives variables their defaults. -/
def resetAll : List Declaration → Run Unit
  | [] => pure ()
  | d :: rest => do
      Run.write fun s =>
        s.setValue d.identifier
          ((s.default? d.identifier).getD .null)
      resetAll rest

/- Whether an identifier names a template variable. -/
def namesTemplate (s : Scope) (identifier : String) : Bool :=
  (s.declaration? identifier).any fun d => d.kind == .template

/- Takes over defaults of template variables. -/
def takeDefaults (engine : Engine) :
    List TemplateDefault → Run Unit
  | [] => pure ()
  | d :: rest => do
      if namesTemplate (← Run.scope) d.identifier then
        let v ← Rule.valueOf engine d.value
        Run.write fun s => s.setDefault d.identifier v
      else
        Run.warn ("templateDefault: '" ++ d.identifier ++
          "' is not a template variable")
      takeDefaults engine rest

/-
  Runs template processing until its constraints hold, at
  most `left` more times. Gives the number of runs, `runs` of
  them already made. Beyond the limit the template variables
  keep their defaults.
-/
def processTemplates
    (engine : Engine)
    (item : Item) :
    Nat → Nat → Run Nat
  | 0, runs => do
      resetAll item.templates
      Run.warn ("template processing failed its constraints " ++
        toString runs ++
        " times; template variables keep their defaults")
      return runs + 1
  | left + 1, runs => do
      resetAll item.templates
      match ← Rule.executeAll engine item.templateProcessing with
      | .retry => processTemplates engine item left (runs + 1)
      | .continue | .exit => return runs + 1

/- Gives all variables their first values. -/
def prepare
    (engine : Engine)
    (item : Item)
    (defaults : List TemplateDefault) :
    Run Unit := do
  takeDefaults engine defaults
  let runs ←
    processTemplates engine item engine.settings.templateLimit 0
  if 1 < runs then
    Run.note .info
      ("template processing ran " ++ toString runs ++ " times")
  resetAll (item.declarations.filter fun d =>
    d.kind != .template)
  Run.write fun s => s.setValue Builtin.numAttempts (.integer 0)
  Run.write fun s => s.setValue Builtin.duration (.float 0)

/- Binds every variable and runs template processing. -/
def initialise (defaults : List TemplateDefault) :
    Action Unit := do
  if (← getState).initialized then
    throw .alreadyInitialized
  announced .itemInitialisation do
    let s ← get
    runRules (prepare s.engine s.item defaults)
    changeState fun s => { s with initialized := true }

------------------------------------------------------------
-- Life
------------------------------------------------------------

/- Presents the item and starts the clock. -/
def enter (now : Instant) : Action Unit := do
  ensureOpen
  let s ← get
  if s.state.entryTime.isSome then
    refuse (.itemEntered s.item.identifier)
  changeState fun s =>
    { s with
      entryTime := some now
      presented := true
      timer := s.timer.start now
      values := s.values.put Builtin.completionStatus
        (.identifier Builtin.unknown) }

/- Puts the session aside. -/
def suspend (now : Instant) : Action Unit := do
  ensureInitialized
  let s ← getState
  if s.phase != .interacting then
    refuse (.cannotSuspend s.phase)
  changeState fun s =>
    { s with timer := s.timer.stop now
             suspended := true }.syncDuration

/- Takes the session up again. -/
def resume (now : Instant) : Action Unit := do
  ensureInitialized
  let s ← getState
  if s.phase != .suspended then
    refuse (.cannotResume s.phase)
  changeState fun s =>
    { s with suspended := false
             timer := s.timer.start now }

/- Brings the time spent up to date. -/
def touch (now : Instant) : Action Unit :=
  changeState fun s =>
    { s with timer := s.timer.touch now }.syncDuration

/- Closes the session. -/
def finish (now : Instant) : Action Unit := do
  ensureOpen
  changeState fun s =>
    { s with
      timer := s.timer.stop now
      suspended := false
      finished := true
      endTime := some now }.syncDuration

/- Closes the session for good. -/
def exit (now : Instant) : Action Unit := do
  ensureInitialized
  unless (← getState).finished do
    finish now
  changeState fun s => { s with exited := true }

/- Moves on without a response. -/
def skip (now : Instant) : Action Unit := do
  ensureOpen
  let s ← get
  unless s.control.allowsSkipping do
    refuse (.noSkipping s.item.identifier)
  if s.state.responded then
    refuse (.alreadyResponded s.item.identifier)
  changeState fun s => { s with skipped := true }
  finish now

/- Closes the session because its time is up. -/
def timeOut (now : Instant) : Action Unit := do
  ensureOpen
  changeState fun s => { s with timedOut := true }
  finish now

------------------------------------------------------------
-- Judgements
------------------------------------------------------------

/- The correct value of a response, unless it is NULL. -/
def correct? (s : ItemSession) (d : Declaration) :
    Option Value :=
  ((s.state.corrects.get? d.identifier).or d.correct?).filter
    fun v => !v.isNull

/- Whether a response is correct, if that is known. -/
def responseCorrect? (s : ItemSession) (d : Declaration) :
    Option Bool :=
  (s.correct? d).map fun v =>
    v.equals (s.state.value d.identifier)

/- Whether all responses are correct, if that is known. -/
def isCorrect? (s : ItemSession) : Option Bool :=
  (s.item.authoredResponses.mapM s.responseCorrect?).map
    fun answers => answers.all id

/- Whether some response is incorrect, if that is known. -/
def isIncorrect? (s : ItemSession) : Option Bool :=
  s.isCorrect?.map (!·)

/- The number of correct responses. -/
def countCorrect (s : ItemSession) : Nat :=
  (s.item.authoredResponses.filter fun d =>
    s.responseCorrect? d == some true).length

/- The number of responses not known to be correct. -/
def countIncorrect (s : ItemSession) : Nat :=
  (s.item.authoredResponses.filter fun d =>
    s.responseCorrect? d != some true).length

/- Whether the item counts as completed. -/
def isCompleted (s : ItemSession) : Bool :=
  s.state.completion? == some Builtin.completed

/-
  Whether the session is over after an attempt: an adaptive
  item once it is completed, and others when they are correct
  or out of attempts.
-/
def isOver (s : ItemSession) : Bool :=
  if s.item.adaptive then s.isCompleted
  else
    s.submission == .simultaneous ||
      s.isCorrect? == some true ||
      (s.maxAttempts != 0 &&
        s.maxAttempts ≤ s.state.attempts)

/- Whether there may be another attempt. -/
def isAttemptAllowed (s : ItemSession) : Bool :=
  if s.item.adaptive then !s.isCompleted
  else s.maxAttempts == 0 || s.state.attempts < s.maxAttempts

/- The limits of the item beside the time spent on it. -/
def timed (s : ItemSession) : Timed :=
  ⟨s.timeLimits, s.state.timer.seconds⟩

/- Responses whose values do not fit their declarations. -/
def invalidResponses (s : ItemSession) : List String :=
  sortedNames
    ((s.item.authoredResponses.filter fun d =>
      !d.accepts (s.state.value d.identifier)).map
        Declaration.identifier)

------------------------------------------------------------
-- Responses
------------------------------------------------------------

/- Single values from texts, if all can be read. -/
def parseAll? (type : BaseType) :
    List String → Option (List Scalar)
  | [] => some []
  | text :: rest =>
      match Scalar.parse? type text, parseAll? type rest with
      | some s, some ss => some (s :: ss)
      | _, _ => none

/- The value that texts give a response, if they fit it. -/
def responseValue?
    (item : Item)
    (identifier : String)
    (texts : List String) :
    Option Value := do
  let d ← item.declaration? identifier
  if d.kind != .response || Builtin.isBuiltin identifier then
    none
  else
    let type ← d.baseType
    if d.cardinality == .record then none
    else
      let scalars ← parseAll? type texts
      (Value.ofList d.cardinality type scalars).toOption

/- Responses under the identifiers they answer. -/
abbrev Responses := Keyed (List String)

/- Sets the responses of controls that end attempts to false. -/
def clearControls (item : Item) (b : Bindings) : Bindings :=
  item.endAttempts.foldl
    (fun b e =>
      match item.declaration? e.response with
      | some _ => b.put e.response (.boolean false)
      | none => b)
    b

/- Binds the responses that fit; names those that do not. -/
def bindEach (item : Item) (b : Bindings) :
    Responses → Bindings × List String
  | [] => (b, [])
  | (identifier, texts) :: rest =>
      match responseValue? item identifier texts with
      | some v => bindEach item (b.put identifier v) rest
      | none =>
          let (b, unbound) := bindEach item b rest
          (b, identifier :: unbound)

/-
  Binds responses, and gives those that could not be bound.
  Their variables keep their values.
-/
def bindResponses (responses : Responses) :
    Action (List String) := do
  ensureOpen
  let s ← get
  let cleared := clearControls s.item s.state.values
  let (values, unbound) := bindEach s.item cleared responses
  changeState fun s =>
    { s with
      values := values
      responded := s.responded || !responses.isEmpty
      pending := true
      unbound := unbound }
  modify fun s =>
    { s with state := {
        s.state with invalid := s.invalidResponses } }
  return unbound

/- Whether an attempt with the bound responses counts. -/
def countsAttempt (s : ItemSession) : Bool :=
  match s.item.endAttempts.find? fun e =>
      (s.state.value e.response).isTrue with
  | some e => e.counts
  | none => true

/- Resets the outcomes if need be, and runs the rules. -/
def respond (engine : Engine) (item : Item) : Run Unit := do
  unless item.adaptive do
    resetAll (item.outcomes.filter fun d =>
      !Builtin.isBuiltin d.identifier)
  let _ ← Rule.executeAll engine item.responseProcessing

/-
  Runs response processing. Items that are not adaptive start
  from the defaults of their outcomes at every attempt.
-/
def processResponses : Action Unit := do
  ensureInitialized
  announced .itemResponseProcessing do
    let s ← get
    if s.countsAttempt then
      changeState fun s =>
        s.bind Builtin.numAttempts (.integer (s.attempts + 1))
    runRules (respond s.engine s.item)
    changeState fun s => { s with pending := false }

/-
  Binds responses, processes them and closes the session when
  it is over. Nothing is processed when a response cannot be
  bound, when an invalid one must not be processed, or when
  responses wait for the end of the part.
-/
def submit (responses : Responses) (now : Instant) :
    Action Submission := do
  ensureOpen
  let s ← get
  if s.state.phase != .interacting then
    refuse (.cannotSubmit s.state.phase)
  unless s.isAttemptAllowed do
    refuse (.noMoreAttempts s.item.identifier)
  touch now
  let s ← get
  let late := s.timeLimits.any TimeLimits.allowsLate
  if !withinMaximum [s.timed] && !late then
    timeOut now
    return { timedOut := true }
  let unbound ← bindResponses responses
  let s ← get
  let invalid := s.state.invalid
  if !unbound.isEmpty ||
      (s.control.validates && !invalid.isEmpty) ||
      s.submission == .simultaneous then
    return { unbound := unbound, invalid := invalid }
  processResponses
  if (← get).isOver then finish now
  return {
    unbound := unbound
    invalid := invalid
    processed := true }

/- Processes responses that wait, if all were bound. -/
def processPending : Action Bool := do
  let s ← getState
  if s.pending && s.unbound.isEmpty then
    processResponses
    return true
  else return false

end ItemSession

end Assessment
