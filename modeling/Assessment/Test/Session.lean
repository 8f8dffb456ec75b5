import Assessment.Item.Result
import Assessment.Package.Basic
import Assessment.Test.Plan

/-
  Test sessions.

  A session plans its test once and holds an item session for
  every planned item. It leads the candidate through the parts
  and items, and processes outcomes over all item sessions.

  Key definitions include:
    * `TestSession` and `TestAction`, a step of a session
    * `TestSession.start`, which plans a test
    * `initialise`, `enterTest`, `nextPart`, `nextItem` and
      `selectItem`
    * `submit`, `endPart` and `exit`
    * `processOutcomes`
-/

------------------------------------------------------------
-- Sessions
------------------------------------------------------------

namespace Assessment

/- A planned item with its session. -/
structure ItemEntry where
  ref : ItemRef
  /- The number of the occurrence of the reference. -/
  occurrence : Nat
  /- The place of the test part. -/
  part : Nat
  /- The sections around the reference, outermost first. -/
  sections : List String
  session : ItemSession

/- What a test session has come to. -/
structure TestState where
  initialized : Bool := false
  entered : Bool := false
  finished : Bool := false
  exited : Bool := false
  part : Option Nat := none
  item : Option Nat := none
  ended : List Nat := []
  timer : Timer := .new
  partTimers : List Timer
  sectionTimers : Keyed Timer
  values : Bindings := []

/- A session of one candidate on one test. -/
structure TestSession where
  test : Test
  plan : Plan
  engine : Engine
  entries : List ItemEntry
  state : TestState
  tally : Tally
  events : List Event

/- A step of a test session, which may be refused. -/
abbrev TestAction := ExceptT Failure (StateM TestSession)

namespace TestSession

/- The control that holds for a reference. -/
def effectiveControl (t : Test) (p : Placement)
    (part : Nat) : Control :=
  let ofSection := fun identifier =>
    (t.section? identifier).bind fun s => s.info.control
  let outer :=
    p.ancestry.reverse.filterMap ofSection ++
      (t.parts[part]?.bind TestPart.control).toList
  outer.foldl Control.inherit (p.ref.control.getD {})

/- The last reference with an identifier. -/
def definition? (t : Test) (identifier : String) :
    Option Placement :=
  t.placements.reverse.find? fun p =>
    p.ref.identifier == identifier

/- The session of a planned item. -/
def entry?
    (t : Test)
    (items : Keyed Item)
    (engine : Engine)
    (draws : Draws)
    (part : Nat)
    (node : PlanNode) :
    Option ItemEntry := do
  let p ← definition? t node.identifier
  let item ← items.get? p.ref.href
  let session := ItemSession.new item engine draws
  return {
    ref := p.ref
    occurrence := node.occurrence
    part := part
    sections := p.ancestry
    session := {
      session with
      control := effectiveControl t p part
      timeLimits := p.ref.timeLimits
      submission :=
        (t.parts[part]?.map TestPart.submission).getD
          .individual } }

/- The sessions of planned items, each with draws of its own. -/
def makeEntries
    (t : Test)
    (items : Keyed Item)
    (engine : Engine)
    (draws : Draws) :
    List (Nat × PlanNode) → List ItemEntry × Draws
  | [] => ([], draws)
  | (part, node) :: rest =>
      let (own, left) := draws.fork
      match entry? t items engine own part node with
      | some e =>
          let (es, left) :=
            makeEntries t items engine left rest
          (e :: es, left)
      | none => makeEntries t items engine draws rest

/- The state before anything has happened. -/
def freshState (t : Test) : TestState :=
  { partTimers := t.parts.map fun _ => .new
    sectionTimers := Keyed.ofList
      (t.sections.map fun s => (s.info.identifier, .new)) }

/- Plans a test and makes a session for every item. -/
def start
    (t : Test)
    (items : Keyed Item)
    (engine : Engine)
    (draws : Draws) :
    Except Failure TestSession :=
  let resolves := fun (r : ItemRef) =>
    (items.get? r.href).isSome
  match (Assessment.plan t resolves).run ⟨draws, []⟩ with
  | (.error e, _) => .error e
  | (.ok plan, tally) =>
      let (entries, draws) :=
        makeEntries t items engine tally.draws plan.items
      .ok
        { test := t
          plan := plan
          engine := engine
          entries := entries
          state := freshState t
          tally := { tally with draws := draws }
          events := [] }

/- Runs a step. -/
def run (x : TestAction α) (s : TestSession) :
    Except Failure α × TestSession :=
  StateT.run (ExceptT.run x) s

------------------------------------------------------------
-- Views
------------------------------------------------------------

/- The notes of the test and of all its items. -/
def allNotes (s : TestSession) : List Note :=
  s.tally.notes ++
    s.entries.flatMap fun e => e.session.tally.notes

/- The value of a declared outcome. -/
def value? (s : TestSession) (identifier : String) :
    Option Value :=
  (s.test.declaration? identifier).map fun _ =>
    (s.state.values.get? identifier).getD .null

/- Whether an entry is an occurrence of a reference. -/
def isAt (ref : String) (occurrence : Nat) (e : ItemEntry) :
    Bool :=
  e.ref.identifier == ref && e.occurrence == occurrence

/- The session of an occurrence of a reference. -/
def itemSession? (s : TestSession) (ref : String)
    (occurrence : Nat) : Option ItemSession :=
  (s.entries.find? (isAt ref occurrence)).map ItemEntry.session

/- The current item. -/
def current? (s : TestSession) : Option ItemEntry :=
  s.state.item.bind fun i => s.entries[i]?

/- The current test part. -/
def currentPart? (s : TestSession) : Option TestPart :=
  s.state.part.bind fun i => s.test.parts[i]?

/- The entries of a test part with their places. -/
def entriesIn (s : TestSession) (part : Nat) :
    List (ItemEntry × Nat) :=
  s.entries.zipIdx.filter fun (e, _) => e.part == part

/- What outcome processing sees of an item. -/
def viewOf (e : ItemEntry) : ItemView :=
  { reference := e.ref.identifier
    occurrence := e.occurrence
    sections := e.sections
    categories := e.ref.categories
    weights := e.ref.weights
    presented := e.session.state.presented
    responded := e.session.state.responded
    correct := e.session.isCorrect?
    incorrect := e.session.isIncorrect? == some true
    declarations := e.session.item.declarations
    values := e.session.state.values }

/- The variables as outcome rules see them. -/
def scope (s : TestSession) : Scope :=
  { source := s.test.identifier
    declarations := s.test.declarations
    values := s.state.values
    defaults := []
    corrects := []
    test := some
      { items := s.entries.map viewOf
        references := s.test.placements.map fun p =>
          (p.ref.identifier, p.ref.weights) } }

------------------------------------------------------------
-- Steps
------------------------------------------------------------

/- Changes the state. -/
def changeState (f : TestState → TestState) :
    TestAction Unit :=
  modify fun s => { s with state := f s.state }

/- The state. -/
def getState : TestAction TestState := do
  return (← get).state

/- Refuses a step. -/
def refuse (cause : Refusal) : TestAction α :=
  throw (.refused cause)

/- Announces the start and, whatever comes, the end. -/
def announced (activity : Activity) (x : TestAction α) :
    TestAction α :=
  ExceptT.mk fun s =>
    let (a, t) :=
      run x { s with events := s.events ++ [.starting activity] }
    (a, { t with events := t.events ++ [.finished activity] })

/- Puts a session back, and takes over what it announced. -/
def putSession (s : TestSession) (i : Nat) (e : ItemEntry)
    (session : ItemSession) : TestSession :=
  { s with
    entries := s.entries.set i
      { e with session := { session with events := [] } }
    events := s.events ++ session.events }

/- Takes a step of the item session at a place. -/
def onItem (i : Nat) (x : Action α) : TestAction α :=
  ExceptT.mk fun s =>
    match s.entries[i]? with
    | none => (.error (.refused .noItem), s)
    | some e =>
        let (a, session) := x.run e.session
        (a, putSession s i e session)

/- Goes on only if the session has been initialized. -/
def ensureInitialized : TestAction Unit := do
  unless (← getState).initialized do
    throw .notInitialized

/- Goes on only if the test is under way. -/
def ensureRunning : TestAction Unit := do
  ensureInitialized
  let s ← getState
  unless s.entered do
    refuse .testNotEntered
  if s.finished then
    refuse .testFinished

/- The place of the current part, which must not have ended. -/
def runningPart : TestAction Nat := do
  let s ← getState
  match s.part with
  | none => refuse .noPart
  | some i =>
      if s.ended.contains i then refuse .partEnded
      else return i

------------------------------------------------------------
-- Initialization
------------------------------------------------------------

/- Initializes item sessions from a place on. -/
def initialiseItems : List (ItemEntry × Nat) → TestAction Unit
  | [] => pure ()
  | (e, i) :: rest => do
      onItem i (ItemSession.initialise e.ref.templateDefaults)
      initialiseItems rest

/- Gives outcomes their defaults; initializes all items. -/
def initialise : TestAction Unit := do
  if (← getState).initialized then
    throw .alreadyInitialized
  announced .testInitialisation do
    let s ← get
    changeState fun state =>
      { state with
        values := Keyed.ofList
          (s.test.declarations.map fun d =>
            (d.identifier, d.initial)) }
    initialiseItems s.entries.zipIdx
    changeState fun state => { state with initialized := true }

------------------------------------------------------------
-- Times
------------------------------------------------------------

/- Brings all running timers up to date. -/
def touch (now : Instant) : TestAction Unit := do
  changeState fun s =>
    { s with
      timer := s.timer.touch now
      partTimers := s.partTimers.map fun t => t.touch now
      sectionTimers := s.sectionTimers.map fun (k, t) =>
        (k, t.touch now) }
  if let some i := (← getState).item then
    onItem i (ItemSession.touch now)
  changeState fun s =>
    { s with
      values :=
        s.values.put Builtin.duration (.float s.timer.seconds) }

/- Runs the timers of some sections, and no others. -/
def switchSections (running : List String) (now : Instant) :
    TestAction Unit :=
  changeState fun s =>
    { s with
      sectionTimers := s.sectionTimers.map fun (k, t) =>
        if running.contains k then (k, t.start now)
        else (k, t.stop now) }

/- The seconds spent in a section. -/
def secondsIn (s : TestSession) (identifier : String) : Float :=
  ((s.state.sectionTimers.get? identifier).map
    Timer.seconds).getD 0

/- The limits of a section beside the time spent in it. -/
def timedSection (s : TestSession) (identifier : String) :
    Timed :=
  { limits := (s.test.section? identifier).bind fun x =>
      x.info.timeLimits
    seconds := s.secondsIn identifier }

/- The limits that hold for an item, innermost first. -/
def timeChain (s : TestSession) (e : ItemEntry) : List Timed :=
  let part : Timed :=
    { limits := (s.test.parts[e.part]?).bind TestPart.timeLimits
      seconds := ((s.state.partTimers[e.part]?).map
        Timer.seconds).getD 0 }
  [e.session.timed] ++
    e.sections.reverse.map s.timedSection ++
    [part, ⟨s.test.timeLimits, s.state.timer.seconds⟩]

/- Whether there is time left for the item at a place. -/
def isInTime (s : TestSession) (i : Nat) : Bool :=
  match s.entries[i]? with
  | some e => withinMaximum (s.timeChain e)
  | none => true

/- Whether an item accepts what is submitted late. -/
def allowsLate (e : ItemEntry) : Bool :=
  e.session.timeLimits.any TimeLimits.allowsLate

------------------------------------------------------------
-- Parts
------------------------------------------------------------

/- Enters the test. -/
def enterTest (now : Instant) : TestAction Unit := do
  ensureInitialized
  if (← getState).entered then
    refuse .testEntered
  changeState fun s =>
    { s with entered := true
             timer := s.timer.start now }

/- The place of the part after the current one. -/
def following (s : TestState) : Nat :=
  match s.part with
  | some i => i + 1
  | none => 0

/- Whether there are more parts. -/
def hasMoreParts : TestAction Bool := do
  ensureRunning
  let s ← get
  return following s.state < s.test.parts.length

/- Enters the next part, if there is one. -/
def nextPart (now : Instant) : TestAction (Option TestPart) := do
  ensureRunning
  let s ← get
  if s.state.part.any fun i => !s.state.ended.contains i then
    refuse .partNotEnded
  let next := following s.state
  match s.test.parts[next]? with
  | none => return none
  | some part =>
      changeState fun s =>
        { s with
          part := some next
          item := none
          partTimers := s.partTimers.modify next fun t =>
            t.start now }
      return some part

------------------------------------------------------------
-- Items
------------------------------------------------------------

/- The place of the first item of a part after the current. -/
def nextPlace? (s : TestSession) (part : Nat) : Option Nat :=
  ((s.entriesIn part).find? fun (_, i) =>
    match s.state.item with
    | some current => current < i
    | none => true).map Prod.snd

/- Whether there are more items in the current part. -/
def hasMoreItems : TestAction Bool := do
  ensureRunning
  let part ← runningPart
  return ((← get).nextPlace? part).isSome

/- Whether items stay open when they are left. -/
def keepsOpen (p : TestPart) : Bool :=
  p.navigation == .nonlinear || p.submission == .simultaneous

/- Leaves an item as the modes of its part say. -/
def leaveItem (keeps : Bool) (now : Instant) :
    Action Unit := do
  let s ← ItemSession.getState
  match s.phase, keeps with
  | .interacting, true => ItemSession.suspend now
  | .interacting, false | .suspended, false =>
      if s.responded then ItemSession.finish now
      else ItemSession.skip now
  | _, _ => pure ()

/- Leaves the current item, if there is one. -/
def leaveCurrent (now : Instant) : TestAction Unit := do
  let s ← get
  if let some i := s.state.item then
    let part :=
      s.current?.bind fun e => s.test.parts[e.part]?
    onItem i (leaveItem (part.any keepsOpen) now)
    changeState fun s => { s with item := none }

/- Enters or resumes an item. -/
def presentItem (ref : String) (now : Instant) :
    Action Unit := do
  match (← ItemSession.getState).phase with
  | .initialized => ItemSession.enter now
  | .suspended => ItemSession.resume now
  | .interacting => pure ()
  | phase => ItemSession.refuse (.cannotPresent ref phase)

/- Makes the item at a place the current one. -/
def present (i : Nat) (now : Instant) : TestAction Unit := do
  if let some e := (← get).entries[i]? then
    switchSections e.sections now
    onItem i (presentItem e.ref.identifier now)
    changeState fun s => { s with item := some i }

/- Moves to the next item of the current part, if any. -/
def nextItem (now : Instant) :
    TestAction (Option ItemEntry) := do
  ensureRunning
  let part ← runningPart
  touch now
  let next := (← get).nextPlace? part
  leaveCurrent now
  match next with
  | some i =>
      present i now
      return (← get).entries[i]?
  | none =>
      switchSections [] now
      return none

/- The place of an occurrence of a reference in a part. -/
def placeIn? (s : TestSession) (part : Nat) (ref : String)
    (occurrence : Nat) : Option Nat :=
  ((s.entriesIn part).find? fun (e, _) =>
    isAt ref occurrence e).map Prod.snd

/- Moves to an item of the current part, if it is nonlinear. -/
def selectItem (ref : String) (occurrence : Nat)
    (now : Instant) : TestAction (Option ItemEntry) := do
  ensureRunning
  let part ← runningPart
  let s ← get
  unless s.currentPart?.any fun p => p.navigation == .nonlinear do
    refuse .linearPart
  match s.placeIn? part ref occurrence with
  | none => refuse (.itemNotInPart ref occurrence)
  | some i =>
      touch now
      if (← getState).item != some i then
        leaveCurrent now
      present i now
      return (← get).entries[i]?

------------------------------------------------------------
-- Outcomes
------------------------------------------------------------

/- Runs outcome rules over the outcomes of the test. -/
def runRules (x : Run α) : TestAction α :=
  ExceptT.mk fun s =>
    let (a, stage) := x.run ⟨s.scope, s.tally⟩
    (a,
      { s with
        tally := stage.tally
        state := { s.state with values := stage.scope.values } })

/- Resets the outcomes and runs outcome processing. -/
def processOutcomes : TestAction Unit := do
  ensureInitialized
  announced .testOutcomeProcessing do
    let s ← get
    let reset := s.test.declarations.filter fun d =>
      !Builtin.isBuiltin d.identifier
    changeState fun state =>
      { state with
        values :=
          reset.foldl (fun b d => b.put d.identifier d.initial)
            state.values }
    let _ ← runRules
      (Rule.executeAll s.engine s.test.outcomeProcessing)

/- Submits responses to the current item. -/
def submit (responses : ItemSession.Responses)
    (now : Instant) : TestAction Submission := do
  ensureRunning
  match (← getState).item with
  | none => refuse .noItem
  | some i =>
      touch now
      let s ← get
      let late := s.current?.any allowsLate
      if !s.isInTime i && !late then
        onItem i (ItemSession.timeOut now)
        return { timedOut := true }
      let submission ←
        onItem i (ItemSession.submit responses now)
      if submission.processed then processOutcomes
      return submission

------------------------------------------------------------
-- Ends
------------------------------------------------------------

/- Whether a closed item of the current part may be reviewed. -/
def mayReview (ref : String) (occurrence : Nat) :
    TestAction Bool := do
  ensureInitialized
  let s ← get
  match s.state.part with
  | none => return false
  | some part =>
      return (s.entriesIn part).find? (isAt ref occurrence ·.1)
        |>.any fun (e, _) =>
          let state := e.session.state
          (state.finished || state.exited) &&
            e.session.control.allowsReview

/- Whether an item may be left behind. -/
def mayLeave (e : ItemEntry) : Bool :=
  let state := e.session.state
  let control := e.session.control
  (control.allowsSkipping || state.responded) &&
    (!control.validates || state.respondedValidly)

/- Whether all items of the current part may be left behind. -/
def mayEndPart : TestAction Bool := do
  ensureRunning
  let part ← runningPart
  return ((← get).entriesIn part).all fun (e, _) => mayLeave e

/- Processes what waits and closes an item. -/
def closeItem (now : Instant) : Action Bool := do
  if (← ItemSession.getState).phase == .finished then
    return false
  let processed ← ItemSession.processPending
  ItemSession.finish now
  return processed

/- Closes items; whether responses have been processed. -/
def closeItems (now : Instant) :
    List (ItemEntry × Nat) → TestAction Bool
  | [] => return false
  | (_, i) :: rest => do
      let processed ← onItem i (closeItem now)
      let others ← closeItems now rest
      return processed || others

/- Puts a number into a rising list, unless it is there. -/
def insertPlace (n : Nat) : List Nat → List Nat
  | [] => [n]
  | m :: rest =>
      if n < m then n :: m :: rest
      else if n == m then m :: rest
      else m :: insertPlace n rest

/- Marks the current part as ended, and the test with it. -/
def markEnded (part : Nat) (last : Bool) (now : Instant) :
    TestAction Unit :=
  changeState fun s =>
    { s with
      partTimers := s.partTimers.modify part fun t => t.stop now
      ended := insertPlace part s.ended
      finished := s.finished || last
      timer := if last then s.timer.stop now else s.timer }

/-
  Ends the current part: processes what waits, closes every
  item, and processes outcomes if anything was processed. The
  test is finished with its last part.
-/
def endPart (now : Instant) : TestAction Unit := do
  unless ← mayEndPart do
    refuse .partIncomplete
  let part ← runningPart
  touch now
  leaveCurrent now
  let processed ← closeItems now ((← get).entriesIn part)
  if processed then processOutcomes
  switchSections [] now
  let last := part + 1 == (← get).test.parts.length
  markEnded part last now
  touch now

/- Closes the sessions of items for good. -/
def exitItems (now : Instant) :
    List (ItemEntry × Nat) → TestAction Unit
  | [] => pure ()
  | (_, i) :: rest => do
      onItem i (ItemSession.exit now)
      exitItems now rest

/- Leaves the test, closing every item. -/
def exit (now : Instant) : TestAction Unit := do
  ensureInitialized
  if (← getState).exited then
    refuse .testExited
  touch now
  exitItems now (← get).entries.zipIdx
  changeState fun s =>
    { s with partTimers := s.partTimers.map fun t =>
        t.stop now }
  switchSections [] now
  changeState fun s =>
    { s with
      timer := s.timer.stop now
      item := none
      part := none
      finished := true
      exited := true }

end TestSession

end Assessment
