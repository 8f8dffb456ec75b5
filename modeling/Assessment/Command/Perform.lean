import Assessment.Command.Arguments
import Assessment.Command.Simulation
import Assessment.Settings.Reader
import Assessment.Validation.Report

/-
  The work of the command line.

  A task reads its files and gives an output in two forms, as
  text and as data, or else a failure. What is printed depends
  on the form that was asked for. A quiet task prints nothing.

  Key definitions include:
    * `Surroundings`, what a task can read
    * `CommandFailure` and its wording
    * `Output` and `Task.perform`
    * `respond`, the reply to arguments
-/

------------------------------------------------------------
-- Surroundings
------------------------------------------------------------

namespace Assessment

/- What a task finds outside. -/
structure Surroundings where
  /- The text of a file, or why it cannot be read. -/
  read : String → Except String String
  now : Instant
  /- The seed of draws when none is given. -/
  chance : Nat

------------------------------------------------------------
-- Failures
------------------------------------------------------------

/- Why a task fails. -/
inductive CommandFailure where
  | unreadable (file reason : String)
  | notJson (file : String)
  | badScript (file : String)
  | badResponses (text : String)
  | unreadableSettings (file reason : String)
  | badSettings
  | wrongTarget (got wanted : Target)
  | wrongDocument (got wanted : String)
  | unknownPass (name : String)
  | validation (cause : ValidationFailure)
  | load (cause : Failure)
  | runtime (cause : Failure)

namespace CommandFailure

/- The wording of a failure. -/
def message : CommandFailure → String
  | .unreadable file reason =>
      "error reading file '" ++ file ++ "': " ++ reason
  | .notJson file =>
      "error parsing JSON in '" ++ file ++
        "': the text is malformed"
  | .badScript file =>
      "error parsing run file '" ++ file ++
        "': the text is no run file"
  | .badResponses text =>
      "error parsing responses '" ++ text ++
        "': the text maps no identifiers to lists of strings"
  | .unreadableSettings file reason =>
      "config error: cannot read '" ++ file ++ "': " ++ reason
  | .badSettings =>
      "config error: invalid settings: the text is malformed"
  | .wrongTarget got wanted =>
      "run file targets " ++ got.name ++ ", not " ++ wanted.name
  | .wrongDocument got wanted =>
      "run file is for document '" ++ got ++ "', not '" ++
        wanted ++ "'"
  | .unknownPass name =>
      "invalid pass '" ++ name ++ "'. Valid: " ++
        ", ".intercalate (Pass.all.map Pass.name)
  | .validation cause => "validation error: " ++ cause.message
  | .load cause => "load error: " ++ cause.message
  | .runtime cause => "runtime error: " ++ cause.message

end CommandFailure

------------------------------------------------------------
-- Outputs
------------------------------------------------------------

/- What a task gives. -/
structure Output where
  data : Json
  lines : List String
  /- Notes, which only the text form shows. -/
  notes : List Note := []
  /- Whether the task found errors in what it looked at. -/
  faulty : Bool := false

/- A task that reads its surroundings and may fail. -/
abbrev Attempt := Except CommandFailure

namespace Surroundings

/- The data in a file. -/
def readJson (s : Surroundings) (file : String) :
    Attempt Json :=
  match s.read file with
  | .error reason => .error (.unreadable file reason)
  | .ok text =>
      match Json.parse? text with
      | some v => .ok v
      | none => .error (.notJson file)

/- The script in a file. -/
def readScript (s : Surroundings) (file : String) :
    Attempt Script :=
  match s.read file with
  | .error reason => .error (.unreadable file reason)
  | .ok text =>
      match Script.parse? text with
      | some script => .ok script
      | none => .error (.badScript file)

/- The settings in a file; without one, those by default. -/
def readSettings (s : Surroundings) :
    Option String → Attempt Settings
  | none => .ok {}
  | some file =>
      match s.read file with
      | .error reason => .error (.unreadableSettings file reason)
      | .ok text =>
          match Settings.parse? text with
          | some settings => .ok settings
          | none => .error .badSettings

/- The package in a file. -/
def readPackage (s : Surroundings) (file : String) :
    Attempt Package := do
  let v ← s.readJson file
  match Package.ofJson v with
  | .ok p => return p
  | .error f => throw (.load f)

end Surroundings

------------------------------------------------------------
-- Inspection
------------------------------------------------------------

/- What inspection tells of a document. -/
structure Summary where
  kind : String
  identifier : String
  title : Option String
  declarations : Nat
  parts : Option Nat

namespace Summary

/- The summary of an item. -/
def ofItem (d : ItemDocument) : Summary :=
  { kind := "item"
    identifier := d.identifier
    title := d.title
    declarations :=
      d.responses.length + d.outcomes.length +
        d.templates.length
    parts := none }

/- The summary of a test. -/
def ofTest (d : TestDocument) : Summary :=
  { kind := "test"
    identifier := d.identifier
    title := d.title
    declarations := d.outcomes.length
    parts := some d.parts.length }

/- A summary in one line. -/
def line (s : Summary) : String :=
  let title :=
    match s.title with
    | some t => " \"" ++ t ++ "\""
    | none => ""
  let parts :=
    match s.parts with
    | some n => ", " ++ toString n ++ " test parts"
    | none => ""
  "  " ++ s.kind ++ " " ++ s.identifier ++ title ++ ": " ++
    toString s.declarations ++ " declarations" ++ parts

/- A summary as data. -/
def toJson (s : Summary) : Json :=
  let title :=
    match s.title with
    | some t => [("title", Json.string t)]
    | none => []
  let parts :=
    match s.parts with
    | some n => [("testParts", Json.nat n)]
    | none => []
  .ofMembers
    ([("kind", .string s.kind),
      ("identifier", .string s.identifier),
      ("declarations", .nat s.declarations)] ++ title ++ parts)

end Summary

/- The documents of a package. -/
def inspection (e : Envelope) : Output :=
  let summaries :=
    e.items.map Summary.ofItem ++ e.tests.map Summary.ofTest
  { data := .ofMembers
      [("id", .string e.id), ("qtiVersion", .string e.version),
       ("documents", .array (summaries.map Summary.toJson))]
    lines :=
      ("package '" ++ e.id ++ "' (QTI " ++ e.version ++ ")") ::
        summaries.map Summary.line }

------------------------------------------------------------
-- Validation
------------------------------------------------------------

/- A finding as data. -/
def findingJson (f : Finding Problem) : Json :=
  .ofMembers
    [("pass", .string f.problem.pass),
     ("severity", .string f.problem.severity.name),
     ("path", .string f.path.text),
     ("message", .string f.problem.message)]

/- A report on the package in a file. -/
def validation (file : String) (r : Report) : Output :=
  { data := .ofMembers
      [("passes_run", .strings (r.passes.map Pass.name)),
       ("items", .array (r.findings.map findingJson))]
    lines :=
      r.findings.map Finding.line ++
        [file ++ ": " ++ toString (r.count .error) ++
          " errors, " ++ toString (r.count .warning) ++
          " warnings, " ++ toString (r.count .info) ++ " infos"]
    faulty := r.has .error }

/- The names of passes in a list with commas. -/
def passNames (passes : Option String) : List String :=
  match passes with
  | none => Pass.all.map Pass.name
  | some text => (text.splitOn ",").map Text.trim

/- The passes with some names. -/
def knownPasses (names : List String) : Attempt Unit :=
  match names.find? fun n => (Pass.ofName? n).isNone with
  | some name => .error (.unknownPass name)
  | none => .ok ()

------------------------------------------------------------
-- Runs
------------------------------------------------------------

/- Whether a session is over, in a word. -/
def progress (finished : Bool) : String :=
  if finished then "finished" else "open"

/- A variable of an item in one line. -/
def variableLine (v : ResultVariable) : String :=
  "  " ++ v.kind.name ++ " " ++ v.identifier ++ " = " ++
    v.value.toJson.compact

/- An outcome of a test in one line. -/
def outcomeLine (v : ResultVariable) : String :=
  "  " ++ v.identifier ++ " = " ++ v.value.toJson.compact

/- What a run of an item gives. -/
def itemOutput (o : Simulation.ItemOutcome) (now : Instant) :
    Output :=
  let s := o.session
  let r := s.result s.item.identifier none now
  { data := r.toJson
    lines :=
      ("item '" ++ r.identifier ++ "': " ++
        progress s.state.finished) ::
      o.unprocessed.map
        (fun n =>
          "  submission " ++ toString n ++
            " was not processed") ++
      r.recorded.map variableLine
    notes := s.tally.notes }

/- The name of a status in text. -/
def statusWord : SessionStatus → String
  | .initial => "Initial"
  | .pendingSubmission => "PendingSubmission"
  | .final => "Final"

/- An item of a test in lines. -/
def itemLines (r : ItemResult) : List String :=
  ("item " ++ toString (r.sequenceIndex.getD 0) ++ " '" ++
    r.identifier ++ "': " ++ statusWord r.status) ::
    r.recorded.map variableLine

/- What a run of a test gives. -/
def testOutput (o : Simulation.TestOutcome) : Output :=
  let s := o.session
  let r := s.result o.finish
  { data := r.toJson
    lines :=
      ("test '" ++ r.test.identifier ++ "': " ++
        progress s.state.finished) ::
      r.test.recorded.map outcomeLine ++
      r.items.flatMap itemLines
    notes := s.allNotes }

namespace Script

/- Checks that a script is meant for a document. -/
def check (s : Script) (target : Target) (document : String) :
    Attempt Unit :=
  match s.target.filter (· != target), s.document with
  | some got, _ => .error (.wrongTarget got target)
  | none, some d =>
      if d == document then .ok ()
      else .error (.wrongDocument d document)
  | none, none => .ok ()

end Script

/- Turns a failure of a session into one of a task. -/
def running (x : Except Failure α) : Attempt α :=
  x.mapError .runtime

------------------------------------------------------------
-- Tasks
------------------------------------------------------------

namespace Invocation

/- The script of an item run. -/
def itemScript (s : Surroundings) :
    ResponseSource → Attempt Script
  | .script file => s.readScript file
  | .inline texts =>
      (Script.ofResponses texts).mapError .badResponses

/- The settings for a run; an option decides on the seed. -/
def settings
    (i : Invocation)
    (s : Surroundings)
    (script : Script) :
    Attempt Settings := do
  let settings ← s.readSettings i.config
  let seed := (i.seed.or script.seed).or settings.seed
  return { settings with seed := seed }

/- The draws that settings lead to. -/
def draws (s : Surroundings) (settings : Settings) : Draws :=
  Draws.seeded (settings.seed.getD s.chance)

/- Performs the task of an invocation. -/
def perform (i : Invocation) (s : Surroundings) :
    Attempt Output := do
  match i.task with
  | .inspect file =>
      match Envelope.ofJson (← s.readJson file) with
      | .ok e => return inspection e
      | .error fault => throw (.load (.envelope fault))
  | .validate file passes =>
      let v ← s.readJson file
      let names := passNames passes
      knownPasses names
      match Assessment.validate v names with
      | .ok r => return validation file r
      | .error e => throw (.validation e)
  | .runItem file item source =>
      let script ← itemScript s source
      let settings ← i.settings s script
      script.check .item item
      let p ← s.readPackage file
      let o ← running (Simulation.runItem p item ⟨settings, none⟩
        (draws s settings) script s.now)
      return itemOutput o s.now
  | .runTest file test scriptFile =>
      let script ← s.readScript scriptFile
      let settings ← i.settings s script
      script.check .test test
      let p ← s.readPackage file
      let o ← running (Simulation.runTest p test ⟨settings, none⟩
        (draws s settings) script s.now)
      return testOutput o

end Invocation

------------------------------------------------------------
-- Replies
------------------------------------------------------------

/- What is printed, and the exit code. -/
structure Reply where
  code : Nat
  out : String
  err : String
deriving DecidableEq, Repr

/- Lines, each with its line break. -/
def unlines (lines : List String) : String :=
  String.join (lines.map fun line => line ++ "\n")

namespace Reply

/- How the command line is used. -/
def usage : String :=
  unlines
    ["QTI assessment runtime",
     "",
     "Usage: qti [OPTIONS] <COMMAND>",
     "",
     "Commands:",
     "  inspect PACKAGE",
     "  validate PACKAGE [--passes PASSES]",
     "  run-item PACKAGE ITEM" ++
       " [--responses JSON]... [--run FILE]",
     "  run-test PACKAGE TEST --run FILE",
     "",
     "Options:",
     "  --output text|json",
     "  --quiet",
     "  --config FILE",
     "  --seed N",
     "  --log-level LEVEL",
     "  --help",
     "  --version"]

/- The reply to arguments that are no invocation. -/
def ofStop : Stop → Reply
  | .misuse => ⟨2, "", usage⟩
  | .help => ⟨0, usage, ""⟩
  | .version => ⟨0, "qti 0.1.0\n", ""⟩

/- The reply with an output in a form. -/
def ofOutput (form : Form) (o : Output) : Reply :=
  let code := if o.faulty then 1 else 0
  match form with
  | .json => ⟨code, o.data.pretty ++ "\n", ""⟩
  | .text =>
      ⟨code, unlines o.lines, unlines (o.notes.map Note.line)⟩

/- The reply with a failure in a form. -/
def ofFailure (form : Form) (f : CommandFailure) : Reply :=
  match form with
  | .json =>
      let v := Json.ofMembers [("error", .string f.message)]
      ⟨1, "", v.compact ++ "\n"⟩
  | .text => ⟨1, "", f.message ++ "\n"⟩

/- A reply without anything printed. -/
def silent (r : Reply) : Reply :=
  { r with out := "", err := "" }

/- The reply to an invocation. -/
def ofInvocation (s : Surroundings) (i : Invocation) : Reply :=
  let r :=
    match i.perform s with
    | .ok o => ofOutput i.form o
    | .error f => ofFailure i.form f
  if i.quiet then r.silent else r

end Reply

/- The reply to arguments. -/
def respond (s : Surroundings) (args : List String) : Reply :=
  match Invocation.parse args with
  | .ok i => .ofInvocation s i
  | .error stop => .ofStop stop

end Assessment
