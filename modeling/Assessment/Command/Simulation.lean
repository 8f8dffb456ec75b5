import Assessment.Item.Result
import Assessment.Item.Session
import Assessment.Json.Reader
import Assessment.Package.Basic
import Assessment.Test.Result

/-
  Scripts of what a candidate submits, and runs of them.

  A script lists submissions, and may say for which document
  it is meant and which seed to use. Fields may stand under
  their names or, in a list, at their places.

  A simulated candidate takes a fixed time for every step. An
  item run submits all responses to one session. A test run
  goes through all parts and items in order and submits what
  the script has for each.

  Key definitions include:
    * `Script` and its entries
    * `Script.parse?` and `Script.ofResponses`
    * `Simulation.runItem` and `Simulation.runTest`
-/

------------------------------------------------------------
-- Scripts
------------------------------------------------------------

namespace Assessment

/- What a script is meant for. -/
inductive Target where
  | item
  | test
deriving DecidableEq, Repr

/- The name of a target in messages. -/
def Target.name : Target → String
  | .item => "Item"
  | .test => "Test"

/- A submission, in a test for a certain reference. -/
structure ScriptEntry where
  ref : Option String
  responses : ItemSession.Responses
deriving DecidableEq, Repr

/- The submissions of a candidate. -/
structure Script where
  target : Option Target := none
  document : Option String := none
  seed : Option Nat := none
  entries : List ScriptEntry := []
deriving DecidableEq, Repr

------------------------------------------------------------
-- Fields
------------------------------------------------------------

namespace Script

/- The elements of a list at the places of fields. -/
def padded : List String → List Json → List (Option Json)
  | [], _ => []
  | _ :: names, [] => none :: padded names []
  | _ :: names, v :: rest => some v :: padded names rest

/- The values of fields, by name or by place. -/
def fields? (names : List String) :
    Json → Option (List (Option Json))
  | .object ms => some (names.map fun name => Keyed.get? name ms)
  | .array xs =>
      if xs.length ≤ names.length then some (padded names xs)
      else none
  | _ => none

/- A field that may be absent or null. -/
def optional? (read : Json → Option α) :
    Option Json → Option (Option α)
  | none | some .null => some none
  | some v => (read v).map some

/- The elements of a list, if all can be read. -/
def all? (read : Json → Option α) : List Json → Option (List α)
  | [] => some []
  | v :: rest =>
      match read v, all? read rest with
      | some a, some as => some (a :: as)
      | _, _ => none

/- A list of texts. -/
def texts? (v : Json) : Option (List String) :=
  v.array?.bind (all? Json.string?)

/- Members whose values are lists of texts. -/
def textMembers? :
    List (String × Json) → Option ItemSession.Responses
  | [] => some []
  | (name, v) :: rest =>
      match texts? v, textMembers? rest with
      | some ts, some others => some ((name, ts) :: others)
      | _, _ => none

/- Responses under the identifiers they answer. -/
def responses? (v : Json) : Option ItemSession.Responses :=
  v.object?.bind textMembers?

/- A target by its name, alone or as a member with null. -/
def target? : Json → Option Target
  | .string "item" | .object [("item", .null)] => some .item
  | .string "test" | .object [("test", .null)] => some .test
  | _ => none

------------------------------------------------------------
-- Readers
------------------------------------------------------------

/- A submission from script data. -/
def entry? (v : Json) : Option ScriptEntry := do
  match ← fields? ["item", "responses"] v with
  | [ref, some responses] =>
      let ref ← optional? Json.string? ref
      let responses ← responses? responses
      return ⟨ref, responses⟩
  | _ => none

/- The submissions of a script; without any there are none. -/
def entries? : Option Json → Option (List ScriptEntry)
  | none => some []
  | some v => v.array?.bind (all? entry?)

/- A script from its data. -/
def ofJson? (v : Json) : Option Script := do
  match ← fields? ["target", "document", "seed", "submissions"]
      v with
  | [target, document, seed, entries] =>
      let target ← optional? target? target
      let document ← optional? Json.string? document
      let seed ← optional? Json.nat? seed
      let entries ← entries? entries
      return ⟨target, document, seed, entries⟩
  | _ => none

/- The script that a text writes. -/
def parse? (text : String) : Option Script :=
  (Json.parse? text).bind ofJson?

/- A script with one submission for each text. -/
def ofResponses : List String → Except String Script
  | [] => .ok {}
  | text :: rest =>
      match (Json.parse? text).bind responses? with
      | none => .error text
      | some responses => do
          let script ← ofResponses rest
          return { script with
            entries := ⟨none, responses⟩ :: script.entries }

end Script

------------------------------------------------------------
-- Time
------------------------------------------------------------

namespace Simulation

/- The instant of the next step, five seconds later. -/
def tick (now : Instant) : Instant :=
  now.after (5 * Instant.second)

------------------------------------------------------------
-- Items
------------------------------------------------------------

/- What a run of an item leads to. -/
structure ItemOutcome where
  session : ItemSession
  /- Submissions not processed, counted from one. -/
  unprocessed : List Nat

/- Submits what a finished session can still take. -/
def submitAll :
    List (ScriptEntry × Nat) → Instant → Action (List Nat)
  | [], _ => return []
  | (entry, i) :: rest, now => do
      if (← ItemSession.getState).finished then
        let others ← submitAll rest now
        return (i + 1) :: others
      else
        let now := tick now
        let s ← ItemSession.submit entry.responses now
        let others ← submitAll rest now
        return if s.processed then others else (i + 1) :: others

/- Enters an item and submits all responses. -/
def candidate (script : Script) (start : Instant) :
    Action (List Nat) := do
  ItemSession.initialise []
  let now := tick start
  ItemSession.enter now
  submitAll script.entries.zipIdx now

/- Runs an item of a package. -/
def runItem
    (p : Package)
    (identifier : String)
    (engine : Engine)
    (draws : Draws)
    (script : Script)
    (start : Instant) :
    Except Failure ItemOutcome := do
  let item ← p.item identifier
  let (result, session) :=
    (candidate script start).run (.new item engine draws)
  let unprocessed ← result
  return ⟨session, unprocessed⟩

------------------------------------------------------------
-- Tests
------------------------------------------------------------

/- What a run of a test leads to. -/
structure TestOutcome where
  session : TestSession
  /- The instant after the last step. -/
  finish : Instant

/- Submits responses to the current item. -/
def submitEach :
    List ScriptEntry → Instant → TestAction Instant
  | [], now => return now
  | entry :: rest, now => do
      let now := tick now
      let _ ← TestSession.submit entry.responses now
      submitEach rest now

/- The submissions for a reference, in the order of a script. -/
def entriesFor (script : Script) (ref : String) :
    List ScriptEntry :=
  script.entries.filter fun e => e.ref == some ref

/-
  Goes through the items of the current part. Each round takes
  one more item, so as many rounds as items are enough.
-/
def takeItems (script : Script) :
    Nat → Instant → TestAction Instant
  | 0, now => return now
  | rounds + 1, now => do
      if ← TestSession.hasMoreItems then
        let now := tick now
        match ← TestSession.nextItem now with
        | none => return now
        | some e =>
            let now ←
              submitEach (entriesFor script e.ref.identifier) now
            takeItems script rounds now
      else return now

/-
  Goes through the parts that are left. Each round ends one
  more part, so as many rounds as parts are enough.
-/
def takeParts (script : Script) :
    Nat → Instant → TestAction Instant
  | 0, now => return now
  | rounds + 1, now => do
      if ← TestSession.hasMoreParts then
        let now := tick now
        let _ ← TestSession.nextPart now
        let items := (← get).entries.length
        let now ← takeItems script (items + 1) now
        let now := tick now
        TestSession.endPart now
        if (← TestSession.getState).finished then return now
        else takeParts script rounds now
      else return now

/- Goes through a whole test. -/
def examinee (script : Script) (start : Instant) :
    TestAction Instant := do
  TestSession.initialise
  let now := tick start
  TestSession.enterTest now
  let parts := (← get).test.parts.length
  let now ← takeParts script (parts + 1) now
  return tick now

/- Runs a test of a package. -/
def runTest
    (p : Package)
    (identifier : String)
    (engine : Engine)
    (draws : Draws)
    (script : Script)
    (start : Instant) :
    Except Failure TestOutcome := do
  let test ← p.test identifier
  let session ← TestSession.start test p.items engine draws
  let (result, session) := (examinee script start).run session
  let finish ← result
  return ⟨session, finish⟩

end Simulation

end Assessment
