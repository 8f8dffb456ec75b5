import Assessment.Failure
import Assessment.Number.Binary64
import Assessment.Settings.Reader
import Assessment.Value.Basic

/-
  What definitions are evaluated with.

  An evaluation reads its surroundings, draws numbers, and
  leaves notes. What it has drawn and noted stays even when
  it fails.

  Draws come from an unlimited source of numbers, laid out as
  a tree: every draw has an address of its own, and a fork
  gets a subtree that no other draw reaches. Statements about
  all outcomes of the draws quantify over the source.

  Notes are left for the authors of definitions. Events mark
  the start and the end of activities.

  Key definitions include:
    * `Level` and `Note`, `Activity` and `Event`
    * `Draws`, with `below`, `between` and `fork`
    * `Draws.permutation`, a list in random order
    * `Draws.seeded`, draws that a seed fixes
    * `Service`, an outside service for mathematics
    * `Engine`, the settings and the service in use
    * `Tally`, what an evaluation leaves behind
    * `Step`, an evaluation with its failures
-/

------------------------------------------------------------
-- Notes
------------------------------------------------------------

namespace Assessment

/- How much a note matters. -/
inductive Level where
  | info
  | warning
  | error
deriving DecidableEq, Repr

/- The name of a level. -/
def Level.name : Level → String
  | .info => "info"
  | .warning => "warning"
  | .error => "error"

/- A note on something in an item or a test. -/
structure Note where
  level : Level
  /- The identifier of the item or test. -/
  source : String
  message : String
deriving DecidableEq, Repr

/- The line that shows a note. -/
def Note.line (n : Note) : String :=
  n.level.name ++ ": " ++ n.source ++ ": " ++ n.message

------------------------------------------------------------
-- Events
------------------------------------------------------------

/- What sessions announce. -/
inductive Activity where
  | itemInitialisation
  | itemResponseProcessing
  | testInitialisation
  | testOutcomeProcessing
deriving DecidableEq, Repr

/- The name of an activity. -/
def Activity.name : Activity → String
  | .itemInitialisation => "ItemInitialisation"
  | .itemResponseProcessing => "ItemResponseProcessing"
  | .testInitialisation => "TestInitialisation"
  | .testOutcomeProcessing => "TestOutcomeProcessing"

/- The start or the end of an activity. -/
inductive Event where
  | starting (a : Activity)
  | finished (a : Activity)
deriving DecidableEq, Repr

/- The name of an event. -/
def Event.name : Event → String
  | .starting a => a.name ++ "Starting"
  | .finished a => a.name ++ "Finished"

------------------------------------------------------------
-- The Source
------------------------------------------------------------

/- A source of numbers and what has been taken from it. -/
structure Draws where
  source : List Nat → Nat
  address : List Nat
  used : Nat

namespace Draws

instance : Inhabited Draws := ⟨⟨fun _ => 0, [], 0⟩⟩

/- The next number, and the draws that are left. -/
def next (d : Draws) : Nat × Draws :=
  (d.source (0 :: d.used :: d.address),
    { d with used := d.used + 1 })

/- Draws apart from all others, and the draws that are left. -/
def fork (d : Draws) : Draws × Draws :=
  (⟨d.source, 1 :: d.used :: d.address, 0⟩,
    { d with used := d.used + 1 })

------------------------------------------------------------
-- Seeds
------------------------------------------------------------

/- Scatters the bits of a number of 64 bits. -/
def scatter (n : UInt64) : UInt64 :=
  let n := (n ^^^ (n >>> 30)) * 0xBF58476D1CE4E5B9
  let n := (n ^^^ (n >>> 27)) * 0x94D049BB133111EB
  n ^^^ (n >>> 31)

/- Draws that a seed fixes. -/
def seeded (seed : Nat) : Draws :=
  { source := fun address =>
      (address.foldr
        (fun n h =>
          scatter (h + 0x9E3779B97F4A7C15 + UInt64.ofNat n))
        (scatter (UInt64.ofNat seed))).toNat
    address := []
    used := 0 }

------------------------------------------------------------
-- Drawing
------------------------------------------------------------

/- A number below a bound, which is not zero. -/
def below (d : Draws) (bound : Nat) :
    Except Failure (Nat × Draws) :=
  if bound == 0 then .error .emptyDraw
  else
    let (n, d) := d.next
    .ok (n % bound, d)

/- A double from one bound to another. -/
def between (d : Draws) (low high : Float) : Float × Draws :=
  let (n, d) := d.next
  let part := Float.ofNat (n % twoTo 53) / Float.ofNat (twoTo 53)
  let x := low + (high - low) * part
  (if x < low then low else if high < x then high else x, d)

/- An element of a list that is not empty. -/
def pick (d : Draws) (xs : List α) : Option α × Draws :=
  let (n, d) := d.next
  (xs[n % xs.length]?, d)

/- Puts an element at a place of a list. -/
def insertAt (a : α) (place : Nat) (xs : List α) : List α :=
  xs.take place ++ a :: xs.drop place

/- A list in random order. -/
def permutation (d : Draws) : List α → List α × Draws
  | [] => ([], d)
  | a :: rest =>
      let (rest, d) := permutation d rest
      let (n, d) := d.next
      (insertAt a (n % (rest.length + 1)) rest, d)

/- A list in random order has the elements of the list. -/
theorem permutation_perm (d : Draws) (xs : List α) :
    (permutation d xs).1.Perm xs := by
  induction xs generalizing d with
  | nil => exact .nil
  | cons a rest ih =>
      have h : ∀ (n : Nat) (ys : List α),
          (insertAt a n ys).Perm (a :: ys) := by
        intro n ys
        have := @List.perm_middle _ a (ys.take n) (ys.drop n)
        simpa [insertAt] using this
      exact (h _ _).trans ((ih d).cons a)

end Draws

------------------------------------------------------------
-- Services
------------------------------------------------------------

/- An outside service that evaluates mathematics by name. -/
structure Service where
  operation :
    String → List Value → Except ServiceFailure Value
  constant : String → Except ServiceFailure Value

/- The settings and the service that evaluation uses. -/
structure Engine where
  settings : Settings
  service : Option Service

------------------------------------------------------------
-- Evaluations
------------------------------------------------------------

/- The draws that are left and the notes left so far. -/
structure Tally where
  draws : Draws
  notes : List Note

/- An evaluation that may fail. -/
abbrev Step := ExceptT Failure (StateM Tally)

namespace Step

/- Runs an evaluation. -/
def run (x : Step α) (t : Tally) : Except Failure α × Tally :=
  StateT.run (ExceptT.run x) t

/- An evaluation that acts on the tally alone. -/
def act (f : Tally → α × Tally) : Step α :=
  ExceptT.mk fun t =>
    let (a, t) := f t
    (.ok a, t)

/- Leaves a note. -/
def note (n : Note) : Step Unit :=
  act fun t => ((), { t with notes := t.notes ++ [n] })

/- Leaves a warning. -/
def warn (source message : String) : Step Unit :=
  note ⟨.warning, source, message⟩

/- Leaves a warning; the result is NULL. -/
def nullWith (source message : String) : Step Value := do
  warn source message
  pure .null

/- Draws, or fails. -/
def draw (f : Draws → Except Failure (α × Draws)) : Step α :=
  ExceptT.mk fun t =>
    match f t.draws with
    | .ok (a, d) => (.ok a, { t with draws := d })
    | .error e => (.error e, t)

/- Draws in a way that never fails. -/
def take (f : Draws → α × Draws) : Step α :=
  act fun t =>
    let (a, d) := f t.draws
    (a, { t with draws := d })

/-
  The answer of a service. What a failure leads to is said by
  the policy.
-/
def ofService
    (policy : ServicePolicy)
    (source : String) :
    Except ServiceFailure Value → Step Value
  | .ok v => pure v
  | .error e =>
      match policy with
      | .nullWithWarning =>
          nullWith source (e.message ++ "; result is NULL")
      | .fatal => throw (.service e)

end Step

end Assessment
