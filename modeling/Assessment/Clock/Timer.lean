/-
  Points in time and their stamps, and timers, which add up
  the time between start and stop.

  An instant counts nanoseconds from the start of 1970. Its
  stamp is the calendar date and time of day in UTC.

  A timer keeps the laps it has measured in whole
  nanoseconds. The seconds it shows are added up lap by lap
  in double arithmetic.

  Key definitions include:
    * `Instant`, with `after` and `elapsed`
    * `Instant.date`, the calendar date
    * `Instant.stamp`, such as `2024-03-01T09:00:05.25Z`
    * `Timer`, with `start`, `touch` and `stop`
    * `Timer.seconds`, what a timer shows
    * `Timer.total`, the exact time of all laps
-/

------------------------------------------------------------
-- Instants
------------------------------------------------------------

namespace Assessment

/- Nanoseconds from the start of 1970. -/
structure Instant where
  nanoseconds : Int
deriving DecidableEq, Repr

namespace Instant

/- The nanoseconds of a second. -/
def second : Nat := 1000000000

/- The instant some nanoseconds later. -/
def after (t : Instant) (nanoseconds : Int) : Instant :=
  ⟨t.nanoseconds + nanoseconds⟩

/- The nanoseconds from one instant to a later one. -/
def elapsed (t u : Instant) : Nat :=
  (u.nanoseconds - t.nanoseconds).toNat

/- No time passes towards an earlier instant. -/
theorem elapsed_of_le
    (t u : Instant)
    (h : u.nanoseconds ≤ t.nanoseconds) :
    t.elapsed u = 0 := by
  simp only [elapsed]
  omega

------------------------------------------------------------
-- Stamps
------------------------------------------------------------

/- Year, month and day of a number of days since 1970. -/
def date (days : Int) : Int × Nat × Nat :=
  let z := days + 719468
  let era := z / 146097
  let day := (z % 146097).toNat
  let year :=
    (day - day / 1460 + day / 36524 - day / 146096) / 365
  let rest := day - (365 * year + year / 4 - year / 100)
  let shifted := (5 * rest + 2) / 153
  let dayOfMonth := rest - (153 * shifted + 2) / 5 + 1
  let month :=
    if shifted < 10 then shifted + 3 else shifted - 9
  let year := year + era * 400
  (if month ≤ 2 then year + 1 else year, month, dayOfMonth)

/- A number with zeros in front up to a width. -/
def padded (width n : Nat) : String :=
  let digits := Nat.toDigits 10 n
  String.ofList
    (List.replicate (width - digits.length) '0' ++ digits)

/- A fraction of a second without idle zeros. -/
def fraction (nanoseconds : Nat) : String :=
  if nanoseconds == 0 then ""
  else
    let digits := (padded 9 nanoseconds).toList
    "." ++ String.ofList
      (digits.reverse.dropWhile (· == '0')).reverse

/- The stamp of an instant within four-digit years. -/
def stamp (t : Instant) : String :=
  let seconds := t.nanoseconds / second
  let (year, month, day) := date (seconds / 86400)
  let ofDay := (seconds % 86400).toNat
  if year < 0 || 9999 < year then "unknown"
  else
    padded 4 year.toNat ++ "-" ++ padded 2 month ++ "-" ++
      padded 2 day ++ "T" ++ padded 2 (ofDay / 3600) ++ ":" ++
      padded 2 (ofDay / 60 % 60) ++ ":" ++
      padded 2 (ofDay % 60) ++
      fraction (t.nanoseconds % second).toNat ++ "Z"

end Instant

------------------------------------------------------------
-- Timers
------------------------------------------------------------

/- Measured laps, the latest first, and a running one. -/
structure Timer where
  laps : List Nat
  since : Option Instant
deriving DecidableEq, Repr

namespace Timer

/- A timer that has measured nothing. -/
def new : Timer := ⟨[], none⟩

/- Whether a lap is being measured. -/
def isRunning (t : Timer) : Bool :=
  t.since.isSome

/- Starts a lap, unless one is running. -/
def start (t : Timer) (now : Instant) : Timer :=
  match t.since with
  | some _ => t
  | none => { t with since := some now }

/- Ends the running lap and starts the next one. -/
def touch (t : Timer) (now : Instant) : Timer :=
  match t.since with
  | some since => ⟨since.elapsed now :: t.laps, some now⟩
  | none => t

/- Ends the running lap. -/
def stop (t : Timer) (now : Instant) : Timer :=
  { t.touch now with since := none }

/- A stopped timer is not running. -/
theorem isRunning_stop (t : Timer) (now : Instant) :
    (t.stop now).isRunning = false := rfl

------------------------------------------------------------
-- Readings
------------------------------------------------------------

/- The seconds of a lap as a double. -/
def lapSeconds (lap : Nat) : Float :=
  Float.ofNat (lap / Instant.second) +
    Float.ofNat (lap % Instant.second) / 1e9

/- The seconds of all laps, added from the first on. -/
def seconds (t : Timer) : Float :=
  t.laps.foldr (fun lap sum => sum + lapSeconds lap) 0

/- The nanoseconds of all laps. -/
def total (t : Timer) : Nat :=
  t.laps.foldr (· + ·) 0

end Timer

end Assessment
