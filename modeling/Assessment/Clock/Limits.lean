import Assessment.Value.Reader

/-
  Time limits and the check of a chain of them.

  Key definitions include:
    * `TimeLimits`, as declared on items, sections, parts and
      tests
    * `Timed`, limits beside the time already spent
    * `withinMaximum`, the check of a chain of limits
-/

------------------------------------------------------------
-- Limits
------------------------------------------------------------

namespace Assessment

/- Limits in seconds. -/
structure TimeLimits where
  minTime : Option Float
  maxTime : Option Float
  allowsLate : Bool

/- Limits from package data. -/
def TimeLimits.ofJson (v : Json) : TimeLimits :=
  { minTime := v.floatField? "minTime"
    maxTime := v.floatField? "maxTime"
    allowsLate := v.boolField "allowLateSubmission" false }

------------------------------------------------------------
-- Checks
------------------------------------------------------------

/- Limits, if there are any, and the seconds spent. -/
structure Timed where
  limits : Option TimeLimits
  seconds : Float

namespace Timed

/- The greatest time that the limits allow. -/
def maximum? (t : Timed) : Option Float :=
  t.limits.bind TimeLimits.maxTime

/- Whether the time spent has reached the maximum. -/
def isOver (t : Timed) : Bool :=
  match t.maximum? with
  | some maximum => maximum ≤ t.seconds
  | none => false

end Timed

/-
  Whether no member of a chain, from the innermost out, has
  reached its maximum.
-/
def withinMaximum (chain : List Timed) : Bool :=
  chain.all fun t => !t.isOver

/- Minimum times are recorded and never enforced. -/
def withinMinimum (_chain : List Timed) : Bool :=
  true

end Assessment
