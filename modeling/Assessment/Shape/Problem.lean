import Assessment.Shape.Basic

/-
  What is wrong with a list of coordinates.

  Key definitions include:
    * `Shape.problems`, every fault of a list for a shape
    * `Shape.countProblem?`, a wrong number of coordinates
-/

------------------------------------------------------------
-- All Problems
------------------------------------------------------------

namespace Assessment

namespace Shape

/- The number of coordinates, where the shape fixes it. -/
def coordCount? : Shape → Option Nat
  | .everywhere => some 0
  | .rect | .ellipse => some 4
  | .circle => some 3
  | .poly => none

/- Whether a polygon repeats its first vertex at the end. -/
def isClosed : List Int64 → Bool
  | x :: y :: rest =>
      let all := x :: y :: rest
      all[all.length - 2]? == some x &&
        all[all.length - 1]? == some y
  | _ => false

/- The first negative coordinate, counted from one. -/
def negativeProblem (coords : List Int64) : List String :=
  match coords.zipIdx.find? fun (c, _) => c < 0 with
  | some (c, i) =>
      ["coordinate " ++ toString (i + 1) ++ " (" ++
        toString c.toInt ++ ") cannot be negative"]
  | none => []

/- A line for a condition that holds. -/
def lineIf (condition : Bool) (line : String) : List String :=
  if condition then [line] else []

/- Coordinates in the wrong order, and radii that vanish. -/
def extentProblems (shape : Shape) (coords : List Int64) :
    List String :=
  match shape, coords with
  | .rect, [left, top, right, bottom] =>
      lineIf (right ≤ left)
        ("left-x " ++ toString left.toInt ++
          " must be less than right-x " ++
          toString right.toInt) ++
      lineIf (bottom ≤ top)
        ("top-y " ++ toString top.toInt ++
          " must be less than bottom-y " ++
          toString bottom.toInt)
  | .circle, [_, _, r] =>
      lineIf (r < 1)
        ("radius " ++ toString r.toInt ++ " must be positive")
  | .ellipse, [_, _, hr, vr] =>
      lineIf (hr < 1)
        ("h-radius " ++ toString hr.toInt ++
          " must be positive") ++
      lineIf (vr < 1)
        ("v-radius " ++ toString vr.toInt ++
          " must be positive")
  | _, _ => []

/-
  Every problem of a list of coordinates. A wrong number of
  them hides all others.
-/
def problems (shape : Shape) (coords : List Int64) :
    List String :=
  let count := coords.length
  match shape.coordCount? with
  | some n =>
      if count ≠ n then
        [shape.name ++ " needs " ++ toString n ++
          " coordinates, found " ++ toString count]
      else
        negativeProblem coords ++ extentProblems shape coords
  | none =>
      let least := if isClosed coords then 8 else 6
      if count < least then
        ["poly needs at least " ++ toString least ++
          " coordinates, found " ++ toString count]
      else
        lineIf (count % 2 ≠ 0)
          ("poly needs an even number of coordinates, found " ++
            toString count) ++
        negativeProblem coords

------------------------------------------------------------
-- Counts
------------------------------------------------------------

/- What is wrong with the number of coordinates. -/
def countProblem? (shape : Shape) (coords : List Int64) :
    Option String :=
  let count := coords.length
  match shape with
  | .everywhere => none
  | .poly =>
      if count < 6 || count % 2 ≠ 0 then
        some ("poly needs an even number of at least 6" ++
          " coords, got " ++ toString count)
      else none
  | _ =>
      let n := shape.coordCount?.getD 0
      if count ≠ n then
        some (shape.name ++ " needs " ++ toString n ++
          " coords, got " ++ toString count)
      else none

end Shape

end Assessment
