import Assessment.Number.Binary64

/-
  Areas of the plane that points are tested against.

  Coordinates are listed as in image maps: a rectangle by its
  left, top, right and bottom, a circle by centre and radius,
  an ellipse by centre and two radii, a polygon by its
  vertices.

  Distances are hypotenuses. The square root of a sum of
  squares loses up to one unit in its last place. What is left
  of the squares is computed without cancellation from the
  distance to the nearer leg, and one correcting step takes it
  away.

  Key definitions include:
    * `Hypotenuse.residue`, what the squares leave
    * `hypotenuse`, for legs of moderate size
    * `Shape`, the five kinds of area
    * `Measure`, the arithmetic of the angle test
    * `insidePolygon`, the angle test for polygons
    * `Shape.contains`
-/

------------------------------------------------------------
-- Correction
------------------------------------------------------------

namespace Assessment

namespace Hypotenuse

/-
  The square of an estimate less the squares of the two legs,
  the longer one first.
-/
def residue (long short estimate : Float) : Float :=
  if estimate ≤ 2 * short then
    let d := estimate - short
    long * (2 * d - long) + (d - 2 * (long - short)) * d
  else
    let d := estimate - long
    2 * d * (long - 2 * short) + ((4 * d - short) * short + d * d)

/- The corrected square root of the sum of two squares. -/
def corrected (long short : Float) : Float :=
  let estimate := Float.sqrt (long * long + short * short)
  estimate - residue long short estimate / (2 * estimate)

end Hypotenuse

------------------------------------------------------------
-- Hypotenuse
------------------------------------------------------------

/-
  The length of the hypotenuse over two legs whose squares
  neither overflow nor vanish. A leg below half a unit in the
  last place of the other does not count.
-/
def hypotenuse (x y : Float) : Float :=
  let long := if x.abs < y.abs then y.abs else x.abs
  let short := if x.abs < y.abs then x.abs else y.abs
  if short ≤ long / Float.ofNat (twoTo 54) then long + short
  else Hypotenuse.corrected long short

------------------------------------------------------------
-- Shapes
------------------------------------------------------------

/- The kinds of area. -/
inductive Shape where
  /- The whole plane. -/
  | everywhere
  | rect
  | circle
  | poly
  | ellipse
deriving DecidableEq, Repr

namespace Shape

/- All shapes. -/
def all : List Shape :=
  [.everywhere, .rect, .circle, .poly, .ellipse]

/- The name of a shape. -/
def name : Shape → String
  | .everywhere => "default"
  | .rect => "rect"
  | .circle => "circle"
  | .poly => "poly"
  | .ellipse => "ellipse"

/- The shape with a name. -/
def ofName? (name : String) : Option Shape :=
  all.find? fun s => s.name == name

/- Every shape is found by its name. -/
theorem ofName?_name (s : Shape) : ofName? s.name = some s := by
  cases s <;> decide

end Shape

------------------------------------------------------------
-- Arithmetic of Angles
------------------------------------------------------------

/- Numbers with lengths and angles. -/
class Measure (α : Type) extends
    Add α, Sub α, Mul α, Div α, Neg α where
  ofInt : Int → α
  /- The length of the hypotenuse over two legs. -/
  hypot : α → α → α
  /- The angle with a given cosine, in degrees. -/
  arccos : α → α
  isLe : α → α → Bool

/- Doubles measure approximately. -/
instance : Measure Float where
  ofInt := Float.ofInt
  hypot := hypotenuse
  arccos x := Float.acos x * (180 / 3.141592653589793)
  isLe x y := x ≤ y

namespace Polygon

variable {α : Type} [Measure α]

/- A point of the plane. -/
structure Point (α : Type) where
  x : α
  y : α

/- Whether two numbers are equal. -/
def same (a b : α) : Bool :=
  Measure.isLe a b && Measure.isLe b a

/- Whether two points are equal. -/
def Point.same (p q : Point α) : Bool :=
  Polygon.same p.x q.x && Polygon.same p.y q.y

/- Keeps a cosine between -1 and 1. -/
def clampCosine (c : α) : α :=
  let one : α := Measure.ofInt 1
  if Measure.isLe one c then one
  else if Measure.isLe c (-one) then -one
  else c

/- The angle under which an edge is seen from a point. -/
def angle (p start stop : Point α) : α :=
  let a := Measure.hypot (p.x - stop.x) (p.y - stop.y)
  let b := Measure.hypot (stop.x - start.x) (stop.y - start.y)
  let c := Measure.hypot (start.x - p.x) (start.y - p.y)
  Measure.arccos (clampCosine
    ((a * a - b * b + c * c) / (Measure.ofInt 2 * a * c)))

/-
  The angle of an edge, negative when the edge runs the other
  way round the point.
-/
def signedAngle (p start stop : Point α) : α :=
  let turn :=
    (stop.x - p.x) * (p.y - start.y) -
      (stop.y - p.y) * (p.x - start.x)
  if Measure.isLe (Measure.ofInt 0) turn then angle p start stop
  else -angle p start stop

/-
  The sum of the signed angles of the edges between
  successive vertices, or nothing when the point is one of
  the vertices met.
-/
def angleSum (p : Point α) (sum : α) :
    List (Point α) → Option α
  | v :: w :: rest =>
      if v.same p || w.same p then none
      else angleSum p (sum + signedAngle p v w) (w :: rest)
  | _ => some sum

/- Joins coordinates to points. -/
def vertices : List Int64 → List (Point α)
  | x :: y :: rest =>
      ⟨Measure.ofInt x.toInt, Measure.ofInt y.toInt⟩ ::
        vertices rest
  | _ => []

/- Repeats the first vertex at the end unless it is there. -/
def close (vs : List (Point α)) : List (Point α) :=
  match vs.head?, vs.getLast? with
  | some first, some last =>
      if first.same last then vs else vs ++ [first]
  | _, _ => vs

/-
  Whether a point lies in a polygon: the signed angles add up
  to zero only outside. Sums below half a millionth of a
  degree count as zero, and a vertex counts as inside.
-/
def inside (coords : List Int64) (p : Point α) : Bool :=
  match angleSum p (Measure.ofInt 0) (close (vertices coords)) with
  | none => true
  | some sum =>
      let tolerance : α :=
        Measure.ofInt 5 / Measure.ofInt 10000000
      Measure.isLe tolerance sum ||
        Measure.isLe sum (-tolerance)

end Polygon

------------------------------------------------------------
-- Containment
------------------------------------------------------------

namespace Shape

/-
  Whether a point lies in a shape or on its edge. A list of
  coordinates that does not fit the shape contains nothing.
-/
def contains (shape : Shape) (coords : List Int64)
    (x y : Int64) : Bool :=
  let u := Binary64.ofInt64 x
  let v := Binary64.ofInt64 y
  match shape, coords with
  | .everywhere, _ => true
  | .rect, [left, top, right, bottom] =>
      left ≤ x && x ≤ right && top ≤ y && y ≤ bottom
  | .circle, [cx, cy, r] =>
      let dx := u - Binary64.ofInt64 cx
      let dy := v - Binary64.ofInt64 cy
      let radius := Binary64.ofInt64 r
      dx * dx + dy * dy ≤ radius * radius
  | .ellipse, [cx, cy, hr, vr] =>
      if hr == 0 || vr == 0 then false
      else
        let dx :=
          (u - Binary64.ofInt64 cx) / Binary64.ofInt64 hr
        let dy :=
          (v - Binary64.ofInt64 cy) / Binary64.ofInt64 vr
        dx * dx + dy * dy ≤ 1
  | .poly, coords =>
      6 ≤ coords.length && coords.length % 2 == 0 &&
        Polygon.inside coords (Polygon.Point.mk u v)
  | _, _ => false

end Shape

end Assessment
