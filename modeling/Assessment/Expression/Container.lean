import Assessment.Value.Basic

/-
  Operators on truth values and on containers.

  Logic is three-valued, where whatever is not a truth value
  counts as unknown.

  Key definitions include:
    * `conjunction`, `disjunction` and `negation`
    * `anyN`, whether the number of truths lies in a range
    * `collect`, containers from operands
    * `member`, `contains` and `delete`
    * `at?` and `field`, single parts of a container
-/

------------------------------------------------------------
-- Connectives
------------------------------------------------------------

namespace Assessment

namespace Logic

/- Whether all operands are true. -/
def conjunction (values : List Value) : Value :=
  if values.any fun v => v.bool? == some false then
    .boolean false
  else if values.all fun v => v.bool? == some true then
    .boolean true
  else .null

/- Whether some operand is true. -/
def disjunction (values : List Value) : Value :=
  if values.any fun v => v.bool? == some true then
    .boolean true
  else if values.all fun v => v.bool? == some false then
    .boolean false
  else .null

/- Whether an operand is false. -/
def negation (v : Value) : Value :=
  .ofBool? (v.bool?.map (!·))

/- Whether an operand is NULL or an empty string. -/
def isEmpty : Value → Bool
  | .single (.string s) => s.isEmpty
  | v => v.isNull

/- Whether two operands are equal, if neither is NULL. -/
def same (v w : Value) : Value :=
  if v.isNull || w.isNull then .null else .boolean (v.equals w)

------------------------------------------------------------
-- Counting
------------------------------------------------------------

/- The number of operands that are true. -/
def truths (values : List Value) : Int :=
  (values.filter fun v => v.bool? == some true).length

/- The number of operands that are unknown. -/
def unknowns (values : List Value) : Int :=
  (values.filter fun v => v.bool?.isNone).length

/- Whether the number of truths lies in a range. -/
def anyN (min max : Int64) (values : List Value) : Value :=
  let least := truths values
  let most := truths values + unknowns values
  if max < min then .boolean false
  else if min.toInt ≤ least && most ≤ max.toInt then
    .boolean true
  else if most < min.toInt || max.toInt < least then
    .boolean false
  else .null

end Logic

------------------------------------------------------------
-- Building
------------------------------------------------------------

namespace Container

/- Whether an operand can be taken into a container. -/
def accepts (cardinality : Cardinality) : Value → Bool
  | .single _ => true
  | .multiple .. => cardinality == .multiple
  | .ordered .. => cardinality == .ordered
  | .null | .record _ => false

/-
  The base type and the elements of a container made of
  operands. NULL is passed over; operands that do not go
  together have no elements.
-/
def gather (cardinality : Cardinality) (type : Option BaseType)
    (elements : List Scalar) :
    List Value → Option (Option BaseType × List Scalar)
  | [] => some (type, elements)
  | v :: rest =>
      if v.isNull then gather cardinality type elements rest
      else if !accepts cardinality v then none
      else if type.isSome && type != v.baseType? then none
      else
        gather cardinality v.baseType?
          (elements ++ v.elements) rest

/- A container of operands. -/
def collect (cardinality : Cardinality) (values : List Value) :
    Value :=
  match gather cardinality none [] values with
  | some (some t, elements) =>
      match Value.ofList cardinality t elements with
      | .ok v => v
      | .error _ => .null
  | _ => .null

------------------------------------------------------------
-- Searching
------------------------------------------------------------

/- The number of elements, where NULL has none. -/
def size : Value → Value
  | .null => .integer 0
  | .multiple _ xs | .ordered _ xs =>
      .integer (Int64.ofNat xs.length)
  | .single _ | .record _ => .null

/- Whether a single value is an element of a container. -/
def member (v container : Value) : Value :=
  match v, container with
  | .single s, .multiple _ xs | .single s, .ordered _ xs =>
      .boolean (xs.any s.equals)
  | _, _ => .null

/- Whether a list starts with elements equal to given ones. -/
def startsWith : List Scalar → List Scalar → Bool
  | [], _ => true
  | _ :: _, [] => false
  | n :: ns, x :: xs => x.equals n && startsWith ns xs

/- Whether elements equal to given ones stand in a row. -/
def hasRun (needle : List Scalar) : List Scalar → Bool
  | [] => needle.isEmpty
  | x :: xs =>
      startsWith needle (x :: xs) || hasRun needle xs

/-
  Whether one container has the elements of another: as often
  for multiple ones, and in a row for ordered ones.
-/
def contains (container part : Value) : Value :=
  match container, part with
  | .multiple _ xs, .multiple _ ns =>
      .boolean (Value.matchedIn ns xs)
  | .ordered _ xs, .ordered _ ns => .boolean (hasRun ns xs)
  | _, _ => .null

/- A container without the elements equal to a single value. -/
def delete (v container : Value) : Value :=
  match v, container with
  | .single s, .multiple t xs =>
      .multipleOf t (xs.filter fun x => !x.equals s)
  | .single s, .ordered t xs =>
      .orderedOf t (xs.filter fun x => !x.equals s)
  | _, _ => .null

/- The element at a place, counted from one. -/
def at? (n : Int64) : Value → Value
  | .ordered _ xs =>
      if 1 ≤ n then .ofScalar? xs[(n.toInt - 1).toNat]?
      else .null
  | _ => .null

/- The field of a record with a name. -/
def field (name : String) : Value → Value
  | .record fields =>
      match fields.find? fun (k, _) => k == name with
      | some (_, some s) => .single s
      | _ => .null
  | _ => .null

end Container

end Assessment
