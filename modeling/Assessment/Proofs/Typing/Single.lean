import Assessment.Expression.Evaluation

/-
  Operators with values of one base type.

  Most operators give a single value of a base type that is
  known beforehand, or NULL, whatever their operands are. Sums
  and the like give integers for integers, and floats as soon
  as one operand is a float.

  Main declarations:
    * `Value.IsSingle`, NULL or single of a base type
    * `PlainOperator.isSingle_value`
    * `Value.HasType`, NULL or of a base type
    * `Arithmetic.isSingle_withIntegers` and `isSingle_extreme`
-/

------------------------------------------------------------
-- Values
------------------------------------------------------------

namespace Assessment

/- NULL, or a single value of a base type. -/
def Value.IsSingle (type : BaseType) : Value → Prop
  | .null => True
  | .single s => s.baseType = type
  | _ => False

namespace Value

variable {type : BaseType}

@[simp] theorem isSingle_null : null.IsSingle type := trivial

@[simp] theorem isSingle_single (s : Scalar) :
    (single s).IsSingle s.baseType := rfl

@[simp] theorem isSingle_boolean (b : Bool) :
    (boolean b).IsSingle .boolean := rfl

@[simp] theorem isSingle_integer (n : Int64) :
    (integer n).IsSingle .integer := rfl

@[simp] theorem isSingle_float (x : Float) :
    (float x).IsSingle .float := by
  unfold float
  split
  · rfl
  · trivial

@[simp] theorem isSingle_ofBool? (b : Option Bool) :
    (ofBool? b).IsSingle .boolean := by
  cases b
  · trivial
  · rfl

@[simp] theorem isSingle_ofInt64? (n : Option Int64) :
    (ofInt64? n).IsSingle .integer := by
  cases n
  · trivial
  · rfl

end Value

------------------------------------------------------------
-- Containers
------------------------------------------------------------

namespace Container

theorem isSingle_size (v : Value) :
    (size v).IsSingle .integer := by
  cases v
  case single => trivial
  case record => trivial
  all_goals rfl

theorem isSingle_member (v container : Value) :
    (member v container).IsSingle .boolean := by
  unfold member
  split
  · rfl
  · rfl
  · trivial

theorem isSingle_contains (container part : Value) :
    (contains container part).IsSingle .boolean := by
  unfold contains
  split
  · rfl
  · rfl
  · trivial

end Container

------------------------------------------------------------
-- Logic and Comparisons
------------------------------------------------------------

namespace Logic

theorem isSingle_conjunction (values : List Value) :
    (conjunction values).IsSingle .boolean := by
  unfold conjunction
  split
  · rfl
  · split
    · rfl
    · trivial

theorem isSingle_disjunction (values : List Value) :
    (disjunction values).IsSingle .boolean := by
  unfold disjunction
  split
  · rfl
  · split
    · rfl
    · trivial

theorem isSingle_same (v w : Value) :
    (same v w).IsSingle .boolean := by
  unfold same
  split
  · trivial
  · rfl

theorem isSingle_anyN (min max : Int64) (values : List Value) :
    (anyN min max values).IsSingle .boolean := by
  unfold anyN
  dsimp only
  split
  · rfl
  · split
    · rfl
    · split
      · rfl
      · trivial

end Logic

theorem isSingle_compareDurations
    (v w : Value)
    (holds : Float → Float → Bool) :
    (compareDurations v w holds).IsSingle .boolean := by
  unfold compareDurations
  split
  · rfl
  · trivial

theorem isSingle_compareStrings
    (caseSensitive substring : Bool)
    (v w : Value) :
    (compareStrings caseSensitive substring v w).IsSingle
      .boolean := by
  unfold compareStrings
  split
  · rfl
  · trivial

theorem Shape.isSingle_holdsAny
    (shape : Shape)
    (coords : List Int64)
    (v : Value) :
    (shape.holdsAny coords v).IsSingle .boolean := by
  unfold holdsAny
  split
  · rfl
  · trivial

------------------------------------------------------------
-- Functions of Numbers
------------------------------------------------------------

namespace Arithmetic

variable {type : BaseType}

theorem isSingle_ofNumber
    {f : Float → Value}
    (hValue : ∀ x, (f x).IsSingle type)
    (values : List Value) :
    (ofNumber values f).IsSingle type := by
  unfold ofNumber
  split
  · exact hValue _
  · trivial

theorem isSingle_ofNumbers
    {f : Float → Float → Value}
    (hValue : ∀ x y, (f x y).IsSingle type)
    (values : List Value) :
    (ofNumbers values f).IsSingle type := by
  unfold ofNumbers
  split
  · exact hValue _ _
  · trivial

theorem isSingle_ofIntegers
    (f : Int64 → Int64 → Option Int64)
    (values : List Value) :
    (ofIntegers values f).IsSingle .integer := by
  unfold ofIntegers
  split
  · exact Value.isSingle_ofInt64? _
  · trivial

theorem isSingle_divide (x y : Float) :
    (divide x y).IsSingle .float := by
  unfold divide
  split
  · trivial
  · exact Value.isSingle_float _

end Arithmetic

theorem isSingle_compareNumbers
    (values : List Value)
    (holds : Float → Float → Bool) :
    (compareNumbers values holds).IsSingle .boolean := by
  apply Arithmetic.isSingle_ofNumbers
  intro x y
  exact Value.isSingle_boolean _

theorem MathOperator.isSingle_apply
    (op : MathOperator)
    (xs : List Float) :
    (op.apply xs).IsSingle
      (if op.givesInteger then .integer else .float) := by
  unfold apply
  cases op.result? xs with
  | none => trivial
  | some x =>
      dsimp only
      split
      · exact Value.isSingle_ofInt64? _
      · exact Value.isSingle_float _

theorem StatsOperator.isSingle_apply
    (op : StatsOperator)
    (xs : List Float) :
    (op.apply xs).IsSingle .float := by
  unfold apply
  dsimp only
  split
  · trivial
  · cases op
    case sampleVariance =>
      dsimp only
      split
      · trivial
      · exact Value.isSingle_float _
    case sampleDeviation =>
      dsimp only
      split
      · trivial
      · exact Value.isSingle_float _
    all_goals exact Value.isSingle_float _

theorem StatsOperator.isSingle_ofContainer
    (op : StatsOperator)
    (v : Value) :
    (op.ofContainer v).IsSingle .float := by
  unfold ofContainer
  split
  case h_1 | h_2 =>
    split
    · exact op.isSingle_apply _
    · trivial
  case h_3 => trivial

/- The base type of a plain operator is that of its values. -/
theorem PlainOperator.isSingle_value
    {op : PlainOperator}
    {type : BaseType}
    (hType : op.baseType? = some type)
    (values : List Value) :
    (op.value values).IsSingle type := by
  cases op <;> cases hType
  case and => exact Logic.isSingle_conjunction _
  case or => exact Logic.isSingle_disjunction _
  case not => exact Value.isSingle_ofBool? _
  case isNull => exact Value.isSingle_boolean _
  case «match» => exact Logic.isSingle_same _ _
  case lt => exact isSingle_compareNumbers _ _
  case lte => exact isSingle_compareNumbers _ _
  case gt => exact isSingle_compareNumbers _ _
  case gte => exact isSingle_compareNumbers _ _
  case durationLt => exact isSingle_compareDurations _ _ _
  case durationGte => exact isSingle_compareDurations _ _ _
  case divide =>
      exact Arithmetic.isSingle_ofNumbers
        Arithmetic.isSingle_divide _
  case power =>
      apply Arithmetic.isSingle_ofNumbers
      exact fun _ _ => Value.isSingle_float _
  case integerDivide => exact Arithmetic.isSingle_ofIntegers _ _
  case integerModulus => exact Arithmetic.isSingle_ofIntegers _ _
  case truncate =>
      apply Arithmetic.isSingle_ofNumber
      exact fun _ => Value.isSingle_ofInt64? _
  case round =>
      apply Arithmetic.isSingle_ofNumber
      exact fun _ => Value.isSingle_ofInt64? _
  case integerToFloat =>
      simp only [value]
      split
      · exact Value.isSingle_float _
      · trivial
  case containerSize => exact Container.isSingle_size _
  case member => exact Container.isSingle_member _ _
  case contains => exact Container.isSingle_contains _ _

/- A plain operator without one adds up, collects or chooses. -/
theorem PlainOperator.mem_of_baseType?_eq_none
    {op : PlainOperator}
    (hType : op.baseType? = none) :
    op ∈ [sum, product, subtract, max, min, multiple, ordered,
      delete, random] := by
  revert hType
  cases op <;> decide

------------------------------------------------------------
-- Integers and Floats
------------------------------------------------------------

namespace Arithmetic

theorem integers?_eq_none
    {values : List Value}
    {v : Value}
    (hMem : v ∈ values)
    (hNone : v.int64? = none) :
    integers? values = none := by
  induction values with
  | nil => cases hMem
  | cons w rest ih =>
      rw [integers?]
      rcases List.mem_cons.mp hMem with rfl | hLater
      · rw [hNone]
      · rw [ih hLater]
        cases w.int64? <;> rfl

/- Numbers that are all integers can be taken as integers. -/
theorem integers?_ne_none
    {values : List Value}
    (hAll :
      ∀ v ∈ values, v.number?.isSome = true →
        v.int64?.isSome = true)
    {xs : List Float}
    (hNumbers : numbers? values = some xs) :
    integers? values ≠ none := by
  induction values generalizing xs with
  | nil => simp [integers?]
  | cons v rest ih =>
      rw [numbers?] at hNumbers
      split at hNumbers
      next x xs' hFirst hRest =>
        have hV := hAll v List.mem_cons_self (by simp [hFirst])
        have hLater := ih
          (fun w hMem => hAll w (List.mem_cons_of_mem v hMem))
          hRest
        rw [integers?]
        cases hInt : v.int64? with
        | none => simp [hInt] at hV
        | some n =>
            cases hInts : integers? rest with
            | none => exact absurd hInts hLater
            | some ns => simp
      next => cases hNumbers

end Arithmetic

/- NULL, or a value of a base type, whatever its cardinality. -/
def Value.HasType (type : BaseType) (v : Value) : Prop :=
  v = .null ∨ v.baseType? = some type

namespace Value.HasType

variable {v : Value}

theorem int64?_isSome
    (hType : v.HasType .integer)
    (hNumber : v.number?.isSome = true) :
    v.int64?.isSome = true := by
  rcases hType with rfl | hType
  · cases hNumber
  · cases v with
    | single s =>
        cases s with
        | integer n => rfl
        | _ => cases hType
    | _ => cases hNumber

theorem int64?_eq_none
    (hType : v.HasType .float) :
    v.int64? = none := by
  rcases hType with rfl | hType
  · rfl
  · cases v with
    | single s =>
        cases s with
        | integer n => cases hType
        | _ => rfl
    | _ => rfl

end Value.HasType

namespace Arithmetic

variable {values : List Value}
variable {whole : List Int64 → Option Int64}
variable {rounded : List Float → Float}

/- Integers give an integer. -/
theorem isSingle_withIntegers_of_integers
    (hAll : ∀ v ∈ values, v.HasType .integer) :
    (withIntegers values whole rounded).IsSingle .integer := by
  unfold withIntegers
  split
  · exact Value.isSingle_ofInt64? _
  next hNone =>
    split
    next xs hNumbers =>
      have hSome := integers?_ne_none
        (fun v hMem => (hAll v hMem).int64?_isSome) hNumbers
      exact absurd hNone hSome
    next => trivial

/- With a float among them the operands give a float. -/
theorem isSingle_withIntegers_of_float
    {v : Value}
    (hMem : v ∈ values)
    (hFloat : v.HasType .float) :
    (withIntegers values whole rounded).IsSingle .float := by
  unfold withIntegers
  rw [integers?_eq_none hMem hFloat.int64?_eq_none]
  dsimp only
  split
  · exact Value.isSingle_float _
  · trivial

theorem isSingle_withIntegers
    (values : List Value)
    (whole : List Int64 → Option Int64)
    (rounded : List Float → Float) :
    (withIntegers values whole rounded).IsSingle .integer ∨
      (withIntegers values whole rounded).IsSingle .float := by
  unfold withIntegers
  split
  · exact Or.inl (Value.isSingle_ofInt64? _)
  · split
    · exact Or.inr (Value.isSingle_float _)
    · exact Or.inl trivial

theorem isSingle_extreme
    (pick : Float → Float → Float)
    (start : Float)
    (values : List Value) :
    (extreme pick start values).IsSingle .integer ∨
      (extreme pick start values).IsSingle .float := by
  unfold extreme
  split
  · exact Or.inl trivial
  · split
    · exact Or.inl trivial
    · exact Or.inl trivial
    · dsimp only
      split
      · exact Or.inl (Value.isSingle_ofInt64? _)
      · exact Or.inr (Value.isSingle_float _)

end Arithmetic

------------------------------------------------------------
-- Items of a Test
------------------------------------------------------------

/- Counts are integers, and bounds and variables are lists. -/
theorem ItemSubset.isSingle_value
    {s : ItemSubset}
    {type : BaseType}
    (hSingle : some s.kind.cardinality = some .single)
    (hType : s.kind.baseType? = some type)
    (test : TestView) :
    (s.value test).IsSingle type := by
  unfold value
  dsimp only
  cases hKind : s.kind <;> rw [hKind] at hSingle hType
  case outcomeMinimum => cases hSingle
  case outcomeMaximum => cases hSingle
  case testVariables => cases hSingle
  all_goals
    cases hType
    exact Value.isSingle_integer _

end Assessment
