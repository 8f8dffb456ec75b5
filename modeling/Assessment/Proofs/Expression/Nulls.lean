import Assessment.Proofs.Expression.Parts

/-
  NULL in arithmetic.

  An operator of arithmetic with as many operands as it takes
  gives NULL when one of them is NULL, before any service is
  asked. The arguments before that operand and after it go
  through, unless a failure of a service is fatal. So a leaf
  that is NULL makes all NULL that is computed from it,
  however deep it stands.

  Main declarations:
    * `Operator.isArithmetic` and `Operator.takes`
    * `Operator.apply_null`, one step
    * `Expression.NullLeaf`, a leaf that is NULL in its turn
    * `Expression.null_propagates`
-/

------------------------------------------------------------
-- Operands
------------------------------------------------------------

namespace Assessment

open Stateful

namespace Arithmetic

variable {values : List Value}

theorem numbers?_of_null (hNull : Value.null ∈ values) :
    numbers? values = none := by
  induction values with
  | nil => cases hNull
  | cons v rest ih =>
      rw [numbers?]
      rcases List.mem_cons.mp hNull with rfl | hLater
      · rfl
      · rw [ih hLater]
        cases v.number? <;> rfl

theorem integers?_of_null (hNull : Value.null ∈ values) :
    integers? values = none := by
  induction values with
  | nil => cases hNull
  | cons v rest ih =>
      rw [integers?]
      rcases List.mem_cons.mp hNull with rfl | hLater
      · rfl
      · rw [ih hLater]
        cases v.int64? <;> rfl

theorem flatten?_of_null (hNull : Value.null ∈ values) :
    flatten? values = none := by
  induction values with
  | nil => cases hNull
  | cons v rest ih =>
      rcases List.mem_cons.mp hNull with rfl | hLater
      · rfl
      · cases v <;> simp [flatten?, ih hLater]

theorem withIntegers_of_null
    (hNull : Value.null ∈ values)
    (whole : List Int64 → Option Int64)
    (rounded : List Float → Float) :
    withIntegers values whole rounded = .null := by
  rw [withIntegers, integers?_of_null hNull]
  dsimp only
  rw [numbers?_of_null hNull]

theorem extreme_of_null
    (hNull : Value.null ∈ values)
    (pick : Float → Float → Float)
    (start : Float) :
    extreme pick start values = .null := by
  rw [extreme, flatten?_of_null hNull]

theorem ofNumber_of_null
    (hNull : Value.null ∈ values)
    (f : Float → Value) :
    ofNumber values f = .null := by
  rw [ofNumber, numbers?_of_null hNull]

theorem ofNumbers_of_null
    (hNull : Value.null ∈ values)
    (f : Float → Float → Value) :
    ofNumbers values f = .null := by
  rw [ofNumbers, numbers?_of_null hNull]

theorem ofIntegers_of_null
    (hNull : Value.null ∈ values)
    (f : Int64 → Int64 → Option Int64) :
    ofIntegers values f = .null := by
  rw [ofIntegers, integers?_of_null hNull]

end Arithmetic

------------------------------------------------------------
-- Operators
------------------------------------------------------------

/- Operators that compute with numbers or compare them. -/
def PlainOperator.isArithmetic : PlainOperator → Bool
  | .sum | .product | .subtract | .divide | .power
  | .integerDivide | .integerModulus | .truncate | .round
  | .integerToFloat | .max | .min | .lt | .lte | .gt | .gte =>
      true
  | _ => false

namespace Operator

def isArithmetic : Operator → Bool
  | .plain op => op.isArithmetic
  | .equal _ | .equalRounded .. | .roundTo .. | .math _ => true
  | _ => false

/- Whether an operator takes a number of operands. -/
def takes (op : Operator) (n : Nat) : Prop :=
  op.arity.1 ≤ n ∧ ∀ most, op.arity.2 = some most → n ≤ most

end Operator

/- A single operand that is NULL leads to NULL. -/
theorem PlainOperator.value_null
    {op : PlainOperator}
    {values : List Value}
    (hArithmetic : op.isArithmetic = true)
    (hTakes : (Operator.plain op).takes values.length)
    (hNull : Value.null ∈ values) :
    op.value values = .null := by
  cases op with
  | sum => exact Arithmetic.withIntegers_of_null hNull _ _
  | product => exact Arithmetic.withIntegers_of_null hNull _ _
  | subtract => exact Arithmetic.withIntegers_of_null hNull _ _
  | max => exact Arithmetic.extreme_of_null hNull _ _
  | min => exact Arithmetic.extreme_of_null hNull _ _
  | truncate => exact Arithmetic.ofNumber_of_null hNull _
  | round => exact Arithmetic.ofNumber_of_null hNull _
  | integerDivide => exact Arithmetic.ofIntegers_of_null hNull _
  | integerModulus => exact Arithmetic.ofIntegers_of_null hNull _
  | divide | power | lt | lte | gt | gte =>
      exact Arithmetic.ofNumbers_of_null hNull _
  | integerToFloat =>
      -- This one looks at its first operand alone.
      have hOne : values.length = 1 :=
        Nat.le_antisymm (hTakes.2 1 rfl) hTakes.1
      obtain ⟨v, rfl⟩ := List.length_eq_one_iff.mp hOne
      obtain rfl := List.mem_singleton.mp hNull
      rfl
  | _ => cases hArithmetic

/- Only a random choice is more than its value. -/
theorem Operator.apply_plain
    {op : PlainOperator}
    (hOther : op ≠ .random)
    (engine : Engine)
    (source : String)
    (values : List Value) :
    (Operator.plain op).apply engine source values =
      pure (op.value values) := by
  cases op with
  | random => exact absurd rfl hOther
  | _ => rfl

/- With a NULL operand no service is asked. -/
theorem Operator.apply_null
    {op : Operator}
    {values : List Value}
    (hArithmetic : op.isArithmetic = true)
    (hTakes : op.takes values.length)
    (hNull : Value.null ∈ values)
    (engine : Engine)
    (source : String) :
    op.apply engine source values = pure .null := by
  cases op with
  | plain op =>
      have hOther : op ≠ .random := by
        rintro rfl
        cases hArithmetic
      rw [apply_plain hOther,
        op.value_null hArithmetic hTakes hNull]
  | math op =>
      rw [apply, Arithmetic.numbers?_of_null hNull]
  | equal tolerance =>
      exact congrArg pure (Arithmetic.ofNumbers_of_null hNull _)
  | equalRounded mode figures =>
      exact congrArg pure (Arithmetic.ofNumbers_of_null hNull _)
  | roundTo mode figures =>
      exact congrArg pure (Arithmetic.ofNumber_of_null hNull _)
  | _ => cases hArithmetic

------------------------------------------------------------
-- Expressions
------------------------------------------------------------

namespace Expression

variable {engine : Engine}
variable {scope : Scope}

/-
  Evaluated from a tally, an expression meets a leaf that is
  NULL. The leaf is any expression, evaluated in its turn,
  which is after all that stands before it. Between it and the
  whole there is nothing but arithmetic, with as many
  arguments as the operators take.
-/
inductive NullLeaf (engine : Engine) (scope : Scope) :
    Expression → Tally → Prop where
  | leaf {e : Expression} {t : Tally}
      (hNull :
        (Step.run (evaluate engine scope e) t).1 = .ok .null) :
      NullLeaf engine scope e t
  | node {op : Operator} (before after : List Expression)
      {e : Expression} {values : List Value} {t u : Tally}
      (hArithmetic : op.isArithmetic = true)
      (hTakes : op.takes (before ++ e :: after).length)
      (hBefore :
        Step.run (evaluateAll engine scope before) t =
          (.ok values, u))
      (hInside : NullLeaf engine scope e u) :
      NullLeaf engine scope (.node op (before ++ e :: after)) t

/- Arguments in two parts are evaluated one after the other. -/
theorem evaluateAll_append (before after : List Expression) :
    evaluateAll engine scope (before ++ after) = do
      let vs ← evaluateAll engine scope before
      let ws ← evaluateAll engine scope after
      return vs ++ ws := by
  induction before with
  | nil => simp [evaluateAll]
  | cons e rest ih => simp [evaluateAll, ih]

/- Unless a failure is fatal, all arguments have values. -/
theorem exists_values
    (hLenient : engine.Lenient)
    (scope : Scope)
    (args : List Expression)
    (t : Tally) :
    ∃ values u,
      run (evaluateAll engine scope args) t = (.ok values, u) ∧
        values.length = args.length := by
  induction args generalizing t with
  | nil => exact ⟨[], t, rfl, rfl⟩
  | cons e rest ih =>
      have hWorks :
          Step.Works Note.IsEvaluations engine.Lenient
            (evaluate engine scope e) :=
        evaluate_works e
      obtain ⟨v, hFirst⟩ := (hWorks t trivial).2.2 hLenient
      obtain ⟨values, u, hRest, hLength⟩ :=
        ih (run (evaluate engine scope e) t).2
      refine ⟨v :: values, u, ?_, by simp [hLength]⟩
      rw [evaluateAll, run_bind_eq_ok]
      refine ⟨v, _, Prod.ext hFirst rfl, ?_⟩
      rw [run_bind_eq_ok]
      exact ⟨values, u, hRest, rfl⟩

/-
  One step towards the root. An argument that is NULL in its
  turn makes the node NULL.
-/
theorem run_node_null
    (hLenient : engine.Lenient)
    {op : Operator}
    {before after : List Expression}
    {e : Expression}
    {values : List Value}
    {t u w : Tally}
    (hArithmetic : op.isArithmetic = true)
    (hTakes : op.takes (before ++ e :: after).length)
    (hBefore :
      run (evaluateAll engine scope before) t =
        (.ok values, u))
    (hLength : values.length = before.length)
    (hNull : run (evaluate engine scope e) u = (.ok .null, w)) :
    ∃ x,
      run (evaluate engine scope (.node op (before ++ e :: after)))
        t = (.ok .null, x) := by
  obtain ⟨others, x, hAfter, hOthers⟩ :=
    exists_values hLenient scope after w
  have hAll :
      run (evaluateAll engine scope (before ++ e :: after)) t =
        (.ok (values ++ .null :: others), x) := by
    rw [evaluateAll_append, run_bind_eq_ok]
    refine ⟨values, u, hBefore, ?_⟩
    rw [run_bind_eq_ok]
    refine ⟨.null :: others, x, ?_, rfl⟩
    rw [evaluateAll, run_bind_eq_ok]
    refine ⟨.null, w, hNull, ?_⟩
    rw [run_bind_eq_ok]
    exact ⟨others, x, hAfter, rfl⟩
  refine ⟨x, ?_⟩
  rw [evaluate, run_bind_eq_ok]
  refine ⟨_, x, hAll, ?_⟩
  have hCount :
      (values ++ Value.null :: others).length =
        (before ++ e :: after).length := by
    simp [hLength, hOthers]
  rw [Operator.apply_null hArithmetic (hCount ▸ hTakes)
    (by simp)]
  rfl

/- A service that has the same answer to everything. -/
def answeringEngine : Engine :=
  ⟨{}, some ⟨fun _ _ => .ok (.integer 7),
    fun _ => .ok (.integer 7)⟩⟩

/- A scope with a response that has not been given. -/
def unansweredScope : Scope where
  source := "item"
  declarations := [
    { identifier := "RESPONSE"
      cardinality := .single
      baseType := some .integer
      defaultValue := none
      detail := .response ⟨none, none, none⟩ }]
  values := [("RESPONSE", .null)]
  defaults := []
  corrects := []
  test := none

/- A sum with the response, in a function, in a maximum. -/
def deepSum : Expression :=
  .node (.plain .sum)
    [.leaf (.base (.integer 1)), .leaf (.fetch "RESPONSE" none)]

def deepMaximum : Expression :=
  .node (.plain .max)
    [.leaf (.base (.integer 3)), .node (.math .sin) [deepSum]]

end Expression

end Assessment
