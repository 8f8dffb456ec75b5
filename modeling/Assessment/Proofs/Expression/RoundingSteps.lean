import Assessment.Expression.Mathematics
import Assessment.Proofs.Number.Multiples

/-
  Rounding of decimals step by step.

  Rounding to leading digits takes three steps. The digits
  before the point are counted: in the text of the integral
  part or, below one, by multiplying by ten until one is
  reached. Then it is known which places to keep. If they are
  all before the point, the number is divided by a power of
  ten, rounded to a whole one and multiplied again.

  The multiplication and division of decimals are those of a
  library. All that is used of them is that they are exact
  where a decimal of limited size is the result, and that
  products which are too large have none. Then no step on the
  way fails, and what comes out is the nearest multiple.

  Main declarations:
    * `DecimalArithmetic` and `DecimalArithmetic.Exact`
    * `DecimalArithmetic.round?`, the steps
    * `DecimalArithmetic.strict`, an arithmetic that is exact
    * `DecimalArithmetic.shift?_eq`, the loop ends
    * `DecimalArithmetic.rounds_toFigures?`
    * `Rounding.rounds_round?` and `rounds_decimal?`
    * `Rounding.rounds_exactly`
-/

------------------------------------------------------------
-- Steps
------------------------------------------------------------

namespace Assessment

/- Multiplication and division, which may have no result. -/
structure DecimalArithmetic where
  multiply? : Decimal → Decimal → Option Decimal
  divide? : Decimal → Decimal → Option Decimal

namespace Decimal

def one : Decimal := ⟨false, 1, 0⟩

def ten : Decimal := ⟨false, 10, 0⟩

/- A decimal without its sign. -/
def magnitude (d : Decimal) : Decimal :=
  { d with negative := false }

/- Whether a decimal is one or more. -/
def reachesOne (d : Decimal) : Bool :=
  !d.negative && tenTo d.scale ≤ d.mantissa

/- The integral part. -/
def whole (d : Decimal) : Nat :=
  d.mantissa / tenTo d.scale

/- At most so many digits between the outer zeros. -/
def HasFigures (d : Decimal) (n : Nat) : Prop :=
  ∃ a j, d.mantissa = a * 10 ^ j ∧ a < 10 ^ n

end Decimal

namespace DecimalArithmetic

open Decimal

/-
  Multiplies by ten until one is reached. The count goes down
  each time but the last.
-/
def countDown? (ops : DecimalArithmetic)
    (probe : Decimal) (shift : Int) : Option Int := do
  let probe ← ops.multiply? probe ten
  if probe.reachesOne then return shift
  else ops |>.countDown? probe (shift - 1)
partial_fixpoint

/- The digits before the point, or minus the zeros after it. -/
def shift? (ops : DecimalArithmetic) (d : Decimal) : Option Int :=
  if d.magnitude.reachesOne then
    some (Nat.toDigits 10 d.magnitude.whole).length
  else ops.countDown? d.magnitude 0

/- A power of ten, by one multiplication after the other. -/
def powerOfTen? (ops : DecimalArithmetic) : Nat → Option Decimal
  | 0 => some one
  | k + 1 => do
      let p ← ops.powerOfTen? k
      ops.multiply? p ten

/- Rounds to a multiple of a power of ten above one. -/
def toUnits? (ops : DecimalArithmetic)
    (d : Decimal) (k : Nat) : Option Decimal := do
  let unit ← ops.powerOfTen? k
  let scaled ← ops.divide? d unit
  ops.multiply? (scaled.toPlaces 0) unit

/- A number of 32 bits without a sign. -/
def word? (n : Int) : Option Nat :=
  if 0 ≤ n ∧ n < twoTo 32 then some n.toNat else none

/- Rounds to so many leading digits. -/
def toFigures? (ops : DecimalArithmetic)
    (d : Decimal) (figures : Int) : Option Decimal :=
  if d.isZero then some .zero
  else do
    let shift ← ops.shift? d
    let places := figures - shift
    if 0 ≤ places then (word? places).map d.toPlaces
    else (word? (-places)).bind (ops.toUnits? d)

/- Rounds in a mode that allows the figures. -/
def round? (ops : DecimalArithmetic) (d : Decimal)
    (mode : RoundingMode) (figures : Int64) : Option Decimal :=
  if !mode.allows figures then none
  else
    match mode with
    | .decimalPlaces => (word? figures.toInt).map d.toPlaces
    | .significantFigures => ops.toFigures? d figures.toInt

------------------------------------------------------------
-- Exact Arithmetic
------------------------------------------------------------

/- A result that fits with a number. -/
def Yields (r : Option Decimal) (q : ℚ) : Prop :=
  ∃ d, r = some d ∧ d.Fits ∧ d.signed = q

/-
  Results are exact where they fit, and there is none where a
  product is too large.
-/
structure Exact (ops : DecimalArithmetic) : Prop where
  products :
    ∀ a b : Decimal, a.Fits → b.Fits →
      Representable (a.signed * b.signed) →
        Yields (ops.multiply? a b) (a.signed * b.signed)
  overflow :
    ∀ a b : Decimal, a.Fits → b.Fits →
      maxMantissa + 1 ≤ |a.signed * b.signed| →
        ops.multiply? a b = none
  quotients :
    ∀ a b : Decimal, a.Fits → b.Fits → b.signed ≠ 0 →
      Representable (a.signed / b.signed) →
        Yields (ops.divide? a b) (a.signed / b.signed)

variable {ops : DecimalArithmetic} {d : Decimal}

theorem fits_ten : ten.Fits := ⟨by decide, by decide⟩

theorem signed_ten : ten.signed = 10 := by
  simp [ten, signed, withSign, value]

theorem signed_one : one.signed = 1 := by
  simp [one, signed, withSign, value]

/- A positive number has no sign, and some digits. -/
theorem of_signed_pos (hPos : 0 < d.signed) :
    d.negative = false ∧ d.value = d.signed ∧ 0 < d.mantissa := by
  have hSign : d.negative = false := by
    by_contra hNegative
    rw [signed, withSign, if_pos (by simpa using hNegative)] at hPos
    linarith [d.value_nonneg]
  have hValue : d.value = d.signed := by
    rw [signed, withSign, hSign, if_neg Bool.false_ne_true]
  refine ⟨hSign, hValue, Nat.pos_of_ne_zero fun hZero => ?_⟩
  rw [← hValue, value, hZero, Nat.cast_zero, zero_div] at hPos
  exact lt_irrefl _ hPos

theorem reachesOne_iff (hSign : d.negative = false) :
    d.reachesOne = true ↔ 1 ≤ d.value := by
  have hCast :
      (10 : ℚ) ^ d.scale ≤ d.mantissa ↔
        10 ^ d.scale ≤ d.mantissa := by
    exact_mod_cast Iff.rfl
  rw [reachesOne, hSign, Bool.not_false, Bool.true_and,
    decide_eq_true_eq, tenTo_eq, value, one_le_div (by positivity),
    hCast]

------------------------------------------------------------
-- Operations Without Rounding
------------------------------------------------------------

/- Whether `m / 10 ^ s` fits without some zeros at its end. -/
def FitsWithout (m s k : Nat) : Prop :=
  10 ^ k ∣ m ∧ m / 10 ^ k ≤ maxMantissa ∧ s - k ≤ maxScale

instance (m s k : Nat) : Decidable (FitsWithout m s k) :=
  inferInstanceAs (Decidable (_ ∧ _ ∧ _))

/- The number `m / 10 ^ s` under a sign, if it fits. -/
def exactly? (negative : Bool) (m s : Nat) : Option Decimal :=
  ((List.range (s + 1)).find? (FitsWithout m s ·)).map fun k =>
    make negative (m / 10 ^ k) (s - k)

/- Products and quotients that need not be rounded. -/
def strict : DecimalArithmetic where
  multiply? a b :=
    exactly? (a.negative != b.negative) (a.mantissa * b.mantissa)
      (a.scale + b.scale)
  divide? a b :=
    let n := a.mantissa * 10 ^ (b.scale + maxScale)
    let divisor := b.mantissa * 10 ^ a.scale
    if divisor ∣ n then
      exactly? (a.negative != b.negative) (n / divisor) maxScale
    else none

/- The number is found if any decimal that fits is it. -/
theorem yields_exactly?
    (negative : Bool)
    {m s : Nat}
    {r : Decimal}
    (hFits : r.Fits)
    (hValue : (m / 10 ^ s : ℚ) = r.value) :
    Yields (exactly? negative m s) (withSign negative (m / 10 ^ s)) := by
  have hCross : m * 10 ^ r.scale = r.mantissa * 10 ^ s := by
    rw [value, div_eq_div_iff (by positivity) (by positivity)]
      at hValue
    exact_mod_cast hValue
  have hTen (k : Nat) : 0 < 10 ^ k := by positivity
  have hSome : ∃ k, k < s + 1 ∧ FitsWithout m s k := by
    rcases Nat.le_total r.scale s with hMore | hLess
    · obtain ⟨k, rfl⟩ := Nat.exists_eq_add_of_le hMore
      have hM : m = r.mantissa * 10 ^ k := by
        rw [Nat.pow_add, Nat.mul_left_comm, Nat.mul_comm m] at hCross
        exact Nat.eq_of_mul_eq_mul_left (hTen r.scale) hCross
      refine ⟨k, by omega, ⟨r.mantissa, by rw [hM, Nat.mul_comm]⟩,
        ?_, ?_⟩
      · rw [hM, Nat.mul_div_cancel _ (hTen k)]
        exact hFits.mantissa
      · rw [Nat.add_sub_cancel]
        exact hFits.scale
    · obtain ⟨k, hK⟩ := Nat.exists_eq_add_of_le hLess
      have hM : m * 10 ^ k = r.mantissa := by
        rw [hK, Nat.pow_add, Nat.mul_left_comm,
          Nat.mul_comm r.mantissa] at hCross
        exact Nat.eq_of_mul_eq_mul_left (hTen s) hCross
      refine ⟨0, by omega, Nat.one_dvd m, ?_, ?_⟩
      · rw [pow_zero, Nat.div_one]
        refine le_trans ?_ hFits.mantissa
        rw [← hM]
        exact Nat.le_mul_of_pos_right m (hTen k)
      · exact (Nat.sub_le s 0).trans (hLess.trans hFits.scale)
  unfold exactly?
  cases hFound : (List.range (s + 1)).find? (FitsWithout m s ·) with
  | none =>
      obtain ⟨k, hK, hHolds⟩ := hSome
      exact absurd (decide_eq_true hHolds)
        (List.find?_eq_none.mp hFound k (List.mem_range.mpr hK))
  | some k =>
      have hK := List.mem_range.mp (List.mem_of_find?_eq_some hFound)
      have hHolds := List.find?_some hFound
      obtain ⟨hWhole, hMantissa, hScale⟩ := of_decide_eq_true hHolds
      refine ⟨_, rfl, ⟨hMantissa, hScale⟩, ?_⟩
      rw [signed_make, Nat.cast_div hWhole (by positivity)]
      congr 1
      have hSplit : s = s - k + k := by omega
      conv_rhs => rw [hSplit, pow_add]
      push_cast
      field_simp

/- A number that is too large is not found. -/
theorem exactly?_eq_none
    (negative : Bool)
    {m s : Nat}
    (hLarge : (maxMantissa : ℚ) + 1 ≤ m / 10 ^ s) :
    exactly? negative m s = none := by
  have hMany : (maxMantissa + 1) * 10 ^ s ≤ m := by
    rw [le_div_iff₀ (by positivity)] at hLarge
    exact_mod_cast hLarge
  rw [exactly?, Option.map_eq_none_iff, List.find?_eq_none]
  intro k hMem hHolds
  have hK := List.mem_range.mp hMem
  have hLess : 10 ^ k ≤ 10 ^ s :=
    Nat.pow_le_pow_right (by decide) (by omega)
  have hQuotient : maxMantissa + 1 ≤ m / 10 ^ k := by
    rw [Nat.le_div_iff_mul_le (by positivity)]
    exact (Nat.mul_le_mul_left _ hLess).trans hMany
  have hFits := (of_decide_eq_true hHolds).2.1
  omega

theorem withSign_mul (a b : Bool) (p q : ℚ) :
    withSign a p * withSign b q = withSign (a != b) (p * q) := by
  cases a <;> cases b <;> simp [withSign]

theorem withSign_div (a b : Bool) (p q : ℚ) :
    withSign a p / withSign b q = withSign (a != b) (p / q) := by
  cases a <;> cases b <;> simp [withSign, neg_div, div_neg]

/- So there are operations that are exact. -/
theorem exact_strict : strict.Exact where
  products a b hA hB hHeld := by
    obtain ⟨r, hFits, hR⟩ := hHeld
    have hValue :
        ((a.mantissa * b.mantissa : Nat) / 10 ^ (a.scale + b.scale) : ℚ) =
          a.value * b.value := by
      rw [value, value, pow_add]
      push_cast
      field_simp
    have hAbs : r.value = a.value * b.value := by
      rw [← abs_signed, hR, abs_mul, abs_signed, abs_signed]
    rw [signed, signed, withSign_mul, ← hValue]
    exact yields_exactly? _ hFits (hValue.trans hAbs.symm)
  overflow a b hA hB hLarge := by
    rw [abs_mul, abs_signed, abs_signed] at hLarge
    apply exactly?_eq_none
    refine hLarge.trans (le_of_eq ?_)
    rw [value, value, pow_add]
    push_cast
    field_simp
  quotients a b hA hB hNotZero hHeld := by
    obtain ⟨r, hFits, hR⟩ := hHeld
    have hAbs : r.value = a.value / b.value := by
      rw [← abs_signed, hR, abs_div, abs_signed, abs_signed]
    have hPos : 0 < b.value := by
      rw [← abs_signed]
      exact abs_pos.mpr hNotZero
    have hSome : 0 < b.mantissa := by
      by_contra hNone
      have hZero : b.mantissa = 0 := by omega
      rw [value, hZero, Nat.cast_zero, zero_div] at hPos
      exact lt_irrefl _ hPos
    obtain ⟨k, hK⟩ := Nat.exists_eq_add_of_le hFits.scale
    have hCross :
        a.mantissa * 10 ^ (b.scale + maxScale) =
          r.mantissa * 10 ^ k * (b.mantissa * 10 ^ a.scale) := by
      rw [value, value, value, div_div_div_eq,
        div_eq_div_iff (by positivity) (by positivity)] at hAbs
      have hNat :
          r.mantissa * (10 ^ a.scale * b.mantissa) =
            a.mantissa * 10 ^ b.scale * 10 ^ r.scale := by
        exact_mod_cast hAbs
      calc
        a.mantissa * 10 ^ (b.scale + maxScale) =
            a.mantissa * 10 ^ b.scale * 10 ^ r.scale * 10 ^ k := by
          rw [hK, pow_add, pow_add]
          ring
        _ = r.mantissa * (10 ^ a.scale * b.mantissa) * 10 ^ k := by
          rw [hNat]
        _ = _ := by ring
    have hDivisor : 0 < b.mantissa * 10 ^ a.scale := by positivity
    have hQuotient :
        strict.divide? a b =
          exactly? (a.negative != b.negative) (r.mantissa * 10 ^ k)
            maxScale := by
      unfold strict
      simp only [hCross, Nat.mul_div_cancel _ hDivisor,
        Nat.dvd_mul_left, if_true]
    have hValue :
        ((r.mantissa * 10 ^ k : Nat) / 10 ^ maxScale : ℚ) =
          r.value := by
      rw [hK, value, pow_add]
      push_cast
      field_simp
    rw [hQuotient, signed, signed, withSign_div, ← hAbs, ← hValue]
    exact yields_exactly? _ hFits hValue

------------------------------------------------------------
-- Counting Digits
------------------------------------------------------------

/- Below one there is a place to give up. -/
theorem representable_times_ten
    (hFits : d.Fits)
    (hPos : 0 < d.signed)
    (hBelow : d.value < 1) :
    Representable (d.signed * ten.signed) := by
  obtain ⟨hSign, hValue, hSome⟩ := of_signed_pos hPos
  have hScale : 0 < d.scale := by
    by_contra hNone
    have hZero : d.scale = 0 := by omega
    rw [value, hZero, pow_zero, div_one] at hBelow
    have hFew : d.mantissa < 1 := by exact_mod_cast hBelow
    omega
  obtain ⟨k, hK⟩ : ∃ k, d.scale = k + 1 :=
    ⟨d.scale - 1, by omega⟩
  refine ⟨⟨false, d.mantissa, k⟩, ⟨hFits.mantissa, ?_⟩, ?_⟩
  · have hMost := hFits.scale
    change k ≤ maxScale
    omega
  · rw [← hValue, signed_ten, value, hK, pow_succ, signed, value,
      withSign, if_neg Bool.false_ne_true]
    field_simp

/- A number that is ten times as large has a digit more. -/
theorem log_mul_ten {q : ℚ} (hPos : 0 < q) :
    Int.log 10 (q * 10) = Int.log 10 q + 1 := by
  have hTen (k : Int) : (10 : ℚ) ^ (k + 1) = 10 ^ k * 10 :=
    zpow_add_one₀ (by norm_num) k
  apply log_ten_eq
  · rw [hTen]
    exact mul_le_mul_of_nonneg_right (ten_zpow_log_le hPos)
      (by norm_num)
  · rw [hTen]
    exact mul_lt_mul_of_pos_right lt_ten_zpow_log (by norm_num)

theorem lt_one_iff {q : ℚ} (hPos : 0 < q) :
    q < 1 ↔ Int.log 10 q < 0 := by
  rw [← Int.lt_zpow_iff_log_lt (by decide) hPos, zpow_zero]

/-
  A turn of the loop comes to a number that is ten times as
  large. It was the last turn if that number has a digit
  before the point.
-/
theorem countDown?_turn
    (hExact : ops.Exact)
    {probe : Decimal}
    (hFits : probe.Fits)
    (hPos : 0 < probe.signed)
    (hBelow : Int.log 10 probe.value < 0) :
    ∃ next : Decimal, next.Fits ∧ 0 < next.signed ∧
      Int.log 10 next.value = Int.log 10 probe.value + 1 ∧
      ∀ shift,
        ops.countDown? probe shift =
          if Int.log 10 next.value < 0 then
            ops.countDown? next (shift - 1)
          else some shift := by
  obtain ⟨-, hValue, hSome⟩ := of_signed_pos hPos
  have hSmall := (lt_one_iff (value_pos hSome)).mpr hBelow
  obtain ⟨next, hNext, hNextFits, hSigned⟩ :=
    hExact.products probe ten hFits fits_ten
      (representable_times_ten hFits hPos hSmall)
  have hMore : 0 < next.signed := by
    rw [hSigned, signed_ten]
    positivity
  obtain ⟨hSign, hNextValue, hNextSome⟩ := of_signed_pos hMore
  have hReaches :
      next.reachesOne = true ↔ ¬Int.log 10 next.value < 0 := by
    rw [reachesOne_iff hSign, ← lt_one_iff (value_pos hNextSome),
      not_lt]
  refine ⟨next, hNextFits, hMore, ?_, fun shift => ?_⟩
  · rw [hNextValue, hSigned, signed_ten, ← hValue,
      log_mul_ten (value_pos hSome)]
  · rw [countDown?, hNext]
    simp only [bind, Option.bind, hReaches, ite_not]
    rfl

/- The loop ends, and no product is too large on the way. -/
theorem countDown?_eq
    (hExact : ops.Exact)
    (n : Nat)
    {probe : Decimal}
    (hFits : probe.Fits)
    (hPos : 0 < probe.signed)
    (hLog : Int.log 10 probe.value = -(n + 1 : Int))
    (shift : Int) :
    ops.countDown? probe shift = some (shift - n) := by
  induction n generalizing probe shift with
  | zero =>
      obtain ⟨next, -, -, hNextLog, hTurn⟩ :=
        countDown?_turn hExact hFits hPos (by omega)
      rw [hTurn, if_neg (by omega), Nat.cast_zero, Int.sub_zero]
  | succ n ih =>
      obtain ⟨next, hNextFits, hMore, hNextLog, hTurn⟩ :=
        countDown?_turn hExact hFits hPos (by omega)
      rw [hTurn, if_pos (by omega),
        ih hNextFits hMore (by omega) (shift - 1)]
      congr 1
      omega

/- So the digits before the point are counted. -/
theorem shift?_eq
    (hExact : ops.Exact)
    (hFits : d.Fits)
    (hSome : 0 < d.mantissa) :
    ops.shift? d = some (Int.log 10 d.value + 1) := by
  have hSign : d.magnitude.negative = false := rfl
  have hValue : d.magnitude.value = d.value := rfl
  have hPos := value_pos hSome
  have hSigned : 0 < d.magnitude.signed := by
    rw [signed, hSign, hValue]
    exact hPos
  unfold shift?
  split_ifs with hOne
  · rw [reachesOne_iff hSign, hValue] at hOne
    have hLength := length_floor (q := d.value) (k := 0)
      (by rwa [pow_zero, mul_one])
    have hWhole : ⌊d.value⌋₊ = d.magnitude.whole := by
      have hCast : d.value = d.mantissa / (10 ^ d.scale : Nat) := by
        rw [value, Nat.cast_pow]
        rfl
      rw [hCast, Nat.floor_div_eq_div]
      rfl
    rw [pow_zero, mul_one, Nat.cast_zero, Int.sub_zero, hWhole]
      at hLength
    rw [hLength]
  · rw [reachesOne_iff hSign, hValue, not_le, lt_one_iff hPos]
      at hOne
    obtain ⟨n, hN⟩ : ∃ n : Nat, Int.log 10 d.value = -(n + 1 : Int) :=
      ⟨(-Int.log 10 d.value - 1).toNat, by omega⟩
    have hMagnitude : d.magnitude.Fits :=
      ⟨hFits.mantissa, hFits.scale⟩
    rw [countDown?_eq hExact n hMagnitude hSigned (by rwa [hValue]),
      hN]
    congr 1
    omega

------------------------------------------------------------
-- Rounding Before the Point
------------------------------------------------------------

/- Decimals that fit have 29 digits and 28 places at most. -/
theorem log_bounds (hFits : d.Fits) (hSome : 0 < d.mantissa) :
    -28 ≤ Int.log 10 d.value ∧ Int.log 10 d.value ≤ 28 := by
  have hPos := value_pos hSome
  constructor
  · rw [← Int.zpow_le_iff_le_log (by decide) hPos]
    have hOne : (1 : ℚ) ≤ d.mantissa := by exact_mod_cast hSome
    have hUnit : (10 : ℚ) ^ d.scale ≤ 10 ^ 28 :=
      pow_le_pow_right₀ (by norm_num) hFits.scale
    calc
      (10 : ℚ) ^ (-28 : Int) = 1 / 10 ^ 28 := by norm_num
      _ ≤ 1 / 10 ^ d.scale := by gcongr
      _ ≤ d.value := by
        unfold value
        gcongr
  · apply Int.le_of_lt_add_one
    rw [← Int.lt_zpow_iff_log_lt (by decide) hPos]
    have hMost : (maxMantissa : ℚ) < 10 ^ 29 := by
      have hNat : maxMantissa < 10 ^ 29 := by decide
      exact_mod_cast hNat
    exact lt_of_le_of_lt hFits.value_le (by exact_mod_cast hMost)

/- The powers of ten up to the 28th are found. -/
theorem yields_powerOfTen?
    (hExact : ops.Exact)
    {k : Nat}
    (hFew : k ≤ 28) :
    Yields (ops.powerOfTen? k) (10 ^ k) := by
  induction k with
  | zero =>
      refine ⟨one, rfl, ⟨by decide, by decide⟩, ?_⟩
      rw [signed_one, pow_zero]
  | succ k ih =>
      obtain ⟨p, hP, hFits, hSigned⟩ := ih (by omega)
      have hProduct : p.signed * ten.signed = 10 ^ (k + 1) := by
        rw [hSigned, signed_ten, pow_succ]
      have hHeld : Representable (p.signed * ten.signed) := by
        have hMost : 10 ^ (k + 1) ≤ 10 ^ 28 :=
          Nat.pow_le_pow_right (by decide) hFew
        rw [hProduct]
        exact_mod_cast representable_intCast
          (n := ((10 ^ (k + 1) : Nat) : Int))
          (hMost.trans (by decide))
      have hNext := hExact.products p ten hFits fits_ten hHeld
      rw [hProduct] at hNext
      rw [powerOfTen?, hP]
      exact hNext

/-
  A number of few digits has places enough to be divided by a
  power of ten that is not above it.
-/
theorem representable_over
    (hFits : d.Fits)
    {a j k : Nat}
    (hDigits : d.mantissa = a * 10 ^ j)
    (hFew : a < 10 ^ 17)
    (hBelow : 10 ^ k ≤ d.value) :
    Representable (d.signed / 10 ^ k) := by
  have hValue : d.value = a * 10 ^ j / 10 ^ d.scale := by
    rw [value, hDigits]
    push_cast
    rfl
  have hOver (q : ℚ) :
      withSign d.negative q / 10 ^ k =
        withSign d.negative (q / 10 ^ k) := by
    unfold withSign
    split_ifs
    · exact neg_div _ _
    · rfl
  rw [signed, hOver, hValue]
  by_cases hWhole : d.scale + k ≤ j
  · obtain ⟨i, rfl⟩ := Nat.exists_eq_add_of_le hWhole
    refine ⟨⟨d.negative, a * 10 ^ i, 0⟩, ⟨?_, Nat.zero_le _⟩, ?_⟩
    · refine le_trans ?_ hFits.mantissa
      rw [hDigits]
      exact Nat.mul_le_mul_left a
        (Nat.pow_le_pow_right (by decide) (by omega))
    · rw [signed, value]
      congr 1
      push_cast
      rw [pow_add, pow_add]
      field_simp
  · obtain ⟨i, hI⟩ : ∃ i, d.scale + k = j + i :=
      ⟨d.scale + k - j, by omega⟩
    refine ⟨⟨d.negative, a, i⟩, ⟨?_, ?_⟩, ?_⟩
    · exact hFew.le.trans (by decide)
    · -- The power is not above the number, so few places do.
      rw [hValue, le_div_iff₀ (by positivity), ← pow_add] at hBelow
      have hNat : 10 ^ (k + d.scale) ≤ a * 10 ^ j := by
        exact_mod_cast hBelow
      have hLess : 10 ^ (k + d.scale) < 10 ^ (17 + j) := by
        rw [Nat.pow_add 10 17]
        exact lt_of_le_of_lt hNat
          (Nat.mul_lt_mul_of_pos_right hFew (by positivity))
      have hExponent :=
        (Nat.pow_lt_pow_iff_right (by decide)).mp hLess
      change i ≤ 28
      omega
    · rw [signed, value]
      congr 1
      rw [div_div, ← pow_add, hI, pow_add]
      field_simp

/-
  The number is divided without a rest, so it is rounded only
  once. The product fits if the multiple does.
-/
theorem rounds_toUnits?
    (hExact : ops.Exact)
    (hFits : d.Fits)
    {k : Nat}
    (hFew : k ≤ 28)
    (hHeld : Representable (d.signed / 10 ^ k)) :
    RoundsTo (10 ^ k) d (ops.toUnits? d k) := by
  have hPower : (0 : ℚ) < 10 ^ k := by positivity
  obtain ⟨unit, hUnit, hUnitFits, hUnitSigned⟩ :=
    yields_powerOfTen? hExact hFew
  rw [← hUnitSigned] at hHeld hPower ⊢
  obtain ⟨scaled, hScaled, hScaledFits, hScaledSigned⟩ :=
    hExact.quotients d unit hFits hUnitFits hPower.ne' hHeld
  obtain ⟨hWholeFits, hWhole⟩ := rounds_toPlaces hScaledFits 0
  have hNearest := hWhole.scale hPower
  rw [hScaledSigned, div_mul_cancel₀ _ hPower.ne', Nat.cast_zero,
    neg_zero, zpow_zero, one_mul] at hNearest
  have hSteps :
      ops.toUnits? d k = ops.multiply? (scaled.toPlaces 0) unit := by
    rw [toUnits?, hUnit]
    simp only [bind, Option.bind, hScaled]
  obtain ⟨n, hN⟩ : ∃ n : ℤ,
      (scaled.toPlaces 0).signed * unit.signed = n := by
    obtain ⟨n, hMultiple⟩ := hNearest.multiple
    exact ⟨n * 10 ^ k, by rw [hMultiple, hUnitSigned]; push_cast; rfl⟩
  rw [hSteps]
  by_cases hSmall : n.natAbs ≤ maxMantissa
  · obtain ⟨r, hR, hRFits, hRSigned⟩ :=
      hExact.products _ unit hWholeFits hUnitFits
        (hN ▸ representable_intCast hSmall)
    rw [hR]
    exact ⟨hRFits, hRSigned ▸ hNearest⟩
  · have hLarge :
        (maxMantissa : ℚ) + 1 ≤
          |(scaled.toPlaces 0).signed * unit.signed| := by
      have hNat : maxMantissa + 1 ≤ n.natAbs := by omega
      rw [hN, ← Int.cast_abs, ← Nat.cast_natAbs]
      exact_mod_cast hNat
    rw [hExact.overflow _ unit hWholeFits hUnitFits hLarge]
    exact rounds_none hNearest (by linarith)

theorem word?_natCast {n : Nat} (hFew : (n : Int) < twoTo 32) :
    word? n = some n := by
  rw [word?, if_pos ⟨Int.natCast_nonneg n, hFew⟩, Int.toNat_natCast]

/-
  The count tells whether the last digit kept is before the
  point. Either way it is rounded to a multiple.
-/
theorem rounds_toFigures?
    (hExact : ops.Exact)
    (hFits : d.Fits)
    (hSome : 0 < d.mantissa)
    (hFigures : d.HasFigures 17)
    {n : Nat}
    (hOne : 1 ≤ n)
    (hMost : n ≤ 2 ^ 31) :
    RoundsTo (10 ^ (Int.log 10 d.value + 1 - n)) d
      (ops.toFigures? d n) := by
  obtain ⟨hLow, hHigh⟩ := log_bounds hFits hSome
  have hThirtyTwo : (2 ^ 31 + 28 : Int) < twoTo 32 := by decide
  rw [toFigures?, isZero_eq_false_iff.mpr hSome,
    if_neg Bool.false_ne_true, shift?_eq hExact hFits hSome]
  simp only [bind, Option.bind_some]
  split_ifs with hAfter
  · obtain ⟨k, hK⟩ := Int.eq_ofNat_of_zero_le hAfter
    have hPlace : Int.log 10 d.value + 1 - n = -(k : Int) := by omega
    rw [hK, word?_natCast (by omega), hPlace]
    exact rounds_toPlaces hFits k
  · obtain ⟨k, hK⟩ : ∃ k : Nat,
        -(n - (Int.log 10 d.value + 1)) = k :=
      ⟨(Int.log 10 d.value + 1 - n).toNat, by omega⟩
    have hPlace : Int.log 10 d.value + 1 - n = k := by omega
    obtain ⟨a, j, hDigits, hA⟩ := hFigures
    have hUnit : (10 : ℚ) ^ k ≤ d.value := by
      have hLog : (k : Int) ≤ Int.log 10 d.value := by omega
      rw [← Int.zpow_le_iff_le_log (by decide) (value_pos hSome)]
        at hLog
      exact_mod_cast hLog
    rw [hK, word?_natCast (by omega), hPlace, zpow_natCast]
    exact rounds_toUnits? hExact hFits (by omega)
      (representable_over hFits hDigits hA hUnit)

end DecimalArithmetic

------------------------------------------------------------
-- Results
------------------------------------------------------------

namespace Rounding

open Decimal DecimalArithmetic

variable {d : Decimal} {mode : RoundingMode} {figures : Int64}

/-
  The power of ten that the last digit kept has, if there are
  so many digits before the point.
-/
def lastUnit (mode : RoundingMode) (shift figures : Int) : ℚ :=
  match mode with
  | .significantFigures => 10 ^ (shift - figures)
  | .decimalPlaces => 10 ^ (-figures)

/- Figures that a mode allows are natural numbers. -/
theorem figures_of_allows (hLegal : mode.allows figures = true) :
    ∃ n : Nat, figures.toInt = n ∧
      (mode = .significantFigures → 1 ≤ n) := by
  have hLeast :
      0 ≤ figures.toInt ∧
        (mode = .significantFigures → 1 ≤ figures.toInt) := by
    cases mode with
    | significantFigures =>
        have hLe := of_decide_eq_true hLegal
        rw [Int64.le_iff_toInt_le] at hLe
        exact ⟨Int.le_trans (by decide) hLe, fun _ => hLe⟩
    | decimalPlaces =>
        have hLe := of_decide_eq_true hLegal
        rw [Int64.le_iff_toInt_le] at hLe
        exact ⟨hLe, fun h => nomatch h⟩
  exact ⟨figures.toInt.toNat, (Int.toNat_of_nonneg hLeast.1).symm,
    fun hMode => by have := hLeast.2 hMode; omega⟩

/- The steps come to the nearest multiple. -/
theorem rounds_round?
    {ops : DecimalArithmetic}
    (hExact : ops.Exact)
    (hFits : d.Fits)
    (hSome : 0 < d.mantissa)
    (hFigures : d.HasFigures 17)
    (hLegal : mode.allows figures = true)
    (hMost : figures.toInt ≤ 2 ^ 31) :
    RoundsTo (lastUnit mode (Int.log 10 d.value + 1) figures.toInt) d
      (ops.round? d mode figures) := by
  obtain ⟨n, hN, hLeast⟩ := figures_of_allows hLegal
  have hThirtyTwo : (2 ^ 31 : Int) < twoTo 32 := by decide
  unfold round?
  rw [hLegal, Bool.not_true, if_neg Bool.false_ne_true, hN]
  cases mode with
  | decimalPlaces =>
      dsimp only
      rw [word?_natCast (by omega)]
      exact rounds_toPlaces hFits n
  | significantFigures =>
      exact DecimalArithmetic.rounds_toFigures? hExact hFits hSome
        hFigures (hLeast rfl) (by omega)

/- So does rounding at once. -/
theorem rounds_decimal?
    (hFits : d.Fits)
    (hSome : 0 < d.mantissa)
    (hLegal : mode.allows figures = true)
    (hMost : figures.toInt ≤ 2 ^ 31)
    {x : Float}
    (hX : Decimal.ofFloat? x = some d) :
    RoundsTo (lastUnit mode (Int.log 10 d.value + 1) figures.toInt) d
      (decimal? x mode figures) := by
  obtain ⟨n, hN, hLeast⟩ := figures_of_allows hLegal
  obtain ⟨hLow, hHigh⟩ := log_bounds hFits hSome
  have hThirtyTwo : (2 ^ 31 + 28 : Int) < twoTo 32 := by decide
  unfold decimal?
  rw [hLegal, Bool.not_true, if_neg Bool.false_ne_true, hX, hN,
    Option.bind_some, Int.toNat_natCast]
  cases mode with
  | decimalPlaces =>
      dsimp only
      rw [if_pos (by omega)]
      exact rounds_toPlaces hFits n
  | significantFigures =>
      dsimp only
      rw [isZero_eq_false_iff.mpr hSome, if_neg Bool.false_ne_true,
        pointPosition_eq hSome, if_pos (by omega)]
      exact Decimal.rounds_toFigures? hFits hSome n

/-
  For any arithmetic that is exact: the digits before the
  point are counted without overflow, and the rounded number
  is the nearest multiple of the power of ten that this count
  and the figures give. If there is none, the multiple is not
  a decimal of limited size. The steps and rounding at once
  agree on this.
-/
theorem rounds_exactly
    {ops : DecimalArithmetic}
    (hExact : ops.Exact)
    (hFits : d.Fits)
    (hNotZero : d.isZero = false)
    (hFigures : d.HasFigures 17)
    (hLegal : mode.allows figures = true)
    (hMost : figures.toInt ≤ 2 ^ 31) :
    ∃ shift : Int,
      ops.shift? d = some shift ∧
        10 ^ (shift - 1) ≤ |d.signed| ∧ |d.signed| < 10 ^ shift ∧
        RoundsTo (lastUnit mode shift figures.toInt) d
          (ops.round? d mode figures) ∧
        ∀ x, Decimal.ofFloat? x = some d →
          RoundsTo (lastUnit mode shift figures.toInt) d
            (decimal? x mode figures) := by
  have hSome := isZero_eq_false_iff.mp hNotZero
  refine ⟨Int.log 10 d.value + 1, shift?_eq hExact hFits hSome,
    ?_, ?_, rounds_round? hExact hFits hSome hFigures hLegal hMost,
    fun x hX => rounds_decimal? hFits hSome hLegal hMost hX⟩
  · rw [abs_signed, Int.add_sub_cancel]
    exact ten_zpow_log_le (value_pos hSome)
  · rw [abs_signed]
    exact lt_ten_zpow_log

/- The rounding of a number with digits before the point. -/
theorem rounds_exactly_hundreds :
    ∃ shift : Int,
      strict.shift? ⟨true, 123456, 2⟩ = some shift ∧
        10 ^ (shift - 1) ≤ |Decimal.signed ⟨true, 123456, 2⟩| ∧
        |Decimal.signed ⟨true, 123456, 2⟩| < 10 ^ shift ∧
        RoundsTo (lastUnit .significantFigures shift (2 : Int64).toInt)
          ⟨true, 123456, 2⟩
          (strict.round? ⟨true, 123456, 2⟩ .significantFigures 2) ∧
        ∀ x, Decimal.ofFloat? x = some ⟨true, 123456, 2⟩ →
          RoundsTo (lastUnit .significantFigures shift (2 : Int64).toInt)
            ⟨true, 123456, 2⟩ (decimal? x .significantFigures 2) :=
  rounds_exactly exact_strict ⟨by decide, by decide⟩ rfl
    ⟨123456, 0, rfl, by decide⟩ rfl (by decide)

end Rounding

end Assessment
