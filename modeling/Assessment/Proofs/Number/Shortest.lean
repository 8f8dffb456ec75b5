import Assessment.Number.Shortest
import Assessment.Proofs.Number.Closest

/-
  The shortest digits of a double stand for that double.

  What lies in the rounding interval of a double is rounded
  to it. Digits are looked for in that interval, on finer and
  finer decimal grids, and the last grid is so fine that it
  has a point there: a grid point above the double is nearer
  to it than half of the spacing of doubles.

  Main declarations:
    * `Shortest.Interval.Covers`, to lie in an interval
    * `Shortest.rounding_of_covers`
    * `Shortest.power_below_magnitude` and
      `value_lt_magnitude`, how good the estimate is
    * `Shortest.rounding_shortest`
    * `Shortest.significand_shortest_le`
-/

------------------------------------------------------------
-- Rounding Intervals
------------------------------------------------------------

namespace Assessment

namespace Shortest

open Double
open Float.Model (UnpackedFloat)
open Float.Model.UnpackedFloat

/- The number that digits write. -/
def Digits.value (d : Digits) : ℚ :=
  d.significand * 10 ^ d.exponent

/- A number lies in an interval, whose ends may belong to it. -/
def Interval.Covers (i : Interval) (q : ℚ) : Prop :=
  if i.closed then
    i.low ≤ q * i.denominator ∧ q * i.denominator ≤ i.high
  else i.low < q * i.denominator ∧ q * i.denominator < i.high

theorem tenTo_toNat (e : Int) :
    (10 : ℚ) ^ e = tenTo e.toNat / tenTo (-e).toNat := by
  have hSplit : e = e.toNat - (-e).toNat := by omega
  unfold tenTo
  rw [Nat.pow_eq, Nat.pow_eq]
  push_cast
  conv_lhs => rw [hSplit]
  rw [zpow_sub₀ (by norm_num), zpow_natCast, zpow_natCast]

theorem twoTo_toNat (e : Int) :
    (2 : ℚ) ^ e = twoTo e.toNat / twoTo (-e).toNat := by
  have hSplit : e = e.toNat - (-e).toNat := by omega
  unfold twoTo
  rw [Nat.pow_eq, Nat.pow_eq]
  push_cast
  conv_lhs => rw [hSplit]
  rw [zpow_sub₀ two_ne_zero, zpow_natCast, zpow_natCast]

theorem tenTo_pos (n : Nat) : (0 : ℚ) < tenTo n := by
  unfold tenTo
  rw [Nat.pow_eq]
  positivity

theorem twoTo_pos (n : Nat) : (0 : ℚ) < twoTo n := by
  unfold twoTo
  rw [Nat.pow_eq]
  positivity

theorem Interval.holds_iff
    (i : Interval)
    (n : Nat)
    (e : Int) :
    i.holds n e = true ↔ i.Covers (n * 10 ^ e) := by
  have hUnit := tenTo_pos (-e).toNat
  have hPoint :
      (n : ℚ) * 10 ^ e * i.denominator =
        (n * tenTo e.toNat * i.denominator : Nat) /
          tenTo (-e).toNat := by
    rw [tenTo_toNat]
    push_cast
    ring
  unfold Interval.holds Interval.Covers
  rw [hPoint]
  split_ifs
  · rw [Bool.and_eq_true, decide_eq_true_iff, decide_eq_true_iff,
      le_div_iff₀ hUnit, div_le_iff₀ hUnit]
    norm_cast
  · rw [Bool.and_eq_true, decide_eq_true_iff, decide_eq_true_iff,
      lt_div_iff₀ hUnit, div_lt_iff₀ hUnit]
    norm_cast

variable {m : Nat} {e : Int}

/- The distance of the lower end, in quarters of a unit. -/
def quarters (m : Nat) (e : Int) : Nat :=
  if m = 2 ^ 52 ∧ e ≠ -1074 then 1 else 2

/- An interval in units of the spacing of doubles. -/
theorem covers_interval_iff (hPos : 0 < m) (q : ℚ) :
    (interval m e).Covers q ↔
      (m - quarters m e / 4 : ℚ) ≤ q / 2 ^ e ∧
        q / 2 ^ e ≤ m + 1 / 2 ∧
        (m % 2 = 1 →
          (m - quarters m e / 4 : ℚ) < q / 2 ^ e ∧
            q / 2 ^ e < m + 1 / 2) := by
  have hUp := twoTo_pos e.toNat
  have hDown := twoTo_pos (-e).toNat
  have hBelow :
      (if m == twoTo 52 && e != -1074 then 1 else 2) =
        quarters m e := by
    unfold quarters twoTo
    rw [Nat.pow_eq]
    simp
  have hQuarters : quarters m e ≤ 4 * m := by
    unfold quarters
    split_ifs <;> omega
  have hLow :
      (((4 * m - quarters m e) * twoTo e.toNat : Nat) : ℚ) =
        (m - quarters m e / 4) * (4 * twoTo e.toNat) := by
    push_cast [Nat.cast_sub hQuarters]
    ring
  have hHigh :
      (((4 * m + 2) * twoTo e.toNat : Nat) : ℚ) =
        (m + 1 / 2) * (4 * twoTo e.toNat) := by
    push_cast
    ring
  have hMiddle :
      q * ((4 * twoTo (-e).toNat : Nat) : ℚ) =
        q / 2 ^ e * (4 * twoTo e.toNat) := by
    rw [twoTo_toNat]
    push_cast
    field_simp
  have hScale : (0 : ℚ) < 4 * twoTo e.toNat := by positivity
  unfold Interval.Covers interval
  dsimp only
  rw [hBelow, hLow, hHigh, hMiddle]
  simp only [mul_le_mul_iff_left₀ hScale, mul_lt_mul_iff_left₀ hScale,
    beq_iff_eq]
  rcases Nat.mod_two_eq_zero_or_one m with hEven | hOdd
  · rw [if_pos hEven]
    simp [hEven]
  · rw [if_neg (by omega)]
    constructor
    · rintro ⟨hFirst, hSecond⟩
      exact ⟨hFirst.le, hSecond.le, fun _ => ⟨hFirst, hSecond⟩⟩
    · rintro ⟨-, -, hInside⟩
      exact hInside hOdd

theorem quarters_le (m : Nat) (e : Int) : quarters m e ≤ 2 := by
  unfold quarters
  split_ifs <;> omega

/- What is less than half a unit away is rounded to a double. -/
theorem rounding_of_near
    {q : ℚ}
    {hPos : 0 < m}
    (s : Sign)
    (hForm : Canonical (.finite s m e hPos))
    (hSome : 0 < q)
    (hExponent : exponentOf q = e)
    (hBelow : (m - 1 / 2 : ℚ) ≤ q / 2 ^ e)
    (hAbove : q / 2 ^ e ≤ m + 1 / 2)
    (hInside :
      m % 2 = 1 →
        (m - 1 / 2 : ℚ) < q / 2 ^ e ∧ q / 2 ^ e < m + 1 / 2) :
    rounding s q = .finite s m e hPos := by
  have hUnits : unitsOf q = m := by
    rw [unitsOf, hExponent]
    apply halfEvenOf_eq (by positivity) (by linarith) hAbove
    intro hTie
    by_contra hOdd
    obtain ⟨hMore, hLess⟩ := hInside (by omega)
    rcases hTie with hTie | hTie <;> linarith
  simp only [rounding, hUnits, hExponent]
  rw [dif_neg hPos.ne', if_pos hForm.1]

/-
  Below a power of two the doubles are spaced closer, so that
  there a quarter of a unit is half of the spacing.
-/
theorem rounding_below_power
    {q : ℚ}
    {hPos : 0 < 2 ^ 52}
    (s : Sign)
    (hLeast : -1074 < e)
    (hSome : 0 < q)
    (hBelow : (2 ^ 52 - 1 / 4 : ℚ) ≤ q / 2 ^ e)
    (hDown : q / 2 ^ e < 2 ^ 52) :
    rounding s q = .finite s (2 ^ 52) e hPos := by
  have hUnit : (0 : ℚ) < 2 ^ (e - 1) := by positivity
  have hScaled : q / 2 ^ (e - 1) = 2 * (q / 2 ^ e) := by
    rw [zpow_sub_one₀ two_ne_zero]
    field_simp
  have hExponent : exponentOf q = e - 1 := by
    apply exponentOf_eq hSome (by omega)
    · rw [zpow_add₀ two_ne_zero, ← div_lt_iff₀ hUnit, hScaled]
      norm_num at hDown ⊢
      linarith
    · right
      rw [zpow_add₀ two_ne_zero, ← le_div_iff₀ hUnit, hScaled]
      norm_num at hBelow ⊢
      linarith
  have hUnits : unitsOf q = 2 ^ 53 := by
    rw [unitsOf, hExponent, hScaled]
    apply halfEvenOf_eq (by positivity)
    · push_cast
      linarith
    · push_cast
      linarith
    · intro _
      decide
  simp only [rounding, hUnits, hExponent, sub_add_cancel]
  rw [dif_neg (by decide), if_neg (lt_irrefl _)]

/- What lies in the interval of a double is positive. -/
theorem pos_of_covers
    {q : ℚ}
    (hPos : 0 < m)
    (hCovers : (interval m e).Covers q) :
    0 < q := by
  rw [covers_interval_iff hPos] at hCovers
  have hUnit : (0 : ℚ) < 2 ^ e := by positivity
  have hQuarters : (quarters m e : ℚ) ≤ 2 := by
    exact_mod_cast quarters_le m e
  have hOne : (1 : ℚ) ≤ m := by exact_mod_cast hPos
  have hScaled : 0 < q / 2 ^ e := by linarith [hCovers.1]
  rwa [lt_div_iff₀ hUnit, zero_mul] at hScaled

/- What lies in the interval of a double is rounded to it. -/
theorem rounding_of_covers
    {q : ℚ}
    {hPos : 0 < m}
    (s : Sign)
    (hForm : Canonical (.finite s m e hPos))
    (hCovers : (interval m e).Covers q) :
    rounding s q = .finite s m e hPos := by
  have hSome := pos_of_covers hPos hCovers
  rw [covers_interval_iff hPos] at hCovers
  obtain ⟨hBelow, hAbove, hInside⟩ := hCovers
  obtain ⟨hBits, hLeast, hGreatest, hNormal⟩ := id hForm
  have hUnit : (0 : ℚ) < 2 ^ e := by positivity
  have hBits' : (m : ℚ) + 1 ≤ 2 ^ (53 : Int) := by
    exact_mod_cast hBits
  have hHigh : q < 2 ^ (53 + e) := by
    rw [zpow_add₀ two_ne_zero, ← div_lt_iff₀ hUnit]
    linarith
  by_cases hPower : m = 2 ^ 52 ∧ e ≠ -1074
  · obtain ⟨rfl, hNotLeast⟩ := hPower
    have hQuarters : quarters (2 ^ 52) e = 1 :=
      if_pos ⟨rfl, hNotLeast⟩
    rw [hQuarters] at hBelow
    push_cast at hBelow hAbove
    rcases le_or_gt (2 ^ 52 : ℚ) (q / 2 ^ e) with hUp | hDown
    · have hExponent : exponentOf q = e := by
        apply exponentOf_eq hSome hLeast hHigh
        right
        rw [zpow_add₀ two_ne_zero, ← le_div_iff₀ hUnit]
        exact_mod_cast hUp
      apply rounding_of_near s hForm hSome hExponent
      · push_cast
        linarith
      · exact_mod_cast hAbove
      · intro hOdd
        exact absurd hOdd (by decide)
    · exact rounding_below_power s (by omega) hSome hBelow hDown
  · have hQuarters : quarters m e = 2 := if_neg hPower
    have hHalf : ((2 : Nat) : ℚ) / 4 = 1 / 2 := by norm_num
    rw [hQuarters, hHalf] at hBelow hInside
    have hExponent : exponentOf q = e := by
      apply exponentOf_eq hSome hLeast hHigh
      by_cases hEnd : e = -1074
      · exact Or.inl hEnd
      · right
        have hMore : 2 ^ 52 + 1 ≤ m := by omega
        have hCast : (2 : ℚ) ^ (52 : Int) + 1 ≤ m := by
          exact_mod_cast hMore
        rw [zpow_add₀ two_ne_zero, ← le_div_iff₀ hUnit]
        linarith
    exact rounding_of_near s hForm hSome hExponent hBelow hAbove
      hInside

------------------------------------------------------------
-- Decimal Grids
------------------------------------------------------------

/- Digits that are found on a grid lie in the interval. -/
theorem Interval.covers_of_onGrid
    {i : Interval}
    {x : Int}
    {d : Digits}
    (hFound : i.onGrid x = some d) :
    i.Covers d.value := by
  unfold Interval.onGrid at hFound
  dsimp only at hFound
  split_ifs at hFound with hUpper hLower
  · rw [Bool.and_eq_true] at hUpper
    cases hFound
    exact (i.holds_iff _ _).mp hUpper.1
  · cases hFound
    exact (i.holds_iff _ _).mp hLower

/- A grid has digits if its point above lies in the interval. -/
theorem Interval.onGrid_isSome
    {i : Interval}
    {x : Int}
    (hUpper :
      i.Covers
        ((i.value * tenTo (-x).toNat /
          (tenTo x.toNat * i.denominator) + 1 : Nat) * 10 ^ x)) :
    (i.onGrid x).isSome = true := by
  rw [← Interval.holds_iff] at hUpper
  unfold Interval.onGrid
  dsimp only
  rw [hUpper, Bool.true_and]
  cases i.holds _ x <;> simp
  split <;> rfl

/- A search ends with digits if the last grid has some. -/
theorem Interval.covers_search
    {i : Interval}
    {magnitude : Int}
    (fuel digits : Nat)
    (hLast :
      (i.onGrid (magnitude - (digits + fuel : Nat))).isSome = true) :
    i.Covers (i.search magnitude fuel digits).value := by
  induction fuel generalizing digits with
  | zero =>
      obtain ⟨d, hD⟩ := Option.isSome_iff_exists.mp hLast
      rw [Nat.add_zero] at hD
      rw [Interval.search, hD]
      exact covers_of_onGrid hD
  | succ fuel ih =>
      rw [Interval.search]
      split
      next d hD => exact covers_of_onGrid hD
      next =>
        apply ih
        rw [Nat.add_right_comm]
        exact hLast

/- The digits keep their number without zeros at the end. -/
theorem Digits.value_stripped (fuel : Nat) (d : Digits) :
    (stripped fuel d).value = d.value := by
  induction fuel generalizing d with
  | zero => rfl
  | succ fuel ih =>
      rw [stripped]
      split_ifs with hZeros
      · rw [Bool.and_eq_true, beq_iff_eq] at hZeros
        have hSplit : d.significand / 10 * 10 = d.significand :=
          Nat.div_mul_cancel (Nat.dvd_of_mod_eq_zero hZeros.2)
        rw [ih, value, value]
        dsimp only
        conv_rhs => rw [← hSplit]
        rw [zpow_add_one₀ (by norm_num)]
        push_cast
        ring
      · rfl

------------------------------------------------------------
-- Magnitudes
------------------------------------------------------------

/- Powers of two bases are compared with the help of one pair. -/
theorem pow_le_pow_of_pair
    {a b p q n l : Nat}
    (hP : p ≠ 0)
    (hB : 0 < b)
    (hPair : a ^ p ≤ b ^ q)
    (hLe : q * n ≤ p * l) :
    a ^ n ≤ b ^ l := by
  apply (Nat.pow_le_pow_iff_left hP).mp
  calc
    (a ^ n) ^ p = (a ^ p) ^ n := Nat.pow_right_comm ..
    _ ≤ (b ^ q) ^ n := Nat.pow_le_pow_left hPair n
    _ = b ^ (q * n) := (Nat.pow_mul ..).symm
    _ ≤ b ^ (p * l) := Nat.pow_le_pow_right hB hLe
    _ = (b ^ l) ^ p := by rw [Nat.mul_comm, Nat.pow_mul]

/-
  The logarithm of ten lies between 3.32 and 3.322, which is
  close enough for the exponents of doubles.
-/
theorem ten_zpow_le_two_zpow
    {j k : Int}
    (hAbove : 3322 * j ≤ 1000 * k)
    (hBelow : 332 * j ≤ 100 * k) :
    (10 : ℚ) ^ j ≤ 2 ^ k := by
  rcases le_or_gt 0 j with hPos | hNeg
  · obtain ⟨n, rfl⟩ := Int.eq_ofNat_of_zero_le hPos
    obtain ⟨l, rfl⟩ := Int.eq_ofNat_of_zero_le (a := k) (by omega)
    have hNat : 10 ^ n ≤ 2 ^ l :=
      pow_le_pow_of_pair (p := 1000) (q := 3322) (by decide)
        (by decide) (by decide +kernel) (by omega)
    rw [zpow_natCast, zpow_natCast]
    exact_mod_cast hNat
  · obtain ⟨n, hJ⟩ : ∃ n : Nat, j = -n := ⟨j.natAbs, by omega⟩
    rcases le_or_gt 0 k with hUp | hDown
    · calc
        (10 : ℚ) ^ j ≤ 1 := zpow_le_one_of_nonpos₀ (by norm_num)
          hNeg.le
        _ ≤ 2 ^ k := one_le_zpow₀ one_le_two hUp
    · obtain ⟨l, hK⟩ : ∃ l : Nat, k = -l := ⟨k.natAbs, by omega⟩
      have hNat : 2 ^ l ≤ 10 ^ n :=
        pow_le_pow_of_pair (p := 332) (q := 100) (by decide)
          (by decide) (by decide +kernel) (by omega)
      rw [hJ, hK, zpow_neg, zpow_neg, zpow_natCast, zpow_natCast]
      apply inv_anti₀ (by positivity)
      exact_mod_cast hNat

theorem two_zpow_le_ten_zpow
    {j k : Int}
    (hAbove : 1000 * j ≤ 3322 * k)
    (hBelow : 100 * j ≤ 332 * k) :
    (2 : ℚ) ^ j ≤ 10 ^ k := by
  have hInverse := ten_zpow_le_two_zpow (j := -k) (k := -j)
    (by omega) (by omega)
  rw [zpow_neg, zpow_neg] at hInverse
  exact (inv_le_inv₀ (by positivity) (by positivity)).mp hInverse

/- The number of a double, as its interval has it. -/
theorem interval_value (m : Nat) (e : Int) :
    ((interval m e).value : ℚ) =
      m * 2 ^ e * (interval m e).denominator := by
  have hDown := twoTo_pos (-e).toNat
  unfold interval
  dsimp only
  rw [twoTo_toNat]
  push_cast
  field_simp

theorem denominator_pos (m : Nat) (e : Int) :
    (0 : ℚ) < (interval m e).denominator := by
  have hDown := twoTo_pos (-e).toNat
  unfold interval
  push_cast
  positivity

/- How a value is compared with a power of ten. -/
theorem value_lt_power_iff (m : Nat) (e x : Int) :
    (interval m e).value * tenTo (-x).toNat <
        tenTo x.toNat * (interval m e).denominator ↔
      (m : ℚ) * 2 ^ e < 10 ^ x := by
  have hUnit := tenTo_pos (-x).toNat
  have hDown := denominator_pos m e
  rw [← Nat.cast_lt (α := ℚ), Nat.cast_mul, Nat.cast_mul,
    interval_value, tenTo_toNat, lt_div_iff₀ hUnit, mul_right_comm,
    mul_lt_mul_iff_left₀ hDown]

/- The magnitude of a double is not estimated too great. -/
theorem power_below_magnitude
    {s : Sign}
    {hPos : 0 < m}
    (hForm : Canonical (.finite s m e hPos)) :
    (10 : ℚ) ^
        ((interval m e).magnitude
          ((Nat.log2 m + e) * 30103 / 100000 + 1) - 1) ≤
      m * 2 ^ e := by
  obtain ⟨hBits, hLeast, hGreatest, -⟩ := hForm
  have hLog : m.log2 ≤ 52 := log2_le_of_lt hBits
  unfold Interval.magnitude
  dsimp only
  simp only [decide_eq_true_eq, value_lt_power_iff]
  split_ifs with hFirst hSecond hThird
  · calc
      (10 : ℚ) ^ ((Nat.log2 m + e) * 30103 / 100000 + 1 - 1 - 1)
          ≤ 2 ^ (e + m.log2) := by
        apply ten_zpow_le_two_zpow <;> omega
      _ ≤ m * 2 ^ e := (magnitude_bounds e hPos).1
  · exact not_lt.mp hFirst
  · rw [add_sub_cancel_right]
    exact not_lt.mp hSecond
  · have hStep :
        (Nat.log2 m + e) * 30103 / 100000 + 1 + 2 - 1 =
          (Nat.log2 m + e) * 30103 / 100000 + 1 + 1 := by
      omega
    rw [hStep]
    exact not_lt.mp hThird

/- Nor is it estimated too small. -/
theorem value_lt_magnitude
    {s : Sign}
    {hPos : 0 < m}
    (hForm : Canonical (.finite s m e hPos)) :
    (m : ℚ) * 2 ^ e <
      10 ^ (interval m e).magnitude
        ((Nat.log2 m + e) * 30103 / 100000 + 1) := by
  obtain ⟨hBits, hLeast, hGreatest, -⟩ := hForm
  have hLog : m.log2 ≤ 52 := log2_le_of_lt hBits
  unfold Interval.magnitude
  dsimp only
  simp only [decide_eq_true_eq, value_lt_power_iff]
  split_ifs with hFirst hSecond hThird
  · exact hFirst
  · exact hSecond
  · exact hThird
  · calc
      (m : ℚ) * 2 ^ e < 2 ^ (e + m.log2 + 1) :=
        (magnitude_bounds e hPos).2
      _ ≤ 10 ^ ((Nat.log2 m + e) * 30103 / 100000 + 1 + 2) := by
        apply two_zpow_le_ten_zpow <;> omega

------------------------------------------------------------
-- Digits in the Interval
------------------------------------------------------------

/- How many steps of a grid a double takes. -/
theorem floor_onGrid (m : Nat) (e x : Int) :
    (interval m e).value * tenTo (-x).toNat /
        (tenTo x.toNat * (interval m e).denominator) =
      ⌊(m : ℚ) * 2 ^ e / 10 ^ x⌋₊ := by
  have hUp := tenTo_pos x.toNat
  have hTen := tenTo_pos (-x).toNat
  have hDown := denominator_pos m e
  rw [← Nat.floor_div_eq_div (K := ℚ)]
  congr 1
  rw [Nat.cast_mul, Nat.cast_mul, interval_value, tenTo_toNat]
  field_simp

/-
  A grid finer than half a unit has its point above a double
  within the interval.
-/
theorem onGrid_isSome_of_fine
    {x : Int}
    (hPos : 0 < m)
    (hFine : (10 : ℚ) ^ x < 2 ^ e / 2) :
    ((interval m e).onGrid x).isSome = true := by
  have hGrid : (0 : ℚ) < 10 ^ x := by positivity
  have hUnit : (0 : ℚ) < 2 ^ e := by positivity
  have hQuarters : 1 ≤ quarters m e := by
    unfold quarters
    split_ifs <;> omega
  have hQuarters' : (1 : ℚ) ≤ quarters m e := by
    exact_mod_cast hQuarters
  apply Interval.onGrid_isSome
  rw [floor_onGrid, covers_interval_iff hPos]
  have hMore := Nat.lt_floor_add_one ((m : ℚ) * 2 ^ e / 10 ^ x)
  have hLess :=
    Nat.floor_le (a := (m : ℚ) * 2 ^ e / 10 ^ x) (by positivity)
  generalize ⌊(m : ℚ) * 2 ^ e / 10 ^ x⌋₊ = n at *
  rw [div_lt_iff₀ hGrid] at hMore
  rw [le_div_iff₀ hGrid] at hLess
  have hLow : (m : ℚ) < (n + 1 : Nat) * 10 ^ x / 2 ^ e := by
    rw [lt_div_iff₀ hUnit]
    push_cast
    exact hMore
  have hHigh : ((n + 1 : Nat) : ℚ) * 10 ^ x / 2 ^ e < m + 1 / 2 := by
    rw [div_lt_iff₀ hUnit]
    push_cast
    linarith
  exact ⟨by linarith, hHigh.le, fun _ => ⟨by linarith, hHigh⟩⟩

/- The shortest digits of a double lie in its interval. -/
theorem covers_shortest
    {s : Sign}
    {hPos : 0 < m}
    (hForm : Canonical (.finite s m e hPos)) :
    (interval m e).Covers (shortest m e).value := by
  have hMagnitude := power_below_magnitude hForm
  obtain ⟨hBits, -, -, -⟩ := hForm
  unfold shortest
  dsimp only
  rw [Digits.value_stripped]
  generalize (interval m e).magnitude
    ((Nat.log2 m + e) * 30103 / 100000 + 1) = k at *
  apply Interval.covers_search
  apply onGrid_isSome_of_fine hPos
  -- Eighteen digits are more than doubles tell apart.
  have hSplit : k - ((1 + 17 : Nat) : Int) = -17 + (k - 1) := by
    omega
  have hCast : (m : ℚ) < 2 ^ 53 := by exact_mod_cast hBits
  have hUnit : (0 : ℚ) < 2 ^ e := by positivity
  rw [hSplit, zpow_add₀ (by norm_num)]
  calc
    (10 : ℚ) ^ (-17 : Int) * 10 ^ (k - 1)
        ≤ 10 ^ (-17 : Int) * (m * 2 ^ e) := by gcongr
    _ < 10 ^ (-17 : Int) * (2 ^ 53 * 2 ^ e) := by gcongr
    _ < 2 ^ e / 2 := by
      norm_num
      linarith

/- The shortest digits of a double are rounded to it. -/
theorem rounding_shortest
    {hPos : 0 < m}
    (s : Sign)
    (hForm : Canonical (.finite s m e hPos)) :
    rounding s (shortest m e).value = .finite s m e hPos :=
  rounding_of_covers s hForm (covers_shortest hForm)

------------------------------------------------------------
-- Numbers of Digits
------------------------------------------------------------

/- A grid that is not too fine needs few digits. -/
theorem significand_onGrid
    {digits : Nat}
    {magnitude : Int}
    {d : Digits}
    (hLess : (m : ℚ) * 2 ^ e < 10 ^ magnitude)
    (hFound :
      (interval m e).onGrid (magnitude - digits) = some d) :
    d.significand ≤ 10 ^ digits := by
  have hFloor := floor_onGrid m e (magnitude - digits)
  have hGrid : (0 : ℚ) < 10 ^ (magnitude - digits : Int) := by
    positivity
  have hFew :
      ⌊(m : ℚ) * 2 ^ e / 10 ^ (magnitude - digits : Int)⌋₊ <
        10 ^ digits := by
    rw [Nat.floor_lt (by positivity), div_lt_iff₀ hGrid]
    refine hLess.trans_le (le_of_eq ?_)
    rw [zpow_sub₀ (by norm_num), zpow_natCast]
    push_cast
    field_simp
  rw [← hFloor] at hFew
  unfold Interval.onGrid at hFound
  dsimp only at hFound
  split_ifs at hFound
  · cases hFound
    exact hFew
  · cases hFound
    exact hFew.le

theorem significand_search
    {magnitude : Int}
    (fuel digits : Nat)
    (hLess : (m : ℚ) * 2 ^ e < 10 ^ magnitude) :
    ((interval m e).search magnitude fuel digits).significand ≤
      10 ^ (digits + fuel) := by
  induction fuel generalizing digits with
  | zero =>
      rw [Interval.search]
      cases hFound : (interval m e).onGrid (magnitude - digits) with
      | none => exact Nat.zero_le _
      | some d => exact significand_onGrid hLess hFound
  | succ fuel ih =>
      rw [Interval.search]
      split
      next d hFound =>
        exact (significand_onGrid hLess hFound).trans
          (Nat.pow_le_pow_right (by decide) (by omega))
      next =>
        have hRest := ih (digits + 1)
        rwa [Nat.add_right_comm] at hRest

theorem Digits.significand_stripped (fuel : Nat) (d : Digits) :
    (stripped fuel d).significand ≤ d.significand := by
  induction fuel generalizing d with
  | zero => exact Nat.le_refl _
  | succ fuel ih =>
      rw [stripped]
      split_ifs
      · exact (ih _).trans (Nat.div_le_self _ _)
      · exact Nat.le_refl _

/- The shortest digits are eighteen at most. -/
theorem significand_shortest_le
    {s : Sign}
    {hPos : 0 < m}
    (hForm : Canonical (.finite s m e hPos)) :
    (shortest m e).significand ≤ 10 ^ 18 :=
  (Digits.significand_stripped _ _).trans
    (significand_search 17 1 (value_lt_magnitude hForm))

end Shortest

end Assessment
