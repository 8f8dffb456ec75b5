import Assessment.Proofs.Number.Rounding

/-
  Positive rationals rounded to doubles.

  A rational is measured in units of the spacing that doubles
  have at its size, and the number of units is rounded to the
  nearest whole one, in the middle to the even one. That is
  the double nearest to it. Infinity stands for what lies
  beyond the greatest double.

  Main declarations:
    * `Double.halfEvenOf`, the nearest whole number
    * `Double.closest`, the nearest double, and
      `value?_closest`
    * `Double.closest_nearest`
    * `Double.roundedOf_error`
-/

------------------------------------------------------------
-- Nearest Whole Numbers
------------------------------------------------------------

namespace Assessment

namespace Double

open Float (Model)
open Float.Model (UnpackedFloat Format totalExponent)
open Float.Model.UnpackedFloat

/- The nearest whole number, and in the middle the even one. -/
def halfEvenOf (q : ℚ) : Nat :=
  if Int.fract q < 1 / 2 then ⌊q⌋₊
  else if Int.fract q = 1 / 2 then ⌊q⌋₊ + ⌊q⌋₊ % 2
  else ⌊q⌋₊ + 1

theorem floor_add_fract {q : ℚ} (hPos : 0 ≤ q) :
    (⌊q⌋₊ : ℚ) + Int.fract q = q := by
  rw [natCast_floor_eq_intCast_floor hPos]
  exact Int.floor_add_fract q

theorem halfEvenOf_natCast (n : Nat) : halfEvenOf n = n := by
  simp [halfEvenOf]

/- A whole number that is near is the nearest one. -/
theorem halfEvenOf_eq
    {q : ℚ}
    {c : Nat}
    (hPos : 0 ≤ q)
    (hAbove : (c : ℚ) ≤ q + 1 / 2)
    (hBelow : q ≤ c + 1 / 2)
    (hEven : (c : ℚ) = q + 1 / 2 ∨ q = c + 1 / 2 → c % 2 = 0) :
    halfEvenOf q = c := by
  have hSplit := floor_add_fract hPos
  have hLow := Int.fract_nonneg q
  have hHigh := Int.fract_lt_one q
  unfold halfEvenOf
  generalize ⌊q⌋₊ = n at *
  generalize Int.fract q = f at *
  -- The floor is `c` or, if `q` lies below, one less.
  have hCases : c = n ∨ c = n + 1 := by
    have hMost : (c : ℚ) < (n + 2 : Nat) := by
      push_cast
      linarith
    have hLeast : (n : ℚ) < (c + 1 : Nat) := by
      push_cast
      linarith
    rw [Nat.cast_lt] at hMost hLeast
    omega
  rcases hCases with rfl | rfl
  · split_ifs with hLess hMiddle
    · rfl
    · rw [hEven (Or.inr (by linarith)), Nat.add_zero]
    · exact absurd (le_antisymm (by linarith) (not_lt.mp hLess))
        hMiddle
  · push_cast at hAbove hBelow hEven
    split_ifs with hLess hMiddle
    · linarith
    · have hParity := hEven (Or.inl (by linarith))
      omega
    · rfl

/- The nearest whole number is at most a half away. -/
theorem halfEvenOf_near {q : ℚ} (hPos : 0 ≤ q) :
    |(halfEvenOf q : ℚ) - q| ≤ 1 / 2 := by
  have hSplit := floor_add_fract hPos
  have hLow := Int.fract_nonneg q
  have hHigh := Int.fract_lt_one q
  unfold halfEvenOf
  generalize ⌊q⌋₊ = n at *
  generalize Int.fract q = f at *
  rw [abs_le]
  split_ifs with hLess hMiddle
  · constructor <;> linarith
  · rcases Nat.mod_two_eq_zero_or_one n with hEven | hOdd
    · rw [hEven]
      push_cast
      constructor <;> linarith
    · rw [hOdd]
      push_cast
      constructor <;> linarith
  · push_cast
    constructor <;> linarith [not_lt.mp hLess]

/- Rounding does not fall below a whole number. -/
theorem le_halfEvenOf
    {q : ℚ}
    {c : Nat}
    (hPos : 0 ≤ q)
    (hLe : c ≤ q) :
    c ≤ halfEvenOf q := by
  have hBelow := (abs_le.mp (halfEvenOf_near hPos)).1
  have hLess : (c : ℚ) < (halfEvenOf q + 1 : Nat) := by
    push_cast
    linarith
  exact Nat.le_of_lt_succ (by exact_mod_cast hLess)

/- No other whole number is nearer. -/
theorem halfEvenOf_closest
    {q : ℚ}
    (hPos : 0 ≤ q)
    (c : Nat) :
    |(halfEvenOf q : ℚ) - q| ≤ |(c : ℚ) - q| := by
  rcases eq_or_ne c (halfEvenOf q) with rfl | hOther
  · exact le_rfl
  have hNear := halfEvenOf_near hPos
  have hApart : (1 : ℚ) ≤ |(c : ℚ) - halfEvenOf q| := by
    have hInt : (1 : Int) ≤ |(c : Int) - halfEvenOf q| :=
      Int.one_le_abs (by omega)
    exact_mod_cast hInt
  have hTriangle := abs_sub_le (c : ℚ) q (halfEvenOf q)
  rw [abs_sub_comm q] at hTriangle
  linarith

------------------------------------------------------------
-- Rounded Rationals
------------------------------------------------------------

/- The exponent that doubles have at the size of a rational. -/
def exponentOf (q : ℚ) : Int :=
  max (Int.log 2 q - 52) (-1074)

/- The number of units that a rational is rounded to. -/
def unitsOf (q : ℚ) : Nat :=
  halfEvenOf (q / 2 ^ exponentOf q)

/- A rational rounded to a double without a greatest one. -/
def roundedOf (q : ℚ) : ℚ :=
  unitsOf q * 2 ^ exponentOf q

/-
  The unpacked form of a rounded rational. A mantissa that is
  carried over has the next exponent.
-/
def rounding (s : Sign) (q : ℚ) : UnpackedFloat :=
  if hZero : unitsOf q = 0 then .zero s
  else if unitsOf q < 2 ^ 53 then
    .finite s (unitsOf q) (exponentOf q) (Nat.pos_of_ne_zero hZero)
  else .finite s (2 ^ 52) (exponentOf q + 1) (by decide)

/- The double that is nearest to a positive rational. -/
def closest (q : ℚ) : Float :=
  .ofModel (Model.pack (rounding .positive q))

variable {q : ℚ}

theorem exponentOf_bounds (hPos : 0 < q) :
    -1074 ≤ exponentOf q ∧ q < 2 ^ (53 + exponentOf q) ∧
      (exponentOf q = -1074 ∨ 2 ^ (52 + exponentOf q) ≤ q) := by
  have hLow : (2 : ℚ) ^ Int.log 2 q ≤ q := by
    exact_mod_cast Int.zpow_log_le_self one_lt_two hPos
  have hHigh : q < 2 ^ (Int.log 2 q + 1) := by
    exact_mod_cast Int.lt_zpow_succ_log_self one_lt_two q
  unfold exponentOf
  refine ⟨le_max_right _ _, ?_, ?_⟩
  · refine hHigh.trans_le (zpow_le_zpow_right₀ one_le_two ?_)
    have hMax := le_max_left (Int.log 2 q - 52) (-1074)
    omega
  · rcases le_total (Int.log 2 q - 52) (-1074) with hLess | hMore
    · exact Or.inl (max_eq_right hLess)
    · right
      rw [max_eq_left hMore, add_sub_cancel]
      exact hLow

/- What has that exponent is found by the two bounds. -/
theorem exponentOf_eq
    {e : Int}
    (hPos : 0 < q)
    (hLeast : -1074 ≤ e)
    (hHigh : q < 2 ^ (53 + e))
    (hLow : e = -1074 ∨ 2 ^ (52 + e) ≤ q) :
    exponentOf q = e := by
  have hLog : Int.log 2 q < 53 + e := by
    rw [← Int.lt_zpow_iff_log_lt one_lt_two hPos]
    exact_mod_cast hHigh
  unfold exponentOf
  rcases hLow with rfl | hLow
  · exact max_eq_right (by omega)
  · have hLog' : 52 + e ≤ Int.log 2 q := by
      rw [← Int.zpow_le_iff_le_log one_lt_two hPos]
      exact_mod_cast hLow
    omega

theorem unitsOf_le (hPos : 0 < q) : unitsOf q ≤ 2 ^ 53 := by
  obtain ⟨-, hHigh, -⟩ := exponentOf_bounds hPos
  have hUnit : (0 : ℚ) < 2 ^ exponentOf q := by positivity
  rw [zpow_add₀ two_ne_zero, ← div_lt_iff₀ hUnit] at hHigh
  have hNear := halfEvenOf_near (q := q / 2 ^ exponentOf q)
    (by positivity)
  have hLess : (unitsOf q : ℚ) < (2 ^ 53 + 1 : Nat) := by
    push_cast
    have hAbove := (abs_le.mp hNear).2
    unfold unitsOf
    norm_cast at hHigh
    linarith
  exact Nat.le_of_lt_succ (by exact_mod_cast hLess)

/- A normal mantissa stays normal. -/
theorem unitsOf_normal (hPos : 0 < q) :
    exponentOf q = -1074 ∨ 2 ^ 52 ≤ unitsOf q := by
  obtain ⟨-, -, hSize⟩ := exponentOf_bounds hPos
  refine hSize.imp_right fun hLow => ?_
  have hUnit : (0 : ℚ) < 2 ^ exponentOf q := by positivity
  rw [zpow_add₀ two_ne_zero, ← le_div_iff₀ hUnit] at hLow
  exact le_halfEvenOf (by positivity) (by exact_mod_cast hLow)

/- A rounded rational below the limit is a double. -/
theorem canonical_rounding
    (s : Sign)
    (hPos : 0 < q)
    (hRange : roundedOf q < 2 ^ 1024) :
    Canonical (rounding s q) := by
  have hMost := unitsOf_le hPos
  have hNormal := unitsOf_normal hPos
  obtain ⟨hLeast, -, -⟩ := exponentOf_bounds hPos
  have hGreatest :
      ∀ {m : Nat}, 2 ^ m ≤ unitsOf q →
        m + exponentOf q < 1024 := by
    intro m hBits
    rw [← zpow_lt_zpow_iff_right₀ (one_lt_two (α := ℚ))]
    refine lt_of_le_of_lt ?_ (by exact_mod_cast hRange)
    rw [roundedOf, zpow_add₀ two_ne_zero]
    have hCast : (2 : ℚ) ^ (m : Int) ≤ unitsOf q := by
      exact_mod_cast hBits
    gcongr
  unfold rounding
  split_ifs with hZero hShort
  · trivial
  · refine ⟨hShort, hLeast, ?_, hNormal.symm⟩
    rcases hNormal with hEnd | hBits
    · omega
    · have hTop := hGreatest hBits
      omega
  · have hTop := hGreatest (m := 53) (by omega)
    exact ⟨by decide, by omega, by omega, Or.inl le_rfl⟩

theorem stands_rounding (s : Sign) (hPos : 0 < q) :
    Stands (rounding s q) (under s (roundedOf q)) := by
  have hMost := unitsOf_le hPos
  unfold rounding roundedOf
  split_ifs with hZero hShort
  · rw [hZero, Nat.cast_zero, zero_mul]
    cases s
    · rw [under, neg_zero]
      exact .zero _
    · exact .zero _
  · exact .finite s _
  · have hCarry : unitsOf q = 2 ^ 53 := by omega
    have hValue :
        ((2 ^ 53 : Nat) : ℚ) * 2 ^ exponentOf q =
          (2 ^ 52 : Nat) * 2 ^ (exponentOf q + 1) := by
      rw [zpow_add_one₀ two_ne_zero]
      push_cast
      ring
    rw [hCarry, hValue]
    exact .finite s _

/- A positive rational is in range if it is rounded to a double. -/
theorem value?_closest
    (hPos : 0 < q)
    (hRange : roundedOf q < 2 ^ 1024) :
    value? (closest q) = some (roundedOf q) :=
  value?_pack (canonical_rounding _ hPos hRange)
    (stands_rounding .positive hPos)

/- What has too great an exponent is packed as infinity. -/
theorem pack_of_great
    {m : Nat}
    {e : Int}
    (hPos : 0 < m)
    (hGreat : 971 < e) :
    Model.pack (.finite .positive m e hPos) =
      Model.pack (.infinity .positive) := by
  have hPacked :
      UnpackedFloat.pack .binary64 (.finite .positive m e hPos) =
        UnpackedFloat.pack .binary64 (.infinity .positive) := by
    have hField : 2 ^ 11 ≤ (e + 1023 + (52 : Nat)).toNat + 1 := by
      omega
    unfold UnpackedFloat.pack
    dsimp only
    rw [exponentBias_eq, if_pos hField]
  simp only [Model.pack, hPacked]

theorem ofModel_infinity :
    Float.ofModel (Model.pack (.infinity .positive)) = 1 / 0 := by
  with_unfolding_all rfl

/- Beyond the greatest double there is infinity. -/
theorem closest_of_great
    (hPos : 0 < q)
    (hGreat : 2 ^ 1024 ≤ roundedOf q) :
    closest q = 1 / 0 := by
  have hMost := unitsOf_le hPos
  have hExponent :
      ∀ {m : Nat}, unitsOf q ≤ 2 ^ m →
        1024 ≤ m + exponentOf q := by
    intro m hBits
    rw [← zpow_le_zpow_iff_right₀ (one_lt_two (α := ℚ))]
    refine le_trans (by exact_mod_cast hGreat) ?_
    rw [roundedOf, zpow_add₀ two_ne_zero]
    have hCast : (unitsOf q : ℚ) ≤ 2 ^ (m : Int) := by
      exact_mod_cast hBits
    gcongr
  have hNotZero : unitsOf q ≠ 0 := by
    intro hZero
    rw [roundedOf, hZero, Nat.cast_zero, zero_mul] at hGreat
    exact absurd hGreat (not_le.mpr (by positivity))
  have hCarry := hExponent hMost
  rw [← ofModel_infinity, closest]
  congr 1
  unfold rounding
  rw [dif_neg hNotZero]
  split_ifs with hShort
  · apply pack_of_great
    rcases lt_or_eq_of_le (show 971 ≤ exponentOf q by omega)
      with hMore | hEnd
    · exact hMore
    · -- With the greatest exponent a double is below the limit.
      have hLess : roundedOf q < 2 ^ 1024 := by
        rw [roundedOf, ← hEnd]
        have hCast : (unitsOf q : ℚ) < 2 ^ (53 : Int) := by
          exact_mod_cast hShort
        calc
          (unitsOf q : ℚ) * 2 ^ (971 : Int)
              < 2 ^ (53 : Int) * 2 ^ (971 : Int) := by gcongr
          _ = 2 ^ (1024 : Int) :=
            (zpow_add₀ two_ne_zero 53 971).symm
          _ = 2 ^ 1024 := zpow_natCast 2 1024
      exact absurd hLess (not_lt.mpr hGreat)
  · apply pack_of_great
    omega

------------------------------------------------------------
-- Nearness
------------------------------------------------------------

/- The number of a canonical form is a number of units. -/
theorem exponentOf_canonical
    {s : Sign}
    {m : Nat}
    {e : Int}
    {hM : 0 < m}
    (hForm : Canonical (.finite s m e hM)) :
    exponentOf (m * 2 ^ e) = e := by
  obtain ⟨hBits, hLeast, -, hNormal⟩ := hForm
  have hUnit : (0 : ℚ) < 2 ^ e := by positivity
  apply exponentOf_eq (by positivity) hLeast
  · rw [zpow_add₀ two_ne_zero]
    have hCast : (m : ℚ) < 2 ^ (53 : Int) := by
      exact_mod_cast hBits
    gcongr
  · rw [zpow_add₀ two_ne_zero]
    refine hNormal.symm.imp_right fun hFull => ?_
    have hCast : (2 : ℚ) ^ (52 : Int) ≤ m := by
      exact_mod_cast hFull
    gcongr

/- A double is not changed by rounding. -/
theorem rounding_canonical
    {s : Sign}
    {m : Nat}
    {e : Int}
    {hM : 0 < m}
    (t : Sign)
    (hForm : Canonical (.finite s m e hM)) :
    rounding t (m * 2 ^ e) = .finite t m e hM := by
  have hExponent := exponentOf_canonical hForm
  have hUnits : unitsOf (m * 2 ^ e) = m := by
    rw [unitsOf, hExponent, mul_div_cancel_right₀ _ (by positivity),
      halfEvenOf_natCast]
  unfold rounding
  simp only [hUnits, hExponent]
  rw [dif_neg hM.ne', if_pos hForm.1]

/- Multiples of the unit are not nearer. -/
theorem roundedOf_near_multiple (hPos : 0 < q) (c : Nat) :
    |roundedOf q - q| ≤ |c * 2 ^ exponentOf q - q| := by
  have hUnit : (0 : ℚ) < 2 ^ exponentOf q := by positivity
  have hClosest := halfEvenOf_closest
    (q := q / 2 ^ exponentOf q) (by positivity) c
  have hScaled :
      ∀ n : ℚ, |n * 2 ^ exponentOf q - q| =
        |n - q / 2 ^ exponentOf q| * 2 ^ exponentOf q := by
    intro n
    rw [← abs_of_pos hUnit, ← abs_mul, abs_of_pos hUnit, sub_mul,
      div_mul_cancel₀ _ hUnit.ne']
  rw [roundedOf, hScaled, hScaled]
  exact mul_le_mul_of_nonneg_right hClosest hUnit.le

/- Nothing below zero is nearer. -/
theorem roundedOf_near_nonpos
    {v : ℚ}
    (hPos : 0 < q)
    (hNone : v ≤ 0) :
    |roundedOf q - q| ≤ |v - q| := by
  have hZero := roundedOf_near_multiple hPos 0
  rw [Nat.cast_zero, zero_mul, zero_sub, abs_neg,
    abs_of_pos hPos] at hZero
  refine hZero.trans ?_
  rw [abs_of_nonpos (by linarith)]
  linarith

/-
  A double on a finer grid is below the power of two that is
  not above the rational.
-/
theorem roundedOf_near_fine
    {m : Nat}
    {f : Int}
    (hPos : 0 < q)
    (hBits : m < 2 ^ 53)
    (hLeast : -1074 ≤ f)
    (hFine : f < exponentOf q) :
    |roundedOf q - q| ≤ |m * 2 ^ f - q| := by
  obtain ⟨-, -, hSize⟩ := exponentOf_bounds hPos
  have hLow := hSize.resolve_left (by omega)
  have hPower := roundedOf_near_multiple hPos (2 ^ 52)
  have hBelow : (m : ℚ) * 2 ^ f ≤ 2 ^ (52 + exponentOf q) := by
    have hCast : (m : ℚ) ≤ 2 ^ (53 : Int) := by
      exact_mod_cast hBits.le
    calc
      (m : ℚ) * 2 ^ f ≤ 2 ^ (53 : Int) * 2 ^ f := by gcongr
      _ = 2 ^ (53 + f) := (zpow_add₀ two_ne_zero _ _).symm
      _ ≤ 2 ^ (52 + exponentOf q) := by
        apply zpow_le_zpow_right₀ one_le_two
        omega
  have hSame :
      ((2 ^ 52 : Nat) : ℚ) * 2 ^ exponentOf q =
        2 ^ (52 + exponentOf q) := by
    rw [zpow_add₀ two_ne_zero]
    norm_cast
  rw [hSame, abs_of_nonpos (sub_nonpos.mpr hLow)] at hPower
  rw [abs_of_nonpos (sub_nonpos.mpr (hBelow.trans hLow))]
  linarith

/- No double is nearer than the rounded rational. -/
theorem roundedOf_nearest
    {w : Float}
    {v : ℚ}
    (hPos : 0 < q)
    (hW : value? w = some v) :
    |roundedOf q - q| ≤ |v - q| := by
  have hForm := canonical_unpack w.toModel
  have hStands := value?_eq_some_iff.mp hW
  generalize w.toModel.unpack = u at *
  cases hStands with
  | zero s => exact roundedOf_near_nonpos hPos le_rfl
  | @negative m f hM =>
      have hSome : (0 : ℚ) < m * 2 ^ f := by positivity
      exact roundedOf_near_nonpos hPos (by linarith)
  | @positive m f hM =>
      obtain ⟨hBits, hLeast, -, -⟩ := hForm
      rcases le_or_gt (exponentOf q) f with hCoarse | hFine
      · obtain ⟨k, rfl⟩ := Int.le.dest hCoarse
        have hValue :
            (m : ℚ) * 2 ^ (exponentOf q + k) =
              (m * 2 ^ k : Nat) * 2 ^ exponentOf q := by
          rw [zpow_add₀ two_ne_zero, zpow_natCast]
          push_cast
          ring
        rw [hValue]
        exact roundedOf_near_multiple hPos _
      · exact roundedOf_near_fine hPos hBits hLeast hFine

/-
  The double next to a positive rational: no double is nearer
  than the one that it is rounded to.
-/
theorem closest_nearest
    {w : Float}
    {v c : ℚ}
    (hPos : 0 < q)
    (hClosest : value? (closest q) = some c)
    (hW : value? w = some v) :
    |c - q| ≤ |v - q| := by
  have hRange : roundedOf q < 2 ^ 1024 := by
    by_contra hNot
    rw [closest_of_great hPos (not_lt.mp hNot),
      value?_eq_some_iff, unpack_infinity] at hClosest
    cases hClosest
  rw [value?_closest hPos hRange, Option.some_inj] at hClosest
  rw [← hClosest]
  exact roundedOf_nearest hPos hW

/- Away from the subnormal doubles the error is relative. -/
theorem roundedOf_error
    (hPos : 0 < q)
    (hNormal : 2 ^ (-1022 : Int) ≤ q) :
    |roundedOf q - q| ≤ q / 2 ^ 53 := by
  have hUnit : (0 : ℚ) < 2 ^ exponentOf q := by positivity
  obtain ⟨-, -, hSize⟩ := exponentOf_bounds hPos
  have hLow : 2 ^ (52 + exponentOf q) ≤ q := by
    rcases hSize with hLeast | hLow
    · rw [hLeast]
      exact hNormal
    · exact hLow
  have hNear := halfEvenOf_near (q := q / 2 ^ exponentOf q)
    (by positivity)
  have hError :
      |roundedOf q - q| =
        |(unitsOf q : ℚ) - q / 2 ^ exponentOf q| *
          2 ^ exponentOf q := by
    rw [← abs_of_pos hUnit, ← abs_mul, abs_of_pos hUnit, sub_mul,
      div_mul_cancel₀ _ hUnit.ne', roundedOf]
  rw [zpow_add₀ two_ne_zero] at hLow
  calc
    |roundedOf q - q| ≤ 1 / 2 * 2 ^ exponentOf q := by
      rw [hError]
      exact mul_le_mul_of_nonneg_right hNear hUnit.le
    _ = 2 ^ (52 : Int) * 2 ^ exponentOf q / 2 ^ 53 := by
      norm_num
      ring
    _ ≤ q / 2 ^ 53 := by gcongr

------------------------------------------------------------
-- Doubles and Their Numbers
------------------------------------------------------------

/- Apart from NaN, fields are found from their exact view. -/
theorem ofFields_inj
    {b c : Bool}
    {field field' fraction fraction' : Nat}
    (hFraction : fraction < 2 ^ 52)
    (hFraction' : fraction' < 2 ^ 52)
    (hSome : ofFields b field fraction ≠ .nan)
    (hSame :
      ofFields b field fraction = ofFields c field' fraction') :
    b = c ∧ field = field' ∧ fraction = fraction' := by
  unfold ofFields at hSome hSame
  grind

/- Apart from NaN, a double is found from its exact view. -/
theorem eq_of_exact
    {x y : Float}
    (hSome : Binary64.exact x ≠ .nan)
    (hSame : Binary64.exact x = Binary64.exact y) :
    x = y := by
  rw [exact_eq_ofFields] at hSome
  rw [exact_eq_ofFields, exact_eq_ofFields] at hSame
  have hX := x.toBits.toNat_lt
  have hY := y.toBits.toNat_lt
  obtain ⟨hSign, hField, hFraction⟩ :=
    ofFields_inj (Nat.mod_lt _ (by decide))
      (Nat.mod_lt _ (by decide)) hSome hSame
  have hBits : x.toBits.toNat = y.toBits.toNat := by
    rw [Bool.eq_iff_iff, beq_iff_eq, beq_iff_eq] at hSign
    omega
  have hModel : x.toModel.toBits = y.toModel.toBits :=
    UInt64.toNat_inj.mp hBits
  rcases x with ⟨⟨bits, _⟩⟩
  rcases y with ⟨⟨bits', _⟩⟩
  dsimp only at hModel
  subst hModel
  rfl

theorem eq_of_unpack
    {x y : Float}
    (hSome : x.toModel.unpack ≠ .notANumber)
    (hSame : x.toModel.unpack = y.toModel.unpack) :
    x = y := by
  apply eq_of_exact
  · rw [exact_eq_view]
    generalize x.toModel.unpack = u at hSome
    cases u <;> simp_all [view]
  · rw [exact_eq_view, exact_eq_view, hSame]

/- What stands for a positive number is unpacked like this. -/
theorem unpack_of_pos
    {x : Float}
    (hPos : 0 < q)
    (hX : value? x = some q) :
    ∃ (m : Nat) (e : Int) (hM : 0 < m),
      x.toModel.unpack = .finite .positive m e hM ∧
        Canonical (.finite .positive m e hM) ∧ q = m * 2 ^ e := by
  have hForm := canonical_unpack x.toModel
  have hStands := value?_eq_some_iff.mp hX
  generalize x.toModel.unpack = u at *
  cases hStands with
  | zero s => exact absurd hPos (lt_irrefl 0)
  | @positive m e hM => exact ⟨m, e, hM, rfl, hForm, rfl⟩
  | @negative m e hM =>
      have hSome : (0 : ℚ) < m * 2 ^ e := by positivity
      linarith

/- A positive double is the nearest one to its number. -/
theorem closest_of_value
    {x : Float}
    (hPos : 0 < q)
    (hX : value? x = some q) :
    closest q = x := by
  obtain ⟨m, e, hM, hUnpack, hForm, rfl⟩ := unpack_of_pos hPos hX
  have hSame :
      (closest (m * 2 ^ e)).toModel.unpack =
        .finite .positive m e hM := by
    rw [closest, rounding_canonical _ hForm]
    exact unpack_pack hForm
  apply eq_of_unpack
  · rw [hSame]
    intro hNaN
    cases hNaN
  · rw [hSame, hUnpack]

/- A double that stands for a number is found from it. -/
theorem eq_of_value
    {x y : Float}
    (hPos : 0 < q)
    (hX : value? x = some q)
    (hY : value? y = some q) :
    x = y := by
  rw [← closest_of_value hPos hX, closest_of_value hPos hY]

end Double

end Assessment
