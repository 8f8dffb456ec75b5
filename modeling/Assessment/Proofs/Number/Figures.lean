import Assessment.Number.Decimal
import Assessment.Proofs.Number.Decimals
import Assessment.Proofs.Number.Whole

/-
  Numbers rounded to leading digits.

  The power of ten that the last leading digit has is found
  from the logarithm. A number is measured in this power and
  rounded to a whole one. Decimals round the middle away from
  zero, exact doubles to the even neighbour.

  Main declarations:
    * `Decimal.halfUpOf`, the nearest whole number
    * `Decimal.leading`, a number rounded to leading digits
    * `Decimal.toFigures?_spec`
    * `Decimal.toFloat_eq_closest`
    * `Fixed.toFigures_eq_closest`
-/

------------------------------------------------------------
-- Nearest Whole Numbers
------------------------------------------------------------

namespace Assessment

namespace Decimal

open Double

/- The nearest whole number, and in the middle the greater. -/
def halfUpOf (q : ℚ) : Nat :=
  ⌊q + 1 / 2⌋₊

theorem halfUpOf_natCast (n : Nat) : halfUpOf n = n := by
  rw [halfUpOf, Nat.floor_eq_iff (by positivity)]
  constructor <;> linarith

theorem halfUpOf_eq
    {q : ℚ}
    {n : Nat}
    (hLow : n - 1 / 2 ≤ q)
    (hHigh : q < n + 1 / 2) :
    halfUpOf q = n := by
  have hSum : (n : ℚ) ≤ q + 1 / 2 := by linarith
  rw [halfUpOf, Nat.floor_eq_iff ((Nat.cast_nonneg n).trans hSum)]
  exact ⟨hSum, by linarith⟩

theorem halfUpOf_near {q : ℚ} (hPos : 0 ≤ q) :
    |(halfUpOf q : ℚ) - q| ≤ 1 / 2 := by
  have hLow := Nat.floor_le (a := q + 1 / 2) (by positivity)
  have hHigh := Nat.lt_floor_add_one (q + 1 / 2)
  unfold halfUpOf
  rw [abs_le]
  constructor <;> linarith

theorem halfUpOf_le
    {q : ℚ}
    {n : Nat}
    (hPos : 0 ≤ q)
    (hLe : q ≤ n) :
    halfUpOf q ≤ n := by
  have hNear := (abs_le.mp (halfUpOf_near hPos)).2
  have hLess : (halfUpOf q : ℚ) < (n + 1 : Nat) := by
    push_cast
    linarith
  exact Nat.le_of_lt_succ (by exact_mod_cast hLess)

theorem le_halfUpOf
    {q : ℚ}
    {n : Nat}
    (hLe : n ≤ q) :
    n ≤ halfUpOf q := by
  apply Nat.le_floor
  linarith

theorem tenTo_eq (n : Nat) : tenTo n = 10 ^ n := rfl

/- Digits are dropped to the nearest whole number. -/
theorem dropDigits_eq (m k : Nat) :
    dropDigits m k = halfUpOf (m / 10 ^ k) := by
  cases k with
  | zero =>
      rw [pow_zero, div_one, halfUpOf_natCast]
      rfl
  | succ k =>
      have hUnit : 0 < 10 ^ k := by positivity
      have hSplit := Nat.div_add_mod' m (10 ^ (k + 1))
      have hRest : m % 10 ^ (k + 1) < 10 ^ (k + 1) :=
        Nat.mod_lt _ (by positivity)
      have hNext :
          5 ≤ m / 10 ^ k % 10 ↔ 5 * 10 ^ k ≤ m % 10 ^ (k + 1) := by
        rw [← Nat.mod_mul_right_div_self, ← Nat.pow_succ,
          Nat.le_div_iff_mul_le hUnit]
      have hHalf :
          (m : ℚ) / 10 ^ (k + 1) + 1 / 2 =
            (m + 5 * 10 ^ k : Nat) / (10 ^ (k + 1) : Nat) := by
        push_cast
        field_simp
        ring
      have hFloor :
          halfUpOf (m / 10 ^ (k + 1)) =
            (m + 5 * 10 ^ k) / 10 ^ (k + 1) := by
        rw [halfUpOf, hHalf, Nat.floor_div_eq_div]
      have hNot : (k + 1 == 0) = false := rfl
      unfold dropDigits
      simp only [hNot, tenTo_eq, Nat.add_sub_cancel, hFloor]
      rw [if_neg Bool.false_ne_true, if_congr hNext rfl rfl]
      have hTen : 10 ^ (k + 1) = 10 * 10 ^ k := by
        rw [Nat.pow_succ, Nat.mul_comm]
      have hNextUnit :
          ∀ q, (q + 1) * 10 ^ (k + 1) =
            q * 10 ^ (k + 1) + 10 ^ (k + 1) :=
        fun q => Nat.succ_mul q _
      have hOnce := hNextUnit (m / 10 ^ (k + 1))
      have hTwice := hNextUnit (m / 10 ^ (k + 1) + 1)
      generalize m / 10 ^ (k + 1) = q at *
      generalize 10 ^ (k + 1) = w at *
      generalize 10 ^ k = u at *
      symm
      split_ifs <;> apply Nat.div_eq_of_lt_le <;> omega

------------------------------------------------------------
-- Leading Digits
------------------------------------------------------------

/- The power of ten of the last of so many leading digits. -/
def lastPlace (n : Nat) (q : ℚ) : Int :=
  Int.log 10 q + 1 - n

/- A positive number rounded to leading digits. -/
def leading (round : ℚ → Nat) (n : Nat) (q : ℚ) : ℚ :=
  round (q / 10 ^ lastPlace n q) * 10 ^ lastPlace n q

theorem log_ten_eq
    {q : ℚ}
    {k : Int}
    (hLow : 10 ^ k ≤ q)
    (hHigh : q < 10 ^ (k + 1)) :
    Int.log 10 q = k := by
  have hPos : 0 < q :=
    lt_of_lt_of_le (by positivity) hLow
  apply le_antisymm
  · apply Int.le_of_lt_add_one
    rw [← Int.lt_zpow_iff_log_lt (by decide) hPos]
    exact_mod_cast hHigh
  · rw [← Int.zpow_le_iff_le_log (by decide) hPos]
    exact_mod_cast hLow

theorem ten_zpow_log_le {q : ℚ} (hPos : 0 < q) :
    (10 : ℚ) ^ Int.log 10 q ≤ q := by
  exact_mod_cast Int.zpow_log_le_self (b := 10) (by decide) hPos

theorem lt_ten_zpow_log {q : ℚ} :
    q < (10 : ℚ) ^ (Int.log 10 q + 1) := by
  exact_mod_cast Int.lt_zpow_succ_log_self (b := 10) (by decide) q

/- A number of digits, as a logarithm. -/
theorem length_toDigits {n : Nat} (hPos : 0 < n) :
    10 ^ ((Nat.toDigits 10 n).length - 1) ≤ n ∧
      n < 10 ^ (Nat.toDigits 10 n).length := by
  have hLength : 0 < (Nat.toDigits 10 n).length :=
    Nat.length_toDigits_pos
  refine ⟨?_, ?_⟩
  · rcases Nat.eq_or_lt_of_le hLength with hOne | hMore
    · rw [← hOne]
      exact hPos
    · by_contra hLess
      have hFew :=
        (Nat.length_toDigits_le_iff (b := 10) (n := n) (by decide)
          (k := (Nat.toDigits 10 n).length - 1) (by omega)).mpr
          (not_le.mp hLess)
      omega
  · exact (Nat.length_toDigits_le_iff (by decide) hLength).mp
      (Nat.le_refl _)

theorem length_floor
    {q : ℚ}
    {k : Nat}
    (hOne : 1 ≤ q * 10 ^ k) :
    ((Nat.toDigits 10 ⌊q * 10 ^ k⌋₊).length : Int) - k =
      Int.log 10 q + 1 := by
  have hSome : 0 < ⌊q * 10 ^ k⌋₊ := Nat.floor_pos.mpr hOne
  obtain ⟨hLow, hHigh⟩ := length_toDigits hSome
  have hLength :
      0 < (Nat.toDigits 10 ⌊q * 10 ^ k⌋₊).length :=
    Nat.length_toDigits_pos
  rw [Nat.le_floor_iff (by linarith)] at hLow
  rw [Nat.floor_lt (by linarith)] at hHigh
  generalize (Nat.toDigits 10 ⌊q * 10 ^ k⌋₊).length = l at *
  have hUnit : (0 : ℚ) < 10 ^ k := by positivity
  have hLog : Int.log 10 q = (l : Int) - k - 1 := by
    apply log_ten_eq
    · have hSplit :
          (l : Int) - k - 1 = (l - 1 : Nat) - k := by
        omega
      rw [hSplit, zpow_sub₀ (by norm_num), zpow_natCast, zpow_natCast,
        div_le_iff₀ hUnit]
      exact_mod_cast hLow
    · rw [Int.sub_add_cancel, zpow_sub₀ (by norm_num), zpow_natCast,
        zpow_natCast, lt_div_iff₀ hUnit]
      exact_mod_cast hHigh
  omega

/- The magnitude of a decimal. -/
def value (d : Decimal) : ℚ :=
  d.mantissa / 10 ^ d.scale

/- A decimal is zero only without digits. -/
theorem isZero_eq_false_iff {d : Decimal} :
    d.isZero = false ↔ 0 < d.mantissa := by
  rw [isZero, beq_eq_false_iff_ne, Nat.pos_iff_ne_zero]

theorem value_pos {d : Decimal} (hSome : 0 < d.mantissa) :
    0 < d.value := by
  unfold value
  positivity

theorem pointPosition_eq {d : Decimal} (hSome : 0 < d.mantissa) :
    d.pointPosition = Int.log 10 d.value + 1 := by
  have hUnits : d.value * 10 ^ d.scale = d.mantissa := by
    rw [value, div_mul_cancel₀ _ (by positivity)]
  have hOne : (1 : ℚ) ≤ d.value * 10 ^ d.scale := by
    rw [hUnits]
    exact_mod_cast hSome
  have hLength := length_floor hOne
  rw [hUnits, Nat.floor_natCast] at hLength
  exact hLength

/- A number has so many digits before its last place. -/
theorem leading_bounds
    {q : ℚ}
    {n : Nat}
    (hPos : 0 < q)
    (hN : 1 ≤ n) :
    10 ^ (n - 1) ≤ q / 10 ^ lastPlace n q ∧
      q / 10 ^ lastPlace n q < 10 ^ n := by
  have hUnit : (0 : ℚ) < 10 ^ lastPlace n q := by positivity
  rw [le_div_iff₀ hUnit, div_lt_iff₀ hUnit, ← zpow_natCast,
    ← zpow_natCast, ← zpow_add₀ (by norm_num),
    ← zpow_add₀ (by norm_num)]
  have hFirst :
      ((n - 1 : Nat) : Int) + lastPlace n q = Int.log 10 q := by
    unfold lastPlace
    omega
  have hLast : (n : Int) + lastPlace n q = Int.log 10 q + 1 := by
    unfold lastPlace
    omega
  rw [hFirst, hLast]
  exact ⟨ten_zpow_log_le hPos, lt_ten_zpow_log⟩

/- A whole number of the last places is not rounded. -/
theorem leading_eq_self
    {q : ℚ}
    {n m : Nat}
    (hWhole : q = m * 10 ^ lastPlace n q) :
    leading halfUpOf n q = q := by
  have hUnit : (10 : ℚ) ^ lastPlace n q ≠ 0 := by positivity
  have hUnits : q / 10 ^ lastPlace n q = m := by
    rw [div_eq_iff hUnit]
    exact hWhole
  rw [leading, hUnits, halfUpOf_natCast]
  exact hWhole.symm

theorem make_of_pos
    (negative : Bool)
    {m : Nat}
    (hSome : 0 < m)
    (scale : Nat) :
    make negative m scale = ⟨negative, m, scale⟩ := by
  unfold make
  have hBits : (m != 0) = true := by simpa using hSome.ne'
  rw [hBits, Bool.and_true]

/- Rounding to places, as a rounding of a multiple. -/
theorem toPlaces_spec
    {d : Decimal}
    {k : Nat}
    (hOne : 0 < halfUpOf (d.value * 10 ^ k)) :
    (d.toPlaces k).negative = d.negative ∧
      (d.toPlaces k).value = halfUpOf (d.value * 10 ^ k) / 10 ^ k ∧
      0 < (d.toPlaces k).mantissa ∧
      (d.toPlaces k).mantissa ≤ halfUpOf (d.value * 10 ^ k) ∧
      (d.toPlaces k).scale ≤ k := by
  unfold toPlaces
  split_ifs with hFew
  · obtain ⟨j, rfl⟩ := Nat.exists_eq_add_of_le hFew
    have hUnits :
        d.value * 10 ^ (d.scale + j) = (d.mantissa * 10 ^ j : Nat) := by
      rw [value, pow_add]
      push_cast
      field_simp
    have hValue :
        d.value =
          (d.mantissa * 10 ^ j : Nat) / 10 ^ (d.scale + j) := by
      rw [← hUnits, mul_div_cancel_right₀ _ (by positivity)]
    rw [hUnits, halfUpOf_natCast] at hOne ⊢
    exact ⟨rfl, hValue, Nat.pos_of_mul_pos_right hOne,
      Nat.le_mul_of_pos_right _ (by positivity), hFew⟩
  · have hUnits :
        d.value * 10 ^ k = d.mantissa / 10 ^ (d.scale - k) := by
      have hSplit : d.scale = d.scale - k + k := by omega
      rw [value]
      conv_lhs => rw [hSplit]
      rw [pow_add]
      field_simp
    rw [dropDigits_eq, ← hUnits, make_of_pos _ hOne]
    exact ⟨rfl, rfl, hOne, le_refl _, le_refl _⟩

/- Rounding to digits is rounding to a last place. -/
theorem toFigures?_eq
    {d : Decimal}
    (hSome : 0 < d.mantissa)
    (n : Nat) :
    d.toFigures? n =
      if lastPlace n d.value ≤ 0 then
        some (d.toPlaces (-lastPlace n d.value).toNat)
      else
        let m :=
          halfUpOf (d.value / 10 ^ lastPlace n d.value) *
            10 ^ (lastPlace n d.value).toNat
        if m ≤ maxMantissa then some (make d.negative m 0)
        else none := by
  have hPlaces :
      (n : Int) - d.pointPosition = -lastPlace n d.value := by
    rw [pointPosition_eq hSome]
    unfold lastPlace
    omega
  unfold toFigures?
  rw [isZero_eq_false_iff.mpr hSome, if_neg Bool.false_ne_true,
    hPlaces]
  dsimp only
  rw [Int.neg_neg]
  by_cases hDown : lastPlace n d.value ≤ 0
  · rw [if_pos hDown, if_pos (by omega)]
  · obtain ⟨k, hK⟩ : ∃ k : Nat, lastPlace n d.value = k :=
      ⟨(lastPlace n d.value).toNat, by omega⟩
    have hUnits :
        d.value / 10 ^ lastPlace n d.value =
          d.mantissa / 10 ^ (d.scale + k) := by
      rw [hK, zpow_natCast, value, pow_add, div_div]
    rw [if_neg hDown, if_neg (by omega), dropDigits_eq, tenTo_eq,
      hUnits, hK, Int.toNat_natCast]

/- The rounded number, if the last place is a whole one. -/
theorem leading_of_units
    {q : ℚ}
    {n : Nat}
    (hUp : 0 ≤ lastPlace n q) :
    leading halfUpOf n q =
      (halfUpOf (q / 10 ^ lastPlace n q) *
        10 ^ (lastPlace n q).toNat : Nat) := by
  have hPlace : ((lastPlace n q).toNat : Int) = lastPlace n q :=
    Int.toNat_of_nonneg hUp
  rw [leading]
  push_cast
  rw [← zpow_natCast, hPlace]

/- The rounded number, if the last place is behind the point. -/
theorem leading_of_places
    {q : ℚ}
    {n k : Nat}
    (hPlace : lastPlace n q = -(k : Int)) :
    leading halfUpOf n q = halfUpOf (q * 10 ^ k) / 10 ^ k := by
  rw [leading, hPlace, zpow_neg, zpow_natCast, div_inv_eq_mul,
    ← div_eq_mul_inv]

/-
  A decimal is rounded to leading digits, unless the rounded
  number is too large. A rounded one has few digits, or no
  places.
-/
theorem toFigures?_spec
    {d : Decimal}
    {n : Nat}
    (hSome : 0 < d.mantissa)
    (hN : 1 ≤ n)
    (hFits : leading halfUpOf n d.value ≤ maxMantissa) :
    ∃ r, d.toFigures? n = some r ∧
      r.negative = d.negative ∧
      r.value = leading halfUpOf n d.value ∧ 0 < r.mantissa ∧
      (r.scale = 0 ∨
        r.mantissa ≤ 10 ^ n ∧
          (r.scale : Int) ≤ -lastPlace n d.value) := by
  have hPos := value_pos hSome
  obtain ⟨hLow, hHigh⟩ := leading_bounds hPos hN
  have hOne : 0 < halfUpOf (d.value / 10 ^ lastPlace n d.value) := by
    apply le_halfUpOf
    refine le_trans ?_ hLow
    push_cast
    exact one_le_pow₀ (by norm_num)
  have hMost :
      halfUpOf (d.value / 10 ^ lastPlace n d.value) ≤ 10 ^ n := by
    apply halfUpOf_le (by positivity)
    push_cast
    exact hHigh.le
  rw [toFigures?_eq hSome]
  split_ifs with hDown
  · obtain ⟨k, hK⟩ : ∃ k : Nat, lastPlace n d.value = -(k : Int) :=
      ⟨(-lastPlace n d.value).toNat, by omega⟩
    rw [hK, zpow_neg, zpow_natCast, div_inv_eq_mul] at hOne hMost
    obtain ⟨hSign, hValue, hUnits, hFew, hScale⟩ :=
      toPlaces_spec hOne
    rw [leading_of_places hK, hK, Int.neg_neg, Int.toNat_natCast]
    exact ⟨_, rfl, hSign, hValue, hUnits,
      Or.inr ⟨hFew.trans hMost, by exact_mod_cast hScale⟩⟩
  · have hLeading := leading_of_units (q := d.value) (n := n) (by omega)
    rw [hLeading] at hFits ⊢
    have hUnits := Nat.mul_pos hOne
      (Nat.pow_pos (n := (lastPlace n d.value).toNat)
        (by decide : 0 < 10))
    dsimp only
    rw [if_pos (by exact_mod_cast hFits), make_of_pos _ hUnits]
    refine ⟨_, rfl, rfl, ?_, hUnits, Or.inl rfl⟩
    rw [value, pow_zero, div_one]

/- Rounding to places does not pass a whole number. -/
theorem leading_le
    {q : ℚ}
    {n m : Nat}
    (hPos : 0 < q)
    (hLe : q ≤ m)
    (hPlace : lastPlace n q ≤ 0) :
    leading halfUpOf n q ≤ m := by
  obtain ⟨k, hK⟩ : ∃ k : Nat, lastPlace n q = -(k : Int) :=
    ⟨(-lastPlace n q).toNat, by omega⟩
  have hUnits : halfUpOf (q * 10 ^ k) ≤ m * 10 ^ k := by
    apply halfUpOf_le (by positivity)
    push_cast
    gcongr
  rw [leading_of_places hK, div_le_iff₀ (by positivity)]
  exact_mod_cast hUnits

/- A number that is too large once rounded is no decimal. -/
theorem toFigures?_eq_none
    {d : Decimal}
    {n : Nat}
    (hSome : 0 < d.mantissa)
    (hFits : d.value ≤ maxMantissa)
    (hLarge : (maxMantissa : ℚ) < leading halfUpOf n d.value) :
    d.toFigures? n = none := by
  have hUp : 0 < lastPlace n d.value := by
    by_contra hDown
    have hLe := leading_le (value_pos hSome) hFits (not_lt.mp hDown)
    exact absurd hLarge (not_lt.mpr hLe)
  rw [leading_of_units hUp.le] at hLarge
  rw [toFigures?_eq hSome, if_neg (not_le.mpr hUp)]
  exact if_neg (not_le.mpr (by exact_mod_cast hLarge))

------------------------------------------------------------
-- Entering the Model
------------------------------------------------------------

/- A number rounded to as many places as the model has. -/
def entered (q : ℚ) : ℚ :=
  halfUpOf (q * 10 ^ maxScale) / 10 ^ maxScale

theorem entered_pos_iff {q : ℚ} :
    0 < entered q ↔ 5 / 10 ^ 29 ≤ q := by
  have hFloor :
      0 < halfUpOf (q * 10 ^ maxScale) ↔
        1 ≤ q * 10 ^ maxScale + 1 / 2 :=
    Nat.floor_pos
  rw [entered, div_pos_iff_of_pos_right (by positivity), Nat.cast_pos,
    hFloor, maxScale]
  constructor <;> intro hLe <;> linarith

/- Digits that have no more places are not rounded. -/
theorem entered_value
    {d : Shortest.Digits}
    (hPlaces : -28 ≤ d.exponent) :
    entered d.value = d.value := by
  obtain ⟨k, hK⟩ : ∃ k : Nat, d.exponent = k - 28 :=
    ⟨(d.exponent + 28).toNat, by omega⟩
  have hUnits :
      d.value * 10 ^ maxScale = (d.significand * 10 ^ k : Nat) := by
    rw [Shortest.Digits.value, hK, zpow_sub₀ (by norm_num),
      zpow_natCast, maxScale]
    push_cast
    field_simp
    norm_num
  rw [entered, hUnits, halfUpOf_natCast, ← hUnits,
    mul_div_cancel_right₀ _ (by positivity)]

theorem ofDigits?_of_fits
    (negative : Bool)
    {d : Shortest.Digits}
    (hFits : entered d.value ≤ maxMantissa) :
    ∃ m scale, ofDigits? negative d = some (make negative m scale) ∧
      (m / 10 ^ scale : ℚ) = entered d.value ∧ scale ≤ 28 := by
  unfold ofDigits?
  by_cases hWhole : 0 ≤ d.exponent
  · obtain ⟨k, hK⟩ := Int.eq_ofNat_of_zero_le hWhole
    have hSame := entered_value (d := d) (by omega)
    have hValue : d.value = (d.significand * 10 ^ k : Nat) := by
      rw [Shortest.Digits.value, hK, zpow_natCast]
      push_cast
      rfl
    rw [hSame, hValue] at hFits ⊢
    rw [if_pos hWhole, hK, Int.toNat_natCast, tenTo_eq]
    dsimp only
    rw [if_pos (by exact_mod_cast hFits)]
    exact ⟨_, 0, rfl, by rw [pow_zero, div_one], Nat.zero_le _⟩
  · obtain ⟨k, hK⟩ : ∃ k : Nat, d.exponent = -(k : Int) :=
      ⟨(-d.exponent).toNat, by omega⟩
    have hValue : d.value = d.significand / 10 ^ k := by
      rw [Shortest.Digits.value, hK, zpow_neg, zpow_natCast,
        div_eq_mul_inv]
    have hNat : (-d.exponent).toNat = k := by omega
    rw [if_neg hWhole, hNat]
    dsimp only
    refine ⟨_, _, rfl, ?_, Nat.min_le_right _ _⟩
    rw [dropDigits_eq]
    by_cases hPlaces : k ≤ maxScale
    · rw [Nat.min_eq_left hPlaces, Nat.sub_self, pow_zero, div_one,
        halfUpOf_natCast, entered_value (by rw [maxScale] at *; omega),
        hValue]
    · have hUnits :
          d.value * 10 ^ maxScale =
            d.significand / 10 ^ (k - maxScale) := by
        have hSplit : k = k - maxScale + maxScale := by omega
        rw [hValue]
        conv_lhs => rw [hSplit]
        rw [pow_add]
        field_simp
      rw [Nat.min_eq_right (by omega), entered, hUnits]

theorem ofDigits?_eq_none
    (negative : Bool)
    {d : Shortest.Digits}
    (hFew : d.significand ≤ 10 ^ 18)
    (hLarge : (maxMantissa : ℚ) < entered d.value) :
    ofDigits? negative d = none := by
  have hWhole : 0 ≤ d.exponent := by
    by_contra hPlaces
    have hBelow : d.value ≤ 10 ^ 18 := by
      calc
        d.value ≤ d.significand * 1 := by
          unfold Shortest.Digits.value
          gcongr
          exact zpow_le_one_of_nonpos₀ (by norm_num) (by omega)
        _ ≤ 10 ^ 18 := by
          rw [mul_one]
          exact_mod_cast hFew
    have hUnits :
        halfUpOf (d.value * 10 ^ maxScale) ≤
          10 ^ 18 * 10 ^ maxScale := by
      apply halfUpOf_le
      · unfold Shortest.Digits.value
        positivity
      · rw [Nat.cast_mul, Nat.cast_pow, Nat.cast_pow]
        exact mul_le_mul_of_nonneg_right hBelow (by positivity)
    have hEntered : entered d.value ≤ 10 ^ 18 := by
      rw [entered, div_le_iff₀ (by positivity)]
      exact_mod_cast hUnits
    have hMost : (10 : ℚ) ^ 18 ≤ maxMantissa := by
      have hNat : 10 ^ 18 ≤ maxMantissa := by decide
      exact_mod_cast hNat
    linarith
  obtain ⟨k, hK⟩ := Int.eq_ofNat_of_zero_le hWhole
  have hValue : d.value = (d.significand * 10 ^ k : Nat) := by
    rw [Shortest.Digits.value, hK, zpow_natCast]
    push_cast
    rfl
  rw [entered_value (by omega), hValue] at hLarge
  unfold ofDigits?
  rw [if_pos hWhole, hK, Int.toNat_natCast, tenTo_eq]
  dsimp only
  rw [if_neg]
  exact not_le.mpr (by exact_mod_cast hLarge)

------------------------------------------------------------
-- Leaving the Model
------------------------------------------------------------

/- A natural number is a double up to 53 bits. -/
theorem value?_ofNat_small {n : Nat} (hSmall : n < 2 ^ 53) :
    value? (Float.ofNat n) = some (n : ℚ) := by
  have hLog : n.log2 ≤ 1000 :=
    (log2_le_of_lt hSmall).trans (by decide)
  rw [value?_ofNat hLog, rounded_of_lt hSmall]

/- The powers of ten up to the twenty-second are doubles. -/
theorem value?_ofNat_power {k : Nat} (hFew : k ≤ 22) :
    value? (Float.ofNat (10 ^ k)) = some ((10 ^ k : Nat) : ℚ) := by
  have hSmall : 10 ^ k ≤ 10 ^ 22 :=
    Nat.pow_le_pow_right (by decide) hFew
  have hShort : IsShort ((10 ^ k : Nat) : Int) := by
    refine ⟨((5 ^ k : Nat) : Int), k, ?_, ?_⟩
    · have hFive : 5 ^ k ≤ 5 ^ 22 :=
        Nat.pow_le_pow_right (by decide) hFew
      rw [Int.natAbs_natCast]
      omega
    · have hTen : 10 ^ k = 5 ^ k * 2 ^ k :=
        Nat.mul_pow 5 2 k
      rw [hTen]
      push_cast
      rfl
  have hSame : rounded (10 ^ k) = 10 ^ k := by
    have hNearest := (nearest_eq_self_iff _).mpr hShort
    rw [nearest_natCast] at hNearest
    exact_mod_cast hNearest
  have hLog : (10 ^ k).log2 ≤ 1000 := by
    refine (log2_le_of_lt (k := 73) ?_).trans (by decide)
    omega
  rw [value?_ofNat hLog, hSame]

theorem ofNat_eq_closest {n : Nat} (hSome : 0 < n) :
    Float.ofNat n = closest n := by
  have hScientific := ofScientific_eq_closest 0 hSome
  rw [zpow_zero, mul_one] at hScientific
  exact hScientific

/- A number is another one but for a relative error. -/
def Within (δ a b : ℚ) : Prop :=
  |a - b| ≤ b * δ

theorem Within.trans
    {δ ε a b c : ℚ}
    (hδ : 0 ≤ δ)
    (hFirst : Within δ a b)
    (hSecond : Within ε b c) :
    Within (δ + ε + δ * ε) a c := by
  unfold Within at *
  have hB := (abs_le.mp hSecond).2
  have hStep : b * δ ≤ (c + c * ε) * δ :=
    mul_le_mul_of_nonneg_right (by linarith) hδ
  calc
    |a - c| ≤ |a - b| + |b - c| := abs_sub_le a b c
    _ ≤ (c + c * ε) * δ + c * ε := by linarith
    _ = c * (δ + ε + δ * ε) := by ring

theorem Within.mul_right
    {δ a b c : ℚ}
    (hC : 0 ≤ c)
    (hWithin : Within δ a b) :
    Within δ (a * c) (b * c) := by
  unfold Within at *
  rw [← sub_mul, abs_mul, abs_of_nonneg hC, mul_right_comm]
  exact mul_le_mul_of_nonneg_right hWithin hC

theorem Within.mono
    {δ ε a b : ℚ}
    (hB : 0 ≤ b)
    (hLe : δ ≤ ε)
    (hWithin : Within δ a b) :
    Within ε a b := by
  unfold Within at *
  exact le_trans hWithin (mul_le_mul_of_nonneg_left hLe hB)

theorem Within.pos
    {δ a b : ℚ}
    (hB : 0 < b)
    (hδ : δ < 1)
    (hWithin : Within δ a b) :
    0 < a := by
  have hBelow := (abs_le.mp hWithin).1
  have hLess : b * δ < b := mul_lt_of_lt_one_right hB hδ
  linarith

/- The relative error of one rounding. -/
def unitRoundoff : ℚ :=
  1 / 2 ^ 53

/- Numbers of a usual size are rounded with a small error. -/
theorem within_closest
    {q : ℚ}
    (hLow : 1 / 10 ^ 30 ≤ q)
    (hHigh : q ≤ 10 ^ 40) :
    ∃ v, value? (closest q) = some v ∧ Within unitRoundoff v q := by
  have hPos : 0 < q := lt_of_lt_of_le (by positivity) hLow
  have hNormal : (2 : ℚ) ^ (-1022 : Int) ≤ q := by
    calc
      (2 : ℚ) ^ (-1022 : Int) ≤ 2 ^ (-100 : Int) :=
        zpow_le_zpow_right₀ one_le_two (by decide)
      _ ≤ 1 / 10 ^ 30 := by norm_num
      _ ≤ q := hLow
  have hError := roundedOf_error hPos hNormal
  have hRange : roundedOf q < 2 ^ 1024 := by
    have hAbove := (abs_le.mp hError).2
    calc
      roundedOf q ≤ q + q / 2 ^ 53 := by linarith
      _ ≤ 10 ^ 40 + 10 ^ 40 / 2 ^ 53 := by gcongr
      _ < 2 ^ 200 := by norm_num
      _ ≤ 2 ^ 1024 := pow_le_pow_right₀ one_le_two (by decide)
  refine ⟨roundedOf q, value?_closest hPos hRange, ?_⟩
  rw [Within, unitRoundoff, mul_one_div]
  exact hError

/- A positive double is rounded to a whole number. -/
theorem round_of_value
    {y : Float}
    {h : ℚ}
    (hPos : 0 < h)
    (hY : value? y = some h) :
    Binary64.round y = Float.ofNat (halfUpOf h) := by
  obtain ⟨m, e, hM, hUnpack, -, rfl⟩ := unpack_of_pos hPos hY
  have hExact : Binary64.exact y = .finite false m e := by
    rw [exact_eq_view, hUnpack]
    rfl
  obtain ⟨hLow, hHigh, -⟩ := wholePart_spec (2 * m) e
  have hTwice :
      (Binary64.wholePart (2 * m) e).1 = ⌊2 * ((m : ℚ) * 2 ^ e)⌋₊ := by
    symm
    rw [Nat.floor_eq_iff (by positivity), ← mul_assoc]
    push_cast at hLow hHigh
    exact ⟨hLow, hHigh⟩
  have hHalf :
      halfUpOf (m * 2 ^ e) = (⌊2 * ((m : ℚ) * 2 ^ e)⌋₊ + 1) / 2 := by
    have hSum :
        (m : ℚ) * 2 ^ e + 1 / 2 = (2 * (m * 2 ^ e) + 1) / 2 := by
      ring
    rw [halfUpOf, hSum, Nat.floor_div_ofNat,
      Nat.floor_add_one (by positivity)]
  unfold Binary64.round
  rw [hExact]
  dsimp only
  rw [hTwice, hHalf]
  rfl

/- To add zero changes nothing. -/
theorem zero_add_float
    {y : Float}
    {h : ℚ}
    (hPos : 0 < h)
    (hY : value? y = some h) :
    Float.ofNat 0 + y = y := by
  obtain ⟨m, e, hM, hUnpack, hForm, rfl⟩ := unpack_of_pos hPos hY
  have hAdd :
      Float.ofNat 0 + y =
        Float.ofModel (.pack (.add .binary64
          (Float.ofNat 0).toModel.unpack y.toModel.unpack)) :=
    rfl
  have hZero :
      (Float.ofNat 0).toModel.unpack = .zero .positive := by
    with_unfolding_all rfl
  apply eq_of_value hPos _ hY
  rw [hAdd, hZero, hUnpack]
  exact value?_pack hForm (.positive hM)

theorem unitRoundoff_nonneg : 0 ≤ unitRoundoff := by
  unfold unitRoundoff
  positivity

variable {m u : Nat}

/- The fraction of a decimal is rounded once. -/
theorem within_fraction
    {r : Nat}
    (hU : value? (Float.ofNat u) = some (u : ℚ))
    (hSize : 0 < u)
    (hUnit : u ≤ 10 ^ 22)
    (hSome : 0 < r)
    (hFew : r ≤ 10 ^ 15) :
    ∃ f, value? (Float.ofNat r / Float.ofNat u) = some f ∧
      Within unitRoundoff f (r / u) := by
  have hUPos : (0 : ℚ) < u := by exact_mod_cast hSize
  have hUOne : (1 : ℚ) ≤ u := by exact_mod_cast hSize
  have hUMost : (u : ℚ) ≤ 10 ^ 22 := by exact_mod_cast hUnit
  have hRPos : (0 : ℚ) < r := by exact_mod_cast hSome
  have hROne : (1 : ℚ) ≤ r := by exact_mod_cast hSome
  have hRMost : (r : ℚ) ≤ 10 ^ 15 := by exact_mod_cast hFew
  have hLow : (1 : ℚ) / 10 ^ 30 ≤ r / u := by
    rw [div_le_div_iff₀ (by positivity) hUPos]
    calc
      (1 : ℚ) * u ≤ 1 * 10 ^ 22 := by gcongr
      _ ≤ 1 * 10 ^ 30 := by norm_num
      _ ≤ r * 10 ^ 30 := by gcongr
  have hHigh : (r : ℚ) / u ≤ 10 ^ 40 := by
    rw [div_le_iff₀ hUPos]
    calc
      (r : ℚ) ≤ 10 ^ 15 := hRMost
      _ ≤ 10 ^ 40 * 1 := by norm_num
      _ ≤ 10 ^ 40 * u := by gcongr
  rw [div_eq_closest hRPos hUPos (value?_ofNat_small (by omega)) hU]
  exact within_closest hLow hHigh

/- A whole number is added with one more rounding. -/
theorem within_sum
    {w : Nat}
    {y : Float}
    {f q : ℚ}
    (hFew : w ≤ 10 ^ 15)
    (hY : value? y = some f)
    (hWithin : Within unitRoundoff f q)
    (hPos : 0 < q)
    (hMost : q ≤ 10 ^ 15) :
    ∃ v, value? (Float.ofNat w + y) = some v ∧
      Within (unitRoundoff + unitRoundoff + unitRoundoff * unitRoundoff)
        v (w + q) := by
  have hFPos : 0 < f := hWithin.pos hPos (by norm_num [unitRoundoff])
  rcases Nat.eq_zero_or_pos w with rfl | hSome
  · rw [zero_add_float hFPos hY, Nat.cast_zero, zero_add]
    have hδ := unitRoundoff_nonneg
    exact ⟨f, hY, hWithin.mono hPos.le (by nlinarith)⟩
  · have hWPos : (0 : ℚ) < w := by exact_mod_cast hSome
    have hWOne : (1 : ℚ) ≤ w := by exact_mod_cast hSome
    have hWMost : (w : ℚ) ≤ 10 ^ 15 := by exact_mod_cast hFew
    have hFMost : f ≤ 10 ^ 16 := by
      have hAbove := (abs_le.mp hWithin).2
      unfold unitRoundoff at hAbove
      linarith
    have hShifted : Within unitRoundoff (w + f) (w + q) := by
      unfold Within at hWithin ⊢
      rw [add_sub_add_left_eq_sub]
      refine hWithin.trans ?_
      gcongr
      · exact unitRoundoff_nonneg
      · linarith
    have hLow : (1 : ℚ) / 10 ^ 30 ≤ w + f := by
      have hSmall : (1 : ℚ) / 10 ^ 30 ≤ 1 := by norm_num
      linarith
    have hHigh : (w : ℚ) + f ≤ 10 ^ 40 := by
      have hLarge : (10 : ℚ) ^ 15 + 10 ^ 16 ≤ 10 ^ 40 := by norm_num
      linarith
    obtain ⟨v, hV, hRounded⟩ := within_closest hLow hHigh
    rw [add_eq_closest hWPos hFPos (value?_ofNat_small (by omega)) hY]
    exact ⟨v, hV, hRounded.trans unitRoundoff_nonneg hShifted⟩

/-
  The integral part and the fraction of a decimal, added as
  doubles, are the decimal but for two roundings.
-/
theorem within_parts
    (hU : value? (Float.ofNat u) = some (u : ℚ))
    (hSize : 0 < u)
    (hUnit : u ≤ 10 ^ 22)
    (hFew : m ≤ 10 ^ 15)
    (hRest : m % u ≠ 0) :
    ∃ v,
      value?
          (Float.ofNat (m / u) + Float.ofNat (m % u) / Float.ofNat u) =
        some v ∧
      Within (unitRoundoff + unitRoundoff + unitRoundoff * unitRoundoff)
        v (m / u) := by
  have hUPos : (0 : ℚ) < u := by exact_mod_cast hSize
  have hRPos : 0 < m % u := Nat.pos_of_ne_zero hRest
  have hFraction : (0 : ℚ) < (m % u : Nat) / u :=
    div_pos (by exact_mod_cast hRPos) hUPos
  have hLess : ((m % u : Nat) : ℚ) / u ≤ 10 ^ 15 := by
    have hBelow : ((m % u : Nat) : ℚ) < u := by
      exact_mod_cast Nat.mod_lt m hSize
    rw [div_le_iff₀ hUPos]
    linarith
  have hValue : (m : ℚ) / u = (m / u : Nat) + (m % u : Nat) / u := by
    have hCast : ((m / u : Nat) : ℚ) * u + (m % u : Nat) = m := by
      exact_mod_cast Nat.div_add_mod' m u
    field_simp
    linarith
  obtain ⟨f, hF, hWithin⟩ :=
    within_fraction hU hSize hUnit hRPos ((Nat.mod_le m u).trans hFew)
  rw [hValue]
  exact within_sum ((Nat.div_le_self m u).trans hFew) hF hWithin
    hFraction hLess

/- A decimal of few digits is rounded once in the end. -/
theorem magnitude_eq_closest
    (hU : value? (Float.ofNat u) = some (u : ℚ))
    (hSize : 0 < u)
    (hUnit : u ≤ 10 ^ 22)
    (hSome : 0 < m)
    (hFew : m ≤ 10 ^ 15)
    (hRest : m % u ≠ 0) :
    Binary64.round
        ((Float.ofNat (m / u) +
            Float.ofNat (m % u) / Float.ofNat u) *
          Float.ofNat u) /
        Float.ofNat u =
      closest (m / u) := by
  obtain ⟨v, hV, hWithin⟩ :=
    within_parts hU hSize hUnit hFew hRest
  have hMPos : (0 : ℚ) < m := by exact_mod_cast hSome
  have hMOne : (1 : ℚ) ≤ m := by exact_mod_cast hSome
  have hMMost : (m : ℚ) ≤ 10 ^ 15 := by exact_mod_cast hFew
  have hUPos : (0 : ℚ) < u := by exact_mod_cast hSize
  have hVPos : 0 < v :=
    hWithin.pos (by positivity) (by norm_num [unitRoundoff])
  have hScaled := hWithin.mul_right hUPos.le
  rw [div_mul_cancel₀ _ hUPos.ne'] at hScaled
  have hNear := abs_le.mp hScaled
  obtain ⟨h, hH, hRounded⟩ :=
    within_closest (q := v * u)
      (by
        have hSmall : (1 : ℚ) / 10 ^ 30 ≤ 1 / 2 := by norm_num
        norm_num [unitRoundoff] at hNear
        linarith [hNear.1])
      (by
        have hLarge : (10 : ℚ) ^ 15 * 2 ≤ 10 ^ 40 := by norm_num
        norm_num [unitRoundoff] at hNear
        linarith [hNear.2])
  have hTotal := hRounded.trans unitRoundoff_nonneg hScaled
  have hHPos : 0 < h :=
    hTotal.pos hMPos (by norm_num [unitRoundoff])
  have hUnits : halfUpOf h = m := by
    have hClose := abs_le.mp hTotal
    norm_num [unitRoundoff] at hClose
    apply halfUpOf_eq <;> linarith [hClose.1, hClose.2]
  rw [mul_eq_closest hVPos hUPos hV hU, round_of_value hHPos hH,
    hUnits]
  exact div_eq_closest hMPos hUPos
    (value?_ofNat_small (by omega)) hU

/- A decimal of few digits and places is the nearest double. -/
theorem toFloat_eq_closest
    {d : Decimal}
    (hSome : 0 < d.mantissa)
    (hFew : d.scale = 0 ∨ d.mantissa ≤ 10 ^ 15 ∧ d.scale ≤ 22) :
    d.toFloat =
      if d.negative then -closest d.value else closest d.value := by
  have hUnit : 0 < 10 ^ d.scale := by positivity
  have hMagnitude :
      (if d.mantissa % 10 ^ d.scale == 0 then
          Float.ofNat (d.mantissa / 10 ^ d.scale)
        else
          Binary64.round
              ((Float.ofNat (d.mantissa / 10 ^ d.scale) +
                  Float.ofNat (d.mantissa % 10 ^ d.scale) /
                    Float.ofNat (10 ^ d.scale)) *
                Float.ofNat (10 ^ d.scale)) /
            Float.ofNat (10 ^ d.scale)) =
        closest d.value := by
    split_ifs with hWhole
    · rw [beq_iff_eq] at hWhole
      have hDivides := Nat.dvd_of_mod_eq_zero hWhole
      have hQuotient : 0 < d.mantissa / 10 ^ d.scale :=
        Nat.div_pos (Nat.le_of_dvd hSome hDivides) hUnit
      have hValue :
          d.value = (d.mantissa / 10 ^ d.scale : Nat) := by
        rw [value, Nat.cast_div hDivides (by positivity)]
        push_cast
        rfl
      rw [hValue]
      exact ofNat_eq_closest hQuotient
    · rw [beq_iff_eq] at hWhole
      rcases hFew with hNone | ⟨hDigits, hPlaces⟩
      · rw [hNone, pow_zero, Nat.mod_one] at hWhole
        exact absurd rfl hWhole
      · rw [magnitude_eq_closest (value?_ofNat_power hPlaces) hUnit
          (Nat.pow_le_pow_right (by decide) hPlaces) hSome hDigits
          hWhole, value]
        push_cast
        rfl
  rw [← hMagnitude]
  rfl

end Decimal

------------------------------------------------------------
-- Exact Doubles
------------------------------------------------------------

namespace Fixed

open Double Shortest

theorem roundQuotient_eq (a : Nat) {b : Nat} (hPos : 0 < b) :
    roundQuotient a b = halfEvenOf (a / b) := by
  have hUnit : (0 : ℚ) < b := by exact_mod_cast hPos
  have hLess : ((a % b : Nat) : ℚ) / b < 1 / 2 ↔ 2 * (a % b) < b := by
    rw [div_lt_div_iff₀ hUnit two_pos, one_mul, mul_comm]
    exact_mod_cast Iff.rfl
  have hSame : ((a % b : Nat) : ℚ) / b = 1 / 2 ↔ 2 * (a % b) = b := by
    rw [div_eq_div_iff hUnit.ne' two_ne_zero, one_mul, mul_comm]
    exact_mod_cast Iff.rfl
  unfold roundQuotient halfEvenOf
  rw [Int.fract_div_natCast_eq_div_natCast_mod, Nat.floor_div_eq_div,
    if_congr hLess rfl rfl, if_congr hSame rfl rfl]
  dsimp only
  generalize a / b = n
  generalize 2 * (a % b) = rest
  simp only [Bool.or_eq_true, Bool.and_eq_true, decide_eq_true_eq,
    beq_iff_eq]
  split_ifs <;> omega

/- A double in units of a power of ten. -/
theorem onGrid_eq (m : Nat) (e exponent : Int) :
    onGrid m e exponent = halfEvenOf (m * 2 ^ e / 10 ^ exponent) := by
  have hTen := tenTo_pos exponent.toNat
  have hTenth := tenTo_pos (-exponent).toNat
  have hTwo := twoTo_pos (-e).toNat
  have hUnit : 0 < twoTo (-e).toNat * tenTo exponent.toNat := by
    exact_mod_cast mul_pos hTwo hTen
  rw [onGrid, roundQuotient_eq _ hUnit, tenTo_toNat, twoTo_toNat]
  push_cast
  congr 1
  field_simp

theorem pointPosition_eq
    {m : Nat}
    {e : Int}
    (hSome : 0 < m)
    (hLeast : -1074 ≤ e) :
    pointPosition m e = Int.log 10 ((m : ℚ) * 2 ^ e) + 1 := by
  have hOne : (1 : ℚ) ≤ m := by exact_mod_cast hSome
  unfold pointPosition
  split_ifs with hWhole
  · obtain ⟨k, rfl⟩ := Int.eq_ofNat_of_zero_le hWhole
    have hUnits :
        (m : ℚ) * 2 ^ (k : Int) * 10 ^ 0 = (m * 2 ^ k : Nat) := by
      push_cast
      rw [zpow_natCast, pow_zero, mul_one]
    have hLength :=
      Decimal.length_floor (q := (m : ℚ) * 2 ^ (k : Int)) (k := 0)
        (by
          rw [hUnits]
          exact_mod_cast Nat.mul_pos hSome (by positivity))
    rw [hUnits, Nat.floor_natCast] at hLength
    rw [Int.toNat_natCast]
    exact hLength
  · obtain ⟨k, hK⟩ : ∃ k : Nat, e = -(k : Int) :=
      ⟨(-e).toNat, by omega⟩
    have hUnits (places : Nat) :
        (m : ℚ) * 2 ^ e * 10 ^ places =
          (m * 10 ^ places : Nat) / (2 ^ k : Nat) := by
      rw [hK, zpow_neg, zpow_natCast]
      push_cast
      ring
    have hCancel (places : Nat) :
        (10 : ℚ) ^ (-(places : Int)) * 10 ^ places = 1 := by
      rw [zpow_neg, zpow_natCast, inv_mul_cancel₀ (by positivity)]
    have hPower : (10 : ℚ) ^ (-(400 : Nat) : Int) ≤ 2 ^ e := by
      apply ten_zpow_le_two_zpow <;> omega
    have hScaled : (1 : ℚ) ≤ m * 2 ^ e * 10 ^ 400 := by
      rw [← hCancel 400]
      refine mul_le_mul_of_nonneg_right ?_ (by positivity)
      exact hPower.trans (le_mul_of_one_le_left (by positivity) hOne)
    have hLength := Decimal.length_floor hScaled
    rw [hUnits, Nat.floor_div_eq_div] at hLength
    have hNat : (-e).toNat = k := by omega
    rw [hNat, Decimal.tenTo_eq, twoTo, Nat.pow_eq]
    exact hLength

/- An exact double is rounded to leading digits. -/
theorem toFigures_eq_closest
    {x : Float}
    {negative : Bool}
    {m n : Nat}
    {e : Int}
    (hX : Binary64.exact x = .finite negative m e)
    (hSome : 0 < m)
    (hLeast : -1074 ≤ e)
    (hFew : n ≤ 800) :
    toFigures x n =
      if negative then
        -closest (Decimal.leading halfEvenOf n (m * 2 ^ e))
      else closest (Decimal.leading halfEvenOf n (m * 2 ^ e)) := by
  have hExponent :
      pointPosition m e - n =
        Decimal.lastPlace n ((m : ℚ) * 2 ^ e) := by
    rw [pointPosition_eq hSome hLeast, Decimal.lastPlace]
  have hNotZero : (m == 0) = false := by simpa using hSome.ne'
  unfold toFigures
  rw [hX]
  dsimp only
  rw [hNotZero, if_neg Bool.false_ne_true, Int.min_eq_left (by omega),
    hExponent, onGrid_eq, assemble,
    Numeral.ofDecimal_eq_closest (Numeral.allDigits_toDigits _),
    Numeral.value_toDigits]
  rfl

end Fixed

end Assessment
