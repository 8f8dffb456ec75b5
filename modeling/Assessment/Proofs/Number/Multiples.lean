import Assessment.Proofs.Number.Figures

/-
  Decimals rounded to multiples of a unit.

  A rounded decimal is a multiple of the power of ten that its
  last place has. No other multiple is nearer to the decimal
  before, and from the middle it is the one further from zero.
  Only one number is like this. So rounding has no result only
  if no decimal of limited size is that number.

  Main declarations:
    * `NearestMultiple` and `NearestMultiple.unique`
    * `nearestMultiple_halfUpOf`
    * `Decimal.Fits`, `Decimal.signed` and `Representable`
    * `Decimal.RoundsTo`, what may come out of rounding
    * `Decimal.rounds_toPlaces` and `rounds_toFigures?`
-/

------------------------------------------------------------
-- Nearest Multiples
------------------------------------------------------------

namespace Assessment

/- A magnitude under a sign. -/
def withSign (negative : Bool) (q : ℚ) : ℚ :=
  if negative then -q else q

theorem abs_withSign (negative : Bool) (q : ℚ) :
    |withSign negative q| = |q| := by
  cases negative
  · rfl
  · exact abs_neg q

/-
  A multiple of a unit that no other multiple is nearer to a
  number than. From the middle it is the one further from
  zero.
-/
structure NearestMultiple (unit q r : ℚ) : Prop where
  multiple : ∃ n : ℤ, r = n * unit
  nearest : ∀ n : ℤ, |q - r| ≤ |q - n * unit|
  away : ∀ n : ℤ, |q - n * unit| = |q - r| → |n * unit| ≤ |r|

namespace NearestMultiple

variable {unit q r s : ℚ}

theorem neg (hNearest : NearestMultiple unit q r) :
    NearestMultiple unit (-q) (-r) := by
  have hDistance (n : ℤ) :
      |-q - n * unit| = |q - (-n : ℤ) * unit| := by
    rw [← abs_neg]
    push_cast
    congr 1
    ring
  have hOwn : |-q - -r| = |q - r| := by
    rw [← abs_neg]
    congr 1
    ring
  refine ⟨?_, ?_, ?_⟩
  · obtain ⟨n, hMultiple⟩ := hNearest.multiple
    exact ⟨-n, by rw [hMultiple]; push_cast; ring⟩
  · intro n
    rw [hDistance, hOwn]
    exact hNearest.nearest (-n)
  · intro n hSame
    rw [hDistance, hOwn] at hSame
    have hAway := hNearest.away (-n) hSame
    rw [abs_neg]
    rwa [Int.cast_neg, neg_mul, abs_neg] at hAway

/- A sign does not matter. -/
theorem withSign
    (hNearest : NearestMultiple unit q r)
    (negative : Bool) :
    NearestMultiple unit (Assessment.withSign negative q)
      (Assessment.withSign negative r) := by
  cases negative
  · exact hNearest
  · exact hNearest.neg

/- Units may be measured in other ones. -/
theorem scale
    {c : ℚ}
    (hPos : 0 < c)
    (hNearest : NearestMultiple unit q r) :
    NearestMultiple (unit * c) (q * c) (r * c) := by
  have hDistance (n : ℤ) :
      |q * c - n * (unit * c)| = |q - n * unit| * c := by
    rw [← mul_assoc, ← sub_mul, abs_mul, abs_of_pos hPos]
  have hOwn : |q * c - r * c| = |q - r| * c := by
    rw [← sub_mul, abs_mul, abs_of_pos hPos]
  refine ⟨?_, ?_, ?_⟩
  · obtain ⟨n, hMultiple⟩ := hNearest.multiple
    exact ⟨n, by rw [hMultiple, mul_assoc]⟩
  · intro n
    rw [hDistance, hOwn]
    exact mul_le_mul_of_nonneg_right (hNearest.nearest n) hPos.le
  · intro n hSame
    rw [hDistance, hOwn, mul_left_inj' hPos.ne'] at hSame
    rw [← mul_assoc, abs_mul, abs_mul r]
    exact mul_le_mul_of_nonneg_right (hNearest.away n hSame)
      (abs_nonneg c)

/- There is only one. -/
theorem unique
    (hR : NearestMultiple unit q r)
    (hS : NearestMultiple unit q s) :
    r = s := by
  obtain ⟨m, hM⟩ := hR.multiple
  obtain ⟨n, hN⟩ := hS.multiple
  have hDistance : |q - r| = |q - s| := by
    apply le_antisymm
    · rw [hN]
      exact hR.nearest n
    · rw [hM]
      exact hS.nearest m
  have hSize : |r| = |s| := by
    apply le_antisymm
    · rw [hM] at hDistance ⊢
      exact hS.away m hDistance
    · rw [hN] at hDistance ⊢
      exact hR.away n hDistance.symm
  rcases abs_eq_abs.mp hSize with hSame | hOther
  · exact hSame
  -- Opposite numbers are as near only to zero, and are zero.
  rcases abs_eq_abs.mp hDistance with hSame | hMiddle
  · linarith
  · have hZero : q = 0 := by linarith
    have hNone := hS.nearest 0
    rw [hZero, Int.cast_zero, zero_mul, sub_zero, abs_zero,
      zero_sub, abs_neg, abs_nonpos_iff] at hNone
    rw [hOther, hNone, neg_zero]

end NearestMultiple

namespace Decimal

/- A number is rounded in units. -/
theorem nearestMultiple_halfUpOf
    {unit q : ℚ}
    (hUnit : 0 < unit)
    (hPos : 0 ≤ q) :
    NearestMultiple unit q (halfUpOf (q / unit) * unit) := by
  obtain ⟨x, rfl⟩ : ∃ x, q = x * unit :=
    ⟨q / unit, (div_mul_cancel₀ q hUnit.ne').symm⟩
  have hX : 0 ≤ x := nonneg_of_mul_nonneg_left hPos hUnit
  rw [mul_div_cancel_right₀ x hUnit.ne']
  have hRound : ((halfUpOf x : ℤ) : ℚ) = round x := by
    rw [halfUpOf, Int.natCast_floor_eq_floor (by positivity),
      round_eq]
  rw [Int.cast_natCast] at hRound
  have hDistance (y : ℚ) :
      |x * unit - y * unit| = |x - y| * unit := by
    rw [← sub_mul, abs_mul, abs_of_pos hUnit]
  refine ⟨⟨round x, by rw [hRound]⟩, ?_, ?_⟩
  · intro n
    rw [hDistance, hDistance, hRound]
    exact mul_le_mul_of_nonneg_right (round_le x n) hUnit.le
  · intro n hSame
    rw [hDistance, hDistance, mul_left_inj' hUnit.ne'] at hSame
    have hNear := abs_le.mp (halfUpOf_near hX)
    have hBelow : x < halfUpOf x + 1 / 2 := by
      have hLess := Nat.lt_floor_add_one (x + 1 / 2)
      unfold halfUpOf
      linarith
    rw [abs_mul, abs_mul, Nat.abs_cast]
    refine mul_le_mul_of_nonneg_right ?_ (abs_nonneg unit)
    generalize halfUpOf x = m at *
    rcases abs_eq_abs.mp hSame with hEqual | hOpposite
    · have hN : (n : ℚ) = m := by linarith
      rw [hN, Nat.abs_cast]
    · -- In the middle there is just the one before.
      have hLow : ((m : ℤ) : ℚ) - 1 ≤ n := by
        push_cast
        linarith
      have hSum : (0 : ℚ) ≤ n + (m : ℤ) := by
        push_cast
        linarith
      have hHigh : (n : ℚ) < (m : ℤ) + 1 := by
        push_cast
        linarith
      have hLowInt : (m : ℤ) - 1 ≤ n := by exact_mod_cast hLow
      have hSumInt : 0 ≤ n + (m : ℤ) := by exact_mod_cast hSum
      have hHighInt : n < (m : ℤ) + 1 := by exact_mod_cast hHigh
      have hInt : |n| ≤ m := by
        rw [abs_le]
        omega
      exact_mod_cast hInt

------------------------------------------------------------
-- Decimals That Fit
------------------------------------------------------------

/- A decimal of limited size. -/
structure Fits (d : Decimal) : Prop where
  mantissa : d.mantissa ≤ maxMantissa
  scale : d.scale ≤ maxScale

/- The number of a decimal. -/
def signed (d : Decimal) : ℚ :=
  withSign d.negative d.value

/- A number of a decimal of limited size. -/
def Representable (q : ℚ) : Prop :=
  ∃ d : Decimal, d.Fits ∧ d.signed = q

variable {d : Decimal} {unit q r : ℚ}

theorem value_nonneg (d : Decimal) : 0 ≤ d.value := by
  unfold value
  positivity

theorem abs_signed (d : Decimal) : |d.signed| = d.value := by
  rw [signed, abs_withSign, abs_of_nonneg d.value_nonneg]

/- Zero is the same number under each sign. -/
theorem signed_make (negative : Bool) (m scale : Nat) :
    (make negative m scale).signed =
      withSign negative (m / 10 ^ scale) := by
  cases negative
  · rfl
  · cases m with
    | zero => simp [make, signed, withSign, value]
    | succ m => rfl

theorem Fits.value_le (hFits : d.Fits) :
    d.value ≤ maxMantissa := by
  have hMost : (d.mantissa : ℚ) ≤ maxMantissa := by
    exact_mod_cast hFits.mantissa
  have hOne : (1 : ℚ) ≤ 10 ^ d.scale := one_le_pow₀ (by norm_num)
  exact (div_le_self (by positivity) hOne).trans hMost

theorem Representable.abs_le (hHeld : Representable q) :
    |q| ≤ maxMantissa := by
  obtain ⟨d, hFits, rfl⟩ := hHeld
  rw [abs_signed]
  exact hFits.value_le

/- A whole number fits up to the greatest mantissa. -/
theorem representable_intCast
    {n : ℤ}
    (hFew : n.natAbs ≤ maxMantissa) :
    Representable n := by
  refine ⟨⟨decide (n < 0), n.natAbs, 0⟩, ⟨hFew, Nat.zero_le _⟩, ?_⟩
  rw [signed, value, pow_zero, div_one, withSign, Nat.cast_natAbs]
  split_ifs with hSign
  · rw [abs_of_neg (of_decide_eq_true hSign), Int.cast_neg, neg_neg]
  · rw [decide_eq_true_eq, not_lt] at hSign
    rw [abs_of_nonneg hSign]

------------------------------------------------------------
-- Rounded Decimals
------------------------------------------------------------

/-
  What may come out of rounding: a decimal that fits with the
  nearest multiple. Nothing comes out only if that multiple is
  not the number of any decimal that fits.
-/
def RoundsTo (unit : ℚ) (d : Decimal) : Option Decimal → Prop
  | some r => r.Fits ∧ NearestMultiple unit d.signed r.signed
  | none => ∀ q, NearestMultiple unit d.signed q → ¬Representable q

/- A rounded number that is too large does not come out. -/
theorem rounds_none
    (hNearest : NearestMultiple unit d.signed q)
    (hLarge : (maxMantissa : ℚ) < |q|) :
    RoundsTo unit d none := by
  intro r hOther hHeld
  rw [hOther.unique hNearest] at hHeld
  exact absurd hHeld.abs_le (not_le.mpr hLarge)

/- A decimal has nothing to round after its places. -/
theorem halfUpOf_places
    {k : Nat}
    (hFew : d.scale ≤ k) :
    (halfUpOf (d.value * 10 ^ k) / 10 ^ k : ℚ) = d.value := by
  obtain ⟨j, rfl⟩ := Nat.exists_eq_add_of_le hFew
  have hUnits :
      d.value * 10 ^ (d.scale + j) = (d.mantissa * 10 ^ j : Nat) := by
    rw [value, pow_add]
    push_cast
    field_simp
  rw [hUnits, halfUpOf_natCast, ← hUnits,
    mul_div_cancel_right₀ _ (by positivity)]

theorem signed_toPlaces (d : Decimal) (k : Nat) :
    (d.toPlaces k).signed =
      withSign d.negative (halfUpOf (d.value * 10 ^ k) / 10 ^ k) := by
  unfold toPlaces
  split_ifs with hFew
  · rw [halfUpOf_places hFew, signed]
  · have hUnits :
        d.value * 10 ^ k = d.mantissa / 10 ^ (d.scale - k) := by
      have hSplit : d.scale = d.scale - k + k := by omega
      rw [value]
      conv_lhs => rw [hSplit]
      rw [pow_add]
      field_simp
    rw [signed_make, dropDigits_eq, hUnits]

/- To give up places makes a decimal smaller. -/
theorem Fits.toPlaces (hFits : d.Fits) (k : Nat) :
    (d.toPlaces k).Fits := by
  unfold Decimal.toPlaces
  split_ifs with hFew
  · exact hFits
  · have hLess : dropDigits d.mantissa (d.scale - k) ≤ d.mantissa := by
      rw [dropDigits_eq]
      exact halfUpOf_le (by positivity)
        (div_le_self (by positivity) (one_le_pow₀ (by norm_num)))
    exact ⟨hLess.trans hFits.mantissa,
      (not_le.mp hFew).le.trans hFits.scale⟩

/- Rounding to places is rounding to a multiple. -/
theorem rounds_toPlaces (hFits : d.Fits) (k : Nat) :
    RoundsTo (10 ^ (-(k : ℤ))) d (some (d.toPlaces k)) := by
  have hUnit : (0 : ℚ) < 10 ^ (-(k : ℤ)) := by positivity
  have hNearest := nearestMultiple_halfUpOf hUnit d.value_nonneg
  rw [zpow_neg, zpow_natCast, div_inv_eq_mul, ← div_eq_mul_inv]
    at hNearest
  refine ⟨hFits.toPlaces k, ?_⟩
  rw [signed_toPlaces, zpow_neg, zpow_natCast]
  exact hNearest.withSign d.negative

/- Rounding to leading digits is rounding to a multiple. -/
theorem rounds_toFigures?
    (hFits : d.Fits)
    (hSome : 0 < d.mantissa)
    (n : Nat) :
    RoundsTo (10 ^ lastPlace n d.value) d (d.toFigures? n) := by
  rw [toFigures?_eq hSome]
  split_ifs with hDown
  · have hPlaces := rounds_toPlaces hFits
      (-lastPlace n d.value).toNat
    rwa [Int.toNat_of_nonneg (by omega), neg_neg] at hPlaces
  · obtain ⟨k, hK⟩ : ∃ k : Nat, lastPlace n d.value = k :=
      ⟨(lastPlace n d.value).toNat, by omega⟩
    have hUnit : (0 : ℚ) < 10 ^ k := by positivity
    have hNearest := (nearestMultiple_halfUpOf hUnit
      d.value_nonneg).withSign d.negative
    rw [hK, zpow_natCast, Int.toNat_natCast]
    generalize halfUpOf (d.value / 10 ^ k) = m at *
    have hCast : (m * 10 ^ k : ℚ) = (m * 10 ^ k : Nat) := by
      push_cast
      rfl
    rw [hCast] at hNearest
    dsimp only
    split_ifs with hHeld
    · refine ⟨⟨hHeld, Nat.zero_le _⟩, ?_⟩
      rw [signed_make, pow_zero, div_one]
      exact hNearest
    · refine rounds_none hNearest ?_
      rw [abs_withSign, Nat.abs_cast]
      exact_mod_cast not_le.mp hHeld

end Decimal

end Assessment
