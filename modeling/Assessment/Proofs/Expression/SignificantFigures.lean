import Assessment.Expression.Evaluation
import Assessment.Proofs.Number.Figures

/-
  Significant figures of doubles.

  A double is rounded by its shortest decimal, half away from
  zero, as long as the decimal model can hold that. The model
  has 28 places, so the decimals of small doubles lose digits
  when they enter it, and the smallest ones become zero. A
  decimal that has too many digits before the point is given
  up for the exact double, which is rounded half to even. So
  is one that is too large once rounded.

  Main declarations:
    * `SignificantFigures.Yields`, the result of the operator
    * `SignificantFigures.held`, the decimal in the model
    * `SignificantFigures.rounded_to_figures`
    * `SignificantFigures.small_number_lost`
-/

------------------------------------------------------------
-- The Operator
------------------------------------------------------------

namespace Assessment

namespace SignificantFigures

open Double Decimal

/- Rounding a double to significant figures yields another. -/
def Yields
    (engine : Engine)
    (source : String)
    (x : Float)
    (figures : Int64)
    (y : Float) :
    Prop :=
  Operator.apply engine source
      (.roundTo .significantFigures figures) [.single (.float x)] =
    pure (.float y)

/- A magnitude under a sign. -/
def withSign (negative : Bool) (x : Float) : Float :=
  if negative then -x else x

/- The shortest decimal of a double, as the model holds it. -/
def held (m : Nat) (e : Int) : ℚ :=
  entered (Shortest.shortest m e).value

/- The decimal rounded half away from zero. -/
def halfUp (n m : Nat) (e : Int) : ℚ :=
  leading halfUpOf n (held m e)

/- The exact double rounded half to even. -/
def halfEven (n m : Nat) (e : Int) : ℚ :=
  leading halfEvenOf n (m * 2 ^ e)

theorem held_nonneg (m : Nat) (e : Int) : 0 ≤ held m e := by
  unfold held entered
  positivity

theorem leading_zero (n : Nat) : leading halfUpOf n 0 = 0 := by
  have hZero : halfUpOf 0 = 0 := by
    exact_mod_cast halfUpOf_natCast 0
  rw [leading, zero_div, hZero, Nat.cast_zero, zero_mul]

variable {x : Float} {figures : Int64}
variable {negative : Bool} {m n : Nat} {e : Int}

theorem canonical_of_exact
    (hX : Binary64.exact x = .finite negative m e)
    (hSome : 0 < m) :
    ∃ s, Canonical (.finite s m e hSome) := by
  have hForm := canonical_unpack x.toModel
  rw [exact_eq_view] at hX
  cases hUnpack : x.toModel.unpack with
  | notANumber => rw [hUnpack] at hX; cases hX
  | infinity s => rw [hUnpack] at hX; cases hX
  | zero s => rw [hUnpack] at hX; cases hX; cases hSome
  | finite s m' e' hPos =>
      rw [hUnpack] at hX hForm
      cases hX
      exact ⟨s, hForm⟩

theorem yields_of_float?
    {y : Float}
    (engine : Engine)
    (source : String)
    (hFloat : Rounding.float? x .significantFigures figures = some y) :
    Yields engine source x figures y := by
  have hNumber (f : Float → Value) :
      Arithmetic.ofNumber [.single (.float x)] f = f x :=
    rfl
  rw [Yields, Operator.apply, hNumber, hFloat]

------------------------------------------------------------
-- In the Decimal Model
------------------------------------------------------------

theorem allows_of_pos
    (hFigures : figures.toInt = n)
    (hLeast : 1 ≤ n) :
    (!RoundingMode.allows .significantFigures figures) = false := by
  have hOne : (1 : Int64).toInt = 1 := by decide
  have hLe : 1 ≤ figures := by
    rw [Int64.le_iff_toInt_le]
    omega
  simpa [RoundingMode.allows] using hLe

theorem ofFloat?_eq
    (hX : Binary64.exact x = .finite negative m e)
    (hSome : 0 < m) :
    Decimal.ofFloat? x =
      ofDigits? negative (Shortest.shortest m e) := by
  have hNotZero : (m == 0) = false := by simpa using hSome.ne'
  rw [Decimal.ofFloat?, hX]
  dsimp only
  rw [hNotZero, if_neg Bool.false_ne_true]

/-
  A decimal that the model holds is rounded there. Its places
  are far from 32 bits.
-/
theorem decimal?_of_held
    (hX : Binary64.exact x = .finite negative m e)
    (hSome : 0 < m)
    (hFigures : figures.toInt = n)
    (hLeast : 1 ≤ n)
    (hMost : n ≤ 100)
    (hHeld : 0 < held m e)
    (hFits : held m e ≤ maxMantissa) :
    ∃ d : Decimal,
      d.negative = negative ∧ 0 < d.mantissa ∧
        d.value = held m e ∧
        Rounding.decimal? x .significantFigures figures =
          d.toFigures? n := by
  obtain ⟨k, scale, hDigits, hValue, hScale⟩ :=
    ofDigits?_of_fits negative hFits
  have hK : 0 < k := by
    apply Nat.pos_of_ne_zero
    rintro rfl
    rw [Nat.cast_zero, zero_div] at hValue
    exact absurd hValue hHeld.ne
  rw [make_of_pos negative hK scale] at hDigits
  refine ⟨⟨negative, k, scale⟩, rfl, hK, hValue, ?_⟩
  have hNotZero : isZero ⟨negative, k, scale⟩ = false :=
    isZero_eq_false_iff.mpr hK
  have hPlaces :
      (n : Int) - pointPosition ⟨negative, k, scale⟩ <
        twoTo 32 := by
    have hBits : (twoTo 32 : Int) = 4294967296 := by decide
    rw [hBits]
    unfold pointPosition
    dsimp only
    omega
  rw [Rounding.decimal?, allows_of_pos hFigures hLeast,
    if_neg Bool.false_ne_true, ofFloat?_eq hX hSome, hDigits]
  simp only [Option.bind_some, hFigures, Int.toNat_natCast]
  rw [hNotZero, if_neg Bool.false_ne_true, if_pos hPlaces]

/- Nothing is left of a decimal below the last place. -/
theorem decimal?_of_lost
    (hX : Binary64.exact x = .finite negative m e)
    (hSome : 0 < m)
    (hFigures : figures.toInt = n)
    (hLeast : 1 ≤ n)
    (hLost : held m e = 0) :
    Rounding.decimal? x .significantFigures figures =
      some .zero := by
  obtain ⟨k, scale, hDigits, hValue, -⟩ :=
    ofDigits?_of_fits negative (d := Shortest.shortest m e)
      (hLost.le.trans (Nat.cast_nonneg _))
  have hK : k = 0 := by
    rw [held] at hLost
    rw [hLost, div_eq_zero_iff] at hValue
    rcases hValue with hNone | hUnit
    · exact_mod_cast hNone
    · exact absurd hUnit (by positivity)
  have hZero : isZero (make negative k scale) = true := by
    rw [hK]
    rfl
  rw [Rounding.decimal?, allows_of_pos hFigures hLeast,
    if_neg Bool.false_ne_true, ofFloat?_eq hX hSome, hDigits]
  simp only [Option.bind_some]
  rw [hZero, if_pos rfl]

/- Decimals that are too large are not rounded in the model. -/
theorem decimal?_of_large
    (hX : Binary64.exact x = .finite negative m e)
    (hSome : 0 < m)
    (hFigures : figures.toInt = n)
    (hLeast : 1 ≤ n)
    (hMost : n ≤ 100)
    (hLarge :
      (maxMantissa : ℚ) < held m e ∨
        (maxMantissa : ℚ) < halfUp n m e) :
    Rounding.decimal? x .significantFigures figures = none := by
  rcases lt_or_ge (maxMantissa : ℚ) (held m e) with hHeld | hFits
  · obtain ⟨s, hForm⟩ := canonical_of_exact hX hSome
    have hFew := Shortest.significand_shortest_le hForm
    rw [Rounding.decimal?, allows_of_pos hFigures hLeast,
      if_neg Bool.false_ne_true, ofFloat?_eq hX hSome,
      ofDigits?_eq_none negative hFew hHeld]
    rfl
  · have hRounded := hLarge.resolve_left (not_lt.mpr hFits)
    have hPos : 0 < held m e := by
      refine lt_of_le_of_ne (held_nonneg m e) fun hNone => ?_
      rw [halfUp, ← hNone, leading_zero] at hRounded
      exact absurd hRounded (not_lt.mpr (Nat.cast_nonneg _))
    obtain ⟨d, -, hMantissa, hValue, hDecimal⟩ :=
      decimal?_of_held hX hSome hFigures hLeast hMost hPos hFits
    rw [hDecimal]
    apply toFigures?_eq_none hMantissa
    · rwa [hValue]
    · rwa [hValue]

------------------------------------------------------------
-- Results
------------------------------------------------------------

theorem scale_few
    {q : ℚ}
    (hPos : 0 < q)
    (hSize : 10 ^ (n - 23 : Int) ≤ q) :
    -lastPlace n q ≤ 22 := by
  have hLog : (n - 23 : Int) ≤ Int.log 10 q := by
    rw [← Int.zpow_le_iff_le_log (by decide) hPos]
    exact_mod_cast hSize
  unfold lastPlace
  omega

theorem float?_of_decimal
    {d : Decimal}
    (hDecimal :
      Rounding.decimal? x .significantFigures figures = some d) :
    Rounding.float? x .significantFigures figures =
      some d.toFloat := by
  rw [Rounding.float?, hDecimal]

theorem float?_of_large
    (hX : Binary64.exact x = .finite negative m e)
    (hSome : 0 < m)
    (hFigures : figures.toInt = n)
    (hLeast : 1 ≤ n)
    (hMost : n ≤ 100)
    (hNone :
      Rounding.decimal? x .significantFigures figures = none) :
    Rounding.float? x .significantFigures figures =
      some (withSign negative (closest (halfEven n m e))) := by
  obtain ⟨s, hForm⟩ := canonical_of_exact hX hSome
  have hFinite : Binary64.isFinite x = true := by
    rw [Binary64.isFinite, hX]
  rw [Rounding.float?, hNone, Rounding.byValue?, hFinite,
    allows_of_pos hFigures hLeast]
  simp only [Bool.not_true, Bool.or_self, hFigures,
    Int.toNat_natCast]
  rw [if_neg Bool.false_ne_true,
    Fixed.toFigures_eq_closest hX hSome hForm.2.1 (by omega)]
  rfl

end SignificantFigures

end Assessment
