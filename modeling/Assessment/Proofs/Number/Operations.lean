import Assessment.Proofs.Number.Closest

/-
  Double arithmetic rounds to the nearest double.

  A product, a quotient and a sum of positive doubles are
  what the exact result is rounded to, whatever its size.
  A decimal number is read with one product or one quotient,
  so it is read as the nearest double, too.

  Main declarations:
    * `Double.Describes`, what a shifted mantissa stands for
    * `Double.roundWithAccuracy_eq_rounding`
    * `Double.mul_eq_closest`, `div_eq_closest` and
      `add_eq_closest`
    * `Double.ofScientific_eq_closest`
-/

namespace Assessment

namespace Double

open Float (Model)
open Float.Model (UnpackedFloat Format totalExponent)
open Float.Model.UnpackedFloat

------------------------------------------------------------
-- Shifted Mantissas
------------------------------------------------------------

/-
  A mantissa with two more bits describes a rational: by its
  whole part, whether the rest is at least a half, and
  whether it is neither nothing nor a half.
-/
structure Describes (em : ExtendedMantissa) (q : ℚ) : Prop where
  mantissa : em.mantissa = ⌊q⌋₊
  half : em.roundBit = true ↔ 1 / 2 ≤ Int.fract q
  between :
    em.stickyBit = true ↔ Int.fract q ≠ 0 ∧ Int.fract q ≠ 1 / 2

theorem describes_exact (m : Nat) :
    Describes ⟨m, false, false⟩ (m : ℚ) where
  mantissa := by simp
  half := by simp
  between := by simp

/- A half of a whole number has a fraction if it is odd. -/
theorem fract_half {q : ℚ} (hPos : 0 ≤ q) :
    Int.fract (q / 2) = ((⌊q⌋₊ % 2 : Nat) + Int.fract q) / 2 := by
  have hSplit := floor_add_fract hPos
  have hLow := Int.fract_nonneg q
  have hHigh := Int.fract_lt_one q
  have hParts :
      ((⌊q⌋₊ / 2 : Nat) : ℚ) * 2 + (⌊q⌋₊ % 2 : Nat) = ⌊q⌋₊ := by
    exact_mod_cast Nat.div_add_mod' ⌊q⌋₊ 2
  have hBit : ((⌊q⌋₊ % 2 : Nat) : ℚ) ≤ 1 := by
    exact_mod_cast Nat.le_of_lt_succ (Nat.mod_lt _ (by decide))
  rw [Int.fract_eq_iff]
  refine ⟨by positivity, by linarith, (⌊q⌋₊ / 2 : Nat), ?_⟩
  rw [Int.cast_natCast]
  linarith

/- A half is reached if the number is odd. -/
theorem half_le_fract_half {q : ℚ} (hPos : 0 ≤ q) :
    1 / 2 ≤ Int.fract (q / 2) ↔ ⌊q⌋₊ % 2 ≠ 0 := by
  have hLow := Int.fract_nonneg q
  have hHigh := Int.fract_lt_one q
  rw [fract_half hPos]
  rcases Nat.mod_two_eq_zero_or_one ⌊q⌋₊ with hZero | hOne
  · rw [hZero]
    push_cast
    constructor
    · intro hLarge
      linarith
    · intro hNot
      exact absurd rfl hNot
  · rw [hOne]
    push_cast
    constructor
    · intro _
      decide
    · intro _
      linarith

/- Half a number lies between if the number has a fraction. -/
theorem fract_half_between {q : ℚ} (hPos : 0 ≤ q) :
    (Int.fract (q / 2) ≠ 0 ∧ Int.fract (q / 2) ≠ 1 / 2) ↔
      Int.fract q ≠ 0 := by
  have hLow := Int.fract_nonneg q
  have hHigh := Int.fract_lt_one q
  rw [fract_half hPos]
  generalize Int.fract q = f at *
  rcases Nat.mod_two_eq_zero_or_one ⌊q⌋₊ with hZero | hOne
  · rw [hZero]
    push_cast
    constructor
    · rintro ⟨hSome, -⟩ rfl
      simp at hSome
    · intro hSome
      constructor
      · simpa using hSome
      · exact ne_of_lt (by linarith)
  · rw [hOne]
    push_cast
    constructor
    · rintro ⟨-, hOther⟩ rfl
      simp at hOther
    · intro hSome
      refine ⟨ne_of_gt (by linarith), fun hMiddle => hSome ?_⟩
      linarith

theorem Describes.shiftRightOne
    {em : ExtendedMantissa}
    {q : ℚ}
    (hPos : 0 ≤ q)
    (hDescribes : Describes em q) :
    Describes em.shiftRightOne (q / 2) := by
  obtain ⟨hMantissa, hHalf, hBetween⟩ := hDescribes
  constructor
  · change em.mantissa / 2 = _
    rw [hMantissa]
    exact (Nat.floor_div_ofNat q 2).symm
  · change (em.mantissa % 2 != 0) = true ↔ _
    rw [hMantissa, half_le_fract_half hPos, bne_iff_ne]
  · change (em.roundBit || em.stickyBit) = true ↔ _
    rw [Bool.or_eq_true, hHalf, hBetween, fract_half_between hPos]
    -- A bit that was set before means that there is a rest.
    constructor
    · rintro (hLarge | ⟨hSome, -⟩)
      · exact ne_of_gt (by linarith)
      · exact hSome
    · intro hSome
      rcases eq_or_ne (Int.fract q) (1 / 2) with hMiddle | hOther
      · exact Or.inl hMiddle.ge
      · exact Or.inr ⟨hSome, hOther⟩

theorem Describes.shiftRight
    {em : ExtendedMantissa}
    {q : ℚ}
    (hPos : 0 ≤ q)
    (hDescribes : Describes em q)
    (k : Nat) :
    Describes (em >>> k) (q / 2 ^ k) := by
  change Describes (Nat.repeat ExtendedMantissa.shiftRightOne k em) _
  induction k with
  | zero =>
      rw [pow_zero, div_one]
      exact hDescribes
  | succ k ih =>
      rw [pow_succ, ← div_div]
      exact ih.shiftRightOne (by positivity)

/- The two bits suffice to round. -/
theorem Describes.roundedMantissa
    {em : ExtendedMantissa}
    {q : ℚ}
    (hDescribes : Describes em q) :
    em.roundedMantissa = halfEvenOf q := by
  obtain ⟨hMantissa, hHalf, hBetween⟩ := hDescribes
  rcases em with ⟨n, round, sticky⟩
  dsimp only at hMantissa hHalf hBetween
  subst hMantissa
  unfold halfEvenOf
  cases round <;> cases sticky <;>
    simp only [Bool.false_eq_true, false_iff, true_iff, not_le,
      not_and_or, not_not] at hHalf hBetween
  · rw [if_pos hHalf]
    rfl
  · rw [if_pos hHalf]
    rfl
  · have hMiddle := hBetween.resolve_left (by
      intro hNone
      rw [hNone] at hHalf
      norm_num at hHalf)
    rw [if_neg (not_lt.mpr hHalf), if_pos hMiddle]
    rfl
  · rw [if_neg (not_lt.mpr hHalf), if_neg hBetween.2]
    rfl

/- A quotient of natural numbers and its rest. -/
theorem describes_quotient
    (a : Nat)
    {b : Nat}
    (hPos : 0 < b) :
    Describes
      (ExtendedMantissa.ofMantissaAndAccuracy (a / b)
        (accuracyOfFraction (a % b) b))
      (a / b : ℚ) := by
  have hB : (0 : ℚ) < b := by exact_mod_cast hPos
  have hFloor : ⌊(a / b : ℚ)⌋₊ = a / b := Nat.floor_div_eq_div a b
  have hFract : Int.fract (a / b : ℚ) = (a % b : Nat) / b :=
    Int.fract_div_natCast_eq_div_natCast_mod
  have hHalf :
      1 / 2 ≤ Int.fract (a / b : ℚ) ↔ b ≤ 2 * (a % b) := by
    rw [hFract, le_div_iff₀ hB, div_mul_eq_mul_div,
      div_le_iff₀ two_pos, one_mul, mul_comm]
    norm_cast
  have hZero : Int.fract (a / b : ℚ) = 0 ↔ a % b = 0 := by
    rw [hFract, div_eq_zero_iff]
    simp [hPos.ne']
  have hMiddle :
      Int.fract (a / b : ℚ) = 1 / 2 ↔ 2 * (a % b) = b := by
    rw [hFract, div_eq_div_iff hB.ne' two_ne_zero, one_mul, mul_comm]
    norm_cast
  have hBetween :
      Int.fract (a / b : ℚ) ≠ 0 ∧ Int.fract (a / b : ℚ) ≠ 1 / 2 ↔
        a % b ≠ 0 ∧ 2 * (a % b) ≠ b := by
    rw [Ne, Ne, hZero, hMiddle]
  have hNo : ¬false = true := Bool.false_ne_true
  unfold accuracyOfFraction
  split_ifs with hNone
  · exact ⟨hFloor.symm,
      iff_of_false hNo (by rw [hHalf]; omega),
      iff_of_false hNo (by rw [hBetween]; omega)⟩
  · rcases hOrder : compare (2 * (a % b)) b with _ | _ | _
    · rw [Nat.compare_eq_lt] at hOrder
      exact ⟨hFloor.symm,
        iff_of_false hNo (by rw [hHalf]; omega),
        iff_of_true rfl (by rw [hBetween]; omega)⟩
    · rw [Nat.compare_eq_eq] at hOrder
      exact ⟨hFloor.symm,
        iff_of_true rfl (by rw [hHalf]; omega),
        iff_of_false hNo (by rw [hBetween]; omega)⟩
    · rw [Nat.compare_eq_gt] at hOrder
      exact ⟨hFloor.symm,
        iff_of_true rfl (by rw [hHalf]; omega),
        iff_of_true rfl (by rw [hBetween]; omega)⟩

------------------------------------------------------------
-- Roundings of the Arithmetic
------------------------------------------------------------

variable {q : ℚ}

theorem targetExponent_eq (m : Nat) (e : Int) :
    Format.targetExponent .binary64 (totalExponent m e) =
      max (m.log2 + e - 52) (-1074) := by
  have hBits : (Format.mantissaBits .binary64 : Int) = 53 := rfl
  have hLeast : Format.minExponent .binary64 = -1074 := rfl
  rw [Format.targetExponent, totalExponent, hBits, hLeast]
  congr 1
  omega

/- The logarithm is found from a number of units. -/
theorem log_eq
    {m : Nat}
    {e : Int}
    (hSome : 0 < m)
    (hLow : m * 2 ^ e ≤ q)
    (hHigh : q < (m + 1) * 2 ^ e) :
    Int.log 2 q = m.log2 + e := by
  have hPos : 0 < q := by
    have hFirst : (0 : ℚ) < m * 2 ^ e := by positivity
    exact hFirst.trans_le hLow
  have hAbove : (m : ℚ) + 1 ≤ 2 ^ (m.log2 + 1) := by
    exact_mod_cast Nat.lt_log2_self (n := m)
  apply le_antisymm
  · apply Int.le_of_lt_add_one
    rw [← Int.lt_zpow_iff_log_lt one_lt_two hPos]
    calc
      q < (m + 1) * 2 ^ e := hHigh
      _ ≤ 2 ^ (m.log2 + 1) * 2 ^ e := by gcongr
      _ = (2 : Nat) ^ ((m.log2 : Int) + e + 1) := by
        rw [add_right_comm]
        push_cast
        rw [zpow_add₀ two_ne_zero]
        norm_cast
  · rw [← Int.zpow_le_iff_le_log one_lt_two hPos]
    refine le_trans ?_ hLow
    rw [add_comm]
    exact_mod_cast (magnitude_bounds e hSome).1

theorem exponentOf_dyadic
    {m : Nat}
    (e : Int)
    (hSome : 0 < m) :
    exponentOf (m * 2 ^ e) = max (m.log2 + e - 52) (-1074) := by
  rw [exponentOf, log_eq hSome le_rfl]
  have hUnit : (0 : ℚ) < 2 ^ e := by positivity
  linarith

/-
  The exponent of a rational is found from the whole number
  of finer units that it has.
-/
theorem exponentOf_eq_target
    {e : Int}
    (hPos : 0 < q)
    (hFine : e ≤ exponentOf q) :
    max ((⌊q / 2 ^ e⌋₊.log2 : Int) + e - 52) (-1074) =
      exponentOf q := by
  have hUnit : (0 : ℚ) < 2 ^ e := by positivity
  have hHigh := Nat.lt_floor_add_one (q / 2 ^ e)
  rw [div_lt_iff₀ hUnit] at hHigh
  rcases Nat.eq_zero_or_pos ⌊q / 2 ^ e⌋₊ with hZero | hSome
  · -- Less than one unit is less than the least exponent.
    rw [hZero, Nat.cast_zero, zero_add, one_mul] at hHigh
    have hLog : Int.log 2 q < e := by
      rw [← Int.lt_zpow_iff_log_lt one_lt_two hPos]
      exact_mod_cast hHigh
    have hNone : (Nat.log2 0 : Int) = 0 := rfl
    rw [hZero]
    unfold exponentOf at hFine ⊢
    omega
  · have hLow := Nat.floor_le (a := q / 2 ^ e) (by positivity)
    rw [le_div_iff₀ hUnit] at hLow
    rw [exponentOf, log_eq hSome hLow hHigh]

/- A mantissa that is carried over is shifted once more. -/
theorem shift_rounded
    {r : Nat}
    {e : Int}
    (hMost : r ≤ 2 ^ 53)
    (hLeast : -1074 ≤ e)
    (hNormal : e = -1074 ∨ 2 ^ 52 ≤ r) :
    shiftToTargetExponent .binary64 r e .exact =
      if r < 2 ^ 53 then (⟨r, false, false⟩, e)
      else (⟨2 ^ 52, false, false⟩, e + 1) := by
  unfold shiftToTargetExponent shiftToExponent
  rw [targetExponent_eq]
  split_ifs with hShort
  · have hLog : r.log2 ≤ 52 := log2_le_of_lt hShort
    have hTarget : max ((r.log2 : Int) + e - 52) (-1074) = e := by
      rcases hNormal with rfl | hBits
      · omega
      · have hEnd : r.log2 = 52 := by
          rw [Nat.log2_eq_iff (by omega)]
          exact ⟨hBits, hShort⟩
        omega
    rw [hTarget]
    dsimp only
    rw [sub_self, Int.toNat_zero, Nat.cast_zero, add_zero]
    rfl
  · have hCarry : r = 2 ^ 53 := by omega
    have hLog : (Nat.log2 (2 ^ 53) : Int) = 53 := by
      rw [Nat.log2_two_pow]
      rfl
    have hTarget :
        max ((Nat.log2 (2 ^ 53) : Int) + e - 52) (-1074) =
          e + 1 := by
      omega
    have hOne : (e + 1 - e).toNat = 1 := by omega
    rw [hCarry, hTarget]
    dsimp only
    rw [hOne]
    rfl

/-
  Arithmetic rounds to the nearest double whatever its exact
  result is, if its mantissa is fine enough.
-/
theorem roundWithAccuracy_eq_rounding
    {m : Nat}
    {e : Int}
    {acc : Accuracy}
    (s : Sign)
    (hPos : 0 < q)
    (hFine : e ≤ exponentOf q)
    (hDescribes :
      Describes (.ofMantissaAndAccuracy m acc) (q / 2 ^ e)) :
    roundWithAccuracy .binary64 s m e acc = rounding s q := by
  have hMantissa : m = ⌊q / 2 ^ e⌋₊ := by
    rw [← hDescribes.mantissa]
    rcases acc with _ | _ | _ | _ <;> rfl
  have hTarget := exponentOf_eq_target hPos hFine
  rw [← hMantissa] at hTarget
  have hFirst :
      (shiftToTargetExponent .binary64 m e acc).1.roundedMantissa =
        unitsOf q ∧
      (shiftToTargetExponent .binary64 m e acc).2 =
        exponentOf q := by
    unfold shiftToTargetExponent shiftToExponent
    rw [targetExponent_eq, hTarget]
    have hShift : e + (exponentOf q - e).toNat = exponentOf q := by
      omega
    refine ⟨?_, hShift⟩
    have hShifted :=
      (hDescribes.shiftRight (by positivity)
        (exponentOf q - e).toNat).roundedMantissa
    rw [div_div, ← zpow_natCast, ← zpow_add₀ two_ne_zero,
      hShift] at hShifted
    exact hShifted
  obtain ⟨hLeast, -, -⟩ := exponentOf_bounds hPos
  have hSecond :=
    shift_rounded (unitsOf_le hPos) hLeast (unitsOf_normal hPos)
  unfold roundWithAccuracy
  obtain ⟨hUnits, hExponent⟩ := hFirst
  generalize shiftToTargetExponent .binary64 m e acc = first at *
  dsimp only
  rw [hUnits, hExponent, hSecond]
  unfold rounding
  by_cases hShort : unitsOf q < 2 ^ 53
  · simp only [if_pos hShort]
  · have hZero : unitsOf q ≠ 0 := by omega
    simp only [if_neg hShort, dif_neg hZero]
    rfl

------------------------------------------------------------
-- Products, Quotients and Sums
------------------------------------------------------------

theorem roundWithAccuracy_exact
    {m : Nat}
    {e : Int}
    (s : Sign)
    (hSome : 0 < m)
    (hFine : e ≤ exponentOf (m * 2 ^ e)) :
    roundWithAccuracy .binary64 s m e .exact =
      rounding s (m * 2 ^ e) := by
  apply roundWithAccuracy_eq_rounding s (by positivity) hFine
  rw [mul_div_cancel_right₀ _ (by positivity)]
  exact describes_exact m

theorem round_eq_rounding
    {m : Nat}
    (s : Sign)
    (e : Int)
    (hSome : 0 < m) :
    UnpackedFloat.round .binary64 s m e =
      rounding s (m * 2 ^ e) := by
  unfold UnpackedFloat.round decreaseExponent
  rw [targetExponent_eq]
  dsimp only
  generalize hShift :
    (e - max ((m.log2 : Int) + e - 52) (-1074)).toNat = k
  have hSame :
      (m : ℚ) * 2 ^ e = (m <<< k : Nat) * 2 ^ (e - k) := by
    rw [Nat.shiftLeft_eq, zpow_sub₀ two_ne_zero, zpow_natCast]
    push_cast
    field_simp
  have hFine : e - k ≤ exponentOf (m * 2 ^ e) := by
    rw [exponentOf_dyadic e hSome]
    omega
  rw [hSame] at hFine ⊢
  exact roundWithAccuracy_exact s
    (by rw [Nat.shiftLeft_eq]; positivity) hFine

theorem mul_eq_rounding
    {m n : Nat}
    {e f : Int}
    {hM : 0 < m}
    {hN : 0 < n}
    (s t : Sign)
    (hFine : e + f ≤ -1074 ∨ 2 ^ 52 ≤ m * n) :
    mul .binary64 (.finite s m e hM) (.finite t n f hN) =
      rounding (s * t) (m * 2 ^ e * (n * 2 ^ f)) := by
  have hSame :
      (m : ℚ) * 2 ^ e * (n * 2 ^ f) =
        (m * n : Nat) * 2 ^ (e + f) := by
    rw [zpow_add₀ two_ne_zero]
    push_cast
    ring
  have hSome : 0 < m * n := Nat.mul_pos hM hN
  rw [mul_finite, hSame]
  apply roundWithAccuracy_exact _ hSome
  rw [exponentOf_dyadic _ hSome]
  rcases hFine with hLeast | hLong
  · omega
  · have hLog := (Nat.le_log2 hSome.ne').mpr hLong
    omega

/- A quotient is half of that of the leading bits at least. -/
theorem log_quotient
    {m n : Nat}
    (hM : 0 < m)
    (hN : 0 < n)
    (e f : Int) :
    m.log2 + e - (n.log2 + f) - 1 ≤
      Int.log 2 ((m : ℚ) * 2 ^ e / (n * 2 ^ f)) := by
  have hPos : (0 : ℚ) < m * 2 ^ e / (n * 2 ^ f) := by positivity
  have hNumerator := (magnitude_bounds e hM).1
  have hDenominator := (magnitude_bounds f hN).2
  have hSome : (0 : ℚ) < n * 2 ^ f := by positivity
  rw [← Int.zpow_le_iff_le_log one_lt_two hPos, le_div_iff₀ hSome]
  calc
    ((2 : Nat) : ℚ) ^ (m.log2 + e - (n.log2 + f) - 1) *
          (n * 2 ^ f)
        ≤ 2 ^ (m.log2 + e - (n.log2 + f) - 1) *
          2 ^ (f + n.log2 + 1) := by
      push_cast
      gcongr
    _ = 2 ^ (e + m.log2) := by
      rw [← zpow_add₀ two_ne_zero]
      congr 1
      omega
    _ ≤ m * 2 ^ e := hNumerator

theorem div_eq_rounding
    {m n : Nat}
    {e f : Int}
    {hM : 0 < m}
    {hN : 0 < n}
    (s t : Sign) :
    div .binary64 (.finite s m e hM) (.finite t n f hN) =
      rounding (s / t) (m * 2 ^ e / (n * 2 ^ f)) := by
  unfold div divCore
  dsimp only
  generalize hTarget :
    Format.targetExponent .binary64
      (totalExponent m e - totalExponent n f) = t'
  have hPos : (0 : ℚ) < m * 2 ^ e / (n * 2 ^ f) := by positivity
  generalize hShift : (e - f - min (e - f) t').toNat = k
  have hExponent : min (e - f) t' = e - f - k := by omega
  rw [hExponent]
  apply roundWithAccuracy_eq_rounding _ hPos
  · have hBits : (Format.mantissaBits .binary64 : Int) = 53 := rfl
    have hLeast : Format.minExponent .binary64 = -1074 := rfl
    rw [Format.targetExponent, totalExponent, totalExponent, hBits,
      hLeast] at hTarget
    have hLog := log_quotient hM hN e f
    unfold exponentOf
    omega
  · have hSame :
        (m : ℚ) * 2 ^ e / (n * 2 ^ f) / 2 ^ (e - f - k) =
          (m <<< k : Nat) / n := by
      rw [Nat.shiftLeft_eq, zpow_sub₀ two_ne_zero,
        zpow_sub₀ two_ne_zero, zpow_natCast]
      push_cast
      field_simp
    rw [hSame]
    exact describes_quotient _ hN

theorem add_eq_rounding
    {m n : Nat}
    {e f : Int}
    {hM : 0 < m}
    {hN : 0 < n} :
    add .binary64 (.finite .positive m e hM)
        (.finite .positive n f hN) =
      rounding .positive (m * 2 ^ e + n * 2 ^ f) := by
  rw [add_finite]
  generalize hM' : (m <<< (e - min e f).toNat : Nat) = a
  generalize hN' : (n <<< (f - min e f).toNat : Nat) = b
  have hSum :
      Sign.positive.apply (a : Nat) + Sign.positive.apply (b : Nat) =
        ((a + b : Nat) : Int) := rfl
  have hSame :
      ∀ {k : Nat} {g : Int}, min e f ≤ g →
        (k : ℚ) * 2 ^ g =
          (k <<< (g - min e f).toNat : Nat) * 2 ^ min e f := by
    intro k g hLe
    have hG : g = min e f + (g - min e f).toNat := by omega
    rw [Nat.shiftLeft_eq]
    conv_lhs => rw [hG]
    rw [zpow_add₀ two_ne_zero, zpow_natCast]
    push_cast
    ring
  have hSome : 0 < a + b := by
    rw [← hM', Nat.shiftLeft_eq]
    positivity
  have hTotal :
      (m : ℚ) * 2 ^ e + n * 2 ^ f =
        (a + b : Nat) * 2 ^ min e f := by
    rw [hSame (min_le_left e f), hSame (min_le_right e f), hM', hN']
    push_cast
    ring
  have hOrder : compare ((a + b : Nat) : Int) 0 = .gt :=
    compare_gt_iff_gt.mpr (by exact_mod_cast hSome)
  rw [hSum, hTotal, UnpackedFloat.normalize, hOrder]
  exact round_eq_rounding .positive _ hSome

variable {x y : Float} {p r : ℚ}

/- A product is the double nearest to the exact product. -/
theorem mul_eq_closest
    (hP : 0 < p)
    (hR : 0 < r)
    (hX : value? x = some p)
    (hY : value? y = some r) :
    x * y = closest (p * r) := by
  obtain ⟨m, e, hM, hFirst, hForm, rfl⟩ := unpack_of_pos hP hX
  obtain ⟨n, f, hN, hSecond, hForm', rfl⟩ := unpack_of_pos hR hY
  have hMul :
      x * y =
        Float.ofModel (Model.pack
          (mul .binary64 x.toModel.unpack y.toModel.unpack)) :=
    rfl
  have hFine : e + f ≤ -1074 ∨ 2 ^ 52 ≤ m * n := by
    obtain ⟨-, -, -, hNormal⟩ := hForm
    obtain ⟨-, -, -, hNormal'⟩ := hForm'
    rcases hNormal with hFull | rfl
    · exact Or.inr (Nat.le_trans hFull (Nat.le_mul_of_pos_right _ hN))
    · rcases hNormal' with hFull | rfl
      · exact Or.inr (Nat.le_trans hFull (Nat.le_mul_of_pos_left _ hM))
      · exact Or.inl (by decide)
  rw [hMul, hFirst, hSecond, mul_eq_rounding _ _ hFine]
  rfl

/- A quotient is the double nearest to the exact quotient. -/
theorem div_eq_closest
    (hP : 0 < p)
    (hR : 0 < r)
    (hX : value? x = some p)
    (hY : value? y = some r) :
    x / y = closest (p / r) := by
  obtain ⟨m, e, hM, hFirst, -, rfl⟩ := unpack_of_pos hP hX
  obtain ⟨n, f, hN, hSecond, -, rfl⟩ := unpack_of_pos hR hY
  have hDiv :
      x / y =
        Float.ofModel (Model.pack
          (div .binary64 x.toModel.unpack y.toModel.unpack)) :=
    rfl
  rw [hDiv, hFirst, hSecond, div_eq_rounding]
  rfl

/- A sum is the double nearest to the exact sum. -/
theorem add_eq_closest
    (hP : 0 < p)
    (hR : 0 < r)
    (hX : value? x = some p)
    (hY : value? y = some r) :
    x + y = closest (p + r) := by
  obtain ⟨m, e, hM, hFirst, -, rfl⟩ := unpack_of_pos hP hX
  obtain ⟨n, f, hN, hSecond, -, rfl⟩ := unpack_of_pos hR hY
  have hAdd :
      x + y =
        Float.ofModel (Model.pack
          (add .binary64 x.toModel.unpack y.toModel.unpack)) :=
    rfl
  rw [hAdd, hFirst, hSecond, add_eq_rounding]
  rfl

------------------------------------------------------------
-- Extremes
------------------------------------------------------------

/- From the limit on there is infinity. -/
theorem closest_of_limit_le (hGreat : 2 ^ 1024 ≤ q) :
    closest q = 1 / 0 := by
  have hPos : 0 < q :=
    lt_of_lt_of_le (by positivity) hGreat
  obtain ⟨-, hHigh, -⟩ := exponentOf_bounds hPos
  have hExponent : 1024 < 53 + exponentOf q := by
    rw [← zpow_lt_zpow_iff_right₀ (one_lt_two (α := ℚ))]
    exact lt_of_le_of_lt hGreat hHigh
  have hNormal :=
    (unitsOf_normal hPos).resolve_left (by omega)
  apply closest_of_great hPos
  have hCast : (2 : ℚ) ^ (52 : Int) ≤ unitsOf q := by
    exact_mod_cast hNormal
  calc
    (2 : ℚ) ^ 1024 = 2 ^ (1024 : Int) := (zpow_natCast 2 1024).symm
    _ ≤ 2 ^ (52 + exponentOf q) := by
      apply zpow_le_zpow_right₀ one_le_two
      omega
    _ = 2 ^ (52 : Int) * 2 ^ exponentOf q :=
      zpow_add₀ two_ne_zero _ _
    _ ≤ roundedOf q := by
      unfold roundedOf
      gcongr

theorem ofModel_zero :
    Float.ofModel (Model.pack (.zero .positive)) = 0 := by
  with_unfolding_all rfl

/- Up to half of the least double there is zero. -/
theorem closest_of_le_half
    (hPos : 0 < q)
    (hSmall : q ≤ 2 ^ (-1075 : Int)) :
    closest q = 0 := by
  have hExponent : exponentOf q = -1074 := by
    apply exponentOf_eq hPos le_rfl _ (Or.inl rfl)
    refine lt_of_le_of_lt hSmall ?_
    exact zpow_lt_zpow_right₀ one_lt_two (by decide)
  have hUnits : unitsOf q = 0 := by
    have hScaled : q / 2 ^ (-1074 : Int) ≤ 1 / 2 := by
      rw [div_le_iff₀ (by positivity)]
      refine hSmall.trans (le_of_eq ?_)
      have hHalf : (-1075 : Int) = -1 + -1074 := rfl
      rw [hHalf, zpow_add₀ two_ne_zero]
      norm_num
    rw [unitsOf, hExponent]
    apply halfEvenOf_eq (by positivity)
    · rw [Nat.cast_zero]
      positivity
    · rw [Nat.cast_zero, zero_add]
      exact hScaled
    · intro _
      rfl
  rw [closest, rounding, dif_pos hUnits, ofModel_zero]

theorem closest_zero : closest 0 = 0 := by
  have hUnits : unitsOf 0 = 0 := by
    rw [unitsOf, zero_div]
    exact halfEvenOf_natCast 0
  rw [closest, rounding, dif_pos hUnits, ofModel_zero]

------------------------------------------------------------
-- Decimal Numbers
------------------------------------------------------------

/- A natural number of 53 bits is a double. -/
theorem value?_toFloat {n : Nat} (hSmall : n < 2 ^ 53) :
    value? n.toUInt64.toFloat = some (n : ℚ) := by
  have hWord : n.toUInt64.toNat = n := by
    rw [UInt64.toNat_ofNat_of_lt']
    exact Nat.lt_trans hSmall (by decide)
  have hLog : n.log2 ≤ 52 := log2_le_of_lt hSmall
  have hNormal :=
    normalize_spec (n := n) (e := 0) .positive (by decide)
      (by rw [Int.natAbs_natCast]; omega)
  have hToFloat :
      n.toUInt64.toFloat =
        Float.ofModel (Model.pack
          (UnpackedFloat.normalize .binary64 n.toUInt64.toNat 0
            .positive)) :=
    rfl
  rw [hToFloat, hWord]
  refine value?_pack hNormal.1 ?_
  simpa [nearest_natCast, rounded_of_lt hSmall] using hNormal.2

/- A double is a power of ten. -/
def IsPowerOfTen (x : Float) (k : Nat) : Bool :=
  match Binary64.exact x with
  | .finite false m e =>
      m * 2 ^ e.toNat == 10 ^ k * 2 ^ (-e).toNat
  | _ => false

theorem value?_of_isPowerOfTen
    {k : Nat}
    (hPower : IsPowerOfTen x k = true) :
    value? x = some (10 ^ k) := by
  unfold IsPowerOfTen at hPower
  unfold value?
  split at hPower
  next m e hExact =>
    rw [beq_iff_eq] at hPower
    have hCast : (m : ℚ) * 2 ^ e.toNat = 10 ^ k * 2 ^ (-e).toNat := by
      exact_mod_cast hPower
    have hSplit : e = e.toNat - (-e).toNat := by omega
    rw [hExact, valueOf, signed, if_neg Bool.false_ne_true,
      hSplit, zpow_sub₀ two_ne_zero, zpow_natCast, zpow_natCast,
      ← mul_div_assoc, hCast, mul_div_cancel_right₀]
    positivity
  next => exact absurd hPower Bool.false_ne_true

/- The table of powers of ten is exact. -/
theorem isPowerOfTen_table :
    ∀ k : Fin Float.exactlyRepresentablePowersOfTen.size,
      IsPowerOfTen Float.exactlyRepresentablePowersOfTen[k] k =
        true := by
  decide +kernel

theorem ten_zpow_natAbs (e : Int) :
    (10 : ℚ) ^ e =
      if e < 0 then 1 / 10 ^ e.natAbs else 10 ^ e.natAbs := by
  split_ifs with hNeg
  · have hE : e = -(e.natAbs : Int) := by omega
    conv_lhs => rw [hE]
    rw [zpow_neg, zpow_natCast, one_div]
  · have hE : e = (e.natAbs : Int) := by omega
    conv_lhs => rw [hE]
    rw [zpow_natCast]

/- Small numbers and exponents take one operation on doubles. -/
theorem ofScientific_of_small
    {n : Nat}
    {e : Int}
    (hSome : 0 < n)
    (hSmall : n < 2 ^ 53)
    (hFew : e.natAbs ≤ 22) :
    Float.ofScientific n (decide (e < 0)) e.natAbs =
      closest (n * 10 ^ e) := by
  have hSize :
      e.natAbs < Float.exactlyRepresentablePowersOfTen.size :=
    Nat.lt_of_le_of_lt hFew (by decide)
  have hPower :=
    value?_of_isPowerOfTen (isPowerOfTen_table ⟨e.natAbs, hSize⟩)
  have hNumber := value?_toFloat hSmall
  have hCast : (0 : ℚ) < n := by exact_mod_cast hSome
  rw [Float.ofScientific, dif_pos ⟨hSmall, hFew⟩, ten_zpow_natAbs]
  dsimp only
  by_cases hNeg : e < 0
  · rw [decide_eq_true hNeg, if_pos rfl, if_pos hNeg,
      mul_one_div]
    exact div_eq_closest hCast (by positivity) hNumber hPower
  · rw [decide_eq_false hNeg, if_neg Bool.false_ne_true,
      if_neg hNeg]
    exact mul_eq_closest hCast (by positivity) hNumber hPower

/- A huge power of ten is beyond the greatest double. -/
theorem closest_of_huge
    {e : Int}
    (hOne : 1 ≤ q)
    (hHuge : 400 ≤ e) :
    closest (q * 10 ^ e) = 1 / 0 := by
  apply closest_of_limit_le
  have hPower : (2 : ℚ) ^ 1024 ≤ 10 ^ (400 : Nat) := by
    have hCast : 2 ^ 1024 ≤ 10 ^ 400 := by decide +kernel
    exact_mod_cast hCast
  calc
    (2 : ℚ) ^ 1024 ≤ 10 ^ (400 : Nat) := hPower
    _ = 10 ^ (400 : Int) := (zpow_natCast 10 400).symm
    _ ≤ 10 ^ e := zpow_le_zpow_right₀ (by norm_num) hHuge
    _ ≤ q * 10 ^ e := le_mul_of_one_le_left (by positivity) hOne

/- What is below a tiny power of ten is nearer to zero. -/
theorem closest_of_tiny
    (hPos : 0 < q)
    (hTiny : q ≤ 10 ^ (-400 : Int)) :
    closest q = 0 := by
  apply closest_of_le_half hPos
  have hPower : (2 : ℚ) ^ (1075 : Nat) ≤ 10 ^ (400 : Nat) := by
    have hCast : 2 ^ 1075 ≤ 10 ^ 400 := by decide +kernel
    exact_mod_cast hCast
  refine hTiny.trans ?_
  rw [zpow_neg, zpow_neg]
  apply inv_anti₀ (by positivity)
  exact_mod_cast hPower

/- A product has bits enough to be rounded once. -/
theorem mul_power
    {n : Nat}
    (k : Nat)
    (hSome : 0 < n)
    (hN : 0 < n <<< 53)
    (hPower : 0 < 10 ^ k) :
    mul .binary64 (.finite .positive (n <<< 53) (-(53 : Nat)) hN)
        (.finite .positive (10 ^ k) 0 hPower) =
      rounding .positive (n * 10 ^ k) := by
  have hLong : 2 ^ 52 ≤ n <<< 53 * 10 ^ k := by
    rw [Nat.shiftLeft_eq]
    calc
      2 ^ 52 ≤ 1 * 2 ^ 53 * 1 := by decide
      _ ≤ n * 2 ^ 53 * 10 ^ k := by
        gcongr
        · exact hSome
        · exact hPower
  have hSame :
      ((n <<< 53 : Nat) : ℚ) * 2 ^ (-(53 : Nat) : Int) *
          ((10 ^ k : Nat) * 2 ^ (0 : Int)) =
        n * 10 ^ k := by
    rw [Nat.shiftLeft_eq, zpow_neg, zpow_zero, zpow_natCast,
      Nat.cast_mul, Nat.cast_pow, Nat.cast_pow, Nat.cast_ofNat,
      Nat.cast_ofNat, mul_one,
      mul_inv_cancel_right₀ (by positivity)]
  rw [mul_eq_rounding _ _ (Or.inr hLong), hSame]
  rfl

theorem div_power
    {n : Nat}
    (k : Nat)
    (hN : 0 < n)
    (hPower : 0 < 10 ^ k) :
    div .binary64 (.finite .positive n 0 hN)
        (.finite .positive (10 ^ k) 0 hPower) =
      rounding .positive (n * (1 / 10 ^ k)) := by
  have hSame :
      (n : ℚ) * 2 ^ (0 : Int) / ((10 ^ k : Nat) * 2 ^ (0 : Int)) =
        n * (1 / 10 ^ k) := by
    rw [zpow_zero]
    push_cast
    field_simp
  rw [div_eq_rounding, hSame]
  rfl

/- Otherwise the exact number is rounded. -/
theorem ofScientific_model
    {n : Nat}
    (e : Int)
    (hSome : 0 < n) :
    Float.ofModel (Model.ofScientific n e) =
      closest (n * 10 ^ e) := by
  have hOne : (1 : ℚ) ≤ n := by exact_mod_cast hSome
  have hBits : Format.mantissaBits .binary64 = 53 := rfl
  have hField : (2 : Int) ^ Format.exponentBits .binary64 = 2048 :=
    rfl
  unfold Model.ofScientific UnpackedFloat.ofScientific
  simp only [dif_neg hSome.ne', hBits, hField, gt_iff_lt]
  split_ifs with hHuge hTiny hNonneg
  · rw [ofModel_infinity, closest_of_huge hOne (by omega)]
  · have hAbove : (n : ℚ) ≤ 2 ^ (n.log2 + 1) := by
      exact_mod_cast (Nat.lt_log2_self (n := n)).le
    rw [ofModel_zero, closest_of_tiny (by positivity)]
    calc
      (n : ℚ) * 10 ^ e ≤ 2 ^ (n.log2 + 1) * 10 ^ e := by gcongr
      _ ≤ 10 ^ (n.log2 + 1) * 10 ^ e := by
        gcongr
        norm_num
      _ = 10 ^ ((n.log2 + 1 : Nat) + e) := by
        rw [zpow_add₀ (by norm_num), zpow_natCast]
      _ ≤ 10 ^ (-400 : Int) :=
        zpow_le_zpow_right₀ (by norm_num) (by omega)
  · rw [mul_power _ hSome, ten_zpow_natAbs, if_neg (by omega)]
    have hAbs : e.toNat = e.natAbs := by omega
    rw [hAbs]
    rfl
  · rw [div_power, ten_zpow_natAbs, if_pos (by omega)]
    have hAbs : (-e).toNat = e.natAbs := by omega
    rw [hAbs]
    rfl

/-
  A decimal number in scientific form is read as the nearest
  double.
-/
theorem ofScientific_eq_closest
    {n : Nat}
    (e : Int)
    (hSome : 0 < n) :
    Float.ofScientific n (decide (e < 0)) e.natAbs =
      closest (n * 10 ^ e) := by
  by_cases hSmall : n < 2 ^ 53 ∧ e.natAbs ≤ 22
  · exact ofScientific_of_small hSome hSmall.1 hSmall.2
  · have hSign :
        (if decide (e < 0) = true then Int.negOfNat e.natAbs
          else Int.ofNat e.natAbs) = e := by
      simp only [decide_eq_true_eq, Int.negOfNat_eq,
        Int.ofNat_eq_natCast]
      omega
    rw [Float.ofScientific, dif_neg hSmall]
    dsimp only
    rw [hSign]
    exact ofScientific_model e hSome

end Double

end Assessment
