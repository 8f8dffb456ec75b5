import Assessment.Proofs.Number.Doubles
import Assessment.Proofs.Number.Nearest

/-
  Results of double arithmetic.

  A result is computed exactly and then shifted to the right
  until its mantissa has 53 bits. Two bits keep what the
  shifts drop: the last dropped bit, and whether one before
  it was set. They suffice to round to the nearest mantissa,
  and in the middle to the even one.

  Main declarations:
    * `Double.Holds`, what a shifted mantissa stands for
    * `Double.roundWithAccuracy_spec` and `normalize_spec`
    * `Double.value?_ofInt`, an integer as a double
    * `Double.value?_add_half`, a whole number and a half
-/

------------------------------------------------------------
-- Shifts
------------------------------------------------------------

namespace Assessment

namespace Double

open Float (Model)
open Float.Model (UnpackedFloat Format totalExponent)
open Float.Model.UnpackedFloat

/-
  A mantissa holds what is left of a magnitude that has been
  shifted: the quotient, whether the rest is at least a half,
  and whether it is neither nothing nor a half.
-/
structure Holds (em : ExtendedMantissa) (m k : Nat) : Prop where
  mantissa : em.mantissa = m / 2 ^ k
  half : em.roundBit = true ↔ 2 ^ k ≤ 2 * (m % 2 ^ k)
  between :
    em.stickyBit = true ↔
      m % 2 ^ k ≠ 0 ∧ 2 * (m % 2 ^ k) ≠ 2 ^ k

theorem holds_exact (m : Nat) : Holds ⟨m, false, false⟩ m 0 where
  mantissa := by simp
  half := by simp [Nat.mod_one]
  between := by simp [Nat.mod_one]

theorem Holds.shiftRightOne
    {em : ExtendedMantissa}
    {m k : Nat}
    (hHolds : Holds em m k) :
    Holds em.shiftRightOne m (k + 1) := by
  have hUnit : 0 < 2 ^ k := Nat.two_pow_pos k
  have hRest : m % 2 ^ k < 2 ^ k := Nat.mod_lt _ hUnit
  have hBit := Nat.mod_two_eq_zero_or_one (m / 2 ^ k)
  have hNext :
      m % 2 ^ (k + 1) = m % 2 ^ k + 2 ^ k * (m / 2 ^ k % 2) :=
    Nat.mod_pow_succ
  have hDouble : 2 ^ (k + 1) = 2 * 2 ^ k := by
    rw [Nat.pow_succ, Nat.mul_comm]
  constructor
  · change em.mantissa / 2 = _
    rw [hHolds.mantissa, Nat.div_div_eq_div_mul, Nat.pow_succ]
  · change (em.mantissa % 2 != 0) = true ↔ _
    rw [hHolds.mantissa, hNext, hDouble, bne_iff_ne]
    rcases hBit with hZero | hOne
    · rw [hZero, Nat.mul_zero]
      omega
    · rw [hOne, Nat.mul_one]
      omega
  · change (em.roundBit || em.stickyBit) = true ↔ _
    rw [Bool.or_eq_true, hHolds.half, hHolds.between, hNext,
      hDouble]
    rcases hBit with hZero | hOne
    · rw [hZero, Nat.mul_zero]
      omega
    · rw [hOne, Nat.mul_one]
      omega

theorem Holds.shiftRight (m k : Nat) :
    Holds ((⟨m, false, false⟩ : ExtendedMantissa) >>> k) m k := by
  change Holds (Nat.repeat ExtendedMantissa.shiftRightOne k _) m k
  induction k with
  | zero => exact holds_exact m
  | succ k ih => exact ih.shiftRightOne

/- Two bits suffice to round. -/
theorem Holds.roundedMantissa
    {em : ExtendedMantissa}
    {m k : Nat}
    (hHolds : Holds em m k) :
    em.roundedMantissa = halfEven m k := by
  obtain ⟨hMantissa, hHalf, hBetween⟩ := hHolds
  have hRest : m % 2 ^ k < 2 ^ k :=
    Nat.mod_lt _ (Nat.two_pow_pos k)
  rcases em with ⟨n, round, sticky⟩
  dsimp only at hMantissa hHalf hBetween
  subst hMantissa
  unfold halfEven
  cases round <;> cases sticky <;>
    simp only [Bool.false_eq_true, false_iff, true_iff]
      at hHalf hBetween
  · rw [if_pos (by omega)]
    rfl
  · rw [if_pos (by omega)]
    rfl
  · rw [if_neg (by omega), if_pos (by omega)]
    rfl
  · rw [if_neg (by omega), if_neg (by omega)]
    rfl

------------------------------------------------------------
-- Roundings
------------------------------------------------------------

/- A number under a sign. -/
def under (s : Sign) (q : ℚ) : ℚ :=
  match s with
  | .negative => -q
  | .positive => q

theorem Stands.finite
    {m : Nat}
    {e : Int}
    (s : Sign)
    (hPos : 0 < m) :
    Stands (.finite s m e hPos) (under s (m * 2 ^ e)) := by
  cases s
  · exact .negative hPos
  · exact .positive hPos

theorem cast_apply (s : Sign) (n : Int) :
    ((s.apply n : Int) : ℚ) = under s n := by
  cases s
  · exact Int.cast_neg n
  · rfl

theorem Stands.eq_under
    {s : Sign}
    {m : Nat}
    {e : Int}
    {hPos : 0 < m}
    {q : ℚ}
    (hStands : Stands (.finite s m e hPos) q) :
    q = under s (m * 2 ^ e) := by
  cases hStands <;> rfl

/- What has 53 bits or more is shifted until 53 are left. -/
theorem shiftToTargetExponent_eq
    {m : Nat}
    {e : Int}
    (hLong : 52 ≤ m.log2)
    (hLeast : -1074 ≤ e + excess m) :
    shiftToTargetExponent .binary64 m e .exact =
      ((⟨m, false, false⟩ : ExtendedMantissa) >>> excess m,
        e + excess m) := by
  have hLog := log2_eq_add_excess hLong
  have hTarget :
      Format.targetExponent .binary64 (totalExponent m e) =
        e + excess m := by
    have hBits : (Format.mantissaBits .binary64 : Int) = 53 := rfl
    have hLeast' : Format.minExponent .binary64 = -1074 := rfl
    rw [Format.targetExponent, totalExponent, hBits, hLeast']
    omega
  unfold shiftToTargetExponent shiftToExponent
  simp only [hTarget, add_sub_cancel_left, Int.toNat_natCast]
  rfl

/-
  A magnitude of 53 bits or more is rounded to 53 bits, within
  the range of normal doubles.
-/
theorem roundWithAccuracy_spec
    {m : Nat}
    {e : Int}
    (s : Sign)
    (hLong : 52 ≤ m.log2)
    (hLeast : -1074 ≤ e + excess m)
    (hGreatest : e + excess m ≤ 970) :
    Canonical (roundWithAccuracy .binary64 s m e .exact) ∧
      Stands (roundWithAccuracy .binary64 s m e .exact)
        (under s (rounded m * 2 ^ e)) := by
  obtain ⟨hLow, hHigh⟩ := halfEven_bounds hLong
  have hRounded : rounded m = halfEven m (excess m) * 2 ^ excess m :=
    rfl
  unfold roundWithAccuracy
  rw [shiftToTargetExponent_eq hLong hLeast]
  dsimp only
  rw [(Holds.shiftRight m (excess m)).roundedMantissa, hRounded]
  generalize halfEven m (excess m) = r at *
  -- A carry may have made a mantissa of 54 bits, so it is
  -- shifted once more.
  have hLog : 52 ≤ r.log2 := (Nat.le_log2 (by omega)).mpr hLow
  have hCarry : excess r ≤ 1 := by
    have hLt : r.log2 < 54 := by
      rw [Nat.log2_lt (by omega)]
      omega
    unfold excess
    omega
  have hShort : r / 2 ^ excess r * 2 ^ excess r = r := by
    have hDivides :=
      (isShort_iff_dvd r).mp
        (isShort_of_natAbs_le (by simpa using hHigh))
    exact Nat.div_mul_cancel (by simpa using hDivides)
  rw [shiftToTargetExponent_eq hLog (by omega)]
  dsimp only
  simp only [(Holds.shiftRight r (excess r)).mantissa]
  obtain ⟨hNormal, hBits⟩ := div_bounds hLog
  rw [dif_neg (by omega)]
  refine ⟨⟨hBits, by omega, by omega, Or.inl hNormal⟩, ?_⟩
  have hValue :
      ((r * 2 ^ excess m : Nat) : ℚ) * 2 ^ e =
        (r / 2 ^ excess r : Nat) *
          2 ^ (e + excess m + excess r) := by
    conv_lhs => rw [← hShort]
    rw [zpow_add₀ two_ne_zero, zpow_add₀ two_ne_zero]
    push_cast
    simp only [zpow_natCast]
    ring
  rw [hValue]
  exact .finite s _

theorem round_spec
    {m : Nat}
    {e : Int}
    (s : Sign)
    (hPos : m ≠ 0)
    (hLeast : -1022 ≤ e + m.log2)
    (hGreatest : e + m.log2 ≤ 1022) :
    Canonical (UnpackedFloat.round .binary64 s m e) ∧
      Stands (UnpackedFloat.round .binary64 s m e)
        (under s (rounded m * 2 ^ e)) := by
  have hTarget :
      Format.targetExponent .binary64 (totalExponent m e) =
        e + m.log2 - 52 := by
    have hBits : (Format.mantissaBits .binary64 : Int) = 53 := rfl
    have hMin : Format.minExponent .binary64 = -1074 := rfl
    rw [Format.targetExponent, totalExponent, hBits, hMin]
    omega
  have hShift : (e - (e + m.log2 - 52)).toNat = 52 - m.log2 := by
    omega
  unfold UnpackedFloat.round decreaseExponent
  simp only [hTarget, hShift]
  rw [Nat.shiftLeft_eq]
  have hLog := log2_mul_two_pow hPos (52 - m.log2)
  have hExcess : excess (m * 2 ^ (52 - m.log2)) = m.log2 - 52 := by
    unfold excess
    omega
  have hValue :
      (rounded m : ℚ) * 2 ^ e =
        rounded (m * 2 ^ (52 - m.log2)) *
          2 ^ (e - (52 - m.log2 : Nat)) := by
    rw [rounded_mul_two_pow, zpow_sub₀ two_ne_zero]
    push_cast
    rw [zpow_natCast]
    field_simp
  rw [hValue]
  apply roundWithAccuracy_spec s (by omega) <;> omega

/- An integer under an exponent is rounded to 53 bits. -/
theorem normalize_spec
    {n e : Int}
    (zeroSign : Sign)
    (hLeast : -1022 ≤ e)
    (hGreatest : e + n.natAbs.log2 ≤ 1022) :
    Canonical (UnpackedFloat.normalize .binary64 n e zeroSign) ∧
      Stands (UnpackedFloat.normalize .binary64 n e zeroSign)
        (nearest n * 2 ^ e) := by
  unfold UnpackedFloat.normalize nearest
  rcases lt_trichotomy n 0 with hNeg | rfl | hPos
  · have hAbs : (-n).toNat = n.natAbs := by omega
    rw [compare_lt_iff_lt.mpr hNeg, if_pos hNeg]
    dsimp only
    rw [hAbs, Int.cast_neg, Int.cast_natCast, neg_mul]
    apply round_spec .negative <;> omega
  · refine ⟨trivial, ?_⟩
    have hZero : (rounded (0 : Int).natAbs : Int) = 0 := rfl
    rw [if_neg (lt_irrefl _), hZero, Int.cast_zero, zero_mul]
    exact .zero zeroSign
  · have hAbs : n.toNat = n.natAbs := by omega
    rw [compare_gt_iff_gt.mpr hPos, if_neg (by omega)]
    dsimp only
    rw [hAbs, Int.cast_natCast]
    apply round_spec .positive <;> omega

------------------------------------------------------------
-- Integers as Doubles
------------------------------------------------------------

/- A magnitude lies between two powers of two. -/
theorem magnitude_bounds
    {m : Nat}
    (e : Int)
    (hPos : 0 < m) :
    (2 : ℚ) ^ (e + m.log2) ≤ m * 2 ^ e ∧
      (m : ℚ) * 2 ^ e < 2 ^ (e + m.log2 + 1) := by
  have hUnit : (0 : ℚ) < 2 ^ e := by positivity
  have hLow : (2 : ℚ) ^ m.log2 ≤ m := by
    exact_mod_cast Nat.log2_self_le hPos.ne'
  have hHigh : (m : ℚ) < 2 ^ (m.log2 + 1) := by
    exact_mod_cast Nat.lt_log2_self (n := m)
  rw [add_assoc, zpow_add₀ two_ne_zero, zpow_add₀ two_ne_zero,
    mul_comm]
  constructor
  · exact mul_le_mul_of_nonneg_right (by exact_mod_cast hLow)
      hUnit.le
  · rw [mul_comm (2 ^ e)]
    exact mul_lt_mul_of_pos_right (by exact_mod_cast hHigh) hUnit

/- The exponent of a natural number of 53 bits is small. -/
theorem log2_bounds_of_natCast
    {m n : Nat}
    {e : Int}
    (hPos : 0 < m)
    (hSmall : n < 2 ^ 53)
    (hN : (n : ℚ) = m * 2 ^ e) :
    -1 < e + m.log2 ∧ e + m.log2 < 53 := by
  obtain ⟨hLow, hHigh⟩ := magnitude_bounds e hPos
  have hOne : (1 : ℚ) ≤ m * 2 ^ e := by
    have hSome : (0 : ℚ) < m * 2 ^ e := by positivity
    rw [← hN] at hSome ⊢
    exact_mod_cast hSome
  have hLeast : 0 < e + m.log2 + 1 := by
    rw [← zpow_lt_zpow_iff_right₀ (one_lt_two (α := ℚ))]
    exact lt_of_le_of_lt hOne hHigh
  have hGreatest : e + m.log2 < 53 := by
    rw [← zpow_lt_zpow_iff_right₀ (one_lt_two (α := ℚ))]
    refine lt_of_le_of_lt hLow ?_
    rw [← hN]
    exact_mod_cast hSmall
  exact ⟨by omega, hGreatest⟩

theorem mul_finite
    {m n : Nat}
    {e f : Int}
    {hM : 0 < m}
    {hN : 0 < n}
    (s t : Sign) :
    mul .binary64 (.finite s m e hM) (.finite t n f hN) =
      roundWithAccuracy .binary64 (s * t) (m * n) (e + f)
        .exact :=
  rfl

/- To multiply with one changes no number of 53 bits. -/
theorem value?_mul_one
    {x y : Float}
    {n : Nat}
    (hSmall : n < 2 ^ 53)
    (hX : value? x = some (n : ℚ))
    (hY :
      y.toModel.unpack =
        .finite .positive (2 ^ 52) (-52) (by decide)) :
    value? (x * y) = some (n : ℚ) := by
  have hForm := canonical_unpack x.toModel
  have hStands := value?_eq_some_iff.mp hX
  have hMul :
      x * y =
        Float.ofModel (Model.pack
          (mul .binary64 x.toModel.unpack y.toModel.unpack)) :=
    rfl
  rw [hMul, hY]
  generalize x.toModel.unpack = u at *
  generalize hN : (n : ℚ) = p at *
  cases hStands with
  | zero s => exact value?_pack trivial (.zero (s * Sign.positive))
  | @positive m e hPos =>
      obtain ⟨hLeast, hGreatest⟩ :=
        log2_bounds_of_natCast hPos hSmall hN
      have hLog := log2_mul_two_pow hPos.ne' 52
      have hExcess : excess (m * 2 ^ 52) = m.log2 := by
        unfold excess
        omega
      have hSpec :=
        roundWithAccuracy_spec (m := m * 2 ^ 52) (e := e + -52)
          (.positive * .positive) (by omega) (by omega) (by omega)
      have hValue :
          (m : ℚ) * 2 ^ e =
            rounded (m * 2 ^ 52) * 2 ^ (e + -52) := by
        rw [rounded_mul_two_pow, rounded_of_lt hForm.1,
          zpow_add₀ two_ne_zero, zpow_neg]
        push_cast
        field_simp
      rw [hValue, mul_finite]
      exact value?_pack hSpec.1 hSpec.2
  | @negative m e hPos =>
      have hSome : (0 : ℚ) < m * 2 ^ e := by positivity
      have hNone : (0 : ℚ) ≤ n := Nat.cast_nonneg n
      linarith

/- A number of more than 53 bits is rounded from a product. -/
theorem ofNat_eq_of_long {n : Nat} (hLong : ¬ n < 2 ^ 53) :
    Float.ofNat n =
      Float.ofModel (Model.pack
        (roundWithAccuracy .binary64 .positive (n * 2 ^ 53) (-53)
          .exact)) := by
  have hScientific :
      Float.ofNat n = Float.ofScientific n false 0 := rfl
  have hPos : n ≠ 0 := by omega
  have hBits : Format.mantissaBits .binary64 = 53 := rfl
  rw [hScientific, Float.ofScientific,
    dif_neg (fun h => hLong h.1)]
  dsimp only
  rw [if_neg (by decide), Model.ofScientific,
    UnpackedFloat.ofScientific, dif_neg hPos, if_neg (by decide),
    if_neg (by simp), if_pos (by decide), mul_finite, hBits,
    Nat.shiftLeft_eq]
  have hOne : 10 ^ (Int.ofNat 0).toNat = 1 := rfl
  have hSign : Sign.positive * Sign.positive = Sign.positive := rfl
  rw [hOne, hSign, Nat.mul_one]
  rfl

/- A natural number as a double is rounded to 53 bits. -/
theorem value?_ofNat {n : Nat} (hRange : n.log2 ≤ 1000) :
    value? (Float.ofNat n) = some (rounded n : ℚ) := by
  by_cases hSmall : n < 2 ^ 53
  · -- A number of 53 bits is read as a word and multiplied
    -- with the zeroth power of ten.
    have hOfNat :
        Float.ofNat n =
          n.toUInt64.toFloat *
            Float.exactlyRepresentablePowersOfTen[0] := by
      have hScientific :
          Float.ofNat n = Float.ofScientific n false 0 := rfl
      rw [hScientific, Float.ofScientific,
        dif_pos ⟨hSmall, by decide⟩]
      rfl
    have hWord : n.toUInt64.toNat = n := by
      rw [UInt64.toNat_ofNat_of_lt']
      exact Nat.lt_trans hSmall (by decide)
    have hNormal :=
      normalize_spec (n := n) (e := 0) .positive (by decide)
        (by rw [Int.natAbs_natCast]; omega)
    rw [hOfNat, rounded_of_lt hSmall]
    refine value?_mul_one hSmall ?_ (by with_unfolding_all rfl)
    have hToFloat :
        n.toUInt64.toFloat =
          Float.ofModel (Model.pack
            (UnpackedFloat.normalize .binary64 n.toUInt64.toNat 0
              .positive)) :=
      rfl
    rw [hToFloat, hWord]
    refine value?_pack hNormal.1 ?_
    simpa [nearest_natCast, rounded_of_lt hSmall] using hNormal.2
  · have hPos : n ≠ 0 := by omega
    have hLog := log2_mul_two_pow hPos 53
    have hLong : 52 ≤ n.log2 :=
      (Nat.le_log2 hPos).mpr (by omega)
    have hExcess : excess (n * 2 ^ 53) = n.log2 + 1 := by
      unfold excess
      omega
    have hSpec :=
      roundWithAccuracy_spec (m := n * 2 ^ 53) (e := -53)
        .positive (by omega) (by omega) (by omega)
    have hValue :
        (rounded n : ℚ) =
          rounded (n * 2 ^ 53) * 2 ^ (-53 : Int) := by
      rw [rounded_mul_two_pow, zpow_neg]
      push_cast
      field_simp
    rw [ofNat_eq_of_long hSmall, hValue]
    exact value?_pack hSpec.1 hSpec.2

/- An integer as a double is rounded to 53 bits. -/
theorem value?_ofInt
    {n : Int}
    (hRange : n.natAbs.log2 ≤ 1000) :
    value? (Float.ofInt n) = some (nearest n : ℚ) := by
  cases n with
  | ofNat m =>
      have hNat : nearest (Int.ofNat m) = rounded m :=
        nearest_natCast m
      rw [hNat, Int.cast_natCast]
      exact value?_ofNat hRange
  | negSucc m =>
      have hNat : nearest (Int.negSucc m) = -rounded (m + 1) := by
        rw [Int.negSucc_eq, nearest_neg]
        exact congrArg _ (nearest_natCast (m + 1))
      rw [hNat, Int.cast_neg, Int.cast_natCast]
      exact value?_neg (value?_ofNat hRange)

theorem log2_natAbs_le
    {n : Int}
    (hLow : -2 ^ 63 ≤ n)
    (hHigh : n ≤ 2 ^ 63) :
    n.natAbs.log2 ≤ 63 :=
  log2_le_of_lt (by omega)

/- A 64-bit integer as a double is rounded to 53 bits. -/
theorem value?_ofInt64 (n : Int64) :
    value? (Binary64.ofInt64 n) = some (nearest n.toInt : ℚ) :=
  value?_ofInt (Nat.le_trans
    (log2_natAbs_le n.le_toInt (Int.le_of_lt n.toInt_lt))
    (by decide))

------------------------------------------------------------
-- Halves
------------------------------------------------------------

theorem add_finite
    {m n : Nat}
    {e f : Int}
    {hM : 0 < m}
    {hN : 0 < n}
    (s t : Sign) :
    add .binary64 (.finite s m e hM) (.finite t n f hN) =
      UnpackedFloat.normalize .binary64
        (s.apply (m <<< (e - min e f).toNat : Nat) +
          t.apply (n <<< (f - min e f).toNat : Nat))
        (min e f) .positive :=
  rfl

theorem unpack_half :
    (0.5 : Float).toModel.unpack =
      .finite .positive (2 ^ 52) (-53) (by decide) := by
  with_unfolding_all rfl

theorem canonical_half :
    Canonical (.finite .positive (2 ^ 52) (-53) (by decide)) :=
  ⟨by decide, by decide, by decide, Or.inl (by decide)⟩

theorem stands_half :
    Stands (.finite .positive (2 ^ 52) (-53) (by decide))
      (1 / 2) := by
  have hHalf : (1 / 2 : ℚ) = (2 ^ 52 : Nat) * 2 ^ (-53 : Int) := by
    norm_num
  rw [hHalf]
  exact .positive _

/- A whole number that is not zero has no small exponent. -/
theorem exponent_of_whole
    {m : Nat}
    {e v : Int}
    (hBits : m < 2 ^ 53)
    (hPos : 0 < m)
    (hWhole : |(v : ℚ)| = m * 2 ^ e) :
    -53 < e := by
  have hSome : (0 : ℚ) < m * 2 ^ e := by positivity
  have hOne : (1 : ℚ) ≤ m * 2 ^ e := by
    rw [← hWhole] at hSome ⊢
    exact_mod_cast Int.one_le_abs (by simpa using hSome)
  have hBound : (m : ℚ) * 2 ^ e < 2 ^ (53 + e) := by
    rw [zpow_add₀ two_ne_zero]
    have hCast : (m : ℚ) < 2 ^ (53 : Int) := by exact_mod_cast hBits
    gcongr
  have hExponent : 0 < 53 + e := by
    rw [← zpow_lt_zpow_iff_right₀ (one_lt_two (α := ℚ))]
    exact lt_of_le_of_lt hOne hBound
  omega

/- The mantissa of a whole number in units of 2 ^ -53. -/
theorem apply_shiftLeft_of_whole
    {s : Sign}
    {m : Nat}
    {e v : Int}
    (hLeast : -53 < e)
    (hWhole : (v : ℚ) = under s (m * 2 ^ e)) :
    s.apply (m <<< (e - -53).toNat : Nat) = v * 2 ^ 53 := by
  have hExponent : ((e - -53).toNat : Int) = e + 53 := by omega
  have hMagnitude :
      ((m <<< (e - -53).toNat : Nat) : ℚ) =
        m * 2 ^ e * 2 ^ (53 : Int) := by
    rw [Nat.shiftLeft_eq, mul_assoc, ← zpow_add₀ two_ne_zero,
      ← hExponent, zpow_natCast]
    push_cast
    rfl
  have hUnit : ((2 ^ 53 : Int) : ℚ) = 2 ^ (53 : Int) := by norm_num
  rw [← Int.cast_inj (α := ℚ), cast_apply, Int.cast_natCast,
    hMagnitude, Int.cast_mul, hWhole, hUnit]
  cases s
  · simp only [under, neg_mul]
  · rfl

/- A whole number and a half, in units of 2 ^ -53. -/
theorem half_in_units (v : Int) :
    v * 2 ^ 53 + Sign.positive.apply (2 ^ 52 : Nat) =
      (2 * v + 1) * 2 ^ 52 := by
  change v * 2 ^ 53 + 2 ^ 52 = _
  ring

theorem nearest_half_in_units (v : Int) :
    (nearest (2 * v + 1) / 2 : ℚ) =
      nearest ((2 * v + 1) * 2 ^ 52) * 2 ^ (-53 : Int) := by
  rw [nearest_mul_two_pow]
  push_cast
  norm_num
  ring

/-
  A half added to a whole number is rounded: the sum is half
  of an odd integer that is rounded to 53 bits.
-/
theorem value?_add_half
    {x : Float}
    {v : Int}
    (hX : value? x = some (v : ℚ))
    (hRange : (2 * v + 1).natAbs.log2 ≤ 900) :
    value? (x + 0.5) = some (nearest (2 * v + 1) / 2 : ℚ) := by
  have hForm := canonical_unpack x.toModel
  have hStands := value?_eq_some_iff.mp hX
  have hAdd :
      x + 0.5 =
        Float.ofModel (Model.pack
          (add .binary64 x.toModel.unpack
            (0.5 : Float).toModel.unpack)) :=
    rfl
  rw [hAdd, unpack_half]
  generalize x.toModel.unpack = u at *
  cases u with
  | notANumber => cases hStands
  | infinity s => cases hStands
  | zero s =>
      generalize hV : (v : ℚ) = p at *
      cases hStands
      have hZero : v = 0 := by exact_mod_cast hV
      have hOne : nearest (2 * 0 + 1) = 1 := by decide
      rw [hZero, hOne, Int.cast_one]
      exact value?_pack canonical_half stands_half
  | finite s m e hPos =>
      have hWhole := hStands.eq_under
      have hAbs : |(v : ℚ)| = m * 2 ^ e := by
        have hSome : (0 : ℚ) < m * 2 ^ e := by positivity
        rw [hWhole]
        cases s <;> simp [under, abs_of_pos hSome]
      have hLeast := exponent_of_whole hForm.1 hPos hAbs
      have hMin : min e (-53) = -53 := by omega
      have hLog :
          ((2 * v + 1) * 2 ^ 52).natAbs.log2 =
            (2 * v + 1).natAbs.log2 + 52 := by
        rw [Int.natAbs_mul, Int.natAbs_pow]
        exact log2_mul_two_pow (by omega) 52
      have hSpec :=
        normalize_spec (n := (2 * v + 1) * 2 ^ 52) (e := -53)
          .positive (by decide) (by omega)
      rw [add_finite, hMin, apply_shiftLeft_of_whole hLeast hWhole]
      simp only [sub_self, Int.toNat_zero, Nat.shiftLeft_zero]
      rw [half_in_units, nearest_half_in_units]
      exact value?_pack hSpec.1 hSpec.2

end Double

end Assessment
