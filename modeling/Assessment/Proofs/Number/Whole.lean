import Assessment.Expression.Arithmetic
import Assessment.Proofs.Number.Rounding
import Mathlib

/-
  Whole numbers of doubles, and integers of 64 bits.

  Operators on integers compute with integers of any size and
  answer with one of 64 bits, or with NULL if the result has
  more.

  To drop the fraction of a double, or to take the next whole
  number below or above, is exact, and so is the conversion
  to a 64-bit integer, but for one double: 2 ^ 63 counts as
  the largest integer. An integer that has been a double is
  therefore the nearest one with 53 bits, and not more than
  the largest.

  Main declarations:
    * `FitsInt64`, to have 64 bits
    * `int64?_eq`
    * `Value.ofInteger`, an integer or else NULL
    * `integers?_map_integer`
    * `Double.value?_floor`, `value?_truncate_of_whole` and
      `value?_ceil_of_whole`
    * `Double.toInt64?_of_whole`
    * `Double.restored`, an integer that has been a double
    * `Double.toInt64?_floor_add_half`
-/

------------------------------------------------------------
-- The Range
------------------------------------------------------------

namespace Assessment

/- An integer has 64 bits. -/
def FitsInt64 (n : Int) : Prop :=
  -2 ^ 63 ≤ n ∧ n < 2 ^ 63

instance (n : Int) : Decidable (FitsInt64 n) :=
  inferInstanceAs (Decidable (_ ∧ _))

theorem fitsInt64_toInt (n : Int64) : FitsInt64 n.toInt :=
  ⟨n.le_toInt, n.toInt_lt⟩

theorem FitsInt64.toInt_ofInt {n : Int} (hFits : FitsInt64 n) :
    (Int64.ofInt n).toInt = n :=
  Int64.toInt_ofInt_of_le hFits.1 hFits.2

namespace Binary64

theorem int64?_eq (n : Int) :
    int64? n =
      if FitsInt64 n then some (Int64.ofInt n) else none := by
  unfold int64? FitsInt64 twoTo
  rw [Nat.pow_eq]
  push_cast
  rfl

theorem int64?_of_fits {n : Int} (hFits : FitsInt64 n) :
    int64? n = some (Int64.ofInt n) := by
  rw [int64?_eq, if_pos hFits]

theorem int64?_of_not_fits {n : Int} (hOut : ¬FitsInt64 n) :
    int64? n = none := by
  rw [int64?_eq, if_neg hOut]

end Binary64

/- An integer as a value, NULL if it has more than 64 bits. -/
def Value.ofInteger (n : Int) : Value :=
  if FitsInt64 n then .integer (Int64.ofInt n) else .null

theorem Value.ofInteger_toInt (n : Int64) :
    ofInteger n.toInt = .integer n := by
  rw [ofInteger, if_pos (fitsInt64_toInt n), Int64.ofInt_toInt]

theorem Value.ofInt64?_int64? (n : Int) :
    ofInt64? (Binary64.int64? n) = ofInteger n := by
  rw [Binary64.int64?_eq, ofInteger]
  split_ifs <;> rfl

------------------------------------------------------------
-- Operands
------------------------------------------------------------

namespace Arithmetic

theorem integers?_map_integer (ns : List Int64) :
    integers? (ns.map Value.integer) = some ns := by
  induction ns with
  | nil => rfl
  | cons n rest ih =>
      rw [List.map_cons, integers?, ih]
      rfl

end Arithmetic

------------------------------------------------------------
-- Whole Parts
------------------------------------------------------------

namespace Double

/- The whole part of a magnitude, and whether it is all. -/
theorem wholePart_spec (m : Nat) (e : Int) :
    ((Binary64.wholePart m e).1 : ℚ) ≤ m * 2 ^ e ∧
      (m : ℚ) * 2 ^ e < (Binary64.wholePart m e).1 + 1 ∧
        ((Binary64.wholePart m e).2 = true ↔
          ((Binary64.wholePart m e).1 : ℚ) = m * 2 ^ e) := by
  unfold Binary64.wholePart twoTo
  split_ifs with hSign
  · obtain ⟨k, rfl⟩ := Int.eq_ofNat_of_zero_le hSign
    have hCast :
        ((m * 2 ^ k : Nat) : ℚ) = m * 2 ^ (k : Int) := by
      push_cast
      rw [zpow_natCast]
    simp only [Int.toNat_natCast, Nat.pow_eq]
    rw [hCast]
    exact ⟨le_rfl, lt_add_one _, by simp⟩
  · obtain ⟨k, rfl⟩ : ∃ k : Nat, e = -k :=
      ⟨(-e).toNat, by omega⟩
    have hUnit : 0 < 2 ^ k := Nat.two_pow_pos k
    have hUnit' : (0 : ℚ) < (2 ^ k : Nat) := by exact_mod_cast hUnit
    have hQuotient :
        (m : ℚ) * 2 ^ (-(k : Int)) = m / (2 ^ k : Nat) := by
      rw [zpow_neg, zpow_natCast, div_eq_mul_inv]
      push_cast
      rfl
    have hSplit := Nat.div_add_mod' m (2 ^ k)
    have hRest := Nat.mod_lt m hUnit
    simp only [neg_neg, Int.toNat_natCast, Nat.pow_eq, beq_iff_eq]
    rw [hQuotient, le_div_iff₀ hUnit', div_lt_iff₀ hUnit',
      eq_div_iff hUnit'.ne']
    norm_cast
    refine ⟨by omega, ?_, by omega⟩
    rw [Nat.add_mul]
    omega

/- A finite double has a sign, a mantissa and an exponent. -/
theorem exact_of_value
    {x : Float}
    {q : ℚ}
    (hX : value? x = some q) :
    ∃ negative m e,
      Binary64.exact x = .finite negative m e ∧
        q = signed negative m e := by
  unfold value? valueOf at hX
  split at hX
  next negative m e hExact =>
    exact ⟨negative, m, e, hExact, (Option.some_inj.mp hX).symm⟩
  next => cases hX

/- A whole magnitude as an integer under a sign. -/
def wholeOf (negative : Bool) (n : Nat) : Int :=
  if negative then -n else n

theorem natAbs_wholeOf (negative : Bool) (n : Nat) :
    (wholeOf negative n).natAbs = n := by
  cases negative <;> simp [wholeOf]

theorem value?_ofWhole
    {n : Nat}
    (negative : Bool)
    (hRange : n.log2 ≤ 1000) :
    value? (Binary64.ofWhole negative n) =
      some (nearest (wholeOf negative n) : ℚ) := by
  have hNat := value?_ofNat hRange
  cases negative with
  | false =>
      have hSame : nearest (wholeOf false n) = rounded n :=
        nearest_natCast n
      rw [hSame, Int.cast_natCast]
      exact hNat
  | true =>
      have hSame : nearest (wholeOf true n) = -rounded n :=
        (nearest_neg n).trans (congrArg _ (nearest_natCast n))
      rw [hSame, Int.cast_neg, Int.cast_natCast]
      exact value?_neg hNat

------------------------------------------------------------
-- Floors
------------------------------------------------------------

theorem floor_signed (negative : Bool) (m : Nat) (e : Int) :
    ⌊signed negative m e⌋ =
      wholeOf negative
        (if negative && !(Binary64.wholePart m e).2 then
          (Binary64.wholePart m e).1 + 1
        else (Binary64.wholePart m e).1) := by
  obtain ⟨hLow, hHigh, hWhole⟩ := wholePart_spec m e
  generalize Binary64.wholePart m e = part at *
  obtain ⟨n, whole⟩ := part
  dsimp only at hLow hHigh hWhole ⊢
  unfold signed wholeOf
  rw [Int.floor_eq_iff]
  cases negative with
  | false => exact ⟨hLow, hHigh⟩
  | true =>
      cases whole with
      | true =>
          have hSame := hWhole.mp rfl
          simp only [Bool.not_true, Bool.and_false,
            Bool.false_eq_true, if_true, if_false,
            Int.cast_neg, Int.cast_natCast]
          exact ⟨by linarith, by linarith⟩
      | false =>
          have hLess : (n : ℚ) < m * 2 ^ e :=
            lt_of_le_of_ne hLow (by simpa using hWhole)
          simp only [Bool.not_false, Bool.and_true, if_true,
            Int.cast_neg, Nat.cast_add, Nat.cast_one, Int.cast_add,
            Int.cast_one, Int.cast_natCast]
          exact ⟨by linarith, by linarith⟩

/- The greatest whole number that is not above, rounded. -/
theorem value?_floor
    {x : Float}
    {q : ℚ}
    (hX : value? x = some q)
    (hRange : ⌊q⌋.natAbs.log2 ≤ 1000) :
    value? (Binary64.floor x) = some (nearest ⌊q⌋ : ℚ) := by
  obtain ⟨negative, m, e, hExact, rfl⟩ := exact_of_value hX
  rw [floor_signed, natAbs_wholeOf] at hRange
  unfold Binary64.floor
  rw [hExact, floor_signed]
  exact value?_ofWhole negative hRange

------------------------------------------------------------
-- Doubles That Are Whole
------------------------------------------------------------

variable {x : Float} {v : Int}

/- A whole number has all of itself as its whole part. -/
theorem wholePart_of_whole (hX : value? x = some (v : ℚ)) :
    ∃ negative m e,
      Binary64.exact x = .finite negative m e ∧
        Binary64.wholePart m e = (v.natAbs, true) ∧
          wholeOf negative v.natAbs = v := by
  obtain ⟨negative, m, e, hExact, hV⟩ := exact_of_value hX
  obtain ⟨hLow, hHigh, hWhole⟩ := wholePart_spec m e
  have hAbs : (v.natAbs : ℚ) = m * 2 ^ e := by
    have hMagnitude : (0 : ℚ) ≤ m * 2 ^ e := by positivity
    calc
      (v.natAbs : ℚ) = |(v : ℚ)| := by
        rw [Nat.cast_natAbs, Int.cast_abs]
      _ = |signed negative m e| := by rw [hV]
      _ = m * 2 ^ e := by
        cases negative with
        | false => exact abs_of_nonneg hMagnitude
        | true => exact (abs_neg _).trans (abs_of_nonneg hMagnitude)
  have hFirst : (Binary64.wholePart m e).1 = v.natAbs := by
    rw [← hAbs] at hLow hHigh
    have hBelow : (Binary64.wholePart m e).1 ≤ v.natAbs := by
      exact_mod_cast hLow
    have hAbove : v.natAbs < (Binary64.wholePart m e).1 + 1 := by
      exact_mod_cast hHigh
    omega
  have hSecond : (Binary64.wholePart m e).2 = true := by
    rw [hWhole, hFirst, hAbs]
  refine ⟨negative, m, e, hExact, Prod.ext hFirst hSecond, ?_⟩
  have hCast : (wholeOf negative v.natAbs : ℚ) = v := by
    rw [hV, signed, ← hAbs]
    cases negative with
    | false => exact Int.cast_natCast _
    | true =>
        exact (Int.cast_neg _).trans
          (congrArg _ (Int.cast_natCast _))
  exact_mod_cast hCast

theorem value?_truncate_of_whole
    (hX : value? x = some (v : ℚ))
    (hRange : v.natAbs.log2 ≤ 1000) :
    value? (Binary64.truncate x) = some (nearest v : ℚ) := by
  obtain ⟨negative, m, e, hExact, hPart, hV⟩ :=
    wholePart_of_whole hX
  unfold Binary64.truncate
  rw [hExact]
  dsimp only
  rw [hPart, value?_ofWhole negative hRange, hV]

theorem value?_ceil_of_whole
    (hX : value? x = some (v : ℚ))
    (hRange : v.natAbs.log2 ≤ 1000) :
    value? (Binary64.ceil x) = some (nearest v : ℚ) := by
  obtain ⟨negative, m, e, hExact, hPart, hV⟩ :=
    wholePart_of_whole hX
  unfold Binary64.ceil
  rw [hExact]
  dsimp only
  rw [hPart]
  simp only [Bool.not_true, Bool.and_false, Bool.false_eq_true,
    if_false]
  rw [value?_ofWhole negative hRange, hV]

/-
  The 64-bit integer of a whole double is that integer, if
  there is one, but 2 ^ 63 counts as the largest.
-/
theorem toInt64?_of_whole (hX : value? x = some (v : ℚ)) :
    Binary64.toInt64? x =
      if v = 2 ^ 63 then some Int64.maxValue
      else Binary64.int64? v := by
  obtain ⟨negative, m, e, hExact, hPart, hV⟩ :=
    wholePart_of_whole hX
  unfold Binary64.toInt64? Binary64.int64? twoTo
  rw [hExact]
  dsimp only
  rw [hPart, Nat.pow_eq]
  dsimp only
  generalize v.natAbs = n at *
  cases negative with
  | true =>
      have hNeg : v = -(n : Int) := hV.symm
      subst hNeg
      simp only [if_true]
      push_cast
      split_ifs <;> first | rfl | omega
  | false =>
      have hPos : v = (n : Int) := hV.symm
      subst hPos
      simp only [Bool.false_eq_true, if_false, beq_iff_eq]
      push_cast
      split_ifs <;> first | rfl | omega

------------------------------------------------------------
-- Integers Through Doubles
------------------------------------------------------------

/- Rounding to 53 bits stays between the ends of 64 bits. -/
theorem nearest_toInt_bounds (n : Int64) :
    -2 ^ 63 ≤ nearest n.toInt ∧ nearest n.toInt ≤ 2 ^ 63 := by
  have hEnd :=
    (nearest_eq_self_iff (2 ^ 63)).mpr (isShort_two_pow 63)
  constructor
  · calc
      -2 ^ 63 = -nearest (2 ^ 63) := by rw [hEnd]
      _ = nearest (-2 ^ 63) := (nearest_neg _).symm
      _ ≤ nearest n.toInt := nearest_mono n.le_toInt
  · calc
      nearest n.toInt ≤ nearest (2 ^ 63) :=
        nearest_mono (Int.le_of_lt n.toInt_lt)
      _ = 2 ^ 63 := hEnd

/- An integer that has been a double. -/
def restored (n : Int64) : Int64 :=
  Int64.ofInt (min (nearest n.toInt) (2 ^ 63 - 1))

theorem toInt_restored (n : Int64) :
    (restored n).toInt = min (nearest n.toInt) (2 ^ 63 - 1) := by
  have hBounds := nearest_toInt_bounds n
  apply Int64.toInt_ofInt_of_le <;> omega

/- What survives is what has 53 bits, and the largest integer. -/
theorem restored_eq_self_iff (n : Int64) :
    restored n = n ↔ IsShort n.toInt ∨ n = Int64.maxValue := by
  have hBounds := nearest_toInt_bounds n
  have hHigh := n.toInt_lt
  rw [← Int64.toInt_inj, toInt_restored, ← nearest_eq_self_iff,
    ← Int64.toInt_inj, Int64.toInt_maxValue]
  constructor
  · intro hSame
    omega
  · rintro (hSame | hMax)
    · omega
    · -- The largest integer goes to 2 ^ 63 and comes back.
      have hUp : nearest (2 ^ 63 - 1) = 2 ^ 63 := by decide
      rw [hMax, hUp]
      rfl

theorem toInt64?_of_nearest
    {n : Int64}
    (hX : value? x = some (nearest n.toInt : ℚ)) :
    Binary64.toInt64? x = some (restored n) := by
  have hBounds := nearest_toInt_bounds n
  rw [toInt64?_of_whole hX, restored]
  split_ifs with hEnd
  · rw [hEnd]
    rfl
  · rw [Binary64.int64?_of_fits ⟨hBounds.1, by omega⟩,
      min_eq_left (by omega)]

------------------------------------------------------------
-- Halves Above Whole Numbers
------------------------------------------------------------

/- An odd integer of 54 bits goes to a multiple of four. -/
theorem rounded_odd
    {m : Nat}
    (hLow : 2 ^ 52 ≤ m)
    (hHigh : m < 2 ^ 53) :
    rounded (2 * m + 1) = 2 * (m + m % 2) := by
  have hLog : (2 * m + 1).log2 = 53 := by
    rw [Nat.log2_eq_iff (by omega)]
    omega
  have hExcess : excess (2 * m + 1) = 1 := by
    rw [excess, hLog]
  have hHalf : halfEven (2 * m + 1) 1 = m + m % 2 := by
    unfold halfEven
    rw [if_neg (by omega), if_pos (by omega)]
    omega
  rw [rounded, hExcess, hHalf]
  omega

theorem nearest_odd
    {v : Int}
    (hLow : 2 ^ 53 < (2 * v + 1).natAbs)
    (hHigh : (2 * v + 1).natAbs < 2 ^ 54) :
    nearest (2 * v + 1) = 2 * (v + v % 2) := by
  rcases lt_or_ge v 0 with hNeg | hPos
  · have hAbs :
        (2 * v + 1).natAbs = 2 * (-v - 1).toNat + 1 := by
      omega
    have hRounded :=
      rounded_odd (m := (-v - 1).toNat) (by omega) (by omega)
    rw [nearest, if_pos (by omega), hAbs, hRounded]
    omega
  · have hAbs : (2 * v + 1).natAbs = 2 * v.toNat + 1 := by omega
    have hRounded :=
      rounded_odd (m := v.toNat) (by omega) (by omega)
    rw [nearest, if_neg (by omega), hAbs, hRounded]
    omega

theorem IsShort.two_mul {v : Int} (hShort : IsShort v) :
    IsShort (2 * v) := by
  obtain ⟨m, k, hSmall, rfl⟩ := hShort
  exact ⟨m, k + 1, hSmall, by ring⟩

/- A large integer of 53 bits has zeros behind. -/
theorem IsShort.dvd
    {v : Int}
    {k : Nat}
    (hShort : IsShort v)
    (hLarge : 2 ^ (52 + k) ≤ v.natAbs) :
    (2 : Int) ^ k ∣ v := by
  have hPos : v.natAbs ≠ 0 := by
    have hPower := Nat.two_pow_pos (52 + k)
    omega
  have hExcess : k ≤ excess v.natAbs := by
    have hLog := (Nat.le_log2 hPos).mpr hLarge
    unfold excess
    omega
  have hDivides : 2 ^ k ∣ v.natAbs :=
    Nat.dvd_trans (Nat.pow_dvd_pow 2 hExcess)
      ((isShort_iff_dvd v).mp hShort)
  rw [Int.dvd_natAbs.symm]
  exact_mod_cast hDivides

/- Beyond 2 ^ 53 a half is dropped. -/
theorem nearest_half_of_large
    {v : Int}
    (hShort : IsShort v)
    (hLarge : 2 ^ 54 < (2 * v + 1).natAbs) :
    nearest (2 * v + 1) = 2 * v := by
  have hNear := nearest_closest (2 * v + 1) hShort.two_mul
  have hTwo : (2 : Int) ^ 1 ∣ v := hShort.dvd (by omega)
  have hFour : (2 : Int) ^ 2 ∣ nearest (2 * v + 1) :=
    (isShort_nearest _).dvd (by omega)
  omega

/-
  A half above a whole double is kept up to 2 ^ 52. Beyond,
  it is dropped, but for odd numbers below 2 ^ 53: these go
  to the next even one.
-/
theorem floor_nearest_half
    {v : Int}
    (hShort : IsShort v) :
    ⌊(nearest (2 * v + 1) / 2 : ℚ)⌋ =
      if 2 ^ 52 < v.natAbs then v + v % 2 else v := by
  have hFloor (z : Int) : ⌊(z / 2 : ℚ)⌋ = z / 2 :=
    Rat.floor_intCast_div_natCast z 2
  rw [hFloor]
  rcases Nat.lt_or_ge (2 ^ 53) (2 * v + 1).natAbs with
    hLow | hSmall
  · rcases Nat.lt_or_ge (2 ^ 54) (2 * v + 1).natAbs with
      hLarge | hHigh
    · have hTwo : (2 : Int) ^ 1 ∣ v := hShort.dvd (by omega)
      rw [nearest_half_of_large hShort hLarge]
      split_ifs <;> omega
    · rw [nearest_odd hLow (by omega)]
      split_ifs <;> omega
  · rw [(nearest_eq_self_iff _).mpr (isShort_of_natAbs_le hSmall)]
    split_ifs <;> omega

/- A half above an odd integer is no double any more. -/
def LosesHalf (n : Int) : Prop :=
  2 ^ 52 < n.natAbs ∧ n.natAbs < 2 ^ 53 ∧ n % 2 = 1

instance (n : Int) : Decidable (LosesHalf n) :=
  inferInstanceAs (Decidable (_ ∧ _))

/-
  A half above the double of an integer, without its fraction,
  is that double, or the next integer where the half is lost.
-/
theorem floor_half_of_nearest (n : Int) :
    ⌊(nearest (2 * nearest n + 1) / 2 : ℚ)⌋ =
      if LosesHalf n then n + 1 else nearest n := by
  have hShort := isShort_nearest n
  rw [floor_nearest_half hShort]
  unfold LosesHalf
  rcases Nat.lt_or_ge (nearest n).natAbs (2 ^ 53) with
    hSmall | hLarge
  · have hSame := nearest_eq_self_of_small hSmall
    rw [hSame] at hSmall ⊢
    split_ifs <;> omega
  · have hTwo : (2 : Int) ^ 1 ∣ nearest n := hShort.dvd hLarge
    have hMore : 2 ^ 53 ≤ n.natAbs := by
      by_contra hLess
      have hSame : nearest n = n :=
        (nearest_eq_self_iff n).mpr
          (isShort_of_natAbs_le (by omega))
      omega
    split_ifs <;> omega

/-
  What becomes of an integer to which a half is added before
  the fraction is dropped.
-/
def halfUp (n : Int64) : Int64 :=
  if LosesHalf n.toInt then n + 1 else restored n

theorem halfUp_eq_self_iff (n : Int64) :
    halfUp n = n ↔ restored n = n ∧ ¬LosesHalf n.toInt := by
  unfold halfUp
  split_ifs with hLoses
  · have hNext : n + 1 ≠ n := by
      intro hSame
      exact absurd (Int64.add_eq_left.mp hSame) (by decide)
    simp only [hNext, hLoses, not_true, and_false]
  · simp only [hLoses, not_false_eq_true, and_true]

theorem toInt64?_floor_add_half (n : Int64) :
    Binary64.toInt64? (Binary64.floor (Binary64.ofInt64 n + 0.5)) =
      some (halfUp n) := by
  obtain ⟨hLow, hHigh⟩ := nearest_toInt_bounds n
  have hSum :=
    value?_add_half (value?_ofInt64 n)
      (Nat.le_trans (log2_le_of_lt (k := 64) (by omega))
        (by decide))
  have hFloor := value?_floor hSum
  rw [floor_half_of_nearest] at hFloor
  unfold halfUp
  split_ifs at hFloor ⊢ with hLoses
  · obtain ⟨hMore, hLess, -⟩ := hLoses
    have hSame : nearest (n.toInt + 1) = n.toInt + 1 :=
      (nearest_eq_self_iff _).mpr
        (isShort_of_natAbs_le (by omega))
    have hValue :=
      hFloor (Nat.le_trans
        (log2_natAbs_le (by omega) (by omega)) (by decide))
    rw [hSame] at hValue
    rw [toInt64?_of_whole hValue, if_neg (by omega),
      Binary64.int64?_of_fits ⟨by omega, by omega⟩,
      Int64.ofInt_add, Int64.ofInt_toInt]
    rfl
  · have hValue :=
      hFloor (Nat.le_trans (log2_natAbs_le hLow hHigh)
        (by decide))
    rw [(nearest_eq_self_iff _).mpr (isShort_nearest _)] at hValue
    exact toInt64?_of_nearest hValue

end Double

end Assessment
