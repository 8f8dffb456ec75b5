import Mathlib

/-
  Integers rounded to the precision of doubles.

  A double has a mantissa of 53 bits, so an integer with more
  significant bits has to be rounded: to the nearest integer
  that has no more, and of two that are equally near to the
  one whose last bit is zero. The spacing of these integers
  doubles with each power of two from 2 ^ 53 on.

  Main declarations:
    * `Double.halfEven`, division by a power of two
    * `Double.nearest`, an integer rounded to 53 bits
    * `Double.IsShort`, to have no more than 53 bits
    * `nearest_mono` and `nearest_closest`
    * `nearest_eq_self_iff`
-/

------------------------------------------------------------
-- Division by a Power of Two
------------------------------------------------------------

namespace Assessment

namespace Double

/-
  A number divided by a power of two, to the nearest whole
  number, and in the middle to the even one.
-/
def halfEven (m k : Nat) : Nat :=
  if 2 * (m % 2 ^ k) < 2 ^ k then m / 2 ^ k
  else if 2 * (m % 2 ^ k) = 2 ^ k then
    m / 2 ^ k + m / 2 ^ k % 2
  else m / 2 ^ k + 1

theorem halfEven_zero (m : Nat) : halfEven m 0 = m := by
  simp [halfEven, Nat.mod_one]

theorem div_le_halfEven (m k : Nat) :
    m / 2 ^ k ≤ halfEven m k := by
  unfold halfEven
  split_ifs <;> omega

theorem halfEven_le (m k : Nat) :
    halfEven m k ≤ m / 2 ^ k + 1 := by
  unfold halfEven
  split_ifs <;> omega

/- The quotient that is nearest, or even in the middle. -/
theorem halfEven_eq
    {m k c : Nat}
    (hAbove : 2 * (c * 2 ^ k) ≤ 2 * m + 2 ^ k)
    (hBelow : 2 * m ≤ 2 * (c * 2 ^ k) + 2 ^ k)
    (hEven :
      2 * (c * 2 ^ k) = 2 * m + 2 ^ k ∨
        2 * m = 2 * (c * 2 ^ k) + 2 ^ k → c % 2 = 0) :
    halfEven m k = c := by
  have hUnit : 0 < 2 ^ k := Nat.two_pow_pos k
  have hRest : m % 2 ^ k < 2 ^ k := Nat.mod_lt _ hUnit
  have hSplit : m / 2 ^ k * 2 ^ k + m % 2 ^ k = m :=
    Nat.div_add_mod' m (2 ^ k)
  unfold halfEven
  generalize m / 2 ^ k = q at *
  generalize m % 2 ^ k = r at *
  generalize 2 ^ k = u at *
  -- The quotient is `c` or, if `m` lies below, one less.
  have hCases : c = q ∨ c = q + 1 := by
    have hHigh : c * u < (q + 2) * u := by
      rw [Nat.add_mul]
      omega
    have hLow : q * u < (c + 1) * u := by
      rw [Nat.add_mul]
      omega
    have hHigh' := Nat.lt_of_mul_lt_mul_right hHigh
    have hLow' := Nat.lt_of_mul_lt_mul_right hLow
    omega
  rcases hCases with rfl | rfl
  · split_ifs with hLess hMiddle
    · rfl
    · have hParity := hEven (Or.inr (by omega))
      rw [hParity, Nat.add_zero]
    · omega
  · rw [Nat.add_mul] at hAbove hBelow hEven
    split_ifs with hLess hMiddle
    · omega
    · have hParity := hEven (Or.inl (by omega))
      omega
    · rfl

/- The quotient is at most a half away. -/
theorem halfEven_near (m k : Nat) :
    2 * (halfEven m k * 2 ^ k) ≤ 2 * m + 2 ^ k ∧
      2 * m ≤ 2 * (halfEven m k * 2 ^ k) + 2 ^ k := by
  have hRest : m % 2 ^ k < 2 ^ k :=
    Nat.mod_lt _ (Nat.two_pow_pos k)
  have hSplit : m / 2 ^ k * 2 ^ k + m % 2 ^ k = m :=
    Nat.div_add_mod' m (2 ^ k)
  unfold halfEven
  generalize m / 2 ^ k = q at *
  generalize m % 2 ^ k = r at *
  generalize 2 ^ k = u at *
  split_ifs with hLess hMiddle
  · omega
  · rcases Nat.mod_two_eq_zero_or_one q with hq | hq
    · rw [hq, Nat.add_zero]
      omega
    · rw [hq, Nat.add_mul]
      omega
  · rw [Nat.add_mul]
    omega

theorem halfEven_mono
    {m n : Nat}
    (k : Nat)
    (hLe : m ≤ n) :
    halfEven m k ≤ halfEven n k := by
  rcases Nat.eq_or_lt_of_le
      (Nat.div_le_div_right (c := 2 ^ k) hLe) with hSame | hLess
  · have hM := Nat.div_add_mod' m (2 ^ k)
    have hN := Nat.div_add_mod' n (2 ^ k)
    unfold halfEven
    rw [hSame] at hM ⊢
    split_ifs <;> omega
  · calc
      halfEven m k ≤ m / 2 ^ k + 1 := halfEven_le m k
      _ ≤ n / 2 ^ k := hLess
      _ ≤ halfEven n k := div_le_halfEven n k

/- What divides leaves nothing to round. -/
theorem halfEven_mul (c k : Nat) :
    halfEven (c * 2 ^ k) k = c := by
  have hUnit : 0 < 2 ^ k := Nat.two_pow_pos k
  apply halfEven_eq <;> omega

------------------------------------------------------------
-- Magnitudes
------------------------------------------------------------

theorem log2_le_of_lt {m k : Nat} (hLt : m < 2 ^ (k + 1)) :
    m.log2 ≤ k := by
  rcases eq_or_ne m 0 with rfl | hPos
  · exact Nat.zero_le k
  · exact Nat.le_of_lt_succ ((Nat.log2_lt hPos).mpr hLt)

/- How many bits a magnitude has beyond 53. -/
def excess (m : Nat) : Nat :=
  m.log2 - 52

/- A magnitude rounded to 53 bits. -/
def rounded (m : Nat) : Nat :=
  halfEven m (excess m) * 2 ^ excess m

theorem rounded_of_excess_eq_zero
    {m : Nat}
    (hShort : excess m = 0) :
    rounded m = m := by
  rw [rounded, hShort, halfEven_zero, Nat.pow_zero, Nat.mul_one]

theorem rounded_of_lt {m : Nat} (hShort : m < 2 ^ 53) :
    rounded m = m := by
  apply rounded_of_excess_eq_zero
  exact Nat.sub_eq_zero_of_le (log2_le_of_lt hShort)

theorem log2_eq_add_excess {m : Nat} (hLong : 52 ≤ m.log2) :
    m.log2 = 52 + excess m := by
  unfold excess
  omega

/- A mantissa that is not rounded yet has 53 bits. -/
theorem div_bounds {m : Nat} (hLong : 52 ≤ m.log2) :
    2 ^ 52 ≤ m / 2 ^ excess m ∧ m / 2 ^ excess m < 2 ^ 53 := by
  have hPos : m ≠ 0 := by
    rintro rfl
    exact absurd hLong (by decide)
  obtain ⟨hLow, hHigh⟩ :=
    (Nat.log2_eq_iff hPos).mp (log2_eq_add_excess hLong)
  rw [Nat.pow_add] at hLow
  rw [Nat.add_right_comm, Nat.pow_add] at hHigh
  exact ⟨(Nat.le_div_iff_mul_le (Nat.two_pow_pos _)).mpr hLow,
    (Nat.div_lt_iff_lt_mul (Nat.two_pow_pos _)).mpr hHigh⟩

/- A mantissa that has been rounded may have one bit more. -/
theorem halfEven_bounds {m : Nat} (hLong : 52 ≤ m.log2) :
    2 ^ 52 ≤ halfEven m (excess m) ∧
      halfEven m (excess m) ≤ 2 ^ 53 := by
  obtain ⟨hLow, hHigh⟩ := div_bounds hLong
  have hAbove := div_le_halfEven m (excess m)
  have hBelow := halfEven_le m (excess m)
  omega

/- Rounding stays between two powers of two. -/
theorem rounded_bounds {m : Nat} (hPos : m ≠ 0) :
    2 ^ m.log2 ≤ rounded m ∧ rounded m ≤ 2 ^ (m.log2 + 1) := by
  rcases Nat.lt_or_ge m.log2 52 with hShort | hLong
  · rw [rounded_of_excess_eq_zero (by unfold excess; omega)]
    exact ⟨Nat.log2_self_le hPos, Nat.le_of_lt Nat.lt_log2_self⟩
  · obtain ⟨hLow, hHigh⟩ := halfEven_bounds hLong
    rw [log2_eq_add_excess hLong, Nat.add_right_comm,
      Nat.pow_add, Nat.pow_add]
    exact ⟨Nat.mul_le_mul_right _ hLow,
      Nat.mul_le_mul_right _ hHigh⟩

theorem rounded_mono {m n : Nat} (hLe : m ≤ n) :
    rounded m ≤ rounded n := by
  rcases Nat.eq_zero_or_pos m with rfl | hPos
  · exact Nat.zero_le _
  have hM : m ≠ 0 := by omega
  have hN : n ≠ 0 := by omega
  have hLog : m.log2 ≤ n.log2 :=
    (Nat.le_log2 hN).mpr
      (Nat.le_trans (Nat.log2_self_le hM) hLe)
  rcases Nat.eq_or_lt_of_le hLog with hSame | hLess
  · have hExcess : excess m = excess n := by
      rw [excess, excess, hSame]
    rw [rounded, rounded, hExcess]
    exact Nat.mul_le_mul_right _ (halfEven_mono _ hLe)
  · calc
      rounded m ≤ 2 ^ (m.log2 + 1) := (rounded_bounds hM).2
      _ ≤ 2 ^ n.log2 := Nat.pow_le_pow_right (by omega) hLess
      _ ≤ rounded n := (rounded_bounds hN).1

/- What has at most 53 bits before its zeros is kept. -/
theorem rounded_of_dvd
    {m : Nat}
    (hDivides : 2 ^ excess m ∣ m) :
    rounded m = m := by
  have hQuotient : m / 2 ^ excess m * 2 ^ excess m = m :=
    Nat.div_mul_cancel hDivides
  have hSame :=
    halfEven_mul (m / 2 ^ excess m) (excess m)
  rw [hQuotient] at hSame
  rw [rounded, hSame, hQuotient]

theorem log2_mul_two_pow {m : Nat} (hPos : m ≠ 0) (j : Nat) :
    (m * 2 ^ j).log2 = m.log2 + j := by
  have hUnit : 0 < 2 ^ j := Nat.two_pow_pos j
  rw [Nat.log2_eq_iff (Nat.mul_ne_zero hPos hUnit.ne'),
    Nat.add_right_comm, Nat.pow_add, Nat.pow_add]
  exact ⟨Nat.mul_le_mul_right _ (Nat.log2_self_le hPos),
    Nat.mul_lt_mul_of_pos_right Nat.lt_log2_self hUnit⟩

/- Zeros behind a magnitude stay behind it. -/
theorem rounded_mul_two_pow (m j : Nat) :
    rounded (m * 2 ^ j) = rounded m * 2 ^ j := by
  rcases eq_or_ne m 0 with rfl | hPos
  · simp [rounded, excess, halfEven]
  by_cases hShort : excess m = 0
  · rw [rounded_of_excess_eq_zero hShort]
    apply rounded_of_dvd
    refine Dvd.dvd.mul_left (Nat.pow_dvd_pow 2 ?_) m
    unfold excess at hShort ⊢
    rw [log2_mul_two_pow hPos]
    omega
  · have hExcess : excess (m * 2 ^ j) = excess m + j := by
      unfold excess at hShort ⊢
      rw [log2_mul_two_pow hPos]
      omega
    have hUnit : 0 < 2 ^ j := Nat.two_pow_pos j
    have hSame :
        halfEven (m * 2 ^ j) (excess m + j) =
          halfEven m (excess m) := by
      unfold halfEven
      rw [Nat.pow_add, Nat.mul_mod_mul_right,
        Nat.mul_div_mul_right _ _ hUnit, ← Nat.mul_assoc]
      simp only [Nat.mul_lt_mul_right hUnit,
        Nat.mul_left_inj hUnit.ne']
    rw [rounded, rounded, hExcess, hSame, Nat.pow_add,
      Nat.mul_assoc]

/- No multiple of the spacing is nearer than the rounded one. -/
theorem rounded_near_multiple (m c : Nat) :
    ((rounded m : Int) - m).natAbs ≤
      ((c * 2 ^ excess m : Nat) - (m : Int)).natAbs := by
  obtain ⟨hAbove, hBelow⟩ := halfEven_near m (excess m)
  unfold rounded
  generalize halfEven m (excess m) = h at *
  generalize 2 ^ excess m = u at *
  rcases Nat.lt_trichotomy c h with hLess | rfl | hMore
  · have hStep : (c + 1) * u ≤ h * u :=
      Nat.mul_le_mul_right u hLess
    rw [Nat.add_mul] at hStep
    omega
  · exact Nat.le_refl _
  · have hStep : (h + 1) * u ≤ c * u :=
      Nat.mul_le_mul_right u hMore
    rw [Nat.add_mul] at hStep
    omega

------------------------------------------------------------
-- Integers of 53 Bits
------------------------------------------------------------

/- An integer has at most 53 bits, apart from zeros behind. -/
def IsShort (n : Int) : Prop :=
  ∃ (m : Int) (k : Nat), m.natAbs < 2 ^ 53 ∧ n = m * 2 ^ k

theorem isShort_iff_dvd (n : Int) :
    IsShort n ↔ 2 ^ excess n.natAbs ∣ n.natAbs := by
  constructor
  · rintro ⟨m, k, hSmall, rfl⟩
    rw [Int.natAbs_mul, Int.natAbs_pow]
    change 2 ^ excess (m.natAbs * 2 ^ k) ∣ m.natAbs * 2 ^ k
    have hExcess : excess (m.natAbs * 2 ^ k) ≤ k := by
      rcases Nat.eq_zero_or_pos (m.natAbs * 2 ^ k) with hZero | hPos
      · rw [hZero]
        exact Nat.zero_le _
      · have hLog : (m.natAbs * 2 ^ k).log2 < 53 + k := by
          rw [Nat.log2_lt (by omega), Nat.pow_add]
          exact Nat.mul_lt_mul_of_pos_right hSmall
            (Nat.two_pow_pos k)
        unfold excess
        omega
    exact Dvd.dvd.mul_left (Nat.pow_dvd_pow 2 hExcess) _
  · intro hDivides
    have hQuotient :
        n.natAbs / 2 ^ excess n.natAbs * 2 ^ excess n.natAbs =
          n.natAbs :=
      Nat.div_mul_cancel hDivides
    have hSmall : n.natAbs / 2 ^ excess n.natAbs < 2 ^ 53 := by
      rcases Nat.lt_or_ge n.natAbs.log2 52 with hShort | hLong
      · refine Nat.lt_of_le_of_lt (Nat.div_le_self _ _)
          (Nat.lt_of_lt_of_le Nat.lt_log2_self
            (Nat.pow_le_pow_right (by decide) ?_))
        omega
      · exact (div_bounds hLong).2
    generalize n.natAbs / 2 ^ excess n.natAbs = c at *
    generalize excess n.natAbs = k at *
    refine ⟨n.sign * c, k, ?_, ?_⟩
    · rw [Int.natAbs_mul, Int.natAbs_natCast]
      refine Nat.lt_of_le_of_lt ?_ hSmall
      rcases n.sign_trichotomy with h | h | h <;> simp [h]
    · calc
        n = n.sign * (n.natAbs : Int) :=
          (Int.sign_mul_natAbs n).symm
        _ = n.sign * c * 2 ^ k := by
          rw [← hQuotient]
          push_cast
          ring

instance (n : Int) : Decidable (IsShort n) :=
  decidable_of_iff _ (isShort_iff_dvd n).symm

theorem IsShort.neg {n : Int} (hShort : IsShort n) :
    IsShort (-n) := by
  obtain ⟨m, k, hSmall, rfl⟩ := hShort
  exact ⟨-m, k, by rwa [Int.natAbs_neg], by ring⟩

/- Up to 2 ^ 53 all integers are short. -/
theorem isShort_of_natAbs_le
    {n : Int}
    (hSmall : n.natAbs ≤ 2 ^ 53) :
    IsShort n := by
  rcases Nat.eq_or_lt_of_le hSmall with hEnd | hLess
  · refine ⟨n.sign, 53, ?_, ?_⟩
    · rcases n.sign_trichotomy with h | h | h <;> simp [h]
    · have hSplit := Int.sign_mul_natAbs n
      rw [hEnd] at hSplit
      exact hSplit.symm
  · exact ⟨n, 0, hLess, by simp⟩

theorem isShort_two_pow (k : Nat) : IsShort (2 ^ k) :=
  ⟨1, k, by decide, by simp⟩

------------------------------------------------------------
-- Nearest Integers
------------------------------------------------------------

/- An integer rounded to 53 bits. -/
def nearest (n : Int) : Int :=
  if n < 0 then -(rounded n.natAbs : Int) else rounded n.natAbs

theorem nearest_natCast (m : Nat) :
    nearest m = rounded m := by
  rw [nearest, if_neg (by omega), Int.natAbs_natCast]

theorem nearest_neg (n : Int) : nearest (-n) = -nearest n := by
  unfold nearest
  rw [Int.natAbs_neg]
  rcases lt_trichotomy n 0 with hNeg | rfl | hPos
  · rw [if_neg (by omega), if_pos hNeg, neg_neg]
  · decide
  · rw [if_pos (by omega), if_neg (by omega)]

theorem nearest_mul_two_pow (n : Int) (j : Nat) :
    nearest (n * 2 ^ j) = nearest n * 2 ^ j := by
  induction n using Int.negInduction with
  | neg ih m =>
      rw [neg_mul, nearest_neg, nearest_neg, ih, neg_mul]
  | nat m =>
      have hCast : (m : Int) * 2 ^ j = (m * 2 ^ j : Nat) := by
        push_cast
        rfl
      rw [hCast, nearest_natCast, nearest_natCast,
        rounded_mul_two_pow]
      push_cast
      rfl

theorem isShort_nearest (n : Int) : IsShort (nearest n) := by
  induction n using Int.negInduction with
  | neg ih m =>
      rw [nearest_neg]
      exact (ih m).neg
  | nat m =>
      rw [nearest_natCast]
      rcases Nat.lt_or_ge m.log2 52 with hFew | hLong
      · have hShort : excess m = 0 := by
          unfold excess
          omega
        rw [rounded_of_excess_eq_zero hShort, isShort_iff_dvd,
          Int.natAbs_natCast, hShort]
        exact Nat.one_dvd m
      · obtain ⟨-, hHigh⟩ := halfEven_bounds hLong
        -- A mantissa of 54 bits is a power of two.
        obtain ⟨c, j, hSmall, hC⟩ :=
          isShort_of_natAbs_le
            (n := (halfEven m (excess m) : Int)) (by simpa)
        refine ⟨c, j + excess m, hSmall, ?_⟩
        rw [rounded, Nat.cast_mul, hC]
        push_cast
        ring

theorem nearest_eq_self_iff (n : Int) :
    nearest n = n ↔ IsShort n := by
  constructor
  · intro hSame
    rw [← hSame]
    exact isShort_nearest n
  · intro hShort
    have hRounded : rounded n.natAbs = n.natAbs :=
      rounded_of_dvd ((isShort_iff_dvd n).mp hShort)
    unfold nearest
    split_ifs <;> omega

theorem nearest_mono {a b : Int} (hLe : a ≤ b) :
    nearest a ≤ nearest b := by
  unfold nearest
  split_ifs with hA hB hB
  · have hAbs : b.natAbs ≤ a.natAbs := by omega
    have := rounded_mono hAbs
    omega
  · omega
  · omega
  · have hAbs : a.natAbs ≤ b.natAbs := by omega
    have := rounded_mono hAbs
    omega

/- What is rounded to less than 2 ^ 53 has not been changed. -/
theorem nearest_eq_self_of_small
    {n : Int}
    (hSmall : (nearest n).natAbs < 2 ^ 53) :
    nearest n = n := by
  have hEnd :=
    (nearest_eq_self_iff (2 ^ 53)).mpr (isShort_two_pow 53)
  have hHigh : n < 2 ^ 53 := by
    by_contra hNot
    have hMono := nearest_mono (not_lt.mp hNot)
    omega
  have hLow : -2 ^ 53 < n := by
    by_contra hNot
    have hMono := nearest_mono (not_lt.mp hNot)
    rw [nearest_neg] at hMono
    omega
  exact (nearest_eq_self_iff n).mpr
    (isShort_of_natAbs_le (by omega))

/- No integer of 53 bits is nearer than the rounded one. -/
theorem nearest_closest
    (n : Int)
    {v : Int}
    (hShort : IsShort v) :
    (nearest n - n).natAbs ≤ (v - n).natAbs := by
  induction n using Int.negInduction generalizing v with
  | neg ih m =>
      have hNear := ih m hShort.neg
      rw [nearest_neg]
      omega
  | nat m =>
      rw [nearest_natCast]
      -- Below zero, zero itself is nearer.
      by_cases hV : v < 0
      · have hZero := rounded_near_multiple m 0
        omega
      obtain ⟨w, rfl⟩ := Int.eq_ofNat_of_zero_le (not_lt.mp hV)
      rw [isShort_iff_dvd, Int.natAbs_natCast] at hShort
      by_cases hFine : excess m ≤ excess w
      · obtain ⟨c, hC⟩ :=
          Nat.dvd_trans (Nat.pow_dvd_pow 2 hFine) hShort
        have hNear := rounded_near_multiple m c
        rwa [Nat.mul_comm, ← hC] at hNear
      -- Where `w` has a finer spacing, a power of two lies
      -- between `w` and `m`.
      · have hM : m ≠ 0 := by
          rintro rfl
          exact hFine (Nat.zero_le _)
        have hLow : 2 ^ 52 * 2 ^ excess m ≤ m := by
          rw [← Nat.pow_add]
          refine (Nat.le_log2 hM).mp ?_
          unfold excess at hFine ⊢
          omega
        have hHigh : w < 2 ^ 52 * 2 ^ excess m := by
          rcases Nat.eq_zero_or_pos w with rfl | hW
          · positivity
          · rw [← Nat.pow_add, ← Nat.log2_lt (by omega)]
            unfold excess at hFine ⊢
            omega
        have hNear := rounded_near_multiple m (2 ^ 52)
        omega

end Double

end Assessment
