import Assessment.Expression.Evaluation
import Assessment.Proofs.Number.Whole

/-
  Arithmetic of integers.

  Results of more than 64 bits are NULL, and so are those on
  the way to a result.

  A quotient is rounded down. The machine rounds towards
  zero, so its quotient is lowered by one where the operands
  differ in sign and leave a rest. The rest of the floor is
  the dividend without the divisor times the quotient. It is
  always smaller than the divisor, but neither the quotient
  nor that product need have 64 bits.

  For sums and products operands are combined from the first
  on. If a result on the way has more than 64 bits, the whole
  is NULL, whatever the operands behind would make of it. So
  a result is always exact, but it depends on the order of
  the operands whether there is one.

  Main declarations:
    * `Division.floorQuotient` and `floorRest`
    * `Division.floorSteps` and `modulusSteps`, the
      operations of the machine
    * `Division.floors_exactly`
    * `Folding.PartsFit`, no result on the way is too large
    * `Folding.fold?_within?`
    * `Folding.folds_exactly`
-/

------------------------------------------------------------
-- Floors of Quotients
------------------------------------------------------------

namespace Assessment

namespace Division

theorem floor_div {a b : Int} (hB : b ≠ 0) :
    ⌊(a : ℚ) / b⌋ = a.fdiv b := by
  rcases lt_or_gt_of_ne hB with hNeg | hPos
  · have hFloor := Rat.floor_intCast_div_natCast (-a) (-b).toNat
    have hCast : (((-b).toNat : Int) : ℚ) = -b := by
      rw [Int.toNat_of_nonneg (by omega), Int.cast_neg]
    rw [← Int.cast_natCast, hCast, Int.cast_neg, neg_div_neg_eq]
      at hFloor
    rw [hFloor, ← Int.neg_fdiv_neg,
      Int.fdiv_eq_ediv_of_nonneg _ (by omega),
      Int.toNat_of_nonneg (by omega)]
  · have hFloor := Rat.floor_intCast_div_natCast a b.toNat
    have hCast : ((b.toNat : Int) : ℚ) = b := by
      rw [Int.toNat_of_nonneg (by omega)]
    rw [← Int.cast_natCast, hCast] at hFloor
    rw [hFloor, Int.fdiv_eq_ediv_of_nonneg _ (by omega),
      Int.toNat_of_nonneg (by omega)]

/- The rest lies between zero and the divisor. -/
theorem fmod_bounds {b : Int} (a : Int) (hB : b ≠ 0) :
    0 ≤ a.fmod b ∧ a.fmod b < b ∨
      b < a.fmod b ∧ a.fmod b ≤ 0 := by
  rcases lt_or_gt_of_ne hB with hNeg | hPos
  · have hLow := Int.fmod_nonneg_of_pos (-a) (b := -b) (by omega)
    have hHigh := Int.fmod_lt_of_pos (-a) (b := -b) (by omega)
    rw [Int.neg_fmod_neg] at hLow hHigh
    exact Or.inr (by omega)
  · exact Or.inl
      ⟨Int.fmod_nonneg_of_pos a hPos, Int.fmod_lt_of_pos a hPos⟩

/-
  The floor lies one below the quotient towards zero, if the
  operands differ in sign and leave a rest.
-/
theorem fdiv_eq_lowered {a b : Int} (hB : b ≠ 0) :
    a.fdiv b =
      if a.tmod b ≠ 0 ∧ (a < 0 ↔ ¬b < 0) then a.tdiv b - 1
      else a.tdiv b := by
  have hRest : b ∣ a ↔ a.tmod b = 0 :=
    ⟨Int.tmod_eq_zero_of_dvd, Int.dvd_of_tmod_eq_zero⟩
  simp only [Int.fdiv_eq_tdiv, hRest]
  rcases lt_or_gt_of_ne hB with hNeg | hPos
  · rw [Int.sign_eq_neg_one_of_neg hNeg]
    split_ifs <;> omega
  · rw [Int.sign_eq_one_of_pos hPos]
    split_ifs <;> omega

/- Where there is a rest, the quotient has half of the bits. -/
theorem natAbs_tdiv_le
    {a b : Int}
    (hB : b ≠ 0)
    (hRest : a.tmod b ≠ 0) :
    (a.tdiv b).natAbs ≤ a.natAbs / 2 := by
  have hTwo : 2 ≤ b.natAbs := by
    by_contra hSmall
    have hOne : b.natAbs = 1 := by omega
    exact hRest (Int.tmod_eq_zero_of_dvd
      (Int.natAbs_dvd.mp (hOne ▸ Int.one_dvd a)))
  rw [Int.natAbs_tdiv]
  exact Nat.div_le_div_left hTwo (by decide)

------------------------------------------------------------
-- Quotients and Rests
------------------------------------------------------------

/- The greatest integer that is not above the quotient. -/
def floorQuotient (a b : Int64) : Int :=
  ⌊(a.toInt : ℚ) / b.toInt⌋

/- What the divisor times that integer leaves. -/
def floorRest (a b : Int64) : Int :=
  a.toInt - b.toInt * floorQuotient a b

variable {a b : Int64}

theorem toInt_ne_zero (hB : b ≠ 0) : b.toInt ≠ 0 := by
  rw [← Int64.toInt_zero]
  exact fun hSame => hB (Int64.toInt_inj.mp hSame)

theorem floorQuotient_eq (hB : b ≠ 0) :
    floorQuotient a b = Int.fdiv a.toInt b.toInt :=
  floor_div (toInt_ne_zero hB)

theorem floorRest_eq (hB : b ≠ 0) :
    floorRest a b = Int.fmod a.toInt b.toInt := by
  rw [floorRest, floorQuotient_eq hB, Int.fmod_def]

/- The rest has the sign of the divisor and is smaller. -/
theorem floorRest_bounds (hB : b ≠ 0) :
    (floorRest a b = 0 ∨ (floorRest a b).sign = b.toInt.sign) ∧
      |floorRest a b| < |b.toInt| := by
  rw [floorRest_eq hB]
  rcases fmod_bounds a.toInt (toInt_ne_zero hB) with
    ⟨hLow, hHigh⟩ | ⟨hLow, hHigh⟩
  · rw [abs_of_nonneg hLow, abs_of_pos (by omega)]
    refine ⟨?_, hHigh⟩
    rcases hLow.eq_or_lt with hZero | hPos
    · exact Or.inl hZero.symm
    · rw [Int.sign_eq_one_of_pos hPos,
        Int.sign_eq_one_of_pos (by omega)]
      exact Or.inr rfl
  · rw [abs_of_nonpos hHigh, abs_of_neg (by omega)]
    refine ⟨?_, by omega⟩
    rcases hHigh.eq_or_lt with hZero | hNeg
    · exact Or.inl hZero
    · rw [Int.sign_eq_neg_one_of_neg hNeg,
        Int.sign_eq_neg_one_of_neg (by omega)]
      exact Or.inr rfl

theorem fits_floorRest (hB : b ≠ 0) : FitsInt64 (floorRest a b) := by
  have hFits := fitsInt64_toInt b
  unfold FitsInt64 at hFits ⊢
  rw [floorRest_eq hB]
  rcases fmod_bounds a.toInt (toInt_ne_zero hB) with h | h <;>
    omega

------------------------------------------------------------
-- Machine Operations
------------------------------------------------------------

/- What stops an operation that is not checked. -/
inductive Trap where
  | byZero
  | overflow
deriving DecidableEq, Repr

/- The quotient towards zero, if there is one of 64 bits. -/
def truncated? (a b : Int64) : Option Int64 :=
  if b = 0 then none
  else Binary64.int64? (Int.tdiv a.toInt b.toInt)

/-
  The rest of the quotient towards zero. The operation is not
  checked, and stops without a quotient of 64 bits.
-/
def remainder (a b : Int64) : Except Trap Int64 :=
  if b = 0 then .error .byZero
  else if FitsInt64 (Int.tdiv a.toInt b.toInt) then
    .ok (Int64.ofInt (Int.tmod a.toInt b.toInt))
  else .error .overflow

/- The steps of a division towards the floor. -/
def floorSteps (a b : Int64) : Except Trap (Option Int64) :=
  match truncated? a b with
  | none => .ok none
  | some q => do
      let r ← remainder a b
      if r ≠ 0 ∧ (a < 0 ↔ ¬b < 0) then
        return Arithmetic.subtract? q 1
      else return some q

/- The steps of a modulus. -/
def modulusSteps (a b : Int64) : Except Trap (Option Int64) := do
  let q? ← floorSteps a b
  return q?.bind fun q =>
    (Arithmetic.multiply? b q).bind (Arithmetic.subtract? a)

theorem quotient?_of_ne_zero (hB : b ≠ 0) :
    Arithmetic.quotient? a b =
      Binary64.int64? (Int.fdiv a.toInt b.toInt) := by
  rw [Arithmetic.quotient?, if_neg (by simpa using hB)]

theorem fits_tmod (a : Int64) (hB : b ≠ 0) :
    FitsInt64 (Int.tmod a.toInt b.toInt) := by
  have hLess := Int.natAbs_tmod a.toInt b.toInt
  have hRest : a.toInt.natAbs % b.toInt.natAbs < b.toInt.natAbs :=
    Nat.mod_lt _ (Int.natAbs_pos.mpr (toInt_ne_zero hB))
  have hFits := fitsInt64_toInt b
  unfold FitsInt64 at hFits ⊢
  omega

/- No step stops, and what they come to is the floor. -/
theorem floorSteps_eq (a b : Int64) :
    floorSteps a b = .ok (Arithmetic.quotient? a b) := by
  by_cases hB : b = 0
  · rw [hB]
    rfl
  have hInt := toInt_ne_zero hB
  have hRest :
      Int64.ofInt (Int.tmod a.toInt b.toInt) ≠ 0 ↔
        Int.tmod a.toInt b.toInt ≠ 0 := by
    rw [ne_eq, ← Int64.toInt_inj, (fits_tmod a hB).toInt_ofInt,
      Int64.toInt_zero]
  rw [quotient?_of_ne_zero hB, fdiv_eq_lowered hInt]
  unfold floorSteps truncated? remainder
  rw [if_neg hB]
  by_cases hFits : FitsInt64 (Int.tdiv a.toInt b.toInt)
  · rw [Binary64.int64?_of_fits hFits, if_neg hB, if_pos hFits]
    simp only [Except.bind, bind, hRest, Int64.lt_iff_toInt_lt,
      Int64.toInt_zero]
    split_ifs with hLower
    · rw [Arithmetic.subtract?, hFits.toInt_ofInt]
      rfl
    · rw [Binary64.int64?_of_fits hFits]
      rfl
  · -- A quotient that is lowered is far from the ends.
    have hKept :
        ¬(Int.tmod a.toInt b.toInt ≠ 0 ∧
          (a.toInt < 0 ↔ ¬b.toInt < 0)) := by
      rintro ⟨hSome, -⟩
      have hHalf := natAbs_tdiv_le hInt hSome
      have hRange := fitsInt64_toInt a
      unfold FitsInt64 at hRange hFits
      omega
    rw [if_neg hKept, Binary64.int64?_of_not_fits hFits]

theorem modulusSteps_eq (a b : Int64) :
    modulusSteps a b = .ok (Arithmetic.modulus? a b) := by
  rw [modulusSteps, floorSteps_eq]
  rfl

------------------------------------------------------------
-- Division Operators
------------------------------------------------------------

theorem modulus?_of_ne_zero (hB : b ≠ 0) :
    Arithmetic.modulus? a b =
      if FitsInt64 (floorQuotient a b) ∧
          FitsInt64 (b.toInt * floorQuotient a b) then
        some (Int64.ofInt (floorRest a b))
      else none := by
  unfold Arithmetic.modulus?
  rw [quotient?_of_ne_zero hB, ← floorQuotient_eq hB]
  by_cases hFits : FitsInt64 (floorQuotient a b)
  · rw [Binary64.int64?_of_fits hFits]
    simp only [bind, Option.bind, Arithmetic.multiply?,
      hFits.toInt_ofInt, hFits, true_and]
    by_cases hProduct : FitsInt64 (b.toInt * floorQuotient a b)
    · rw [Binary64.int64?_of_fits hProduct, if_pos hProduct]
      dsimp only
      rw [Arithmetic.subtract?, hProduct.toInt_ofInt]
      exact Binary64.int64?_of_fits (fits_floorRest hB)
    · rw [Binary64.int64?_of_not_fits hProduct, if_neg hProduct]
  · rw [Binary64.int64?_of_not_fits hFits,
      if_neg (fun hBoth => hFits hBoth.1)]
    rfl

theorem apply_integerDivide
    (engine : Engine)
    (source : String)
    (a b : Int64) :
    Operator.apply engine source (.plain .integerDivide)
        [.integer a, .integer b] =
      pure (.ofInt64? (Arithmetic.quotient? a b)) :=
  rfl

theorem apply_integerModulus
    (engine : Engine)
    (source : String)
    (a b : Int64) :
    Operator.apply engine source (.plain .integerModulus)
        [.integer a, .integer b] =
      pure (.ofInt64? (Arithmetic.modulus? a b)) :=
  rfl

/-
  The quotient is the floor, if that has 64 bits, and else
  NULL. The rest of the floor always has 64 bits and the sign
  of the divisor, but it is returned only if the floor and
  the divisor times the floor have 64 bits too. By zero both
  are NULL, and no operation of the machine stops.
-/
theorem floors_exactly
    (engine : Engine)
    (source : String)
    (a b : Int64) :
    Operator.apply engine source (.plain .integerDivide)
        [.integer a, .integer b] =
      pure
        (if b = 0 then .null
        else .ofInteger (floorQuotient a b)) ∧
    Operator.apply engine source (.plain .integerModulus)
        [.integer a, .integer b] =
      pure
        (if b ≠ 0 ∧ FitsInt64 (floorQuotient a b) ∧
            FitsInt64 (b.toInt * floorQuotient a b) then
          .integer (Int64.ofInt (floorRest a b))
        else .null) ∧
    (b ≠ 0 →
      FitsInt64 (floorRest a b) ∧
        (floorRest a b = 0 ∨
          (floorRest a b).sign = b.toInt.sign) ∧
        |floorRest a b| < |b.toInt|) ∧
    floorSteps a b = .ok (Arithmetic.quotient? a b) ∧
    modulusSteps a b = .ok (Arithmetic.modulus? a b) := by
  rw [apply_integerDivide, apply_integerModulus]
  refine ⟨?_, ?_, ?_, floorSteps_eq a b, modulusSteps_eq a b⟩
  · by_cases hB : b = 0
    · rw [if_pos hB, hB]
      rfl
    · rw [if_neg hB, quotient?_of_ne_zero hB,
        ← floorQuotient_eq hB, Value.ofInt64?_int64?]
  · by_cases hB : b = 0
    · rw [if_neg (fun hAll => hAll.1 hB), hB]
      rfl
    · rw [modulus?_of_ne_zero hB]
      simp only [ne_eq, hB, not_false_eq_true, true_and]
      split_ifs <;> rfl
  · intro hB
    exact ⟨fits_floorRest hB, floorRest_bounds hB⟩

/- Minus seven by two is minus four, and leaves one. -/
theorem floors_exactly_negative :
    (2 : Int64) ≠ 0 ∧
      Operator.apply ⟨{}, none⟩ "item" (.plain .integerDivide)
          [.integer (-7), .integer 2] =
        pure (.integer (-4)) ∧
      Operator.apply ⟨{}, none⟩ "item" (.plain .integerModulus)
          [.integer (-7), .integer 2] =
        pure (.integer 1) ∧
      |floorRest (-7) 2| < 2 := by
  have hTwo : (2 : Int64) ≠ 0 := by decide
  have hFloor : floorQuotient (-7) 2 = -4 := floorQuotient_eq hTwo
  have hRest : floorRest (-7) 2 = 1 := floorRest_eq hTwo
  obtain ⟨hQuotient, hModulus, hBounds, -⟩ :=
    floors_exactly ⟨{}, none⟩ "item" (-7) 2
  rw [hFloor] at hQuotient hModulus
  rw [hRest] at hModulus
  exact ⟨hTwo, hQuotient, hModulus, (hBounds hTwo).2.2⟩

/-
  The rests of the least integer by three and by minus one
  have 64 bits, and they are NULL.
-/
theorem rests_lost :
    floorRest Int64.minValue 3 = 1 ∧
      Operator.apply ⟨{}, none⟩ "item" (.plain .integerModulus)
          [.integer Int64.minValue, .integer 3] =
        pure .null ∧
      floorRest Int64.minValue (-1) = 0 ∧
      Operator.apply ⟨{}, none⟩ "item" (.plain .integerModulus)
          [.integer Int64.minValue, .integer (-1)] =
        pure .null := by
  refine ⟨floorRest_eq (by decide), ?_,
    floorRest_eq (by decide), ?_⟩
  · have hNone : Arithmetic.modulus? Int64.minValue 3 = none := by
      decide
    rw [apply_integerModulus, hNone]
    rfl
  · have hNone :
        Arithmetic.modulus? Int64.minValue (-1) = none := by
      decide
    rw [apply_integerModulus, hNone]
    rfl

end Division

------------------------------------------------------------
-- Folds Within a Range
------------------------------------------------------------

namespace Folding

/- The result of an operation if it has 64 bits. -/
def within? (op : Int → Int → Int) (a b : Int64) : Option Int64 :=
  Binary64.int64? (op a.toInt b.toInt)

/- The result of each list of first operands has 64 bits. -/
def PartsFit (whole : List Int → Int) (ns : List Int64) : Prop :=
  ∀ part ∈ ns.inits, FitsInt64 (whole (part.map Int64.toInt))

instance (whole : List Int → Int) (ns : List Int64) :
    Decidable (PartsFit whole ns) :=
  inferInstanceAs (Decidable (∀ part ∈ ns.inits, _))

variable {whole : List Int → Int}
variable {ns : List Int64}

theorem PartsFit.all (hParts : PartsFit whole ns) :
    FitsInt64 (whole (ns.map Int64.toInt)) :=
  hParts ns ((List.mem_inits ns ns).mpr List.prefix_rfl)

theorem partsFit_concat (n : Int64) :
    PartsFit whole (ns ++ [n]) ↔
      PartsFit whole ns ∧
        FitsInt64 (whole ((ns ++ [n]).map Int64.toInt)) := by
  constructor
  · intro hParts
    refine ⟨fun part hPart => hParts part ?_, hParts.all⟩
    rw [List.mem_inits] at hPart ⊢
    exact hPart.trans (List.prefix_append ns [n])
  · rintro ⟨hParts, hAll⟩ part hPart
    rw [List.mem_inits, List.prefix_concat_iff] at hPart
    rcases hPart with rfl | hBefore
    · exact hAll
    · exact hParts part ((List.mem_inits part ns).mpr hBefore)

/-
  A fold ends with the result of all operands, if the result
  of each list of first operands has 64 bits.
-/
theorem fold?_within?
    {op : Int → Int → Int}
    {start : Int64}
    (hEmpty : whole [] = start.toInt)
    (hConcat : ∀ xs x, whole (xs ++ [x]) = op (whole xs) x)
    (ns : List Int64) :
    Arithmetic.fold? (within? op) start ns =
      if PartsFit whole ns then
        some (Int64.ofInt (whole (ns.map Int64.toInt)))
      else none := by
  unfold Arithmetic.fold?
  induction ns using List.reverseRecOn with
  | nil =>
      have hParts : PartsFit whole [] := by
        intro part hPart
        rw [List.mem_inits, List.prefix_nil] at hPart
        rw [hPart, List.map_nil, hEmpty]
        exact fitsInt64_toInt start
      rw [if_pos hParts, List.map_nil, hEmpty, Int64.ofInt_toInt]
      rfl
  | append_singleton ns n ih =>
      rw [List.foldl_append, ih, List.foldl_cons, List.foldl_nil]
      by_cases hParts : PartsFit whole ns
      · have hNext :
            op (whole (ns.map Int64.toInt)) n.toInt =
              whole ((ns ++ [n]).map Int64.toInt) := by
          rw [List.map_append, List.map_singleton, hConcat]
        rw [if_pos hParts, Option.bind_some, within?,
          hParts.all.toInt_ofInt, hNext, Binary64.int64?_eq]
        simp only [partsFit_concat, hParts, true_and]
      · rw [if_neg hParts, Option.bind_none,
          if_neg (fun h => hParts ((partsFit_concat n).mp h).1)]

/- A fold over integer operands is exact, or NULL. -/
theorem withIntegers_within?
    {op : Int → Int → Int}
    {start : Int64}
    (hEmpty : whole [] = start.toInt)
    (hConcat : ∀ xs x, whole (xs ++ [x]) = op (whole xs) x)
    (ns : List Int64)
    (rounded : List Float → Float) :
    Arithmetic.withIntegers (ns.map Value.integer)
        (Arithmetic.fold? (within? op) start) rounded =
      if PartsFit whole ns then
        .ofInteger (whole (ns.map Int64.toInt))
      else .null := by
  rw [Arithmetic.withIntegers, Arithmetic.integers?_map_integer]
  dsimp only
  rw [fold?_within? hEmpty hConcat]
  split_ifs with hParts
  · rw [Value.ofInteger, if_pos hParts.all]
    rfl
  · rfl

------------------------------------------------------------
-- Sums
------------------------------------------------------------

/- The sum of integers, of any size. -/
def total (ns : List Int64) : Int :=
  (ns.map Int64.toInt).sum

theorem sum_eq (ns : List Int64) :
    Arithmetic.sum (ns.map Value.integer) =
      if PartsFit List.sum ns then .ofInteger (total ns)
      else .null := by
  refine withIntegers_within? (Int64.toInt_zero).symm ?_ ns _
  intro xs x
  rw [List.sum_append, List.sum_singleton]

theorem total_append (ns ms : List Int64) :
    total (ns ++ ms) = total ns + total ms := by
  rw [total, List.map_append, List.sum_append]
  rfl

theorem total_of_perm {ns ms : List Int64} (hPerm : ns.Perm ms) :
    total ns = total ms :=
  (hPerm.map Int64.toInt).sum_eq

theorem total_nonneg (hAll : ∀ n ∈ ns, 0 ≤ n) :
    0 ≤ total ns := by
  apply List.sum_nonneg
  intro x hX
  obtain ⟨n, hMem, rfl⟩ := List.mem_map.mp hX
  exact Int64.le_iff_toInt_le.mp (hAll n hMem)

theorem total_nonpos (hAll : ∀ n ∈ ns, n ≤ 0) :
    total ns ≤ 0 := by
  induction ns with
  | nil => exact le_rfl
  | cons n rest ih =>
      rw [List.forall_mem_cons] at hAll
      have hHead := Int64.le_iff_toInt_le.mp hAll.1
      exact add_nonpos hHead (ih hAll.2)

/- All operands are on one side of zero. -/
def OneSided (ns : List Int64) : Prop :=
  (∀ n ∈ ns, 0 ≤ n) ∨ ∀ n ∈ ns, n ≤ 0

/- On one side of zero, sums on the way are not larger. -/
theorem partsFit_sum_iff (hSide : OneSided ns) :
    PartsFit List.sum ns ↔ FitsInt64 (total ns) := by
  refine ⟨PartsFit.all, fun hTotal part hPart => ?_⟩
  obtain ⟨rest, rfl⟩ := (List.mem_inits _ _).mp hPart
  change FitsInt64 (total part)
  rw [total_append] at hTotal
  unfold FitsInt64 at hTotal ⊢
  rcases hSide with hSide | hSide <;>
    rw [List.forall_mem_append] at hSide
  · have hPartSide := total_nonneg hSide.1
    have hRestSide := total_nonneg hSide.2
    omega
  · have hPartSide := total_nonpos hSide.1
    have hRestSide := total_nonpos hSide.2
    omega

------------------------------------------------------------
-- Products
------------------------------------------------------------

/- The product of integers, of any size. -/
def totalProduct (ns : List Int64) : Int :=
  (ns.map Int64.toInt).prod

theorem product_eq (ns : List Int64) :
    Arithmetic.product (ns.map Value.integer) =
      if PartsFit List.prod ns then .ofInteger (totalProduct ns)
      else .null := by
  refine withIntegers_within? (Int64.toInt_one).symm ?_ ns _
  intro xs x
  rw [List.prod_append, List.prod_singleton]

theorem totalProduct_append (ns ms : List Int64) :
    totalProduct (ns ++ ms) = totalProduct ns * totalProduct ms := by
  rw [totalProduct, List.map_append, List.prod_append]
  rfl

theorem totalProduct_of_perm
    {ns ms : List Int64}
    (hPerm : ns.Perm ms) :
    totalProduct ns = totalProduct ms :=
  (hPerm.map Int64.toInt).prod_eq

theorem totalProduct_ne_zero (hAll : ∀ n ∈ ns, n ≠ 0) :
    totalProduct ns ≠ 0 := by
  apply List.prod_ne_zero
  intro hZero
  obtain ⟨n, hMem, hN⟩ := List.mem_map.mp hZero
  exact hAll n hMem (Int64.toInt_inj.mp hN)

/-
  Without zeros, products on the way are not larger. The least
  integer is left out: a product on the way may be its
  negation.
-/
theorem partsFit_prod_iff
    (hAll : ∀ n ∈ ns, n ≠ 0)
    (hLeast : totalProduct ns ≠ -2 ^ 63) :
    PartsFit List.prod ns ↔ FitsInt64 (totalProduct ns) := by
  refine ⟨PartsFit.all, fun hTotal part hPart => ?_⟩
  obtain ⟨rest, rfl⟩ := (List.mem_inits _ _).mp hPart
  change FitsInt64 (totalProduct part)
  have hRest : totalProduct rest ≠ 0 :=
    totalProduct_ne_zero (List.forall_mem_append.mp hAll).2
  have hAbs :
      (totalProduct part).natAbs ≤
        (totalProduct (part ++ rest)).natAbs := by
    rw [totalProduct_append, Int.natAbs_mul]
    exact Nat.le_mul_of_pos_right _ (Int.natAbs_pos.mpr hRest)
  unfold FitsInt64 at hTotal ⊢
  omega

------------------------------------------------------------
-- Fold Operators
------------------------------------------------------------

variable {ms : List Int64}

theorem apply_sum
    (engine : Engine)
    (source : String)
    (ms : List Int64) :
    Operator.apply engine source (.plain .sum)
        (ms.map Value.integer) =
      pure
        (if PartsFit List.sum ms then .ofInteger (total ms)
        else .null) :=
  congrArg pure (sum_eq ms)

theorem apply_product
    (engine : Engine)
    (source : String)
    (ms : List Int64) :
    Operator.apply engine source (.plain .product)
        (ms.map Value.integer) =
      pure
        (if PartsFit List.prod ms then
          .ofInteger (totalProduct ms)
        else .null) :=
  congrArg pure (product_eq ms)

/-
  In any order, sums and products of integers are exact if
  all results on the way have 64 bits, and else NULL. Sums on
  one side of zero are exact in every order, and so are
  products without zeros other than the least integer.
-/
theorem folds_exactly
    (engine : Engine)
    (source : String)
    (hPerm : ns.Perm ms) :
    Operator.apply engine source (.plain .sum)
        (ms.map Value.integer) =
      pure
        (if PartsFit List.sum ms then .ofInteger (total ns)
        else .null) ∧
    Operator.apply engine source (.plain .product)
        (ms.map Value.integer) =
      pure
        (if PartsFit List.prod ms then
          .ofInteger (totalProduct ns)
        else .null) ∧
    (PartsFit List.sum ms → FitsInt64 (total ns)) ∧
    (PartsFit List.prod ms → FitsInt64 (totalProduct ns)) ∧
    (OneSided ns →
      Operator.apply engine source (.plain .sum)
          (ms.map Value.integer) =
        pure (.ofInteger (total ns))) ∧
    ((∀ n ∈ ns, n ≠ 0) → totalProduct ns ≠ -2 ^ 63 →
      Operator.apply engine source (.plain .product)
          (ms.map Value.integer) =
        pure (.ofInteger (totalProduct ns))) := by
  rw [apply_sum, apply_product, total_of_perm hPerm,
    totalProduct_of_perm hPerm]
  refine ⟨rfl, rfl, PartsFit.all, PartsFit.all, ?_, ?_⟩
  · intro hSide
    have hSide' : OneSided ms := by
      unfold OneSided at hSide ⊢
      simpa only [hPerm.mem_iff] using hSide
    simp only [partsFit_sum_iff hSide', Value.ofInteger]
    split_ifs <;> rfl
  · intro hAll hLeast
    have hAll' : ∀ n ∈ ms, n ≠ 0 := by
      simpa only [hPerm.mem_iff] using hAll
    simp only [partsFit_prod_iff hAll' hLeast, Value.ofInteger]
    split_ifs <;> rfl

/- Three and four make seven and twelve in either order. -/
theorem folds_exactly_swapped :
    [3, 4].Perm ([4, 3] : List Int64) ∧
      OneSided [3, 4] ∧
      Operator.apply ⟨{}, none⟩ "item" (.plain .sum)
          [.integer 4, .integer 3] =
        pure (.integer 7) ∧
      Operator.apply ⟨{}, none⟩ "item" (.plain .product)
          [.integer 4, .integer 3] =
        pure (.integer 12) := by
  have hPerm : [3, 4].Perm ([4, 3] : List Int64) :=
    List.Perm.swap 4 3 []
  have hSide : OneSided [3, 4] := Or.inl (by simp)
  have hTotal : total [3, 4] = (7 : Int64).toInt := rfl
  have hTotalProduct :
      totalProduct [3, 4] = (12 : Int64).toInt :=
    rfl
  obtain ⟨-, -, -, -, hSum, hProduct⟩ :=
    folds_exactly ⟨{}, none⟩ "item" hPerm
  rw [hTotal, Value.ofInteger_toInt] at hSum
  rw [hTotalProduct, Value.ofInteger_toInt] at hProduct
  exact ⟨hPerm, hSide, hSum hSide,
    hProduct (by simp) (by decide)⟩

/-
  The largest integer, one and minus one are summed up to the
  largest integer in one order and to NULL in another, and a
  product with a zero is NULL if the zero comes too late.
-/
theorem folds_ordered :
    FitsInt64 (total [Int64.maxValue, 1, -1]) ∧
      Operator.apply ⟨{}, none⟩ "item" (.plain .sum)
          [.integer Int64.maxValue, .integer 1, .integer (-1)] =
        pure .null ∧
      Operator.apply ⟨{}, none⟩ "item" (.plain .sum)
          [.integer Int64.maxValue, .integer (-1), .integer 1] =
        pure (.integer Int64.maxValue) ∧
      FitsInt64 (totalProduct [Int64.maxValue, 2, 0]) ∧
      Operator.apply ⟨{}, none⟩ "item" (.plain .product)
          [.integer Int64.maxValue, .integer 2, .integer 0] =
        pure .null ∧
      Operator.apply ⟨{}, none⟩ "item" (.plain .product)
          [.integer 0, .integer Int64.maxValue, .integer 2] =
        pure (.integer 0) :=
  ⟨by decide, rfl, rfl, by decide, rfl, rfl⟩

end Folding

end Assessment
