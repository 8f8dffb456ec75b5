import Mathlib
import Assessment.Number.Binary64

/-
  Doubles as rational numbers.

  The bits of a double are unpacked into a sign, a mantissa
  and an exponent. Unpacked this way a double has one form
  alone: its mantissa has 53 bits, or its exponent is the
  least one. So finite doubles are ordered as the numbers
  that they stand for.

  Main declarations:
    * `Double.Canonical`, the form of unpacked doubles
    * `Double.unpack_pack`
    * `Double.exact_eq_view`, the exact view of a double
    * `Double.value?`, the number a finite double stands for
    * `Double.lt_iff_value`, `le_iff_value`, `beq_iff_value`
-/

------------------------------------------------------------
-- Fields
------------------------------------------------------------

namespace Assessment

namespace Double

open Float (Model)
open Float.Model (UnpackedFloat Format)
open Float.Model.UnpackedFloat

/- The fraction of a word, its lowest 52 bits. -/
theorem toNat_unpackMantissa (b : BitVec 64) :
    (@unpackMantissa .binary64 b).toNat =
      b.toNat % 2 ^ 52 := by
  rw [unpackMantissa_def, BitVec.extractLsb'_toNat]
  simp

/- The exponent field of a word, the 11 bits above. -/
theorem toNat_unpackExponent (b : BitVec 64) :
    (@unpackExponent .binary64 b).toNat =
      b.toNat / 2 ^ 52 % 2 ^ 11 := by
  rw [unpackExponent_def, BitVec.extractLsb'_toNat]
  simp [Nat.shiftRight_eq_div_pow]

/- The sign of a word, its highest bit. -/
theorem unpackSign_eq_negative (b : BitVec 64) :
    (Sign.ofBitVec (@unpackSign .binary64 b) ==
        Sign.negative) =
      (b.toNat / 2 ^ 63 == 1) := by
  have hTop :
      (@unpackSign .binary64 b).toNat =
        b.toNat / 2 ^ 63 := by
    have hLt := b.isLt
    rw [unpackSign_def, BitVec.extractLsb'_toNat]
    simp only [Nat.shiftRight_eq_div_pow]
    omega
  rw [← hTop]
  generalize @unpackSign .binary64 b = sign
  revert sign
  decide

/- The mantissa of a normal double has a leading one. -/
theorem toNat_leadingOne (m : BitVec 52) :
    ((1#1 : BitVec 1) ++ m).toNat = 2 ^ 52 + m.toNat := by
  have hOr := Nat.two_pow_add_eq_or_of_lt m.isLt 1
  rw [BitVec.toNat_append]
  simp only [Nat.mul_one] at hOr
  rw [hOr]
  rfl

theorem exponentBias_eq :
    (Format.exponentBias .binary64 : Int) = 1023 :=
  rfl

------------------------------------------------------------
-- Unpacked Doubles
------------------------------------------------------------

/-
  The form of an unpacked double: a mantissa of 53 bits, or
  of fewer bits under the least exponent.
-/
def Canonical : UnpackedFloat → Prop
  | .finite _ m e _ =>
      m < 2 ^ 53 ∧ -1074 ≤ e ∧ e ≤ 971 ∧
        (2 ^ 52 ≤ m ∨ e = -1074)
  | _ => True

theorem canonical_unpack (x : Model) :
    Canonical x.unpack := by
  unfold Model.unpack UnpackedFloat.unpack
  dsimp only
  have hFraction :
      (@unpackMantissa .binary64
        x.toBits.toBitVec).toNat < 2 ^ 52 :=
    BitVec.isLt _
  have hField :
      (@unpackExponent .binary64
        x.toBits.toBitVec).toNat < 2 ^ 11 :=
    BitVec.isLt _
  have hOne := toNat_leadingOne
    (@unpackMantissa .binary64 x.toBits.toBitVec)
  rw [exponentBias_eq]
  split_ifs with hTop hZero hLeast hNone
  · trivial
  · trivial
  · trivial
  · refine ⟨by omega, ?_, ?_, Or.inr ?_⟩ <;> rw [hLeast] <;>
      simp
  · rw [← BitVec.toNat_inj] at hTop hLeast
    simp only [BitVec.toNat_ofNat, BitVec.toNat_neg] at hTop hLeast
    refine ⟨?_, ?_, ?_, Or.inl ?_⟩ <;> push_cast <;> omega

theorem ofBitVec_toBitVec (s : Sign) :
    Sign.ofBitVec (Sign.toBitVec s) = s := by
  cases s <;> rfl

/- A mantissa of 53 bits is packed without its leading one. -/
theorem unpack_pack_normal
    {m : Nat}
    {e : Int}
    {hPos : 0 < m}
    (s : Sign)
    (hFull : 2 ^ 52 ≤ m)
    (hBits : m < 2 ^ 53)
    (hLeast : -1074 ≤ e)
    (hGreatest : e ≤ 971) :
    (Model.pack (.finite s m e hPos)).unpack =
      .finite s m e hPos := by
  have hMantissa : Format.mantissaBits .binary64 = 53 := rfl
  have hField : ¬ 2 ^ 11 ≤ (e + 1023 + (52 : Nat)).toNat + 1 := by
    omega
  have hLog : m.log2 + 1 = 53 := by
    rw [(Nat.log2_eq_iff (by omega)).mpr ⟨hFull, hBits⟩]
  have hTop :
      BitVec.ofNat 11 (e + 1023 + (52 : Nat)).toNat ≠ -1#11 := by
    rw [Ne, ← BitVec.toNat_inj]
    simp
    omega
  have hZero :
      BitVec.ofNat 11 (e + 1023 + (52 : Nat)).toNat ≠ 0#11 := by
    rw [Ne, ← BitVec.toNat_inj]
    simp
    omega
  unfold Model.pack Model.unpack UnpackedFloat.pack
  dsimp only
  rw [exponentBias_eq, hMantissa, if_neg hField, if_pos hLog]
  unfold UnpackedFloat.unpack
  simp only [unpackMantissa_packComponents,
    unpackExponent_packComponents, unpackSign_packComponents]
  rw [if_neg hTop, if_neg hZero]
  congr 1
  · exact ofBitVec_toBitVec s
  · rw [toNat_leadingOne, BitVec.toNat_ofNat]
    omega
  · rw [exponentBias_eq, BitVec.toNat_ofNat]
    push_cast
    omega

/- A shorter one is packed with the exponent field zero. -/
theorem unpack_pack_subnormal
    {m : Nat}
    {hPos : 0 < m}
    (s : Sign)
    (hShort : m < 2 ^ 52) :
    (Model.pack (.finite s m (-1074) hPos)).unpack =
      .finite s m (-1074) hPos := by
  have hMantissa : Format.mantissaBits .binary64 = 53 := rfl
  have hField :
      ¬ 2 ^ 11 ≤ ((-1074 : Int) + 1023 + (52 : Nat)).toNat + 1 := by
    decide
  have hLog : m.log2 + 1 ≠ 53 := by
    have hLess := (Nat.log2_lt hPos.ne').mpr hShort
    omega
  have hTop : (0#11) ≠ -1#11 := by decide
  have hSome : BitVec.ofNat 52 m ≠ 0#52 := by
    rw [Ne, ← BitVec.toNat_inj]
    simp
    omega
  unfold Model.pack Model.unpack UnpackedFloat.pack
  dsimp only
  rw [exponentBias_eq, hMantissa, if_neg hField, if_neg hLog]
  unfold UnpackedFloat.unpack
  simp only [unpackMantissa_packComponents,
    unpackExponent_packComponents, unpackSign_packComponents]
  rw [if_neg hTop, if_pos trivial, dif_neg hSome]
  congr 1
  · exact ofBitVec_toBitVec s
  · rw [BitVec.toNat_ofNat]
    omega

/- What is packed in its one form is unpacked again. -/
theorem unpack_pack
    {u : UnpackedFloat}
    (hForm : Canonical u) :
    (Model.pack u).unpack = u := by
  cases u with
  | infinity s => cases s <;> with_unfolding_all rfl
  | notANumber => with_unfolding_all rfl
  | zero s => cases s <;> with_unfolding_all rfl
  | finite s m e hPos =>
      obtain ⟨hBits, hLeast, hGreatest, hNormal⟩ := hForm
      rcases Nat.lt_or_ge m (2 ^ 52) with hShort | hFull
      · have hExponent := hNormal.resolve_left (by omega)
        subst hExponent
        exact unpack_pack_subnormal s hShort
      · exact unpack_pack_normal s hFull hBits hLeast hGreatest

------------------------------------------------------------
-- Exact Views
------------------------------------------------------------

/- The exact view of an unpacked double. -/
def view : UnpackedFloat → Binary64.Exact
  | .notANumber => .nan
  | .infinity s => .infinite (s == .negative)
  | .zero s => .finite (s == .negative) 0 (-1074)
  | .finite s m e _ => .finite (s == .negative) m e

/- The exact view of a sign, an exponent field and a fraction. -/
def ofFields (negative : Bool) (field fraction : Nat) :
    Binary64.Exact :=
  if field = 2047 then
    if fraction = 0 then .infinite negative else .nan
  else if field = 0 then .finite negative fraction (-1074)
  else .finite negative (fraction + 2 ^ 52) (field - 1075)

theorem exact_eq_ofFields (x : Float) :
    Binary64.exact x =
      ofFields (x.toBits.toNat / 2 ^ 63 == 1)
        (x.toBits.toNat / 2 ^ 52 % 2 ^ 11)
        (x.toBits.toNat % 2 ^ 52) := by
  unfold Binary64.exact ofFields
  simp only [twoTo, Nat.pow_eq, beq_iff_eq]

theorem view_unpack (b : BitVec 64) :
    view (unpack .binary64 b) =
      ofFields (b.toNat / 2 ^ 63 == 1)
        (b.toNat / 2 ^ 52 % 2 ^ 11) (b.toNat % 2 ^ 52) := by
  have hOne := toNat_leadingOne
    (@unpackMantissa .binary64 b)
  rw [← unpackSign_eq_negative, ← toNat_unpackExponent,
    ← toNat_unpackMantissa]
  have hTop : (-1#11).toNat = 2047 := rfl
  have hLeast : (0#11).toNat = 0 := rfl
  have hNone : (0#52).toNat = 0 := rfl
  unfold ofFields UnpackedFloat.unpack
  simp only [← BitVec.toNat_inj, hTop, hLeast, hNone,
    exponentBias_eq]
  split_ifs with hEnd hZero hSmall hZero
  · rfl
  · rfl
  · rw [hZero]
    rfl
  · rw [hSmall]
    rfl
  · simp only [view]
    congr 1
    rw [hOne, Nat.add_comm]

/- The exact view of a double is that of its unpacked form. -/
theorem exact_eq_view (x : Float) :
    Binary64.exact x = view x.toModel.unpack := by
  rw [exact_eq_ofFields]
  exact (view_unpack x.toModel.toBits.toBitVec).symm

------------------------------------------------------------
-- Values
------------------------------------------------------------

/- A mantissa times a power of two, under a sign. -/
def signed (negative : Bool) (m : Nat) (e : Int) : ℚ :=
  if negative then -(m * 2 ^ e) else m * 2 ^ e

/- The number that an exact view stands for, if finite. -/
def valueOf : Binary64.Exact → Option ℚ
  | .finite negative m e => some (signed negative m e)
  | _ => none

/- The number that a double stands for, if it is finite. -/
def value? (x : Float) : Option ℚ :=
  valueOf (Binary64.exact x)

/- An unpacked double is finite and stands for a number. -/
inductive Stands : UnpackedFloat → ℚ → Prop where
  | zero (s : Sign) : Stands (.zero s) 0
  | positive {m : Nat} {e : Int} (hPos : 0 < m) :
      Stands (.finite .positive m e hPos) (m * 2 ^ e)
  | negative {m : Nat} {e : Int} (hPos : 0 < m) :
      Stands (.finite .negative m e hPos) (-(m * 2 ^ e))

theorem valueOf_view_iff {u : UnpackedFloat} {q : ℚ} :
    valueOf (view u) = some q ↔ Stands u q := by
  constructor
  · intro hValue
    cases u with
    | notANumber => cases hValue
    | infinity s => cases hValue
    | zero s =>
        have hZero : q = 0 := by
          cases s <;> simpa [valueOf, view, signed] using hValue.symm
        exact hZero ▸ .zero s
    | finite s m e hPos =>
        cases s <;> cases hValue
        · exact .negative hPos
        · exact .positive hPos
  · intro hStands
    cases hStands with
    | zero s => cases s <;> simp [valueOf, view, signed]
    | positive hPos => rfl
    | negative hPos => rfl

theorem value?_eq_some_iff {x : Float} {q : ℚ} :
    value? x = some q ↔ Stands x.toModel.unpack q := by
  rw [value?, exact_eq_view, valueOf_view_iff]

/-
  Magnitudes in their one form are ordered by exponents, and
  under one exponent by mantissas.
-/
theorem cmp_magnitude
    {m n : Nat}
    {e f : Int}
    {hM : 0 < m}
    {hN : 0 < n}
    (s t : Sign)
    (hFirst : Canonical (.finite s m e hM))
    (hSecond : Canonical (.finite t n f hN)) :
    cmp ((m : ℚ) * 2 ^ e) (n * 2 ^ f) =
      (compare e f).then (compare m n) := by
  have hLess :
      ∀ {m n : Nat} {e f : Int}, m < 2 ^ 53 → 2 ^ 52 ≤ n →
        e < f → (m : ℚ) * 2 ^ e < n * 2 ^ f := by
    intro m n e f hShort hLong hExponent
    calc
      (m : ℚ) * 2 ^ e < 2 ^ 53 * 2 ^ e := by
        have hCast : (m : ℚ) < 2 ^ 53 := by exact_mod_cast hShort
        gcongr
      _ = 2 ^ 52 * 2 ^ (e + 1) := by
        rw [zpow_add_one₀ (by norm_num)]
        ring
      _ ≤ n * 2 ^ f := by
        have hCast : (2 : ℚ) ^ 52 ≤ n := by exact_mod_cast hLong
        have hNext : e + 1 ≤ f := hExponent
        gcongr
        norm_num
  obtain ⟨hM53, hE, -, hM52⟩ := hFirst
  obtain ⟨hN53, hF, -, hN52⟩ := hSecond
  rcases lt_trichotomy e f with hBelow | rfl | hAbove
  · rw [compare_lt_iff_lt.mpr hBelow, (cmp_eq_lt_iff _ _).mpr]
    · rfl
    · exact hLess hM53 (hN52.resolve_right (by omega)) hBelow
  · have hUnit : (0 : ℚ) < 2 ^ e := by positivity
    rw [compare_eq_iff_eq.mpr rfl, Ordering.eq_then,
      cmp_mul_pos_right hUnit,
      (Nat.strictMono_cast (α := ℚ)).cmp_map_eq]
    exact cmp_eq_compare m n
  · rw [compare_gt_iff_gt.mpr hAbove, (cmp_eq_gt_iff _ _).mpr]
    · rfl
    · exact hLess hN53 (hM52.resolve_right (by omega)) hAbove

/- Finite doubles are compared as their numbers. -/
theorem compare_eq_cmp
    {u w : UnpackedFloat}
    {p q : ℚ}
    (hU : Canonical u)
    (hW : Canonical w)
    (hP : Stands u p)
    (hQ : Stands w q) :
    u.compare w = some (cmp p q) := by
  have hPositive :
      ∀ {m : Nat} (e : Int), 0 < m → (0 : ℚ) < m * 2 ^ e := by
    intro m e hPos
    positivity
  cases hP with
  | zero s =>
      cases hQ with
      | zero t =>
          rw [cmp_self_eq_eq]
          rfl
      | positive hN =>
          rw [(cmp_eq_lt_iff _ _).mpr (hPositive _ hN)]
          rfl
      | @negative n f hN =>
          have hSecond := neg_neg_of_pos (hPositive f hN)
          rw [(cmp_eq_gt_iff _ _).mpr hSecond]
          rfl
  | @positive m e hM =>
      have hFirst := hPositive e hM
      cases hQ with
      | zero t =>
          rw [(cmp_eq_gt_iff _ _).mpr hFirst]
          rfl
      | positive hN =>
          rw [cmp_magnitude _ _ hU hW]
          rfl
      | @negative n f hN =>
          have hSecond := neg_neg_of_pos (hPositive f hN)
          rw [(cmp_eq_gt_iff _ _).mpr (hSecond.trans hFirst)]
          rfl
  | @negative m e hM =>
      have hFirst := neg_neg_of_pos (hPositive e hM)
      cases hQ with
      | zero t =>
          rw [(cmp_eq_lt_iff _ _).mpr hFirst]
          rfl
      | positive hN =>
          rw [(cmp_eq_lt_iff _ _).mpr
            (hFirst.trans (hPositive _ hN))]
          rfl
      | negative hN =>
          have hTurned : StrictAnti (Neg.neg : ℚ → ℚ) :=
            fun _ _ => neg_lt_neg
          rw [hTurned.cmp_map_eq, ← cmp_swap,
            cmp_magnitude _ _ hU hW]
          rfl

variable {x y : Float} {p q : ℚ}

theorem compare_of_value
    (hP : value? x = some p)
    (hQ : value? y = some q) :
    x.toModel.unpack.compare y.toModel.unpack =
      some (cmp p q) :=
  compare_eq_cmp (canonical_unpack _) (canonical_unpack _)
    (value?_eq_some_iff.mp hP) (value?_eq_some_iff.mp hQ)

theorem lt_iff_value
    (hP : value? x = some p)
    (hQ : value? y = some q) :
    x < y ↔ p < q := by
  have hLt :
      x < y ↔
        decide (x.toModel.unpack.lt y.toModel.unpack = true) =
          true :=
    Iff.rfl
  rw [hLt, decide_eq_true_iff, UnpackedFloat.lt,
    compare_of_value hP hQ, ← cmp_eq_lt_iff]
  simp

theorem le_iff_value
    (hP : value? x = some p)
    (hQ : value? y = some q) :
    x ≤ y ↔ p ≤ q := by
  have hLe :
      x ≤ y ↔
        decide (x.toModel.unpack.le y.toModel.unpack = true) =
          true :=
    Iff.rfl
  rw [hLe, decide_eq_true_iff, UnpackedFloat.le,
    compare_of_value hP hQ, ← not_lt, ← cmp_eq_gt_iff]
  cases cmp p q <;> simp

theorem beq_iff_value
    (hP : value? x = some p)
    (hQ : value? y = some q) :
    (x == y) = true ↔ p = q := by
  have hBeq :
      (x == y) = x.toModel.unpack.beq y.toModel.unpack := rfl
  rw [hBeq, UnpackedFloat.beq, compare_of_value hP hQ,
    ← cmp_eq_eq_iff]
  simp

theorem Stands.isNaN {u : UnpackedFloat} (hP : Stands u p) :
    u.isNaN = false := by
  cases hP <;> rfl

theorem unpack_infinity :
    (1 / 0 : Float).toModel.unpack = .infinity .positive := by
  with_unfolding_all rfl

theorem unpack_negative_infinity :
    (-1 / 0 : Float).toModel.unpack = .infinity .negative := by
  with_unfolding_all rfl

theorem Stands.between {u : UnpackedFloat} (hP : Stands u p) :
    (UnpackedFloat.infinity .negative).lt u = true ∧
      u.lt (.infinity .positive) = true := by
  cases hP <;> exact ⟨rfl, rfl⟩

/- A number lies between the infinities. -/
theorem infinity_bounds (hP : value? x = some p) :
    -1 / 0 < x ∧ x < 1 / 0 := by
  obtain ⟨hLow, hHigh⟩ := (value?_eq_some_iff.mp hP).between
  rw [← unpack_negative_infinity] at hLow
  rw [← unpack_infinity] at hHigh
  exact ⟨decide_eq_true hLow, decide_eq_true hHigh⟩

/- A number is not NaN. -/
theorem isNaN_of_value (hP : value? x = some p) :
    x.isNaN = false :=
  (value?_eq_some_iff.mp hP).isNaN

------------------------------------------------------------
-- Packed Numbers
------------------------------------------------------------

/- What is packed stands for the number that it stood for. -/
theorem value?_pack
    {u : UnpackedFloat}
    (hForm : Canonical u)
    (hP : Stands u p) :
    value? (Float.ofModel (Model.pack u)) = some p := by
  rw [value?_eq_some_iff, unpack_pack hForm]
  exact hP

theorem Canonical.neg {u : UnpackedFloat} (hForm : Canonical u) :
    Canonical u.neg := by
  cases u <;> exact hForm

theorem Stands.neg {u : UnpackedFloat} (hP : Stands u p) :
    Stands u.neg (-p) := by
  cases hP with
  | zero s =>
      rw [neg_zero]
      exact .zero _
  | positive hPos => exact .negative hPos
  | negative hPos =>
      rw [neg_neg]
      exact .positive hPos

theorem value?_neg (hP : value? x = some p) :
    value? (-x) = some (-p) :=
  value?_pack (canonical_unpack _).neg
    (value?_eq_some_iff.mp hP).neg

end Double

end Assessment
