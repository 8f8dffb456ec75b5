import Assessment.Proofs.Number.Operations
import Assessment.Proofs.Number.Shortest
import Assessment.Proofs.Text
import Assessment.Proofs.Text.Words

/-
  Decimal texts of doubles.

  A decimal text is read as the double that is nearest to the
  number it writes, for any number of digits and whatever the
  exponent is. Digits can be laid out with a point or with an
  exponent, padded with zeros or not; either way they write
  the same number. So the text of a double, which shows its
  shortest digits, is read as that double.

  Main declarations:
    * `Numeral.ofDecimal_eq_closest`
    * `FloatText.Writes`, what the text of a number is read as
    * `FloatText.writes_positional` and `writes_scientific`
    * `Numeral.float?_floatText`
-/

------------------------------------------------------------
-- Values of Digits
------------------------------------------------------------

namespace Assessment

namespace Numeral

open Double

variable {cs ds : List Char}

/- All characters are digits. -/
def AllDigits (cs : List Char) : Prop :=
  ∀ c ∈ cs, isDigit c = true

theorem isDigit_iff {c : Char} :
    isDigit c = true ↔ 48 ≤ c.toNat ∧ c.toNat ≤ 57 := by
  simp [isDigit_eq, Char.isDigit, UInt32.le_iff_toNat_le]

theorem AllDigits.append
    (hFirst : AllDigits cs)
    (hSecond : AllDigits ds) :
    AllDigits (cs ++ ds) := by
  intro c hMem
  rcases List.mem_append.mp hMem with hMem | hMem
  · exact hFirst c hMem
  · exact hSecond c hMem

theorem AllDigits.tail {c : Char} (hDigits : AllDigits (c :: cs)) :
    AllDigits cs :=
  fun d hMem => hDigits d (List.mem_cons_of_mem _ hMem)

theorem allDigits_toDigits (n : Nat) :
    AllDigits (Nat.toDigits 10 n) := by
  intro c hMem
  rw [isDigit_eq]
  exact Nat.isDigit_of_mem_toDigits (by decide) (by decide) hMem

theorem allDigits_zeros (n : Nat) : AllDigits (FloatText.zeros n) := by
  intro c hMem
  rw [List.eq_of_mem_replicate hMem]
  rfl

theorem value_append (cs ds : List Char) :
    value (cs ++ ds) = value cs * 10 ^ ds.length + value ds := by
  change Nat.ofDigitChars 10 (cs ++ ds) 0 =
    Nat.ofDigitChars 10 cs 0 * 10 ^ ds.length +
      Nat.ofDigitChars 10 ds 0
  rw [Nat.ofDigitChars_append, Nat.ofDigitChars_eq_ofDigitChars_zero,
    Nat.mul_comm]

theorem value_cons (c : Char) (cs : List Char) :
    value (c :: cs) =
      (c.toNat - 48) * 10 ^ cs.length + value cs := by
  have hOne : value [c] = c.toNat - 48 := Nat.zero_add _
  rw [← List.singleton_append, value_append, hOne]

@[simp]
theorem value_zeros (n : Nat) : value (FloatText.zeros n) = 0 := by
  change Nat.ofDigitChars 10 (List.replicate n '0') 0 = 0
  rw [Nat.ofDigitChars_replicate_zero, Nat.mul_zero]

theorem value_lt (hDigits : AllDigits cs) :
    value cs < 10 ^ cs.length := by
  induction cs with
  | nil => exact Nat.one_pos
  | cons c cs ih =>
      have hRest := ih hDigits.tail
      have hDigit := hDigits c List.mem_cons_self
      have hRange := isDigit_iff.mp hDigit
      have hStep :
          (c.toNat - 48) * 10 ^ cs.length ≤ 9 * 10 ^ cs.length :=
        Nat.mul_le_mul_right _ (by omega)
      rw [value_cons, List.length_cons, Nat.pow_succ]
      omega

/- Zeros in front do not count. -/
theorem value_dropWhile (cs : List Char) :
    value (cs.dropWhile (· == '0')) = value cs := by
  induction cs with
  | nil => rfl
  | cons c cs ih =>
      rw [List.dropWhile_cons]
      split_ifs with hZero
      · rw [beq_iff_eq] at hZero
        rw [ih, value_cons, hZero]
        simp
      · rfl

/- What is left starts with another digit. -/
theorem pow_le_value_dropWhile
    (hDigits : AllDigits cs)
    (hSome : value cs ≠ 0) :
    10 ^ ((cs.dropWhile (· == '0')).length - 1) ≤ value cs := by
  induction cs with
  | nil => exact absurd rfl hSome
  | cons c cs ih =>
      rw [List.dropWhile_cons]
      split_ifs with hZero
      · rw [beq_iff_eq] at hZero
        have hSame : value (c :: cs) = value cs := by
          rw [value_cons, hZero]
          simp
        rw [hSame] at hSome ⊢
        exact ih hDigits.tail hSome
      · have hDigit := hDigits c List.mem_cons_self
        have hRange := isDigit_iff.mp hDigit
        have hOther : c.toNat ≠ 48 := by
          intro hCode
          have hChar : c = '0' := Char.toNat_inj.mp hCode
          rw [hChar] at hZero
          exact hZero rfl
        rw [value_cons, List.length_cons, Nat.add_sub_cancel]
        calc
          10 ^ cs.length ≤ (c.toNat - 48) * 10 ^ cs.length :=
            Nat.le_mul_of_pos_left _ (by omega)
          _ ≤ _ := Nat.le_add_right _ _

/- A decimal number is read as the nearest double. -/
theorem ofDecimal_eq_closest
    (hDigits : AllDigits cs)
    (e : Int) :
    ofDecimal cs e = closest (value cs * 10 ^ e) := by
  unfold ofDecimal
  dsimp only
  rw [value_dropWhile]
  generalize hLength : (cs.dropWhile (· == '0')).length = k
  by_cases hZero : value cs = 0
  · rw [hZero, Nat.cast_zero, zero_mul, closest_zero]
    simp
  have hSome : 0 < value cs := Nat.pos_of_ne_zero hZero
  have hOne : (1 : ℚ) ≤ value cs := by exact_mod_cast hSome
  have hLow : (10 : ℚ) ^ (k - 1 : Nat) ≤ value cs := by
    rw [← hLength]
    exact_mod_cast pow_le_value_dropWhile hDigits hZero
  have hHigh : (value cs : ℚ) < 10 ^ k := by
    rw [← hLength, ← value_dropWhile]
    have hRest : AllDigits (cs.dropWhile (· == '0')) :=
      fun c hMem => hDigits c (List.dropWhile_subset _ hMem)
    exact_mod_cast value_lt hRest
  have hBits : (value cs == 0) = false := by simpa using hZero
  rw [hBits, Bool.false_or]
  split_ifs with hTiny hHuge
  · rw [decide_eq_true_eq] at hTiny
    rw [closest_of_tiny (by positivity)]
    calc
      (value cs : ℚ) * 10 ^ e ≤ 10 ^ k * 10 ^ e := by gcongr
      _ = 10 ^ (k + e) := by
        rw [zpow_add₀ (by norm_num), zpow_natCast]
      _ ≤ 10 ^ (-400 : Int) :=
        zpow_le_zpow_right₀ (by norm_num) (by omega)
  · have hSplit :
        (value cs : ℚ) * 10 ^ e =
          value cs / 10 ^ (k - 1 : Nat) *
            10 ^ ((k - 1 : Nat) + e) := by
      rw [zpow_add₀ (by norm_num), zpow_natCast]
      field_simp
    have hScaled : (1 : ℚ) ≤ value cs / 10 ^ (k - 1 : Nat) := by
      rw [one_le_div (by positivity)]
      exact hLow
    rw [hSplit, closest_of_huge hScaled (by omega)]
  · exact ofScientific_eq_closest e hSome

------------------------------------------------------------
-- Numbers in Texts
------------------------------------------------------------

theorem takeWhile_digits
    (hDigits : AllDigits cs)
    (hOther : ds.takeWhile isDigit = []) :
    (cs ++ ds).takeWhile isDigit = cs := by
  rw [List.takeWhile_append_of_pos hDigits, hOther,
    List.append_nil]

theorem dropWhile_digits
    (hDigits : AllDigits cs)
    (hOther : ds.takeWhile isDigit = []) :
    (cs ++ ds).dropWhile isDigit = ds := by
  rw [List.dropWhile_append_of_pos hDigits]
  have hSplit :=
    List.takeWhile_append_dropWhile (p := isDigit) (l := ds)
  rwa [hOther, List.nil_append] at hSplit

/- A whole number, with an exponent or without. -/
theorem decimal?_whole
    {whole tail : List Char}
    {e : Int}
    (hWhole : AllDigits whole)
    (hSome : whole ≠ [])
    (hTail : tail.takeWhile isDigit = [])
    (hNoPoint : ∀ rest, tail ≠ '.' :: rest)
    (hExponent : exponent? tail = some e) :
    decimal? (whole ++ tail) =
      some (closest (value whole * 10 ^ e)) := by
  unfold decimal?
  rw [takeWhile_digits hWhole hTail, dropWhile_digits hWhole hTail]
  dsimp only
  split
  next rest => exact absurd rfl (hNoPoint rest)
  next =>
    rw [hExponent, Option.map_some, List.append_nil,
      List.length_nil, Nat.cast_zero, sub_zero,
      ofDecimal_eq_closest hWhole]
    simp [hSome]

/- A number with a fraction, with an exponent or without. -/
theorem decimal?_fraction
    {whole fraction tail : List Char}
    {e : Int}
    (hWhole : AllDigits whole)
    (hFraction : AllDigits fraction)
    (hSome : whole ≠ [])
    (hTail : tail.takeWhile isDigit = [])
    (hExponent : exponent? tail = some e) :
    decimal? (whole ++ '.' :: (fraction ++ tail)) =
      some (closest
        (value (whole ++ fraction) * 10 ^ (e - fraction.length))) := by
  have hPoint :
      ('.' :: (fraction ++ tail)).takeWhile isDigit = [] := rfl
  unfold decimal?
  rw [takeWhile_digits hWhole hPoint, dropWhile_digits hWhole hPoint]
  simp only [takeWhile_digits hFraction hTail,
    dropWhile_digits hFraction hTail, hExponent, Option.map_some,
    ofDecimal_eq_closest (hWhole.append hFraction)]
  simp [hSome]

end Numeral

------------------------------------------------------------
-- Layouts
------------------------------------------------------------

namespace FloatText

open Double
open Numeral
open Float (Model)
open Float.Model.UnpackedFloat

variable {digits : List Char}

/-
  A layout writes digits with the point after the first
  `point` of them.
-/
def Writes (cs digits : List Char) (point : Int) : Prop :=
  (∃ c rest, cs = c :: rest ∧ isDigit c = true) ∧
    decimal? cs =
      some (closest (value digits * 10 ^ (point - digits.length)))

theorem length_zeros (n : Nat) : (zeros n).length = n :=
  List.length_replicate

/- A text of which the first characters are digits. -/
theorem starts_with_digit
    {cs : List Char}
    (tail : List Char)
    (hDigits : AllDigits cs)
    (hSome : cs ≠ []) :
    ∃ c rest, cs ++ tail = c :: rest ∧ isDigit c = true := by
  obtain ⟨c, rest, rfl⟩ := List.exists_cons_of_ne_nil hSome
  exact ⟨c, rest ++ tail, rfl, hDigits c List.mem_cons_self⟩

/- Digits without an exponent write digits of that number. -/
theorem writes_fraction
    {whole fraction : List Char}
    {point : Int}
    (hWhole : AllDigits whole)
    (hFraction : AllDigits fraction)
    (hSome : whole ≠ [])
    (hSame :
      (value (whole ++ fraction) : ℚ) * 10 ^ (-fraction.length : Int) =
        value digits * 10 ^ (point - digits.length)) :
    Writes (whole ++ '.' :: fraction) digits point := by
  refine ⟨starts_with_digit _ hWhole hSome, ?_⟩
  have hNone : exponent? [] = some 0 := rfl
  have hRead :=
    decimal?_fraction hWhole hFraction hSome rfl hNone
  rw [List.append_nil, zero_sub, hSame] at hRead
  exact hRead

theorem writes_whole
    {whole : List Char}
    {point : Int}
    (hWhole : AllDigits whole)
    (hSome : whole ≠ [])
    (hSame :
      (value whole : ℚ) =
        value digits * 10 ^ (point - digits.length)) :
    Writes whole digits point := by
  have hHead := starts_with_digit [] hWhole hSome
  have hNone : exponent? [] = some 0 := rfl
  have hRead :=
    decimal?_whole hWhole hSome rfl (fun _ hSame => by cases hSame)
      hNone
  rw [List.append_nil] at hHead hRead
  rw [zpow_zero, mul_one, hSame] at hRead
  exact ⟨hHead, hRead⟩

theorem value_padded
    {point : Int}
    (hPos : ¬point ≤ 0)
    (hWhole : digits.length ≤ point.toNat) :
    (value (digits ++ zeros (point.toNat - digits.length)) : ℚ) =
      value digits * 10 ^ (point - digits.length) := by
  have hExponent :
      point - digits.length =
        (point.toNat - digits.length : Nat) := by
    omega
  rw [value_append, value_zeros, Nat.add_zero, length_zeros,
    hExponent, zpow_natCast]
  push_cast
  rfl

/- However digits are laid out with a point, they are read. -/
theorem writes_positional
    (style : Style)
    (hDigits : AllDigits digits)
    (hSome : digits ≠ [])
    (point : Int) :
    Writes (layPositional style digits point) digits point := by
  have hZero : AllDigits ['0'] := allDigits_zeros 1
  have hNone : value ['0'] = 0 := rfl
  unfold layPositional
  dsimp only
  split_ifs with hBelow hWhole hKeeps
  · apply writes_fraction hZero
      ((allDigits_zeros (-point).toNat).append hDigits) (by simp)
    have hExponent :
        (-((zeros (-point).toNat ++ digits).length : Int)) =
          point - digits.length := by
      rw [List.length_append, length_zeros]
      omega
    rw [hExponent, value_append, value_append, value_zeros, hNone,
      Nat.zero_mul, Nat.zero_mul, Nat.zero_add, Nat.zero_add]
  · apply writes_fraction
      (hDigits.append (allDigits_zeros _)) hZero (by simp [hSome])
    rw [value_append, hNone, ← value_padded hBelow hWhole]
    push_cast
    simp
  · rw [List.append_nil]
    exact writes_whole (hDigits.append (allDigits_zeros _))
      (by simp [hSome]) (value_padded hBelow hWhole)
  · have hTake : AllDigits (digits.take point.toNat) :=
      fun c hMem => hDigits c (List.take_subset _ _ hMem)
    have hDrop : AllDigits (digits.drop point.toNat) :=
      fun c hMem => hDigits c (List.drop_subset _ _ hMem)
    apply writes_fraction hTake hDrop
    · rw [Ne, List.take_eq_nil_iff]
      rintro (hNil | hNil)
      · omega
      · exact hSome hNil
    · have hExponent :
          (-((digits.drop point.toNat).length : Int)) =
            point - digits.length := by
        rw [List.length_drop]
        omega
      rw [List.take_append_drop, hExponent]

------------------------------------------------------------
-- Exponents
------------------------------------------------------------

/- The signs in front of an exponent that can be read. -/
def Style.Readable (style : Style) : Prop :=
  style.exponentSign = "" ∨ style.exponentSign = "+"

theorem readable_spelled : spelled.Readable := Or.inl rfl

theorem readable_plain : plain.Readable := Or.inl rfl

theorem readable_noted : noted.Readable := Or.inr rfl

theorem sign_digits
    {cs : List Char}
    (hDigits : AllDigits cs) :
    sign cs = (false, cs) := by
  unfold sign
  split
  next rest => cases hDigits '-' List.mem_cons_self
  next rest => cases hDigits '+' List.mem_cons_self
  next => rfl

theorem exponent?_exponentText
    {style : Style}
    (hReadable : style.Readable)
    (e : Int) :
    exponent? ('e' :: exponentText style e) = some e := by
  have hSign := sign_digits (allDigits_toDigits e.natAbs)
  have hRead := natural?_toDigits e.natAbs
  unfold exponent? exponentText
  by_cases hNeg : e < 0
  · rw [if_pos hNeg]
    simp [sign, hRead, abs_of_neg hNeg]
  · have hAbs := abs_of_nonneg (not_lt.mp hNeg)
    rw [if_neg hNeg]
    rcases hReadable with hPlain | hPlus
    · simp [hPlain, hSign, hRead, hAbs]
    · simp [hPlus, sign, hRead, hAbs]

/- Digits with an exponent are read. -/
theorem writes_scientific
    {style : Style}
    (hReadable : style.Readable)
    (hDigits : AllDigits digits)
    (hSome : digits ≠ [])
    (point : Int) :
    Writes (layScientific style digits point) digits point := by
  have hExponent := exponent?_exponentText hReadable (point - 1)
  obtain ⟨c, rest, rfl⟩ := List.exists_cons_of_ne_nil hSome
  have hFirst : AllDigits [c] := by
    intro d hMem
    rw [List.mem_singleton] at hMem
    exact hMem ▸ hDigits c List.mem_cons_self
  unfold layScientific Writes
  split_ifs with hShort
  · have hNil : rest = [] := by
      rw [← List.length_eq_zero_iff]
      simpa using hShort
    subst hNil
    refine ⟨starts_with_digit _ hFirst (by simp), ?_⟩
    exact decimal?_whole hFirst (by simp) rfl
      (fun _ hSame => by cases hSame) hExponent
  · have hRead :=
      decimal?_fraction hFirst hDigits.tail (by simp) rfl hExponent
    have hSplit :
        point - 1 - (rest.length : Int) =
          point - ((c :: rest).length : Nat) := by
      rw [List.length_cons]
      omega
    rw [hSplit] at hRead
    rw [List.append_assoc]
    exact ⟨starts_with_digit _ hFirst (by simp), hRead⟩

------------------------------------------------------------
-- Texts of Doubles
------------------------------------------------------------

/- A text is no word for a special value if it starts like this. -/
theorem magnitude?_of_digit
    {c : Char}
    {rest : List Char}
    (hDigit : isDigit c = true) :
    magnitude? (c :: rest) = decimal? (c :: rest) := by
  have hRange := isDigit_iff.mp hDigit
  have hLower : lowerAscii c = c := by
    unfold lowerAscii
    rw [if_neg]
    simp [Char.le_def, UInt32.le_iff_toNat_le]
    omega
  have hNoWord :
      ∀ {s : String}, s.toList.head?.all isDigit = false →
        (String.ofList ((c :: rest).map lowerAscii) == s) =
          false := by
    intro s hOther
    rw [beq_eq_false_iff_ne]
    rintro rfl
    rw [String.toList_ofList, List.map_cons, hLower] at hOther
    exact absurd hDigit (ne_true_of_eq_false hOther)
  unfold magnitude?
  dsimp only
  rw [hNoWord rfl, hNoWord rfl, hNoWord rfl]
  rfl

/- What a double is without its sign. -/
theorem decimal?_magnitudeText
    {style : Style}
    {m : Nat}
    {e : Int}
    {s : Sign}
    {hPos : 0 < m}
    (hReadable : style.Readable)
    (hForm : Canonical (.finite s m e hPos)) :
    (∃ c rest,
      magnitudeText style m e = c :: rest ∧ isDigit c = true) ∧
      decimal? (magnitudeText style m e) =
        some (Float.ofModel (.pack (.finite .positive m e hPos))) := by
  have hDigits := allDigits_toDigits (Shortest.shortest m e).significand
  have hSome :
      Nat.toDigits 10 (Shortest.shortest m e).significand ≠ [] :=
    Nat.toDigits_ne_nil
  have hClosest :
      closest
          (value (Nat.toDigits 10
            (Shortest.shortest m e).significand) *
            10 ^ ((Shortest.shortest m e).exponent +
              (Nat.toDigits 10
                (Shortest.shortest m e).significand).length -
              (Nat.toDigits 10
                (Shortest.shortest m e).significand).length)) =
        Float.ofModel (.pack (.finite .positive m e hPos)) := by
    rw [value_toDigits, add_sub_cancel_right,
      ← Shortest.rounding_shortest .positive hForm]
    rfl
  have hNotZero : (m == 0) = false := by simpa using hPos.ne'
  unfold magnitudeText Shortest.Digits.text
  rw [hNotZero, if_neg Bool.false_ne_true, ← hClosest]
  dsimp only
  split_ifs with hStyle
  · exact writes_positional style hDigits hSome _
  · exact writes_scientific hReadable hDigits hSome _

theorem decimal?_magnitudeText_zero (style : Style) (e : Int) :
    (∃ c rest,
      magnitudeText style 0 e = c :: rest ∧ isDigit c = true) ∧
      decimal? (magnitudeText style 0 e) = some 0 := by
  have hPlain : decimal? ['0'] = some 0 := by
    with_unfolding_all rfl
  have hFraction : decimal? ['0', '.', '0'] = some 0 := by
    with_unfolding_all rfl
  unfold magnitudeText
  rw [if_pos (beq_self_eq_true 0)]
  split_ifs
  · exact ⟨⟨'0', _, rfl, rfl⟩, hFraction⟩
  · exact ⟨⟨'0', _, rfl, rfl⟩, hPlain⟩

/- A double is its magnitude under its sign. -/
theorem eq_under_sign
    {x y : Float}
    {s : Sign}
    (hSome : x.toModel.unpack ≠ .notANumber)
    (hMinus : s = .negative →
      y.toModel.unpack.neg = x.toModel.unpack)
    (hPlus : s = .positive → y.toModel.unpack = x.toModel.unpack) :
    (if s == .negative then -y else y) = x := by
  cases s
  · apply (eq_of_unpack hSome _).symm
    have hNeg :
        (-y).toModel.unpack =
          (Model.pack y.toModel.unpack.neg).unpack := rfl
    have hForm := (canonical_unpack y.toModel).neg
    exact ((hNeg.trans (unpack_pack hForm)).trans (hMinus rfl)).symm
  · exact (eq_of_unpack hSome (hPlus rfl).symm).symm

/-
  The text of a finite double is a number that starts with a
  digit, behind a minus sign or without. The number is read
  as a double that is the given one under this sign.
-/
theorem floatText_of_finite
    {style : Style}
    {x : Float}
    (hReadable : style.Readable)
    (hFinite : Binary64.isFinite x = true) :
    ∃ (negative : Bool) (c : Char) (rest : List Char) (y : Float),
      (floatText style x).toList =
          (if negative then '-' :: c :: rest else c :: rest) ∧
        isDigit c = true ∧ decimal? (c :: rest) = some y ∧
        (if negative then -y else y) = x := by
  have hForm := canonical_unpack x.toModel
  have hExact := exact_eq_view x
  unfold Binary64.isFinite at hFinite
  unfold floatText
  cases hUnpack : x.toModel.unpack with
  | notANumber =>
      rw [hExact, hUnpack] at hFinite
      cases hFinite
  | infinity s =>
      rw [hExact, hUnpack] at hFinite
      cases hFinite
  | zero s =>
      have hZero : (0 : Float).toModel.unpack = .zero .positive := by
        with_unfolding_all rfl
      obtain ⟨⟨c, rest, hText, hDigit⟩, hRead⟩ :=
        decimal?_magnitudeText_zero style (-1074)
      rw [hText] at hRead
      rw [hExact, hUnpack]
      simp only [view, String.toList_ofList, hText]
      refine ⟨_, c, rest, 0, rfl, hDigit, hRead, ?_⟩
      apply eq_under_sign <;> rw [hUnpack]
      · simp
      · rintro rfl
        rw [hZero]
        rfl
      · rintro rfl
        exact hZero
  | finite s m e hPos =>
      rw [hUnpack] at hForm
      have hPacked :=
        unpack_pack (u := .finite .positive m e hPos) hForm
      obtain ⟨⟨c, rest, hText, hDigit⟩, hRead⟩ :=
        decimal?_magnitudeText hReadable hForm
      rw [hText] at hRead
      rw [hExact, hUnpack]
      simp only [view, String.toList_ofList, hText]
      refine ⟨_, c, rest, _, rfl, hDigit, hRead, ?_⟩
      apply eq_under_sign <;> rw [hUnpack]
      · simp
      · rintro rfl
        rw [hPacked]
        rfl
      · rintro rfl
        exact hPacked

end FloatText

namespace Numeral

open FloatText

/- The text of a finite double is read as that double. -/
theorem float?_floatText
    {style : Style}
    {x : Float}
    (hReadable : style.Readable)
    (hFinite : Binary64.isFinite x = true) :
    float? (floatText style x).toList = some x := by
  obtain ⟨negative, c, rest, y, hText, hDigit, hRead, hX⟩ :=
    floatText_of_finite hReadable hFinite
  have hMagnitude := (magnitude?_of_digit hDigit).trans hRead
  have hNoSign : sign (c :: rest) = (false, c :: rest) := by
    unfold sign
    split
    next hSame => cases hSame; cases hDigit
    next hSame => cases hSame; cases hDigit
    next => rfl
  rw [hText, float?]
  cases negative
  · rw [if_neg Bool.false_ne_true, hNoSign]
    dsimp only
    rw [hMagnitude, ← hX]
    rfl
  · rw [if_pos rfl, sign]
    dsimp only
    rw [hMagnitude, ← hX]
    rfl

end Numeral

------------------------------------------------------------
-- Characters
------------------------------------------------------------

namespace FloatText

open Numeral

/- There are no blanks among the characters. -/
def Plain (cs : List Char) : Prop :=
  ∀ c ∈ cs, Text.isBlank c = false

theorem plain_nil : Plain [] := by simp [Plain]

theorem Plain.append
    {cs ds : List Char}
    (hFirst : Plain cs)
    (hSecond : Plain ds) :
    Plain (cs ++ ds) := by
  intro c hMem
  exact (List.mem_append.mp hMem).elim (hFirst c) (hSecond c)

theorem Plain.cons
    {c : Char}
    {cs : List Char}
    (hFirst : Text.isBlank c = false)
    (hRest : Plain cs) :
    Plain (c :: cs) :=
  List.forall_mem_cons.mpr ⟨hFirst, hRest⟩

theorem AllDigits.plain
    {cs : List Char}
    (hDigits : AllDigits cs) :
    Plain cs := by
  intro c hMem
  have hRange := isDigit_iff.mp (hDigits c hMem)
  simp [Text.isBlank]
  omega

theorem plain_zeros (n : Nat) : Plain (zeros n) :=
  AllDigits.plain (allDigits_zeros n)

variable {digits : List Char}

theorem plain_layPositional
    (style : Style)
    (hDigits : Plain digits)
    (point : Int) :
    Plain (layPositional style digits point) := by
  unfold layPositional
  dsimp only
  split_ifs
  · exact .cons rfl (.cons rfl ((plain_zeros _).append hDigits))
  · exact (hDigits.append (plain_zeros _)).append
      (.cons rfl (.cons rfl plain_nil))
  · exact (hDigits.append (plain_zeros _)).append plain_nil
  · exact Plain.append
      (fun c hMem => hDigits c (List.take_subset _ _ hMem))
      (.cons rfl
        (fun c hMem => hDigits c (List.drop_subset _ _ hMem)))

theorem plain_exponentText
    {style : Style}
    (hReadable : style.Readable)
    (e : Int) :
    Plain (exponentText style e) := by
  have hDigits := AllDigits.plain (allDigits_toDigits e.natAbs)
  unfold exponentText
  split_ifs
  · exact .cons rfl hDigits
  · rcases hReadable with hNone | hPlus
    · rw [hNone]
      exact hDigits
    · rw [hPlus]
      exact .cons rfl hDigits

theorem plain_layScientific
    {style : Style}
    (hReadable : style.Readable)
    (hDigits : Plain digits)
    (point : Int) :
    Plain (layScientific style digits point) := by
  have hTake : Plain (digits.take 1) :=
    fun c hMem => hDigits c (List.take_subset _ _ hMem)
  have hDrop : Plain (digits.drop 1) :=
    fun c hMem => hDigits c (List.drop_subset _ _ hMem)
  have hExponent :=
    Plain.cons (c := 'e') rfl
      (plain_exponentText hReadable (point - 1))
  unfold layScientific
  split_ifs
  · exact (hTake.append plain_nil).append hExponent
  · exact (hTake.append (.cons rfl hDrop)).append hExponent

theorem plain_magnitudeText
    {style : Style}
    (hReadable : style.Readable)
    (m : Nat)
    (e : Int) :
    Plain (magnitudeText style m e) := by
  have hDigits :=
    AllDigits.plain
      (allDigits_toDigits (Shortest.shortest m e).significand)
  unfold magnitudeText
  dsimp only
  split_ifs
  · exact .cons rfl (.cons rfl (.cons rfl plain_nil))
  · exact .cons rfl plain_nil
  · exact plain_layPositional style hDigits _
  · exact plain_layScientific hReadable hDigits _

end FloatText

/- The text of a double has no blanks. -/
theorem plain_floatText
    {style : FloatText.Style}
    (hReadable : style.Readable)
    (x : Float) :
    FloatText.Plain (floatText style x).toList := by
  unfold floatText
  split
  next => exact .cons rfl (.cons rfl (.cons rfl FloatText.plain_nil))
  next =>
    have hWord : FloatText.Plain "INF".toList :=
      .cons rfl (.cons rfl (.cons rfl FloatText.plain_nil))
    split_ifs
    · exact .cons rfl hWord
    · exact hWord
  next negative m e _ =>
    have hPlain := FloatText.plain_magnitudeText hReadable m e
    simp only [String.toList_ofList]
    split_ifs
    · exact .cons rfl hPlain
    · exact hPlain

end Assessment
