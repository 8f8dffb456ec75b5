import Assessment.Proofs.Expression.Containment
import Assessment.Proofs.Item.Binding
import Assessment.Proofs.Number.Decimals
import Assessment.Proofs.Typing.Values
import Assessment.Proofs.Value.IntegerTexts

/-
  Values that are read back from their results.

  A value is written as text and as data. Whatever has been
  read from data, in any of the forms that data may have, can
  be written in both ways and read again, and it is the same
  value, with the same double in every float. NaN alone is
  different from itself.

  Main declarations:
    * `Scalar.Legible`, single values that can be read
    * `Scalar.legible_of_ofJson`
    * `Scalar.parse_text` and `Scalar.ofJson_toJson`
    * `Value.reads_back`
-/

------------------------------------------------------------
-- Numbers
------------------------------------------------------------

namespace Assessment

namespace Numeral

/- The text of an integer is its numeral. -/
theorem spells_toString (n : Int) :
    Spells (toString n).toList n := by
  have hDigits (m : Nat) : Digits (Nat.toDigits 10 m) :=
    ⟨Nat.toDigits_ne_nil, allDigits_toDigits m⟩
  have hValue (m : Nat) :
      Nat.ofDigitChars 10 (Nat.toDigits 10 m) 0 = m :=
    Nat.ofDigitChars_ten_toDigits
  cases n with
  | ofNat m =>
      have hText :
          (toString (Int.ofNat m)).toList = Nat.toDigits 10 m := by
        change (toString m).toList = _
        rw [Nat.toString_eq_repr, Nat.toList_repr]
      rw [hText]
      have hSpells := Spells.plain (hDigits m)
      rwa [hValue] at hSpells
  | negSucc m =>
      have hText :
          (toString (Int.negSucc m)).toList =
            '-' :: Nat.toDigits 10 (m + 1) := by
        change ("-" ++ toString (m + 1)).toList = _
        rw [String.toList_append, Nat.toString_eq_repr,
          Nat.toList_repr]
        rfl
      rw [hText]
      have hSpells := Spells.minus (hDigits (m + 1))
      rwa [hValue] at hSpells

theorem integer?_toString (n : Int64) :
    integer? (toString n.toInt).toList = some n :=
  integer?_eq_some_iff.mpr (spells_toString n.toInt)

end Numeral

open FloatText (Plain)
open Text (Solid)

/- The text of a double is a word. -/
theorem solid_floatText
    {style : FloatText.Style}
    (hReadable : style.Readable)
    (x : Float) :
    Solid (floatText style x).toList := by
  refine ⟨?_, plain_floatText hReadable x⟩
  cases hExact : Binary64.exact x with
  | nan => simp [floatText, hExact]
  | infinite negative => cases negative <;> simp [floatText, hExact]
  | finite negative m e =>
      have hFinite : Binary64.isFinite x = true := by
        rw [Binary64.isFinite, hExact]
      obtain ⟨_, _, _, _, hText, -⟩ :=
        FloatText.floatText_of_finite hReadable hFinite
      rw [hText]
      split_ifs <;> simp

/- NaN alone has the exact view of NaN. -/
theorem exact_ne_nan {x : Float} (hNumber : x.isNaN = false) :
    Binary64.exact x ≠ .nan := by
  have hUnpack : x.isNaN = x.toModel.unpack.isNaN := rfl
  rw [hUnpack] at hNumber
  rw [Double.exact_eq_view]
  cases hU : x.toModel.unpack with
  | notANumber =>
      rw [hU] at hNumber
      cases hNumber
  | _ => simp [Double.view]

/- A double is equal to itself if it is not NaN. -/
theorem float_beq_self {x : Float} (hNumber : x.isNaN = false) :
    (x == x) = true := by
  have hUnpack : x.isNaN = x.toModel.unpack.isNaN := rfl
  have hBeq :
      (x == x) = x.toModel.unpack.beq x.toModel.unpack := rfl
  rw [hUnpack] at hNumber
  rw [hBeq]
  cases hU : x.toModel.unpack with
  | notANumber =>
      rw [hU] at hNumber
      cases hNumber
  | infinity s => cases s <;> rfl
  | zero s => rfl
  | finite s m e hPos =>
      cases s <;>
        simp [Float.Model.UnpackedFloat.beq,
          Float.Model.UnpackedFloat.compare]

namespace Scalar

/- The words for infinity are no texts of finite doubles. -/
theorem floatText_ne_word
    {style : FloatText.Style}
    {x y : Float}
    {word : String}
    (hReadable : style.Readable)
    (hFinite : Binary64.isFinite x = true)
    (hWord : Numeral.float? word.toList = some y)
    (hInfinite : Binary64.isFinite y = false) :
    (floatText style x == word) = false := by
  rw [beq_eq_false_iff_ne]
  rintro rfl
  rw [Numeral.float?_floatText hReadable hFinite,
    Option.some_inj] at hWord
  rw [hWord, hInfinite] at hFinite
  cases hFinite

theorem floatOf?_inf : floatOf? "INF" = some (1 / 0) :=
  if_pos (by decide)

theorem floatOf?_negative_inf : floatOf? "-INF" = some (-1 / 0) :=
  (if_neg (by decide)).trans (if_pos (by decide))

/- The text of a double is read as that double. -/
theorem floatOf?_floatText
    {style : FloatText.Style}
    {x : Float}
    (hReadable : style.Readable)
    (hNumber : x.isNaN = false) :
    floatOf? (floatText style x) = some x := by
  have hNotNaN := exact_ne_nan hNumber
  cases hExact : Binary64.exact x with
  | nan => exact absurd hExact hNotNaN
  | infinite negative =>
      have hPlus : Binary64.exact (1 / 0) = .infinite false := by
        rw [Double.exact_eq_view, Double.unpack_infinity]
        rfl
      have hMinus : Binary64.exact (-1 / 0) = .infinite true := by
        rw [Double.exact_eq_view, Double.unpack_negative_infinity]
        rfl
      unfold floatText
      rw [hExact]
      cases negative
      · rw [Double.eq_of_exact hNotNaN (hExact.trans hPlus.symm)]
        exact floatOf?_inf
      · rw [Double.eq_of_exact hNotNaN (hExact.trans hMinus.symm)]
        exact floatOf?_negative_inf
  | finite negative m e =>
      have hFinite : Binary64.isFinite x = true := by
        rw [Binary64.isFinite, hExact]
      have hInf : Numeral.float? "INF".toList = some (1 / 0) := by
        with_unfolding_all rfl
      have hMinus : Numeral.float? "-INF".toList = some (-1 / 0) := by
        with_unfolding_all rfl
      have hNaN : Numeral.float? "NaN".toList = some (0 / 0) := by
        with_unfolding_all rfl
      obtain ⟨minus, c, rest, y, hText, hDigit, -⟩ :=
        FloatText.floatText_of_finite hReadable hFinite
      have hNoPlus :
          (floatText style x).toList.dropWhile (· == '+') =
            (floatText style x).toList := by
        rw [hText]
        split_ifs
        · rfl
        · apply List.dropWhile_cons_of_neg
          rw [beq_iff_eq]
          rintro rfl
          cases hDigit
      rw [floatOf?,
        floatText_ne_word hReadable hFinite hInf (by decide +kernel),
        floatText_ne_word hReadable hFinite hMinus (by decide +kernel),
        floatText_ne_word hReadable hFinite hNaN (by decide +kernel),
        hNoPlus]
      exact Numeral.float?_floatText hReadable hFinite

------------------------------------------------------------
-- Legible Values
------------------------------------------------------------

/- A float or a duration that is not a number. -/
def isNaN : Scalar → Bool
  | .float x | .duration x => x.isNaN
  | _ => false

/-
  What single values are if they have been read: their words
  have no blanks, their texts have been trimmed, and time is
  not negative.
-/
def Legible : Scalar → Prop
  | .identifier s => Solid s.toList
  | .pair a b | .directedPair a b => Solid a.toList ∧ Solid b.toList
  | .uri s => Text.trim s = s
  | .intOrIdentifier s => s ≠ "" ∧ Text.trim s = s
  | .duration x => ¬x < 0
  | _ => True

/- A single value that is not NaN is equal to itself. -/
theorem equals_self_of_number
    {v : Scalar}
    (hNumber : v.isNaN = false) :
    v.equals v = true := by
  cases v with
  | float x => exact float_beq_self hNumber
  | duration x => exact float_beq_self hNumber
  | _ => simp [equals]

theorem padded_self (s : String) : Text.Padded s s.toList :=
  ⟨[], [], Text.blank_nil, Text.blank_nil, by simp⟩

/- The text of a double is read as a float. -/
theorem parse_float_floatText
    {style : FloatText.Style}
    {x : Float}
    (hReadable : style.Readable)
    (hNumber : x.isNaN = false) :
    parse .float (floatText style x) = .ok (.float x) := by
  unfold parse parse?
  dsimp only
  rw [Text.trim_of_solid (solid_floatText hReadable x),
    floatOf?_floatText hReadable hNumber]
  rfl

theorem parse_duration_floatText
    {style : FloatText.Style}
    {x : Float}
    (hReadable : style.Readable)
    (hNumber : x.isNaN = false)
    (hTime : ¬x < 0) :
    parse .duration (floatText style x) = .ok (.duration x) := by
  unfold parse parse?
  dsimp only
  rw [Text.trim_of_solid (solid_floatText hReadable x),
    floatOf?_floatText hReadable hNumber]
  dsimp only
  rw [if_neg hTime]

/- Two words with a blank between them are those two words. -/
theorem words_pair
    {a b : String}
    (hFirst : Solid a.toList)
    (hSecond : Solid b.toList) :
    Text.words (Text.trim (a ++ " " ++ b)) = [a, b] := by
  rw [Text.words_trim, Text.words_eq_pair_iff]
  refine ⟨hFirst, hSecond, [' '], ?_, by simp, ?_⟩
  · simp [Text.Blank, Text.isBlank]
  · have hPadded := padded_self (a ++ " " ++ b)
    rw [String.toList_append, String.toList_append] at hPadded
    exact hPadded

/- The text of a single value is read as that value. -/
theorem parse_text
    {v : Scalar}
    (hLegible : v.Legible)
    (hNumber : v.isNaN = false) :
    parse v.baseType v.text = .ok v := by
  cases v with
  | identifier s =>
      have hTrim := Text.trim_of_solid hLegible
      obtain ⟨hSome, hPlain⟩ := hLegible
      have hNotEmpty : s.isEmpty = false := by
        simpa [String.isEmpty_iff] using hSome
      have hNoBlank : s.toList.any Text.isBlank = false := by
        simpa using hPlain
      simp only [baseType, text, parse, parse?, hTrim, hNotEmpty,
        hNoBlank]
      rfl
  | boolean b => cases b <;> rfl
  | integer n =>
      exact parse_integer_iff.mpr
        ⟨_, n, padded_self _, (Numeral.spells_toString _).follows, rfl⟩
  | float x =>
      exact parse_float_floatText FloatText.readable_spelled hNumber
  | string s => rfl
  | point x y =>
      have hX := Numeral.spells_toString x.toInt
      have hY := Numeral.spells_toString y.toInt
      have hWords := words_pair hX.solid hY.solid
      simp only [baseType, text, parse, parse?, hWords,
        Numeral.integer?_toString]
  | pair a b =>
      have hWords := words_pair hLegible.1 hLegible.2
      simp only [baseType, text, parse, parse?, hWords]
  | directedPair a b =>
      have hWords := words_pair hLegible.1 hLegible.2
      simp only [baseType, text, parse, parse?, hWords]
  | duration x =>
      exact parse_duration_floatText FloatText.readable_spelled
        hNumber hLegible
  | file s => rfl
  | uri s =>
      have hTrim : Text.trim s = s := hLegible
      simp only [baseType, text, parse, parse?, hTrim]
  | intOrIdentifier s =>
      obtain ⟨hSome, hTrim⟩ := hLegible
      have hNotEmpty : s.isEmpty = false := by
        simpa [String.isEmpty_iff] using hSome
      simp only [baseType, text, parse, parse?, hTrim, hNotEmpty]
      rfl

------------------------------------------------------------
-- What Has Been Read
------------------------------------------------------------

/- A text is read as a legible value. -/
theorem legible_of_parse
    {t : BaseType}
    {s : String}
    {v : Scalar}
    (hParse : parse t s = .ok v) :
    v.Legible := by
  unfold parse at hParse
  split at hParse
  next v hRead =>
    cases hParse
    unfold parse? at hRead
    dsimp only at hRead
    split at hRead
    case h_1 =>
      split_ifs at hRead with hBad
      cases hRead
      rw [Bool.or_eq_true, not_or] at hBad
      refine ⟨?_, ?_⟩
      · simpa [String.isEmpty_iff] using hBad.1
      · simpa using hBad.2
    case h_2 => split_ifs at hRead <;> cases hRead <;> trivial
    case h_3 =>
      obtain ⟨n, -, rfl⟩ := Option.map_eq_some_iff.mp hRead
      trivial
    case h_4 =>
      obtain ⟨x, -, rfl⟩ := Option.map_eq_some_iff.mp hRead
      trivial
    case h_5 =>
      split at hRead
      next x _ =>
        split_ifs at hRead with hTime
        cases hRead
        exact hTime
      next => cases hRead
    case h_6 => cases hRead; trivial
    case h_7 =>
      split at hRead
      next =>
        split at hRead
        next => cases hRead; trivial
        next => cases hRead
      next => cases hRead
    case h_8 | h_9 =>
      split at hRead
      next a b hWords =>
        cases hRead
        obtain ⟨hFirst, hSecond, -⟩ :=
          Text.words_eq_pair_iff.mp hWords
        exact ⟨hFirst, hSecond⟩
      next => cases hRead
    case h_10 => cases hRead; trivial
    case h_11 => cases hRead; exact Text.trim_trim s
    case h_12 =>
      split_ifs at hRead with hEmpty
      cases hRead
      refine ⟨?_, Text.trim_trim s⟩
      simpa [String.isEmpty_iff] using hEmpty
  next => cases hParse

/- The text of a number of a data text is a word. -/
theorem solid_numberText (n : Json.Number) :
    Solid n.text.toList := by
  cases n with
  | whole n => exact (Numeral.spells_toString n).solid
  | float x =>
      unfold Json.Number.text
      dsimp only
      split_ifs
      · exact solid_floatText FloatText.readable_noted x
      · exact ⟨List.cons_ne_nil _ _,
          FloatText.Plain.cons rfl (.cons rfl
            (.cons rfl (.cons rfl FloatText.plain_nil)))⟩

/- Data are read as legible values. -/
theorem legible_of_ofJson
    {t : BaseType}
    {json : Json}
    {v : Scalar}
    (hRead : ofJson t json = .ok v) :
    v.Legible := by
  unfold ofJson at hRead
  split at hRead
  next => exact legible_of_parse hRead
  next => cases hRead; trivial
  next =>
    split at hRead
    next => cases hRead; trivial
    next => cases hRead
  next => exact legible_of_parse hRead
  next => exact legible_of_parse hRead
  next n =>
    cases hRead
    have hSolid := solid_numberText n
    refine ⟨?_, Text.trim_of_solid hSolid⟩
    intro hEmpty
    exact hSolid.1 (by rw [hEmpty]; rfl)
  next => cases hRead
  next => cases hRead

/- The data form of a single value is read as that value. -/
theorem ofJson_toJson
    {v : Scalar}
    (hLegible : v.Legible)
    (hNumber : v.isNaN = false) :
    ofJson v.baseType v.toJson = .ok v := by
  have hText := parse_text hLegible hNumber
  cases v with
  | boolean b => rfl
  | integer n =>
      have hFits : Binary64.int64? n.toInt = some n := by
        rw [Binary64.int64?_of_fits (fitsInt64_toInt n),
          Int64.ofInt_toInt]
      simp only [baseType, toJson, Json.int, ofJson, Json.int64?,
        hFits]
  | float x =>
      have hNumeric :=
        parse_float_floatText FloatText.readable_plain hNumber
      rw [baseType, toJson]
      split_ifs
      · rw [ofJson, Json.Number.toFloat, hNumeric]
      · exact hText
  | duration x =>
      have hNumeric :=
        parse_duration_floatText FloatText.readable_plain hNumber
          hLegible
      rw [baseType, toJson]
      split_ifs
      · rw [ofJson, Json.Number.toFloat, hNumeric]
      · exact hText
  | _ => exact hText

end Scalar

------------------------------------------------------------
-- Containers
------------------------------------------------------------

namespace Value

variable {c : Cardinality} {t : BaseType}

/- Values of one base type that can be read. -/
def AllLegible (t : BaseType) (scalars : List Scalar) : Prop :=
  ∀ s ∈ scalars, s.baseType = t ∧ s.Legible

theorem allLegible_of_ofJsonAll
    {jsons : List Json}
    {scalars : List Scalar}
    (hRead : Scalar.ofJsonAll t jsons = .ok scalars) :
    AllLegible t scalars := by
  induction jsons generalizing scalars with
  | nil =>
      cases hRead
      simp [AllLegible]
  | cons json rest ih =>
      obtain ⟨s, hFirst, hOthers⟩ := bind_eq_ok_iff.mp hRead
      obtain ⟨others, hRest, hAll⟩ := bind_eq_ok_iff.mp hOthers
      cases hAll
      exact List.forall_mem_cons.mpr
        ⟨⟨Scalar.baseType_of_ofJson hFirst,
          Scalar.legible_of_ofJson hFirst⟩, ih hRest⟩

/- The data forms of legible values are read one by one. -/
theorem ofJsonAll_toJson
    {scalars : List Scalar}
    (hLegible : AllLegible t scalars)
    (hNumbers : ∀ s ∈ scalars, s.isNaN = false) :
    Scalar.ofJsonAll t (scalars.map Scalar.toJson) =
      .ok scalars := by
  induction scalars with
  | nil => rfl
  | cons s rest ih =>
      obtain ⟨⟨hType, hFirst⟩, hOthers⟩ :=
        List.forall_mem_cons.mp hLegible
      obtain ⟨hNumber, hRest⟩ := List.forall_mem_cons.mp hNumbers
      have hRead := Scalar.ofJson_toJson hFirst hNumber
      rw [hType] at hRead
      rw [List.map_cons, Scalar.ofJsonAll, hRead, ih hOthers hRest]
      rfl

/- What is read holds legible values. -/
theorem holds_of_ofJson
    {json : Json}
    {v : Value}
    (hPlain : c ≠ .record)
    (hRead : ofJson c (some t) json = .ok v) :
    ∃ scalars, AllLegible t scalars ∧ HoldsAll c t scalars v := by
  have hBuilt :
      ∀ {scalars : List Scalar}, AllLegible t scalars →
        ofList c t scalars = .ok v →
        ∃ scalars, AllLegible t scalars ∧ HoldsAll c t scalars v :=
    fun {scalars} hLegible hBuild =>
      ⟨scalars, hLegible,
        (ofList_eq_ok_iff fun s hMem => (hLegible s hMem).1).mp
          hBuild⟩
  unfold ofJson at hRead
  split at hRead
  next =>
    cases hRead
    exact ⟨[], by simp [AllLegible], .none hPlain⟩
  next => exact absurd rfl hPlain
  next => exact absurd rfl hPlain
  next hNone => cases hNone
  next jsons _ type _ hSome =>
    cases hSome
    obtain ⟨scalars, hAll, hBuild⟩ := bind_eq_ok_iff.mp hRead
    exact hBuilt (allLegible_of_ofJsonAll hAll) hBuild
  next type _ _ _ hSome =>
    cases hSome
    obtain ⟨s, hOne, hBuild⟩ := bind_eq_ok_iff.mp hRead
    refine hBuilt ?_ hBuild
    intro s' hMem
    rw [List.mem_singleton] at hMem
    exact hMem ▸ ⟨Scalar.baseType_of_ofJson hOne,
      Scalar.legible_of_ofJson hOne⟩

/- A single value in data is a list of one. -/
theorem ofJson_scalar
    (s : Scalar)
    (hPlain : c ≠ .record) :
    ofJson c (some t) s.toJson =
      Scalar.ofJson t s.toJson >>= fun s => ofList c t [s] := by
  cases c with
  | record => exact absurd rfl hPlain
  | _ =>
      cases s with
      | float x =>
          unfold Scalar.toJson
          dsimp only
          split_ifs <;> rfl
      | duration x =>
          unfold Scalar.toJson
          dsimp only
          split_ifs <;> rfl
      | _ => rfl

/- The data form of a value that holds legible ones is read. -/
theorem ofJson_of_holds
    {scalars : List Scalar}
    {v : Value}
    (hLegible : AllLegible t scalars)
    (hNumbers : ∀ s ∈ scalars, s.isNaN = false)
    (hHolds : HoldsAll c t scalars v) :
    ofJson c (some t) v.toJson = .ok v := by
  have hBuild :=
    (ofList_eq_ok_iff fun s hMem => (hLegible s hMem).1).mpr hHolds
  have hAll := ofJsonAll_toJson hLegible hNumbers
  cases hHolds with
  | none hPlain => rfl
  | single s =>
      obtain ⟨hType, hFirst⟩ := hLegible s List.mem_cons_self
      have hRead := Scalar.ofJson_toJson hFirst
        (hNumbers s List.mem_cons_self)
      rw [hType] at hRead
      rw [toJson, ofJson_scalar s (by simp), hRead]
      exact hBuild
  | multiple s rest =>
      rw [toJson, ofJson, hAll]
      · exact hBuild
      all_goals simp
  | ordered s rest =>
      rw [toJson, ofJson, hAll]
      · exact hBuild
      all_goals simp

theorem HoldsAll.elements_eq
    {scalars : List Scalar}
    {v : Value}
    (hHolds : HoldsAll c t scalars v) :
    v.elements = scalars ∧ v.scalars = scalars := by
  cases hHolds <;> exact ⟨rfl, rfl⟩

/-
  A value that has been read, other than a record, and that
  holds no NaN, is read again from the data that it is
  written as, and each of its single values is read again
  from its text.
-/
theorem reads_back
    {json : Json}
    {v : Value}
    (hPlain : c ≠ .record)
    (hRead : ofJson c (some t) json = .ok v)
    (hNumbers : ∀ s ∈ v.elements, s.isNaN = false) :
    ofJson c (some t) v.toJson = .ok v ∧ v.equals v = true ∧
      ∀ s ∈ v.elements,
        Scalar.parse t s.text = .ok s ∧ s.equals s = true := by
  obtain ⟨scalars, hLegible, hHolds⟩ := holds_of_ofJson hPlain hRead
  obtain ⟨hElements, hScalars⟩ := hHolds.elements_eq
  rw [hElements] at hNumbers ⊢
  have hSelf : ∀ s ∈ scalars, s.equals s = true :=
    fun s hMem => Scalar.equals_self_of_number (hNumbers s hMem)
  refine ⟨ofJson_of_holds hLegible hNumbers hHolds,
    equals_self_of_scalars (by rwa [hScalars]), ?_⟩
  intro s hMem
  obtain ⟨hType, hOne⟩ := hLegible s hMem
  have hParse := Scalar.parse_text hOne (hNumbers s hMem)
  rw [hType] at hParse
  exact ⟨hParse, hSelf s hMem⟩

/- Infinity and a zero with a sign are read back. -/
theorem reads_back_floats :
    Cardinality.multiple ≠ .record ∧
      ofJson .multiple (some .float)
          (.array [.string "INF", .number (.float (-0))]) =
        .ok (.multiple .float [.float (1 / 0), .float (-0)]) ∧
      (∀ s ∈ (multiple .float
          [.float (1 / 0), .float (-0)]).elements,
        s.isNaN = false) ∧
      ofJson .multiple (some .float)
          (multiple .float [.float (1 / 0), .float (-0)]).toJson =
        .ok (.multiple .float [.float (1 / 0), .float (-0)]) := by
  have hPlain : Cardinality.multiple ≠ .record := by decide
  have hNumbers :
      ∀ s ∈ (multiple .float
          [.float (1 / 0), .float (-0)]).elements,
        s.isNaN = false := by
    simp only [elements, List.forall_mem_cons]
    exact ⟨by decide +kernel, by decide +kernel, by simp⟩
  have hRead :
      ofJson .multiple (some .float)
          (.array [.string "INF", .number (.float (-0))]) =
        .ok (.multiple .float [.float (1 / 0), .float (-0)]) := by
    have hInf : Scalar.parse .float "INF" = .ok (.float (1 / 0)) := by
      have hTrim : Text.trim "INF" = "INF" := rfl
      simp only [Scalar.parse, Scalar.parse?, hTrim,
        Scalar.floatOf?_inf, Option.map_some]
    have hZero :=
      Scalar.parse_float_floatText (x := -0)
        FloatText.readable_plain (by decide +kernel)
    simp only [ofJson, Scalar.ofJsonAll, Scalar.ofJson, hInf,
      Json.Number.toFloat, hZero]
    rfl
  exact ⟨hPlain, hRead, hNumbers,
    (reads_back hPlain hRead hNumbers).1⟩

end Value

end Assessment
