import Assessment.Proofs.Number.Whole
import Assessment.Proofs.Text
import Assessment.Proofs.Text.Words
import Assessment.Value.Reader

/-
  The grammar of integers in texts.

  A numeral is a sequence of digits, with a sign in front or
  without. The coordinates of a point are numerals of 64
  bits. For an integer alone any number of plus signs may
  stand in front of the numeral, so that a numeral with a
  minus sign may follow plus signs, too.

  Main declarations:
    * `Numeral.Spells`, numerals and what they stand for
    * `Numeral.integer?_eq_some_iff`
    * `Scalar.parse_integer_iff` and `parse_point_iff`
    * `Scalar.integer_texts`
-/

------------------------------------------------------------
-- Numerals
------------------------------------------------------------

namespace Assessment

namespace Numeral

/- A sequence of digits that is not empty. -/
def Digits (cs : List Char) : Prop :=
  cs ≠ [] ∧ ∀ c ∈ cs, c.isDigit = true

/- Digits behind at most one sign, and their number. -/
inductive Spells : List Char → Int → Prop where
  | plain {ds} (hDigits : Digits ds) :
      Spells ds (Nat.ofDigitChars 10 ds 0)
  | plus {ds} (hDigits : Digits ds) :
      Spells ('+' :: ds) (Nat.ofDigitChars 10 ds 0)
  | minus {ds} (hDigits : Digits ds) :
      Spells ('-' :: ds) (-Nat.ofDigitChars 10 ds 0)

theorem natural?_eq_some_iff {cs : List Char} {n : Nat} :
    natural? cs = some n ↔
      Digits cs ∧ Nat.ofDigitChars 10 cs 0 = n := by
  have hValue : value cs = Nat.ofDigitChars 10 cs 0 := rfl
  unfold natural? Digits
  simp [hValue, isDigit_eq]

theorem Digits.ne_cons
    {c : Char}
    {rest : List Char}
    (hOther : c.isDigit = false) :
    ¬Digits (c :: rest) := by
  intro hDigits
  rw [hDigits.2 c List.mem_cons_self] at hOther
  cases hOther

/- Digits behind a sign, or without one. -/
theorem spells_iff {cs : List Char} {n : Int} :
    Spells cs n ↔
      Digits (sign cs).2 ∧
        n = if (sign cs).1
          then -(Nat.ofDigitChars 10 (sign cs).2 0 : Int)
          else Nat.ofDigitChars 10 (sign cs).2 0 := by
  constructor
  · rintro (hDigits | hDigits | hDigits)
    · have hSign : sign cs = (false, cs) := by
        unfold sign
        split
        · exact absurd hDigits (Digits.ne_cons rfl)
        · exact absurd hDigits (Digits.ne_cons rfl)
        · rfl
      rw [hSign]
      exact ⟨hDigits, rfl⟩
    · exact ⟨hDigits, rfl⟩
    · exact ⟨hDigits, rfl⟩
  · rintro ⟨hDigits, rfl⟩
    unfold sign at hDigits ⊢
    split at hDigits
    · exact .minus hDigits
    · exact .plus hDigits
    · exact .plain hDigits

/- A numeral of 64 bits is read as its number. -/
theorem integer?_eq_some_iff {cs : List Char} {n : Int64} :
    integer? cs = some n ↔ Spells cs n.toInt := by
  rw [spells_iff]
  unfold integer?
  obtain ⟨negative, digits⟩ := sign cs
  dsimp only
  cases hNatural : natural? digits with
  | none =>
      have hNot : ¬Digits digits := fun hDigits => by
        rw [natural?_eq_some_iff.mpr ⟨hDigits, rfl⟩] at hNatural
        cases hNatural
      simp [hNot]
  | some m =>
      obtain ⟨hDigits, rfl⟩ := natural?_eq_some_iff.mp hNatural
      simp only [hDigits, true_and]
      rw [Binary64.int64?_eq]
      generalize (if negative then _ else _ : Int) = v
      constructor
      · intro hSome
        split_ifs at hSome with hFits
        rw [← Option.some.inj hSome, hFits.toInt_ofInt]
      · intro hValue
        rw [← hValue, if_pos (fitsInt64_toInt n),
          Int64.ofInt_toInt]

theorem isBlank_of_isDigit {c : Char} (hDigit : c.isDigit = true) :
    Text.isBlank c = false := by
  have hRange : 48 ≤ c.toNat ∧ c.toNat ≤ 57 := by
    simpa [Char.isDigit, UInt32.le_iff_toNat_le] using hDigit
  simp [Text.isBlank]
  omega

theorem Digits.solid {cs : List Char} (hDigits : Digits cs) :
    Text.Solid cs :=
  ⟨hDigits.1, fun c hMem => isBlank_of_isDigit (hDigits.2 c hMem)⟩

/- Neither a sign nor a digit is blank. -/
theorem Spells.solid
    {cs : List Char}
    {n : Int}
    (hSpells : Spells cs n) :
    Text.Solid cs := by
  rcases hSpells with hDigits | hDigits | hDigits
  · exact hDigits.solid
  · exact .cons rfl hDigits.solid.2
  · exact .cons rfl hDigits.solid.2

/-
  A numeral behind plus signs, of which there may be none. It
  may have a sign of its own.
-/
def Follows (cs : List Char) (n : Int) : Prop :=
  ∃ k numeral,
    cs = List.replicate k '+' ++ numeral ∧ Spells numeral n

theorem Follows.solid
    {cs : List Char}
    {n : Int}
    (hFollows : Follows cs n) :
    Text.Solid cs := by
  obtain ⟨k, numeral, rfl, hSpells⟩ := hFollows
  exact .append_left (by simp [Text.isBlank]) hSpells.solid

theorem Spells.follows
    {cs : List Char}
    {n : Int}
    (hSpells : Spells cs n) :
    Follows cs n :=
  ⟨0, cs, rfl, hSpells⟩

theorem Follows.cons
    {cs : List Char}
    {n : Int}
    (hFollows : Follows cs n) :
    Follows ('+' :: cs) n := by
  obtain ⟨k, numeral, rfl, hSpells⟩ := hFollows
  exact ⟨k + 1, numeral, rfl, hSpells⟩

/- The first of the characters is a sign. -/
def Signed (cs : List Char) : Prop :=
  cs.head? = some '+' ∨ cs.head? = some '-'

theorem Digits.not_signed {cs : List Char} (hDigits : Digits cs) :
    ¬Signed cs := by
  obtain ⟨c, rest, rfl⟩ := List.exists_cons_of_ne_nil hDigits.1
  rintro (hSign | hSign) <;> cases hSign <;>
    exact absurd hDigits (Digits.ne_cons rfl)

/- A plus sign in front of a sign does not belong to a numeral. -/
theorem follows_not_spells_iff {cs : List Char} {n : Int} :
    Follows cs n ∧ ¬Spells cs n ↔
      ∃ rest, cs = '+' :: rest ∧ Signed rest ∧ Follows rest n := by
  constructor
  · rintro ⟨⟨k, numeral, rfl, hSpells⟩, hNot⟩
    cases k with
    | zero => exact absurd hSpells hNot
    | succ k =>
        refine ⟨List.replicate k '+' ++ numeral, rfl, ?_,
          k, numeral, rfl, hSpells⟩
        cases k with
        | succ k => exact Or.inl rfl
        | zero =>
            rcases hSpells with hDigits | hDigits | hDigits
            · exact absurd (Spells.plus hDigits) hNot
            · exact Or.inl rfl
            · exact Or.inr rfl
  · rintro ⟨rest, rfl, hSigned, hFollows⟩
    refine ⟨hFollows.cons, fun hSpells => ?_⟩
    rcases hSpells with hDigits | hDigits
    · exact absurd hDigits (Digits.ne_cons rfl)
    · exact hDigits.not_signed hSigned

/- A numeral keeps its number without a plus sign. -/
theorem Spells.dropWhile
    {cs : List Char}
    {n : Int}
    (hSpells : Spells cs n) :
    Spells (cs.dropWhile (· == '+')) n := by
  have hKept {ds : List Char} (hDigits : Digits ds) :
      ds.dropWhile (· == '+') = ds := by
    obtain ⟨c, rest, rfl⟩ := List.exists_cons_of_ne_nil hDigits.1
    refine List.dropWhile_cons_of_neg fun hPlus => ?_
    rw [beq_iff_eq] at hPlus
    exact absurd (hPlus ▸ hDigits) (Digits.ne_cons rfl)
  rcases hSpells with hDigits | hDigits | hDigits
  · rw [hKept hDigits]
    exact .plain hDigits
  · rw [List.dropWhile_cons_of_pos rfl, hKept hDigits]
    exact .plain hDigits
  · exact .minus hDigits

end Numeral

------------------------------------------------------------
-- Integers and Points
------------------------------------------------------------

namespace Scalar

open Numeral (Spells Follows Signed)
open Text (Blank Padded)

theorem integerOf?_eq_some_iff {s : String} {n : Int64} :
    integerOf? s = some n ↔ Follows s.toList n.toInt := by
  rw [integerOf?, Numeral.integer?_eq_some_iff]
  constructor
  · intro hSpells
    have hPluses :
        s.toList.takeWhile (· == '+') =
          List.replicate
            (s.toList.takeWhile (· == '+')).length '+' :=
      List.eq_replicate_of_mem fun c hMem => by
        simpa using List.mem_takeWhile_imp hMem
    refine ⟨(s.toList.takeWhile (· == '+')).length, _, ?_, hSpells⟩
    rw [← hPluses, List.takeWhile_append_dropWhile]
  · rintro ⟨k, numeral, hText, hSpells⟩
    rw [hText, List.dropWhile_append_of_pos (by simp)]
    exact hSpells.dropWhile

/- An integer is a numeral behind plus signs, among blanks. -/
theorem parse_integer_iff {s : String} {v : Scalar} :
    parse .integer s = .ok v ↔
      ∃ cs n, Padded s cs ∧ Follows cs n.toInt ∧
        v = .integer n := by
  unfold parse parse?
  dsimp only
  constructor
  · intro hParse
    cases hRead : integerOf? (Text.trim s) with
    | none =>
        rw [hRead] at hParse
        cases hParse
    | some n =>
        rw [hRead] at hParse
        cases hParse
        exact ⟨_, n, Text.padded_trim s,
          integerOf?_eq_some_iff.mp hRead, rfl⟩
  · rintro ⟨cs, n, hPadded, hFollows, rfl⟩
    have hRead : integerOf? (Text.trim s) = some n := by
      rw [integerOf?_eq_some_iff,
        Text.trim_of_padded hFollows.solid hPadded,
        String.toList_ofList]
      exact hFollows
    rw [hRead]
    rfl

/- A point is two numerals with a gap, among blanks. -/
theorem parse_point_iff {s : String} {v : Scalar} :
    parse .point s = .ok v ↔
      ∃ a gap b x y,
        Padded s (a ++ gap ++ b) ∧ Blank gap ∧ gap ≠ [] ∧
          Spells a x.toInt ∧ Spells b y.toInt ∧
          v = .point x y := by
  unfold parse parse?
  dsimp only
  rw [Text.words_trim]
  constructor
  · intro hParse
    split at hParse
    next v hRead =>
      cases hParse
      split at hRead
      next a b hWords =>
        obtain ⟨-, -, gap, hGap, hSome, hPadded⟩ :=
          Text.words_eq_pair_iff.mp hWords
        split at hRead
        next x y hX hY =>
          cases hRead
          exact ⟨_, gap, _, x, y, hPadded, hGap, hSome,
            Numeral.integer?_eq_some_iff.mp hX,
            Numeral.integer?_eq_some_iff.mp hY, rfl⟩
        next => cases hRead
      next => cases hRead
    next => cases hParse
  · rintro ⟨a, gap, b, x, y, hPadded, hGap, hSome, hA, hB, rfl⟩
    have hWords :
        Text.words s = [String.ofList a, String.ofList b] := by
      rw [Text.words_eq_pair_iff, String.toList_ofList,
        String.toList_ofList]
      exact ⟨hA.solid, hB.solid, gap, hGap, hSome, hPadded⟩
    rw [hWords]
    dsimp only
    rw [String.toList_ofList, String.toList_ofList,
      Numeral.integer?_eq_some_iff.mpr hA,
      Numeral.integer?_eq_some_iff.mpr hB]

/-
  Apart from blanks around it, an integer is any number of
  plus signs and then digits behind at most one sign, and the
  coordinates of a point are just such digits, all of 64
  bits. So an integer is no coordinate if there is a plus
  sign in front of another sign.
-/
theorem integer_texts (s : String) (v : Scalar) :
    (parse .integer s = .ok v ↔
      ∃ cs n, Padded s cs ∧ Follows cs n.toInt ∧
        v = .integer n) ∧
    (parse .point s = .ok v ↔
      ∃ a gap b x y,
        Padded s (a ++ gap ++ b) ∧ Blank gap ∧ gap ≠ [] ∧
          Spells a x.toInt ∧ Spells b y.toInt ∧
          v = .point x y) ∧
    ∀ cs n,
      (Spells cs n → Follows cs n) ∧
        (Follows cs n ∧ ¬Spells cs n ↔
          ∃ rest,
            cs = '+' :: rest ∧ Signed rest ∧ Follows rest n) :=
  ⟨parse_integer_iff, parse_point_iff,
    fun _ _ => ⟨Spells.follows, Numeral.follows_not_spells_iff⟩⟩

/- Two signs are read as one in an integer, not in a point. -/
theorem plus_signs_piled_up :
    parse .integer "++5" = .ok (.integer 5) ∧
      parse .integer "+-5" = .ok (.integer (-5)) ∧
      (∀ n, ¬Spells "++5".toList n ∧ ¬Spells "+-5".toList n) ∧
      parse .point "++5 0" =
        .error (.mismatch (.badText "++5 0" .point)) ∧
      parse .point "+-5 0" =
        .error (.mismatch (.badText "+-5 0" .point)) := by
  have hTwo (c : Char) (hSign : c = '+' ∨ c = '-') (n : Int) :
      ¬Spells ['+', c, '5'] n := by
    intro hSpells
    rcases hSpells with hDigits | hDigits
    · exact absurd hDigits (Numeral.Digits.ne_cons rfl)
    · rcases hSign with rfl | rfl <;>
        exact absurd hDigits (Numeral.Digits.ne_cons rfl)
  exact ⟨rfl, rfl,
    fun n => ⟨hTwo _ (.inl rfl) n, hTwo _ (.inr rfl) n⟩, rfl, rfl⟩

end Scalar

end Assessment
