import Assessment.Scope.Basic
import Mathlib.Data.String.Basic

/-
  How texts start and finish, and dotted names as texts.

  Texts that are put together from fixed and from given parts
  are told apart by the fixed part that they start with, or
  by the one that they finish with.

  A dotted name is split at its first dot, so that a reference
  must not have one. Between the reference and the variable
  may stand a number, which is written as numbers are
  everywhere and must be below 2 ^ 64.

  Main declarations:
    * `Text.Starts` and `Text.Finishes`
    * `Text.Apart`, openings of different texts
    * `Numeral.count?_toString`
    * `DottedName.isNumbered`, a name that begins with a number
    * `DottedName.parse?_numbered` and `parse?_plain`
-/

------------------------------------------------------------
-- Openings
------------------------------------------------------------

namespace Assessment

namespace Text

/- One text starts with another. -/
def Starts (opening message : String) : Prop :=
  opening.toList <+: message.toList

instance (opening message : String) :
    Decidable (Starts opening message) := by
  unfold Starts
  infer_instance

theorem starts_append (opening rest : String) :
    Starts opening (opening ++ rest) := by
  simp [Starts]

theorem Starts.append
    {opening message : String}
    (hStarts : Starts opening message)
    (rest : String) :
    Starts opening (message ++ rest) := by
  unfold Starts
  rw [String.toList_append]
  exact hStarts.trans (List.prefix_append _ _)

/- Neither text starts with the other. -/
def Apart (a b : String) : Prop :=
  ¬ Starts a b ∧ ¬ Starts b a

instance (a b : String) : Decidable (Apart a b) := by
  unfold Apart
  infer_instance

/- No text starts with both. -/
theorem Apart.not_starts
    {a b message : String}
    (hApart : Apart a b)
    (hFirst : Starts a message) :
    ¬ Starts b message := by
  intro hSecond
  rcases List.prefix_or_prefix_of_prefix hFirst hSecond with
    hWithin | hWithin
  · exact hApart.1 hWithin
  · exact hApart.2 hWithin

theorem Apart.append_left
    {a b : String}
    (hApart : Apart a b)
    (front : String) :
    Apart (front ++ a) (front ++ b) := by
  unfold Apart Starts at hApart ⊢
  simpa [List.prefix_append_right_inj] using hApart

------------------------------------------------------------
-- Closings
------------------------------------------------------------

/- One text finishes with another. -/
def Finishes (closing message : String) : Prop :=
  closing.toList <:+ message.toList

instance (closing message : String) :
    Decidable (Finishes closing message) := by
  unfold Finishes
  infer_instance

theorem finishes_append (front closing : String) :
    Finishes closing (front ++ closing) := by
  simp [Finishes]

/- No text finishes with both of two different closings. -/
theorem not_finishes
    {a b message : String}
    (hOne : ¬ Finishes a b)
    (hOther : ¬ Finishes b a)
    (hFirst : Finishes a message) :
    ¬ Finishes b message := by
  intro hSecond
  rcases List.suffix_or_suffix_of_suffix hFirst hSecond with
    hWithin | hWithin
  · exact hOne hWithin
  · exact hOther hWithin

end Text

------------------------------------------------------------
-- Numbers
------------------------------------------------------------

namespace Numeral

theorem isDigit_eq (c : Char) : isDigit c = c.isDigit := rfl

/- The digits of a number are read as that number. -/
theorem value_toDigits (n : Nat) :
    value (Nat.toDigits 10 n) = n := by
  change Nat.ofDigitChars 10 (Nat.toDigits 10 n) 0 = n
  simp

theorem natural?_toDigits (n : Nat) :
    natural? (Nat.toDigits 10 n) = some n := by
  have hDigits : (Nat.toDigits 10 n).all isDigit = true := by
    rw [List.all_eq_true]
    intro c hMem
    rw [isDigit_eq]
    exact Nat.isDigit_of_mem_toDigits (by decide) (by decide)
      hMem
  unfold natural?
  rw [hDigits, value_toDigits]
  simp

/- A number is written with digits, without sign or dot. -/
theorem not_mem_toDigits
    {c : Char}
    (hOther : c.isDigit = false)
    (n : Nat) :
    c ∉ Nat.toDigits 10 n := by
  intro hMem
  have hDigit : c.isDigit = true :=
    Nat.isDigit_of_mem_toDigits (by decide) (by decide) hMem
  rw [hOther] at hDigit
  cases hDigit

/- A number that is written out is read again. -/
theorem count?_toString
    {n : Nat}
    (hBound : n < twoTo 64) :
    count? (toString n).toList = some n := by
  rw [Nat.toString_eq_repr, Nat.toList_repr]
  have hSign : Char.isDigit '+' = false := rfl
  unfold count?
  split
  next rest hPlus =>
    -- a sign would be among the digits
    have hAbsent := not_mem_toDigits hSign n
    rw [hPlus] at hAbsent
    exact absurd List.mem_cons_self hAbsent
  next =>
    dsimp only
    rw [natural?_toDigits]
    simp [hBound]

end Numeral

------------------------------------------------------------
-- Names
------------------------------------------------------------

namespace DottedName

/- A text is split at its first dot. -/
theorem splitAtDot_append
    {before : List Char}
    (hNone : '.' ∉ before)
    (later : List Char) :
    splitAtDot (before ++ '.' :: later) =
      some (before, later) := by
  induction before with
  | nil => rfl
  | cons c rest ih =>
      rw [List.mem_cons, not_or] at hNone
      have hOther : (c == '.') = false :=
        beq_eq_false_iff_ne.mpr fun h => hNone.1 h.symm
      rw [List.cons_append, splitAtDot, hOther, ih hNone.2]
      rfl

/- Whether a name begins with a number and a dot. -/
def isNumbered (name : String) : Bool :=
  (splitAtDot name.toList).any fun (number, _) =>
    (Numeral.count? number).isSome

/- A reference, the number of an occurrence and a variable. -/
theorem parse?_numbered
    {reference : String}
    (hPlain : '.' ∉ reference.toList)
    {n : Nat}
    (hBound : n < twoTo 64)
    (identifier : String) :
    parse?
        (reference ++ "." ++ toString n ++ "." ++ identifier) =
      some ⟨reference, some n, identifier⟩ := by
  have hDigits : '.' ∉ (toString n).toList := by
    rw [Nat.toString_eq_repr, Nat.toList_repr]
    exact Numeral.not_mem_toDigits rfl n
  have hText :
      (reference ++ "." ++ toString n ++ "." ++
        identifier).toList =
      reference.toList ++ '.' ::
        ((toString n).toList ++ '.' :: identifier.toList) := by
    simp
  unfold parse? parseRest
  rw [hText, splitAtDot_append hPlain, Option.map_some]
  simp only
  rw [splitAtDot_append hDigits]
  simp only
  rw [Numeral.count?_toString hBound]
  simp

/- A reference and a variable, if that does not hide a number. -/
theorem parse?_plain
    {reference : String}
    (hPlain : '.' ∉ reference.toList)
    {identifier : String}
    (hWhole : isNumbered identifier = false) :
    parse? (reference ++ "." ++ identifier) =
      some ⟨reference, none, identifier⟩ := by
  have hText :
      (reference ++ "." ++ identifier).toList =
        reference.toList ++ '.' :: identifier.toList := by
    simp
  unfold parse? parseRest
  rw [hText, splitAtDot_append hPlain, Option.map_some]
  unfold isNumbered at hWhole
  cases hSplit : splitAtDot identifier.toList with
  | none => simp [hSplit]
  | some both =>
      rcases both with ⟨number, rest⟩
      rw [hSplit] at hWhole
      cases hCount : Numeral.count? number with
      | none => simp [hSplit, hCount]
      | some n => simp [hCount] at hWhole

end DottedName

end Assessment
