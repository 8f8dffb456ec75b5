import Assessment.Pattern.Reader
import Mathlib.Data.List.Infix

/-
  How far the readers of patterns look ahead.

  A reader takes some characters from the front and gives back
  the rest. As long as the rest begins no later than some
  closing parenthesis, the reader has not seen what stands
  behind it: from the characters before the parenthesis it
  reads the same. The readers are built from few parts, so
  this is shown for the parts, and then for the readers of
  repetitions and of the starts of groups.

  A reader may have exceptions, results that do depend on what
  follows. They are kept as a part of what is shown of it.

  Main declarations:
    * `Reader`, with `Reader.onHead` and other ways to build one
    * `Reader.Local`, a reader that does not look too far
    * `Reader.Local.onHead` and the like, for the ways to build
    * `same_of_fuel`, for readers that recurse on fuel
    * `local_counts`
    * `local_openGroup`
-/

------------------------------------------------------------
-- Readers
------------------------------------------------------------

namespace Assessment

namespace Pattern

/- Reads something from the front, and gives back the rest. -/
abbrev Reader (α : Type) :=
  List Char → Option (α × List Char)

namespace Reader

variable {α β : Type}

/- Reads by the first character, if it is of a kind. -/
def onHead
    (kind : Char → Bool)
    (f : Char → Reader α)
    (g : Reader α) :
    Reader α
  | c :: cs => if kind c then f c cs else g (c :: cs)
  | [] => g []

/- Chooses a reader by what stands in front. -/
def onTest (p : List Char → Bool) (f g : Reader α) : Reader α :=
  fun cs => if p cs then f cs else g cs

/- Chooses a reader by the first character. -/
def onPeek (kind : Char → Bool) : Reader α → Reader α → Reader α :=
  onTest fun cs => cs.head?.any kind

/- Reads behind a character that stands in front twice. -/
def onTwo (d : Char) (f g : Reader α) : Reader α :=
  fun cs => if cs.take 2 = [d, d] then f (cs.drop 2) else g cs

/- Reads one thing, and goes on by what it is, or another. -/
def orElse (f : Reader α) (k : α → Reader β) (g : Reader β) :
    Reader β :=
  fun cs =>
    match f cs with
    | some (a, rest) => k a rest
    | none => g cs

/- Reads one thing and then, knowing it, another one. -/
def andThen (f : Reader α) (k : α → Reader β) : Reader β :=
  fun cs => (f cs).bind fun p => k p.1 p.2

/- Reads nothing, and may fail. -/
def give (result : Option α) : Reader α :=
  fun cs => result.map (·, cs)

/- Only drops what a function drops. -/
def drop (g : List Char → List Char) : Reader Unit :=
  fun cs => some ((), g cs)

section

variable {d : Char} {f : Char → Reader α} {g : Reader α}
variable {cs : List Char}

theorem onHead_cons (kind : Char → Bool) (c : Char) :
    onHead kind f g (c :: cs) =
      if kind c then f c cs else g (c :: cs) :=
  rfl

@[simp] theorem onHead_hit :
    onHead (· == d) f g (d :: cs) = f d cs := by
  simp [onHead]

theorem onHead_miss (hOther : ∀ rest, cs = d :: rest → False) :
    onHead (· == d) f g cs = g cs := by
  cases cs with
  | nil => rfl
  | cons c cs =>
      have hNot : c ≠ d := by
        rintro rfl
        exact hOther cs rfl
      simp [onHead, hNot]

variable {h : Reader α}

theorem onPeek_hit :
    onPeek (· == d) h g (d :: cs) = h (d :: cs) := by
  simp [onPeek, onTest]

theorem onPeek_miss (hOther : ∀ rest, cs = d :: rest → False) :
    onPeek (· == d) h g cs = g cs := by
  cases cs with
  | nil => rfl
  | cons c cs =>
      have hNot : c ≠ d := by
        rintro rfl
        exact hOther cs rfl
      simp [onPeek, onTest, hNot]

theorem andThen_congr_left
    {f f' : Reader α}
    {k : α → Reader β}
    (hSame : f cs = f' cs) :
    andThen f k cs = andThen f' k cs := by
  rw [andThen, andThen, hSame]

theorem andThen_congr
    {f : Reader α}
    {k k' : α → Reader β}
    (hSame : ∀ a rest, f cs = some (a, rest) →
      k a rest = k' a rest) :
    andThen f k cs = andThen f k' cs := by
  unfold andThen
  cases hFirst : f cs with
  | none => rfl
  | some p => exact hSame p.1 p.2 hFirst

@[simp] theorem onTwo_hit : onTwo d h g (d :: d :: cs) = h cs :=
  if_pos rfl

theorem onTwo_miss (hOther : ∀ rest, cs = d :: d :: rest → False) :
    onTwo d h g cs = g cs := by
  refine if_neg fun hTwo => hOther (cs.drop 2) ?_
  rw [← List.take_append_drop 2 cs, hTwo]
  rfl

end

------------------------------------------------------------
-- Local Readers
------------------------------------------------------------

/-
  What is given back is the rest. If a parenthesis belongs to
  it, the reader reads the same from what is before, except
  for some results.
-/
structure Local
    (Except : α → List Char → Prop)
    (f : Reader α) :
    Prop where
  suffix {cs rest : List Char} {a : α} :
    f cs = some (a, rest) → rest <:+ cs
  cut {x y after : List Char} {a : α} :
    f (x ++ ')' :: after) = some (a, y ++ ')' :: after) →
      f x = some (a, y) ∨ Except a y

/- No exception. -/
def Never (_ : α) (_ : List Char) : Prop := False

variable {Except : α → List Char → Prop}
variable {Except' : β → List Char → Prop}

theorem Local.cut_never
    {f : Reader α}
    {x y after : List Char}
    {a : α}
    (hF : Local Never f)
    (hLong :
      f (x ++ ')' :: after) = some (a, y ++ ')' :: after)) :
    f x = some (a, y) :=
  (hF.cut hLong).resolve_right id

theorem exists_split
    {after r x y : List Char}
    (hRest : r <:+ x ++ ')' :: after)
    (hEnd : y ++ ')' :: after <:+ r) :
    ∃ z, r = z ++ ')' :: after ∧ z <:+ x := by
  obtain ⟨z, rfl⟩ := (List.suffix_append _ _).trans hEnd
  obtain ⟨w, hW⟩ := hRest
  rw [← List.append_assoc] at hW
  exact ⟨z, rfl, w, List.append_cancel_right hW⟩

theorem not_suffix
    {after y r : List Char}
    (hRest : r <:+ after) :
    ¬y ++ ')' :: after <:+ r := by
  intro hEnd
  have hLength := (hEnd.trans hRest).length_le
  rw [List.length_append, List.length_cons] at hLength
  omega

theorem Local.weaken
    {f : Reader α}
    (hF : Local Never f) :
    Local Except f where
  suffix := hF.suffix
  cut hLong := Or.inl (hF.cut_never hLong)

theorem give_suffix
    {result : Option α}
    {cs rest : List Char}
    {a : α}
    (hRead : give result cs = some (a, rest)) :
    rest <:+ cs := by
  cases result <;> cases hRead
  exact List.suffix_refl _

theorem Local.give (result : Option α) :
    Local Except (give result) where
  suffix := give_suffix
  cut hLong := by
    cases result
    · cases hLong
    · obtain ⟨rfl, hRest⟩ := Prod.mk.inj (Option.some.inj hLong)
      rw [List.append_cancel_right hRest]
      exact Or.inl rfl

theorem Local.onHead
    {kind : Char → Bool}
    {f : Char → Reader α}
    {g : Reader α}
    (hF : ∀ c, Local Except (f c))
    (hG : Local Except g) :
    Local Except (onHead kind f g) where
  suffix {cs rest a} hRead := by
    cases cs with
    | nil => exact hG.suffix hRead
    | cons c cs =>
        rw [Reader.onHead] at hRead
        split_ifs at hRead
        · exact ((hF c).suffix hRead).trans (List.suffix_cons _ _)
        · exact hG.suffix hRead
  cut {x y after a} hLong := by
    cases x with
    | nil =>
        rw [List.nil_append, Reader.onHead] at hLong
        split_ifs at hLong
        · exact absurd (List.suffix_refl _)
            (not_suffix ((hF _).suffix hLong))
        · exact hG.cut hLong
    | cons c x =>
        rw [List.cons_append, Reader.onHead] at hLong
        rw [Reader.onHead]
        split_ifs at hLong ⊢
        · exact (hF c).cut hLong
        · exact hG.cut hLong

theorem Local.onTest
    {p : List Char → Bool}
    {f g : Reader α}
    (hF : Local Except f)
    (hG : Local Except g)
    (hTest : ∀ x after, p (x ++ ')' :: after) = p x) :
    Local Except (onTest p f g) where
  suffix hRead := by
    unfold Reader.onTest at hRead
    split_ifs at hRead
    · exact hF.suffix hRead
    · exact hG.suffix hRead
  cut {x y after a} hLong := by
    unfold Reader.onTest at hLong ⊢
    rw [hTest] at hLong
    split_ifs at hLong ⊢
    · exact hF.cut hLong
    · exact hG.cut hLong

theorem Local.onPeek
    {kind : Char → Bool}
    {f g : Reader α}
    (hF : Local Except f)
    (hG : Local Except g)
    (hOther : kind ')' = false) :
    Local Except (onPeek kind f g) := by
  refine Local.onTest hF hG fun x after => ?_
  cases x with
  | nil => simp [hOther]
  | cons c x => rfl

theorem Local.onTwo
    {d : Char}
    {f g : Reader α}
    (hF : Local Except f)
    (hG : Local Except g)
    (hOther : ')' ≠ d) :
    Local Except (onTwo d f g) where
  suffix hRead := by
    unfold Reader.onTwo at hRead
    split_ifs at hRead
    · exact (hF.suffix hRead).trans (List.drop_suffix _ _)
    · exact hG.suffix hRead
  cut {x y after a} hLong := by
    rcases x with _ | ⟨c, _ | ⟨c', x⟩⟩
    · rw [List.nil_append, onTwo_miss] at hLong
      · rw [onTwo_miss (by simp)]
        exact hG.cut hLong
      · rintro rest ⟨⟩
        exact hOther rfl
    · rw [List.cons_append, List.nil_append, onTwo_miss] at hLong
      · rw [onTwo_miss (by simp)]
        exact hG.cut hLong
      · rintro rest ⟨⟩
        exact hOther rfl
    · unfold Reader.onTwo at hLong ⊢
      simp only [List.cons_append, List.take_succ_cons,
        List.take_zero, List.drop_succ_cons, List.drop_zero] at *
      split_ifs at hLong ⊢
      · exact hF.cut hLong
      · exact hG.cut hLong

/- The first reader reads the same when more follows. -/
theorem Local.orElse
    {f : Reader α}
    {k : α → Reader β}
    {g : Reader β}
    (hF : Local Never f)
    (hMore : ∀ cs a rest more, f cs = some (a, rest) →
      f (cs ++ more) = some (a, rest ++ more))
    (hK : ∀ a, Local Except' (k a))
    (hG : Local Except' g) :
    Local Except' (orElse f k g) where
  suffix {cs rest b} hRead := by
    unfold Reader.orElse at hRead
    split at hRead
    next a r hFirst =>
      exact ((hK a).suffix hRead).trans (hF.suffix hFirst)
    next => exact hG.suffix hRead
  cut {x y after b} hLong := by
    unfold Reader.orElse at hLong ⊢
    split at hLong
    next a r hFirst =>
      obtain ⟨z, rfl, -⟩ :=
        exists_split (hF.suffix hFirst) ((hK a).suffix hLong)
      rw [hF.cut_never hFirst]
      exact (hK a).cut hLong
    next hNone =>
      cases hShort : f x with
      | none => exact hG.cut hLong
      | some p =>
          rw [hMore x p.1 p.2 _ hShort] at hNone
          cases hNone

/- One reader after another, if exceptions stay exceptions. -/
theorem Local.andThen_of
    {f : Reader α}
    {k : α → Reader β}
    (hF : Local Except f)
    (hK : ∀ a, Local Except' (k a))
    (hExcept : ∀ a y b y' after, Except a y →
      k a (y ++ ')' :: after) = some (b, y' ++ ')' :: after) →
        Except' b y') :
    Local Except' (andThen f k) where
  suffix hRead := by
    obtain ⟨⟨a, z⟩, hFirst, hSecond⟩ := Option.bind_eq_some_iff.mp hRead
    exact ((hK a).suffix hSecond).trans (hF.suffix hFirst)
  cut {x y after b} hLong := by
    obtain ⟨⟨a, r⟩, hFirst, hSecond⟩ := Option.bind_eq_some_iff.mp hLong
    obtain ⟨z, rfl, -⟩ :=
      exists_split (hF.suffix hFirst) ((hK a).suffix hSecond)
    rcases hF.cut hFirst with hShort | hOdd
    · rw [andThen, hShort]
      exact (hK a).cut hSecond
    · exact Or.inr (hExcept a z b y after hOdd hSecond)

theorem Local.andThen
    {f : Reader α}
    {k : α → Reader β}
    (hF : Local Never f)
    (hK : ∀ a, Local Except' (k a)) :
    Local Except' (andThen f k) :=
  hF.andThen_of hK fun _ _ _ _ _ hNever => hNever.elim

theorem Local.after
    {g : List Char → List Char}
    {f : Reader α}
    (hG : Local Never (drop g))
    (hF : Local Except f) :
    Local Except fun cs => f (g cs) :=
  hG.andThen fun _ => hF

/- Fuel does not count, if the characters left are a bound. -/
theorem Local.of_fuel
    {F : Nat → Reader α}
    (hF : ∀ n, Local Except (F n))
    (hFuel : ∀ n cs, cs.length ≤ n → F n cs = F cs.length cs) :
    Local Except fun cs => F cs.length cs where
  suffix hRead := (hF _).suffix hRead
  cut {x y after a} hLong := by
    have hShort := (hF _).cut hLong
    rwa [hFuel _ x (by simp)] at hShort

end Reader

------------------------------------------------------------
-- What Does Not Count
------------------------------------------------------------

open Reader

theorem skipVerbose_suffix (inComment : Bool) (cs : List Char) :
    skipVerbose inComment cs <:+ cs := by
  induction cs generalizing inComment with
  | nil => exact List.suffix_refl _
  | cons c cs ih =>
      rw [skipVerbose]
      split_ifs
      · exact (ih _).trans (List.suffix_cons _ _)
      · exact (ih _).trans (List.suffix_cons _ _)
      · exact (ih _).trans (List.suffix_cons _ _)
      · exact List.suffix_refl _

theorem skipVerbose_cut
    {inComment : Bool}
    {after x y : List Char}
    (hLong :
      skipVerbose inComment (x ++ ')' :: after) =
        y ++ ')' :: after) :
    skipVerbose inComment x = y := by
  induction x generalizing inComment with
  | nil =>
      rw [List.nil_append, skipVerbose] at hLong
      cases inComment
      · simpa [skipVerbose, Text.isBlank] using hLong
      · rw [if_pos rfl] at hLong
        have hRest := skipVerbose_suffix (')' != '\n') after
        rw [hLong] at hRest
        exact absurd (List.suffix_refl _) (not_suffix hRest)
  | cons c x ih =>
      rw [List.cons_append, skipVerbose] at hLong
      rw [skipVerbose]
      split_ifs at hLong ⊢
      · exact ih hLong
      · exact ih hLong
      · exact ih hLong
      · exact List.append_cancel_right hLong

theorem local_skip (verbose : Bool) :
    Local Never (drop (skip verbose)) where
  suffix hRead := by
    obtain ⟨-, rfl⟩ := Prod.mk.inj (Option.some.inj hRead)
    unfold skip
    split_ifs
    · exact skipVerbose_suffix _ _
    · exact List.suffix_refl _
  cut hLong := by
    obtain ⟨-, hRest⟩ := Prod.mk.inj (Option.some.inj hLong)
    left
    unfold drop skip at *
    split_ifs at *
    · rw [skipVerbose_cut hRest]
    · rw [List.append_cancel_right hRest]

theorem skip_suffix (verbose : Bool) (cs : List Char) :
    skip verbose cs <:+ cs :=
  (local_skip verbose).suffix rfl

theorem skip_cut
    {verbose : Bool}
    {x y after : List Char}
    (hLong : skip verbose (x ++ ')' :: after) = y ++ ')' :: after) :
    skip verbose x = y := by
  have hShort := (local_skip verbose).cut_never
    (congrArg (fun rest => some ((), rest)) hLong)
  exact congrArg Prod.snd (Option.some.inj hShort)

/- A character that is no blank and no comment sign stays. -/
theorem skip_of_sign
    {verbose : Bool}
    {c : Char}
    {cs : List Char}
    (hBlank : Text.isBlank c = false)
    (hSign : (c == '#') = false) :
    skip verbose (c :: cs) = c :: cs := by
  unfold skip
  split_ifs
  · rw [skipVerbose, if_neg Bool.false_ne_true, hBlank, hSign]
    rfl
  · rfl

theorem local_dropLazy : Local Never (drop dropLazy) := by
  have hForm :
      drop dropLazy =
        onHead (· == '?') (fun _ => give (some ()))
          (give (some ())) := by
    funext cs
    unfold drop dropLazy
    split
    next => rw [onHead_hit, give, Option.map_some]
    next hOther => rw [onHead_miss hOther, give, Option.map_some]
  rw [hForm]
  exact Local.onHead (fun _ => .give _) (.give _)

theorem local_dropBlanks :
    Local Never (drop (List.dropWhile Text.isBlank)) where
  suffix hRead := by
    obtain ⟨-, rfl⟩ := Prod.mk.inj (Option.some.inj hRead)
    exact List.dropWhile_suffix _
  cut {x y after a} hLong := by
    obtain ⟨-, hRest⟩ := Prod.mk.inj (Option.some.inj hLong)
    left
    rw [drop]
    congr 2
    have hOther : Text.isBlank ')' = false := by decide
    induction x with
    | nil => simpa [hOther] using hRest
    | cons c x ih =>
        rw [List.cons_append, List.dropWhile_cons] at hRest
        rw [List.dropWhile_cons]
        split_ifs at *
        · exact ih (congrArg (fun r => some ((), r)) hRest) hRest
        · exact List.append_cancel_right hRest

/-
  More fuel than characters does not count, where each round
  takes a character and what is skipped behind it.
-/
theorem same_of_fuel
    {σ γ : Type}
    (verbose : Bool)
    (F : Nat → σ → List Char → γ)
    (hEmpty : ∀ n s, F n s [] = F 0 s [])
    (hRound : ∀ n m s c cs,
      (∀ s', F n s' (skip verbose cs) = F m s' (skip verbose cs)) →
        F (n + 1) s (c :: cs) = F (m + 1) s (c :: cs))
    {n m : Nat}
    {s : σ}
    {cs : List Char}
    (hN : cs.length ≤ n)
    (hM : cs.length ≤ m) :
    F n s cs = F m s cs := by
  induction n generalizing m s cs with
  | zero =>
      rw [List.length_eq_zero_iff.mp (Nat.le_zero.mp hN)]
      exact (hEmpty m s).symm
  | succ n ih =>
      cases cs with
      | nil => rw [hEmpty, hEmpty m]
      | cons c cs =>
          rw [List.length_cons] at hN hM
          have hSkip := (skip_suffix verbose cs).length_le
          obtain ⟨m, rfl⟩ : ∃ k, m = k + 1 := ⟨m - 1, by omega⟩
          exact hRound n m s c cs fun _ => ih (by omega) (by omega)

end Pattern

------------------------------------------------------------
-- Repetition
------------------------------------------------------------

namespace Pattern

open Reader

/- The digits in front, as a reader. -/
def digits
    (verbose : Bool)
    (value : Option Nat)
    (fuel : Nat) :
    Reader (Option Nat) :=
  fun cs => some (decimalDigits verbose value fuel cs)

theorem local_digits
    (verbose : Bool)
    (value : Option Nat)
    (fuel : Nat) :
    Local Never (digits verbose value fuel) := by
  induction fuel generalizing value with
  | zero => exact .give (some value)
  | succ fuel ih =>
      have hForm :
          digits verbose value (fuel + 1) =
            onHead Char.isDigit
              (fun c cs =>
                digits verbose
                  (some (10 * value.getD 0 + (c.toNat - 48))) fuel
                  (skip verbose cs))
              (give (some value)) := by
        funext cs
        cases cs with
        | nil => rfl
        | cons c cs =>
            rw [digits, decimalDigits, onHead]
            split_ifs <;> rfl
      rw [hForm]
      exact Local.onHead (fun c => (local_skip _).after (ih _))
        (.give _)

theorem digits_fuel
    {verbose : Bool}
    {value : Option Nat}
    {n m : Nat}
    {cs : List Char}
    (hN : cs.length ≤ n)
    (hM : cs.length ≤ m) :
    digits verbose value n cs = digits verbose value m cs := by
  refine same_of_fuel verbose (fun n v cs => digits verbose v n cs)
    ?_ ?_ hN hM
  · rintro (_ | n) v <;> rfl
  · intro n m v c cs hRest
    unfold digits at *
    rw [decimalDigits, decimalDigits]
    split_ifs
    · exact hRest _
    · rfl

theorem local_count (verbose : Bool) :
    Local Never (count? verbose) := by
  have hForm :
      count? verbose = fun cs =>
        Reader.andThen
          (fun cs => digits verbose none cs.length cs)
          (fun value cs =>
            Reader.give (value.filter (· < twoTo 32))
              (skip verbose (cs.dropWhile Text.isBlank)))
          (cs.dropWhile Text.isBlank) := by
    funext cs
    unfold count? Reader.andThen digits
    dsimp only
    rw [Option.bind_some]
    generalize decimalDigits verbose none _ _ = p
    obtain ⟨value, rest⟩ := p
    cases value with
    | none => rfl
    | some n =>
        simp only [Reader.give, Option.filter, decide_eq_true_eq]
        split_ifs <;> rfl
  rw [hForm]
  refine local_dropBlanks.after (Local.andThen ?_ fun value => ?_)
  · exact Local.of_fuel (local_digits verbose none)
      fun n cs hN => digits_fuel hN (Nat.le_refl _)
  · exact local_dropBlanks.after ((local_skip verbose).after (.give _))

/- The counts of a repetition, as a reader. -/
def counts (verbose : Bool) : Reader (Nat × Option Nat) :=
  fun cs =>
    (counts? verbose cs).map fun (least, most, rest) =>
      ((least, most), rest)

/- The second count, or the first one again. -/
def second (verbose : Bool) (least : Nat) : Reader (Option Nat) :=
  onHead (· == ',')
    (fun _ cs =>
      onPeek (· == '}')
        (give (some none))
        (Reader.andThen (count? verbose) fun most =>
          give (if least ≤ most then some (some most) else none))
        (skip verbose cs))
    (give (some (some least)))

theorem local_second (verbose : Bool) (least : Nat) :
    Local Never (second verbose least) := by
  refine Local.onHead (fun _ => (local_skip _).after ?_) (.give _)
  refine Local.onPeek (.give _) ?_ (by decide)
  exact (local_count _).andThen fun _ => .give _

theorem local_counts (verbose : Bool) :
    Local Never (counts verbose) := by
  have hForm :
      counts verbose = fun cs =>
        Reader.andThen (count? verbose)
          (fun least =>
            Reader.andThen (second verbose least) fun most =>
              onHead (· == '}')
                (fun _ rest =>
                  Reader.give (some (least, most))
                    (dropLazy (skip verbose rest)))
                (give none))
          (skip verbose cs) := by
    funext cs
    unfold counts counts? Reader.andThen second
    rcases count? verbose (skip verbose cs) with _ | ⟨least, cs⟩
    · rfl
    simp only [Option.bind_some, Option.bind_eq_bind]
    split
    next rest =>
      rw [onHead_hit]
      split
      next r hBrace =>
        rw [hBrace, onPeek_hit]
        simp [give]
      next hOther =>
        rw [onPeek_miss hOther, andThen]
        rcases count? verbose (skip verbose rest) with _ | ⟨most, r⟩
        · rfl
        · simp only [give, Option.bind_some]
          split_ifs
          · simp only [Option.map_some, Option.bind_some]
            split
            · simp
            next hOther => simp [onHead_miss hOther, give]
          · rfl
    next hOther =>
      rw [onHead_miss hOther]
      simp only [give, Option.map_some, Option.bind_some]
      split
      · simp
      next hOther => simp [onHead_miss hOther, give]
  rw [hForm]
  refine (local_skip _).after ((local_count _).andThen fun least => ?_)
  refine (local_second _ _).andThen fun most => ?_
  refine Local.onHead (fun _ => ?_) (.give _)
  exact (local_skip _).after (local_dropLazy.after (.give _))

------------------------------------------------------------
-- Groups
------------------------------------------------------------

theorem groupName_suffix
    {first : Bool}
    {cs name rest : List Char}
    (hRead : groupName first cs = some (name, rest)) :
    rest <:+ cs := by
  induction cs generalizing first name with
  | nil => cases hRead
  | cons c cs ih =>
      rw [groupName] at hRead
      split_ifs at hRead
      · cases hRead
        exact List.suffix_cons _ _
      · obtain ⟨p, hRest, hSame⟩ := Option.map_eq_some_iff.mp hRead
        cases hSame
        exact (ih hRest).trans (List.suffix_cons _ _)

theorem local_groupName (first : Bool) :
    Local Never (groupName first) where
  suffix := groupName_suffix
  cut {x y after name} hLong := by
    left
    induction x generalizing first name with
    | nil =>
        rw [List.nil_append, groupName] at hLong
        split_ifs at hLong with hClose
        · cases hClose
        · obtain ⟨⟨_, _⟩, hRest, hSame⟩ :=
            Option.map_eq_some_iff.mp hLong
          obtain ⟨rfl, rfl⟩ := Prod.mk.inj hSame
          exact absurd (List.suffix_refl _)
            (not_suffix (groupName_suffix hRest))
    | cons c x ih =>
        rw [List.cons_append, groupName] at hLong
        rw [groupName]
        split_ifs at hLong ⊢
        · obtain ⟨hName, hRest⟩ :=
            Prod.mk.inj (Option.some.inj hLong)
          rw [hName, List.append_cancel_right hRest]
        · obtain ⟨⟨_, _⟩, hRest, hSame⟩ :=
            Option.map_eq_some_iff.mp hLong
          obtain ⟨rfl, rfl⟩ := Prod.mk.inj hSame
          rw [ih _ hRest]
          rfl

theorem flagSettings_suffix
    {flags result : Flags}
    {on dangling : Bool}
    {seen all : List Flag}
    {cs rest : List Char}
    (hRead :
      flagSettings flags on dangling seen cs =
        some (result, all, rest)) :
    rest <:+ cs := by
  induction cs generalizing flags on dangling seen with
  | nil => cases hRead
  | cons c cs ih =>
      rw [flagSettings] at hRead
      split_ifs at hRead
      · cases hRead
        exact List.suffix_refl _
      · exact (ih hRead).trans (List.suffix_cons _ _)
      · split at hRead
        · cases hRead
        · split_ifs at hRead
          exact (ih hRead).trans (List.suffix_cons _ _)

theorem flagSettings_cut
    {flags result : Flags}
    {on dangling : Bool}
    {seen all : List Flag}
    {d : Char}
    {x y after : List Char}
    (hLong :
      flagSettings flags on dangling seen (x ++ ')' :: after) =
        some (result, all, d :: (y ++ ')' :: after))) :
    flagSettings flags on dangling seen x =
      some (result, all, d :: y) := by
  induction x generalizing flags on dangling seen with
  | nil =>
      have hLength := (flagSettings_suffix hLong).length_le
      simp at hLength
      omega
  | cons c x ih =>
      rw [List.cons_append, flagSettings] at hLong
      rw [flagSettings]
      split_ifs at hLong ⊢
      · simp only [Option.some.injEq, Prod.mk.injEq,
          List.cons.injEq] at hLong ⊢
        obtain ⟨hFlags, hSeen, hHead, hRest⟩ := hLong
        exact ⟨hFlags, hSeen, hHead, List.append_cancel_right hRest⟩
      · exact ih hLong
      · split at hLong
        · cases hLong
        · split_ifs at hLong ⊢
          exact ih hLong

/- Settings of flags, and the sign that ends them. -/
def settings (flags : Flags) : Reader (Flags × List Flag × Char) :=
  fun cs =>
    match flagSettings flags true false [] cs with
    | some (result, all, d :: rest) => some ((result, all, d), rest)
    | _ => none

theorem settings_eq_some_iff
    {flags result : Flags}
    {all : List Flag}
    {d : Char}
    {cs rest : List Char} :
    settings flags cs = some ((result, all, d), rest) ↔
      flagSettings flags true false [] cs =
        some (result, all, d :: rest) := by
  unfold settings
  split <;> simp_all [and_assoc]

theorem local_settings (flags : Flags) :
    Local Never (settings flags) where
  suffix hRead :=
    (List.suffix_cons _ _).trans
      (flagSettings_suffix (settings_eq_some_iff.mp hRead))
  cut hLong :=
    Or.inl (settings_eq_some_iff.mpr
      (flagSettings_cut (settings_eq_some_iff.mp hLong)))

theorem named_eq (s : Reading) :
    s.named =
      Reader.andThen (groupName true) fun name =>
        give
          (if s.names.contains name then none
          else
            some { s.enter s.flags with
                    names := name :: s.names }) := by
  funext cs
  unfold Reading.named Reader.andThen give
  rcases groupName true cs with _ | ⟨name, rest⟩
  · rfl
  · simp only [Option.bind_eq_bind, Option.bind_some]
    split_ifs <;> rfl

theorem local_named (s : Reading) : Local Never s.named := by
  rw [named_eq]
  exact (local_groupName true).andThen fun _ => .give _

/- Sets flags, for a group or for what follows. -/
def withFlags (s : Reading) : Reader Reading :=
  Reader.andThen (settings s.flags) fun (flags, seen, d) =>
    give
      (if d = ':' then some (s.enter flags)
      else if d = ')' ∧ seen ≠ [] then
        some { s with flags := flags, parts := none :: s.parts }
      else none)

/- Opens a group that starts with a question mark. -/
def marked (s : Reading) : Reader Reading :=
  onHead (· == '=') (fun _ => give none)
    (onHead (· == '!') (fun _ => give none)
      (onHead (· == '<')
        (fun _ =>
          onHead (· == '=') (fun _ => give none)
            (onHead (· == '!') (fun _ => give none) s.named))
        (onHead (· == 'P')
          (fun _ =>
            onHead (· == '<') (fun _ => s.named) (give none))
          (withFlags s))))

theorem openGroup_eq (s : Reading) (cs : List Char) :
    s.openGroup cs =
      onHead (· == '?') (fun _ => marked s)
        (give (some (s.enter s.flags)))
        (skip s.flags.verbose cs) := by
  unfold Reading.openGroup marked
  generalize skip s.flags.verbose cs = w
  split
  next => simp [onHead_cons, give]
  next => simp [onHead_cons, give]
  next => simp [onHead_cons, give]
  next => simp [onHead_cons, give]
  next => simp [onHead_cons]
  next rest hEqual hNot =>
    rw [onHead_hit, onHead_cons, onHead_cons, onHead_hit,
      onHead_miss hEqual, onHead_miss hNot]
    rfl
  next rest hEqual hNot _ _ hNamed hName =>
    rw [onHead_hit, onHead_miss hEqual, onHead_miss hNot,
      onHead_miss hName]
    by_cases hLetter : ∃ tail, rest = 'P' :: tail
    · obtain ⟨tail, rfl⟩ := hLetter
      have hOther : ∀ more, tail = '<' :: more → False :=
        fun more hTail => hNamed more (by rw [hTail])
      rw [onHead_hit, onHead_miss hOther, flagSettings]
      rfl
    · rw [onHead_miss fun tail hRest => hLetter ⟨tail, hRest⟩]
      unfold withFlags Reader.andThen settings
      split
      next h => simp [h, give]
      next h => simp [h, give]
      next hColon hClose =>
        split
        next flags seen d tail hRead =>
          have hNoColon : d ≠ ':' := by
            rintro rfl
            exact hColon _ _ _ hRead
          have hNoClose : ¬(d = ')' ∧ seen ≠ []) := by
            rintro ⟨rfl, hSome⟩
            obtain ⟨_, _, rfl⟩ := List.exists_cons_of_ne_nil hSome
            exact hClose _ _ _ _ hRead
          simp only [Option.bind_some, if_neg hNoColon,
            if_neg hNoClose]
          rfl
        next => rfl
  next hOther =>
    rw [onHead_miss hOther]
    rfl

theorem local_openGroup (s : Reading) : Local Never s.openGroup := by
  have hForm : s.openGroup = _ := funext (openGroup_eq s)
  rw [hForm]
  have hNone : Local Never (give (none : Option Reading)) := .give _
  refine (local_skip _).after (Local.onHead (fun _ => ?_) (.give _))
  refine Local.onHead (fun _ => hNone)
    (Local.onHead (fun _ => hNone) (Local.onHead (fun _ => ?_)
      (Local.onHead (fun _ => ?_) ?_)))
  · exact Local.onHead (fun _ => hNone)
      (Local.onHead (fun _ => hNone) (local_named s))
  · exact Local.onHead (fun _ => local_named s) hNone
  · exact (local_settings _).andThen fun _ => .give _

end Pattern

end Assessment
