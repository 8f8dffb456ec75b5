import Assessment.Proofs.Pattern.Foresight

/-
  Readers of what follows a backslash.

  There is one exception. A boundary before an open brace is
  read when anything follows the brace, and not otherwise.

  Main declarations:
    * `Dangling`, the results that depend on what follows
    * `local_escape`
-/

------------------------------------------------------------
-- Escapes
------------------------------------------------------------

namespace Assessment

namespace Pattern

open Reader

theorem local_fixedHex (verbose : Bool) (value n : Nat) :
    Local Never (fixedHex verbose value n) := by
  induction n generalizing value with
  | zero =>
      have hForm : fixedHex verbose value 0 = give (some value) := by
        funext cs
        cases cs <;> rfl
      rw [hForm]
      exact .give _
  | succ n ih =>
      have hForm :
          fixedHex verbose value (n + 1) =
            onHead (fun _ => true)
              (fun c =>
                Reader.andThen (give (hexValue? c)) fun d cs =>
                  fixedHex verbose (16 * value + d) n
                    (skip verbose cs))
              (give none) := by
        funext cs
        cases cs with
        | nil => rfl
        | cons c cs =>
            rw [fixedHex, onHead_cons, if_pos rfl, andThen, give]
            cases hexValue? c <;> rfl
      rw [hForm]
      refine Local.onHead (fun c => ?_) (.give _)
      exact (Local.give _).andThen fun d =>
        (local_skip _).after (ih _)

theorem local_bracedHex
    (verbose : Bool)
    (value : Option Nat)
    (fuel : Nat) :
    Local Never (bracedHex verbose value fuel) := by
  induction fuel generalizing value with
  | zero =>
      have hForm : bracedHex verbose value 0 = give none := rfl
      rw [hForm]
      exact .give _
  | succ fuel ih =>
      have hForm :
          bracedHex verbose value (fuel + 1) =
            onHead (· == '}')
              (fun _ cs => give value (skip verbose cs))
              (onHead (fun _ => true)
                (fun c =>
                  Reader.andThen (give (hexValue? c)) fun d cs =>
                    bracedHex verbose
                      (some (16 * value.getD 0 + d)) fuel
                      (skip verbose cs))
                (give none)) := by
        funext cs
        cases cs with
        | nil => rfl
        | cons c cs =>
            rw [bracedHex, onHead_cons, onHead_cons, if_pos rfl,
              andThen, give]
            split_ifs
            · rfl
            · cases hexValue? c <;> rfl
      rw [hForm]
      refine Local.onHead (fun _ => (local_skip _).after (.give _))
        (Local.onHead (fun c => ?_) (.give _))
      exact (Local.give _).andThen fun d =>
        (local_skip _).after (ih _)

theorem bracedHex_fuel
    {verbose : Bool}
    {value : Option Nat}
    {n m : Nat}
    {cs : List Char}
    (hN : cs.length ≤ n)
    (hM : cs.length ≤ m) :
    bracedHex verbose value n cs = bracedHex verbose value m cs := by
  refine same_of_fuel verbose (fun n v cs => bracedHex verbose v n cs)
    ?_ ?_ hN hM
  · rintro (_ | n) v <;> rfl
  · intro n m v c cs hRest
    rw [bracedHex, bracedHex]
    split_ifs
    · rfl
    · cases hexValue? c with
      | none => rfl
      | some d => exact hRest _

theorem local_hexEscape (verbose : Bool) (digits : Nat) :
    Local Never (hexEscape verbose digits) := by
  have hForm :
      hexEscape verbose digits = fun cs =>
        onHead (· == '{')
          (fun _ rest =>
            Reader.andThen
              (fun cs => bracedHex verbose none cs.length cs)
              (fun n => give ((charOf? n).map (.char · false)))
              (skip verbose rest))
          (Reader.andThen (fixedHex verbose 0 digits) fun n =>
            give ((charOf? n).map (.char · (digits == 2))))
          (skip verbose cs) := by
    funext cs
    unfold hexEscape
    dsimp only
    split
    next rest hBrace =>
      have hLength := (skip_suffix verbose rest).length_le
      rw [hBrace, onHead_hit, andThen,
        bracedHex_fuel (m := (skip verbose rest).length)
          (by rw [List.length_cons]; omega) (Nat.le_refl _)]
      cases bracedHex verbose none (skip verbose rest).length
          (skip verbose rest) with
      | none => rfl
      | some p => cases hChar : charOf? p.1 <;> simp [give, hChar]
    next hOther =>
      rw [onHead_miss hOther, andThen]
      cases fixedHex verbose 0 digits (skip verbose cs) with
      | none => rfl
      | some p => cases hChar : charOf? p.1 <;> simp [give, hChar]
  rw [hForm]
  refine (local_skip _).after (Local.onHead (fun _ => ?_) ?_)
  · refine (local_skip _).after (Local.andThen ?_ fun _ => .give _)
    exact Local.of_fuel (local_bracedHex verbose none)
      fun n cs hN => bracedHex_fuel hN (Nat.le_refl _)
  · exact (local_fixedHex _ _ _).andThen fun _ => .give _

theorem local_bracedName (verbose : Bool) (fuel : Nat) :
    Local Never (bracedName verbose fuel) := by
  induction fuel with
  | zero =>
      have hForm : bracedName verbose 0 = give none := rfl
      rw [hForm]
      exact .give _
  | succ fuel ih =>
      have hForm :
          bracedName verbose (fuel + 1) =
            onHead (· == '}')
              (fun _ => give (some []))
              (onHead (fun _ => true)
                (fun c cs =>
                  Reader.andThen (bracedName verbose fuel)
                    (fun name => give (some (c :: name)))
                    (skip verbose cs))
                (give none)) := by
        funext cs
        cases cs with
        | nil => rfl
        | cons c cs =>
            rw [bracedName, onHead_cons, onHead_cons, if_pos rfl,
              andThen]
            split_ifs
            · rfl
            · cases bracedName verbose fuel (skip verbose cs) <;> rfl
      rw [hForm]
      refine Local.onHead (fun _ => .give _)
        (Local.onHead (fun c => ?_) (.give _))
      exact (local_skip _).after (ih.andThen fun _ => .give _)

theorem bracedName_fuel
    {verbose : Bool}
    {n m : Nat}
    {cs : List Char}
    (hN : cs.length ≤ n)
    (hM : cs.length ≤ m) :
    bracedName verbose n cs = bracedName verbose m cs := by
  refine same_of_fuel verbose
    (fun n (_ : Unit) cs => bracedName verbose n cs)
    ?_ ?_ (s := ()) hN hM
  · rintro (_ | n) - <;> rfl
  · intro n m _ c cs hRest
    rw [bracedName, bracedName, hRest ()]

theorem local_propertyEscape (verbose negated : Bool) :
    Local Never (propertyEscape verbose negated) := by
  have hForm :
      propertyEscape verbose negated = fun cs =>
        onHead (· == '{')
          (fun _ rest =>
            Reader.andThen
              (fun cs => bracedName verbose cs.length cs)
              (fun name =>
                give ((setOfName? name).map fun found =>
                  Atom.set found.1 (negated != found.2) true))
              (skip verbose rest))
          (onHead (fun _ => true)
            (fun c rest =>
              give
                (if c == '\\' then none
                else
                  (CharSet.named? [c]).map
                    (Atom.set · negated true))
                (skip verbose rest))
            (give none))
          (skip verbose cs) := by
    funext cs
    unfold propertyEscape
    dsimp only
    split
    next rest hBrace =>
      have hLength := (skip_suffix verbose rest).length_le
      rw [hBrace, onHead_hit, andThen,
        bracedName_fuel (m := (skip verbose rest).length)
          (by rw [List.length_cons]; omega) (Nat.le_refl _)]
      cases bracedName verbose (skip verbose rest).length
          (skip verbose rest) with
      | none => rfl
      | some p => cases hSet : setOfName? p.1 <;> simp [give, hSet]
    next c rest hOther hSome =>
      have hNot : ¬(c == '{') = true := by simpa using hOther
      rw [hSome, onHead_cons, if_neg hNot, onHead_cons, if_pos rfl]
      split_ifs
      · rfl
      · cases hSet : CharSet.named? [c] <;> simp [give]
    next hNone =>
      rw [hNone]
      rfl
  rw [hForm]
  refine (local_skip _).after (Local.onHead (fun _ => ?_)
    (Local.onHead (fun c => ?_) (.give _)))
  · refine (local_skip _).after (Local.andThen ?_ fun _ => .give _)
    exact Local.of_fuel (local_bracedName verbose)
      fun n cs hN => bracedName_fuel hN (Nat.le_refl _)
  · exact (local_skip _).after (.give _)

/- The name of a boundary, as a reader. -/
def boundary (verbose : Bool) (fuel : Nat) : Reader (List Char) :=
  fun cs => some (boundaryName verbose fuel cs)

theorem local_boundary (verbose : Bool) (fuel : Nat) :
    Local Never (boundary verbose fuel) := by
  induction fuel with
  | zero => exact .give (some [])
  | succ fuel ih =>
      have hForm :
          boundary verbose (fuel + 1) =
            onHead (fun c => c.isAlpha || c == '-')
              (fun c cs =>
                Reader.andThen (boundary verbose fuel)
                  (fun name => give (some (c :: name)))
                  (skip verbose cs))
              (give (some [])) := by
        funext cs
        cases cs with
        | nil => rfl
        | cons c cs =>
            rw [boundary, boundaryName, onHead_cons]
            split_ifs <;> rfl
      rw [hForm]
      refine Local.onHead (fun c => ?_) (.give _)
      exact (local_skip _).after (ih.andThen fun _ => .give _)

theorem boundaryName_fuel
    {verbose : Bool}
    {n m : Nat}
    {cs : List Char}
    (hN : cs.length ≤ n)
    (hM : cs.length ≤ m) :
    boundaryName verbose n cs = boundaryName verbose m cs := by
  refine same_of_fuel verbose
    (fun n (_ : Unit) cs => boundaryName verbose n cs)
    ?_ ?_ (s := ()) hN hM
  · rintro (_ | n) - <;> rfl
  · intro n m _ c cs hRest
    rw [boundaryName, boundaryName, hRest ()]

/- There is no name exactly if the first character is none. -/
theorem boundaryName_eq_nil
    {verbose : Bool}
    {fuel : Nat}
    {c : Char}
    {cs : List Char} :
    (boundaryName verbose (fuel + 1) (c :: cs)).1 = [] ↔
      (c.isAlpha || c == '-') = false := by
  rw [boundaryName]
  split_ifs with hName <;> simp [hName]

theorem skipVerbose_append
    {inComment : Bool}
    {cs : List Char}
    (hSome : skipVerbose inComment cs ≠ [])
    (rest : List Char) :
    skipVerbose inComment (cs ++ rest) =
      skipVerbose inComment cs ++ rest := by
  induction cs generalizing inComment with
  | nil => exact absurd rfl hSome
  | cons c cs ih =>
      rw [skipVerbose] at hSome
      rw [List.cons_append, skipVerbose, skipVerbose]
      split_ifs at hSome ⊢
      · exact ih hSome
      · exact ih hSome
      · exact ih hSome
      · rfl

theorem skip_append
    {verbose : Bool}
    {cs : List Char}
    (hSome : skip verbose cs ≠ [])
    (rest : List Char) :
    skip verbose (cs ++ rest) = skip verbose cs ++ rest := by
  unfold skip at *
  split_ifs at *
  · exact skipVerbose_append hSome rest
  · rfl

/- A test of a place before a brace that nothing follows. -/
def Dangling (verbose : Bool) (a : Atom) (rest : List Char) : Prop :=
  (∃ l, a = .look l) ∧
    ∃ cs, rest = '{' :: cs ∧ skip verbose cs = []

/- What the name of a boundary says about its sides. -/
def sides? (flags : Flags) (name : String) : Option Look :=
  match name with
  | "start" => some (.wordStart flags.unicode)
  | "end" => some (.wordEnd flags.unicode)
  | "start-half" => some (.halfStart flags.unicode)
  | "end-half" => some (.halfEnd flags.unicode)
  | _ => none

/- What follows the name of a boundary. -/
def namedBoundary (flags : Flags) (name : List Char) : Reader Atom :=
  onHead (· == '}')
    (fun _ =>
      give ((sides? flags (String.ofList name)).map Atom.look))
    (give none)

theorem boundaryEscape_brace (flags : Flags) (cs : List Char) :
    boundaryEscape flags ('{' :: cs) =
      if skip flags.verbose cs = [] then none
      else
        let w := skip flags.verbose cs
        let p := boundaryName flags.verbose w.length w
        if p.1 = [] then
          some (.look (.boundary flags.unicode), '{' :: cs)
        else namedBoundary flags p.1 p.2 := by
  have hLength := (skip_suffix flags.verbose cs).length_le
  have hFuel :
      boundaryName flags.verbose ('{' :: cs).length
          (skip flags.verbose cs) =
        boundaryName flags.verbose (skip flags.verbose cs).length
          (skip flags.verbose cs) :=
    boundaryName_fuel (by rw [List.length_cons]; omega)
      (Nat.le_refl _)
  unfold boundaryEscape
  split
  next rest hSame =>
    cases hSame
    rw [hFuel]
    dsimp only
    generalize boundaryName _ _ _ = p
    obtain ⟨name, after⟩ := p
    split
    next hNone => rw [if_pos hNone]
    next hSome =>
      rw [if_neg hSome]
      unfold namedBoundary sides?
      cases name with
      | nil => rfl
      | cons c name =>
          rw [if_neg (List.cons_ne_nil _ _)]
          simp only [List.isEmpty_cons, Bool.false_eq_true, if_false]
          split
          next hText => rw [hText]; rfl
          next hText => rw [hText]; rfl
          next hText => rw [hText]; rfl
          next hText => rw [hText]; rfl
          next after _ _ hStart hEnd hStartHalf hEndHalf =>
            by_cases hClose : ∃ rest, after = '}' :: rest
            · obtain ⟨rest, rfl⟩ := hClose
              rw [onHead_hit]
              split
              next hText => exact (hStart _ hText rfl).elim
              next hText => exact (hEnd _ hText rfl).elim
              next hText => exact (hStartHalf _ hText rfl).elim
              next hText => exact (hEndHalf _ hText rfl).elim
              next => rfl
            · rw [onHead_miss fun rest hRest => hClose ⟨rest, hRest⟩]
              rfl
  next hOther => exact (hOther cs rfl).elim

theorem local_namedBoundary (flags : Flags) (name : List Char) :
    Local Never (namedBoundary flags name) :=
  Local.onHead (fun _ => .give _) (.give _)

/- Without a name nothing is said about the sides. -/
theorem namedBoundary_nil (flags : Flags) (cs : List Char) :
    namedBoundary flags [] cs = none := by
  unfold namedBoundary onHead
  cases cs with
  | nil => rfl
  | cons c cs =>
      dsimp only
      split_ifs <;> rfl

/- The name of a boundary and what follows it. -/
def nameAndSides (flags : Flags) : Reader Atom :=
  Reader.andThen
    (fun cs => boundary flags.verbose cs.length cs)
    (namedBoundary flags)

theorem local_nameAndSides (flags : Flags) :
    Local Never (nameAndSides flags) := by
  refine Local.andThen ?_ (local_namedBoundary flags)
  refine Local.of_fuel (local_boundary flags.verbose) fun n cs hN => ?_
  rw [boundary, boundary, boundaryName_fuel hN (Nat.le_refl _)]

theorem boundaryEscape_suffix
    {flags : Flags}
    {cs rest : List Char}
    {a : Atom}
    (hRead : boundaryEscape flags cs = some (a, rest)) :
    rest <:+ cs := by
  by_cases hBrace : ∃ tail, cs = '{' :: tail
  · obtain ⟨tail, rfl⟩ := hBrace
    rw [boundaryEscape_brace] at hRead
    dsimp only at hRead
    split_ifs at hRead
    · cases hRead
      exact List.suffix_refl _
    · exact ((local_nameAndSides flags).suffix hRead).trans
        ((skip_suffix _ _).trans (List.suffix_cons _ _))
  · unfold boundaryEscape at hRead
    split at hRead
    next tail => exact absurd ⟨tail, rfl⟩ hBrace
    next =>
      cases hRead
      exact List.suffix_refl _

theorem boundaryEscape_plain
    {flags : Flags}
    {cs : List Char}
    (hOther : ∀ tail, cs = '{' :: tail → False) :
    boundaryEscape flags cs =
      give (some (.look (.boundary flags.unicode))) cs := by
  unfold boundaryEscape
  split
  next tail => exact (hOther tail rfl).elim
  next => rfl

/- A parenthesis behind a sign does not make it a name. -/
theorem boundaryName_cut
    {verbose : Bool}
    {w after : List Char}
    (hSome : w ≠ [])
    (hName :
      (boundaryName verbose (w ++ ')' :: after).length
        (w ++ ')' :: after)).1 = []) :
    (boundaryName verbose w.length w).1 = [] := by
  obtain ⟨c, z, rfl⟩ := List.exists_cons_of_ne_nil hSome
  rw [List.cons_append, List.length_cons, boundaryName_eq_nil] at hName
  rw [List.length_cons, boundaryName_eq_nil]
  exact hName

/- A name and the brace behind it are read as far as they go. -/
theorem boundaryEscape_cut_of_name
    {flags : Flags}
    {w y after : List Char}
    {a : Atom}
    (hLong :
      nameAndSides flags (skip flags.verbose (w ++ ')' :: after)) =
        some (a, y ++ ')' :: after)) :
    boundaryEscape flags ('{' :: w) = some (a, y) := by
  obtain ⟨z, hZ, -⟩ :=
    exists_split (skip_suffix flags.verbose _)
      ((local_nameAndSides flags).suffix hLong)
  rw [hZ] at hLong
  have hRead := (local_nameAndSides flags).cut_never hLong
  have hName : (boundaryName flags.verbose z.length z).1 ≠ [] := by
    intro hNoName
    have hNone : nameAndSides flags z = none := by
      unfold nameAndSides Reader.andThen boundary
      rw [Option.bind_some, hNoName]
      exact namedBoundary_nil _ _
    rw [hNone] at hRead
    cases hRead
  have hSome : z ≠ [] := by
    rintro rfl
    exact hName rfl
  rw [boundaryEscape_brace, skip_cut hZ, if_neg hSome]
  exact (if_neg hName).trans hRead

theorem local_boundaryEscape (flags : Flags) :
    Local (Dangling flags.verbose) (boundaryEscape flags) where
  suffix := boundaryEscape_suffix
  cut {x y after a} hLong := by
    by_cases hBrace : ∃ w, x = '{' :: w
    · obtain ⟨w, rfl⟩ := hBrace
      rw [List.cons_append, boundaryEscape_brace] at hLong
      dsimp only at hLong
      split_ifs at hLong with hNone hName
      · obtain ⟨rfl, hRest⟩ := Prod.mk.inj (Option.some.inj hLong)
        have hY : '{' :: w = y := List.append_cancel_right hRest
        by_cases hSkip : skip flags.verbose w = []
        · exact Or.inr ⟨⟨_, rfl⟩, w, hY.symm, hSkip⟩
        · rw [skip_append hSkip] at hName
          left
          rw [boundaryEscape_brace, if_neg hSkip, ← hY]
          exact if_pos (boundaryName_cut hSkip hName)
      · exact Or.inl (boundaryEscape_cut_of_name hLong)
    · have hOther : ∀ w, x = '{' :: w → False :=
        fun w hX => hBrace ⟨w, hX⟩
      have hOther' : ∀ w, x ++ ')' :: after = '{' :: w → False := by
        intro w hX
        cases x with
        | nil => cases hX
        | cons c x =>
            cases hX
            exact hBrace ⟨x, rfl⟩
      rw [boundaryEscape_plain hOther'] at hLong
      rw [boundaryEscape_plain hOther]
      exact (Local.give _).cut hLong

theorem escape_of_other
    {c : Char}
    (cs : List Char) :
    (if isPlainEscape c then some (Atom.char c false, cs)
      else (letterEscape? c).map fun d => (Atom.char d false, cs)) =
      give
        (if isPlainEscape c then some (Atom.char c false)
        else (letterEscape? c).map (Atom.char · false))
        cs := by
  unfold give
  split_ifs
  · rfl
  · cases letterEscape? c <;> rfl

/- The character behind the backslash is always taken. -/
theorem escape?_suffix
    {flags : Flags}
    {c : Char}
    {cs rest : List Char}
    {a : Atom}
    (hRead : escape? flags (c :: cs) = some (a, rest)) :
    rest <:+ cs := by
  unfold escape? at hRead
  dsimp only at hRead
  split at hRead
  all_goals first
    | exact (local_hexEscape _ _).suffix hRead
    | exact (local_propertyEscape _ _).suffix hRead
    | exact (local_boundaryEscape _).suffix hRead
    | exact give_suffix (show give (some _) _ = _ from hRead)
    | skip
  next => exact give_suffix ((escape_of_other cs).symm.trans hRead)

/- What follows a backslash. -/
theorem local_escape (flags : Flags) :
    Local (Dangling flags.verbose) (escape? flags) where
  suffix {cs rest a} hRead := by
    cases cs with
    | nil => cases hRead
    | cons c cs =>
        exact (escape?_suffix hRead).trans (List.suffix_cons _ _)
  cut {x y after a} hLong := by
    cases x with
    | nil =>
        exact absurd (List.suffix_refl _)
          (not_suffix (escape?_suffix hLong))
    | cons c x =>
        rw [List.cons_append] at hLong
        unfold escape? at hLong ⊢
        dsimp only at hLong ⊢
        split at hLong
        all_goals first
          | exact (local_hexEscape _ _).weaken.cut hLong
          | exact (local_propertyEscape _ _).weaken.cut hLong
          | exact (local_boundaryEscape _).cut hLong
          | exact (Local.give (some _)).cut hLong
          | skip
        next =>
          rw [escape_of_other] at hLong ⊢
          exact (Local.give _).cut hLong

end Pattern

end Assessment
