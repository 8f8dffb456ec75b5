import Assessment.Pattern.Basic
import Mathlib.Data.List.Infix

/-
  What patterns match.

  Matching is a relation between two places of a text, built
  up along the parts of a pattern. The places where a matcher
  ends are those that the relation leads to from the places
  where it starts.

  A round of a loop that takes no character stays where it
  is. It can be left out, and it can be repeated. So whatever
  a loop matches in many rounds, it matches in as many rounds
  as there are characters left, or in one more.

  Main declarations:
    * `Rounds`, a relation taken a number of times
    * `Pattern.Matches`, where a match starts and ends
    * `Pattern.MatchesAll`, a match of a text as a whole
    * `Pattern.mem_ends`
    * `Pattern.found_enclosed`
-/

------------------------------------------------------------
-- Onward Through a Text
------------------------------------------------------------

namespace Assessment

/- A place of the same text that is not before another one. -/
def Place.Onward (a b : Place) : Prop :=
  ∃ taken, a.after = taken ++ b.after ∧
    b.before = taken.reverse ++ a.before

namespace Place

variable {a b c : Place}

theorem Onward.refl (a : Place) : Onward a a :=
  ⟨[], rfl, rfl⟩

theorem Onward.trans
    (hFirst : Onward a b)
    (hSecond : Onward b c) :
    Onward a c := by
  obtain ⟨xs, hAfter, hBefore⟩ := hFirst
  obtain ⟨ys, hAfter', hBefore'⟩ := hSecond
  refine ⟨xs ++ ys, ?_, ?_⟩
  · rw [hAfter, hAfter', List.append_assoc]
  · rw [hBefore', hBefore, List.reverse_append, List.append_assoc]

theorem Onward.length_le (hOnward : Onward a b) :
    b.after.length ≤ a.after.length := by
  obtain ⟨taken, hAfter, -⟩ := hOnward
  rw [hAfter, List.length_append]
  exact Nat.le_add_left _ _

/- Who goes on takes a character, or stays. -/
theorem Onward.eq_or_lt (hOnward : Onward a b) :
    a = b ∨ b.after.length < a.after.length := by
  obtain ⟨taken, hAfter, hBefore⟩ := hOnward
  cases taken with
  | nil =>
      left
      cases a
      cases b
      simp_all
  | cons c rest =>
      right
      rw [hAfter, List.length_append, List.length_cons]
      omega

/- The whole text lies between its start and its end. -/
theorem Onward.eq_end
    {text : List Char}
    (hOnward : Onward ⟨[], text⟩ b)
    (hEnd : b.after = []) :
    b = ⟨text.reverse, []⟩ := by
  obtain ⟨taken, hAfter, hBefore⟩ := hOnward
  cases b
  simp_all

theorem onward_of_mem
    {before text : List Char}
    (hMem : a ∈ onward before text) :
    Onward ⟨before, text⟩ a := by
  induction text generalizing before with
  | nil =>
      rw [onward, List.mem_singleton] at hMem
      rw [hMem]
      exact .refl _
  | cons c rest ih =>
      rw [onward, List.mem_cons] at hMem
      rcases hMem with rfl | hMem
      · exact .refl _
      · exact Onward.trans ⟨[c], rfl, rfl⟩ (ih hMem)

theorem start_mem_ofText (text : List Char) :
    ⟨[], text⟩ ∈ ofText text := by
  cases text <;> exact List.mem_cons_self

theorem mem_merge {xs ys : List Place} :
    a ∈ merge xs ys ↔ a ∈ xs ∨ a ∈ ys := by
  induction xs generalizing ys with
  | nil => simp [merge]
  | cons x xs ih =>
      have hStep :
          merge (x :: xs) ys =
            merge xs (if ys.contains x then ys else x :: ys) :=
        rfl
      rw [hStep, ih]
      split_ifs with hMem
      · rw [List.contains_iff_mem] at hMem
        rw [List.mem_cons]
        constructor
        · rintro (hXs | hYs)
          · exact Or.inl (Or.inr hXs)
          · exact Or.inr hYs
        · rintro ((rfl | hXs) | hYs)
          · exact Or.inr hMem
          · exact Or.inl hXs
          · exact Or.inr hYs
      · rw [List.mem_cons, List.mem_cons]
        tauto

end Place

------------------------------------------------------------
-- Rounds
------------------------------------------------------------

/- A relation taken a number of times in a row. -/
def Rounds (R : Place → Place → Prop) : Nat → Place → Place → Prop
  | 0 => fun a b => a = b
  | n + 1 => fun a b => ∃ c, R a c ∧ Rounds R n c b

namespace Rounds

variable {R : Place → Place → Prop}
variable {a b : Place} {m n : Nat}

theorem add_iff :
    Rounds R (m + n) a b ↔
      ∃ c, Rounds R m a c ∧ Rounds R n c b := by
  induction m generalizing a with
  | zero =>
      rw [Nat.zero_add]
      exact ⟨fun h => ⟨a, rfl, h⟩, fun ⟨c, hSame, h⟩ => hSame ▸ h⟩
  | succ m ih =>
      rw [Nat.succ_add]
      constructor
      · rintro ⟨c, hFirst, hRest⟩
        obtain ⟨d, hLeft, hRight⟩ := ih.mp hRest
        exact ⟨d, ⟨c, hFirst, hLeft⟩, hRight⟩
      · rintro ⟨d, ⟨c, hFirst, hLeft⟩, hRight⟩
        exact ⟨c, hFirst, ih.mpr ⟨d, hLeft, hRight⟩⟩

theorem onward
    (hR : ∀ a b, R a b → a.Onward b)
    (hRounds : Rounds R n a b) :
    a.Onward b := by
  induction n generalizing a with
  | zero => exact hRounds ▸ .refl a
  | succ n ih =>
      obtain ⟨c, hFirst, hRest⟩ := hRounds
      exact (hR a c hFirst).trans (ih hRest)

/- Of many rounds one stays where it is. -/
theorem exists_still
    (hR : ∀ a b, R a b → a.Onward b)
    (hRounds : Rounds R n a b)
    (hMany : a.after.length < n) :
    ∃ i j c, i + 1 + j = n ∧
      Rounds R i a c ∧ R c c ∧ Rounds R j c b := by
  induction n generalizing a with
  | zero => exact absurd hMany (Nat.not_lt_zero _)
  | succ n ih =>
      obtain ⟨c, hFirst, hRest⟩ := hRounds
      rcases (hR a c hFirst).eq_or_lt with rfl | hLess
      · exact ⟨0, n, a, by omega, rfl, hFirst, hRest⟩
      · obtain ⟨i, j, d, hSum, hLeft, hStill, hRight⟩ :=
          ih hRest (by omega)
        exact ⟨i + 1, j, d, by omega, ⟨c, hFirst, hLeft⟩,
          hStill, hRight⟩

/- No more rounds are needed than characters are left. -/
theorem exists_few
    (hR : ∀ a b, R a b → a.Onward b)
    (hRounds : Rounds R n a b) :
    ∃ k ≤ n, k ≤ a.after.length ∧ Rounds R k a b := by
  induction n using Nat.strongRecOn with
  | _ n ih =>
      rcases Nat.lt_or_ge a.after.length n with hMany | hFew
      · obtain ⟨i, j, c, hSum, hLeft, -, hRight⟩ :=
          exists_still hR hRounds hMany
        obtain ⟨k, hLe, hFew, hShort⟩ :=
          ih (i + j) (by omega) (add_iff.mpr ⟨c, hLeft, hRight⟩)
        exact ⟨k, by omega, hFew, hShort⟩
      · exact ⟨n, Nat.le_refl n, hFew, hRounds⟩

theorem succ_iff
    (hR : ∀ a b, R a b → a.Onward b)
    (hMany : a.after.length < n) :
    Rounds R (n + 1) a b ↔ Rounds R n a b := by
  constructor
  · intro hRounds
    obtain ⟨i, j, c, hSum, hLeft, -, hRight⟩ :=
      exists_still hR hRounds (by omega)
    have hLess : i + j = n := by omega
    exact hLess ▸ add_iff.mpr ⟨c, hLeft, hRight⟩
  · intro hRounds
    obtain ⟨i, j, c, hSum, hLeft, hStill, hRight⟩ :=
      exists_still hR hRounds hMany
    have hMore : i + (j + 1 + 1) = n + 1 := by omega
    exact hMore ▸
      add_iff.mpr ⟨c, hLeft, c, hStill, c, hStill, hRight⟩

/- Beyond the characters left the number does not count. -/
theorem congr_of_many
    (hR : ∀ a b, R a b → a.Onward b)
    (hM : a.after.length < m)
    (hN : a.after.length < n)
    (hRounds : Rounds R m a b) :
    Rounds R n a b := by
  have hAll (k : Nat) (hMore : a.after.length + 1 ≤ k) :
      Rounds R k a b ↔ Rounds R (a.after.length + 1) a b := by
    induction k, hMore using Nat.le_induction with
    | base => rfl
    | succ k hLe ih => rw [succ_iff hR hLe, ih]
  rw [hAll n hN, ← hAll m hM]
  exact hRounds

end Rounds

------------------------------------------------------------
-- Repeated Steps
------------------------------------------------------------

namespace Pattern

section Steps

variable {R : Place → Place → Prop}
variable {step : List Place → List Place}
variable {b : Place}

theorem mem_repeated
    (hStep : ∀ places b, b ∈ step places ↔ ∃ a ∈ places, R a b)
    (n : Nat)
    (places : List Place) :
    b ∈ repeated step n places ↔ ∃ a ∈ places, Rounds R n a b := by
  induction n generalizing places with
  | zero => simp [repeated, Rounds]
  | succ n ih =>
      rw [repeated, ih]
      constructor
      · rintro ⟨c, hMem, hRest⟩
        obtain ⟨a, hA, hFirst⟩ := (hStep places c).mp hMem
        exact ⟨a, hA, c, hFirst, hRest⟩
      · rintro ⟨a, hA, c, hFirst, hRest⟩
        exact ⟨c, (hStep places c).mpr ⟨a, hA, hFirst⟩, hRest⟩

/- Where the search has been, it has found the next places. -/
def Searched
    (R : Place → Place → Prop)
    (seen fresh : List Place) :
    Prop :=
  (∀ a ∈ fresh, a ∈ seen) ∧
    ∀ a ∈ seen, a ∉ fresh → ∀ b, R a b → b ∈ seen

theorem Searched.next
    {seen fresh next : List Place}
    (hStep : ∀ places b, b ∈ step places ↔ ∃ a ∈ places, R a b)
    (hSearched : Searched R seen fresh)
    (hNext : next = (step fresh).filter fun p => !seen.contains p) :
    (∀ a ∈ seen, ∀ b, R a b → b ∈ next ++ seen) ∧
      Searched R (next ++ seen) next := by
  have hFound : ∀ a ∈ seen, ∀ b, R a b → b ∈ next ++ seen := by
    intro a hSeen b hR
    by_cases hB : b ∈ seen
    · exact List.mem_append_right _ hB
    · by_cases hFresh : a ∈ fresh
      · apply List.mem_append_left
        rw [hNext, List.mem_filter]
        exact ⟨(hStep fresh b).mpr ⟨a, hFresh, hR⟩, by simp [hB]⟩
      · exact absurd (hSearched.2 a hSeen hFresh b hR) hB
  refine ⟨hFound, fun a hA => List.mem_append_left _ hA, ?_⟩
  intro a hA hOld
  rcases List.mem_append.mp hA with hNew | hSeen
  · exact absurd hNew hOld
  · exact hFound a hSeen

/- The search finds what some rounds lead to, and no more. -/
theorem mem_reached
    (hStep : ∀ places b, b ∈ step places ↔ ∃ a ∈ places, R a b)
    (n : Nat)
    {seen fresh : List Place}
    (hSearched : Searched R seen fresh) :
    b ∈ reached step n seen fresh ↔
      ∃ a ∈ seen, ∃ k ≤ n, Rounds R k a b := by
  induction n generalizing seen fresh with
  | zero => simp [reached, Rounds]
  | succ n ih =>
      obtain ⟨hFound, hNext⟩ := hSearched.next hStep rfl
      rw [reached]
      generalize hName :
        (step fresh).filter (fun p => !seen.contains p) = next at *
      split_ifs with hNone
      · rw [List.isEmpty_iff] at hNone
        rw [hNone, List.nil_append] at hFound
        constructor
        · intro hSeen
          exact ⟨b, hSeen, 0, Nat.zero_le _, rfl⟩
        · rintro ⟨a, hSeen, k, -, hRounds⟩
          induction k generalizing a with
          | zero => exact hRounds ▸ hSeen
          | succ k ih =>
              obtain ⟨c, hFirst, hRest⟩ := hRounds
              exact ih c (hFound a hSeen c hFirst) hRest
      · rw [ih hNext]
        constructor
        · rintro ⟨a, hMem, k, hK, hRounds⟩
          rcases List.mem_append.mp hMem with hNew | hSeen
          · rw [← hName, List.mem_filter] at hNew
            obtain ⟨c, hFresh, hFirst⟩ := (hStep fresh a).mp hNew.1
            exact ⟨c, hSearched.1 c hFresh, k + 1, by omega, a,
              hFirst, hRounds⟩
          · exact ⟨a, hSeen, k, by omega, hRounds⟩
        · rintro ⟨a, hSeen, k, hK, hRounds⟩
          cases k with
          | zero =>
              exact ⟨a, List.mem_append_right _ hSeen, 0,
                Nat.zero_le _, hRounds⟩
          | succ k =>
              obtain ⟨c, hFirst, hRest⟩ := hRounds
              exact ⟨c, hFound a hSeen c hFirst, k, by omega, hRest⟩

theorem lt_rounds
    {places : List Place}
    {a : Place}
    (hMem : a ∈ places) :
    a.after.length < rounds places := by
  have hFold (ns : List Nat) (k : Nat) :
      k ≤ ns.foldl max k ∧ ∀ n ∈ ns, n ≤ ns.foldl max k := by
    induction ns generalizing k with
    | nil => simp
    | cons n ns ih =>
        obtain ⟨hStart, hAll⟩ := ih (max k n)
        refine ⟨(Nat.le_max_left k n).trans hStart, ?_⟩
        rw [List.forall_mem_cons]
        exact ⟨(Nat.le_max_right k n).trans hStart, hAll⟩
  exact (hFold _ 0).2 _ (List.mem_map_of_mem hMem)

end Steps

------------------------------------------------------------
-- Matching
------------------------------------------------------------

/-
  Whether a match may start at one place and end at another.
  A loop makes at least the first number of rounds, whatever
  the second number says.
-/
def Matches : Pattern → Place → Place → Prop
  | .empty => fun a b => a = b
  | .one set => fun a b => a.advance? set = some b
  | .look l => fun a b => l.holds a = true ∧ a = b
  | .seq p q => fun a b => ∃ c, p.Matches a c ∧ q.Matches c b
  | .either p q => fun a b => p.Matches a b ∨ q.Matches a b
  | .loop p least most => fun a b =>
      ∃ n, least ≤ n ∧ (∀ m, most = some m → n ≤ max least m) ∧
        Rounds p.Matches n a b

/- A match of a text from its start to its end. -/
def MatchesAll (p : Pattern) (text : String) : Prop :=
  p.Matches ⟨[], text.toList⟩ ⟨text.toList.reverse, []⟩

theorem advance?_onward
    {set : CharSet}
    {a b : Place}
    (hAdvance : a.advance? set = some b) :
    a.Onward b := by
  unfold Place.advance? at hAdvance
  split at hAdvance
  next => cases hAdvance
  next c rest hAfter =>
    split_ifs at hAdvance
    cases hAdvance
    exact ⟨[c], hAfter, rfl⟩

theorem Matches.onward
    {p : Pattern}
    {a b : Place}
    (hMatches : p.Matches a b) :
    a.Onward b := by
  induction p generalizing a b with
  | empty => exact hMatches ▸ .refl a
  | one set => exact advance?_onward hMatches
  | look l => exact hMatches.2 ▸ .refl a
  | seq p q ihP ihQ =>
      obtain ⟨c, hFirst, hSecond⟩ := hMatches
      exact (ihP hFirst).trans (ihQ hSecond)
  | either p q ihP ihQ =>
      rcases hMatches with hFirst | hSecond
      · exact ihP hFirst
      · exact ihQ hSecond
  | loop p least most ih =>
      obtain ⟨n, -, -, hRounds⟩ := hMatches
      exact hRounds.onward fun _ _ => ih

section Loops

variable {p : Pattern}

/- The rounds that the matcher makes of a loop. -/
theorem mem_ends_loop
    (hEnds : ∀ places b,
      b ∈ p.ends places ↔ ∃ a ∈ places, p.Matches a b)
    (least : Nat)
    (most : Option Nat)
    (places : List Place)
    (b : Place) :
    b ∈ (loop p least most).ends places ↔
      ∃ a ∈ places, ∃ k ≤ rounds places,
        (∀ m, most = some m → k ≤ m - least) ∧
          Rounds p.Matches (min least (rounds places) + k) a b := by
  have hStart (seen : List Place) : Searched p.Matches seen seen :=
    ⟨fun _ => id, fun _ hSeen hOld => absurd hSeen hOld⟩
  cases most with
  | none =>
      rw [ends]
      rw [mem_reached hEnds _ (hStart _)]
      simp only [mem_repeated hEnds, Rounds.add_iff]
      constructor
      · rintro ⟨c, ⟨a, hA, hFirst⟩, k, hK, hRest⟩
        exact ⟨a, hA, k, hK, by simp, c, hFirst, hRest⟩
      · rintro ⟨a, hA, k, hK, -, c, hFirst, hRest⟩
        exact ⟨c, ⟨a, hA, hFirst⟩, k, hK, hRest⟩
  | some m =>
      rw [ends]
      rw [mem_reached hEnds _ (hStart _)]
      simp only [mem_repeated hEnds, Rounds.add_iff, Nat.le_min]
      constructor
      · rintro ⟨c, ⟨a, hA, hFirst⟩, k, hK, hRest⟩
        refine ⟨a, hA, k, hK.2, ?_, c, hFirst, hRest⟩
        rintro _ ⟨⟩
        exact hK.1
      · rintro ⟨a, hA, k, hK, hMost, c, hFirst, hRest⟩
        exact ⟨c, ⟨a, hA, hFirst⟩, k, ⟨hMost m rfl, hK⟩, hRest⟩

/- The rounds that a matcher makes lead to what loops match. -/
theorem mem_ends_loop_iff
    (hEnds : ∀ places b,
      b ∈ p.ends places ↔ ∃ a ∈ places, p.Matches a b)
    (least : Nat)
    (most : Option Nat)
    (places : List Place)
    (b : Place) :
    b ∈ (loop p least most).ends places ↔
      ∃ a ∈ places, (loop p least most).Matches a b := by
  have hOnward : ∀ a b, p.Matches a b → a.Onward b :=
    fun _ _ => Matches.onward
  rw [mem_ends_loop hEnds]
  constructor
  · rintro ⟨a, hA, k, hK, hMost, hRounds⟩
    refine ⟨a, hA, ?_⟩
    have hLess := lt_rounds hA
    rcases Nat.le_total least (rounds places) with hFew | hMany
    · rw [Nat.min_eq_left hFew] at hRounds
      refine ⟨least + k, by omega, fun m hM => ?_, hRounds⟩
      have hLe := hMost m hM
      omega
    · rw [Nat.min_eq_right hMany] at hRounds
      exact ⟨least, Nat.le_refl _, fun m _ => Nat.le_max_left _ _,
        hRounds.congr_of_many hOnward (by omega) (by omega)⟩
  · rintro ⟨a, hA, n, hLeast, hMost, hRounds⟩
    refine ⟨a, hA, ?_⟩
    have hLess := lt_rounds hA
    rcases Nat.le_total least (rounds places) with hFew | hMany
    · obtain ⟨j, rfl⟩ := Nat.exists_eq_add_of_le hLeast
      obtain ⟨c, hFirst, hRest⟩ := Rounds.add_iff.mp hRounds
      obtain ⟨k, hLe, hShort, hRest⟩ := hRest.exists_few hOnward
      have hLength := (hFirst.onward hOnward).length_le
      rw [Nat.min_eq_left hFew]
      refine ⟨k, by omega, fun m hM => ?_,
        Rounds.add_iff.mpr ⟨c, hFirst, hRest⟩⟩
      have hBound := hMost m hM
      omega
    · rw [Nat.min_eq_right hMany]
      exact ⟨0, Nat.zero_le _, fun _ _ => Nat.zero_le _,
        hRounds.congr_of_many hOnward (by omega) (by omega)⟩

end Loops

/- A matcher ends exactly where a match may end. -/
theorem mem_ends
    (p : Pattern)
    (places : List Place)
    (b : Place) :
    b ∈ p.ends places ↔ ∃ a ∈ places, p.Matches a b := by
  induction p generalizing places b with
  | empty => simp [ends, Matches]
  | one set => simp [ends, Matches]
  | look l =>
      simp only [ends, Matches, List.mem_filter]
      constructor
      · rintro ⟨hMem, hHolds⟩
        exact ⟨b, hMem, hHolds, rfl⟩
      · rintro ⟨a, hMem, hHolds, rfl⟩
        exact ⟨hMem, hHolds⟩
  | seq p q ihP ihQ =>
      simp only [ends, Matches, ihQ, ihP]
      constructor
      · rintro ⟨c, ⟨a, hA, hFirst⟩, hSecond⟩
        exact ⟨a, hA, c, hFirst, hSecond⟩
      · rintro ⟨a, hA, c, hFirst, hSecond⟩
        exact ⟨c, ⟨a, hA, hFirst⟩, hSecond⟩
  | either p q ihP ihQ =>
      simp only [ends, Matches, Place.mem_merge, ihP, ihQ,
        and_or_left, exists_or]
  | loop p least most ih => exact mem_ends_loop_iff ih least most _ _

------------------------------------------------------------
-- Whole Texts
------------------------------------------------------------

/- A pattern between the start and the end of a text. -/
def enclosed (p : Pattern) : Pattern :=
  .seq (.look .textStart) (.seq p (.seq (.look .textEnd) .empty))

/- A pattern that is enclosed is found in what it matches. -/
theorem found_enclosed (p : Pattern) (text : String) :
    p.enclosed.found text = true ↔ p.MatchesAll text := by
  have hSome (places : List Place) :
      (!places.isEmpty) = true ↔ ∃ b, b ∈ places := by
    cases places <;> simp
  rw [found, hSome]
  simp only [mem_ends, enclosed, Matches, Look.holds]
  constructor
  · rintro ⟨b, a, hMem, a, ⟨hFirst, rfl⟩, c, hMatches, d,
      ⟨hLast, rfl⟩, rfl⟩
    rw [Option.isNone_iff_eq_none, List.head?_eq_none_iff] at *
    have hStart : a = ⟨[], text.toList⟩ := by
      obtain ⟨taken, hAfter, hBefore⟩ := Place.onward_of_mem hMem
      cases a
      simp_all
    rw [hStart] at hMatches
    rw [hMatches.onward.eq_end hLast] at hMatches
    exact hMatches
  · intro hMatches
    exact ⟨_, _, Place.start_mem_ofText _, _, ⟨rfl, rfl⟩, _,
      hMatches, _, ⟨rfl, rfl⟩, rfl⟩

end Pattern

end Assessment
