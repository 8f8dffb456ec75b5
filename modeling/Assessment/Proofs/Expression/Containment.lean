import Assessment.Expression.Evaluation
import Assessment.Proofs.Declaration.Scoring
import Assessment.Proofs.Keyed

/-
  Equality of values, and containers within containers.

  Equal elements are found one after the other, and the first
  one that is equal is taken. As equality of elements goes
  both ways and passes on, it does not matter which one is
  taken, so that what is found can be said by counting.

  Main declarations:
    * `Value.matchedIn_iff`, partners by counting
    * `Value.sameElements_iff`, partners in both directions
    * `Value.equals_symm` and `Value.equals_trans`
    * `Container.hasRun_iff`, elements in a row
    * `Value.equality_and_containment`
-/

------------------------------------------------------------
-- Partners
------------------------------------------------------------

namespace Assessment

namespace Value

variable {s : Scalar}
variable {xs ys zs : List Scalar}

/- Two lists have equal elements at the same places. -/
abbrev Pairwise₂ (xs ys : List Scalar) : Prop :=
  List.Forall₂ (fun s t => s.equals t = true) xs ys

/-
  Each element finds a partner of its own exactly if it is
  equal to itself and no element occurs more often here than
  there. Counting does not depend on the partner taken.
-/
theorem matchedIn_iff :
    matchedIn xs ys = true ↔
      (∀ s ∈ xs, s.equals s = true) ∧
        ∀ t : Scalar, xs.countP t.equals ≤ ys.countP t.equals := by
  induction xs generalizing ys with
  | nil => simp [matchedIn]
  | cons s rest ih =>
      rw [matchedIn]
      cases hRemoved : removeOne s ys with
      | none =>
          have hNone := equals_of_removeOne_eq_none hRemoved
          have hZero : ys.countP s.equals = 0 := by
            refine List.countP_eq_zero.mpr fun t hMem => ?_
            rw [hNone t hMem]
            decide
          constructor
          · intro hFalse
            cases hFalse
          · rintro ⟨hSelf, hCount⟩
            have hOnce := hCount s
            rw [hZero, List.countP_cons_of_pos
              (hSelf s List.mem_cons_self)] at hOnce
            omega
      | some left =>
          rcases exists_of_removeOne hRemoved with
            ⟨before, t, after, rfl, rfl, hEqual⟩
          have hSelf : s.equals s = true :=
            Scalar.equals_trans hEqual (Scalar.equals_symm hEqual)
          -- Both sides lose as many of each kind.
          have hCount : ∀ u : Scalar,
              ((s :: rest).countP u.equals ≤
                (before ++ t :: after).countP u.equals) ↔
              rest.countP u.equals ≤
                (before ++ after).countP u.equals := by
            intro u
            have hBoth := Scalar.equals_congr_right hEqual u
            simp only [List.countP_append, List.countP_cons,
              hBoth]
            omega
          simp only [ih, hCount, List.forall_mem_cons, hSelf,
            true_and]

/- Partners stand in a rearrangement of the other list. -/
theorem exists_partners
    (hMatched : matchedIn xs ys = true) :
    ∃ zs rest, ys.Perm (zs ++ rest) ∧ Pairwise₂ xs zs := by
  induction xs generalizing ys with
  | nil => exact ⟨[], ys, List.Perm.refl ys, .nil⟩
  | cons s others ih =>
      rw [matchedIn] at hMatched
      cases hRemoved : removeOne s ys with
      | none =>
          rw [hRemoved] at hMatched
          cases hMatched
      | some left =>
          rw [hRemoved] at hMatched
          rcases exists_of_removeOne hRemoved with
            ⟨before, t, after, rfl, rfl, hEqual⟩
          obtain ⟨zs, rest, hPerm, hPairs⟩ := ih hMatched
          refine ⟨t :: zs, rest, ?_, .cons hEqual hPairs⟩
          exact List.perm_middle.trans (hPerm.cons t)

theorem length_le_of_matchedIn
    (hMatched : matchedIn xs ys = true) :
    xs.length ≤ ys.length := by
  obtain ⟨zs, rest, hPerm, hPairs⟩ := exists_partners hMatched
  rw [hPerm.length_eq, List.length_append, hPairs.length_eq]
  exact Nat.le_add_right _ _

/- Equal elements are counted alike. -/
theorem countP_of_pairwise
    (hPairs : Pairwise₂ xs ys)
    (t : Scalar) :
    xs.countP t.equals = ys.countP t.equals := by
  induction hPairs with
  | nil => rfl
  | cons hHead _ ih =>
      rw [List.countP_cons, List.countP_cons, ih,
        Scalar.equals_congr_right hHead t]

/- What has an equal partner is equal to itself. -/
theorem equals_self_of_pairwise
    (hPairs : Pairwise₂ xs ys) :
    (∀ s ∈ xs, s.equals s = true) ∧
      ∀ t ∈ ys, t.equals t = true := by
  induction hPairs with
  | nil => simp
  | cons hHead _ ih =>
      have hBack := Scalar.equals_symm hHead
      simp only [List.forall_mem_cons]
      exact ⟨⟨Scalar.equals_trans hHead hBack, ih.1⟩,
        Scalar.equals_trans hBack hHead, ih.2⟩

theorem matchedIn_trans
    (hFirst : matchedIn xs ys = true)
    (hThen : matchedIn ys zs = true) :
    matchedIn xs zs = true := by
  rw [matchedIn_iff] at hFirst hThen ⊢
  exact ⟨hFirst.1, fun t => (hFirst.2 t).trans (hThen.2 t)⟩

------------------------------------------------------------
-- Containers in Any Order
------------------------------------------------------------

/- Equal containers are rearrangements with equal elements. -/
theorem sameElements_iff_perm :
    sameElements xs ys = true ↔
      ∃ zs, ys.Perm zs ∧ Pairwise₂ xs zs := by
  unfold sameElements
  rw [Bool.and_eq_true, beq_iff_eq]
  constructor
  · rintro ⟨hLength, hMatched⟩
    obtain ⟨zs, rest, hPerm, hPairs⟩ := exists_partners hMatched
    have hRest : rest = [] := by
      have hSame := hPerm.length_eq
      rw [List.length_append, ← hPairs.length_eq] at hSame
      exact List.length_eq_zero_iff.mp (by omega)
    rw [hRest, List.append_nil] at hPerm
    exact ⟨zs, hPerm, hPairs⟩
  · rintro ⟨zs, hPerm, hPairs⟩
    refine ⟨?_, matchedIn_iff.mpr ⟨?_, fun t => ?_⟩⟩
    · rw [hPairs.length_eq, hPerm.length_eq]
    · exact (equals_self_of_pairwise hPairs).1
    · rw [countP_of_pairwise hPairs t, hPerm.countP_eq]

/- Equal containers hold each other. -/
theorem sameElements_iff :
    sameElements xs ys = true ↔
      matchedIn xs ys = true ∧ matchedIn ys xs = true := by
  constructor
  · intro hSame
    obtain ⟨zs, hPerm, hPairs⟩ := sameElements_iff_perm.mp hSame
    refine ⟨(Bool.and_eq_true_iff.mp hSame).2,
      matchedIn_iff.mpr ⟨?_, fun t => ?_⟩⟩
    · intro t hMem
      exact (equals_self_of_pairwise hPairs).2 t
        (hPerm.mem_iff.mp hMem)
    · rw [countP_of_pairwise hPairs t, hPerm.countP_eq]
  · rintro ⟨hMatched, hBack⟩
    have hLength := Nat.le_antisymm
      (length_le_of_matchedIn hMatched)
      (length_le_of_matchedIn hBack)
    unfold sameElements
    rw [hMatched, hLength, beq_self_eq_true, Bool.and_true]

theorem sameElements_symm
    (hSame : sameElements xs ys = true) :
    sameElements ys xs = true :=
  sameElements_iff.mpr (sameElements_iff.mp hSame).symm

theorem sameElements_trans
    (hFirst : sameElements xs ys = true)
    (hThen : sameElements ys zs = true) :
    sameElements xs zs = true := by
  rw [sameElements_iff] at hFirst hThen ⊢
  exact ⟨matchedIn_trans hFirst.1 hThen.1,
    matchedIn_trans hThen.2 hFirst.2⟩

------------------------------------------------------------
-- Containers in Order, and Records
------------------------------------------------------------

theorem sameSequence_iff :
    sameSequence xs ys = true ↔ Pairwise₂ xs ys := by
  induction xs generalizing ys with
  | nil => cases ys <;> simp [sameSequence]
  | cons s rest ih =>
      cases ys <;> simp [sameSequence, ih]

variable {fs gs hs : List (String × Option Scalar)}

/- Two fields have one name and equal contents. -/
def SameField (f g : String × Option Scalar) : Prop :=
  f.1 = g.1 ∧ sameField f.2 g.2 = true

theorem sameFields_iff :
    sameFields fs gs = true ↔ List.Forall₂ SameField fs gs := by
  induction fs generalizing gs with
  | nil => cases gs <;> simp [sameFields]
  | cons f rest ih =>
      cases gs with
      | nil => simp [sameFields]
      | cons g others =>
          simp [sameFields, SameField, ih, Bool.and_eq_true]

------------------------------------------------------------
-- Equality of Values
------------------------------------------------------------

theorem SameField.symm
    {f g : String × Option Scalar}
    (hSame : SameField f g) :
    SameField g f := by
  obtain ⟨k, s⟩ := f
  obtain ⟨l, t⟩ := g
  obtain ⟨rfl, hContents⟩ := hSame
  refine ⟨rfl, ?_⟩
  cases s <;> cases t <;> simp [sameField] at hContents ⊢
  exact Scalar.equals_symm hContents

theorem SameField.trans
    {f g h : String × Option Scalar}
    (hFirst : SameField f g)
    (hThen : SameField g h) :
    SameField f h := by
  obtain ⟨k, s⟩ := f
  obtain ⟨l, t⟩ := g
  obtain ⟨m, u⟩ := h
  obtain ⟨rfl, hContents⟩ := hFirst
  obtain ⟨rfl, hOthers⟩ := hThen
  refine ⟨rfl, ?_⟩
  cases s <;> cases t <;> cases u <;>
    simp [sameField] at hContents hOthers ⊢
  exact Scalar.equals_trans hContents hOthers

variable {v w x : Value}

/- Equality of values goes both ways. -/
theorem equals_symm (hEqual : v.equals w = true) :
    w.equals v = true := by
  cases v <;> cases w <;> simp only [equals] at hEqual ⊢
  case single.single => exact Scalar.equals_symm hEqual
  case multiple.multiple =>
    rw [Bool.and_eq_true, beq_iff_eq] at hEqual ⊢
    exact ⟨hEqual.1.symm, sameElements_symm hEqual.2⟩
  case ordered.ordered =>
    rw [Bool.and_eq_true, beq_iff_eq, sameSequence_iff] at *
    exact ⟨hEqual.1.symm,
      forall₂_symm (fun _ _ hST => Scalar.equals_symm hST)
        hEqual.2⟩
  case record.record =>
    rw [sameFields_iff] at *
    exact forall₂_symm (fun _ _ hFG => hFG.symm) hEqual
  all_goals cases hEqual

/- What is equal to an equal value is equal. -/
theorem equals_trans
    (hFirst : v.equals w = true)
    (hThen : w.equals x = true) :
    v.equals x = true := by
  cases v <;> cases w <;> simp only [equals] at hFirst <;>
    cases x <;> simp only [equals] at hThen ⊢
  case single.single.single =>
    exact Scalar.equals_trans hFirst hThen
  case multiple.multiple.multiple =>
    rw [Bool.and_eq_true, beq_iff_eq] at *
    exact ⟨hFirst.1.trans hThen.1,
      sameElements_trans hFirst.2 hThen.2⟩
  case ordered.ordered.ordered =>
    rw [Bool.and_eq_true, beq_iff_eq, sameSequence_iff] at *
    exact ⟨hFirst.1.trans hThen.1,
      forall₂_trans
        (fun _ _ _ hST hTU => Scalar.equals_trans hST hTU)
        hFirst.2 hThen.2⟩
  case record.record.record =>
    rw [sameFields_iff] at *
    exact forall₂_trans (fun _ _ _ hFG hGH => hFG.trans hGH)
      hFirst hThen
  all_goals contradiction

/- The single values that a value holds, in records as well. -/
def scalars : Value → List Scalar
  | .record fields => fields.filterMap Prod.snd
  | v => v.elements

/- A value without floats and durations. -/
def IsExact (v : Value) : Prop :=
  ∀ s ∈ v.scalars, s.IsExact

/- A value is equal to itself if its single values are. -/
theorem equals_self_of_scalars
    (hSelf : ∀ s ∈ v.scalars, s.equals s = true) :
    v.equals v = true := by
  cases v with
  | null => rfl
  | single s => exact hSelf s List.mem_cons_self
  | multiple t xs =>
      have hMatched : matchedIn xs xs = true :=
        matchedIn_iff.mpr ⟨hSelf, fun _ => Nat.le_refl _⟩
      have hSame := sameElements_iff.mpr ⟨hMatched, hMatched⟩
      simp only [equals, beq_self_eq_true, Bool.true_and, hSame]
  | ordered t xs =>
      have hSame : sameSequence xs xs = true :=
        sameSequence_iff.mpr (List.forall₂_same.mpr hSelf)
      simp only [equals, beq_self_eq_true, Bool.true_and, hSame]
  | record fields =>
      refine sameFields_iff.mpr (List.forall₂_same.mpr ?_)
      rintro ⟨k, s⟩ hMem
      refine ⟨rfl, ?_⟩
      cases s with
      | none => rfl
      | some s =>
          exact hSelf s (List.mem_filterMap.mpr ⟨_, hMem, rfl⟩)

/- A value without floats and durations is equal to itself. -/
theorem equals_self (hExact : v.IsExact) :
    v.equals v = true :=
  equals_self_of_scalars fun s hMem =>
    Scalar.equals_self (hExact s hMem)

end Value

------------------------------------------------------------
-- Containment
------------------------------------------------------------

namespace Container

open Value (Pairwise₂)

variable {ns xs : List Scalar}

theorem startsWith_iff :
    startsWith ns xs = true ↔
      ∃ run after, xs = run ++ after ∧ Pairwise₂ run ns := by
  induction ns generalizing xs with
  | nil => simp [startsWith]
  | cons n ns ih =>
      cases xs with
      | nil => simp [startsWith]
      | cons x xs =>
          simp only [startsWith, Bool.and_eq_true, ih]
          constructor
          · rintro ⟨hEqual, run, after, rfl, hPairs⟩
            exact ⟨x :: run, after, rfl, .cons hEqual hPairs⟩
          · rintro ⟨run, after, hSplit, hPairs⟩
            rcases hPairs with _ | ⟨hEqual, hRest⟩
            cases hSplit
            exact ⟨hEqual, _, after, rfl, hRest⟩

/- A run stands somewhere in a row. -/
theorem hasRun_iff :
    hasRun ns xs = true ↔
      ∃ before run after, xs = before ++ run ++ after ∧
        Pairwise₂ run ns := by
  induction xs with
  | nil =>
      cases ns <;> simp [hasRun]
  | cons x xs ih =>
      rw [hasRun, Bool.or_eq_true, startsWith_iff, ih]
      constructor
      · rintro (⟨run, after, hSplit, hPairs⟩ |
          ⟨before, run, after, rfl, hPairs⟩)
        · exact ⟨[], run, after, hSplit, hPairs⟩
        · exact ⟨x :: before, run, after, rfl, hPairs⟩
      · rintro ⟨before, run, after, hSplit, hPairs⟩
        cases before with
        | nil => exact Or.inl ⟨run, after, hSplit, hPairs⟩
        | cons b before =>
            cases hSplit
            exact Or.inr ⟨before, run, after, rfl, hPairs⟩

end Container

namespace Value

/- A value is true if a statement holds, and false if not. -/
def Decides (v : Value) (statement : Prop) : Prop :=
  (statement → v = .boolean true) ∧
    (¬ statement → v = .boolean false)

theorem decides_boolean {b : Bool} {statement : Prop} :
    (boolean b).Decides statement ↔ (b = true ↔ statement) := by
  unfold Decides boolean
  cases b <;> by_cases hHolds : statement <;> simp [hHolds]

variable {t u : BaseType}
variable {xs ys : List Scalar}

/- Multiple containers are contained by counting. -/
theorem contains_multiple
    (hExact : ∀ s ∈ ys, s.IsExact) :
    (PlainOperator.contains.value
      [.multiple t xs, .multiple u ys]).Decides
        (∀ s : Scalar,
          ys.countP s.equals ≤ xs.countP s.equals) := by
  have hSelf : ∀ s ∈ ys, s.equals s = true :=
    fun s hMem => Scalar.equals_self (hExact s hMem)
  apply decides_boolean.mpr
  rw [matchedIn_iff]
  exact and_iff_right hSelf

theorem contains_ordered :
    (PlainOperator.contains.value
      [.ordered t xs, .ordered u ys]).Decides
        (∃ before run after, xs = before ++ run ++ after ∧
          Pairwise₂ run ys) :=
  decides_boolean.mpr Container.hasRun_iff

/- Containers of one type match if each contains the other. -/
theorem match_multiple :
    (PlainOperator.match.value
      [.multiple t xs, .multiple t ys]).Decides
        (PlainOperator.contains.value
            [.multiple t xs, .multiple t ys] = .boolean true ∧
          PlainOperator.contains.value
            [.multiple t ys, .multiple t xs] =
              .boolean true) := by
  apply decides_boolean.mpr
  have hBoth :
      (equals (.multiple t xs) (.multiple t ys)) = true ↔
        matchedIn ys xs = true ∧ matchedIn xs ys = true := by
    simp only [equals, beq_self_eq_true, Bool.true_and]
    rw [sameElements_iff, and_comm]
  apply hBoth.trans
  simp [PlainOperator.value, Container.contains, boolean]

/-
  Equality of values is an equivalence, as equality of their
  elements is one, where a pair is the same in either order.
  It holds of multiple containers of one type that are
  rearrangements of each other. A multiple container contains
  another one if nothing occurs more often there, an ordered
  one if the other stands within it in a row, and multiple
  containers of one type are equal if they contain each other.
-/
theorem equality_and_containment :
    (∀ s t : Scalar, s.IsExact →
      (s.equals t = true ↔ t = s ∨ t = s.turned)) ∧
      (∀ v : Value, v.IsExact → v.equals v = true) ∧
      (∀ v w : Value, v.equals w = true → w.equals v = true) ∧
      (∀ v w x : Value, v.equals w = true →
        w.equals x = true → v.equals x = true) ∧
      ∀ (t u : BaseType) (xs ys : List Scalar),
        (∀ s ∈ xs, s.IsExact) → (∀ s ∈ ys, s.IsExact) →
        ((equals (.multiple t xs) (.multiple u ys) = true ↔
            t = u ∧ ∃ zs, ys.Perm zs ∧ Pairwise₂ xs zs) ∧
          (PlainOperator.contains.value
            [.multiple t xs, .multiple u ys]).Decides
              (∀ s : Scalar,
                ys.countP s.equals ≤ xs.countP s.equals) ∧
          (PlainOperator.contains.value
            [.ordered t xs, .ordered u ys]).Decides
              (∃ before run after,
                xs = before ++ run ++ after ∧
                  Pairwise₂ run ys) ∧
          (PlainOperator.match.value
            [.multiple t xs, .multiple t ys]).Decides
              (PlainOperator.contains.value
                  [.multiple t xs, .multiple t ys] =
                    .boolean true ∧
                PlainOperator.contains.value
                  [.multiple t ys, .multiple t xs] =
                    .boolean true)) := by
  refine ⟨fun _ _ => Scalar.equals_iff, fun _ => equals_self,
    fun _ _ => equals_symm, fun _ _ _ => equals_trans, ?_⟩
  intro t u xs ys _ hExact
  refine ⟨?_, contains_multiple hExact, contains_ordered,
    match_multiple⟩
  rw [equals, Bool.and_eq_true, beq_iff_eq,
    sameElements_iff_perm]

/- Two pairs. -/
def twoPairs : List Scalar :=
  [.pair "a" "b", .pair "c" "d"]

/- The same pairs, exchanged and in the other order. -/
def twoTurned : List Scalar :=
  [.pair "d" "c", .pair "b" "a"]

/- They match, so each contains the other. -/
theorem equality_and_containment_pairs :
    (∀ s ∈ twoPairs, s.IsExact) ∧
      (∀ s ∈ twoTurned, s.IsExact) ∧
      (∃ zs, twoTurned.Perm zs ∧ Pairwise₂ twoPairs zs) ∧
      PlainOperator.match.value
          [.multiple .pair twoPairs, .multiple .pair twoTurned] =
        .boolean true := by
  have hPairs : ∀ s ∈ twoPairs, s.IsExact := by
    simp [twoPairs, Scalar.IsExact, Scalar.baseType]
  have hTurned : ∀ s ∈ twoTurned, s.IsExact := by
    simp [twoTurned, Scalar.IsExact, Scalar.baseType]
  obtain ⟨hEqual, hContains, _, hMatch⟩ :=
    equality_and_containment.2.2.2.2 .pair .pair _ _ hPairs
      hTurned
  obtain ⟨_, hBack, _⟩ :=
    equality_and_containment.2.2.2.2 .pair .pair _ _ hTurned
      hPairs
  have hSame : equals (.multiple .pair twoPairs)
      (.multiple .pair twoTurned) = true := by
    decide
  obtain ⟨zs, hPerm, hEach⟩ := (hEqual.mp hSame).2
  have hCounts : ∀ s : Scalar,
      twoPairs.countP s.equals = twoTurned.countP s.equals :=
    fun s => (countP_of_pairwise hEach s).trans
      (hPerm.countP_eq _).symm
  exact ⟨hPairs, hTurned, ⟨zs, hPerm, hEach⟩,
    hMatch.1
      ⟨hContains.1 fun s => (hCounts s).ge,
        hBack.1 fun s => (hCounts s).le⟩⟩

end Value

end Assessment
