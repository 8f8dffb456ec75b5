import Assessment.Expression.Evaluation
import Assessment.Proofs.Number.Whole

/-
  Integers that go through doubles.

  Integers are compared as doubles, that is as the nearest
  integers of 53 bits. This never reverses their order, but
  different integers may be taken for equal. The greatest and
  the least of some integers are found in the same way and
  come back from a double, so they are returned as they are
  only if they survive that.

  An integer is rounded as a double, too. To round to the
  nearest integer a half is added first, and above 2 ^ 52 a
  half above an odd integer is no double: the sum is the next
  integer. A whole double becomes the integer that it stands
  for, or NULL beyond 64 bits, but 2 ^ 63 becomes the largest
  integer.

  Main declarations:
    * `IntegerOrder.StandsFor`, a double and an integer
    * `IntegerOrder.Compares`, five comparisons
    * `IntegerOrder.Holds`, the integers that a value holds
    * `IntegerOrder.Follows` and `exists_best`
    * `IntegerOrder.ordered_as_doubles`
    * `WholeNumbers.rounded_through_doubles`
-/

------------------------------------------------------------
-- Doubles of Integers
------------------------------------------------------------

namespace Assessment

namespace IntegerOrder

open Double

variable {a b : Int64} {x y : Float}

/- A double stands for an integer rounded to 53 bits. -/
def StandsFor (x : Float) (n : Int64) : Prop :=
  value? x = some (nearest n.toInt : ℚ)

theorem standsFor_ofInt64 (n : Int64) :
    StandsFor (Binary64.ofInt64 n) n :=
  value?_ofInt64 n

theorem StandsFor.lt_iff
    (hX : StandsFor x a)
    (hY : StandsFor y b) :
    x < y ↔ nearest a.toInt < nearest b.toInt := by
  rw [lt_iff_value hX hY, Int.cast_lt]

theorem StandsFor.le_iff
    (hX : StandsFor x a)
    (hY : StandsFor y b) :
    x ≤ y ↔ nearest a.toInt ≤ nearest b.toInt := by
  rw [le_iff_value hX hY, Int.cast_le]

theorem StandsFor.beq_iff
    (hX : StandsFor x a)
    (hY : StandsFor y b) :
    (x == y) = true ↔ nearest a.toInt = nearest b.toInt := by
  rw [beq_iff_value hX hY, Int.cast_inj]

theorem nearest_le_of_le (hLe : a ≤ b) :
    nearest a.toInt ≤ nearest b.toInt :=
  nearest_mono (Int64.le_iff_toInt_le.mp hLe)

/- The order of the nearest integers is never the reverse. -/
theorem lt_of_nearest_lt
    (hLess : nearest a.toInt < nearest b.toInt) :
    a < b := by
  by_contra hNot
  exact absurd (nearest_le_of_le (Int64.not_lt.mp hNot))
    (not_le.mpr hLess)

theorem StandsFor.congr
    (hX : StandsFor x a)
    (hSame : nearest a.toInt = nearest b.toInt) :
    StandsFor x b := by
  unfold StandsFor at hX ⊢
  rw [hX, hSame]

------------------------------------------------------------
-- Comparisons
------------------------------------------------------------

/-
  Two operands are compared like two integers, by all five
  comparisons.
-/
structure Compares
    (engine : Engine)
    (source : String)
    (v w : Value)
    (p q : Int) :
    Prop where
  lt :
    Operator.apply engine source (.plain .lt) [v, w] =
      pure (.boolean (decide (p < q)))
  lte :
    Operator.apply engine source (.plain .lte) [v, w] =
      pure (.boolean (decide (p ≤ q)))
  gt :
    Operator.apply engine source (.plain .gt) [v, w] =
      pure (.boolean (decide (q < p)))
  gte :
    Operator.apply engine source (.plain .gte) [v, w] =
      pure (.boolean (decide (q ≤ p)))
  equal {tolerance : Tolerance} (hMode : tolerance.mode = .exact) :
    Operator.apply engine source (.equal tolerance) [v, w] =
      pure (.boolean (decide (p = q)))

theorem verdict_congr
    {p q : Prop}
    [Decidable p]
    [Decidable q]
    (hSame : p ↔ q) :
    (pure (.boolean (decide p)) : Step Value) =
      pure (.boolean (decide q)) := by
  rw [decide_eq_decide.mpr hSame]

/- A comparison has one verdict. -/
theorem verdict_injective
    {p q : Bool}
    (hSame : (pure (.boolean p) : Step Value) = pure (.boolean q)) :
    p = q := by
  have hRun := congrFun hSame ⟨default, []⟩
  cases p <;> cases q <;> first | rfl | cases hRun

variable (engine : Engine) (source : String)

/- Integers are compared like the nearest ones of 53 bits. -/
theorem compares_nearest (a b : Int64) :
    Compares engine source (.integer a) (.integer b)
      (nearest a.toInt) (nearest b.toInt) := by
  have hA := standsFor_ofInt64 a
  have hB := standsFor_ofInt64 b
  constructor
  case lt => exact verdict_congr (hA.lt_iff hB)
  case lte => exact verdict_congr (hA.le_iff hB)
  case gt => exact verdict_congr (hB.lt_iff hA)
  case gte => exact verdict_congr (hB.le_iff hA)
  case equal =>
    intro tolerance hMode
    have hApply :
        Operator.apply engine source (.equal tolerance)
            [.integer a, .integer b] =
          pure (.boolean
            (tolerance.accepts (Binary64.ofInt64 a)
              (Binary64.ofInt64 b))) :=
      rfl
    have hAccepts :
        tolerance.accepts (Binary64.ofInt64 a)
            (Binary64.ofInt64 b) =
          decide (nearest a.toInt = nearest b.toInt) := by
      rw [Tolerance.accepts, Tolerance.range, hMode,
        Bool.eq_iff_iff, decide_eq_true_iff]
      exact hA.beq_iff hB
    rw [hApply, hAccepts]

theorem nearest_lt_iff
    (hApart : nearest a.toInt = nearest b.toInt → a = b) :
    nearest a.toInt < nearest b.toInt ↔ a.toInt < b.toInt := by
  constructor
  · intro hLess
    exact Int64.lt_iff_toInt_lt.mp (lt_of_nearest_lt hLess)
  · intro hLess
    refine lt_of_le_of_ne (nearest_mono hLess.le) fun hSame => ?_
    rw [hApart hSame] at hLess
    exact lt_irrefl _ hLess

/-
  Two integers are compared as integers exactly if they are
  not different ones with the same nearest integer.
-/
theorem compares_exactly_iff (a b : Int64) :
    Compares engine source (.integer a) (.integer b)
        a.toInt b.toInt ↔
      (nearest a.toInt = nearest b.toInt → a = b) := by
  have hNearest := compares_nearest engine source a b
  constructor
  · intro hExact hSame
    have hMode :
        (⟨.exact, [], true, true⟩ : Tolerance).mode = .exact := rfl
    have hVerdict :=
      verdict_injective
        ((hExact.equal hMode).symm.trans (hNearest.equal hMode))
    rw [decide_eq_decide] at hVerdict
    exact Int64.toInt_inj.mp (hVerdict.mpr hSame)
  · intro hApart
    have hSame :
        nearest a.toInt = nearest b.toInt ↔ a.toInt = b.toInt :=
      ⟨fun h => by rw [hApart h], fun h => by rw [h]⟩
    have hLess := nearest_lt_iff hApart
    have hMore := nearest_lt_iff fun h => (hApart h.symm).symm
    exact {
      lt := hNearest.lt.trans (verdict_congr hLess)
      lte := hNearest.lte.trans (verdict_congr (by omega))
      gt := hNearest.gt.trans (verdict_congr hMore)
      gte := hNearest.gte.trans (verdict_congr (by omega))
      equal := fun hMode =>
        (hNearest.equal hMode).trans (verdict_congr hSame) }

------------------------------------------------------------
-- Integers in Values
------------------------------------------------------------

/- The integers of a single value or of a container. -/
inductive Holds : Value → List Int64 → Prop where
  | single (n : Int64) : Holds (.integer n) [n]
  | multiple (type : BaseType) (ns : List Int64) :
      Holds (.multiple type (ns.map Scalar.integer)) ns
  | ordered (type : BaseType) (ns : List Int64) :
      Holds (.ordered type (ns.map Scalar.integer)) ns

theorem Holds.flatten?_cons
    {v : Value}
    {ns : List Int64}
    (hHolds : Holds v ns)
    (rest : List Value) :
    Arithmetic.flatten? (v :: rest) =
      (Arithmetic.flatten? rest).map
        (ns.map Scalar.integer ++ ·) := by
  cases hHolds <;> rfl

theorem flatten?_of_holds
    {values : List Value}
    {groups : List (List Int64)}
    (hHold : List.Forall₂ Holds values groups) :
    Arithmetic.flatten? values =
      some (groups.flatten.map Scalar.integer) := by
  induction hHold with
  | nil => rfl
  | cons hHead hRest ih =>
      rw [hHead.flatten?_cons, ih, List.flatten_cons,
        List.map_append]
      rfl

theorem numbersOf?_integers (ns : List Int64) :
    Arithmetic.numbersOf? (ns.map Scalar.integer) =
      some (ns.map Binary64.ofInt64) := by
  induction ns with
  | nil => rfl
  | cons n rest ih =>
      rw [List.map_cons, Arithmetic.numbersOf?, ih]
      rfl

------------------------------------------------------------
-- Extremes
------------------------------------------------------------

/-
  The choice between two doubles follows an order of the
  integers that they stand for, and prefers any number to the
  one that it starts with.
-/
structure Follows
    (pick : Float → Float → Float)
    (start : Float)
    (better : Int64 → Int64 → Prop) :
    Prop where
  refl (n : Int64) : better n n
  trans {a b c : Int64} : better a b → better b c → better a c
  choice {x y : Float} {a b : Int64} :
    StandsFor x a → StandsFor y b →
      StandsFor (pick x y) a ∧ better a b ∨
        StandsFor (pick x y) b ∧ better b a
  start {x : Float} {n : Int64} :
    StandsFor x n → pick start x = x

theorem greater_follows :
    Follows Binary64.greater (-1 / 0) fun a b => b ≤ a where
  refl n := Int64.le_refl n
  trans hFirst hSecond := Int64.le_trans hSecond hFirst
  choice {x y a b} hX hY := by
    unfold Binary64.greater
    rw [isNaN_of_value hX]
    simp only [Bool.false_or, decide_eq_true_eq, hX.lt_iff hY]
    split_ifs with hLess
    · exact Or.inr ⟨hY, Int64.le_of_lt (lt_of_nearest_lt hLess)⟩
    · rcases Int64.le_total b a with hLe | hLe
      · exact Or.inl ⟨hX, hLe⟩
      · have hSame :=
          le_antisymm (nearest_le_of_le hLe) (not_lt.mp hLess)
        exact Or.inr ⟨hX.congr hSame, hLe⟩
  start hX := by
    unfold Binary64.greater
    rw [decide_eq_true (infinity_bounds hX).1, Bool.or_true,
      if_pos rfl]

theorem smaller_follows :
    Follows Binary64.smaller (1 / 0) fun a b => a ≤ b where
  refl n := Int64.le_refl n
  trans hFirst hSecond := Int64.le_trans hFirst hSecond
  choice {x y a b} hX hY := by
    unfold Binary64.smaller
    rw [isNaN_of_value hX]
    simp only [Bool.false_or, decide_eq_true_eq, hY.lt_iff hX]
    split_ifs with hLess
    · exact Or.inr ⟨hY, Int64.le_of_lt (lt_of_nearest_lt hLess)⟩
    · rcases Int64.le_total a b with hLe | hLe
      · exact Or.inl ⟨hX, hLe⟩
      · have hSame :=
          le_antisymm (not_lt.mp hLess) (nearest_le_of_le hLe)
        exact Or.inr ⟨hX.congr hSame, hLe⟩
  start hX := by
    unfold Binary64.smaller
    rw [decide_eq_true (infinity_bounds hX).2, Bool.or_true,
      if_pos rfl]

variable {pick : Float → Float → Float}
variable {start : Float}
variable {better : Int64 → Int64 → Prop}

/- A fold of choices stands for an integer that is best of all. -/
theorem exists_best
    (hFollows : Follows pick start better)
    (rest : List Int64)
    (hX : StandsFor x a) :
    ∃ m ∈ a :: rest,
      (∀ n ∈ a :: rest, better m n) ∧
        StandsFor ((rest.map Binary64.ofInt64).foldl pick x) m := by
  induction rest generalizing x a with
  | nil =>
      refine ⟨a, List.mem_singleton.mpr rfl, ?_, hX⟩
      intro n hMem
      rw [List.mem_singleton.mp hMem]
      exact hFollows.refl a
  | cons b rest ih =>
      rcases hFollows.choice hX (standsFor_ofInt64 b) with
        ⟨hPick, hBetter⟩ | ⟨hPick, hBetter⟩
      · obtain ⟨m, hMem, hBest, hStands⟩ := ih hPick
        rw [List.forall_mem_cons] at hBest
        refine ⟨m, ?_, ?_, hStands⟩
        · rw [List.mem_cons] at hMem ⊢
          exact hMem.imp_right (List.mem_cons_of_mem b)
        · rw [List.forall_mem_cons, List.forall_mem_cons]
          exact ⟨hBest.1, hFollows.trans hBest.1 hBetter, hBest.2⟩
      · obtain ⟨m, hMem, hBest, hStands⟩ := ih hPick
        have hB := hBest b List.mem_cons_self
        refine ⟨m, List.mem_cons_of_mem a hMem, ?_, hStands⟩
        exact List.forall_mem_cons.mpr
          ⟨hFollows.trans hB hBetter, hBest⟩

/-
  The extreme of some integers is the best of them once it
  has been a double.
-/
theorem extreme_of_holds
    (hFollows : Follows pick start better)
    {values : List Value}
    {groups : List (List Int64)}
    (hHold : List.Forall₂ Holds values groups)
    (hSome : groups.flatten ≠ []) :
    ∃ m ∈ groups.flatten,
      (∀ n ∈ groups.flatten, better m n) ∧
        Arithmetic.extreme pick start values =
          .integer (restored m) := by
  obtain ⟨a, rest, hGroups⟩ := List.exists_cons_of_ne_nil hSome
  have hIntegers (ns : List Int64) :
      (ns.map Scalar.integer).all Arithmetic.isInteger = true := by
    rw [List.all_map, List.all_eq_true]
    exact fun n hMem => rfl
  have hStart := hFollows.start (standsFor_ofInt64 a)
  obtain ⟨m, hMem, hBest, hStands⟩ :=
    exists_best hFollows rest (standsFor_ofInt64 a)
  rw [hGroups]
  refine ⟨m, hMem, hBest, ?_⟩
  rw [Arithmetic.extreme, flatten?_of_holds hHold, hGroups]
  dsimp only
  rw [numbersOf?_integers, hIntegers, List.map_cons]
  dsimp only
  rw [if_pos rfl, List.foldl_cons, hStart,
    toInt64?_of_nearest hStands]
  rfl

------------------------------------------------------------
-- Order of Integers
------------------------------------------------------------

/-
  Integers are compared like the nearest integers of 53 bits,
  and so as themselves unless they are different ones with
  the same nearest integer, as two integers of 53 bits never
  are. The greatest and the least of some integers, single or
  in containers, are returned as they come back from doubles:
  as they are, if they have 53 bits or are the largest
  integer, and else as other integers.
-/
theorem ordered_as_doubles
    (engine : Engine)
    (source : String)
    (a b : Int64)
    {values : List Value}
    {groups : List (List Int64)}
    (hHold : List.Forall₂ Holds values groups)
    (hSome : groups.flatten ≠ []) :
    Compares engine source (.integer a) (.integer b)
        (nearest a.toInt) (nearest b.toInt) ∧
      (Compares engine source (.integer a) (.integer b)
          a.toInt b.toInt ↔
        (nearest a.toInt = nearest b.toInt → a = b)) ∧
      (IsShort a.toInt → IsShort b.toInt →
        Compares engine source (.integer a) (.integer b)
          a.toInt b.toInt) ∧
      (∃ m ∈ groups.flatten, (∀ n ∈ groups.flatten, n ≤ m) ∧
        Operator.apply engine source (.plain .max) values =
          pure (.integer (restored m))) ∧
      (∃ m ∈ groups.flatten, (∀ n ∈ groups.flatten, m ≤ n) ∧
        Operator.apply engine source (.plain .min) values =
          pure (.integer (restored m))) ∧
      ∀ m, restored m = m ↔
        IsShort m.toInt ∨ m = Int64.maxValue := by
  refine ⟨compares_nearest engine source a b,
    compares_exactly_iff engine source a b, ?_, ?_, ?_,
    restored_eq_self_iff⟩
  · intro hShort hShort'
    rw [compares_exactly_iff, (nearest_eq_self_iff _).mpr hShort,
      (nearest_eq_self_iff _).mpr hShort', Int64.toInt_inj]
    exact id
  · obtain ⟨m, hMem, hBest, hExtreme⟩ :=
      extreme_of_holds greater_follows hHold hSome
    exact ⟨m, hMem, hBest, congrArg pure hExtreme⟩
  · obtain ⟨m, hMem, hBest, hExtreme⟩ :=
      extreme_of_holds smaller_follows hHold hSome
    exact ⟨m, hMem, hBest, congrArg pure hExtreme⟩

/- Two is less than three, and four is the most of all. -/
theorem ordered_as_doubles_small :
    List.Forall₂ Holds
        [.integer 1,
          .multiple .integer ([4, 2].map Scalar.integer)]
        [[1], [4, 2]] ∧
      Operator.apply ⟨{}, none⟩ "item" (.plain .lt)
          [.integer 2, .integer 3] =
        pure (.boolean true) ∧
      Operator.apply ⟨{}, none⟩ "item" (.plain .max)
          [.integer 1,
            .multiple .integer ([4, 2].map Scalar.integer)] =
        pure (.integer 4) := by
  have hHold :
      List.Forall₂ Holds
        [.integer 1,
          .multiple .integer ([4, 2].map Scalar.integer)]
        [[1], [4, 2]] :=
    .cons (.single 1) (.cons (.multiple _ _) .nil)
  obtain ⟨-, -, hShort, ⟨m, hMem, hBest, hMax⟩, -, hKept⟩ :=
    ordered_as_doubles ⟨{}, none⟩ "item" 2 3 hHold (by simp)
  have hCompares :=
    hShort (isShort_of_natAbs_le (by decide))
      (isShort_of_natAbs_le (by decide))
  have hFour : m = 4 := by
    have hMore := hBest 4 (by simp)
    simp only [List.flatten_cons, List.flatten_nil,
      List.cons_append, List.nil_append, List.mem_cons,
      List.not_mem_nil, or_false] at hMem
    rcases hMem with rfl | rfl | rfl
    · exact absurd hMore (by decide)
    · rfl
    · exact absurd hMore (by decide)
  rw [hFour, (hKept 4).mpr
    (Or.inl (isShort_of_natAbs_le (by decide)))] at hMax
  exact ⟨hHold, hCompares.lt, hMax⟩

/-
  2 ^ 53 and its successor are taken for equal, and the
  maximum of the successor alone is 2 ^ 53.
-/
theorem successor_taken_equal :
    (9007199254740992 : Int64) < 9007199254740993 ∧
      Operator.apply ⟨{}, none⟩ "item" (.plain .lt)
          [.integer 9007199254740992,
            .integer 9007199254740993] =
        pure (.boolean false) ∧
      Operator.apply ⟨{}, none⟩ "item"
          (.equal ⟨.exact, [], true, true⟩)
          [.integer 9007199254740992,
            .integer 9007199254740993] =
        pure (.boolean true) ∧
      Operator.apply ⟨{}, none⟩ "item" (.plain .max)
          [.integer 9007199254740993] =
        pure (.integer 9007199254740992) := by
  have hCompares :=
    compares_nearest ⟨{}, none⟩ "item" 9007199254740992
      9007199254740993
  obtain ⟨m, hMem, -, hMax⟩ :=
    extreme_of_holds greater_follows
      (.cons (.single 9007199254740993) .nil) (by simp)
  have hRestored :
      restored 9007199254740993 = 9007199254740992 := by
    decide
  rw [List.mem_singleton.mp hMem, hRestored] at hMax
  exact ⟨by decide, hCompares.lt, hCompares.equal rfl,
    congrArg pure hMax⟩

end IntegerOrder

------------------------------------------------------------
-- Whole Doubles
------------------------------------------------------------

namespace WholeNumbers

open Double

variable (n : Int64)

theorem log2_nearest_le :
    (nearest n.toInt).natAbs.log2 ≤ 1000 := by
  obtain ⟨hLow, hHigh⟩ := nearest_toInt_bounds n
  exact Nat.le_trans (log2_natAbs_le hLow hHigh) (by decide)

theorem nearest_nearest :
    nearest (nearest n.toInt) = nearest n.toInt :=
  (nearest_eq_self_iff _).mpr (isShort_nearest _)

theorem toInt64?_truncate :
    Binary64.toInt64? (Binary64.truncate (Binary64.ofInt64 n)) =
      some (restored n) := by
  have hValue :=
    value?_truncate_of_whole (value?_ofInt64 n) (log2_nearest_le n)
  rw [nearest_nearest] at hValue
  exact toInt64?_of_nearest hValue

theorem toInt64?_floor :
    Binary64.toInt64? (Binary64.floor (Binary64.ofInt64 n)) =
      some (restored n) := by
  have hValue :=
    value?_floor (value?_ofInt64 n)
      (by simpa only [Int.floor_intCast] using log2_nearest_le n)
  rw [Int.floor_intCast, nearest_nearest] at hValue
  exact toInt64?_of_nearest hValue

theorem toInt64?_ceil :
    Binary64.toInt64? (Binary64.ceil (Binary64.ofInt64 n)) =
      some (restored n) := by
  have hValue :=
    value?_ceil_of_whole (value?_ofInt64 n) (log2_nearest_le n)
  rw [nearest_nearest] at hValue
  exact toInt64?_of_nearest hValue

------------------------------------------------------------
-- Rounding Operators
------------------------------------------------------------

theorem pure_toInt64?
    {x : Float}
    {m : Int64}
    (hInteger : Binary64.toInt64? x = some m) :
    (pure (.ofInt64? (Binary64.toInt64? x)) : Step Value) =
      pure (.integer m) := by
  rw [hInteger]
  rfl

/-
  Integers are truncated, and taken down or up to the next
  integer, as doubles. They are returned as they are, if they
  have 53 bits or are the largest integer. So they are rounded
  to the nearest integer, unless they lose the half that is
  added, and then they are raised by one. A whole double is
  returned as the integer that it stands for, or as NULL if
  that has more than 64 bits, but 2 ^ 63 as the largest one.
-/
theorem rounded_through_doubles
    (engine : Engine)
    (settings : Settings)
    (source : String)
    (n : Int64)
    {x : Float}
    {v : Int}
    (hX : value? x = some (v : ℚ)) :
    Operator.apply engine source (.plain .round) [.integer n] =
        pure (.integer (halfUp n)) ∧
      Operator.apply engine source (.plain .truncate)
          [.integer n] =
        pure (.integer (restored n)) ∧
      Operator.apply ⟨settings, none⟩ source (.math .floor)
          [.integer n] =
        pure (.integer (restored n)) ∧
      Operator.apply ⟨settings, none⟩ source (.math .ceil)
          [.integer n] =
        pure (.integer (restored n)) ∧
      (restored n = n ↔
        IsShort n.toInt ∨ n = Int64.maxValue) ∧
      (halfUp n = n ↔ restored n = n ∧ ¬LosesHalf n.toInt) ∧
      (LosesHalf n.toInt → halfUp n = n + 1) ∧
      Value.ofInt64? (Binary64.toInt64? x) =
        if v = 2 ^ 63 then .integer Int64.maxValue
        else .ofInteger v := by
  refine ⟨pure_toInt64? (toInt64?_floor_add_half n),
    pure_toInt64? (toInt64?_truncate n),
    pure_toInt64? (toInt64?_floor n),
    pure_toInt64? (toInt64?_ceil n),
    restored_eq_self_iff n, halfUp_eq_self_iff n,
    fun hLoses => if_pos hLoses, ?_⟩
  rw [toInt64?_of_whole hX]
  split_ifs
  · rfl
  · exact Value.ofInt64?_int64? v

/- Seven is returned as it is, and so is the double of it. -/
theorem rounded_through_doubles_seven :
    value? (Binary64.ofInt64 7) = some ((7 : Int) : ℚ) ∧
      Operator.apply ⟨{}, none⟩ "item" (.plain .round)
          [.integer 7] =
        pure (.integer 7) ∧
      Operator.apply ⟨{}, none⟩ "item" (.plain .truncate)
          [.integer 7] =
        pure (.integer 7) ∧
      Value.ofInt64? (Binary64.toInt64? (Binary64.ofInt64 7)) =
        .integer 7 := by
  have hNearest : nearest (7 : Int64).toInt = 7 := by decide
  have hX := value?_ofInt64 7
  rw [hNearest] at hX
  obtain ⟨hRound, hTruncate, -, -, hRestored, hHalf, -, hWhole⟩ :=
    rounded_through_doubles ⟨{}, none⟩ {} "item" 7 hX
  have hSame : restored 7 = 7 :=
    hRestored.mpr (Or.inl (isShort_of_natAbs_le (by decide)))
  rw [hHalf.mpr ⟨hSame, by decide⟩] at hRound
  rw [hSame] at hTruncate
  rw [if_neg (by decide)] at hWhole
  exact ⟨hX, hRound, hTruncate,
    hWhole.trans (Value.ofInteger_toInt 7)⟩

/-
  The successor of 2 ^ 52 is rounded to the next integer, the
  successor of 2 ^ 53 is truncated to 2 ^ 53, and the double
  2 ^ 63 becomes the largest integer.
-/
theorem whole_numbers_changed :
    Operator.apply ⟨{}, none⟩ "item" (.plain .round)
        [.integer 4503599627370497] =
      pure (.integer 4503599627370498) ∧
      Operator.apply ⟨{}, none⟩ "item" (.plain .truncate)
          [.integer 9007199254740993] =
        pure (.integer 9007199254740992) ∧
      Operator.apply ⟨{}, none⟩ "item" (.math .floor)
          [.integer 9007199254740993] =
        pure (.integer 9007199254740992) ∧
      Operator.apply ⟨{}, none⟩ "item" (.math .ceil)
          [.integer 9007199254740993] =
        pure (.integer 9007199254740992) ∧
      value? (Float.ofInt (2 ^ 63)) = some ((2 ^ 63 : Int) : ℚ) ∧
      Value.ofInt64?
          (Binary64.toInt64? (Float.ofInt (2 ^ 63))) =
        .integer Int64.maxValue := by
  have hRestored :
      restored 9007199254740993 = 9007199254740992 := by
    decide
  have hHalf : halfUp 4503599627370497 = 4503599627370498 := by
    decide
  have hRound :=
    pure_toInt64? (toInt64?_floor_add_half 4503599627370497)
  have hTruncate := pure_toInt64? (toInt64?_truncate 9007199254740993)
  have hFloor := pure_toInt64? (toInt64?_floor 9007199254740993)
  have hCeil := pure_toInt64? (toInt64?_ceil 9007199254740993)
  rw [hHalf] at hRound
  rw [hRestored] at hTruncate hFloor hCeil
  have hValue :=
    value?_ofInt (n := 2 ^ 63)
      (Nat.le_trans (log2_natAbs_le (by decide) le_rfl) (by decide))
  rw [(nearest_eq_self_iff _).mpr (isShort_two_pow 63)] at hValue
  refine ⟨hRound, hTruncate, hFloor, hCeil, hValue, ?_⟩
  rw [toInt64?_of_whole hValue, if_pos rfl]
  rfl

end WholeNumbers

end Assessment
