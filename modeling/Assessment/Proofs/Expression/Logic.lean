import Assessment.Expression.Evaluation
import Mathlib.Data.List.Forall2

/-
  Three-valued logic, by what unknown operands may stand for.

  An operand that is not a truth value is unknown, and stands
  for true as well as for false. A condition on truth values
  is true of operands if it holds whatever the unknown ones
  stand for, false if it never holds, and NULL otherwise. So a
  condition has one verdict on given operands, and operators
  agree where they give the verdict on the same condition.

  Main declarations:
    * `Logic.Completes`, truth values for all operands
    * `Logic.exists_completes_iff`, how many may be true
    * `Logic.IsVerdict` and `IsVerdict.unique`
    * the verdicts of `anyN`, `conjunction`, `disjunction`
    * `Logic.counting_exact`
-/

------------------------------------------------------------
-- Completions
------------------------------------------------------------

namespace Assessment

namespace Logic

/-
  One truth value for each operand, with the truth values
  among the operands as they are.
-/
def Completes (values : List Value) (bs : List Bool) : Prop :=
  List.Forall₂ (fun v b => v.bool? = none ∨ v.bool? = some b)
    values bs

@[simp] theorem completes_nil {bs : List Bool} :
    Completes [] bs ↔ bs = [] :=
  List.forall₂_nil_left_iff

@[simp] theorem completes_cons
    {v : Value}
    {values : List Value}
    {bs : List Bool} :
    Completes (v :: values) bs ↔
      ∃ b rest, bs = b :: rest ∧
        (v.bool? = none ∨ v.bool? = some b) ∧
        Completes values rest := by
  unfold Completes
  rw [List.forall₂_cons_left_iff]
  constructor
  · rintro ⟨b, rest, hHead, hRest, rfl⟩
    exact ⟨b, rest, rfl, hHead, hRest⟩
  · rintro ⟨b, rest, rfl, hHead, hRest⟩
    exact ⟨b, rest, hHead, hRest, rfl⟩

theorem Completes.length_eq
    {values : List Value}
    {bs : List Bool}
    (hCompletes : Completes values bs) :
    bs.length = values.length :=
  (List.Forall₂.length_eq hCompletes).symm

------------------------------------------------------------
-- Counting
------------------------------------------------------------

variable {v : Value}
variable {values : List Value}

theorem truths_cons_true (hTrue : v.bool? = some true) :
    truths (v :: values) = truths values + 1 := by
  simp [truths, hTrue]

theorem truths_cons_other (hOther : v.bool? ≠ some true) :
    truths (v :: values) = truths values := by
  simp [truths, hOther]

theorem unknowns_cons_none (hNone : v.bool? = none) :
    unknowns (v :: values) = unknowns values + 1 := by
  simp [unknowns, hNone]

theorem unknowns_cons_some
    {b : Bool}
    (hSome : v.bool? = some b) :
    unknowns (v :: values) = unknowns values := by
  simp [unknowns, hSome]

theorem unknowns_nonneg (values : List Value) :
    0 ≤ unknowns values :=
  Int.natCast_nonneg _

/-
  The numbers of truths that are possible run from that of
  the operands that are true to that of those not false.
-/
theorem exists_completes_iff {n : Int} :
    (∃ bs, Completes values bs ∧ (bs.count true : Int) = n) ↔
      truths values ≤ n ∧
        n ≤ truths values + unknowns values := by
  induction values generalizing n with
  | nil =>
      simp [truths, unknowns]
      omega
  | cons v values ih =>
      -- What the first operand stands for shifts the number.
      have hSplit :
          (∃ bs, Completes (v :: values) bs ∧
            (bs.count true : Int) = n) ↔
          ∃ b, (v.bool? = none ∨ v.bool? = some b) ∧
            ∃ bs, Completes values bs ∧
              (bs.count true : Int) = n - b.toInt := by
        constructor
        · rintro ⟨_, hCompletes, hCount⟩
          obtain ⟨b, bs, rfl, hHead, hRest⟩ :=
            completes_cons.mp hCompletes
          refine ⟨b, hHead, bs, hRest, ?_⟩
          cases b <;> simp at hCount ⊢ <;> omega
        · rintro ⟨b, hHead, bs, hRest, hCount⟩
          refine ⟨b :: bs,
            completes_cons.mpr ⟨b, bs, rfl, hHead, hRest⟩, ?_⟩
          cases b <;> simp at hCount ⊢ <;> omega
      rw [hSplit]
      simp only [ih]
      have hUnknowns := unknowns_nonneg values
      cases hBool : v.bool? with
      | none =>
          rw [truths_cons_other (by simp [hBool]),
            unknowns_cons_none hBool]
          simp
          omega
      | some b =>
          rw [unknowns_cons_some hBool]
          cases b with
          | true =>
              rw [truths_cons_true hBool]
              simp
              omega
          | false =>
              rw [truths_cons_other (by simp [hBool])]
              simp

/- Unknown operands may all stand for one truth value. -/
theorem completes_getD (values : List Value) (b : Bool) :
    Completes values (values.map fun v => v.bool?.getD b) := by
  unfold Completes
  rw [List.forall₂_map_right_iff, List.forall₂_same]
  intro v _
  cases v.bool? with
  | none => exact Or.inl rfl
  | some c => exact Or.inr rfl

/- What stands for a known operand is its own truth value. -/
theorem Completes.mem_of_bool?
    {b : Bool}
    {bs : List Bool}
    (hCompletes : Completes values bs)
    (hMem : v ∈ values)
    (hBool : v.bool? = some b) :
    b ∈ bs := by
  induction hCompletes with
  | nil => cases hMem
  | cons hHead _ ih =>
      rcases List.mem_cons.mp hMem with rfl | hLater
      · rw [hBool] at hHead
        rcases hHead with hNone | hSame
        · cases hNone
        · cases hSame
          exact List.mem_cons_self
      · exact List.mem_cons_of_mem _ (ih hLater)

/- What occurs stands for an unknown operand or for itself. -/
theorem Completes.exists_of_mem
    {b : Bool}
    {bs : List Bool}
    (hCompletes : Completes values bs)
    (hMem : b ∈ bs) :
    ∃ v ∈ values, v.bool? = none ∨ v.bool? = some b := by
  induction hCompletes with
  | nil => cases hMem
  | cons hHead _ ih =>
      rcases List.mem_cons.mp hMem with rfl | hLater
      · exact ⟨_, List.mem_cons_self, hHead⟩
      · obtain ⟨v, hIn, hBool⟩ := ih hLater
        exact ⟨v, List.mem_cons_of_mem _ hIn, hBool⟩

/- A negated operand stands for what its operand does not. -/
theorem completes_negation {bs : List Bool} :
    Completes (values.map negation) bs ↔
      Completes values (bs.map (!·)) := by
  unfold Completes
  rw [List.forall₂_map_left_iff, List.forall₂_map_right_iff]
  have hEach : ∀ (v : Value) (b : Bool),
      ((negation v).bool? = none ∨
        (negation v).bool? = some b) ↔
      (v.bool? = none ∨ v.bool? = some !b) := by
    intro v b
    unfold negation
    cases v.bool? with
    | none => simp [Value.ofBool?, Value.bool?]
    | some c =>
        cases b <;> cases c <;>
          simp [Value.ofBool?, Value.boolean, Value.bool?]
  simp only [hEach]

------------------------------------------------------------
-- Verdicts
------------------------------------------------------------

/-
  A value says whether a condition holds of the truth values
  that operands may stand for: always, never, or now and
  then.
-/
structure IsVerdict
    (values : List Value)
    (holds : List Bool → Prop)
    (verdict : Value) :
    Prop where
  isTrue :
    verdict = .boolean true ↔
      ∀ bs, Completes values bs → holds bs
  isFalse :
    verdict = .boolean false ↔
      ∀ bs, Completes values bs → ¬ holds bs
  isNull :
    verdict = .null ↔
      (∃ bs, Completes values bs ∧ holds bs) ∧
        ∃ bs, Completes values bs ∧ ¬ holds bs

variable {holds other : List Bool → Prop}
variable {verdict : Value}

/- Of three values it is enough when two are given. -/
theorem IsVerdict.of_isTrue_isFalse
    (hValue :
      verdict = .boolean true ∨ verdict = .boolean false ∨
        verdict = .null)
    (hTrue :
      verdict = .boolean true ↔
        ∀ bs, Completes values bs → holds bs)
    (hFalse :
      verdict = .boolean false ↔
        ∀ bs, Completes values bs → ¬ holds bs) :
    IsVerdict values holds verdict := by
  refine ⟨hTrue, hFalse, ?_⟩
  have hNull :
      verdict = .null ↔
        verdict ≠ .boolean false ∧ verdict ≠ .boolean true := by
    rcases hValue with rfl | rfl | rfl <;>
      simp [Value.boolean]
  rw [hNull, Ne, Ne, hFalse, hTrue]
  push Not
  rfl

/- Conditions that come to the same have the same verdict. -/
theorem IsVerdict.unique
    {first second : Value}
    (hFirst : IsVerdict values holds first)
    (hSecond : IsVerdict values other second)
    (hSame :
      ∀ bs, Completes values bs → (holds bs ↔ other bs)) :
    first = second := by
  by_cases hAlways : ∀ bs, Completes values bs → holds bs
  · rw [hFirst.isTrue.mpr hAlways, hSecond.isTrue.mpr]
    exact fun bs hBs => (hSame bs hBs).mp (hAlways bs hBs)
  by_cases hNever : ∀ bs, Completes values bs → ¬ holds bs
  · rw [hFirst.isFalse.mpr hNever, hSecond.isFalse.mpr]
    exact fun bs hBs hOther =>
      hNever bs hBs ((hSame bs hBs).mpr hOther)
  push Not at hAlways hNever
  obtain ⟨bs, hBs, hHolds⟩ := hNever
  obtain ⟨cs, hCs, hNot⟩ := hAlways
  rw [hFirst.isNull.mpr ⟨⟨bs, hBs, hHolds⟩, cs, hCs, hNot⟩,
    hSecond.isNull.mpr]
  exact ⟨⟨bs, hBs, (hSame bs hBs).mp hHolds⟩, cs, hCs,
    fun hOther => hNot ((hSame cs hCs).mpr hOther)⟩

/- The verdict on the opposite is the negation. -/
theorem IsVerdict.negation
    (hVerdict : IsVerdict values holds verdict) :
    IsVerdict values (fun bs => ¬ holds bs)
      (negation verdict) := by
  have hValue :
      verdict = .boolean true ∨ verdict = .boolean false ∨
        verdict = .null := by
    rw [hVerdict.isTrue, hVerdict.isFalse, hVerdict.isNull]
    grind
  have hTrue :
      Logic.negation verdict = .boolean true ↔
        verdict = .boolean false := by
    rcases hValue with rfl | rfl | rfl <;>
      simp [Logic.negation, Value.ofBool?, Value.boolean,
        Value.bool?]
  have hFalse :
      Logic.negation verdict = .boolean false ↔
        verdict = .boolean true := by
    rcases hValue with rfl | rfl | rfl <;>
      simp [Logic.negation, Value.ofBool?, Value.boolean,
        Value.bool?]
  apply of_isTrue_isFalse
  · rcases hValue with rfl | rfl | rfl
    · exact Or.inr (Or.inl rfl)
    · exact Or.inl rfl
    · exact Or.inr (Or.inr rfl)
  · exact hTrue.trans hVerdict.isFalse
  · simp only [not_not]
    exact hFalse.trans hVerdict.isTrue

/- What holds of all numbers of truths that are possible. -/
theorem forall_completes_iff {P : Int → Prop} :
    (∀ bs, Completes values bs → P (bs.count true)) ↔
      ∀ n, truths values ≤ n →
        n ≤ truths values + unknowns values → P n := by
  constructor
  · intro hAll n hLeast hMost
    obtain ⟨bs, hBs, rfl⟩ :=
      exists_completes_iff.mpr ⟨hLeast, hMost⟩
    exact hAll bs hBs
  · intro hAll bs hBs
    obtain ⟨hLeast, hMost⟩ :=
      exists_completes_iff.mp ⟨bs, hBs, rfl⟩
    exact hAll _ hLeast hMost

/- The verdict on whether the number of truths is in a range. -/
theorem isVerdict_anyN (min max : Int64) (values : List Value) :
    IsVerdict values
      (fun bs =>
        min.toInt ≤ bs.count true ∧ bs.count true ≤ max.toInt)
      (anyN min max values) := by
  have hUnknowns := unknowns_nonneg values
  have hCrossed : max < min ↔ max.toInt < min.toInt :=
    Int64.lt_iff_toInt_lt
  apply IsVerdict.of_isTrue_isFalse
  · unfold anyN
    grind
  · rw [forall_completes_iff
      (P := fun n => min.toInt ≤ n ∧ n ≤ max.toInt)]
    trans min.toInt ≤ truths values ∧
      truths values + unknowns values ≤ max.toInt
    · unfold anyN
      simp only [hCrossed, Bool.and_eq_true, decide_eq_true_eq]
      split_ifs <;> simp [Value.boolean] <;> omega
    · constructor
      · rintro ⟨hMin, hMax⟩ n hLeast hMost
        omega
      · intro hAll
        have hLeast := hAll _ (Int.le_refl _) (by omega)
        have hMost := hAll _ (by omega) (Int.le_refl _)
        omega
  · rw [forall_completes_iff
      (P := fun n => ¬ (min.toInt ≤ n ∧ n ≤ max.toInt))]
    trans max.toInt < min.toInt ∨
      truths values + unknowns values < min.toInt ∨
        max.toInt < truths values
    · unfold anyN
      simp only [hCrossed, Bool.and_eq_true, Bool.or_eq_true,
        decide_eq_true_eq]
      split_ifs <;> simp [Value.boolean] <;> omega
    · constructor
      · intro hApart n hLeast hMost
        omega
      · -- The greater one of the two lower ends lies in both.
        intro hNone
        by_contra hMeet
        rcases Int.le_total min.toInt (truths values) with
          hMin | hMin
        · exact hNone (truths values) (by omega) (by omega)
            (by omega)
        · exact hNone min.toInt hMin (by omega) (by omega)

/-
  Where one truth value decides alone, and its opposite only
  if all operands have it, the verdict is on whether the first
  one occurs.
-/
theorem decided_iff
    (values : List Value)
    (c : Bool)
    (hVerdict :
      verdict =
        if values.any fun v => v.bool? == some c then
          .boolean c
        else if values.all fun v => v.bool? == some !c then
          .boolean !c
        else .null) :
    (verdict = .boolean c ↔
        ∀ bs, Completes values bs → c ∈ bs) ∧
      (verdict = .boolean (!c) ↔
        ∀ bs, Completes values bs → c ∉ bs) ∧
      (verdict = .boolean c ∨ verdict = .boolean (!c) ∨
        verdict = .null) := by
  have hAny :
      (values.any fun v => v.bool? == some c) = true ↔
        ∀ bs, Completes values bs → c ∈ bs := by
    rw [List.any_eq_true]
    constructor
    · rintro ⟨v, hMem, hBool⟩ bs hBs
      exact hBs.mem_of_bool? hMem (eq_of_beq hBool)
    · intro hAlways
      obtain ⟨v, hMem, hSame⟩ := List.mem_map.mp
        (hAlways _ (completes_getD values !c))
      refine ⟨v, hMem, ?_⟩
      cases hBool : v.bool? <;> simp_all
  have hAll :
      (values.all fun v => v.bool? == some !c) = true ↔
        ∀ bs, Completes values bs → c ∉ bs := by
    rw [List.all_eq_true]
    constructor
    · intro hOpposite bs hBs hOccurs
      obtain ⟨v, hMem, hBool⟩ := hBs.exists_of_mem hOccurs
      rw [eq_of_beq (hOpposite v hMem)] at hBool
      simp at hBool
    · intro hNever v hMem
      have hNot := hNever _ (completes_getD values c)
      cases hBool : v.bool? with
      | none =>
          exact absurd
            (List.mem_map.mpr ⟨v, hMem, by rw [hBool]; rfl⟩) hNot
      | some b =>
          have hOther : b ≠ c := by
            rintro rfl
            exact hNot
              (List.mem_map.mpr ⟨v, hMem, by rw [hBool]; rfl⟩)
          simpa using Bool.eq_not.mpr hOther
  rw [← hAny, ← hAll, hVerdict]
  have hBoth :
      (values.any fun v => v.bool? == some c) = true →
        (values.all fun v => v.bool? == some !c) = true →
          False := by
    intro hC hOpposite
    obtain ⟨bs, hBs⟩ : ∃ bs, Completes values bs :=
      ⟨_, completes_getD values c⟩
    exact hAll.mp hOpposite bs hBs (hAny.mp hC bs hBs)
  split_ifs with hC hOpposite <;>
    simp_all [Value.boolean]

/- The verdict on whether no operand is false. -/
theorem isVerdict_conjunction (values : List Value) :
    IsVerdict values (fun bs => false ∉ bs)
      (conjunction values) := by
  obtain ⟨hFalse, hTrue, hValue⟩ :=
    decided_iff values false rfl
  apply IsVerdict.of_isTrue_isFalse
  · exact or_left_comm.mp hValue
  · exact hTrue
  · simp only [not_not]
    exact hFalse

/- The verdict on whether some operand is true. -/
theorem isVerdict_disjunction (values : List Value) :
    IsVerdict values (fun bs => true ∈ bs)
      (disjunction values) := by
  obtain ⟨hTrue, hFalse, hValue⟩ :=
    decided_iff values true rfl
  exact IsVerdict.of_isTrue_isFalse hValue hTrue hFalse

------------------------------------------------------------
-- Agreement
------------------------------------------------------------

/- All operands are true if that many are. -/
theorem conjunction_eq_anyN
    {n : Int64}
    (hLength : n.toInt = values.length) :
    conjunction values = anyN n n values := by
  apply (isVerdict_conjunction values).unique
    (isVerdict_anyN n n values)
  intro bs hBs
  have hMost := List.count_le_length (a := true) (l := bs)
  have hSame := hBs.length_eq
  have hFull : false ∉ bs ↔ bs.count true = bs.length := by
    rw [List.count_eq_length]
    grind
  rw [hFull]
  omega

/- Some operand is true if at least one is. -/
theorem disjunction_eq_anyN
    {n : Int64}
    (hLength : n.toInt = values.length) :
    disjunction values = anyN 1 n values := by
  apply (isVerdict_disjunction values).unique
    (isVerdict_anyN 1 n values)
  intro bs hBs
  have hMost := List.count_le_length (a := true) (l := bs)
  have hSame := hBs.length_eq
  have hOne : (1 : Int64).toInt = 1 := rfl
  rw [← List.one_le_count_iff, hOne]
  omega

/- The completions of negated operands are those negated. -/
theorem forall_completes_negation {P : List Bool → Prop} :
    (∀ bs, Completes (values.map negation) bs → P bs) ↔
      ∀ bs, Completes values bs → P (bs.map (!·)) := by
  have hTwice : ∀ bs : List Bool, (bs.map (!·)).map (!·) = bs := by
    intro bs
    simp [Function.comp_def]
  constructor
  · intro hAll bs hBs
    apply hAll
    rwa [completes_negation, hTwice]
  · intro hAll bs hBs
    rw [← hTwice bs]
    exact hAll _ (completes_negation.mp hBs)

/- Not all operands are true if some negated one is. -/
theorem negation_conjunction (values : List Value) :
    negation (conjunction values) =
      disjunction (values.map negation) := by
  have hNegated := isVerdict_disjunction (values.map negation)
  have hTurned :
      IsVerdict values (fun bs => true ∈ bs.map (!·))
        (disjunction (values.map negation)) := by
    obtain ⟨_, _, hValue⟩ :=
      decided_iff (values.map negation) true rfl
    apply IsVerdict.of_isTrue_isFalse hValue
    · exact hNegated.isTrue.trans forall_completes_negation
    · exact hNegated.isFalse.trans forall_completes_negation
  apply (isVerdict_conjunction values).negation.unique hTurned
  intro bs _
  simp

end Logic

------------------------------------------------------------
-- Expressions
------------------------------------------------------------

namespace Expression

open Logic

variable {engine : Engine}
variable {scope : Scope}

/- Only what is done with as many values as arguments counts. -/
theorem evaluateAll_bind_congr
    {args : List Expression}
    {f g : List Value → Step Value}
    (hSame :
      ∀ values, values.length = args.length →
        f values = g values) :
    (evaluateAll engine scope args >>= f) =
      evaluateAll engine scope args >>= g := by
  induction args generalizing f g with
  | nil =>
      rw [evaluateAll, pure_bind, pure_bind]
      exact hSame [] rfl
  | cons e rest ih =>
      rw [evaluateAll]
      simp only [bind_assoc, pure_bind]
      congr 1
      funext v
      apply ih
      intro values hLength
      exact hSame (v :: values) (by simp [hLength])

/- A negated argument has the negation of its value. -/
theorem evaluate_negated (e : Expression) :
    evaluate engine scope (.node (.plain .not) [e]) =
      negation <$> evaluate engine scope e := by
  simp only [evaluate, evaluateAll, bind_assoc, pure_bind]
  exact bind_pure_comp negation _

theorem evaluateAll_negated (args : List Expression) :
    evaluateAll engine scope
        (args.map fun e => .node (.plain .not) [e]) =
      List.map negation <$> evaluateAll engine scope args := by
  induction args with
  | nil => rw [List.map_nil, evaluateAll, map_pure, List.map_nil]
  | cons e rest ih =>
      rw [List.map_cons, evaluateAll, evaluateAll,
        evaluate_negated, ih]
      simp only [map_bind, bind_map_left, map_pure,
        List.map_cons]

/-
  Counting is exact, and all of logic is counting. The value
  of `anyN` is the verdict on whether the number of truths is
  in its range, whatever the unknown operands stand for. As
  computations, `and` and `or` of some arguments are `anyN` of
  all and of at least one of them, and the negation of `and`
  is `or` of the negated arguments.
-/
theorem counting_exact (engine : Engine) (scope : Scope) :
    (∀ (min max : Int64) (values : List Value),
      ∃ v,
        (Operator.anyN min max).apply engine scope.source
            values = pure v ∧
          IsVerdict values
            (fun bs =>
              min.toInt ≤ bs.count true ∧
                bs.count true ≤ max.toInt) v) ∧
      ∀ args : List Expression,
        (∀ n : Int64, n.toInt = args.length →
          evaluate engine scope (.node (.plain .and) args) =
              evaluate engine scope (.node (.anyN n n) args) ∧
            evaluate engine scope (.node (.plain .or) args) =
              evaluate engine scope (.node (.anyN 1 n) args)) ∧
          evaluate engine scope
              (.node (.plain .not) [.node (.plain .and) args]) =
            evaluate engine scope
              (.node (.plain .or)
                (args.map fun e => .node (.plain .not) [e])) := by
  refine ⟨fun min max values =>
    ⟨_, rfl, isVerdict_anyN min max values⟩, fun args => ⟨?_, ?_⟩⟩
  · intro n hLength
    constructor
    · rw [evaluate, evaluate]
      apply evaluateAll_bind_congr
      intro values hSame
      exact congrArg pure
        (conjunction_eq_anyN (by rw [hSame, hLength]))
    · rw [evaluate, evaluate]
      apply evaluateAll_bind_congr
      intro values hSame
      exact congrArg pure
        (disjunction_eq_anyN (by rw [hSame, hLength]))
  · rw [evaluate_negated, evaluate, evaluate,
      evaluateAll_negated, bind_map_left, map_bind]
    apply evaluateAll_bind_congr
    intro values _
    exact congrArg (pure (f := Step))
      (negation_conjunction values)

/- A scope that nothing is declared in. -/
def bareScope : Scope where
  source := "item"
  declarations := []
  values := []
  defaults := []
  corrects := []
  test := none

/- Two arguments, the second of them unknown. -/
def halfKnown : List Expression :=
  [.leaf (.base (.boolean true)), .leaf .null]

/- One truth of two may be all of them, and is some of them. -/
theorem counting_exact_half :
    (2 : Int64).toInt = halfKnown.length ∧
      (Step.run
        (evaluate ⟨{}, none⟩ bareScope
          (.node (.anyN 2 2) halfKnown)) ⟨default, []⟩).1 =
        .ok .null ∧
      (Step.run
        (evaluate ⟨{}, none⟩ bareScope
          (.node (.anyN 1 2) halfKnown)) ⟨default, []⟩).1 =
        .ok (.boolean true) := by
  have hTwo : (2 : Int64).toInt = halfKnown.length := rfl
  obtain ⟨hAnd, hOr⟩ :=
    ((counting_exact ⟨{}, none⟩ bareScope).2 halfKnown).1 2 hTwo
  rw [← hAnd, ← hOr]
  exact ⟨hTwo, rfl, rfl⟩

end Expression

end Assessment
