import Assessment.Proofs.Typing.Values
import Mathlib

/-
  The scores of lists of elements.

  A scoring runs through its entries, and takes the elements
  that an entry fits away from what is left, one for each. An
  element may stand in the list several times, be equal to
  another that is written in another order, and be fitted by
  several entries. In the end the elements are left that no
  entry fits, so that the score has a closed form, to which
  the order of the elements does not matter.

  Main declarations:
    * `Scalar.equals_symm` and `Scalar.equals_trans`, which
      hold of all values, NaN included
    * `Scalar.IsExact`, values for which equality is one
    * `Scoring.Stable` and `Scoring.Discerns`, entries that
      treat equal elements alike
    * `Scoring.removeEach_matched` and `Scoring.collect_eq`
    * `Scoring.Totals` and `containers_scored`
-/

------------------------------------------------------------
-- Equal Single Values
------------------------------------------------------------

namespace Assessment

namespace Scalar

/-
  Values of a type without NaN. Only among floats and
  durations is there a value that is not equal to itself.
-/
def IsExact (s : Scalar) : Prop :=
  s.baseType ≠ .float ∧ s.baseType ≠ .duration

/- A pair in the other order, and anything else as it is. -/
def turned : Scalar → Scalar
  | .pair a b => .pair b a
  | s => s

variable {s t : Scalar}

theorem isExact_string (a : String) :
    (string a).IsExact := by
  constructor
  · intro hSame
    cases hSame
  · intro hSame
    cases hSame

theorem IsExact.turned (hExact : s.IsExact) :
    s.turned.IsExact := by
  cases s <;> exact hExact

/- Equal values are the same, but for the order of a pair. -/
theorem equals_iff (hExact : s.IsExact) :
    s.equals t = true ↔ t = s ∨ t = s.turned := by
  cases s with
  | float x => exact absurd rfl hExact.1
  | duration x => exact absurd rfl hExact.2
  | pair a b =>
      cases t <;> simp [equals, turned]
      grind
  | _ =>
      cases t <;> simp [equals, turned]
      grind

theorem equals_self (hExact : s.IsExact) : s.equals s = true :=
  (equals_iff hExact).mpr (.inl rfl)

theorem equals_turned (s t : Scalar) :
    s.equals t.turned = s.equals t := by
  cases t with
  | pair a b =>
      cases s <;> simp [equals, turned]
      grind
  | _ => rfl

/- Equality goes both ways. -/
theorem equals_symm (hEqual : s.equals t = true) :
    t.equals s = true := by
  cases s with
  | float x =>
      cases t with
      | float y => exact BEq.symm hEqual
      | _ => cases hEqual
  | duration x =>
      cases t with
      | duration y => exact BEq.symm hEqual
      | _ => cases hEqual
  | _ =>
      cases t <;> simp [equals] at hEqual ⊢
      grind

/- What is equal to an equal value is equal. -/
theorem equals_trans
    {u : Scalar}
    (hFirst : s.equals t = true)
    (hThen : t.equals u = true) :
    s.equals u = true := by
  cases t with
  | float y =>
      cases s with
      | float x =>
          cases u with
          | float z => exact BEq.trans hFirst hThen
          | _ => cases hThen
      | _ => cases hFirst
  | duration y =>
      cases s with
      | duration x =>
          cases u with
          | duration z => exact BEq.trans hFirst hThen
          | _ => cases hThen
      | _ => cases hFirst
  | _ =>
      cases s <;> simp [equals] at hFirst
      cases u <;> simp [equals] at hThen ⊢
      grind

/- Equal values are equal to the same values. -/
theorem equals_congr_right
    (hEqual : s.equals t = true)
    (u : Scalar) :
    u.equals t = u.equals s := by
  rw [Bool.eq_iff_iff]
  exact ⟨fun hT => equals_trans hT (equals_symm hEqual),
    fun hS => equals_trans hS hEqual⟩

theorem equals_congr_left
    (hEqual : s.equals t = true)
    (u : Scalar) :
    t.equals u = s.equals u := by
  rw [Bool.eq_iff_iff]
  exact ⟨equals_trans hEqual,
    equals_trans (equals_symm hEqual)⟩

end Scalar

------------------------------------------------------------
-- Removal
------------------------------------------------------------

namespace Value

variable {s : Scalar}
variable {xs ys : List Scalar}

/- Nothing is taken away where nothing is equal. -/
theorem equals_of_removeOne_eq_none
    (hNone : removeOne s xs = none) :
    ∀ t ∈ xs, s.equals t = false := by
  induction xs with
  | nil => simp
  | cons t rest ih =>
      rw [removeOne] at hNone
      split at hNone
      · cases hNone
      next hNot =>
        rw [Option.map_eq_none_iff] at hNone
        intro u hMem
        rcases List.mem_cons.mp hMem with rfl | hRest
        · simpa using hNot
        · exact ih hNone u hRest

/- Otherwise one that is equal is taken out of its place. -/
theorem exists_of_removeOne
    (hSome : removeOne s xs = some ys) :
    ∃ before t after, xs = before ++ t :: after ∧
      ys = before ++ after ∧ s.equals t = true := by
  induction xs generalizing ys with
  | nil => cases hSome
  | cons t rest ih =>
      rw [removeOne] at hSome
      split at hSome
      next hEqual =>
        cases hSome
        exact ⟨[], t, rest, rfl, rfl, hEqual⟩
      next =>
        rcases Option.map_eq_some_iff.mp hSome with
          ⟨left, hLeft, rfl⟩
        rcases ih hLeft with ⟨before, u, after, rfl, rfl, hU⟩
        exact ⟨t :: before, u, after, rfl, rfl, hU⟩

end Value

namespace Scoring

/-
  A condition on elements that equal elements meet alike, and
  that only elements meet which are equal to themselves.
-/
structure Stable (f : Scalar → Bool) : Prop where
  self : ∀ v, f v = true → v.equals v = true
  alike :
    ∀ v w, f v = true → v.equals w = true → f w = true

/-
  A condition on elements that equal elements meet alike, and
  that no NaN meets.
-/
structure Discerning (f : Scalar → Bool) : Prop where
  exact : ∀ v, f v = true → v.IsExact
  turned : ∀ v, f v.turned = f v

theorem Discerning.stable
    {f : Scalar → Bool}
    (hDiscerning : Discerning f) :
    Stable f := by
  constructor
  · exact fun v hV =>
      Scalar.equals_self (hDiscerning.exact v hV)
  · intro v w hV hEqual
    have hExact := hDiscerning.exact v hV
    rcases (Scalar.equals_iff hExact).mp hEqual with rfl | rfl
    · exact hV
    · rw [hDiscerning.turned, hV]

/-
  If of each element that meets a condition as many are taken
  away as are there, then the others are left. Equal elements
  stand for each other, so only their number counts.
-/
theorem removeEach_eq_filter
    {f : Scalar → Bool}
    (hStable : Stable f)
    {taken rest : List Scalar}
    (hTaken : ∀ v ∈ taken, f v = true)
    (hEnough : ∀ v, f v = true →
      rest.countP v.equals ≤ taken.countP v.equals) :
    removeEach taken rest = rest.filter fun v => !f v := by
  induction taken generalizing rest with
  | nil =>
      refine (List.filter_eq_self.mpr fun v hMem => ?_).symm
      by_contra hNot
      have hV : f v = true := by simpa using hNot
      have hNone := List.countP_eq_zero.mp
        (Nat.le_zero.mp (hEnough v hV)) v hMem
      exact hNone (hStable.self v hV)
  | cons w taken ih =>
      have hW := hTaken w List.mem_cons_self
      have hOthers : ∀ v ∈ taken, f v = true := fun v hMem =>
        hTaken v (List.mem_cons_of_mem w hMem)
      have hStep : removeEach (w :: taken) rest =
          removeEach taken
            ((Value.removeOne w rest).getD rest) := rfl
      rw [hStep]
      cases hRemoved : Value.removeOne w rest with
      | none =>
          have hNone := Value.equals_of_removeOne_eq_none hRemoved
          refine ih hOthers fun v hV => ?_
          have hCounted := hEnough v hV
          rw [List.countP_cons] at hCounted
          cases hSame : v.equals w with
          | false => simpa [hSame] using hCounted
          | true =>
              -- What is equal to `v` would be equal to `w`.
              have hZero : rest.countP v.equals = 0 := by
                refine List.countP_eq_zero.mpr fun t hMem => ?_
                rw [← Scalar.equals_congr_left hSame t,
                  hNone t hMem]
                decide
              rw [Option.getD_none, hZero]
              exact Nat.zero_le _
      | some left =>
          rcases Value.exists_of_removeOne hRemoved with
            ⟨before, t, after, rfl, rfl, hEqual⟩
          have hT := hStable.alike w t hW hEqual
          rw [Option.getD_some, ih hOthers]
          · simp [List.filter_append, hT]
          · intro v hV
            have hCounted := hEnough v hV
            have hBoth := Scalar.equals_congr_right hEqual v
            simp only [List.countP_append, List.countP_cons,
              hBoth] at hCounted ⊢
            omega

------------------------------------------------------------
-- Entries
------------------------------------------------------------

variable {Key : Type}

/- The entries of a scoring treat equal elements alike. -/
def Discerns
    (s : Scoring Key)
    (fits : Key → Scalar → Bool) :
    Prop :=
  ∀ e ∈ s.entries, Discerning (fits e.key)

/- What an entry fits is taken away wherever it is left. -/
theorem removeEach_matched
    {f : Scalar → Bool}
    (hStable : Stable f)
    {elements rest : List Scalar}
    (hRest : rest.Sublist elements) :
    removeEach (elements.filter f) rest =
      rest.filter fun v => !f v := by
  apply removeEach_eq_filter hStable
  · exact fun v hMem => (List.mem_filter.mp hMem).2
  · intro v hV
    calc rest.countP v.equals
      _ ≤ elements.countP v.equals := hRest.countP_le
      _ = (elements.filter f).countP v.equals := by
          rw [List.countP_filter]
          refine List.countP_congr fun w _ => ?_
          constructor
          · exact fun hEqual => by
              simp [hEqual, hStable.alike v w hV hEqual]
          · exact fun hBoth => by
              simpa using (Bool.and_eq_true_iff.mp hBoth).1

/- The entries that fit an element, in their order. -/
def hitting
    (fits : Key → Scalar → Bool)
    (elements : List Scalar)
    (entries : List (ScoreEntry Key)) :
    List (ScoreEntry Key) :=
  entries.filter fun e => elements.any (fits e.key)

/- Whether no entry fits an element. -/
def misses
    (fits : Key → Scalar → Bool)
    (entries : List (ScoreEntry Key))
    (v : Scalar) :
    Bool :=
  !entries.any fun e => fits e.key v

/- Scores added up from the first to the last. -/
def addUp (start : Float) (es : List (ScoreEntry Key)) : Float :=
  es.foldl (fun sum e => sum + e.score) start

/-
  Induction over the entries: each that fits an element adds
  its score once, and leaves the elements that it does not
  fit.
-/
theorem collect_eq
    {fits : Key → Scalar → Bool}
    {elements : List Scalar}
    (entries : List (ScoreEntry Key))
    (hStable : ∀ e ∈ entries, Stable (fits e.key))
    (sum : Float)
    {rest : List Scalar}
    (hRest : rest.Sublist elements) :
    collect fits elements sum rest entries =
      (addUp sum (hitting fits elements entries),
        rest.filter (misses fits entries)) := by
  induction entries generalizing sum rest with
  | nil =>
      have hAll : rest.filter (misses fits []) = rest :=
        List.filter_eq_self.mpr fun _ _ => rfl
      rw [hAll]
      rfl
  | cons e others ih =>
      have hFirst := hStable e List.mem_cons_self
      have hLeft : (rest.filter fun v => !fits e.key v).Sublist
          elements :=
        List.filter_sublist.trans hRest
      have hMisses : ∀ v, misses fits (e :: others) v =
          (!fits e.key v && misses fits others v) := by
        simp [misses]
      rw [collect]
      simp only [removeEach_matched hFirst hRest]
      rw [ih (fun d hMem =>
        hStable d (List.mem_cons_of_mem e hMem)) _ hLeft]
      rw [List.filter_filter]
      have hAny : (elements.filter (fits e.key)).isEmpty =
          !elements.any (fits e.key) := by
        rw [Bool.eq_iff_iff]
        simp [List.isEmpty_iff, List.filter_eq_nil_iff]
      refine Prod.ext ?_ ?_
      · simp only [hitting, List.filter_cons, hAny, addUp]
        cases elements.any (fits e.key) <;> rfl
      · refine List.filter_congr fun v _ => ?_
        rw [hMisses, Bool.and_comm]

------------------------------------------------------------
-- Scores
------------------------------------------------------------

/- What no entry fits is counted at the default score. -/
theorem ofContainer_eq
    {s : Scoring Key}
    {fits : Key → Scalar → Bool}
    (hStable : ∀ e ∈ s.entries, Stable (fits e.key))
    (elements : List Scalar) :
    s.ofContainer fits elements =
      addUp 0 (hitting fits elements s.entries) +
        s.otherwise *
          Float.ofNat
            (elements.countP (misses fits s.entries)) := by
  rw [ofContainer,
    collect_eq s.entries hStable 0 (List.Sublist.refl _)]
  dsimp only
  rw [List.countP_eq_length_filter]

/-
  How a scoring scores lists. The scores of the entries that
  fit an element are added in the order of the entries, each
  once, and nothing is rearranged: the sums are those of the
  program, rounded where it rounds.
-/
structure Totals
    (s : Scoring Key)
    (fits : Key → Scalar → Bool)
    (score : List Scalar → Value) :
    Prop where
  closed : ∀ elements,
    score elements =
      .float (s.clamp
        (addUp 0 (hitting fits elements s.entries) +
          s.otherwise *
            Float.ofNat
              (elements.countP (misses fits s.entries))))
  /- The order of the elements does not matter. -/
  permuted : ∀ xs ys, xs.Perm ys → score xs = score ys
  /- Nor does another copy of an element that is fitted. -/
  copied : ∀ v xs, v ∈ xs → misses fits s.entries v = false →
    score (v :: xs) = score xs

/- Both follow from the closed form. -/
theorem totals_of_ofContainer
    {s : Scoring Key}
    {fits : Key → Scalar → Bool}
    {score : List Scalar → Value}
    (hDiscerns : s.Discerns fits)
    (hScore : ∀ elements,
      score elements =
        .float (s.clamp (s.ofContainer fits elements))) :
    s.Totals fits score := by
  have hStable : ∀ e ∈ s.entries, Stable (fits e.key) :=
    fun e hMem => (hDiscerns e hMem).stable
  constructor
  · intro elements
    rw [hScore, ofContainer_eq hStable]
  · intro xs ys hPerm
    have hHitting : hitting fits xs s.entries =
        hitting fits ys s.entries :=
      List.filter_congr fun e _ => hPerm.any_eq
    rw [hScore, hScore, ofContainer_eq hStable,
      ofContainer_eq hStable, hHitting, hPerm.countP_eq]
  · intro v xs hMem hFitted
    have hHitting : hitting fits (v :: xs) s.entries =
        hitting fits xs s.entries := by
      refine List.filter_congr fun e _ => ?_
      rw [List.any_cons, Bool.or_eq_right_iff_imp]
      exact fun hFits => List.any_eq_true.mpr ⟨v, hMem, hFits⟩
    rw [hScore, hScore, ofContainer_eq hStable,
      ofContainer_eq hStable, hHitting,
      List.countP_cons_of_neg (by simp [hFitted])]

end Scoring

------------------------------------------------------------
-- Mappings and Area Mappings
------------------------------------------------------------

/- The keys of a mapping are of a base type. -/
def Mapping.IsOf (type : BaseType) (m : Mapping) : Prop :=
  ∀ e ∈ m.entries, e.key.value.baseType = type

/- A mapping that is read is of the type it is read for. -/
theorem Mapping.isOf_of_ofJson
    {type : BaseType}
    {v : Json}
    {m : Mapping}
    (hRead : Mapping.ofJson (some type) v = .ok m) :
    m.IsOf type := by
  rcases bind_eq_ok_iff.mp hRead with ⟨t, hType, hRest⟩
  cases hType
  rcases bind_eq_ok_iff.mp hRest with ⟨js, _, hRest⟩
  rcases bind_eq_ok_iff.mp hRest with ⟨es, hEntries, hEnd⟩
  cases hEnd
  intro e hMem
  rcases exists_of_mem_mapM hEntries e hMem with ⟨j, _, hEntry⟩
  unfold MapKey.entryOfJson at hEntry
  split at hEntry
  · cases hEntry
  · rcases bind_eq_ok_iff.mp hEntry with ⟨s, hKey, hRest⟩
    rcases bind_eq_ok_iff.mp hRest with ⟨x, _, hEnd⟩
    cases hEnd
    exact Scalar.baseType_of_ofJson hKey

/- A key that is not of floats treats equal elements alike. -/
theorem MapKey.discerning
    {key : MapKey}
    (hExact : key.value.IsExact) :
    Scoring.Discerning key.fits := by
  constructor
  · intro v hFits
    unfold fits at hFits
    split at hFits
    · exact Scalar.isExact_string _
    · rcases (Scalar.equals_iff hExact).mp hFits with rfl | rfl
      · exact hExact
      · exact hExact.turned
  · intro v
    cases v with
    | pair a b =>
        have hPlain : ∀ c d, key.fits (.pair c d) =
            key.value.equals (.pair c d) := by
          intro c d
          unfold fits
          split
          · contradiction
          · rfl
        rw [Scalar.turned, hPlain, hPlain]
        exact Scalar.equals_turned key.value (.pair a b)
    | _ => rfl

/- An area contains a point or it does not. -/
theorem AreaKey.discerning (key : AreaKey) :
    Scoring.Discerning key.fits := by
  constructor
  · intro v hFits
    cases v with
    | point x y => exact ⟨nofun, nofun⟩
    | _ => cases hFits
  · intro v
    cases v <;> rfl

/-
  A container has the scores of the entries that fit one of
  its elements, each once, and the default score for every
  element that no entry fits, within the bounds. This holds
  under mappings of every base type but float and duration,
  for which equality is not reflexive, and under area
  mappings.
-/
theorem containers_scored :
    (∀ (type : BaseType) (m : Mapping) (c : Cardinality)
        (t : BaseType),
      type ≠ .float → type ≠ .duration → m.IsOf type →
        c.isList = true →
          m.Totals MapKey.fits
              (fun xs => mapResponse m c (.multiple t xs)) ∧
            m.Totals MapKey.fits
              (fun xs => mapResponse m c (.ordered t xs))) ∧
    ∀ (m : AreaMapping) (t : BaseType),
      m.Totals AreaKey.fits
          (fun xs => mapPoints m (.multiple t xs)) ∧
        m.Totals AreaKey.fits
          (fun xs => mapPoints m (.ordered t xs)) := by
  constructor
  · intro type m c t hFloat hDuration hType hList
    have hDiscerns : m.Discerns MapKey.fits := by
      intro e hMem
      have hKey := hType e hMem
      exact MapKey.discerning
        ⟨by rwa [hKey], by rwa [hKey]⟩
    constructor
    · refine Scoring.totals_of_ofContainer hDiscerns fun _ => ?_
      cases c with
      | multiple => rfl
      | ordered => rfl
      | _ => cases hList
    · refine Scoring.totals_of_ofContainer hDiscerns fun _ => ?_
      cases c with
      | multiple => rfl
      | ordered => rfl
      | _ => cases hList
  · intro m t
    have hDiscerns : m.Discerns AreaKey.fits :=
      fun e _ => e.key.discerning
    constructor
    · exact Scoring.totals_of_ofContainer hDiscerns fun _ => rfl
    · exact Scoring.totals_of_ofContainer hDiscerns fun _ => rfl

/- Two letters have scores, and others cost half a point. -/
def lettersMapping : Json :=
  .ofMembers [
    ("defaultValue", .int (-1)),
    ("mapEntries", .array [
      .ofMembers [("mapKey", .string "B"),
        ("mappedValue", .int 2)],
      .ofMembers [("mapKey", .string "C"),
        ("mappedValue", .int 3)]])]

/-
  Both entries are scored once, however often their letters
  stand in the list, and in whatever order.
-/
theorem containers_scored_letters :
    ∃ m, Mapping.ofJson (some .identifier) lettersMapping =
        .ok m ∧
      let score := fun letters : List String =>
        mapResponse m .multiple
          (.multiple .identifier (letters.map .identifier))
      score ["C", "X", "B"] =
          .float (m.clamp
            (Scoring.addUp 0 m.entries +
              m.otherwise * Float.ofNat 1)) ∧
        score ["C", "B", "X", "B"] = score ["C", "X", "B"] := by
  have hRead : ∃ m,
      Mapping.ofJson (some .identifier) lettersMapping =
        .ok m := ⟨_, rfl⟩
  rcases hRead with ⟨m, hRead⟩
  refine ⟨m, hRead, ?_⟩
  intro score
  have hTotals :=
    (containers_scored.1 .identifier m .multiple .identifier
      (by decide) (by decide) (Mapping.isOf_of_ofJson hRead)
      rfl).1
  cases hRead
  constructor
  · exact hTotals.closed _
  · calc score ["C", "B", "X", "B"]
      _ = score ["B", "C", "X", "B"] :=
        hTotals.permuted _ _ (.swap _ _ _)
      _ = score ["C", "X", "B"] :=
        hTotals.copied (.identifier "B") _
          (by simp) rfl

end Assessment
