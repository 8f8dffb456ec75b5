import Assessment.Proofs.Declaration.Scoring
import Assessment.Validation.Declarations

/-
  Entries of a mapping that repeat an earlier one.

  The check of a declaration reports an entry whose value an
  earlier entry has, and says that it is never used. For a
  single value this is so, except where the entry ignores case
  and those before it do not. A list is scored by every entry
  that fits one of its elements, so there a repeated entry
  adds its score once more.

  Main declarations:
    * `Declaration.reportsRepeat_iff`, the entries that are
      reported
    * `Mapping.Reaches`, the values that come to an entry
    * `Mapping.without`, the mapping with an entry left out
    * `repeated_entry_used`
-/

------------------------------------------------------------
-- Reports
------------------------------------------------------------

namespace Assessment

namespace Finding

@[simp] theorem mem_when
    {Problem : Type}
    {condition : Bool}
    {path : Path}
    {problem : Problem}
    {f : Finding Problem} :
    f ∈ when condition path problem ↔
      condition = true ∧ f = ⟨path, problem⟩ := by
  unfold when
  cases condition <;> simp

end Finding

namespace Declaration

/- An element repeats one that stands before its place. -/
theorem mem_repeats_iff
    {α : Type}
    {same : α → α → Bool}
    {xs : List α}
    {x : α}
    {i : Nat} :
    (x, i) ∈ repeats same xs ↔
      ∃ before after, xs = before ++ x :: after ∧
        before.length = i ∧
        ∃ y ∈ before, same y x = true := by
  unfold repeats
  rw [List.mem_filter, List.mk_mem_zipIdx_iff_getElem?,
    List.any_eq_true]
  constructor
  · rintro ⟨hAt, hEarlier⟩
    obtain ⟨hBound, rfl⟩ := List.getElem?_eq_some_iff.mp hAt
    refine ⟨xs.take i, xs.drop (i + 1), ?_, ?_, hEarlier⟩
    · simp
    · exact List.length_take_of_le hBound.le
  · rintro ⟨before, after, rfl, rfl, hEarlier⟩
    simpa using hEarlier

/-
  The check of a declaration reports that an entry of its
  mapping repeats an earlier one.
-/
def ReportsRepeat
    (owner : Definition)
    (path : Path)
    (d : Declaration)
    (index : Nat) :
    Prop :=
  ∃ v,
    ⟨(path.child "mapping").indexed "mapEntries" index,
      .repeatedKey v⟩ ∈ check owner path d

/- The check of a mapping is where repetitions are reported. -/
theorem mem_check_iff
    {owner : Definition}
    {path place : Path}
    {d : Declaration}
    {v : Scalar} :
    ⟨place, .repeatedKey v⟩ ∈ check owner path d ↔
      ∃ m, d.mapping? = some m ∧
        ⟨place, .repeatedKey v⟩ ∈
          checkMapping (path.child "mapping") d m := by
  simp only [check, List.mem_append]
  constructor
  · rintro ((((((h | h) | h) | h) | h) | h) | h)
    · unfold checkBuiltin at h
      split at h <;> simp at h
    · unfold checkValue at h
      split at h <;> simp at h
    · unfold checkValue at h
      split at h <;> simp at h
    · unfold checkPart at h
      split at h
      next => cases h
      next m hMapping => exact ⟨m, hMapping, h⟩
    · unfold checkPart checkAreaMapping checkArea at h
      split at h
      next => cases h
      next =>
        simp [checkBounds] at h
        obtain ⟨_, _, _, hArea⟩ := h
        split at hArea <;> simp at hArea
    · unfold checkPart checkTable at h
      split at h <;> simp at h
    · simp [checkNormals] at h
  · rintro ⟨m, hMapping, hMem⟩
    simp [hMapping, checkPart, hMem]

/- An entry is reported if an earlier one has its value. -/
theorem reportsRepeat_iff
    {owner : Definition}
    {path : Path}
    {d : Declaration}
    {index : Nat} :
    d.ReportsRepeat owner path index ↔
      ∃ m before e after,
        d.mapping? = some m ∧
          m.entries = before ++ e :: after ∧
          before.length = index ∧
          ∃ earlier ∈ before,
            earlier.key.value.equals e.key.value = true := by
  unfold ReportsRepeat
  constructor
  · rintro ⟨v, hReported⟩
    obtain ⟨m, hMapping, hMem⟩ := mem_check_iff.mp hReported
    simp [checkMapping, checkBounds, Path.indexed] at hMem
    obtain ⟨key, hRepeats, rfl⟩ := hMem
    obtain ⟨before, after, hSplit, rfl, other, hMem, hSame⟩ :=
      mem_repeats_iff.mp hRepeats
    obtain ⟨es, rest, hEntries, rfl, hRest⟩ :=
      List.map_eq_append_iff.mp hSplit
    obtain ⟨e, later, rfl, rfl, rfl⟩ :=
      List.map_eq_cons_iff.mp hRest
    obtain ⟨earlier, hEarlier, rfl⟩ := List.mem_map.mp hMem
    exact ⟨m, es, e, later, hMapping, hEntries, by simp,
      earlier, hEarlier, hSame⟩
  · rintro ⟨m, before, e, after, hMapping, hEntries, rfl,
      earlier, hEarlier, hSame⟩
    refine ⟨e.key.value, mem_check_iff.mpr
      ⟨m, hMapping, List.mem_append_right _ ?_⟩⟩
    refine List.mem_map.mpr ⟨(e.key, before.length), ?_, rfl⟩
    refine mem_repeats_iff.mpr
      ⟨before.map ScoreEntry.key, after.map ScoreEntry.key, ?_,
        by simp, earlier.key, List.mem_map_of_mem hEarlier,
        hSame⟩
    simp [hEntries]

end Declaration

------------------------------------------------------------
-- Keys
------------------------------------------------------------

namespace MapKey

/- A key fits what is equal, or equal but for the case. -/
theorem fits_iff {key : MapKey} {v : Scalar} :
    key.fits v = true ↔
      key.value.equals v = true ∨
        key.caseSensitive = false ∧
          ∃ a b, key.value = .string a ∧ v = .string b ∧
            Text.lowercase a = Text.lowercase b := by
  unfold fits
  split
  next a b hKey hCase =>
    rw [hKey, hCase, beq_iff_eq]
    constructor
    · exact fun h => .inr ⟨rfl, a, b, rfl, rfl, h⟩
    · rintro (hEqual | ⟨_, a', b', hA, hB, hLower⟩)
      · have hSame : a = b := by simpa [Scalar.equals] using hEqual
        rw [hSame]
      · cases hA
        cases hB
        exact hLower
  next hOther =>
    refine ⟨.inl, ?_⟩
    rintro (hEqual | ⟨hCase, a, b, hA, hB, _⟩)
    · exact hEqual
    · exact absurd hCase (hOther a b hA hB)

/- A key treats equal elements alike, be they floats or not. -/
theorem stable (key : MapKey) : Scoring.Stable key.fits := by
  constructor
  · intro v hFits
    rcases fits_iff.mp hFits with
      hEqual | ⟨_, _, b, _, rfl, _⟩
    · exact Scalar.equals_trans (Scalar.equals_symm hEqual)
        hEqual
    · exact Scalar.equals_self (Scalar.isExact_string b)
  · intro v w hFits hEqual
    rcases fits_iff.mp hFits with
      hKey | ⟨hCase, a, b, hA, rfl, hLower⟩
    · exact fits_iff.mpr (.inl (Scalar.equals_trans hKey hEqual))
    · have hW : w = .string b := by
        cases w <;> simp [Scalar.equals] at hEqual ⊢
        exact hEqual.symm
      exact fits_iff.mpr (.inr ⟨hCase, a, b, hA, hW, hLower⟩)

/-
  What a key fits and an earlier key of its value does not is
  a string in another case, where only the first key respects
  the case.
-/
theorem fits_cases
    {earlier key : MapKey}
    (hSame : earlier.value.equals key.value = true)
    {v : Scalar}
    (hFits : key.fits v = true) :
    earlier.fits v = true ∨
      earlier.caseSensitive = true ∧
        key.caseSensitive = false ∧
        ∃ a b, key.value = .string a ∧ v = .string b ∧
          a ≠ b ∧ Text.lowercase a = Text.lowercase b := by
  rcases fits_iff.mp hFits with
    hEqual | ⟨hCase, a, b, hA, hB, hLower⟩
  · exact .inl (fits_iff.mpr
      (.inl (Scalar.equals_trans hSame hEqual)))
  · have hExact := Scalar.isExact_string a
    have hValue : earlier.value = .string a := by
      rw [hA] at hSame
      have hOwn := Scalar.equals_symm hSame
      exact ((Scalar.equals_iff hExact).mp hOwn).elim id id
    cases hEarlier : earlier.caseSensitive with
    | false =>
        exact .inl (fits_iff.mpr
          (.inr ⟨hEarlier, a, b, hValue, hB, hLower⟩))
    | true =>
        by_cases hText : a = b
        · refine .inl (fits_iff.mpr (.inl ?_))
          rw [hValue, hB, hText]
          exact Scalar.equals_self hExact
        · exact .inr
            ⟨rfl, hCase, a, b, hA, hB, hText, hLower⟩

end MapKey

------------------------------------------------------------
-- Leaving an Entry Out
------------------------------------------------------------

namespace Mapping

/- The mapping with the entry at a place left out. -/
def without (m : Mapping) (index : Nat) : Mapping :=
  { m with entries := m.entries.eraseIdx index }

/-
  A value comes to an entry that stands behind others. A single
  value comes to the first entry that fits it, and a list to
  every entry that fits one of its elements.
-/
def Reaches
    (before : List (ScoreEntry MapKey))
    (e : ScoreEntry MapKey)
    (c : Cardinality) :
    Value → Prop
  | .single s =>
      c = .single ∧ e.key.fits s = true ∧
        ∀ earlier ∈ before, earlier.key.fits s = false
  | .multiple _ xs | .ordered _ xs =>
      c.isList = true ∧ ∃ x ∈ xs, e.key.fits x = true
  | .null | .record _ => False

variable {m : Mapping}
variable {before after : List (ScoreEntry MapKey)}
variable {e : ScoreEntry MapKey}

theorem entries_without
    (hEntries : m.entries = before ++ e :: after) :
    (m.without before.length).entries = before ++ after := by
  unfold without
  rw [hEntries, List.eraseIdx_append_of_length_le le_rfl]
  simp

/- A single value is scored by the first entry it comes to. -/
theorem ofSingle_without
    (hEntries : m.entries = before ++ e :: after)
    {s : Scalar}
    (hNot : ¬ Reaches before e .single (.single s)) :
    (m.without before.length).ofSingle MapKey.fits s =
      m.ofSingle MapKey.fits s := by
  unfold Scoring.ofSingle
  rw [entries_without hEntries, hEntries, List.find?_append,
    List.find?_append]
  cases hFirst : before.find? fun d => d.key.fits s with
  | some earlier => rfl
  | none =>
      have hNone : e.key.fits s = false := by
        rw [← Bool.not_eq_true]
        refine fun hFits => hNot ⟨rfl, hFits, ?_⟩
        simpa using hFirst
      rw [List.find?_cons_of_neg (by simp [hNone])]
      rfl

/- A list is scored by all entries that fit an element. -/
theorem ofContainer_entries
    (hEntries : m.entries = before ++ e :: after)
    (xs : List Scalar) :
    m.ofContainer MapKey.fits xs =
      Scoring.addUp 0
          (Scoring.hitting MapKey.fits xs before ++
            Scoring.hitting MapKey.fits xs [e] ++
            Scoring.hitting MapKey.fits xs after) +
        m.otherwise * Float.ofNat
          (xs.countP (Scoring.misses MapKey.fits m.entries)) := by
  rw [Scoring.ofContainer_eq fun d _ => d.key.stable]
  simp only [Scoring.hitting, hEntries, ← List.filter_append,
    List.append_assoc, List.singleton_append]

theorem ofContainer_without
    (hEntries : m.entries = before ++ e :: after)
    (xs : List Scalar) :
    (m.without before.length).ofContainer MapKey.fits xs =
      Scoring.addUp 0
          (Scoring.hitting MapKey.fits xs before ++
            Scoring.hitting MapKey.fits xs after) +
        m.otherwise * Float.ofNat
          (xs.countP
            (Scoring.misses MapKey.fits (before ++ after))) := by
  rw [Scoring.ofContainer_eq fun d _ => d.key.stable,
    entries_without hEntries]
  simp only [Scoring.hitting, ← List.filter_append]
  rfl

/- An entry that fits no element has no part in the score. -/
theorem ofContainer_of_unfitted
    (hEntries : m.entries = before ++ e :: after)
    {xs : List Scalar}
    (hNone : ∀ x ∈ xs, e.key.fits x = false) :
    (m.without before.length).ofContainer MapKey.fits xs =
      m.ofContainer MapKey.fits xs := by
  have hHitting : Scoring.hitting MapKey.fits xs [e] = [] := by
    simpa [Scoring.hitting] using hNone
  have hMisses :
      xs.countP (Scoring.misses MapKey.fits m.entries) =
        xs.countP
          (Scoring.misses MapKey.fits (before ++ after)) := by
    refine List.countP_congr fun x hMem => ?_
    simp [Scoring.misses, hEntries, hNone x hMem]
  rw [ofContainer_entries hEntries, ofContainer_without hEntries,
    hHitting, hMisses, List.append_nil]

/- A value that holds a list of elements. -/
def Lists (v : Value) (xs : List Scalar) : Prop :=
  ∃ type, v = .multiple type xs ∨ v = .ordered type xs

theorem mapResponse_of_lists
    (m : Mapping)
    {v : Value}
    {xs : List Scalar}
    (hLists : Lists v xs)
    (c : Cardinality) :
    mapResponse m c v =
      .float (m.clamp
        (if c.isList then m.ofContainer MapKey.fits xs
        else m.otherwise)) := by
  obtain ⟨type, rfl | rfl⟩ := hLists <;> cases c <;> rfl

/- What does not come to an entry is scored without it. -/
theorem mapResponse_of_not_reaches
    (hEntries : m.entries = before ++ e :: after)
    {c : Cardinality}
    {v : Value}
    (hNot : ¬ Reaches before e c v) :
    mapResponse (m.without before.length) c v =
      mapResponse m c v := by
  have hLists :
      ∀ xs, Lists v xs →
        ¬ (c.isList = true ∧ ∃ x ∈ xs, e.key.fits x = true) →
          mapResponse (m.without before.length) c v =
            mapResponse m c v := by
    intro xs hV hUnfitted
    rw [mapResponse_of_lists _ hV, mapResponse_of_lists _ hV]
    split
    next hList =>
      rw [ofContainer_of_unfitted hEntries fun x hMem => by
        rw [← Bool.not_eq_true]
        exact fun hFits => hUnfitted ⟨hList, x, hMem, hFits⟩]
      rfl
    next => rfl
  cases v with
  | null => cases c <;> rfl
  | record fields => cases c <;> rfl
  | single s =>
      cases c with
      | single =>
          unfold mapResponse
          dsimp only
          rw [ofSingle_without hEntries hNot]
          rfl
      | _ => rfl
  | multiple type xs => exact hLists xs ⟨type, .inl rfl⟩ hNot
  | ordered type xs => exact hLists xs ⟨type, .inr rfl⟩ hNot

/-
  An entry that repeats earlier ones is covered by them: it
  respects case, or one of them does not.
-/
def Covered
    (before : List (ScoreEntry MapKey))
    (e : ScoreEntry MapKey) :
    Prop :=
  e.key.caseSensitive = true ∨
    ∃ earlier ∈ before,
      earlier.key.value.equals e.key.value = true ∧
        earlier.key.caseSensitive = false

/-
  What an entry that repeats an earlier one is used for, and
  what becomes of a value without it.
-/
structure LeavingOut
    (m : Mapping)
    (before : List (ScoreEntry MapKey))
    (e : ScoreEntry MapKey)
    (after : List (ScoreEntry MapKey)) :
    Prop where
  /- Only a value that comes to the entry needs it. -/
  dead :
    ∀ c v, ¬ Reaches before e c v →
      mapResponse (m.without before.length) c v =
        mapResponse m c v
  /- Outside lists a covered entry is never used. -/
  plain :
    Covered before e → ∀ c, c.isList = false → ∀ v,
      mapResponse (m.without before.length) c v =
        mapResponse m c v
  /-
    A single value that comes to the entry is its key in
    another case, which the earlier entries respect. Without
    the entry it goes on to the next that fits.
  -/
  single :
    ∀ s, Reaches before e .single (.single s) →
      (∃ a b, e.key.value = .string a ∧ s = .string b ∧
        a ≠ b ∧ Text.lowercase a = Text.lowercase b) ∧
      e.key.caseSensitive = false ∧
      (∀ earlier ∈ before,
        earlier.key.value.equals e.key.value = true →
          earlier.key.caseSensitive = true) ∧
      mapResponse m .single (.single s) =
        .float (m.clamp e.score) ∧
      mapResponse (m.without before.length) .single
          (.single s) =
        .float (m.clamp
          (((after.find? fun d => d.key.fits s).map
            ScoreEntry.score).getD m.otherwise))
  /- A list that comes to the entry adds its score again. -/
  list :
    ∀ c v xs, c.isList = true → Lists v xs →
      Reaches before e c v →
        mapResponse m c v =
          .float (m.clamp
            (Scoring.addUp 0
                (Scoring.hitting MapKey.fits xs before ++
                  e :: Scoring.hitting MapKey.fits xs after) +
              m.otherwise * Float.ofNat
                (xs.countP
                  (Scoring.misses MapKey.fits m.entries)))) ∧
        mapResponse (m.without before.length) c v =
          .float (m.clamp
            (Scoring.addUp 0
                (Scoring.hitting MapKey.fits xs before ++
                  Scoring.hitting MapKey.fits xs after) +
              m.otherwise * Float.ofNat
                (xs.countP
                  (Scoring.misses MapKey.fits
                    (before ++ after)))))
  /- The same elements are missed without a covered entry. -/
  missed :
    Covered before e → ∀ x,
      Scoring.misses MapKey.fits (before ++ after) x =
        Scoring.misses MapKey.fits m.entries x

/- A single value comes to a repeated entry by its case. -/
theorem single_of_reaches
    (hRepeats :
      ∃ earlier ∈ before,
        earlier.key.value.equals e.key.value = true)
    {s : Scalar}
    (hReaches : Reaches before e .single (.single s)) :
    (∃ a b, e.key.value = .string a ∧ s = .string b ∧
      a ≠ b ∧ Text.lowercase a = Text.lowercase b) ∧
    e.key.caseSensitive = false ∧
    ∀ earlier ∈ before,
      earlier.key.value.equals e.key.value = true →
        earlier.key.caseSensitive = true := by
  obtain ⟨_, hFits, hNone⟩ := hReaches
  have hOther :
      ∀ earlier ∈ before,
        earlier.key.value.equals e.key.value = true →
          earlier.key.caseSensitive = true ∧
            e.key.caseSensitive = false ∧
            ∃ a b, e.key.value = .string a ∧ s = .string b ∧
              a ≠ b ∧
              Text.lowercase a = Text.lowercase b := by
    intro earlier hMem hSame
    rcases MapKey.fits_cases hSame hFits with hEarlier | hCase
    · rw [hNone earlier hMem] at hEarlier
      cases hEarlier
    · exact hCase
  obtain ⟨earlier, hMem, hSame⟩ := hRepeats
  obtain ⟨_, hCase, hTexts⟩ := hOther earlier hMem hSame
  exact ⟨hTexts, hCase, fun earlier hMem hSame =>
    (hOther earlier hMem hSame).1⟩

/- What a covered entry fits has been fitted before. -/
theorem fits_of_covered
    (hRepeats :
      ∃ earlier ∈ before,
        earlier.key.value.equals e.key.value = true)
    (hCovered : Covered before e)
    {x : Scalar}
    (hFits : e.key.fits x = true) :
    ∃ earlier ∈ before, earlier.key.fits x = true := by
  rcases hCovered with hCase | ⟨earlier, hMem, hSame, hCase⟩
  · obtain ⟨earlier, hMem, hSame⟩ := hRepeats
    refine ⟨earlier, hMem, ?_⟩
    rcases MapKey.fits_cases hSame hFits with h | h
    · exact h
    · simp [hCase] at h
  · refine ⟨earlier, hMem, ?_⟩
    rcases MapKey.fits_cases hSame hFits with h | h
    · exact h
    · simp [hCase] at h

theorem leavingOut
    (hEntries : m.entries = before ++ e :: after)
    (hRepeats :
      ∃ earlier ∈ before,
        earlier.key.value.equals e.key.value = true) :
    m.LeavingOut before e after where
  dead c v := mapResponse_of_not_reaches hEntries
  plain hCovered c hPlain v := by
    refine mapResponse_of_not_reaches hEntries fun hReaches => ?_
    cases v with
    | null => exact hReaches
    | record fields => exact hReaches
    | single s =>
        obtain ⟨_, hFits, hNone⟩ := hReaches
        obtain ⟨earlier, hMem, hEarlier⟩ :=
          fits_of_covered hRepeats hCovered hFits
        rw [hNone earlier hMem] at hEarlier
        cases hEarlier
    | multiple type xs =>
        exact absurd hReaches.1 (by simp [hPlain])
    | ordered type xs =>
        exact absurd hReaches.1 (by simp [hPlain])
  single s hReaches := by
    obtain ⟨hTexts, hCase, hEarlier⟩ :=
      single_of_reaches hRepeats hReaches
    obtain ⟨_, hFits, hNone⟩ := hReaches
    have hFirst : (before.find? fun d => d.key.fits s) = none := by
      simpa using hNone
    have hNext :
        ((e :: after).find? fun d => d.key.fits s) = some e := by
      simp [hFits]
    refine ⟨hTexts, hCase, hEarlier, ?_, ?_⟩
    · unfold mapResponse Scoring.ofSingle
      dsimp only
      rw [hEntries, List.find?_append, hFirst, Option.none_or,
        hNext]
    · unfold mapResponse Scoring.ofSingle
      dsimp only
      rw [entries_without hEntries, List.find?_append, hFirst,
        Option.none_or]
      cases after.find? fun d => d.key.fits s <;> rfl
  list c v xs hList hLists hReaches := by
    have hFitted : xs.any e.key.fits = true := by
      rw [List.any_eq_true]
      obtain ⟨type, rfl | rfl⟩ := hLists
      · exact hReaches.2
      · exact hReaches.2
    have hHitting :
        Scoring.hitting MapKey.fits xs [e] = [e] := by
      simp [Scoring.hitting, hFitted]
    rw [mapResponse_of_lists _ hLists,
      mapResponse_of_lists _ hLists, if_pos hList, if_pos hList,
      ofContainer_entries hEntries,
      ofContainer_without hEntries, hHitting,
      List.append_assoc, List.singleton_append]
    exact ⟨rfl, rfl⟩
  missed hCovered x := by
    have hAgain := fits_of_covered hRepeats hCovered (x := x)
    rw [Bool.eq_iff_iff]
    simp only [Scoring.misses, hEntries, List.any_append,
      List.any_cons]
    cases hE : e.key.fits x with
    | false => simp
    | true =>
        obtain ⟨earlier, hMem, hFits⟩ := hAgain hE
        have hBefore :
            (before.any fun d => d.key.fits x) = true :=
          List.any_eq_true.mpr ⟨earlier, hMem, hFits⟩
        simp [hBefore]

end Mapping

namespace Declaration

/-
  An entry that is reported because it repeats an earlier one
  can be left out without any effect, as the report says,
  except on the values that come to it: lists with an element
  that it fits, which it scores once more, and strings in
  another case where it is the first to ignore case.
-/
theorem repeated_entry_used
    (owner : Definition)
    (path : Path)
    (d : Declaration)
    (index : Nat)
    (hReported : d.ReportsRepeat owner path index) :
    ∃ m before e after,
      d.mapping? = some m ∧
        m.entries = before ++ e :: after ∧
        before.length = index ∧
        (∃ earlier ∈ before,
          earlier.key.value.equals e.key.value = true) ∧
        m.LeavingOut before e after := by
  obtain ⟨m, before, e, after, hMapping, hEntries, hPlace,
    hRepeats⟩ := reportsRepeat_iff.mp hReported
  exact ⟨m, before, e, after, hMapping, hEntries, hPlace,
    hRepeats, Mapping.leavingOut hEntries hRepeats⟩

/- A mapping with two entries for one letter. -/
def twiceMapping : Mapping :=
  { lower := none
    upper := none
    otherwise := 0
    entries := [
      ⟨⟨.identifier "A", true⟩, 1⟩,
      ⟨⟨.identifier "A", true⟩, 2⟩] }

/- A response that takes any number of letters. -/
def lettersResponse : Declaration :=
  { identifier := "RESPONSE"
    cardinality := .multiple
    baseType := some .identifier
    defaultValue := none
    detail := .response ⟨none, some twiceMapping, none⟩ }

/- The item that declares it. -/
def lettersItem : Item :=
  { identifier := "letters"
    title := none
    adaptive := false
    timeDependent := false
    responses := [lettersResponse]
    outcomes := []
    templates := []
    templateProcessing := []
    responseProcessing := []
    endAttempts := [] }

/- The place of its declaration. -/
def lettersPath : Path :=
  (Path.root "letters").indexed "responseDeclarations" 0

theorem lettersResponse_reportsRepeat :
    lettersResponse.ReportsRepeat (.item lettersItem)
      lettersPath 1 :=
  reportsRepeat_iff.mpr
    ⟨twiceMapping, [⟨⟨.identifier "A", true⟩, 1⟩], _, [], rfl,
      rfl, rfl, _, List.mem_cons_self, rfl⟩

/- The second entry is covered, so it is dead outside lists. -/
theorem repeated_entry_used_letters :
    lettersResponse.ReportsRepeat (.item lettersItem)
        lettersPath 1 ∧
      ∃ m before e after,
        lettersResponse.mapping? = some m ∧
          m.entries = before ++ e :: after ∧
          before.length = 1 ∧
          (∃ earlier ∈ before,
            earlier.key.value.equals e.key.value = true) ∧
          m.LeavingOut before e after :=
  ⟨lettersResponse_reportsRepeat,
    repeated_entry_used (.item lettersItem) lettersPath
      lettersResponse 1 lettersResponse_reportsRepeat⟩

/-
  The entry that is reported as never used brings a list with
  its letter from one point to three.
-/
theorem reported_entry_scores :
    let letter : Value := .multiple .identifier [.identifier "A"]
    lettersResponse.ReportsRepeat (.item lettersItem)
        lettersPath 1 ∧
      lettersResponse.mapping? = some twiceMapping ∧
      (mapResponse twiceMapping .multiple letter).number? =
        some 3 ∧
      (mapResponse (twiceMapping.without 1) .multiple
        letter).number? = some 1 := by
  refine ⟨lettersResponse_reportsRepeat, rfl, ?_, ?_⟩ <;>
    decide +kernel

end Declaration

end Assessment
