import Assessment.Proofs.Test.Course
import Assessment.Proofs.Test.Entries
import Assessment.Proofs.Text

/-
  Occurrences of references.

  A plan numbers its nodes, a session makes an entry for every
  item of the plan, and dotted names are resolved among the
  entries. Where identifiers are distinct, all three mean the
  same occurrence by the same number.

  Main declarations:
    * `TestView.find?`, the value of a dotted name
    * `TestSession.Numbers`, the occurrences shown
    * `TestSession.FindsOccurrences`
    * `occurrences_identified`
-/

------------------------------------------------------------
-- Dotted Names
------------------------------------------------------------

namespace Assessment

open Stateful

/- The value that has been found, if any. -/
def Resolution.value? : Resolution → Option Value
  | .found v => some v
  | .firstOf v _ => some v
  | .noInstance => none
  | .unknown => none

namespace TestView

/- The value that a text finds as a dotted name. -/
def find? (view : TestView) (text : String) : Option Value :=
  (DottedName.parse? text).bind fun name =>
    (view.resolve name.reference name.occurrence
      name.identifier).value?

/- A number chooses among the items of a reference. -/
theorem value?_resolve_some
    (view : TestView)
    (ref : String)
    (n : Nat)
    (name : String) :
    (view.resolve ref (some n) name).value? =
      ((view.items.filter fun v => v.reference == ref).find?
        fun v => v.occurrence == n).bind fun v =>
          v.value? name := by
  unfold resolve
  dsimp only
  split
  next hNone =>
    rw [hNone]
    split <;> rfl
  next v hSome =>
    rw [hSome, Option.bind_some]
    cases v.value? name with
    | none => rfl
    | some w => rfl

/- Without a number, it is the first of them. -/
theorem value?_resolve_none
    (view : TestView)
    (ref name : String) :
    (view.resolve ref none name).value? =
      (view.items.filter fun v => v.reference == ref).head?.bind
        fun v => v.value? name := by
  unfold resolve
  dsimp only
  split
  next hNone =>
    rw [hNone]
    split <;> rfl
  next v hSome =>
    rw [hSome, Option.bind_some]
    cases v.value? name with
    | none => rfl
    | some w =>
        dsimp only
        split <;> rfl

end TestView

/- The evaluator gives what is found, and otherwise NULL. -/
theorem Leaf.ends_fetch
    {scope : Scope}
    {view : TestView}
    (hView : scope.test = some view)
    {text : String}
    (hDotted : (DottedName.parse? text).isSome = true)
    (engine : Engine)
    (tally : Tally) :
    Ends ((Leaf.fetch text none).evaluate engine scope) tally
      fun r _ => r = .ok ((view.find? text).getD .null) := by
  rcases Option.isSome_iff_exists.mp hDotted with ⟨name, hName⟩
  rw [Leaf.evaluate, readVariable]
  simp only [hView, hName]
  unfold TestView.find? fetchDotted
  rw [hName, Option.bind_some]
  cases view.resolve name.reference name.occurrence
      name.identifier with
  | found v => rfl
  | firstOf v count => rfl
  | noInstance => rfl
  | unknown => rfl

namespace TestSession

/- What outcome rules see of a test and its items. -/
def view (s : TestSession) : TestView where
  items := s.entries.map viewOf
  references := s.test.placements.map fun p =>
    (p.ref.identifier, p.ref.weights)

theorem test_scope (s : TestSession) :
    s.scope.test = some s.view := rfl

/- A numbered name means a variable of one session. -/
theorem value?_resolve_view
    (s : TestSession)
    (ref : String)
    (n : Nat)
    (name : String) :
    (s.view.resolve ref (some n) name).value? =
      (s.itemSession? ref n).bind fun x => x.value? name := by
  have hItems : s.view.items = s.entries.map viewOf := rfl
  rw [TestView.value?_resolve_some, hItems, List.find?_filter,
    List.find?_map]
  unfold itemSession?
  have hSame :
      ((fun v : ItemView =>
        decide ((v.reference == ref) = true ∧
          (v.occurrence == n) = true)) ∘ viewOf) =
        isAt ref n := by
    funext e
    simp only [Function.comp_apply, Bool.decide_and,
      Bool.decide_eq_true]
    rfl
  rw [hSame, Option.bind_map, Option.bind_map]
  rfl

/- An item session is that of an entry. -/
theorem exists_of_itemSession?
    {s : TestSession}
    {ref : String}
    {n : Nat}
    {x : ItemSession}
    (hFound : s.itemSession? ref n = some x) :
    ∃ e ∈ s.entries, e.ref.identifier = ref ∧
      e.occurrence = n ∧ e.session = x := by
  rcases Option.map_eq_some_iff.mp hFound with ⟨e, hE, hSession⟩
  have hAt := List.find?_some hE
  unfold isAt at hAt
  simp only [Bool.and_eq_true, beq_iff_eq] at hAt
  exact ⟨e, List.mem_of_find?_eq_some hE, hAt.1, hAt.2,
    hSession⟩

variable {t : Test}
variable {items : Keyed Item}
variable {s : TestSession}
variable {p : Plan}

namespace Realizes

/- Entries have the references and numbers of their items. -/
theorem map_entries
    (hRealizes : s.Realizes t items p) :
    s.entries.map (fun e => (e.ref.identifier, e.occurrence)) =
      p.items.map fun x => (x.2.identifier, x.2.occurrence) := by
  apply List.ext_getElem
  · rw [List.length_map, List.length_map, hRealizes.length]
  · intro i hE hX
    rw [List.length_map] at hE hX
    have hStands := hRealizes.entries i _ _
      (List.getElem?_eq_getElem hX)
      (List.getElem?_eq_getElem hE)
    rw [List.getElem_map, List.getElem_map,
      hStands.identifier, hStands.occurrence]

/- Items are shown with the numbers of the plan. -/
theorem occurrences
    (hRealizes : s.Realizes t items p)
    (ref : String) :
    (s.view.items.filter fun v => v.reference == ref).map
        ItemView.occurrence =
      PlanNode.occurrencesIn (p.items.map Prod.snd) ref := by
  calc (s.view.items.filter fun v => v.reference == ref).map
          ItemView.occurrence
    _ = ((s.entries.map fun e =>
          (e.ref.identifier, e.occurrence)).filter
            fun x => x.1 == ref).map Prod.snd := by
        simp [view, viewOf, List.filter_map, Function.comp_def]
    _ = ((p.items.map fun x =>
          (x.2.identifier, x.2.occurrence)).filter
            fun x => x.1 == ref).map Prod.snd := by
        rw [hRealizes.map_entries]
    _ = PlanNode.occurrencesIn (p.items.map Prod.snd) ref := by
        simp [PlanNode.occurrencesIn, List.filter_map,
          Function.comp_def]

end Realizes

/- The items of each reference are shown from one on. -/
def Numbers (s : TestSession) (p : Plan) : Prop :=
  ∀ ref,
    (s.view.items.filter fun v => v.reference == ref).map
        ItemView.occurrence =
      List.range' 1 (p.planned ref)

/- There is a session for each number up to the last. -/
theorem Numbers.isSome_itemSession?
    (hNumbers : s.Numbers p)
    (ref : String)
    (n : Nat) :
    (s.itemSession? ref n).isSome = true ↔
      1 ≤ n ∧ n ≤ p.planned ref := by
  have hMem :
      (s.itemSession? ref n).isSome = true ↔
        n ∈ (s.view.items.filter fun v =>
          v.reference == ref).map ItemView.occurrence := by
    simp [itemSession?, view, viewOf, isAt, and_assoc]
  rw [hMem, hNumbers ref, List.mem_range'_1]
  omega

/- The first item of a reference is its first occurrence. -/
theorem Numbers.head?_eq
    (hNumbers : s.Numbers p)
    (ref : String) :
    (s.view.items.filter fun v => v.reference == ref).head? =
      (s.view.items.filter fun v => v.reference == ref).find?
        fun v => v.occurrence == 1 := by
  have hRange := hNumbers ref
  cases hShown :
      s.view.items.filter fun v => v.reference == ref with
  | nil => rfl
  | cons v rest =>
      rw [hShown] at hRange
      have hFirst : v.occurrence = 1 := by
        cases hPlanned : p.planned ref with
        | zero => simp [hPlanned] at hRange
        | succ k =>
            rw [hPlanned, List.range'_succ,
              List.map_cons] at hRange
            exact (List.cons.inj hRange).1
      simp [hFirst]

/- An occurrence has the variables that its item declares. -/
theorem Realizes.isSome_value?
    (hRealizes : s.Realizes t items p)
    (hDistinct : t.identifiers.Nodup)
    (hNumbers : s.Numbers p)
    (ref : String)
    (n : Nat)
    (name : String) :
    ((s.itemSession? ref n).bind
        fun x => x.value? name).isSome = true ↔
      1 ≤ n ∧ n ≤ p.planned ref ∧ t.Declares items ref name := by
  have hStands : ∀ e ∈ s.entries,
      ⟨e.ref, e.sections⟩ ∈ t.placements ∧
        items.get? e.ref.href = some e.session.item := by
    intro e hMem
    rcases List.getElem?_of_mem hMem with ⟨i, hE⟩
    have hBound := (List.getElem?_eq_some_iff.mp hE).1
    rw [hRealizes.length] at hBound
    have hOwn := hRealizes.entries i _ e
      (List.getElem?_eq_getElem hBound) hE
    rcases hOwn.placement with ⟨part, hPart, hIn⟩
    exact ⟨List.mem_flatMap.mpr
      ⟨part, List.mem_of_getElem? hPart, hIn⟩, hOwn.item⟩
  rw [← and_assoc, ← hNumbers.isSome_itemSession? ref n]
  cases hFound : s.itemSession? ref n with
  | none => simp
  | some x =>
      rcases exists_of_itemSession? hFound with
        ⟨e, hMem, hRef, _, rfl⟩
      rcases hStands e hMem with ⟨hPlaced, hItem⟩
      have hValue :
          (e.session.value? name).isSome =
            (e.session.item.declaration? name).isSome := by
        unfold ItemSession.value?
        rw [Option.isSome_map]
      rw [Option.bind_some, hValue, Option.isSome_some]
      constructor
      · intro hDeclared
        exact ⟨rfl, _, hPlaced, hRef, _, hItem, hDeclared⟩
      · rintro ⟨_, q, hQ, hName, i, hI, hDeclared⟩
        have hSame := Test.placement_eq hDistinct hQ hPlaced
          (hName.trans hRef.symm)
        rw [hSame] at hI
        rw [hItem] at hI
        cases hI
        exact hDeclared

end TestSession

------------------------------------------------------------
-- References to Occurrences
------------------------------------------------------------

/-
  What dotted names find in a session: a number finds that
  occurrence, as often as the reference is planned, and no
  number finds the first one. The text of a name is split at
  its first dot, and numbers are those below 2 ^ 64.
-/
structure TestSession.FindsOccurrences
    (s : TestSession)
    (t : Test)
    (items : Keyed Item)
    (p : Plan) :
    Prop where
  value :
    ∀ (ref : String) (n : Nat) (name : String),
      '.' ∉ ref.toList → n < twoTo 64 →
        s.view.find? (ref ++ "." ++ toString n ++ "." ++ name) =
          (s.itemSession? ref n).bind fun x => x.value? name
  found :
    ∀ (ref : String) (n : Nat) (name : String),
      '.' ∉ ref.toList → n < twoTo 64 →
        ((s.view.find?
            (ref ++ "." ++ toString n ++ "." ++
              name)).isSome = true ↔
          1 ≤ n ∧ n ≤ p.planned ref ∧
            t.Declares items ref name)
  first :
    ∀ (ref name : String),
      '.' ∉ ref.toList → DottedName.isNumbered name = false →
        s.view.find? (ref ++ "." ++ name) =
          s.view.find? (ref ++ ".1." ++ name)
  evaluated :
    ∀ (engine : Engine) (text : String) (tally : Tally),
      (DottedName.parse? text).isSome = true →
        (Step.run
          ((Leaf.fetch text none).evaluate engine s.scope)
          tally).1 =
            .ok ((s.view.find? text).getD .null)

theorem TestSession.Realizes.findsOccurrences
    {s : TestSession}
    {t : Test}
    {items : Keyed Item}
    {p : Plan}
    (hRealizes : s.Realizes t items p)
    (hDistinct : t.identifiers.Nodup)
    (hNumbers : s.Numbers p) :
    s.FindsOccurrences t items p := by
  have hValue : ∀ (ref : String) (n : Nat) (name : String),
      '.' ∉ ref.toList → n < twoTo 64 →
        s.view.find? (ref ++ "." ++ toString n ++ "." ++ name) =
          (s.itemSession? ref n).bind fun x =>
            x.value? name := by
    intro ref n name hPlain hBound
    rw [TestView.find?, DottedName.parse?_numbered hPlain hBound,
      Option.bind_some]
    exact s.value?_resolve_view ref n name
  refine ⟨hValue, ?_, ?_, ?_⟩
  · intro ref n name hPlain hBound
    rw [hValue ref n name hPlain hBound]
    exact hRealizes.isSome_value? hDistinct hNumbers ref n name
  · intro ref name hPlain hWhole
    have hOne : 1 < twoTo 64 := by decide
    have hText : ref ++ ".1." ++ name =
        ref ++ "." ++ toString 1 ++ "." ++ name := by
      simp [String.append_assoc]
      rfl
    rw [hText, TestView.find?, TestView.find?,
      DottedName.parse?_plain hPlain hWhole,
      DottedName.parse?_numbered hPlain hOne,
      Option.bind_some, Option.bind_some,
      TestView.value?_resolve_none,
      TestView.value?_resolve_some, hNumbers.head?_eq]
  · intro engine text tally hDotted
    exact Leaf.ends_fetch s.test_scope hDotted engine tally

/-
  In a plan, the occurrences of every identifier are numbered
  from one. If the identifiers of a test are distinct, there
  is an entry for every planned item, whatever calls are made,
  and dotted names find the occurrence that they name.
-/
theorem occurrences_identified :
    (∀ (t : Test) (resolves : ItemRef → Bool) (tally : Tally)
      (p : Plan),
      (Step.run (plan t resolves) tally).1 = .ok p →
        ∀ identifier,
          PlanNode.occurrencesIn (PlanNode.nodesIn p.parts)
              identifier =
            List.range' 1
              (PlanNode.occurrencesIn
                (PlanNode.nodesIn p.parts)
                identifier).length) ∧
    ∀ (t : Test) (items : Keyed Item) (engine : Engine)
      (draws : Draws) (first : TestSession),
      TestSession.start t items engine draws = .ok first →
        t.identifiers.Nodup →
          ∀ calls : List TestCall,
            (first.after calls).Realizes t items first.plan ∧
              (first.after calls).FindsOccurrences t items
                first.plan := by
  constructor
  · intro t resolves tally p hPlan
    exact plan_counted t resolves tally p hPlan
  · intro t items engine draws first hStart hDistinct calls
    rcases TestSession.start_realizes hDistinct hStart with
      ⟨hFirst, hNumbers⟩
    have hRealizes := hFirst.after calls
    refine ⟨hRealizes,
      hRealizes.findsOccurrences hDistinct ?_⟩
    intro ref
    rw [hRealizes.occurrences]
    exact hNumbers ref

------------------------------------------------------------
-- A Test With a Repeated Reference
------------------------------------------------------------

/- An outcome that starts as a number. -/
def countOutcome (identifier : String) (n : Int64) :
    Declaration where
  identifier := identifier
  cardinality := .single
  baseType := some .integer
  defaultValue := some (.integer n)
  detail := .outcome ⟨none, none, none, none, none⟩

/- An item with outcomes whose names look like numbered ones. -/
def countedItem : Item :=
  { TestSession.blankItem with
    outcomes := [
      countOutcome "SCORE" 4,
      countOutcome "1.SCORE" 7,
      countOutcome "18446744073709551616.SCORE" 9] }

/-
  A test whose first section selects its only reference twice,
  and whose second section has one with a dot.
-/
def repeatedTest : Test :=
  { TestSession.blankTest with
    parts := [
      { TestSession.blankPart "part" with
        sections := [
          { info :=
              { plainSection "twice" with
                selection := some ⟨2, true⟩ }
            parts := [.item (plainRef "ref" "item")] },
          { info := plainSection "once"
            parts := [.item (plainRef "a.b" "item")] }] }] }

/- The second occurrence is found, and there is no third. -/
theorem occurrences_identified_repeated :
    ∃ first : TestSession,
      TestSession.start repeatedTest [("item", countedItem)]
        ⟨{}, none⟩ default = .ok first ∧
      first.plan.planned "ref" = 2 ∧
      ∀ calls : List TestCall,
        ((first.after calls).view.find?
          "ref.2.SCORE").isSome = true ∧
        (first.after calls).view.find? "ref.3.SCORE" = none ∧
        (first.after calls).view.find? "ref.SCORE" =
          (first.after calls).view.find? "ref.1.SCORE" := by
  refine ⟨_, rfl, by decide +kernel, fun calls => ?_⟩
  have hFinds := (occurrences_identified.2 repeatedTest
    [("item", countedItem)] ⟨{}, none⟩ default _ rfl
    (by decide) calls).2
  refine ⟨?_, ?_, ?_⟩
  · refine (hFinds.found "ref" 2 "SCORE" (by decide)
      (by decide)).mpr ⟨by decide, ?_, ?_⟩
    · decide +kernel
    · exact ⟨⟨plainRef "ref" "item", ["twice"]⟩,
        List.mem_cons_self, rfl, countedItem, rfl, rfl⟩
  · rw [← Option.not_isSome_iff_eq_none]
    intro hFound
    have hThird := (hFinds.found "ref" 3 "SCORE" (by decide)
      (by decide)).mp hFound
    exact absurd hThird.2.1 (by decide +kernel)
  · exact hFinds.first "ref" "SCORE" (by decide) (by decide)

/-
  A reference with a dot is split in the wrong place, a name
  that begins with a number is taken for a numbered one, and a
  number that is too great is taken for part of a name.
-/
theorem names_astray :
    ∃ first : TestSession,
      TestSession.start repeatedTest [("item", countedItem)]
        ⟨{}, none⟩ default = .ok first ∧
      repeatedTest.identifiers.Nodup ∧
      first.plan.planned "a.b" = 1 ∧
      repeatedTest.Declares [("item", countedItem)] "a.b"
        "SCORE" ∧
      ∃ s, s = first.after [.initialise] ∧
        s.view.find?
            ("a.b" ++ "." ++ toString 1 ++ "." ++ "SCORE") =
          none ∧
        (s.view.find? ("ref" ++ "." ++ "1.SCORE")).bind
          Value.int64? = some 4 ∧
        (s.view.find? ("ref" ++ ".1." ++ "1.SCORE")).bind
          Value.int64? = some 7 ∧
        (s.view.find?
          ("ref" ++ "." ++ toString (twoTo 64) ++ "." ++
            "SCORE")).isSome = true := by
  refine ⟨_, rfl, by decide, by decide +kernel, ?_, _, rfl, ?_,
    ?_, ?_, ?_⟩
  · exact ⟨⟨plainRef "a.b" "item", ["once"]⟩,
      List.mem_cons_of_mem _ List.mem_cons_self, rfl,
      countedItem, rfl, rfl⟩
  · rw [← Option.not_isSome_iff_eq_none]
    decide +kernel
  · decide +kernel
  · decide +kernel
  · decide +kernel

end Assessment
