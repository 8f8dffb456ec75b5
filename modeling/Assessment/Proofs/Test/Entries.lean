import Assessment.Proofs.Plan.Arrangement
import Assessment.Proofs.Plan.Origins
import Assessment.Proofs.Test.Frame
import Mathlib.Data.List.Nodup

/-
  Entries for the items of a plan.

  Where the identifiers of parts, sections and references are
  distinct, every item of a plan leads back to the reference
  that it was planned for. So a session has one entry for each
  of them, in the order of the plan, and keeps these entries.

  Main declarations:
    * `Test.identifiers` and `Plan.planned`
    * `Plan.occurrences_of_items`
    * `TestSession.Realizes`, with `start_realizes` and `after`
    * `TestSession.holds`, with `start_held`, for all tests
    * `TestSession.KeepsEntries`, kept by all calls
-/

------------------------------------------------------------
-- Distinct Identifiers
------------------------------------------------------------

namespace Assessment

open Stateful

namespace Test

/- The identifiers of parts, sections and references. -/
def identifiers (t : Test) : List String :=
  t.parts.map TestPart.identifier ++
    (t.sections.map fun s => s.info.identifier) ++
      t.placements.map fun q => q.ref.identifier

/- The item that a reference leads to declares a variable. -/
def Declares
    (t : Test)
    (items : Keyed Item)
    (ref name : String) :
    Prop :=
  ∃ q ∈ t.placements, q.ref.identifier = ref ∧
    ∃ i, items.get? q.ref.href = some i ∧
      (i.declaration? name).isSome = true

variable {t : Test}

section References

variable (hRefs : (t.placements.map fun q => q.ref.identifier).Nodup)

include hRefs

/- Distinct identifiers tell references apart. -/
theorem placement_eq_of_refs
    {q q' : Placement}
    (hQ : q ∈ t.placements)
    (hQ' : q' ∈ t.placements)
    (hName : q.ref.identifier = q'.ref.identifier) :
    q = q' :=
  List.inj_on_of_nodup_map hRefs hQ hQ' hName

/- The last reference with an identifier is the only one. -/
theorem definition?_of_refs
    {q : Placement}
    (hQ : q ∈ t.placements) :
    TestSession.definition? t q.ref.identifier = some q := by
  unfold TestSession.definition?
  cases hFound : t.placements.reverse.find? fun q' =>
      q'.ref.identifier == q.ref.identifier with
  | none =>
      have hNot := List.find?_eq_none.mp hFound q
        (List.mem_reverse.mpr hQ)
      simp at hNot
  | some q' =>
      have hMem := List.mem_of_find?_eq_some hFound
      have hName := List.find?_some hFound
      rw [placement_eq_of_refs hRefs (List.mem_reverse.mp hMem) hQ
        (by simpa using hName)]

end References

/- References with the same identifier are the same. -/
theorem placement_eq
    (hDistinct : t.identifiers.Nodup)
    {q q' : Placement}
    (hQ : q ∈ t.placements)
    (hQ' : q' ∈ t.placements)
    (hName : q.ref.identifier = q'.ref.identifier) :
    q = q' :=
  placement_eq_of_refs (List.nodup_append.mp hDistinct).2.1 hQ hQ'
    hName

/- No part and no section is named as a reference is. -/
theorem not_mem_of_placement
    (hDistinct : t.identifiers.Nodup)
    {q : Placement}
    (hQ : q ∈ t.placements) :
    q.ref.identifier ∉ t.parts.map TestPart.identifier ∧
      q.ref.identifier ∉
        t.sections.map fun s => s.info.identifier := by
  have hApart := (List.nodup_append.mp hDistinct).2.2
  have hRef := List.mem_map_of_mem
    (f := fun q => q.ref.identifier) hQ
  constructor
  · intro hMem
    exact hApart _ (List.mem_append_left _ hMem) _ hRef rfl
  · intro hMem
    exact hApart _ (List.mem_append_right _ hMem) _ hRef rfl

end Test

------------------------------------------------------------
-- Planned Items
------------------------------------------------------------

namespace Plan

/- The items of a plan come part by part. -/
theorem items_rising (p : Plan) :
    p.items.Pairwise fun x y => x.1 ≤ y.1 := by
  unfold items
  rw [List.pairwise_flatMap]
  constructor
  · intro x _
    rw [List.pairwise_map]
    exact List.pairwise_of_forall fun _ _ => Nat.le_refl _
  · have hPlaces :=
      List.pairwise_map.mp (zipIdx_snd_rising p.parts)
    refine hPlaces.imp fun {x y} hLess a hA b hB => ?_
    rcases List.mem_map.mp hA with ⟨_, _, rfl⟩
    rcases List.mem_map.mp hB with ⟨_, _, rfl⟩
    exact Nat.le_of_lt hLess

/- How often a reference is planned. -/
def planned (p : Plan) (ref : String) : Nat :=
  (p.items.filter fun x => x.2.identifier == ref).length

section Occurrences

variable {t : Test}
variable {resolves : ItemRef → Bool}
variable {p : Plan}
variable
  (hStems : List.Forall₂ (Planning.Stems resolves) t.parts p.parts)

include hStems

/- Nodes with the identifier of a reference are items. -/
theorem occurrencesIn_items
    (hDistinct : t.identifiers.Nodup)
    {q : Placement}
    (hQ : q ∈ t.placements) :
    PlanNode.occurrencesIn (p.items.map Prod.snd)
        q.ref.identifier =
      PlanNode.occurrencesIn (PlanNode.nodesIn p.parts)
        q.ref.identifier := by
  unfold PlanNode.occurrencesIn
  rw [map_snd_items, List.filter_filter]
  congr 1
  apply List.filter_congr
  intro n hMem
  by_cases hKind : n.kind = .item
  · simp [hKind]
  · have hNamed :=
      Planning.named_of_mem_nodesIn hStems hMem hKind
    have hApart := Test.not_mem_of_placement hDistinct hQ
    have hNe : n.identifier ≠ q.ref.identifier := by
      intro hSame
      rw [hSame] at hNamed
      exact hNamed.elim hApart.1 hApart.2
    simp [hNe]

/- No item has an identifier that no reference has. -/
theorem occurrencesIn_items_eq_nil
    {ref : String}
    (hNone : ∀ q ∈ t.placements, q.ref.identifier ≠ ref) :
    PlanNode.occurrencesIn (p.items.map Prod.snd) ref = [] := by
  unfold PlanNode.occurrencesIn
  rw [List.map_eq_nil_iff, List.filter_eq_nil_iff]
  intro n hMem hName
  rcases List.mem_map.mp hMem with ⟨x, hX, rfl⟩
  rcases Planning.exists_placement_of_mem_items hStems hX with
    ⟨part, hPart, q, hQ, hOwn, _⟩
  have hIn : q ∈ t.placements := List.mem_flatMap.mpr
    ⟨part, List.mem_of_getElem? hPart, hQ⟩
  exact hNone q hIn (hOwn.trans (by simpa using hName))

/- The items of a reference are numbered from one. -/
theorem occurrences_of_items
    (hDistinct : t.identifiers.Nodup)
    (hNumbers :
      ∀ identifier,
        PlanNode.occurrencesIn (PlanNode.nodesIn p.parts)
            identifier =
          List.range' 1
            (PlanNode.occurrencesIn (PlanNode.nodesIn p.parts)
              identifier).length)
    (ref : String) :
    PlanNode.occurrencesIn (p.items.map Prod.snd) ref =
      List.range' 1 (p.planned ref) := by
  have hLength :
      (PlanNode.occurrencesIn (p.items.map Prod.snd) ref).length =
        p.planned ref := by
    simp [PlanNode.occurrencesIn, planned, List.filter_map,
      Function.comp_def]
  rw [← hLength]
  by_cases hRef : ∃ q ∈ t.placements, q.ref.identifier = ref
  · rcases hRef with ⟨q, hQ, rfl⟩
    rw [occurrencesIn_items hStems hDistinct hQ]
    exact hNumbers _
  · rw [occurrencesIn_items_eq_nil hStems
      fun q hQ hSame => hRef ⟨q, hQ, hSame⟩]
    rfl

end Occurrences

end Plan

------------------------------------------------------------
-- Entries
------------------------------------------------------------

/-
  An entry stands for an item of a plan: for its occurrence,
  in its part, and with the sections where it is defined.
-/
structure ItemEntry.StandsFor
    (t : Test)
    (items : Keyed Item)
    (x : Nat × PlanNode)
    (e : ItemEntry) :
    Prop where
  identifier : e.ref.identifier = x.2.identifier
  occurrence : e.occurrence = x.2.occurrence
  part : e.part = x.1
  placement :
    ∃ part, t.parts[x.1]? = some part ∧
      ⟨e.ref, e.sections⟩ ∈
        part.sections.flatMap Section.placements
  item : items.get? e.ref.href = some e.session.item

namespace TestSession

/- There is one entry for each item of a plan, in its order. -/
structure Realizes
    (s : TestSession)
    (t : Test)
    (items : Keyed Item)
    (p : Plan) :
    Prop where
  length : s.entries.length = p.items.length
  entries :
    ∀ (i : Nat) (x : Nat × PlanNode) (e : ItemEntry),
      p.items[i]? = some x → s.entries[i]? = some e →
        e.StandsFor t items x

variable {t : Test}
variable {items : Keyed Item}
variable {engine : Engine}

/- An item that is defined where it is planned gets an entry. -/
theorem exists_entry?
    {part : TestPart}
    {q : Placement}
    {x : Nat × PlanNode}
    (hPart : t.parts[x.1]? = some part)
    (hQ : q ∈ part.sections.flatMap Section.placements)
    (hName : q.ref.identifier = x.2.identifier)
    (hDefined : definition? t x.2.identifier = some q)
    (hResolves : (items.get? q.ref.href).isSome = true)
    (draws : Draws) :
    ∃ e, entry? t items engine draws x.1 x.2 = some e ∧
      e.StandsFor t items x := by
  rcases Option.isSome_iff_exists.mp hResolves with
    ⟨item, hItem⟩
  unfold entry?
  rw [hDefined, Option.bind_eq_bind, Option.bind_some, hItem]
  exact ⟨_, rfl, hName, rfl, rfl, ⟨part, hPart, hQ⟩, hItem⟩

/- If every node gets an entry, they come in a row. -/
theorem makeEntries_standFor
    {nodes : List (Nat × PlanNode)}
    (hEach :
      ∀ x ∈ nodes, ∀ draws,
        ∃ e, entry? t items engine draws x.1 x.2 = some e ∧
          e.StandsFor t items x)
    (draws : Draws) :
    (makeEntries t items engine draws nodes).1.length =
        nodes.length ∧
      ∀ (i : Nat) (x : Nat × PlanNode) (e : ItemEntry),
        nodes[i]? = some x →
          (makeEntries t items engine draws nodes).1[i]? =
            some e →
              e.StandsFor t items x := by
  induction nodes generalizing draws with
  | nil => exact ⟨rfl, fun i x e hX => by simp at hX⟩
  | cons first rest ih =>
      rcases hEach first List.mem_cons_self draws.fork.1 with
        ⟨own, hOwn, hStands⟩
      rcases ih
        (fun x hMem => hEach x (List.mem_cons_of_mem _ hMem))
        draws.fork.2 with ⟨hLength, hRest⟩
      rcases first with ⟨part, node⟩
      simp only [makeEntries, hOwn]
      refine ⟨by rw [List.length_cons, List.length_cons,
        hLength], ?_⟩
      intro i x e hX hE
      cases i with
      | zero =>
          cases hX
          cases hE
          exact hStands
      | succ i => exact hRest i x e hX hE

/- A session starts with an entry for each planned item. -/
theorem start_realizes_of_refs
    (hRefs : (t.placements.map fun q => q.ref.identifier).Nodup)
    {draws : Draws}
    {first : TestSession}
    (hStart : start t items engine draws = .ok first) :
    first.Realizes t items first.plan := by
  rcases start_iff.mp hStart with ⟨p, tally, hPlan, rfl⟩
  have hStems := plan_stems t
    (fun r => (items.get? r.href).isSome) ⟨draws, []⟩ p
    (congrArg Prod.fst hPlan)
  have hEach : ∀ x ∈ p.items, ∀ draws,
      ∃ e, entry? t items engine draws x.1 x.2 = some e ∧
        e.StandsFor t items x := by
    intro x hMem
    rcases Planning.exists_placement_of_mem_items hStems
      hMem with ⟨part, hPart, q, hQ, hName, hResolves⟩
    have hIn : q ∈ t.placements := List.mem_flatMap.mpr
      ⟨part, List.mem_of_getElem? hPart, hQ⟩
    have hDefined := Test.definition?_of_refs hRefs hIn
    rw [hName] at hDefined
    exact exists_entry? hPart hQ hName hDefined hResolves
  have hMade := makeEntries_standFor hEach tally.draws
  exact ⟨hMade.1, hMade.2⟩

/- A session starts with what its plan asks for. -/
theorem start_realizes
    (hDistinct : t.identifiers.Nodup)
    {draws : Draws}
    {first : TestSession}
    (hStart : start t items engine draws = .ok first) :
    first.Realizes t items first.plan ∧
      ∀ ref,
        PlanNode.occurrencesIn
            (first.plan.items.map Prod.snd) ref =
          List.range' 1 (first.plan.planned ref) := by
  refine ⟨start_realizes_of_refs
    (List.nodup_append.mp hDistinct).2.1 hStart, ?_⟩
  rcases start_iff.mp hStart with ⟨p, tally, hPlan, rfl⟩
  have hOk := congrArg Prod.fst hPlan
  exact Plan.occurrences_of_items
    (plan_stems t (fun r => (items.get? r.href).isSome)
      ⟨draws, []⟩ p hOk)
    hDistinct
    (plan_counted t (fun r => (items.get? r.href).isSome)
      ⟨draws, []⟩ p hOk)

------------------------------------------------------------
-- Held Items
------------------------------------------------------------

/- The last reference named as a planned item has an item. -/
def holds
    (t : Test)
    (items : Keyed Item)
    (x : Nat × PlanNode) :
    Bool :=
  (definition? t x.2.identifier).any fun q =>
    (items.get? q.ref.href).isSome

/- Of what is planned, an entry shows part, name and number. -/
def key (e : ItemEntry) : Nat × String × Nat :=
  (e.part, e.ref.identifier, e.occurrence)

theorem entry?_of_holds
    {x : Nat × PlanNode}
    (hHolds : holds t items x = true)
    (engine : Engine)
    (draws : Draws) :
    ∃ e, entry? t items engine draws x.1 x.2 = some e ∧
      key e = (x.1, x.2.identifier, x.2.occurrence) := by
  unfold holds at hHolds
  cases hDefined : definition? t x.2.identifier with
  | none => simp [hDefined] at hHolds
  | some q =>
      rw [hDefined, Option.any_some] at hHolds
      rcases Option.isSome_iff_exists.mp hHolds with
        ⟨item, hItem⟩
      have hName : q.ref.identifier = x.2.identifier := by
        simpa using List.find?_some hDefined
      unfold entry?
      rw [hDefined, Option.bind_eq_bind, Option.bind_some, hItem]
      refine ⟨_, rfl, ?_⟩
      rw [key, hName]

theorem entry?_eq_none
    {x : Nat × PlanNode}
    (hHolds : holds t items x = false)
    (draws : Draws) :
    entry? t items engine draws x.1 x.2 = none := by
  cases hEntry : entry? t items engine draws x.1 x.2 with
  | none => rfl
  | some e =>
      rcases exists_of_entry? hEntry with
        ⟨q, item, hDefined, hItem, _⟩
      simp [holds, hDefined, hItem] at hHolds

/- Planned items without an item are passed over. -/
theorem makeEntries_keys
    (nodes : List (Nat × PlanNode))
    (draws : Draws) :
    (makeEntries t items engine draws nodes).1.map key =
      (nodes.filter (holds t items)).map fun x =>
        (x.1, x.2.identifier, x.2.occurrence) := by
  induction nodes generalizing draws with
  | nil => rfl
  | cons x rest ih =>
      rcases x with ⟨part, node⟩
      cases hHolds : holds t items (part, node) with
      | true =>
          rcases entry?_of_holds hHolds engine draws.fork.1 with
            ⟨e, hEntry, hKey⟩
          rw [List.filter_cons_of_pos hHolds]
          simp only [makeEntries, hEntry, List.map_cons, hKey,
            ih]
      | false =>
          rw [List.filter_cons_of_neg (by simp [hHolds])]
          simp only [makeEntries, entry?_eq_none hHolds, ih]

/-
  A session begins before its first part, and has one entry
  for each planned item that is held, in the order of the
  plan.
-/
theorem start_held
    {draws : Draws}
    {first : TestSession}
    (hStart : start t items engine draws = .ok first) :
    first.state.part = none ∧
      first.entries.map key =
        (first.plan.items.filter (holds t items)).map fun x =>
          (x.1, x.2.identifier, x.2.occurrence) := by
  rcases start_iff.mp hStart with ⟨p, tally, _, rfl⟩
  exact ⟨rfl, makeEntries_keys p.items tally.draws⟩

/- Entries come part by part. -/
theorem start_rising
    {draws : Draws}
    {first : TestSession}
    (hStart : start t items engine draws = .ok first) :
    (first.entries.map ItemEntry.part).Pairwise (· ≤ ·) := by
  have hKeys := congrArg (List.map Prod.fst)
    (start_held hStart).2
  rw [List.map_map, List.map_map] at hKeys
  have hParts : first.entries.map ItemEntry.part =
      (first.plan.items.filter (holds t items)).map Prod.fst :=
    hKeys
  rw [hParts, List.pairwise_map]
  exact first.plan.items_rising.filter _

/- Where identifiers are distinct, no planned item is missed. -/
theorem holds_of_distinct
    (hDistinct : t.identifiers.Nodup)
    {draws : Draws}
    {first : TestSession}
    (hStart : start t items engine draws = .ok first) :
    ∀ x ∈ first.plan.items, holds t items x = true := by
  have hLength := (start_realizes hDistinct hStart).1.length
  have hKeys := congrArg List.length (start_held hStart).2
  rw [List.length_map, List.length_map, hLength] at hKeys
  exact List.length_filter_eq_length_iff.mp hKeys.symm

------------------------------------------------------------
-- Entries After Calls
------------------------------------------------------------

/- Entries are what they were, apart from their sessions. -/
def KeepsEntries (s t : TestSession) : Prop :=
  t.entries.map
      (fun e => (e.ref, e.occurrence, e.part, e.sections)) =
    s.entries.map
      fun e => (e.ref, e.occurrence, e.part, e.sections)

instance : Std.Refl KeepsEntries where
  refl _ := rfl

instance : IsTrans TestSession KeepsEntries where
  trans _ _ _ hFirst hThen := hThen.trans hFirst

theorem ignoresState_keepsEntries :
    IgnoresState KeepsEntries := by
  constructor
  intro s t _ hEntries
  unfold KeepsEntries
  rw [hEntries]

theorem onItem_keepsEntries
    {α : Type}
    (i : Nat)
    (x : Action α) :
    Moves KeepsEntries (onItem i x) := by
  intro s
  rw [ends_onItem]
  split
  next => rfl
  next e hE =>
    apply Ends.of_forall
    exact fun _ session =>
      map_entries_putSession (fun _ _ => rfl) hE session

theorem lifts_keepsEntries : Lifts Anyhow KeepsEntries :=
  ⟨fun _ i => onItem_keepsEntries i _⟩

theorem call_keepsEntries (c : TestCall) :
    Moves KeepsEntries c.action := by
  have hParts := lifts_keepsEntries.partsMove_of_ignores
    ItemCall.obey_anyhow.way ignoresState_keepsEntries
  refine lifts_keepsEntries.call_moves ItemCall.obey_anyhow
    hParts.steps ?_ c
  exact ignoresState_keepsEntries.initialise
    fun i _ => onItem_keepsEntries i _

/- Entries keep standing for the items of the plan. -/
theorem Realizes.after
    {s : TestSession}
    {p : Plan}
    (hRealizes : s.Realizes t items p)
    (calls : List TestCall) :
    (s.after calls).Realizes t items p := by
  have hKeeps : KeepsEntries s (s.after calls) :=
    after_moves call_keepsEntries s calls
  have hPlaces := s.after_sameSetup calls
  refine ⟨hPlaces.length.trans hRealizes.length, ?_⟩
  intro i x f hX hF
  rcases hPlaces.exists_before hF with ⟨e, hE⟩
  have hStands := hRealizes.entries i x e hX hE
  have hItem := (hPlaces.entries i e f hE hF).2.item
  have hSame := congrArg (fun entries => entries[i]?) hKeeps
  simp only [List.getElem?_map, hE, hF, Option.map_some,
    Option.some.injEq, Prod.mk.injEq] at hSame
  rcases hSame with ⟨hRef, hOccurrence, hPart, hSections⟩
  constructor
  · rw [hRef]
    exact hStands.identifier
  · rw [hOccurrence]
    exact hStands.occurrence
  · rw [hPart]
    exact hStands.part
  · rw [hRef, hSections]
    exact hStands.placement
  · rw [hRef, hItem]
    exact hStands.item

end TestSession

end Assessment
