import Assessment.Proofs.Plan.Selection
import Mathlib.Algebra.Order.BigOperators.Group.List
import Mathlib.Algebra.Order.Group.Nat
import Mathlib.Data.List.Nodup

/-
  Which children a selection picks.

  Whatever is drawn, the children of a section are picked in
  the order of the document, and the required ones among them.
  Without replacement no child is picked twice. The counts of
  the children and the places of those that are left are
  changed draw by draw; the same selection with all of its
  operations checked, on counters with a limit, comes to the
  same counts.

  Main declarations:
    * `repeated`, elements as often as they are counted
    * `selectIn`, a selection with its operations checked
    * `Rises`, counts that have not become smaller
    * `takeAny_picks` and `takeOnce_picks`, loops of draws
    * `selection_picks`
-/

------------------------------------------------------------
-- Repeated Elements
------------------------------------------------------------

namespace Assessment

open Stateful

namespace Planning

variable {α β : Type}

/- Elements in a row, each as often as it is counted. -/
def repeated : List Nat → List α → List α
  | n :: ns, x :: rest => List.replicate n x ++ repeated ns rest
  | _, _ => []

theorem length_repeated
    {counts : List Nat}
    {xs : List α}
    (hLength : counts.length = xs.length) :
    (repeated counts xs).length = counts.sum := by
  induction counts generalizing xs with
  | nil => simp [repeated]
  | cons n ns ih =>
      cases xs with
      | nil => simp at hLength
      | cons x rest =>
          have hRest : (repeated ns rest).length = ns.sum :=
            ih (by simpa using hLength)
          simp [repeated, hRest]

theorem map_repeated
    (f : α → β)
    (counts : List Nat)
    (xs : List α) :
    (repeated counts xs).map f = repeated counts (xs.map f) := by
  induction counts generalizing xs with
  | nil => simp [repeated]
  | cons n ns ih =>
      cases xs with
      | nil => simp [repeated]
      | cons x rest => simp [repeated, ih]

theorem mem_of_mem_repeated
    {counts : List Nat}
    {xs : List α}
    {x : α}
    (hMem : x ∈ repeated counts xs) :
    x ∈ xs := by
  induction counts generalizing xs with
  | nil => simp [repeated] at hMem
  | cons n ns ih =>
      cases xs with
      | nil => simp [repeated] at hMem
      | cons y rest =>
          rw [repeated, List.mem_append] at hMem
          rcases hMem with hHere | hLater
          · rw [List.eq_of_mem_replicate hHere]
            exact List.mem_cons_self
          · exact List.mem_cons_of_mem y (ih hLater)

/- Elements are what stands at their places. -/
theorem map_some_eq (xs : List α) :
    xs.map some = (List.range xs.length).map (xs[·]?) := by
  apply List.ext_getElem
  · simp
  · intro i hI _
    rw [List.length_map] at hI
    simp [hI]

/- What is counted at all is there. -/
theorem mem_repeated
    {counts : List Nat}
    {xs : List α}
    {i n : Nat}
    {x : α}
    (hCount : counts[i]? = some n)
    (hSome : 0 < n)
    (hAt : xs[i]? = some x) :
    x ∈ repeated counts xs := by
  induction counts generalizing xs i with
  | nil => simp at hCount
  | cons m ns ih =>
      cases xs with
      | nil => simp at hAt
      | cons y rest =>
          rw [repeated, List.mem_append]
          cases i with
          | zero =>
              left
              simp only [List.getElem?_cons_zero,
                Option.some.injEq] at hCount hAt
              rw [List.mem_replicate]
              exact ⟨by omega, hAt.symm⟩
          | succ i =>
              right
              exact ih (by simpa using hCount)
                (by simpa using hAt)

/- Repetitions stand together, in the order of the elements. -/
theorem pairwise_repeated
    {xs : List Nat}
    (hRising : xs.Pairwise (· < ·))
    (counts : List Nat) :
    (repeated counts xs).Pairwise (· ≤ ·) := by
  induction counts generalizing xs with
  | nil => simp [repeated]
  | cons n ns ih =>
      cases xs with
      | nil => simp [repeated]
      | cons x rest =>
          rw [List.pairwise_cons] at hRising
          rw [repeated, List.pairwise_append]
          refine ⟨?_, ih hRising.2, ?_⟩
          · exact List.pairwise_replicate.mpr
              (.inr (Nat.le_refl x))
          · intro a hA b hB
            rw [List.eq_of_mem_replicate hA]
            exact Nat.le_of_lt
              (hRising.1 b (mem_of_mem_repeated hB))

/- What is counted at most once is not repeated. -/
theorem repeated_sublist
    {counts : List Nat}
    (hOnce : ∀ n ∈ counts, n ≤ 1)
    (xs : List α) :
    (repeated counts xs).Sublist xs := by
  induction counts generalizing xs with
  | nil => simp [repeated]
  | cons n ns ih =>
      cases xs with
      | nil => simp [repeated]
      | cons x rest =>
          rw [List.forall_mem_cons] at hOnce
          have hRest := ih hOnce.2 rest
          have hHere : n = 0 ∨ n = 1 := by omega
          rcases hHere with rfl | rfl
          · exact hRest.cons x
          · exact hRest.cons_cons x

/- What is chosen of parts in a row. -/
def chooseAll (planner : Planner) :
    List SectionPart → Step (List Chosen)
  | [] => pure []
  | p :: rest => do
      let a ← choose planner p
      let b ← chooseAll planner rest
      return a ++ b

theorem chooseAll_replicate_append
    (planner : Planner)
    (p : SectionPart)
    (n : Nat)
    (rest : List SectionPart) :
    chooseAll planner (List.replicate n p ++ rest) = do
      let a ← times (choose planner p) n
      let b ← chooseAll planner rest
      return a ++ b := by
  induction n with
  | zero => simp [times]
  | succ n ih =>
      rw [List.replicate_succ, List.cons_append, chooseAll, ih,
        times]
      simp only [bind_assoc, pure_bind, List.append_assoc]

/- Children are chosen as often as they are counted. -/
theorem chooseEach_eq
    (planner : Planner)
    (counts : List Nat)
    (parts : List SectionPart) :
    chooseEach planner counts parts =
      chooseAll planner (repeated counts parts) := by
  induction counts generalizing parts with
  | nil => cases parts <;> simp [chooseEach, repeated, chooseAll]
  | cons n ns ih =>
      cases parts with
      | nil => simp [chooseEach, repeated, chooseAll]
      | cons p rest =>
          rw [chooseEach, repeated, chooseAll_replicate_append]
          simp only [ih]

------------------------------------------------------------
-- Checked Operations
------------------------------------------------------------

/-
  Adds one to the count at a place, if the list has the place
  and the count stays within a limit.
-/
def incrementIn
    (limit : Nat)
    (counts : List Nat)
    (place : Nat) :
    Option (List Nat) :=
  match counts[place]? with
  | none => none
  | some n =>
      if n < limit then some (counts.set place (n + 1)) else none

/- The sum of counts, if it stays within a limit. -/
def totalIn (limit : Nat) : List Nat → Option Nat
  | [] => some 0
  | n :: rest =>
      match totalIn limit rest with
      | none => none
      | some total =>
          if n + total ≤ limit then some (n + total) else none

/- The difference of numbers, if it is not below zero. -/
def differenceIn (a b : Nat) : Option Nat :=
  if b ≤ a then some (a - b) else none

/- The places with a count of zero, if all are in the list. -/
def zerosIn (counts : List Nat) : List Nat → Option (List Nat)
  | [] => some []
  | place :: rest =>
      match counts[place]?, zerosIn counts rest with
      | some n, some zeros =>
          some (if n == 0 then place :: zeros else zeros)
      | _, _ => none

/- Takes children at random, with checked operations. -/
def takeAnyIn (limit : Nat) :
    Nat → List Nat → Step (Option (List Nat))
  | 0, counts => pure (some counts)
  | n + 1, counts => do
      let place ← Step.draw fun d => d.below counts.length
      match incrementIn limit counts place with
      | some counts => takeAnyIn limit n counts
      | none => pure none

/- Takes children at most once, with checked operations. -/
def takeOnceIn (limit : Nat) :
    Nat → List Nat → List Nat → Step (Option (List Nat))
  | 0, _, counts => pure (some counts)
  | _ + 1, [], counts => pure (some counts)
  | n + 1, p :: rest, counts => do
      let left := p :: rest
      let pick ← Step.draw fun d => d.below left.length
      match left[pick]?.bind (incrementIn limit counts) with
      | some counts =>
          takeOnceIn limit n (left.eraseIdx pick) counts
      | none => pure none

/-
  A selection on counters with a limit. It gives nothing if a
  counter leaves its range, or a place is not in its list.
-/
def selectIn
    (limit : Nat)
    (planner : Planner)
    (owner : String)
    (s : Selection)
    (parts : List SectionPart) :
    Step (Option (List Nat)) := do
  if s.count == 0 then
    return some (parts.map fun _ => 0)
  if !s.withReplacement && parts.length < s.count then
    Step.warn planner.source
      ("section '" ++ owner ++ "' selects " ++
        toString s.count ++ " of " ++ toString parts.length ++
        " children without replacement;" ++
        " all children are selected")
    return some (parts.map fun _ => 1)
  let counts := requiredCounts parts
  match totalIn limit counts with
  | none => return none
  | some required => do
      if s.count < required then
        Step.warn planner.source
          ("section '" ++ owner ++ "' selects " ++
            toString s.count ++ " children but " ++
            toString required ++
            " are required; all required children are selected")
      match differenceIn (max s.count required) required,
          zerosIn counts (List.range parts.length) with
      | some remaining, some free =>
          if s.withReplacement then
            takeAnyIn limit remaining counts
          else takeOnceIn limit remaining free counts
      | _, _ => return none

/- A count within its list can be raised below the limit. -/
theorem incrementIn_eq
    {limit : Nat}
    {counts : List Nat}
    {place : Nat}
    (hPlace : place < counts.length)
    (hLimit : counts.sum < limit) :
    incrementIn limit counts place =
      some (increment counts place) := by
  have hAt := List.getElem?_eq_getElem hPlace
  have hBelow : counts[place] < limit :=
    (List.le_sum_of_mem (List.getElem_mem hPlace)).trans_lt
      hLimit
  simp [incrementIn, hAt, hBelow, increment,
    List.modify_eq_set_getElem?]

theorem totalIn_eq
    {limit : Nat}
    {counts : List Nat}
    (hLimit : counts.sum ≤ limit) :
    totalIn limit counts = some counts.sum := by
  induction counts with
  | nil => rfl
  | cons n rest ih =>
      rw [List.sum_cons] at hLimit
      simp [totalIn, ih (by omega), hLimit]

theorem zerosIn_eq
    {counts places : List Nat}
    (hPlaces : ∀ place ∈ places, place < counts.length) :
    zerosIn counts places =
      some (places.filter fun i => counts[i]? == some 0) := by
  induction places with
  | nil => rfl
  | cons place rest ih =>
      rw [List.forall_mem_cons] at hPlaces
      have hAt := List.getElem?_eq_getElem hPlaces.1
      simp only [zerosIn, hAt, ih hPlaces.2, List.filter_cons]
      by_cases hZero : counts[place] = 0 <;> simp [hZero]

------------------------------------------------------------
-- Loops of Draws
------------------------------------------------------------

/- Counts of the same places, none of which is smaller. -/
def Rises (before after : List Nat) : Prop :=
  ∀ i n : Nat, before[i]? = some n →
    ∃ m, after[i]? = some m ∧ n ≤ m

theorem Rises.refl (counts : List Nat) :
    Rises counts counts :=
  fun _ n hAt => ⟨n, hAt, Nat.le_refl n⟩

theorem Rises.trans
    {a b c : List Nat}
    (hFirst : Rises a b)
    (hThen : Rises b c) :
    Rises a c := by
  intro i n hAt
  rcases hFirst i n hAt with ⟨m, hNext, hLe⟩
  rcases hThen i m hNext with ⟨k, hLast, hMore⟩
  exact ⟨k, hLast, hLe.trans hMore⟩

theorem getElem?_increment
    (counts : List Nat)
    (place i : Nat) :
    (increment counts place)[i]? =
      counts[i]?.map fun n => if place = i then n + 1 else n := by
  simp [increment, List.getElem?_modify]

theorem rises_increment
    (counts : List Nat)
    (place : Nat) :
    Rises counts (increment counts place) := by
  intro i n hAt
  rw [getElem?_increment, hAt]
  refine ⟨if place = i then n + 1 else n, rfl, ?_⟩
  split <;> omega

/- A draw from some numbers gives one of them. -/
theorem run_below
    {bound : Nat}
    (hBound : 0 < bound)
    (t : Tally) :
    ∃ n u,
      run (Step.draw fun d => d.below bound) t = (.ok n, u) ∧
        n < bound := by
  have hEnds :
      Ends (Step.draw fun d => d.below bound) t fun r _ =>
        ∃ n, r = .ok n ∧ n < bound :=
    Step.ends_below hBound fun n _ hBelow _ =>
      ⟨n, rfl, hBelow⟩
  rcases hEnds with ⟨n, hOk, hBelow⟩
  exact ⟨n, _, Prod.ext hOk rfl, hBelow⟩

variable {limit : Nat}

/-
  Every draw from all children takes one of them. The counters
  have room for all that is still to be taken.
-/
theorem takeAny_picks
    (n : Nat)
    (counts : List Nat)
    (tally : Tally)
    (hSome : 0 < counts.length)
    (hLimit : counts.sum + n ≤ limit) :
    ∃ cs u,
      run (takeAny n counts) tally = (.ok cs, u) ∧
        run (takeAnyIn limit n counts) tally =
          (.ok (some cs), u) ∧
        Rises counts cs := by
  induction n generalizing counts tally with
  | zero => exact ⟨counts, tally, rfl, rfl, .refl counts⟩
  | succ n ih =>
      rcases run_below hSome tally with
        ⟨place, t, hDraw, hPlace⟩
      have hSum := sum_increment hPlace
      rcases ih (increment counts place) t
          (by rwa [length_increment]) (by omega) with
        ⟨cs, u, hRun, hChecked, hRises⟩
      refine ⟨cs, u, ?_, ?_,
        (rises_increment counts place).trans hRises⟩
      · rw [takeAny, run_bind, hDraw]
        exact hRun
      · rw [takeAnyIn, run_bind, hDraw]
        simp only [incrementIn_eq hPlace (by omega : _ < limit)]
        exact hChecked

/- No count is above one, and some places have zero. -/
structure OnceAtMost (left counts : List Nat) : Prop where
  once : ∀ n ∈ counts, n ≤ 1
  zero : ∀ place ∈ left, counts[place]? = some 0
  nodup : left.Nodup

/- What is taken is no longer left. -/
theorem OnceAtMost.next
    {left counts : List Nat}
    (hOnce : OnceAtMost left counts)
    {pick : Nat}
    (hPick : pick < left.length) :
    OnceAtMost (left.eraseIdx pick)
      (increment counts left[pick]) := by
  have hTaken := hOnce.zero left[pick] (List.getElem_mem hPick)
  constructor
  · intro n hMem
    rcases List.getElem?_of_mem hMem with ⟨i, hAt⟩
    rw [getElem?_increment] at hAt
    rcases Option.map_eq_some_iff.mp hAt with ⟨m, hM, rfl⟩
    split
    next hSame =>
      rw [← hSame, hTaken] at hM
      cases hM
      exact Nat.le_refl 1
    next => exact hOnce.once m (List.mem_of_getElem? hM)
  · intro place hMem
    rw [← hOnce.nodup.erase_getElem pick hPick,
      hOnce.nodup.mem_erase_iff] at hMem
    rw [getElem?_increment, hOnce.zero place hMem.2]
    simp [hMem.1.symm]
  · exact hOnce.nodup.eraseIdx pick

/-
  Every draw from the children that are left takes one of them
  and leaves the others.
-/
theorem takeOnce_picks
    (n : Nat)
    (left counts : List Nat)
    (tally : Tally)
    (hOnce : OnceAtMost left counts)
    (hLimit : counts.sum + n ≤ limit) :
    ∃ cs u,
      run (takeOnce n left counts) tally = (.ok cs, u) ∧
        run (takeOnceIn limit n left counts) tally =
          (.ok (some cs), u) ∧
        Rises counts cs ∧ ∀ m ∈ cs, m ≤ 1 := by
  induction n generalizing left counts tally with
  | zero =>
      exact ⟨counts, tally, by rw [takeOnce]; rfl,
        by rw [takeOnceIn]; rfl, .refl counts, hOnce.once⟩
  | succ n ih =>
      cases left with
      | nil =>
          exact ⟨counts, tally, rfl, rfl, .refl counts,
            hOnce.once⟩
      | cons p rest =>
          have hSome : 0 < (p :: rest).length := by simp
          rcases run_below hSome tally with
            ⟨pick, t, hDraw, hPick⟩
          have hAt := List.getElem?_eq_getElem hPick
          have hZero := hOnce.zero _ (List.getElem_mem hPick)
          have hPlace := (List.getElem?_eq_some_iff.mp hZero).1
          have hSum := sum_increment hPlace
          rcases ih _ _ t (hOnce.next hPick) (by omega) with
            ⟨cs, u, hRun, hChecked, hRises, hMost⟩
          refine ⟨cs, u, ?_, ?_,
            (rises_increment counts _).trans hRises, hMost⟩
          · rw [takeOnce, run_bind, hDraw]
            simp only [hAt, Option.getD_some]
            exact hRun
          · rw [takeOnceIn, run_bind, hDraw]
            simp only [hAt, Option.bind_some,
              incrementIn_eq hPlace (by omega : _ < limit)]
            exact hChecked

------------------------------------------------------------
-- Selections
------------------------------------------------------------

/- The required children are counted once, the others not. -/
theorem getElem?_requiredCounts
    (parts : List SectionPart)
    (i : Nat) :
    (requiredCounts parts)[i]? =
      parts[i]?.map fun p => if p.required then 1 else 0 := by
  simp [requiredCounts]

theorem onceAtMost_required (parts : List SectionPart) :
    OnceAtMost (freePlaces (requiredCounts parts))
      (requiredCounts parts) := by
  constructor
  · intro n hMem
    rcases List.mem_map.mp hMem with ⟨p, _, rfl⟩
    split <;> omega
  · intro place hMem
    simpa using (List.mem_filter.mp hMem).2
  · exact List.nodup_range.filter _

/-
  What a selection makes of its children: counts for them that
  have room in counters with a limit, come to a number, count
  each required child, and are at most one if there is no
  replacement.
-/
structure Picks
    (s : Selection)
    (parts : List SectionPart)
    (cs : List Nat) :
    Prop where
  length : cs.length = parts.length
  sum :
    cs.sum =
      if s.withReplacement = false ∧ parts.length < s.count then
        parts.length
      else max s.count (parts.filter SectionPart.required).length
  required :
    ∀ (i : Nat) (p : SectionPart),
      parts[i]? = some p → p.required = true →
        ∃ n, cs[i]? = some n ∧ 0 < n
  once : s.withReplacement = false → ∀ n ∈ cs, n ≤ 1

/- Counts that rise from those of the required children. -/
theorem Rises.required
    {parts : List SectionPart}
    {cs : List Nat}
    (hRises : Rises (requiredCounts parts) cs)
    {i : Nat}
    {p : SectionPart}
    (hAt : parts[i]? = some p)
    (hRequired : p.required = true) :
    ∃ n, cs[i]? = some n ∧ 0 < n := by
  have hCount : (requiredCounts parts)[i]? = some 1 := by
    rw [getElem?_requiredCounts, hAt]
    simp [hRequired]
  rcases hRises i 1 hCount with ⟨n, hN, hSome⟩
  exact ⟨n, hN, hSome⟩

/- The draws of a selection that can be met. -/
theorem draws_pick
    {s : Selection}
    {parts : List SectionPart}
    (hChildren : parts ≠ [] ∨ s.withReplacement = false)
    (hFits :
      ¬ (s.withReplacement = false ∧ parts.length < s.count))
    (hCount : s.count ≤ limit)
    (hParts : parts.length ≤ limit)
    (tally : Tally) :
    ∃ cs u,
      run
          (if s.withReplacement then
            takeAny (s.count - (requiredCounts parts).sum)
              (requiredCounts parts)
          else
            takeOnce (s.count - (requiredCounts parts).sum)
              (freePlaces (requiredCounts parts))
              (requiredCounts parts))
          tally = (.ok cs, u) ∧
        run
          (if s.withReplacement then
            takeAnyIn limit
              (s.count - (requiredCounts parts).sum)
              (requiredCounts parts)
          else
            takeOnceIn limit
              (s.count - (requiredCounts parts).sum)
              (freePlaces (requiredCounts parts))
              (requiredCounts parts))
          tally = (.ok (some cs), u) ∧
        Picks s parts cs := by
  rcases requiredCounts_sums parts with ⟨hSum, hFree⟩
  have hLength : (requiredCounts parts).length =
      parts.length := by simp [requiredCounts]
  have hRoom : (requiredCounts parts).sum +
      (s.count - (requiredCounts parts).sum) ≤ limit := by
    omega
  have hTotal : (requiredCounts parts).sum +
        (s.count - (requiredCounts parts).sum) =
      max s.count
        (parts.filter SectionPart.required).length := by
    omega
  cases hAgain : s.withReplacement with
  | true =>
      have hPositive : 0 < (requiredCounts parts).length := by
        rw [hLength]
        apply List.length_pos_of_ne_nil
        exact hChildren.resolve_right (by simp [hAgain])
      rcases takeAny_picks _ _ tally hPositive hRoom with
        ⟨cs, u, hRun, hChecked, hRises⟩
      rcases (ends_takeAny _ _ tally hPositive).of_run hRun with
        ⟨_, hSame, hCs, hDrawn, _⟩
      cases hSame
      refine ⟨cs, u, hRun, hChecked, ?_⟩
      constructor
      · exact hCs.trans hLength
      · rw [if_neg hFits, hDrawn, hTotal]
      · exact fun i p hAt => hRises.required hAt
      · intro hNever
        rw [hAgain] at hNever
        cases hNever
  | false =>
      have hEnough :
          s.count - (requiredCounts parts).sum ≤
            (freePlaces (requiredCounts parts)).length := by
        have hFew : s.count ≤ parts.length := by
          by_contra hMore
          exact hFits ⟨hAgain, by omega⟩
        rw [length_freePlaces]
        omega
      rcases takeOnce_picks _ _ _ tally
          (onceAtMost_required parts) hRoom with
        ⟨cs, u, hRun, hChecked, hRises, hOnce⟩
      rcases (ends_takeOnce _ _ _ tally hEnough
          fun _ => lt_of_mem_freePlaces).of_run hRun with
        ⟨_, hSame, hCs, hDrawn, _⟩
      cases hSame
      refine ⟨cs, u, hRun, hChecked, ?_⟩
      constructor
      · exact hCs.trans hLength
      · rw [if_neg hFits, hDrawn, hTotal]
      · exact fun i p hAt => hRises.required hAt
      · exact fun _ => hOnce

/-
  A selection comes to counts, and with checked operations to
  the same, if the counters have room for the number of the
  children and for the number that is asked for.
-/
theorem run_select
    {s : Selection}
    {parts : List SectionPart}
    (hSome : 1 ≤ s.count)
    (hChildren : parts ≠ [] ∨ s.withReplacement = false)
    (hCount : s.count ≤ limit)
    (hParts : parts.length ≤ limit)
    (planner : Planner)
    (owner : String)
    (tally : Tally) :
    ∃ cs u,
      run (select planner owner s parts) tally = (.ok cs, u) ∧
        run (selectIn limit planner owner s parts) tally =
          (.ok (some cs), u) ∧
        Picks s parts cs := by
  have hNotZero : (s.count == 0) = false := by
    simpa using Nat.ne_of_gt hSome
  unfold select selectIn
  simp only [hNotZero]
  by_cases hAll :
      s.withReplacement = false ∧ parts.length < s.count
  · simp only [hAll]
    refine ⟨_, _, rfl, rfl, ?_⟩
    constructor
    · simp
    · simp [hAll]
    · intro i p hAt _
      refine ⟨1, ?_, by omega⟩
      rw [List.getElem?_map, hAt]
      rfl
    · intro _ n hMem
      rcases List.mem_map.mp hMem with ⟨_, _, rfl⟩
      exact Nat.le_refl 1
  · have hDraws := draws_pick hChildren hAll hCount hParts
    rcases requiredCounts_sums parts with ⟨hSum, hFree⟩
    have hFew :
        (!s.withReplacement &&
          decide (parts.length < s.count)) = false := by
      simpa using hAll
    have hFold : (requiredCounts parts).foldr (· + ·) 0 =
        (requiredCounts parts).sum := rfl
    have hRequired :
        totalIn limit (requiredCounts parts) =
          some (requiredCounts parts).sum :=
      totalIn_eq (by omega)
    have hRemaining :
        differenceIn
            (max s.count (requiredCounts parts).sum)
            (requiredCounts parts).sum =
          some (s.count - (requiredCounts parts).sum) := by
      unfold differenceIn
      rw [if_pos (by omega), Option.some_inj]
      omega
    have hZeros :
        zerosIn (requiredCounts parts)
            (List.range parts.length) =
          some (freePlaces (requiredCounts parts)) := by
      have hLength : (requiredCounts parts).length =
          parts.length := by simp [requiredCounts]
      rw [zerosIn_eq (by simp [hLength]), freePlaces, hLength]
    simp only [hFew, hFold, hRequired, hRemaining, hZeros]
    by_cases hMore : s.count < (requiredCounts parts).sum
    · simp only [hMore]
      exact hDraws _
    · simp only [hMore]
      exact hDraws tally

------------------------------------------------------------
-- Main Theorem
------------------------------------------------------------

/-
  The children that are picked stand at places of the section
  that rise and may be repeated. A required child is among
  them, without replacement none is repeated, and they are as
  many as are asked for or required, or all of them where too
  many are asked for. No operation of a selection leaves the
  range of counters with room for the numbers it begins with.
-/
theorem selection_picks
    {s : Selection}
    {parts : List SectionPart}
    (hSome : 1 ≤ s.count)
    (hChildren : parts ≠ [] ∨ s.withReplacement = false)
    {limit : Nat}
    (hCount : s.count ≤ limit)
    (hParts : parts.length ≤ limit)
    (planner : Planner)
    (owner : String)
    (tally : Tally) :
    ∃ (cs : List Nat) (u : Tally) (places : List Nat),
      run (select planner owner s parts) tally = (.ok cs, u) ∧
      run (selectIn limit planner owner s parts) tally =
        (.ok (some cs), u) ∧
      chooseEach planner cs parts =
        chooseAll planner (repeated cs parts) ∧
      (repeated cs parts).map some =
        places.map (parts[·]?) ∧
      places.Pairwise (· ≤ ·) ∧
      (∀ (i : Nat) (p : SectionPart),
        parts[i]? = some p → p.required = true →
          i ∈ places) ∧
      (s.withReplacement = false → places.Nodup) ∧
      (repeated cs parts).length =
        if s.withReplacement = false ∧
            parts.length < s.count then
          parts.length
        else
          max s.count
            (parts.filter SectionPart.required).length := by
  rcases run_select hSome hChildren hCount hParts planner owner
      tally with
    ⟨cs, u, hRun, hChecked, hPicks⟩
  refine ⟨cs, u, repeated cs (List.range parts.length), hRun,
    hChecked, chooseEach_eq planner cs parts, ?_, ?_, ?_, ?_,
    ?_⟩
  · rw [map_repeated, map_repeated, map_some_eq]
  · exact pairwise_repeated List.pairwise_lt_range cs
  · intro i p hAt hRequired
    rcases hPicks.required i p hAt hRequired with
      ⟨n, hN, hPositive⟩
    have hPlace := (List.getElem?_eq_some_iff.mp hAt).1
    exact mem_repeated hN hPositive
      (List.getElem?_range hPlace)
  · intro hNever
    exact (repeated_sublist (hPicks.once hNever) _).nodup
      List.nodup_range
  · rw [length_repeated hPicks.length]
    exact hPicks.sum

/- Of three children the last is required and picked. -/
theorem selection_picks_last :
    let s : Selection := ⟨2, false⟩
    let parts : List SectionPart :=
      [.item (plainRef "a" "item"), .item (plainRef "b" "item"),
        .item { plainRef "c" "item" with required := true }]
    (1 ≤ s.count ∧ s.withReplacement = false ∧
      s.count ≤ 3 ∧ parts.length ≤ 3) ∧
    ∃ (cs : List Nat) (places : List Nat),
      (run (select ⟨"test", fun _ => true⟩ "section" s parts)
        ⟨default, []⟩).1 = .ok cs ∧
      (repeated cs parts).map some =
        places.map (parts[·]?) ∧
      2 ∈ places ∧ places.Nodup ∧
      (repeated cs parts).length = 2 := by
  intro s parts
  have hSome : 1 ≤ s.count := by decide
  have hNever : s.withReplacement = false := rfl
  have hCount : s.count ≤ 3 := by decide
  have hParts : parts.length ≤ 3 := by decide
  refine ⟨⟨hSome, hNever, hCount, hParts⟩, ?_⟩
  rcases selection_picks hSome (.inr hNever) hCount hParts
      ⟨"test", fun _ => true⟩ "section" ⟨default, []⟩ with
    ⟨cs, u, places, hRun, _, _, hSame, _, hRequired, hOnce,
      hLength⟩
  exact ⟨cs, places, congrArg Prod.fst hRun, hSame,
    hRequired 2 _ rfl rfl, hOnce hNever, hLength⟩

end Planning

end Assessment
