import Assessment.Proofs.Plan.Whole
import Mathlib.Data.Option.Basic

/-
  Shuffles, place by place.

  The children that are not fixed leave their places and come
  back to these places in an order that is drawn. The order
  can be any, and it decides alone which child comes where.

  The machine has two rows of slots. Every child is taken out
  of its slot in the first row and put into a slot of the
  second. A move stops at a slot outside the rows or one that
  has been emptied before, but none does, and in the end no
  slot of the second row is empty.

  Main declarations:
    * `Draws.exists_permutation`, every order can be drawn
    * `Planning.loosePlaces` and `arrangedBy`
    * `Rows`, with `Rows.Moved`, what moves keep to
    * `Planning.rearrange?_eq`
    * `Planning.shuffle_permutes`
-/

------------------------------------------------------------
-- Orders
------------------------------------------------------------

namespace Assessment

namespace Draws

variable {α β : Type}

theorem insertAt_map (f : α → β) (a : α) (n : Nat) (xs : List α) :
    insertAt (f a) n (xs.map f) = (insertAt a n xs).map f := by
  simp [insertAt]

/- An order is drawn whatever it is that is put in order. -/
theorem permutation_map (d : Draws) (f : α → β) (xs : List α) :
    d.permutation (xs.map f) =
      ((d.permutation xs).1.map f, (d.permutation xs).2) := by
  induction xs with
  | nil => rfl
  | cons a rest ih =>
      simp only [List.map_cons, permutation, ih, insertAt_map,
        List.length_map]

/- An order takes one number for each element. -/
theorem permutation_used (d : Draws) (xs : List α) :
    (d.permutation xs).2 =
      { d with used := d.used + xs.length } := by
  induction xs with
  | nil => rfl
  | cons a rest ih =>
      simp only [permutation, ih, next, List.length_cons]
      rw [Nat.add_assoc]

/- No other numbers matter. -/
theorem permutation_congr
    {source other : List Nat → Nat}
    {address : List Nat}
    {used : Nat}
    {xs : List α}
    (hSame :
      ∀ k < xs.length,
        source (0 :: (used + k) :: address) =
          other (0 :: (used + k) :: address)) :
    (permutation ⟨source, address, used⟩ xs).1 =
      (permutation ⟨other, address, used⟩ xs).1 := by
  induction xs with
  | nil => rfl
  | cons a rest ih =>
      have hRest := ih fun k hK => hSame k (Nat.lt_succ_of_lt hK)
      have hLast := hSame rest.length (Nat.lt_succ_self _)
      simp only [permutation, permutation_used, next, hRest,
        hLast]

/- Every order can be drawn. -/
theorem exists_permutation
    {xs ys : List α}
    (hPerm : ys.Perm xs)
    (address : List Nat)
    (used : Nat) :
    ∃ source, (permutation ⟨source, address, used⟩ xs).1 = ys := by
  induction xs generalizing ys with
  | nil => exact ⟨fun _ => 0, hPerm.eq_nil.symm⟩
  | cons a rest ih =>
      obtain ⟨front, back, rfl⟩ :=
        List.append_of_mem (hPerm.symm.subset List.mem_cons_self)
      have hOthers : (front ++ back).Perm rest :=
        (List.perm_middle.symm.trans hPerm).cons_inv
      obtain ⟨source, hSource⟩ := ih hOthers
      -- One more number says how far the first element goes.
      let last := 0 :: (used + rest.length) :: address
      refine ⟨fun x => if x = last then front.length else source x,
        ?_⟩
      have hRest :
          (permutation
              ⟨fun x => if x = last then front.length else source x,
                address, used⟩
              rest).1 = front ++ back := by
        rw [← hSource]
        apply permutation_congr
        intro k hK
        have hOther : 0 :: (used + k) :: address ≠ last := by
          intro hSame
          simp only [last, List.cons.injEq, true_and, and_true]
            at hSame
          omega
        exact if_neg hOther
      have hLength : rest.length = front.length + back.length := by
        rw [← hOthers.length_eq, List.length_append]
      have hBound :
          front.length % (rest.length + 1) = front.length :=
        Nat.mod_eq_of_lt (by omega)
      simp only [permutation, permutation_used, next, hRest]
      simp [last, insertAt, hBound, hOthers.length_eq]

end Draws

------------------------------------------------------------
-- Places
------------------------------------------------------------

namespace Planning

/- Whether a place holds a child that is fixed. -/
def fixedAt (pool : List Chosen) (i : Nat) : Bool :=
  pool[i]?.any Chosen.fixed

/- The places of the children that are fixed. -/
def fixedPlaces (pool : List Chosen) : List Nat :=
  (List.range pool.length).filter (fixedAt pool)

/- The places of the children that are not fixed. -/
def loosePlaces (pool : List Chosen) : List Nat :=
  (List.range pool.length).filter fun i => !fixedAt pool i

/- The children, with those not fixed in another order. -/
def arrangedBy (pool : List Chosen) (order : List Nat) :
    List Chosen :=
  fill pool (order.filterMap (pool[·]?))

theorem loosePlaces_cons (c : Chosen) (rest : List Chosen) :
    loosePlaces (c :: rest) =
      (if c.fixed then [] else [0]) ++
        (loosePlaces rest).map (· + 1) := by
  unfold loosePlaces
  rw [List.length_cons, List.range_succ_eq_map, List.filter_cons,
    List.filter_map]
  cases hFixed : c.fixed <;>
    simp [hFixed, Function.comp_def, fixedAt]

/- What stands at the loose places is what is not fixed. -/
theorem map_loosePlaces (pool : List Chosen) :
    (loosePlaces pool).map (pool[·]?) =
      (pool.filter fun c => !c.fixed).map some := by
  induction pool with
  | nil => rfl
  | cons c rest ih =>
      rw [loosePlaces_cons, List.map_append, List.map_map]
      have hRest :
          (loosePlaces rest).map
              ((fun i => (c :: rest)[i]?) ∘ (· + 1)) =
            (rest.filter fun c => !c.fixed).map some := ih
      rw [hRest]
      cases hFixed : c.fixed <;> simp [hFixed]

/- Every place is fixed or loose. -/
theorem places_perm (pool : List Chosen) :
    (fixedPlaces pool ++ loosePlaces pool).Perm
      (List.range pool.length) :=
  List.filter_append_perm _ _

------------------------------------------------------------
-- Filling
------------------------------------------------------------

theorem length_fill (pool moved : List Chosen) :
    (fill pool moved).length = pool.length := by
  induction pool generalizing moved with
  | nil => rfl
  | cons c rest ih =>
      cases hFixed : c.fixed <;> cases moved <;>
        simp [fill, hFixed, ih]

/- What is fixed keeps its place. -/
theorem fill_fixed
    {pool : List Chosen}
    {i : Nat}
    {c : Chosen}
    (hAt : pool[i]? = some c)
    (hFixed : c.fixed = true)
    (moved : List Chosen) :
    (fill pool moved)[i]? = some c := by
  induction pool generalizing i moved with
  | nil => simp at hAt
  | cons first rest ih =>
      cases i with
      | zero =>
          cases hAt
          simp [fill, hFixed]
      | succ i =>
          rw [List.getElem?_cons_succ] at hAt
          cases hFirst : first.fixed <;> cases moved <;>
            simp [fill, hFirst, ih hAt]

/- The other places hold what has come back, in its order. -/
theorem map_loosePlaces_fill
    {pool moved : List Chosen}
    (hLength :
      moved.length = (pool.filter fun c => !c.fixed).length) :
    (loosePlaces pool).map ((fill pool moved)[·]?) =
      moved.map some := by
  induction pool generalizing moved with
  | nil =>
      have hNone : moved = [] := by simpa using hLength
      simp [hNone, loosePlaces]
  | cons c rest ih =>
      rw [loosePlaces_cons, List.map_append, List.map_map]
      cases hFixed : c.fixed with
      | true =>
          have hRest := ih (by simpa [hFixed] using hLength)
          simpa [fill, hFixed, Function.comp_def] using hRest
      | false =>
          cases moved with
          | nil => simp [hFixed] at hLength
          | cons m others =>
              have hRest := ih (by simpa [hFixed] using hLength)
              simpa [fill, hFixed, Function.comp_def] using hRest

------------------------------------------------------------
-- Arrangements by an Order
------------------------------------------------------------

section Order

variable {pool : List Chosen} {order : List Nat}
variable (hOrder : order.Perm (loosePlaces pool))

include hOrder

/- An order of the loose places leads to children. -/
theorem map_order :
    (order.filterMap (pool[·]?)).map some =
      order.map (pool[·]?) := by
  have hSome : ∀ i ∈ order, (pool[i]?).isSome = true := by
    intro i hMem
    have hRange := List.mem_of_mem_filter (hOrder.subset hMem)
    simpa using hRange
  clear hOrder
  induction order with
  | nil => rfl
  | cons i rest ih =>
      rw [List.forall_mem_cons] at hSome
      obtain ⟨c, hC⟩ := Option.isSome_iff_exists.mp hSome.1
      rw [List.filterMap_cons_some hC, List.map_cons, ih hSome.2,
        List.map_cons, hC]

/- It takes out as many as are not fixed. -/
theorem moved_perm :
    (order.filterMap (pool[·]?)).Perm
      (pool.filter fun c => !c.fixed) := by
  rw [← List.map_perm_map_iff (Option.some_injective Chosen),
    map_order hOrder, ← map_loosePlaces]
  exact hOrder.map _

theorem arrangedBy_perm : (arrangedBy pool order).Perm pool := by
  have hMoved := moved_perm hOrder
  calc fill pool _
      _ |>.Perm (pool.filter (fun c => c.fixed) ++ _) :=
        fill_perm hMoved.length_eq
      _ |>.Perm (pool.filter (fun c => c.fixed) ++
            pool.filter fun c => !c.fixed) :=
        hMoved.append_left _
      _ |>.Perm pool :=
        List.filter_append_perm _ _

/- A loose place holds the child from where the order says. -/
theorem map_loosePlaces_arrangedBy :
    (loosePlaces pool).map ((arrangedBy pool order)[·]?) =
      order.map (pool[·]?) := by
  rw [← map_order hOrder]
  exact map_loosePlaces_fill (moved_perm hOrder).length_eq

end Order

end Planning

------------------------------------------------------------
-- Rows of Slots
------------------------------------------------------------

/- A row from which is taken, and a row in which is put. -/
structure Rows where
  source : List (Option Chosen)
  target : List (Option Chosen)

namespace Rows

/-
  Takes what is in a slot of the first row and puts it into a
  slot of the second. There is no such move from an emptied
  slot, or where a row has no such slot.
-/
def move? (r : Rows) (place origin : Nat) : Option Rows :=
  match r.source[origin]? with
  | some (some c) =>
      if place < r.target.length then
        some ⟨r.source.set origin none,
          r.target.set place (some c)⟩
      else none
  | _ => none

/- Moves in a row, each to a place from another. -/
def moveAll? (r : Rows) : List (Nat × Nat) → Option Rows
  | [] => some r
  | (place, origin) :: rest =>
      (r.move? place origin).bind fun r => r.moveAll? rest

/- What rows hold after moves from a full row to an empty one. -/
structure Moved
    (pool : List Chosen)
    (moves : List (Nat × Nat))
    (r : Rows) :
    Prop where
  length : r.target.length = pool.length
  taken :
    ∀ i, i ∉ moves.map Prod.snd →
      r.source[i]? = pool[i]?.map some
  put :
    ∀ m ∈ moves, r.target[m.1]? = pool[m.2]?.map some

/- The rows before the first move. -/
def start (pool : List Chosen) : Rows :=
  ⟨pool.map some, List.replicate pool.length none⟩

theorem moved_start (pool : List Chosen) :
    Moved pool [] (start pool) where
  length := List.length_replicate
  taken _ _ := List.getElem?_map
  put _ hMem := absurd hMem List.not_mem_nil

variable {pool : List Chosen} {moves : List (Nat × Nat)} {r : Rows}

/-
  A move to a new place from a slot that is still full goes
  through, and leaves what has been put before.
-/
theorem Moved.move
    (hMoved : Moved pool moves r)
    {place origin : Nat}
    (hPlace : place < pool.length)
    (hOrigin : origin < pool.length)
    (hNewPlace : place ∉ moves.map Prod.fst)
    (hNewOrigin : origin ∉ moves.map Prod.snd) :
    ∃ t, r.move? place origin = some t ∧
      Moved pool (moves ++ [(place, origin)]) t := by
  have hAt := List.getElem?_eq_getElem hOrigin
  have hFull : r.source[origin]? = some (some pool[origin]) := by
    rw [hMoved.taken origin hNewOrigin, hAt, Option.map_some]
  have hRoom : place < r.target.length := by
    rwa [hMoved.length]
  refine ⟨_, by rw [move?, hFull]; exact if_pos hRoom, ?_, ?_, ?_⟩
  · rw [List.length_set]
    exact hMoved.length
  · intro i hNew
    rw [List.map_append, List.mem_append, not_or,
      List.map_singleton, List.mem_singleton] at hNew
    rw [List.getElem?_set_ne (Ne.symm hNew.2)]
    exact hMoved.taken i hNew.1
  · intro m hMem
    rcases List.mem_append.mp hMem with hBefore | hLast
    · have hOther : place ≠ m.1 := by
        rintro rfl
        exact hNewPlace (List.mem_map_of_mem hBefore)
      rw [List.getElem?_set_ne hOther]
      exact hMoved.put m hBefore
    · rcases List.mem_singleton.mp hLast with rfl
      rw [List.getElem?_set_self hRoom, hAt, Option.map_some]

/- So do all moves, if places and origins are distinct. -/
theorem Moved.moveAll
    (hMoved : Moved pool moves r)
    {more : List (Nat × Nat)}
    (hPlaces :
      ((moves ++ more).map Prod.fst).Perm (List.range pool.length))
    (hOrigins :
      ((moves ++ more).map Prod.snd).Perm
        (List.range pool.length)) :
    ∃ t, r.moveAll? more = some t ∧
      Moved pool (moves ++ more) t := by
  induction more generalizing moves r with
  | nil => exact ⟨r, rfl, by rwa [List.append_nil]⟩
  | cons m rest ih =>
      have hMem : m ∈ moves ++ m :: rest := by simp
      have hPlace := List.mem_range.mp
        (hPlaces.subset (List.mem_map_of_mem hMem))
      have hOrigin := List.mem_range.mp
        (hOrigins.subset (List.mem_map_of_mem hMem))
      have hNewPlace : m.1 ∉ moves.map Prod.fst := by
        have hNodup := hPlaces.nodup_iff.mpr List.nodup_range
        rw [List.map_append, List.map_cons] at hNodup
        exact fun hOld =>
          (List.nodup_append.mp hNodup).2.2 _ hOld _
            List.mem_cons_self rfl
      have hNewOrigin : m.2 ∉ moves.map Prod.snd := by
        have hNodup := hOrigins.nodup_iff.mpr List.nodup_range
        rw [List.map_append, List.map_cons] at hNodup
        exact fun hOld =>
          (List.nodup_append.mp hNodup).2.2 _ hOld _
            List.mem_cons_self rfl
      obtain ⟨s, hMove, hNext⟩ :=
        hMoved.move hPlace hOrigin hNewPlace hNewOrigin
      rw [List.append_cons] at hPlaces hOrigins ⊢
      obtain ⟨t, hRest, hLast⟩ := ih hNext hPlaces hOrigins
      refine ⟨t, ?_, hLast⟩
      rw [moveAll?, hMove]
      exact hRest

end Rows

------------------------------------------------------------
-- Shuffles
------------------------------------------------------------

namespace Planning

/-
  The moves of a shuffle: what is fixed stays in its place,
  and loose places are filled in the order that was drawn.
-/
def shuffleMoves (pool : List Chosen) (order : List Nat) :
    List (Nat × Nat) :=
  (fixedPlaces pool).map (fun i => (i, i)) ++
    (loosePlaces pool).zip order

/- The row in which the moves of a shuffle put the children. -/
def rearrange? (pool : List Chosen) (order : List Nat) :
    Option (List (Option Chosen)) :=
  ((Rows.start pool).moveAll? (shuffleMoves pool order)).map
    Rows.target

section Order

variable {pool : List Chosen} {order : List Nat}
variable (hOrder : order.Perm (loosePlaces pool))

include hOrder

theorem shuffleMoves_perm :
    ((shuffleMoves pool order).map Prod.fst).Perm
        (List.range pool.length) ∧
      ((shuffleMoves pool order).map Prod.snd).Perm
        (List.range pool.length) := by
  have hLength := hOrder.length_eq
  have hFixed :
      (fixedPlaces pool).map (Prod.fst ∘ fun i : Nat => (i, i)) =
          fixedPlaces pool ∧
        (fixedPlaces pool).map (Prod.snd ∘ fun i : Nat => (i, i)) =
          fixedPlaces pool :=
    ⟨List.map_id _, List.map_id _⟩
  unfold shuffleMoves
  rw [List.map_append, List.map_append, List.map_map, List.map_map,
    hFixed.1, hFixed.2, List.map_fst_zip (Nat.le_of_eq hLength.symm),
    List.map_snd_zip (Nat.le_of_eq hLength)]
  exact ⟨places_perm pool,
    (hOrder.append_left _).trans (places_perm pool)⟩

/- Every move brings a child where the arrangement has it. -/
theorem arrangedBy_of_mem_moves :
    ∀ m ∈ shuffleMoves pool order,
      (arrangedBy pool order)[m.1]? = pool[m.2]? := by
  intro m hMem
  rcases List.mem_append.mp hMem with hFixed | hLoose
  · obtain ⟨i, hI, rfl⟩ := List.mem_map.mp hFixed
    have hAt := (List.mem_filter.mp hI).2
    obtain ⟨c, hC, hOwn⟩ := (Option.any_eq_true _ _).mp hAt
    exact (fill_fixed hC hOwn _).trans hC.symm
  · have hBoth := map_loosePlaces_arrangedBy hOrder
    obtain ⟨k, hK, hAt⟩ := List.getElem_of_mem hLoose
    have hSame := congrArg (fun xs => xs[k]?) hBoth
    rw [List.length_zip] at hK
    rw [List.getElem_zip] at hAt
    simp only [List.getElem?_map] at hSame
    rw [List.getElem?_eq_getElem (by omega),
      List.getElem?_eq_getElem (by omega), Option.map_some,
      Option.map_some, Option.some_inj] at hSame
    rw [← hAt]
    exact hSame

/-
  All moves go through, and what they leave in the second row
  is the arrangement by the order.
-/
theorem rearrange?_eq :
    rearrange? pool order =
      some ((arrangedBy pool order).map some) := by
  obtain ⟨hPlaces, hOrigins⟩ := shuffleMoves_perm hOrder
  have hAll :
      ∃ r, (Rows.start pool).moveAll? (shuffleMoves pool order) =
          some r ∧
        Rows.Moved pool (shuffleMoves pool order) r :=
    (Rows.moved_start pool).moveAll hPlaces hOrigins
  obtain ⟨r, hRun, hMoved⟩ := hAll
  rw [rearrange?, hRun, Option.map_some, Option.some_inj]
  apply List.ext_getElem?
  intro i
  by_cases hI : i < pool.length
  · obtain ⟨m, hMem, rfl⟩ := List.mem_map.mp
      (hPlaces.symm.subset (List.mem_range.mpr hI))
    rw [hMoved.put m hMem, List.getElem?_map,
      arrangedBy_of_mem_moves hOrder m hMem]
  · have hLength : (arrangedBy pool order).length = pool.length :=
      length_fill pool _
    rw [List.getElem?_eq_none (by rw [hMoved.length]; omega),
      List.getElem?_eq_none (by rw [List.length_map]; omega)]

end Order

open Stateful

/- A shuffle draws an order of the loose places. -/
theorem run_shuffle (children : List Chosen) (tally : Tally) :
    let pool := children.flatMap (Chosen.dissolved scatters)
    let drawn := tally.draws.permutation (loosePlaces pool)
    run (shuffle children) tally =
      (.ok ((arrangedBy pool drawn.1).flatMap
          (Chosen.dissolved travelsUnseen)),
        { tally with draws := drawn.2 }) := by
  intro pool drawn
  have hOrder : drawn.1.Perm (loosePlaces pool) :=
    Draws.permutation_perm _ _
  have hDrawn := Draws.permutation_map tally.draws (pool[·]?)
    (loosePlaces pool)
  rw [map_loosePlaces, Draws.permutation_map, Prod.mk.injEq,
    ← map_order hOrder] at hDrawn
  have hMoved :=
    List.map_injective_iff.mpr (Option.some_injective _) hDrawn.1
  have hRun :
      run (shuffle children) tally =
        (.ok ((fill pool
            (tally.draws.permutation
              (pool.filter fun c => !c.fixed)).1).flatMap
            (Chosen.dissolved travelsUnseen)),
          { tally with
            draws := (tally.draws.permutation
              (pool.filter fun c => !c.fixed)).2 }) :=
    rfl
  rw [hRun, hMoved, hDrawn.2]
  rfl

/-
  Whatever the children are and whatever is drawn, a shuffle
  goes through, and its result is made by an order of the
  loose places; every order can be drawn. What comes out is
  the pool in an arrangement, with unseen sections replaced by
  what they hold: the pool has every child once, or what a
  section holds that is shuffled child by child. By any order,
  an arrangement has each element of the pool exactly once.
  What is fixed stands in its own place, and the other places
  hold what is not fixed, as the order says. The moves between
  the two rows of slots come to this arrangement, and leave no
  slot empty.
-/
theorem shuffle_permutes (children : List Chosen) :
    let pool := children.flatMap (Chosen.dissolved scatters)
    (∀ tally : Tally,
        ∃ order t, order.Perm (loosePlaces pool) ∧
          run (shuffle children) tally =
            (.ok ((arrangedBy pool order).flatMap
              (Chosen.dissolved travelsUnseen)), t)) ∧
      ∀ order : List Nat, order.Perm (loosePlaces pool) →
        (∃ tally t,
          run (shuffle children) tally =
            (.ok ((arrangedBy pool order).flatMap
              (Chosen.dissolved travelsUnseen)), t)) ∧
        rearrange? pool order =
          some ((arrangedBy pool order).map some) ∧
        (arrangedBy pool order).Perm pool ∧
        (∀ (i : Nat) (c : Chosen),
          pool[i]? = some c → c.fixed = true →
            (arrangedBy pool order)[i]? = some c) ∧
        (loosePlaces pool).map ((arrangedBy pool order)[·]?) =
          order.map (pool[·]?) := by
  intro pool
  refine ⟨fun tally => ?_, fun order hOrder => ?_⟩
  · exact ⟨_, _, Draws.permutation_perm _ _,
      run_shuffle children tally⟩
  · refine ⟨?_, rearrange?_eq hOrder, arrangedBy_perm hOrder,
      fun i c hAt hFixed => fill_fixed hAt hFixed _,
      map_loosePlaces_arrangedBy hOrder⟩
    obtain ⟨source, hSource⟩ :=
      Draws.exists_permutation hOrder [] 0
    have hRun := run_shuffle children ⟨⟨source, [], 0⟩, []⟩
    dsimp only at hRun
    rw [hSource] at hRun
    exact ⟨_, _, hRun⟩

/- Of four elements the first and the last one are fixed. -/
theorem shuffle_permutes_between :
    let a : Chosen := .item { plainRef "a" "item" with fixed := true }
    let b : Chosen := .item (plainRef "b" "item")
    let c : Chosen := .item (plainRef "c" "item")
    let d : Chosen := .item { plainRef "d" "item" with fixed := true }
    let scattered : SectionInfo :=
      { plainSection "scattered" with
        visible := false
        keepTogether := false }
    let pool :=
      [a, .group scattered [b, c], d].flatMap
        (Chosen.dissolved scatters)
    [2, 1].Perm (loosePlaces pool) ∧
      rearrange? pool [2, 1] = some [some a, some c, some b, some d] ∧
      (arrangedBy pool [2, 1]).Perm [a, b, c, d] := by
  intro a b c d scattered pool
  have hOrder : [2, 1].Perm (loosePlaces pool) := by decide
  have hEvery := (shuffle_permutes
    [a, .group scattered [b, c], d]).2 [2, 1] hOrder
  exact ⟨hOrder, hEvery.2.1, hEvery.2.2.1⟩

end Planning

end Assessment
