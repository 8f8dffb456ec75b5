import Assessment.Keyed
import Mathlib.Data.List.Forall2
import Mathlib.Data.String.Basic

/-
  Entries whose names rise.

  Entries are put in at the place that the order of the names
  gives them, so their list says no more than what is found
  under which name. Two such lists in which the same is found
  are the same.

  Main declarations:
    * `Keyed.Rising`, kept by `put`
    * `Keyed.Rising.ext`
    * `forall₂_symm` and `forall₂_trans`, lists that are
      related entry by entry
-/

------------------------------------------------------------
-- Order
------------------------------------------------------------

namespace Assessment

namespace Keyed

variable {α : Type}
variable {m n : Keyed α}

/- The names rise from entry to entry. -/
def Rising (m : Keyed α) : Prop :=
  m.Pairwise fun e f => e.1 < f.1

theorem rising_nil : Rising ([] : Keyed α) :=
  List.Pairwise.nil

/- An entry is the one that was put, or was there before. -/
theorem mem_put
    {name : String}
    {a : α}
    {e : String × α}
    (hMem : e ∈ put name a m) :
    e = (name, a) ∨ e ∈ m := by
  induction m with
  | nil => exact Or.inl (List.mem_singleton.mp hMem)
  | cons f rest ih =>
      obtain ⟨k, b⟩ := f
      unfold put at hMem
      split at hMem
      · exact List.mem_cons.mp hMem
      · split at hMem <;> grind

/- No value is put that is not in the entries. -/
theorem mem_of_mem_foldl
    {entries : List (String × α)}
    {m : Keyed α}
    {e : String × α}
    (hMem : e ∈ entries.foldl (fun m (k, a) => put k a m) m) :
    e ∈ entries ∨ e ∈ m := by
  induction entries generalizing m with
  | nil => exact .inr hMem
  | cons f rest ih =>
      rcases ih hMem with hLater | hPut
      · exact .inl (List.mem_cons_of_mem f hLater)
      · rcases mem_put hPut with rfl | hBefore
        · exact .inl List.mem_cons_self
        · exact .inr hBefore

theorem mem_of_mem_ofList
    {entries : List (String × α)}
    {e : String × α}
    (hMem : e ∈ ofList entries) :
    e ∈ entries := by
  rcases mem_of_mem_foldl hMem with hGiven | hNone
  · exact hGiven
  · cases hNone

/- An entry is put where its name belongs. -/
theorem Rising.put
    (hRising : m.Rising)
    (name : String)
    (a : α) :
    (m.put name a).Rising := by
  induction m with
  | nil => exact List.pairwise_singleton _ _
  | cons f rest ih =>
      obtain ⟨k, b⟩ := f
      obtain ⟨hBelow, hRest⟩ := List.pairwise_cons.mp hRising
      unfold Keyed.put
      split
      next hLt =>
        apply List.Pairwise.cons _ hRising
        intro e hMem
        rcases List.mem_cons.mp hMem with rfl | hLater
        · exact hLt
        · exact lt_trans hLt (hBelow e hLater)
      next hNotLt =>
        split
        next hEq =>
          have hSame : name = k := by simpa using hEq
          subst hSame
          exact List.Pairwise.cons hBelow hRest
        next hNe =>
          have hOther : k ≠ name := by
            intro h
            simp [h] at hNe
          apply List.Pairwise.cons _ (ih hRest)
          intro e hMem
          rcases mem_put hMem with rfl | hBefore
          · exact lt_of_le_of_ne (not_lt.mp hNotLt) hOther
          · exact hBelow e hBefore

/- What is found is an entry. -/
theorem mem_of_get?
    {name : String}
    {a : α}
    (hFound : m.get? name = some a) :
    (name, a) ∈ m := by
  induction m with
  | nil => cases hFound
  | cons f rest ih =>
      obtain ⟨k, b⟩ := f
      unfold get? at hFound
      split at hFound
      next hSame =>
        have hName : k = name := by simpa using hSame
        cases hFound
        subst hName
        exact List.mem_cons_self
      next => exact List.mem_cons_of_mem _ (ih hFound)

/- A name of an entry is found. -/
theorem isSome_get?_iff
    (m : Keyed α)
    (name : String) :
    (m.get? name).isSome = true ↔ name ∈ m.names := by
  induction m with
  | nil => simp [get?, names]
  | cons e rest ih =>
      obtain ⟨k, a⟩ := e
      by_cases hSame : k = name
      · simp [get?, names, hSame]
      · have hOther : ¬ name = k := fun h => hSame h.symm
        simpa [get?, names, hSame, hOther] using ih

/- Below all names nothing is found. -/
theorem get?_of_below
    {name : String}
    (hBelow : ∀ e ∈ m, name < e.1) :
    m.get? name = none := by
  cases hFound : m.get? name with
  | none => rfl
  | some a =>
      exact absurd (hBelow _ (mem_of_get? hFound))
        (lt_irrefl name)

/-
  Rising entries in which the same is found are the same: the
  first names are equal, as neither stands behind the other.
-/
theorem Rising.ext
    (hFirst : m.Rising)
    (hSecond : n.Rising)
    (hSame : ∀ name, m.get? name = n.get? name) :
    m = n := by
  induction m generalizing n with
  | nil =>
      cases n with
      | nil => rfl
      | cons f rest =>
          have hHead := hSame f.1
          simp [get?] at hHead
  | cons e rest ih =>
      obtain ⟨k, a⟩ := e
      obtain ⟨hBelow, hRest⟩ := List.pairwise_cons.mp hFirst
      have hFound : n.get? k = some a := by
        rw [← hSame k]
        simp [get?]
      cases n with
      | nil => cases hFound
      | cons f others =>
          obtain ⟨l, b⟩ := f
          obtain ⟨hAbove, hOthers⟩ :=
            List.pairwise_cons.mp hSecond
          have hBack : get? l ((k, a) :: rest) = some b := by
            rw [hSame l]
            simp [get?]
          have hHead : (k, a) = (l, b) := by
            rcases List.mem_cons.mp (mem_of_get? hFound) with
              hEq | hLater
            · exact hEq
            rcases List.mem_cons.mp (mem_of_get? hBack) with
              hEq | hLater'
            · exact hEq.symm
            · exact absurd (hBelow _ hLater')
                (lt_asymm (hAbove _ hLater))
          cases hHead
          congr 1
          apply ih hRest hOthers
          intro name
          by_cases hName : k = name
          · subst hName
            rw [get?_of_below hBelow, get?_of_below hAbove]
          · have hTail := hSame name
            simpa [get?, hName] using hTail

end Keyed

------------------------------------------------------------
-- Lists Side by Side
------------------------------------------------------------

variable {γ : Type}
variable {S : γ → γ → Prop}
variable {xs ys zs : List γ}

/- Lists that are related in a row are related. -/
theorem forall₂_trans
    (hTrans : ∀ a b c, S a b → S b c → S a c)
    (hFirst : List.Forall₂ S xs ys)
    (hThen : List.Forall₂ S ys zs) :
    List.Forall₂ S xs zs := by
  induction hFirst generalizing zs with
  | nil =>
      cases hThen
      exact .nil
  | cons hHead _ ih =>
      cases hThen with
      | cons hHead' hTail' =>
          exact .cons (hTrans _ _ _ hHead hHead') (ih hTail')

theorem forall₂_symm
    (hSymm : ∀ a b, S a b → S b a)
    (hAll : List.Forall₂ S xs ys) :
    List.Forall₂ S ys xs :=
  (hAll.imp fun a b => hSymm a b).flip

end Assessment
