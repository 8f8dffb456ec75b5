/-
  Entries under names, in rising order of the names.

  A name has at most one entry. Names are compared character
  by character, by code point.

  Key definitions include:
    * `Keyed`, with `get?` and `put`
    * `Keyed.ofList`, where later entries win
    * `sortedNames`, names as a set
-/

------------------------------------------------------------
-- Entries
------------------------------------------------------------

namespace Assessment

/- Entries under names, in rising order. -/
abbrev Keyed (α : Type) := List (String × α)

namespace Keyed

variable {α : Type}

/- The entry under a name. -/
def get? (name : String) : Keyed α → Option α
  | [] => none
  | (k, a) :: rest =>
      if k == name then some a else get? name rest

/- Puts an entry under a name, in place of an earlier one. -/
def put (name : String) (a : α) : Keyed α → Keyed α
  | [] => [(name, a)]
  | (k, b) :: rest =>
      if name < k then (name, a) :: (k, b) :: rest
      else if name == k then (name, a) :: rest
      else (k, b) :: put name a rest

/- The names that have entries. -/
def names (m : Keyed α) : List String :=
  m.map Prod.fst

/- The given entries, of which later ones win. -/
def ofList (entries : List (String × α)) : Keyed α :=
  entries.foldl (fun m (k, a) => put k a m) []

------------------------------------------------------------
-- Laws
------------------------------------------------------------

/- What was put last is found. -/
theorem get?_put_self
    (name : String)
    (a : α)
    (m : Keyed α) :
    get? name (put name a m) = some a := by
  induction m with
  | nil => simp [put, get?]
  | cons e rest ih =>
      obtain ⟨k, b⟩ := e
      by_cases hLt : name < k
      · simp [put, hLt, get?]
      · by_cases hEq : name = k
        · subst hEq
          simp [put, get?]
        · have hNe : ¬ k = name := fun h => hEq h.symm
          simp [put, hLt, hEq, get?, hNe, ih]

/- Other names keep their entries. -/
theorem get?_put_of_ne
    {name other : String}
    (h : other ≠ name)
    (a : α)
    (m : Keyed α) :
    get? other (put name a m) = get? other m := by
  have h' : ¬ name = other := fun e => h e.symm
  induction m with
  | nil => simp [put, get?, h']
  | cons e rest ih =>
      obtain ⟨k, b⟩ := e
      by_cases hLt : name < k
      · simp [put, hLt, get?, h']
      · by_cases hEq : name = k
        · subst hEq
          simp [put, get?, h']
        · simp [put, hLt, hEq, get?, ih]

/- What is found in entries put in a row is one of them. -/
theorem mem_of_get?_foldl
    {entries : List (String × α)}
    {m : Keyed α}
    {name : String}
    {a : α}
    (hFound :
      get? name (entries.foldl (fun m (k, a) => put k a m) m) =
        some a) :
    (name, a) ∈ entries ∨ get? name m = some a := by
  induction entries generalizing m with
  | nil => exact Or.inr hFound
  | cons e rest ih =>
      obtain ⟨k, b⟩ := e
      rcases ih hFound with hLater | hBefore
      · exact Or.inl (List.mem_cons_of_mem _ hLater)
      · by_cases hSame : name = k
        · subst hSame
          rw [get?_put_self] at hBefore
          cases hBefore
          exact Or.inl List.mem_cons_self
        · rw [get?_put_of_ne hSame] at hBefore
          exact Or.inr hBefore

theorem mem_of_get?_ofList
    {entries : List (String × α)}
    {name : String}
    {a : α}
    (hFound : get? name (ofList entries) = some a) :
    (name, a) ∈ entries := by
  rcases mem_of_get?_foldl hFound with hMem | hNone
  · exact hMem
  · cases hNone

/- A name stays when entries are put in a row. -/
theorem isSome_get?_foldl
    {entries : List (String × α)}
    {m : Keyed α}
    {name : String}
    (hNamed :
      name ∈ entries.map Prod.fst ∨
        (get? name m).isSome = true) :
    (get? name
      (entries.foldl (fun m (k, a) => put k a m) m)).isSome =
        true := by
  induction entries generalizing m with
  | nil => simpa using hNamed
  | cons e rest ih =>
      obtain ⟨k, b⟩ := e
      refine ih ?_
      by_cases hSame : name = k
      · subst hSame
        exact Or.inr (by rw [get?_put_self]; rfl)
      · rw [get?_put_of_ne hSame]
        simpa [hSame] using hNamed

/- Every name of the entries is found. -/
theorem isSome_get?_ofList
    {entries : List (String × α)}
    {name : String}
    (hNamed : name ∈ entries.map Prod.fst) :
    (get? name (ofList entries)).isSome = true :=
  isSome_get?_foldl (Or.inl hNamed)

end Keyed

/- Names in rising order, none of them twice. -/
def sortedNames (names : List String) : List String :=
  (Keyed.ofList (names.map fun name => (name, ()))).names

end Assessment
