import Assessment.Proofs.Rule.Deeds

/-
  Rules that have been read.

  Rules are read from data trees, with rules inside them at
  several places. Every expression in them, however deep, has
  been read from a part of the tree.

  Main declarations:
    * `Json.Inherits`, what holds of all trees
    * `Rule.AllRead`, rules whose expressions have been read
    * `Rule.isRead_of_listOfJson`
-/

------------------------------------------------------------
-- Trees
------------------------------------------------------------

namespace Assessment

namespace Json

variable {P : Json → Prop}

/- What passes to a tree from the trees directly inside. -/
structure Inherits (P : Json → Prop) : Prop where
  null : P .null
  bool : ∀ b, P (.bool b)
  number : ∀ n, P (.number n)
  string : ∀ s, P (.string s)
  array : ∀ xs, (∀ x ∈ xs, P x) → P (.array xs)
  object :
    ∀ ms : List (String × Json),
      (∀ m ∈ ms, P m.2) → P (.object ms)

mutual

/- It passes to every tree. -/
theorem Inherits.holds (hPasses : Inherits P) (j : Json) : P j := by
  match j with
  | .null => exact hPasses.null
  | .bool b => exact hPasses.bool b
  | .number n => exact hPasses.number n
  | .string s => exact hPasses.string s
  | .array xs => exact hPasses.array xs (hPasses.elements xs)
  | .object ms => exact hPasses.object ms (hPasses.members ms)

theorem Inherits.elements
    (hPasses : Inherits P)
    (xs : List Json) :
    ∀ x ∈ xs, P x := by
  match xs with
  | [] =>
      intro x hMem
      cases hMem
  | y :: rest =>
      rw [List.forall_mem_cons]
      exact ⟨hPasses.holds y, hPasses.elements rest⟩

theorem Inherits.members
    (hPasses : Inherits P)
    (ms : List (String × Json)) :
    ∀ m ∈ ms, P m.2 := by
  match ms with
  | [] =>
      intro m hMem
      cases hMem
  | (k, v) :: rest =>
      rw [List.forall_mem_cons]
      exact ⟨hPasses.holds v, hPasses.members rest⟩

end

end Json

------------------------------------------------------------
-- Rules
------------------------------------------------------------

namespace Rule

/- The expressions of rules in a row have been read. -/
def AllRead (rules : List Rule) : Prop :=
  ∀ d ∈ deedsIn rules, d.expression.IsRead

/- The condition and the rules of a branch have been read. -/
def BranchRead (b : Expression × List Rule) : Prop :=
  b.1.IsRead ∧ AllRead b.2

/- What a tree is read as has been read. -/
structure ReadsWell (j : Json) : Prop where
  rule :
    ∀ r, ofJson j = .ok r → ∀ d ∈ r.deeds, d.expression.IsRead
  rules : ∀ rules, rulesOfJson j = .ok rules → AllRead rules
  branch :
    ∀ name b, branchOfJson name j = .ok b → BranchRead b
  others :
    ∀ bs, othersOfJson j = .ok bs → ∀ b ∈ bs, BranchRead b
  last :
    ∀ rules, lastOfJson j = .ok (some rules) → AllRead rules

theorem allRead_nil : AllRead [] := by
  intro d hMem
  cases hMem

theorem allRead_cons
    {r : Rule}
    {rules : List Rule} :
    AllRead (r :: rules) ↔
      (∀ d ∈ r.deeds, d.expression.IsRead) ∧
        AllRead rules := by
  simp only [AllRead, deedsIn, List.forall_mem_append]

/- An expression of a rule is read from a member. -/
theorem isRead_of_expressionOfJson
    {owner : String}
    {v : Json}
    {e : Expression}
    (hRead : expressionOfJson owner v = .ok e) :
    e.IsRead := by
  unfold expressionOfJson at hRead
  split at hRead
  · exact ⟨_, hRead⟩
  · cases hRead

/- The branches of a chain have been read. -/
theorem chainDeeds_chainOf
    {last : Option (List Rule)}
    {branches : List (Expression × List Rule)}
    (hLast : ∀ rules, last = some rules → AllRead rules)
    (hBranches : ∀ b ∈ branches, BranchRead b) :
    ∀ d ∈ chainDeeds (chainOf last branches),
      d.expression.IsRead := by
  induction branches with
  | nil =>
      cases last with
      | none =>
          intro d hMem
          simp [chainOf, chainDeeds] at hMem
      | some rules =>
          simp only [chainOf, chainDeeds]
          exact hLast rules rfl
  | cons b rest ih =>
      obtain ⟨test, rules⟩ := b
      rw [List.forall_mem_cons] at hBranches
      obtain ⟨⟨hTest, hRules⟩, hRest⟩ := hBranches
      simp only [chainOf, chainDeeds, List.forall_mem_cons,
        List.forall_mem_append]
      exact ⟨hTest, hRules, ih hRest⟩

/- The parts of a rule have been read. -/
structure Parts.Read (parts : Parts) : Prop where
  rules : ∀ rules, parts.rules = .ok rules → AllRead rules
  first : ∀ b, parts.first = .ok b → BranchRead b
  others :
    ∀ bs, parts.others = .ok bs → ∀ b ∈ bs, BranchRead b
  last :
    ∀ rules, parts.last = .ok (some rules) → AllRead rules

/- A rule has been read with all its parts. -/
theorem isRead_of_assemble
    {v : Json}
    {parts : Parts}
    {r : Rule}
    (hParts : parts.Read)
    (hRead : assemble v parts = .ok r) :
    ∀ d ∈ r.deeds, d.expression.IsRead := by
  unfold assemble at hRead
  split at hRead
  next => cases hRead
  next name _ =>
    split at hRead
    next kind _ _ _ =>
      split at hRead
      next => cases hRead
      next =>
        rw [bind_eq_ok_iff] at hRead
        obtain ⟨⟨test, rules⟩, hFirst, hThen⟩ := hRead
        rw [bind_eq_ok_iff] at hThen
        obtain ⟨others, hOthers, hThen⟩ := hThen
        rw [bind_eq_ok_iff] at hThen
        obtain ⟨last, hLast, hSame⟩ := hThen
        cases hSame
        obtain ⟨hTest, hRules⟩ := hParts.first _ hFirst
        simp only [deeds, List.forall_mem_cons,
          List.forall_mem_append]
        refine ⟨hTest, hRules, ?_⟩
        apply chainDeeds_chainOf
        · rintro rules' rfl
          exact hParts.last rules' hLast
        · exact hParts.others others hOthers
    next target _ _ _ =>
      rw [bind_eq_ok_iff] at hRead
      obtain ⟨identifier, _, hThen⟩ := hRead
      rw [bind_eq_ok_iff] at hThen
      obtain ⟨e, hExpression, hSame⟩ := hThen
      cases hSame
      simp only [deeds, List.forall_mem_singleton]
      exact isRead_of_expressionOfJson hExpression
    next kind _ _ =>
      cases hRead
      intro d hMem
      simp [deeds] at hMem
    next kind _ =>
      rw [bind_eq_ok_iff] at hRead
      obtain ⟨rules, hRules, hSame⟩ := hRead
      cases hSame
      rw [deeds]
      exact hParts.rules rules hRules
    next =>
      split at hRead
      next =>
        rw [bind_eq_ok_iff] at hRead
        obtain ⟨identifier, _, hThen⟩ := hRead
        rw [bind_eq_ok_iff] at hThen
        obtain ⟨e, hExpression, hSame⟩ := hThen
        cases hSame
        simp only [deeds, List.forall_mem_singleton]
        exact isRead_of_expressionOfJson hExpression
      next =>
        split at hRead
        next =>
          rw [bind_eq_ok_iff] at hRead
          obtain ⟨e, hExpression, hSame⟩ := hRead
          cases hSame
          simp only [deeds, List.forall_mem_singleton]
          exact isRead_of_expressionOfJson hExpression
        next => cases hRead

/- A rule without rules inside has no parts to be read. -/
theorem isRead_of_assembleAlone
    {v : Json}
    {r : Rule}
    (hRead : assembleAlone v = .ok r) :
    ∀ d ∈ r.deeds, d.expression.IsRead := by
  apply isRead_of_assemble _ hRead
  constructor
  · intro rules hSame
    cases hSame
    exact allRead_nil
  · intro b hSame
    cases hSame
  · intro bs hSame
    cases hSame
    simp
  · intro rules hSame
    cases hSame

------------------------------------------------------------
-- Members
------------------------------------------------------------

theorem allRead_of_rulesOfMembers
    {ms : List (String × Json)}
    (hMembers : ∀ m ∈ ms, ReadsWell m.2)
    {rules : List Rule}
    (hRead : rulesOfMembers ms = .ok rules) :
    AllRead rules := by
  induction ms with
  | nil =>
      rw [rulesOfMembers] at hRead
      cases hRead
      exact allRead_nil
  | cons m ms ih =>
      obtain ⟨k, v⟩ := m
      rw [List.forall_mem_cons] at hMembers
      rw [rulesOfMembers] at hRead
      split at hRead
      · exact hMembers.1.rules rules hRead
      · exact ih hMembers.2 hRead

theorem branchRead_of_firstOfMembers
    {ms : List (String × Json)}
    (hMembers : ∀ m ∈ ms, ReadsWell m.2)
    {b : Expression × List Rule}
    (hRead : firstOfMembers ms = .ok b) :
    BranchRead b := by
  induction ms with
  | nil =>
      rw [firstOfMembers] at hRead
      cases hRead
  | cons m ms ih =>
      obtain ⟨k, v⟩ := m
      rw [List.forall_mem_cons] at hMembers
      rw [firstOfMembers] at hRead
      split at hRead
      · exact hMembers.1.branch "if" b hRead
      · exact ih hMembers.2 hRead

theorem branchRead_of_othersOfMembers
    {ms : List (String × Json)}
    (hMembers : ∀ m ∈ ms, ReadsWell m.2)
    {bs : List (Expression × List Rule)}
    (hRead : othersOfMembers ms = .ok bs) :
    ∀ b ∈ bs, BranchRead b := by
  induction ms with
  | nil =>
      rw [othersOfMembers] at hRead
      cases hRead
      simp
  | cons m ms ih =>
      obtain ⟨k, v⟩ := m
      rw [List.forall_mem_cons] at hMembers
      rw [othersOfMembers] at hRead
      split at hRead
      · exact hMembers.1.others bs hRead
      · exact ih hMembers.2 hRead

theorem allRead_of_lastOfMembers
    {ms : List (String × Json)}
    (hMembers : ∀ m ∈ ms, ReadsWell m.2)
    {rules : List Rule}
    (hRead : lastOfMembers ms = .ok (some rules)) :
    AllRead rules := by
  induction ms with
  | nil =>
      rw [lastOfMembers] at hRead
      cases hRead
  | cons m ms ih =>
      obtain ⟨k, v⟩ := m
      rw [List.forall_mem_cons] at hMembers
      rw [lastOfMembers] at hRead
      split at hRead
      · exact hMembers.1.last rules hRead
      · exact ih hMembers.2 hRead

------------------------------------------------------------
-- Elements
------------------------------------------------------------

theorem allRead_of_listOfJson
    {xs : List Json}
    (hElements : ∀ x ∈ xs, ReadsWell x)
    {rules : List Rule}
    (hRead : listOfJson xs = .ok rules) :
    AllRead rules := by
  induction xs generalizing rules with
  | nil =>
      rw [listOfJson] at hRead
      cases hRead
      exact allRead_nil
  | cons x xs ih =>
      rw [List.forall_mem_cons] at hElements
      rw [listOfJson, bind_eq_ok_iff] at hRead
      obtain ⟨r, hFirst, hThen⟩ := hRead
      rw [bind_eq_ok_iff] at hThen
      obtain ⟨rest, hRest, hSame⟩ := hThen
      cases hSame
      rw [allRead_cons]
      exact ⟨hElements.1.rule r hFirst, ih hElements.2 hRest⟩

theorem branchRead_of_branchesOfJson
    {xs : List Json}
    (hElements : ∀ x ∈ xs, ReadsWell x)
    {bs : List (Expression × List Rule)}
    (hRead : branchesOfJson xs = .ok bs) :
    ∀ b ∈ bs, BranchRead b := by
  induction xs generalizing bs with
  | nil =>
      rw [branchesOfJson] at hRead
      cases hRead
      simp
  | cons x xs ih =>
      rw [List.forall_mem_cons] at hElements
      rw [branchesOfJson, bind_eq_ok_iff] at hRead
      obtain ⟨b, hFirst, hThen⟩ := hRead
      rw [bind_eq_ok_iff] at hThen
      obtain ⟨rest, hRest, hSame⟩ := hThen
      cases hSame
      rw [List.forall_mem_cons]
      exact ⟨hElements.1.branch "elseIf" b hFirst,
        ih hElements.2 hRest⟩

------------------------------------------------------------
-- All Trees
------------------------------------------------------------

/- A tree that is no object and no list holds no rules. -/
theorem readsWell_of_plain
    {j : Json}
    (hRule :
      ∀ r, ofJson j = .ok r → assembleAlone j = .ok r)
    (hRules : ∀ rules, rulesOfJson j = .ok rules → rules = [])
    (hBranch : ∀ name b, branchOfJson name j ≠ .ok b)
    (hOthers : ∀ bs, othersOfJson j = .ok bs → bs = [])
    (hLast :
      ∀ rules, lastOfJson j = .ok (some rules) → rules = []) :
    ReadsWell j where
  rule r hRead := isRead_of_assembleAlone (hRule r hRead)
  rules rules hRead := by
    rw [hRules rules hRead]
    exact allRead_nil
  branch name b hRead := absurd hRead (hBranch name b)
  others bs hRead := by
    rw [hOthers bs hRead]
    simp
  last rules hRead := by
    rw [hLast rules hRead]
    exact allRead_nil

theorem readsWell (j : Json) : ReadsWell j := by
  apply Json.Inherits.holds
  constructor
  · apply readsWell_of_plain <;>
      simp [ofJson, rulesOfJson, branchOfJson, othersOfJson,
        lastOfJson, eq_comm]
  · intro b
    apply readsWell_of_plain <;>
      simp [ofJson, rulesOfJson, branchOfJson, othersOfJson,
        lastOfJson, eq_comm]
  · intro n
    apply readsWell_of_plain <;>
      simp [ofJson, rulesOfJson, branchOfJson, othersOfJson,
        lastOfJson, eq_comm]
  · intro s
    apply readsWell_of_plain <;>
      simp [ofJson, rulesOfJson, branchOfJson, othersOfJson,
        lastOfJson, eq_comm]
  · intro xs hElements
    constructor
    · intro r hRead
      rw [ofJson] at hRead
      exact isRead_of_assembleAlone hRead
    · intro rules hRead
      rw [rulesOfJson] at hRead
      exact allRead_of_listOfJson hElements hRead
    · intro name b hRead
      simp [branchOfJson] at hRead
    · intro bs hRead
      rw [othersOfJson] at hRead
      exact branchRead_of_branchesOfJson hElements hRead
    · intro rules hRead
      simp only [lastOfJson] at hRead
      cases hRead
      exact allRead_nil
  · intro ms hMembers
    constructor
    · intro r hRead
      rw [ofJson] at hRead
      apply isRead_of_assemble _ hRead
      exact
        { rules := fun _ => allRead_of_rulesOfMembers hMembers
          first := fun _ => branchRead_of_firstOfMembers hMembers
          others := fun _ =>
            branchRead_of_othersOfMembers hMembers
          last := fun _ => allRead_of_lastOfMembers hMembers }
    · intro rules hRead
      simp [rulesOfJson] at hRead
    · intro name b hRead
      rw [branchOfJson, bind_eq_ok_iff] at hRead
      obtain ⟨test, hTest, hThen⟩ := hRead
      rw [bind_eq_ok_iff] at hThen
      obtain ⟨rules, hRules, hSame⟩ := hThen
      cases hSame
      exact ⟨isRead_of_expressionOfJson hTest,
        allRead_of_rulesOfMembers hMembers hRules⟩
    · intro bs hRead
      simp [othersOfJson] at hRead
    · intro rules hRead
      rw [lastOfJson, bind_eq_ok_iff] at hRead
      obtain ⟨rules', hRules, hSame⟩ := hRead
      cases hSame
      exact allRead_of_rulesOfMembers hMembers hRules

/- Every expression in rules that have been read was read. -/
theorem isRead_of_listOfJson
    {js : List Json}
    {rules : List Rule}
    (hRead : listOfJson js = .ok rules) :
    ∀ d ∈ deedsIn rules, d.expression.IsRead :=
  allRead_of_listOfJson (fun j _ => readsWell j) hRead

end Rule

end Assessment
