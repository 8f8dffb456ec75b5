import Assessment.Proofs.Expression.Parts
import Assessment.Proofs.Text
import Assessment.Validation.Expressions

/-
  References to variables, as they are evaluated.

  A leaf that refers to a variable finds it, or leaves a note
  that it does not. It finds what its scope declares and what
  suits it. Dotted names are sought among the items that a
  test sees, and lead nowhere only if no item could have the
  variable. They are a matter of variable leaves alone: the
  other leaves take them for plain names.

  Main declarations:
    * `UnresolvedNote`, what is said of names that lead nowhere
    * `Leaf.Finds` and `Leaf.Misses`
    * `Leaf.finds_of_declared` and `Leaf.finds_of_resolve`
    * `Leaf.misses_of_undeclared`, `Leaf.misses_of_unscored`
-/

------------------------------------------------------------
-- Notes
------------------------------------------------------------

namespace Assessment

open Stateful Text

/- What is said of a reference that leads nowhere. -/
inductive UnresolvedNote : String → Prop where
  | undeclared (identifier : String) :
      UnresolvedNote ("undeclared variable '" ++ identifier ++ "'")
  | noDefault (identifier : String) :
      UnresolvedNote
        ("default: undeclared variable '" ++ identifier ++ "'")
  | noCorrect (identifier : String) :
      UnresolvedNote
        ("correct: undeclared response '" ++ identifier ++ "'")
  | noResponse
      (name identifier : String)
      (hName : name ∈ ["mapResponse", "mapResponsePoint"]) :
      UnresolvedNote
        (name ++ ": undeclared response '" ++ identifier ++ "'")
  | noScoring
      (name identifier lacking : String)
      (hName : name ∈ ["mapResponse", "mapResponsePoint"])
      (hLacking : lacking ∈ ["mapping", "area mapping"]) :
      UnresolvedNote
        (name ++ ": response '" ++ identifier ++ "' has no " ++
          lacking)
  | unresolved (text : String) :
      UnresolvedNote ("variable '" ++ text ++ "' does not resolve")

namespace UnresolvedNote

/- How all but the last of them start. -/
def openings : List String :=
  ["undeclared", "default", "correct", "mapResponse"]

/- How the last of them finishes. -/
def closing : String :=
  "' does not resolve"

theorem starts_mapResponse
    {name : String}
    (hName : name ∈ ["mapResponse", "mapResponsePoint"]) :
    Starts "mapResponse" name := by
  simp only [List.mem_cons, List.not_mem_nil, or_false] at hName
  rcases hName with rfl | rfl <;> decide

theorem starts_or_finishes
    {message : String}
    (hNote : UnresolvedNote message) :
    (∃ o ∈ openings, Starts o message) ∨
      Finishes closing message := by
  cases hNote with
  | undeclared identifier =>
      left
      refine ⟨"undeclared", by simp [openings], ?_⟩
      apply Starts.append
      apply Starts.append
      decide
  | noDefault identifier =>
      left
      refine ⟨"default", by simp [openings], ?_⟩
      apply Starts.append
      apply Starts.append
      decide
  | noCorrect identifier =>
      left
      refine ⟨"correct", by simp [openings], ?_⟩
      apply Starts.append
      apply Starts.append
      decide
  | noResponse name identifier hName =>
      left
      refine ⟨"mapResponse", by simp [openings], ?_⟩
      iterate 3 apply Starts.append
      exact starts_mapResponse hName
  | noScoring name identifier lacking hName hLacking =>
      left
      refine ⟨"mapResponse", by simp [openings], ?_⟩
      iterate 4 apply Starts.append
      exact starts_mapResponse hName
  | unresolved text =>
      right
      exact finishes_append _ _

/- What is said of variables that have been found. -/
theorem not_of_variable
    {message : String}
    (ending : String)
    (hStarts : Starts "variable" message)
    (hFinishes : Finishes ending message)
    (hOne : ¬ Finishes ending closing)
    (hOther : ¬ Finishes closing ending) :
    ¬ UnresolvedNote message := by
  intro hNote
  rcases hNote.starts_or_finishes with ⟨o, hMem, hOpens⟩ | hCloses
  · have hApart : ∀ o ∈ openings, Apart o "variable" := by
      decide
    exact (hApart o hMem).not_starts hOpens hStarts
  · exact not_finishes hOne hOther hFinishes hCloses

end UnresolvedNote

/- A note that does not say so of any reference. -/
def Note.Resolved (n : Note) : Prop :=
  ¬ UnresolvedNote n.message

------------------------------------------------------------
-- Leaves
------------------------------------------------------------

/-
  A leaf finds what it refers to: its evaluation goes through
  without a note that a reference leads nowhere.
-/
def Leaf.Finds
    (engine : Engine)
    (scope : Scope)
    (l : Leaf) :
    Prop :=
  Step.Works Note.Resolved True (l.evaluate engine scope)

/-
  A leaf does not find what it refers to: its value is NULL,
  and a warning says that the reference leads nowhere.
-/
def Leaf.Misses
    (engine : Engine)
    (scope : Scope)
    (l : Leaf) :
    Prop :=
  ∃ message, UnresolvedNote message ∧
    l.evaluate engine scope =
      Step.nullWith scope.source message

/- No leaf does both. -/
theorem Leaf.Finds.not_misses
    {engine : Engine}
    {scope : Scope}
    {l : Leaf}
    (hFinds : l.Finds engine scope) :
    ¬ l.Misses engine scope := by
  rintro ⟨message, hNote, hSame⟩
  have hWorks := hFinds ⟨default, []⟩ trivial
  rw [hSame] at hWorks
  rcases hWorks with ⟨_, hAdds, _⟩
  apply hAdds.forall_mem (by simp)
    ⟨.warning, scope.source, message⟩ _ hNote
  exact List.mem_cons_self

variable {engine : Engine}
variable {scope : Scope}
variable {l : Leaf}
variable {identifier : String}

------------------------------------------------------------
-- Declared Variables
------------------------------------------------------------

/- The validator's demands on a declaration are enough. -/
theorem Leaf.finds_of_declared
    {d : Declaration}
    (hName : l.identifier? = some identifier)
    (hDeclared : scope.declaration? identifier = some d)
    (hMet : Expression.unmet? l d = none)
    (hPlain :
      (∃ weight, l = .fetch identifier weight) →
        scope.test = none ∨
          DottedName.parse? identifier = none) :
    l.Finds engine scope := by
  unfold Finds
  cases l with
  | fetch name weight =>
      cases hName
      have hValue : scope.value? identifier =
          some ((scope.values.get? identifier).getD .null) := by
        rw [Scope.value?, hDeclared, Option.map_some]
      rw [evaluate, readVariable, hValue]
      rcases hPlain ⟨weight, rfl⟩ with hNone | hNone
      · rw [hNone]
        exact Step.pure_works _
      · rw [hNone]
        cases scope.test <;> exact Step.pure_works _
  | initial name =>
      cases hName
      rw [evaluate, Scope.default?, hDeclared]
      exact Step.pure_works _
  | correct name =>
      cases hName
      rw [evaluate, Scope.correct?, hDeclared]
      exact Step.pure_works _
  | mapResponse name =>
      cases hName
      rw [evaluate, score, hDeclared]
      cases hMapping : d.mapping? with
      | none => simp [Expression.unmet?, hMapping] at hMet
      | some m =>
          simp only [hMapping]
          exact Step.pure_works _
  | mapPoints name =>
      cases hName
      rw [evaluate, score, hDeclared]
      cases hMapping : d.areaMapping? with
      | none => simp [Expression.unmet?, hMapping] at hMet
      | some m =>
          simp only [hMapping]
          exact Step.pure_works _
  | base v => cases hName
  | null => cases hName
  | randomInteger min max step => cases hName
  | randomFloat min max => cases hName
  | constant c => cases hName
  | items s => cases hName

/- What is not declared has no default and no correct value. -/
theorem Leaf.misses_of_undeclared
    (identifier : String)
    (hLeaf :
      l ∈ [.initial identifier, .correct identifier,
        .mapResponse identifier, .mapPoints identifier])
    (hNone : scope.declaration? identifier = none) :
    l.Misses engine scope := by
  simp only [List.mem_cons, List.not_mem_nil, or_false] at hLeaf
  rcases hLeaf with rfl | rfl | rfl | rfl
  · refine ⟨_, .noDefault identifier, ?_⟩
    rw [evaluate, Scope.default?, hNone]
    rfl
  · refine ⟨_, .noCorrect identifier, ?_⟩
    rw [evaluate, Scope.correct?, hNone]
    rfl
  · refine ⟨_, .noResponse "mapResponse" identifier
      (by simp), ?_⟩
    rw [evaluate, score, hNone]
  · refine ⟨_, .noResponse "mapResponsePoint" identifier
      (by simp), ?_⟩
    rw [evaluate, score, hNone]

/- Without a mapping there is no score. -/
theorem Leaf.misses_of_unscored
    (identifier : String)
    {d : Declaration}
    (hLeaf :
      l ∈ [.mapResponse identifier, .mapPoints identifier])
    (hDeclared : scope.declaration? identifier = some d)
    (hMapping : d.mapping? = none)
    (hAreas : d.areaMapping? = none) :
    l.Misses engine scope := by
  simp only [List.mem_cons, List.not_mem_nil, or_false] at hLeaf
  rcases hLeaf with rfl | rfl
  · refine ⟨_, .noScoring "mapResponse" identifier "mapping"
      (by simp) (by simp), ?_⟩
    rw [evaluate, score, hDeclared]
    simp only [hMapping]
  · refine ⟨_, .noScoring "mapResponsePoint" identifier
      "area mapping" (by simp) (by simp), ?_⟩
    rw [evaluate, score, hDeclared]
    simp only [hAreas]

------------------------------------------------------------
-- Dotted Names
------------------------------------------------------------

/- What is said of instances is that a name leads somewhere. -/
theorem fetchDotted_works
    {relied : Prop}
    {test : TestView}
    {name : DottedName}
    (hResolves :
      test.resolve name.reference name.occurrence
        name.identifier ≠ .unknown)
    (source text : String)
    (weight : Option String) :
    Step.Works Note.Resolved relied
      (fetchDotted source test text weight name) := by
  unfold fetchDotted
  split
  · exact Step.pure_works _
  · apply Works.bind _ fun _ => Step.pure_works _
    apply Step.warn_works
    apply UnresolvedNote.not_of_variable
      " instances, using the first"
    · iterate 6 apply Starts.append
      decide
    · exact finishes_append _ _
    · decide
    · decide
  · apply Step.nullWith_works
    apply UnresolvedNote.not_of_variable "'"
    · iterate 4 apply Starts.append
      decide
    · exact finishes_append _ _
    · decide
    · decide
  next hUnknown => exact absurd hUnknown hResolves

/- A dotted name that resolves is found by variable leaves. -/
theorem Leaf.finds_of_resolve
    {test : TestView}
    {name : DottedName}
    (hTest : scope.test = some test)
    (hDotted : DottedName.parse? identifier = some name)
    (hResolves :
      test.resolve name.reference name.occurrence
        name.identifier ≠ .unknown)
    (weight : Option String) :
    (Leaf.fetch identifier weight).Finds engine scope := by
  unfold Finds
  rw [evaluate, readVariable, hTest, hDotted]
  exact fetchDotted_works hResolves _ _ _

end Assessment
