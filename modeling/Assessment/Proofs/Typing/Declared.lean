import Assessment.Proofs.Typing.Scope
import Assessment.Test.Reader

/-
  Declarations that go together.

  Among declarations that go together every one is found under
  its own identifier, and a built-in variable that is declared
  again keeps its type, so that a session may go on writing
  it. Items and tests that have been read have declarations of
  the right families.

  Main declarations:
    * `WellDeclared`, declarations that go together
    * `Item.IsBuilt` and `Test.IsBuilt`, what reading them
      ensures
    * `Item.WellDeclared` and `Test.WellDeclared`
-/

------------------------------------------------------------
-- Declarations Together
------------------------------------------------------------

namespace Assessment

/- Each is sound and found, and built-in ones keep types. -/
structure WellDeclared
    (declarations builtins : List Declaration) :
    Prop where
  sound : ∀ d ∈ declarations, d.Sound
  found :
    ∀ d ∈ declarations,
      findDeclaration? declarations d.identifier = some d
  builtin :
    ∀ b ∈ builtins, ∀ d,
      findDeclaration? declarations b.identifier = some d →
        d.cardinality = b.cardinality ∧
          d.baseType = b.baseType

/- What a built-in variable takes may be written to it. -/
theorem WellDeclared.accepts
    {declarations builtins : List Declaration}
    (hDeclared : WellDeclared declarations builtins)
    {b : Declaration}
    (hBuiltin : b ∈ builtins)
    {v : Value}
    (hAccepts : b.accepts v = true) :
    ∀ d,
      findDeclaration? declarations b.identifier = some d →
        d.accepts v = true := by
  intro d hFound
  rcases hDeclared.builtin b hBuiltin d hFound with
    ⟨hCardinality, hType⟩
  unfold Declaration.accepts at hAccepts ⊢
  rw [hCardinality, hType]
  exact hAccepts

/- Under distinct identifiers every declaration is found. -/
theorem findDeclaration?_of_mem
    {declarations : List Declaration}
    (hDistinct :
      (declarations.map Declaration.identifier).Nodup)
    {d : Declaration}
    (hMem : d ∈ declarations) :
    findDeclaration? declarations d.identifier = some d := by
  induction declarations with
  | nil => cases hMem
  | cons first rest ih =>
      rw [List.map_cons, List.nodup_cons] at hDistinct
      unfold findDeclaration? at ih ⊢
      rw [List.find?_cons]
      rcases List.mem_cons.mp hMem with rfl | hRest
      · simp
      · have hOther : first.identifier ≠ d.identifier := by
          intro hSame
          exact hDistinct.1
            (hSame ▸ List.mem_map_of_mem hRest)
        simp only [beq_eq_false_iff_ne.mpr hOther]
        exact ih hDistinct.2 hRest

/- What an author declares of a family of built-in names. -/
structure Declaration.IsAuthored
    (builtins : List Declaration)
    (d : Declaration) :
    Prop where
  built : d.IsBuilt
  single : d.table?.isSome = true → d.cardinality = .single
  builtin :
    ∀ b ∈ builtins, b.identifier = d.identifier →
      d.kind = b.kind ∧ d.cardinality = b.cardinality ∧
        d.baseType = b.baseType

/-
  Distinct declarations go together with built-in ones under
  names that are still free.
-/
theorem wellDeclared_append
    {authored added builtins : List Declaration}
    (hAuthored : ∀ d ∈ authored, d.IsAuthored builtins)
    (hAdded : added.Sublist builtins)
    (hBuiltins :
      ∀ b ∈ builtins, b.IsBuilt ∧ b.table? = none)
    (hNames : (builtins.map Declaration.identifier).Nodup)
    (hDistinct : (authored.map Declaration.identifier).Nodup)
    (hFree :
      ∀ b ∈ added, ∀ d ∈ authored,
        d.identifier ≠ b.identifier) :
    WellDeclared (authored ++ added) builtins := by
  have hAll :
      ((authored ++ added).map
        Declaration.identifier).Nodup := by
    rw [List.map_append, List.nodup_append]
    refine ⟨hDistinct, (hAdded.map _).nodup hNames, ?_⟩
    intro name hOwn other hOther
    rcases List.mem_map.mp hOwn with ⟨d, hD, rfl⟩
    rcases List.mem_map.mp hOther with ⟨b, hB, rfl⟩
    exact hFree b hB d hD
  refine ⟨?_, fun d hMem => findDeclaration?_of_mem hAll hMem,
    ?_⟩
  · intro d hMem
    rcases List.mem_append.mp hMem with hOwn | hOther
    · exact (hAuthored d hOwn).built.sound
        (hAuthored d hOwn).single
    · rcases hBuiltins d (hAdded.subset hOther) with
        ⟨hBuilt, hTable⟩
      exact hBuilt.sound (by simp [hTable])
  · intro b hB d hFound
    rcases mem_of_findDeclaration? hFound with ⟨hMem, hSame⟩
    rcases List.mem_append.mp hMem with hOwn | hOther
    · exact ((hAuthored d hOwn).builtin b hB hSame.symm).2
    · have hFirst :=
        findDeclaration?_of_mem hNames (hAdded.subset hOther)
      rw [hSame, findDeclaration?_of_mem hNames hB] at hFirst
      cases hFirst
      exact ⟨rfl, rfl⟩

------------------------------------------------------------
-- Reading
------------------------------------------------------------

namespace Declaration

/- A declaration is of the family that it is read for. -/
theorem kind_of_ofJson
    {kind : VariableKind}
    {v : Json}
    {d : Declaration}
    (hRead : ofJson kind v = .ok d) :
    d.kind = kind := by
  have hDetail := (parts_of_ofJson hRead).2
  unfold Declaration.kind
  cases kind with
  | response =>
      rcases bind_eq_ok_iff.mp hDetail with ⟨_, _, hRest⟩
      rcases bind_eq_ok_iff.mp hRest with ⟨_, _, hRest⟩
      rcases bind_eq_ok_iff.mp hRest with ⟨_, _, hEnd⟩
      rw [← Except.ok.inj hEnd]
  | outcome =>
      rcases bind_eq_ok_iff.mp hDetail with ⟨_, _, hEnd⟩
      rw [← Except.ok.inj hEnd]
  | template => rw [← Except.ok.inj hDetail]

theorem exists_of_mem_listOfJson
    {kind : VariableKind}
    {vs : List Json}
    {ds : List Declaration}
    (hRead : listOfJson kind vs = .ok ds) :
    ∀ d ∈ ds, ∃ v, ofJson kind v = .ok d := by
  induction vs generalizing ds with
  | nil =>
      cases hRead
      simp
  | cons v vs ih =>
      rw [listOfJson, bind_eq_ok_iff] at hRead
      rcases hRead with ⟨d, hFirst, hRest⟩
      rw [bind_eq_ok_iff] at hRest
      rcases hRest with ⟨ds', hRest, hAll⟩
      cases hAll
      intro e hMem
      rcases List.mem_cons.mp hMem with rfl | hLater
      · exact ⟨v, hFirst⟩
      · exact ih hRest e hLater

end Declaration

/- What reading an item ensures of its declarations. -/
structure Item.IsBuilt (i : Item) : Prop where
  responses :
    ∀ d ∈ i.responses, ∃ v,
      Declaration.ofJson .response v = .ok d
  outcomes :
    ∀ d ∈ i.outcomes, ∃ v,
      Declaration.ofJson .outcome v = .ok d
  templates :
    ∀ d ∈ i.templates, ∃ v,
      Declaration.ofJson .template v = .ok d

theorem Item.IsBuilt.isBuilt
    {i : Item}
    (hBuilt : i.IsBuilt)
    (d : Declaration)
    (hMem : d ∈ i.responses ++ i.outcomes ++ i.templates) :
    d.IsBuilt := by
  simp only [List.mem_append] at hMem
  rcases hMem with (hMem | hMem) | hMem
  · rcases hBuilt.responses d hMem with ⟨v, hRead⟩
    exact .read .response v d hRead
  · rcases hBuilt.outcomes d hMem with ⟨v, hRead⟩
    exact .read .outcome v d hRead
  · rcases hBuilt.templates d hMem with ⟨v, hRead⟩
    exact .read .template v d hRead

/- What reading a test ensures of its declarations. -/
def Test.IsBuilt (t : Test) : Prop :=
  ∀ d ∈ t.outcomes, ∃ v, Declaration.ofJson .outcome v = .ok d

theorem Item.isBuilt_of_build
    {document : ItemDocument}
    {i : Item}
    (hBuild : build document = .ok i) :
    i.IsBuilt := by
  rcases bind_eq_ok_iff.mp hBuild with ⟨_, hResponses, hRest⟩
  rcases bind_eq_ok_iff.mp hRest with ⟨_, hOutcomes, hRest⟩
  rcases bind_eq_ok_iff.mp hRest with ⟨_, hTemplates, hRest⟩
  rcases bind_eq_ok_iff.mp hRest with ⟨_, _, hRest⟩
  rcases bind_eq_ok_iff.mp hRest with ⟨_, _, hEnd⟩
  cases hEnd
  exact ⟨Declaration.exists_of_mem_listOfJson hResponses,
    Declaration.exists_of_mem_listOfJson hOutcomes,
    Declaration.exists_of_mem_listOfJson hTemplates⟩

theorem Test.isBuilt_of_build
    {document : TestDocument}
    {t : Test}
    (hBuild : build document = .ok t) :
    t.IsBuilt := by
  rcases bind_eq_ok_iff.mp hBuild with ⟨_, hOutcomes, hRest⟩
  rcases bind_eq_ok_iff.mp hRest with ⟨_, _, hRest⟩
  rcases bind_eq_ok_iff.mp hRest with ⟨_, _, hRest⟩
  rcases bind_eq_ok_iff.mp hRest with ⟨_, _, hEnd⟩
  cases hEnd
  exact Declaration.exists_of_mem_listOfJson hOutcomes

/- A document that is built is built before it is named. -/
theorem ok_of_mapError
    {α : Type}
    {x : Except Failure α}
    {f : Failure → Failure}
    {a : α}
    (hOk : x.mapError f = .ok a) :
    x = .ok a := by
  cases x with
  | error e => cases hOk
  | ok b =>
      cases hOk
      rfl

------------------------------------------------------------
-- Items and Tests
------------------------------------------------------------

/- The built-in variables of an item and of a test. -/
def Builtin.ofItem : List Declaration :=
  [completionDeclaration, attemptsDeclaration,
   durationDeclaration]

def Builtin.ofTest : List Declaration :=
  [testDurationDeclaration]

theorem Builtin.isBuilt_of_mem_ofItem
    (b : Declaration)
    (hMem : b ∈ ofItem) :
    b.IsBuilt ∧ b.table? = none := by
  simp only [ofItem, List.mem_cons, List.not_mem_nil,
    or_false] at hMem
  rcases hMem with rfl | rfl | rfl
  · exact ⟨.completion, rfl⟩
  · exact ⟨.attempts, rfl⟩
  · exact ⟨.duration, rfl⟩

theorem Builtin.isBuilt_of_mem_ofTest
    (b : Declaration)
    (hMem : b ∈ ofTest) :
    b.IsBuilt ∧ b.table? = none := by
  rcases List.mem_singleton.mp hMem with rfl
  exact ⟨.testDuration, rfl⟩

/- The declarations of an item go together. -/
structure Item.WellDeclared (i : Item) : Prop where
  declared :
    Assessment.WellDeclared i.declarations Builtin.ofItem
  outcomes : ∀ d ∈ i.outcomes, d.kind = .outcome

/- The declarations of a test go together. -/
def Test.WellDeclared (t : Test) : Prop :=
  Assessment.WellDeclared t.declarations Builtin.ofTest

end Assessment
