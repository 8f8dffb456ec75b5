import Assessment.Declaration.Reader

/-
  Values that declarations accept.

  What is read for a base type has that base type, and what is
  read for a declaration conforms to it. So the default of a
  declaration that has been read is accepted by it, and so is
  whatever its lookup table gives, as long as the outcome is
  single.

  Main declarations:
    * `Value.conformsTo_of_ofJson`
    * `LookupTable.HasTargets`, a table of one base type
    * `Declaration.IsBuilt`, read from data or built in
    * `Declaration.accepts_initial`, `accepts_correct` and
      `accepts_lookup`
-/

------------------------------------------------------------
-- Readers
------------------------------------------------------------

namespace Assessment

variable {α β : Type}

/- What is read in two steps is read by each of them. -/
theorem bind_eq_ok_iff
    {ε : Type}
    {x : Except ε α}
    {f : α → Except ε β}
    {b : β} :
    x >>= f = .ok b ↔ ∃ a, x = .ok a ∧ f a = .ok b := by
  cases x with
  | error e =>
      constructor
      · intro hOk
        cases hOk
      · rintro ⟨_, hOk, _⟩
        cases hOk
  | ok a =>
      refine ⟨fun h => ⟨a, rfl, h⟩, ?_⟩
      rintro ⟨_, hOk, hThen⟩
      cases hOk
      exact hThen

/- Each element of a list that is read has been read. -/
theorem exists_of_mem_mapM
    {f : α → Except Failure β}
    {xs : List α}
    {ys : List β}
    (hRead : xs.mapM f = .ok ys) :
    ∀ y ∈ ys, ∃ x ∈ xs, f x = .ok y := by
  induction xs generalizing ys with
  | nil =>
      cases hRead
      simp
  | cons x xs ih =>
      rw [List.mapM_cons, bind_eq_ok_iff] at hRead
      rcases hRead with ⟨y, hY, hRest⟩
      rw [bind_eq_ok_iff] at hRest
      rcases hRest with ⟨ys', hYs, hAll⟩
      cases hAll
      intro z hz
      rcases List.mem_cons.mp hz with hFirst | hLater
      · subst hFirst
        exact ⟨x, List.mem_cons_self, hY⟩
      · rcases ih hYs z hLater with ⟨w, hw, hWz⟩
        exact ⟨w, List.mem_cons_of_mem x hw, hWz⟩

------------------------------------------------------------
-- Single Values
------------------------------------------------------------

namespace Scalar

/- A text is read as a single value of the wanted type. -/
theorem baseType_of_parse?
    {type : BaseType}
    {text : String}
    {s : Scalar}
    (hParse : parse? type text = some s) :
    s.baseType = type := by
  cases type <;> simp only [parse?] at hParse <;>
    grind [baseType, Option.map_eq_some_iff]

theorem baseType_of_parse
    {type : BaseType}
    {text : String}
    {s : Scalar}
    (hParse : parse type text = .ok s) :
    s.baseType = type := by
  unfold parse at hParse
  split at hParse
  next hSome =>
    cases hParse
    exact baseType_of_parse? hSome
  next => cases hParse

/- So is data. -/
theorem baseType_of_ofJson
    {type : BaseType}
    {v : Json}
    {s : Scalar}
    (hRead : ofJson type v = .ok s) :
    s.baseType = type := by
  unfold ofJson at hRead
  split at hRead
  next => exact baseType_of_parse hRead
  next => cases hRead; rfl
  next =>
    split at hRead
    · cases hRead; rfl
    · cases hRead
  next => exact baseType_of_parse hRead
  next => exact baseType_of_parse hRead
  next => cases hRead; rfl
  next => cases hRead
  next => cases hRead

/- Only integers are promoted. -/
theorem promote_eq_self
    {s : Scalar}
    (hType : s.baseType ≠ .integer) :
    s.promote = s := by
  cases s <;> first | rfl | exact absurd rfl hType

end Scalar

------------------------------------------------------------
-- Values
------------------------------------------------------------

namespace Value

@[simp] theorem conformsTo_single
    (s : Scalar)
    (type : BaseType) :
    (single s).conformsTo .single (some type) = true ↔
      s.baseType = type := by
  simp [conformsTo, cardinality?, baseType?]

theorem conformsTo_float (x : Float) :
    (float x).conformsTo .single (some .float) = true := by
  unfold float
  split <;> rfl

theorem conformsTo_multipleOf
    (type : BaseType)
    (xs : List Scalar) :
    (multipleOf type xs).conformsTo .multiple (some type) =
      true := by
  unfold multipleOf
  split <;> simp [conformsTo, cardinality?, baseType?]

theorem conformsTo_orderedOf
    (type : BaseType)
    (xs : List Scalar) :
    (orderedOf type xs).conformsTo .ordered (some type) =
      true := by
  unfold orderedOf
  split <;> simp [conformsTo, cardinality?, baseType?]

theorem conformsTo_ofFields
    (fields : List (String × Option Scalar))
    (type : Option BaseType) :
    (ofFields fields).conformsTo .record type = true := by
  unfold ofFields
  split <;> simp [conformsTo]

/- A list is only built for the kind that it has. -/
theorem conformsTo_of_ofList
    {c : Cardinality}
    {type : BaseType}
    {xs : List Scalar}
    {v : Value}
    (hBuild : ofList c type xs = .ok v) :
    v.conformsTo c (some type) = true := by
  unfold ofList at hBuild
  split at hBuild
  next => cases hBuild
  next hNone =>
    split at hBuild
    next =>
      split at hBuild
      next => cases hBuild; rfl
      next s =>
        cases hBuild
        simpa using hNone
      next => cases hBuild
    next =>
      cases hBuild
      exact conformsTo_multipleOf type xs
    next =>
      cases hBuild
      exact conformsTo_orderedOf type xs
    next => cases hBuild

/- Data is read as a value of the wanted kind. -/
theorem conformsTo_of_ofJson
    {c : Cardinality}
    {type : Option BaseType}
    {j : Json}
    {v : Value}
    (hRead : ofJson c type j = .ok v) :
    v.conformsTo c type = true := by
  unfold ofJson at hRead
  split at hRead
  next => cases hRead; rfl
  next =>
    rcases bind_eq_ok_iff.mp hRead with ⟨fields, _, hFields⟩
    cases hFields
    exact conformsTo_ofFields fields type
  next => cases hRead
  next => cases hRead
  next =>
    rcases bind_eq_ok_iff.mp hRead with ⟨xs, _, hList⟩
    exact conformsTo_of_ofList hList
  next =>
    rcases bind_eq_ok_iff.mp hRead with ⟨s, _, hList⟩
    exact conformsTo_of_ofList hList

end Value

------------------------------------------------------------
-- Lookup Tables
------------------------------------------------------------

namespace LookupTable

/- The single values that a table can give. -/
def targets : LookupTable → List Scalar
  | .exact d es => d.toList ++ es.map MatchEntry.target
  | .steps d es => d.toList ++ es.map StepEntry.target

/- Everything that a table can give has one base type. -/
def HasTargets (table : LookupTable) (type : BaseType) : Prop :=
  ∀ s ∈ table.targets, s.baseType = type

theorem mem_targets_of_find?
    {table : LookupTable}
    {source : Value}
    {s : Scalar}
    (hFind : table.find? source = some s) :
    s ∈ table.targets := by
  cases table with
  | exact d es =>
      simp only [find?, Option.bind_eq_some_iff,
        Option.map_eq_some_iff] at hFind
      rcases hFind with ⟨_, _, e, hEntry, hTarget⟩
      have hMem := List.mem_of_find?_eq_some hEntry
      simp only [targets, List.mem_append, List.mem_map]
      exact Or.inr ⟨e, hMem, hTarget⟩
  | steps d es =>
      simp only [find?, Option.bind_eq_some_iff,
        Option.map_eq_some_iff] at hFind
      rcases hFind with ⟨_, _, e, hEntry, hTarget⟩
      have hMem := List.mem_of_find?_eq_some hEntry
      simp only [targets, List.mem_append, List.mem_map]
      exact Or.inr ⟨e, hMem, hTarget⟩

theorem mem_targets_of_otherwise
    {table : LookupTable}
    {s : Scalar}
    (hDefault : table.otherwise = some s) :
    s ∈ table.targets := by
  cases table <;> simp_all [otherwise, targets]

theorem baseType_of_targetOfJson?
    {type : BaseType}
    {field : String}
    {j : Json}
    {target : Option Scalar}
    (hRead : targetOfJson? type field j = .ok target) :
    ∀ s ∈ target, s.baseType = type := by
  unfold targetOfJson? at hRead
  split at hRead
  next => cases hRead; simp
  next =>
    rcases bind_eq_ok_iff.mp hRead with ⟨s, hScalar, hSome⟩
    cases hSome
    intro t hT
    cases hT
    exact Scalar.baseType_of_ofJson hScalar

theorem baseType_of_targetOfJson
    {type : BaseType}
    {owner : String}
    {j : Json}
    {s : Scalar}
    (hRead : targetOfJson type owner j = .ok s) :
    s.baseType = type := by
  rcases bind_eq_ok_iff.mp hRead with ⟨target, hTarget, hSome⟩
  cases target with
  | none => cases hSome
  | some t =>
      cases hSome
      exact baseType_of_targetOfJson? hTarget s rfl

theorem baseType_of_matchOfJson
    {type : BaseType}
    {j : Json}
    {e : MatchEntry}
    (hRead : matchOfJson type j = .ok e) :
    e.target.baseType = type := by
  unfold matchOfJson at hRead
  split at hRead
  next => cases hRead
  next =>
    rcases bind_eq_ok_iff.mp hRead with ⟨s, hTarget, hEntry⟩
    cases hEntry
    exact baseType_of_targetOfJson hTarget

theorem baseType_of_stepOfJson
    {type : BaseType}
    {j : Json}
    {e : StepEntry}
    (hRead : stepOfJson type j = .ok e) :
    e.target.baseType = type := by
  unfold stepOfJson at hRead
  split at hRead
  next => cases hRead
  next =>
    rcases bind_eq_ok_iff.mp hRead with ⟨s, hTarget, hEntry⟩
    cases hEntry
    exact baseType_of_targetOfJson hTarget

/- A table is read with targets of the type of its owner. -/
theorem hasTargets_of_ofJson
    {type : Option BaseType}
    {j : Json}
    {table : LookupTable}
    (hRead : ofJson type j = .ok table) :
    ∃ t, type = some t ∧ table.HasTargets t := by
  unfold ofJson at hRead
  rcases bind_eq_ok_iff.mp hRead with ⟨t, hNeeded, hTable⟩
  have hType : type = some t := by
    cases type <;> cases hNeeded
    rfl
  refine ⟨t, hType, ?_⟩
  split at hTable
  next =>
    rcases bind_eq_ok_iff.mp hTable with ⟨js, _, hRest⟩
    rcases bind_eq_ok_iff.mp hRest with ⟨es, hEntries, hRest⟩
    rcases bind_eq_ok_iff.mp hRest with ⟨d, hDefault, hEnd⟩
    cases hEnd
    intro s hs
    simp only [targets, List.mem_append, List.mem_map,
      Option.mem_toList] at hs
    rcases hs with hOther | ⟨e, hMem, hTarget⟩
    · exact baseType_of_targetOfJson? hDefault s hOther
    · rcases exists_of_mem_mapM hEntries e hMem with
        ⟨_, _, hEntry⟩
      exact hTarget ▸ baseType_of_matchOfJson hEntry
  next =>
    rcases bind_eq_ok_iff.mp hTable with ⟨js, _, hRest⟩
    rcases bind_eq_ok_iff.mp hRest with ⟨es, hEntries, hRest⟩
    rcases bind_eq_ok_iff.mp hRest with ⟨d, hDefault, hEnd⟩
    cases hEnd
    intro s hs
    simp only [targets, List.mem_append, List.mem_map,
      Option.mem_toList] at hs
    rcases hs with hOther | ⟨e, hMem, hTarget⟩
    · exact baseType_of_targetOfJson? hDefault s hOther
    · rcases exists_of_mem_mapM hEntries e hMem with
        ⟨_, _, hEntry⟩
      exact hTarget ▸ baseType_of_stepOfJson hEntry
  next => cases hTable

end LookupTable

------------------------------------------------------------
-- Declarations
------------------------------------------------------------

namespace Declaration

/-
  Where declarations come from: most are read from package
  data, and a few are built in.
-/
inductive IsBuilt : Declaration → Prop where
  | read
      (kind : VariableKind)
      (v : Json)
      (d : Declaration)
      (hRead : ofJson kind v = .ok d) :
      IsBuilt d
  | completion : IsBuilt Builtin.completionDeclaration
  | attempts : IsBuilt Builtin.attemptsDeclaration
  | duration : IsBuilt Builtin.durationDeclaration
  | testDuration : IsBuilt Builtin.testDurationDeclaration

theorem conformsTo_of_valueOfJson?
    {j : Json}
    {field identifier : String}
    {c : Cardinality}
    {type : Option BaseType}
    {value : Option Value}
    (hRead : valueOfJson? j field identifier c type = .ok value) :
    ∀ v ∈ value, v.conformsTo c type = true := by
  unfold valueOfJson? at hRead
  split at hRead
  next => cases hRead; simp
  next =>
    split at hRead
    next hValue =>
      cases hRead
      intro v hv
      cases hv
      exact Value.conformsTo_of_ofJson hValue
    next => cases hRead

/- The parts of a declaration are read one by one. -/
theorem parts_of_ofJson
    {kind : VariableKind}
    {j : Json}
    {d : Declaration}
    (hRead : ofJson kind j = .ok d) :
    valueOfJson? j "defaultValue" d.identifier d.cardinality
        d.baseType = .ok d.defaultValue ∧
      detailOfJson j kind d.identifier d.cardinality
        d.baseType = .ok d.detail := by
  rcases bind_eq_ok_iff.mp hRead with ⟨id, _, hRest⟩
  rcases bind_eq_ok_iff.mp hRest with ⟨cName, _, hRest⟩
  rcases bind_eq_ok_iff.mp hRest with ⟨c, _, hRest⟩
  rcases bind_eq_ok_iff.mp hRest with ⟨type, _, hRest⟩
  rcases bind_eq_ok_iff.mp hRest with ⟨value, hValue, hRest⟩
  rcases bind_eq_ok_iff.mp hRest with ⟨detail, hDetail, hEnd⟩
  cases hEnd
  exact ⟨hValue, hDetail⟩

/- The default of a variable is one of its values. -/
theorem accepts_initial
    {d : Declaration}
    (hBuilt : d.IsBuilt) :
    d.accepts d.initial = true := by
  cases hBuilt with
  | read kind v d hRead =>
      have hDefault :=
        conformsTo_of_valueOfJson? (parts_of_ofJson hRead).1
      unfold initial
      cases hValue : d.defaultValue with
      | none => rfl
      | some v => exact hDefault v hValue
  | completion => rfl
  | attempts => rfl
  | duration => exact Value.conformsTo_float 0
  | testDuration => exact Value.conformsTo_float 0

/- So is the declared correct response. -/
theorem accepts_correct
    {d : Declaration}
    (hBuilt : d.IsBuilt)
    {v : Value}
    (hCorrect : d.correct? = some v) :
    d.accepts v = true := by
  cases hBuilt with
  | read kind j d hRead =>
      unfold correct? response? at hCorrect
      have hDetail := (parts_of_ofJson hRead).2
      cases kind with
      | response =>
          rcases bind_eq_ok_iff.mp hDetail with
            ⟨correct, hValue, hRest⟩
          rcases bind_eq_ok_iff.mp hRest with ⟨_, _, hRest⟩
          rcases bind_eq_ok_iff.mp hRest with ⟨_, _, hEnd⟩
          rw [← Except.ok.inj hEnd] at hCorrect
          exact conformsTo_of_valueOfJson? hValue v hCorrect
      | outcome =>
          rcases bind_eq_ok_iff.mp hDetail with ⟨_, _, hEnd⟩
          rw [← Except.ok.inj hEnd] at hCorrect
          cases hCorrect
      | template =>
          rw [← Except.ok.inj hDetail] at hCorrect
          cases hCorrect
  | completion => cases hCorrect
  | attempts => cases hCorrect
  | duration => cases hCorrect
  | testDuration => cases hCorrect

/- A declaration has the family that it is read for. -/
theorem table?_of_detailOfJson
    {j : Json}
    {kind : VariableKind}
    {identifier : String}
    {c : Cardinality}
    {type : Option BaseType}
    {detail : Detail}
    (hRead :
      detailOfJson j kind identifier c type = .ok detail)
    {o : OutcomeDetail}
    (hOutcome : detail = .outcome o)
    {table : LookupTable}
    (hTable : o.table = some table) :
    ∃ t, type = some t ∧ table.HasTargets t := by
  cases kind with
  | response =>
      rcases bind_eq_ok_iff.mp hRead with ⟨_, _, hRest⟩
      rcases bind_eq_ok_iff.mp hRest with ⟨_, _, hRest⟩
      rcases bind_eq_ok_iff.mp hRest with ⟨_, _, hEnd⟩
      cases hEnd
      cases hOutcome
  | outcome =>
      rcases bind_eq_ok_iff.mp hRead with ⟨part, hPart, hEnd⟩
      cases hEnd
      cases hOutcome
      subst hTable
      unfold partOfJson? at hPart
      split at hPart
      next => cases hPart
      next =>
        rcases bind_eq_ok_iff.mp hPart with ⟨_, hJson, hSome⟩
        cases hSome
        exact LookupTable.hasTargets_of_ofJson hJson
  | template =>
      cases hRead
      cases hOutcome

/- The table of a declaration gives its base type. -/
theorem hasTargets_table
    {d : Declaration}
    (hBuilt : d.IsBuilt)
    {table : LookupTable}
    (hTable : d.table? = some table) :
    ∃ t, d.baseType = some t ∧ table.HasTargets t := by
  cases hBuilt with
  | read kind v d hRead =>
      unfold table? outcome? at hTable
      split at hTable
      next o hDetail =>
        exact table?_of_detailOfJson (parts_of_ofJson hRead).2
          hDetail hTable
      next => cases hTable
  | completion => cases hTable
  | attempts => cases hTable
  | duration => cases hTable
  | testDuration => cases hTable

/- Coercion takes no accepted value away. -/
theorem accepts_coerce
    {d : Declaration}
    {v : Value}
    (hAccepts : d.accepts v = true) :
    d.accepts (d.coerce v) = true := by
  unfold coerce
  split
  next s hType =>
    have hFloat : s.baseType = .float := by
      simp [accepts, Value.conformsTo, Value.cardinality?,
        Value.baseType?, hType] at hAccepts
      exact hAccepts.2
    rw [Scalar.promote_eq_self (by simp [hFloat])]
    exact hAccepts
  next xs hType =>
    simp [accepts, Value.conformsTo, Value.baseType?,
      hType] at hAccepts
  next xs hType =>
    simp [accepts, Value.conformsTo, Value.baseType?,
      hType] at hAccepts
  next => exact hAccepts

/-
  What a table gives is not checked when it is written. It is
  a value of the variable all the same if the variable is
  single.
-/
theorem accepts_lookup
    {d : Declaration}
    (hBuilt : d.IsBuilt)
    {table : LookupTable}
    (hTable : d.table? = some table)
    (hSingle : d.cardinality = .single)
    (source : Value) :
    d.accepts (d.coerce (d.lookup table source)) = true := by
  rcases hasTargets_table hBuilt hTable with
    ⟨type, hType, hTargets⟩
  refine accepts_coerce ?_
  unfold accepts
  rw [hSingle, hType]
  unfold lookup
  split
  next s hFind =>
    rw [Value.conformsTo_single]
    exact hTargets s (LookupTable.mem_targets_of_find? hFind)
  next =>
    unfold tableDefault
    split
    next s hDefault =>
      rw [Value.conformsTo_single]
      exact hTargets s
        (LookupTable.mem_targets_of_otherwise hDefault)
    next hInteger =>
      rw [hType] at hInteger
      cases hInteger
      rfl
    next hFloat =>
      rw [hType] at hFloat
      cases hFloat
      exact Value.conformsTo_float 0
    next => rfl

end Declaration

end Assessment
