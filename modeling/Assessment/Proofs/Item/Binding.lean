import Assessment.Proofs.Item.Typing

/-
  What binding responses comes to.

  Texts are bound to a response when its declaration reads
  them all and holds as many as there are. Every other
  identifier is named as unbound, and for one reason only: it
  is no response, it is a record, a text is not of its base
  type, or there are too many texts. Binding the given
  responses writes to them alone, after the controls that end
  attempts have been cleared.

  Main declarations:
    * `Value.HoldsAll`, containers of single values
    * `Item.AnswersWith` and `Item.Unbindable`, what texts can
      and cannot be bound
    * `unbindable_iff`, one or the other
    * `get?_bindEach_eq` and `get?_clearControls_eq`, the two
      loops over the bindings
    * `bindResponses_exact`
-/

------------------------------------------------------------
-- Containers
------------------------------------------------------------

namespace Assessment

open Stateful

/-
  A value holds single values of a base type under a
  cardinality, and is NULL if there are none.
-/
inductive Value.HoldsAll :
    Cardinality → BaseType → List Scalar → Value → Prop where
  | none {c type} (hPlain : c ≠ .record) :
      HoldsAll c type [] .null
  | single {type} (s : Scalar) :
      HoldsAll .single type [s] (.single s)
  | multiple {type} (s : Scalar) (rest : List Scalar) :
      HoldsAll .multiple type (s :: rest)
        (.multiple type (s :: rest))
  | ordered {type} (s : Scalar) (rest : List Scalar) :
      HoldsAll .ordered type (s :: rest)
        (.ordered type (s :: rest))

/- A list is built as the value that holds its elements. -/
theorem Value.ofList_eq_ok_iff
    {c : Cardinality}
    {type : BaseType}
    {scalars : List Scalar}
    (hTypes : ∀ s ∈ scalars, s.baseType = type)
    {v : Value} :
    ofList c type scalars = .ok v ↔
      HoldsAll c type scalars v := by
  have hNone :
      (scalars.find? fun s => s.baseType != type) = none := by
    simpa using hTypes
  unfold ofList
  rw [hNone]
  constructor
  · intro hBuild
    cases c with
    | single =>
        match scalars, hBuild with
        | [], hBuild =>
            cases hBuild
            exact .none (by simp)
        | [s], hBuild =>
            cases hBuild
            exact .single s
    | multiple =>
        cases hBuild
        cases scalars with
        | nil => exact .none (by simp)
        | cons s rest => exact .multiple s rest
    | ordered =>
        cases hBuild
        cases scalars with
        | nil => exact .none (by simp)
        | cons s rest => exact .ordered s rest
    | record => cases hBuild
  · rintro (hPlain | s | ⟨s, rest⟩ | ⟨s, rest⟩)
    · cases c with
      | record => exact absurd rfl hPlain
      | _ => rfl
    all_goals rfl

/- Only a single value holds no more than one. -/
theorem Value.exists_holdsAll_iff
    {c : Cardinality}
    {type : BaseType}
    {scalars : List Scalar} :
    (∃ v, HoldsAll c type scalars v) ↔
      c ≠ .record ∧ (c = .single → scalars.length ≤ 1) := by
  constructor
  · rintro ⟨v, hHolds⟩
    cases hHolds <;> simp [*]
  · rintro ⟨hPlain, hFew⟩
    match scalars, c with
    | [], c => exact ⟨_, .none hPlain⟩
    | [s], .single => exact ⟨_, .single s⟩
    | s :: t :: rest, .single => simp at hFew
    | s :: rest, .multiple => exact ⟨_, .multiple s rest⟩
    | s :: rest, .ordered => exact ⟨_, .ordered s rest⟩
    | s :: rest, .record => exact absurd rfl hPlain

namespace ItemSession

/- Texts are read one by one, and all of them or none. -/
theorem parseAll?_eq_some_iff
    {type : BaseType}
    {texts : List String}
    {scalars : List Scalar} :
    parseAll? type texts = some scalars ↔
      texts.map (Scalar.parse? type) = scalars.map some := by
  induction texts generalizing scalars with
  | nil => cases scalars <;> simp [parseAll?]
  | cons text rest ih =>
      cases scalars with
      | nil =>
          rw [parseAll?]
          split <;> simp
      | cons t ss =>
          rw [List.map_cons, List.map_cons, List.cons.injEq,
            ← ih, parseAll?]
          cases Scalar.parse? type text <;>
            cases parseAll? type rest <;> simp

/- Texts cannot all be read if one of them cannot. -/
theorem parseAll?_eq_none_iff
    {type : BaseType}
    {texts : List String} :
    parseAll? type texts = none ↔
      ∃ text ∈ texts, Scalar.parse? type text = none := by
  induction texts with
  | nil => simp [parseAll?]
  | cons text rest ih =>
      rw [parseAll?]
      cases hText : Scalar.parse? type text with
      | none => simp [hText]
      | some s =>
          cases hRest : parseAll? type rest with
          | none => simpa [hText] using ih.mp hRest
          | some ss => simpa [hText, hRest] using ih

end ItemSession

------------------------------------------------------------
-- What Can Be Bound
------------------------------------------------------------

namespace Item

/- An identifier is that of a response of the item's own. -/
def AnsweredBy
    (i : Item)
    (identifier : String)
    (d : Declaration) : Prop :=
  i.declaration? identifier = some d ∧ d.kind = .response ∧
    Builtin.isBuiltin identifier = false

/-
  Texts given to a response make a value: each is read as the
  base type, and the value holds what has been read.
-/
def AnswersWith
    (i : Item)
    (identifier : String)
    (texts : List String)
    (v : Value) : Prop :=
  ∃ d type scalars,
    i.AnsweredBy identifier d ∧ d.baseType = some type ∧
      texts.map (Scalar.parse? type) = scalars.map some ∧
      Value.HoldsAll d.cardinality type scalars v

/- Why texts cannot be bound to an identifier. -/
inductive Unbindable
    (i : Item)
    (identifier : String)
    (texts : List String) : Prop where
  | noResponse
      (hNone : ∀ d, ¬ i.AnsweredBy identifier d)
  | record
      (d : Declaration)
      (hFound : i.declaration? identifier = some d)
      (hRecord : d.cardinality = .record)
  | unreadable
      (d : Declaration)
      (type : BaseType)
      (text : String)
      (hFound : i.declaration? identifier = some d)
      (hType : d.baseType = some type)
      (hMem : text ∈ texts)
      (hBad : Scalar.parse? type text = none)
  | tooMany
      (d : Declaration)
      (hFound : i.declaration? identifier = some d)
      (hSingle : d.cardinality = .single)
      (hMany : 1 < texts.length)

/- A control ends attempts by a declared variable. -/
def IsControl (i : Item) (identifier : String) : Prop :=
  (∃ e ∈ i.endAttempts, e.response = identifier) ∧
    (i.declaration? identifier).isSome = true

end Item

namespace ItemSession

/- What texts are read as is of the wanted base type. -/
theorem baseType_of_map_parse?
    {type : BaseType}
    {texts : List String}
    {scalars : List Scalar}
    (hTexts :
      texts.map (Scalar.parse? type) = scalars.map some) :
    ∀ s ∈ scalars, s.baseType = type := by
  intro s hMem
  have hRead : some s ∈ texts.map (Scalar.parse? type) := by
    rw [hTexts]
    exact List.mem_map_of_mem hMem
  rcases List.mem_map.mp hRead with ⟨text, _, hText⟩
  exact Scalar.baseType_of_parse? hText

/- The value of a response is what its texts make. -/
theorem responseValue?_eq_some_iff
    {item : Item}
    {identifier : String}
    {texts : List String}
    {v : Value} :
    responseValue? item identifier texts = some v ↔
      item.AnswersWith identifier texts v := by
  constructor
  · intro hRead
    rcases Option.bind_eq_some_iff.mp hRead with
      ⟨d, hFound, hRest⟩
    split at hRest
    next => cases hRest
    next hOwn =>
      rcases Option.bind_eq_some_iff.mp hRest with
        ⟨type, hType, hRest⟩
      split at hRest
      next => cases hRest
      next =>
        rcases Option.bind_eq_some_iff.mp hRest with
          ⟨scalars, hParse, hList⟩
        have hTexts := parseAll?_eq_some_iff.mp hParse
        have hHolds :=
          (Value.ofList_eq_ok_iff
            (baseType_of_map_parse? hTexts)).mp
              (eq_ok_of_toOption hList)
        refine ⟨d, type, scalars, ?_, hType, hTexts, hHolds⟩
        simpa [Item.AnsweredBy, hFound] using hOwn
  · rintro ⟨d, type, scalars, ⟨hFound, hKind, hOwn⟩, hType,
      hTexts, hHolds⟩
    have hBuild :=
      (Value.ofList_eq_ok_iff
        (baseType_of_map_parse? hTexts)).mpr hHolds
    have hPlain :=
      (Value.exists_holdsAll_iff.mp ⟨v, hHolds⟩).1
    simp [responseValue?, hFound, hKind, hOwn, hType, hPlain,
      parseAll?_eq_some_iff.mpr hTexts, hBuild,
      Except.toOption]

end ItemSession

/- Only a record is read without a base type. -/
theorem Declaration.IsBuilt.exists_baseType
    {d : Declaration}
    (hBuilt : d.IsBuilt)
    (hPlain : d.cardinality ≠ .record) :
    ∃ type, d.baseType = some type := by
  cases hBuilt with
  | read kind v _ hRead =>
      rcases bind_eq_ok_iff.mp hRead with ⟨_, _, hRest⟩
      rcases bind_eq_ok_iff.mp hRest with ⟨_, _, hRest⟩
      rcases bind_eq_ok_iff.mp hRest with ⟨c, _, hRest⟩
      rcases bind_eq_ok_iff.mp hRest with ⟨type, hType, hRest⟩
      rcases bind_eq_ok_iff.mp hRest with ⟨_, _, hRest⟩
      rcases bind_eq_ok_iff.mp hRest with ⟨_, _, hEnd⟩
      cases hEnd
      unfold baseTypeOfJson at hType
      split at hType
      next =>
        rcases bind_eq_ok_iff.mp hType with ⟨t, _, hSome⟩
        cases hSome
        exact ⟨t, rfl⟩
      next =>
        rw [if_neg hPlain] at hType
        cases hType
  | completion => exact ⟨_, rfl⟩
  | attempts => exact ⟨_, rfl⟩
  | duration => exact ⟨_, rfl⟩
  | testDuration => exact ⟨_, rfl⟩

namespace Item

variable {i : Item}

theorem IsBuilt.exists_baseType
    (hBuilt : i.IsBuilt)
    {identifier : String}
    {d : Declaration}
    (hFound : i.declaration? identifier = some d)
    (hPlain : d.cardinality ≠ .record) :
    ∃ type, d.baseType = some type := by
  refine Declaration.IsBuilt.exists_baseType ?_ hPlain
  rcases List.mem_append.mp (mem_of_findDeclaration? hFound).1
    with hOwn | hBuiltin
  · exact hBuilt.isBuilt d hOwn
  · exact (Builtin.isBuilt_of_mem_ofItem d
      (List.mem_of_mem_filter hBuiltin)).1

/- Texts make a value, or there is a reason why not. -/
theorem unbindable_iff
    (hBuilt : i.IsBuilt)
    {identifier : String}
    {texts : List String} :
    i.Unbindable identifier texts ↔
      ∀ v, ¬ i.AnswersWith identifier texts v := by
  constructor
  · intro hReason v hAnswers
    rcases hAnswers with
      ⟨d, type, scalars, hOwn, hType, hTexts, hHolds⟩
    have hFits := Value.exists_holdsAll_iff.mp ⟨v, hHolds⟩
    cases hReason with
    | noResponse hNone => exact hNone d hOwn
    | record e hFound hRecord =>
        cases hOwn.1.symm.trans hFound
        exact hFits.1 hRecord
    | unreadable e type' text hFound hType' hMem hBad =>
        cases hOwn.1.symm.trans hFound
        cases hType.symm.trans hType'
        have hNone :=
          ItemSession.parseAll?_eq_none_iff.mpr
            ⟨text, hMem, hBad⟩
        rw [ItemSession.parseAll?_eq_some_iff.mpr hTexts]
          at hNone
        cases hNone
    | tooMany e hFound hSingle hMany =>
        cases hOwn.1.symm.trans hFound
        have hLength := congrArg List.length hTexts
        have hFew := hFits.2 hSingle
        simp only [List.length_map] at hLength
        omega
  · intro hNone
    by_cases hOwn : ∃ d, i.AnsweredBy identifier d
    · rcases hOwn with ⟨d, hOwn⟩
      by_cases hRecord : d.cardinality = .record
      · exact .record d hOwn.1 hRecord
      · rcases hBuilt.exists_baseType hOwn.1 hRecord with
          ⟨type, hType⟩
        cases hParse : ItemSession.parseAll? type texts with
        | none =>
            rcases ItemSession.parseAll?_eq_none_iff.mp hParse
              with ⟨text, hMem, hBad⟩
            exact .unreadable d type text hOwn.1 hType hMem hBad
        | some scalars =>
            have hTexts :=
              ItemSession.parseAll?_eq_some_iff.mp hParse
            have hHeld :
                ¬ ∃ v,
                  Value.HoldsAll d.cardinality type scalars v :=
              fun ⟨v, hHolds⟩ =>
                hNone v ⟨d, type, scalars, hOwn, hType, hTexts,
                  hHolds⟩
            rw [Value.exists_holdsAll_iff] at hHeld
            have hLength := congrArg List.length hTexts
            simp only [List.length_map] at hLength
            refine .tooMany d hOwn.1 ?_ ?_
            · exact Classical.not_not.mp fun hMore =>
                hHeld ⟨hRecord, fun h => absurd h hMore⟩
            · rw [hLength]
              exact Nat.lt_of_not_le fun hFew =>
                hHeld ⟨hRecord, fun _ => hFew⟩
    · exact .noResponse fun d h => hOwn ⟨d, h⟩

end Item

namespace ItemSession

theorem responseValue?_eq_none_iff
    {item : Item}
    (hBuilt : item.IsBuilt)
    {identifier : String}
    {texts : List String} :
    responseValue? item identifier texts = none ↔
      item.Unbindable identifier texts := by
  rw [Item.unbindable_iff hBuilt,
    Option.eq_none_iff_forall_ne_some]
  exact forall_congr' fun _ => responseValue?_eq_some_iff.not

------------------------------------------------------------
-- Two Loops
------------------------------------------------------------

/- What is named as unbound was given, in the same order. -/
theorem sublist_bindEach
    (item : Item)
    (b : Bindings)
    (responses : Responses) :
    (bindEach item b responses).2.Sublist responses.names := by
  induction responses generalizing b with
  | nil => exact List.Sublist.refl []
  | cons response rest ih =>
      obtain ⟨identifier, texts⟩ := response
      rw [bindEach]
      split
      next => exact (ih _).cons identifier
      next => exact (ih b).cons_cons identifier

/- What is named as unbound makes no value. -/
theorem mem_bindEach_iff
    {item : Item}
    {b : Bindings}
    {responses : Responses}
    (hNames : responses.names.Nodup)
    {identifier : String} :
    identifier ∈ (bindEach item b responses).2 ↔
      ∃ texts, responses.get? identifier = some texts ∧
        responseValue? item identifier texts = none := by
  induction responses generalizing b with
  | nil => simp [bindEach, Keyed.get?]
  | cons response rest ih =>
      obtain ⟨first, texts⟩ := response
      obtain ⟨hFresh, hRest⟩ := List.nodup_cons.mp hNames
      rw [bindEach, Keyed.get?]
      by_cases hSame : first = identifier
      · subst hSame
        have hLater :
            ∀ b, first ∉ (bindEach item b rest).2 :=
          fun b hMem =>
            hFresh ((sublist_bindEach item b rest).subset hMem)
        cases hRead : responseValue? item first texts <;>
          simp [hRead, hLater]
      · have hOther : identifier ≠ first :=
          fun h => hSame h.symm
        cases hRead : responseValue? item first texts <;>
          simp [hSame, hOther, ih hRest]

/- A name is bound to what its texts make, if anything. -/
theorem get?_bindEach_eq
    {item : Item}
    {b : Bindings}
    {responses : Responses}
    (hNames : responses.names.Nodup)
    (identifier : String) :
    (bindEach item b responses).1.get? identifier =
      ((responses.get? identifier).bind
        (responseValue? item identifier)).or
          (b.get? identifier) := by
  induction responses generalizing b with
  | nil => rfl
  | cons response rest ih =>
      obtain ⟨first, texts⟩ := response
      obtain ⟨hFresh, hRest⟩ := List.nodup_cons.mp hNames
      rw [bindEach, Keyed.get?]
      by_cases hSame : first = identifier
      · subst hSame
        have hLater : Keyed.get? first rest = none := by
          rw [← Option.not_isSome_iff_eq_none,
            Keyed.isSome_get?_iff]
          exact hFresh
        cases hRead : responseValue? item first texts with
        | none => simp [ih hRest, hLater, hRead]
        | some v =>
            simp [ih hRest, hLater, hRead,
              Keyed.get?_put_self]
      · have hOther : identifier ≠ first :=
          fun h => hSame h.symm
        cases hRead : responseValue? item first texts with
        | none => simp [ih hRest, hSame]
        | some v =>
            simp [ih hRest, hSame, Keyed.get?_put_of_ne hOther]

/- Clearing controls writes to no other variable. -/
theorem get?_foldl_cleared_of_not
    {item : Item}
    {identifier : String}
    {es : List EndAttempt}
    (hNone :
      ∀ e ∈ es, e.response = identifier →
        item.declaration? identifier = none)
    (b : Bindings) :
    Keyed.get? identifier (es.foldl (cleared item) b) =
      b.get? identifier := by
  induction es generalizing b with
  | nil => rfl
  | cons e rest ih =>
      rw [List.foldl_cons, ih fun e' hMem =>
        hNone e' (List.mem_cons_of_mem e hMem), cleared]
      split
      next hSome =>
        refine Keyed.get?_put_of_ne ?_ _ b
        rintro rfl
        rw [hNone e List.mem_cons_self rfl] at hSome
        cases hSome
      next => rfl

theorem get?_clearControls_of_not
    {item : Item}
    {identifier : String}
    (hNone : ¬ item.IsControl identifier)
    (b : Bindings) :
    (clearControls item b).get? identifier =
      b.get? identifier := by
  rw [clearControls_eq]
  refine get?_foldl_cleared_of_not (fun e hMem hName => ?_) b
  rw [← Option.not_isSome_iff_eq_none]
  exact fun hSome => hNone ⟨⟨e, hMem, hName⟩, hSome⟩

theorem get?_clearControls_of_isControl
    {item : Item}
    {identifier : String}
    (hControl : item.IsControl identifier)
    (b : Bindings) :
    (clearControls item b).get? identifier =
      some (.boolean false) := by
  obtain ⟨⟨e, hMem, rfl⟩, hDeclared⟩ := hControl
  obtain ⟨d, hFound⟩ := Option.isSome_iff_exists.mp hDeclared
  exact get?_clearControls hMem hFound b

------------------------------------------------------------
-- Binding
------------------------------------------------------------

/-
  Responses have been bound as far as they can be, and nothing
  else has been bound.
-/
structure BindsExactly
    (s : ItemSession)
    (responses : Responses)
    (unbound : List String)
    (t : ItemSession) : Prop where
  once : unbound.Nodup
  unbound_iff :
    ∀ identifier, identifier ∈ unbound ↔
      ∃ texts, responses.get? identifier = some texts ∧
        s.item.Unbindable identifier texts
  bound :
    ∀ identifier texts,
      responses.get? identifier = some texts →
        ¬ s.item.Unbindable identifier texts →
          ∃ v, t.state.values.get? identifier = some v ∧
            s.item.AnswersWith identifier texts v ∧
            ∃ d, s.item.declaration? identifier = some d ∧
              d.accepts v = true
  /- Controls are false unless an answer has been bound. -/
  controls :
    ∀ identifier, s.item.IsControl identifier →
      (responses.get? identifier = none ∨
        identifier ∈ unbound) →
          t.state.values.get? identifier =
            some (.boolean false)
  kept :
    ∀ identifier, ¬ s.item.IsControl identifier →
      (responses.get? identifier = none ∨
        identifier ∈ unbound) →
          t.state.values.get? identifier =
            s.state.values.get? identifier
  defaults : t.state.defaults = s.state.defaults
  corrects : t.state.corrects = s.state.corrects

/- What is not bound is as clearing the controls has left it. -/
theorem get?_bound_of_unbound
    {s : ItemSession}
    {responses : Responses}
    (hNames : responses.names.Nodup)
    {identifier : String}
    (hNone :
      responses.get? identifier = none ∨
        identifier ∈ (s.bound responses).state.unbound) :
    (s.bound responses).state.values.get? identifier =
      (clearControls s.item s.state.values).get?
        identifier := by
  refine (get?_bindEach_eq hNames identifier).trans ?_
  rcases hNone with hAbsent | hUnbound
  · rw [hAbsent]
    rfl
  · rcases (mem_bindEach_iff hNames).mp hUnbound with
      ⟨texts, hGiven, hRead⟩
    rw [hGiven, Option.bind_some, hRead]
    rfl

theorem bindsExactly_bound
    {s : ItemSession}
    (hBuilt : s.item.IsBuilt)
    {responses : Responses}
    (hNames : responses.names.Nodup) :
    s.BindsExactly responses
      (s.bound responses).state.unbound
      (s.bound responses).judged where
  once := (sublist_bindEach s.item _ responses).nodup hNames
  unbound_iff identifier := by
    refine (mem_bindEach_iff hNames).trans ?_
    simp only [responseValue?_eq_none_iff hBuilt]
  bound identifier texts hGiven hBindable := by
    rw [← responseValue?_eq_none_iff hBuilt] at hBindable
    rcases Option.ne_none_iff_exists'.mp hBindable with
      ⟨v, hRead⟩
    have hAnswers := responseValue?_eq_some_iff.mp hRead
    have ⟨d, _, _, hOwn, _⟩ := hAnswers
    refine ⟨v, ?_, hAnswers, d, hOwn.1,
      accepts_of_responseValue? hRead d hOwn.1⟩
    refine (get?_bindEach_eq hNames identifier).trans ?_
    rw [hGiven, Option.bind_some, hRead]
    rfl
  controls identifier hControl hNone :=
    (get?_bound_of_unbound hNames hNone).trans
      (get?_clearControls_of_isControl hControl _)
  kept identifier hOther hNone :=
    (get?_bound_of_unbound hNames hNone).trans
      (get?_clearControls_of_not hOther _)
  defaults := rfl
  corrects := rfl

/- The responses of an open session are bound. -/
theorem run_bindResponses
    {s : ItemSession}
    (hInit : s.state.initialized = true)
    (hOpen : s.state.finished = false)
    (responses : Responses) :
    Stateful.run (bindResponses responses) s =
      (.ok (s.bound responses).state.unbound,
        (s.bound responses).judged) := by
  have hEnds :
      Ends (bindResponses responses) s fun r t =>
        (r, t) =
          (.ok (s.bound responses).state.unbound,
            (s.bound responses).judged) := by
    rw [ends_bindResponses, if_pos hInit, hOpen]
    simp
  exact hEnds

/-
  Binding the responses of an open session goes through. It
  names as unbound the identifiers whose texts cannot be
  bound, binds every other to what its texts make, clears the
  controls that are left, and changes no other variable.
-/
theorem bindResponses_exact
    (s : ItemSession)
    (hBuilt : s.item.IsBuilt)
    (hInit : s.state.initialized = true)
    (hOpen : s.state.finished = false)
    (responses : Responses)
    (hNames : responses.names.Nodup) :
    ∃ unbound t,
      Stateful.run (bindResponses responses) s =
          (.ok unbound, t) ∧
        s.BindsExactly responses unbound t :=
  ⟨_, _, run_bindResponses hInit hOpen responses,
    bindsExactly_bound hBuilt hNames⟩

/- Numbers to choose, a name to give and a way to give up. -/
def questionnaire : Item :=
  { identifier := "questionnaire"
    title := none
    adaptive := false
    timeDependent := false
    responses := [
      ⟨"NUMBERS", .multiple, some .integer, none,
        .response Builtin.plainResponse⟩,
      ⟨"NAME", .single, some .identifier, none,
        .response Builtin.plainResponse⟩,
      ⟨"GIVE_UP", .single, some .boolean, none,
        .response Builtin.plainResponse⟩]
    outcomes := []
    templates := []
    templateProcessing := []
    responseProcessing := []
    endAttempts := [⟨"GIVE_UP", false⟩] }

/- The data that declares a response and nothing more. -/
def plainData (identifier cardinality type : String) : Json :=
  .object [("baseType", .string type),
    ("cardinality", .string cardinality),
    ("identifier", .string identifier)]

theorem questionnaire_isBuilt : questionnaire.IsBuilt where
  responses d hMem := by
    simp only [questionnaire, List.mem_cons,
      List.not_mem_nil, or_false] at hMem
    rcases hMem with rfl | rfl | rfl
    · exact ⟨plainData "NUMBERS" "multiple" "integer", rfl⟩
    · exact ⟨plainData "NAME" "single" "identifier", rfl⟩
    · exact ⟨plainData "GIVE_UP" "single" "boolean", rfl⟩
  outcomes _ hMem := by cases hMem
  templates _ hMem := by cases hMem

/- Its session, open and with all of it answered before. -/
def questioned : ItemSession :=
  { ItemSession.new questionnaire ⟨{}, none⟩ default with
    state := {
      initialized := true
      values := Keyed.ofList [
        ("GIVE_UP", .boolean true),
        ("NAME", .identifier "a"),
        ("NUMBERS", .multiple .integer [.integer 1])] } }

/-
  Two numbers can be bound and two names cannot, nor can what
  nothing in the item asks for.
-/
theorem bindResponses_questioned :
    ∃ unbound t,
      Stateful.run
          (bindResponses [("NAME", ["a", "b"]),
            ("NUMBERS", ["3", "4"]), ("OTHER", [])])
          questioned = (.ok unbound, t) ∧
        questioned.BindsExactly
          [("NAME", ["a", "b"]), ("NUMBERS", ["3", "4"]),
            ("OTHER", [])]
          unbound t :=
  bindResponses_exact questioned questionnaire_isBuilt rfl rfl
    _ (by decide)

end ItemSession

end Assessment
