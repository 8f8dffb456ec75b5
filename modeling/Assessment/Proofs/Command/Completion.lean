import Assessment.Proofs.Command.Itinerary
import Assessment.Proofs.Validation.Cleared

/-
  Runs of tests that are complete.

  Every sitting comes to an end, since every round over items
  or parts leaves fewer of them to come. If it goes through,
  the test is finished, and every item of the session has been
  shown in its turn, has been given what the script has for
  it, and is finished. There is a part to begin with, since
  the document of a test is refused without one.

  The session may have fewer items than the plan. A planned
  item whose identifier is that of a later reference, too, is
  passed over where the last one of that name leads nowhere.

  Main declarations:
    * `Package.parts_ne_nil`, for all tests of a package
    * `Simulation.examinee_follows`, the end of every sitting
    * `Simulation.Runs` and `Simulation.Complete`
    * `Simulation.run_complete`, for all tests of a package
-/

------------------------------------------------------------
-- Documents
------------------------------------------------------------

namespace Assessment

/- Without a part, the document of a test is refused. -/
theorem TestDocument.parts_ne_nil
    {v : Json}
    {d : TestDocument}
    (hRead : ofJson v = .ok d) :
    d.parts ≠ [] := by
  rcases bind_eq_ok_iff.mp hRead with ⟨_, _, hRest⟩
  rcases bind_eq_ok_iff.mp hRest with ⟨parts, _, hRest⟩
  dsimp only at hRest
  split at hRest
  next => cases hRest
  next hSome =>
    rcases bind_eq_ok_iff.mp hRest with ⟨_, _, hRest⟩
    rcases bind_eq_ok_iff.mp hRest with ⟨_, _, hRest⟩
    rcases bind_eq_ok_iff.mp hRest with ⟨_, _, hEnd⟩
    cases hEnd
    simpa using hSome

/- A document of a test has been read as one. -/
theorem TestDocument.exists_of_document
    {v : Json}
    {d : TestDocument}
    (hRead : Document.ofJson? v = .ok (some (.test d))) :
    ∃ w, ofJson w = .ok d := by
  unfold Document.ofJson? at hRead
  cases hObject : v.object?.isNone with
  | true =>
      rw [hObject] at hRead
      split at hRead <;> cases hRead
  | false =>
      rw [hObject] at hRead
      split at hRead
      next =>
        rcases bind_eq_ok_iff.mp hRead with ⟨_, _, hEnd⟩
        cases hEnd
      next =>
        rcases bind_eq_ok_iff.mp hRead with ⟨_, hTest, hEnd⟩
        cases hEnd
        exact ⟨v, hTest⟩
      next => cases hRead

/- A document in a row was there, or it has been read. -/
theorem exists_of_mem_documentsOf
    {earlier documents : List Document}
    {vs : List Json}
    (hRead : documentsOf earlier vs = .ok documents) :
    ∀ d ∈ documents, d ∈ earlier ∨
      ∃ v, Document.ofJson? v = .ok (some d) := by
  induction vs generalizing earlier with
  | nil =>
      cases hRead
      exact fun d hMem => Or.inl hMem
  | cons v rest ih =>
      rw [documentsOf, bind_eq_ok_iff] at hRead
      rcases hRead with ⟨found, hFound, hRest⟩
      cases found with
      | none => exact ih hRest
      | some x =>
          dsimp only at hRest
          split at hRest
          next => cases hRest
          next =>
            intro d hMem
            rcases ih hRest d hMem with hBefore | hLater
            · rcases List.mem_append.mp hBefore with hEarlier |
                hThis
              · exact Or.inl hEarlier
              · cases List.mem_singleton.mp hThis
                exact Or.inr ⟨v, hFound⟩
            · exact Or.inr hLater

/- Every test document of an opened package has a part. -/
theorem Envelope.parts_ne_nil
    {v : Json}
    {e : Envelope}
    (hOpened : ofJson v = .ok e)
    {d : TestDocument}
    (hMem : d ∈ e.tests) :
    d.parts ≠ [] := by
  rcases exists_documentsOf hOpened with ⟨vs, hRead⟩
  rcases List.mem_filterMap.mp hMem with ⟨x, hX, hTest⟩
  cases x with
  | item => cases hTest
  | test d' =>
      cases hTest
      rcases exists_of_mem_documentsOf hRead _ hX with hNone |
        ⟨w, hDocument⟩
      · cases hNone
      · rcases TestDocument.exists_of_document hDocument with
          ⟨u, hTest⟩
        exact TestDocument.parts_ne_nil hTest

------------------------------------------------------------
-- Tests
------------------------------------------------------------

/- Every part of a document becomes a part of the test. -/
theorem TestPart.length_listOfJson
    {vs : List Json}
    {parts : List TestPart}
    (hRead : listOfJson vs = .ok parts) :
    parts.length = vs.length := by
  induction vs generalizing parts with
  | nil =>
      cases hRead
      rfl
  | cons v rest ih =>
      rw [listOfJson, bind_eq_ok_iff] at hRead
      rcases hRead with ⟨p, _, hRest⟩
      rcases bind_eq_ok_iff.mp hRest with ⟨ps, hLater, hEnd⟩
      cases hEnd
      rw [List.length_cons, List.length_cons, ih hLater]

theorem Test.length_parts_of_build
    {d : TestDocument}
    {t : Test}
    (hBuild : build d = .ok t) :
    t.parts.length = d.parts.length := by
  rcases bind_eq_ok_iff.mp hBuild with ⟨_, _, hRest⟩
  rcases bind_eq_ok_iff.mp hRest with ⟨_, hParts, hRest⟩
  rcases bind_eq_ok_iff.mp hRest with ⟨_, _, hRest⟩
  rcases bind_eq_ok_iff.mp hRest with ⟨_, _, hEnd⟩
  cases hEnd
  exact TestPart.length_listOfJson hParts

namespace Package

/- A package is built from an envelope that has been opened. -/
theorem exists_envelope
    {v : Json}
    {p : Package}
    (hRead : ofJson v = .ok p) :
    ∃ e, Envelope.ofJson v = .ok e ∧ ofEnvelope e = .ok p := by
  unfold ofJson at hRead
  split at hRead
  next e hOpened => exact ⟨e, hOpened, hRead⟩
  next => cases hRead

/- Every test of a package has a part. -/
theorem parts_ne_nil
    {v : Json}
    {p : Package}
    (hRead : ofJson v = .ok p)
    {name : String}
    {t : Test}
    (hTest : p.tests.get? name = some t) :
    t.parts ≠ [] := by
  rcases exists_envelope hRead with ⟨e, hOpened, hBuild⟩
  rcases exists_of_ofEnvelope hBuild with
    ⟨items, tests, _, hTests, rfl⟩
  rcases exists_document_of_testsOf hTests _
    (Keyed.mem_of_get?_ofList hTest) with ⟨d, hMem, hDocument⟩
  have hSome := Envelope.parts_ne_nil hOpened hMem
  have hLength : t.parts.length = d.parts.length :=
    Test.length_parts_of_build (ok_of_mapError hDocument)
  rw [← List.length_pos_iff] at hSome ⊢
  omega

end Package

------------------------------------------------------------
-- The End of a Sitting
------------------------------------------------------------

open Stateful
open Program

namespace Simulation

variable {script : Script}
variable {s t : TestSession}

/- One round over items, as it is counted. -/
def itemOnce (script : Script) (now : Instant) :
    TestAction (ForInStep Instant) := do
  if ← TestSession.hasMoreItems then
    let now := tick now
    match ← TestSession.nextItem now with
    | none => return .done now
    | some e =>
        let now ←
          submitEach (entriesFor script e.ref.identifier) now
        return .yield now
  else return .done now

/- One round over parts, as it is counted. -/
def partOnce (script : Script) (now : Instant) :
    TestAction (ForInStep Instant) := do
  if ← TestSession.hasMoreParts then
    let now := tick now
    let _ ← TestSession.nextPart now
    let items := (← get).entries.length
    let now ← takeItems script (items + 1) now
    TestSession.endPart (tick now)
    let state ← TestSession.getState
    return if state.finished then .done (tick now)
      else .yield (tick now)
  else return .done now

theorem takeItems_succ
    (script : Script)
    (n : Nat)
    (now : Instant) :
    takeItems script (n + 1) now =
      itemOnce script now >>= leaveOr (takeItems script n) := by
  rw [takeItems, itemOnce, bind_assoc]
  refine bind_congr fun more => ?_
  cases more with
  | false => rfl
  | true =>
      simp only [if_true, bind_assoc]
      refine bind_congr fun e? => ?_
      cases e? with
      | none => rfl
      | some e => simp [leaveOr]

theorem takeParts_succ
    (script : Script)
    (n : Nat)
    (now : Instant) :
    takeParts script (n + 1) now =
      partOnce script now >>= leaveOr (takeParts script n) := by
  rw [takeParts, partOnce, bind_assoc]
  refine bind_congr fun more => ?_
  cases more with
  | false => rfl
  | true =>
      simp only [if_true, bind_assoc, pure_bind]
      refine bind_congr fun _ => ?_
      refine bind_congr fun _ => ?_
      refine bind_congr fun _ => ?_
      refine bind_congr fun _ => ?_
      refine bind_congr fun state => ?_
      cases state.finished <;> rfl

theorem submitEach_follows
    (entries : List ScriptEntry)
    (now : Instant)
    (s : TestSession) :
    Follows (submitting entries now) (submitEach entries now)
      s := by
  induction entries generalizing now s with
  | nil => exact follows_step _ _ s
  | cons e rest ih =>
      exact Follows.next (follows_step _ _ s) fun _ _ u _ =>
        ih (tick now) u

theorem itemOnce_follows
    (script : Script)
    (now : Instant)
    (s : TestSession) :
    Follows (itemRound script now) (itemOnce script now) s := by
  refine Follows.next (follows_step _ _ s) fun _ more u _ => ?_
  cases more with
  | false => exact follows_step _ _ u
  | true =>
      refine Follows.next (follows_step _ _ u)
        fun _ e? v _ => ?_
      cases e? with
      | none => exact follows_step _ _ v
      | some e =>
          exact Follows.next (submitEach_follows _ _ v)
            fun _ _ w _ => follows_step _ _ w

/- There are as many rounds as there are items to come. -/
theorem takeItems_follows
    (hOrder : s.Orderly)
    (now : Instant) :
    Follows (Loop (itemRound script) now)
      (takeItems script (s.entries.length + 1) now) s := by
  refine Follows.loop (I := TestSession.Orderly)
    (fun u => u.upcoming.length) (takeItems_succ script)
    (fun b u _ => itemOnce_follows script b u)
    (fun b c u v path hOrderU hRound => ?_)
    (s.entries.length + 1) now hOrder
    (Nat.lt_succ_of_le s.length_upcoming_le)
  have hAfter : v = u.after path :=
    itemRound_records script _ _ _ _ _ hRound
  rcases itemRound_ok hOrderU hRound with ⟨j, hUpcoming, _⟩
  refine ⟨orderly_of_after hAfter hOrderU, ?_⟩
  simp [hUpcoming]

theorem partOnce_follows
    (hOrder : s.Orderly)
    (now : Instant) :
    Follows (partRound script now) (partOnce script now) s := by
  refine Follows.next (follows_step _ _ s)
    fun _ more u hAsk => ?_
  have hSame : u = s := by
    have hLook := (TestSession.ends_hasMoreParts s).of_run hAsk.2
    exact hLook.1
  cases more with
  | false => exact follows_step _ _ u
  | true =>
      refine Follows.next (follows_step _ _ u)
        fun _ part? v hNext => ?_
      have hAfter := eq_after_call (.nextPart (tick now))
        hNext.2 (run_discard_snd _ _)
      have hOrderV : v.Orderly :=
        orderly_of_after hAfter (hSame ▸ hOrder)
      refine follows_get (Follows.next
        (takeItems_follows hOrderV _) fun _ _ w _ => ?_)
      refine Follows.next (follows_step _ _ w) fun _ _ x _ => ?_
      exact Follows.next (follows_step _ _ x) fun _ _ y _ =>
        follows_step _ _ y

/- The parts behind the one that is under way. -/
def partsAhead (s : TestSession) : Nat :=
  s.test.parts.length - TestSession.following s.state

theorem takeParts_follows
    (hOrder : s.Orderly)
    (now : Instant) :
    Follows (Loop (partRound script) now)
      (takeParts script (s.test.parts.length + 1) now) s := by
  refine Follows.loop (I := TestSession.Orderly)
    partsAhead (takeParts_succ script)
    (fun b u hOrderU => partOnce_follows hOrderU b)
    (fun b c u v path hOrderU hRound => ?_)
    (s.test.parts.length + 1) now hOrder
    (Nat.lt_succ_of_le (Nat.sub_le _ _))
  have hAfter : v = u.after path :=
    partRound_records script _ _ _ _ _ hRound
  rcases partRound_ok hOrderU hRound with ⟨hVisited, hLess, _⟩
  refine ⟨orderly_of_after hAfter hOrderU, ?_⟩
  unfold partsAhead
  rw [test_of_after hAfter, hVisited.following_eq]
  omega

/- The rounds that are counted are enough for every sitting. -/
theorem examinee_follows
    (script : Script)
    (hOrder : s.Orderly)
    (start : Instant) :
    Follows (sitting script start) (examinee script start) s := by
  refine Follows.next (follows_step _ _ s)
    fun _ _ u hInit => ?_
  refine Follows.next (follows_step _ _ u)
    fun _ _ v hEnter => ?_
  have hOrderU := orderly_of_after
    (eq_after_call .initialise hInit.2 rfl) hOrder
  have hOrderV := orderly_of_after
    (eq_after_call (.enterTest (tick start)) hEnter.2 rfl)
    hOrderU
  exact follows_get (Follows.next (takeParts_follows hOrderV _)
    fun _ _ w _ => follows_step _ _ w)

------------------------------------------------------------
-- Complete Sittings
------------------------------------------------------------

/-
  What calls to a new session come to when the candidate has
  gone through with everything.
-/
structure Complete
    (script : Script)
    (first : TestSession)
    (calls : List TestCall)
    (last : TestSession) :
    Prop where
  /- The session is changed by these calls alone. -/
  left : last = first.after calls
  /- Parts are entered and ended, and items given their own. -/
  deeds :
    first.gathered TestCall.deed? calls = itinerary script first
  /- Every item is shown once, in the order of the plan. -/
  shown :
    (first.gathered TestCall.deed? calls).filterMap shown? =
      List.range first.entries.length
  finished : last.state.finished = true
  ended : ∀ q < first.test.parts.length, q ∈ last.state.ended
  closed :
    last.entries.length = first.entries.length ∧
      ∀ e ∈ last.entries, e.session.state.phase = .finished

theorem complete_of_sitting
    {t : Test}
    {items : Keyed Item}
    {engine : Engine}
    {draws : Draws}
    {first last : TestSession}
    (hStart : TestSession.start t items engine draws = .ok first)
    (hSome : t.parts ≠ [])
    {start finish : Instant}
    {calls : List TestCall}
    (hSat :
      sitting script start first calls (.ok finish) last) :
    Complete script first calls last := by
  have hOrder := TestSession.start_orderly hStart
  have hLeft : last = first.after calls :=
    sitting_records script start _ _ _ _ hSat
  have hTest := TestSession.start_test hStart
  have hParts := TestSession.start_hasParts hStart
  rcases sitting_ok hOrder (TestSession.start_held hStart).1
    hSat with ⟨hDeeds, hFinished⟩
  rcases hFinished (by rw [hTest]; exact hSome) with
    ⟨hOver, hEnded⟩
  have hPlaces := first.after_sameSetup calls
  have hPartsLast : last.HasParts := by
    rw [hLeft]
    exact hPlaces.hasParts hParts
  refine ⟨hLeft, hDeeds, ?_, hOver, hEnded, ?_, ?_⟩
  · rw [hDeeds]
    exact shown_of_itinerary hParts
      (TestSession.start_rising hStart)
  · rw [hLeft]
    exact hPlaces.length
  · intro e hMem
    have hLed := (orderly_of_after hLeft hOrder).led
    have hBound := hPartsLast e hMem
    rw [test_of_after hLeft] at hBound
    exact hLed.closed e hMem (hEnded e.part hBound)

/-
  What comes of running a test of a package, with the calls
  that are made. No number of rounds is given.
-/
inductive Runs
    (p : Package)
    (identifier : String)
    (engine : Engine)
    (draws : Draws)
    (script : Script)
    (start : Instant) :
    List TestCall → Except Failure TestOutcome → Prop
  | unknown {e : Failure} :
      p.test identifier = .error e →
        Runs p identifier engine draws script start [] (.error e)
  | unplanned {t : Test} {e : Failure} :
      p.test identifier = .ok t →
        TestSession.start t p.items engine draws = .error e →
          Runs p identifier engine draws script start []
            (.error e)
  | sat {t : Test} {first last : TestSession}
      {calls : List TestCall} {r : Except Failure Instant} :
      p.test identifier = .ok t →
        TestSession.start t p.items engine draws = .ok first →
          sitting script start first calls r last →
            Runs p identifier engine draws script start calls
              (r.map fun finish => ⟨last, finish⟩)

variable {p : Package}
variable {identifier : String}
variable {engine : Engine}
variable {draws : Draws}
variable {start : Instant}

/- A test that is planned is run on the session made for it. -/
theorem runTest_of_start
    {t : Test}
    {first : TestSession}
    (hTest : p.test identifier = .ok t)
    (hStart :
      TestSession.start t p.items engine draws = .ok first) :
    runTest p identifier engine draws script start =
      (run (examinee script start) first).1.map
        (⟨(run (examinee script start) first).2, ·⟩) := by
  simp only [runTest, hTest, hStart, bind, Except.bind]
  rcases hRun : run (examinee script start) first with ⟨r, last⟩
  rw [show ExceptT.run (examinee script start) first =
    (r, last) from hRun]
  cases r <;> rfl

/- To run a test with counted rounds is a way of running it. -/
theorem exists_runs
    (p : Package)
    (identifier : String)
    (engine : Engine)
    (draws : Draws)
    (script : Script)
    (start : Instant) :
    ∃ calls, Runs p identifier engine draws script start calls
      (runTest p identifier engine draws script start) := by
  cases hTest : p.test identifier with
  | error e =>
      refine ⟨[], ?_⟩
      rw [runTest, hTest]
      exact .unknown hTest
  | ok t =>
      cases hStart :
          TestSession.start t p.items engine draws with
      | error e =>
          refine ⟨[], ?_⟩
          simp only [runTest, hTest, hStart, bind, Except.bind]
          exact .unplanned hTest hStart
      | ok first =>
          have hFollows := examinee_follows script
            (TestSession.start_orderly hStart) start
          unfold Follows Ends at hFollows
          rcases hFollows with ⟨calls, hSat⟩
          rw [runTest_of_start hTest hStart]
          exact ⟨calls, .sat hTest hStart hSat⟩

/- No run of a test comes to two ends. -/
theorem runs_unique
    {calls calls' : List TestCall}
    {outcome outcome' : Except Failure TestOutcome}
    (hRuns :
      Runs p identifier engine draws script start calls outcome)
    (hRuns' :
      Runs p identifier engine draws script start calls'
        outcome') :
    (calls, outcome) = (calls', outcome') := by
  cases hRuns with
  | unknown hTest =>
      cases hRuns' with
      | unknown hTest' =>
          cases hTest.symm.trans hTest'
          rfl
      | unplanned hTest' _ => cases hTest.symm.trans hTest'
      | sat hTest' _ _ => cases hTest.symm.trans hTest'
  | unplanned hTest hStart =>
      cases hRuns' with
      | unknown hTest' => cases hTest.symm.trans hTest'
      | unplanned hTest' hStart' =>
          cases hTest.symm.trans hTest'
          cases hStart.symm.trans hStart'
          rfl
      | sat hTest' hStart' _ =>
          cases hTest.symm.trans hTest'
          cases hStart.symm.trans hStart'
  | sat hTest hStart hSat =>
      cases hRuns' with
      | unknown hTest' => cases hTest.symm.trans hTest'
      | unplanned hTest' hStart' =>
          cases hTest.symm.trans hTest'
          cases hStart.symm.trans hStart'
      | sat hTest' hStart' hSat' =>
          cases hTest.symm.trans hTest'
          cases hStart.symm.trans hStart'
          cases sitting_certain script start hSat hSat'
          rfl

/-
  Every run of a test of a package ends, in one way, which is
  the one that counted rounds come to. If it goes through, all
  parts and items of the session are complete. These are the
  items of the plan, in their order, but for those whose
  identifier last stands for a reference without an item, and
  where identifiers are distinct there are no such items.
-/
theorem run_complete
    (v : Json)
    (p : Package)
    (hRead : Package.ofJson v = .ok p)
    (identifier : String)
    (engine : Engine)
    (draws : Draws)
    (script : Script)
    (start : Instant) :
    ∃ calls,
      (∀ calls' outcome,
        Runs p identifier engine draws script start calls'
            outcome ↔
          calls' = calls ∧
            outcome =
              runTest p identifier engine draws script start) ∧
      ∀ outcome,
        runTest p identifier engine draws script start =
            .ok outcome →
          ∃ t first, p.test identifier = .ok t ∧
            TestSession.start t p.items engine draws =
              .ok first ∧
            Complete script first calls outcome.session ∧
            first.entries.map TestSession.key =
              (first.plan.items.filter
                (TestSession.holds t p.items)).map (fun x =>
                  (x.1, x.2.identifier, x.2.occurrence)) ∧
            (t.identifiers.Nodup →
              ∀ x ∈ first.plan.items,
                TestSession.holds t p.items x = true) := by
  rcases exists_runs p identifier engine draws script start with
    ⟨calls, hRuns⟩
  refine ⟨calls, fun calls' outcome => ⟨?_, ?_⟩, ?_⟩
  · intro hOther
    cases runs_unique hRuns hOther
    exact ⟨rfl, rfl⟩
  · rintro ⟨rfl, rfl⟩
    exact hRuns
  · intro outcome hOk
    rw [hOk] at hRuns
    generalize hResult : (Except.ok outcome : Except Failure _) =
      result at hRuns
    cases hRuns with
    | unknown => cases hResult
    | unplanned => cases hResult
    | @sat t first last _ r hTest hStart hSat =>
        cases r with
        | error => cases hResult
        | ok finish =>
            cases hResult
            have hSome : t.parts ≠ [] := by
              unfold Package.test at hTest
              split at hTest
              next hFound =>
                cases hTest
                exact Package.parts_ne_nil hRead hFound
              next => cases hTest
            exact ⟨t, first, hTest, hStart,
              complete_of_sitting hStart hSome hSat,
              (TestSession.start_held hStart).2,
              fun hDistinct => TestSession.holds_of_distinct
                hDistinct hStart⟩

------------------------------------------------------------
-- Two References
------------------------------------------------------------

/- A reference of a name to an item. -/
def namedRef (identifier href : String) : Json :=
  .ofMembers [
    ("kind", .string "assessmentItemRef"),
    ("identifier", .string identifier),
    ("href", .string href)]

/- A package of one item and a test with some references. -/
def satPackage (refs : List Json) : Json :=
  .ofMembers [
    ("id", .string "package"),
    ("documents", .array [
      .ofMembers [
        ("kind", .string "AssessmentItem"),
        ("identifier", .string "item")],
      .ofMembers [
        ("kind", .string "AssessmentTest"),
        ("identifier", .string "test"),
        ("testParts", .array [
          .ofMembers [
            ("identifier", .string "part"),
            ("assessmentSections", .array [
              .ofMembers [
                ("identifier", .string "section"),
                ("sectionParts", .array refs)]])]])]])]

/- A script with one submission for each of two references. -/
def satScript : Script :=
  { entries := [⟨some "second", []⟩, ⟨some "first", []⟩] }

/- A test of two references is gone through. -/
theorem run_complete_pair :
    ∃ p outcome,
      Package.ofJson (satPackage
          [namedRef "first" "item", namedRef "second" "item"]) =
        .ok p ∧
      runTest p "test" ⟨{}, none⟩ default satScript ⟨0⟩ =
        .ok outcome ∧
      ∃ t first calls, p.test "test" = .ok t ∧
        TestSession.start t p.items ⟨{}, none⟩ default =
          .ok first ∧
        Complete satScript first calls outcome.session := by
  have hPackage : ∃ p,
      Package.ofJson (satPackage
          [namedRef "first" "item", namedRef "second" "item"]) =
        .ok p ∧
      (runTest p "test" ⟨{}, none⟩ default satScript ⟨0⟩).isOk =
        true :=
    ⟨_, rfl, by decide +kernel⟩
  rcases hPackage with ⟨p, hRead, hOk⟩
  rcases run_complete _ p hRead "test" ⟨{}, none⟩ default
    satScript ⟨0⟩ with ⟨calls, _, hComplete⟩
  cases hRun : runTest p "test" ⟨{}, none⟩ default satScript
      ⟨0⟩ with
  | error e =>
      rw [hRun] at hOk
      cases hOk
  | ok outcome =>
      rcases hComplete outcome hRun with
        ⟨t, first, hTest, hStart, hSat, _⟩
      exact ⟨p, outcome, hRead, hRun, t, first, calls, hTest,
        hStart, hSat⟩

/-
  A planned item is passed over in a run that goes through
  where a later reference of the same name leads nowhere.
-/
theorem planned_item_passed_over :
    ∃ p outcome,
      Package.ofJson (satPackage
          [namedRef "ref" "item", namedRef "ref" "lost"]) =
        .ok p ∧
      runTest p "test" ⟨{}, none⟩ default {} ⟨0⟩ =
        .ok outcome ∧
      outcome.session.plan.items.length = 1 ∧
      outcome.session.entries.length = 0 := by
  have hPackage : ∃ p,
      Package.ofJson (satPackage
          [namedRef "ref" "item", namedRef "ref" "lost"]) =
        .ok p ∧
      ((runTest p "test" ⟨{}, none⟩ default {} ⟨0⟩).toOption.any
        fun outcome =>
          outcome.session.plan.items.length == 1 &&
            outcome.session.entries.length == 0) = true :=
    ⟨_, rfl, by decide +kernel⟩
  rcases hPackage with ⟨p, hRead, hAny⟩
  cases hRun : runTest p "test" ⟨{}, none⟩ default {} ⟨0⟩ with
  | error e =>
      rw [hRun] at hAny
      cases hAny
  | ok outcome =>
      rw [hRun] at hAny
      refine ⟨p, outcome, hRead, hRun, ?_⟩
      simpa [Except.toOption] using hAny

end Simulation

end Assessment
