import Assessment.Command.Simulation
import Assessment.Proofs.Loops
import Assessment.Proofs.Test.Deeds
import Assessment.Proofs.Test.Entries
import Mathlib.Data.List.Sort

/-
  Sittings of a simulated candidate and their itinerary.

  A candidate goes on while there are more parts, and in each
  of them while there are more items, for as long as that may
  take. The candidate makes no choices, and the session is
  changed by the calls that are noted and by nothing else.

  A round over the items of a part that goes through shows the
  first item that is still to come and submits what the script
  has for it, all of it while the item is the current one. A
  round over the parts enters the next part, shows all of its
  items and ends it. So a sitting in which nothing fails keeps
  to an itinerary that is known before it begins.

  Main declarations:
    * `Simulation.sitting`, without a bound on its rounds
    * `sitting_certain` and `sitting_records`
    * `Simulation.itinerary`, what comes of a sitting
    * `itemRound_ok` and `itemsLoop_ok`, within a part
    * `partRound_ok` and `partsLoop_ok`, over all parts
-/

------------------------------------------------------------
-- Sittings
------------------------------------------------------------

namespace Assessment

open Stateful
open Program

namespace Simulation

variable {α : Type}

/- A call that is made and noted. -/
def makes (c : TestCall) (x : TestAction α) :
    Program TestSession TestCall α :=
  step [c] x

/- Something that is only looked at. -/
def asks (x : TestAction α) : Program TestSession TestCall α :=
  step [] x

/- Submissions to the current item. -/
def submitting :
    List ScriptEntry → Instant →
      Program TestSession TestCall Instant
  | [], now => asks (pure now)
  | e :: rest, now =>
      Then
        (makes (.submit e.responses (tick now))
          (TestSession.submit e.responses (tick now)))
        fun _ => submitting rest (tick now)

/- A round over the items of a part, if there are more. -/
def itemRound (script : Script) (now : Instant) :
    Program TestSession TestCall (ForInStep Instant) :=
  Then (asks TestSession.hasMoreItems) fun more =>
    if more then
      Then
        (makes (.nextItem (tick now))
          (TestSession.nextItem (tick now)))
        fun e? =>
          match e? with
          | none => asks (pure (.done (tick now)))
          | some e =>
              Then
                (submitting (entriesFor script e.ref.identifier)
                  (tick now))
                fun now => asks (pure (.yield now))
    else asks (pure (.done now))

/- A round over the parts of a test, if there are more. -/
def partRound (script : Script) (now : Instant) :
    Program TestSession TestCall (ForInStep Instant) :=
  Then (asks TestSession.hasMoreParts) fun more =>
    if more then
      Then
        (makes (.nextPart (tick now))
          (TestSession.nextPart (tick now)))
        fun _ =>
          Then (Loop (itemRound script) (tick now)) fun now =>
            Then
              (makes (.endPart (tick now))
                (TestSession.endPart (tick now)))
              fun _ =>
                Then (asks TestSession.getState) fun state =>
                  asks (pure
                    (if state.finished then .done (tick now)
                      else .yield (tick now)))
    else asks (pure (.done now))

/- A whole sitting, from the first call to the last instant. -/
def sitting (script : Script) (start : Instant) :
    Program TestSession TestCall Instant :=
  Then (makes .initialise TestSession.initialise) fun _ =>
    Then
      (makes (.enterTest (tick start))
        (TestSession.enterTest (tick start)))
      fun _ =>
        Then (Loop (partRound script) (tick start)) fun now =>
          asks (pure (tick now))

------------------------------------------------------------
-- Certainty
------------------------------------------------------------

theorem submitting_certain
    (entries : List ScriptEntry)
    (now : Instant) :
    Certain (submitting entries now) := by
  induction entries generalizing now with
  | nil => exact certain_step _ _
  | cons e rest ih =>
      exact (certain_step _ _).next fun _ => ih _

theorem itemRound_certain (script : Script) (now : Instant) :
    Certain (itemRound script now) := by
  refine (certain_step _ _).next fun more => ?_
  split
  · refine (certain_step _ _).next fun e? => ?_
    split
    · exact certain_step _ _
    · exact (submitting_certain _ _).next fun _ =>
        certain_step _ _
  · exact certain_step _ _

theorem partRound_certain (script : Script) (now : Instant) :
    Certain (partRound script now) := by
  refine (certain_step _ _).next fun more => ?_
  split
  · refine (certain_step _ _).next fun _ => ?_
    refine (Certain.loop (itemRound_certain script) _).next
      fun _ => ?_
    refine (certain_step _ _).next fun _ => ?_
    exact (certain_step _ _).next fun _ => certain_step _ _
  · exact certain_step _ _

/- A sitting comes to one end at most. -/
theorem sitting_certain (script : Script) (start : Instant) :
    Certain (sitting script start) := by
  refine (certain_step _ _).next fun _ => ?_
  refine (certain_step _ _).next fun _ => ?_
  refine (Certain.loop (partRound_certain script) _).next
    fun _ => ?_
  exact certain_step _ _

------------------------------------------------------------
-- Records
------------------------------------------------------------

theorem pure_records (a : α) :
    Records TestCall.action (asks (pure a)) :=
  records_silent fun _ => rfl

theorem submitting_records
    (entries : List ScriptEntry)
    (now : Instant) :
    Records TestCall.action (submitting entries now) := by
  induction entries generalizing now with
  | nil => exact pure_records now
  | cons e rest ih =>
      exact Records.next
        (records_call fun _ => run_discard_snd _ _) fun _ => ih _

theorem itemRound_records (script : Script) (now : Instant) :
    Records TestCall.action (itemRound script now) := by
  have hAsks : Records TestCall.action
      (asks TestSession.hasMoreItems) :=
    records_silent fun s => (TestSession.ends_hasMoreItems s).1
  refine hAsks.next fun more => ?_
  split
  · refine Records.next
      (records_call fun _ => run_discard_snd _ _) fun e? => ?_
    split
    · exact pure_records _
    · exact (submitting_records _ _).next fun _ =>
        pure_records _
  · exact pure_records _

theorem partRound_records (script : Script) (now : Instant) :
    Records TestCall.action (partRound script now) := by
  have hAsks : Records TestCall.action
      (asks TestSession.hasMoreParts) :=
    records_silent fun s => (TestSession.ends_hasMoreParts s).1
  refine hAsks.next fun more => ?_
  split
  · refine Records.next
      (records_call fun _ => run_discard_snd _ _) fun _ => ?_
    refine (Records.loop (itemRound_records script) _).next
      fun _ => ?_
    refine Records.next (records_call fun _ => rfl) fun _ => ?_
    exact (records_silent fun _ => rfl).next fun _ =>
      pure_records _
  · exact pure_records _

/- What a sitting notes are the calls that it makes. -/
theorem sitting_records (script : Script) (start : Instant) :
    Records TestCall.action (sitting script start) := by
  refine Records.next (records_call fun _ => rfl) fun _ => ?_
  refine Records.next (records_call fun _ => rfl) fun _ => ?_
  refine (Records.loop (partRound_records script) _).next
    fun _ => ?_
  exact pure_records _

end Simulation

------------------------------------------------------------
-- The Itinerary
------------------------------------------------------------

open Stateful
open Program

namespace Simulation

/- What a candidate does with the item at a place. -/
def attends (script : Script) (s : TestSession) (i : Nat) :
    List TestDeed :=
  .shows i :: s.entries[i]?.toList.flatMap fun e =>
    (entriesFor script e.ref.identifier).map fun x =>
      .submits i x.responses

/- What a candidate does in a part. -/
def visits (script : Script) (s : TestSession) (p : Nat) :
    List TestDeed :=
  .enters p ::
    ((s.placesIn p).flatMap (attends script s) ++ [.ends p])

/- What a candidate does in a test. -/
def itinerary (script : Script) (s : TestSession) :
    List TestDeed :=
  (List.range s.test.parts.length).flatMap (visits script s)

variable {script : Script}
variable {s t : TestSession}

theorem attends_eq_of_keeps (hKeeps : s.KeepsEntries t) :
    attends script t = attends script s := by
  funext i
  have hSame := congrArg
    (fun entries : List (ItemRef × Nat × Nat × List String) =>
      (entries.map Prod.fst)[i]?) hKeeps
  simp only [List.map_map, List.getElem?_map] at hSame
  unfold attends
  cases hE : s.entries[i]? with
  | none =>
      cases hF : t.entries[i]? with
      | none => rfl
      | some f => simp [hE, hF] at hSame
  | some e =>
      cases hF : t.entries[i]? with
      | none => simp [hE, hF] at hSame
      | some f =>
          have hRef : f.ref = e.ref := by
            simpa [hE, hF] using hSame
          simp [hRef]

theorem visits_eq_of_keeps (hKeeps : s.KeepsEntries t) :
    visits script t = visits script s := by
  funext p
  have hParts :
      t.entries.map ItemEntry.part =
        s.entries.map ItemEntry.part := by
    have hSame := congrArg
      (List.map fun x : ItemRef × Nat × Nat × List String =>
        x.2.2.1) hKeeps
    simpa [Function.comp_def] using hSame
  unfold visits
  rw [attends_eq_of_keeps hKeeps, TestSession.placesIn_eq,
    TestSession.placesIn_eq, hParts]

------------------------------------------------------------
-- Calls That Were Made
------------------------------------------------------------

section Made

variable {path : List TestCall}
variable (hAfter : t = s.after path)

include hAfter

theorem orderly_of_after (hOrder : s.Orderly) : t.Orderly := by
  rw [hAfter]
  exact TestSession.after_orderly hOrder path

theorem test_of_after : t.test = s.test := by
  rw [hAfter, TestSession.after_test]

/- What is done on the way is done at the same places. -/
theorem keeps_of_after : s.KeepsEntries t := by
  rw [hAfter]
  exact after_moves TestSession.call_keepsEntries s path

/- What is done after a step comes behind what it does. -/
theorem gathered_after (later : List TestCall) :
    s.gathered TestCall.deed? (path ++ later) =
      s.gathered TestCall.deed? path ++
        t.gathered TestCall.deed? later := by
  rw [TestSession.gathered_append, hAfter]

end Made

/- What a call gives back does not matter for what it leaves. -/
theorem eq_after_call
    {α : Type}
    (c : TestCall)
    {x : TestAction α}
    {r : Except Failure α}
    (hRun : run x s = (r, t))
    (hCall : (run c.action s).2 = (run x s).2) :
    t = s.after [c] := by
  change t = (run c.action s).2
  rw [hCall, hRun]

theorem gathered_call (s : TestSession) (c : TestCall) :
    s.gathered TestCall.deed? [c] = (c.deed? s).toList := by
  rw [TestSession.gathered, TestSession.gathered,
    List.append_nil]

------------------------------------------------------------
-- Submissions
------------------------------------------------------------

/- All is submitted to the item that is the current one. -/
theorem submitting_ok
    {entries : List ScriptEntry}
    {now finish : Instant}
    {path : List TestCall}
    (hOrder : s.Orderly)
    {i : Nat}
    (hItem : s.state.item = some i)
    (hRun : submitting entries now s path (.ok finish) t) :
    s.gathered TestCall.deed? path =
        entries.map (fun x => .submits i x.responses) ∧
      s.Calm t := by
  induction entries generalizing now s path with
  | nil =>
      rcases hRun with ⟨rfl, hDone⟩
      cases hDone
      exact ⟨rfl, Std.Refl.refl (r := TestSession.Calm) _⟩
  | cons e rest ih =>
      rcases then_ok_iff.mp hRun with
        ⟨x, u, _, later, ⟨rfl, hSubmit⟩, hRest, rfl⟩
      have hAfter := eq_after_call
        (.submit e.responses (tick now)) hSubmit
          (run_discard_snd _ _)
      have hCalm : s.Calm u :=
        (TestSession.submit_calm hOrder e.responses
          (tick now)).of_run hSubmit
      rcases ih (hCalm.orderly hOrder)
        ((TestSession.Onward.item hCalm).trans hItem) hRest with
        ⟨hDeeds, hThen⟩
      refine ⟨?_, IsTrans.trans _ _ _ hCalm hThen⟩
      rw [gathered_after hAfter, gathered_call,
        TestCall.deed?_submit hSubmit, hItem, hDeeds]
      rfl

------------------------------------------------------------
-- Items
------------------------------------------------------------

/- The item that moving on gives is attended to. -/
theorem attending_ok
    {now finish : Instant}
    {e : ItemEntry}
    {path : List TestCall}
    {u : TestSession}
    {p j : Nat}
    (hOrder : s.Orderly)
    (hPart : s.state.part = some p)
    (hNext :
      run (TestSession.nextItem now) s = (.ok (some e), t))
    (hTurns : s.Turns False p j t)
    (hRun :
      submitting (entriesFor script e.ref.identifier) now t path
        (.ok finish) u) :
    s.upcoming = j :: u.upcoming ∧
      u.state.part = s.state.part ∧
      s.gathered TestCall.deed? ([.nextItem now] ++ path) =
        attends script s j := by
  have hAfter := eq_after_call (.nextItem now) hNext
    (run_discard_snd _ _)
  have hOrder' := orderly_of_after hAfter hOrder
  rcases submitting_ok hOrder' hTurns.item hRun with
    ⟨hDeeds, hCalm⟩
  have hGoing := TestSession.Onward.going hCalm hOrder'
  have hItem := TestSession.Onward.item hCalm
  have hEntry : t.entries[j]? = some e := by
    have hCurrent := (TestSession.ends_nextItem_current now
      s).of_run hNext e rfl
    rwa [TestSession.current?, hTurns.item] at hCurrent
  refine ⟨?_, hGoing.part.trans hTurns.part, ?_⟩
  · rw [hTurns.upcoming_eq hPart, hGoing.upcoming_eq hItem]
  · rw [gathered_after hAfter, gathered_call,
      TestCall.deed?_nextItem hNext, hTurns.item, hDeeds,
      ← attends_eq_of_keeps (keeps_of_after hAfter), attends,
      hEntry]
    simp

/-
  A round over the items attends to the first item to come, or
  there is none.
-/
theorem itemRound_ok
    {now : Instant}
    {next : ForInStep Instant}
    {path : List TestCall}
    (hOrder : s.Orderly) :
    itemRound script now s path (.ok next) t →
      match next with
      | .done _ => s.upcoming = [] ∧ path = [] ∧ t = s
      | .yield _ =>
          ∃ j, s.upcoming = j :: t.upcoming ∧
            t.state.part = s.state.part ∧
            s.gathered TestCall.deed? path =
              attends script s j := by
  intro hRun
  rcases then_ok_iff.mp hRun with
    ⟨more, u, _, later, ⟨rfl, hAsk⟩, hAsked, rfl⟩
  rcases (TestSession.ends_hasMoreItems s).of_run hAsk with
    ⟨rfl, hAll⟩
  rcases hAll more rfl with ⟨hInit, ⟨p, hPart⟩, hMore⟩
  split at hAsked
  next hTrue =>
    rcases then_ok_iff.mp hAsked with
      ⟨e?, v, _, later, ⟨rfl, hNext⟩, hShown, rfl⟩
    have hTurn := (TestSession.ends_nextItem_turn hOrder hInit
      hPart (fun h : False => h.elim) (tick now)).of_run hNext
    cases e? with
    | none =>
        have hEmpty := hTurn.2.2
        rw [TestSession.nextPlace?_eq_head? hPart,
          List.head?_eq_none_iff] at hEmpty
        exact absurd hEmpty (hMore.mp hTrue)
    | some e =>
        rcases hTurn with ⟨j, hTurns⟩
        rcases then_ok_iff.mp hShown with
          ⟨_, w, given, _, hSubmit, ⟨rfl, hDone⟩, rfl⟩
        cases hDone
        rw [List.append_nil]
        exact ⟨j, attending_ok hOrder hPart hNext hTurns hSubmit⟩
  next hFalse =>
    rcases hAsked with ⟨rfl, hDone⟩
    cases hDone
    refine ⟨?_, rfl, rfl⟩
    by_contra hSome
    exact hFalse (hMore.mpr hSome)

/- In a part, all items to come are attended to in a row. -/
theorem itemsLoop_ok
    {now finish : Instant}
    {path : List TestCall}
    (hOrder : s.Orderly)
    (hRun : Loop (itemRound script) now s path (.ok finish) t) :
    s.gathered TestCall.deed? path =
        s.upcoming.flatMap (attends script s) ∧
      t.state.part = s.state.part := by
  generalize hResult : (Except.ok finish : Except Failure _) = r
    at hRun
  induction hRun with
  | failed => cases hResult
  | last hLast =>
      rcases itemRound_ok hOrder hLast with ⟨hNone, rfl, rfl⟩
      rw [hNone]
      exact ⟨rfl, rfl⟩
  | @next _ _ s u _ path later _ hNext _ ih =>
      have hAfter : u = s.after path :=
        itemRound_records script _ _ _ _ _ hNext
      rcases itemRound_ok hOrder hNext with
        ⟨j, hUpcoming, hPart, hDeeds⟩
      rcases ih (orderly_of_after hAfter hOrder) hResult with
        ⟨hRest, hSame⟩
      refine ⟨?_, hSame.trans hPart⟩
      rw [gathered_after hAfter, hDeeds, hRest, hUpcoming,
        attends_eq_of_keeps (keeps_of_after hAfter),
        List.flatMap_cons]

------------------------------------------------------------
-- Parts
------------------------------------------------------------

/- A part has been visited from its first call to its end. -/
structure Visited
    (script : Script)
    (s : TestSession)
    (path : List TestCall)
    (t : TestSession) :
    Prop where
  deeds :
    s.gathered TestCall.deed? path =
      visits script s (TestSession.following s.state)
  part : t.state.part = some (TestSession.following s.state)
  ended : TestSession.following s.state ∈ t.state.ended
  finished :
    t.state.finished =
      (TestSession.following s.state + 1 == s.test.parts.length)

theorem Visited.following_eq
    {path : List TestCall}
    (hVisited : Visited script s path t) :
    TestSession.following t.state =
      TestSession.following s.state + 1 := by
  rw [TestSession.following, hVisited.part]

/- With the part visited last, all parts have ended. -/
theorem Visited.ended_all
    {path : List TestCall}
    (hVisited : Visited script s path t)
    (hOrder : t.Orderly)
    (hLast :
      TestSession.following s.state + 1 = s.test.parts.length)
    (q : Nat)
    (hLess : q < s.test.parts.length) :
    q ∈ t.state.ended := by
  have hBound : q ≤ TestSession.following s.state := by omega
  rcases Nat.lt_or_eq_of_le hBound with hBefore | rfl
  · exact InOrder.before hOrder _ hVisited.part q hBefore
  · exact hVisited.ended

/- A part that is entered, gone through and ended. -/
theorem visited_of_calls
    {now later instant : Instant}
    {part : TestPart}
    {u v : TestSession}
    {onItems : List TestCall}
    (hOrder : s.Orderly)
    (hNext :
      run (TestSession.nextPart now) s = (.ok (some part), u))
    (hItems :
      Loop (itemRound script) now u onItems (.ok later) v)
    (hEnd :
      run (TestSession.endPart instant) v = (.ok (), t)) :
    Visited script s
      ([.nextPart now] ++ (onItems ++ [.endPart instant])) t := by
  have hAfterNext := eq_after_call (.nextPart now) hNext
    (run_discard_snd _ _)
  have hAfterItems : v = u.after onItems :=
    Records.loop (itemRound_records script) _ _ _ _ _ hItems
  have hOrderU := orderly_of_after hAfterNext hOrder
  have hOrderV := orderly_of_after hAfterItems hOrderU
  have hTest : v.test = s.test :=
    (test_of_after hAfterItems).trans (test_of_after hAfterNext)
  rcases (TestSession.ends_nextPart_entering now s).of_run
    hNext with ⟨hPart, hNone⟩
  rcases itemsLoop_ok hOrderU hItems with ⟨hDeeds, hSame⟩
  rcases (TestSession.ends_endPart_closing hOrderV
    instant).of_run hEnd rfl with
    ⟨q, hQ, hStill, hIn, hFinished⟩
  have hHere : q = TestSession.following s.state := by
    rw [hSame, hPart] at hQ
    exact (Option.some.inj hQ).symm
  subst hHere
  rw [hTest] at hFinished
  refine ⟨?_, hStill, hIn, hFinished⟩
  rw [gathered_after hAfterNext, gathered_after hAfterItems,
    gathered_call, gathered_call,
    TestCall.deed?_nextPart hNext, hPart,
    TestCall.deed?_endPart hEnd, hQ, hDeeds,
    TestSession.upcoming_of_entered hPart hNone,
    ← visits_eq_of_keeps (keeps_of_after hAfterNext)]
  rfl

/-
  A round over the parts visits the next one, or there is
  none. It is the last round if the test is finished.
-/
theorem partRound_ok
    {now : Instant}
    {next : ForInStep Instant}
    {path : List TestCall}
    (hOrder : s.Orderly) :
    partRound script now s path (.ok next) t →
      match next with
      | .done _ =>
          (s.test.parts.length ≤ TestSession.following s.state ∧
            path = []) ∨
          (Visited script s path t ∧ t.state.finished = true)
      | .yield _ =>
          Visited script s path t ∧
            TestSession.following s.state <
              s.test.parts.length ∧
            t.state.finished = false := by
  intro hRun
  rcases then_ok_iff.mp hRun with
    ⟨more, u, _, later, ⟨rfl, hAsk⟩, hAsked, rfl⟩
  rcases (TestSession.ends_hasMoreParts s).of_run hAsk with
    ⟨rfl, hAll⟩
  have hMore := hAll more rfl
  split at hAsked
  next hTrue =>
    have hLess := hMore.mp hTrue
    rcases then_ok_iff.mp hAsked with
      ⟨part?, v, _, _, ⟨rfl, hNext⟩, hEntered, rfl⟩
    rcases then_ok_iff.mp hEntered with
      ⟨instant, w, onItems, _, hItems, hTaken, rfl⟩
    rcases then_ok_iff.mp hTaken with
      ⟨_, x, _, _, ⟨rfl, hEnd⟩, hEnded, rfl⟩
    rcases then_ok_iff.mp hEnded with
      ⟨_, y, _, _, ⟨rfl, hLook⟩, ⟨rfl, hDone⟩, rfl⟩
    cases hLook
    cases hDone
    cases part? with
    | none =>
        have hOver := (TestSession.ends_nextPart_entering
          (tick now) u).of_run hNext
        exact absurd hLess (Nat.not_lt.mpr hOver)
    | some part =>
        have hVisited := visited_of_calls hOrder hNext hItems hEnd
        rw [List.append_nil]
        cases hOver : t.state.finished with
        | true => exact Or.inr ⟨hVisited, rfl⟩
        | false => exact ⟨hVisited, hLess, rfl⟩
  next hFalse =>
    rcases hAsked with ⟨rfl, hDone⟩
    cases hDone
    exact Or.inl ⟨Nat.not_lt.mp (hFalse ∘ hMore.mpr), rfl⟩

/-
  All parts from the next one on are visited in a row, and the
  test is finished with the last of them.
-/
theorem partsLoop_ok
    {now finish : Instant}
    {path : List TestCall}
    (hOrder : s.Orderly)
    (hRun : Loop (partRound script) now s path (.ok finish) t) :
    s.gathered TestCall.deed? path =
        (List.range' (TestSession.following s.state)
          (s.test.parts.length -
            TestSession.following s.state)).flatMap
              (visits script s) ∧
      (TestSession.following s.state < s.test.parts.length →
        t.state.finished = true ∧
          ∀ q < s.test.parts.length, q ∈ t.state.ended) := by
  generalize hResult : (Except.ok finish : Except Failure _) = r
    at hRun
  induction hRun with
  | failed => cases hResult
  | @last _ _ s t path hLast =>
      have hAfter : t = s.after path :=
        partRound_records script _ _ _ _ _ hLast
      rcases partRound_ok hOrder hLast with ⟨hNone, rfl⟩ |
        ⟨hVisited, hOver⟩
      · rw [Nat.sub_eq_zero_of_le hNone]
        exact ⟨rfl, fun hLess => absurd hNone
          (Nat.not_le.mpr hLess)⟩
      · have hLast : TestSession.following s.state + 1 =
            s.test.parts.length := by
          simpa [hOver] using hVisited.finished
        refine ⟨?_, fun _ => ⟨hOver, hVisited.ended_all
          (orderly_of_after hAfter hOrder) hLast⟩⟩
        rw [hVisited.deeds, ← hLast, Nat.add_sub_cancel_left]
        simp
  | @next _ _ s u _ path later _ hNext _ ih =>
      have hAfter : u = s.after path :=
        partRound_records script _ _ _ _ _ hNext
      rcases partRound_ok hOrder hNext with
        ⟨hVisited, hLess, hOpen⟩
      have hMore : TestSession.following s.state + 1 <
          s.test.parts.length := by
        have hNotLast := hVisited.finished
        rw [hOpen] at hNotLast
        have hNe := beq_eq_false_iff_ne.mp hNotLast.symm
        omega
      rcases ih (orderly_of_after hAfter hOrder) hResult with
        ⟨hDeeds, hFinished⟩
      rw [hVisited.following_eq, test_of_after hAfter]
        at hDeeds hFinished
      refine ⟨?_, fun _ => hFinished hMore⟩
      have hCount : s.test.parts.length -
          TestSession.following s.state =
            s.test.parts.length -
              (TestSession.following s.state + 1) + 1 := by
        omega
      rw [gathered_after hAfter, hVisited.deeds, hDeeds, hCount,
        visits_eq_of_keeps (keeps_of_after hAfter),
        List.range'_succ, List.flatMap_cons]

/-
  In a sitting that goes through, the candidate keeps to the
  itinerary, and if there is a part, the test is finished with
  all of its parts.
-/
theorem sitting_ok
    {start finish : Instant}
    {path : List TestCall}
    (hOrder : s.Orderly)
    (hNone : s.state.part = none)
    (hRun : sitting script start s path (.ok finish) t) :
    s.gathered TestCall.deed? path = itinerary script s ∧
      (s.test.parts ≠ [] →
        t.state.finished = true ∧
          ∀ q < s.test.parts.length, q ∈ t.state.ended) := by
  rcases then_ok_iff.mp hRun with
    ⟨_, u, _, _, ⟨rfl, hInit⟩, hReady, rfl⟩
  rcases then_ok_iff.mp hReady with
    ⟨_, v, _, _, ⟨rfl, hEnter⟩, hEntered, rfl⟩
  rcases then_ok_iff.mp hEntered with
    ⟨_, w, path, _, hParts, ⟨rfl, hDone⟩, rfl⟩
  cases hDone
  have hAfterInit := eq_after_call .initialise hInit rfl
  have hAfterEnter := eq_after_call (.enterTest (tick start))
    hEnter rfl
  have hOrderU := orderly_of_after hAfterInit hOrder
  have hOrderV := orderly_of_after hAfterEnter hOrderU
  have hPartU :=
    ((TestSession.ends_initialise_part hOrder).of_run
      hInit).trans hNone
  have hPartV := ((TestSession.ends_enterTest_stays hOrderU False
    (tick start)).of_run hEnter).part.trans hPartU
  have hTest : v.test = s.test :=
    (test_of_after hAfterEnter).trans (test_of_after hAfterInit)
  have hKeeps : s.KeepsEntries v :=
    IsTrans.trans _ _ _ (keeps_of_after hAfterInit)
      (keeps_of_after hAfterEnter)
  rcases partsLoop_ok hOrderV hParts with ⟨hDeeds, hFinished⟩
  rw [TestSession.following_of_none hPartV, hTest]
    at hDeeds hFinished
  refine ⟨?_, fun hSome =>
    hFinished (List.length_pos_iff.mpr hSome)⟩
  rw [List.append_nil, gathered_after hAfterInit,
    gathered_after hAfterEnter, gathered_call, gathered_call,
    hDeeds, visits_eq_of_keeps hKeeps, itinerary,
    List.range_eq_range', Nat.sub_zero]
  rfl

------------------------------------------------------------
-- What Is Shown
------------------------------------------------------------

/- The place of the item that is shown. -/
def shown? : TestDeed → Option Nat
  | .shows i => some i
  | _ => none

/- Part by part, the places of all items come in a row. -/
theorem flatMap_placesIn
    (hParts : s.HasParts)
    (hRising :
      (s.entries.map ItemEntry.part).Pairwise (· ≤ ·)) :
    (List.range s.test.parts.length).flatMap s.placesIn =
      List.range s.entries.length := by
  rw [List.pairwise_map, List.pairwise_iff_getElem] at hRising
  have hMem : ∀ p i, i ∈ s.placesIn p ↔
      ∃ e, s.entries[i]? = some e ∧ e.part = p := by
    intro p i
    rw [TestSession.placesIn, List.mem_map]
    constructor
    · rintro ⟨⟨e, _⟩, hE, rfl⟩
      exact ⟨e, TestSession.mem_entriesIn hE⟩
    · rintro ⟨e, hE, rfl⟩
      exact ⟨(e, i), TestSession.mem_entriesIn_of_getElem? hE,
        rfl⟩
  refine List.Pairwise.eq_of_mem_iff (r := (· < ·)) ?_
    List.pairwise_lt_range fun i => ?_
  · rw [List.pairwise_flatMap]
    refine ⟨fun p _ => s.placesIn_rising p, ?_⟩
    refine List.pairwise_lt_range.imp
      fun {p q} hLess i hI j hJ => ?_
    rcases (hMem p i).mp hI with ⟨e, hE, rfl⟩
    rcases (hMem q j).mp hJ with ⟨f, hF, rfl⟩
    rcases List.getElem?_eq_some_iff.mp hE with ⟨hBoundI, rfl⟩
    rcases List.getElem?_eq_some_iff.mp hF with ⟨hBoundJ, rfl⟩
    by_contra hNot
    rcases Nat.lt_or_eq_of_le (Nat.not_lt.mp hNot) with
      hBefore | rfl
    · exact Nat.not_le.mpr hLess
        (hRising j i hBoundJ hBoundI hBefore)
    · exact Nat.lt_irrefl _ hLess
  · rw [List.mem_flatMap, List.mem_range]
    constructor
    · rintro ⟨p, _, hI⟩
      rcases (hMem p i).mp hI with ⟨e, hE, _⟩
      exact (List.getElem?_eq_some_iff.mp hE).1
    · intro hBound
      have hE := List.getElem?_eq_getElem hBound
      refine ⟨_, ?_, (hMem _ i).mpr ⟨_, hE, rfl⟩⟩
      exact List.mem_range.mpr (hParts _ (List.getElem_mem _))

/- On the itinerary, every item is shown once and in its turn. -/
theorem shown_of_itinerary
    (hParts : s.HasParts)
    (hRising :
      (s.entries.map ItemEntry.part).Pairwise (· ≤ ·)) :
    (itinerary script s).filterMap shown? =
      List.range s.entries.length := by
  have hAttends : ∀ i,
      (attends script s i).filterMap shown? = [i] := by
    intro i
    have hGiven : (s.entries[i]?.toList.flatMap fun e =>
        (entriesFor script e.ref.identifier).map fun x =>
          TestDeed.submits i x.responses).filterMap shown? =
            [] := by
      simp [List.filterMap_flatMap, List.filterMap_map,
        Function.comp_def, shown?]
    rw [attends, List.filterMap_cons, hGiven]
    rfl
  have hVisits : ∀ p,
      (visits script s p).filterMap shown? = s.placesIn p := by
    intro p
    rw [visits, List.filterMap_cons, List.filterMap_append,
      List.filterMap_flatMap]
    simp [hAttends, shown?]
  rw [itinerary, List.filterMap_flatMap]
  simp only [hVisits]
  exact flatMap_placesIn hParts hRising

end Simulation

end Assessment
