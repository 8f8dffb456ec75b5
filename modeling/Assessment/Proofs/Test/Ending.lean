import Assessment.Proofs.Test.Course
import Assessment.Proofs.Test.Frame
import Assessment.Proofs.Test.Timeless

/-
  The end of a part.

  Every item belongs to a part of the test. A part is ended if
  its items may be left behind. To end it is to leave its
  current item, to close all of its items, and to mark it as
  ended. Whatever fails before that leaves the session where
  it stood.

  Main declarations:
    * `TestSession.HasParts`, with `start_hasParts`
    * `TestSession.marked`, a session with a part marked
    * `TestSession.releases` and `TestSession.ending`
    * `ends_endPart_marked`, the law of ending a part
-/

------------------------------------------------------------
-- Parts of Items
------------------------------------------------------------

namespace Assessment

open Stateful

namespace Planning

/- Every test part gets a node. -/
theorem ends_planParts_length
    (planner : Planner)
    (given : Keyed Nat)
    (parts : List TestPart)
    (tally : Tally) :
    Ends (planParts planner given parts) tally fun r _ =>
      ∀ nodes, r = .ok nodes → nodes.length = parts.length := by
  induction parts generalizing given tally with
  | nil =>
      rw [planParts, ends_pure]
      intro nodes hNodes
      cases hNodes
      rfl
  | cons p rest ih =>
      rw [planParts]
      refine Ends.skip (fun _ _ _ hNever => by cases hNever)
        fun chosen t => ?_
      rw [ends_bind]
      refine (ih _ t).mono fun r u hLength => ?_
      cases r with
      | error => exact fun _ hNever => by cases hNever
      | ok others =>
          intro nodes hNodes
          cases hNodes
          rw [List.length_cons, List.length_cons,
            hLength others rfl]

end Planning

theorem plan_length
    (t : Test)
    (resolves : ItemRef → Bool)
    (tally : Tally) :
    Ends (plan t resolves) tally fun r _ =>
      ∀ p, r = .ok p → p.parts.length = t.parts.length := by
  rw [plan, ends_bind]
  refine (Planning.ends_planParts_length _ [] t.parts
    tally).mono fun r u hLength => ?_
  cases r with
  | error => exact fun _ hNever => by cases hNever
  | ok nodes =>
      intro p hPlan
      cases hPlan
      exact hLength nodes rfl

namespace TestSession

/- An entry belongs to the part it has been planned for. -/
theorem exists_node_of_mem_makeEntries
    {t : Test}
    {items : Keyed Item}
    {engine : Engine}
    {draws : Draws}
    {nodes : List (Nat × PlanNode)}
    {e : ItemEntry}
    (hMem : e ∈ (makeEntries t items engine draws nodes).1) :
    ∃ node, (e.part, node) ∈ nodes := by
  rcases exists_of_mem_makeEntries hMem with
    ⟨own, part, node, hNode, hEntry⟩
  rcases exists_of_entry? hEntry with ⟨_, _, _, _, rfl⟩
  exact ⟨node, hNode⟩

/- Every item belongs to a part of the test. -/
def HasParts (s : TestSession) : Prop :=
  ∀ e ∈ s.entries, e.part < s.test.parts.length

theorem start_hasParts
    {t : Test}
    {items : Keyed Item}
    {engine : Engine}
    {draws : Draws}
    {s : TestSession}
    (hStart : start t items engine draws = .ok s) :
    s.HasParts := by
  have hLength := plan_length t
    (fun r => (items.get? r.href).isSome) ⟨draws, []⟩
  rcases start_iff.mp hStart with ⟨plan, tally, hPlan, rfl⟩
  have hParts := Ends.of_run hLength hPlan plan rfl
  intro e hMem
  rcases exists_node_of_mem_makeEntries hMem with ⟨node, hNode⟩
  rcases List.mem_flatMap.mp hNode with ⟨⟨x, i⟩, hX, hIn⟩
  rcases List.mem_map.mp hIn with ⟨_, _, hSame⟩
  cases hSame
  have hBound := List.snd_lt_of_mem_zipIdx hX
  rw [hParts] at hBound
  exact hBound

theorem Placewise.hasParts
    {A : ItemSession → ItemSession → Prop}
    {s t : TestSession}
    (hPlaces : Placewise A s t)
    (hParts : s.HasParts) :
    t.HasParts := by
  intro f hMem
  rcases List.getElem?_of_mem hMem with ⟨i, hF⟩
  rcases hPlaces.exists_before hF with ⟨e, hE⟩
  rw [(hPlaces.entries i e f hE hF).1, hPlaces.test]
  exact hParts e (List.mem_of_getElem? hE)

end TestSession

------------------------------------------------------------
-- Marking a Part
------------------------------------------------------------

namespace TestSession

/- Without a current item, the test alone takes its time. -/
theorem ends_touch_none
    {s : TestSession}
    (hNone : s.state.item = none)
    (now : Instant)
    (Q : Except Failure Unit → TestSession → Prop) :
    Ends (touch now) s Q ↔
      Q (.ok ()) (s.touchedTimers now).syncDuration := by
  rw [ends_touch_iff, hNone]

/-
  The session with a part marked as ended, and the test as
  finished with it if it is the last.
-/
def marked (p : Nat) (now : Instant) (s : TestSession) :
    TestSession :=
  let last := p + 1 == s.test.parts.length
  let t := s.switched [] now
  let ended : TestSession :=
    { t with state := {
        t.state with
        partTimers := t.state.partTimers.modify p fun x =>
          x.stop now
        ended := insertPlace p t.state.ended
        finished := t.state.finished || last
        timer :=
          if last then t.state.timer.stop now
          else t.state.timer } }
  (ended.touchedTimers now).syncDuration

theorem ends_marked
    {s : TestSession}
    (hNone : s.state.item = none)
    (p : Nat)
    (now : Instant)
    (Q : Except Failure Unit → TestSession → Prop) :
    Ends (do
      switchSections [] now
      let last := p + 1 == (← get).test.parts.length
      TestSession.markEnded p last now
      TestSession.touch now) s Q ↔
      Q (.ok ()) (s.marked p now) := by
  rw [ends_bind, ends_switchSections]
  dsimp only
  rw [ends_get_bind]
  rw [TestSession.markEnded, ends_bind, ends_changeState]
  dsimp only
  refine ends_touch_none ?_ now Q
  exact hNone

/- Whether all items of a part may be left behind. -/
def releases (p : Nat) (s : TestSession) : Bool :=
  (s.entriesIn p).all fun x => mayLeave x.1

/- What ending a part comes to, once it may be ended. -/
def ending (p : Nat) (now : Instant) : TestAction Unit := do
  touch now
  leaveCurrent now
  let processed ← closeItems now ((← get).entriesIn p)
  if processed then processOutcomes
  switchSections [] now
  let last := p + 1 == (← get).test.parts.length
  markEnded p last now
  touch now

/- Only a part whose items may be left behind is ended. -/
theorem ends_endPart_gates
    {Q : TestSession → Prop}
    {s : TestSession}
    (hRefused : Q s)
    (now : Instant)
    (hThen :
      ∀ p, s.state.initialized = true →
        s.state.finished = false → s.state.part = some p →
          s.releases p = true →
            Ends (ending p now) s fun _ t => Q t) :
    Ends (endPart now) s fun _ t => Q t := by
  rw [endPart, mayEndPart, ends_bind]
  refine ends_ensureRunning_bind (fun _ => hRefused)
    fun hInit hOpen => ?_
  refine ends_runningPart_bind (fun _ => hRefused)
    fun p hPart _ => ?_
  rw [ends_get_bind, ends_pure]
  dsimp only
  rw [ends_ite]
  split
  next hMay =>
    refine ends_runningPart_bind (fun _ => hRefused)
      fun q hQ _ => ?_
    have hSame : q = p := Option.some.inj (hQ.symm.trans hPart)
    subst hSame
    exact hThen q hInit hOpen hPart hMay
  next =>
    rw [ends_bind, ends_refuse]
    exact hRefused

/-
  Whatever else ending a part comes to, it closes all items of
  the part before the part is marked.
-/
theorem ends_endPart_marked
    {Q : TestSession → Prop}
    {s : TestSession}
    (hOrder : s.Orderly)
    (now : Instant)
    (hNear : ∀ t, t.Orderly → s.Near t → Q t)
    (hMarked :
      ∀ p t, s.state.initialized = true →
        s.state.finished = false → s.state.part = some p →
          t.Orderly → s.Near t → t.state.item = none →
            t.ClosedIn p → Q (t.marked p now)) :
    Ends (endPart now) s fun _ t => Q t := by
  have hSelf := hNear s hOrder (Near.refl s)
  refine ends_endPart_gates hSelf now
    fun p hInit hOpen hPart _ => ?_
  rw [ending]
  refine Ends.seq (touch_calm hOrder now)
    (fun _ t hTouched =>
      hNear t (hTouched.orderly hOrder) hTouched.near)
    fun _ t hTouched => ?_
  rw [ends_bind]
  refine (ends_leaveCurrent (hTouched.orderly hOrder) now).mono
    fun r u hLeft => ?_
  rcases hLeft with ⟨hOrderU, hNearU, hNone⟩
  have hNearAll := hTouched.near.trans hNearU
  cases r with
  | error => exact hNear u hOrderU hNearAll
  | ok =>
      have hPartU := hNearAll.part_eq.trans hPart
      have hClosing : ∀ v, u.Calm v →
          v.Orderly ∧ s.Near v ∧ v.state.item = none :=
        fun v hCalm => ⟨hCalm.orderly hOrderU,
          hNearAll.trans hCalm.near,
          (Onward.item hCalm).trans (hNone rfl)⟩
      have hMark : ∀ v, u.Calm v → v.ClosedIn p →
          Q (v.marked p now) := by
        intro v hCalm hClosed
        rcases hClosing v hCalm with ⟨hOrderV, hNearV, hItem⟩
        exact hMarked p v hInit hOpen hPart hOrderV hNearV
          hItem hClosed
      dsimp only
      rw [ends_get_bind, ends_bind]
      refine (ends_closePart hOrderU hPartU now).mono
        fun r v hClosed => ?_
      rcases hClosed with ⟨hCalm, hClosed⟩
      rcases hClosing v hCalm with ⟨hOrderV, hNearV, hItem⟩
      cases r with
      | error => exact hNear v hOrderV hNearV
      | ok processed =>
          dsimp only
          rw [ends_ite]
          split
          · refine Ends.seq (processOutcomes_calm v) ?_ ?_
            · intro _ w hThen
              exact hNear w (hThen.orderly hOrderV)
                (hNearV.trans hThen.near)
            · intro _ w hThen
              have hItem' := (Onward.item hThen).trans hItem
              rw [ends_marked hItem']
              exact hMark w (IsTrans.trans _ _ _ hCalm hThen)
                (hThen.closedIn hOrderV (hClosed rfl))
          · rw [ends_marked hItem]
            exact hMark v hCalm (hClosed rfl)

theorem Near.initialized_eq
    {s t : TestSession}
    (hNear : s.Near t) :
    t.state.initialized = s.state.initialized := by
  have hInit := congrArg Standing.initialized hNear.standing
  exact hInit

end TestSession

end Assessment
