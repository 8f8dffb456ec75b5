import Assessment.Proofs.Stateful
import Assessment.Test.Session

/-
  What the parts of steps of a test session come to, and runs
  of a session.

  Main declarations:
    * `exists_of_mem_makeEntries`, how entries are made
    * `TestSession.start_iff`, how a session starts, and
      `ItemEntry.IsFresh`, how its entries do
    * `ends_onItem`, a step of one of the items
    * `ends_ensureRunning_bind` and `ends_runningPart_bind`,
      the gates that most steps begin with
    * `TestCall`, with the step it takes
    * `TestSession.after`, a session after calls in a row
    * `TestSession.gathered`, what calls in a row bring about
    * `TestSession.HasLeft`, a run with an exit that went
      through
-/

------------------------------------------------------------
-- Parts of Steps
------------------------------------------------------------

namespace Assessment

open Stateful

/- A place of a list with one place changed. -/
theorem getElem?_set_cases
    {α : Type}
    {xs : List α}
    {i j : Nat}
    {x y : α}
    (hGet : (xs.set i x)[j]? = some y) :
    (j = i ∧ y = x) ∨ (j ≠ i ∧ xs[j]? = some y) := by
  rw [List.getElem?_set] at hGet
  split at hGet
  next hSame =>
    split at hGet
    · cases hGet
      exact Or.inl ⟨hSame.symm, rfl⟩
    · cases hGet
  next hOther => exact Or.inr ⟨fun h => hOther h.symm, hGet⟩

/- The places of a list come in a rising order. -/
theorem zipIdx_snd_rising
    {α : Type}
    (xs : List α) :
    (xs.zipIdx.map Prod.snd).Pairwise (· < ·) := by
  rw [List.zipIdx_map_snd, List.range'_eq_map_range]
  simpa using List.pairwise_lt_range

namespace TestSession

/- Every entry has been made for one of the nodes. -/
theorem exists_of_mem_makeEntries
    {t : Test}
    {items : Keyed Item}
    {engine : Engine}
    {draws : Draws}
    {nodes : List (Nat × PlanNode)}
    {e : ItemEntry}
    (hMem : e ∈ (makeEntries t items engine draws nodes).1) :
    ∃ own part node,
      (part, node) ∈ nodes ∧
        entry? t items engine own part node = some e := by
  induction nodes generalizing draws with
  | nil => cases hMem
  | cons first rest ih =>
      have hLater {draws : Draws}
          (hMem : e ∈ (makeEntries t items engine draws rest).1) :
          ∃ own part node,
            (part, node) ∈ first :: rest ∧
              entry? t items engine own part node = some e := by
        rcases ih hMem with ⟨own, part, node, hNode, hEntry⟩
        exact ⟨own, part, node, List.mem_cons_of_mem _ hNode,
          hEntry⟩
      rcases first with ⟨part, node⟩
      simp only [makeEntries] at hMem
      split at hMem
      next d hEntry =>
        rcases List.mem_cons.mp hMem with rfl | hRest
        · exact ⟨_, part, node, List.mem_cons_self, hEntry⟩
        · exact hLater hRest
      next => exact hLater hMem

/- An entry has a new session of the item it refers to. -/
theorem exists_of_entry?
    {t : Test}
    {items : Keyed Item}
    {engine : Engine}
    {draws : Draws}
    {part : Nat}
    {node : PlanNode}
    {e : ItemEntry}
    (hEntry : entry? t items engine draws part node = some e) :
    ∃ q item,
      definition? t node.identifier = some q ∧
      items.get? q.ref.href = some item ∧
      e =
        { ref := q.ref
          occurrence := node.occurrence
          part := part
          sections := q.ancestry
          session := {
            ItemSession.new item engine draws with
            control := effectiveControl t q part
            timeLimits := q.ref.timeLimits
            submission :=
              (t.parts[part]?.map TestPart.submission).getD
                .individual } } := by
  rcases Option.bind_eq_some_iff.mp hEntry with
    ⟨q, hPlacement, hRest⟩
  rcases Option.bind_eq_some_iff.mp hRest with
    ⟨item, hItem, hSession⟩
  cases hSession
  exact ⟨q, item, hPlacement, hItem, rfl⟩

end TestSession

/-
  An entry as it is made: it stands for the definition of its
  reference, and nothing has happened in its session.
-/
structure ItemEntry.IsFresh
    (t : Test)
    (items : Keyed Item)
    (engine : Engine)
    (e : ItemEntry) : Prop where
  definition :
    TestSession.definition? t e.ref.identifier =
      some ⟨e.ref, e.sections⟩
  item : items.get? e.ref.href = some e.session.item
  engine : e.session.engine = engine
  control :
    e.session.control =
      TestSession.effectiveControl t ⟨e.ref, e.sections⟩ e.part
  timeLimits : e.session.timeLimits = e.ref.timeLimits
  submission :
    e.session.submission =
      (t.parts[e.part]?.map TestPart.submission).getD .individual
  state : e.session.state = {}
  notes : e.session.tally.notes = []
  events : e.session.events = []

namespace TestSession

theorem fresh_of_mem_makeEntries
    {t : Test}
    {items : Keyed Item}
    {engine : Engine}
    {draws : Draws}
    {nodes : List (Nat × PlanNode)}
    {e : ItemEntry}
    (hMem : e ∈ (makeEntries t items engine draws nodes).1) :
    e.IsFresh t items engine := by
  rcases exists_of_mem_makeEntries hMem with
    ⟨own, part, node, _, hEntry⟩
  rcases exists_of_entry? hEntry with
    ⟨q, item, hDefined, hItem, rfl⟩
  have hName : q.ref.identifier = node.identifier := by
    simpa using List.find?_some hDefined
  rw [← hName] at hDefined
  exact ⟨hDefined, hItem, rfl, rfl, rfl, rfl, rfl, rfl, rfl⟩

section

variable {t : Test}
variable {items : Keyed Item}
variable {engine : Engine}
variable {draws : Draws}
variable {s : TestSession}

/- A session is made of a plan, and keeps the notes of it. -/
theorem start_iff :
    start t items engine draws = .ok s ↔
      ∃ plan tally,
        (Assessment.plan t fun r =>
            (items.get? r.href).isSome).run ⟨draws, []⟩ =
          (.ok plan, tally) ∧
        s =
          { test := t
            plan := plan
            engine := engine
            entries :=
              (makeEntries t items engine tally.draws
                plan.items).1
            state := freshState t
            tally := {
              tally with
              draws :=
                (makeEntries t items engine tally.draws
                  plan.items).2 }
            events := [] } := by
  unfold start
  dsimp only
  constructor
  · intro hStart
    split at hStart
    next => cases hStart
    next plan tally hPlan =>
      cases hStart
      exact ⟨plan, tally, hPlan, rfl⟩
  · rintro ⟨plan, tally, hPlan, rfl⟩
    rw [hPlan]

variable (hStart : start t items engine draws = .ok s)

include hStart

theorem start_test : s.test = t := by
  rcases start_iff.mp hStart with ⟨plan, tally, _, rfl⟩
  rfl

theorem start_state : s.state = freshState t := by
  rcases start_iff.mp hStart with ⟨plan, tally, _, rfl⟩
  rfl

theorem start_events : s.events = [] := by
  rcases start_iff.mp hStart with ⟨plan, tally, _, rfl⟩
  rfl

/- What items have gone through has not begun at the start. -/
theorem start_fresh :
    ∀ e ∈ s.entries, e.IsFresh t items engine := by
  rcases start_iff.mp hStart with ⟨plan, tally, _, rfl⟩
  exact fun e hMem => fresh_of_mem_makeEntries hMem

end

/- An entry that looks like another can be put in its place. -/
theorem map_set_of_eq
    {β : Type}
    {f : ItemEntry → β}
    {es : List ItemEntry}
    {i : Nat}
    {d e : ItemEntry}
    (hD : es[i]? = some d)
    (hSame : f e = f d) :
    (es.set i e).map f = es.map f := by
  obtain ⟨hBound, rfl⟩ := List.getElem?_eq_some_iff.mp hD
  have hPlace : i < (es.map f).length := by
    rwa [List.length_map]
  have hOwn : (es.map f)[i] = f es[i] := List.getElem_map f
  rw [List.map_set, hSame, ← hOwn, List.set_getElem_self]

/- What does not look at sessions stays when one is put back. -/
theorem map_entries_putSession
    {β : Type}
    {f : ItemEntry → β}
    (hBlind :
      ∀ e session, f { e with session := session } = f e)
    {s : TestSession}
    {i : Nat}
    {e : ItemEntry}
    (hE : s.entries[i]? = some e)
    (session : ItemSession) :
    (putSession s i e session).entries.map f =
      s.entries.map f :=
  map_set_of_eq hE (hBlind e _)

variable {α : Type}

@[simp] theorem ends_changeState
    (f : TestState → TestState)
    (s : TestSession)
    (Q : Except Failure Unit → TestSession → Prop) :
    Ends (changeState f) s Q ↔
      Q (.ok ()) { s with state := f s.state } :=
  Iff.rfl

@[simp] theorem ends_getState
    (s : TestSession)
    (Q : Except Failure TestState → TestSession → Prop) :
    Ends getState s Q ↔ Q (.ok s.state) s :=
  Iff.rfl

theorem ends_getState_bind
    (f : TestState → TestAction α)
    (s : TestSession)
    (Q : Except Failure α → TestSession → Prop) :
    Ends (getState >>= f) s Q ↔ Ends (f s.state) s Q :=
  Iff.rfl

@[simp] theorem ends_refuse
    (cause : Refusal)
    (s : TestSession)
    (Q : Except Failure α → TestSession → Prop) :
    Ends (refuse cause : TestAction α) s Q ↔
      Q (.error (.refused cause)) s :=
  Iff.rfl

/- An activity runs between its two events. -/
theorem ends_announced
    (activity : Activity)
    (x : TestAction α)
    (s : TestSession)
    (Q : Except Failure α → TestSession → Prop) :
    Ends (announced activity x) s Q ↔
      Ends x { s with events := s.events ++ [.starting activity] }
        fun r t =>
          Q r
            { t with events := t.events ++ [.finished activity] } :=
  Iff.rfl

/- Rules run over the outcomes, which are then taken over. -/
theorem ends_runRules
    (x : Run α)
    (s : TestSession)
    (Q : Except Failure α → TestSession → Prop) :
    Ends (runRules x) s Q ↔
      Ends x ⟨s.scope, s.tally⟩ fun r stage =>
        Q r
          { s with
            tally := stage.tally
            state := {
              s.state with values := stage.scope.values } } :=
  Iff.rfl

/- A step of an item, which is then put back in its place. -/
theorem ends_onItem
    (i : Nat)
    (x : Action α)
    (s : TestSession)
    (Q : Except Failure α → TestSession → Prop) :
    Ends (onItem i x) s Q ↔
      match s.entries[i]? with
      | none => Q (.error (.refused .noItem)) s
      | some e =>
          Ends x e.session fun r session =>
            Q r (putSession s i e session) := by
  cases hEntry : s.entries[i]? with
  | none =>
      simp [Ends, Stateful.run, onItem, hEntry, ExceptT.run,
        ExceptT.mk, StateT.run]
  | some e =>
      simp only [Ends, Stateful.run, onItem, hEntry,
        ExceptT.run, ExceptT.mk, StateT.run]
      rfl

------------------------------------------------------------
-- Gates
------------------------------------------------------------

theorem ends_ensureInitialized
    (s : TestSession)
    (Q : Except Failure Unit → TestSession → Prop) :
    Ends ensureInitialized s Q ↔
      if s.state.initialized then Q (.ok ()) s
      else Q (.error .notInitialized) s := by
  simp [ensureInitialized]

theorem ends_ensureInitialized_bind
    {f : Unit → TestAction α}
    {s : TestSession}
    {Q : Except Failure α → TestSession → Prop}
    (hRefused : ∀ e, Q (.error e) s)
    (hThen : s.state.initialized = true → Ends (f ()) s Q) :
    Ends (ensureInitialized >>= f) s Q := by
  rw [ends_bind, ends_ensureInitialized]
  split
  next hInit => exact hThen hInit
  next => exact hRefused _

/- A step goes on if the test is under way. -/
theorem ends_ensureRunning_bind
    {f : Unit → TestAction α}
    {s : TestSession}
    {Q : Except Failure α → TestSession → Prop}
    (hRefused : ∀ e, Q (.error e) s)
    (hThen :
      s.state.initialized = true →
        s.state.finished = false → Ends (f ()) s Q) :
    Ends (ensureRunning >>= f) s Q := by
  rw [ends_bind]
  simp only [ensureRunning, ends_bind, ends_ensureInitialized]
  split
  next hInit =>
    by_cases hEntered : s.state.entered = true
    · by_cases hFinished : s.state.finished = true
      · simpa [hEntered, hFinished] using hRefused _
      · simpa [hEntered, hFinished] using
          hThen hInit (by simpa using hFinished)
    · simpa [hEntered] using hRefused _
  next => exact hRefused _

/- A step goes on if there is a part that has not ended. -/
theorem ends_runningPart_bind
    {f : Nat → TestAction α}
    {s : TestSession}
    {Q : Except Failure α → TestSession → Prop}
    (hRefused : ∀ e, Q (.error e) s)
    (hThen :
      ∀ p, s.state.part = some p → p ∉ s.state.ended →
        Ends (f p) s Q) :
    Ends (runningPart >>= f) s Q := by
  rw [ends_bind, runningPart, ends_getState_bind]
  split
  next => exact hRefused _
  next p hSome =>
    simp only [ends_ite, ends_refuse, ends_pure]
    split
    next => exact hRefused _
    next hOpen => exact hThen p hSome (by simpa using hOpen)

end TestSession

------------------------------------------------------------
-- Calls
------------------------------------------------------------

/- A call to a test session with its arguments. -/
inductive TestCall where
  | initialise
  | enterTest (now : Instant)
  | nextPart (now : Instant)
  | nextItem (now : Instant)
  | selectItem (ref : String) (occurrence : Nat) (now : Instant)
  | submit (responses : ItemSession.Responses) (now : Instant)
  | endPart (now : Instant)
  | exit (now : Instant)
  | processOutcomes
  | touch (now : Instant)

namespace TestCall

/- The step that a call takes, without what it gives back. -/
def action : TestCall → TestAction Unit
  | initialise => TestSession.initialise
  | enterTest now => TestSession.enterTest now
  | nextPart now => discard (TestSession.nextPart now)
  | nextItem now => discard (TestSession.nextItem now)
  | selectItem ref occurrence now =>
      discard (TestSession.selectItem ref occurrence now)
  | submit responses now =>
      discard (TestSession.submit responses now)
  | endPart now => TestSession.endPart now
  | exit now => TestSession.exit now
  | processOutcomes => TestSession.processOutcomes
  | touch now => TestSession.touch now

end TestCall

------------------------------------------------------------
-- Runs
------------------------------------------------------------

namespace TestSession

/- The session after calls in a row. -/
def after (s : TestSession) (calls : List TestCall) :
    TestSession :=
  Stateful.after TestCall.action s calls

theorem after_append
    (s : TestSession)
    (calls others : List TestCall) :
    s.after (calls ++ others) = (s.after calls).after others :=
  Stateful.after_append TestCall.action s calls others

/- What calls in a row bring about, each in its turn. -/
def gathered
    {β : Type}
    (brings : TestCall → TestSession → Option β)
    (s : TestSession) :
    List TestCall → List β
  | [] => []
  | c :: calls =>
      (brings c s).toList ++ gathered brings (s.after [c]) calls

theorem gathered_append
    {β : Type}
    (brings : TestCall → TestSession → Option β)
    (s : TestSession)
    (calls others : List TestCall) :
    s.gathered brings (calls ++ others) =
      s.gathered brings calls ++
        (s.after calls).gathered brings others := by
  induction calls generalizing s with
  | nil => rfl
  | cons c calls ih =>
      rw [List.cons_append, gathered, ih, gathered,
        List.append_assoc, ← after_append,
        List.singleton_append]

theorem gathered_snoc
    {β : Type}
    (brings : TestCall → TestSession → Option β)
    (s : TestSession)
    (calls : List TestCall)
    (c : TestCall) :
    s.gathered brings (calls ++ [c]) =
      s.gathered brings calls ++
        (brings c (s.after calls)).toList := by
  rw [gathered_append, gathered, gathered, List.append_nil]

/- The test has been left by one of the calls of a run. -/
def HasLeft (s : TestSession) (calls : List TestCall) : Prop :=
  ∃ earlier now later,
    calls = earlier ++ TestCall.exit now :: later ∧
      (run (exit now) (s.after earlier)).1.isOk = true

end TestSession

end Assessment
