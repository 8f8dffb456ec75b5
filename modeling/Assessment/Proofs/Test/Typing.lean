import Assessment.Proofs.Package.Sessions
import Assessment.Proofs.Test.Frame

/-
  The types of the variables of a test session.

  A test does nothing with its items that a package does not
  permit, and initializes each of them with the defaults of
  its own reference. Its outcomes are revised by rules and
  reset to what has been declared.

  Main declarations:
    * `TestSession.Hosts`, item sessions of a package
    * `TestSession.Keeps`, with the steps that obey it
    * `TestCall.keeps` and `TestSession.start_hosts`
-/

------------------------------------------------------------
-- Items
------------------------------------------------------------

namespace Assessment

open Stateful

/- An item session goes on as a package permits. -/
structure Package.Admits
    (p : Package)
    (s t : ItemSession) :
    Prop where
  item : t.item = s.item
  reaches : p.Reaches s → p.Reaches t

instance (p : Package) : Std.Refl p.Admits where
  refl _ := ⟨rfl, id⟩

instance (p : Package) : IsTrans ItemSession p.Admits where
  trans _ _ _ hFirst hThen :=
    ⟨hThen.item.trans hFirst.item,
      hThen.reaches ∘ hFirst.reaches⟩

variable {p : Package}

/- Any call but an initialization is permitted. -/
theorem ItemCall.obey_admits : ItemCall.Obey p.Admits :=
  fun c hOther s => ⟨c.keepsItem s, fun hReached =>
    hReached.call s c fun defaults hSame =>
      absurd hSame (hOther defaults)⟩

namespace TestSession

open ItemSession

------------------------------------------------------------
-- Tests
------------------------------------------------------------

/-
  The items of a test are in states that the package reaches,
  and their references have defaults that it offers.
-/
def Hosts (p : Package) (s : TestSession) : Prop :=
  ∀ e ∈ s.entries,
    p.Reaches e.session ∧
      p.Offers e.session.item e.ref.templateDefaults

/- The outcomes of a test fit. -/
def OutcomesFit (s : TestSession) : Prop :=
  Fits s.test.declarations s.state.values

/- The items of a test stay in the package, and types right. -/
structure Keeps (p : Package) (s t : TestSession) : Prop where
  test : t.test = s.test
  refs :
    ∀ (i : Nat) (f : ItemEntry), t.entries[i]? = some f →
      ∃ e, s.entries[i]? = some e ∧ f.ref = e.ref
  hosts : s.Hosts p → t.Hosts p
  outcomes :
    s.test.WellDeclared → s.OutcomesFit → t.OutcomesFit

instance : Std.Refl (Keeps p) where
  refl _ := ⟨rfl, fun _ f hF => ⟨f, hF, rfl⟩, id, fun _ => id⟩

instance : IsTrans TestSession (Keeps p) where
  trans s t u hFirst hThen := by
    refine ⟨hThen.test.trans hFirst.test, ?_,
      hThen.hosts ∘ hFirst.hosts, ?_⟩
    · intro i g hG
      rcases hThen.refs i g hG with ⟨f, hF, hSame⟩
      rcases hFirst.refs i f hF with ⟨e, hE, hSame'⟩
      exact ⟨e, hE, hSame.trans hSame'⟩
    · intro hDeclared hFit
      have hDeclared' := hDeclared
      rw [← hFirst.test] at hDeclared'
      exact hThen.outcomes hDeclared'
        (hFirst.outcomes hDeclared hFit)

/- A step that leaves tests, items and outcomes alone. -/
theorem keeps_of_eq
    {s t : TestSession}
    (hTest : t.test = s.test)
    (hEntries : t.entries = s.entries)
    (hValues : t.state.values = s.state.values) :
    s.Keeps p t := by
  refine ⟨hTest, ?_, ?_, fun _ => ?_⟩
  · rw [hEntries]
    exact fun _ f hF => ⟨f, hF, rfl⟩
  · unfold Hosts
    rw [hEntries]
    exact id
  · unfold OutcomesFit
    rw [hTest, hValues]
    exact id

theorem frames_keeps : Frames (Keeps p) :=
  ⟨fun hTest hEntries _ hValues =>
    keeps_of_eq hTest hEntries hValues⟩

/- An item is put back that the package reaches. -/
theorem putSession_keeps
    {s : TestSession}
    {i : Nat}
    {e : ItemEntry}
    (hE : s.entries[i]? = some e)
    {session : ItemSession}
    (hItem : session.item = e.session.item)
    (hReaches : s.Hosts p → p.Reaches session) :
    s.Keeps p (putSession s i e session) := by
  refine ⟨rfl, ?_, ?_, fun _ => id⟩
  · intro j f hF
    rcases getElem?_set_cases hF with ⟨rfl, rfl⟩ | ⟨_, hSame⟩
    · exact ⟨e, hE, rfl⟩
    · exact ⟨f, hSame, rfl⟩
  · intro hHosts f hMem
    rcases List.mem_or_eq_of_mem_set hMem with hOther | rfl
    · exact hHosts f hOther
    · refine ⟨(hReaches hHosts).handOver session, ?_⟩
      have hOffers := (hHosts e (List.mem_of_getElem? hE)).2
      rw [← hItem] at hOffers
      exact hOffers

theorem onItem_keeps
    {α : Type}
    {x : Action α}
    (hMoves : Moves p.Admits x)
    (i : Nat) :
    Moves (Keeps p) (onItem i x) := by
  intro s
  rw [ends_onItem]
  split
  next => exact Std.Refl.refl (r := Keeps p) s
  next e hE =>
    refine (hMoves e.session).mono fun r session hAdmits => ?_
    exact putSession_keeps hE hAdmits.item fun hHosts =>
      hAdmits.reaches (hHosts e (List.mem_of_getElem? hE)).1

theorem lifts_keeps : Lifts p.Admits (Keeps p) :=
  ⟨fun hMoves i => onItem_keeps hMoves i⟩

------------------------------------------------------------
-- Outcomes
------------------------------------------------------------

/- The time spent is an outcome that is written unasked. -/
theorem putDuration_keeps :
    Moves (Keeps p) (changeState fun s =>
      { s with
        values :=
          s.values.put Builtin.duration
            (.float s.timer.seconds) }) := by
  intro s
  refine ⟨rfl, fun _ f hF => ⟨f, hF, rfl⟩, id, ?_⟩
  intro hDeclared hFit
  refine Revises.fits (Revises.put ?_) hFit
  exact hDeclared.accepts
    (b := Builtin.testDurationDeclaration)
    (by simp [Builtin.ofTest]) (Value.conformsTo_float _)

/- Rules keep the types of the outcomes. -/
theorem runRules_keeps
    {α : Type}
    {x : Run α}
    (hRules : Moves (Stage.Follows Scope.KeepsTypes) x) :
    Moves (Keeps p) (runRules x) := by
  intro s
  rw [ends_runRules]
  refine (hRules _).mono fun r stage hKeeps => ?_
  refine ⟨rfl, fun _ f hF => ⟨f, hF, rfl⟩, id, ?_⟩
  intro hDeclared hFit
  refine Revises.fits (hKeeps.values hDeclared.sound ?_) hFit
  -- Nothing overrides the defaults of a test.
  intro identifier d v _ _ hBound
  cases hBound

/- Declared defaults may be bound again. -/
theorem fits_foldl_initial
    {declarations builtins : List Declaration}
    (hDeclared : WellDeclared declarations builtins)
    {ds : List Declaration}
    (hMem : ∀ d ∈ ds, d ∈ declarations)
    {b : Bindings}
    (hFits : Fits declarations b) :
    Fits declarations
      (ds.foldl (fun b d => b.put d.identifier d.initial) b) := by
  induction ds generalizing b with
  | nil => exact hFits
  | cons d rest ih =>
      refine ih (fun e h => hMem e (List.mem_cons_of_mem d h)) ?_
      refine Revises.fits (Revises.put fun d' hFound => ?_) hFits
      have hOwn := hMem d List.mem_cons_self
      rw [hDeclared.found d hOwn] at hFound
      cases hFound
      exact (hDeclared.sound d hOwn).initial

theorem fits_ofList_initial
    {declarations builtins : List Declaration}
    (hDeclared : WellDeclared declarations builtins) :
    Fits declarations
      (Keyed.ofList (declarations.map fun d =>
        (d.identifier, d.initial))) := by
  intro identifier d v hFound hBound
  rcases List.mem_map.mp (Keyed.mem_of_get?_ofList hBound)
    with ⟨d', hMem, hSame⟩
  rcases Prod.mk.inj hSame with ⟨hName, hValue⟩
  rw [← hName, hDeclared.found d' hMem] at hFound
  cases hFound
  rw [← hValue]
  exact (hDeclared.sound d hMem).initial

theorem processOutcomes_keeps :
    Moves (Keeps p) processOutcomes := by
  refine processOutcomes_moves (frames_keeps.announced _)
    (fun s => ?_)
    fun _ t _ => runRules_keeps (Rule.executeAll_keepsTypes _ _) t
  refine ⟨rfl, fun _ f hF => ⟨f, hF, rfl⟩, id, ?_⟩
  intro hDeclared hFit
  exact fits_foldl_initial hDeclared
    (fun d h => (List.mem_filter.mp h).1) hFit

theorem partsMove_keeps : PartsMove (Keeps p) :=
  lifts_keeps.partsMove ItemCall.obey_admits.way frames_keeps
    putDuration_keeps processOutcomes_keeps

------------------------------------------------------------
-- Initialization
------------------------------------------------------------

/- Each item is given the defaults of its own reference. -/
theorem ends_initialiseItems_keeps
    {items : List (ItemEntry × Nat)}
    {s : TestSession}
    (hItems :
      ∀ x ∈ items, ∀ f, s.entries[x.2]? = some f →
        f.ref = x.1.ref) :
    Ends (initialiseItems items) s fun _ t => s.Keeps p t := by
  induction items generalizing s with
  | nil => exact Std.Refl.refl (r := Keeps p) s
  | cons first rest ih =>
      rcases first with ⟨e, i⟩
      refine Ends.bind ?_ fun _ t hKeeps => ?_
      · rw [ends_onItem]
        split
        next => exact Std.Refl.refl (r := Keeps p) s
        next f hF =>
          have hRef := hItems _ List.mem_cons_self f hF
          refine putSession_keeps hF
            ((ItemCall.initialise _).keepsItem f.session)
            fun hHosts => ?_
          rcases hHosts f (List.mem_of_getElem? hF) with
            ⟨hReached, hOffers⟩
          refine hReached.call f.session (.initialise _) ?_
          rintro defaults hSame
          cases hSame
          rw [hRef] at hOffers
          exact hOffers
      · refine ih fun x hMem f hF => ?_
        rcases hKeeps.refs x.2 f hF with ⟨g, hG, hSame⟩
        rw [hSame]
        exact hItems x (List.mem_cons_of_mem _ hMem) g hG

theorem initialise_keeps : Moves (Keeps p) initialise := by
  refine Moves.bind getState_moves fun s => ?_
  refine Moves.ite_bind (Moves.throw _) fun _ => ?_
  refine frames_keeps.announced .testInitialisation ?_
  intro s
  rw [ends_get_bind]
  refine Ends.bind ?_ fun _ t hReset => ?_
  · exact ⟨rfl, fun _ f hF => ⟨f, hF, rfl⟩, id,
      fun hDeclared _ => fits_ofList_initial hDeclared⟩
  · refine Ends.bind ?_ fun _ u _ => ?_
    · refine ends_initialiseItems_keeps fun x hMem f hF => ?_
      rcases hReset.refs x.2 f hF with ⟨e, hE, hSame⟩
      rw [List.mem_zipIdx_iff_getElem?.mp hMem] at hE
      cases hE
      exact hSame
    · rw [ends_changeState]
      exact keeps_of_eq rfl rfl rfl

end TestSession

/- No call takes a test or its items out of the package. -/
theorem TestCall.keeps (c : TestCall) :
    Moves (TestSession.Keeps p) c.action :=
  TestSession.lifts_keeps.call_moves ItemCall.obey_admits
    TestSession.partsMove_keeps.steps
    TestSession.initialise_keeps c

namespace TestSession

------------------------------------------------------------
-- Starts
------------------------------------------------------------

/- A session of a test is one like any other of its item. -/
theorem entry?_hosts
    {name : String}
    {t : Test}
    (hTest : p.tests.get? name = some t)
    {engine : Engine}
    {draws : Draws}
    {part : Nat}
    {node : PlanNode}
    {e : ItemEntry}
    (hEntry :
      entry? t p.items engine draws part node = some e) :
    p.Reaches e.session ∧
      p.Offers e.session.item e.ref.templateDefaults := by
  rcases exists_of_entry? hEntry with
    ⟨q, item, hPlacement, hItem, rfl⟩
  refine ⟨.fresh q.ref.href item engine draws _ _ _ hItem, ?_⟩
  have hMem := List.mem_of_find?_eq_some hPlacement
  exact Or.inr ⟨name, t, hTest, q, List.mem_reverse.mp hMem,
    hItem, rfl⟩

theorem makeEntries_hosts
    {name : String}
    {t : Test}
    (hTest : p.tests.get? name = some t)
    (engine : Engine)
    (draws : Draws)
    (nodes : List (Nat × PlanNode)) :
    ∀ e ∈ (makeEntries t p.items engine draws nodes).1,
      p.Reaches e.session ∧
        p.Offers e.session.item e.ref.templateDefaults := by
  intro e hMem
  rcases exists_of_mem_makeEntries hMem with
    ⟨own, part, node, _, hEntry⟩
  exact entry?_hosts hTest hEntry

theorem start_hosts
    {name : String}
    {t : Test}
    (hTest : p.tests.get? name = some t)
    {engine : Engine}
    {draws : Draws}
    {first : TestSession}
    (hStart : start t p.items engine draws = .ok first) :
    first.test = t ∧ first.Hosts p ∧ first.OutcomesFit := by
  rcases start_iff.mp hStart with ⟨plan, tally, _, rfl⟩
  exact ⟨rfl, makeEntries_hosts hTest engine _ _,
    fits_nil t.declarations⟩

end TestSession

end Assessment
