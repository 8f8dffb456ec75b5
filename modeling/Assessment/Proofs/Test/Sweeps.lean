import Assessment.Proofs.Test.Steps

/-
  Sweeps over the items of a test.

  A sweep takes a step of one item after the other, and ends
  with the first step that fails. Since every place comes up
  once, what it has come to is told place by place: the items
  before the one that failed have taken their steps, and those
  behind it are the same.

  Main declarations:
    * `ChangedIn`, what has become of the entries at places
    * `StoppedIn`, a sweep that has stopped at one of them
    * `TestSession.SweptUntil` and `ends_sweepUntil`
    * `TestSession.Places`, places to sweep over
-/

------------------------------------------------------------
-- Entries
------------------------------------------------------------

namespace Assessment

open Stateful

/- An entry with another session, whose events are taken. -/
def ItemEntry.holding
    (session : ItemSession)
    (e : ItemEntry) :
    ItemEntry :=
  { e with session := { session with events := [] } }

/-
  The entries at some places have changed as a relation says,
  and those at all other places are the same.
-/
structure ChangedIn
    (places : List Nat)
    (R : ItemEntry → ItemSession → Prop)
    (es fs : List ItemEntry) :
    Prop where
  there :
    ∀ i ∈ places, ∃ e session,
      es[i]? = some e ∧ fs[i]? = some (e.holding session) ∧
        R e session
  elsewhere : ∀ i, i ∉ places → fs[i]? = es[i]?

namespace ChangedIn

variable {R : ItemEntry → ItemSession → Prop}
variable {es fs gs : List ItemEntry}

theorem nil : ChangedIn [] R es es where
  there _ hMem := by cases hMem
  elsewhere _ _ := rfl

theorem single
    {i : Nat}
    {e : ItemEntry}
    {session : ItemSession}
    (hE : es[i]? = some e)
    (hRelated : R e session) :
    ChangedIn [i] R es (es.set i (e.holding session)) := by
  constructor
  · intro j hMem
    obtain rfl := List.mem_singleton.mp hMem
    have hBound := (List.getElem?_eq_some_iff.mp hE).1
    exact ⟨e, session, hE, List.getElem?_set_self hBound,
      hRelated⟩
  · intro j hOther
    apply List.getElem?_set_ne
    rintro rfl
    exact hOther (List.mem_singleton.mpr rfl)

/- Changes at different places make one change. -/
theorem cons
    {i : Nat}
    {places : List Nat}
    (hFirst : ChangedIn [i] R es fs)
    (hThen : ChangedIn places R fs gs)
    (hOther : i ∉ places) :
    ChangedIn (i :: places) R es gs := by
  constructor
  · intro j hMem
    rcases List.mem_cons.mp hMem with rfl | hLater
    · rw [hThen.elsewhere j hOther]
      exact hFirst.there j (List.mem_singleton.mpr rfl)
    · have hNot : j ∉ [i] := by
        intro hSame
        obtain rfl := List.mem_singleton.mp hSame
        exact hOther hLater
      rw [← hFirst.elsewhere j hNot]
      exact hThen.there j hLater
  · intro j hNot
    rw [List.mem_cons, not_or] at hNot
    rw [hThen.elsewhere j hNot.2, hFirst.elsewhere j]
    rw [List.mem_singleton]
    exact hNot.1

end ChangedIn

/-
  A sweep over places has stopped at one of them: something is
  done with the entries before, the sweep broke off at the
  entry there, and those behind are the same.
-/
def StoppedIn
    (places : List Nat)
    (Done Broke : ItemEntry → ItemSession → Prop)
    (es fs : List ItemEntry) :
    Prop :=
  ∃ before i behind ds,
    places = before ++ i :: behind ∧
      ChangedIn before Done es ds ∧ ChangedIn [i] Broke ds fs

namespace TestSession

open ItemSession

------------------------------------------------------------
-- Sweeps
------------------------------------------------------------

/- Nothing but items and events has changed. -/
def MovesItems (s t : TestSession) : Prop :=
  t = { s with entries := t.entries, events := t.events }

theorem movesItems_putSession
    (s : TestSession)
    (i : Nat)
    (e : ItemEntry)
    (session : ItemSession) :
    s.MovesItems (putSession s i e session) :=
  rfl

instance : Std.Refl MovesItems where
  refl _ := rfl

instance : IsTrans TestSession MovesItems where
  trans _ t u hFirst hThen := by
    have hAll :=
      congrArg
        (fun v : TestSession =>
          { v with entries := u.entries, events := u.events })
        hFirst
    exact hThen.trans hAll

/- Further events are among what has changed. -/
theorem MovesItems.announced
    {s t : TestSession}
    (earlier later : List Event)
    (hMoves : MovesItems { s with events := earlier } t) :
    s.MovesItems { t with events := later } := by
  have hSame :=
    congrArg
      (fun v : TestSession => { v with events := later }) hMoves
  exact hSame

/-
  What a sweep over places of items comes to, whether it goes
  through or breaks off.
-/
structure SweptUntil
    {α : Type}
    (places : List Nat)
    (Done Broke : ItemEntry → ItemSession → Prop)
    (s : TestSession)
    (r : Except Failure α)
    (t : TestSession) :
    Prop where
  items : s.MovesItems t
  through :
    r.isOk = true →
      ChangedIn places Done s.entries t.entries
  stopped :
    ∀ cause, r = .error (.service cause) →
      StoppedIn places Done Broke s.entries t.entries

section Sweeps

variable {α β : Type}
variable {places : List Nat}
variable {Done Broke : ItemEntry → ItemSession → Prop}

theorem sweptUntil_nil (s : TestSession) (a : α) :
    SweptUntil [] Done Broke s (.ok a) s where
  items := rfl
  through _ := ChangedIn.nil
  stopped _ hCause := by cases hCause

/-
  A sweep takes a step of one item, and goes on if the step
  goes through.
-/
theorem ends_sweepUntil
    {s : TestSession}
    {i : Nat}
    {d : ItemEntry}
    (hD : s.entries[i]? = some d)
    (hOther : i ∉ places)
    {x : Action α}
    {rest : α → TestAction β}
    (hStep :
      Ends x d.session fun r session =>
        (r.isOk = true → Done d session) ∧
          ∀ cause, r = .error (.service cause) →
            Broke d session)
    (hRest :
      ∀ a session,
        Ends (rest a) (putSession s i d session)
          (SweptUntil places Done Broke
            (putSession s i d session))) :
    Ends (onItem i x >>= rest) s
      (SweptUntil (i :: places) Done Broke s) := by
  rw [ends_bind, ends_onItem, hD]
  apply hStep.mono
  rintro r session ⟨hDone, hBroke⟩
  cases r with
  | error e =>
      constructor
      · exact movesItems_putSession s i d session
      · exact fun hOk => by cases hOk
      · rintro cause hCause
        cases hCause
        exact ⟨[], i, places, s.entries, rfl, .nil,
          .single hD (hBroke cause rfl)⟩
  | ok a =>
      have hFirst :
          ChangedIn [i] Done s.entries
            (putSession s i d session).entries :=
        .single hD (hDone rfl)
      apply (hRest a session).mono
      intro r u hSwept
      constructor
      · exact IsTrans.trans _ _ _
          (movesItems_putSession s i d session) hSwept.items
      · exact fun hOk =>
          hFirst.cons (hSwept.through hOk) hOther
      · intro cause hCause
        obtain ⟨before, j, behind, ds, hPlaces, hBefore,
          hThere⟩ := hSwept.stopped cause hCause
        have hNot : i ∉ before := by
          intro hMem
          apply hOther
          rw [hPlaces]
          exact List.mem_append_left _ hMem
        exact ⟨i :: before, j, behind, ds,
          congrArg (i :: ·) hPlaces,
          hFirst.cons hBefore hNot, hThere⟩

end Sweeps

/- Places of entries, each of which is there, and once. -/
structure Places
    (s : TestSession)
    (places : List (ItemEntry × Nat)) :
    Prop where
  there : ∀ x ∈ places, s.entries[x.2]? = some x.1
  once : (places.map Prod.snd).Nodup

namespace Places

theorem head
    {s : TestSession}
    {d : ItemEntry}
    {i : Nat}
    {places : List (ItemEntry × Nat)}
    (hPlaces : s.Places ((d, i) :: places)) :
    s.entries[i]? = some d ∧ i ∉ places.map Prod.snd := by
  constructor
  · exact hPlaces.there (d, i) List.mem_cons_self
  · exact (List.nodup_cons.mp hPlaces.once).1

/- A step of one item leaves the others where they are. -/
theorem tail
    {s : TestSession}
    {d : ItemEntry}
    {i : Nat}
    {places : List (ItemEntry × Nat)}
    (hPlaces : s.Places ((d, i) :: places))
    (session : ItemSession) :
    (putSession s i d session).Places places where
  there x hMem := by
    have hOther : i ≠ x.2 := by
      rintro rfl
      exact hPlaces.head.2 (List.mem_map_of_mem hMem)
    exact (List.getElem?_set_ne hOther).trans
      (hPlaces.there x (List.mem_cons_of_mem _ hMem))
  once := (List.nodup_cons.mp hPlaces.once).2

end Places

theorem places_zipIdx (s : TestSession) :
    s.Places s.entries.zipIdx where
  there _ hMem := List.mem_zipIdx_iff_getElem?.mp hMem
  once := by
    rw [List.zipIdx_map_snd]
    exact List.nodup_range'

theorem places_entriesIn (s : TestSession) (p : Nat) :
    s.Places (s.entriesIn p) where
  there _ hMem :=
    s.places_zipIdx.there _ (List.mem_filter.mp hMem).1
  once :=
    s.places_zipIdx.once.sublist
      (List.filter_sublist.map Prod.snd)

end TestSession

end Assessment
