import Assessment.Failure
import Mathlib.Order.Defs.Unbundled

/-
  What steps over a state come to.

  Steps of sessions, runs of rules and evaluations are
  computations over a state that may fail, and what they have
  done to the state stays when they fail. A statement about
  such a computation is a statement about its result and the
  state it leaves, and is read off its parts.

  Main declarations:
    * `Stateful` and `Ends`, a result and a state left
    * `ends_bind` and the readings of the other parts
    * `Moves` and `MovesCleanly`, a relation between the states
      before and after
    * `FailsOnly`, for which causes a computation fails
    * `Yields`, what a computation gives if it goes through
    * `Gives`, a computation that goes through, and `Works`,
      one that does so on a condition
    * `GoesThrough`, and `Breaks`, what is left when the
      service fails
    * `Closed`, a family that holds all that is made of it
    * `after`, the state that calls in a row lead to
-/

------------------------------------------------------------
-- Results and States
------------------------------------------------------------

namespace Assessment

/- A computation over a state, which may fail. -/
abbrev Stateful (σ α : Type) := ExceptT Failure (StateM σ) α

namespace Stateful

variable {σ α β : Type}

/- The result of a computation and the state it leaves. -/
def run (x : Stateful σ α) (s : σ) : Except Failure α × σ :=
  StateT.run (ExceptT.run x) s

/- A result that holds a value is that value. -/
theorem eq_ok_of_toOption
    {r : Except Failure α}
    {a : α}
    (hSome : r.toOption = some a) :
    r = .ok a := by
  cases r <;> cases hSome
  rfl

/-
  A computation, begun in a state, ends in a result and a
  state that meet a condition.
-/
def Ends
    (x : Stateful σ α)
    (s : σ)
    (Q : Except Failure α → σ → Prop) :
    Prop :=
  Q (run x s).1 (run x s).2

/- A weaker condition is met as well. -/
theorem Ends.mono
    {x : Stateful σ α}
    {s : σ}
    {P Q : Except Failure α → σ → Prop}
    (hEnds : Ends x s P)
    (hWeaker : ∀ r t, P r t → Q r t) :
    Ends x s Q :=
  hWeaker _ _ hEnds

/- The same condition may be said in another way. -/
theorem ends_congr
    {x : Stateful σ α}
    {s : σ}
    {P Q : Except Failure α → σ → Prop}
    (hSame : ∀ r t, P r t ↔ Q r t) :
    Ends x s P ↔ Ends x s Q :=
  hSame _ _

/- Two conditions that are met are met together. -/
theorem Ends.and
    {x : Stateful σ α}
    {s : σ}
    {P Q : Except Failure α → σ → Prop}
    (hFirst : Ends x s P)
    (hSecond : Ends x s Q) :
    Ends x s fun r t => P r t ∧ Q r t :=
  ⟨hFirst, hSecond⟩

/- A condition that always holds is met. -/
theorem Ends.of_forall
    {x : Stateful σ α}
    {s : σ}
    {Q : Except Failure α → σ → Prop}
    (hAll : ∀ r t, Q r t) :
    Ends x s Q :=
  hAll _ _

/- A failure of the first part is the failure of the whole. -/
theorem run_bind
    (x : Stateful σ α)
    (f : α → Stateful σ β)
    (s : σ) :
    run (x >>= f) s =
      match run x s with
      | (.ok a, t) => run (f a) t
      | (.error e, t) => (.error e, t) := by
  simp only [run, ExceptT.run_bind, StateT.run_bind]
  rcases StateT.run (ExceptT.run x) s with ⟨r, t⟩
  cases r <;> rfl

/- A whole goes through if both of its parts do. -/
theorem run_bind_eq_ok
    {x : Stateful σ α}
    {f : α → Stateful σ β}
    {s u : σ}
    {b : β} :
    run (x >>= f) s = (.ok b, u) ↔
      ∃ a t, run x s = (.ok a, t) ∧
        run (f a) t = (.ok b, u) := by
  rw [run_bind]
  rcases run x s with ⟨r | a, t⟩
  · simp
  · exact ⟨fun hThen => ⟨a, t, rfl, hThen⟩,
      fun ⟨_, _, hSame, hThen⟩ => by
        cases hSame
        exact hThen⟩

@[simp] theorem ends_bind
    (x : Stateful σ α)
    (f : α → Stateful σ β)
    (s : σ)
    (Q : Except Failure β → σ → Prop) :
    Ends (x >>= f) s Q ↔
      Ends x s fun r t =>
        match r with
        | .ok a => Ends (f a) t Q
        | .error e => Q (.error e) t := by
  simp only [Ends, run_bind]
  rcases run x s with ⟨r | a, t⟩ <;> rfl

/- What the first part leaves is where the second begins. -/
theorem Ends.seq
    {P : σ → Prop}
    {x : Stateful σ α}
    {f : α → Stateful σ β}
    {s : σ}
    {Q : Except Failure β → σ → Prop}
    (hFirst : Ends x s fun _ t => P t)
    (hFailed : ∀ e t, P t → Q (.error e) t)
    (hThen : ∀ a t, P t → Ends (f a) t Q) :
    Ends (x >>= f) s Q := by
  rw [ends_bind]
  refine hFirst.mono fun r t hP => ?_
  cases r with
  | error e => exact hFailed e t hP
  | ok a => exact hThen a t hP

/- What the first part leaves may not matter. -/
theorem Ends.skip
    {x : Stateful σ α}
    {f : α → Stateful σ β}
    {s : σ}
    {Q : Except Failure β → σ → Prop}
    (hFailed : ∀ e t, Q (.error e) t)
    (hThen : ∀ a t, Ends (f a) t Q) :
    Ends (x >>= f) s Q :=
  Ends.seq (P := fun _ => True)
    (Ends.of_forall fun _ _ => trivial)
    (fun e t _ => hFailed e t) fun a t _ => hThen a t

/- What is known of a run is known of what it came to. -/
theorem Ends.of_run
    {x : Stateful σ α}
    {s t : σ}
    {r : Except Failure α}
    {Q : Except Failure α → σ → Prop}
    (hEnds : Ends x s Q)
    (hRun : run x s = (r, t)) :
    Q r t := by
  unfold Ends at hEnds
  rw [hRun] at hEnds
  exact hEnds

/- Only a first part that goes through may matter. -/
theorem Ends.through
    {x : Stateful σ α}
    {f : α → Stateful σ β}
    {s : σ}
    {Q : Except Failure β → σ → Prop}
    (hFailed : ∀ e t, Q (.error e) t)
    (hThen :
      ∀ a t, run x s = (.ok a, t) → Ends (f a) t Q) :
    Ends (x >>= f) s Q := by
  rw [ends_bind]
  unfold Ends
  cases hRun : run x s with
  | mk r t =>
      cases r with
      | error e => exact hFailed e t
      | ok a => exact hThen a t hRun

/- Two parts that keep a relation keep it together. -/
theorem Ends.bind
    {R : σ → σ → Prop}
    [IsTrans σ R]
    {x : Stateful σ α}
    {f : α → Stateful σ β}
    {s : σ}
    (hFirst : Ends x s fun _ t => R s t)
    (hThen : ∀ a t, R s t → Ends (f a) t fun _ u => R t u) :
    Ends (x >>= f) s fun _ u => R s u := by
  refine Ends.seq hFirst (fun _ _ hR => hR) fun a t hR => ?_
  exact (hThen a t hR).mono fun _ _ hS =>
    IsTrans.trans _ _ _ hR hS

@[simp] theorem ends_pure
    (a : α)
    (s : σ)
    (Q : Except Failure α → σ → Prop) :
    Ends (pure a : Stateful σ α) s Q ↔ Q (.ok a) s :=
  Iff.rfl

@[simp] theorem ends_map
    (f : α → β)
    (x : Stateful σ α)
    (s : σ)
    (Q : Except Failure β → σ → Prop) :
    Ends (f <$> x) s Q ↔
      Ends x s fun r t =>
        match r with
        | .ok a => Q (.ok (f a)) t
        | .error e => Q (.error e) t := by
  rw [← bind_pure_comp, ends_bind]
  rfl

/- What is given back may be thrown away. -/
theorem ends_discard
    {P : σ → Prop}
    {x : Stateful σ α}
    {s : σ} :
    (Ends (discard x) s fun _ t => P t) ↔
      Ends x s fun _ t => P t := by
  change Ends ((fun _ => PUnit.unit) <$> x) s _ ↔ _
  rw [ends_map]
  constructor
  · exact fun hEnds => hEnds.mono fun r _ hP => by
      cases r <;> exact hP
  · exact fun hEnds => hEnds.mono fun r _ hP => by
      cases r <;> exact hP

theorem run_discard_snd (x : Stateful σ α) (s : σ) :
    (run (discard x) s).2 = (run x s).2 := by
  have hEnds : Ends (discard x) s fun _ t => t = (run x s).2 :=
    ends_discard.mpr rfl
  exact hEnds

@[simp] theorem ends_throw
    (e : Failure)
    (s : σ)
    (Q : Except Failure α → σ → Prop) :
    Ends (throw e : Stateful σ α) s Q ↔ Q (.error e) s :=
  Iff.rfl

@[simp] theorem ends_get
    (s : σ)
    (Q : Except Failure σ → σ → Prop) :
    Ends (get : Stateful σ σ) s Q ↔ Q (.ok s) s :=
  Iff.rfl

/- What follows goes on from the state that is read. -/
theorem ends_get_bind
    (f : σ → Stateful σ α)
    (s : σ)
    (Q : Except Failure α → σ → Prop) :
    Ends (get >>= f) s Q ↔ Ends (f s) s Q :=
  Iff.rfl

@[simp] theorem ends_modify
    (f : σ → σ)
    (s : σ)
    (Q : Except Failure PUnit → σ → Prop) :
    Ends (modify f : Stateful σ PUnit) s Q ↔
      Q (.ok ()) (f s) :=
  Iff.rfl

@[simp] theorem ends_ite
    (c : Prop)
    [Decidable c]
    (x y : Stateful σ α)
    (s : σ)
    (Q : Except Failure α → σ → Prop) :
    Ends (if c then x else y) s Q ↔
      if c then Ends x s Q else Ends y s Q := by
  split <;> rfl

------------------------------------------------------------
-- Moves
------------------------------------------------------------

/-
  Whatever its result, a computation leaves a state that is
  related to the one it began in.
-/
def Moves (R : σ → σ → Prop) (x : Stateful σ α) : Prop :=
  ∀ s, Ends x s fun _ t => R s t

namespace Moves

variable {R : σ → σ → Prop}

/- A computation moves by every wider relation. -/
theorem mono
    {S : σ → σ → Prop}
    {x : Stateful σ α}
    (hMoves : Moves R x)
    (hWider : ∀ s t, R s t → S s t) :
    Moves S x :=
  fun s => hWider _ _ (hMoves s)

theorem pure [Std.Refl R] (a : α) :
    Moves R (Pure.pure a : Stateful σ α) :=
  fun s => Std.Refl.refl (r := R) s

theorem throw [Std.Refl R] (e : Failure) :
    Moves R (MonadExcept.throw e : Stateful σ α) :=
  fun s => Std.Refl.refl (r := R) s

theorem get [Std.Refl R] :
    Moves R (MonadState.get : Stateful σ σ) :=
  fun s => Std.Refl.refl (r := R) s

/- Two moves in a row make a move. -/
theorem bind
    [IsTrans σ R]
    {x : Stateful σ α}
    {f : α → Stateful σ β}
    (hFirst : Moves R x)
    (hThen : ∀ a, Moves R (f a)) :
    Moves R (x >>= f) := by
  intro s
  exact Ends.bind (hFirst s) fun a t _ => hThen a t

theorem ite
    {c : Prop}
    [Decidable c]
    {x y : Stateful σ α}
    (hThen : Moves R x)
    (hElse : Moves R y) :
    Moves R (if c then x else y) := by
  split
  · exact hThen
  · exact hElse

/- A step that is taken in one case only comes before others. -/
theorem ite_bind
    [IsTrans σ R]
    {c : Prop}
    [Decidable c]
    {x : Stateful σ Unit}
    {f : Unit → Stateful σ α}
    (hFirst : Moves R x)
    (hThen : ∀ a, Moves R (f a)) :
    Moves R (if c then x >>= f else f ()) :=
  ite (bind hFirst hThen) (hThen ())

theorem ite_bind_else
    [IsTrans σ R]
    {c : Prop}
    [Decidable c]
    {x : Stateful σ Unit}
    {f : Unit → Stateful σ α}
    (hFirst : Moves R x)
    (hThen : ∀ a, Moves R (f a)) :
    Moves R (if c then f () else x >>= f) :=
  ite (hThen ()) (bind hFirst hThen)

end Moves

/-
  A computation leaves a related state, whatever its result,
  or only if it goes through, where it has to be clean.
-/
def MovesCleanly
    (clean : Prop)
    (R : σ → σ → Prop)
    (x : Stateful σ α) :
    Prop :=
  ∀ s, Ends x s fun r t => (clean → r.isOk = true) → R s t

theorem Moves.cleanly
    {clean : Prop}
    {R : σ → σ → Prop}
    {x : Stateful σ α}
    (hMoves : Moves R x) :
    MovesCleanly clean R x :=
  fun s => (hMoves s).mono fun _ _ hMove _ => hMove

namespace MovesCleanly

variable {clean : Prop}
variable {R : σ → σ → Prop}

/- Where nothing has to be clean, a computation moves. -/
theorem moves
    {x : Stateful σ α}
    (hMoves : MovesCleanly False R x) :
    Moves R x :=
  fun s => (hMoves s).mono fun _ _ hMove => hMove False.elim

/- If the whole goes through, so does its first part. -/
theorem bind
    [IsTrans σ R]
    {x : Stateful σ α}
    {f : α → Stateful σ β}
    (hFirst : MovesCleanly clean R x)
    (hThen : ∀ a, MovesCleanly clean R (f a)) :
    MovesCleanly clean R (x >>= f) := by
  intro s
  rw [ends_bind]
  refine (hFirst s).mono fun r t hMove => ?_
  cases r with
  | error => exact hMove
  | ok a =>
      exact (hThen a t).mono fun _ u hLater hClean =>
        IsTrans.trans _ _ _ (hMove fun _ => rfl)
          (hLater hClean)

theorem ite
    {c : Prop}
    [Decidable c]
    {x y : Stateful σ α}
    (hThen : MovesCleanly clean R x)
    (hElse : MovesCleanly clean R y) :
    MovesCleanly clean R (if c then x else y) := by
  split
  · exact hThen
  · exact hElse

end MovesCleanly

------------------------------------------------------------
-- Causes of Failure
------------------------------------------------------------

/-
  From states that meet a condition, a computation leaves such
  a state, and if it fails, then for one of some causes.
-/
def FailsOnly
    (I : σ → Prop)
    (P : Failure → Prop)
    (x : Stateful σ α) :
    Prop :=
  ∀ s, I s → Ends x s fun r t =>
    I t ∧ ∀ e, r = .error e → P e

namespace FailsOnly

variable {I : σ → Prop}
variable {P : Failure → Prop}

theorem pure (a : α) :
    FailsOnly I P (Pure.pure a : Stateful σ α) := by
  intro s hI
  rw [ends_pure]
  exact ⟨hI, fun _ hError => by cases hError⟩

theorem throw {e : Failure} (hP : P e) :
    FailsOnly I P (MonadExcept.throw e : Stateful σ α) := by
  intro s hI
  rw [ends_throw]
  constructor
  · exact hI
  · intro e' hError
    cases hError
    exact hP

/- What the first part leaves meets the condition again. -/
theorem bind
    {x : Stateful σ α}
    {f : α → Stateful σ β}
    (hFirst : FailsOnly I P x)
    (hThen : ∀ a, FailsOnly I P (f a)) :
    FailsOnly I P (x >>= f) := by
  intro s hI
  rw [ends_bind]
  apply (hFirst s hI).mono
  intro r t hEnds
  cases r with
  | error e =>
      constructor
      · exact hEnds.1
      · intro e' hError
        cases hError
        exact hEnds.2 e rfl
  | ok a => exact hThen a t hEnds.1

end FailsOnly

------------------------------------------------------------
-- Results
------------------------------------------------------------

/- Whatever a computation gives has a property. -/
def Yields (P : α → Prop) (x : Stateful σ α) : Prop :=
  ∀ s, Ends x s fun r _ => ∀ a, r = .ok a → P a

namespace Yields

variable {P : α → Prop}

theorem pure {a : α} (hP : P a) :
    Yields P (Pure.pure a : Stateful σ α) := by
  rintro s b hOk
  cases hOk
  exact hP

/- The second part relies on what the first part gives. -/
theorem bind
    {Q : β → Prop}
    {x : Stateful σ α}
    {f : α → Stateful σ β}
    (hFirst : Yields P x)
    (hThen : ∀ a, P a → Yields Q (f a)) :
    Yields Q (x >>= f) := by
  intro s
  rw [ends_bind]
  apply (hFirst s).mono
  intro r t hYields
  cases r with
  | error e =>
      intro b hOk
      cases hOk
  | ok a => exact hThen a (hYields a rfl) t

/- What the first part gives may not matter. -/
theorem skip
    {Q : β → Prop}
    {x : Stateful σ α}
    {f : α → Stateful σ β}
    (hThen : ∀ a, Yields Q (f a)) :
    Yields Q (x >>= f) :=
  bind (P := fun _ => True) (fun _ _ _ => trivial)
    fun a _ => hThen a

end Yields

/-
  From states that meet a condition, a computation goes
  through. It leaves such a state, and gives a result with a
  property.
-/
def Gives
    (I : σ → Prop)
    (P : α → Prop)
    (x : Stateful σ α) :
    Prop :=
  ∀ s, I s → Ends x s fun r t =>
    I t ∧ ∃ a, r = .ok a ∧ P a

namespace Gives

variable {I : σ → Prop}
variable {P : α → Prop}

theorem pure {a : α} (hP : P a) :
    Gives I P (Pure.pure a : Stateful σ α) := by
  intro s hI
  rw [ends_pure]
  exact ⟨hI, a, rfl, hP⟩

/- The second part relies on what the first part gives. -/
theorem bind
    {Q : β → Prop}
    {x : Stateful σ α}
    {f : α → Stateful σ β}
    (hFirst : Gives I P x)
    (hThen : ∀ a, P a → Gives I Q (f a)) :
    Gives I Q (x >>= f) := by
  intro s hI
  rw [ends_bind]
  apply (hFirst s hI).mono
  rintro r t ⟨hLeft, a, rfl, hP⟩
  exact hThen a hP t hLeft

/- The result has weaker properties as well. -/
theorem mono
    {Q : α → Prop}
    {x : Stateful σ α}
    (hGives : Gives I P x)
    (hWeaker : ∀ a, P a → Q a) :
    Gives I Q x := by
  intro s hI
  apply (hGives s hI).mono
  rintro r t ⟨hLeft, a, hOk, hP⟩
  exact ⟨hLeft, a, hOk, hWeaker a hP⟩

/- There is one result, which has all its properties at once. -/
theorem both
    {Q : α → Prop}
    {x : Stateful σ α}
    (hFirst : Gives I P x)
    (hSecond : Gives I Q x) :
    Gives I (fun a => P a ∧ Q a) x := by
  intro s hI
  rcases hFirst s hI with ⟨hLeft, a, hOk, hP⟩
  rcases hSecond s hI with ⟨_, b, hSame, hQ⟩
  rw [hOk] at hSame
  cases hSame
  exact ⟨hLeft, a, hOk, hP, hQ⟩

end Gives

/-
  From states that meet a condition, a computation leaves such
  states, related to the ones before. It goes through if
  something can be relied on.
-/
def Works
    (I : σ → Prop)
    (R : σ → σ → Prop)
    (relied : Prop)
    (x : Stateful σ α) :
    Prop :=
  ∀ s, I s → Ends x s fun r t =>
    I t ∧ R s t ∧ (relied → ∃ a, r = .ok a)

namespace Works

variable {I : σ → Prop}
variable {R : σ → σ → Prop}
variable {relied : Prop}

theorem pure [Std.Refl R] (a : α) :
    Works I R relied (Pure.pure a : Stateful σ α) := by
  intro s hI
  rw [ends_pure]
  exact ⟨hI, Std.Refl.refl (r := R) s, fun _ => ⟨a, rfl⟩⟩

theorem bind
    [IsTrans σ R]
    {x : Stateful σ α}
    {f : α → Stateful σ β}
    (hFirst : Works I R relied x)
    (hThen : ∀ a, Works I R relied (f a)) :
    Works I R relied (x >>= f) := by
  intro s hI
  rw [ends_bind]
  apply (hFirst s hI).mono
  rintro r t ⟨hLeft, hMove, hOk⟩
  cases r with
  | error e =>
      refine ⟨hLeft, hMove, fun hRelied => ?_⟩
      obtain ⟨a, hSame⟩ := hOk hRelied
      cases hSame
  | ok a =>
      apply (hThen a t hLeft).mono
      rintro r' u ⟨hLeft', hMove', hOk'⟩
      exact ⟨hLeft', IsTrans.trans _ _ _ hMove hMove', hOk'⟩

/- Less may be relied on. -/
theorem weaken
    {x : Stateful σ α}
    {relied' : Prop}
    (hWorks : Works I R relied x)
    (hLess : relied' → relied) :
    Works I R relied' x := by
  intro s hI
  apply (hWorks s hI).mono
  rintro r t ⟨hLeft, hMove, hOk⟩
  exact ⟨hLeft, hMove, hOk ∘ hLess⟩

end Works

------------------------------------------------------------
-- Breaking Off
------------------------------------------------------------

/- A computation goes through and leaves a state. -/
def GoesThrough (x : Stateful σ α) (s t : σ) : Prop :=
  ∃ a, run x s = (.ok a, t)

theorem ends_goesThrough (x : Stateful σ α) (s : σ) :
    Ends x s fun r t => r.isOk = true → GoesThrough x s t := by
  intro hOk
  unfold GoesThrough
  cases hRun : run x s with
  | mk r t =>
      rw [hRun] at hOk
      cases r with
      | error e => cases hOk
      | ok a => exact ⟨a, rfl⟩

/-
  A computation that breaks off because the service fails
  leaves a state that meets a condition.
-/
def Breaks
    (x : Stateful σ α)
    (s : σ)
    (Q : σ → Prop) :
    Prop :=
  Ends x s fun r t =>
    ∀ cause, r = .error (.service cause) → Q t

namespace Breaks

variable {P Q : σ → Prop}

theorem mono
    {x : Stateful σ α}
    {s : σ}
    (hBreaks : Breaks x s P)
    (hWeaker : ∀ t, P t → Q t) :
    Breaks x s Q :=
  fun cause hCause => hWeaker _ (hBreaks cause hCause)

/- What is left after every end is left after this one. -/
theorem of_ends
    {x : Stateful σ α}
    {s : σ}
    (hEnds : Ends x s fun _ t => Q t) :
    Breaks x s Q :=
  fun _ _ => hEnds

/- What goes through does not break off. -/
theorem of_isOk
    {x : Stateful σ α}
    {s : σ}
    (hOk : Ends x s fun r _ => r.isOk = true) :
    Breaks x s Q := by
  apply hOk.mono
  rintro r t hDone cause rfl
  cases hDone

theorem get_bind
    {f : σ → Stateful σ α}
    {s : σ}
    (hThen : Breaks (f s) s Q) :
    Breaks (get >>= f) s Q :=
  hThen

/- Either part of the whole may be where it breaks off. -/
theorem seq
    {x : Stateful σ α}
    {f : α → Stateful σ β}
    {s : σ}
    (hFirst : Breaks x s Q)
    (hThen :
      ∀ a t, run x s = (.ok a, t) → Breaks (f a) t Q) :
    Breaks (x >>= f) s Q := by
  unfold Breaks
  rw [ends_bind]
  cases hRun : run x s with
  | mk r t =>
      have hFirst' := Ends.of_run hFirst hRun
      unfold Ends
      rw [hRun]
      cases r with
      | error e =>
          intro cause hCause
          cases hCause
          exact hFirst' cause rfl
      | ok a => exact hThen a t hRun

end Breaks

------------------------------------------------------------
-- Families
------------------------------------------------------------

/-
  A family of computations that holds whatever is put together
  from its members.
-/
structure Closed
    (C : (α : Type) → Stateful σ α → Prop) :
    Prop where
  pure : ∀ {α : Type} (a : α), C α (Pure.pure a)
  bind :
    ∀ {α β : Type} {x : Stateful σ α} {f : α → Stateful σ β},
      C α x → (∀ a, C β (f a)) → C β (x >>= f)

theorem Moves.closed
    {R : σ → σ → Prop}
    [Std.Refl R]
    [IsTrans σ R] :
    Closed fun _ (x : Stateful σ _) => Moves R x :=
  ⟨Moves.pure, Moves.bind⟩

theorem FailsOnly.closed
    {I : σ → Prop}
    {P : Failure → Prop} :
    Closed fun _ (x : Stateful σ _) => FailsOnly I P x :=
  ⟨FailsOnly.pure, FailsOnly.bind⟩

theorem Works.closed
    {I : σ → Prop}
    {R : σ → σ → Prop}
    [Std.Refl R]
    [IsTrans σ R]
    {relied : Prop} :
    Closed fun _ (x : Stateful σ _) => Works I R relied x :=
  ⟨Works.pure, Works.bind⟩

theorem Gives.closed
    {I : σ → Prop} :
    Closed fun _ (x : Stateful σ _) =>
      Gives I (fun _ => True) x where
  pure _ := Gives.pure trivial
  bind hFirst hThen := Gives.bind hFirst fun a _ => hThen a

------------------------------------------------------------
-- Runs
------------------------------------------------------------

variable {Call : Type}
variable (action : Call → Stateful σ Unit)

/- The state after calls in a row, whether they fail or not. -/
def after (s : σ) (calls : List Call) : σ :=
  calls.foldl (fun s c => (run (action c) s).2) s

@[simp] theorem after_nil (s : σ) :
    after action s [] = s := rfl

@[simp] theorem after_cons
    (s : σ)
    (c : Call)
    (calls : List Call) :
    after action s (c :: calls) =
      after action (run (action c) s).2 calls := rfl

@[simp] theorem after_append
    (s : σ)
    (calls others : List Call) :
    after action s (calls ++ others) =
      after action (after action s calls) others :=
  List.foldl_append

variable {action}

/- What relates the states around each call relates a run. -/
theorem after_moves
    {R : σ → σ → Prop}
    [Std.Refl R]
    [IsTrans σ R]
    (hMoves : ∀ c, Moves R (action c))
    (s : σ)
    (calls : List Call) :
    R s (after action s calls) := by
  induction calls generalizing s with
  | nil => exact Std.Refl.refl (r := R) s
  | cons c calls ih =>
      rw [after_cons]
      exact IsTrans.trans _ _ _ (hMoves c s) (ih _)

end Stateful

end Assessment
