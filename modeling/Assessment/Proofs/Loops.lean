import Assessment.Proofs.Stateful

/-
  Programs that loop.

  A loop goes on as long as its rounds say so, and might never
  come to an end. So a program with loops is a relation: from
  a state, something is noted on the way, and there is a
  result and a state that is left. A program that ends has
  such a result, and one without choices has no other.

  A computation in which the rounds of every loop are counted
  does what the program does if there are rounds enough.

  Main declarations:
    * `Program`, with `step`, `Then` and `Loop`
    * `Program.Certain`, a program without choices
    * `Program.Records`, a program that notes what it does
    * `Program.Follows`, with `Follows.loop` for rounds that
      are counted
-/

------------------------------------------------------------
-- Programs
------------------------------------------------------------

namespace Assessment

open Stateful

/-
  How a program may run: from a state, with what is noted on
  the way, to a result and the state that is left.
-/
abbrev Program (σ ι α : Type) :=
  σ → List ι → Except Failure α → σ → Prop

namespace Program

variable {σ ι α β : Type}

/- One step, and what is noted of it. -/
def step (notes : List ι) (x : Stateful σ α) :
    Program σ ι α :=
  fun s path r t => path = notes ∧ run x s = (r, t)

/- A failure of the first part is the failure of the whole. -/
inductive Then
    (x : Program σ ι α)
    (f : α → Program σ ι β) :
    σ → List ι → Except Failure β → σ → Prop
  | failed {s t : σ} {path : List ι} {e : Failure} :
      x s path (.error e) t → Then x f s path (.error e) t
  | on {s t u : σ} {path later : List ι} {a : α}
      {r : Except Failure β} :
      x s path (.ok a) t → f a t later r u →
        Then x f s (path ++ later) r u

/- Round follows round until one of them is the last. -/
inductive Loop (round : β → Program σ ι (ForInStep β)) :
    β → σ → List ι → Except Failure β → σ → Prop
  | failed {b : β} {s t : σ} {path : List ι} {e : Failure} :
      round b s path (.error e) t →
        Loop round b s path (.error e) t
  | last {b c : β} {s t : σ} {path : List ι} :
      round b s path (.ok (.done c)) t →
        Loop round b s path (.ok c) t
  | next {b c : β} {s t u : σ} {path later : List ι}
      {r : Except Failure β} :
      round b s path (.ok (.yield c)) t →
        Loop round c t later r u →
          Loop round b s (path ++ later) r u

/- If the whole goes through, so do its parts. -/
theorem then_ok_iff
    {x : Program σ ι α}
    {f : α → Program σ ι β}
    {s u : σ}
    {path : List ι}
    {b : β} :
    Then x f s path (.ok b) u ↔
      ∃ a t earlier later, x s earlier (.ok a) t ∧
        f a t later (.ok b) u ∧ path = earlier ++ later := by
  constructor
  · intro hThen
    cases hThen with
    | on hFirst hRest => exact ⟨_, _, _, _, hFirst, hRest, rfl⟩
  · rintro ⟨a, t, earlier, later, hFirst, hRest, rfl⟩
    exact .on hFirst hRest

------------------------------------------------------------
-- Certainty
------------------------------------------------------------

/- From a state, a program runs in one way at most. -/
def Certain (x : Program σ ι α) : Prop :=
  ∀ ⦃s path r t path' r' t'⦄,
    x s path r t → x s path' r' t' →
      (path, r, t) = (path', r', t')

theorem certain_step (notes : List ι) (x : Stateful σ α) :
    Certain (step notes x) := by
  rintro s path r t path' r' t' ⟨rfl, hRun⟩ ⟨rfl, hRun'⟩
  rw [← hRun, ← hRun']

theorem Certain.next
    {x : Program σ ι α}
    {f : α → Program σ ι β}
    (hFirst : Certain x)
    (hThen : ∀ a, Certain (f a)) :
    Certain (Then x f) := by
  intro s path r t path' r' t' hRun hRun'
  cases hRun with
  | failed hFailed =>
      cases hRun' with
      | failed hFailed' =>
          cases hFirst hFailed hFailed'
          rfl
      | on hOn' _ => cases hFirst hFailed hOn'
  | on hOn hRest =>
      cases hRun' with
      | failed hFailed' => cases hFirst hOn hFailed'
      | on hOn' hRest' =>
          cases hFirst hOn hOn'
          cases hThen _ hRest hRest'
          rfl

theorem Certain.loop
    {round : β → Program σ ι (ForInStep β)}
    (hRound : ∀ b, Certain (round b))
    (b : β) :
    Certain (Loop round b) := by
  intro s path r t path' r' t' hRun
  induction hRun generalizing path' r' t' with
  | failed hFailed =>
      intro hRun'
      cases hRun' with
      | failed hFailed' =>
          cases hRound _ hFailed hFailed'
          rfl
      | last hLast' => cases hRound _ hFailed hLast'
      | next hNext' _ => cases hRound _ hFailed hNext'
  | last hLast =>
      intro hRun'
      cases hRun' with
      | failed hFailed' => cases hRound _ hLast hFailed'
      | last hLast' =>
          cases hRound _ hLast hLast'
          rfl
      | next hNext' _ => cases hRound _ hLast hNext'
  | next hNext _ ih =>
      intro hRun'
      cases hRun' with
      | failed hFailed' => cases hRound _ hNext hFailed'
      | last hLast' => cases hRound _ hNext hLast'
      | next hNext' hLoop' =>
          cases hRound _ hNext hNext'
          cases ih hLoop'
          rfl

------------------------------------------------------------
-- Records
------------------------------------------------------------

variable {action : ι → Stateful σ Unit}

/- What a program notes are the calls that it makes. -/
def Records
    (action : ι → Stateful σ Unit)
    (x : Program σ ι α) :
    Prop :=
  ∀ s path r t, x s path r t → t = after action s path

/- A call that is made, with what it gives back. -/
theorem records_call
    {c : ι}
    {x : Stateful σ α}
    (hCall : ∀ s, (run (action c) s).2 = (run x s).2) :
    Records action (step [c] x) := by
  rintro s path r t ⟨rfl, hRun⟩
  rw [after_cons, after_nil, hCall, hRun]

/- Nothing has to be noted if nothing changes. -/
theorem records_silent
    {x : Stateful σ α}
    (hSilent : ∀ s, (run x s).2 = s) :
    Records action (step [] x) := by
  rintro s path r t ⟨rfl, hRun⟩
  rw [after_nil, ← hSilent s, hRun]

theorem Records.next
    {x : Program σ ι α}
    {f : α → Program σ ι β}
    (hFirst : Records action x)
    (hThen : ∀ a, Records action (f a)) :
    Records action (Then x f) := by
  intro s path r t hRun
  cases hRun with
  | failed hFailed => exact hFirst _ _ _ _ hFailed
  | on hOn hRest =>
      rw [after_append, ← hFirst _ _ _ _ hOn]
      exact hThen _ _ _ _ _ hRest

theorem Records.loop
    {round : β → Program σ ι (ForInStep β)}
    (hRound : ∀ b, Records action (round b))
    (b : β) :
    Records action (Loop round b) := by
  intro s path r t hRun
  induction hRun with
  | failed hFailed => exact hRound _ _ _ _ _ hFailed
  | last hLast => exact hRound _ _ _ _ _ hLast
  | next hNext _ ih =>
      rw [after_append, ← hRound _ _ _ _ _ hNext]
      exact ih

------------------------------------------------------------
-- Counted Rounds
------------------------------------------------------------

/- From a state, a computation does what a program does. -/
def Follows
    (x : Program σ ι α)
    (y : Stateful σ α)
    (s : σ) :
    Prop :=
  Ends y s fun r t => ∃ path, x s path r t

theorem follows_step
    (notes : List ι)
    (x : Stateful σ α)
    (s : σ) :
    Follows (step notes x) x s :=
  ⟨notes, rfl, rfl⟩

/- To read the state is no step of its own. -/
theorem follows_get
    {x : Program σ ι α}
    {f : σ → Stateful σ α}
    {s : σ}
    (hFollows : Follows x (f s) s) :
    Follows x (get >>= f) s :=
  (ends_get_bind f s _).mpr hFollows

theorem Follows.next
    {x : Program σ ι α}
    {f : α → Program σ ι β}
    {y : Stateful σ α}
    {g : α → Stateful σ β}
    {s : σ}
    (hFirst : Follows x y s)
    (hThen :
      ∀ path a t, x s path (.ok a) t → Follows (f a) (g a) t) :
    Follows (Then x f) (y >>= g) s := by
  unfold Follows at hFirst ⊢
  rw [ends_bind]
  refine hFirst.mono fun r t hRun => ?_
  rcases hRun with ⟨path, hRun⟩
  cases r with
  | error => exact ⟨path, .failed hRun⟩
  | ok a =>
      refine Ends.mono (hThen path a t hRun) fun r u hRest => ?_
      rcases hRest with ⟨later, hRest⟩
      exact ⟨path ++ later, .on hRun hRest⟩

/- After the last round, a loop is left. -/
def leaveOr (f : β → Stateful σ β) :
    ForInStep β → Stateful σ β
  | .done b => pure b
  | .yield b => f b

/-
  If every round that is not the last leaves fewer of them to
  come, then as many rounds are enough.
-/
theorem Follows.loop
    {I : σ → Prop}
    (ahead : σ → Nat)
    {round : β → Program σ ι (ForInStep β)}
    {once : β → Stateful σ (ForInStep β)}
    {counted : Nat → β → Stateful σ β}
    (hCounted :
      ∀ n b, counted (n + 1) b = once b >>= leaveOr (counted n))
    (hRound : ∀ b s, I s → Follows (round b) (once b) s)
    (hFewer :
      ∀ b c s t path, I s →
        round b s path (.ok (.yield c)) t →
          I t ∧ ahead t < ahead s)
    (n : Nat)
    (b : β)
    {s : σ}
    (hI : I s)
    (hEnough : ahead s < n) :
    Follows (Loop round b) (counted n b) s := by
  induction n generalizing b s with
  | zero => exact absurd hEnough (Nat.not_lt_zero _)
  | succ n ih =>
      unfold Follows
      rw [hCounted, ends_bind]
      refine Ends.mono (hRound b s hI) fun r t hRun => ?_
      rcases hRun with ⟨path, hRun⟩
      rcases r with e | c | c
      · exact ⟨path, .failed hRun⟩
      · exact ⟨path, .last hRun⟩
      · rcases hFewer b c s t path hI hRun with ⟨hIT, hLess⟩
        refine Ends.mono (ih c hIT (by omega)) fun r u hRest => ?_
        rcases hRest with ⟨later, hRest⟩
        exact ⟨path ++ later, .next hRun hRest⟩

end Program

end Assessment
