import Assessment.Proofs.Item.Lifecycle
import Assessment.Proofs.Keyed
import Assessment.Test.Session
import Mathlib.Algebra.GroupWithZero.Nat
import Mathlib.Data.List.Forall2

/-
  What the timers of a test session show.

  A test, its parts, its sections and its items have a timer
  each. What one of them shows at an instant is the time of
  its laps with the running one, and whatever is done to it at
  that instant leaves it so. What a test shows nests when no
  timer falls behind the sum of those below it. From one
  instant to a later one it goes on to nest, as long as no
  timer stands still with one that runs below it, and none has
  two that run below it.

  Main declarations:
    * `Timer.reading`, what a timer shows at an instant
    * `Timer.Turned`, what may be done to it at an instant
    * `Dials`, a value for each timer of a test session
    * `Dials.Nest`, with `Dials.nest_reading_later`
    * `Dials.Along`, a relation timer by timer
-/

------------------------------------------------------------
-- Timers
------------------------------------------------------------

namespace Assessment

namespace Timer

/- The nanoseconds of all laps with the running one. -/
def reading (now : Instant) (t : Timer) : Nat :=
  t.total + (t.since.map fun since => since.elapsed now).getD 0

/- How many nanoseconds a timer measures in one. -/
def pace (t : Timer) : Nat :=
  t.isRunning.toNat

/- No lap begins later. -/
def IsPast (now : Instant) (t : Timer) : Prop :=
  ∀ since, t.since = some since →
    since.nanoseconds ≤ now.nanoseconds

/- No time has been measured that is not in the laps. -/
def IsFresh (now : Instant) (t : Timer) : Prop :=
  ∀ since, t.since = some since → since = now

theorem IsPast.later
    {now later : Instant}
    {t : Timer}
    (hPast : t.IsPast now)
    (hLater : now.nanoseconds ≤ later.nanoseconds) :
    t.IsPast later :=
  fun since hSince =>
    Int.le_trans (hPast since hSince) hLater

theorem reading_of_isFresh
    {now : Instant}
    {t : Timer}
    (hFresh : t.IsFresh now) :
    t.reading now = t.total := by
  unfold reading
  cases hSince : t.since with
  | none => rfl
  | some since =>
      rw [hFresh since hSince]
      exact congrArg (t.total + ·)
        (Instant.elapsed_of_le now now (Int.le_refl _))

/- A timer that runs goes with the time. -/
theorem reading_later
    {now later : Instant}
    {t : Timer}
    (hPast : t.IsPast now)
    (hLater : now.nanoseconds ≤ later.nanoseconds) :
    t.reading later =
      t.reading now + t.pace * now.elapsed later := by
  unfold reading pace isRunning
  cases hSince : t.since with
  | none => simp
  | some since =>
      have hBegun := hPast since hSince
      simp only [Option.map_some, Option.getD_some,
        Option.isSome_some, Bool.toNat_true, Instant.elapsed]
      omega

theorem total_start (t : Timer) (now : Instant) :
    (t.start now).total = t.total := by
  rcases t with ⟨laps, since | since⟩ <;> rfl

theorem total_touch (t : Timer) (now : Instant) :
    (t.touch now).total = t.reading now := by
  rcases t with ⟨laps, since | since⟩
  · rfl
  · exact Nat.add_comm _ _

theorem total_stop (t : Timer) (now : Instant) :
    (t.stop now).total = t.reading now :=
  t.total_touch now

/-
  At an instant, a timer becomes another that shows the same
  then.
-/
structure Turned (now : Instant) (t u : Timer) : Prop where
  reading : u.reading now = t.reading now
  past : t.IsPast now → u.IsPast now
  fresh : t.IsFresh now → u.IsFresh now

instance (now : Instant) : Std.Refl (Turned now) where
  refl _ := ⟨rfl, id, id⟩

instance (now : Instant) : IsTrans Timer (Turned now) where
  trans _ _ _ hFirst hThen :=
    ⟨hThen.reading.trans hFirst.reading,
      hThen.past ∘ hFirst.past, hThen.fresh ∘ hFirst.fresh⟩

/- A timer whose running lap begins now. -/
theorem IsFresh.isPast
    {now : Instant}
    {t : Timer}
    (hFresh : t.IsFresh now) :
    t.IsPast now :=
  fun since hSince =>
    (hFresh since hSince) ▸ Int.le_refl _

theorem isFresh_touch (t : Timer) (now : Instant) :
    (t.touch now).IsFresh now := by
  intro since hSince
  rcases t with ⟨laps, begun | begun⟩
  · cases hSince
  · exact (Option.some.inj hSince).symm

theorem isFresh_stop (t : Timer) (now : Instant) :
    (t.stop now).IsFresh now := by
  intro since hSince
  cases hSince

theorem isFresh_of_stopped
    {t : Timer}
    (hStopped : t.isRunning = false)
    (now : Instant) :
    t.IsFresh now := by
  intro since hSince
  rw [isRunning, hSince] at hStopped
  cases hStopped

theorem turned_of_isFresh
    {now : Instant}
    {t u : Timer}
    (hTotal : u.total = t.reading now)
    (hFresh : u.IsFresh now) :
    t.Turned now u where
  reading := (reading_of_isFresh hFresh).trans hTotal
  past _ := hFresh.isPast
  fresh _ := hFresh

theorem turned_touch (t : Timer) (now : Instant) :
    t.Turned now (t.touch now) :=
  turned_of_isFresh (t.total_touch now) (t.isFresh_touch now)

theorem turned_stop (t : Timer) (now : Instant) :
    t.Turned now (t.stop now) :=
  turned_of_isFresh (t.total_stop now) (t.isFresh_stop now)

theorem turned_start (t : Timer) (now : Instant) :
    t.Turned now (t.start now) := by
  rcases t with ⟨laps, since | since⟩
  · apply turned_of_isFresh
    · rfl
    · exact fun since hSince => (Option.some.inj hSince).symm
  · exact Std.Refl.refl (r := Turned now) _

/- A timer is started at an instant, or left as it is. -/
def Started (now : Instant) (t u : Timer) : Prop :=
  u = t ∨ u = t.start now

instance (now : Instant) : Std.Refl (Started now) where
  refl _ := .inl rfl

theorem Started.turned
    {now : Instant}
    {t u : Timer}
    (hStarted : t.Started now u) :
    t.Turned now u := by
  rcases hStarted with rfl | rfl
  · exact Std.Refl.refl (r := Turned now) u
  · exact t.turned_start now

/- A start leaves the laps alone. -/
theorem Started.total_eq
    {now : Instant}
    {t u : Timer}
    (hStarted : t.Started now u) :
    u.total = t.total := by
  rcases hStarted with rfl | rfl
  · rfl
  · exact t.total_start now

end Timer

------------------------------------------------------------
-- Dials
------------------------------------------------------------

/- A value for the timer of an item in its place. -/
structure ItemDial (α : Type) where
  part : Nat
  sections : List String
  own : α

/- A value for each timer of a test session. -/
structure Dials (α : Type) where
  test : α
  parts : List α
  sections : Keyed α
  items : List (ItemDial α)

/- The timers of a test session. -/
def ItemEntry.dial (e : ItemEntry) : ItemDial Timer :=
  ⟨e.part, e.sections, e.session.state.timer⟩

def TestSession.dials (s : TestSession) : Dials Timer where
  test := s.state.timer
  parts := s.state.partTimers
  sections := s.state.sectionTimers
  items := s.entries.map ItemEntry.dial

namespace Dials

variable {α β : Type}

def map (f : α → β) (d : Dials α) : Dials β where
  test := f d.test
  parts := d.parts.map f
  sections := d.sections.map fun x => (x.1, f x.2)
  items := d.items.map fun x =>
    { part := x.part, sections := x.sections, own := f x.own }

/- The values of the items in some places. -/
def itemsIn
    (d : Dials α)
    (place : Nat → List String → Bool) :
    List α :=
  (d.items.filter fun x => place x.part x.sections).map
    ItemDial.own

theorem itemsIn_map
    (f : α → β)
    (d : Dials α)
    (place : Nat → List String → Bool) :
    (d.map f).itemsIn place = (d.itemsIn place).map f := by
  simp only [itemsIn, map, List.filter_map, List.map_map,
    Function.comp_def]

/- All values have a property. -/
structure All (P : α → Prop) (d : Dials α) : Prop where
  test : P d.test
  parts : ∀ a ∈ d.parts, P a
  sections : ∀ x ∈ d.sections, P x.2
  items : ∀ x ∈ d.items, P x.own

theorem All.mono
    {P Q : α → Prop}
    {d : Dials α}
    (hAll : d.All P)
    (hWeaker : ∀ a, P a → Q a) :
    d.All Q where
  test := hWeaker _ hAll.test
  parts a hMem := hWeaker _ (hAll.parts a hMem)
  sections x hMem := hWeaker _ (hAll.sections x hMem)
  items x hMem := hWeaker _ (hAll.items x hMem)

/- Where two functions agree, they give the same values. -/
theorem map_congr
    {f g : α → β}
    {d : Dials α}
    (hAll : d.All fun a => f a = g a) :
    d.map f = d.map g := by
  unfold map
  rw [hAll.test, List.map_congr_left hAll.parts]
  congr 1
  · apply List.map_congr_left
    intro x hMem
    rw [hAll.sections x hMem]
  · apply List.map_congr_left
    intro x hMem
    rw [hAll.items x hMem]

------------------------------------------------------------
-- Nesting
------------------------------------------------------------

/-
  What the items of a part take does not exceed what the part
  takes, what the parts take does not exceed what the test
  takes, and what the items below a section take does not
  exceed what the section takes.
-/
structure Nest (d : Dials Nat) : Prop where
  parts :
    ∀ (p n : Nat), d.parts[p]? = some n →
      (d.itemsIn fun part _ => part == p).sum ≤ n
  test : d.parts.sum ≤ d.test
  sections :
    ∀ x ∈ d.sections,
      (d.itemsIn fun _ sections => sections.contains x.1).sum ≤
        x.2

/- A sum of multiples is the sum of two sums. -/
theorem sum_map_add_mul
    (f g : α → Nat)
    (k : Nat)
    (xs : List α) :
    (xs.map fun a => f a + g a * k).sum =
      (xs.map f).sum + (xs.map g).sum * k := by
  induction xs with
  | nil => simp
  | cons a rest ih =>
      simp only [List.map_cons, List.sum_cons, ih, Nat.add_mul]
      omega

/- What nests in two ways nests when it is added up. -/
theorem Nest.add
    {d : Dials α}
    {f g : α → Nat}
    (hFirst : (d.map f).Nest)
    (hSecond : (d.map g).Nest)
    (k : Nat) :
    (d.map fun a => f a + g a * k).Nest := by
  have hItems : ∀ (place : Nat → List String → Bool) (a : α),
      ((d.map f).itemsIn place).sum ≤ f a →
        ((d.map g).itemsIn place).sum ≤ g a →
          ((d.map fun a => f a + g a * k).itemsIn place).sum ≤
            f a + g a * k := by
    intro place a hF hG
    rw [itemsIn_map] at hF hG ⊢
    rw [sum_map_add_mul]
    exact Nat.add_le_add hF (Nat.mul_le_mul_right k hG)
  constructor
  · intro p n hPart
    simp only [map, List.getElem?_map, Option.map_eq_some_iff]
      at hPart
    rcases hPart with ⟨a, hA, rfl⟩
    apply hItems
    · exact hFirst.parts p (f a) (by simp [map, hA])
    · exact hSecond.parts p (g a) (by simp [map, hA])
  · have hSum := Nat.add_le_add hFirst.test
      (Nat.mul_le_mul_right k hSecond.test)
    simpa only [map, sum_map_add_mul] using hSum
  · intro x hMem
    rcases List.mem_map.mp hMem with ⟨y, hY, rfl⟩
    apply hItems
    · exact hFirst.sections (y.1, f y.2)
        (List.mem_map_of_mem hY)
    · exact hSecond.sections (y.1, g y.2)
        (List.mem_map_of_mem hY)

/-
  What timers show goes on to nest, when what they measure
  meanwhile does.
-/
theorem nest_reading_later
    {d : Dials Timer}
    {now later : Instant}
    (hNest : (d.map (Timer.reading now)).Nest)
    (hPaces : (d.map Timer.pace).Nest)
    (hPast : d.All (Timer.IsPast now))
    (hLater : now.nanoseconds ≤ later.nanoseconds) :
    (d.map (Timer.reading later)).Nest := by
  have hSame :
      d.map (Timer.reading later) =
        d.map fun t =>
          t.reading now + t.pace * now.elapsed later :=
    map_congr (hPast.mono fun t hBegun =>
      Timer.reading_later hBegun hLater)
  rw [hSame]
  exact hNest.add hPaces _

------------------------------------------------------------
-- Relations
------------------------------------------------------------

/- Two families of values are related timer by timer. -/
structure Along
    (R : α → α → Prop)
    (d e : Dials α) :
    Prop where
  test : R d.test e.test
  parts : List.Forall₂ R d.parts e.parts
  sections :
    List.Forall₂ (fun x y => y.1 = x.1 ∧ R x.2 y.2)
      d.sections e.sections
  items :
    List.Forall₂
      (fun x y =>
        y.part = x.part ∧ y.sections = x.sections ∧
          R x.own y.own)
      d.items e.items

section

variable {R : α → α → Prop}

instance [Std.Refl R] : Std.Refl (Along R) where
  refl d :=
    { test := Std.Refl.refl (r := R) d.test
      parts := List.forall₂_refl d.parts
      sections := List.forall₂_same.mpr fun x _ =>
        ⟨rfl, Std.Refl.refl (r := R) x.2⟩
      items := List.forall₂_same.mpr fun x _ =>
        ⟨rfl, rfl, Std.Refl.refl (r := R) x.own⟩ }

instance [IsTrans α R] : IsTrans (Dials α) (Along R) where
  trans _ _ _ hFirst hThen :=
    { test := IsTrans.trans (r := R) _ _ _ hFirst.test
        hThen.test
      parts := forall₂_trans (IsTrans.trans (r := R))
        hFirst.parts hThen.parts
      sections := forall₂_trans
        (fun _ _ _ h h' => ⟨h'.1.trans h.1,
          IsTrans.trans (r := R) _ _ _ h.2 h'.2⟩)
        hFirst.sections hThen.sections
      items := forall₂_trans
        (fun _ _ _ h h' => ⟨h'.1.trans h.1,
          h'.2.1.trans h.2.1,
          IsTrans.trans (r := R) _ _ _ h.2.2 h'.2.2⟩)
        hFirst.items hThen.items }

/- A wider relation holds as well. -/
theorem Along.mono
    {S : α → α → Prop}
    {d e : Dials α}
    (hAlong : d.Along R e)
    (hWider : ∀ a b, R a b → S a b) :
    d.Along S e where
  test := hWider _ _ hAlong.test
  parts := hAlong.parts.imp hWider
  sections := hAlong.sections.imp fun _ _ h =>
    ⟨h.1, hWider _ _ h.2⟩
  items := hAlong.items.imp fun _ _ h =>
    ⟨h.1, h.2.1, hWider _ _ h.2.2⟩

/- What related members have in common is the same. -/
theorem map_eq_of_forall₂
    {γ δ : Type}
    {S : γ → γ → Prop}
    {g : γ → δ}
    (hSame : ∀ a b, S a b → g b = g a)
    {xs ys : List γ}
    (hRelated : List.Forall₂ S xs ys) :
    ys.map g = xs.map g := by
  have hEqual : List.Forall₂ Eq (xs.map g) (ys.map g) :=
    List.rel_map (fun a b h => (hSame a b h).symm) hRelated
  rw [List.forall₂_eq_eq_eq] at hEqual
  exact hEqual.symm

/- What related members hand on, all have in the end. -/
theorem forall_mem_of_forall₂
    {γ : Type}
    {S : γ → γ → Prop}
    {P : γ → Prop}
    (hKeeps : ∀ a b, S a b → P a → P b)
    {xs ys : List γ}
    (hRelated : List.Forall₂ S xs ys)
    (hAll : ∀ a ∈ xs, P a) :
    ∀ b ∈ ys, P b := by
  induction hRelated with
  | nil => exact hAll
  | cons hHead _ ih =>
      rw [List.forall_mem_cons] at hAll ⊢
      exact ⟨hKeeps _ _ hHead hAll.1, ih hAll.2⟩

theorem Along.map_eq
    {d e : Dials α}
    (hAlong : d.Along R e)
    {f : α → β}
    (hSame : ∀ a b, R a b → f b = f a) :
    e.map f = d.map f := by
  unfold map
  rw [hSame _ _ hAlong.test,
    map_eq_of_forall₂ hSame hAlong.parts]
  congr 1
  · apply map_eq_of_forall₂ _ hAlong.sections
    rintro x y ⟨hName, hOwn⟩
    rw [hName, hSame _ _ hOwn]
  · apply map_eq_of_forall₂ _ hAlong.items
    rintro x y ⟨hPart, hSections, hOwn⟩
    rw [hPart, hSections, hSame _ _ hOwn]

theorem Along.all
    {d e : Dials α}
    (hAlong : d.Along R e)
    {P : α → Prop}
    (hKeeps : ∀ a b, R a b → P a → P b)
    (hAll : d.All P) :
    e.All P where
  test := hKeeps _ _ hAlong.test hAll.test
  parts := forall_mem_of_forall₂ hKeeps hAlong.parts hAll.parts
  sections :=
    forall_mem_of_forall₂ (fun x y h => hKeeps x.2 y.2 h.2)
      hAlong.sections hAll.sections
  items :=
    forall_mem_of_forall₂ (fun x y h => hKeeps x.own y.own h.2.2)
      hAlong.items hAll.items

end

end Dials

end Assessment
