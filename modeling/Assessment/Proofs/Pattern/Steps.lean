import Assessment.Proofs.Pattern.Brackets
import Assessment.Proofs.Pattern.Foresight
import Assessment.Proofs.Pattern.Matching

/-
  Reading a pattern step by step.

  A step takes a sign and what belongs to it. From its steps
  follow two facts about a whole run. Characters that are read
  up to a parenthesis are read in the same way without it, and
  a group around them changes nothing until it is closed.

  A text that is wrapped in a group is therefore read by
  itself as well, if the group is closed by its own
  parenthesis. If it is closed by a parenthesis of the text,
  the text is not read by itself, since the parenthesis has no
  group to close.

  Main declarations:
    * `stepBy` and `local_step`, what a step can do
    * `Leads`, the runs of a reading
    * `run_eq_some_iff`
    * `Leads.cut`, runs up to a parenthesis
    * `Leads.of_within`, runs within a further group
    * `ofChars?_eq_some_iff`
    * `ofChars?_of_anchored`
    * `parse?_of_anchored`
-/

------------------------------------------------------------
-- Steps
------------------------------------------------------------

namespace Assessment

namespace Pattern

open Reader

/- An open brace is in front, and nothing follows it. -/
def Hanging (s : Reading) (rest : List Char) : Prop :=
  ∃ cs, rest = '{' :: cs ∧ skip s.flags.verbose cs = []

variable (s : Reading)

/- Steps after an opening bracket. -/
def bracketStep : Reader Reading :=
  Reader.andThen (bracket? s.flags) fun set =>
    give (some (s.push (.one set)))

/- Steps after an opening brace. -/
def countStep : Reader Reading :=
  Reader.andThen (counts s.flags.verbose) fun (least, most) =>
    give (s.repeatLast? least most)

/- Steps after a backslash. -/
def escapeStep : Reader Reading :=
  Reader.andThen (escape? s.flags) fun atom =>
    give (s.pushAtom atom)

/- What a sign stands for, and what is dropped behind it. -/
def signStep (result : Option Reading) : Reader Reading :=
  fun cs => give result (dropLazy cs)

theorem step_bracket (cs : List Char) :
    s.step ('[' :: cs) = bracketStep s cs := by
  unfold bracketStep Reader.andThen
  change
    ((bracket? s.flags cs).bind fun p =>
      some (s.push (.one p.1), p.2)) = _
  cases bracket? s.flags cs <;> rfl

theorem step_brace (cs : List Char) :
    s.step ('{' :: cs) = countStep s cs := by
  unfold countStep counts Reader.andThen
  change
    ((counts? s.flags.verbose cs).bind fun p =>
      (s.repeatLast? p.1 p.2.1).bind fun s' =>
        some (s', p.2.2)) = _
  dsimp only
  rcases counts? s.flags.verbose cs with _ | ⟨least, most, rest⟩
  · rfl
  · rw [Option.bind_some, Option.map_some, Option.bind_some]
    cases s.repeatLast? least most <;> rfl

theorem step_backslash (cs : List Char) :
    s.step ('\\' :: cs) = escapeStep s cs := by
  unfold escapeStep Reader.andThen
  change
    ((escape? s.flags cs).bind fun p =>
      (s.pushAtom p.1).bind fun s' => some (s', p.2)) = _
  rcases escape? s.flags cs with _ | ⟨atom, rest⟩
  · rfl
  · rw [Option.bind_some, Option.bind_some]
    dsimp only
    cases s.pushAtom atom <;> rfl

theorem local_bracketStep : Local Never (bracketStep s) :=
  (local_bracket s.flags).andThen fun _ => .give _

theorem local_countStep : Local Never (countStep s) :=
  (local_counts s.flags.verbose).andThen fun _ => .give _

theorem local_signStep (result : Option Reading) :
    Local Never (signStep result) :=
  local_dropLazy.after (.give result)

theorem local_escapeStep : Local Hanging (escapeStep s) := by
  refine (local_escape s.flags).andThen_of (fun _ => .give _) ?_
  rintro atom rest s' rest' after ⟨⟨l, rfl⟩, cs, rfl, hSkip⟩ hPush
  obtain ⟨rfl, hRest⟩ := Prod.mk.inj (Option.some.inj hPush)
  exact ⟨cs, (List.append_cancel_right hRest).symm, hSkip⟩

/- A step by the character in front. -/
def stepBy (c : Char) : Reader Reading :=
  match c with
  | '(' => s.openGroup
  | ')' => give s.leave?
  | '|' => give (some s.alternate)
  | '[' => bracketStep s
  | '?' => signStep (s.repeatLast? 0 (some 1))
  | '*' => signStep (s.repeatLast? 0 none)
  | '+' => signStep (s.repeatLast? 1 none)
  | '{' => countStep s
  | '\\' => escapeStep s
  | '.' =>
      give
        (if s.flags.unicode then
          some (s.push (.one (Reading.dot s.flags)))
        else none)
  | '^' => give (some (s.push (.look (Reading.edge s.flags true))))
  | '$' => give (some (s.push (.look (Reading.edge s.flags false))))
  | c => give (s.pushAtom (.char c false))

theorem step_eq (c : Char) (cs : List Char) :
    s.step (c :: cs) = stepBy s c cs := by
  unfold Reading.step
  dsimp only
  split
  · rfl
  · rfl
  · rfl
  · exact step_bracket s cs
  · rfl
  · rfl
  · rfl
  · exact step_brace s cs
  · exact step_backslash s cs
  · rw [stepBy]
    split_ifs <;> rfl
  · rfl
  · rfl
  · rw [stepBy]
    · rfl
    all_goals assumption

theorem local_stepBy (c : Char) : Local Hanging (stepBy s c) := by
  unfold stepBy
  split
  · exact (local_openGroup s).weaken
  · exact .give _
  · exact .give _
  · exact (local_bracketStep s).weaken
  · exact (local_signStep _).weaken
  · exact (local_signStep _).weaken
  · exact (local_signStep _).weaken
  · exact (local_countStep s).weaken
  · exact local_escapeStep s
  · exact .give _
  · exact .give _
  · exact .give _
  · exact .give _

theorem local_step : Local Hanging s.step := by
  have hForm :
      s.step = onHead (fun _ => true) (stepBy s) (give none) := by
    funext cs
    cases cs with
    | nil => rfl
    | cons c cs => exact step_eq s c cs
  rw [hForm]
  exact Local.onHead (local_stepBy s) (.give _)

/- The character in front is always taken. -/
theorem step_suffix
    {s s' : Reading}
    {c : Char}
    {cs rest : List Char}
    (hStep : s.step (c :: cs) = some (s', rest)) :
    rest <:+ cs :=
  (local_stepBy s c).suffix ((step_eq s c cs).symm.trans hStep)

------------------------------------------------------------
-- Runs
------------------------------------------------------------

/-
  Reading leads from some characters to others, those that
  are still to be read.
-/
inductive Leads :
    Reading → List Char → Reading → List Char → Prop
  | stay {s : Reading} {cs rest : List Char} :
      skip s.flags.verbose cs = rest → Leads s cs s rest
  | step {s s' s'' : Reading} {cs more rest : List Char} :
      s.step (skip s.flags.verbose cs) = some (s', more) →
        Leads s' more s'' rest → Leads s cs s'' rest

variable {s}

theorem run_eq_some_iff
    {s' : Reading}
    {fuel : Nat}
    {cs : List Char}
    (hFuel : cs.length < fuel) :
    Reading.run fuel s cs = some s' ↔ Leads s cs s' [] := by
  constructor
  · intro hRun
    clear hFuel
    induction fuel generalizing s cs with
    | zero => cases hRun
    | succ fuel ih =>
        rw [Reading.run] at hRun
        split at hRun
        next hEnd =>
          cases hRun
          exact .stay hEnd
        next =>
          split at hRun
          next hStep => exact .step hStep (ih hRun)
          next => cases hRun
  · intro hLeads
    generalize hRest : ([] : List Char) = rest at hLeads
    induction hLeads generalizing fuel with
    | stay hEnd =>
        obtain ⟨fuel, rfl⟩ : ∃ k, fuel = k + 1 := ⟨fuel - 1, by omega⟩
        rw [Reading.run, hEnd, ← hRest]
    | @step s s' s'' cs more rest hStep hLeads ih =>
        obtain ⟨fuel, rfl⟩ : ∃ k, fuel = k + 1 := ⟨fuel - 1, by omega⟩
        have hSkip := (skip_suffix s.flags.verbose cs).length_le
        rw [Reading.run]
        split
        next hEnd =>
          rw [hEnd] at hStep
          cases hStep
        next hSome =>
          obtain ⟨c, w, hW⟩ := List.exists_cons_of_ne_nil hSome
          rw [hW] at hStep hSkip
          have hMore := (step_suffix hStep).length_le
          rw [List.length_cons] at hSkip
          rw [hW, hStep]
          exact ih (by omega) hRest

theorem Leads.suffix
    {s' : Reading}
    {cs rest : List Char}
    (hLeads : Leads s cs s' rest) :
    rest <:+ cs := by
  induction hLeads with
  | stay hEnd => exact hEnd ▸ skip_suffix _ _
  | step hStep hLeads ih =>
      exact (ih.trans ((local_step _).suffix hStep)).trans
        (skip_suffix _ _)

/- A reading that is stuck leads nowhere else. -/
theorem Leads.not_end
    {s' s'' : Reading}
    {cs rest : List Char}
    (hLeads : Leads s cs s' rest)
    (hStuck : s'.step rest = none)
    (hSome : rest ≠ [])
    (hEnd : Leads s cs s'' []) :
    False := by
  induction hLeads with
  | stay hRest =>
      cases hEnd with
      | stay hNone => exact hSome (hRest.symm.trans hNone)
      | step hStep _ =>
          rw [hRest, hStuck] at hStep
          cases hStep
  | step hStep _ ih =>
      cases hEnd with
      | stay hNone =>
          rw [hNone] at hStep
          cases hStep
      | step hStep' hEnd' =>
          rw [hStep] at hStep'
          cases hStep'
          exact ih hStuck hSome hEnd'

/-
  A brace that nothing follows is not read before a
  parenthesis either.
-/
theorem Hanging.not_leads
    {s' : Reading}
    {x y after : List Char}
    (hHanging : Hanging s x)
    (hNoBrace : ∀ cs, y ≠ '{' :: cs)
    (hLeads : Leads s (x ++ ')' :: after) s' (y ++ ')' :: after)) :
    False := by
  obtain ⟨w, rfl, hSkip⟩ := hHanging
  have hStay :
      skip s.flags.verbose ('{' :: w ++ ')' :: after) =
        '{' :: w ++ ')' :: after :=
    skip_of_sign (by decide) (by decide)
  cases hLeads with
  | stay hEnd =>
      rw [hStay] at hEnd
      exact hNoBrace w (List.append_cancel_right hEnd).symm
  | @step _ s₁ _ _ more _ hStep hLeads =>
      rw [hStay, List.cons_append, step_eq] at hStep
      obtain ⟨z, rfl, -⟩ :=
        exists_split ((local_countStep s).suffix hStep) hLeads.suffix
      have hShort := (local_countStep s).cut_never hStep
      have hNone : countStep s w = none := by
        unfold countStep Reader.andThen counts counts?
        rw [hSkip]
        rfl
      rw [hNone] at hShort
      cases hShort

/-
  Reading that leads to a parenthesis leads to the end of
  what is before it.
-/
theorem Leads.cut
    {s' : Reading}
    {x y after : List Char}
    (hLeads : Leads s (x ++ ')' :: after) s' (y ++ ')' :: after))
    (hNoBrace : ∀ cs, y ≠ '{' :: cs) :
    Leads s x s' y := by
  generalize hCs : x ++ ')' :: after = cs at hLeads
  generalize hRest : y ++ ')' :: after = rest at hLeads
  induction hLeads generalizing x with
  | @stay s cs rest hEnd =>
      subst hCs hRest
      exact .stay (skip_cut hEnd)
  | @step s s₁ s₂ cs more rest hStep hLeads ih =>
      subst hCs hRest
      have hEnd := hLeads.suffix
      have hMore := (local_step s).suffix hStep
      obtain ⟨z, hZ, -⟩ :=
        exists_split (skip_suffix s.flags.verbose _)
          (hEnd.trans hMore)
      rw [hZ] at hStep hMore
      obtain ⟨w, rfl, -⟩ := exists_split hMore hEnd
      rcases (local_step s).cut hStep with hShort | hHanging
      · rw [← skip_cut hZ] at hShort
        exact .step hShort (ih rfl rfl)
      · exact (hHanging.not_leads hNoBrace hLeads).elim

------------------------------------------------------------
-- Open Groups
------------------------------------------------------------

/- A reading within a further group. -/
def within (f : Frame) (s : Reading) : Reading :=
  { s with frames := s.frames ++ [f] }

/- The reading once the further group is closed. -/
def closeInto (f : Frame) (s : Reading) : Reading :=
  { flags := f.flags
    branches := f.branches
    parts := some s.body :: f.parts
    frames := []
    names := s.names }

variable (f : Frame)

theorem leave?_within (hOpen : s.frames ≠ []) :
    (within f s).leave? = s.leave?.map (within f) := by
  unfold Reading.leave? within
  cases hFrames : s.frames with
  | nil => exact absurd hFrames hOpen
  | cons g frames => rfl

theorem leave?_within_of_closed (hClosed : s.frames = []) :
    (within f s).leave? = some (closeInto f s) := by
  unfold Reading.leave? within
  rw [hClosed]
  rfl

theorem repeatLast?_within (least : Nat) (most : Option Nat) :
    (within f s).repeatLast? least most =
      (s.repeatLast? least most).map (within f) := by
  unfold Reading.repeatLast? within
  dsimp only
  split <;> rfl

theorem pushAtom_within (a : Atom) :
    (within f s).pushAtom a = (s.pushAtom a).map (within f) := by
  cases a with
  | char c isByte =>
      unfold Reading.pushAtom
      rw [apply_ite (Option.map (within f))]
      rfl
  | set set negated ofProperty =>
      unfold Reading.pushAtom
      rw [Option.map_map]
      rfl
  | look l => rfl

/- A reader of readings, within a further group. -/
def lift (g : Reader Reading) : Reader Reading :=
  fun cs => (g cs).map fun p => (within f p.1, p.2)

theorem lift_give (result : Option Reading) :
    lift f (give result) = give (result.map (within f)) := by
  funext cs
  cases result <;> rfl

theorem lift_onHead
    {kind : Char → Bool}
    {g : Char → Reader Reading}
    {h : Reader Reading} :
    lift f (onHead kind g h) =
      onHead kind (fun c => lift f (g c)) (lift f h) := by
  funext cs
  cases cs with
  | nil => rfl
  | cons c cs =>
      unfold lift
      rw [onHead_cons, onHead_cons]
      split_ifs <;> rfl

theorem lift_andThen
    {α : Type}
    {g : Reader α}
    {k : α → Reader Reading} :
    lift f (Reader.andThen g k) =
      Reader.andThen g fun a => lift f (k a) := by
  funext cs
  unfold lift Reader.andThen
  cases g cs <;> rfl

theorem lift_signStep (result : Option Reading) :
    lift f (signStep result) =
      signStep (result.map (within f)) := by
  funext cs
  cases result <;> rfl

theorem named_within :
    (within f s).named = lift f s.named := by
  rw [named_eq, named_eq, lift_andThen]
  congr 1
  funext name
  rw [lift_give, apply_ite (Option.map (within f))]
  rfl

theorem withFlags_within :
    withFlags (within f s) = lift f (withFlags s) := by
  unfold withFlags
  rw [lift_andThen]
  congr 1
  funext p
  rw [lift_give, apply_ite (Option.map (within f)),
    apply_ite (Option.map (within f))]
  rfl

theorem openGroup_within :
    (within f s).openGroup = lift f s.openGroup := by
  have hMarked : marked (within f s) = lift f (marked s) := by
    unfold marked
    simp only [lift_onHead, lift_give, Option.map_none,
      named_within, withFlags_within]
  have hGroup :
      lift f
          (onHead (· == '?') (fun _ => marked s)
            (give (some (s.enter s.flags)))) =
        onHead (· == '?') (fun _ => marked (within f s))
          (give (some ((within f s).enter s.flags))) := by
    rw [lift_onHead, lift_give, hMarked]
    rfl
  funext cs
  rw [lift, openGroup_eq, openGroup_eq]
  exact (congrFun hGroup _).symm

/- A step within a further group, unless it closes the group. -/
theorem stepBy_within
    {c : Char}
    (hOther : c = ')' → s.frames ≠ []) :
    stepBy (within f s) c = lift f (stepBy s c) := by
  unfold stepBy
  split
  · exact openGroup_within f
  · rw [lift_give, leave?_within f (hOther rfl)]
  · rw [lift_give]
    rfl
  · unfold bracketStep
    rw [lift_andThen]
    simp only [lift_give]
    rfl
  · rw [repeatLast?_within, lift_signStep]
  · rw [repeatLast?_within, lift_signStep]
  · rw [repeatLast?_within, lift_signStep]
  · unfold countStep
    rw [lift_andThen]
    simp only [lift_give, repeatLast?_within]
    rfl
  · unfold escapeStep
    rw [lift_andThen]
    simp only [lift_give, pushAtom_within]
    rfl
  · rw [lift_give, apply_ite (Option.map (within f))]
    rfl
  · rw [lift_give]
    rfl
  · rw [lift_give]
    rfl
  · rw [lift_give, pushAtom_within]

/-
  Reading within a further group leads to the same places,
  until a parenthesis closes the group.
-/
theorem Leads.of_within
    {s' : Reading}
    {cs rest : List Char}
    (hLeads : Leads (within f s) cs s' rest) :
    (∃ s₁, s' = within f s₁ ∧ Leads s cs s₁ rest) ∨
      ∃ s₁ after, s₁.frames = [] ∧ Leads s cs s₁ (')' :: after) ∧
        Leads (closeInto f s₁) after s' rest := by
  generalize hS : within f s = s₀ at hLeads
  induction hLeads generalizing s with
  | stay hEnd =>
      subst hS
      exact Or.inl ⟨s, rfl, .stay hEnd⟩
  | @step s₀ s₁ s₂ cs more rest hStep hLeads ih =>
      subst hS
      have hFlags : (within f s).flags = s.flags := rfl
      rw [hFlags] at hStep
      rcases hSkip : skip s.flags.verbose cs with _ | ⟨c, w⟩
      · rw [hSkip] at hStep
        cases hStep
      rw [hSkip, step_eq] at hStep
      by_cases hCloses : c = ')' ∧ s.frames = []
      · obtain ⟨rfl, hClosed⟩ := hCloses
        have hLeave :
            stepBy (within f s) ')' w =
              some (closeInto f s, w) := by
          rw [stepBy, leave?_within_of_closed f hClosed]
          rfl
        rw [hLeave] at hStep
        cases hStep
        exact Or.inr ⟨s, _, hClosed, .stay hSkip, hLeads⟩
      · have hOther : c = ')' → s.frames ≠ [] :=
          fun hParen hClosed => hCloses ⟨hParen, hClosed⟩
        rw [stepBy_within f hOther] at hStep
        obtain ⟨⟨s', more'⟩, hInner, hSame⟩ :=
          Option.map_eq_some_iff.mp hStep
        obtain ⟨hS', rfl⟩ := Prod.mk.inj hSame
        have hFirst :
            s.step (skip s.flags.verbose cs) = some (s', more') := by
          rw [hSkip, step_eq, hInner]
        rcases ih hS' with ⟨s₃, hS₃, hRest⟩ |
            ⟨s₃, after, hClosed, hRest, hAfter⟩
        · exact Or.inl ⟨s₃, hS₃, .step hFirst hRest⟩
        · exact Or.inr
            ⟨s₃, after, hClosed, .step hFirst hRest, hAfter⟩

end Pattern

------------------------------------------------------------
-- The Group Around a Text
------------------------------------------------------------

namespace Pattern

/- The characters of a pattern lead to the end, in no group. -/
theorem ofChars?_eq_some_iff
    {cs : List Char}
    {p : Pattern} :
    ofChars? cs = some p ↔
      ∃ s, Leads .new cs s [] ∧ s.frames = [] ∧ s.body = p := by
  unfold ofChars?
  rw [Option.bind_eq_some_iff]
  simp only [run_eq_some_iff (Nat.lt_succ_self _)]
  have hFinish (s : Reading) :
      s.finish? = some p ↔ s.frames = [] ∧ s.body = p := by
    unfold Reading.finish?
    split
    next hNone => simp [hNone]
    next hSome => simp [hSome]
  simp only [hFinish]

/- What is before the group that encloses a text. -/
def outer : Frame := ⟨{}, [], [some (.look .textStart)]⟩

theorem toList_anchored (text : String) :
    (anchored text).toList =
      '^' :: '(' :: '?' :: ':' :: (text.toList ++ [')', '$']) := by
  simp [anchored]

/- The first signs open the group. -/
theorem leads_of_anchored
    {s : Reading}
    {cs : List Char}
    (hLeads :
      Leads .new ('^' :: '(' :: '?' :: ':' :: cs) s []) :
    Leads (within outer .new) cs s [] := by
  have hStart :
      Reading.new.step ('^' :: '(' :: '?' :: ':' :: cs) =
        some (Reading.new.push (.look .textStart),
          '(' :: '?' :: ':' :: cs) :=
    rfl
  have hOpen :
      (Reading.new.push (.look .textStart)).step
          ('(' :: '?' :: ':' :: cs) =
        some (within outer .new, cs) :=
    rfl
  cases hLeads with
  | stay hEnd => cases hEnd
  | step hStep hLeads =>
      cases hStart.symm.trans hStep
      cases hLeads with
      | stay hEnd => cases hEnd
      | step hStep hLeads =>
          cases hOpen.symm.trans hStep
          exact hLeads

/- The last sign follows the group. -/
theorem body_of_leads
    {s s' : Reading}
    (hLeads : Leads (closeInto outer s) ['$'] s' []) :
    s'.body = s.body.enclosed := by
  have hLast :
      (closeInto outer s).step ['$'] =
        some ((closeInto outer s).push (.look .textEnd), []) :=
    rfl
  cases hLeads with
  | stay hEnd => cases hEnd
  | step hStep hLeads =>
      cases hLast.symm.trans hStep
      cases hLeads with
      | stay hEnd => rfl
      | step hStep _ => cases hStep

/-
  The parenthesis that closes the group is the last one, or
  it belongs to the text.
-/
theorem closing_cases
    {text after : List Char}
    (hRest : ')' :: after <:+ text ++ [')', '$']) :
    after = ['$'] ∨
      ∃ a b, text = a ++ ')' :: b ∧ after = b ++ [')', '$'] := by
  obtain ⟨w, hW⟩ := hRest
  rcases List.append_eq_append_iff.mp hW with
    ⟨u, hText, hAfter⟩ | ⟨u, hText, hAfter⟩
  · cases u with
    | nil => exact Or.inl (List.cons.inj hAfter).2
    | cons c u =>
        obtain ⟨rfl, rfl⟩ := List.cons.inj hAfter
        exact Or.inr ⟨w, u, hText, rfl⟩
  · rcases u with _ | ⟨c, _ | ⟨c', _ | ⟨c'', u⟩⟩⟩ <;> simp_all

/-
  A text that can be read once it is anchored can be read by
  itself, or a parenthesis in it closes the group around it
  behind characters that can be read by themselves.
-/
theorem ofChars?_of_anchored
    {text : String}
    {q : Pattern}
    (hRead : ofChars? (anchored text).toList = some q) :
    (∃ p, ofChars? text.toList = some p ∧ q = p.enclosed) ∨
      ofChars? text.toList = none ∧
        ∃ a b, text.toList = a ++ ')' :: b ∧
          (ofChars? a).isSome := by
  rw [toList_anchored] at hRead
  obtain ⟨s, hLeads, hNone, rfl⟩ := ofChars?_eq_some_iff.mp hRead
  rcases (leads_of_anchored hLeads).of_within with
    ⟨s₁, rfl, -⟩ | ⟨s₁, after, hClosed, hInner, hAfter⟩
  · simp [within] at hNone
  rcases closing_cases hInner.suffix with
    rfl | ⟨a, b, hText, rfl⟩
  · left
    have hWhole : Leads .new text.toList s₁ [] :=
      hInner.cut (y := []) (by simp)
    exact ⟨s₁.body,
      ofChars?_eq_some_iff.mpr ⟨s₁, hWhole, hClosed, rfl⟩,
      body_of_leads hAfter⟩
  · right
    rw [hText] at hInner ⊢
    refine ⟨?_, a, b, rfl, ?_⟩
    · have hStuck : Leads .new (a ++ ')' :: b) s₁ (')' :: b) :=
        hInner.cut (y := ')' :: b) (by simp)
      rw [Option.eq_none_iff_forall_ne_some]
      intro p hP
      obtain ⟨s₂, hEnd, -⟩ := ofChars?_eq_some_iff.mp hP
      refine hStuck.not_end ?_ (by simp) hEnd
      rw [step_eq, stepBy, Reading.leave?, hClosed]
      rfl
    · have hFront : Leads .new a s₁ [] := by
        rw [List.append_assoc] at hInner
        exact hInner.cut (y := []) (by simp)
      rw [ofChars?_eq_some_iff.mpr ⟨s₁, hFront, hClosed, rfl⟩]
      rfl

theorem cost_enclosed (p : Pattern) : p.cost ≤ p.enclosed.cost := by
  simp only [enclosed, cost]
  omega

/- The same for patterns that do not cost too much. -/
theorem parse?_of_anchored
    {text : String}
    {q : Pattern}
    (hRead : parse? (anchored text) = some q) :
    (∃ p, parse? text = some p ∧ q = p.enclosed) ∨
      parse? text = none ∧
        ∃ a b, text = a ++ ")" ++ b ∧ (ofChars? a.toList).isSome := by
  obtain ⟨hChars, hCost⟩ := Option.filter_eq_some_iff.mp hRead
  rcases ofChars?_of_anchored hChars with
    ⟨p, hP, rfl⟩ | ⟨hNone, a, b, hText, hA⟩
  · left
    rw [decide_eq_true_eq] at hCost
    refine ⟨p, ?_, rfl⟩
    rw [parse?, hP, Option.filter_some, if_pos]
    simpa using (cost_enclosed p).trans hCost
  · right
    refine ⟨?_, String.ofList a, String.ofList b, ?_, ?_⟩
    · rw [parse?, hNone]
      rfl
    · apply String.toList_inj.mp
      rw [hText]
      simp
    · rwa [String.toList_ofList]

end Pattern

end Assessment
