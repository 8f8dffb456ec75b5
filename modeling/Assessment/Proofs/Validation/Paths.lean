import Assessment.Proofs.Text
import Assessment.Proofs.Validation.Tours
import Mathlib.Data.List.Forall2
import Mathlib.Data.List.Nodup

/-
  Paths of rules and expressions.

  The path of a node is made of names. Names may begin with
  other names, and numbers with other numbers, so it takes an
  argument that the texts of paths do not mix nodes up.

  The steps to two children of a node come apart at a step
  where the names differ, or the numbers of the same name. The
  texts differ there too, since a name has no separators and
  its end can be seen. Further down the paths stay apart. So a
  path leads below another one only if its node is below the
  other node.

  Main declarations:
    * `Path.Apart`, steps that come apart
    * `Path.Apart.not_isUnder`, and so do the texts
    * `ProcessingNode.below_apart`
    * `ProcessingNode.isUnder_iff`
    * `Definition.paths_identify`
-/

------------------------------------------------------------
-- Steps That Come Apart
------------------------------------------------------------

namespace Assessment

namespace PathStep

/- A name without characters that begin a step or an index. -/
def isPlain (s : PathStep) : Bool :=
  s.field.toList.all fun c => !(c == '/' || c == '[')

/- Other names, or other numbers of the same name. -/
def Differs (s t : PathStep) : Prop :=
  s.field ≠ t.field ∨
    ∃ i j, s.index = some i ∧ t.index = some j ∧ i ≠ j

theorem Differs.symm
    {s t : PathStep}
    (hDiffers : s.Differs t) :
    t.Differs s := by
  rcases hDiffers with hField | ⟨i, j, hI, hJ, hOther⟩
  · exact Or.inl hField.symm
  · exact Or.inr ⟨j, i, hJ, hI, hOther.symm⟩

/- The characters of an index. -/
def indexChars : Option Nat → List Char
  | none => []
  | some i => '[' :: (Nat.toDigits 10 i ++ [']'])

theorem toList_text (s : PathStep) :
    s.text.toList =
      '/' :: (s.field.toList ++ indexChars s.index) := by
  unfold text
  cases s.index with
  | none => simp [indexChars]
  | some i => simp [indexChars, Nat.toString_eq_repr,
      Nat.toList_repr]

end PathStep

namespace Path

/- Steps that go the same way first, and then differ. -/
inductive Apart : List PathStep → List PathStep → Prop
  | here
      {s t : PathStep}
      (hDiffers : s.Differs t)
      (xs ys : List PathStep) :
      Apart (s :: xs) (t :: ys)
  | later
      (s : PathStep)
      {xs ys : List PathStep}
      (hApart : Apart xs ys) :
      Apart (s :: xs) (s :: ys)

namespace Apart

variable {xs ys : List PathStep}

theorem symm (hApart : Apart xs ys) : Apart ys xs := by
  induction hApart with
  | here hDiffers xs ys => exact .here hDiffers.symm ys xs
  | later s _ ih => exact .later s ih

/- Further steps do not bring them together. -/
theorem append
    (hApart : Apart xs ys)
    (more others : List PathStep) :
    Apart (xs ++ more) (ys ++ others) := by
  induction hApart with
  | here hDiffers xs ys => exact .here hDiffers _ _
  | later s _ ih => exact .later s ih

theorem within
    (hApart : Apart xs ys)
    (steps : List PathStep) :
    Apart (steps ++ xs) (steps ++ ys) := by
  induction steps with
  | nil => exact hApart
  | cons s rest ih => exact .later s ih

/- Different fields come apart at once. -/
theorem of_fields
    {field other : String}
    (hOther : field ≠ other)
    (i j : Option Nat) :
    Apart (⟨field, i⟩ :: xs) (⟨other, j⟩ :: ys) :=
  .here (Or.inl hOther) xs ys

/- So do different elements of a field. -/
theorem of_indices
    {i j : Nat}
    (hOther : i ≠ j)
    (field : String) :
    Apart (⟨field, some i⟩ :: xs) (⟨field, some j⟩ :: ys) :=
  .here (Or.inr ⟨i, j, rfl, rfl, hOther⟩) xs ys

end Apart

------------------------------------------------------------
-- Texts That Come Apart
------------------------------------------------------------

/-
  Characters up to the first that satisfies a condition can be
  told from those behind them.
-/
theorem fronts_eq
    {p : Char → Bool}
    {a b c d : List Char}
    (hA : ∀ x ∈ a, p x = false)
    (hB : ∀ x ∈ b, p x = false)
    (hC : ∀ x ∈ c.head?, p x = true)
    (hD : ∀ x ∈ d.head?, p x = true)
    (hSame : a ++ c = b ++ d) :
    a = b ∧ c = d := by
  induction a generalizing b with
  | nil =>
      cases b with
      | nil => exact ⟨rfl, hSame⟩
      | cons y rest =>
          have hStop := hC y (by simp_all)
          simp [hB y List.mem_cons_self] at hStop
  | cons x front ih =>
      cases b with
      | nil =>
          have hHead : d = x :: (front ++ c) := hSame.symm
          have hStop := hD x (by rw [hHead]; rfl)
          simp [hA x List.mem_cons_self] at hStop
      | cons y rest =>
          rw [List.forall_mem_cons] at hA hB
          rw [List.cons_append, List.cons_append,
            List.cons.injEq] at hSame
          obtain ⟨hFront, hBehind⟩ := ih hA.2 hB.2 hSame.2
          exact ⟨by rw [hSame.1, hFront], hBehind⟩

theorem endsStep_iff {cs : List Char} :
    endsStep cs = true ↔
      ∀ x ∈ cs.head?, (x == '/' || x == '[') = true := by
  cases cs <;> simp [endsStep]

theorem endsStep_append
    {cs ds : List Char}
    (hFirst : endsStep cs = true)
    (hRest : endsStep ds = true) :
    endsStep (cs ++ ds) = true := by
  cases cs with
  | nil => exact hRest
  | cons c rest => exact hFirst

theorem endsStep_indexChars (i : Option Nat) :
    endsStep (PathStep.indexChars i) = true := by
  cases i <;> rfl

theorem endsStep_stepsText (xs : List PathStep) :
    endsStep (stepsText xs).toList = true := by
  cases xs with
  | nil => rfl
  | cons s rest =>
      rw [stepsText, String.toList_append, s.toList_text]
      rfl

/- Different numbers are different in brackets. -/
theorem index_eq
    {i j : Nat}
    {cs ds : List Char}
    (hSame :
      PathStep.indexChars (some i) ++ cs =
        PathStep.indexChars (some j) ++ ds) :
    i = j := by
  simp only [PathStep.indexChars, List.cons_append,
    List.append_assoc, List.cons.injEq, true_and,
    List.nil_append] at hSame
  have hDigit (n : Nat) :
      ∀ c ∈ Nat.toDigits 10 n, (!c.isDigit) = false := by
    intro c hMem
    rw [Nat.isDigit_of_mem_toDigits (by decide) (by decide) hMem]
    rfl
  have hBracket (es : List Char) :
      ∀ c ∈ (']' :: es).head?, (!c.isDigit) = true := by
    intro c hMem
    cases hMem
    rfl
  have hDigits :=
    (fronts_eq (hDigit i) (hDigit j) (hBracket cs) (hBracket ds)
      hSame).1
  have hValues := congrArg Numeral.value hDigits
  rwa [Numeral.value_toDigits, Numeral.value_toDigits] at hValues

/- The text of steps that come apart does not lead on. -/
theorem Apart.text_ne
    {xs ys : List PathStep}
    (hApart : Apart xs ys)
    (hXs : ∀ s ∈ xs, s.isPlain = true)
    (hYs : ∀ s ∈ ys, s.isPlain = true)
    {behind : List Char}
    (hEnds : endsStep behind = true) :
    (stepsText ys).toList ≠ (stepsText xs).toList ++ behind := by
  induction hApart with
  | @here s t hDiffers xs ys =>
      intro hSame
      rw [stepsText, stepsText, String.toList_append,
        String.toList_append, s.toList_text, t.toList_text] at hSame
      simp only [List.cons_append, List.append_assoc,
        List.cons.injEq, true_and] at hSame
      have hPlain {x : PathStep} (hX : x.isPlain = true) :
          ∀ c ∈ x.field.toList, (c == '/' || c == '[') = false := by
        intro c hMem
        simpa using List.all_eq_true.mp hX c hMem
      have hTail (x : PathStep) (zs : List PathStep) (ws : List Char)
          (hWs : endsStep ws = true) :
          ∀ c ∈ (PathStep.indexChars x.index ++
              ((stepsText zs).toList ++ ws)).head?,
            (c == '/' || c == '[') = true :=
        endsStep_iff.mp
          (endsStep_append (endsStep_indexChars x.index)
            (endsStep_append (endsStep_stepsText zs) hWs))
      have hLast := hTail t ys [] rfl
      rw [List.append_nil] at hLast
      obtain ⟨hField, hIndex⟩ := fronts_eq
        (hPlain (hYs t List.mem_cons_self))
        (hPlain (hXs s List.mem_cons_self)) hLast
        (hTail s xs behind hEnds) hSame
      rcases hDiffers with hOther | ⟨i, j, hI, hJ, hOther⟩
      · exact hOther (String.toList_inj.mp hField).symm
      · rw [hI, hJ] at hIndex
        exact hOther (index_eq hIndex).symm
  | later s _ ih =>
      intro hSame
      rw [stepsText, stepsText, String.toList_append,
        String.toList_append, List.append_assoc,
        List.append_cancel_left_eq] at hSame
      exact ih (fun x hMem => hXs x (List.mem_cons_of_mem s hMem))
        (fun x hMem => hYs x (List.mem_cons_of_mem s hMem)) hSame

theorem isUnder_iff_exists {place path : String} :
    isUnder place path = true ↔
      ∃ behind, path.toList = place.toList ++ behind ∧
        endsStep behind = true := by
  unfold isUnder
  rw [Bool.and_eq_true, List.isPrefixOf_iff_prefix]
  constructor
  · rintro ⟨⟨behind, hSame⟩, hEnds⟩
    refine ⟨behind, hSame.symm, ?_⟩
    rwa [← hSame, List.drop_left] at hEnds
  · rintro ⟨behind, hSame, hEnds⟩
    refine ⟨⟨behind, hSame.symm⟩, ?_⟩
    rwa [hSame, List.drop_left]

/- A text leads to itself. -/
theorem isUnder_self (place : String) : isUnder place place = true :=
  isUnder_iff_exists.mpr ⟨[], (List.append_nil _).symm, rfl⟩

theorem stepsText_append (xs ys : List PathStep) :
    stepsText (xs ++ ys) = stepsText xs ++ stepsText ys := by
  induction xs with
  | nil => simp [stepsText]
  | cons s rest ih =>
      rw [List.cons_append, stepsText, stepsText, ih,
        String.append_assoc]

theorem text_extend (p : Path) (steps : List PathStep) :
    (p.extend steps).text = p.text ++ stepsText steps := by
  simp [text, extend, stepsText_append, String.append_assoc]

/- Further steps lead below a path. -/
theorem isUnder_extend (p : Path) (steps : List PathStep) :
    isUnder p.text (p.extend steps).text = true := by
  rw [isUnder_iff_exists, text_extend, String.toList_append]
  exact ⟨_, rfl, endsStep_stepsText steps⟩

/- They do not lead back. -/
theorem not_isUnder_extend
    (p : Path)
    {steps : List PathStep}
    (hSome : steps ≠ []) :
    ¬ isUnder (p.extend steps).text p.text = true := by
  rw [isUnder_iff_exists, text_extend, String.toList_append]
  rintro ⟨behind, hSame, -⟩
  have hNone : (stepsText steps).toList = [] := by
    have hLength := congrArg List.length hSame
    simp only [List.length_append] at hLength
    exact List.eq_nil_of_length_eq_zero (by omega)
  cases steps with
  | nil => exact hSome rfl
  | cons s rest =>
      rw [stepsText, String.toList_append, s.toList_text] at hNone
      cases hNone

/- Paths that come apart do not lead below each other. -/
theorem Apart.not_isUnder
    {xs ys : List PathStep}
    (hApart : Apart xs ys)
    (hXs : ∀ s ∈ xs, s.isPlain = true)
    (hYs : ∀ s ∈ ys, s.isPlain = true)
    (p : Path) :
    ¬ isUnder (p.extend xs).text (p.extend ys).text = true := by
  rw [isUnder_iff_exists, text_extend, text_extend,
    String.toList_append, String.toList_append]
  rintro ⟨behind, hSame, hEnds⟩
  rw [List.append_assoc, List.append_cancel_left_eq] at hSame
  exact hApart.text_ne hXs hYs hEnds hSame

end Path

------------------------------------------------------------
-- Names
------------------------------------------------------------

theorem SubsetKind.isPlain_name (k : SubsetKind) (i : Option Nat) :
    (PathStep.mk k.name i).isPlain = true := by
  cases k <;> simp [PathStep.isPlain, name]

theorem PlainOperator.isPlain_name
    (op : PlainOperator)
    (i : Option Nat) :
    (PathStep.mk op.name i).isPlain = true := by
  cases op <;> simp [PathStep.isPlain, name]

theorem Expression.isPlain_name (e : Expression) (i : Option Nat) :
    (PathStep.mk e.name i).isPlain = true := by
  cases e with
  | leaf l =>
      cases l with
      | items s => exact s.kind.isPlain_name i
      | _ => simp [PathStep.isPlain, name, Leaf.name]
  | node op args =>
      cases op with
      | plain op => exact op.isPlain_name i
      | _ => simp [PathStep.isPlain, name, Operator.name]

theorem ProcessingKind.isPlain_branches
    (kind : ProcessingKind)
    (i : Option Nat) :
    (PathStep.mk kind.ifBranch i).isPlain = true ∧
      (PathStep.mk kind.elseIfBranch i).isPlain = true ∧
      (PathStep.mk kind.elseBranch i).isPlain = true := by
  cases kind <;>
    simp [PathStep.isPlain, ifBranch, elseIfBranch, elseBranch, name]

/- The branches of a condition have different names. -/
theorem ProcessingKind.branches_ne (kind : ProcessingKind) :
    kind.ifBranch ≠ kind.elseIfBranch ∧
      kind.ifBranch ≠ kind.elseBranch ∧
      kind.elseIfBranch ≠ kind.elseBranch := by
  cases kind <;> decide

------------------------------------------------------------
-- Steps to Children
------------------------------------------------------------

open Assessment.Path (Apart)

/- Elements of a list have different steps. -/
theorem apart_zipIdx
    {α β : Type}
    (xs : List α)
    (index : Nat)
    {f : α × Nat → List PathStep × β}
    (hApart :
      ∀ a b i j, i ≠ j → Apart (f (a, i)).1 (f (b, j)).1) :
    ((xs.zipIdx index).map f).Pairwise fun x y => Apart x.1 y.1 := by
  induction xs generalizing index with
  | nil => exact .nil
  | cons a rest ih =>
      rw [List.zipIdx_cons, List.map_cons, List.pairwise_cons]
      refine ⟨fun y hMem => ?_, ih (index + 1)⟩
      obtain ⟨⟨b, j⟩, hB, rfl⟩ := List.mem_map.mp hMem
      have hLater := (List.mem_zipIdx hB).1
      exact hApart a b index j (by omega)

namespace Rule

theorem steps_listed
    {field : String}
    {rules : List Rule}
    {x : List PathStep × Rule}
    (hMem : x ∈ listed field rules) :
    ∃ i, x.1 = [⟨field, some i⟩] := by
  obtain ⟨⟨r, i⟩, _, rfl⟩ := List.mem_map.mp hMem
  exact ⟨i, rfl⟩

theorem listed_apart (field : String) (rules : List Rule) :
    (listed field rules).Pairwise fun x y => Apart x.1 y.1 :=
  apart_zipIdx rules 0 fun _ _ _ _ hOther =>
    .of_indices hOther field

/- The same step may lead to all rules of a list. -/
theorem listed_apart_within
    (s : PathStep)
    (field : String)
    (rules : List Rule) :
    ((listed field rules).map fun (l, r) =>
        (s :: l, r)).Pairwise
      fun x y => Apart x.1 y.1 := by
  rw [List.pairwise_map]
  exact (listed_apart field rules).imp fun hApart => .later s hApart

end Rule

/- The steps to the branches of a condition. -/
inductive ProcessingKind.Branch (kind : ProcessingKind) :
    PathStep → Prop
  | first : Branch kind ⟨kind.ifBranch, none⟩
  | further (i : Nat) : Branch kind ⟨kind.elseIfBranch, some i⟩
  | last : Branch kind ⟨kind.elseBranch, none⟩

namespace ProcessingKind.Branch

variable {kind : ProcessingKind} {s t : PathStep}

theorem isPlain (hBranch : kind.Branch s) : s.isPlain = true := by
  cases hBranch with
  | first => exact (kind.isPlain_branches none).1
  | further i => exact (kind.isPlain_branches (some i)).2.1
  | last => exact (kind.isPlain_branches none).2.2

theorem eq_or_differs
    (hS : kind.Branch s)
    (hT : kind.Branch t) :
    s = t ∨ s.Differs t := by
  obtain ⟨hFurther, hLast, hOther⟩ := kind.branches_ne
  cases hS <;> cases hT
  case first.first => exact Or.inl rfl
  case first.further => exact Or.inr (Or.inl hFurther)
  case first.last => exact Or.inr (Or.inl hLast)
  case further.first => exact Or.inr (Or.inl hFurther.symm)
  case further.further i j =>
    by_cases hSame : i = j
    · exact Or.inl (by rw [hSame])
    · exact Or.inr (Or.inr ⟨i, j, rfl, rfl, hSame⟩)
  case further.last => exact Or.inr (Or.inl hOther)
  case last.first => exact Or.inr (Or.inl hLast.symm)
  case last.further => exact Or.inr (Or.inl hOther.symm)
  case last.last => exact Or.inl rfl

end ProcessingKind.Branch

namespace Chain

variable {kind : ProcessingKind}

theorem steps_held {x : List PathStep × Expression} :
    ∀ {c : Chain} {index : Nat}, x ∈ c.held kind index →
      ∃ i, index ≤ i ∧
        x.1 = [⟨kind.elseIfBranch, some i⟩, ⟨"condition", none⟩]
  | .branch test rules rest, index, hMem => by
      rcases List.mem_cons.mp hMem with rfl | hLater
      · exact ⟨index, Nat.le_refl index, rfl⟩
      · obtain ⟨i, hI, hSteps⟩ := steps_held hLater
        exact ⟨i, by omega, hSteps⟩
  | .otherwise _, _, hMem => absurd hMem List.not_mem_nil
  | .nothing, _, hMem => absurd hMem List.not_mem_nil

theorem held_apart :
    ∀ (c : Chain) (index : Nat),
      (c.held kind index).Pairwise fun x y => Apart x.1 y.1
  | .branch test rules rest, index => by
      rw [held, List.pairwise_cons]
      refine ⟨fun y hMem => ?_, held_apart rest (index + 1)⟩
      obtain ⟨i, hI, hSteps⟩ := steps_held hMem
      rw [hSteps]
      exact .of_indices (by omega) _
  | .otherwise _, _ => .nil
  | .nothing, _ => .nil

theorem steps_inner {x : List PathStep × Rule} :
    ∀ {c : Chain} {index : Nat}, x ∈ c.inner kind index →
      ∃ s i, x.1 = [s, ⟨"rules", some i⟩] ∧
        ((∃ k, index ≤ k ∧ s = ⟨kind.elseIfBranch, some k⟩) ∨
          s = ⟨kind.elseBranch, none⟩)
  | .branch test rules rest, index, hMem => by
      rcases List.mem_append.mp hMem with hFirst | hLater
      · obtain ⟨⟨l, r⟩, hY, rfl⟩ := List.mem_map.mp hFirst
        obtain ⟨i, hI⟩ := Rule.steps_listed hY
        exact ⟨_, i, congrArg (List.cons _) hI,
          Or.inl ⟨index, Nat.le_refl index, rfl⟩⟩
      · obtain ⟨s, i, hSteps, ⟨k, hK, hS⟩ | hS⟩ :=
          steps_inner hLater
        · exact ⟨s, i, hSteps, Or.inl ⟨k, by omega, hS⟩⟩
        · exact ⟨s, i, hSteps, Or.inr hS⟩
  | .otherwise rules, index, hMem => by
      obtain ⟨⟨l, r⟩, hY, rfl⟩ := List.mem_map.mp hMem
      obtain ⟨i, hI⟩ := Rule.steps_listed hY
      exact ⟨_, i, congrArg (List.cons _) hI, Or.inr rfl⟩
  | .nothing, _, hMem => absurd hMem List.not_mem_nil

theorem inner_apart :
    ∀ (c : Chain) (index : Nat),
      (c.inner kind index).Pairwise fun x y => Apart x.1 y.1
  | .branch test rules rest, index => by
      rw [inner, List.pairwise_append]
      refine ⟨Rule.listed_apart_within _ _ rules,
        inner_apart rest (index + 1), fun x hX y hY => ?_⟩
      obtain ⟨z, hZ, rfl⟩ := List.mem_map.mp hX
      obtain ⟨s, i, hSteps, ⟨k, hK, rfl⟩ | rfl⟩ := steps_inner hY
      · rw [hSteps]
        exact .of_indices (by omega) _
      · rw [hSteps]
        exact .of_fields kind.branches_ne.2.2 _ _
  | .otherwise rules, _ => Rule.listed_apart_within _ _ rules
  | .nothing, _ => .nil

end Chain

namespace Rule

/- What leads from a rule to an expression that it holds. -/
theorem steps_held
    {r : Rule}
    {x : List PathStep × Expression}
    (hMem : x ∈ r.held) :
    (x.1 = [⟨"expression", none⟩] ∧ r.inner = []) ∨
      ∃ kind test rules rest s,
        r = .condition kind test rules rest ∧ kind.Branch s ∧
          x.1 = [s, ⟨"condition", none⟩] := by
  cases r with
  | condition kind test rules rest =>
      refine Or.inr ⟨kind, test, rules, rest, ?_⟩
      rcases List.mem_cons.mp hMem with rfl | hLater
      · exact ⟨_, rfl, .first, rfl⟩
      · obtain ⟨i, -, hSteps⟩ := Chain.steps_held hLater
        exact ⟨_, rfl, .further i, hSteps⟩
  | setValue target identifier e =>
      rcases List.mem_singleton.mp hMem with rfl
      exact Or.inl ⟨rfl, rfl⟩
  | lookup identifier e =>
      rcases List.mem_singleton.mp hMem with rfl
      exact Or.inl ⟨rfl, rfl⟩
  | constraint e =>
      rcases List.mem_singleton.mp hMem with rfl
      exact Or.inl ⟨rfl, rfl⟩
  | exit kind => exact absurd hMem List.not_mem_nil
  | fragment kind rules => exact absurd hMem List.not_mem_nil

/- What leads from a rule to a rule right below it. -/
theorem steps_inner
    {r : Rule}
    {x : List PathStep × Rule}
    (hMem : x ∈ r.inner) :
    (∃ i, x.1 = [⟨"rules", some i⟩] ∧ r.held = []) ∨
      ∃ kind test rules rest s i,
        r = .condition kind test rules rest ∧ kind.Branch s ∧
          x.1 = [s, ⟨"rules", some i⟩] := by
  cases r with
  | condition kind test rules rest =>
      refine Or.inr ⟨kind, test, rules, rest, ?_⟩
      rcases List.mem_append.mp hMem with hFirst | hLater
      · obtain ⟨⟨l, r⟩, hY, rfl⟩ := List.mem_map.mp hFirst
        obtain ⟨i, hI⟩ := steps_listed hY
        exact ⟨_, i, rfl, .first, congrArg (List.cons _) hI⟩
      · obtain ⟨s, i, hSteps, ⟨k, -, rfl⟩ | rfl⟩ :=
          Chain.steps_inner hLater
        · exact ⟨_, i, rfl, .further k, hSteps⟩
        · exact ⟨_, i, rfl, .last, hSteps⟩
  | fragment kind rules =>
      obtain ⟨i, hI⟩ := steps_listed hMem
      exact Or.inl ⟨i, hI, rfl⟩
  | setValue target identifier e =>
      exact absurd hMem List.not_mem_nil
  | lookup identifier e => exact absurd hMem List.not_mem_nil
  | constraint e => exact absurd hMem List.not_mem_nil
  | exit kind => exact absurd hMem List.not_mem_nil

theorem held_apart (r : Rule) :
    r.held.Pairwise fun x y => Apart x.1 y.1 := by
  cases r with
  | condition kind test rules rest =>
      rw [held, List.pairwise_cons]
      refine ⟨fun y hMem => ?_, rest.held_apart 0⟩
      obtain ⟨i, -, hSteps⟩ := Chain.steps_held hMem
      rw [hSteps]
      exact .of_fields kind.branches_ne.1 _ _
  | setValue target identifier e => exact List.pairwise_singleton _ _
  | lookup identifier e => exact List.pairwise_singleton _ _
  | constraint e => exact List.pairwise_singleton _ _
  | exit kind => exact .nil
  | fragment kind rules => exact .nil

theorem inner_apart (r : Rule) :
    r.inner.Pairwise fun x y => Apart x.1 y.1 := by
  cases r with
  | condition kind test rules rest =>
      rw [inner, List.pairwise_append]
      refine ⟨listed_apart_within _ _ rules, rest.inner_apart 0,
        fun x hX y hY => ?_⟩
      obtain ⟨z, hZ, rfl⟩ := List.mem_map.mp hX
      obtain ⟨s, i, hSteps, ⟨k, -, rfl⟩ | rfl⟩ :=
        Chain.steps_inner hY
      · rw [hSteps]
        exact .of_fields kind.branches_ne.1 _ _
      · rw [hSteps]
        exact .of_fields kind.branches_ne.2.1 _ _
  | fragment kind rules => exact listed_apart _ rules
  | setValue target identifier e => exact .nil
  | lookup identifier e => exact .nil
  | constraint e => exact .nil
  | exit kind => exact .nil

/- No expression of a rule has steps like a rule below it. -/
theorem held_apart_inner
    {r : Rule}
    {x : List PathStep × Expression}
    {y : List PathStep × Rule}
    (hX : x ∈ r.held)
    (hY : y ∈ r.inner) :
    Apart x.1 y.1 := by
  have hNames : "condition" ≠ "rules" := by decide
  rcases steps_held hX with
    ⟨_, hNone⟩ | ⟨kind, test, rules, rest, s, hR, hS, hSteps⟩
  · rw [hNone] at hY
    exact absurd hY List.not_mem_nil
  rcases steps_inner hY with
    ⟨_, _, hNone⟩ | ⟨kind', _, _, _, t, i, hR', hT, hSteps'⟩
  · rw [hNone] at hX
    exact absurd hX List.not_mem_nil
  rw [hR] at hR'
  cases hR'
  rw [hSteps, hSteps']
  rcases hS.eq_or_differs hT with rfl | hDiffers
  · exact .later s (.of_fields hNames _ _)
  · exact .here hDiffers _ _

end Rule

namespace ProcessingNode

/- The steps to different children come apart. -/
theorem below_apart (n : ProcessingNode) :
    n.below.Pairwise fun x y => Apart x.1 y.1 := by
  cases n with
  | definition d =>
      have hListed (field : String) (rules : List Rule) :
          ((Rule.listed field rules).map fun (steps, r) =>
              (steps, ProcessingNode.rule r)).Pairwise
            fun x y => Apart x.1 y.1 := by
        rw [List.pairwise_map]
        exact Rule.listed_apart field rules
      cases d with
      | item i =>
          have hNames : "templateProcessing" ≠ "responseProcessing" := by
            decide
          simp only [below, Definition.ruleLists, List.flatMap_cons,
            List.flatMap_nil, List.append_nil]
          rw [List.pairwise_append]
          refine ⟨hListed _ _, hListed _ _, fun x hX y hY => ?_⟩
          obtain ⟨v, hV, rfl⟩ := List.mem_map.mp hX
          obtain ⟨w, hW, rfl⟩ := List.mem_map.mp hY
          obtain ⟨k, hK⟩ := Rule.steps_listed hV
          obtain ⟨l, hL⟩ := Rule.steps_listed hW
          simp only [hK, hL]
          exact .of_fields hNames _ _
      | test t =>
          simp only [below, Definition.ruleLists, List.flatMap_cons,
            List.flatMap_nil, List.append_nil]
          exact hListed _ _
  | rule r =>
      rw [below, List.pairwise_append, List.pairwise_map,
        List.pairwise_map]
      refine ⟨r.held_apart.imp fun hApart => hApart.append _ _,
        r.inner_apart, fun x hX y hY => ?_⟩
      obtain ⟨v, hV, rfl⟩ := List.mem_map.mp hX
      obtain ⟨w, hW, rfl⟩ := List.mem_map.mp hY
      have hApart :=
        (Rule.held_apart_inner hV hW).append [⟨v.2.name, none⟩] []
      rwa [List.append_nil] at hApart
  | expression e =>
      refine apart_zipIdx e.args 0 fun a b i j hOther => ?_
      exact .here (Or.inr ⟨i, j, rfl, rfl, hOther⟩) [] []

/- There are steps to every child, and their names are plain. -/
theorem below_plain
    {n : ProcessingNode}
    {x : List PathStep × ProcessingNode}
    (hMem : x ∈ n.below) :
    x.1 ≠ [] ∧ ∀ s ∈ x.1, s.isPlain = true := by
  have hExpression :
      (PathStep.mk "expression" none).isPlain = true := by
    simp [PathStep.isPlain]
  have hCondition :
      (PathStep.mk "condition" none).isPlain = true := by
    simp [PathStep.isPlain]
  have hRules (i : Nat) :
      (PathStep.mk "rules" (some i)).isPlain = true := by
    simp [PathStep.isPlain]
  cases n with
  | definition d =>
      obtain ⟨l, hL, hIn⟩ := List.mem_flatMap.mp hMem
      obtain ⟨⟨steps, r⟩, hY, rfl⟩ := List.mem_map.mp hIn
      obtain ⟨i, hI⟩ := Rule.steps_listed hY
      have hField : (PathStep.mk l.field (some i)).isPlain = true := by
        cases d <;> simp only [Definition.ruleLists, List.mem_cons,
          List.not_mem_nil, or_false] at hL <;>
          rcases hL with rfl | rfl <;> simp [PathStep.isPlain]
      change steps ≠ [] ∧ ∀ s ∈ steps, s.isPlain = true
      cases hI
      simp [hField]
  | rule r =>
      rcases List.mem_append.mp hMem with hHeld | hInner
      · obtain ⟨y, hY, rfl⟩ := List.mem_map.mp hHeld
        have hName := y.2.isPlain_name none
        rcases Rule.steps_held hY with
          ⟨hSteps, _⟩ | ⟨kind, test, rules, rest, s, _, hS, hSteps⟩
        · simp [hSteps, hName, hExpression]
        · simp [hSteps, hName, hS.isPlain, hCondition]
      · obtain ⟨y, hY, rfl⟩ := List.mem_map.mp hInner
        rcases Rule.steps_inner hY with
          ⟨i, hSteps, _⟩ |
            ⟨kind, test, rules, rest, s, i, _, hS, hSteps⟩
        · simp [hSteps, hRules]
        · simp [hSteps, hS.isPlain, hRules]
  | expression e =>
      obtain ⟨⟨a, i⟩, _, rfl⟩ := List.mem_map.mp hMem
      simp [a.isPlain_name (some i)]

------------------------------------------------------------
-- Steps to Addresses
------------------------------------------------------------

variable {n m : ProcessingNode} {a b : List Nat}

/- An address with a node leads through a child. -/
theorem at?_cons
    {i : Nat}
    (hAt : n.at? (i :: a) = some m) :
    ∃ x, n.below[i]? = some x ∧ x.2.at? a = some m ∧
      n.stepsTo (i :: a) = x.1 ++ x.2.stepsTo a := by
  obtain ⟨x, hX, hRest⟩ := Option.bind_eq_some_iff.mp hAt
  refine ⟨x, hX, hRest, ?_⟩
  rw [stepsTo, hX]

/- The steps to a node go on to what is below it. -/
theorem stepsTo_append
    (hAt : n.at? a = some m)
    (more : List Nat) :
    n.stepsTo (a ++ more) = n.stepsTo a ++ m.stepsTo more := by
  induction a generalizing n with
  | nil =>
      cases hAt
      rfl
  | cons i rest ih =>
      obtain ⟨x, hX, hRest, hSteps⟩ := at?_cons hAt
      rw [hSteps, List.append_assoc, ← ih hRest, List.cons_append,
        stepsTo, hX]

theorem at?_append
    (hAt : n.at? a = some m)
    (more : List Nat) :
    n.at? (a ++ more) = m.at? more := by
  induction a generalizing n with
  | nil =>
      cases hAt
      rfl
  | cons i rest ih =>
      obtain ⟨x, hX, hRest, -⟩ := at?_cons hAt
      rw [List.cons_append, at?, hX]
      exact ih hRest

theorem isPlain_stepsTo
    (hAt : n.at? a = some m) :
    ∀ s ∈ n.stepsTo a, s.isPlain = true := by
  induction a generalizing n with
  | nil => exact fun s hMem => absurd hMem List.not_mem_nil
  | cons i rest ih =>
      obtain ⟨x, hX, hRest, hSteps⟩ := at?_cons hAt
      rw [hSteps]
      intro s hMem
      rcases List.mem_append.mp hMem with hFirst | hLater
      · exact (below_plain (List.mem_of_getElem? hX)).2 s hFirst
      · exact ih hRest s hLater

/- It takes steps to get below a node. -/
theorem stepsTo_ne_nil
    (hAt : n.at? a = some m)
    (hBelow : a ≠ []) :
    n.stepsTo a ≠ [] := by
  cases a with
  | nil => exact absurd rfl hBelow
  | cons i rest =>
      obtain ⟨x, hX, -, hSteps⟩ := at?_cons hAt
      have hSome := (below_plain (List.mem_of_getElem? hX)).1
      rw [hSteps]
      exact fun hNone => hSome (List.append_eq_nil_iff.mp hNone).1

/- Where addresses part, the steps come apart. -/
theorem stepsTo_apart
    {k : ProcessingNode}
    (hA : n.at? a = some m)
    (hB : n.at? b = some k)
    (hNot : ¬ a <+: b)
    (hBack : ¬ b <+: a) :
    Apart (n.stepsTo a) (n.stepsTo b) := by
  induction a generalizing n b with
  | nil => exact absurd List.nil_prefix hNot
  | cons i rest ih =>
      cases b with
      | nil => exact absurd List.nil_prefix hBack
      | cons j later =>
          obtain ⟨x, hX, hRest, hSteps⟩ := at?_cons hA
          obtain ⟨y, hY, hLater, hSteps'⟩ := at?_cons hB
          rw [hSteps, hSteps']
          by_cases hSame : i = j
          · subst hSame
            rw [hX] at hY
            cases hY
            rw [List.prefix_cons_inj] at hNot hBack
            exact (ih hRest hLater hNot hBack).within x.1
          · obtain ⟨hI, hGetI⟩ := List.getElem?_eq_some_iff.mp hX
            obtain ⟨hJ, hGetJ⟩ := List.getElem?_eq_some_iff.mp hY
            have hPairs :=
              List.pairwise_iff_getElem.mp n.below_apart
            have hApart : Apart x.1 y.1 := by
              rw [← hGetI, ← hGetJ]
              rcases Nat.lt_or_gt_of_ne hSame with hLess | hMore
              · exact hPairs i j hI hJ hLess
              · exact (hPairs j i hJ hI hMore).symm
            exact hApart.append _ _

/- A path leads below another as the addresses do. -/
theorem isUnder_iff
    {k : ProcessingNode}
    (hA : n.at? a = some m)
    (hB : n.at? b = some k)
    (p : Path) :
    isUnder (p.extend (n.stepsTo a)).text
        (p.extend (n.stepsTo b)).text = true ↔ a <+: b := by
  constructor
  · intro hUnder
    by_contra hNot
    by_cases hBack : b <+: a
    · obtain ⟨more, rfl⟩ := hBack
      have hSome : more ≠ [] := by
        rintro rfl
        rw [List.append_nil] at hNot
        exact hNot List.prefix_rfl
      rw [at?_append hB] at hA
      rw [stepsTo_append hB, Path.extend_append] at hUnder
      exact Path.not_isUnder_extend _ (stepsTo_ne_nil hA hSome)
        hUnder
    · exact (stepsTo_apart hA hB hNot hBack).not_isUnder
        (isPlain_stepsTo hA) (isPlain_stepsTo hB) p hUnder
  · rintro ⟨more, rfl⟩
    rw [stepsTo_append hA, Path.extend_append]
    exact Path.isUnder_extend _ _

end ProcessingNode

------------------------------------------------------------
-- Visits of a Definition
------------------------------------------------------------

namespace Definition

variable {d : Definition} {places : List (List Nat)}

/-
  Addresses for the visits of a definition, one for each. All
  nodes below the definition have one, and a node is visited
  before what is below it.
-/
structure Located (d : Definition) (places : List (List Nat)) :
    Prop where
  same :
    places.map (ProcessingNode.definition d).at? =
      d.visits.map fun v => some v.2
  distinct : places.Nodup
  complete :
    ∀ a, a ∈ places ↔
      a ≠ [] ∧ ((ProcessingNode.definition d).at? a).isSome
  ordered : places.Pairwise fun a b => ¬ b <+: a

/- What leads on from a list does not come before it. -/
theorem not_append_lt (b more : List Nat) : ¬ b ++ more < b := by
  induction b with
  | nil => exact List.not_lt_nil _
  | cons i rest ih =>
      rw [List.cons_append, List.cons_lt_cons_iff]
      rintro (hLess | ⟨-, hLess⟩)
      · exact Nat.lt_irrefl i hLess
      · exact ih hLess

/- The visits at addresses have the steps of the addresses. -/
theorem paths_eq
    (hTours :
      ToursIn (ProcessingNode.definition d).below
        (.root d.identifier) d.visits places) :
    places.map (fun a =>
        ((Path.root d.identifier).extend
            ((ProcessingNode.definition d).stepsTo a),
          (ProcessingNode.definition d).at? a)) =
      d.visits.map fun v => (v.1, some v.2) := by
  rw [← hTours.same]
  apply List.map_congr_left
  intro a hMem
  obtain ⟨i, rest, rfl, -⟩ := hTours.exists_index hMem
  rfl

theorem located
    (hTours :
      ToursIn (ProcessingNode.definition d).below
        (.root d.identifier) d.visits places) :
    d.Located places where
  same := by
    have hSecond := congrArg (List.map Prod.snd) (paths_eq hTours)
    simpa [Function.comp_def] using hSecond
  distinct := hTours.ordered.imp fun hLess => hLess.ne
  complete a := by
    constructor
    · intro hMem
      obtain ⟨v, -, hSame⟩ := List.mem_map.mp
        (paths_eq hTours ▸ List.mem_map_of_mem hMem)
      obtain ⟨i, rest, rfl, -⟩ := hTours.exists_index hMem
      have hAt := congrArg Prod.snd hSame
      exact ⟨List.cons_ne_nil i rest,
        Option.isSome_of_eq_some hAt.symm⟩
    · rintro ⟨hBelow, hSome⟩
      obtain ⟨m, hAt⟩ := Option.isSome_iff_exists.mp hSome
      cases a with
      | nil => exact absurd rfl hBelow
      | cons i rest => exact hTours.complete _ m hAt
  ordered := hTours.ordered.imp fun hLess => by
    rintro ⟨more, rfl⟩
    exact not_append_lt _ more hLess

/- The rules that are visited are all rules. -/
theorem rules_visited (d : Definition) :
    (d.visits.filterMap fun v => v.2.rule?.map (v.1, ·)) =
      d.rules.map (·.2) := by
  rw [visits, List.filterMap_flatMap, List.map_eq_flatMap]
  apply List.flatMap_congr
  rintro ⟨kind, path, r⟩ -
  simp [Rule.visited, ProcessingNode.rule?]

/- The expressions that are visited are all expressions. -/
theorem expressions_visited (d : Definition) :
    (d.visits.filterMap fun v => v.2.expression?.map (v.1, ·)) =
      d.expressions := by
  rw [visits, List.filterMap_flatMap, expressions]
  apply List.flatMap_congr
  rintro ⟨kind, path, r⟩ -
  simp [Rule.visited, ProcessingNode.expression?]

/-
  Rules and expressions are all visited, each once and after
  the rule or expression that holds it. All their paths have
  different texts, and a text leads to or below a node only if
  its own node is there.
-/
theorem paths_identify (d : Definition) :
    (d.visits.filterMap fun v => v.2.rule?.map (v.1, ·)) =
        d.rules.map (·.2) ∧
      (d.visits.filterMap fun v => v.2.expression?.map (v.1, ·)) =
        d.expressions ∧
      (d.visits.map fun v => v.1.text).Nodup ∧
      ∃ places, d.Located places ∧
        ∀ x ∈ places.zip d.visits, ∀ y ∈ places.zip d.visits,
          isUnder x.2.1.text y.2.1.text = true ↔ x.1 <+: y.1 := by
  obtain ⟨places, hTours⟩ := d.toured
  have hLocated := located hTours
  have hPaths := paths_eq hTours
  have hAt (a : List Nat) (hMem : a ∈ places) :
      ∃ m, (ProcessingNode.definition d).at? a = some m :=
    Option.isSome_iff_exists.mp ((hLocated.complete a).mp hMem).2
  have hUnder :
      ∀ a ∈ places, ∀ b ∈ places,
        isUnder
            ((Path.root d.identifier).extend
              ((ProcessingNode.definition d).stepsTo a)).text
            ((Path.root d.identifier).extend
              ((ProcessingNode.definition d).stepsTo b)).text =
          true ↔ a <+: b := by
    intro a hA b hB
    obtain ⟨m, hM⟩ := hAt a hA
    obtain ⟨k, hK⟩ := hAt b hB
    exact ProcessingNode.isUnder_iff hM hK _
  refine ⟨d.rules_visited, d.expressions_visited, ?_, places,
    hLocated, ?_⟩
  · have hTexts :=
      congrArg (List.map fun x => x.1.text) hPaths
    rw [List.map_map, List.map_map] at hTexts
    rw [← show _ = d.visits.map fun v => v.1.text from hTexts]
    refine List.Nodup.map_on ?_ hLocated.distinct
    intro a hA b hB hSame
    have hText :
        ((Path.root d.identifier).extend
            ((ProcessingNode.definition d).stepsTo a)).text =
          ((Path.root d.identifier).extend
            ((ProcessingNode.definition d).stepsTo b)).text :=
      hSame
    have hForth := (hUnder a hA b hB).mp
      (by rw [hText]; exact Path.isUnder_self _)
    have hBack := (hUnder b hB a hA).mp
      (by rw [hText]; exact Path.isUnder_self _)
    exact hForth.eq_of_length_le hBack.length_le
  · rintro ⟨a, v⟩ hX ⟨b, w⟩ hY
    have hEach := List.forall₂_map_left_iff.mp
      (List.forall₂_map_right_iff.mp
        (List.forall₂_eq_eq_eq ▸ hPaths))
    have hV := congrArg Prod.fst (List.forall₂_zip hEach hX)
    have hW := congrArg Prod.fst (List.forall₂_zip hEach hY)
    have hSame := hUnder a (List.of_mem_zip hX).1 b
      (List.of_mem_zip hY).1
    simp only at hV hW
    rwa [hV, hW] at hSame

end Definition

end Assessment
