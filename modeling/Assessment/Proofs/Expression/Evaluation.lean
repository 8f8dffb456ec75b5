import Assessment.Expression.Evaluation
import Assessment.Expression.Reader
import Assessment.Proofs.Stateful
import Assessment.Proofs.Typing.Values
import Mathlib.Data.List.Forall2

/-
  Evaluation of expressions, read off leaves and operators.

  An expression is made of the expressions inside it. What
  holds of the evaluation of its leaves and of the operators
  in it holds of its own evaluation.

  Main declarations:
    * `Expression.inductionOn`
    * `Expression.subexpressions`, all that is inside
    * `Expression.evaluate_gives`, what the values are
    * `Expression.evaluate_closed`, for any family
    * `Expression.IsRead`, expressions from package data
-/

------------------------------------------------------------
-- Expressions Inside
------------------------------------------------------------

namespace Assessment

open Stateful

namespace Expression

section

variable {P : Expression → Prop}

mutual

/- What passes from arguments to nodes holds everywhere. -/
@[elab_as_elim]
theorem inductionOn
    (e : Expression)
    (leaf : ∀ l, P (.leaf l))
    (node :
      ∀ op args, (∀ e ∈ args, P e) → P (.node op args)) :
    P e := by
  match e with
  | .leaf l => exact leaf l
  | .node op args =>
      exact node op args (inductionOnAll args leaf node)

theorem inductionOnAll
    (es : List Expression)
    (leaf : ∀ l, P (.leaf l))
    (node :
      ∀ op args, (∀ e ∈ args, P e) → P (.node op args)) :
    ∀ e ∈ es, P e := by
  match es with
  | [] =>
      intro e hMem
      cases hMem
  | e :: rest =>
      have hFirst := inductionOn e leaf node
      have hRest := inductionOnAll rest leaf node
      intro e' hMem
      rcases List.mem_cons.mp hMem with rfl | hLater
      · exact hFirst
      · exact hRest e' hLater

end

end

mutual

/- An expression and all expressions inside it. -/
def subexpressions : Expression → List Expression
  | .leaf l => [.leaf l]
  | .node op args => .node op args :: subexpressionsIn args

/- Expressions in a row and all expressions inside them. -/
def subexpressionsIn : List Expression → List Expression
  | [] => []
  | e :: rest => subexpressions e ++ subexpressionsIn rest

end

@[simp] theorem mem_subexpressionsIn
    {x : Expression}
    {es : List Expression} :
    x ∈ subexpressionsIn es ↔ ∃ e ∈ es, x ∈ e.subexpressions := by
  induction es with
  | nil => simp [subexpressionsIn]
  | cons e rest ih => simp [subexpressionsIn, ih]

theorem mem_subexpressions_self (e : Expression) :
    e ∈ e.subexpressions := by
  cases e <;> simp [subexpressions]

theorem mem_subexpressions_leaf
    {x : Expression}
    {l : Leaf} :
    x ∈ (leaf l).subexpressions ↔ x = .leaf l := by
  simp [subexpressions]

theorem mem_subexpressions_node
    {x : Expression}
    {op : Operator}
    {args : List Expression} :
    x ∈ (node op args).subexpressions ↔
      x = .node op args ∨ ∃ e ∈ args, x ∈ e.subexpressions := by
  simp [subexpressions]

/- What is inside an argument is inside the node. -/
theorem mem_subexpressions_of_arg
    {x e : Expression}
    {op : Operator}
    {args : List Expression}
    (hArg : e ∈ args)
    (hInside : x ∈ e.subexpressions) :
    x ∈ (node op args).subexpressions :=
  mem_subexpressions_node.mpr (Or.inr ⟨e, hArg, hInside⟩)

------------------------------------------------------------
-- Values
------------------------------------------------------------

section

variable {engine : Engine}
variable {scope : Scope}
variable {I : Tally → Prop}
variable {P : Expression → Value → Prop}

/- Arguments give values one by one. -/
theorem evaluateAll_gives
    {es : List Expression}
    (hEach :
      ∀ e ∈ es, Gives I (P e) (evaluate engine scope e)) :
    Gives I (List.Forall₂ P es)
      (evaluateAll engine scope es) := by
  induction es with
  | nil =>
      rw [evaluateAll]
      exact Gives.pure .nil
  | cons e rest ih =>
      have hFirst := hEach e List.mem_cons_self
      have hRest := ih fun e' hMem =>
        hEach e' (List.mem_cons_of_mem e hMem)
      rw [evaluateAll]
      apply hFirst.bind
      intro v hV
      apply hRest.bind
      intro vs hVs
      exact Gives.pure (.cons hV hVs)

/- Each value is the value of an argument. -/
theorem exists_of_mem_right
    {Q : Expression → Value → Prop}
    {es : List Expression}
    {values : List Value}
    (hValues : List.Forall₂ Q es values)
    {v : Value}
    (hMem : v ∈ values) :
    ∃ e ∈ es, Q e v := by
  induction hValues with
  | nil => cases hMem
  | cons hFirst _ ih =>
      rcases List.mem_cons.mp hMem with rfl | hLater
      · exact ⟨_, List.mem_cons_self, hFirst⟩
      · obtain ⟨e, hIn, hValue⟩ := ih hLater
        exact ⟨e, List.mem_cons_of_mem _ hIn, hValue⟩

/- Each argument has its value among the values. -/
theorem exists_of_mem_left
    {Q : Expression → Value → Prop}
    {es : List Expression}
    {values : List Value}
    (hValues : List.Forall₂ Q es values)
    {e : Expression}
    (hMem : e ∈ es) :
    ∃ v ∈ values, Q e v := by
  induction hValues with
  | nil => cases hMem
  | cons hFirst _ ih =>
      rcases List.mem_cons.mp hMem with rfl | hLater
      · exact ⟨_, List.mem_cons_self, hFirst⟩
      · rcases ih hLater with ⟨v, hIn, hValue⟩
        exact ⟨v, List.mem_cons_of_mem _ hIn, hValue⟩

/-
  Induction over the expression. What the leaves inside give,
  and what operators make of the values of their arguments, is
  what the expression gives.
-/
theorem evaluate_gives
    (e : Expression)
    (hLeaf :
      ∀ l, .leaf l ∈ e.subexpressions →
        Gives I (P (.leaf l)) (l.evaluate engine scope))
    (hNode :
      ∀ op args values,
        .node op args ∈ e.subexpressions →
        List.Forall₂ P args values →
        Gives I (P (.node op args))
          (op.apply engine scope.source values)) :
    Gives I (P e) (evaluate engine scope e) := by
  induction e using inductionOn with
  | leaf l =>
      rw [evaluate]
      exact hLeaf l (mem_subexpressions_self _)
  | node op args ih =>
      have hArgs :
          ∀ e ∈ args, Gives I (P e) (evaluate engine scope e) := by
        intro e hArg
        apply ih e hArg
        · intro l hInside
          exact hLeaf l (mem_subexpressions_of_arg hArg hInside)
        · intro op' args' values hInside
          exact hNode op' args' values
            (mem_subexpressions_of_arg hArg hInside)
      rw [evaluate]
      apply (evaluateAll_gives hArgs).bind
      intro values hValues
      exact hNode op args values (mem_subexpressions_self _)
        hValues

end

------------------------------------------------------------
-- Families
------------------------------------------------------------

section

variable {engine : Engine}
variable {scope : Scope}
variable {C : (α : Type) → Step α → Prop}

theorem evaluateAll_closed
    (hClosed : Closed C)
    {es : List Expression}
    (hEach : ∀ e ∈ es, C Value (evaluate engine scope e)) :
    C (List Value) (evaluateAll engine scope es) := by
  induction es with
  | nil =>
      rw [evaluateAll]
      exact hClosed.pure _
  | cons e rest ih =>
      have hRest := ih fun e' hMem =>
        hEach e' (List.mem_cons_of_mem e hMem)
      rw [evaluateAll]
      apply hClosed.bind (hEach e List.mem_cons_self)
      intro v
      apply hClosed.bind hRest
      exact fun _ => hClosed.pure _

/-
  A family of computations with the evaluations of the leaves
  inside and all applications of operators has the evaluation
  of the expression.
-/
theorem evaluate_closed
    (hClosed : Closed C)
    (e : Expression)
    (hLeaf :
      ∀ l, .leaf l ∈ e.subexpressions →
        C Value (l.evaluate engine scope))
    (hApply :
      ∀ (op : Operator) values,
        C Value (op.apply engine scope.source values)) :
    C Value (evaluate engine scope e) := by
  induction e using inductionOn with
  | leaf l =>
      rw [evaluate]
      exact hLeaf l (mem_subexpressions_self _)
  | node op args ih =>
      rw [evaluate]
      apply hClosed.bind
      · apply evaluateAll_closed hClosed
        intro e hArg
        apply ih e hArg
        intro l hInside
        exact hLeaf l (mem_subexpressions_of_arg hArg hInside)
      · exact hApply op

end

------------------------------------------------------------
-- Readers
------------------------------------------------------------

/- An expression has been read from package data. -/
def IsRead (e : Expression) : Prop :=
  ∃ j, ofJson j = .ok e

theorem isRead_of_allOfJson
    {vs : List Json}
    {es : List Expression}
    (hRead : allOfJson vs = .ok es) :
    ∀ e ∈ es, e.IsRead := by
  induction vs generalizing es with
  | nil =>
      rw [allOfJson] at hRead
      cases hRead
      simp
  | cons v vs ih =>
      rw [allOfJson, bind_eq_ok_iff] at hRead
      obtain ⟨e, hFirst, hRest⟩ := hRead
      rw [bind_eq_ok_iff] at hRest
      obtain ⟨es', hLater, hAll⟩ := hRest
      cases hAll
      intro e' hMem
      rcases List.mem_cons.mp hMem with rfl | hIn
      · exact ⟨v, hFirst⟩
      · exact ih hLater e' hIn

theorem isRead_of_argsOfMembers
    {ms : List (String × Json)}
    {es : List Expression}
    (hRead : argsOfMembers ms = .ok es) :
    ∀ e ∈ es, e.IsRead := by
  induction ms with
  | nil =>
      rw [argsOfMembers] at hRead
      cases hRead
      simp
  | cons m ms ih =>
      obtain ⟨k, v⟩ := m
      rw [argsOfMembers] at hRead
      split at hRead
      · cases v with
        | null => cases hRead; simp
        | array vs =>
            rw [argsOfJson] at hRead
            exact isRead_of_allOfJson hRead
        | bool b => cases hRead
        | number n => cases hRead
        | string s => cases hRead
        | object ms => cases hRead
      · exact ih hRead

/- What is put together is what has been read before. -/
theorem args_of_assemble
    {v : Json}
    {args : Except Failure (List Expression)}
    {op : Operator}
    {es : List Expression}
    (hRead : assemble v args = .ok (.node op es)) :
    args = .ok es := by
  unfold assemble at hRead
  split at hRead
  next => cases hRead
  next name _ =>
    rw [bind_eq_ok_iff] at hRead
    obtain ⟨found, _, hThen⟩ := hRead
    split at hThen
    next op' =>
      rw [bind_eq_ok_iff] at hThen
      obtain ⟨es', hArgs, hSame⟩ := hThen
      cases hSame
      exact hArgs
    next =>
      rw [bind_eq_ok_iff] at hThen
      obtain ⟨leaf?, _, hLeaf⟩ := hThen
      split at hLeaf <;> cases hLeaf

theorem leaf_of_assemble
    {v : Json}
    {args : Except Failure (List Expression)}
    {l : Leaf}
    (hRead : assemble v args = .ok (.leaf l)) :
    ∃ name, Leaf.ofJson? name v = .ok (some l) := by
  unfold assemble at hRead
  split at hRead
  next => cases hRead
  next name _ =>
    rw [bind_eq_ok_iff] at hRead
    obtain ⟨found, _, hThen⟩ := hRead
    split at hThen
    next op' =>
      rw [bind_eq_ok_iff] at hThen
      obtain ⟨es', _, hSame⟩ := hThen
      cases hSame
    next =>
      rw [bind_eq_ok_iff] at hThen
      obtain ⟨leaf?, hFound, hLeaf⟩ := hThen
      split at hLeaf
      next l' =>
        cases hLeaf
        exact ⟨name, hFound⟩
      next => cases hLeaf

/- Data is an expression with arguments among its members. -/
theorem exists_assemble_of_isRead
    {e : Expression}
    (hRead : e.IsRead) :
    ∃ v args, assemble v args = .ok e ∧
      ∀ es, args = .ok es → ∀ e ∈ es, e.IsRead := by
  obtain ⟨j, hRead⟩ := hRead
  have hNone : ∀ es : List Expression,
      Except.ok (ε := Failure) [] = .ok es →
        ∀ e ∈ es, e.IsRead := by
    intro es hSame
    cases hSame
    simp
  cases j with
  | object ms =>
      rw [ofJson] at hRead
      exact ⟨_, _, hRead, fun _ => isRead_of_argsOfMembers⟩
  | null =>
      rw [ofJson] at hRead
      exact ⟨_, _, hRead, hNone⟩
  | bool b =>
      rw [ofJson] at hRead
      exact ⟨_, _, hRead, hNone⟩
  | number n =>
      rw [ofJson] at hRead
      exact ⟨_, _, hRead, hNone⟩
  | string s =>
      rw [ofJson] at hRead
      exact ⟨_, _, hRead, hNone⟩
  | array vs =>
      rw [ofJson] at hRead
      exact ⟨_, _, hRead, hNone⟩

theorem IsRead.arg
    {op : Operator}
    {args : List Expression}
    (hRead : (node op args).IsRead) :
    ∀ e ∈ args, e.IsRead := by
  obtain ⟨v, read, hWhole, hArgs⟩ :=
    exists_assemble_of_isRead hRead
  exact hArgs args (args_of_assemble hWhole)

theorem IsRead.leaf
    {l : Leaf}
    (hRead : (Expression.leaf l).IsRead) :
    ∃ name v, Leaf.ofJson? name v = .ok (some l) := by
  obtain ⟨v, read, hWhole, _⟩ :=
    exists_assemble_of_isRead hRead
  obtain ⟨name, hLeaf⟩ := leaf_of_assemble hWhole
  exact ⟨name, v, hLeaf⟩

/- All that is inside has been read as well. -/
theorem IsRead.inside
    {e x : Expression}
    (hRead : e.IsRead)
    (hInside : x ∈ e.subexpressions) :
    x.IsRead := by
  induction e using inductionOn with
  | leaf l =>
      rw [mem_subexpressions_leaf] at hInside
      rw [hInside]
      exact hRead
  | node op args ih =>
      rw [mem_subexpressions_node] at hInside
      rcases hInside with rfl | ⟨e, hArg, hIn⟩
      · exact hRead
      · exact ih e hArg (hRead.arg e hArg) hIn

end Expression

end Assessment
