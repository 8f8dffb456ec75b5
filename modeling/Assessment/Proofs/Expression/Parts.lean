import Assessment.Proofs.Expression.Evaluation

/-
  The steps that evaluations are made of.

  An evaluation leaves warnings of a few forms, draws, and
  asks a service. What holds of these steps, and of all that
  is put together from them, holds of every evaluation: it
  adds notes to a tally and takes none away, and unless
  failures of a service are fatal, it goes through.

  Main declarations:
    * `EvaluationNote`, what evaluations say
    * `Engine.Lenient`, where services stop nothing
    * `Step.PartsIn`, a family with these steps
    * `Expression.evaluate_partsIn`
    * `Tally.Adds`, notes with a property
    * `Step.Works`, with one lemma for each step
    * `Expression.evaluate_works`
-/

------------------------------------------------------------
-- What Evaluations Say
------------------------------------------------------------

namespace Assessment

open Stateful

/- What an evaluation may say of what it reads. -/
inductive EvaluationNote : String → Prop where
  | undeclared (identifier : String) :
      EvaluationNote ("undeclared variable '" ++ identifier ++ "'")
  | noDefault (identifier : String) :
      EvaluationNote
        ("default: undeclared variable '" ++ identifier ++ "'")
  | noCorrect (identifier : String) :
      EvaluationNote
        ("correct: undeclared response '" ++ identifier ++ "'")
  | noResponse
      (name identifier : String)
      (hName : name ∈ ["mapResponse", "mapResponsePoint"]) :
      EvaluationNote
        (name ++ ": undeclared response '" ++ identifier ++ "'")
  | noScoring
      (name identifier lacking : String)
      (hName : name ∈ ["mapResponse", "mapResponsePoint"]) :
      EvaluationNote
        (name ++ ": response '" ++ identifier ++ "' has no " ++
          lacking)
  | severalInstances (text reference : String) (count : Nat) :
      EvaluationNote
        ("variable '" ++ text ++ "': item ref '" ++ reference ++
          "' has " ++ toString count ++
          " instances, using the first")
  | noInstance (text reference : String) :
      EvaluationNote
        ("variable '" ++ text ++
          "': no selected instance of item ref '" ++ reference ++
          "'")
  | unresolved (text : String) :
      EvaluationNote ("variable '" ++ text ++ "' does not resolve")
  | outsideTest (kind : SubsetKind) :
      EvaluationNote
        (kind.name ++
          " is only meaningful in test outcome processing")
  | noAnswer (cause : ServiceFailure) :
      EvaluationNote (cause.message ++ "; result is NULL")

/- Failures of a service do not stop an evaluation. -/
def Engine.Lenient (engine : Engine) : Prop :=
  engine.service = none ∨
    engine.settings.policy = .nullWithWarning

------------------------------------------------------------
-- Parts
------------------------------------------------------------

/-
  A family of computations has the steps that evaluations are
  made of. What evaluations draw can always be drawn.
-/
structure Step.PartsIn
    (C : (α : Type) → Step α → Prop)
    (engine : Engine) :
    Prop where
  warn :
    ∀ source message, EvaluationNote message →
      C Unit (Step.warn source message)
  take :
    ∀ {α : Type} (f : Draws → α × Draws), C α (Step.take f)
  draw :
    ∀ {α : Type} (f : Draws → Except Failure (α × Draws)),
      (∀ d, ∃ r, f d = .ok r) → C α (Step.draw f)
  fatal :
    ∀ cause, ¬ engine.Lenient →
      C Value (throw (.service cause))

variable {C : (α : Type) → Step α → Prop}
variable {engine : Engine}

theorem Step.nullWith_partsIn
    (hClosed : Closed C)
    (hParts : Step.PartsIn C engine)
    (source : String)
    {message : String}
    (hNote : EvaluationNote message) :
    C Value (Step.nullWith source message) :=
  hClosed.bind (hParts.warn source message hNote) fun _ =>
    hClosed.pure _

/- An answer of the service in use. -/
theorem Step.ofService_partsIn
    (hClosed : Closed C)
    (hParts : Step.PartsIn C engine)
    {service : Service}
    (hService : engine.service = some service)
    (source : String)
    (answer : Except ServiceFailure Value) :
    C Value
      (Step.ofService engine.settings.policy source answer) := by
  unfold Step.ofService
  split
  · exact hClosed.pure _
  next cause =>
    split
    next =>
      exact Step.nullWith_partsIn hClosed hParts source
        (.noAnswer cause)
    next hFatal =>
      apply hParts.fatal cause
      rintro (hNone | hPolicy)
      · rw [hService] at hNone
        cases hNone
      · rw [hFatal] at hPolicy
        cases hPolicy

theorem chooseElement_partsIn
    (hClosed : Closed C)
    (hParts : Step.PartsIn C engine)
    (v : Value) :
    C Value (chooseElement v) := by
  unfold chooseElement
  split
  · exact hClosed.bind (hParts.take _) fun _ => hClosed.pure _
  · exact hClosed.bind (hParts.take _) fun _ => hClosed.pure _
  · exact hClosed.pure _

theorem Operator.apply_partsIn
    (hClosed : Closed C)
    (hParts : Step.PartsIn C engine)
    (source : String)
    (op : Operator)
    (values : List Value) :
    C Value (op.apply engine source values) := by
  unfold Operator.apply
  dsimp only
  split
  · exact chooseElement_partsIn hClosed hParts _
  · exact hClosed.pure _
  · split
    · exact hClosed.pure _
    · split
      next service hService =>
        exact Step.ofService_partsIn hClosed hParts hService _ _
      next => exact hClosed.pure _
  all_goals exact hClosed.pure _

------------------------------------------------------------
-- Leaves
------------------------------------------------------------

variable {scope : Scope}

theorem orWarn_partsIn
    (hClosed : Closed C)
    (hParts : Step.PartsIn C engine)
    {message : String}
    (hNote : EvaluationNote message)
    (v : Option Value) :
    C Value (orWarn scope message v) := by
  unfold orWarn
  split
  · exact hClosed.pure _
  · exact Step.nullWith_partsIn hClosed hParts _ hNote

theorem readVariable_partsIn
    (hClosed : Closed C)
    (hParts : Step.PartsIn C engine)
    (identifier : String)
    (weight : Option String) :
    C Value (readVariable scope identifier weight) := by
  unfold readVariable
  dsimp only
  split
  · unfold fetchDotted
    split
    · exact hClosed.pure _
    · exact hClosed.bind
        (hParts.warn _ _ (.severalInstances _ _ _)) fun _ =>
          hClosed.pure _
    · exact Step.nullWith_partsIn hClosed hParts _
        (.noInstance _ _)
    · exact Step.nullWith_partsIn hClosed hParts _
        (.unresolved _)
  · exact orWarn_partsIn hClosed hParts (.undeclared _) _

theorem score_partsIn
    {α : Type}
    (hClosed : Closed C)
    (hParts : Step.PartsIn C engine)
    {name : String}
    (hName : name ∈ ["mapResponse", "mapResponsePoint"])
    (identifier lacking : String)
    (scoring? : Declaration → Option α)
    (apply : α → Declaration → Value → Value) :
    C Value
      (score scope name identifier lacking scoring? apply) := by
  unfold score
  split
  · exact Step.nullWith_partsIn hClosed hParts _
      (.noResponse _ _ hName)
  · split
    · exact Step.nullWith_partsIn hClosed hParts _
        (.noScoring _ _ _ hName)
    · exact hClosed.pure _

/- The range of a draw has its first number at least. -/
theorem drawInteger_partsIn
    (hClosed : Closed C)
    (hParts : Step.PartsIn C engine)
    (min max step : Int64) :
    C Value (drawInteger min max step) := by
  unfold drawInteger
  dsimp only
  split
  · exact hClosed.pure _
  · apply hClosed.bind _ fun _ => hClosed.pure _
    apply hParts.draw
    intro d
    unfold Draws.below
    rw [if_neg (by simp)]
    exact ⟨_, rfl⟩

theorem drawFloat_partsIn
    (hClosed : Closed C)
    (hParts : Step.PartsIn C engine)
    (min max : Float) :
    C Value (drawFloat min max) := by
  unfold drawFloat
  split
  · exact hClosed.pure _
  · split
    · exact hClosed.pure _
    · exact hClosed.bind (hParts.take _) fun _ =>
        hClosed.pure _

theorem Leaf.evaluate_partsIn
    (hClosed : Closed C)
    (hParts : Step.PartsIn C engine)
    (l : Leaf) :
    C Value (l.evaluate engine scope) := by
  cases l with
  | base v => exact hClosed.pure v
  | null => exact hClosed.pure Value.null
  | fetch identifier weight =>
      exact readVariable_partsIn hClosed hParts _ _
  | initial identifier =>
      exact orWarn_partsIn hClosed hParts (.noDefault _) _
  | correct identifier =>
      exact orWarn_partsIn hClosed hParts (.noCorrect _) _
  | mapResponse identifier =>
      exact score_partsIn hClosed hParts (by simp) _ _ _ _
  | mapPoints identifier =>
      exact score_partsIn hClosed hParts (by simp) _ _ _ _
  | randomInteger min max step =>
      exact drawInteger_partsIn hClosed hParts _ _ _
  | randomFloat min max =>
      exact drawFloat_partsIn hClosed hParts _ _
  | constant c =>
      simp only [evaluate]
      split
      next service hService =>
        exact Step.ofService_partsIn hClosed hParts hService _ _
      next => exact hClosed.pure _
  | items s =>
      simp only [evaluate]
      split
      · exact hClosed.pure _
      · exact Step.nullWith_partsIn hClosed hParts _
          (.outsideTest _)

/- A family with all these steps has every evaluation. -/
theorem Expression.evaluate_partsIn
    (hClosed : Closed C)
    (hParts : Step.PartsIn C engine)
    (e : Expression) :
    C Value (e.evaluate engine scope) := by
  apply evaluate_closed hClosed
  · exact fun l _ => l.evaluate_partsIn hClosed hParts
  · exact fun op values =>
      op.apply_partsIn hClosed hParts _ values

------------------------------------------------------------
-- Notes
------------------------------------------------------------

open Stateful

/- Notes with a property have been added, and no others. -/
def Tally.Adds (N : Note → Prop) (t u : Tally) : Prop :=
  ∃ more, u.notes = t.notes ++ more ∧ ∀ n ∈ more, N n

namespace Tally.Adds

variable {N : Note → Prop}

theorem of_eq
    {t u : Tally}
    (hSame : u.notes = t.notes) :
    t.Adds N u :=
  ⟨[], by rw [hSame, List.append_nil], by simp⟩

instance : Std.Refl (Tally.Adds N) where
  refl _ := of_eq rfl

instance : IsTrans Tally (Tally.Adds N) where
  trans := by
    rintro t u v ⟨some, hSome, hFirst⟩ ⟨more, hMore, hThen⟩
    refine ⟨some ++ more, ?_, ?_⟩
    · rw [hMore, hSome, List.append_assoc]
    · rw [List.forall_mem_append]
      exact ⟨hFirst, hThen⟩

/- What all notes had before, all have after. -/
theorem forall_mem
    {t u : Tally}
    (hAdds : t.Adds N u)
    (hBefore : ∀ n ∈ t.notes, N n) :
    ∀ n ∈ u.notes, N n := by
  obtain ⟨more, hNotes, hMore⟩ := hAdds
  rw [hNotes, List.forall_mem_append]
  exact ⟨hBefore, hMore⟩

end Tally.Adds

------------------------------------------------------------
-- Steps
------------------------------------------------------------

/-
  An evaluation adds notes with a property, and goes through
  if something can be relied on.
-/
abbrev Step.Works
    {α : Type}
    (N : Note → Prop)
    (relied : Prop)
    (x : Step α) :
    Prop :=
  Stateful.Works (fun _ => True) (Tally.Adds N) relied x

namespace Step

variable {α : Type}
variable {N : Note → Prop}
variable {relied : Prop}

theorem pure_works (a : α) :
    Works N relied (pure a) :=
  Stateful.Works.pure a

theorem warn_works
    {source message : String}
    (hNote : N ⟨.warning, source, message⟩) :
    Works N relied (warn source message) := by
  intro t _
  refine ⟨trivial, ⟨[⟨.warning, source, message⟩], rfl, ?_⟩,
    fun _ => ⟨(), rfl⟩⟩
  simpa using hNote

theorem nullWith_works
    {source message : String}
    (hNote : N ⟨.warning, source, message⟩) :
    Works N relied (nullWith source message) :=
  Stateful.Works.bind (warn_works hNote) fun _ => pure_works _

theorem take_works (f : Draws → α × Draws) :
    Works N relied (take f) := by
  intro t _
  exact ⟨trivial, Tally.Adds.of_eq rfl, fun _ => ⟨_, rfl⟩⟩

theorem draw_works
    {f : Draws → Except Failure (α × Draws)}
    (hDraws : relied → ∀ d, ∃ r, f d = .ok r) :
    Works N relied (draw f) := by
  intro t _
  cases hDrawn : f t.draws with
  | ok r =>
      have hRun : Stateful.run (draw f) t =
          (.ok r.1, { t with draws := r.2 }) := by
        simp [Stateful.run, draw, hDrawn, ExceptT.run,
          ExceptT.mk, StateT.run]
      unfold Ends
      rw [hRun]
      exact ⟨trivial, Tally.Adds.of_eq rfl, fun _ => ⟨r.1, rfl⟩⟩
  | error e =>
      have hRun : Stateful.run (draw f) t = (.error e, t) := by
        simp [Stateful.run, draw, hDrawn, ExceptT.run,
          ExceptT.mk, StateT.run]
      unfold Ends
      rw [hRun]
      refine ⟨trivial, Tally.Adds.of_eq rfl, fun hRelied => ?_⟩
      obtain ⟨r, hOk⟩ := hDraws hRelied t.draws
      rw [hOk] at hDrawn
      cases hDrawn

end Step

------------------------------------------------------------
-- What Evaluations Say
------------------------------------------------------------

/- A note of an evaluation. -/
def Note.IsEvaluations (n : Note) : Prop :=
  EvaluationNote n.message

variable {engine : Engine}
variable {scope : Scope}

/- The steps of evaluations leave their notes alone. -/
theorem Step.works_partsIn :
    Step.PartsIn
      (fun _ => Step.Works Note.IsEvaluations engine.Lenient)
      engine where
  warn _ _ hNote := warn_works hNote
  take f := take_works f
  draw _ hDraws := draw_works fun _ => hDraws
  fatal cause hFatal := by
    intro t _
    refine ⟨trivial, Std.Refl.refl (r := Tally.Adds _) t, ?_⟩
    exact fun hLenient => absurd hLenient hFatal

/-
  Every evaluation adds notes of these forms alone, and goes
  through unless a failure of the service is fatal.
-/
theorem Expression.evaluate_works (e : Expression) :
    Step.Works Note.IsEvaluations engine.Lenient
      (e.evaluate engine scope) :=
  e.evaluate_partsIn Works.closed Step.works_partsIn

end Assessment
