import Assessment.Proofs.Keyed
import Assessment.Proofs.Stateful
import Assessment.Proofs.Typing.Values
import Assessment.Scope.Basic

/-
  Scopes whose bindings fit their declarations.

  Every value that is bound in a scope, and every default and
  correct response that overrides a declared one, is meant to
  be accepted by the declaration that its identifier resolves
  to. What a declaration can give by itself never breaks this.

  Main declarations:
    * `Fits`, bindings that declarations accept
    * `Revises`, bindings that follow others
    * `Declaration.Sound`, which gives only what it accepts
    * `Scope.WellTyped`, with the writes that keep it
-/

------------------------------------------------------------
-- Bindings
------------------------------------------------------------

namespace Assessment

/- Bound values are accepted by what they are bound to. -/
def Fits (declarations : List Declaration) (b : Bindings) :
    Prop :=
  ∀ identifier d v,
    findDeclaration? declarations identifier = some d →
    b.get? identifier = some v →
    d.accepts v = true

theorem fits_nil (declarations : List Declaration) :
    Fits declarations [] := by
  intro identifier d v _ hBound
  cases hBound

/- It is enough to look at the names that are bound. -/
theorem fits_iff
    {declarations : List Declaration}
    {b : Bindings} :
    Fits declarations b ↔
      ∀ x ∈ b, ∀ d ∈ findDeclaration? declarations x.1,
        ∀ v ∈ b.get? x.1, d.accepts v = true := by
  constructor
  · intro hFits x _ d hDeclared v hBound
    exact hFits x.1 d v hDeclared hBound
  · intro hAll identifier d v hDeclared hBound
    exact hAll (identifier, v) (Keyed.mem_of_get? hBound) d
      hDeclared v hBound

instance (declarations : List Declaration) (b : Bindings) :
    Decidable (Fits declarations b) :=
  decidable_of_iff _ fits_iff.symm

/- A bound value, or NULL where nothing is bound, fits. -/
theorem Fits.accepts
    {declarations : List Declaration}
    {b : Bindings}
    (hFits : Fits declarations b)
    {identifier : String}
    {d : Declaration}
    (hDeclared :
      findDeclaration? declarations identifier = some d) :
    d.accepts ((b.get? identifier).getD .null) = true := by
  cases hBound : b.get? identifier with
  | none => rfl
  | some v => exact hFits identifier d v hDeclared hBound

/-
  Every declared variable is bound as before, or to a value
  that is allowed for it.
-/
def Revises
    (declarations : List Declaration)
    (allowed : String → Declaration → Value → Prop)
    (b b' : Bindings) :
    Prop :=
  ∀ identifier d,
    findDeclaration? declarations identifier = some d →
    b'.get? identifier = b.get? identifier ∨
      ∃ v, b'.get? identifier = some v ∧ allowed identifier d v

/- The value is one that the declaration accepts. -/
def Accepted (_ : String) (d : Declaration) (v : Value) :
    Prop :=
  d.accepts v = true

namespace Revises

variable {declarations : List Declaration}
variable {allowed : String → Declaration → Value → Prop}
variable {b c e : Bindings}

theorem refl
    (declarations : List Declaration)
    (allowed : String → Declaration → Value → Prop)
    (b : Bindings) :
    Revises declarations allowed b b :=
  fun _ _ _ => Or.inl rfl

theorem trans
    (hFirst : Revises declarations allowed b c)
    (hThen : Revises declarations allowed c e) :
    Revises declarations allowed b e := by
  intro identifier d hDeclared
  rcases hThen identifier d hDeclared with hSame | hNew
  · rw [hSame]
    exact hFirst identifier d hDeclared
  · exact Or.inr hNew

/- What is allowed may be wider. -/
theorem mono
    {wider : String → Declaration → Value → Prop}
    (hRevises : Revises declarations allowed b c)
    (hWider :
      ∀ identifier d v,
        findDeclaration? declarations identifier = some d →
        allowed identifier d v → wider identifier d v) :
    Revises declarations wider b c := by
  intro identifier d hDeclared
  rcases hRevises identifier d hDeclared with
    hSame | ⟨v, hBound, hAllowed⟩
  · exact Or.inl hSame
  · exact Or.inr
      ⟨v, hBound, hWider identifier d v hDeclared hAllowed⟩

/- An allowed value may be bound. -/
theorem put
    {identifier : String}
    {v : Value}
    (hAllowed :
      ∀ d, findDeclaration? declarations identifier = some d →
        allowed identifier d v) :
    Revises declarations allowed b (b.put identifier v) := by
  intro other d hDeclared
  by_cases hSame : other = identifier
  · subst hSame
    exact Or.inr
      ⟨v, Keyed.get?_put_self other v b, hAllowed d hDeclared⟩
  · exact Or.inl (Keyed.get?_put_of_ne hSame v b)

/- Bindings still fit when they are revised to what fits. -/
theorem fits
    (hRevises : Revises declarations Accepted b c)
    (hFits : Fits declarations b) :
    Fits declarations c := by
  intro identifier d v hDeclared hBound
  rcases hRevises identifier d hDeclared with
    hSame | ⟨w, hNew, hAccepts⟩
  · exact hFits identifier d v hDeclared (hSame ▸ hBound)
  · rw [hBound] at hNew
    cases hNew
    exact hAccepts

end Revises

------------------------------------------------------------
-- Declarations
------------------------------------------------------------

/-
  A declaration that accepts what it gives by itself: its
  default, and whatever its lookup table comes up with.
-/
structure Declaration.Sound (d : Declaration) : Prop where
  initial : d.accepts d.initial = true
  lookup :
    ∀ table, d.table? = some table →
      ∀ source,
        d.accepts (d.coerce (d.lookup table source)) = true

/- A declaration with a table is sound if it is single. -/
theorem Declaration.IsBuilt.sound
    {d : Declaration}
    (hBuilt : d.IsBuilt)
    (hSingle : d.table?.isSome = true → d.cardinality = .single) :
    d.Sound where
  initial := accepts_initial hBuilt
  lookup _ hTable source :=
    accepts_lookup hBuilt hTable (hSingle (by simp [hTable]))
      source

theorem mem_of_findDeclaration?
    {declarations : List Declaration}
    {identifier : String}
    {d : Declaration}
    (hDeclared :
      findDeclaration? declarations identifier = some d) :
    d ∈ declarations ∧ d.identifier = identifier := by
  refine ⟨List.mem_of_find?_eq_some hDeclared, ?_⟩
  simpa using List.find?_some hDeclared

------------------------------------------------------------
-- Scopes
------------------------------------------------------------

namespace Scope

/- All that is bound in a scope fits. -/
structure WellTyped (s : Scope) : Prop where
  values : Fits s.declarations s.values
  defaults : Fits s.declarations s.defaults
  corrects : Fits s.declarations s.corrects

/- Every declaration of a scope is sound. -/
def Sound (s : Scope) : Prop :=
  ∀ d ∈ s.declarations, d.Sound

/-
  Every variable has the value that it starts with, and nothing
  overrides what is declared.
-/
structure AtStart (s : Scope) : Prop where
  values :
    ∀ identifier d v, s.declaration? identifier = some d →
      s.values.get? identifier = some v → v = d.initial
  defaults : s.defaults = []
  corrects : s.corrects = []

/- A scope of sound declarations starts well typed. -/
theorem AtStart.wellTyped
    {s : Scope}
    (hStart : s.AtStart)
    (hSound : s.Sound) :
    s.WellTyped := by
  refine ⟨?_, ?_, ?_⟩
  · intro identifier d v hDeclared hBound
    rw [hStart.values identifier d v hDeclared hBound]
    exact (hSound d
      (mem_of_findDeclaration? hDeclared).1).initial
  · rw [hStart.defaults]
    exact fits_nil s.declarations
  · rw [hStart.corrects]
    exact fits_nil s.declarations

/-
  Overriding defaults fit. Those of template variables, which
  are given from outside, are not asked about.
-/
def DefaultsFit (s : Scope) : Prop :=
  ∀ identifier d v,
    s.declaration? identifier = some d →
    d.kind ≠ .template →
    s.defaults.get? identifier = some v →
    d.accepts v = true

theorem WellTyped.defaultsFit
    {s : Scope}
    (hTyped : s.WellTyped) :
    s.DefaultsFit :=
  fun identifier d v hDeclared _ hBound =>
    hTyped.defaults identifier d v hDeclared hBound

------------------------------------------------------------
-- Writes
------------------------------------------------------------

/-
  Defaults are only revised to values that fit, and those of
  template variables are left alone.
-/
structure KeepsDefaults (s t : Scope) : Prop where
  declarations : t.declarations = s.declarations
  defaults :
    Revises s.declarations Accepted s.defaults t.defaults
  templates :
    ∀ identifier d, s.declaration? identifier = some d →
      d.kind = .template →
      t.defaults.get? identifier = s.defaults.get? identifier

/-
  One scope may follow another without harm to its types:
  whatever is bound anew fits.
-/
structure KeepsTypes (s t : Scope) : Prop
    extends s.KeepsDefaults t where
  corrects :
    Revises s.declarations Accepted s.corrects t.corrects
  values :
    s.Sound → s.DefaultsFit →
      Revises s.declarations Accepted s.values t.values

namespace KeepsDefaults

variable {s t u : Scope}

theorem refl (s : Scope) : s.KeepsDefaults s :=
  ⟨rfl, Revises.refl _ _ _, fun _ _ _ _ => rfl⟩

theorem trans
    (hFirst : s.KeepsDefaults t)
    (hThen : t.KeepsDefaults u) :
    s.KeepsDefaults u := by
  refine ⟨hThen.declarations.trans hFirst.declarations,
    ?_, ?_⟩
  · have hDefaults := hThen.defaults
    rw [hFirst.declarations] at hDefaults
    exact hFirst.defaults.trans hDefaults
  · intro identifier d hDeclared hKind
    have hDeclared' : t.declaration? identifier = some d := by
      simpa only [declaration?, hFirst.declarations] using
        hDeclared
    rw [hThen.templates identifier d hDeclared' hKind]
    exact hFirst.templates identifier d hDeclared hKind

theorem sound
    (hKeeps : s.KeepsDefaults t)
    (hSound : s.Sound) :
    t.Sound := by
  unfold Sound
  rw [hKeeps.declarations]
  exact hSound

theorem defaultsFit
    (hKeeps : s.KeepsDefaults t)
    (hFit : s.DefaultsFit) :
    t.DefaultsFit := by
  intro identifier d v hDeclared hKind hBound
  rw [declaration?, hKeeps.declarations] at hDeclared
  rcases hKeeps.defaults identifier d hDeclared with
    hSame | ⟨w, hNew, hAccepts⟩
  · exact hFit identifier d v hDeclared hKind (hSame ▸ hBound)
  · rw [hBound] at hNew
    cases hNew
    exact hAccepts

end KeepsDefaults

instance : Std.Refl KeepsTypes where
  refl s :=
    ⟨KeepsDefaults.refl s, Revises.refl _ _ _,
      fun _ _ => Revises.refl _ _ _⟩

instance : IsTrans Scope KeepsTypes where
  trans s t u hFirst hThen := by
    have hCorrects := hThen.corrects
    rw [hFirst.declarations] at hCorrects
    refine ⟨hFirst.toKeepsDefaults.trans hThen.toKeepsDefaults,
      hFirst.corrects.trans hCorrects, ?_⟩
    intro hSound hFit
    have hValues :=
      hThen.values (hFirst.sound hSound)
        (hFirst.defaultsFit hFit)
    rw [hFirst.declarations] at hValues
    exact (hFirst.values hSound hFit).trans hValues

/- Types that are kept stay right. -/
theorem KeepsTypes.wellTyped
    {s t : Scope}
    (hKeeps : s.KeepsTypes t)
    (hSound : s.Sound)
    (hTyped : s.WellTyped) :
    t.WellTyped := by
  constructor <;> rw [hKeeps.declarations]
  · exact (hKeeps.values hSound hTyped.defaultsFit).fits
      hTyped.values
  · exact hKeeps.defaults.fits hTyped.defaults
  · exact hKeeps.corrects.fits hTyped.corrects

/- What is done with a declared variable is all that is done. -/
theorem ifDeclared_eq_ok
    {s t u : Scope}
    {identifier : String}
    (hDone : s.ifDeclared identifier t = .ok u) :
    u = t := by
  unfold ifDeclared at hDone
  split at hDone
  · cases hDone
    rfl
  · cases hDone

theorem setValue_keepsTypes
    {s t : Scope}
    {identifier : String}
    {v : Value}
    (hSet : s.setValue identifier v = .ok t)
    (hAccepts :
      s.Sound → s.DefaultsFit → ∀ d,
        s.declaration? identifier = some d →
          d.accepts v = true) :
    s.KeepsTypes t := by
  rw [ifDeclared_eq_ok hSet]
  exact ⟨⟨rfl, Revises.refl _ _ _, fun _ _ _ _ => rfl⟩,
    Revises.refl _ _ _, fun hSound hFit =>
      Revises.put (hAccepts hSound hFit)⟩

theorem setDefault_keepsTypes
    {s t : Scope}
    {identifier : String}
    {v : Value}
    (hSet : s.setDefault identifier v = .ok t)
    (hAccepts :
      ∀ d, s.declaration? identifier = some d →
        d.kind ≠ .template ∧ d.accepts v = true) :
    s.KeepsTypes t := by
  unfold setDefault at hSet
  split at hSet
  · cases hSet
  · rw [ifDeclared_eq_ok hSet]
    refine ⟨⟨rfl, ?_, ?_⟩, Revises.refl _ _ _,
      fun _ _ => Revises.refl _ _ _⟩
    · exact Revises.put fun d hDeclared =>
        (hAccepts d hDeclared).2
    · intro other d hDeclared hKind
      have hOther : other ≠ identifier := by
        rintro rfl
        exact (hAccepts d hDeclared).1 hKind
      exact Keyed.get?_put_of_ne hOther v s.defaults

theorem setCorrect_keepsTypes
    {s t : Scope}
    {identifier : String}
    {v : Value}
    (hSet : s.setCorrect identifier v = .ok t)
    (hAccepts :
      ∀ d, s.declaration? identifier = some d →
        d.accepts v = true) :
    s.KeepsTypes t := by
  unfold setCorrect at hSet
  split at hSet
  · cases hSet
  · rw [ifDeclared_eq_ok hSet]
    exact ⟨⟨rfl, Revises.refl _ _ _, fun _ _ _ _ => rfl⟩,
      Revises.put hAccepts, fun _ _ => Revises.refl _ _ _⟩

end Scope

end Assessment
