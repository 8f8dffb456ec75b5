import Assessment.Clock.Limits

/-
  How the sessions of a test are controlled.

  Key definitions include:
    * `Navigation` and `SubmissionMode`
    * `Control`, the settings of an item session, and
      `Control.inherit`
-/

------------------------------------------------------------
-- Modes
------------------------------------------------------------

namespace Assessment

/- Whether items can be chosen freely. -/
inductive Navigation where
  | linear
  | nonlinear
deriving DecidableEq, Repr

/- Linear navigation, unless something else is named. -/
def Navigation.parse :
    Option String → Except Failure Navigation
  | none | some "linear" => .ok .linear
  | some "nonlinear" => .ok .nonlinear
  | some name => .error (.unknownName "navigationMode" name)

/- Whether submissions are processed one by one. -/
inductive SubmissionMode where
  | individual
  | simultaneous
deriving DecidableEq, Repr

/- Individual submission, unless something else is named. -/
def SubmissionMode.parse :
    Option String → Except Failure SubmissionMode
  | none | some "individual" => .ok .individual
  | some "simultaneous" => .ok .simultaneous
  | some name => .error (.unknownName "submissionMode" name)

------------------------------------------------------------
-- Controls
------------------------------------------------------------

/- The settings of an item session, as far as they are made. -/
structure Control where
  maxAttempts : Option Int64 := none
  showFeedback : Option Bool := none
  allowReview : Option Bool := none
  showSolution : Option Bool := none
  allowComment : Option Bool := none
  allowSkipping : Option Bool := none
  validateResponses : Option Bool := none
deriving DecidableEq, Repr

namespace Control

/- Settings from package data. -/
def ofJson (v : Json) : Control :=
  let flag := fun field => (v.member? field).bind Json.bool?
  { maxAttempts := v.int64Field? "maxAttempts"
    showFeedback := flag "showFeedback"
    allowReview := flag "allowReview"
    showSolution := flag "showSolution"
    allowComment := flag "allowComment"
    allowSkipping := flag "allowSkipping"
    validateResponses := flag "validateResponses" }

/- Settings completed by those of what encloses them. -/
def inherit (inner outer : Control) : Control :=
  { maxAttempts := inner.maxAttempts.or outer.maxAttempts
    showFeedback := inner.showFeedback.or outer.showFeedback
    allowReview := inner.allowReview.or outer.allowReview
    showSolution := inner.showSolution.or outer.showSolution
    allowComment := inner.allowComment.or outer.allowComment
    allowSkipping := inner.allowSkipping.or outer.allowSkipping
    validateResponses :=
      inner.validateResponses.or outer.validateResponses }

/- The greatest number of attempts, zero for no limit. -/
def attempts (c : Control) (otherwise : Int64) : Int64 :=
  c.maxAttempts.getD otherwise

/- Whether feedback is shown. -/
def showsFeedback (c : Control) : Bool :=
  c.showFeedback.getD false

/- Whether a closed item may be reviewed. -/
def allowsReview (c : Control) : Bool :=
  c.allowReview.getD true

/- Whether the solution is shown. -/
def showsSolution (c : Control) : Bool :=
  c.showSolution.getD false

/- Whether candidates may comment. -/
def allowsComment (c : Control) : Bool :=
  c.allowComment.getD false

/- Whether an item may be left without an answer. -/
def allowsSkipping (c : Control) : Bool :=
  c.allowSkipping.getD true

/- Whether responses must fit their declarations. -/
def validates (c : Control) : Bool :=
  c.validateResponses.getD false

end Control

end Assessment
