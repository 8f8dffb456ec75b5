import Assessment.Item.Result
import Assessment.Test.Session

/-
  Results and feedback of test sessions.

  Key definitions include:
    * `TestSession.result`, what is recorded about a run
    * `TestSession.feedback`, the feedback to be seen
-/

------------------------------------------------------------
-- Results
------------------------------------------------------------

namespace Assessment

namespace TestSession

/- The value of an outcome, or NULL. -/
def outcome (s : TestSession) (identifier : String) : Value :=
  (s.state.values.get? identifier).getD .null

/- The outcomes, and the times spent on parts and sections. -/
def recorded (s : TestSession) : List ResultVariable :=
  let outcomes :=
    s.test.declarations.map fun d =>
      ResultVariable.ofDeclaration d (s.outcome d.identifier)
  let parts :=
    (s.test.parts.zip s.state.partTimers).map fun (p, t) =>
      ResultVariable.duration p.identifier t.seconds
  let sections :=
    s.plan.sections.map fun k =>
      ResultVariable.duration k (s.secondsIn k)
  outcomes ++ parts ++ sections

/- What is recorded about a run, items in order of the plan. -/
def result (s : TestSession) (now : Instant) :
    AssessmentResult :=
  { stamp := now.stamp
    test := ⟨s.test.identifier, now.stamp, s.recorded⟩
    items := s.entries.zipIdx.map fun (e, i) =>
      e.session.result e.ref.identifier (some (i + 1)) now }

------------------------------------------------------------
-- Feedback
------------------------------------------------------------

/- Whether an outcome shows feedback. -/
def shows (s : TestSession) (f : Feedback) : Bool :=
  f.shows ((s.value? f.outcome).getD .null)

/- The feedback of one access that is shown. -/
def shown (s : TestSession) (access : Access) :
    List Feedback → List Feedback :=
  List.filter fun f => f.access == access && s.shows f

/-
  The feedback to be seen, that of the test first. Feedback at
  the end is seen once the test, or its part, is over.
-/
def feedback (s : TestSession) (access : Access) :
    List Feedback :=
  let seenIf := fun (ended : Bool) (fs : List Feedback) =>
    if access == .during || ended then s.shown access fs else []
  let ofPart :=
    match s.state.part with
    | none => []
    | some i =>
        seenIf (s.state.ended.contains i)
          ((s.test.parts[i]?.map TestPart.feedbacks).getD [])
  seenIf s.state.finished s.test.feedbacks ++ ofPart

end TestSession

end Assessment
