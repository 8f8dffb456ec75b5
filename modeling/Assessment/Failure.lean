import Assessment.Value.Kind

/-
  What can go wrong, and how it is told.

  Failures are causes. Their wording is given by one function
  for each family of causes, so that proofs speak about the
  causes and never about texts.

  Key definitions include:
    * `Phase`, which a refusal names
    * `Malformation`, why a definition cannot be read
    * `Mismatch`, why a value does not fit its use
    * `Refusal`, why a session does not take a step
    * `EnvelopeFault`, why a package cannot be opened
    * `Failure`, any of these, with `kind` and `message`
-/

------------------------------------------------------------
-- Phases
------------------------------------------------------------

namespace Assessment

/- Where an item session is in its life. -/
inductive Phase where
  | notAttempted
  | initialized
  | interacting
  | suspended
  | finished
deriving DecidableEq, Repr

/- The name of a phase, as messages show it. -/
def Phase.name : Phase → String
  | .notAttempted => "NotAttempted"
  | .initialized => "Initialized"
  | .interacting => "Interacting"
  | .suspended => "Suspended"
  | .finished => "Finished"

------------------------------------------------------------
-- Values That Do Not Fit
------------------------------------------------------------

/- Why a value does not fit its use. -/
inductive Mismatch where
  /- A text that no value of the base type has. -/
  | badText (text : String) (wanted : BaseType)
  /- A number that no value of the base type has. -/
  | badNumber (number : String) (wanted : BaseType)
  /- A number where values are not written as numbers. -/
  | numberFor (number : String) (wanted : BaseType)
  /- Data that is neither text, number nor truth value. -/
  | unreadable (data : String) (wanted : BaseType)
  | foreignElement (container element : BaseType) (text : String)
  | tooManyForSingle (count : Nat)
  | recordFromList
  | recordNotObject
  | noBaseType (cardinality : Cardinality)
  | notNumeric (description : String)
  | noCorrectResponse (outcome : String)
  | fixedDefault (outcome : String)
deriving DecidableEq, Repr

/- The wording of a mismatch. -/
def Mismatch.message : Mismatch → String
  | .badText text t =>
      "'" ++ text ++ "' is not a valid " ++ t.name ++ " value"
  | .badNumber number t =>
      number ++ " is not a valid " ++ t.name ++ " value"
  | .numberFor number t =>
      "number " ++ number ++ " given for " ++ t.name ++ " value"
  | .unreadable data t =>
      "cannot read " ++ t.name ++ " value from " ++ data
  | .foreignElement container element text =>
      container.name ++ " container cannot hold " ++
        element.name ++ " value '" ++ text ++ "'"
  | .tooManyForSingle n =>
      toString n ++ " values given for single cardinality"
  | .recordFromList =>
      "record values cannot be built from a list"
  | .recordNotObject => "record value must be an object"
  | .noBaseType c => c.name ++ " value needs a baseType"
  | .notNumeric description =>
      "expected a numeric single value, got " ++ description
  | .noCorrectResponse outcome =>
      "test outcome '" ++ outcome ++ "' has no correct response"
  | .fixedDefault outcome =>
      "test outcome '" ++ outcome ++ "' has a fixed default"

------------------------------------------------------------
-- Steps That Sessions Refuse
------------------------------------------------------------

/- Why a session does not take a step. -/
inductive Refusal where
  | itemFinished (item : String)
  | itemEntered (item : String)
  | cannotSuspend (phase : Phase)
  | cannotResume (phase : Phase)
  | cannotSubmit (phase : Phase)
  | noSkipping (item : String)
  | alreadyResponded (item : String)
  | noMoreAttempts (item : String)
  | cannotPresent (item : String) (phase : Phase)
  | testNotEntered
  | testEntered
  | testFinished
  | testExited
  | partEnded
  | partNotEnded
  | partIncomplete
  | noPart
  | noItem
  | linearPart
  | itemNotInPart (item : String) (occurrence : Nat)
deriving DecidableEq, Repr

/- The wording of a refusal. -/
def Refusal.message : Refusal → String
  | .itemFinished i => "item session '" ++ i ++ "' has finished"
  | .itemEntered i =>
      "item session '" ++ i ++ "' was already entered"
  | .cannotSuspend p =>
      "cannot suspend item session in phase " ++ p.name
  | .cannotResume p =>
      "cannot resume item session in phase " ++ p.name
  | .cannotSubmit p =>
      "cannot submit responses in phase " ++ p.name
  | .noSkipping i => "item '" ++ i ++ "' may not be skipped"
  | .alreadyResponded i =>
      "item '" ++ i ++ "' has already been responded to"
  | .noMoreAttempts i =>
      "no further attempts are allowed on item '" ++ i ++ "'"
  | .cannotPresent i p =>
      "item '" ++ i ++ "' cannot be presented in phase " ++
        p.name
  | .testNotEntered => "test has not been entered"
  | .testEntered => "test was already entered"
  | .testFinished => "test is finished"
  | .testExited => "test was already exited"
  | .partEnded => "current test part has ended"
  | .partNotEnded => "current test part has not ended"
  | .partIncomplete =>
      "current test part has unanswered or invalid items"
  | .noPart => "not in a test part"
  | .noItem => "no current item"
  | .linearPart =>
      "items can only be selected in nonlinear test parts"
  | .itemNotInPart i n =>
      "item '" ++ i ++ "' instance " ++ toString n ++
        " is not in the current test part"

------------------------------------------------------------
-- Packages and Services
------------------------------------------------------------

/- Why a package cannot be opened. -/
inductive EnvelopeFault where
  | missingField (field : String)
  | badDocument (kind identifier message : String)
  | duplicate (identifier : String)
  | invalid (message : String)
deriving DecidableEq, Repr

namespace EnvelopeFault

/- The name of the family of a fault. -/
def kind : EnvelopeFault → String
  | .missingField _ => "MissingField"
  | .badDocument .. => "DocumentError"
  | .duplicate _ => "DuplicateDocument"
  | .invalid _ => "InvalidPackage"

/- The wording of a fault. -/
def message : EnvelopeFault → String
  | .missingField field =>
      "package missing required field: '" ++ field ++ "'"
  | .badDocument kind identifier m =>
      kind ++ " '" ++ identifier ++ "': " ++ m
  | .duplicate identifier =>
      "duplicate document identifier '" ++ identifier ++ "'"
  | .invalid m => "invalid package: " ++ m

end EnvelopeFault

/- Why an evaluation service gives no answer. -/
inductive ServiceFailure where
  | unavailable (reason : String)
  | rejected (name reason : String)
deriving DecidableEq, Repr

/- The wording of a service failure. -/
def ServiceFailure.message : ServiceFailure → String
  | .unavailable reason => "service unavailable: " ++ reason
  | .rejected name reason =>
      "cannot evaluate '" ++ name ++ "': " ++ reason

------------------------------------------------------------
-- Failures
------------------------------------------------------------

mutual

/- Why a definition cannot be read. -/
inductive Malformation where
  | noString (field : String)
  | notStrings (field : String)
  | notStringList (field : String)
  | notArray (field : String)
  /- A thing that lacks a field it must have. -/
  | lacks (owner field : String)
  /- A field that must hold a certain type of number. -/
  | lacksTyped (owner type field : String)
  | needsSource (owner : String)
  | needsBaseType (owner : String)
  | badValue (field owner : String) (cause : Failure)
  | coordsNotIntegers
  | coordsText (text : String)
  | coordsNotList
  | toleranceNotNumeric
  | badPattern (pattern : String)
  | inDocument (kind identifier : String) (cause : Malformation)

/- Anything that can go wrong. -/
inductive Failure where
  | malformed (cause : Malformation)
  | unknownName (category name : String)
  | unknownVariable (identifier : String)
  | mismatch (cause : Mismatch)
  | notInitialized
  | alreadyInitialized
  | refused (cause : Refusal)
  | unknownDocument (identifier : String)
  | service (cause : ServiceFailure)
  | emptyDraw
  | envelope (cause : EnvelopeFault)

end

mutual

/- The wording of a malformation. -/
def Malformation.message : Malformation → String
  | .noString field =>
      "missing string field '" ++ field ++ "'"
  | .notStrings field => "'" ++ field ++ "' must hold strings"
  | .notStringList field =>
      "'" ++ field ++ "' must be a list of strings"
  | .notArray field => "'" ++ field ++ "' must be an array"
  | .lacks owner field =>
      owner ++ " missing '" ++ field ++ "'"
  | .lacksTyped owner type field =>
      owner ++ " missing " ++ type ++ " '" ++ field ++ "'"
  | .needsSource owner => owner ++ " 'sourceValue'"
  | .needsBaseType owner => owner ++ " requires a baseType"
  | .badValue field owner cause =>
      field ++ " of '" ++ owner ++ "': " ++ cause.message
  | .coordsNotIntegers => "coords must be integers"
  | .coordsText text => "invalid coords '" ++ text ++ "'"
  | .coordsNotList => "coords must be a list or string"
  | .toleranceNotNumeric => "tolerance must be numeric"
  | .badPattern pattern =>
      "invalid pattern '" ++ pattern ++ "': "
  | .inDocument kind identifier cause =>
      kind ++ " '" ++ identifier ++ "': " ++ cause.message

/- The wording of a failure. -/
def Failure.message : Failure → String
  | .malformed cause =>
      "deserialization error: " ++ cause.message
  | .unknownName category name =>
      "unknown " ++ category ++ " '" ++ name ++ "'"
  | .unknownVariable identifier =>
      "unknown variable: " ++ identifier
  | .mismatch cause => "type error: " ++ cause.message
  | .notInitialized => "session has not been initialized"
  | .alreadyInitialized =>
      "session has already been initialized"
  | .refused cause =>
      "invalid session state: " ++ cause.message
  | .unknownDocument identifier =>
      "unknown document: " ++ identifier
  | .service cause =>
      "computer algebra service failure: " ++ cause.message
  | .emptyDraw =>
      "internal evaluator error: draw from an empty range"
  | .envelope cause => cause.message

end

/- The name of the family of a failure. -/
def Failure.kind : Failure → String
  | .malformed _ => "DeserializeError"
  | .unknownName .. => "UnknownName"
  | .unknownVariable _ => "UnknownVariable"
  | .mismatch _ => "TypeError"
  | .notInitialized => "NotInitialized"
  | .alreadyInitialized => "AlreadyInitialized"
  | .refused _ => "InvalidState"
  | .unknownDocument _ => "UnknownDocument"
  | .service _ => "Cas"
  | .emptyDraw => "Internal"
  | .envelope _ => "Interchange"

/- Names the document whose definition is malformed. -/
def Failure.within (kind identifier : String) :
    Failure → Failure
  | .malformed cause =>
      .malformed (.inDocument kind identifier cause)
  | other => other

end Assessment
